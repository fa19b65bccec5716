import WindowJoin.Proofs.Conservation
import WindowJoin.Proofs.Join.Carried
import WindowJoin.Proofs.Join.Turn
import WindowJoin.Proofs.Pipeline.FanOut

/-!
# Through the join to the consumer

What has come out of a join, and behind it what it still has open, carries the batches that it has
taken, one by one and in order, whatever observations come in between (`JoinRun.step_passes`). The
fan-out sends on what it takes, in the order in which it takes it (`FanOut.step_passes`).
-/

namespace WindowJoin

namespace Join

variable {join next : Join} {taken : List MessageBatch} {front : List JoinedBatch}

/-- An observation that is added shows in one group of one open batch. -/
theorem attach_batches {message : Message} (hnext : join.attach? message = some next) :
    ∃ position group, next.batches = join.batches.modify position (·.attach group message) := by
  unfold attach? at hnext
  split at hnext
  · cases hnext
  next place others hplaces =>
    obtain rfl := Option.some.inj hnext
    refine ⟨place.serial - join.pending.head?.elim place.serial (·.serial), place.group, ?_⟩
    apply List.ext_getElem?
    intro other
    rw [batches, batches, List.getElem?_map, List.getElem?_modify, List.getElem?_modify,
      List.getElem?_map]
    split
    · cases join.pending[other]? <;> rfl
    · cases join.pending[other]? <;> rfl

theorem attach_carried (h : taken.Forall₂ MessageBatch.CarriedBy (front ++ join.batches))
    {message : Message} (hnext : join.attach? message = some next) :
    taken.Forall₂ MessageBatch.CarriedBy (front ++ next.batches) := by
  obtain ⟨position, group, hbatches⟩ := attach_batches hnext
  rw [hbatches, ← modify_behind]
  exact carried_modify h _ group message

/-- Observations leave what is carried, and the orphans among them are no joined batches. -/
theorem attach_all_carried (h : taken.Forall₂ MessageBatch.CarriedBy (front ++ join.batches))
    (batch : MessageBatch) (messages : List Message) :
    let result := attachAll batch messages join
    joinedOf result.2 = [] ∧
      taken.Forall₂ MessageBatch.CarriedBy (front ++ result.1.batches) := by
  induction messages generalizing join with
  | nil => exact ⟨rfl, h⟩
  | cons message rest ih =>
      simp only [attachAll]
      split
      · exact ih h
      · split
        next attached hattached => exact ih (attach_carried h hattached)
        next => exact ih h

theorem flush_carried (h : taken.Forall₂ MessageBatch.CarriedBy (front ++ join.batches))
    (clock : ObservationClock) : taken.Forall₂ MessageBatch.CarriedBy
      (front ++ joinedOf (join.flush clock).2 ++ (join.flush clock).1.batches) := by
  rwa [List.append_assoc, flush_batches]

theorem close_carried (h : taken.Forall₂ MessageBatch.CarriedBy (front ++ join.batches)) :
    taken.Forall₂ MessageBatch.CarriedBy
      (front ++ joinedOf join.close.2 ++ join.close.1.batches) :=
  flush_carried h join.clock.close

theorem punctuate_carried (h : taken.Forall₂ MessageBatch.CarriedBy (front ++ join.batches))
    {rules : JoinRules} {now : Instant} {out : List JoinOutput}
    (hnext : join.punctuate? rules now = some (next, out)) :
    taken.Forall₂ MessageBatch.CarriedBy (front ++ joinedOf out ++ next.batches) := by
  obtain ⟨clock, -, hflush⟩ := Option.map_eq_some_iff.mp hnext
  have hflushed := flush_carried h clock
  rwa [hflush] at hflushed

theorem add_observations_carried
    (h : taken.Forall₂ MessageBatch.CarriedBy (front ++ join.batches)) (rules : JoinRules)
    (now : Instant) (batch : MessageBatch) :
    let result := join.addObservations rules now batch
    taken.Forall₂ MessageBatch.CarriedBy (front ++ joinedOf result.2 ++ result.1.batches) := by
  intro result
  have hflushed := flush_carried h (join.clock.observe rules.punctuation now batch)
  obtain ⟨hnone, hattached⟩ := attach_all_carried hflushed batch batch.messages
  rw [show result = _ from add_observations_eq rules join now batch, joined_of_append, hnone,
    List.append_nil]
  exact hattached

theorem add_interactions_carried
    (h : taken.Forall₂ MessageBatch.CarriedBy (front ++ join.batches)) (rules : JoinRules)
    (batch : MessageBatch) : (taken ++ [batch]).Forall₂ MessageBatch.CarriedBy
      (front ++ (join.addInteractions rules batch).batches) := by
  rw [add_interactions_batches, ← List.append_assoc]
  exact List.rel_append h (.cons batch.carried_by_to_joined .nil)

end Join

namespace JoinRun

/-- What has come out of a join, and behind it what is open, carries what has been taken in; and of
what has come out nothing is lost. -/
def Joins (run : JoinRun) (taken : List MessageBatch) (out : List JoinOutput) : Prop :=
  ∃ come, taken.Forall₂ MessageBatch.CarriedBy (joinedOf come ++ run.join.batches) ∧
    Conserved come (unsent run.control) out (run.isFinished = false)

variable {rules : JoinRules} {run : JoinRun} {view : View} {next : JoinRun × View}
  {sent taken : List MessageBatch} {come emitted out given : List JoinOutput}

/-- A join that is fresh has taken nothing. -/
theorem start_joins (rules : JoinRules) (now : Nat) (wall : Instant) :
    (JoinRun.start rules now wall).Joins [] [] :=
  ⟨[], .nil, .start _⟩

theorem release_carried (rules : JoinRules)
    (h : taken.Forall₂ MessageBatch.CarriedBy (joinedOf come ++ run.join.batches)) (view : View) :
    let result := run.release rules view
    taken.Forall₂ MessageBatch.CarriedBy
      (joinedOf (come ++ result.2) ++ result.1.join.batches) := by
  dsimp only
  unfold release
  split
  · rwa [List.append_nil]
  next held hheld =>
    split
    · rw [joined_of_append]
      exact Join.add_observations_carried h rules view.wall held
    · rwa [List.append_nil]

/-- Whatever comes out with an event is held until it has been sent. -/
theorem settle_joins (rules : JoinRules) (view : View)
    (hcarried : taken.Forall₂ MessageBatch.CarriedBy
      (joinedOf (come ++ emitted) ++ run.join.batches))
    (hconserved : Conserved come [] out True) :
    (settle rules run view emitted).1.Joins taken out ∧
      (settle rules run view emitted).2 = view := by
  have hreleased := release_carried rules hcarried view
  unfold settle
  generalize run.release rules view = result at hreleased
  obtain ⟨released, joined⟩ := result
  dsimp only
  split
  · -- Both streams have ended, so the join gives out all that is open.
    refine ⟨⟨come ++ (emitted ++ joined ++ released.join.close.2), ?_, ?_⟩, rfl⟩
    · have hclosed := Join.close_carried hreleased
      rw [← joined_of_append] at hclosed
      simpa only [List.append_assoc] using hclosed
    · exact hconserved.accept trivial _ _
  · refine ⟨⟨come ++ (emitted ++ joined), ?_, ?_⟩, rfl⟩
    · simpa only [List.append_assoc] using hreleased
    · exact hconserved.accept trivial _ _

theorem Joins.stop (h : run.Joins taken out) {control : Control}
    (hcontrol : control = .finished ∨ control = .broken) :
    Joins { run with control } taken out := by
  obtain ⟨come, hcarried, hconserved⟩ := h
  refine ⟨come, hcarried, ?_⟩
  rcases hcontrol with rfl | rfl
  · exact .stopped hconserved.begins (by simp [isFinished])
  · exact .stopped hconserved.begins (by simp [isFinished])

/-- What has been sent to a join and what has been received behind it fit together. -/
def Passes (run : JoinRun) (view : View) (sent : List MessageBatch) (given : List JoinOutput) :
    Prop :=
  ∃ taken out, view.interactions.Passes sent taken ∧ run.Joins taken out ∧
    view.output.Passes out given

theorem Passes.stop (h : run.Passes view sent given) {control : Control}
    (hcontrol : control = .finished ∨ control = .broken) :
    (JoinRun.stop run view control).1.Passes (JoinRun.stop run view control).2 sent given := by
  obtain ⟨taken, out, hinput, hjoins, houtput⟩ := h
  exact ⟨taken, out, hinput.drop_receiver, hjoins.stop hcontrol, houtput.drop_sender⟩

/-- A join that listens has sent all that has come out of it. -/
structure Listens (view : View) (sent : List MessageBatch) (given : List JoinOutput)
    (taken : List MessageBatch) (come out : List JoinOutput) : Prop where
  input : view.interactions.Passes sent taken
  conserved : Conserved come [] out True
  output : view.output.Passes out given

theorem Passes.listens (h : run.Passes view sent given) (hcontrol : run.control = .listening) :
    ∃ taken come out, Listens view sent given taken come out ∧
      taken.Forall₂ MessageBatch.CarriedBy (joinedOf come ++ run.join.batches) := by
  obtain ⟨taken, out, hinput, ⟨come, hcarried, hconserved⟩, houtput⟩ := h
  rw [hcontrol] at hconserved
  have hall : Conserved come [] out True :=
    hconserved.mono fun _ => by simp [isFinished, hcontrol]
  exact ⟨taken, come, out, ⟨hinput, hall, houtput⟩, hcarried⟩

/-- What comes out with an event is yet to be sent. -/
theorem Listens.settle (h : Listens view sent given taken come out)
    (hcarried : taken.Forall₂ MessageBatch.CarriedBy
      (joinedOf come ++ joinedOf emitted ++ run.join.batches)) :
    (JoinRun.settle rules run view emitted).1.Passes (JoinRun.settle rules run view emitted).2 sent
      given := by
  rw [← joined_of_append] at hcarried
  obtain ⟨hjoins, hview⟩ := settle_joins rules view hcarried h.conserved
  rw [hview]
  exact ⟨taken, out, h.input, hjoins, h.output⟩

/-- The same of an event with which nothing comes out. -/
theorem Listens.settle_nil (h : Listens view sent given taken come out)
    (hcarried : taken.Forall₂ MessageBatch.CarriedBy (joinedOf come ++ run.join.batches)) :
    (JoinRun.settle rules run view []).1.Passes (JoinRun.settle rules run view []).2 sent
      given := by
  refine h.settle ?_
  rw [show joinedOf [] = [] from rfl, List.append_nil]
  exact hcarried

/-- Whatever a listening join takes notice of, nothing is lost or reordered. -/
theorem notice_passes (h : Listens view sent given taken come out)
    (hcarried : taken.Forall₂ MessageBatch.CarriedBy (joinedOf come ++ run.join.batches))
    {events : List JoinEvent} {noticed : JoinRun} {seen : View}
    (hnotice : Notice rules run view events emitted noticed seen) :
    (JoinRun.settle rules noticed seen emitted).1.Passes
      (JoinRun.settle rules noticed seen emitted).2 sent given := by
  cases hnotice with
  | interactions hopen hreceive =>
      exact Listens.settle_nil ⟨h.input.receive hreceive, h.conserved, h.output⟩
        (Join.add_interactions_carried hcarried rules _)
  | interactionsEnd hopen hreceive => exact h.settle_nil hcarried
  | hold hopen hheld hreceive =>
      -- The batch is only held for now; what is open stays the same.
      exact Listens.settle_nil ⟨h.input, h.conserved, h.output⟩ hcarried
  | observationsEnd hopen hheld hreceive => exact h.settle (Join.close_carried hcarried)
  | patience hdeadline hdue => exact h.settle_nil hcarried
  | tick hdue hpunctuated => exact h.settle (Join.punctuate_carried hcarried hpunctuated)

/-- A step of the join loses and reorders nothing. -/
theorem step_passes (h : run.Passes view sent given) (hnext : next ∈ transitions rules run view) :
    next.1.Passes next.2 sent given := by
  obtain ⟨events, released, hturn⟩ := transitions_turn hnext
  cases hturn with
  | notice hcontrol hnotice =>
      obtain ⟨taken, come, out, hlistens, hcarried⟩ := h.listens hcontrol
      exact notice_passes hlistens hcarried hnotice
  | send hcontrol hcancelled hsend =>
      -- The first unsent output moves from the join into the channel behind it.
      obtain ⟨taken, out, hinput, ⟨come, hcarried, hconserved⟩, houtput⟩ := h
      rw [hcontrol] at hconserved
      exact ⟨taken, out ++ [_], hinput, ⟨come, hcarried,
        (hconserved.give [_]).mono fun _ => by simp [isFinished, hcontrol]⟩, houtput.send hsend⟩
  | listen hcontrol =>
      obtain ⟨taken, out, hinput, ⟨come, hcarried, hconserved⟩, houtput⟩ := h
      rw [hcontrol] at hconserved
      exact ⟨taken, out, hinput, ⟨come, hcarried,
        hconserved.mono fun _ => by simp [isFinished, hcontrol]⟩, houtput⟩
  | breakOff hcontrol hdue hnone => exact Passes.stop h (.inr rfl)
  | complete hcontrol => exact h.stop (.inl rfl)
  | cancel hcontrol hcancelled => exact h.stop (.inl rfl)
  | refuse hitem hcancelled hsend => exact h.stop (.inl rfl)

end JoinRun

namespace FanOut

/-- What has been sent to a fan-out and what has been received behind it fit together. -/
def Passes (control : Control) (view : View) (sent given : List JoinOutput) : Prop :=
  ∃ taken out, view.input.Passes sent taken ∧
    Conserved taken (unsent control) out (control ≠ .finished) ∧ view.output.Passes out given

variable {control : Control} {view : View} {next : Control × View} {sent given : List JoinOutput}

theorem Passes.finish (h : Passes control view sent given) :
    Passes (FanOut.finish view).1 (FanOut.finish view).2 sent given := by
  obtain ⟨taken, out, hinput, hconserved, houtput⟩ := h
  exact ⟨taken, out, hinput.drop_receiver,
    .stopped hconserved.begins fun hworking => hworking rfl, houtput.drop_sender⟩

/-- What is drained is sent on in order. -/
theorem Passes.take (h : Passes .listening view sent given) (limit : Nat) :
    Passes (FanOut.take (view.input.drain limit).1)
      { view with input := (view.input.drain limit).2 } sent given := by
  obtain ⟨taken, out, hinput, hconserved, houtput⟩ := h
  refine ⟨taken ++ (view.input.drain limit).1, out, hinput.drain limit, ?_, houtput⟩
  rw [unsent_take]
  exact hconserved.accept nofun _ _

/-- A step of the fan-out loses and reorders nothing. -/
theorem step_passes (h : Passes control view sent given) (hnext : next ∈ transitions control view) :
    Passes next.1 next.2 sent given := by
  cases transitions_turn hnext with
  | take hcontrol hreceive =>
      rw [hcontrol] at h
      exact h.take chunkLimit
  | hand hcontrol hcancelled hsend =>
      -- The records go to billing; the outputs themselves are still held.
      obtain ⟨taken, out, hinput, hconserved, houtput⟩ := h
      rw [hcontrol] at hconserved
      exact ⟨taken, out, hinput, hconserved.mono fun _ => nofun, houtput⟩
  | @forward item rest output hcontrol hcancelled hsend =>
      obtain ⟨taken, out, hinput, hconserved, houtput⟩ := h
      rw [hcontrol] at hconserved
      exact ⟨taken, out ++ [item], hinput, (hconserved.give [item]).mono fun _ => nofun,
        houtput.send hsend⟩
  | listen hcontrol =>
      obtain ⟨taken, out, hinput, hconserved, houtput⟩ := h
      rw [hcontrol] at hconserved
      exact ⟨taken, out, hinput, hconserved.mono fun _ => nofun, houtput⟩
  | cancel | ended | unbilled | unread => exact h.finish

end FanOut

end WindowJoin
