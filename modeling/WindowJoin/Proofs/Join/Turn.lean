import WindowJoin.Join.Machine
import WindowJoin.Proofs.Join.Runs

/-!
# The turns of a running join

`JoinRun.Turn` lists what a running join can do in one transition and under which condition;
`JoinRun.mem_transitions` says that it does this and nothing else. With each turn go the events that
happen to the join in it: a listening join takes notice of something (`JoinRun.Notice`), and then the
batch that is held may be joined, and the join is closed if both inputs have ended
(`JoinRun.settle_spec`).
-/

namespace WindowJoin

namespace JoinRun

/-- What has come out of a join and has not been sent. -/
def unsent : Control → List JoinOutput
  | .sending items _ => items
  | _ => []

/-- The joining of the batch that is held, if it is to be joined now. -/
def releasing (rules : JoinRules) (run : JoinRun) (view : View) : List JoinEvent :=
  match run.held with
  | some held => if run.releases rules view.now held then [.observations view.wall held] else []
  | none => []

/-- The end of the join, if both inputs have ended and no batch is held. -/
def closing (run : JoinRun) : List JoinEvent :=
  if !run.interactionsOpen && !run.observationsOpen && run.held.isNone then [.close] else []

/-- What happens to the join before it goes on: the batch that is held may be joined, and the join
may be at its end. -/
def settling (rules : JoinRules) (run : JoinRun) (view : View) : List JoinEvent :=
  run.releasing rules view ++ (run.release rules view).1.closing

/-- Something that a listening join takes notice of, with the event in the join and what comes out. -/
inductive Notice (rules : JoinRules) (run : JoinRun) (view : View) :
    List JoinEvent → List JoinOutput → JoinRun → View → Prop where
  | interactions {batch : MessageBatch} {interactions : Channel MessageBatch} :
      run.interactionsOpen = true → view.interactions.receive = .item batch interactions →
      Notice rules run view [.interactions batch] []
        { run with join := run.join.addInteractions rules batch, lastInteraction := view.now }
        { view with interactions }
  | interactionsEnd : run.interactionsOpen = true → view.interactions.receive = .ended →
      Notice rules run view [] [] { run with interactionsOpen := false } view
  /-- A batch of observations comes in and is held. -/
  | hold {batch : MessageBatch} {observations : Channel MessageBatch} :
      run.observationsOpen = true → run.held = none →
      view.observations.receive = .item batch observations →
      Notice rules run view [] [] { run with held := some batch } { view with observations }
  | observationsEnd : run.observationsOpen = true → run.held = none →
      view.observations.receive = .ended →
      Notice rules run view [.close] run.join.close.2
        { run with join := run.join.close.1, observationsOpen := false } view
  /-- The interactions have been silent for too long. -/
  | patience {deadline : Nat} : run.holdDeadline? rules = some deadline → deadline ≤ view.now →
      Notice rules run view [] [] run view
  /-- The ticker is due, and the clock is looked at. -/
  | tick {join : Join} {out : List JoinOutput} : run.ticker.due ≤ view.now →
      run.join.punctuate? rules view.wall = some (join, out) →
      Notice rules run view [.silence view.wall] out
        { run with join, ticker := run.ticker.tick view.now } view

/-- What a running join does in one transition, with the events in the join and what is sent. -/
inductive Turn (rules : JoinRules) (run : JoinRun) (view : View) :
    List JoinEvent → List JoinOutput → JoinRun × View → Prop where
  | notice {events : List JoinEvent} {out : List JoinOutput} {noticed : JoinRun} {seen : View} :
      run.control = .listening → Notice rules run view events out noticed seen →
      Turn rules run view (events ++ noticed.settling rules seen) [] (settle rules noticed seen out)
  /-- The clock is looked at when it has left the range of spans. -/
  | breakOff : run.control = .listening → run.ticker.due ≤ view.now →
      run.join.punctuate? rules view.wall = none →
      Turn rules run view [] []
        (stop { run with ticker := run.ticker.tick view.now } view .broken)
  | send {item : JoinOutput} {rest : List JoinOutput} {last : Bool} {output : Channel JoinOutput} :
      run.control = .sending (item :: rest) last → view.cancelled = false →
      view.output.send item = .sent output →
      Turn rules run view [] [item] ({ run with control := .sending rest last }, { view with output })
  | listen : run.control = .sending [] false →
      Turn rules run view [] [] ({ run with control := .listening }, view)
  /-- All that the last event has brought is sent, and the join is over. -/
  | complete : run.control = .sending [] true →
      Turn rules run view [] [] (stop run view .finished)
  | cancel : run.control = .listening ∨ unsent run.control ≠ [] → view.cancelled = true →
      Turn rules run view [] [] (stop run view .finished)
  | refuse {item : JoinOutput} : item ∈ (unsent run.control).head? → view.cancelled = false →
      view.output.send item = .refused → Turn rules run view [] [] (stop run view .finished)

variable {rules : JoinRules} {run noticed : JoinRun} {view seen : View} {next : JoinRun × View}
  {events : List JoinEvent} {out sent : List JoinOutput}

/-! ## The transitions are the turns -/

theorem take_interactions_notice (h : next ∈ takeInteractions rules run view) :
    ∃ events out noticed seen, Notice rules run view events out noticed seen ∧
      next = settle rules noticed seen out := by
  unfold takeInteractions at h
  split at h
  next hopen =>
    split at h
    next batch interactions hreceive =>
      exact ⟨_, _, _, _, .interactions hopen hreceive, List.mem_singleton.mp h⟩
    next hreceive =>
      exact ⟨_, _, _, _, .interactionsEnd hopen hreceive, List.mem_singleton.mp h⟩
    next => cases h
  next => cases h

theorem take_observations_notice (h : next ∈ takeObservations rules run view) :
    ∃ events out noticed seen, Notice rules run view events out noticed seen ∧
      next = settle rules noticed seen out := by
  unfold takeObservations at h
  split at h
  next hopen =>
    obtain ⟨hopen, hheld⟩ : run.observationsOpen = true ∧ run.held = none := by
      simpa [Option.isNone_iff_eq_none] using hopen
    split at h
    next batch observations hreceive =>
      exact ⟨_, _, _, _, .hold hopen hheld hreceive, List.mem_singleton.mp h⟩
    next hreceive =>
      exact ⟨_, _, _, _, .observationsEnd hopen hheld hreceive, List.mem_singleton.mp h⟩
    next => cases h
  next => cases h

/-- Every transition of a running join is a turn. -/
theorem transitions_turn (h : next ∈ transitions rules run view) :
    ∃ events sent, Turn rules run view events sent next := by
  unfold transitions at h
  split at h
  next hcontrol =>
    have hnotice {events : List JoinEvent} {out : List JoinOutput} {noticed : JoinRun} {seen : View}
        (hnotice : Notice rules run view events out noticed seen)
        (hnext : next = settle rules noticed seen out) :
        ∃ events sent, Turn rules run view events sent next := by
      subst hnext
      exact ⟨_, _, .notice hcontrol hnotice⟩
    simp only [List.mem_append] at h
    rcases h with (((hcancel | htake) | htake) | hpatience) | htick
    · split at hcancel
      next hcancelled =>
        obtain rfl := List.mem_singleton.mp hcancel
        exact ⟨_, _, .cancel (.inl hcontrol) hcancelled⟩
      next => cases hcancel
    · obtain ⟨_, _, _, _, htaken, hnext⟩ := take_interactions_notice htake
      exact hnotice htaken hnext
    · obtain ⟨_, _, _, _, htaken, hnext⟩ := take_observations_notice htake
      exact hnotice htaken hnext
    · split at hpatience
      next hover =>
        cases hdeadline : run.holdDeadline? rules with
        | none => simp [hdeadline] at hover
        | some deadline =>
            have hdue : deadline ≤ view.now := by simpa [hdeadline] using hover
            exact hnotice (.patience hdeadline hdue) (List.mem_singleton.mp hpatience)
      next => cases hpatience
    · unfold takeTick at htick
      split at htick
      next hdue =>
        dsimp only at htick
        split at htick
        next join out hpunctuated =>
          exact hnotice (.tick hdue hpunctuated) (List.mem_singleton.mp htick)
        next hnone =>
          obtain rfl := List.mem_singleton.mp htick
          exact ⟨_, _, .breakOff hcontrol hdue hnone⟩
      next => cases htick
  next last hcontrol =>
    split at h
    next hlast =>
      obtain rfl := List.mem_singleton.mp h
      exact ⟨_, _, .complete (hlast ▸ hcontrol)⟩
    next hlast =>
      obtain rfl := List.mem_singleton.mp h
      exact ⟨_, _, .listen (by simpa [hlast] using hcontrol)⟩
  next item rest last hcontrol =>
    split at h
    next hcancelled =>
      obtain rfl := List.mem_singleton.mp h
      exact ⟨_, _, .cancel (.inr (by simp [unsent, hcontrol])) hcancelled⟩
    next hcancelled =>
      rw [Bool.not_eq_true] at hcancelled
      split at h
      next output hsend =>
        obtain rfl := List.mem_singleton.mp h
        exact ⟨_, _, .send hcontrol hcancelled hsend⟩
      next hsend =>
        obtain rfl := List.mem_singleton.mp h
        exact ⟨_, _, .refuse (by simp [unsent, hcontrol]) hcancelled hsend⟩
      next => cases h
  next => cases h
  next => cases h

/-- Every turn is a transition of the running join. -/
theorem Turn.mem_transitions (h : Turn rules run view events sent next) :
    next ∈ transitions rules run view := by
  cases h with
  | notice hcontrol hnotice =>
      simp only [transitions, hcontrol, List.mem_append]
      cases hnotice with
      | interactions hopen hreceive =>
          exact .inl (.inl (.inl (.inr (by simp [takeInteractions, hopen, hreceive]))))
      | interactionsEnd hopen hreceive =>
          exact .inl (.inl (.inl (.inr (by simp [takeInteractions, hopen, hreceive]))))
      | hold hopen hheld hreceive =>
          exact .inl (.inl (.inr (by simp [takeObservations, hopen, hheld, hreceive])))
      | observationsEnd hopen hheld hreceive =>
          exact .inl (.inl (.inr (by simp [takeObservations, hopen, hheld, hreceive])))
      | patience hdeadline hdue => exact .inl (.inr (by simp [hdeadline, hdue]))
      | tick hdue hpunctuated => exact .inr (by simp [takeTick, hdue, hpunctuated])
  | breakOff hcontrol hdue hnone =>
      simp only [transitions, hcontrol, List.mem_append]
      exact .inr (by simp [takeTick, hcontrol, hdue, hnone])
  | send hcontrol hcancelled hsend => simp [transitions, hcontrol, hcancelled, hsend]
  | listen hcontrol => simp [transitions, hcontrol]
  | complete hcontrol => simp [transitions, hcontrol]
  | cancel hcontrol hcancelled =>
      rcases hcontrol with hcontrol | hunsent
      · simp [transitions, hcontrol, hcancelled]
      · unfold unsent at hunsent
        split at hunsent
        next items last hcontrol =>
          obtain ⟨item, rest, rfl⟩ := List.exists_cons_of_ne_nil hunsent
          simp [transitions, hcontrol, hcancelled]
        next => exact absurd rfl hunsent
  | refuse hitem hcancelled hrefused =>
      unfold unsent at hitem
      split at hitem
      next items last hcontrol =>
        cases items with
        | nil => cases hitem
        | cons item rest =>
            obtain rfl := Option.some.inj hitem
            simp [transitions, hcontrol, hcancelled, hrefused]
      next => cases hitem

/-- The transitions of a running join are its turns. -/
theorem mem_transitions : next ∈ transitions rules run view ↔
    ∃ events sent, Turn rules run view events sent next :=
  ⟨transitions_turn, fun ⟨_, _, hturn⟩ => hturn.mem_transitions⟩

/-! ## What happens to the join -/

/-- The batch that is held is joined or stays held. -/
theorem release_spec (rules : JoinRules) (run : JoinRun) (view : View) :
    ∃ join held, (run.release rules view).1 = { run with join, held } ∧
      run.join.run? rules (run.releasing rules view) = some (join, (run.release rules view).2) ∧
      (held = none ∨ held = run.held) := by
  cases hheld : run.held with
  | none =>
      have hstay : { run with join := run.join, held := none } = run := by rw [← hheld]
      rw [release, releasing, hheld]
      exact ⟨run.join, none, hstay.symm, rfl, .inl rfl⟩
  | some held =>
      have hstay : { run with join := run.join, held := some held } = run := by rw [← hheld]
      rw [release, releasing, hheld]
      dsimp only
      split
      · exact ⟨_, none, rfl, Join.run_of_step rfl, .inl rfl⟩
      · exact ⟨run.join, some held, hstay.symm, rfl, .inr rfl⟩

/-- What has been taken notice of settles: the events that it brings happen to the join, and what
comes out is to be sent. It is the last if the join has been closed. -/
theorem settle_spec (rules : JoinRules) (run : JoinRun) (view : View) (out : List JoinOutput) :
    ∃ join held come last, run.join.run? rules (run.settling rules view) = some (join, come) ∧
      settle rules run view out =
        ({ run with join, held, control := .sending (out ++ come) last }, view) ∧
      (held = none ∨ held = run.held) ∧
      (last = true → run.interactionsOpen = false ∧ run.observationsOpen = false ∧ held = none ∧
        ∃ before, run.settling rules view = before ++ [.close]) := by
  obtain ⟨join, held, hrun, hevents, hheld⟩ := release_spec rules run view
  unfold settle settling
  generalize run.release rules view = result at hrun hevents ⊢
  obtain ⟨released, joined⟩ := result
  obtain rfl : released = _ := hrun
  dsimp only [closing]
  split
  next hended =>
    obtain ⟨⟨hinteractions, hobservations⟩, hnone⟩ :
        (run.interactionsOpen = false ∧ run.observationsOpen = false) ∧ held = none := by
      simpa [Option.isNone_iff_eq_none] using hended
    refine ⟨join.close.1, held, joined ++ join.close.2, true,
      Join.run_trans hevents (Join.run_of_step rfl), by rw [List.append_assoc], hheld,
      fun _ => ⟨hinteractions, hobservations, hnone, _, rfl⟩⟩
  next =>
    exact ⟨join, held, joined, false, by rw [List.append_nil, hevents], rfl, hheld, nofun⟩

/-- What is taken notice of happens to the join. -/
theorem Notice.run_events (h : Notice rules run view events out noticed seen) :
    run.join.run? rules events = some (noticed.join, out) := by
  cases h with
  | interactions hopen hreceive => exact Join.run_of_step rfl
  | interactionsEnd hopen hreceive => rfl
  | hold hopen hheld hreceive => rfl
  | observationsEnd hopen hheld hreceive => exact Join.run_of_step rfl
  | patience hdeadline hdue => rfl
  | tick hdue hpunctuated => exact Join.run_of_step hpunctuated

end JoinRun

end WindowJoin
