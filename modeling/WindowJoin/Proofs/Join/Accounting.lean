import WindowJoin.Proofs.Join.Refinement

/-!
# What becomes of every batch and every observation

Nothing that a join takes in is lost or comes out twice. The batches of interactions, in the order in
which they came in, are the joined batches that have come out and behind them the open ones. Each
observation has a fate: it lies in one group, or it has come out as an orphan. `Accounts` says that
the groups hold, behind their first messages, exactly the observations with that fate, in the order
in which they came in. Every step keeps the accounts (`step_accounts`), and so does a whole run
(`run_accounts`); `run_loses_nothing` states the result for the indexed join.
-/

namespace WindowJoin

/-- The batch of interactions that an event brings. -/
def JoinEvent.interactions? : JoinEvent → Option MessageBatch
  | interactions batch => some batch
  | _ => none

/-- The observations of a batch, each at the position of the batch. -/
def MessageBatch.observed (batch : MessageBatch) : List OrphanObservation :=
  (batch.messages.filter (!·.isDictionary)).map fun message =>
    ⟨batch.partition, batch.sequenceNumber, batch.offset, message⟩

/-- The observations that an event brings. -/
def JoinEvent.observed : JoinEvent → List OrphanObservation
  | observations _ batch => batch.observed
  | _ => []

/-- What becomes of observations, in the order in which they came in: each lies in the group at a
place, whose serial number counts the batches of interactions from the first one on, or is an
orphan. -/
abbrev Fates := List (OrphanObservation × Option Place)

namespace Fates

/-- The messages of the observations that lie in the group at a place. -/
def attached (fates : Fates) (place : Place) : List Message :=
  fates.filterMap fun entry => if entry.2 = some place then some entry.1.message else none

/-- The observations that are orphans. -/
def orphans (fates : Fates) : List OrphanObservation :=
  fates.filterMap fun entry => if entry.2 = none then some entry.1 else none

theorem attached_append (first second : Fates) (place : Place) :
    (first ++ second : Fates).attached place = first.attached place ++ second.attached place :=
  List.filterMap_append

theorem orphans_append (first second : Fates) :
    (first ++ second : Fates).orphans = first.orphans ++ second.orphans :=
  List.filterMap_append

/-- No observation lies at a place that no fate names. -/
theorem attached_eq_nil {fates : Fates} {place : Place}
    (h : ∀ entry ∈ fates, entry.2 ≠ some place) : fates.attached place = [] :=
  List.filterMap_eq_nil_iff.mpr fun entry hentry => if_neg (h entry hentry)

end Fates

/-- The group at a place in a list of batches. -/
def groupAt (batches : List JoinedBatch) (place : Place) : Option (List Message) :=
  batches[place.serial]?.bind (·.groups[place.group]?)

/-- The batches with a message added to the group at a place. -/
def attachAtPlace (batches : List JoinedBatch) (place : Place) (message : Message) :
    List JoinedBatch :=
  batches.modify place.serial (·.attach place.group message)

/-- A message that is added to a group shows there and nowhere else. -/
theorem group_at_attach (batches : List JoinedBatch) (place other : Place) (message : Message) :
    groupAt (attachAtPlace batches place message) other =
      if other = place then (groupAt batches place).map (· ++ [message])
      else groupAt batches other := by
  rw [groupAt, attachAtPlace, List.getElem?_modify]
  by_cases hserial : place.serial = other.serial
  · cases hbatch : batches[other.serial]? with
    | none => simp [groupAt, hserial, hbatch]
    | some batch =>
        have hgroup := List.getElem?_modify (· ++ [message]) place.group batch.groups other.group
        by_cases heq : place.group = other.group
        · have hplace : other = place := by
            cases other
            cases place
            simp_all
          subst hplace
          simp [groupAt, hbatch, JoinedBatch.attach]
        · have hplace : other ≠ place := fun h => heq (h ▸ rfl)
          simp [groupAt, hbatch, hserial, JoinedBatch.attach, hgroup, heq, hplace]
  · have hplace : other ≠ place := fun h => hserial (h ▸ rfl)
    simp [groupAt, hserial, hplace]

/-- The joined batches account for the batches of interactions and for the observations with these
fates. -/
structure Accounts (fates : Fates) (interactions : List MessageBatch)
    (batches : List JoinedBatch) : Prop where
  /-- The batches carry the interactions one by one. -/
  carried : interactions.Forall₂ MessageBatch.CarriedBy batches
  /-- Behind its first message a group holds the observations that lie there. -/
  attached : ∀ place messages, groupAt batches place = some messages →
    messages.tail = fates.attached place
  /-- An observation lies in a group that starts with an interaction of its event id. -/
  found : ∀ observation place, (observation, some place) ∈ fates →
    ∃ messages, groupAt batches place = some messages ∧
      ScanJoin.groupMatches observation.message.eventId messages = true

namespace Accounts

variable {fates : Fates} {interactions : List MessageBatch} {batches : List JoinedBatch}

/-- Before the first event there is nothing to account for. -/
theorem start : Accounts [] [] [] where
  carried := .nil
  attached := fun _ _ h => by cases h
  found := fun _ _ h => by cases h

/-- The accounts after a batch of interactions has come in. -/
theorem receive (h : Accounts fates interactions batches) (batch : MessageBatch) :
    Accounts fates (interactions ++ [batch]) (batches ++ [batch.toJoined]) where
  carried := List.rel_append h.carried (.cons batch.carried_by_to_joined .nil)
  attached place messages hmessages := by
    by_cases hold : place.serial < batches.length
    · refine h.attached place messages ?_
      rwa [groupAt, List.getElem?_append_left hold] at hmessages
    · -- No fate names a place in the new batch, and its groups have one message each.
      have hnone : groupAt batches place = none := by
        rw [groupAt, List.getElem?_eq_none (Nat.le_of_not_lt hold), Option.bind_none]
      have hattached : fates.attached place = [] := by
        apply Fates.attached_eq_nil
        intro entry hentry heq
        obtain ⟨found, hfound, -⟩ := h.found entry.1 place (heq ▸ hentry)
        rw [hnone] at hfound
        cases hfound
      rw [groupAt, List.getElem?_append_right (Nat.le_of_not_lt hold),
        Option.bind_eq_some_iff] at hmessages
      obtain ⟨joined, hjoined, hgroup⟩ := hmessages
      obtain rfl := List.mem_singleton.mp (List.mem_of_getElem? hjoined)
      rw [MessageBatch.toJoined, List.getElem?_map, Option.map_eq_some_iff] at hgroup
      obtain ⟨message, -, rfl⟩ := hgroup
      exact hattached.symm
  found observation place hmem := by
    obtain ⟨messages, hmessages, hmatch⟩ := h.found observation place hmem
    refine ⟨messages, ?_, hmatch⟩
    obtain ⟨joined, hjoined, hgroup⟩ := Option.bind_eq_some_iff.mp hmessages
    rw [groupAt, List.getElem?_append_left (List.getElem?_eq_some_iff.mp hjoined).1, hjoined]
    exact hgroup

/-- The accounts after an observation has been added to a group that matches. -/
theorem attach (h : Accounts fates interactions batches) (observation : OrphanObservation)
    {place : Place} {messages : List Message} (hmessages : groupAt batches place = some messages)
    (hmatch : ScanJoin.groupMatches observation.message.eventId messages = true) :
    Accounts (fates ++ [(observation, some place)]) interactions
      (attachAtPlace batches place observation.message) where
  carried := carried_modify h.carried _ _ _
  attached other found hfound := by
    rw [group_at_attach] at hfound
    rw [Fates.attached_append]
    split at hfound
    next heq =>
      subst heq
      rw [hmessages, Option.map_some, Option.some.injEq] at hfound
      subst hfound
      -- The group has a first message already, so the new one goes to its tail.
      rw [List.tail_append_of_ne_nil (PlaceIndex.ne_nil_of_matches hmatch),
        h.attached _ _ hmessages]
      simp [Fates.attached]
    next hne =>
      rw [h.attached _ _ hfound]
      simp [Fates.attached, Ne.symm hne]
  found other otherPlace hmem := by
    have hold : ∃ found, groupAt batches otherPlace = some found ∧
        ScanJoin.groupMatches other.message.eventId found = true := by
      rcases List.mem_append.mp hmem with hmem | hmem
      · exact h.found other otherPlace hmem
      · cases List.mem_singleton.mp hmem
        exact ⟨messages, hmessages, hmatch⟩
    obtain ⟨found, hfound, hother⟩ := hold
    rw [group_at_attach]
    split
    next heq =>
      subst heq
      refine ⟨found ++ [observation.message], by simp [hfound], ?_⟩
      -- Whether a group matches is up to its first message, which stays.
      cases found with
      | nil => simp [ScanJoin.groupMatches] at hother
      | cons => simpa [ScanJoin.groupMatches] using hother
    next => exact ⟨found, hfound, hother⟩

/-- The accounts after an observation has become an orphan. -/
theorem orphan (h : Accounts fates interactions batches) (observation : OrphanObservation) :
    Accounts (fates ++ [(observation, none)]) interactions batches where
  carried := h.carried
  attached place messages hmessages := by
    rw [h.attached place messages hmessages, Fates.attached_append]
    simp [Fates.attached]
  found other place hmem := by
    refine h.found other place ?_
    simpa using hmem

end Accounts

namespace ScanJoin

/-- The open batches without their deadlines. -/
def batches (join : ScanJoin) : List JoinedBatch :=
  join.pending.map (·.batch)

/-- An observation that is added goes to a group that starts with an interaction of its event
id. -/
theorem attach_to_some {message : Message} {pending next : List OpenBatch}
    (h : attachTo? message pending = some next) :
    ∃ place messages, groupAt (pending.map (·.batch)) place = some messages ∧
      groupMatches message.eventId messages = true ∧
      next.map (·.batch) = attachAtPlace (pending.map (·.batch)) place message := by
  induction pending generalizing next with
  | nil => cases h
  | cons entry rest ih =>
      rw [attachTo?] at h
      cases hfind : entry.batch.groups.findIdx? (groupMatches message.eventId) with
      | some group =>
          simp only [hfind, Option.some.injEq] at h
          subst h
          obtain ⟨hlt, hmatch, -⟩ := List.findIdx?_eq_some_iff_getElem.mp hfind
          exact ⟨⟨0, group⟩, entry.batch.groups[group], by simp [groupAt, hlt], hmatch, rfl⟩
      | none =>
          simp only [hfind, Option.map_eq_some_iff] at h
          obtain ⟨others, hothers, rfl⟩ := h
          obtain ⟨place, messages, hmessages, hmatch, hnext⟩ := ih hothers
          refine ⟨⟨place.serial + 1, place.group⟩, messages, hmessages, hmatch, ?_⟩
          rw [List.map_cons, hnext]
          rfl

/-- The place in a list of batches of a place in its end. -/
theorem group_at_append (front batches : List JoinedBatch) (place : Place) :
    groupAt (front ++ batches) ⟨front.length + place.serial, place.group⟩ =
      groupAt batches place := by
  rw [groupAt, groupAt, List.getElem?_append_right (Nat.le_add_right _ _), Nat.add_sub_cancel_left]

theorem attach_at_append (front batches : List JoinedBatch) (place : Place) (message : Message) :
    attachAtPlace (front ++ batches) ⟨front.length + place.serial, place.group⟩ message =
      front ++ attachAtPlace batches place message :=
  modify_behind ..

variable {fates : Fates} {interactions : List MessageBatch} {done : List JoinedBatch}

/-- The messages of a batch of observations are accounted for one by one. -/
theorem attach_all_accounts (batch : MessageBatch) (messages : List Message)
    {pending : List OpenBatch}
    (h : Accounts fates interactions (done ++ pending.map (·.batch))) :
    let result := attachAll batch messages pending
    ∃ later : Fates,
      later.map Prod.fst = ({ batch with messages } : MessageBatch).observed ∧
      later.orphans = orphansOf result.2 ∧ joinedOf result.2 = [] ∧
      Accounts (fates ++ later) interactions (done ++ result.1.map (·.batch)) := by
  induction messages generalizing fates pending with
  | nil => exact ⟨[], rfl, rfl, rfl, by rwa [List.append_nil]⟩
  | cons message rest ih =>
      simp only [attachAll]
      split
      next hdictionary =>
        obtain ⟨later, hlater⟩ := ih h
        refine ⟨later, ?_⟩
        simpa [MessageBatch.observed, hdictionary] using hlater
      next hdictionary =>
        let observation : OrphanObservation :=
          ⟨batch.partition, batch.sequenceNumber, batch.offset, message⟩
        cases hnext : attachTo? message pending with
        | none =>
            obtain ⟨later, hfirst, horphans, hjoined, haccounts⟩ := ih (h.orphan observation)
            refine ⟨(observation, none) :: later, ?_, ?_, hjoined, by simpa using haccounts⟩
            · simpa [MessageBatch.observed, hdictionary, observation] using hfirst
            · exact congrArg (observation :: ·) horphans
        | some next =>
            -- Places count from the first batch of all, also from those that have come out.
            obtain ⟨place, found, hfound, hmatch, hbatches⟩ := attach_to_some hnext
            have hattached := h.attach observation
              ((group_at_append done _ place).trans hfound) hmatch
            rw [attach_at_append, ← hbatches] at hattached
            obtain ⟨later, hfirst, horphans, hjoined, haccounts⟩ := ih hattached
            refine ⟨(observation, _) :: later, ?_, ?_, hjoined, by simpa using haccounts⟩
            · simpa [MessageBatch.observed, hdictionary, observation] using hfirst
            · simpa [Fates.orphans] using horphans

/-- A flush moves batches from the open ones to those that have come out. -/
theorem flush_batches (join : ScanJoin) (clock : ObservationClock) :
    joinedOf (join.flush clock).2 ++ (join.flush clock).1.batches = join.batches ∧
      orphansOf (join.flush clock).2 = [] := by
  refine ⟨?_, ?_⟩
  · simp only [flush, batches, joined_of_joined]
    rw [← List.map_append, List.takeWhile_append_dropWhile]
  · simp only [flush, orphans_of_joined]

theorem step_observations (rules : JoinRules) (join : ScanJoin) (now : Instant)
    (batch : MessageBatch) :
    let flushed := join.flush (join.clock.observe rules.punctuation now batch)
    let attached := attachAll batch batch.messages flushed.1.pending
    join.step? rules (.observations now batch) =
      some (⟨flushed.1.clock, attached.1⟩, flushed.2 ++ attached.2) :=
  rfl

/-- A step accounts for what its event brings. -/
theorem step_accounts {rules : JoinRules} {join next : ScanJoin} {event : JoinEvent}
    {out : List JoinOutput} (h : Accounts fates interactions (done ++ join.batches))
    (hstep : join.step? rules event = some (next, out)) :
    ∃ later : Fates, later.map Prod.fst = event.observed ∧ later.orphans = orphansOf out ∧
      Accounts (fates ++ later) (interactions ++ event.interactions?.toList)
        (done ++ joinedOf out ++ next.batches) := by
  have hflush (clock : ObservationClock) :
      Accounts fates interactions
        (done ++ joinedOf (join.flush clock).2 ++ (join.flush clock).1.batches) := by
    rwa [List.append_assoc, (flush_batches join clock).1]
  cases event with
  | interactions batch =>
      -- Only a batch of interactions makes the list of batches longer, and only at its end.
      cases hstep
      refine ⟨[], rfl, rfl, ?_⟩
      have hreceived := h.receive batch
      simpa [batches, OpenBatch.ofInteractions, JoinEvent.interactions?, joinedOf] using hreceived
  | observations now batch =>
      rw [step_observations, Option.some.injEq] at hstep
      obtain ⟨rfl, rfl⟩ := Prod.mk.inj hstep
      have hflushed := hflush (join.clock.observe rules.punctuation now batch)
      obtain ⟨later, hfirst, horphans, hjoined, haccounts⟩ :=
        attach_all_accounts batch batch.messages hflushed
      refine ⟨later, hfirst, ?_, ?_⟩
      · rw [horphans, orphans_of_append, (flush_batches join _).2, List.nil_append]
      · simpa [JoinEvent.interactions?, hjoined, batches] using haccounts
  | silence now =>
      obtain ⟨clock, -, hresult⟩ := Option.map_eq_some_iff.mp hstep
      obtain ⟨rfl, rfl⟩ := Prod.mk.inj hresult
      refine ⟨[], rfl, (flush_batches join clock).2.symm, ?_⟩
      show Accounts (fates ++ []) (interactions ++ []) _
      rw [List.append_nil, List.append_nil]
      exact hflush clock
  | close =>
      obtain ⟨rfl, rfl⟩ := Prod.mk.inj (Option.some.inj hstep)
      refine ⟨[], rfl, (flush_batches join _).2.symm, ?_⟩
      show Accounts (fates ++ []) (interactions ++ []) _
      rw [List.append_nil, List.append_nil]
      exact hflush join.clock.close

/-- A run accounts for all that its events bring. -/
theorem run_accounts {rules : JoinRules} {join final : ScanJoin} {events : List JoinEvent}
    {out : List JoinOutput} (h : Accounts fates interactions (done ++ join.batches))
    (hrun : join.run? rules events = some (final, out)) :
    ∃ later : Fates, later.map Prod.fst = events.flatMap JoinEvent.observed ∧
      later.orphans = orphansOf out ∧
      Accounts (fates ++ later) (interactions ++ events.filterMap JoinEvent.interactions?)
        (done ++ joinedOf out ++ final.batches) := by
  induction events generalizing join fates interactions done out with
  | nil =>
      cases hrun
      exact ⟨[], rfl, rfl, by simpa [joinedOf] using h⟩
  | cons event rest ih =>
      simp only [run?, bind, Option.bind_eq_some_iff] at hrun
      obtain ⟨⟨next, out⟩, hstep, ⟨final, later⟩, hrest, hresult⟩ := hrun
      cases hresult
      obtain ⟨fates', hfirst', horphans', haccounts'⟩ := step_accounts h hstep
      obtain ⟨fates'', hfirst'', horphans'', haccounts''⟩ := ih haccounts' hrest
      refine ⟨fates' ++ fates'', ?_, ?_, ?_⟩
      · rw [List.map_append, hfirst', hfirst'', List.flatMap_cons]
      · rw [Fates.orphans_append, horphans', horphans'', orphans_of_append]
      · cases hbrought : event.interactions? <;>
          simpa [hbrought, List.append_assoc] using haccounts''

end ScanJoin

namespace Join

/-- However a fresh join is used, the joined batches that have come out and behind them the open ones
carry the batches of interactions that came in, one by one and in order. Each observation that came
in has one fate: it lies behind the first message of one group, which is an interaction of its event
id, or it is an orphan at the position of its own batch. The groups hold nothing else behind their
first messages, and no other orphan comes out. -/
theorem run_loses_nothing {rules : JoinRules} {now : Instant} {events : List JoinEvent}
    {join : Join} {out : List JoinOutput} (h : (Join.new now).run? rules events = some (join, out)) :
    let batches := joinedOf out ++ join.pending.map (·.batch)
    (events.filterMap JoinEvent.interactions?).Forall₂ MessageBatch.CarriedBy batches ∧
      ∃ fates : Fates, fates.map Prod.fst = events.flatMap JoinEvent.observed ∧
        orphansOf out = fates.orphans ∧
        (∀ place messages, groupAt batches place = some messages →
          messages.tail = fates.attached place) ∧
        ∀ observation place, (observation, some place) ∈ fates →
          ∃ first later, groupAt batches place = some (first :: later) ∧
            first.isDictionary = false ∧ first.eventId = observation.message.eventId := by
  have hrun := (run_refines (new_coherent now) rules events).1
  rw [h, Option.map_some] at hrun
  have hstart : Accounts [] [] ([] ++ (ScanJoin.new now).batches) := .start
  obtain ⟨fates, hfirst, horphans, haccounts⟩ := ScanJoin.run_accounts hstart hrun.symm
  simp only [List.nil_append, toScan, ScanJoin.batches, List.map_map] at haccounts
  refine ⟨haccounts.carried, fates, hfirst, horphans.symm, haccounts.attached, ?_⟩
  intro observation place hmem
  obtain ⟨messages, hmessages, hmatch⟩ := haccounts.found observation place hmem
  cases messages with
  | nil => simp [ScanJoin.groupMatches] at hmatch
  | cons first later =>
      refine ⟨first, later, hmessages, ?_⟩
      simpa [ScanJoin.groupMatches] using hmatch

/-- In the sample run three observations come in; one of them is an orphan. -/
theorem run_loses_nothing_sample :
    ∃ join out, (Join.new .epoch).run? sampleRules sampleEvents = some (join, out) ∧
      ∃ fates : Fates, fates.length = 3 ∧ orphansOf out = fates.orphans ∧
        fates.orphans.length = 1 := by
  obtain ⟨-, fates, hfirst, horphans, -⟩ := @run_loses_nothing
    sampleRules .epoch sampleEvents _ _ rfl
  refine ⟨_, _, rfl, fates, ?_, horphans, ?_⟩
  · rw [← List.length_map, hfirst]
    rfl
  · rw [← horphans]
    rfl

end Join

end WindowJoin
