import WindowJoin.Proofs.Join.Accounting
import WindowJoin.Proofs.Join.Runs

/-!
# Where the observations of a batch go

A batch of observations moves the watermark first, to the latest of its messages if that is later.
What the watermark passes comes out before any message of the batch is looked at, and only then does
each message go to the oldest interaction with its event id that is still open. So the fate of a
message is settled by the batches that are left (`ScanJoin.attach_all_eq`): a message within the
window of its interaction joins it as long as the batch of that interaction is left
(`observation_joins_while_open`), and misses it if a later message of the same batch has closed the
window (`observation_in_window_can_miss`).
-/

namespace WindowJoin

namespace ScanJoin

/-- Whether a group matches is up to its first message. -/
theorem group_matches_eq (eventId : String) (messages : List Message) :
    groupMatches eventId messages =
      messages.head?.any fun first => !first.isDictionary && first.eventId = eventId := by
  cases messages with
  | nil => rfl
  | cons => rfl

/-- The place of the oldest open interaction with an event id in a list of batches. -/
def oldestOpen? (eventId : String) : List JoinedBatch → Option Place
  | [] => none
  | batch :: rest =>
    match batch.groups.findIdx? (groupMatches eventId) with
    | some group => some ⟨0, group⟩
    | none => (oldestOpen? eventId rest).map fun place => ⟨place.serial + 1, place.group⟩

/-- The oldest open interaction is up to the first messages of the groups. -/
theorem oldest_open_congr {eventId : String} {batches others : List JoinedBatch}
    (h : batches.map (·.groups.map List.head?) = others.map (·.groups.map List.head?)) :
    oldestOpen? eventId batches = oldestOpen? eventId others := by
  induction batches generalizing others with
  | nil => rw [List.map_eq_nil_iff.mp h.symm]
  | cons batch rest ih =>
      cases others with
      | nil => simp at h
      | cons other others =>
          obtain ⟨hheads, hrest⟩ := List.cons.inj h
          have hmatches : groupMatches eventId =
              (fun head : Option Message =>
                head.any fun first => !first.isDictionary && first.eventId = eventId) ∘
                List.head? :=
            funext (group_matches_eq eventId)
          have hfind : batch.groups.findIdx? (groupMatches eventId) =
              other.groups.findIdx? (groupMatches eventId) := by
            rw [hmatches, ← List.findIdx?_map, ← List.findIdx?_map]
            exact congrArg _ hheads
          rw [oldestOpen?, oldestOpen?, hfind, ih hrest]

/-- The group at the place of the oldest open interaction matches. -/
theorem group_at_oldest {eventId : String} {batches : List JoinedBatch} {place : Place}
    (h : oldestOpen? eventId batches = some place) :
    ∃ messages, groupAt batches place = some messages ∧
      groupMatches eventId messages = true := by
  induction batches generalizing place with
  | nil => cases h
  | cons batch rest ih =>
      rw [oldestOpen?] at h
      cases hfind : batch.groups.findIdx? (groupMatches eventId) with
      | some group =>
          simp only [hfind, Option.some.injEq] at h
          obtain ⟨hlt, hmatch, -⟩ := List.findIdx?_eq_some_iff_getElem.mp hfind
          subst h
          exact ⟨batch.groups[group], by simp [groupAt, hlt], hmatch⟩
      | none =>
          simp only [hfind, Option.map_eq_some_iff] at h
          obtain ⟨later, hlater, rfl⟩ := h
          exact ih hlater

/-- The scan adds a message at the place of the oldest open interaction. -/
theorem attach_to_oldest (message : Message) (pending : List OpenBatch) :
    attachTo? message pending =
      (oldestOpen? message.eventId (pending.map (·.batch))).map fun place =>
        pending.modify place.serial (·.attach place.group message) := by
  induction pending with
  | nil => rfl
  | cons entry rest ih =>
      rw [attachTo?, List.map_cons, oldestOpen?]
      cases entry.batch.groups.findIdx? (groupMatches message.eventId) with
      | some group => rfl
      | none =>
          simp only [ih, Option.map_map]
          rfl

/-- Batches in front of the oldest open interaction do not count. -/
theorem oldest_open_drop {eventId : String} {batches : List JoinedBatch} {place : Place}
    (h : oldestOpen? eventId batches = some place) {count : Nat} (hcount : count ≤ place.serial) :
    oldestOpen? eventId (batches.drop count) = some ⟨place.serial - count, place.group⟩ := by
  induction count generalizing batches place with
  | zero => exact h
  | succ count ih =>
      cases batches with
      | nil => cases h
      | cons batch rest =>
          rw [oldestOpen?] at h
          cases hfind : batch.groups.findIdx? (groupMatches eventId) with
          | some group =>
              simp only [hfind, Option.some.injEq] at h
              subst h
              cases hcount
          | none =>
              simp only [hfind, Option.map_eq_some_iff] at h
              obtain ⟨later, hlater, rfl⟩ := h
              rw [List.drop_succ_cons, ih hlater (Nat.le_of_succ_le_succ hcount)]
              simp

/-! ## All messages of a batch -/

/-- The observations among messages that go to a place, or to none. -/
def bound (batches : List JoinedBatch) (place : Option Place) (messages : List Message) :
    List Message :=
  messages.filter fun message =>
    !message.isDictionary && oldestOpen? message.eventId batches = place

/-- A batch with messages added to each of its groups. -/
def extend (entry : OpenBatch) (added : Nat → List Message) : OpenBatch :=
  { entry with
    batch := { entry.batch with
      groups := entry.batch.groups.mapIdx fun group messages => messages ++ added group } }

theorem heads_extend {pending : List OpenBatch} {place : Place} {messages : List Message}
    (hmessages : groupAt (pending.map (·.batch)) place = some messages) (hne : messages ≠ [])
    (message : Message) :
    ((pending.modify place.serial (·.attach place.group message)).map (·.batch)).map
        (·.groups.map List.head?) =
      (pending.map (·.batch)).map (·.groups.map List.head?) := by
  rw [List.map_map, List.map_map]
  apply List.ext_getElem?
  intro position
  rw [List.getElem?_map, List.getElem?_map, List.getElem?_modify]
  cases hentry : pending[position]? with
  | none => rfl
  | some entry =>
      by_cases heq : place.serial = position
      · subst heq
        have hgroup : entry.batch.groups[place.group]? ≠ some [] := by
          rw [groupAt, List.getElem?_map, hentry] at hmessages
          intro hempty
          rw [Option.map_some, Option.bind_some, hempty] at hmessages
          exact hne (Option.some.inj hmessages).symm
        simpa [OpenBatch.attach] using heads_attach message hgroup
      · simp [heq]

theorem bound_cons (batches : List JoinedBatch) (place : Option Place) (message : Message)
    (rest : List Message) :
    bound batches place (message :: rest) =
      (if !message.isDictionary && oldestOpen? message.eventId batches = place then [message]
        else []) ++ bound batches place rest := by
  rw [bound, List.filter_cons]
  split
  · rfl
  · rfl

/-- A batch with a message added to one group and then more to all of them. -/
theorem extend_attach (entry : OpenBatch) (group : Nat) (message : Message)
    (added : Nat → List Message) :
    extend (entry.attach group message) added =
      extend entry fun other => (if group = other then [message] else []) ++ added other := by
  have hgroups : (entry.batch.groups.modify group (· ++ [message])).mapIdx
      (fun other messages => messages ++ added other) =
      entry.batch.groups.mapIdx fun other messages =>
        messages ++ ((if group = other then [message] else []) ++ added other) := by
    apply List.ext_getElem?
    intro other
    rw [List.getElem?_mapIdx, List.getElem?_mapIdx, List.getElem?_modify]
    cases entry.batch.groups[other]? with
    | none => rfl
    | some messages => by_cases heq : group = other <;> simp [heq]
  simp only [extend, OpenBatch.attach, hgroups]

/-- Every observation goes to the oldest open interaction with its event id, in the order of the
messages, and those that have none are orphans. -/
theorem attach_all_eq (batch : MessageBatch) (messages : List Message)
    (pending : List OpenBatch) :
    attachAll batch messages pending =
      (pending.mapIdx fun position entry => extend entry fun group =>
          bound (pending.map (·.batch)) (some ⟨position, group⟩) messages,
        (bound (pending.map (·.batch)) none messages).map batch.orphan) := by
  induction messages generalizing pending with
  | nil =>
      refine Prod.ext ?_ rfl
      apply List.ext_getElem?
      intro position
      rw [List.getElem?_mapIdx]
      cases hentry : pending[position]? with
      | none => exact hentry
      | some entry =>
          show pending[position]? = _
          simp [hentry, extend, bound, List.mapIdx_eq_zipIdx_map]
  | cons message rest ih =>
      simp only [attachAll, bound_cons]
      by_cases hdictionary : message.isDictionary = true
      · simp only [hdictionary, if_true, Bool.not_true, Bool.false_and, Bool.false_eq_true,
          if_false, List.nil_append]
        exact ih pending
      · rw [if_neg hdictionary, attach_to_oldest]
        cases holdest : oldestOpen? message.eventId (pending.map (·.batch)) with
        | none =>
            simp only [Option.map_none, ih]
            simp [hdictionary]
        | some place =>
            obtain ⟨found, hfound, hmatch⟩ := group_at_oldest holdest
            have hheads := heads_extend hfound (PlaceIndex.ne_nil_of_matches hmatch) message
            -- The message goes behind a first one, so the rest find the same interactions open.
            have hbound : bound ((pending.modify place.serial
                (·.attach place.group message)).map (·.batch)) =
                bound (pending.map (·.batch)) := by
              funext place messages
              simp only [bound, oldest_open_congr hheads]
            simp only [Option.map_some, ih, hbound]
            refine Prod.ext ?_ (by simp)
            apply List.ext_getElem?
            intro position
            rw [List.getElem?_mapIdx, List.getElem?_mapIdx, List.getElem?_modify]
            cases pending[position]? with
            | none => rfl
            | some entry =>
                obtain ⟨serial, group⟩ := place
                by_cases heq : serial = position
                · subst heq
                  simp [extend_attach, hdictionary]
                · simp [heq]

/-- Interactions at one place have one event id. -/
theorem oldest_open_inj {first second : String} {batches : List JoinedBatch} {place : Place}
    (hfirst : oldestOpen? first batches = some place)
    (hsecond : oldestOpen? second batches = some place) : first = second := by
  obtain ⟨messages, hmessages, hmatch⟩ := group_at_oldest hfirst
  obtain ⟨others, hothers, hother⟩ := group_at_oldest hsecond
  obtain rfl := Option.some.inj (hmessages.symm.trans hothers)
  cases messages with
  | nil => simp [groupMatches] at hmatch
  | cons first later =>
      simp only [groupMatches, Bool.and_eq_true, decide_eq_true_eq] at hmatch hother
      exact hmatch.2.symm.trans hother.2

end ScanJoin

/-- The latest of a list of instants is one of them. -/
theorem Instant.mem_of_latest {times : List Instant} {latest : Instant}
    (h : latestOf? times = some latest) : latest ∈ times := by
  cases times with
  | nil => cases h
  | cons time rest =>
      obtain rfl := Option.some.inj h
      clear h
      induction rest generalizing time with
      | nil => exact List.mem_cons_self
      | cons other rest ih =>
          rw [List.foldl_cons]
          rcases List.mem_cons.mp (ih (time.max other)) with hmax | hrest
          · rw [hmax]
            unfold Instant.max
            split
            · exact List.mem_cons_of_mem _ List.mem_cons_self
            · exact List.mem_cons_self
          · exact List.mem_cons_of_mem _ (List.mem_cons_of_mem _ hrest)

/-- The clock after an event; none if punctuation leaves the range of spans. -/
def JoinEvent.moves? (rules : Punctuation) (clock : ObservationClock) :
    JoinEvent → Option ObservationClock
  | interactions _ => some clock
  | observations now batch => some (clock.observe rules now batch)
  | silence now => clock.punctuate? rules now
  | close => some clock.close

namespace ObservationClock

/-- The watermark is never behind the latest observation. -/
def Current (clock : ObservationClock) : Prop :=
  ∀ latest ∈ clock.latestEvent, latest ≤ clock.watermark

theorem le_max_right (first second : Instant) : second ≤ first.max second := by
  unfold Instant.max
  split
  next => exact Instant.le_refl _
  next h => exact Instant.not_lt.mp h

theorem current_new (now : Instant) : (new now).Current := by
  rintro latest ⟨⟩

theorem current_observe (rules : Punctuation) (clock : ObservationClock) (now : Instant)
    (batch : MessageBatch) : (clock.observe rules now batch).Current := by
  rintro latest ⟨⟩
  exact le_max_right _ _

theorem Current.raise {clock : ObservationClock} (h : clock.Current) (candidate : Instant) :
    (clock.raise candidate).Current :=
  fun latest hlatest => Instant.le_trans (h latest hlatest) (le_raise clock candidate)

theorem Current.punctuate {rules : Punctuation} {clock next : ObservationClock} {now : Instant}
    (h : clock.Current) (hnext : clock.punctuate? rules now = some next) : next.Current := by
  simp only [punctuate?] at hnext
  split at hnext
  · cases hnext
    exact h
  · split at hnext
    · split at hnext
      · cases hnext
        exact h.raise _
      · cases hnext
    · cases hnext
      exact h.raise _

theorem Current.moves {rules : Punctuation} {clock next : ObservationClock} {event : JoinEvent}
    (h : clock.Current) (hnext : event.moves? rules clock = some next) : next.Current := by
  cases event with
  | interactions batch =>
      cases hnext
      exact h
  | observations now batch =>
      cases hnext
      exact current_observe rules clock now batch
  | silence now => exact h.punctuate hnext
  | close =>
      cases hnext
      exact h.raise _

/-- No event lowers the watermark. -/
theorem le_moves {rules : Punctuation} {clock next : ObservationClock} {event : JoinEvent}
    (h : event.moves? rules clock = some next) : clock.watermark ≤ next.watermark := by
  cases event with
  | interactions batch =>
      cases h
      exact Instant.le_refl _
  | observations now batch =>
      cases h
      exact le_observe rules clock now batch
  | silence now => exact le_punctuate h
  | close =>
      cases h
      exact le_close clock

/-- The time of a batch that has messages is that of one of them. -/
theorem time_for_mem (rules : Punctuation) {batch : MessageBatch} (h : batch.messages ≠ []) :
    ∃ message ∈ batch.messages, message.eventTime rules.useClientTime = timeFor rules batch := by
  obtain ⟨latest, hlatest⟩ :
      ∃ latest, Instant.latestOf? (batch.messages.map (·.eventTime rules.useClientTime)) =
        some latest := by
    cases hmessages : batch.messages with
    | nil => exact absurd hmessages h
    | cons message rest => exact ⟨_, rfl⟩
  rw [timeFor, hlatest]
  exact List.mem_map.mp (Instant.mem_of_latest hlatest)

/-- A batch of observations moves the watermark to its latest time, unless that is behind. -/
theorem Current.watermark_observe {clock : ObservationClock} (h : clock.Current)
    (rules : Punctuation) (now : Instant) (batch : MessageBatch) :
    (clock.observe rules now batch).watermark = clock.watermark.max (timeFor rules batch) := by
  show clock.watermark.max (clock.latestEvent.elim _ _) = _
  cases hlatest : clock.latestEvent with
  | none => rfl
  | some latest =>
      have hle := h latest hlatest
      by_cases hlater : latest < timeFor rules batch
      · simp only [Option.elim, Instant.max, if_pos hlater]
      · -- Neither the latest observation nor this batch is ahead of the watermark.
        have hbehind := Instant.le_trans (Instant.not_lt.mp hlater) hle
        simp only [Option.elim, Instant.max, if_neg hlater, if_neg (Instant.not_lt.mpr hle),
          if_neg (Instant.not_lt.mpr hbehind)]

end ObservationClock

/-- If not all items up to a position pass a test, a drop of those in front that pass it ends at or
before the position. -/
theorem drop_while_le {α : Type} (test : α → Bool) {items : List α} {position : Nat}
    (h : ∃ item ∈ items.take (position + 1), test item = false) :
    ∃ count ≤ position, items.dropWhile test = items.drop count := by
  induction items generalizing position with
  | nil => simp at h
  | cons first rest ih =>
      by_cases hfirst : test first = true
      · cases position with
        | zero => simp [hfirst] at h
        | succ position =>
            obtain ⟨item, hitem, hfails⟩ := h
            rw [List.take_succ_cons] at hitem
            rcases List.mem_cons.mp hitem with rfl | hitem
            · simp [hfirst] at hfails
            · obtain ⟨count, hcount, hdrop⟩ := ih ⟨item, hitem, hfails⟩
              refine ⟨count + 1, Nat.succ_le_succ hcount, ?_⟩
              rw [List.dropWhile_cons_of_pos hfirst, hdrop, List.drop_succ_cons]
      · exact ⟨0, Nat.zero_le _, List.dropWhile_cons_of_neg hfirst⟩

/-- If all items up to a position pass a test, the item there is among those in front that pass. -/
theorem mem_take_while {α : Type} {test : α → Bool} {items : List α} {position : Nat} {item : α}
    (h : ∀ item ∈ items.take (position + 1), test item = true)
    (hitem : items[position]? = some item) : item ∈ items.takeWhile test := by
  induction items generalizing position with
  | nil => simp at hitem
  | cons first rest ih =>
      rw [List.take_succ_cons] at h
      rw [List.takeWhile_cons_of_pos (h first List.mem_cons_self)]
      cases position with
      | zero =>
          obtain rfl := Option.some.inj hitem
          exact List.mem_cons_self
      | succ position =>
          exact List.mem_cons_of_mem _
            (ih (fun other hother => h other (List.mem_cons_of_mem _ hother)) hitem)

namespace Join

theorem attach_at_map {α : Type} {look : PendingBatch → α} (hlook : ∀ entry group message,
      look { entry with toOpenBatch := entry.toOpenBatch.attach group message } = look entry)
    (pending : List PendingBatch) (position group : Nat) (message : Message) :
    (attachAt pending position group message).map look = pending.map look := by
  apply List.ext_getElem?
  intro other
  rw [List.getElem?_map, List.getElem?_map, attachAt, List.getElem?_modify]
  split
  · cases pending[other]? with
    | none => rfl
    | some entry => exact congrArg some (hlook entry group message)
  · cases pending[other]? <;> rfl

/-- Observations that are added change the groups of the open batches and nothing else. -/
theorem attach_all_keeps (batch : MessageBatch) (messages : List Message) (join : Join) :
    ∃ pending, (attachAll batch messages join).1 = { join with pending } ∧
      ∀ {α : Type} (look : PendingBatch → α), (∀ entry group message,
        look { entry with toOpenBatch := entry.toOpenBatch.attach group message } = look entry) →
      pending.map look = join.pending.map look := by
  induction messages generalizing join with
  | nil => exact ⟨join.pending, rfl, fun _ _ => rfl⟩
  | cons message rest ih =>
      simp only [attachAll]
      split
      · exact ih join
      · split
        next next hnext =>
          unfold attach? at hnext
          split at hnext
          · cases hnext
          next place others _ =>
            obtain rfl := Option.some.inj hnext
            obtain ⟨pending, hrest, hmap⟩ := ih _
            exact ⟨pending, hrest, fun look hlook =>
              (hmap look hlook).trans (attach_at_map hlook join.pending _ place.group message)⟩
        next => exact ih join

/-- Observations that are added leave the clock and the serial numbers. -/
theorem attach_all_frame (batch : MessageBatch) (messages : List Message) (join : Join) :
    (attachAll batch messages join).1.clock = join.clock ∧
      (attachAll batch messages join).1.pending.map (·.serial) = join.pending.map (·.serial) := by
  obtain ⟨pending, hattached, hmap⟩ := attach_all_keeps batch messages join
  rw [hattached]
  exact ⟨rfl, hmap _ fun _ _ _ => rfl⟩

/-- A batch of interactions comes in. Every other event moves the clock, and a flush follows; the
open batches that are left may get observations. -/
theorem step_cases {rules : JoinRules} {join next : Join} {event : JoinEvent}
    {out : List JoinOutput} (hstep : join.step? rules event = some (next, out)) :
    (∃ batch, event = .interactions batch ∧ next = join.addInteractions rules batch) ∨
    event.interactions? = none ∧ ∃ clock pending,
      event.moves? rules.punctuation join.clock = some clock ∧
      next = { (join.flush clock).1 with pending } ∧
      ∀ {α : Type} (look : PendingBatch → α), (∀ entry group message,
        look { entry with toOpenBatch := entry.toOpenBatch.attach group message } = look entry) →
      pending.map look = (join.flush clock).1.pending.map look := by
  cases event with
  | interactions batch =>
      cases hstep
      exact .inl ⟨batch, rfl, rfl⟩
  | observations now batch =>
      obtain rfl : _ = next := congrArg Prod.fst (Option.some.inj hstep)
      obtain ⟨pending, hattached, hmap⟩ := attach_all_keeps batch batch.messages
        (join.flush (join.clock.observe rules.punctuation now batch)).1
      exact .inr ⟨rfl, _, pending, rfl, hattached, hmap⟩
  | silence now =>
      obtain ⟨clock, hclock, hresult⟩ := Option.map_eq_some_iff.mp hstep
      obtain rfl : _ = next := congrArg Prod.fst hresult
      exact .inr ⟨rfl, clock, _, hclock, rfl, fun _ _ => rfl⟩
  | close =>
      obtain rfl : _ = next := congrArg Prod.fst (Option.some.inj hstep)
      exact .inr ⟨rfl, _, _, rfl, rfl, fun _ _ => rfl⟩

theorem step_moves {rules : JoinRules} {join next : Join} {event : JoinEvent}
    {out : List JoinOutput} (hstep : join.step? rules event = some (next, out)) :
    event.moves? rules.punctuation join.clock = some next.clock := by
  rcases step_cases hstep with ⟨batch, rfl, rfl⟩ | ⟨-, clock, pending, hmoves, rfl, -⟩
  · rfl
  · exact hmoves

/-- However a fresh join is used, its watermark is never behind the latest observation. -/
theorem run_current {rules : JoinRules} {events : List JoinEvent} {join next : Join}
    {out : List JoinOutput} (h : join.clock.Current)
    (hrun : join.run? rules events = some (next, out)) : next.clock.Current :=
  run_keeps (fun _ join _ => join.clock.Current) h
    (fun _ _ _ _ _ _ _ hcurrent hstep => hcurrent.moves (step_moves hstep)) hrun

/-- A batch of observations lets the batches out that the watermark has passed, and behind them the
messages that find no interaction among the batches that are left; the others are added there. -/
theorem add_observations_left {join : Join} (h : join.Coherent) (rules : JoinRules)
    (now : Instant) (batch : MessageBatch) :
    let watermark := (join.clock.observe rules.punctuation now batch).watermark
    let left := join.pending.dropWhile (·.deadline < watermark)
    let batches := left.map (·.batch)
    let result := join.addObservations rules now batch
    result.1.pending.map (·.serial) = left.map (·.serial) ∧
      result.1.pending.map (·.toOpenBatch) = (left.map (·.toOpenBatch)).mapIdx
        (fun position entry => ScanJoin.extend entry fun group =>
          ScanJoin.bound batches (some ⟨position, group⟩) batch.messages) ∧
      result.2 = (join.pending.takeWhile (·.deadline < watermark)).map (.joined ·.batch) ++
        (ScanJoin.bound batches none batch.messages).map batch.orphan := by
  intro watermark left batches result
  obtain ⟨first, hserials⟩ := h.serials
  obtain ⟨hout, hleft, -, -⟩ := flush_pending_eq watermark hserials h.lists
  let flushed := join.flush (join.clock.observe rules.punctuation now batch)
  obtain ⟨-, hscan, horphans⟩ := attach_all_refines
    (flush_refines h (join.clock.observe rules.punctuation now batch)).1 batch batch.messages
  -- The messages are dealt with in the join that the flush has left.
  have hpending : flushed.1.toScan.pending = left.map (·.toOpenBatch) :=
    congrArg (List.map PendingBatch.toOpenBatch) hleft
  have hbatches : (left.map (·.toOpenBatch)).map (·.batch) = batches := List.map_map
  have hall : ScanJoin.attachAll batch batch.messages flushed.1.toScan.pending =
      ((left.map (·.toOpenBatch)).mapIdx fun position entry => ScanJoin.extend entry fun group =>
          ScanJoin.bound batches (some ⟨position, group⟩) batch.messages,
        (ScanJoin.bound batches none batch.messages).map batch.orphan) := by
    rw [ScanJoin.attach_all_eq, hpending, hbatches]
  have hattached : result.1.toScan.pending = _ := congrArg ScanJoin.pending hscan
  refine ⟨?_, ?_, ?_⟩
  · exact (attach_all_frame batch batch.messages flushed.1).2.trans
      (congrArg (List.map PendingBatch.serial) hleft)
  · exact hattached.trans (congrArg Prod.fst hall)
  · exact congrArg₂ (· ++ ·) hout (horphans.trans (congrArg Prod.snd hall))

variable {join : Join} {rules : JoinRules} {batch : MessageBatch} {message : Message}

/-- A message of a batch comes out as an orphan if no interaction with its event id is left. -/
theorem orphan_mem_iff (h : join.Coherent) (rules : JoinRules) (now : Instant)
    (hmessage : message ∈ batch.messages) (hordinary : message.isDictionary = false) :
    batch.orphan message ∈ (join.addObservations rules now batch).2 ↔
      ScanJoin.oldestOpen? message.eventId ((join.pending.dropWhile
        (·.deadline < (join.clock.observe rules.punctuation now batch).watermark)).map
          (·.batch)) = none := by
  rw [(add_observations_left h rules now batch).2.2, List.mem_append, List.mem_map, List.mem_map]
  constructor
  · rintro (⟨entry, -, hjoined⟩ | ⟨other, hother, horphan⟩)
    · cases hjoined
    · obtain rfl : other = message := by simpa [MessageBatch.orphan] using horphan
      simpa [ScanJoin.bound, hmessage, hordinary] using hother
  · intro hnone
    exact .inr ⟨message, by simp [ScanJoin.bound, hmessage, hordinary, hnone], rfl⟩

/-- Of a batch that is left, the group of the oldest open interaction with an event id gets all
messages of that event id. -/
theorem add_observations_group (h : join.Coherent) (now : Instant) {eventId : String}
    {position group : Nat} {entry : PendingBatch}
    (holdest : ScanJoin.oldestOpen? eventId ((join.pending.dropWhile
      (·.deadline < (join.clock.observe rules.punctuation now batch).watermark)).map
        (·.batch)) = some ⟨position, group⟩)
    (hentry : (join.pending.dropWhile
      (·.deadline < (join.clock.observe rules.punctuation now batch).watermark))[position]? =
        some entry) :
    ∃ kept ∈ (join.addObservations rules now batch).1.pending, kept.serial = entry.serial ∧
      ∃ before, entry.batch.groups[group]? = some before ∧
        kept.batch.groups[group]? = some (before ++ batch.messages.filter fun other =>
          !other.isDictionary && other.eventId = eventId) := by
  obtain ⟨hserials, hbatches, -⟩ := add_observations_left h rules now batch
  generalize (join.pending.dropWhile
    (·.deadline < (join.clock.observe rules.punctuation now batch).watermark)) = left at *
  -- The open batches afterwards correspond to those that are left, position by position.
  have hserial := congrArg (·[position]?) hserials
  have hbatch := congrArg (·[position]?) hbatches
  simp only [List.getElem?_map, List.getElem?_mapIdx, hentry, Option.map_some,
    Option.map_eq_some_iff] at hserial hbatch
  obtain ⟨kept, hkept, hserial⟩ := hserial
  obtain ⟨same, hsame, hbatch⟩ := hbatch
  obtain rfl := Option.some.inj (hkept.symm.trans hsame)
  obtain ⟨before, hbefore, -⟩ := ScanJoin.group_at_oldest holdest
  rw [groupAt, List.getElem?_map, hentry] at hbefore
  refine ⟨kept, List.mem_of_getElem? hkept, hserial, before, hbefore, ?_⟩
  have hgroups : kept.batch.groups[group]? = some (before ++ ScanJoin.bound
      (left.map (·.batch)) (some ⟨position, group⟩) batch.messages) := by
    rw [hbatch, ScanJoin.extend, List.getElem?_mapIdx]
    exact congrArg (Option.map _) hbefore
  -- Only messages of this event id have their oldest open interaction there.
  have hfilter : ScanJoin.bound (left.map (·.batch)) (some ⟨position, group⟩) batch.messages =
      batch.messages.filter fun other => !other.isDictionary && other.eventId = eventId := by
    apply List.filter_congr
    intro other _
    by_cases heq : other.eventId = eventId
    · simp [heq, holdest]
    · have hother : ScanJoin.oldestOpen? other.eventId (left.map (·.batch)) ≠
          some ⟨position, group⟩ := fun h => heq (ScanJoin.oldest_open_inj h holdest)
      simp [heq, hother]
  rw [hgroups, hfilter]

/-- A batch of observations comes in, and one of its messages is in the window of the oldest open
interaction with its event id. As long as the time that the watermark reaches, which is that of the
latest message of the batch if that is later than the watermark so far, has not passed the deadlines
of all open batches up to that of the interaction, the message is added to the group of the
interaction, together with the other messages of its event id, and does not come out as an orphan.
Else the batch of the interaction comes out without it, because of the watermark so far or because
of another message of the same batch, and the message is an orphan if no other interaction with its
event id is left. -/
theorem observation_joins_while_open {now : Instant} {events : List JoinEvent}
    {out : List JoinOutput} (hjoin : (Join.new now).run? rules events = some (join, out))
    (wall : Instant) (hmessage : message ∈ batch.messages)
    (hordinary : message.isDictionary = false) {position group : Nat} {entry : PendingBatch}
    (holdest : ScanJoin.oldestOpen? message.eventId (join.pending.map (·.batch)) =
      some ⟨position, group⟩)
    (hentry : join.pending[position]? = some entry)
    (htime : message.eventTime rules.punctuation.useClientTime ≤ entry.deadline) :
    let reached := join.clock.watermark.max (ObservationClock.timeFor rules.punctuation batch)
    let result := join.addObservations rules wall batch
    ((∃ earlier ∈ join.pending.take (position + 1), reached ≤ earlier.deadline) →
      (∃ kept ∈ result.1.pending, kept.serial = entry.serial ∧
        ∃ before, entry.batch.groups[group]? = some before ∧
          kept.batch.groups[group]? = some (before ++ batch.messages.filter fun other =>
            !other.isDictionary && other.eventId = message.eventId)) ∧
      batch.orphan message ∉ result.2) ∧
    ((∀ earlier ∈ join.pending.take (position + 1), earlier.deadline < reached) →
      .joined entry.batch ∈ result.2 ∧
      (batch.orphan message ∈ result.2 ↔ ScanJoin.oldestOpen? message.eventId
        ((join.pending.dropWhile (·.deadline < reached)).map (·.batch)) = none) ∧
      (entry.deadline < join.clock.watermark ∨ ∃ other ∈ batch.messages, other ≠ message ∧
        entry.deadline < other.eventTime rules.punctuation.useClientTime)) := by
  intro reached result
  have hcoherent : join.Coherent := (run_refines (new_coherent now) rules events).2 _ hjoin
  have hcurrent : join.clock.Current := run_current (ObservationClock.current_new now) hjoin
  have hreached : (join.clock.observe rules.punctuation wall batch).watermark = reached :=
    hcurrent.watermark_observe rules.punctuation wall batch
  have horphan := orphan_mem_iff hcoherent rules wall hmessage hordinary
  rw [hreached] at horphan
  refine ⟨?_, ?_⟩
  · rintro ⟨earlier, hearlier, hopen⟩
    obtain ⟨count, hcount, hleft⟩ := drop_while_le (decide <| ·.deadline < reached)
      ⟨earlier, hearlier, decide_eq_false (Instant.not_lt.mpr hopen)⟩
    have holdest_left := ScanJoin.oldest_open_drop holdest hcount
    rw [← List.map_drop, ← hleft] at holdest_left
    have hentry_left : (join.pending.dropWhile (·.deadline < reached))[position - count]? =
        some entry := by
      rw [hleft, List.getElem?_drop, Nat.add_sub_cancel' hcount, hentry]
    rw [← hreached] at holdest_left hentry_left
    refine ⟨add_observations_group hcoherent wall holdest_left hentry_left, ?_⟩
    rw [horphan, ← hreached, holdest_left]
    exact nofun
  · intro hpassed
    have hentry_passed : entry ∈ join.pending.takeWhile (·.deadline < reached) :=
      mem_take_while (fun earlier hearlier => decide_eq_true (hpassed earlier hearlier)) hentry
    refine ⟨?_, horphan, ?_⟩
    · rw [(add_observations_left hcoherent rules wall batch).2.2, hreached]
      exact List.mem_append_left _ (List.mem_map_of_mem hentry_passed)
    · have hlate : entry.deadline < reached :=
        hpassed entry (List.mem_of_getElem?
          ((List.getElem?_take_of_lt (Nat.lt_succ_self position)).trans hentry))
      by_cases hwatermark : join.clock.watermark < ObservationClock.timeFor rules.punctuation batch
      · right
        rw [show reached = _ from if_pos hwatermark] at hlate
        obtain ⟨other, hother, htime_other⟩ := ObservationClock.time_for_mem rules.punctuation
          (List.ne_nil_of_mem hmessage)
        rw [← htime_other] at hlate
        refine ⟨other, hother, ?_, hlate⟩
        rintro rfl
        exact Instant.not_lt.mpr htime hlate
      · left
        rwa [show reached = _ from if_neg hwatermark] at hlate

/-- Two observations, nine and eleven seconds after the start of 1970. -/
def unevenBatch : MessageBatch :=
  let late := sampleBatch 1 11000 [("z", .observation)]
  { late with messages := (sampleBatch 1 9000 [("a", .observation)]).messages ++ late.messages }

/-- A join with two open interactions, of which the older batch has the later deadline. -/
def heldBack : Join :=
  ((Join.new .epoch).addInteractions sampleRules
    (sampleBatch 0 10000 [("b", .interaction)])).addInteractions sampleRules
      (sampleBatch 1 0 [("a", .interaction)])

/-- The batch of an interaction is held back by an older one whose window is still open, so the
observation after nine seconds joins, though the other one is past the deadline. -/
theorem observation_joins_while_open_sample :
    ∃ message ∈ unevenBatch.messages, message.eventId = "a" ∧
      (∃ kept ∈ (heldBack.addObservations sampleRules .epoch unevenBatch).1.pending,
        kept.serial = 1 ∧ ∃ before, kept.batch.groups[0]? = some (before ++ [message])) ∧
      unevenBatch.orphan message ∉
        (heldBack.addObservations sampleRules .epoch unevenBatch).2 := by
  let message := (sampleBatch 1 9000 [("a", .observation)]).messages[0]
  have hrun : (Join.new .epoch).run? sampleRules
      [.interactions (sampleBatch 0 10000 [("b", .interaction)]),
        .interactions (sampleBatch 1 0 [("a", .interaction)])] = some (heldBack, []) := rfl
  have hmessage : message ∈ unevenBatch.messages := by decide
  have holdest : ScanJoin.oldestOpen? message.eventId (heldBack.pending.map (·.batch)) =
      some ⟨1, 0⟩ := rfl
  have hentry : heldBack.pending[1]? = some heldBack.pending[1] := rfl
  obtain ⟨⟨kept, hkept, hserial, before, -, hgroup⟩, horphan⟩ :=
    (observation_joins_while_open hrun .epoch hmessage rfl holdest hentry (by decide)).1
      ⟨heldBack.pending[0], by decide, by decide⟩
  exact ⟨message, hmessage, rfl, ⟨kept, hkept, hserial, before, hgroup⟩, horphan⟩

/-- An interaction is open for ten seconds. An observation of it comes after nine, in one batch with
an observation that comes after eleven: the interaction is given out without it, and it is an
orphan. -/
theorem observation_in_window_can_miss :
    ∃ join entry message,
      (Join.new .epoch).run? sampleRules
        [.interactions (sampleBatch 0 0 [("a", .interaction)])] = some (join, []) ∧
      message ∈ unevenBatch.messages ∧ message.isDictionary = false ∧
      ScanJoin.oldestOpen? message.eventId (join.pending.map (·.batch)) = some ⟨0, 0⟩ ∧
      join.pending[0]? = some entry ∧
      message.eventTime sampleRules.punctuation.useClientTime ≤ entry.deadline ∧
      (join.addObservations sampleRules .epoch unevenBatch).2.take 1 = [.joined entry.batch] ∧
      entry.batch.groups.flatten.contains message = false ∧
      unevenBatch.orphan message ∈ (join.addObservations sampleRules .epoch unevenBatch).2 := by
  refine ⟨_, _, (sampleBatch 1 9000 [("a", .observation)]).messages[0], rfl, ?_, rfl, rfl, rfl, ?_,
    rfl, ?_, ?_⟩
  all_goals decide

end Join

end WindowJoin
