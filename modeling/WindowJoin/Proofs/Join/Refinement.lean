import WindowJoin.Proofs.Join.Index

/-!
# The indexed join refines the join without an index

`toScan` forgets the index and the numbers of a join. Every operation keeps a join coherent and does
to what is left exactly what the join without an index does (`attach_refines`, `flush_refines`,
`step_refines`); so whole runs give the same outputs and leave the same open batches
(`run_refines`). `run_matches_scan` adds that no lookup on the way goes astray, in the middle of a batch
of observations or between two events.
-/

namespace WindowJoin

namespace Join

/-- A join without its index and its numbers. -/
def toScan (join : Join) : ScanJoin :=
  ⟨join.clock, join.pending.map (·.toOpenBatch)⟩

/-- The batches with a message added to a group of the one at a position. -/
def attachAt (pending : List PendingBatch) (position group : Nat) (message : Message) :
    List PendingBatch :=
  pending.modify position fun entry =>
    { entry with toOpenBatch := entry.toOpenBatch.attach group message }

/-! ## Attaching an observation -/

/-- The scan finds the group at the first place that is listed. -/
theorem attach_to_eq {first last : Nat} {pending : List PendingBatch}
    (h : Serials first pending last) (message : Message) :
    ScanJoin.attachTo? message (pending.map (·.toOpenBatch)) =
      (PlaceIndex.openPlaces message.eventId pending).head?.map fun place =>
        (attachAt pending (place.serial - first) place.group message).map (·.toOpenBatch) := by
  induction pending generalizing first with
  | nil => rfl
  | cons entry rest ih =>
      obtain ⟨hserial, hrest⟩ := h
      rw [List.map_cons, ScanJoin.attachTo?, PlaceIndex.openPlaces, List.flatMap_cons,
        List.head?_append, PlaceIndex.open_groups_head]
      cases hfind : entry.batch.groups.findIdx? (ScanJoin.groupMatches message.eventId) with
      | some group => simp [attachAt, hserial]
      | none =>
          -- The first place is in a later batch, one position further on than among the rest.
          simp only [Option.map_none, Option.none_or]
          rw [ih hrest, PlaceIndex.openPlaces, Option.map_map]
          apply Option.map_congr
          intro place hplace
          obtain ⟨later, hlater, hplace⟩ := List.mem_flatMap.mp (List.mem_of_mem_head? hplace)
          obtain ⟨position, hposition⟩ := List.getElem?_of_mem hlater
          have hlater_serial := hrest.serial_at hposition
          have hplace_serial := (PlaceIndex.open_groups_mem hplace).1
          rw [Function.comp_apply,
            show place.serial - first = place.serial - (first + 1) + 1 by omega]
          rfl

/-- A message added behind the first of a group leaves the outlines of the batches. -/
theorem attach_at_outline (message : Message) {pending : List PendingBatch} {position group : Nat}
    (h : ∀ entry, pending[position]? = some entry → entry.batch.groups[group]? ≠ some []) :
    (attachAt pending position group message).map PendingBatch.outline =
      pending.map PendingBatch.outline := by
  apply List.ext_getElem?
  intro other
  rw [List.getElem?_map, List.getElem?_map, attachAt, List.getElem?_modify]
  cases hentry : pending[other]? with
  | none => rfl
  | some entry =>
      by_cases heq : position = other
      · subst heq
        have hheads := heads_attach message (h entry hentry)
        simpa [PendingBatch.outline, OpenBatch.attach] using hheads
      · simp [heq]

/-- In a coherent join a number less that of the oldest batch is a position. -/
theorem attach_eq {join : Join} (h : join.Coherent) {first : Nat}
    (hserials : Serials first join.pending join.nextSerial) (message : Message) :
    join.attach? message =
      (PlaceIndex.openPlaces message.eventId join.pending).head?.map fun place =>
        { join with
          pending := attachAt join.pending (place.serial - first) place.group message } := by
  rw [attach?, ← h.lists.places_eq]
  cases hplaces : join.index.places message.eventId with
  | nil => rfl
  | cons place others =>
      obtain ⟨front, -, -, hfront, -⟩ :=
        h.place_found (hplaces ▸ List.mem_cons_self : place ∈ join.index.places message.eventId)
      simp [hfront, hserials.head_eq hfront, attachAt]

/-- An observation goes to the group that the scan finds, or to none where it finds none. -/
theorem attach_refines {join : Join} (h : join.Coherent) (message : Message) :
    (join.attach? message).map toScan =
      (ScanJoin.attachTo? message join.toScan.pending).map (⟨join.clock, ·⟩) := by
  obtain ⟨first, hserials⟩ := h.serials
  rw [attach_eq h hserials, toScan, attach_to_eq hserials, Option.map_map, Option.map_map]
  rfl

/-- A join stays coherent when an observation is added. -/
theorem Coherent.attach {join next : Join} {message : Message} (h : join.Coherent)
    (hnext : join.attach? message = some next) : next.Coherent := by
  obtain ⟨first, hserials⟩ := h.serials
  rw [attach_eq h hserials, Option.map_eq_some_iff] at hnext
  obtain ⟨place, hplace, rfl⟩ := hnext
  have hmem : place ∈ join.index.places message.eventId := by
    rw [h.lists.places_eq]
    exact List.mem_of_mem_head? hplace
  obtain ⟨front, entry, messages, hfront, -, hentry, hmessages, hmatch⟩ := h.place_found hmem
  rw [hserials.head_eq hfront] at hentry
  -- The group has a first message, so the outlines stay, and with them the numbers and the index.
  have hsame := attach_at_outline message fun other hother => by
    obtain rfl := Option.some.inj (hentry.symm.trans hother)
    rw [hmessages]
    exact fun heq => PlaceIndex.ne_nil_of_matches hmatch (Option.some.inj heq)
  exact ⟨⟨first, hserials.congr hsame⟩, h.lists.congr hsame⟩

/-- The observations of a batch go where the scan takes them, and the same ones are orphans. -/
theorem attach_all_refines {join : Join} (h : join.Coherent) (batch : MessageBatch)
    (messages : List Message) :
    let result := attachAll batch messages join
    let scanned := ScanJoin.attachAll batch messages join.toScan.pending
    result.1.Coherent ∧ result.1.toScan = ⟨join.clock, scanned.1⟩ ∧ result.2 = scanned.2 := by
  induction messages generalizing join with
  | nil => exact ⟨h, rfl, rfl⟩
  | cons message rest ih =>
      simp only [attachAll, ScanJoin.attachAll]
      split
      next => exact ih h
      next =>
        have hattach := attach_refines h message
        cases hnext : join.attach? message with
        | none =>
            rw [hnext, Option.map_none, eq_comm, Option.map_eq_none_iff] at hattach
            obtain ⟨hcoherent, hscan, hout⟩ := ih h
            simp only [hattach]
            exact ⟨hcoherent, hscan, congrArg (_ :: ·) hout⟩
        | some next =>
            rw [hnext, Option.map_some, eq_comm, Option.map_eq_some_iff] at hattach
            obtain ⟨scanned, hscanned, hpending⟩ := hattach
            obtain ⟨hcoherent, hscan, hout⟩ := ih (h.attach hnext)
            have hclock : join.clock = next.clock := congrArg ScanJoin.clock hpending
            simp only [hscanned]
            rw [hclock, show scanned = next.toScan.pending from congrArg ScanJoin.pending hpending]
            exact ⟨hcoherent, hscan, hout⟩

/-! ## Flushing -/

/-- The batches in front that the watermark has passed come out, and the others stay. -/
theorem flush_pending_split (watermark : Instant) (pending : List PendingBatch)
    (index : PlaceIndex) :
    (flushPending watermark pending index).1 =
        (pending.takeWhile (·.deadline < watermark)).map (.joined ·.batch) ∧
      (flushPending watermark pending index).2.1 =
        pending.dropWhile (·.deadline < watermark) := by
  induction pending generalizing index with
  | nil => exact ⟨rfl, rfl⟩
  | cons entry rest ih =>
      simp only [flushPending, List.takeWhile_cons, List.dropWhile_cons]
      split
      next hpassed =>
        obtain ⟨hout, hleft⟩ := ih (index.removeGroups entry.serial 0 entry.batch.groups)
        simp only [hpassed, decide_true, if_true, List.map_cons]
        exact ⟨congrArg (_ :: ·) hout, hleft⟩
      next hpassed => simp [hpassed]

/-- The batches in front that the watermark has passed come out, and the index keeps up. -/
theorem flush_pending_eq (watermark : Instant) {pending : List PendingBatch} {index : PlaceIndex}
    {first last : Nat} (hserials : Serials first pending last) (hlists : index.Lists pending) :
    let result := flushPending watermark pending index
    result.1 = (pending.takeWhile (·.deadline < watermark)).map (.joined ·.batch) ∧
      result.2.1 = pending.dropWhile (·.deadline < watermark) ∧
      result.2.2.Lists result.2.1 ∧ ∃ first, Serials first result.2.1 last := by
  refine ⟨(flush_pending_split ..).1, (flush_pending_split ..).2, ?_⟩
  induction pending generalizing index first with
  | nil => exact ⟨hlists, first, hserials⟩
  | cons entry rest ih =>
      simp only [flushPending]
      split
      next =>
        -- The batch takes its places out of the index before the next one is looked at.
        exact ih hserials.2 (hlists.remove_groups hserials)
      next => exact ⟨hlists, first, hserials⟩

/-- A flush gives out what the join without an index gives out and keeps what that keeps. -/
theorem flush_refines {join : Join} (h : join.Coherent) (clock : ObservationClock) :
    (join.flush clock).1.Coherent ∧
      (join.flush clock).1.toScan = (join.toScan.flush clock).1 ∧
      (join.flush clock).2 = (join.toScan.flush clock).2 := by
  obtain ⟨first, hserials⟩ := h.serials
  obtain ⟨hout, hleft, hlists, hrest⟩ :=
    flush_pending_eq clock.watermark hserials h.lists
  refine ⟨⟨hrest, hlists⟩, ?_, ?_⟩
  · simp only [toScan, flush, ScanJoin.flush, hleft, List.dropWhile_map]
    rfl
  · simp only [toScan, flush, ScanJoin.flush, hout, List.takeWhile_map, List.map_map]
    rfl

/-! ## Steps and runs -/

/-- A fresh join is coherent. -/
theorem new_coherent (now : Instant) : (Join.new now).Coherent :=
  ⟨⟨0, rfl⟩, ⟨fun _ => rfl, fun _ => nofun⟩⟩

/-- A join stays coherent when a batch of interactions comes in. -/
theorem Coherent.add_interactions {join : Join} (h : join.Coherent) (rules : JoinRules)
    (batch : MessageBatch) : (join.addInteractions rules batch).Coherent where
  serials := h.serials.imp fun _ hserials => hserials.concat rfl
  lists := h.lists.add_messages rules batch join.nextSerial

/-- A join amid a batch of observations: the watermark has moved, and these of the messages have been
dealt with. -/
def amid (rules : JoinRules) (join : Join) (now : Instant) (batch : MessageBatch)
    (dealt : List Message) : Join :=
  (attachAll batch dealt (join.flush (join.clock.observe rules.punctuation now batch)).1).1

/-- Every event has the same effect and output in both joins. -/
theorem step_refines {join : Join} (h : join.Coherent) (rules : JoinRules) (event : JoinEvent) :
    (join.step? rules event).map (fun result => (result.1.toScan, result.2)) =
        join.toScan.step? rules event ∧
      ∀ result, join.step? rules event = some result → result.1.Coherent := by
  cases event with
  | interactions batch =>
      refine ⟨?_, ?_⟩
      · simp [step?, ScanJoin.step?, toScan, addInteractions]
      · rintro _ ⟨⟩
        exact h.add_interactions rules batch
  | observations now batch =>
      obtain ⟨hflushed, hscan, hout⟩ :=
        flush_refines h (join.clock.observe rules.punctuation now batch)
      obtain ⟨hattached, hscan', hout'⟩ := attach_all_refines hflushed batch batch.messages
      refine ⟨?_, ?_⟩
      · simp only [step?, addObservations, Option.map_some, ScanJoin.step?, hscan', hout, hout',
          hscan]
        rfl
      · rintro _ ⟨⟩
        exact hattached
  | silence now =>
      refine ⟨?_, ?_⟩
      · simp only [step?, punctuate?, ScanJoin.step?, Option.map_map]
        congr 1
        funext clock
        obtain ⟨-, hscan, hout⟩ := flush_refines h clock
        exact Prod.ext hscan hout
      · intro result hresult
        obtain ⟨clock, -, rfl⟩ := Option.map_eq_some_iff.mp hresult
        exact (flush_refines h clock).1
  | close =>
      obtain ⟨hclosed, hscan, hout⟩ := flush_refines h join.clock.close
      refine ⟨congrArg some (Prod.ext hscan hout), ?_⟩
      rintro _ ⟨⟩
      exact hclosed

/-- Every list of events has the same effect and output in both joins. -/
theorem run_refines {join : Join} (h : join.Coherent) (rules : JoinRules)
    (events : List JoinEvent) :
    (join.run? rules events).map (fun result => (result.1.toScan, result.2)) =
        join.toScan.run? rules events ∧
      ∀ result, join.run? rules events = some result → result.1.Coherent := by
  induction events generalizing join with
  | nil =>
      refine ⟨rfl, ?_⟩
      rintro _ ⟨⟩
      exact h
  | cons event rest ih =>
      obtain ⟨hstep, hcoherent⟩ := step_refines h rules event
      cases hresult : join.step? rules event with
      | none =>
          rw [hresult, Option.map_none] at hstep
          simp [run?, ScanJoin.run?, hresult, ← hstep]
      | some result =>
          obtain ⟨next, out⟩ := result
          rw [hresult, Option.map_some] at hstep
          obtain ⟨hrun, hfinal⟩ := ih (hcoherent _ hresult)
          refine ⟨?_, ?_⟩
          · simp only [run?, ScanJoin.run?, hresult, ← hstep, ← hrun, bind, Option.bind_some]
            cases next.run? rules rest <;> rfl
          · intro final hfinal'
            simp only [run?, hresult, bind, Option.bind_some, Option.bind_eq_some_iff] at hfinal'
            obtain ⟨later, hlater, hfinal'⟩ := hfinal'
            cases hfinal'
            exact hfinal later hlater

/-! ## Lookups -/

/-- For every place in the index, the number of the oldest open batch can be taken from that of the
place, the difference is the position of an open batch, and this has a group of that number. -/
def LookupsInBounds (join : Join) : Prop :=
  ∀ eventId, ∀ place ∈ join.index.places eventId,
    ∃ front entry, join.pending.head? = some front ∧ front.serial ≤ place.serial ∧
      join.pending[place.serial - front.serial]? = some entry ∧
      place.group < entry.batch.groups.length

theorem Coherent.lookups_in_bounds {join : Join} (h : join.Coherent) : join.LookupsInBounds := by
  intro eventId place hplace
  obtain ⟨front, entry, messages, hfront, hle, hentry, hmessages, -⟩ := h.place_found hplace
  exact ⟨front, entry, hfront, hle, hentry, (List.getElem?_eq_some_iff.mp hmessages).1⟩

theorem Coherent.amid {join : Join} (h : join.Coherent) (rules : JoinRules) (now : Instant)
    (batch : MessageBatch) (dealt : List Message) : (join.amid rules now batch dealt).Coherent :=
  (attach_all_refines (flush_refines h _).1 batch dealt).1

/-- From a fresh join, every list of events gives the outputs of the join without an index, in the
same order, and leaves the same open batches; and in every join that is reached, between two events
or amid a batch of observations, every lookup is in bounds and no event id has an empty list. -/
theorem run_matches_scan (rules : JoinRules) (now : Instant) (events : List JoinEvent) :
    ((Join.new now).run? rules events).map (fun result => (result.1.toScan, result.2)) =
        (ScanJoin.new now).run? rules events ∧
      ∀ join out, (Join.new now).run? rules events = some (join, out) →
        (join.LookupsInBounds ∧ ∀ eventId, join.index.get? eventId ≠ some []) ∧
        ∀ wall batch dealt, (join.amid rules wall batch dealt).LookupsInBounds ∧
          ∀ eventId, (join.amid rules wall batch dealt).index.get? eventId ≠ some [] := by
  obtain ⟨hrun, hcoherent⟩ := run_refines (new_coherent now) rules events
  refine ⟨hrun, ?_⟩
  intro join out hjoin
  have h : join.Coherent := hcoherent _ hjoin
  refine ⟨⟨h.lookups_in_bounds, h.lists.no_empty⟩, ?_⟩
  intro wall batch dealt
  have hamid := h.amid rules wall batch dealt
  exact ⟨hamid.lookups_in_bounds, hamid.lists.no_empty⟩

/-- A batch with messages of these event ids and kinds, some milliseconds after the start of 1970. -/
def sampleBatch (number : Int64) (millis : Int) (messages : List (String × PayloadType)) :
    MessageBatch :=
  let time := Instant.epoch.addSaturating (spanOfMillis millis)
  ⟨number, number, "0", time, messages.length,
    messages.map fun message => ⟨"app", message.1, message.2, time, none, []⟩⟩

/-- A join with a window of ten seconds. -/
def sampleRules : JoinRules :=
  ⟨spanOfMillis 10000, ⟨spanOfMillis 30000, spanOfMillis 1000, false, false⟩, 10, 5000⟩

/-- An event id comes twice in one batch, beside a dictionary of that id, and again in the next
batch. Its second observation passes the deadline of the first batch; another id has no
interaction. -/
def sampleEvents : List JoinEvent :=
  let late := sampleBatch 3 11000 [("a", .observation)]
  [.interactions (sampleBatch 0 0 [("a", .dictionary), ("a", .interaction), ("a", .interaction)]),
    .interactions (sampleBatch 1 5000 [("a", .interaction)]),
    .observations .epoch (sampleBatch 2 8000 [("a", .observation), ("z", .observation)]),
    .observations .epoch late]

theorem run_matches_scan_sample :
    ∃ join out, (Join.new .epoch).run? sampleRules sampleEvents = some (join, out) ∧
      (ScanJoin.new .epoch).run? sampleRules sampleEvents = some (join.toScan, out) ∧
      join.pending.length = 1 ∧ out.length = 2 ∧ join.LookupsInBounds := by
  have h := run_matches_scan sampleRules .epoch sampleEvents
  exact ⟨_, _, rfl, h.1.symm, rfl, rfl, (h.2 _ _ rfl).1.1⟩

end Join

end WindowJoin
