import WindowJoin.Proofs.Join.Deadlines

/-!
# When an observation is added to a group

Everything in a group behind its first message was added there by one batch of observations, at a
moment when the batch of interactions was open (`Join.Attaches`, `Join.run_attaches`). No times are
compared then. But the watermark has reached the time of the observation before, and the oldest batch
that is left open is not passed; so an observation is not after the deadline of the batch that it
joins, unless an older batch with a later deadline is still open (`Join.attached_by_deadline`). It may
well be before its interaction (`Join.observation_outside_window_joins`).
-/

namespace WindowJoin

/-- No instant of a list is after the latest one. -/
theorem Instant.le_latest_of {times : List Instant} {latest time : Instant}
    (h : latestOf? times = some latest) (htime : time ∈ times) : time ≤ latest := by
  cases times with
  | nil => cases h
  | cons first rest =>
      obtain rfl := Option.some.inj h
      clear h
      -- The latest so far is never after the latest in the end.
      induction rest generalizing first time with
      | nil =>
          obtain rfl := List.mem_singleton.mp htime
          exact le_refl time
      | cons other rest ih =>
          have hlatest : first.max other ≤ rest.foldl max (first.max other) :=
            ih (first.max other) List.mem_cons_self
          rcases List.mem_cons.mp htime with rfl | hrest
          · exact le_trans (ObservationClock.le_max time other) hlatest
          · rcases List.mem_cons.mp hrest with rfl | hrest
            · exact le_trans (ObservationClock.le_max_right first time) hlatest
            · exact ih (first.max other) (List.mem_cons_of_mem _ hrest)

/-- A batch of observations moves the watermark to the time of each of its messages or beyond. -/
theorem ObservationClock.message_le_observe (rules : Punctuation) (clock : ObservationClock)
    (now : Instant) {batch : MessageBatch} {message : Message} (h : message ∈ batch.messages) :
    message.eventTime rules.useClientTime ≤ (clock.observe rules now batch).watermark := by
  have htime : message.eventTime rules.useClientTime ≤ timeFor rules batch := by
    rw [timeFor]
    cases hlatest : Instant.latestOf? (batch.messages.map (·.eventTime rules.useClientTime)) with
    | none =>
        cases hmessages : batch.messages with
        | nil => simp [hmessages] at h
        | cons => simp [hmessages, Instant.latestOf?] at hlatest
    | some latest => exact Instant.le_latest_of hlatest (List.mem_map_of_mem h)
  refine Instant.le_trans htime (Instant.le_trans ?_ (le_max_right clock.watermark _))
  cases clock.latestEvent with
  | none => exact Instant.le_refl _
  | some latest => exact le_max_right latest _

/-- Batches that are extended behind others keep their groups and get these at the end of them. -/
theorem group_at_extend (front : List JoinedBatch) (left : List OpenBatch)
    (added : Nat → Nat → List Message) (place : Place) :
    groupAt (front ++ (left.mapIdx fun position entry =>
        ScanJoin.extend entry (added position)).map (·.batch)) place =
      (groupAt (front ++ left.map (·.batch)) place).map fun messages =>
        messages ++ if place.serial < front.length then []
          else added (place.serial - front.length) place.group := by
  by_cases hfront : place.serial < front.length
  · simp [groupAt, List.getElem?_append_left hfront, hfront]
  · rw [groupAt, groupAt, List.getElem?_append_right (Nat.not_lt.mp hfront),
      List.getElem?_append_right (Nat.not_lt.mp hfront), List.getElem?_map, List.getElem?_map,
      List.getElem?_mapIdx]
    cases left[place.serial - front.length]? with
    | none => rfl
    | some entry => simp [ScanJoin.extend, hfront]

namespace Join

variable {rules : JoinRules} {join next : Join} {event : JoinEvent} {events : List JoinEvent}
  {out : List JoinOutput} {now wall : Instant} {batch : MessageBatch} {message : Message}

/-! ## Open batches and their serial numbers -/

/-- Serial numbers count the batches of interactions. -/
theorem run_next_serial (h : (Join.new now).run? rules events = some (join, out)) :
    join.nextSerial = (events.filterMap JoinEvent.interactions?).length := by
  refine run_keeps (fun events join _ =>
    join.nextSerial = (events.filterMap JoinEvent.interactions?).length) rfl ?_ h
  intro events between before event next come _ hserial hstep
  rw [List.filterMap_append, List.length_append]
  rcases step_cases hstep with ⟨batch, rfl, rfl⟩ | ⟨hnone, clock, pending, -, rfl, -⟩
  · exact congrArg (· + 1) hserial
  · rw [List.filterMap_cons, hnone]
    exact hserial

/-- The serial number of an open batch is its place among all joined batches, those that have come
out and behind them the open ones. -/
theorem run_serials (h : (Join.new now).run? rules events = some (join, out)) :
    Serials (joinedOf out).length join.pending join.nextSerial := by
  have hcarried := (run_loses_nothing h).1.length_eq
  rw [List.length_append, List.length_map] at hcarried
  obtain ⟨first, hserials⟩ := ((run_refines (new_coherent now) rules events).2 _ h).serials
  have hlast : first + join.pending.length = join.nextSerial := hserials.length_eq
  rw [run_next_serial h, hcarried] at hlast
  obtain rfl : first = (joinedOf out).length := Nat.add_right_cancel hlast
  exact hserials

/-- An open batch has the deadline of the batch of interactions that came in with its number. -/
theorem open_batch_received (h : (Join.new now).run? rules events = some (join, out))
    {entry : PendingBatch} (hentry : entry ∈ join.pending) :
    ∃ interactions, (events.filterMap JoinEvent.interactions?)[entry.serial]? =
      some interactions ∧ entry.deadline = rules.deadline interactions := by
  obtain ⟨position, hposition⟩ := List.getElem?_of_mem hentry
  rw [(run_serials h).serial_at hposition]
  -- As many deadlines are passed as batches have come out.
  obtain ⟨passed, hdeadlines, -⟩ := run_deadlines h
  have hcarried := (run_loses_nothing h).1.length_eq
  have hpassed := congrArg List.length hdeadlines
  simp only [List.length_append, List.length_map, deadlines] at hcarried hpassed
  have hdeadline := congrArg (·[(joinedOf out).length + position]?) hdeadlines
  simp only [List.getElem?_map] at hdeadline
  rw [List.getElem?_append_right (by omega), deadlines, List.getElem?_map,
    show (joinedOf out).length + position - passed.length = position by omega, hposition,
    Option.map_some, Option.map_eq_some_iff] at hdeadline
  obtain ⟨interactions, hinteractions, heq⟩ := hdeadline
  exact ⟨interactions, hinteractions, heq.symm⟩

/-! ## What is open amid a batch of observations -/

theorem amid_pending (rules : JoinRules) (join : Join) (wall : Instant) (batch : MessageBatch) :
    (join.amid rules wall batch []).pending = join.pending.dropWhile
      (·.deadline < (join.clock.observe rules.punctuation wall batch).watermark) :=
  (flush_pending_split ..).2

/-- What is open amid a batch of observations came in before it. -/
theorem amid_received (h : (Join.new now).run? rules events = some (join, out))
    {entry : PendingBatch} (hentry : entry ∈ (join.amid rules wall batch []).pending) :
    ∃ interactions, (events.filterMap JoinEvent.interactions?)[entry.serial]? =
      some interactions ∧ entry.deadline = rules.deadline interactions := by
  rw [amid_pending] at hentry
  exact open_batch_received h ((List.dropWhile_suffix _).subset hentry)

/-- No message of a batch of observations is behind the deadline of the oldest batch that is open
then. -/
theorem amid_oldest (hbrought : message ∈ batch.messages) {oldest : PendingBatch}
    (holdest : oldest ∈ (join.amid rules wall batch []).pending.head?) :
    message.eventTime rules.punctuation.useClientTime ≤ oldest.deadline := by
  rw [amid_pending] at holdest
  have hopen := Instant.not_lt.mp (by simpa using head_of_drop_while holdest)
  exact Instant.le_trans
    (ObservationClock.message_le_observe rules.punctuation join.clock wall hbrought) hopen

/-! ## The moment at which an observation is added -/

/-- A batch of observations adds a message to the group at a place, as the item with this index: it
is not there before, and there afterwards, and when the messages of the batch are looked at, the
batch with the serial number of the place is open. -/
structure Attaches (rules : JoinRules) (join : Join) (out : List JoinOutput) (wall : Instant)
    (batch : MessageBatch) (place : Place) (index : Nat) (message : Message) : Prop where
  brought : message ∈ batch.messages
  ordinary : message.isDictionary = false
  is_open : ∃ entry ∈ (join.amid rules wall batch []).pending, entry.serial = place.serial
  absent : ∃ before, groupAt (joinedOf out ++ join.batches) place = some before ∧
    before.length ≤ index
  present : ∃ after, groupAt (joinedOf (out ++ (join.addObservations rules wall batch).2) ++
    (join.addObservations rules wall batch).1.batches) place = some after ∧
      after[index]? = some message

/-- A batch of observations adds some of its messages to a group of an open batch. -/
theorem group_at_observations (h : join.Coherent)
    (hserials : Serials (joinedOf out).length join.pending join.nextSerial) (rules : JoinRules)
    (wall : Instant) (batch : MessageBatch) (place : Place) :
    let result := join.addObservations rules wall batch
    ∃ added : List Message,
      groupAt (joinedOf (out ++ result.2) ++ result.1.batches) place =
        (groupAt (joinedOf out ++ join.batches) place).map (· ++ added) ∧
      ∀ message ∈ added, message ∈ batch.messages ∧ message.isDictionary = false ∧
        ∃ entry ∈ (join.amid rules wall batch []).pending, entry.serial = place.serial := by
  intro result
  obtain ⟨-, hbatches, hout⟩ := add_observations_left h rules wall batch
  let passed (entry : PendingBatch) : Bool :=
    entry.deadline < (join.clock.observe rules.punctuation wall batch).watermark
  let closed := join.pending.takeWhile passed
  let left := join.pending.dropWhile passed
  have hsplit : closed ++ left = join.pending := List.takeWhile_append_dropWhile
  have hamid : (join.amid rules wall batch []).pending = left := amid_pending ..
  -- The batches that come out stay as they are, and those that are left are extended.
  let front := joinedOf out ++ closed.map (·.batch)
  let added := ScanJoin.bound (left.map (·.batch))
  have hbefore : joinedOf out ++ join.batches =
      front ++ (left.map (·.toOpenBatch)).map (·.batch) := by
    rw [batches, ← hsplit, List.map_append, ← List.append_assoc, List.map_map]
    rfl
  have hafter : joinedOf (out ++ result.2) ++ result.1.batches =
      front ++ ((left.map (·.toOpenBatch)).mapIdx fun position entry =>
        ScanJoin.extend entry fun group => added (some ⟨position, group⟩) batch.messages).map
          (·.batch) := by
    rw [batches, hout, joined_of_append, joined_of_append, joined_of_joined, joined_of_orphans,
      List.append_nil, ← hbatches, List.map_map]
    rfl
  refine ⟨_, by rw [hafter, hbefore, group_at_extend], ?_⟩
  intro message hmessage
  split at hmessage
  · cases hmessage
  next hfront =>
    obtain ⟨hbrought, hordinary, holdest⟩ : message ∈ batch.messages ∧
        message.isDictionary = false ∧ ScanJoin.oldestOpen? message.eventId
          (left.map (·.batch)) = some ⟨place.serial - front.length, place.group⟩ := by
      simpa [added, ScanJoin.bound] using hmessage
    obtain ⟨found, hfound, -⟩ := ScanJoin.group_at_oldest holdest
    obtain ⟨joined, hjoined, -⟩ := Option.bind_eq_some_iff.mp hfound
    rw [List.getElem?_map, Option.map_eq_some_iff] at hjoined
    obtain ⟨entry, hentry, -⟩ := hjoined
    refine ⟨hbrought, hordinary, entry, hamid ▸ List.mem_of_getElem? hentry, ?_⟩
    have hposition : join.pending[closed.length + (place.serial - front.length)]? = some entry := by
      rw [← hsplit, List.getElem?_append_right (Nat.le_add_right _ _), Nat.add_sub_cancel_left]
      exact hentry
    have hserial := hserials.serial_at hposition
    have hlength : front.length = (joinedOf out).length + closed.length := by
      rw [List.length_append, List.length_map]
    omega

/-- A message that stands in a group behind the first one after an event is there before, or the event
is a batch of observations that adds it. -/
theorem step_attaches (h : join.Coherent)
    (hserials : Serials (joinedOf out).length join.pending join.nextSerial)
    {come : List JoinOutput} (hstep : join.step? rules event = some (next, come)) {place : Place}
    {messages : List Message} {index : Nat}
    (hgroup : groupAt (joinedOf (out ++ come) ++ next.batches) place = some messages)
    (hmessage : messages[index]? = some message) (hbehind : 0 < index) :
    (∃ before, groupAt (joinedOf out ++ join.batches) place = some before ∧
      before[index]? = some message) ∨
    ∃ wall batch, event = .observations wall batch ∧
      join.Attaches rules out wall batch place index message := by
  have hflush (clock : ObservationClock) : joinedOf (out ++ (join.flush clock).2) ++
      (join.flush clock).1.batches = joinedOf out ++ join.batches := by
    rw [joined_of_append, List.append_assoc, flush_batches]
  cases event with
  | interactions batch =>
      cases hstep
      rw [List.append_nil, add_interactions_batches, ← List.append_assoc] at hgroup
      by_cases hold : place.serial < (joinedOf out ++ join.batches).length
      · refine .inl ⟨messages, ?_, hmessage⟩
        rwa [groupAt, List.getElem?_append_left hold] at hgroup
      · -- A group of the new batch has nothing behind its first message.
        rw [groupAt, List.getElem?_append_right (Nat.not_lt.mp hold),
          Option.bind_eq_some_iff] at hgroup
        obtain ⟨joined, hjoined, hgroup⟩ := hgroup
        obtain rfl := List.mem_singleton.mp (List.mem_of_getElem? hjoined)
        rw [MessageBatch.toJoined, List.getElem?_map, Option.map_eq_some_iff] at hgroup
        obtain ⟨first, -, rfl⟩ := hgroup
        rw [List.getElem?_eq_none (Nat.succ_le_of_lt hbehind)] at hmessage
        cases hmessage
  | observations wall batch =>
      have hresult : join.addObservations rules wall batch = (next, come) := Option.some.inj hstep
      obtain rfl : (join.addObservations rules wall batch).1 = next := congrArg Prod.fst hresult
      obtain rfl : (join.addObservations rules wall batch).2 = come := congrArg Prod.snd hresult
      obtain ⟨added, hadded, hbrought⟩ := group_at_observations h hserials rules wall batch place
      have hafter := hgroup
      rw [hadded, Option.map_eq_some_iff] at hgroup
      obtain ⟨before, hbefore, rfl⟩ := hgroup
      by_cases hindex : index < before.length
      · exact .inl ⟨before, hbefore, by rwa [List.getElem?_append_left hindex] at hmessage⟩
      · have hlate := Nat.not_lt.mp hindex
        have hnew := hmessage
        rw [List.getElem?_append_right hlate] at hnew
        obtain ⟨hmem, hordinary, hopen⟩ := hbrought message (List.mem_of_getElem? hnew)
        exact .inr ⟨wall, batch, rfl, hmem, hordinary, hopen, ⟨before, hbefore, hlate⟩,
          ⟨_, hafter, hmessage⟩⟩
  | silence wall =>
      obtain ⟨clock, -, hresult⟩ := Option.map_eq_some_iff.mp hstep
      cases hresult
      exact .inl ⟨messages, hflush clock ▸ hgroup, hmessage⟩
  | close =>
      cases hstep
      exact .inl ⟨messages, hflush join.clock.close ▸ hgroup, hmessage⟩

/-- Whatever stands in a group behind its first message has been added there by one of the batches of
observations. -/
theorem run_attaches (h : (Join.new now).run? rules events = some (join, out)) {place : Place}
    {messages : List Message} {index : Nat}
    (hgroup : groupAt (joinedOf out ++ join.batches) place = some messages)
    (hmessage : messages[index]? = some message) (hbehind : 0 < index) :
    ∃ before wall batch after moment earlier,
      events = before ++ .observations wall batch :: after ∧
      (Join.new now).run? rules before = some (moment, earlier) ∧
      moment.Attaches rules earlier wall batch place index message := by
  refine run_keeps (fun events join out => ∀ messages,
    groupAt (joinedOf out ++ join.batches) place = some messages →
    messages[index]? = some message →
    ∃ before wall batch after moment earlier,
      events = before ++ .observations wall batch :: after ∧
      (Join.new now).run? rules before = some (moment, earlier) ∧
      moment.Attaches rules earlier wall batch place index message)
    (fun _ hnone => by cases hnone) ?_ h messages hgroup hmessage
  intro events between earlier event next come hrun hkept hstep messages hgroup hmessage
  have hcoherent : between.Coherent := (run_refines (new_coherent now) rules events).2 _ hrun
  rcases step_attaches hcoherent (run_serials hrun) hstep hgroup hmessage hbehind with
    ⟨held, hheld, hold⟩ | ⟨wall, batch, rfl, hattaches⟩
  · obtain ⟨before, wall, batch, after, moment, earlier, rfl, hbefore⟩ := hkept held hheld hold
    exact ⟨before, wall, batch, after ++ [event], moment, earlier, by simp, hbefore⟩
  · exact ⟨events, wall, batch, [], between, earlier, rfl, hrun, hattaches⟩

/-- Every observation in a group was added there by a batch of observations, while the batch of
interactions of the group was open. If the oldest batch that was open then, with the watermark moved
by the batch of observations, had no later deadline than that of the group, the time of the
observation is not after the deadline. This is so if the batches of interactions come in with
deadlines that never decrease. -/
theorem attached_by_deadline (h : (Join.new now).run? rules events = some (join, out))
    {place : Place} {messages : List Message} {index : Nat}
    (hgroup : groupAt (joinedOf out ++ join.batches) place = some messages)
    (hmessage : messages[index]? = some message) (hbehind : 0 < index) :
    ∃ interactions before wall batch after moment earlier,
      (events.filterMap JoinEvent.interactions?)[place.serial]? = some interactions ∧
      events = before ++ .observations wall batch :: after ∧
      (Join.new now).run? rules before = some (moment, earlier) ∧
      moment.Attaches rules earlier wall batch place index message ∧
      ((∀ oldest ∈ (moment.amid rules wall batch []).pending.head?,
          oldest.deadline ≤ rules.deadline interactions) →
        message.eventTime rules.punctuation.useClientTime ≤ rules.deadline interactions) ∧
      (((events.filterMap JoinEvent.interactions?).map rules.deadline).Pairwise (· ≤ ·) →
        message.eventTime rules.punctuation.useClientTime ≤ rules.deadline interactions) := by
  obtain ⟨before, wall, batch, after, moment, earlier, rfl, hbefore, hattaches⟩ :=
    run_attaches h hgroup hmessage hbehind
  -- What has come in before the batch of observations keeps its number.
  have hreceived {entry : PendingBatch}
      (hentry : entry ∈ (moment.amid rules wall batch []).pending) :
      ∃ interactions, ((before ++ .observations wall batch :: after).filterMap
        JoinEvent.interactions?)[entry.serial]? = some interactions ∧
          entry.deadline = rules.deadline interactions := by
    obtain ⟨interactions, hinteractions, hdeadline⟩ := amid_received hbefore hentry
    refine ⟨interactions, ?_, hdeadline⟩
    rw [List.filterMap_append,
      List.getElem?_append_left (List.getElem?_eq_some_iff.mp hinteractions).1, hinteractions]
  obtain ⟨entry, hentry, hserial⟩ := hattaches.is_open
  obtain ⟨interactions, hinteractions, -⟩ := hreceived hentry
  rw [hserial] at hinteractions
  obtain ⟨oldest, hfront⟩ : ∃ oldest, oldest ∈ (moment.amid rules wall batch []).pending.head? :=
    Option.isSome_iff_exists.mp (List.isSome_head?.mpr (List.ne_nil_of_mem hentry))
  have hreached := amid_oldest hattaches.brought hfront
  refine ⟨interactions, before, wall, batch, after, moment, earlier, hinteractions, rfl, hbefore,
    hattaches, fun holdest => Instant.le_trans hreached (holdest oldest hfront), ?_⟩
  intro hordered
  obtain ⟨first, hfirst, hdeadline⟩ := hreceived (List.mem_of_mem_head? hfront)
  rw [hdeadline] at hreached
  refine Instant.le_trans hreached ?_
  -- The oldest batch is that of the group or came in before it.
  have hmoment : moment.Coherent := (run_refines (new_coherent now) rules before).2 _ hbefore
  obtain ⟨start, hserials⟩ := (hmoment.amid rules wall batch []).serials
  obtain ⟨position, hposition⟩ := List.getElem?_of_mem hentry
  have hplace := hserials.serial_at hposition
  have holdest := hserials.head_eq hfront
  obtain ⟨hlater, rfl⟩ := List.getElem?_eq_some_iff.mp hinteractions
  obtain ⟨hearlier, rfl⟩ := List.getElem?_eq_some_iff.mp hfirst
  rcases Nat.lt_or_eq_of_le (show oldest.serial ≤ place.serial by omega) with hlt | heq
  · exact List.pairwise_iff_getElem.mp (List.pairwise_map.mp hordered) _ _ hearlier hlater hlt
  · simp only [heq]
    exact Instant.le_refl _

/-- An interaction with an observation after nine seconds. -/
def nineSeconds : List JoinEvent :=
  [.interactions (sampleBatch 0 0 [("a", .interaction)]),
    .observations .epoch (sampleBatch 1 9000 [("a", .observation)])]

theorem attached_by_deadline_sample :
    ∃ join out first late, (Join.new .epoch).run? sampleRules nineSeconds = some (join, out) ∧
      groupAt (joinedOf out ++ join.batches) ⟨0, 0⟩ = some [first, late] ∧
      ∃ interactions, (nineSeconds.filterMap JoinEvent.interactions?)[0]? = some interactions ∧
        late.eventTime sampleRules.punctuation.useClientTime ≤ sampleRules.deadline interactions := by
  refine ⟨_, _, _, _, rfl, rfl, ?_⟩
  obtain ⟨interactions, -, -, -, -, -, -, hreceived, -, -, -, -, hbound⟩ :=
    @attached_by_deadline sampleRules _ nineSeconds _ .epoch _ rfl ⟨0, 0⟩ _ 1 rfl rfl Nat.one_pos
  exact ⟨interactions, hreceived, hbound (List.pairwise_singleton ..)⟩

/-- Two interactions, of which the older batch has the later deadline, and then observations of
both, one from before its interaction and one from after the deadline. -/
def outsideWindows : List JoinEvent :=
  let early := sampleBatch 2 3000 [("b", .observation)]
  let late := sampleBatch 2 25000 [("a", .observation)]
  lateThenEarly ++ [.observations .epoch { late with messages := early.messages ++ late.messages }]

/-- One observation joins an interaction that is seventeen seconds later, and the other one joins one
whose deadline is passed by fifteen seconds. -/
theorem observation_outside_window_joins :
    ∃ join out, (Join.new .epoch).run? sampleRules outsideWindows = some (join, out) ∧
      (∃ first early, groupAt (joinedOf out ++ join.batches) ⟨0, 0⟩ = some [first, early] ∧
        early.eventTime sampleRules.punctuation.useClientTime <
          first.eventTime sampleRules.punctuation.useClientTime) ∧
      ∃ first late interactions,
        groupAt (joinedOf out ++ join.batches) ⟨1, 0⟩ = some [first, late] ∧
        (outsideWindows.filterMap JoinEvent.interactions?)[1]? = some interactions ∧
        sampleRules.deadline interactions <
          late.eventTime sampleRules.punctuation.useClientTime := by
  refine ⟨_, _, rfl, ⟨_, _, rfl, ?_⟩, _, _, _, rfl, rfl, ?_⟩
  · decide
  · decide

end Join

end WindowJoin
