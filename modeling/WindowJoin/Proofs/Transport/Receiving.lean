import WindowJoin.Proofs.Transport.Session

/-!
# What the calls of a client return

A `Reception` is a client whose calls are made one after the other, each with its own number of events
and its own deadline, while the transport goes on changing. A call looks as often as it is woken, and
may be abandoned in between. The main statement is `Reception.receives_in_order`: what all calls have
returned is the beginning of what the log holds for the client, and each result stands for what the
call has met (`Client.Answers`).

A reception is a session with the results of the calls kept apart, so that what is carried through it
is `Session.Kept` (`Reception.step_kept`).
-/

namespace WindowJoin

namespace Transport

/-- Whether a partition is complete. -/
def closed (transport : Transport) (stream partition : String) : Bool :=
  (transport.log? stream partition).any (·.closed)

theorem has_log_update (transport : Transport) (stream partition other part : String)
    (change : PartitionLog → PartitionLog) (h : (transport.log? other part).isSome = true) :
    ((transport.update stream partition change).log? other part).isSome = true := by
  show (log? (transport.setLog stream partition _) other part).isSome = true
  rw [log_set_log]
  split
  · rfl
  · exact h

/-- No step takes the log of a partition away. -/
theorem step_has_log {transport next : Transport} (hstep : transport.Step next)
    {stream partition : String} (h : (transport.log? stream partition).isSome = true) :
    (next.log? stream partition).isSome = true := by
  cases hstep with
  | addStream other count hnew =>
      rw [log?, addStream, OrderedMap.get_insert]
      split
      next heq =>
        rw [log?, heq, hnew] at h
        cases h
      next => exact h
  | append other part time body => exact has_log_update _ _ _ _ _ _ h
  | closePartition other part => exact has_log_update _ _ _ _ _ _ h
  | closeStream other =>
      unfold closeStream
      split
      next => exact h
      next partitions hpartitions =>
        show ((OrderedMap.get? (transport.streams.insert other _) stream).bind _).isSome = true
        rw [OrderedMap.get_insert]
        split
        next heq =>
          rw [log?, heq, hpartitions, Option.bind_some] at h
          rw [Option.bind_some, OrderedMap.get_map, Option.isSome_map]
          exact h
        next => exact h
  | injectFailures other part failures => exact has_log_update _ _ _ _ _ _ h

end Transport

/-! ## The result of a look -/

namespace Client

theorem scan_bounded (start : StartPosition) (limit : Nat) (events : List RawEvent) :
    (scan start limit events).2.length ≤ limit := by
  induction events generalizing limit with
  | nil => cases limit <;> exact Nat.zero_le _
  | cons event rest ih =>
      cases limit with
      | zero => exact Nat.le_refl _
      | succ limit =>
          rw [scan]
          split
          · exact Nat.succ_le_succ (ih limit)
          · exact ih (limit + 1)

/-- What the result of a look says about the partition, in a log that exists. -/
structure Answers (client : Client) (transport : Transport) (limit : Nat)
    (result : Glance × Client × Transport) : Prop where
  /-- No more events are given than were asked for, but one may always be given. -/
  bounded : (Glance.events result.1).length ≤ max limit 1
  /-- An error is the injected one that is next, which is then gone. No event has been gone past. -/
  failed (failure : TransportError) : result.1 = some (.error failure) →
    transport.failures client.stream client.partition =
        failure :: result.2.2.failures client.stream client.partition ∧
      result.2.1 = client
  /-- The end is given of a partition that is complete, where nothing is left to be read. -/
  ended : result.1 = some (.ok .endOfStream) →
    transport.closed client.stream client.partition = true ∧
      client.remaining (transport.events client.stream client.partition) = []
  /-- A look does not take the log away. -/
  lasts : (result.2.2.log? client.stream client.partition).isSome = true

theorem answers_nothing {client : Client} {transport : Transport} (limit : Nat)
    (h : (transport.log? client.stream client.partition).isSome = true) (reader : Client) :
    client.Answers transport limit (none, reader, transport) where
  bounded := Nat.zero_le _
  failed _ hfailed := by cases hfailed
  ended hended := by cases hended
  lasts := h

theorem answers_events {client : Client} {transport after : Transport} {limit : Nat}
    (h : (after.log? client.stream client.partition).isSome = true) {events : List RawEvent}
    (hbounded : events.length ≤ max limit 1) (reader : Client) :
    client.Answers transport limit (some (.ok (.events events)), reader, after) where
  bounded := hbounded
  failed _ hfailed := by cases hfailed
  ended hended := by cases hended
  lasts := h

theorem poll_answers {client : Client} {transport : Transport} (limit : Nat)
    (h : (transport.log? client.stream client.partition).isSome = true) :
    client.Answers transport limit (client.poll transport limit) := by
  obtain ⟨log, hlog⟩ := Option.isSome_iff_exists.mp h
  have hevents : transport.events client.stream client.partition = log.events := by
    rw [Transport.events, hlog]
    rfl
  have hfailures : transport.failures client.stream client.partition = log.failures := by
    rw [Transport.failures, hlog]
    rfl
  have hclosed : transport.closed client.stream client.partition = log.closed := by
    rw [Transport.closed, hlog]
    rfl
  unfold poll
  simp only [hlog]
  split
  next failure later hpending =>
    have hafter : (transport.setLog client.stream client.partition
        { log with failures := later }).log? client.stream client.partition =
          some { log with failures := later } := by
      rw [Transport.log_set_log, if_pos ⟨rfl, rfl⟩]
    refine
      { bounded := Nat.zero_le _
        failed := fun error herror => ?_
        ended := fun hended => by cases hended
        lasts := Option.isSome_iff_exists.mpr ⟨_, hafter⟩ }
    cases herror
    refine ⟨?_, rfl⟩
    rw [hfailures, hpending, Transport.failures, hafter]
    rfl
  next =>
    have hbounded :=
      scan_bounded client.start (max limit 1) (log.events.drop client.position)
    have hscan := @scan_nothing client.start (max limit 1) (by omega)
      (log.events.drop client.position)
    -- Whether there are events is told by what the scan admits, not by how far it goes.
    revert hbounded hscan
    generalize scan client.start (max limit 1) (log.events.drop client.position) = scanned
    obtain ⟨passed, admitted⟩ := scanned
    intro hbounded hscan
    cases admitted with
    | cons event rest => exact answers_events h hbounded _
    | nil =>
        have hnothing : client.remaining (transport.events client.stream client.partition) = [] := by
          rw [hevents]
          exact hscan rfl
        rw [if_neg (fun hne => hne rfl)]
        split
        next hend =>
          exact
            { bounded := Nat.zero_le _
              failed := fun _ hfailed => by cases hfailed
              ended := fun _ => ⟨hclosed.trans hend, hnothing⟩
              lasts := h }
        next => exact answers_nothing limit h _

/-- A look that gives no events gives something else or nothing at all. -/
theorem poll_not_empty (client : Client) (transport : Transport) (limit : Nat) :
    (client.poll transport limit).1 ≠ some (.ok (.events [])) := by
  unfold poll
  split
  next => nofun
  next log hlog =>
    split
    next => nofun
    next =>
      dsimp only
      split
      next hadmitted => exact fun heq => hadmitted (by simpa using heq)
      next => split <;> nofun

/-- A read gives what a look gives, or gives up at its deadline. There is no look if nothing has been
announced since the last one. -/
theorem read_look (client : Client) (transport : Transport) (limit now deadline : Nat)
    (seen : Option Nat) : ∃ look : Glance × Client × Transport,
      (seen = some transport.notices ∧ look = (none, client, transport) ∨
        look = client.poll transport limit) ∧
      ((look.1 = none → now < deadline) ∧
          client.read transport limit now deadline seen = look ∨
        look.1 = none ∧ deadline ≤ now ∧
          client.read transport limit now deadline seen = (some (.ok (.events [])), look.2)) := by
  refine ⟨if seen = some transport.notices then (none, client, transport)
    else client.poll transport limit, ?_, ?_⟩
  · split
    next heq => exact .inl ⟨heq, rfl⟩
    next => exact .inr rfl
  · unfold read
    generalize (if seen = some transport.notices then
      (none, client, transport) else client.poll transport limit) = look
    obtain ⟨glance, reader, after⟩ := look
    dsimp only
    split
    next hnone =>
      simp only [Bool.and_eq_true, Option.isNone_iff_eq_none, decide_eq_true_eq] at hnone
      exact .inr ⟨hnone.1, hnone.2, rfl⟩
    next hsome =>
      refine .inl ⟨fun hnone => ?_, rfl⟩
      simpa [hnone] using hsome

theorem read_answers {client : Client} {transport : Transport} (limit now deadline : Nat)
    (seen : Option Nat) (h : (transport.log? client.stream client.partition).isSome = true) :
    client.Answers transport limit (client.read transport limit now deadline seen) := by
  obtain ⟨look, hlook, hread⟩ := client.read_look transport limit now deadline seen
  have hanswers : client.Answers transport limit look := by
    rcases hlook with ⟨-, rfl⟩ | rfl
    · exact answers_nothing limit h client
    · exact poll_answers limit h
  rcases hread with ⟨-, heq⟩ | ⟨-, -, heq⟩
  · rw [heq]
    exact hanswers
  · rw [heq]
    exact answers_events hanswers.lasts (Nat.zero_le _) look.2.1

/-- A read gives no events only at its deadline, where nothing is left to be read. -/
theorem read_empty {client : Client} {transport : Transport} {limit now deadline : Nat}
    {seen : Option Nat} (hseen : seen = some transport.notices →
      client.remaining (transport.events client.stream client.partition) = [])
    (h : (client.read transport limit now deadline seen).1 = some (.ok (.events []))) :
    deadline ≤ now ∧
      client.remaining (transport.events client.stream client.partition) = [] := by
  obtain ⟨look, hlook, hread⟩ := client.read_look transport limit now deadline seen
  rcases hread with ⟨-, heq⟩ | ⟨hnone, hdeadline, -⟩
  · rw [heq] at h
    rcases hlook with ⟨-, rfl⟩ | rfl
    · cases h
    · exact absurd h (poll_not_empty client transport limit)
  · rcases hlook with ⟨heq, rfl⟩ | rfl
    · exact ⟨hdeadline, hseen heq⟩
    · exact ⟨hdeadline, (poll_looks client transport limit).waits hnone⟩

/-- A read goes on only before its deadline, where nothing is left to be read. -/
theorem read_waits {client : Client} {transport : Transport} {limit now deadline : Nat}
    {seen : Option Nat} (hseen : seen = some transport.notices →
      client.remaining (transport.events client.stream client.partition) = [])
    (h : (client.read transport limit now deadline seen).1 = none) :
    now < deadline ∧
      client.remaining (transport.events client.stream client.partition) = [] := by
  have hlooks := client.read_looks transport limit now deadline hseen
  refine ⟨?_, hlooks.waits h⟩
  obtain ⟨look, -, hread⟩ := client.read_look transport limit now deadline seen
  rcases hread with ⟨hearly, heq⟩ | ⟨-, -, heq⟩
  · rw [heq] at h
    exact hearly h
  · rw [heq] at h
    cases h

end Client

/-- The events that the results of calls give, in their order. -/
def Client.eventsOf (results : List (Except TransportError Received)) : List RawEvent :=
  results.flatMap fun result => Glance.events (some result)

/-! ## Receptions -/

/-- A call under way: the number of events that it asks for, its deadline, and the number of
announcements at its last look. -/
structure Call where
  limit : Nat
  deadline : Nat
  seen : Option Nat
  deriving DecidableEq

/-- A client with its call, if one is under way, and with the results of the calls that are over. -/
structure Reception where
  client : Client
  transport : Transport
  call : Option Call
  returned : List (Except TransportError Received)

namespace Reception

/-- A client that has not been called yet. -/
def begin (client : Client) (transport : Transport) : Reception :=
  ⟨client, transport, none, []⟩

/-- The events of all calls so far. -/
def delivered (reception : Reception) : List RawEvent :=
  Client.eventsOf reception.returned

/-- What a call gives if it looks now. -/
def answer (reception : Reception) (call : Call) (now : Nat) : Client.Glance :=
  (reception.client.read reception.transport call.limit now call.deadline call.seen).1

/-- A call looks. It is over if the look gives anything. -/
def look (reception : Reception) (call : Call) (now : Nat) : Reception :=
  let (glance, client, transport) :=
    reception.client.read reception.transport call.limit now call.deadline call.seen
  { client
    transport
    call := if glance.isNone then some { call with seen := some transport.notices } else none
    returned := reception.returned ++ glance.toList }

/-- The client is called, the call looks or is abandoned, or the transport changes. -/
inductive Step (reception : Reception) : Reception → Prop where
  | call (limit now timeout : Nat) : reception.call = none →
      Step reception { reception with call := some ⟨limit, now + timeout, none⟩ }
  | look {call : Call} (now : Nat) : reception.call = some call →
      Step reception (reception.look call now)
  | abandon : Step reception { reception with call := none }
  | transport {next : Transport} : reception.transport.Step next →
      Step reception { reception with transport := next }

/-- A reception comes to another step by step. -/
def Reaches : Reception → Reception → Prop :=
  Relation.ReflTransGen Step

/-- The events of the partition that the client is to be given. -/
def due (reception : Reception) : List RawEvent :=
  (reception.transport.events reception.client.stream reception.client.partition).filter
    reception.client.start.admits

/-- The injected failures that the calls are still to meet. -/
def failures (reception : Reception) : List TransportError :=
  reception.transport.failures reception.client.stream reception.client.partition

/-- Whether the partition is complete. -/
def closed (reception : Reception) : Bool :=
  reception.transport.closed reception.client.stream reception.client.partition

/-- What the result of a call stands for. -/
structure Returns (reception : Reception) (call : Call) (now : Nat)
    (result : Except TransportError Received) : Prop where
  /-- There are no more events than asked for, but one may always be given. -/
  bounded : (Client.Glance.events (some result)).length ≤ max call.limit 1
  /-- An error is the injected one that is next, which is then gone. The client stays where it is, and
  nothing is delivered. -/
  failed (failure : TransportError) : result = .error failure →
    reception.failures = failure :: (reception.look call now).failures ∧
      (reception.look call now).client = reception.client ∧
      (reception.look call now).delivered = reception.delivered
  /-- The end is returned where the partition is complete and everything in it has been delivered. -/
  ended : result = .ok .endOfStream →
    reception.closed = true ∧ reception.delivered = reception.due
  /-- A call returns without events at its deadline, where everything so far has been delivered. -/
  inVain : result = .ok (.events []) →
    call.deadline ≤ now ∧ reception.delivered = reception.due

/-- A reception as a session. -/
def session (reception : Reception) : Session :=
  ⟨reception.client, reception.transport, reception.delivered, reception.call.bind (·.seen)⟩

variable {reception next : Reception}

/-- A look of a call is a look of the session. -/
theorem look_session {call : Call} (h : reception.call = some call) (now : Nat) :
    (reception.look call now).session =
      reception.session.look ⟨call.limit, now, call.deadline⟩ := by
  unfold look Session.look session
  rw [h, Option.bind_some]
  dsimp only
  generalize reception.client.read reception.transport call.limit now call.deadline call.seen =
    result
  obtain ⟨glance, client, transport⟩ := result
  cases glance with
  | none => simp [delivered, Client.eventsOf, Client.Glance.events]
  | some result => simp [delivered, Client.eventsOf]

theorem forget_kept {session : Session} (h : session.Kept) :
    Session.Kept { session with seen := none } :=
  ⟨h.bounded, h.split, nofun⟩

/-- Nothing that is due is passed over by any step. -/
theorem step_kept (h : reception.session.Kept) (hstep : reception.Step next) :
    next.session.Kept := by
  cases hstep with
  | call limit now timeout hcall => exact forget_kept h
  | look now hcall =>
      rw [look_session hcall]
      exact Session.look_kept h _
  | abandon => exact forget_kept h
  | transport hchange => exact Session.transport_kept h hchange

/-- The client of a reception is the one that it began with, further on. -/
theorem step_client (hstep : reception.Step next) :
    next.client = { reception.client with position := next.client.position } := by
  cases hstep with
  | call limit now timeout hcall => rfl
  | @look call now hcall =>
      exact (reception.client.read_reads reception.transport call.limit now call.deadline
        call.seen).reader
  | abandon => rfl
  | transport hchange => rfl

/-- The partition of a reception does not go away. -/
theorem step_lasts (h : (reception.transport.log? reception.client.stream
      reception.client.partition).isSome = true) (hstep : reception.Step next) :
    (next.transport.log? next.client.stream next.client.partition).isSome = true := by
  rw [step_client hstep]
  cases hstep with
  | call limit now timeout hcall => exact h
  | @look call now hcall =>
      exact (Client.read_answers call.limit now call.deadline call.seen h).lasts
  | abandon => exact h
  | transport hchange => exact Transport.step_has_log hchange h

/-- A reception that has begun with a partition that exists. -/
structure Sound (reception : Reception) (stream partition : String) (start : StartPosition) :
    Prop where
  client : reception.client = ⟨stream, partition, start, reception.client.position⟩
  lasts : (reception.transport.log? reception.client.stream
    reception.client.partition).isSome = true
  kept : reception.session.Kept

variable {stream partition : String} {start : StartPosition} {client : Client}
  {transport : Transport}

theorem begin_sound (h : Client.connect transport stream partition start = .ok client) :
    (begin client transport).Sound stream partition start := by
  unfold Client.connect at h
  split at h
  next log hlog =>
    cases h
    exact ⟨rfl, Option.isSome_iff_exists.mpr ⟨log, hlog⟩, Session.start_kept _ _ rfl⟩
  next => cases h

theorem reaches_sound (hconnect : Client.connect transport stream partition start = .ok client)
    (h : Reaches (begin client transport) reception) : reception.Sound stream partition start := by
  induction h with
  | refl => exact begin_sound hconnect
  | tail _ hstep ih =>
      refine ⟨?_, step_lasts ih.lasts hstep, step_kept ih.kept hstep⟩
      rw [step_client hstep, ih.client]

/-- Where nothing remains, all that is due has been delivered. -/
theorem Sound.delivered (h : reception.Sound stream partition start)
    (hnothing : reception.session.remaining = []) : reception.delivered = reception.due := by
  have hsplit := h.kept.split
  rw [hnothing, List.append_nil] at hsplit
  exact hsplit.symm

/-- A call that has not been woken since its last look has nothing to return. -/
theorem Sound.waits (h : reception.Sound stream partition start) {call : Call}
    (hcall : reception.call = some call) (hseen : call.seen = some reception.transport.notices) :
    reception.session.remaining = [] := by
  refine (h.kept.waits _ ?_).2 rfl
  rw [session, hcall]
  exact hseen

/-- In a sound reception the result of a call stands for what it says. -/
theorem sound_returns (h : reception.Sound stream partition start) {call : Call}
    (hcall : reception.call = some call) {now : Nat} {result : Except TransportError Received}
    (hresult : reception.answer call now = some result) : reception.Returns call now result := by
  have hanswers := Client.read_answers call.limit now call.deadline call.seen h.lasts
  refine ⟨?_, ?_, ?_, ?_⟩
  · rw [← hresult]
    exact hanswers.bounded
  · rintro failure rfl
    obtain ⟨hfailures, hsame⟩ := hanswers.failed failure hresult
    have hclient : (reception.look call now).client = reception.client := hsame
    refine ⟨?_, hclient, ?_⟩
    · rw [failures, hfailures, failures, hclient]
      rfl
    · show Client.eventsOf (reception.returned ++ Option.toList (reception.answer call now)) = _
      rw [hresult, Client.eventsOf, List.flatMap_append]
      exact List.append_nil _
  · rintro rfl
    obtain ⟨hclosed, hnothing⟩ := hanswers.ended hresult
    exact ⟨hclosed, h.delivered hnothing⟩
  · rintro rfl
    obtain ⟨hdeadline, hnothing⟩ := Client.read_empty (h.waits hcall) hresult
    exact ⟨hdeadline, h.delivered hnothing⟩

/-- However the calls of a client go together with the changes of the transport, the client reads the
same partition from the same start. What its calls have returned so far is the beginning of what the
log holds for it, the result of each call stands for what the call has met, and a call that goes on
waiting is before its deadline and has nothing to return. -/
theorem receives_in_order
    (hconnect : Client.connect transport stream partition start = .ok client)
    (h : Reaches (begin client transport) reception) :
    (∃ position, reception.client = ⟨stream, partition, start, position⟩) ∧
      reception.delivered <+: (reception.transport.events stream partition).filter start.admits ∧
      ∀ call, reception.call = some call → ∀ now,
        (∀ result, reception.answer call now = some result →
          reception.Returns call now result) ∧
        (reception.answer call now = none →
          now < call.deadline ∧ reception.delivered = reception.due) := by
  have hsound := reaches_sound hconnect h
  refine ⟨⟨_, hsound.client⟩, ?_, fun call hcall now => ⟨fun result => ?_, fun hnone => ?_⟩⟩
  · have hsplit : reception.due = reception.delivered ++ _ := hsound.kept.split
    rw [due, hsound.client] at hsplit
    exact ⟨_, hsplit.symm⟩
  · exact sound_returns hsound hcall
  · obtain ⟨hearly, hnothing⟩ := Client.read_waits (hsound.waits hcall) hnone
    exact ⟨hearly, hsound.delivered hnothing⟩

/-- A call that looks at once. -/
def ask (reception : Reception) (limit now timeout : Nat) : Reception :=
  reception.look ⟨limit, now + timeout, none⟩ now

theorem ask_reaches (h : reception.call = none) (limit now timeout : Nat) :
    Reaches reception (reception.ask limit now timeout) := by
  let call : Call := ⟨limit, now + timeout, none⟩
  let called : Reception := { reception with call := some call }
  have hcalled : reception.Step called := .call limit now timeout h
  have hlooked : called.Step (called.look call now) := .look now rfl
  exact (Relation.ReflTransGen.single hcalled).tail hlooked

/-- A client is to be given the last two of three events. -/
def sampleTransport : Transport :=
  ((Transport.empty.append "in" "0" .epoch []).append "in" "0" .epoch [1, 2]).append
    "in" "0" .epoch [3]

def sampleClient : Client :=
  ⟨"in", "0", .afterOffset 0, 0⟩

/-- The first read is made to fail. -/
def sampleFailing : Reception :=
  { begin sampleClient sampleTransport with
    transport := sampleTransport.injectFailures "in" "0" [.transient "late"] }

/-- One call fails, two give an event each, and the last one waits while the partition is closed. -/
def sampleWaiting : Reception :=
  let last := (((sampleFailing.ask 0 0 5).ask 0 1 5).ask 7 2 5).ask 7 3 5
  { last with transport := last.transport.closePartition "in" "0" }

theorem sample_reaches : Reaches (begin sampleClient sampleTransport) sampleWaiting := by
  have hfailing : Reaches (begin sampleClient sampleTransport) sampleFailing :=
    .single (.transport (.injectFailures "in" "0" _))
  have hasked := hfailing.trans (ask_reaches rfl 0 0 5)
  have hgiven := (hasked.trans (ask_reaches (by decide) 0 1 5)).trans
    (ask_reaches (by decide) 7 2 5)
  exact (hgiven.trans (ask_reaches (by decide) 7 3 5)).tail
    (.transport (.closePartition "in" "0"))

/-- The call that waits is woken and returns the end, after both events have been delivered. -/
theorem receives_in_order_sample :
    Client.connect sampleTransport "in" "0" (.afterOffset 0) = .ok sampleClient ∧
      Reaches (begin sampleClient sampleTransport) sampleWaiting ∧
      sampleWaiting.delivered.map (·.body) = [[1, 2], [3]] ∧
      ∃ call, sampleWaiting.call = some call ∧
        sampleWaiting.answer call 5 = some (.ok .endOfStream) ∧
        sampleWaiting.Returns call 5 (.ok .endOfStream) := by
  obtain ⟨-, -, hreturns⟩ := receives_in_order (rfl : Client.connect sampleTransport "in" "0"
    (.afterOffset 0) = .ok sampleClient) sample_reaches
  have hcall : sampleWaiting.call = some ⟨7, 8, some 4⟩ := by decide
  have hanswer : sampleWaiting.answer ⟨7, 8, some 4⟩ 5 = some (.ok .endOfStream) := rfl
  exact ⟨rfl, sample_reaches, by decide, _, hcall, hanswer,
    (hreturns _ hcall 5).1 _ hanswer⟩

end Reception

end WindowJoin
