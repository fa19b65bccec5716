import WindowJoin.Proofs.Transport.Events

/-!
# A client over many reads

A `Session` is a client that reads again and again while the transport goes on changing, with the
events that it has been given so far. In every state that a session comes to these are the beginning
of the events that its start position admits, and a number of further looks gives the rest
(`reaches_continues`, `kept_delivers`). What carries this is `Kept`: what has been delivered and what
remains are together what is due, and a client waits only where nothing remains. The looks come to an
end because each of them gives an event that remains or takes up an injected failure
(`look_backlog`).
-/

namespace WindowJoin

/-! ## Announcements -/

namespace Transport

/-- A step that adds events is announced, and no announcement is taken back. -/
theorem step_notices {transport next : Transport} (h : transport.Step next) :
    next.notices = transport.notices + 1 ∨
      next.notices = transport.notices ∧ ∀ stream partition,
        next.events stream partition = transport.events stream partition := by
  cases h with
  | addStream stream count hnew => exact .inr ⟨rfl, events_add_stream hnew count⟩
  | append stream partition time body => exact .inl rfl
  | closePartition stream partition => exact .inl rfl
  | closeStream stream =>
      unfold closeStream
      split
      next => exact .inl rfl
      next => exact .inl rfl
  | injectFailures stream partition failures => exact .inl rfl

/-- The failures that the next reads of a partition meet. -/
def failures (transport : Transport) (stream partition : String) : List TransportError :=
  (transport.log? stream partition).elim [] (·.failures)

end Transport

/-! ## Single looks -/

namespace Client

/-- A scan that comes to nothing has met nothing that is admitted. -/
theorem scan_nothing {start : StartPosition} {limit : Nat} (hlimit : 0 < limit)
    {events : List RawEvent} (h : (scan start limit events).2 = []) :
    events.filter start.admits = [] := by
  induction events generalizing limit with
  | nil => rfl
  | cons event rest ih =>
      cases limit with
      | zero => cases hlimit
      | succ limit =>
          rw [scan] at h
          split at h
          next => cases h
          next hadmits =>
            rw [List.filter_cons_of_neg hadmits]
            exact ih hlimit h

/-- A look at a log where something remains gives some of it or takes up a failure, and a look after
which the client waits was one where nothing remains. -/
structure Looks (client : Client) (transport : Transport) (result : Glance × Client × Transport) :
    Prop where
  progress : Glance.events result.1 ≠ [] ∨
    client.remaining (transport.events client.stream client.partition) = [] ∨
    (result.2.2.failures client.stream client.partition).length <
      (transport.failures client.stream client.partition).length
  failures : (result.2.2.failures client.stream client.partition).length ≤
    (transport.failures client.stream client.partition).length
  waits : result.1 = none →
    client.remaining (transport.events client.stream client.partition) = []

theorem looks_idle {client : Client} {transport : Transport}
    (h : client.remaining (transport.events client.stream client.partition) = [])
    (glance : Glance) (reader : Client) : client.Looks transport (glance, reader, transport) :=
  ⟨.inr (.inl h), Nat.le_refl _, fun _ => h⟩

theorem poll_looks (client : Client) (transport : Transport) (limit : Nat) :
    client.Looks transport (client.poll transport limit) := by
  unfold poll
  split
  next hlog =>
    have hnone : transport.events client.stream client.partition = [] := by
      rw [Transport.events, hlog]
      rfl
    refine looks_idle ?_ _ _
    rw [hnone, remaining, List.drop_nil]
    rfl
  next log hlog =>
    have hevents : transport.events client.stream client.partition = log.events := by
      rw [Transport.events, hlog]
      rfl
    have hbefore : transport.failures client.stream client.partition = log.failures := by
      rw [Transport.failures, hlog]
      rfl
    split
    next failure later hfailures =>
      have hafter : (transport.setLog client.stream client.partition
          { log with failures := later }).failures client.stream client.partition = later := by
        rw [Transport.failures, Transport.log_set_log, if_pos ⟨rfl, rfl⟩]
        rfl
      have hless : later.length < log.failures.length := by
        rw [hfailures]
        exact Nat.lt_succ_self _
      rw [← hbefore, ← hafter] at hless
      exact ⟨.inr (.inr hless), Nat.le_of_lt hless, fun hnone => by cases hnone⟩
    next =>
      by_cases hscan : (scan client.start (max limit 1) (log.events.drop client.position)).2 = []
      · refine looks_idle ?_ _ _
        rw [hevents, remaining]
        exact scan_nothing (by omega) hscan
      · refine ⟨.inl ?_, Nat.le_refl _, ?_⟩
        · simp only [ne_eq, hscan, not_false_eq_true, if_true]
          exact hscan
        · simp [hscan]

/-- A look of a client that waits only where nothing remains. -/
theorem read_looks (client : Client) (transport : Transport) (limit now deadline : Nat)
    {seen : Option Nat} (hseen : seen = some transport.notices →
      client.remaining (transport.events client.stream client.partition) = []) :
    client.Looks transport (client.read transport limit now deadline seen) := by
  have hlook : client.Looks transport (if seen = some transport.notices then
      (none, client, transport) else client.poll transport limit) := by
    split
    next heq => exact looks_idle (hseen heq) _ _
    next => exact poll_looks client transport limit
  unfold read
  generalize (if seen = some transport.notices then
    (none, client, transport) else client.poll transport limit) = look at hlook
  obtain ⟨glance, reader, after⟩ := look
  refine ⟨?_, hlook.failures, ?_⟩
  · refine hlook.progress.imp_left fun hevents => ?_
    show Glance.events (if _ then _ else _) ≠ []
    split
    next hnone =>
      simp only [Bool.and_eq_true, Option.isNone_iff_eq_none] at hnone
      exact absurd (congrArg Glance.events hnone.1) hevents
    next => exact hevents
  · intro hnone
    refine hlook.waits ?_
    revert hnone
    show (if _ then _ else _) = none → _
    split
    next => exact fun hnone => by cases hnone
    next => exact id

end Client

/-! ## Sessions -/

/-- A client that reads, the events that it has been given, and the number of announcements at its
last look if it waits. -/
structure Session where
  client : Client
  transport : Transport
  delivered : List RawEvent
  seen : Option Nat

namespace Session

/-- A session at its beginning. -/
def start (client : Client) (transport : Transport) : Session :=
  ⟨client, transport, [], none⟩

/-- A look for up to a number of events, at a time, with a deadline. -/
structure Look where
  limit : Nat
  now : Nat
  deadline : Nat

/-- Begins or goes on with a read. The read is over if the look gives anything. -/
def look (session : Session) (look : Look) : Session :=
  let (glance, client, transport) :=
    session.client.read session.transport look.limit look.now look.deadline session.seen
  { client
    transport
    delivered := session.delivered ++ Client.Glance.events glance
    seen := if glance.isNone then some transport.notices else none }

/-- Looks one after the other. -/
def lookAll (session : Session) (looks : List Look) : Session :=
  looks.foldl Session.look session

/-- The client looks, or the transport changes. -/
inductive Step (session : Session) : Session → Prop where
  | look (look : Look) : Step session (session.look look)
  | transport {next : Transport} :
      session.transport.Step next → Step session { session with transport := next }

/-- A session comes to another step by step. -/
def Reaches : Session → Session → Prop :=
  Relation.ReflTransGen Step

/-- The log that the client reads. -/
def events (session : Session) : List RawEvent :=
  session.transport.events session.client.stream session.client.partition

/-- The events that the client is to be given. -/
def due (session : Session) : List RawEvent :=
  session.events.filter session.client.start.admits

/-- The events that the client is still to be given. -/
def remaining (session : Session) : List RawEvent :=
  session.client.remaining session.events

/-- The injected failures that the client is still to meet. -/
def failures (session : Session) : List TransportError :=
  session.transport.failures session.client.stream session.client.partition

/-- The events that a look gives. -/
def given (session : Session) (look : Look) : List RawEvent :=
  Client.Glance.events (session.client.read session.transport look.limit look.now look.deadline
    session.seen).1

/-- The session has delivered the beginning of these events, and some number of looks will deliver
the rest. -/
structure Delivers (session : Session) (events : List RawEvent) : Prop where
  begins : session.delivered <+: events
  completes : ∃ enough, ∀ looks : List Look, enough ≤ looks.length →
    (session.lookAll looks).delivered = events

/-- Nothing that is due has been passed over, and the client waits only if nothing remains. -/
structure Kept (session : Session) : Prop where
  bounded : session.client.position ≤ session.events.length
  split : session.due = session.delivered ++ session.remaining
  waits (seen : Nat) : session.seen = some seen → seen ≤ session.transport.notices ∧
    (seen = session.transport.notices → session.remaining = [])

variable {session next : Session}

/-- What a look does to a session. -/
theorem look_reads (session : Session) (look : Look) :
    session.client.Reads session.transport (session.client.read session.transport look.limit
      look.now look.deadline session.seen) :=
  Client.read_reads ..

theorem look_client (session : Session) (look : Look) : (session.look look).client =
    { session.client with position := (session.look look).client.position } :=
  (session.look_reads look).reader

theorem look_events (session : Session) (look : Look) :
    (session.look look).events = session.events := by
  rw [events, look_client]
  exact (session.look_reads look).events _ _

theorem look_due (session : Session) (look : Look) : (session.look look).due = session.due := by
  rw [due, look_events, look_client]
  rfl

theorem look_failures (session : Session) (look : Look) : (session.look look).failures =
    (session.client.read session.transport look.limit look.now look.deadline
      session.seen).2.2.failures session.client.stream session.client.partition := by
  rw [failures, look_client]
  rfl

theorem look_delivered (session : Session) (look : Look) :
    (session.look look).delivered = session.delivered ++ session.given look :=
  rfl

/-- A look gives the next of what remains. -/
theorem look_splits (session : Session) (look : Look) :
    session.remaining = session.given look ++ (session.look look).remaining := by
  rw [remaining, remaining, look_events]
  exact (session.look_reads look).remaining

theorem look_looks (h : session.Kept) (look : Look) :
    session.client.Looks session.transport (session.client.read session.transport look.limit
      look.now look.deadline session.seen) :=
  Client.read_looks _ _ _ _ _ fun hseen => (h.waits _ hseen).2 rfl

/-- Where nothing remains, a look leaves nothing. -/
theorem look_remaining (h : session.remaining = []) (look : Look) :
    (session.look look).remaining = [] := by
  have hsplit := session.look_splits look
  rw [h] at hsplit
  exact (List.append_eq_nil_iff.mp hsplit.symm).2

theorem look_kept (h : session.Kept) (look : Look) : (session.look look).Kept where
  bounded := by
    rw [look_events]
    exact (session.look_reads look).bounded h.bounded
  split := by
    rw [look_due, h.split, look_delivered, look_splits, List.append_assoc]
  waits seen hseen := by
    change (if (session.client.read session.transport look.limit look.now look.deadline
      session.seen).1.isNone then some (session.look look).transport.notices else none) = _ at hseen
    split at hseen
    next hnone =>
      rw [Option.isNone_iff_eq_none] at hnone
      refine ⟨Nat.le_of_eq (Option.some.inj hseen).symm, fun _ => ?_⟩
      exact look_remaining ((look_looks h look).waits hnone) look
    next => cases hseen

/-- A change of the transport adds to the events, and leaves what has been delivered. -/
theorem transport_kept (h : session.Kept) {changed : Transport}
    (hstep : session.transport.Step changed) :
    Kept { session with transport := changed } := by
  obtain ⟨added, hevents, -⟩ :=
    Transport.step_events hstep session.client.stream session.client.partition
  change events { session with transport := changed } = session.events ++ added at hevents
  have hremaining : remaining { session with transport := changed } =
      session.remaining ++ added.filter session.client.start.admits := by
    rw [remaining, hevents]
    show List.filter _ (List.drop _ _) = _
    rw [List.drop_append_of_le_length h.bounded, List.filter_append]
    rfl
  refine ⟨?_, ?_, ?_⟩
  · rw [hevents, List.length_append]
    exact Nat.le_add_right_of_le h.bounded
  · rw [due, hevents, List.filter_append, hremaining, ← List.append_assoc, ← h.split]
    rfl
  · intro seen hseen
    obtain ⟨hle, hnothing⟩ := h.waits seen hseen
    show seen ≤ changed.notices ∧ (seen = changed.notices → _)
    rcases Transport.step_notices hstep with hannounced | ⟨hsilent, hsame⟩
    · exact ⟨by omega, fun heq => by omega⟩
    · refine ⟨by omega, fun heq => ?_⟩
      rw [← hnothing (heq.trans hsilent)]
      exact congrArg session.client.remaining (hsame _ _)

/-- Every step of a session keeps it. -/
theorem step_kept (h : session.Kept) (hstep : session.Step next) : next.Kept := by
  cases hstep with
  | look look => exact look_kept h look
  | transport hchange => exact transport_kept h hchange

/-- A session begins with nothing delivered and everything remaining. -/
theorem start_kept (client : Client) (transport : Transport) (h : client.position = 0) :
    (start client transport).Kept where
  bounded := by
    show client.position ≤ _
    omega
  split := by
    show _ = [] ++ List.filter _ (List.drop client.position _)
    rw [h]
    rfl
  waits seen hseen := by cases hseen

/-! ## Runs of a session -/

/-- The events that remain and the failures that are still to be met. -/
def backlog (session : Session) : Nat :=
  session.remaining.length + session.failures.length

/-- As long as something remains, a look brings the rest nearer. -/
theorem look_backlog (h : session.Kept) (hremaining : session.remaining ≠ []) (look : Look) :
    (session.look look).backlog < session.backlog := by
  have hlooks := look_looks h look
  have hsplit := congrArg List.length (session.look_splits look)
  rw [List.length_append] at hsplit
  have hfailures : (session.look look).failures.length ≤ session.failures.length := by
    rw [look_failures]
    exact hlooks.failures
  unfold backlog
  rcases hlooks.progress with hgiven | hnothing | hfewer
  · have hlength : 0 < (session.given look).length := List.length_pos_iff.mpr hgiven
    omega
  · exact absurd hnothing hremaining
  · rw [← look_failures] at hfewer
    change _ < session.failures.length at hfewer
    omega

theorem look_all_remaining (h : session.remaining = []) (looks : List Look) :
    (session.lookAll looks).remaining = [] := by
  induction looks generalizing session with
  | nil => exact h
  | cons look looks ih => exact ih (look_remaining h look)

/-- Enough looks leave nothing. -/
theorem look_all_enough (h : session.Kept) {looks : List Look}
    (henough : session.backlog ≤ looks.length) : (session.lookAll looks).remaining = [] := by
  induction looks generalizing session with
  | nil =>
      have hzero : session.remaining.length = 0 := by
        simp only [backlog, List.length_nil] at henough
        omega
      exact List.length_eq_zero_iff.mp hzero
  | cons look looks ih =>
      by_cases hremaining : session.remaining = []
      · exact look_all_remaining hremaining (look :: looks)
      · have hless := look_backlog h hremaining look
        rw [List.length_cons] at henough
        exact ih (look_kept h look) (by omega)

theorem look_all_kept (h : session.Kept) (looks : List Look) :
    (session.lookAll looks).Kept ∧ (session.lookAll looks).due = session.due := by
  induction looks generalizing session with
  | nil => exact ⟨h, rfl⟩
  | cons look looks ih =>
      obtain ⟨hkept, hdue⟩ := ih (look_kept h look)
      exact ⟨hkept, hdue.trans (session.look_due look)⟩

/-- A session that is kept delivers what is due. -/
theorem kept_delivers (h : session.Kept) : session.Delivers session.due where
  begins := ⟨session.remaining, h.split.symm⟩
  completes := by
    refine ⟨session.backlog, fun looks henough => ?_⟩
    obtain ⟨hkept, hdue⟩ := look_all_kept h looks
    rw [← hdue, hkept.split, look_all_enough h henough, List.append_nil]

/-! ## From the start -/

/-- The session has come about from a start: its client is that of the start further on, and the log
has only grown. -/
structure Continues (session : Session) (first : Client) (transport : Transport) : Prop where
  client : session.client = { first with position := session.client.position }
  grown : ∃ added,
    session.events = transport.events first.stream first.partition ++ added
  kept : session.Kept

/-- A session continues its start. -/
theorem reaches_continues {client : Client} {transport : Transport} (hstart : client.position = 0)
    (h : Reaches (start client transport) session) : session.Continues client transport := by
  induction h with
  | refl => exact ⟨rfl, ⟨[], (List.append_nil _).symm⟩, start_kept client transport hstart⟩
  | @tail session next _ hstep ih =>
      have hkept := step_kept ih.kept hstep
      cases hstep with
      | look look =>
          refine ⟨?_, ?_, hkept⟩
          · rw [look_client, ih.client]
          · rw [look_events]
            exact ih.grown
      | transport hchange =>
          obtain ⟨more, hmore, -⟩ :=
            Transport.step_events hchange session.client.stream session.client.partition
          obtain ⟨added, hadded⟩ := ih.grown
          refine ⟨ih.client, ⟨added ++ more, ?_⟩, hkept⟩
          rw [← List.append_assoc, ← hadded]
          exact hmore

end Session

end WindowJoin
