import WindowJoin.Proofs.Backoff
import WindowJoin.Proofs.Pipeline.Lane
import WindowJoin.Proofs.Receiver.Turn

/-!
# A receiver through the results of its calls

`Receiver.History` is a receiver whose calls may return anything: events with any bodies, errors that
pass, the end, an error that does not pass. Around it the source is read, the transport changes and
time goes on; the receiver is not cancelled and its source is kept. `History.follows_results` says
what it makes of the results: it pushes what can be decoded of them, ends as `Receiver.verdict` says
and no earlier or later, and waits behind every error that passes. The transitions of the machine,
which reads from a transport, are among the steps (`History.transitions_step`).

The waits are those of the backoff on a clock that counts milliseconds, except that no pause is longer
than `longestPause`. The count of the errors has 32 bits, and so has the number of attempts that a
receiver reports when it gives up.
-/

namespace WindowJoin

namespace Receiver

/-- A receiver under way, and what has come of its calls. -/
structure History where
  receiver : Receiver
  view : View
  /-- What the calls have returned. -/
  results : List (Except TransportError Received)
  /-- The time of the last result. -/
  answeredAt : Nat
  /-- The batches that have been pushed. -/
  pushed : List MessageBatch
  /-- The number of results dealt with and of transitions between the calls. -/
  moves : Nat

namespace History

/-- A receiver at its beginning. -/
def begin (client : Client) (backoff : BoundedBackoff) (view : View) : History where
  receiver := .start client backoff
  view
  results := []
  answeredAt := 0
  pushed := []
  moves := 0

/-- The receiver with its client at another place of the log. -/
def seek (history : History) (position : Nat) : Receiver :=
  { history.receiver with client := { history.receiver.client with position } }

/-- The history after a transition of the receiver. -/
def after (history : History) (next : Receiver × View) : History :=
  { history with
    receiver := next.1
    view := next.2
    pushed := history.pushed ++ history.view.source.channel.added next.2.source.channel
    moves := history.moves + 1 }

/-- The history after a call that has returned a result. -/
def answered (history : History) (next : Receiver × View)
    (result : Except TransportError Received) : History :=
  { history.after next with
    results := history.results ++ [result]
    answeredAt := history.view.now }

/-- What may happen next. -/
inductive Step (rules : ReceiverRules) (history : History) : History → Prop where
  /-- The call returns anything, and may have gone on in the log and changed the transport. -/
  | answer (result : Except TransportError Received) (position : Nat) (transport : Transport) :
      history.receiver.calls = true → Step rules history
        (history.answered (handle rules (history.seek position)
          { history.view with transport } result) result)
  /-- The call has returned nothing yet. -/
  | wait (deadline seen position : Nat) (transport : Transport) :
      history.receiver.calls = true → Step rules history
        { history with
          receiver := { history.seek position with control := .waiting deadline seen }
          view := { history.view with transport } }
  | move {next : Receiver × View} : history.receiver.calls = false →
      next ∈ transitions rules history.receiver history.view → Step rules history (history.after next)
  /-- The reader of the source does anything to it but drop it. -/
  | source {source : PartitionSource} : source.channel.receiverOpen = true →
      Step rules history { history with view := { history.view with source } }
  | transport (transport : Transport) :
      Step rules history { history with view := { history.view with transport } }
  | time {now : Nat} : history.view.now ≤ now →
      Step rules history { history with view := { history.view with now } }

/-- A history comes to another step by step. -/
def Reaches (rules : ReceiverRules) : History → History → Prop :=
  Relation.ReflTransGen (Step rules)

/-- The errors that may pass that have come in a row. -/
def failures (history : History) : Nat :=
  errorsInARow history.results

/-- The time at which the receiver tries again after the errors so far. -/
def retryAt (history : History) (base limit : Duration) : Nat :=
  pauseEnd history.answeredAt
    (millisCovering (min (base.toNanos * 2 ^ (history.failures - 1)) limit.toNanos))

/-- Behind errors in a row the receiver waits for the time at which it tries again, and is not called
before. A success has come behind all errors if its events are being pushed. -/
def Timely (history : History) (base limit : Duration) : Prop :=
  match history.receiver.control with
  | .calling | .waiting _ _ =>
    0 < history.failures → history.retryAt base limit ≤ history.view.now
  | .pushing _ => history.failures = 0
  | .backingOff deadline => 0 < history.failures ∧ deadline = history.retryAt base limit
  | .finished _ => True

/-- What holds of a receiver at every moment. -/
structure Kept (rules : ReceiverRules) (client : Client) (base limit : Duration)
    (history : History) : Prop where
  running : history.view.cancelled = false
  listens : history.view.source.channel.receiverOpen = true
  reader : history.receiver.client = { client with position := history.receiver.client.position }
  pushed : history.pushed ++ Wire.decoded history.receiver.held =
    Wire.decoded (Client.eventsOf history.results)
  result : history.receiver.result? = verdict rules client history.results
  undecided (earlier : List (Except TransportError Received)) : earlier <+: history.results →
    earlier ≠ history.results → verdict rules client earlier = none
  counts : history.receiver.isFinished = false →
    history.receiver.backoff.Counts base limit history.failures ∧
      history.failures ≤ rules.maxRetries.toNat
  timely : history.Timely base limit
  moves : history.moves + history.receiver.owed ≤
    (Client.eventsOf history.results).length + 2 * history.results.length

variable {rules : ReceiverRules} {client : Client} {base limit : Duration} {history next : History}

theorem begin_kept (rules : ReceiverRules) (client : Client) (base limit : Duration) {view : View}
    (hrunning : view.cancelled = false) (hopen : view.source.channel.receiverOpen = true) :
    (begin client (.new base limit) view).Kept rules client base limit where
  running := hrunning
  listens := hopen
  reader := rfl
  pushed := rfl
  result := rfl
  undecided _ hearlier hother := absurd (List.prefix_nil.mp hearlier) hother
  counts _ := ⟨BoundedBackoff.new_counts base limit, Nat.zero_le _⟩
  timely hfailures := absurd hfailures (Nat.lt_irrefl 0)
  moves := Nat.le_refl 0

theorem events_of_concat (results : List (Except TransportError Received))
    (result : Except TransportError Received) : Client.eventsOf (results ++ [result]) =
      Client.eventsOf results ++ Client.Glance.events (some result) := by
  simp [Client.eventsOf]

theorem verdict_events (results : List (Except TransportError Received)) (events : List RawEvent) :
    verdict rules client (results ++ [.ok (.events events)]) = none := by
  rw [verdict, List.getLast?_concat]

theorem verdict_ended (results : List (Except TransportError Received)) :
    verdict rules client (results ++ [.ok .endOfStream]) = some (.ok ()) := by
  rw [verdict, List.getLast?_concat]

theorem verdict_fatal (results : List (Except TransportError Received)) {error : TransportError}
    (h : error.isTransient = false) : verdict rules client (results ++ [.error error]) =
      some (.error (.during (.receiving client.stream client.partition) (.transport error))) := by
  rw [verdict, List.getLast?_concat]
  simp [h]

/-- One more error that may pass is the last one only behind as many as are tried again. -/
theorem verdict_passing (results : List (Except TransportError Received)) {error : TransportError}
    (h : error.isTransient = true) : verdict rules client (results ++ [.error error]) =
      if errorsInARow results = rules.maxRetries.toNat then
        some (.error (.retriesExhausted client.partition (rules.maxRetries + 1) error.message))
      else none := by
  rw [verdict, List.getLast?_concat]
  simp [h, errors_in_a_row_concat, isPassing]

/-- Where errors in a row end a receiver, there has been one more than it tries again. -/
theorem verdict_attempts {results : List (Except TransportError Received)} {partition last : String}
    {attempts : UInt32} (h : verdict rules client results =
      some (.error (.retriesExhausted partition attempts last))) :
    attempts = rules.maxRetries + 1 := by
  unfold verdict at h
  split at h
  next => cases h
  next =>
    split at h
    next =>
      split at h
      next =>
        cases h
        rfl
      next => cases h
    next => cases h
  next => cases h

/-- A receiver that is called has not ended. -/
theorem unfinished_of_calls {receiver : Receiver} (h : receiver.calls = true) :
    receiver.isFinished = false ∧ receiver.result? = none ∧ receiver.held = [] ∧
      receiver.owed = 0 := by
  unfold calls at h
  split at h
  next hcontrol => simp [isFinished, result?, held, owed, hcontrol]
  next hcontrol => simp [isFinished, result?, held, owed, hcontrol]
  next => cases h

/-- Where the receiver has not ended, the results so far are undecided among those with one more. -/
theorem Kept.undecided_concat (h : history.Kept rules client base limit)
    (hnone : history.receiver.result? = none) (result : Except TransportError Received)
    (earlier : List (Except TransportError Received))
    (hearlier : earlier <+: history.results ++ [result])
    (hother : earlier ≠ history.results ++ [result]) : verdict rules client earlier = none := by
  rcases List.prefix_concat_iff.mp hearlier with heq | hprefix
  · exact absurd heq hother
  · by_cases hsame : earlier = history.results
    · rw [hsame, ← h.result, hnone]
    · exact h.undecided earlier hprefix hsame

theorem Kept.seek_client (h : history.Kept rules client base limit) (position : Nat) :
    (history.seek position).client = { client with position } := by
  rw [seek, h.reader]

/-- Time that passes makes nothing untimely. -/
theorem Timely.later (h : history.Timely base limit) {now : Nat} (hlater : history.view.now ≤ now) :
    Timely { history with view := { history.view with now } } base limit := by
  unfold Timely at h ⊢
  dsimp only
  cases hcontrol : history.receiver.control with
  | calling | waiting =>
      rw [hcontrol] at h
      exact fun hfailed => Nat.le_trans (h hfailed) hlater
  | pushing | backingOff =>
      rw [hcontrol] at h
      exact h
  | finished => trivial

/-- A receiver that is called behind errors in a row has waited. -/
theorem Kept.waited (h : history.Kept rules client base limit)
    (hcalls : history.receiver.calls = true) (hfailed : 0 < history.failures) :
    history.retryAt base limit ≤ history.view.now := by
  have htimely := h.timely
  unfold calls at hcalls
  unfold Timely at htimely
  split at hcalls
  next hcontrol =>
    rw [hcontrol] at htimely
    exact htimely hfailed
  next hcontrol =>
    rw [hcontrol] at htimely
    exact htimely hfailed
  next => cases hcalls

/-- A receiver that holds nothing has pushed all that can be decoded. -/
theorem Kept.pushed_all (h : history.Kept rules client base limit)
    (hheld : history.receiver.held = []) :
    history.pushed = Wire.decoded (Client.eventsOf history.results) := by
  rw [← h.pushed, hheld]
  exact (List.append_nil _).symm

/-- One that is called lacks only what can be decoded of the result. -/
theorem Kept.pushed_answered (h : history.Kept rules client base limit)
    (hcalls : history.receiver.calls = true) (result : Except TransportError Received) :
    history.pushed ++ Wire.decoded (Client.Glance.events (some result)) =
      Wire.decoded (Client.eventsOf (history.results ++ [result])) := by
  obtain ⟨-, -, hheld, -⟩ := unfinished_of_calls hcalls
  rw [h.pushed_all hheld, events_of_concat, Wire.decoded_append]

/-- A result may ask for a move for each of its events, and for one more. -/
theorem Kept.moves_answered (h : history.Kept rules client base limit)
    (hcalls : history.receiver.calls = true) (result : Except TransportError Received) {owed : Nat}
    (howed : owed ≤ (Client.Glance.events (some result)).length + 1) :
    history.moves + 1 + owed ≤ (Client.eventsOf (history.results ++ [result])).length +
      2 * (history.results ++ [result]).length := by
  obtain ⟨-, -, -, hnothing⟩ := unfinished_of_calls hcalls
  have hmoves := h.moves
  rw [hnothing] at hmoves
  rw [events_of_concat, List.length_append, List.length_append, List.length_singleton]
  omega

/-- A receiver ends with a result where the results say so. -/
theorem Kept.finish (h : history.Kept rules client base limit)
    (hcalls : history.receiver.calls = true) {result : Except TransportError Received}
    (hnothing : Client.Glance.events (some result) = []) {ending : Except Failure Unit}
    (hverdict : verdict rules client (history.results ++ [result]) = some ending) (position : Nat)
    (transport : Transport) :
    (history.answered (Receiver.finish (history.seek position) { history.view with transport }
      ending) result).Kept rules client base limit := by
  obtain ⟨-, hnone, -, -⟩ := unfinished_of_calls hcalls
  refine { h with
    reader := h.seek_client position
    pushed := ?_
    result := hverdict.symm
    undecided := h.undecided_concat hnone result
    counts := fun hworking => by cases hworking
    timely := trivial
    moves := h.moves_answered hcalls result (Nat.zero_le _) }
  have hpushed := h.pushed_answered hcalls result
  rw [hnothing] at hpushed
  show history.pushed ++ Channel.added _ (Channel.dropSender _) ++ [] =
    Wire.decoded (Client.eventsOf (history.results ++ [result]))
  rw [Channel.added_drop_sender, List.append_nil]
  exact hpushed

/-- What is done with the result of a call is what the results say. -/
theorem Kept.answer (h : history.Kept rules client base limit)
    (hcalls : history.receiver.calls = true) (result : Except TransportError Received)
    (position : Nat) (transport : Transport) :
    (history.answered (handle rules (history.seek position) { history.view with transport } result)
      result).Kept rules client base limit := by
  obtain ⟨hworking, hnone, -, -⟩ := unfinished_of_calls hcalls
  have hundecided := h.undecided_concat hnone result
  obtain ⟨hcounts, htries⟩ := h.counts hworking
  have hattempts : (history.seek position).backoff.attempts.toNat = history.failures :=
    hcounts.attempts_to_nat (Nat.lt_of_le_of_lt htries rules.maxRetries.toNat_lt)
  have hpushed := h.pushed_answered hcalls result
  have hresponse :=
    handle_response rules (history.seek position) { history.view with transport } result
  -- The cases are those of the response: it pushes, ends in one of three ways, or waits.
  generalize handle rules (history.seek position) { history.view with transport } result = next
    at hresponse ⊢
  cases hresponse with
  | receive events =>
      have hfailures : errorsInARow (history.results ++ [.ok (.events events)]) = 0 :=
        errors_in_a_row_concat _ _
      refine { h with
        reader := h.seek_client position
        pushed := ?_
        result := (verdict_events _ _).symm
        undecided := hundecided
        counts := fun _ => ?_
        timely := hfailures
        moves := h.moves_answered hcalls _ (Nat.le_refl _) }
      · show history.pushed ++ history.view.source.channel.added history.view.source.channel ++
          Wire.decoded events = Wire.decoded (Client.eventsOf (history.results ++ [_]))
        rw [Channel.added_self, List.append_nil]
        exact hpushed
      · show BoundedBackoff.Counts _ base limit (errorsInARow (history.results ++ [_])) ∧
          errorsInARow (history.results ++ [_]) ≤ _
        rw [hfailures]
        exact ⟨hcounts.reset, Nat.zero_le _⟩
  | ended => exact h.finish hcalls rfl (verdict_ended _) position transport
  | exhausted hpasses hmax =>
      -- As many errors in a row have come before as it tries again, and this is one more.
      rw [UInt32.le_iff_toNat_le, hattempts] at hmax
      have hlast : history.failures = rules.maxRetries.toNat := Nat.le_antisymm htries hmax
      have hsame : (history.seek position).backoff.attempts = rules.maxRetries :=
        UInt32.toNat_inj.mp (hattempts.trans hlast)
      refine h.finish hcalls rfl ?_ position transport
      rw [failures] at hlast
      rw [verdict_passing _ hpasses, if_pos hlast, hsame, h.seek_client]
  | @backOff error hpasses hless =>
      rw [UInt32.lt_iff_toNat_lt, hattempts] at hless
      have hfailures : errorsInARow (history.results ++ [.error error]) = history.failures + 1 := by
        rw [errors_in_a_row_concat, isPassing, if_pos hpasses, failures]
      refine { h with
        reader := h.seek_client position
        pushed := ?_
        result := ?_
        undecided := hundecided
        counts := fun _ => ?_
        timely := ?_
        moves := h.moves_answered hcalls _ (Nat.le_add_left 1 _) }
      · show history.pushed ++ history.view.source.channel.added history.view.source.channel ++
          Wire.decoded [] = Wire.decoded (Client.eventsOf (history.results ++ [_]))
        rw [Channel.added_self, List.append_nil]
        exact hpushed
      · show none = verdict rules client (history.results ++ [_])
        have hmore : errorsInARow history.results ≠ rules.maxRetries.toNat := Nat.ne_of_lt hless
        rw [verdict_passing _ hpasses, if_neg hmore]
      · show BoundedBackoff.Counts _ base limit (errorsInARow (history.results ++ [_])) ∧
          errorsInARow (history.results ++ [_]) ≤ _
        rw [hfailures]
        exact ⟨hcounts.next, hless⟩
      · show 0 < errorsInARow (history.results ++ [_]) ∧
          history.receiver.backoff.next.1.pauseEnd history.view.now =
            pauseEnd history.view.now (millisCovering
              (min (base.toNanos * 2 ^ (errorsInARow (history.results ++ [_]) - 1)) limit.toNanos))
        rw [hfailures, Nat.add_sub_cancel, Duration.pauseEnd, hcounts.delay_eq]
        exact ⟨Nat.succ_pos _, rfl⟩
  | fail hpasses =>
      refine h.finish hcalls rfl ?_ position transport
      rw [verdict_fatal _ hpasses, h.seek_client]

/-- What a receiver does between two calls follows the results that it has. -/
theorem Kept.turn (h : history.Kept rules client base limit) {next : Receiver × View}
    (hturn : history.receiver.Turn history.view next) :
    (history.after next).Kept rules client base limit := by
  obtain ⟨hworking, hnone, hstill⟩ := hturn.working
  have hresult : next.1.result? = verdict rules client history.results := by
    rw [hstill, ← h.result, hnone]
  have hcounts := h.counts hworking
  have htimely := h.timely
  have hpushed := h.pushed
  have hmoves := h.moves
  cases hturn with
  | listen hcontrol =>
      simp only [held, owed, Timely, hcontrol, List.length_nil] at htimely hpushed hmoves
      refine { h with
        pushed := ?_
        result := hresult
        counts := fun _ => hcounts
        timely := fun hfailed => absurd htimely (Nat.ne_of_gt hfailed)
        moves := ?_ }
      · show _ ++ Channel.added _ _ ++ _ = _
        rw [Channel.added_self, List.append_nil]
        exact hpushed
      · show _ + 1 + 0 ≤ (Client.eventsOf history.results).length + 2 * history.results.length
        omega
  | @skip event rest error hcontrol hdecoded =>
      simp only [held, owed, Timely, hcontrol, List.length_cons] at htimely hpushed hmoves
      refine { h with
        pushed := ?_
        result := hresult
        counts := fun _ => hcounts
        timely := htimely
        moves := ?_ }
      · show _ ++ Channel.added _ _ ++ Wire.decoded rest = _
        rw [Channel.added_self, List.append_nil]
        refine Eq.trans ?_ hpushed
        simp [Wire.decoded, hdecoded, Except.toOption]
      · show _ + 1 + (rest.length + 1) ≤
          (Client.eventsOf history.results).length + 2 * history.results.length
        omega
  | @push event rest batch channel hcontrol hdecoded hsend =>
      simp only [held, owed, Timely, hcontrol, List.length_cons] at htimely hpushed hmoves
      have hopen : channel.receiverOpen = true := by
        rw [(Channel.send_eq hsend).2]
        exact h.listens
      refine { h with
        listens := hopen
        pushed := ?_
        result := hresult
        counts := fun _ => hcounts
        timely := htimely
        moves := ?_ }
      · show _ ++ Channel.added _ channel ++ Wire.decoded rest = _
        rw [Channel.added_send hsend]
        refine Eq.trans ?_ hpushed
        simp [Wire.decoded, hdecoded, Except.toOption]
      · show _ + 1 + (rest.length + 1) ≤
          (Client.eventsOf history.results).length + 2 * history.results.length
        omega
  | retry hcontrol hdeadline =>
      simp only [held, owed, Timely, hcontrol] at htimely hpushed hmoves
      refine { h with
        pushed := ?_
        result := hresult
        counts := fun _ => hcounts
        timely := fun _ => htimely.2 ▸ hdeadline
        moves := hmoves }
      show _ ++ Channel.added _ _ ++ _ = _
      rw [Channel.added_self, List.append_nil]
      exact hpushed

/-- Every step of a receiver and of what is around it keeps what has been said. -/
theorem Kept.step (h : history.Kept rules client base limit) (hstep : Step rules history next) :
    next.Kept rules client base limit := by
  cases hstep with
  | answer result position transport hcalls => exact h.answer hcalls result position transport
  | wait deadline seen position transport hcalls =>
      obtain ⟨hworking, hnone, hheld, howed⟩ := unfinished_of_calls hcalls
      have hresult := h.result
      have hmoves := h.moves
      rw [hnone] at hresult
      rw [howed] at hmoves
      exact { h with
        reader := h.seek_client position
        pushed := (List.append_nil _).trans (h.pushed_all hheld)
        result := hresult
        counts := fun _ => h.counts hworking
        timely := h.waited hcalls
        moves := hmoves }
  | move hcalls hnext => exact h.turn (transitions_turn h.running h.listens hcalls hnext)
  | source hopen => exact { h with listens := hopen }
  | transport transport => exact { h with }
  | time hlater => exact { h with timely := h.timely.later hlater }

theorem Reaches.kept {view : View} (h : Reaches rules (begin client (.new base limit) view) history)
    (hrunning : view.cancelled = false) (hopen : view.source.channel.receiverOpen = true) :
    history.Kept rules client base limit := by
  induction h with
  | refl => exact begin_kept rules client base limit hrunning hopen
  | tail _ hstep ih => exact ih.step hstep

/-- A client of the transport gives one of the results that its calls may give. -/
theorem read_step (hcalls : history.receiver.calls = true) {deadline : Nat} {seen : Option Nat}
    {next : Receiver × View}
    (h : next ∈ read rules history.receiver history.view deadline seen) :
    ∃ following, Step rules history following ∧ following.receiver = next.1 ∧
      following.view = next.2 := by
  have hreader := (history.receiver.client.read_reads history.view.transport rules.batchSize
    history.view.now deadline seen).reader
  unfold read at h
  generalize history.receiver.client.read history.view.transport rules.batchSize history.view.now
    deadline seen = outcome at h hreader
  obtain ⟨glance, reader, transport⟩ := outcome
  dsimp only at hreader h
  rw [hreader] at h
  cases glance with
  | none =>
      dsimp only at h
      split at h
      next => cases h
      next =>
        obtain rfl := List.mem_singleton.mp h
        exact ⟨_, .wait deadline transport.notices reader.position transport hcalls, rfl, rfl⟩
  | some result =>
      obtain rfl := List.mem_singleton.mp h
      exact ⟨_, .answer result reader.position transport hcalls, rfl, rfl⟩

/-- Every transition of a receiver that is not cancelled is a step of its history. -/
theorem transitions_step (hrunning : history.view.cancelled = false) {next : Receiver × View}
    (h : next ∈ transitions rules history.receiver history.view) :
    ∃ following, Step rules history following ∧ following.receiver = next.1 ∧
      following.view = next.2 := by
  cases hcalls : history.receiver.calls with
  | false => exact ⟨_, .move hcalls h, rfl, rfl⟩
  | true =>
      unfold transitions at h
      simp only [hrunning, Bool.false_eq_true, if_false] at h
      unfold calls at hcalls
      split at hcalls
      next hcontrol =>
        rw [hcontrol] at h
        exact read_step (by simp [calls, hcontrol]) h
      next hcontrol =>
        rw [hcontrol] at h
        exact read_step (by simp [calls, hcontrol]) h
      next => cases hcalls

/-- Whatever the calls of a receiver return, it has pushed what can be decoded of the events in them,
in their order, up to those that it still holds. It has ended if and only if the last result ends it,
and no result before that did; where it has tried too often, the attempts that it reports are one more
than it tries again, a number that has to fit in 32 bits. Behind errors in a row it waits until the time
of the backoff and is not called before that. It makes a bounded number of moves, and does nothing only
where its client, the room in its source or the time is waited for, or where it has ended. -/
theorem follows_results {view : View} (hretries : rules.maxRetries.toNat + 1 < 2 ^ 32)
    (hrunning : view.cancelled = false) (hopen : view.source.channel.receiverOpen = true)
    (h : Reaches rules (begin client (.new base limit) view) history) :
    history.pushed ++ Wire.decoded history.receiver.held =
        Wire.decoded (Client.eventsOf history.results) ∧
      history.receiver.result? = verdict rules client history.results ∧
      (∀ partition attempts last, history.receiver.result? =
          some (.error (.retriesExhausted partition attempts last)) →
        attempts.toNat = rules.maxRetries.toNat + 1) ∧
      (∀ earlier, earlier <+: history.results → earlier ≠ history.results →
        verdict rules client earlier = none) ∧
      history.Timely base limit ∧
      history.moves ≤ (Client.eventsOf history.results).length + 2 * history.results.length ∧
      (transitions rules history.receiver history.view = [] →
        history.receiver.Rests history.view) := by
  have hkept := h.kept hrunning hopen
  refine ⟨hkept.pushed, hkept.result, fun partition attempts last hresult => ?_, hkept.undecided,
    hkept.timely, Nat.le_trans (Nat.le_add_right _ _) hkept.moves, rests_of_stuck hkept.running⟩
  rw [hkept.result] at hresult
  rw [verdict_attempts hresult, UInt32.toNat_add]
  exact Nat.mod_eq_of_lt hretries

/-! ## Runs -/

def sampleClient : Client :=
  ⟨"in", "0", .afterOffset 0, 0⟩

/-- A source with room for one batch. -/
def sampleView : View :=
  ⟨.empty, .new "0" 1, false, 0⟩

def sampleBackoff : BoundedBackoff :=
  .new (.ofMillis 50) (.ofMillis 80)

/-- A backoff whose first wait is a millisecond longer than the longest pause. -/
def longBackoff : BoundedBackoff :=
  .new (.ofMillis 946080000001) (.ofMillis 946080000001)

def sampleEvent (offset : Int64) (body : List UInt8) : RawEvent :=
  ⟨offset, offset, "0", .epoch, body⟩

/-- A receiver that tries again once waits behind an error, passes over an event that cannot be
decoded, pushes the next one, and ends at the end of the stream. -/
theorem follows_results_sample :
    ∃ history, Reaches ⟨20, 10, 1⟩ (begin sampleClient sampleBackoff sampleView) history ∧
      history.results = [.error (.transient "busy"),
        .ok (.events [sampleEvent 1 [], sampleEvent 2 [0, 0, 0, 1, 0, 0, 0, 0]]),
        .ok .endOfStream] ∧
      history.view.now = 50 ∧
      history.pushed = [⟨2, 2, "0", .epoch, 0, []⟩] ∧
      history.pushed ++ Wire.decoded history.receiver.held =
        Wire.decoded (Client.eventsOf history.results) ∧
      history.receiver.result? = some (.ok ()) ∧
      history.receiver.result? = verdict ⟨20, 10, 1⟩ sampleClient history.results := by
  have hstart : Reaches ⟨20, 10, 1⟩ (begin sampleClient sampleBackoff sampleView) _ := .refl
  have hfailed := hstart.tail (.answer (.error (.transient "busy")) 0 .empty rfl)
  have hwaited := hfailed.tail (.time (show 0 ≤ 50 by decide))
  have hretried := hwaited.tail (.move rfl (retry_mem rfl (by decide)))
  have hgiven := hretried.tail (.answer (.ok (.events [sampleEvent 1 [],
    sampleEvent 2 [0, 0, 0, 1, 0, 0, 0, 0]])) 2 .empty rfl)
  have hskipped := hgiven.tail (.move rfl List.mem_cons_self)
  have hpushed := hskipped.tail (.move rfl List.mem_cons_self)
  have hlistens := hpushed.tail (.move rfl List.mem_cons_self)
  have hended := hlistens.tail (.answer (.ok .endOfStream) 2 .empty rfl)
  obtain ⟨hpushes, hresult, -⟩ := follows_results (by decide) rfl rfl hended
  exact ⟨_, hended, rfl, rfl, rfl, hpushes, rfl, hresult⟩

theorem errors_in_a_row_replicate {error : TransportError} (h : error.isTransient = true)
    (count : Nat) : errorsInARow (List.replicate count (.error error)) = count := by
  induction count with
  | zero => rfl
  | succ count ih => rw [List.replicate_succ', errors_in_a_row_concat, isPassing, if_pos h, ih]

/-- A receiver without waits tries again at once. -/
theorem retry_at_zero (history : History) :
    history.retryAt (.ofMillis 0) (.ofMillis 0) = history.answeredAt := by
  have hwait : (Duration.ofMillis 0).toNanos = 0 := Duration.of_millis_to_nanos 0
  simp [retryAt, hwait, millisCovering, nanosPerMilli, pauseEnd]

/-- Without time between its attempts, a receiver meets an error that may pass as often in a row as it
tries again. -/
theorem reaches_failing (rules : ReceiverRules) (client : Client) {view : View}
    (hrunning : view.cancelled = false) (hopen : view.source.channel.receiverOpen = true)
    {error : TransportError} (hpasses : error.isTransient = true) {count : Nat}
    (hcount : count ≤ rules.maxRetries.toNat) :
    ∃ history, Reaches rules (begin client (.new (.ofMillis 0) (.ofMillis 0)) view) history ∧
      history.receiver.control = .calling ∧
      history.results = List.replicate count (.error error) := by
  induction count with
  | zero => exact ⟨_, .refl, rfl, rfl⟩
  | succ count ih =>
      obtain ⟨history, hreaches, hcontrol, hresults⟩ := ih (Nat.le_of_succ_le hcount)
      have hcalls : history.receiver.calls = true := by simp [calls, hcontrol]
      have hnext := hreaches.tail (.answer (.error error) 0 .empty hcalls)
      have hkept := Reaches.kept hnext hrunning hopen
      -- There have been fewer errors than it tries again, so it goes on.
      have hundecided : verdict rules client (history.results ++ [.error error]) = none := by
        rw [verdict_passing _ hpasses, hresults, errors_in_a_row_replicate hpasses,
          if_neg (Nat.ne_of_lt hcount)]
      have hresult := hkept.result.trans hundecided
      have htimely := hkept.timely
      have hresponse := handle_response rules (history.seek 0)
        { history.view with transport := .empty } (.error error)
      generalize handle rules (history.seek 0) { history.view with transport := .empty }
        (.error error) = next at hnext hresult htimely hresponse
      cases hresponse with
      | backOff =>
          have hnow := htimely.2.trans (retry_at_zero _)
          refine ⟨_, hnext.tail (.move rfl (retry_mem rfl (Nat.le_of_eq hnow))), rfl, ?_⟩
          rw [List.replicate_succ', ← hresults]
          rfl
      | exhausted | fail => cases hresult

/-- A receiver that tries again as often as can be counted. -/
def patientRules : ReceiverRules := ⟨20, 10, 4294967295⟩

/-- The count of the attempts does not fit in 32 bits when it gives up, and it reports none. -/
theorem attempts_overflow :
    ∃ history, Reaches patientRules
        (begin sampleClient (.new (.ofMillis 0) (.ofMillis 0)) sampleView) history ∧
      history.failures = patientRules.maxRetries.toNat + 1 ∧
      history.receiver.result? = some (.error (.retriesExhausted "0" 0
        (TransportError.transient "busy").message)) := by
  have hpasses : (TransportError.transient "busy").isTransient = true := rfl
  have hopen : sampleView.source.channel.receiverOpen = true := rfl
  obtain ⟨history, hreaches, hcontrol, hresults⟩ :=
    reaches_failing patientRules sampleClient rfl hopen hpasses (Nat.le_refl _)
  have hcalls : history.receiver.calls = true := by simp [calls, hcontrol]
  have hended := hreaches.tail (.answer (.error (.transient "busy")) 0 .empty hcalls)
  have hkept := Reaches.kept hended rfl rfl
  have hcount : errorsInARow history.results = patientRules.maxRetries.toNat := by
    rw [hresults, errors_in_a_row_replicate hpasses]
  refine ⟨_, hended, ?_, hkept.result.trans ?_⟩
  · show errorsInARow (history.results ++ [_]) = _
    rw [errors_in_a_row_concat, hcount]
    rfl
  · show verdict _ _ (history.results ++ [_]) = _
    rw [verdict_passing _ hpasses, if_pos hcount]
    rfl

/-- With a base of thirty years and a millisecond, the receiver tries again a millisecond before that
time is over. One that tries again 2³² - 1 times reports no attempts when it gives up. -/
theorem wait_cut_short :
    (∃ history, Reaches ⟨20, 10, 1⟩ (begin sampleClient longBackoff sampleView) history ∧
      history.results = [.error (.transient "busy")] ∧ history.failures = 1 ∧
      history.answeredAt = 0 ∧ history.receiver.control = .calling ∧
      history.view.now < history.answeredAt + millisCovering
        (min (longBackoff.base.toNanos * 2 ^ (history.failures - 1)) longBackoff.limit.toNanos)) ∧
    ∃ history, Reaches patientRules
        (begin sampleClient (.new (.ofMillis 0) (.ofMillis 0)) sampleView) history ∧
      history.failures = patientRules.maxRetries.toNat + 1 ∧
      history.receiver.result? = some (.error (.retriesExhausted "0" 0
        (TransportError.transient "busy").message)) := by
  refine ⟨?_, attempts_overflow⟩
  have hstart : Reaches ⟨20, 10, 1⟩ (begin sampleClient longBackoff sampleView) _ := .refl
  have hfailed := hstart.tail (.answer (.error (.transient "busy")) 0 .empty rfl)
  have hwaited := hfailed.tail (.time (show 0 ≤ 946080000000 by decide))
  have hretried := hwaited.tail (.move rfl (retry_mem rfl (by decide)))
  exact ⟨_, hretried, rfl, rfl, rfl, rfl, by decide⟩

end History

end Receiver

end WindowJoin
