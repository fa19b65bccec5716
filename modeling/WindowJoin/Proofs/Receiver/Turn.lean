import Mathlib.Data.List.DropRight
import WindowJoin.Proofs.Pipeline.Forwarding
import WindowJoin.Proofs.Transport.Receiving
import WindowJoin.Receiver.Machine

/-!
# The turns of a receiver

What a receiver does depends on what its client returns. `Receiver.Response` lists what it makes of
the result of a call (`handle_response`), and `Receiver.Turn` what it does between two calls as long
as it is not cancelled and its source is kept (`transitions_turn`). `Receiver.verdict` says how the
results so far end it, if they do: it is the specification that a receiver is held to.
-/

namespace WindowJoin

namespace Receiver

/-! ## Results in a row -/

/-- Whether a call has met an error that may pass. -/
def isPassing : Except TransportError Received → Bool
  | .error error => error.isTransient
  | .ok _ => false

/-- The number of errors that may pass behind the last success. -/
def errorsInARow (results : List (Except TransportError Received)) : Nat :=
  (results.rtakeWhile isPassing).length

theorem errors_in_a_row_concat (results : List (Except TransportError Received))
    (result : Except TransportError Received) : errorsInARow (results ++ [result]) =
      if isPassing result then errorsInARow results + 1 else 0 := by
  rw [errorsInARow, List.rtakeWhile_concat]
  split
  · exact List.length_append
  · rfl

/-- How these results of the calls end a receiver: with success at the end of the stream, with the
error at one that does not pass, and with the last error when there has been one more in a row than
the receiver tries again. -/
def verdict (rules : ReceiverRules) (client : Client)
    (results : List (Except TransportError Received)) : Option (Except Failure Unit) :=
  match results.getLast? with
  | some (.ok .endOfStream) => some (.ok ())
  | some (.error error) =>
    if error.isTransient then
      if errorsInARow results = rules.maxRetries.toNat + 1 then
        some (.error (.retriesExhausted client.partition (rules.maxRetries + 1) error.message))
      else none
    else some (.error (.during (.receiving client.stream client.partition) (.transport error)))
  | _ => none

/-! ## What a receiver does -/

/-- Whether the client of a receiver is called. -/
def calls (receiver : Receiver) : Bool :=
  match receiver.control with
  | .calling | .waiting _ _ => true
  | _ => false

/-- The events that a receiver has been given and has not dealt with. -/
def held (receiver : Receiver) : List RawEvent :=
  match receiver.control with
  | .pushing events => events
  | _ => []

/-- How a receiver has ended, if it has. -/
def result? (receiver : Receiver) : Option (Except Failure Unit) :=
  match receiver.control with
  | .finished result => some result
  | _ => none

/-- The number of transitions before a receiver calls its client again. -/
def owed (receiver : Receiver) : Nat :=
  match receiver.control with
  | .pushing events => events.length + 1
  | .backingOff _ => 1
  | _ => 0

/-- What a receiver makes of the result of a call. -/
inductive Response (rules : ReceiverRules) (receiver : Receiver) (view : View) :
    Except TransportError Received → Receiver × View → Prop where
  | receive (events : List RawEvent) : Response rules receiver view (.ok (.events events))
      ({ receiver with backoff := receiver.backoff.reset, control := .pushing events },
        { view with source := { view.source with status := .receiving } })
  | ended : Response rules receiver view (.ok .endOfStream) (finish receiver view (.ok ()))
  | exhausted {error : TransportError} : error.isTransient = true →
      rules.maxRetries ≤ receiver.backoff.attempts →
      Response rules receiver view (.error error) (finish receiver view
        (.error (.retriesExhausted receiver.client.partition (receiver.backoff.attempts + 1)
          error.message)))
  | backOff {error : TransportError} : error.isTransient = true →
      receiver.backoff.attempts < rules.maxRetries →
      Response rules receiver view (.error error)
        ({ receiver with
            backoff := receiver.backoff.next.2
            control := .backingOff (receiver.backoff.next.1.pauseEnd view.now) },
          { view with source := { view.source with status := .backingOff } })
  | fail {error : TransportError} : error.isTransient = false →
      Response rules receiver view (.error error) (finish receiver view
        (.error (.during (.receiving receiver.client.stream receiver.client.partition)
          (.transport error))))

theorem handle_response (rules : ReceiverRules) (receiver : Receiver) (view : View)
    (result : Except TransportError Received) :
    Response rules receiver view result (handle rules receiver view result) := by
  unfold handle
  split
  next events => exact .receive events
  next => exact .ended
  next error =>
    split
    next hpasses =>
      split
      next hmax => exact .exhausted hpasses hmax
      next hmax => exact .backOff hpasses (UInt32.not_le.mp hmax)
    next hpasses => exact .fail (by simpa using hpasses)

/-- What a receiver does between two calls while it is not cancelled and its source is kept. -/
inductive Turn (receiver : Receiver) (view : View) : Receiver × View → Prop where
  | listen : receiver.control = .pushing [] →
      Turn receiver view ({ receiver with control := .calling }, view)
  /-- An event that cannot be decoded is passed over. -/
  | skip {event : RawEvent} {rest : List RawEvent} {error : CodecError} :
      receiver.control = .pushing (event :: rest) → Wire.decodeBatch event = .error error →
      Turn receiver view ({ receiver with control := .pushing rest }, view)
  | push {event : RawEvent} {rest : List RawEvent} {batch : MessageBatch}
      {channel : Channel MessageBatch} : receiver.control = .pushing (event :: rest) →
      Wire.decodeBatch event = .ok batch → view.source.push batch = .sent channel →
      Turn receiver view ({ receiver with control := .pushing rest },
        { view with source := { view.source with channel } })
  | retry {deadline : Nat} : receiver.control = .backingOff deadline → deadline ≤ view.now →
      Turn receiver view ({ receiver with control := .calling }, view)

/-- A receiver that does nothing is called for, waits for room or for the time, or has ended. -/
inductive Rests (receiver : Receiver) (view : View) : Prop where
  | called : receiver.calls = true → Rests receiver view
  | full {event : RawEvent} {rest : List RawEvent} {batch : MessageBatch} :
      receiver.control = .pushing (event :: rest) → Wire.decodeBatch event = .ok batch →
      view.source.push batch = .full → Rests receiver view
  | early {deadline : Nat} : receiver.control = .backingOff deadline → view.now < deadline →
      Rests receiver view
  | ended : receiver.isFinished = true → Rests receiver view

variable {rules : ReceiverRules} {receiver : Receiver} {view : View} {next : Receiver × View}

theorem transitions_turn (hrunning : view.cancelled = false)
    (hopen : view.source.channel.receiverOpen = true) (hcalls : receiver.calls = false)
    (h : next ∈ transitions rules receiver view) : receiver.Turn view next := by
  obtain ⟨transport, source, cancelled, now⟩ := view
  dsimp only at hrunning
  subst hrunning
  unfold transitions at h
  simp only [Bool.false_eq_true, if_false, List.nil_append] at h
  split at h
  next hcontrol => simp [calls, hcontrol] at hcalls
  next hcontrol => simp [calls, hcontrol] at hcalls
  next hcontrol =>
    obtain rfl := List.mem_singleton.mp h
    exact .listen hcontrol
  next event rest hcontrol =>
    split at h
    next error hdecoded =>
      obtain rfl := List.mem_singleton.mp h
      exact .skip hcontrol hdecoded
    next batch hdecoded =>
      split at h
      next channel hsend =>
        obtain rfl := List.mem_singleton.mp h
        exact .push hcontrol hdecoded hsend
      next hsend =>
        rw [Channel.send_refused hsend] at hopen
        cases hopen
      next => cases h
  next deadline hcontrol =>
    split at h
    next hdeadline =>
      obtain rfl := List.mem_singleton.mp h
      exact .retry hcontrol hdeadline
    next => cases h
  next => cases h

/-- A receiver that has waited long enough behind an error calls its client again. -/
theorem retry_mem {deadline : Nat} (hcontrol : receiver.control = .backingOff deadline)
    (hdue : deadline ≤ view.now) :
    ({ receiver with control := .calling }, view) ∈ transitions rules receiver view := by
  rw [transitions, hcontrol]
  dsimp only
  rw [if_pos hdue]
  exact List.mem_append_right _ (List.mem_singleton_self _)

/-- A receiver that goes on has not ended, and does not end by it. -/
theorem Turn.working (h : receiver.Turn view next) : receiver.isFinished = false ∧
    receiver.result? = none ∧ next.1.result? = none := by
  cases h with
  | listen hcontrol | skip hcontrol | push hcontrol | retry hcontrol =>
      simp [isFinished, result?, hcontrol]

/-- A receiver without a transition has a reason to rest. -/
theorem rests_of_stuck (hrunning : view.cancelled = false)
    (h : transitions rules receiver view = []) : receiver.Rests view := by
  unfold transitions at h
  simp only [hrunning, Bool.false_eq_true, if_false, List.nil_append] at h
  split at h
  next hcontrol => exact .called (by simp [calls, hcontrol])
  next hcontrol => exact .called (by simp [calls, hcontrol])
  next => cases h
  next hcontrol =>
    split at h
    next => cases h
    next hdecoded =>
      split at h
      next => cases h
      next => cases h
      next hsend => exact .full hcontrol hdecoded hsend
  next hcontrol =>
    split at h
    next => cases h
    next hdeadline => exact .early hcontrol (Nat.lt_of_not_le hdeadline)
  next hcontrol => exact .ended (by simp [isFinished, hcontrol])

end Receiver

end WindowJoin
