import WindowJoin.Pipeline.Checkpointer
import WindowJoin.Proofs.Storage.Faithful

/-!
# The turns of the keeper of the checkpoint

`Checkpointer.Turn` lists what the keeper of the checkpoint can do in one transition and under which
condition; `Checkpointer.mem_transitions` says that it does this and nothing else. With each turn go
the command that is taken and the checkpoint that is stored in it, if any. A listening keeper takes a
commit in, or something prompts it to store its checkpoint (`Checkpointer.Prompt`). A storing keeper
makes an attempt; only one that succeeds changes the document (`Checkpointer.write_ok`,
`Checkpointer.write_error`).
-/

namespace WindowJoin

namespace Checkpointer

/-- The number of the request that is answered when the checkpoint has been stored. -/
def Purpose.request? : Purpose → Option Nat
  | flush request | shutdown request => some request
  | routine | leaving => none

/-- The document in which the checkpoint is stored. -/
def View.document (view : View) (rules : Rules) : Option (List UInt8) :=
  view.blobs.store.get? rules.blobName

/-- Writes the checkpoint into its document, or fails. -/
def write (rules : Rules) (actor : Checkpointer) (view : View) :
    Except StorageError Unit × Guarded MemoryBlobs :=
  (Guarded.access MemoryBlobs.access).write rules.blobName actor.checkpoint.toJson view.blobs

/-- What makes a listening keeper store its checkpoint: the commands that are taken with it, what for,
the ticker from then on, and what is seen then. -/
inductive Prompt (actor : Checkpointer) (view : View) :
    List Command → Purpose → Ticker → View → Prop where
  | cancel : view.cancelled = true → Prompt actor view [] .leaving actor.ticker view
  | tick : actor.ticker.due ≤ view.now →
      Prompt actor view [] .routine (actor.ticker.tick view.now) view
  | flush {request : Nat} {commands : Channel Command} :
      view.commands.receive = .item (.flush request) commands →
      Prompt actor view [.flush request] (.flush request) actor.ticker { view with commands }
  | shutdown {request : Nat} {commands : Channel Command} :
      view.commands.receive = .item (.shutdown request) commands →
      Prompt actor view [.shutdown request] (.shutdown request) actor.ticker { view with commands }
  /-- There will be no more commands. -/
  | ended : view.commands.receive = .ended → Prompt actor view [] .leaving actor.ticker view

/-- What a keeper does in one transition, with the commands that it takes and the checkpoints that it
stores. -/
inductive Turn (rules : Rules) (actor : Checkpointer) (view : View) :
    List Command → List JoinCheckpoint → Checkpointer × View → Prop where
  | commit {partition : String} {offset : Int64} {enqueuedTime : Instant}
      {commands : Channel Command} : actor.control = .listening →
      view.commands.receive = .item (.commit partition offset enqueuedTime) commands →
      Turn rules actor view [.commit partition offset enqueuedTime] []
        (actor.commit partition offset enqueuedTime, { view with commands })
  /-- The checkpoint has changed. -/
  | begin {taken : List Command} {purpose : Purpose} {ticker : Ticker} {seen : View} :
      actor.control = .listening → Prompt actor view taken purpose ticker seen →
      actor.dirty = true →
      Turn rules actor view taken []
        ({ actor with
            ticker
            control := .storing (.start rules.store.maxAttempts rules.store.backoff) seen.now
              purpose }, seen)
  /-- The checkpoint has not changed since it was stored. -/
  | spare {taken : List Command} {purpose : Purpose} {ticker : Ticker} {seen : View} :
      actor.control = .listening → Prompt actor view taken purpose ticker seen →
      actor.dirty = false →
      Turn rules actor view taken [] (conclude { actor with ticker } seen purpose (.ok ()))
  | store {attempts : Attempts} {time : Nat} {purpose : Purpose} :
      actor.control = .storing attempts time purpose → time ≤ view.now →
      (write rules actor view).1 = .ok () →
      Turn rules actor view [] [actor.checkpoint]
        (conclude { actor with dirty := false }
          { view with blobs := (write rules actor view).2 } purpose (.ok ()))
  | retry {attempts later : Attempts} {delay : Duration} {time : Nat} {purpose : Purpose}
      {error : StorageError} : actor.control = .storing attempts time purpose → time ≤ view.now →
      (write rules actor view).1 = .error error →
      attempts.judge (write rules actor view).1 = .again delay later →
      Turn rules actor view [] []
        ({ actor with control := .storing later (delay.pauseEnd view.now) purpose },
          { view with blobs := (write rules actor view).2 })
  | fail {attempts : Attempts} {time : Nat} {purpose : Purpose} {error : StorageError} :
      actor.control = .storing attempts time purpose → time ≤ view.now →
      (write rules actor view).1 = .error error →
      attempts.judge (write rules actor view).1 = .done (.error error) →
      Turn rules actor view [] []
        (conclude actor { view with blobs := (write rules actor view).2 } purpose
          (.error (Activity.writingJoinCheckpoint.storageFailure error)))

variable {rules : Rules} {actor : Checkpointer} {view : View} {next : Checkpointer × View}
  {taken : List Command} {stored : List JoinCheckpoint}

/-! ## The transitions are the turns -/

/-- A prompt leads to a turn. -/
theorem Prompt.turn {purpose : Purpose} {ticker : Ticker} {seen : View}
    (h : Prompt actor view taken purpose ticker seen) (hcontrol : actor.control = .listening) :
    Turn rules actor view taken [] (persist rules { actor with ticker } seen purpose) := by
  unfold persist
  split
  next hdirty => exact .begin hcontrol h hdirty
  next hdirty => exact .spare hcontrol h (by simpa using hdirty)

/-- An attempt goes by the verdict on what is written. -/
theorem attempt_eq (rules : Rules) (actor : Checkpointer) (view : View) (attempts : Attempts)
    (purpose : Purpose) : attempt rules actor view attempts purpose =
      match attempts.judge (write rules actor view).1 with
      | .again delay later =>
        ({ actor with control := .storing later (delay.pauseEnd view.now) purpose },
          { view with blobs := (write rules actor view).2 })
      | .done (.ok ()) =>
        conclude { actor with dirty := false } { view with blobs := (write rules actor view).2 }
          purpose (.ok ())
      | .done (.error error) =>
        conclude actor { view with blobs := (write rules actor view).2 } purpose
          (.error (Activity.writingJoinCheckpoint.storageFailure error)) :=
  rfl

/-- An attempt is a turn. -/
theorem attempt_turn (rules : Rules) {attempts : Attempts} {time : Nat} {purpose : Purpose}
    (hcontrol : actor.control = .storing attempts time purpose) (hdue : time ≤ view.now) :
    ∃ stored, Turn rules actor view [] stored (attempt rules actor view attempts purpose) := by
  rw [attempt_eq]
  rcases attempts.judge_cases (write rules actor view).1 with
    hdone | ⟨error, delay, later, herror, hagain⟩
  · cases hresult : (write rules actor view).1 with
    | ok =>
        rw [hresult] at hdone
        rw [hdone]
        exact ⟨_, .store hcontrol hdue hresult⟩
    | error error =>
        have hfail := Turn.fail hcontrol hdue hresult (hresult ▸ hdone)
        rw [hresult] at hdone
        rw [hdone]
        exact ⟨_, hfail⟩
  · have hretry := Turn.retry hcontrol hdue herror hagain
    rw [hagain]
    exact ⟨_, hretry⟩

/-- Every transition of a keeper is a turn. -/
theorem transitions_turn (h : next ∈ transitions rules actor view) :
    ∃ taken stored, Turn rules actor view taken stored next := by
  unfold transitions at h
  split at h
  next hcontrol =>
    simp only [List.mem_append] at h
    rcases h with (hcancel | htick) | hcommand
    · split at hcancel
      next hcancelled =>
        obtain rfl := List.mem_singleton.mp hcancel
        exact ⟨_, _, (Prompt.cancel hcancelled).turn hcontrol⟩
      next => cases hcancel
    · split at htick
      next hdue =>
        obtain rfl := List.mem_singleton.mp htick
        exact ⟨_, _, (Prompt.tick hdue).turn hcontrol⟩
      next => cases htick
    · split at hcommand
      next command commands hreceive =>
        obtain rfl := List.mem_singleton.mp hcommand
        cases command with
        | commit partition offset enqueuedTime => exact ⟨_, _, .commit hcontrol hreceive⟩
        | flush request => exact ⟨_, _, (Prompt.flush hreceive).turn hcontrol⟩
        | shutdown request => exact ⟨_, _, (Prompt.shutdown hreceive).turn hcontrol⟩
      next hreceive =>
        obtain rfl := List.mem_singleton.mp hcommand
        exact ⟨_, _, (Prompt.ended hreceive).turn hcontrol⟩
      next => cases hcommand
  next attempts time purpose hcontrol =>
    split at h
    next hdue =>
      obtain rfl := List.mem_singleton.mp h
      obtain ⟨stored, hturn⟩ := attempt_turn rules hcontrol hdue
      exact ⟨_, stored, hturn⟩
    next => cases h
  next => cases h

/-- What a prompt leads to is a transition. -/
theorem Prompt.mem_transitions {purpose : Purpose} {ticker : Ticker} {seen : View}
    (h : Prompt actor view taken purpose ticker seen) (rules : Rules)
    (hcontrol : actor.control = .listening) :
    persist rules { actor with ticker } seen purpose ∈ transitions rules actor view := by
  unfold transitions
  split
  next =>
    cases h with
    | cancel hcancelled => simp [hcancelled]
    | tick hdue => simp [hdue]
    | flush hreceive => simp [hreceive, obey]
    | shutdown hreceive => simp [hreceive, obey]
    | ended hreceive => simp [hreceive]
  next hstoring =>
    rw [hcontrol] at hstoring
    cases hstoring
  next hfinished =>
    rw [hcontrol] at hfinished
    cases hfinished

/-- Every turn of a keeper is a transition. -/
theorem Turn.mem_transitions (h : Turn rules actor view taken stored next) :
    next ∈ transitions rules actor view := by
  have hattempt {attempts : Attempts} {time : Nat} {purpose : Purpose}
      (hcontrol : actor.control = .storing attempts time purpose) (hdue : time ≤ view.now) :
      attempt rules actor view attempts purpose ∈ transitions rules actor view := by
    simp [transitions, hcontrol, hdue]
  cases h with
  | commit hcontrol hreceive => simp [transitions, hcontrol, hreceive, obey]
  | begin hcontrol hprompt hdirty =>
      have hmem := hprompt.mem_transitions rules hcontrol
      rwa [persist, if_pos hdirty] at hmem
  | spare hcontrol hprompt hclean =>
      have hmem := hprompt.mem_transitions rules hcontrol
      rwa [persist, if_neg (by simp [hclean])] at hmem
  | store hcontrol hdue hwritten =>
      have hmem := hattempt hcontrol hdue
      rw [attempt_eq, hwritten] at hmem
      exact hmem
  | retry hcontrol hdue herror hagain =>
      have hmem := hattempt hcontrol hdue
      rwa [attempt_eq, hagain] at hmem
  | fail hcontrol hdue herror hdone =>
      have hmem := hattempt hcontrol hdue
      rwa [attempt_eq, hdone] at hmem

/-- The transitions of a keeper are its turns. -/
theorem mem_transitions : next ∈ transitions rules actor view ↔
    ∃ taken stored, Turn rules actor view taken stored next :=
  ⟨transitions_turn, fun ⟨_, _, hturn⟩ => hturn.mem_transitions⟩

/-- A prompt leaves the stores and the answers alone. -/
theorem Prompt.seen_eq {purpose : Purpose} {ticker : Ticker} {seen : View}
    (h : Prompt actor view taken purpose ticker seen) :
    seen.blobs = view.blobs ∧ seen.replies = view.replies := by
  cases h <;> exact ⟨rfl, rfl⟩

/-! ## What storing does -/

/-- A checkpoint that has been written is in the document. -/
theorem write_ok (h : (write rules actor view).1 = .ok ()) :
    ({ view with blobs := (write rules actor view).2 } : View).document rules =
      some actor.checkpoint.toJson :=
  (MemoryBlobs.access_faithful rules.blobName).guarded.write_sets h

/-- A failure to write leaves the document as it was. -/
theorem write_error {error : StorageError} (h : (write rules actor view).1 = .error error) :
    ({ view with blobs := (write rules actor view).2 } : View).document rules =
      view.document rules :=
  (MemoryBlobs.access_faithful rules.blobName).guarded.write_fails h

/-- The answers to the requests that wait when a keeper ends. -/
def refusals (view : View) : Replies :=
  (view.commands.queue.filterMap Command.request?).map fun request => (request, .error stopped)

theorem ok_not_refused (view : View) (request : Nat) : (request, .ok ()) ∉ refusals view := by
  intro hmem
  obtain ⟨other, -, heq⟩ := List.mem_map.mp hmem
  cases heq

/-- In the end the keeper listens or is finished. Of the answers it gives, only one to the request that
made it store the checkpoint can be a success, if storing was one. -/
theorem conclude_spec (actor : Checkpointer) (view : View) (purpose : Purpose)
    (result : Except Failure Unit) :
    ∃ control commands answers, conclude actor view purpose result =
        ({ actor with control }, { view with commands, replies := view.replies ++ answers }) ∧
      (control = .listening ∨ control = .finished) ∧
      (commands = view.commands ∨ commands = view.commands.dropReceiver) ∧
      ∀ request, (request, .ok ()) ∈ answers → purpose.request? = some request ∧ result = .ok () := by
  cases purpose with
  | routine =>
      refine ⟨.listening, view.commands, [], ?_, .inl rfl, .inl rfl, nofun⟩
      rw [List.append_nil]
      rfl
  | flush number =>
      refine ⟨.listening, view.commands, [(number, result)], rfl, .inl rfl, .inl rfl, ?_⟩
      intro request hmem
      cases List.mem_singleton.mp hmem
      exact ⟨rfl, rfl⟩
  | shutdown number =>
      refine ⟨.finished, _, [(number, result)] ++ refusals view, ?_, .inr rfl, .inr rfl, ?_⟩
      · rw [← List.append_assoc]
        rfl
      · intro request hmem
        rcases List.mem_append.mp hmem with hanswer | hrefused
        · cases List.mem_singleton.mp hanswer
          exact ⟨rfl, rfl⟩
        · exact absurd hrefused (ok_not_refused view request)
  | leaving =>
      refine ⟨.finished, _, refusals view, rfl, .inr rfl, .inr rfl, ?_⟩
      intro request hmem
      exact absurd hmem (ok_not_refused view request)

@[simp]
theorem conclude_checkpoint (actor : Checkpointer) (view : View) (purpose : Purpose)
    (result : Except Failure Unit) :
    (conclude actor view purpose result).1.checkpoint = actor.checkpoint := by
  cases purpose <;> rfl

@[simp]
theorem conclude_dirty (actor : Checkpointer) (view : View) (purpose : Purpose)
    (result : Except Failure Unit) :
    (conclude actor view purpose result).1.dirty = actor.dirty := by
  cases purpose <;> rfl

@[simp]
theorem conclude_blobs (actor : Checkpointer) (view : View) (purpose : Purpose)
    (result : Except Failure Unit) :
    (conclude actor view purpose result).2.blobs = view.blobs := by
  cases purpose <;> rfl

@[simp]
theorem conclude_document (rules : Rules) (actor : Checkpointer) (view : View) (purpose : Purpose)
    (result : Except Failure Unit) :
    (conclude actor view purpose result).2.document rules = view.document rules := by
  rw [View.document, conclude_blobs, View.document]

/-- A success in the end is for the request that made the keeper store the checkpoint. -/
theorem conclude_answers {purpose : Purpose} {result : Except Failure Unit} {answers : Replies}
    (h : (conclude actor view purpose result).2.replies = view.replies ++ answers) {request : Nat}
    (hmem : (request, .ok ()) ∈ answers) : purpose.request? = some request ∧ result = .ok () := by
  obtain ⟨_, _, given, hconclude, -, -, hgiven⟩ := conclude_spec actor view purpose result
  rw [hconclude] at h
  obtain rfl := List.append_cancel_left h
  exact hgiven request hmem

end Checkpointer

end WindowJoin
