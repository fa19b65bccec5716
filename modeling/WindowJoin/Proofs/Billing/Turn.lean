import WindowJoin.Billing.Machine
import WindowJoin.Proofs.Checkpoint.RoundTrip
import WindowJoin.Proofs.Storage.Faithful

/-!
# The turns of billing

`BillingRun.Turn` lists what running billing can do in one transition and under which condition, and
names each turn by what it does (`BillingRun.Deed`); `BillingRun.mem_transitions` says that billing does
this and nothing else. An attempt to store the checkpoint leaves that of the account in the store, or
what was there before (`BillingRun.stored_of_write`, `BillingRun.stored_of_failure`).
-/

namespace WindowJoin

/-- A report that goes through is added to the reports, and none was to fail. -/
theorem UsageReporter.report_ok {reporter after : UsageReporter} {events : Nat}
    (h : reporter.report events = (.ok (), after)) :
    reporter.failures = [] ∧ after = { reporter with reports := reporter.reports ++ [events] } := by
  unfold report at h
  split at h
  · cases h
  next hnone =>
    cases h
    exact ⟨hnone, rfl⟩

namespace BillingRun

/-- The checkpoint that is stored. -/
def Rules.stored (rules : Rules) (blobs : Guarded MemoryBlobs) : BillingCheckpoint :=
  CheckpointStore.checkpointIn BillingCheckpoint.ofJson (blobs.store.get? rules.blobName)

theorem Rules.stored_congr (rules : Rules) {blobs others : Guarded MemoryBlobs}
    (h : blobs.store.get? rules.blobName = others.store.get? rules.blobName) :
    rules.stored blobs = rules.stored others := by
  rw [stored, h, stored]

/-- Writes the checkpoint of the account into its document, or fails. -/
def write (rules : Rules) (run : BillingRun) (view : View) :
    Except StorageError Unit × Guarded MemoryBlobs :=
  (Guarded.access MemoryBlobs.access).write rules.blobName run.account.checkpoint.toJson view.blobs

/-- What billing does in one transition. -/
inductive Deed where
  | take (records : List BillingRecord)
  /-- The input is found to be closed. -/
  | close
  | cancel
  | store
  /-- An attempt to store the checkpoint has failed, and another one follows. -/
  | retry
  /-- The last attempt to store the checkpoint has failed, and the report waits. -/
  | defer
  | report (events : Nat)
  /-- The report has failed. -/
  | fail
  deriving DecidableEq, Repr

/-- What billing does in one transition, and what comes of it. -/
inductive Turn (rules : Rules) (run : BillingRun) (view : View) :
    Deed → BillingRun × View → Prop where
  | take {records : List BillingRecord} {input : Channel (List BillingRecord)} :
      run.control = .listening → view.input.receive = .item records input →
      Turn rules run view (.take records) (run.take rules view.now records, { view with input })
  | close : run.control = .listening → view.input.receive = .ended →
      Turn rules run view .close (finish run view (.ok ()))
  | cancel : run.control = .listening → view.cancelled = true →
      Turn rules run view .cancel (finish run view (.ok ()))
  | store {attempts : Attempts} {time : Nat} :
      run.control = .storing attempts time → time ≤ view.now →
      (write rules run view).1 = .ok () →
      Turn rules run view .store
        ({ run with control := .reporting }, { view with blobs := (write rules run view).2 })
  | retry {attempts later : Attempts} {delay : Duration} {time : Nat} {error : StorageError} :
      run.control = .storing attempts time → time ≤ view.now →
      (write rules run view).1 = .error error →
      attempts.judge (write rules run view).1 = .again delay later →
      Turn rules run view .retry
        ({ run with control := .storing later (delay.pauseEnd view.now) },
          { view with blobs := (write rules run view).2 })
  | defer {attempts : Attempts} {time : Nat} {error : StorageError} :
      run.control = .storing attempts time → time ≤ view.now →
      (write rules run view).1 = .error error →
      attempts.judge (write rules run view).1 = .done (.error error) →
      Turn rules run view .defer
        ({ run with control := .listening }, { view with blobs := (write rules run view).2 })
  | report {reporter : UsageReporter} : run.control = .reporting →
      view.reporter.report run.account.accumulated = (.ok (), reporter) →
      Turn rules run view (.report run.account.accumulated)
        (⟨{ run.account with accumulated := 0 }, .listening⟩, { view with reporter })
  | fail {failure : Failure} {reporter : UsageReporter} : run.control = .reporting →
      view.reporter.report run.account.accumulated = (.error failure, reporter) →
      Turn rules run view .fail (finish run { view with reporter } (.error failure))

variable {rules : Rules} {run : BillingRun} {view : View} {next : BillingRun × View} {deed : Deed}

/-! ## The transitions are the turns -/

/-- What an attempt to store the checkpoint comes to, by the verdict on what is written. -/
theorem storing_transitions {attempts : Attempts} {time : Nat}
    (hcontrol : run.control = .storing attempts time) (hdue : time ≤ view.now) :
    transitions rules run view = [({ run with
      control := match attempts.judge (write rules run view).1 with
        | .again delay attempts => .storing attempts (delay.pauseEnd view.now)
        | .done (.ok ()) => .reporting
        | .done (.error _) => .listening },
      { view with blobs := (write rules run view).2 })] := by
  rw [transitions, hcontrol]
  exact if_pos hdue

/-- Every transition of billing is a turn. -/
theorem transitions_turn (h : next ∈ transitions rules run view) :
    ∃ deed, Turn rules run view deed next := by
  cases hcontrol : run.control with
  | listening =>
      rw [transitions, hcontrol] at h
      rcases List.mem_append.mp h with hcancel | hinput
      · split at hcancel
        next hcancelled =>
          obtain rfl := List.mem_singleton.mp hcancel
          exact ⟨_, .cancel hcontrol hcancelled⟩
        next => cases hcancel
      · split at hinput
        next hreceive =>
          obtain rfl := List.mem_singleton.mp hinput
          exact ⟨_, .take hcontrol hreceive⟩
        next hreceive =>
          obtain rfl := List.mem_singleton.mp hinput
          exact ⟨_, .close hcontrol hreceive⟩
        next => cases hinput
  | storing attempts time =>
      by_cases hdue : time ≤ view.now
      · rw [storing_transitions hcontrol hdue, List.mem_singleton] at h
        subst h
        rcases attempts.judge_cases (write rules run view).1 with
          hdone | ⟨error, delay, later, herror, hagain⟩
        · cases hresult : (write rules run view).1 with
          | ok =>
              rw [hresult] at hdone
              rw [hdone]
              exact ⟨_, .store hcontrol hdue hresult⟩
          | error error =>
              have hdefer := Turn.defer hcontrol hdue hresult (hresult ▸ hdone)
              rw [hresult] at hdone
              rw [hdone]
              exact ⟨_, hdefer⟩
        · have hretry := Turn.retry hcontrol hdue herror hagain
          rw [hagain]
          exact ⟨_, hretry⟩
      · rw [transitions, hcontrol] at h
        simp [hdue] at h
  | reporting =>
      rw [transitions, hcontrol] at h
      dsimp only [BillingAccount.report] at h
      cases hreport : view.reporter.report run.account.accumulated with
      | mk result reporter =>
          rw [hreport] at h
          cases result with
          | ok =>
              obtain rfl := List.mem_singleton.mp h
              exact ⟨_, .report hcontrol hreport⟩
          | error failure =>
              obtain rfl := List.mem_singleton.mp h
              exact ⟨_, .fail hcontrol hreport⟩
  | finished result =>
      rw [transitions, hcontrol] at h
      cases h

/-- Every turn of billing is a transition. -/
theorem Turn.mem_transitions (h : Turn rules run view deed next) :
    next ∈ transitions rules run view := by
  cases h with
  | take hcontrol hreceive => simp [transitions, hcontrol, hreceive]
  | close hcontrol hreceive => simp [transitions, hcontrol, hreceive]
  | cancel hcontrol hcancelled => simp [transitions, hcontrol, hcancelled]
  | store hcontrol hdue hwritten =>
      rw [storing_transitions hcontrol hdue, hwritten]
      exact List.mem_singleton_self _
  | retry hcontrol hdue herror hagain =>
      rw [storing_transitions hcontrol hdue, hagain]
      exact List.mem_singleton_self _
  | defer hcontrol hdue herror hdone =>
      rw [storing_transitions hcontrol hdue, hdone]
      exact List.mem_singleton_self _
  | report hcontrol hreport => simp [transitions, hcontrol, BillingAccount.report, hreport]
  | fail hcontrol hreport => simp [transitions, hcontrol, BillingAccount.report, hreport, finish]

/-- The transitions of billing are its turns. -/
theorem mem_transitions : next ∈ transitions rules run view ↔ ∃ deed, Turn rules run view deed next :=
  ⟨transitions_turn, fun ⟨_, hturn⟩ => hturn.mem_transitions⟩

/-- A run that has ended does nothing more. -/
theorem Turn.working (h : Turn rules run view deed next) : run.isFinished = false := by
  cases h with
  | take hcontrol | close hcontrol | cancel hcontrol | store hcontrol | retry hcontrol
  | defer hcontrol | report hcontrol | fail hcontrol => rw [isFinished, hcontrol]

/-- Once the sender has gone, billing waits only for the time of the next attempt to store. -/
theorem ended_or_pauses (hgone : view.input.senderOpen = false)
    (hstuck : transitions rules run view = []) :
    run.isFinished = true ∨ ∃ attempts time, run.control = .storing attempts time ∧
      view.now < time := by
  cases hcontrol : run.control with
  | listening =>
      rw [transitions, hcontrol] at hstuck
      obtain ⟨-, hinput⟩ := List.append_eq_nil_iff.mp hstuck
      split at hinput
      · cases hinput
      · cases hinput
      next hempty =>
        simp only [Channel.receive, hgone] at hempty
        split at hempty <;> cases hempty
  | storing attempts time =>
      refine .inr ⟨attempts, time, rfl, Nat.lt_of_not_le fun hdue => ?_⟩
      rw [storing_transitions hcontrol hdue] at hstuck
      cases hstuck
  | reporting =>
      rw [transitions, hcontrol] at hstuck
      dsimp only at hstuck
      split at hstuck <;> cases hstuck
  | finished result => exact .inl (by rw [isFinished, hcontrol])

/-! ## What storing does -/

/-- A checkpoint that has been written is the stored one. -/
theorem stored_of_write (h : (write rules run view).1 = .ok ()) :
    rules.stored (write rules run view).2 = run.account.checkpoint := by
  have hsets := (MemoryBlobs.access_faithful rules.blobName).guarded.write_sets h
  rw [write, Rules.stored, hsets, CheckpointStore.checkpointIn, billing_of_json_to_json]

/-- A failure to write leaves the stored checkpoint as it was. -/
theorem stored_of_failure {error : StorageError} (h : (write rules run view).1 = .error error) :
    rules.stored (write rules run view).2 = rules.stored view.blobs :=
  rules.stored_congr ((MemoryBlobs.access_faithful rules.blobName).guarded.write_fails h)

/-- Other documents are left alone. -/
theorem write_leaves {name : String} (hname : name ≠ rules.blobName) :
    (write rules run view).2.store.get? name = view.blobs.store.get? name :=
  MemoryBlobs.access_is_map.guarded.write_leaves hname _ view.blobs

end BillingRun

end WindowJoin
