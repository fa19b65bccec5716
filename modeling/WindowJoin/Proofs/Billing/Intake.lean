import WindowJoin.Proofs.Billing.History
import WindowJoin.Proofs.Billing.Turn
import WindowJoin.Proofs.Conservation

/-!
# What running billing has taken in

Running billing takes lists of records from its channel and counts each record that its checkpoint
does not cover yet. `BillingRun.Accounts` relates its account to all the records that it has taken so
far: each record that was accepted is covered by the checkpoint in the store, or it is still counted
(`BillingRun.step_accounts`). A record that comes behind smaller numbers of its partition is always
accepted (`BillingAccount.mem_accepted`), so every such record is accounted for
(`BillingRun.Accounts.accounted`).
-/

namespace WindowJoin

namespace BillingAccount

/-- Whether a record is counted depends on the checkpoint only, and so does the next checkpoint. -/
theorem count_checkpoint (account : BillingAccount) (record : BillingRecord) :
    (account.count record).checkpoint =
      (account.checkpoint.tryAdvance record.partition record.sequenceNumber).getD
        account.checkpoint := by
  unfold count
  cases account.checkpoint.tryAdvance record.partition record.sequenceNumber with
  | none => rfl
  | some checkpoint => rfl

/-- Accounts with the same checkpoint accept the same records. -/
theorem accepted_congr {first second : BillingAccount}
    (h : first.checkpoint = second.checkpoint) (records : List BillingRecord) :
    first.accepted records = second.accepted records ∧
      (first.accumulate records).checkpoint = (second.accumulate records).checkpoint := by
  induction records generalizing first second with
  | nil => exact ⟨rfl, h⟩
  | cons record rest ih =>
      have hcount : (first.count record).checkpoint = (second.count record).checkpoint := by
        rw [count_checkpoint, count_checkpoint, h]
      obtain ⟨haccepted, hcheckpoint⟩ := ih hcount
      refine ⟨?_, hcheckpoint⟩
      simp only [accepted, h, haccepted]

theorem accumulate_append (account : BillingAccount) (first second : List BillingRecord) :
    account.accumulate (first ++ second) = (account.accumulate first).accumulate second :=
  List.foldl_append

theorem accepted_append (account : BillingAccount) (first second : List BillingRecord) :
    account.accepted (first ++ second) =
      account.accepted first ++ (account.accumulate first).accepted second := by
  induction first generalizing account with
  | nil => rfl
  | cons record rest ih =>
      have hrest := ih (account.count record)
      simp only [List.cons_append, accepted]
      split
      · rw [hrest]
        rfl
      · rw [hrest]
        rfl

/-- A record is accepted if its number is above that of the checkpoint and above those of its partition
that come before. -/
theorem mem_accepted {account : BillingAccount} {record : BillingRecord}
    (hnew : account.checkpoint.lastBilled record.partition < record.sequenceNumber)
    {before : List BillingRecord} (hbefore : ∀ other ∈ before,
      other.partition = record.partition → other.sequenceNumber < record.sequenceNumber)
    (after : List BillingRecord) : record ∈ account.accepted (before ++ record :: after) := by
  induction before generalizing account with
  | nil =>
      rw [List.nil_append, accepted, BillingCheckpoint.tryAdvance, if_pos hnew]
      exact List.mem_cons_self
  | cons other rest ih =>
      have hcounted : (account.count other).checkpoint.lastBilled record.partition <
          record.sequenceNumber := by
        rw [count_checkpoint, BillingCheckpoint.tryAdvance]
        split
        · rw [Option.getD_some, BillingCheckpoint.lastBilled, OrderedMap.get_insert]
          split
          next hsame => exact hbefore other List.mem_cons_self hsame.symm
          next => exact hnew
        · exact hnew
      have hrest := ih hcounted fun later hlater => hbefore later (List.mem_cons_of_mem _ hlater)
      simp only [List.cons_append, accepted]
      split
      · exact List.mem_cons_of_mem _ hrest
      · exact hrest

end BillingAccount

namespace BillingRun

/-- How a run that started without a checkpoint stands to the stored one, to the records that it has
taken in, and to those of them that are counted and not reported. -/
structure Accounts (run : BillingRun) (stored : BillingCheckpoint)
    (taken counted : List BillingRecord) : Prop where
  checkpoint : run.account.checkpoint =
    ((BillingAccount.ofCheckpoint .empty).accumulate taken).checkpoint
  amount : run.account.accumulated = totalEvents counted
  entered : ∀ record ∈ (BillingAccount.ofCheckpoint .empty).accepted taken,
    stored.Covers record ∨ record ∈ counted
  reporting : run.control = .reporting → stored = run.account.checkpoint

variable {rules : Rules} {run : BillingRun} {view : View} {next : BillingRun × View}
  {stored : BillingCheckpoint} {taken counted : List BillingRecord}

theorem start_accounts (stored : BillingCheckpoint) :
    (start (.ofCheckpoint .empty)).Accounts stored [] [] where
  checkpoint := rfl
  amount := rfl
  entered := by simp [BillingAccount.accepted]
  reporting hreporting := by cases hreporting

/-- A record that comes behind smaller numbers of its partition is covered by the stored checkpoint or
still counted. -/
theorem Accounts.accounted (h : run.Accounts stored taken counted) {record : BillingRecord}
    {before after : List BillingRecord} (htaken : taken = before ++ record :: after)
    (hnumber : -1 < record.sequenceNumber) (hbefore : ∀ other ∈ before,
      other.partition = record.partition → other.sequenceNumber < record.sequenceNumber) :
    stored.Covers record ∨ record ∈ counted := by
  have hfresh : BillingCheckpoint.lastBilled .empty record.partition = -1 := rfl
  refine h.entered record ?_
  rw [htaken]
  refine BillingAccount.mem_accepted ?_ hbefore after
  rw [BillingAccount.ofCheckpoint, hfresh]
  exact hnumber

/-- A change of the control leaves the accounts alone, unless a report is now due. -/
theorem Accounts.goes_on (h : run.Accounts stored taken counted) {control : Control}
    (hcontrol : control ≠ .reporting) : Accounts { run with control } stored taken counted :=
  { h with reporting := fun hreporting => absurd hreporting hcontrol }

/-- The records that are accepted of a list are counted. -/
theorem Accounts.take (h : run.Accounts stored taken counted) (rules : Rules) (now : Nat)
    (records : List BillingRecord) : (run.take rules now records).Accounts stored (taken ++ records)
      (counted ++ run.account.accepted records) := by
  obtain ⟨haccepted, hcheckpoint⟩ := BillingAccount.accepted_congr h.checkpoint records
  obtain ⟨-, hamount, -⟩ := run.account.accumulate_accepted records
  refine ⟨?_, ?_, ?_, ?_⟩
  · rw [BillingAccount.accumulate_append]
    exact hcheckpoint
  · show (run.account.accumulate records).accumulated = _
    rw [hamount, h.amount, total_events_append]
  · intro record hrecord
    rw [BillingAccount.accepted_append, List.mem_append, ← haccepted] at hrecord
    rcases hrecord with hrecord | hrecord
    · exact (h.entered record hrecord).imp_right (List.mem_append_left _)
    · exact .inr (List.mem_append_right _ hrecord)
  · intro hreporting
    unfold BillingRun.take at hreporting
    dsimp only at hreporting
    split at hreporting
    · cases hreporting
    · cases hreporting

/-- The checkpoint of the account covers every record that has been accepted. -/
theorem Accounts.covers (h : run.Accounts stored taken counted) :
    ∀ record ∈ (BillingAccount.ofCheckpoint .empty).accepted taken,
      run.account.checkpoint.Covers record := by
  intro record hrecord
  obtain ⟨-, -, hcovered, -⟩ :=
    (BillingAccount.ofCheckpoint .empty).accumulate_accepted taken
  rw [h.checkpoint]
  exact (hcovered record hrecord).2

/-- Once the checkpoint has been stored, a report is due. -/
theorem Accounts.store (h : run.Accounts stored taken counted) :
    Accounts { run with control := .reporting } run.account.checkpoint taken counted where
  checkpoint := h.checkpoint
  amount := h.amount
  entered record hrecord := .inl (h.covers record hrecord)
  reporting _ := rfl

/-- Once the count has been reported, nothing is counted any more. -/
theorem Accounts.report (h : run.Accounts stored taken counted)
    (hreporting : run.control = .reporting) :
    Accounts ⟨{ run.account with accumulated := 0 }, .listening⟩ stored taken [] where
  checkpoint := h.checkpoint
  amount := rfl
  entered record hrecord := .inl (h.reporting hreporting ▸ h.covers record hrecord)
  reporting := nofun

/-- What a step of billing comes to, with the lists that are taken in and what is counted then. The
documents of others are left alone. -/
structure Intake (rules : Rules) (view : View) (next : BillingRun × View)
    (taken : List BillingRecord) (units : List (List BillingRecord)) (counted : List BillingRecord) :
    Prop where
  accounts : next.1.Accounts (rules.stored next.2.blobs) (taken ++ units.flatten) counted
  passes : ∀ handed before, view.input.Passes handed before →
    next.2.input.Passes handed (before ++ units)
  listens : next.1.isFinished = false → next.2.input.receiverOpen = view.input.receiverOpen
  leaves : ∀ name, name ≠ rules.blobName →
    next.2.blobs.store.get? name = view.blobs.store.get? name

theorem Accounts.finish (view : View)
    (h : run.Accounts (rules.stored view.blobs) taken counted) (result : Except Failure Unit) :
    Intake rules view (BillingRun.finish run view result) taken [] counted where
  accounts := by
    rw [List.flatten_nil, List.append_nil]
    exact h.goes_on nofun
  passes handed before hpasses := by
    rw [List.append_nil]
    exact hpasses.drop_receiver
  listens := nofun
  leaves _ _ := rfl

/-- A step that leaves the channel alone takes nothing in. -/
theorem Accounts.takes_nothing (h : next.1.Accounts (rules.stored next.2.blobs) taken counted)
    (hinput : next.2.input = view.input) (hleaves : ∀ name, name ≠ rules.blobName →
      next.2.blobs.store.get? name = view.blobs.store.get? name) :
    Intake rules view next taken [] counted where
  accounts := by
    rw [List.flatten_nil, List.append_nil]
    exact h
  passes handed before hpasses := by
    rw [List.append_nil, hinput]
    exact hpasses
  listens _ := by rw [hinput]
  leaves := hleaves

/-- Every step of billing keeps the accounts, with what it takes in from its channel. -/
theorem step_accounts (h : run.Accounts (rules.stored view.blobs) taken counted)
    (hnext : next ∈ transitions rules run view) :
    ∃ units counted, Intake rules view next taken units counted := by
  obtain ⟨deed, hturn⟩ := transitions_turn hnext
  cases hturn with
  | @take records input hcontrol hreceive =>
      refine ⟨[records], counted ++ run.account.accepted records, ?_,
        fun handed before hpasses => hpasses.receive hreceive, ?_, fun _ _ => rfl⟩
      · rw [List.flatten_singleton]
        exact h.take rules view.now records
      · intro _
        rw [(Channel.receive_eq hreceive).2]
  | close | cancel => exact ⟨_, _, h.finish view _⟩
  | store hcontrol hdue hwritten =>
      refine ⟨[], counted, Accounts.takes_nothing ?_ rfl fun name hname => write_leaves hname⟩
      rw [stored_of_write hwritten]
      exact h.store
  | retry hcontrol hdue herror | defer hcontrol hdue herror =>
      refine ⟨[], counted, Accounts.takes_nothing ?_ rfl fun name hname => write_leaves hname⟩
      rw [stored_of_failure herror]
      exact h.goes_on nofun
  | report hcontrol => exact ⟨_, _, (h.report hcontrol).takes_nothing rfl fun _ _ => rfl⟩
  | @fail failure reporter hcontrol =>
      have hfinish := h.finish { view with reporter } (.error failure)
      exact ⟨_, _, { hfinish with }⟩

end BillingRun

end WindowJoin
