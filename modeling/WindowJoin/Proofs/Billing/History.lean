import Mathlib.Algebra.GroupWithZero.Nat
import WindowJoin.Billing.Account
import WindowJoin.Proofs.Checkpoint.RoundTrip
import WindowJoin.Proofs.Storage.Faithful

/-!
# Billing across crashes

A history of billing is any number of runs over one store, each of which goes on from the checkpoint
in the blob, counts records and settles, and may crash between any two steps, also after the
checkpoint has been stored and before the count is reported. `Settled` is what holds in every history
(`reachable_settled`): reported records are covered by the stored checkpoint, this is at or behind the
checkpoint of the account, and the account counts what it has accepted and not reported. So no record
is reported twice, and a settlement that goes through leaves nothing that was accepted unreported
(`billed_once_and_settled`).
-/

namespace WindowJoin

/-- What tells a record from others: its partition and its sequence number. -/
def BillingRecord.key (record : BillingRecord) : String × Int64 :=
  (record.partition, record.sequenceNumber)

/-- The events of records. -/
def totalEvents (records : List BillingRecord) : Nat :=
  (records.map (·.eventCount)).sum

theorem total_events_append (first second : List BillingRecord) :
    totalEvents (first ++ second) = totalEvents first + totalEvents second := by
  rw [totalEvents, List.map_append, List.sum_append]
  rfl

namespace BillingCheckpoint

/-- The checkpoint has come to a record or past it. -/
def Covers (checkpoint : BillingCheckpoint) (record : BillingRecord) : Prop :=
  record.sequenceNumber ≤ checkpoint.lastBilled record.partition

/-- Every partition has come at least as far in one checkpoint as in another. -/
def AtOrBehind (first second : BillingCheckpoint) : Prop :=
  ∀ partition, first.lastBilled partition ≤ second.lastBilled partition

theorem AtOrBehind.refl (checkpoint : BillingCheckpoint) : checkpoint.AtOrBehind checkpoint :=
  fun _ => Int64.le_refl _

theorem AtOrBehind.trans {first second third : BillingCheckpoint} (h : first.AtOrBehind second)
    (h' : second.AtOrBehind third) : first.AtOrBehind third :=
  fun partition => Int64.le_trans (h partition) (h' partition)

theorem AtOrBehind.covers {first second : BillingCheckpoint} {record : BillingRecord}
    (h : first.AtOrBehind second) (hcovers : first.Covers record) : second.Covers record :=
  Int64.le_trans hcovers (h record.partition)

/-- An advance is refused to records that are covered, and moves up to the others. -/
theorem try_advance_cases (checkpoint : BillingCheckpoint) (record : BillingRecord) :
    (checkpoint.Covers record ∧
        checkpoint.tryAdvance record.partition record.sequenceNumber = none) ∨
      ∃ next, ¬ checkpoint.Covers record ∧ next.Covers record ∧ checkpoint.AtOrBehind next ∧
        checkpoint.tryAdvance record.partition record.sequenceNumber = some next := by
  rw [tryAdvance]
  by_cases hlt : checkpoint.lastBilled record.partition < record.sequenceNumber
  · refine .inr ⟨checkpoint.insert record.partition record.sequenceNumber,
      fun hcovers => Int64.lt_irrefl (Int64.lt_of_le_of_lt hcovers hlt), ?_, ?_, if_pos hlt⟩
    · rw [Covers, lastBilled, OrderedMap.get_insert, if_pos rfl]
      exact Int64.le_refl _
    · intro partition
      rw [lastBilled, lastBilled, OrderedMap.get_insert]
      split
      next heq =>
        subst heq
        exact Int64.le_of_lt hlt
      next => exact Int64.le_refl _
  · exact .inl ⟨Int64.not_lt.mp hlt, if_neg hlt⟩

end BillingCheckpoint

namespace BillingAccount

/-- The records that an account accepts of these: those that its checkpoint does not cover yet. -/
def accepted (account : BillingAccount) : List BillingRecord → List BillingRecord
  | [] => []
  | record :: rest =>
    match account.checkpoint.tryAdvance record.partition record.sequenceNumber with
    | some _ => record :: (account.count record).accepted rest
    | none => (account.count record).accepted rest

/-- Counting records moves the checkpoint up to those that are accepted, which it did not cover before,
and adds their events to the count. -/
theorem accumulate_accepted (account : BillingAccount) (records : List BillingRecord) :
    account.checkpoint.AtOrBehind (account.accumulate records).checkpoint ∧
      (account.accumulate records).accumulated =
        account.accumulated + totalEvents (account.accepted records) ∧
      (∀ record ∈ account.accepted records, ¬ account.checkpoint.Covers record ∧
        (account.accumulate records).checkpoint.Covers record) ∧
      ((account.accepted records).map BillingRecord.key).Nodup := by
  induction records generalizing account with
  | nil => exact ⟨.refl _, rfl, by simp [accepted], .nil⟩
  | cons record rest ih =>
      have hfold : account.accumulate (record :: rest) =
          (account.count record).accumulate rest := rfl
      obtain ⟨hbehind, htotal, hnew, hdistinct⟩ := ih (account.count record)
      rw [hfold]
      rcases account.checkpoint.try_advance_cases record with
        ⟨-, hrefused⟩ | ⟨next, huncovered, hcovered, hnext, hadvanced⟩
      · have hcount : account.count record = account := by simp only [count, hrefused]
        rw [hcount] at hbehind htotal hnew hdistinct ⊢
        simp only [accepted, hrefused, hcount]
        exact ⟨hbehind, htotal, hnew, hdistinct⟩
      · have hcount : account.count record = ⟨next, account.accumulated + record.eventCount⟩ := by
          simp only [count, hadvanced]
        have haccepted : account.accepted (record :: rest) =
            record :: (account.count record).accepted rest := by
          simp only [accepted, hadvanced]
        have hcheckpoint : (account.count record).checkpoint = next := by rw [hcount]
        rw [hcheckpoint] at hbehind hnew
        rw [haccepted]
        refine ⟨hnext.trans hbehind, ?_, ?_, ?_⟩
        · rw [htotal, hcount, totalEvents, totalEvents, List.map_cons, List.sum_cons, Nat.add_assoc]
        · intro other hother
          rcases List.mem_cons.mp hother with rfl | hother
          · exact ⟨huncovered, hbehind.covers hcovered⟩
          · obtain ⟨hnot, hcovers⟩ := hnew other hother
            exact ⟨fun hold => hnot (hnext.covers hold), hcovers⟩
        · -- A later record with the key of this one would be covered by now.
          refine List.nodup_cons.mpr ⟨?_, hdistinct⟩
          intro hmem
          obtain ⟨other, hother, hkey⟩ := List.mem_map.mp hmem
          obtain ⟨hpartition, hnumber⟩ := Prod.mk.inj hkey
          refine (hnew other hother).1 ?_
          rw [BillingCheckpoint.Covers, hpartition, hnumber]
          exact hcovered

variable {σ : Type}

/-- A settlement has nothing to report, or cannot store the checkpoint, or stores it and cannot
report, or stores it and reports the count. -/
theorem settle_cases (settings : CheckpointStore) (access : BlobAccess σ) (name : String)
    (account : BillingAccount) (store : σ) (reporter : UsageReporter) :
    let saved := settings.saveBilling access name account.checkpoint store
    let settled := account.settle settings access name store reporter
    (account.accumulated = 0 ∧ settled.account = account ∧ settled.store = store ∧
        settled.reporter = reporter) ∨
      (account.accumulated ≠ 0 ∧ settled.account = account ∧ settled.store = saved.store ∧
        (saved.result ≠ .ok () ∨ (account.report reporter).1 ≠ .ok ()) ∧
        settled.reporter.reports = reporter.reports) ∨
      (account.accumulated ≠ 0 ∧ settled.account = { account with accumulated := 0 } ∧
        settled.store = saved.store ∧ saved.result = .ok () ∧
        settled.reporter.reports = reporter.reports ++ [account.accumulated]) := by
  intro saved settled
  by_cases hzero : account.accumulated = 0
  · left
    simp [settled, settle, hzero]
  · right
    cases hsaved : saved.result with
    | error error =>
        left
        have hresult : (settings.saveBilling access name account.checkpoint store).result =
            .error error := hsaved
        simp [settled, settle, hzero, hresult, saved]
    | ok =>
        have hresult : (settings.saveBilling access name account.checkpoint store).result =
            .ok () := hsaved
        cases hfailures : reporter.failures with
        | cons failure later =>
            left
            simp [settled, settle, hzero, hresult, saved, report, UsageReporter.report, hfailures]
        | nil =>
            right
            simp [settled, settle, hzero, hresult, saved, report, UsageReporter.report, hfailures]

end BillingAccount

namespace Billing

/-- Runs of billing over one store, and what is known of them. -/
structure History (σ : Type) where
  store : σ
  reporter : UsageReporter
  /-- The account of the present run, if there is one. -/
  run : Option BillingAccount
  /-- The records that the present run has accepted. -/
  accepted : List BillingRecord
  /-- Those of them that have not been reported yet. -/
  counted : List BillingRecord
  /-- The records in each report that went through, of all runs. -/
  included : List (List BillingRecord)
  /-- The number of reports before the present run. -/
  earlier : Nat

variable {σ : Type}

/-- The checkpoint from which the next run goes on. -/
def History.stored (blob : σ → Option (List UInt8)) (history : History σ) : BillingCheckpoint :=
  CheckpointStore.checkpointIn BillingCheckpoint.ofJson (blob history.store)

/-- The history after the account of the present run has been settled. If a report went through, it
includes what was counted. -/
def History.settle (settings : CheckpointStore) (access : BlobAccess σ) (name : String)
    (history : History σ) (account : BillingAccount) : History σ :=
  let settled := account.settle settings access name history.store history.reporter
  let after := { history with
    store := settled.store, reporter := settled.reporter, run := some settled.account }
  if settled.reporter.reports = history.reporter.reports then after
  else { after with counted := [], included := history.included ++ [history.counted] }

/-- One step of a history. -/
inductive Step (settings : CheckpointStore) (access : BlobAccess σ) (name : String)
    (blob : σ → Option (List UInt8)) : History σ → History σ → Prop where
  /-- A run starts with the checkpoint that it reads. -/
  | resume {history : History σ} {checkpoint : BillingCheckpoint} :
      history.run = none →
      (settings.loadBilling access name history.store).result = .ok checkpoint →
      Step settings access name blob history { history with
        store := (settings.loadBilling access name history.store).store
        run := some (.ofCheckpoint checkpoint)
        accepted := []
        counted := []
        earlier := history.reporter.reports.length }
  | accumulate {history : History σ} {account : BillingAccount} (records : List BillingRecord) :
      history.run = some account →
      Step settings access name blob history { history with
        run := some (account.accumulate records)
        accepted := history.accepted ++ account.accepted records
        counted := history.counted ++ account.accepted records }
  | settle {history : History σ} {account : BillingAccount} :
      history.run = some account →
      Step settings access name blob history (history.settle settings access name account)
  | crash (history : History σ) :
      Step settings access name blob history { history with run := none }
  /-- A crash within a settlement, after the checkpoint has been stored. -/
  | crashUnreported {history : History σ} {account : BillingAccount} :
      history.run = some account → account.accumulated ≠ 0 →
      Step settings access name blob history { history with
        store := (settings.saveBilling access name account.checkpoint history.store).store
        run := none }
  /-- The store changes apart from the blob, and other reports are going to fail. -/
  | outside {history : History σ} (store : σ) (failures : List Failure) :
      blob store = blob history.store →
      Step settings access name blob history { history with
        store, reporter := { history.reporter with failures } }

/-- The histories that start before the first run and go on step by step. -/
inductive Reachable (settings : CheckpointStore) (access : BlobAccess σ) (name : String)
    (blob : σ → Option (List UInt8)) : History σ → Prop where
  | start (store : σ) (failures : List Failure) :
      Reachable settings access name blob ⟨store, ⟨[], failures⟩, none, [], [], [], 0⟩
  | step {history next : History σ} : Reachable settings access name blob history →
      Step settings access name blob history next → Reachable settings access name blob next

/-- What the account of a run has to do with the history. -/
structure Balanced (blob : σ → Option (List UInt8)) (history : History σ)
    (account : BillingAccount) : Prop where
  stored_behind : (history.stored blob).AtOrBehind account.checkpoint
  covered : ∀ record ∈ history.counted, account.checkpoint.Covers record
  counted : account.accumulated = totalEvents history.counted
  accepted : totalEvents history.accepted =
    (history.reporter.reports.drop history.earlier).sum + account.accumulated

/-- What holds in every history. -/
structure Settled (blob : σ → Option (List UInt8)) (history : History σ) : Prop where
  covered : ∀ record ∈ history.included.flatten, (history.stored blob).Covers record
  distinct : ((history.included.flatten ++ history.counted).map BillingRecord.key).Nodup
  amounts : history.reporter.reports = history.included.map totalEvents
  earlier_le : history.earlier ≤ history.reporter.reports.length
  balanced : ∀ account, history.run = some account → Balanced blob history account

variable {settings : CheckpointStore} {access : BlobAccess σ} {name : String}
  {blob : σ → Option (List UInt8)} {history : History σ} {account : BillingAccount}

theorem stored_congr (history next : History σ) (hblob : blob next.store = blob history.store) :
    next.stored blob = history.stored blob := by
  rw [History.stored, hblob, History.stored]

/-- A checkpoint that has been stored is the one from which the next run goes on. -/
theorem stored_of_saved (h : access.Faithful name blob) {checkpoint : BillingCheckpoint} {store : σ}
    (hsaved : (settings.saveBilling access name checkpoint store).result = .ok ()) :
    CheckpointStore.checkpointIn BillingCheckpoint.ofJson
      (blob (settings.saveBilling access name checkpoint store).store) = checkpoint := by
  have hblob := CheckpointStore.save_sets h.writes_whole settings hsaved
  rw [CheckpointStore.saveBilling, hblob, CheckpointStore.checkpointIn, billing_of_json_to_json]

/-- An attempt to store the checkpoint of the account keeps the stored one between what it was and that
of the account. -/
theorem stored_after_save (settings : CheckpointStore) (h : access.Faithful name blob)
    (hbalanced : Balanced blob history account) :
    let stored : BillingCheckpoint := CheckpointStore.checkpointIn BillingCheckpoint.ofJson
      (blob (settings.saveBilling access name account.checkpoint history.store).store)
    (history.stored blob).AtOrBehind stored ∧ stored.AtOrBehind account.checkpoint := by
  cases hsaved : (settings.saveBilling access name account.checkpoint history.store).result with
  | ok =>
      -- The attempt went through: the stored checkpoint is now that of the account.
      rw [stored_of_saved h hsaved]
      exact ⟨hbalanced.stored_behind, .refl _⟩
  | error error =>
      have hblob := CheckpointStore.save_fails h.writes_whole settings hsaved
      rw [CheckpointStore.saveBilling, hblob]
      exact ⟨.refl _, hbalanced.stored_behind⟩

/-- A run starts with nothing counted, and with the stored checkpoint. -/
theorem resume_settled (h : access.Faithful name blob) (hsettled : Settled blob history)
    {checkpoint : BillingCheckpoint}
    (hload : (settings.loadBilling access name history.store).result = .ok checkpoint) :
    Settled blob { history with
      store := (settings.loadBilling access name history.store).store
      run := some (.ofCheckpoint checkpoint)
      accepted := []
      counted := []
      earlier := history.reporter.reports.length } := by
  obtain ⟨hcheckpoint, hblob⟩ := CheckpointStore.load_gives h settings hload
  refine ⟨?_, ?_, hsettled.amounts, Nat.le_refl _, ?_⟩
  · rw [stored_congr history _ hblob]
    exact hsettled.covered
  · have hdistinct := hsettled.distinct
    rw [List.map_append, List.nodup_append] at hdistinct
    simpa using hdistinct.1
  · intro account haccount
    obtain rfl := Option.some.inj haccount
    refine ⟨?_, by simp, rfl, by simp [totalEvents, BillingAccount.ofCheckpoint]⟩
    rw [stored_congr history _ hblob, hcheckpoint]
    exact .refl _

/-- The records that are accepted are none of those that are counted or have been reported. -/
theorem accumulate_settled (hsettled : Settled blob history) (hrun : history.run = some account)
    (records : List BillingRecord) :
    Settled blob { history with
      run := some (account.accumulate records)
      accepted := history.accepted ++ account.accepted records
      counted := history.counted ++ account.accepted records } := by
  have hbalanced := hsettled.balanced account hrun
  obtain ⟨hbehind, htotal, hnew, hdistinct⟩ := account.accumulate_accepted records
  refine ⟨hsettled.covered, ?_, hsettled.amounts, hsettled.earlier_le, ?_⟩
  · -- What is counted or reported is covered by the account already, what it accepts is not.
    show ((history.included.flatten ++ (history.counted ++ account.accepted records)).map
      BillingRecord.key).Nodup
    rw [← List.append_assoc, List.map_append, List.nodup_append]
    refine ⟨hsettled.distinct, hdistinct, ?_⟩
    intro key hkey key' hkey' heq
    obtain ⟨old, hold, rfl⟩ := List.mem_map.mp hkey
    obtain ⟨record, hrecord, rfl⟩ := List.mem_map.mp hkey'
    obtain ⟨hpartition, hnumber⟩ := Prod.mk.inj heq
    have hcovers : account.checkpoint.Covers old := by
      rcases List.mem_append.mp hold with hold | hold
      · exact hbalanced.stored_behind.covers (hsettled.covered old hold)
      · exact hbalanced.covered old hold
    refine (hnew record hrecord).1 ?_
    rw [BillingCheckpoint.Covers, ← hpartition, ← hnumber]
    exact hcovers
  · intro next hnext
    obtain rfl := Option.some.inj hnext
    refine ⟨hbalanced.stored_behind.trans hbehind, ?_, ?_, ?_⟩
    · intro record hrecord
      rcases List.mem_append.mp hrecord with hrecord | hrecord
      · exact hbehind.covers (hbalanced.covered record hrecord)
      · exact (hnew record hrecord).2
    · rw [htotal, hbalanced.counted, total_events_append]
    · rw [htotal, total_events_append, hbalanced.accepted, Nat.add_assoc]

/-- A settlement reports all that is counted or keeps it counted. -/
theorem settle_settled (h : access.Faithful name blob) (hsettled : Settled blob history)
    (hrun : history.run = some account) :
    Settled blob (history.settle settings access name account) := by
  have hbalanced := hsettled.balanced account hrun
  rcases account.settle_cases settings access name history.store history.reporter with
    ⟨-, haccount, hstore, hreporter⟩ | ⟨-, haccount, hstore, -, hreports⟩ |
      ⟨-, haccount, hstore, hsaved, hreports⟩
  · have hsettle : history.settle settings access name account =
        { history with run := some account } := by
      simp [History.settle, haccount, hstore, hreporter]
    rw [hsettle]
    refine { hsettled with balanced := ?_ }
    intro next hnext
    obtain rfl := Option.some.inj hnext
    exact { hbalanced with }
  · obtain ⟨hforward, hbehind⟩ := stored_after_save settings h hbalanced
    rw [History.settle, if_pos hreports, haccount, hstore]
    refine ⟨?_, hsettled.distinct, ?_, ?_, ?_⟩
    · intro record hrecord
      exact hforward.covers (hsettled.covered record hrecord)
    · rw [hreports]
      exact hsettled.amounts
    · rw [hreports]
      exact hsettled.earlier_le
    · intro next hnext
      obtain rfl := Option.some.inj hnext
      refine ⟨hbehind, hbalanced.covered, hbalanced.counted, ?_⟩
      rw [hreports]
      exact hbalanced.accepted
  · have hchanged : history.reporter.reports ++ [account.accumulated] ≠
        history.reporter.reports := by simp
    rw [History.settle, hreports, if_neg hchanged, haccount, hstore]
    have hstored := stored_of_saved h hsaved
    refine ⟨?_, ?_, ?_, ?_, ?_⟩
    · -- The stored checkpoint is that of the account, which covers what was counted as well.
      intro record hrecord
      rw [History.stored, hstored]
      rw [List.flatten_append, List.flatten_singleton, List.mem_append] at hrecord
      rcases hrecord with hrecord | hrecord
      · exact hbalanced.stored_behind.covers (hsettled.covered record hrecord)
      · exact hbalanced.covered record hrecord
    · simpa using hsettled.distinct
    · rw [hreports, hsettled.amounts, List.map_append, hbalanced.counted]
      rfl
    · rw [hreports, List.length_append]
      exact Nat.le_add_right_of_le hsettled.earlier_le
    · intro next hnext
      obtain rfl := Option.some.inj hnext
      refine ⟨?_, by simp, rfl, ?_⟩
      · rw [History.stored, hstored]
        exact .refl _
      · rw [hreports, List.drop_append_of_le_length hsettled.earlier_le, List.sum_append,
          hbalanced.accepted]
        rfl

/-- A crash after the checkpoint has been stored loses what was counted. -/
theorem crash_unreported_settled (h : access.Faithful name blob) (hsettled : Settled blob history)
    (hrun : history.run = some account) :
    Settled blob { history with
      store := (settings.saveBilling access name account.checkpoint history.store).store
      run := none } := by
  obtain ⟨hforward, -⟩ :=
    stored_after_save settings h (hsettled.balanced account hrun)
  refine { hsettled with covered := ?_, balanced := nofun }
  intro record hrecord
  exact hforward.covers (hsettled.covered record hrecord)

/-- Every step keeps the history settled. -/
theorem step_settled (h : access.Faithful name blob) {next : History σ}
    (hstep : Step settings access name blob history next) (hsettled : Settled blob history) :
    Settled blob next := by
  cases hstep with
  | resume hrun hload => exact resume_settled h hsettled hload
  | accumulate records hrun => exact accumulate_settled hsettled hrun records
  | settle hrun => exact settle_settled h hsettled hrun
  | crash => exact { hsettled with balanced := nofun }
  | crashUnreported hrun hcounted => exact crash_unreported_settled h hsettled hrun
  | outside store failures hblob =>
      -- The stored checkpoint is that of the blob, which is the same.
      refine { hsettled with covered := ?_, balanced := ?_ }
      · rw [stored_congr history _ hblob]
        exact hsettled.covered
      · intro account haccount
        have hbalanced := hsettled.balanced account haccount
        refine { hbalanced with stored_behind := ?_ }
        rw [stored_congr history _ hblob]
        exact hbalanced.stored_behind

/-- Every history is settled. -/
theorem reachable_settled (h : access.Faithful name blob)
    (hreachable : Reachable settings access name blob history) : Settled blob history := by
  induction hreachable with
  | start store failures =>
      exact ⟨by simp, by simp, rfl, Nat.le_refl _, nofun⟩
  | step _ hstep ih => exact step_settled h hstep ih

/-- Over all runs no record is in two reports, each report is the sum of the records in it, and when
the checkpoint has been stored and the count reported, what the run has reported is the sum of what
it has accepted. -/
theorem billed_once_and_settled (h : access.Faithful name blob)
    (hreachable : Reachable settings access name blob history) :
    (history.included.flatten.map BillingRecord.key).Nodup ∧
      history.reporter.reports = history.included.map totalEvents ∧
      ∀ account, history.run = some account →
        (settings.saveBilling access name account.checkpoint history.store).result = .ok () →
        (account.report history.reporter).1 = .ok () →
        let after := history.settle settings access name account
        (after.reporter.reports.drop after.earlier).sum = totalEvents after.accepted := by
  have hsettled := reachable_settled h hreachable
  refine ⟨?_, hsettled.amounts, ?_⟩
  · have hdistinct := hsettled.distinct
    rw [List.map_append, List.nodup_append] at hdistinct
    exact hdistinct.1
  · intro account hrun hsaved hreported after
    have hafter : Settled blob after := settle_settled h hsettled hrun
    rcases account.settle_cases settings access name history.store history.reporter with
      ⟨hzero, haccount, hstore, hreporter⟩ | ⟨-, -, -, hfailed, -⟩ | ⟨-, haccount, -, -, hreports⟩
    · -- There is nothing to report, and all that was accepted has been reported before.
      have hrunning : after.run = some account := by
        simp [after, History.settle, haccount, hreporter]
      have hbalanced := hafter.balanced account hrunning
      rw [hbalanced.accepted, hzero, Nat.add_zero]
    · rcases hfailed with hfailed | hfailed
      · exact absurd hsaved hfailed
      · exact absurd hreported hfailed
    · have hrunning : after.run = some { account with accumulated := 0 } := by
        simp [after, History.settle, haccount, hreports]
      rw [(hafter.balanced _ hrunning).accepted, Nat.add_zero]

def sampleSettings : CheckpointStore :=
  ⟨0, .standard⟩

def sampleRecord (number : Int64) (events : Nat) : BillingRecord :=
  ⟨"0", number, events⟩

/-- The first write fails, so the first settlement reports nothing. The second run is cut off after its
checkpoint has been stored; the last one meets a record that has been reported and one that is lost. -/
theorem billed_once_and_settled_sample :
    ∃ (history : History MemoryBlobs) (account : BillingAccount),
      Reachable sampleSettings MemoryBlobs.access "bill" (·.get? "bill") history ∧
        history.run = some account ∧ history.included.length = 1 ∧
        (history.included.flatten.map BillingRecord.key).Nodup ∧
        let after := history.settle sampleSettings MemoryBlobs.access "bill" account
        (after.reporter.reports.drop after.earlier).sum = totalEvents after.accepted ∧
          after.reporter.reports = [7, 6] := by
  have hstart : Reachable sampleSettings MemoryBlobs.access "bill" (·.get? "bill") _ :=
    .start { MemoryBlobs.empty with writeFailures := [.task "full"] } []
  have hcounted := (hstart.step (.resume rfl rfl)).step
    (.accumulate [sampleRecord 1 3, sampleRecord 2 4] rfl)
  have hreported := (hcounted.step (.settle rfl)).step (.settle rfl)
  have hcrashed := (hreported.step (.accumulate [sampleRecord 3 5] rfl)).step
    (.crashUnreported rfl (by decide))
  have hreplayed := (hcrashed.step (.resume rfl rfl)).step
    (.accumulate [sampleRecord 2 4, sampleRecord 3 5, sampleRecord 4 6] rfl)
  obtain ⟨hdistinct, -, hsettle⟩ :=
    billed_once_and_settled (MemoryBlobs.access_faithful "bill") hreplayed
  exact ⟨_, _, hreplayed, rfl, rfl, hdistinct, hsettle _ rfl rfl rfl, rfl⟩

end Billing

end WindowJoin
