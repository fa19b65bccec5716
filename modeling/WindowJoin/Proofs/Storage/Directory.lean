import WindowJoin.Storage.Directory

/-!
# What a directory gives back

The blobs of a directory and the temporary files of its writes share one set of names, and the name of
a temporary file is itself one that a blob may have. `Directory.Operation.leaves` says what an operation
makes of each file (`Directory.get_after`). So a blob that is read is the one that was last written
(`Directory.reads_last_written`) unless a later write to another name has used its file as the
temporary one, which has happened to what is lost in `Directory.temporary_name_taken`.
-/

namespace WindowJoin

namespace Directory

/-- What is done to the blobs of a directory. -/
inductive Operation where
  | read (name : String)
  | write (name : String) (data : List UInt8)
  /-- A write that breaks off when its temporary file has been filled. -/
  | breakOff (name : String) (data : List UInt8)
  deriving DecidableEq, Repr

/-- The directory after an operation. -/
def after (directory : Directory) : Operation → Directory
  | .read name => (access.read name directory).2
  | .write name data => (access.write name data directory).2
  | .breakOff name data =>
    match directory.stage name data with
    | .ok staged => staged
    | .error _ => directory

/-- The directory after operations in turn, which was empty before. -/
def ofOperations (operations : List Operation) : Directory :=
  operations.foldl after .empty

/-! ## Writes that go through -/

/-- A blob of this name can be written: it is the name of a blob, and the file system takes that of the
temporary file. -/
def Writable (name : String) : Prop :=
  IsBlobName name ∧ fileFault? (temporaryName name) = none

instance (name : String) : Decidable (Writable name) :=
  inferInstanceAs (Decidable (_ ∧ _))

theorem temporary_name_ne (name : String) : temporaryName name ≠ name := by
  intro heq
  have hlength := congrArg String.length heq
  simp only [temporaryName, String.length_append] at hlength
  have hdot : ".".length = 1 := rfl
  omega

theorem stage_of_writable {name : String} (h : Writable name) (data : List UInt8)
    (directory : Directory) :
    directory.stage name data = .ok (directory.insert (temporaryName name) data) := by
  rw [stage, if_pos h.1, writeFile, h.2]

theorem stage_refused {name : String} (h : ¬ Writable name) (data : List UInt8)
    (directory : Directory) : ∃ error, directory.stage name data = .error error := by
  rw [stage]
  split
  next hname =>
    rw [writeFile]
    split
    next fault hfault => exact ⟨fault, rfl⟩
    next hnone => exact absurd ⟨hname, hnone⟩ h
  next => exact ⟨_, rfl⟩

/-! ## What operations leave -/

/-- What an operation makes of the contents of a file. -/
def Operation.leaves (file : String) (contents : Option (List UInt8)) :
    Operation → Option (List UInt8)
  | .read _ => contents
  | .write name data =>
    if Writable name then
      if file = name then some data
      else if file = temporaryName name then none
      else contents
    else contents
  | .breakOff name data =>
    if Writable name ∧ file = temporaryName name then some data else contents

/-- Every file is what the operation leaves of it. -/
theorem get_after (directory : Directory) (operation : Operation) (file : String) :
    (directory.after operation).get? file = operation.leaves file (directory.get? file) := by
  cases operation with
  | read name => rfl
  | write name data =>
      by_cases h : Writable name
      · have hwrite : directory.after (.write name data) =
            ((directory.insert (temporaryName name) data).erase (temporaryName name)).insert
              name data := by
          simp [after, access, write, stage_of_writable h, bind, Except.bind, rename,
            OrderedMap.get_insert]
        rw [hwrite, OrderedMap.get_insert, OrderedMap.get_erase, OrderedMap.get_insert,
          Operation.leaves, if_pos h]
        split
        · rfl
        · split <;> rfl
      · obtain ⟨error, hrefused⟩ := stage_refused h data directory
        simp [after, access, write, hrefused, bind, Except.bind, Operation.leaves, h]
  | breakOff name data =>
      by_cases h : Writable name
      · simp [after, stage_of_writable h, OrderedMap.get_insert, Operation.leaves, h]
      · obtain ⟨error, hrefused⟩ := stage_refused h data directory
        simp [after, hrefused, Operation.leaves, h]

theorem get_after_all (directory : Directory) (operations : List Operation) (file : String) :
    (operations.foldl after directory).get? file =
      operations.foldl (Operation.leaves file) (directory.get? file) := by
  induction operations generalizing directory with
  | nil => rfl
  | cons operation rest ih => rw [List.foldl_cons, ih, get_after, List.foldl_cons]

/-- What a read gives, if the file has these contents. -/
theorem read_eq {name : String} (h : IsBlobName name) (directory : Directory) :
    directory.read name = (fileFault? name).elim (.ok (directory.get? name)) .error := by
  rw [read, if_pos h, readFile]
  cases fileFault? name <;> rfl

/-! ## What was last written -/

/-- The data of a write to a name, if it goes through. -/
def Operation.completed? (name : String) : Operation → Option (List UInt8)
  | .write other data => if Writable other ∧ other = name then some data else none
  | .read _ | .breakOff .. => none

/-- The data of the last write to a name that went through. -/
def lastWritten (name : String) (operations : List Operation) : Option (List UInt8) :=
  operations.foldl (fun last operation => operation.completed? name <|> last) none

/-- The operation uses the file of this name as the temporary one of another blob. -/
def Operation.Stages (name : String) : Operation → Prop
  | .read _ => False
  | .write other _ | .breakOff other _ => Writable other ∧ temporaryName other = name

instance (name : String) : (operation : Operation) → Decidable (operation.Stages name)
  | .read _ => inferInstanceAs (Decidable False)
  | .write other _ | .breakOff other _ =>
    inferInstanceAs (Decidable (Writable other ∧ temporaryName other = name))

/-- What is left in the temporary file. -/
def Operation.staged? : Operation → Option (List UInt8)
  | .read _ | .write .. => none
  | .breakOff _ data => some data

/-- Every operation that uses the file of this name as a temporary one comes before a write to the name
that goes through. -/
def Spared (name : String) : List Operation → Prop
  | [] => True
  | operation :: rest =>
    (operation.Stages name → ∃ later ∈ rest, (later.completed? name).isSome = true) ∧
      Spared name rest

variable {name : String} {operation : Operation} {operations : List Operation}

/-- An operation that uses the file as a temporary one leaves what is staged. -/
theorem leaves_staged (h : operation.Stages name) (contents : Option (List UInt8)) :
    operation.leaves name contents = operation.staged? ∧ operation.completed? name = none := by
  cases operation with
  | read => cases h
  | write other data =>
      obtain ⟨hwritable, rfl⟩ := h
      simp [Operation.leaves, Operation.staged?, Operation.completed?, hwritable,
        temporary_name_ne, (temporary_name_ne other).symm]
  | breakOff other data =>
      obtain ⟨hwritable, rfl⟩ := h
      simp [Operation.leaves, Operation.staged?, Operation.completed?, hwritable]

/-- Any other leaves what it writes, if it writes to the name at all. -/
theorem leaves_unstaged (h : ¬ operation.Stages name) (contents : Option (List UInt8)) :
    operation.leaves name contents = (operation.completed? name <|> contents) := by
  cases operation with
  | read => rfl
  | write other data =>
      by_cases hwritable : Writable other
      · have hother : name ≠ temporaryName other := fun heq => h ⟨hwritable, heq.symm⟩
        by_cases hname : name = other
        · simp [Operation.leaves, Operation.completed?, hwritable, hname]
        · simp [Operation.leaves, Operation.completed?, hwritable, hother, hname, Ne.symm hname]
      · simp [Operation.leaves, Operation.completed?, hwritable]
  | breakOff other data =>
      have hother : ¬ (Writable other ∧ name = temporaryName other) :=
        fun hstages => h ⟨hstages.1, hstages.2.symm⟩
      simp [Operation.leaves, Operation.completed?, hother]

/-- What was there before does not matter behind a write that has gone through. -/
theorem last_written_congr
    (h : ∃ later ∈ operations, (later.completed? name).isSome = true)
    (first second : Option (List UInt8)) :
    operations.foldl (fun last operation => operation.completed? name <|> last) first =
      operations.foldl (fun last operation => operation.completed? name <|> last) second := by
  induction operations generalizing first second with
  | nil => simp at h
  | cons operation rest ih =>
      rw [List.foldl_cons, List.foldl_cons]
      cases hcompleted : operation.completed? name with
      | some data => rfl
      | none =>
          obtain ⟨later, hlater, hsome⟩ := h
          rcases List.mem_cons.mp hlater with rfl | hlater
          · simp [hcompleted] at hsome
          · exact ih ⟨later, hlater, hsome⟩ _ _

/-- The file of a name that is spared holds what was last written to it. -/
theorem leaves_spared (h : Spared name operations) (contents : Option (List UInt8)) :
    operations.foldl (Operation.leaves name) contents =
      operations.foldl (fun last operation => operation.completed? name <|> last) contents := by
  induction operations generalizing contents with
  | nil => rfl
  | cons operation rest ih =>
      obtain ⟨hlater, hrest⟩ := h
      rw [List.foldl_cons, List.foldl_cons, ih hrest]
      by_cases hstages : operation.Stages name
      · exact last_written_congr (hlater hstages) _ _
      · rw [leaves_unstaged hstages]

/-- Operations that neither write to a name nor use its file leave the file alone. -/
theorem leaves_untouched (h : ∀ operation ∈ operations,
    ¬ operation.Stages name ∧ operation.completed? name = none)
    (contents : Option (List UInt8)) :
    operations.foldl (Operation.leaves name) contents = contents := by
  induction operations with
  | nil => rfl
  | cons operation rest ih =>
      obtain ⟨hstages, hcompleted⟩ := h operation List.mem_cons_self
      rw [List.foldl_cons, leaves_unstaged hstages, hcompleted]
      exact ih fun later hlater => h later (List.mem_cons_of_mem _ hlater)

/-- A read gives the data of the last write to the name that has gone through, whatever was written to
other names, as long as no later operation uses the file of the name as the temporary one of another
blob. After such an operation it gives what this has left there: nothing, or if it broke off, the data
of the other blob. Either way the file system may refuse the name. -/
theorem reads_last_written (hname : IsBlobName name) (operations : List Operation) :
    (Spared name operations → (ofOperations operations).read name =
        (fileFault? name).elim (.ok (lastWritten name operations)) .error) ∧
      ∀ before operation later, operations = before ++ operation :: later →
        operation.Stages name →
        (∀ other ∈ later, ¬ other.Stages name ∧ other.completed? name = none) →
        (ofOperations operations).read name =
          (fileFault? name).elim (.ok operation.staged?) .error := by
  have hempty : OrderedMap.get? (.empty : Directory) name = none := rfl
  rw [read_eq hname, ofOperations, get_after_all, hempty]
  refine ⟨fun hspared => ?_, fun before operation later hsplit hstages hlater => ?_⟩
  · rw [leaves_spared hspared]
    rfl
  · rw [hsplit, List.foldl_append, List.foldl_cons, leaves_untouched hlater,
      (leaves_staged hstages _).1]

/-- A blob whose name is that of the temporary file of blob `cp`. It is written again behind the writes
to `cp`. -/
theorem reads_last_written_sample :
    let operations : List Operation := [.write ".cp.tmp" [1], .write "cp" [2], .breakOff "cp" [3],
      .write ".cp.tmp" [4], .read "cp", .write "other" [5]]
    IsBlobName ".cp.tmp" ∧ Spared ".cp.tmp" operations ∧
      (ofOperations operations).read ".cp.tmp" = .ok (some [4]) ∧
      (ofOperations (operations.take 3)).read ".cp.tmp" = .ok (some [3]) := by
  intro operations
  have hname : IsBlobName ".cp.tmp" := by decide
  have hspared : Spared ".cp.tmp" operations := by
    simp only [operations, Spared]
    decide
  obtain ⟨hlast, -⟩ := reads_last_written hname operations
  obtain ⟨-, hstaged⟩ := reads_last_written hname (operations.take 3)
  exact ⟨hname, hspared, hlast hspared,
    hstaged (operations.take 2) (.breakOff "cp" [3]) [] rfl (by decide) nofun⟩

/-- A write to another name takes a blob away, and one that breaks off makes a blob that was never
written, although both names may be those of blobs. -/
theorem temporary_name_taken :
    IsBlobName ".cp.tmp" ∧ IsBlobName "cp" ∧
      lastWritten ".cp.tmp" [.write ".cp.tmp" [1], .write "cp" [2]] = some [1] ∧
      (ofOperations [.write ".cp.tmp" [1], .write "cp" [2]]).read ".cp.tmp" = .ok none ∧
      lastWritten ".cp.tmp" [.breakOff "cp" [3]] = none ∧
      (ofOperations [.breakOff "cp" [3]]).read ".cp.tmp" = .ok (some [3]) := by
  exact ⟨by decide, by decide, by decide +kernel, rfl, by decide +kernel, rfl⟩

end Directory

end WindowJoin
