import WindowJoin.Storage.Checkpoints

/-!
# Stores that keep a blob

A store is faithful to a blob if a read gives the blob or fails, a write that succeeds sets it, and
nothing else changes it; in particular a write that fails leaves it as it was. The same then holds of
operations that are tried again (`save_sets`, `save_fails`, `load_gives`, `load_result`). A store that
is faithful to all its blobs, and in which no operation touches the blob of another name, behaves as a
map (`BlobAccess.IsMap`). Tables do, and so do blobs in memory, also behind a guard.
-/

namespace WindowJoin

/-- A blob of the states of a store, to which reads and writes under a name are faithful. -/
structure BlobAccess.Faithful {σ : Type} (access : BlobAccess σ) (name : String)
    (blob : σ → Option (List UInt8)) : Prop where
  read_keeps (store : σ) : blob (access.read name store).2 = blob store
  read_gives {store : σ} {data : Option (List UInt8)} :
    (access.read name store).1 = .ok data → data = blob store
  write_sets {data : List UInt8} {store : σ} :
    (access.write name data store).1 = .ok () →
      blob (access.write name data store).2 = some data
  write_fails {data : List UInt8} {store : σ} {error : StorageError} :
    (access.write name data store).1 = .error error →
      blob (access.write name data store).2 = blob store

/-- A blob of the states of a store that a write under a name replaces as a whole or leaves alone. -/
structure BlobAccess.WritesWhole {σ : Type} (access : BlobAccess σ) (name : String)
    (blob : σ → Option (List UInt8)) : Prop where
  sets {data : List UInt8} {store : σ} : (access.write name data store).1 = .ok () →
    blob (access.write name data store).2 = some data
  leaves {data : List UInt8} {store : σ} {error : StorageError} :
    (access.write name data store).1 = .error error →
      blob (access.write name data store).2 = blob store

theorem BlobAccess.Faithful.writes_whole {σ : Type} {access : BlobAccess σ} {name : String}
    {blob : σ → Option (List UInt8)} (h : access.Faithful name blob) :
    access.WritesWhole name blob :=
  ⟨h.write_sets, h.write_fails⟩

/-- Blobs in memory are kept. -/
theorem MemoryBlobs.access_faithful (name : String) :
    MemoryBlobs.access.Faithful name (·.get? name) where
  read_keeps _ := rfl
  read_gives h := (Except.ok.inj h).symm
  write_sets {data store} h := by
    simp only [access, write] at h ⊢
    cases hfailures : store.writeFailures with
    | nil => simp [put, get?, OrderedMap.get_insert]
    | cons failure later => simp [hfailures] at h
  write_fails {data store error} h := by
    simp only [access, write] at h ⊢
    cases hfailures : store.writeFailures with
    | nil => simp [hfailures] at h
    | cons failure later => rfl

/-- A guard that lets reads fail does not come between a store and its blobs. -/
theorem BlobAccess.Faithful.guarded {σ : Type} {access : BlobAccess σ} {name : String}
    {blob : σ → Option (List UInt8)} (h : access.Faithful name blob) :
    (Guarded.access access).Faithful name (blob ·.store) where
  read_keeps guarded := by
    simp only [Guarded.access]
    cases guarded.readFailures with
    | nil => exact h.read_keeps guarded.store
    | cons failure later => rfl
  read_gives {guarded data} hread := by
    simp only [Guarded.access] at hread
    cases hfailures : guarded.readFailures with
    | nil =>
        rw [hfailures] at hread
        exact h.read_gives hread
    | cons failure later => simp [hfailures] at hread
  write_sets hwrite := h.write_sets hwrite
  write_fails hwrite := h.write_fails hwrite

/-- A store behaves as a map from names to blobs: it is faithful to the blob of each name, and leaves
those of the other names alone. -/
structure BlobAccess.IsMap {σ : Type} (access : BlobAccess σ)
    (blob : String → σ → Option (List UInt8)) : Prop where
  faithful (name : String) : access.Faithful name (blob name)
  read_leaves (name other : String) (store : σ) :
    blob other (access.read name store).2 = blob other store
  write_leaves {name other : String} (h : other ≠ name) (data : List UInt8) (store : σ) :
    blob other (access.write name data store).2 = blob other store

theorem BlobTable.access_is_map : BlobTable.access.IsMap fun name table => table.get? name where
  faithful name :=
    { read_keeps := fun _ => rfl
      read_gives := fun h => (Except.ok.inj h).symm
      write_sets := fun _ => by simp [access, OrderedMap.get_insert]
      write_fails := fun h => nomatch h }
  read_leaves _ _ _ := rfl
  write_leaves h data table := by simp [access, OrderedMap.get_insert, h]

theorem MemoryBlobs.access_is_map : MemoryBlobs.access.IsMap fun name store => store.get? name where
  faithful := access_faithful
  read_leaves _ _ _ := rfl
  write_leaves h data store := by
    simp only [access, write]
    cases store.writeFailures with
    | nil => simp [put, get?, OrderedMap.get_insert, h]
    | cons failure later => rfl

theorem BlobAccess.IsMap.guarded {σ : Type} {access : BlobAccess σ}
    {blob : String → σ → Option (List UInt8)} (h : access.IsMap blob) :
    (Guarded.access access).IsMap fun name guarded => blob name guarded.store where
  faithful name := (h.faithful name).guarded
  read_leaves name other guarded := by
    simp only [Guarded.access]
    cases guarded.readFailures with
    | nil => exact h.read_leaves name other guarded.store
    | cons failure later => rfl
  write_leaves hother data guarded := h.write_leaves hother data guarded.store

/-! ## Trying again -/

/-- What is judged to be done is the result itself, and only failures are tried again. -/
theorem Attempts.judge_cases {α : Type} (attempts : Attempts) (result : Except StorageError α) :
    attempts.judge result = .done result ∨
      ∃ error delay later, result = .error error ∧ attempts.judge result = .again delay later := by
  cases result with
  | ok value => exact .inl rfl
  | error error =>
      rw [judge]
      split
      · exact .inr ⟨error, _, _, rfl, rfl⟩
      · exact .inl rfl

theorem Attempts.result_of_done {α : Type} {attempts : Attempts}
    {result final : Except StorageError α} (h : attempts.judge result = .done final) :
    result = final := by
  rcases attempts.judge_cases result with hdone | ⟨_, _, _, -, hagain⟩
  · rw [hdone] at h
    injection h
  · rw [hagain] at h
    cases h

variable {σ : Type}

/-- The result of an operation that is tried again is that of its last attempt, which meets what the
failures before it keep. -/
theorem retry_meets {α : Type} {attempt : σ → Except StorageError α × σ} (Meets : σ → Prop)
    (hfails : ∀ store error, Meets store → (attempt store).1 = .error error →
      Meets (attempt store).2)
    (maxAttempts : UInt32) (backoff : BoundedBackoff) {store : σ} (hstore : Meets store) :
    ∃ last, Meets last ∧ (retry maxAttempts backoff attempt store).result = (attempt last).1 ∧
      (retry maxAttempts backoff attempt store).store = (attempt last).2 := by
  suffices hfrom : ∀ later attempts store, Meets store → ∃ last, Meets last ∧
      (retryFrom attempt later attempts store).result = (attempt last).1 ∧
      (retryFrom attempt later attempts store).store = (attempt last).2 from hfrom _ _ _ hstore
  intro later
  induction later with
  | zero => exact fun _ store hstore => ⟨store, hstore, rfl, rfl⟩
  | succ later ih =>
      intro attempts store hstore
      rcases attempts.judge_cases (attempt store).1 with hdone | hagain
      · exact ⟨store, hstore, by simp [retryFrom, hdone], by simp [retryFrom, hdone]⟩
      · obtain ⟨error, delay, rest, herror, hagain⟩ := hagain
        obtain ⟨last, hlast, hresult, hafter⟩ :=
          ih rest (attempt store).2 (hfails store error hstore herror)
        refine ⟨last, hlast, ?_, ?_⟩
        · simp only [retryFrom, hagain, hresult]
        · simp only [retryFrom, hagain, hafter]

/-- What every failure leaves as it is looks the same to the last attempt as to the first. -/
theorem retry_last {α β : Type} {attempt : σ → Except StorageError α × σ} (view : σ → β)
    (hfails : ∀ store error, (attempt store).1 = .error error → view (attempt store).2 = view store)
    (maxAttempts : UInt32) (backoff : BoundedBackoff) (store : σ) :
    ∃ last, view last = view store ∧
      (retry maxAttempts backoff attempt store).result = (attempt last).1 ∧
      (retry maxAttempts backoff attempt store).store = (attempt last).2 :=
  retry_meets (fun other => view other = view store)
    (fun other error hother herror => (hfails other error herror).trans hother) maxAttempts backoff
    rfl

namespace CheckpointStore

variable {access : BlobAccess σ} {name : String} {blob : σ → Option (List UInt8)}

/-- A save that succeeds replaces the blob by the document. -/
theorem save_sets (h : access.WritesWhole name blob) (settings : CheckpointStore)
    {document : List UInt8} {store : σ}
    (hsave : (settings.save access name document store).result = .ok ()) :
    blob (settings.save access name document store).store = some document := by
  obtain ⟨last, -, hresult, hstore⟩ := retry_last blob
    (fun _ _ => h.leaves) settings.maxAttempts settings.backoff store
  rw [save, hresult] at hsave
  rw [save, hstore]
  exact h.sets hsave

/-- A save that fails leaves the blob as it was. -/
theorem save_fails (h : access.WritesWhole name blob) (settings : CheckpointStore)
    {document : List UInt8} {store : σ} {error : StorageError}
    (hsave : (settings.save access name document store).result = .error error) :
    blob (settings.save access name document store).store = blob store := by
  obtain ⟨last, hview, hresult, hstore⟩ := retry_last blob
    (fun _ _ => h.leaves) settings.maxAttempts settings.backoff store
  rw [save, hresult] at hsave
  rw [save, hstore, ← hview]
  exact h.leaves hsave

/-- A load that succeeds gives the checkpoint in the blob and leaves the blob as it was. -/
theorem load_gives (h : access.Faithful name blob) (settings : CheckpointStore) {α : Type}
    {parse : List UInt8 → Except Json.Fault (OrderedMap α)} {store : σ} {checkpoint : OrderedMap α}
    (hload : (settings.load access parse name store).result = .ok checkpoint) :
    checkpoint = checkpointIn parse (blob store) ∧
      blob (settings.load access parse name store).store = blob store := by
  obtain ⟨last, hview, hresult, hstore⟩ := retry_last blob
    (fun store _ _ => h.read_keeps store) settings.maxAttempts settings.backoff store
  simp only [load] at hload ⊢
  rw [hresult] at hload
  rw [hstore, h.read_keeps, hview]
  cases hread : (access.read name last).1 with
  | error error => simp [hread, Except.map] at hload
  | ok data =>
      rw [hread] at hload
      rw [← hview, ← h.read_gives hread]
      exact ⟨(Except.ok.inj hload).symm, rfl⟩

/-- A load gives the checkpoint in the blob, unless the blob cannot be read. -/
theorem load_result (h : access.Faithful name blob) (settings : CheckpointStore) {α : Type}
    (parse : List UInt8 → Except Json.Fault (OrderedMap α)) (store : σ) :
    (settings.load access parse name store).result =
      (retry settings.maxAttempts settings.backoff (access.read name) store).result.map
        fun _ => checkpointIn parse (blob store) := by
  obtain ⟨last, hview, hresult, -⟩ := retry_last blob
    (fun store _ _ => h.read_keeps store) settings.maxAttempts settings.backoff store
  rw [load, hresult]
  cases hread : (access.read name last).1 with
  | error error => rfl
  | ok data =>
      rw [← hview, ← h.read_gives hread]
      rfl

end CheckpointStore

end WindowJoin
