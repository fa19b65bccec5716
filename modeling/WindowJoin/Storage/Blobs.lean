import WindowJoin.Error
import WindowJoin.OrderedMap

/-!
# Blob stores

A blob store holds whole documents by name. `BlobAccess` says how a state of a store is read and
written; a read or a write may fail, and may change the state. A table of a database is a map, and
so is a store in memory, whose next writes can be made to fail.
-/

namespace WindowJoin

/-- How the states of a kind of store are read and written. -/
structure BlobAccess (σ : Type) where
  read : String → σ → Except StorageError (Option (List UInt8)) × σ
  write : String → List UInt8 → σ → Except StorageError Unit × σ

/-- How a part of a state is read and written, as access to the whole. -/
def BlobAccess.within {σ τ : Type} (inner : BlobAccess τ) (get : σ → τ) (put : τ → σ → σ) :
    BlobAccess σ where
  read name state :=
    let (result, part) := inner.read name (get state)
    (result, put part state)
  write name data state :=
    let (result, part) := inner.write name data (get state)
    (result, put part state)

/-- A table with a row for each name. -/
abbrev BlobTable := OrderedMap (List UInt8)

/-- A table is read and written without faults. -/
def BlobTable.access : BlobAccess BlobTable where
  read name table := (.ok (table.get? name), table)
  write name data table := (.ok (), table.insert name data)

/-- Blobs in memory, the errors of the next writes, and the number of writes that were done. -/
structure MemoryBlobs where
  blobs : BlobTable
  writeFailures : List StorageError
  writes : Nat
  deriving DecidableEq

namespace MemoryBlobs

/-- A store with these blobs. -/
def ofBlobs (blobs : BlobTable) : MemoryBlobs :=
  ⟨blobs, [], 0⟩

/-- A store without blobs. -/
def empty : MemoryBlobs :=
  ofBlobs .empty

/-- The blob with a name, past the failures. -/
def get? (store : MemoryBlobs) (name : String) : Option (List UInt8) :=
  store.blobs.get? name

/-- Sets a blob, past the failures. -/
def put (store : MemoryBlobs) (name : String) (data : List UInt8) : MemoryBlobs :=
  { store with blobs := store.blobs.insert name data }

/-- Lets the next writes fail. -/
def injectWrites (store : MemoryBlobs) (failures : List StorageError) : MemoryBlobs :=
  { store with writeFailures := store.writeFailures ++ failures }

/-- Writes a blob, unless a failure is due. -/
def write (name : String) (data : List UInt8) (store : MemoryBlobs) :
    Except StorageError Unit × MemoryBlobs :=
  match store.writeFailures with
  | failure :: later => (.error failure, { store with writeFailures := later })
  | [] => (.ok (), { store.put name data with writes := store.writes + 1 })

/-- How blobs in memory are read and written. -/
def access : BlobAccess MemoryBlobs where
  read name store := (.ok (store.get? name), store)
  write := write

end MemoryBlobs

/-- A store in front of which the next reads may fail. -/
structure Guarded (σ : Type) where
  store : σ
  readFailures : List StorageError
  deriving DecidableEq

namespace Guarded

/-- Lets the next reads fail. -/
def injectReads {σ : Type} (guarded : Guarded σ) (failures : List StorageError) : Guarded σ :=
  { guarded with readFailures := guarded.readFailures ++ failures }

/-- A guarded store meets the failures of its guard first. -/
def access {σ : Type} (inner : BlobAccess σ) : BlobAccess (Guarded σ) where
  read name guarded :=
    match guarded.readFailures with
    | failure :: later => (.error failure, { guarded with readFailures := later })
    | [] =>
      let (result, store) := inner.read name guarded.store
      (result, { guarded with store })
  write name data guarded :=
    let (result, store) := inner.write name data guarded.store
    (result, { guarded with store })

end Guarded

end WindowJoin
