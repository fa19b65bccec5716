import WindowJoin.Storage.Blobs
import WindowJoin.Text.Utf8

/-!
# Blobs as files of a directory

Each blob is a file of its name. A write fills a temporary file and then renames it to the blob's
name, which replaces the blob as a whole: a write that stops half way leaves the blob as it was. The
directory is a map from file names to contents.
-/

namespace WindowJoin

/-- The files of a directory. -/
abbrev Directory := OrderedMap (List UInt8)

namespace Directory

/-- The longest name of a file, in bytes. -/
def nameLimit : Nat := 255

/-- Why the file system refuses the name of a file. -/
def fileFault? (file : String) : Option StorageError :=
  if file.toList.contains '\x00' then
    some (.io .invalidInput "file name contained an unexpected NUL byte")
  else if nameLimit < (Utf8.encode file).length then
    some (.io .other "File name too long (os error 36)")
  else none

/-- Whether a blob may have a name: it must name a file in the directory itself. -/
def IsBlobName (name : String) : Prop :=
  name ≠ "" ∧ name ≠ "." ∧ name ≠ ".." ∧ '/' ∉ name.toList ∧ '\\' ∉ name.toList

instance (name : String) : Decidable (IsBlobName name) :=
  inferInstanceAs (Decidable (_ ∧ _))

/-- The refusal of the name of a blob. -/
def invalidName (name : String) : StorageError :=
  .io .invalidInput ("invalid blob name " ++ quotedText name)

/-- The file that a blob is written to before it has its name. -/
def temporaryName (name : String) : String :=
  "." ++ name ++ ".tmp"

/-- The contents of a file, if there is one. -/
def readFile (directory : Directory) (file : String) :
    Except StorageError (Option (List UInt8)) :=
  match fileFault? file with
  | some fault => .error fault
  | none => .ok (directory.get? file)

/-- Fills a file, which comes into being if there is none. -/
def writeFile (directory : Directory) (file : String) (data : List UInt8) :
    Except StorageError Directory :=
  match fileFault? file with
  | some fault => .error fault
  | none => .ok (directory.insert file data)

/-- Gives a file another name, and replaces a file that had that name. -/
def rename (directory : Directory) (source target : String) : Directory :=
  match directory.get? source with
  | none => directory
  | some data => (directory.erase source).insert target data

/-- Reads a blob. -/
def read (name : String) (directory : Directory) : Except StorageError (Option (List UInt8)) :=
  if IsBlobName name then directory.readFile name else .error (invalidName name)

/-- The first half of a write: the temporary file is filled. -/
def stage (name : String) (data : List UInt8) (directory : Directory) :
    Except StorageError Directory :=
  if IsBlobName name then directory.writeFile (temporaryName name) data
  else .error (invalidName name)

/-- Writes a blob. -/
def write (name : String) (data : List UInt8) (directory : Directory) :
    Except StorageError Directory := do
  let staged ← directory.stage name data
  .ok (staged.rename (temporaryName name) name)

/-- How the blobs of a directory are read and written. -/
def access : BlobAccess Directory where
  read name directory := (directory.read name, directory)
  write name data directory :=
    match directory.write name data with
    | .ok written => (.ok (), written)
    | .error error => (.error error, directory)

end Directory

end WindowJoin
