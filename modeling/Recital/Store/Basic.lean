import Recital.Json.Shape
import Recital.Json.Reader
import Recital.Json.Printer
import Recital.Files.Tree

/-!
# Document stores

A store keeps JSON documents under keys.  One kind keeps them in memory; the other keeps each in a
file of its own, in an envelope that carries a version.  A document is written to a temporary file
first, which then takes the name of the key, so that a save that is cut off leaves the document of
the key as it was.
-/

namespace Recital

/-- Why an operation on a store fails (`StorageError`). -/
inductive StoreError
  /-- A file operation failed. -/
  | files (cause : FileError)
  /-- A document or its envelope does not have the expected shape. -/
  | malformed
  | notFound (key : String)
  | invalidKey (key reason : String)
  /-- The envelope has a later version than the ones known. -/
  | version (key : String) (found : Nat)
deriving DecidableEq

namespace StoreError

/-- The latest known version of envelopes. -/
def knownVersion : Nat := 1

/-- An error in words. -/
def message : StoreError → String
  | files cause => "IO error: " ++ cause.message
  | malformed => "JSON serialization error"
  | notFound key => "Storage key not found: " ++ key
  | invalidKey key reason => "Invalid storage key '" ++ key ++ "': " ++ reason
  | version key found =>
    "Version mismatch for " ++ key ++ ": expected at most " ++ Text.ofNat knownVersion ++
      ", found " ++ Text.ofNat found

end StoreError

namespace Store

/-- The ending of the names of temporary files. -/
def temporaryEnding : String := ".tmp"

/-- The name ends like that of a temporary file. -/
def isTemporary (name : String) : Bool :=
  temporaryEnding.toList.isSuffixOf name.toList

/-- Why a key is refused, if it is. -/
def keyRefusal? (key : String) : Option String :=
  let cs := key.toList
  if cs.isEmpty then some "key is empty"
  else if cs.contains '/' || cs.contains '\\' then some "key contains a path separator"
  else if cs.head? = some '.' then some "key starts with a dot"
  else if isTemporary key then some "key uses the reserved .tmp suffix"
  else none

/-- Refuses keys that cannot name a document. -/
def checkKey (key : String) : Except StoreError Unit :=
  match keyRefusal? key with
  | some reason => .error (.invalidKey key reason)
  | none => .ok ()

/-! ### In memory -/

/-- Documents in memory (`MemoryStorage`). -/
structure Memory where
  /-- The documents by key. -/
  documents : Table Json := ∅

namespace Memory

/-- Stores a document. -/
def save (m : Memory) (key : String) (value : Json) : Except StoreError Memory := do
  checkKey key
  return ⟨m.documents.insert key value⟩

/-- The document under a key. -/
def load (m : Memory) (key : String) : Except StoreError (Option Json) := do
  checkKey key
  return m.documents.get? key

/-- Removes the document under a key, if there is one. -/
def delete (m : Memory) (key : String) : Except StoreError Memory := do
  checkKey key
  return ⟨m.documents.erase key⟩

/-- The keys in increasing order. -/
def keys (m : Memory) : List String := m.documents.keys

end Memory

/-! ### In files -/

/-- What a file holds besides its document (`StorageFile`). -/
structure Envelope where
  version : Nat := StoreError.knownVersion
  minorVersion : Nat := 1
  key : String
  data : Json

namespace Envelope

/-- A record of all fields. -/
def toJson (e : Envelope) : Json :=
  .obj [("version", .nat e.version), ("minor_version", .nat e.minorVersion), ("key", .str e.key),
    ("data", e.data)]

/-- The names of the fields in their written order. -/
def fieldNames : List String := ["version", "minor_version", "key", "data"]

/-- Reads the record of an envelope. -/
def ofJson? (j : Json) : Option Envelope := do
  let r ← Json.record? fieldNames j
  return {
    version := ← r.required "version" Json.word32?
    minorVersion := ← r.required "minor_version" Json.word32?
    key := ← r.required "key" Json.str?
    data := ← r.required "data" fun j => some j.normalize }

/-- Reads the text of an envelope.  Other fields may hold anything. -/
def read? (text : String) : Option Envelope :=
  (Json.readFor? (.record fieldNames) text).bind ofJson?

end Envelope

/-- Documents in the files of a directory (`Storage`). -/
structure Directory where
  /-- The directory, which is made by the first save. -/
  place : Location

namespace Directory

/-- The steps of a save. -/
inductive Step
  /-- Make the directory where it is missing. -/
  | prepare
  /-- Write the temporary file of a key. -/
  | write (key : String) (content : ByteArray)
  /-- Give the temporary file of a key its final name. -/
  | commit (key : String)

/-- The name of the temporary file of a key. -/
def temporaryName (key : String) : String := key ++ temporaryEnding

/-- Carries out a step. -/
def perform (d : Directory) (t : FileTree) : Step → Except FileError FileTree
  | .prepare => match t.entry? d.place with
    | some _ => .ok t
    | none => t.makeDirectories [] d.place
  | .write key content => t.write d.place (temporaryName key) content
  | .commit key => t.rename d.place (temporaryName key) key

/-- The text of the file of a document. -/
def fileText (key : String) (value : Json) : String :=
  (Envelope.toJson { key, data := value }).spread

/-- The steps that save a document. -/
def saveSteps (key : String) (value : Json) : List Step :=
  [.prepare, .write key (fileText key value).toUTF8, .commit key]

/-- Carries out steps until one fails.  The tree has the effects of those before it. -/
def performAll (d : Directory) : FileTree → List Step → Except StoreError Unit × FileTree
  | t, [] => (.ok (), t)
  | t, s :: rest => match d.perform t s with
    | .error e => (.error (.files e), t)
    | .ok t => performAll d t rest

/-- Stores a document. -/
def save (d : Directory) (t : FileTree) (key : String) (value : Json) :
    Except StoreError Unit × FileTree :=
  match checkKey key with
  | .error e => (.error e, t)
  | .ok () => d.performAll t (saveSteps key value)

/-- The envelope under a key. -/
def envelope (d : Directory) (t : FileTree) (key : String) :
    Except StoreError (Option Envelope) := do
  checkKey key
  match t.child d.place key >>= t.readText with
  | .error .missing => return none
  | .error e => throw (.files e)
  | .ok text =>
    match Envelope.read? text with
    | none => throw .malformed
    | some e =>
      if StoreError.knownVersion < e.version then throw (.version key e.version)
      return some e

/-- The document under a key. -/
def load (d : Directory) (t : FileTree) (key : String) : Except StoreError (Option Json) :=
  (d.envelope t key).map (·.map (·.data))

/-- The document under a key, which must be there. -/
def required (d : Directory) (t : FileTree) (key : String) : Except StoreError Json := do
  match ← d.load t key with
  | some j => return j
  | none => throw (.notFound key)

/-- Removes the document under a key, if there is one. -/
def delete (d : Directory) (t : FileTree) (key : String) : Except StoreError FileTree := do
  checkKey key
  match t.remove d.place key with
  | .ok t => return t
  | .error .missing => return t
  | .error e => throw (.files e)

/-- The keys in increasing order; temporary files are passed over. -/
def keys (d : Directory) (t : FileTree) : Except StoreError (List String) :=
  match t.fileNames d.place with
  | .error .missing => .ok []
  | .error e => .error (.files e)
  | .ok names => .ok ((names.filter fun n => !isTemporary n).mergeSort fun a b => a ≤ b)

end Directory

end Store

/-- A document store (`PersistenceService`). -/
inductive Store
  | memory (m : Store.Memory)
  | directory (d : Store.Directory) (tree : FileTree)

namespace Store

/-- Stores a document. -/
def save (s : Store) (key : String) (value : Json) : Except StoreError Unit × Store :=
  match s with
  | .memory m => match m.save key value with
    | .ok m => (.ok (), .memory m)
    | .error e => (.error e, .memory m)
  | .directory d t =>
    let (result, t) := d.save t key value
    (result, .directory d t)

/-- The document under a key. -/
def load (s : Store) (key : String) : Except StoreError (Option Json) :=
  match s with
  | .memory m => m.load key
  | .directory d t => d.load t key

/-- Removes the document under a key, if there is one. -/
def delete (s : Store) (key : String) : Except StoreError Unit × Store :=
  match s with
  | .memory m => match m.delete key with
    | .ok m => (.ok (), .memory m)
    | .error e => (.error e, .memory m)
  | .directory d t => match d.delete t key with
    | .ok t => (.ok (), .directory d t)
    | .error e => (.error e, .directory d t)

/-- The keys in increasing order. -/
def keys (s : Store) : Except StoreError (List String) :=
  match s with
  | .memory m => .ok m.keys
  | .directory d t => d.keys t

end Store

end Recital
