import Conveyor.Artifact.Store
import Conveyor.Json.Printer
import Conveyor.Json.Reader
import Conveyor.Workspace.Basic

/-! A store in a folder: for every artifact a file with the blob and a file with its entry. -/

namespace Conveyor

structure FileStore where
  workspace : Workspace
  root : Place
  deriving Repr

namespace FileStore

def isSafe (c : Char) : Bool :=
  c.isAlphanum || c == '.' || c == '_' || c == '=' || c == '-'

def safeChars : Bool → List Char → List Char
  | _, [] => []
  | afterUnsafe, c :: rest =>
    if isSafe c then c :: safeChars false rest
    else if afterUnsafe then safeChars true rest
    else '_' :: safeChars true rest

/-- The part of a path that stands for a text: a readable form, and a part of the text's digest that
keeps apart texts of one readable form. -/
def slot (s : String) : String :=
  let readable := safeChars false s.toList
  let digest := (Digest.sha256 (Blob.ofText s)).toList.take 10
  String.ofList ((if readable.isEmpty then ['_'] else readable) ++ '-' :: digest)

def producerPlace (p : Producer) : Place := [slot p.stage, slot p.qualifier]

def blobEnd : String := ".bin"

def draftEnd : String := ".bin.tmp"

def entryEnd : String := ".manifest.json"

def blobPlace (key : ArtifactKey) : Place := producerPlace key.producer ++ [slot key.name ++ blobEnd]

def draftPlace (key : ArtifactKey) : Place :=
  producerPlace key.producer ++ [slot key.name ++ draftEnd]

def entryPlace (key : ArtifactKey) : Place :=
  producerPlace key.producer ++ [slot key.name ++ entryEnd]

def creationTime : Int := 1700000000

def entryText (e : Entry) : String :=
  (Json.obj [("created_at_unix", .int creationTime), ("name", .str e.name),
    ("qualifier", .str e.producer.qualifier), ("sha256", .str e.sha256), ("size", .int e.size),
    ("stage", .str e.producer.stage)]).pretty false 0

def readEntry? (text : String) : Option Entry := do
  let j ← Json.read? text
  match ← j.field? "stage", ← j.field? "qualifier", ← j.field? "name", ← j.field? "size",
    ← j.field? "sha256" with
  | .str stage, .str qualifier, .str name, .int size, .str sha256 =>
    return { producer := ⟨stage, qualifier⟩, name, size := size.toNat, sha256 }
  | _, _, _, _, _ => none

def make (w : Workspace) (root : Place) : FileStore := ⟨w.makeFolder root, root⟩

/-- Writes a blob and its entry, if there is no such blob yet. The blob takes its place when it is
written completely. -/
def put (s : FileStore) (key : ArtifactKey) (blob : Blob) : Except StoreFault (Entry × FileStore) :=
  let place := s.root ++ blobPlace key
  let draft := s.root ++ draftPlace key
  if s.workspace.occupied place then .error (.occupied key)
  else
    let entry := Entry.of key blob
    let w := (s.workspace.write draft blob).move draft place
    let w := w.write (s.root ++ entryPlace key) (Blob.ofText (entryText entry))
    let w := if w.occupied draft then w.remove draft else w
    .ok (entry, { s with workspace := w })

def get? (s : FileStore) (key : ArtifactKey) : Option Blob :=
  s.workspace.read? (s.root ++ blobPlace key)

def discard (s : FileStore) (producer : Producer) : FileStore :=
  { s with workspace := s.workspace.removeFolder (s.root ++ producerPlace producer) }

def isEntryPlace (place : Place) : Bool :=
  place.length == 3 && (place.getLast?.any fun name => name.endsWith entryEnd)

def entries (s : FileStore) : List Entry :=
  let found := s.workspace.files.filterMap fun (place, content) =>
    if place.take s.root.length = s.root ∧ isEntryPlace (place.drop s.root.length) then
      match content with
      | .bytes blob => (Blob.toText? blob).bind readEntry?
      | .workflow _ => none
    else none
  found.mergeSort Entry.le

instance : ArtifactStore FileStore := ⟨put, get?, discard, entries⟩

end FileStore
end Conveyor
