import Conveyor.Digest
import Conveyor.Job.Basic

/-! Artifacts: blobs that one job publishes under a name for others to consume. -/

namespace Conveyor

structure ArtifactKey where
  producer : Producer
  name : String
  deriving DecidableEq, Repr, Inhabited

structure Entry where
  producer : Producer
  name : String
  size : Nat
  sha256 : String
  deriving DecidableEq, Repr, Inhabited

def Entry.of (key : ArtifactKey) (blob : Blob) : Entry :=
  { producer := key.producer, name := key.name, size := blob.length, sha256 := Digest.sha256 blob }

def Entry.le (a b : Entry) : Bool :=
  if a.producer.stage ≠ b.producer.stage then Text.le a.producer.stage b.producer.stage
  else if a.producer.qualifier ≠ b.producer.qualifier then
    Text.le a.producer.qualifier b.producer.qualifier
  else Text.le a.name b.name

inductive StoreFault where
  | occupied (key : ArtifactKey)
  | refused (message : String)
  deriving DecidableEq, Repr, Inhabited

def StoreFault.message : StoreFault → String
  | .occupied key =>
    "artifact " ++ Text.quoted key.name ++ " from " ++ key.producer.text ++ " already exists"
  | .refused message => message

def notFoundMessage (producer name : String) : String :=
  "no artifact " ++ Text.quoted name ++ " from " ++ producer

structure MissingArtifact where
  stage : String
  name : String
  matrix : Mapping := []
  reason : String := ""
  deriving DecidableEq, Repr, Inhabited

def MissingArtifact.text (m : MissingArtifact) : String :=
  let filter :=
    if m.matrix.isEmpty then ""
    else " [" ++ ",".intercalate (m.matrix.map fun (k, v) => k.text ++ "=" ++ v.text) ++ "]"
  let subject := "missing artifact " ++ m.stage ++ "/" ++ m.name ++ filter
  if m.reason = "" then subject else subject ++ ": " ++ m.reason

/-- The text of the complaint, which names the filter. -/
def MissingArtifact.message (m : MissingArtifact) : Except ValueFault String := do
  Value.checkWritten m.matrix
  return m.text

structure AmbiguousArtifact where
  stage : String
  name : String
  qualifiers : List String := []
  deriving DecidableEq, Repr, Inhabited

def AmbiguousArtifact.message (a : AmbiguousArtifact) : String :=
  "artifact " ++ a.stage ++ "/" ++ a.name ++ " was produced by several matrix jobs (" ++
    ", ".intercalate a.qualifiers ++ "); pass a matrix filter"

end Conveyor
