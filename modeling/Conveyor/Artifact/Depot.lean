import Conveyor.Artifact.Files
import Conveyor.Settings

/-! The store of a run: in memory or in a folder of the workspace, as the settings ask. Some
artifacts may be refused, as a full disk would. -/

namespace Conveyor

inductive Shelf where
  | memory (store : MemoryStore)
  | folder (root : Place)
  deriving Repr

structure Depot where
  workspace : Workspace
  shelf : Shelf := .memory {}
  refusals : Table String String := []
  deriving Repr

namespace Depot

/-- The store that settings ask for, whose folder is made. A folder outside the workspace is not seen
in it, so there artifacts are kept as in memory. -/
def make (w : Workspace) (s : Settings) (refusals : Table String String) :
    Except PlaceFault Depot :=
  let folder := (s.artifactDir.filter (· ≠ "")).map Path.ofText
  match folder.bind Workspace.locate? with
  | none => .ok { workspace := w, refusals }
  | some root =>
    match w.folderFault? { parts := root } with
    | some fault => .error (fault.within w.root)
    | none =>
      .ok { workspace := (FileStore.make w root).workspace, shelf := .folder root, refusals }

def put (d : Depot) (key : ArtifactKey) (blob : Blob) : Except StoreFault (Entry × Depot) :=
  match d.refusals.get? key.name with
  | some message => .error (.refused message)
  | none =>
    match d.shelf with
    | .memory store =>
      (store.put key blob).map fun (entry, store) => (entry, { d with shelf := .memory store })
    | .folder root =>
      (FileStore.put ⟨d.workspace, root⟩ key blob).map fun (entry, store) =>
        (entry, { d with workspace := store.workspace })

def get? (d : Depot) (key : ArtifactKey) : Option Blob :=
  match d.shelf with
  | .memory store => store.get? key
  | .folder root => FileStore.get? ⟨d.workspace, root⟩ key

def discard (d : Depot) (producer : Producer) : Depot :=
  match d.shelf with
  | .memory store => { d with shelf := .memory (store.discard producer) }
  | .folder root =>
    { d with workspace := (FileStore.discard ⟨d.workspace, root⟩ producer).workspace }

def entries (d : Depot) : List Entry :=
  match d.shelf with
  | .memory store => store.entries
  | .folder root => FileStore.entries ⟨d.workspace, root⟩

instance : ArtifactStore Depot := ⟨put, get?, discard, entries⟩

end Depot
end Conveyor
