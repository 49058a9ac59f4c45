import Conveyor.Artifact.Basic

/-! Stores of artifacts. An artifact is stored once under its address, and all those of a producer
are discarded together. -/

namespace Conveyor

class ArtifactStore (σ : Type) where
  put : σ → ArtifactKey → Blob → Except StoreFault (Entry × σ)
  get? : σ → ArtifactKey → Option Blob
  discard : σ → Producer → σ
  entries : σ → List Entry

structure MemoryStore where
  blobs : Table ArtifactKey Blob := []
  deriving DecidableEq, Repr, Inhabited

namespace MemoryStore

def put (s : MemoryStore) (key : ArtifactKey) (blob : Blob) : Except StoreFault (Entry × MemoryStore) :=
  if s.blobs.has key then .error (.occupied key)
  else .ok (Entry.of key blob, ⟨s.blobs.insert key blob⟩)

def get? (s : MemoryStore) (key : ArtifactKey) : Option Blob := s.blobs.get? key

def discard (s : MemoryStore) (producer : Producer) : MemoryStore :=
  ⟨s.blobs.filter fun (key, _) => key.producer ≠ producer⟩

def entries (s : MemoryStore) : List Entry :=
  (s.blobs.map fun (key, blob) => Entry.of key blob).mergeSort Entry.le

instance : ArtifactStore MemoryStore := ⟨put, get?, discard, entries⟩

end MemoryStore
end Conveyor
