import Conveyor.Artifact.Store
import Conveyor.Job.Record

/-! The artifacts that a job consumes: which ones its references select, and how steps pick among
them. -/

namespace Conveyor

abbrev Inputs := Table ArtifactKey Blob

inductive InputFault where
  | missing (m : MissingArtifact)
  | unusable (f : ValueFault)
  deriving DecidableEq, Repr

def InputFault.message : InputFault → Except ValueFault String
  | .missing m => m.message
  | .unusable f => .error f

/-- The items that pass a test, unless the test of one of them fails. -/
def chosen {α : Type} (test : α → Except ValueFault Bool) : List α → Except ValueFault (List α)
  | [] => .ok []
  | item :: items => do
    let passes ← test item
    let rest ← chosen test items
    return if passes then item :: rest else rest

namespace ArtifactRef

def missing (r : ArtifactRef) (reason : String) : MissingArtifact :=
  { stage := r.stage, name := r.name, matrix := r.filter, reason }

/-- Adds the blobs that selected producers have published under the name of a reference, and counts
them. A producer has to have succeeded; if the reference has a filter, it has to have published. -/
def collect {σ : Type} [ArtifactStore σ] (store : σ) (r : ArtifactRef) :
    List JobRecord → Inputs × Nat → Except InputFault (Inputs × Nat)
  | [], found => .ok found
  | producer :: rest, (inputs, count) =>
    if Value.anyEntryUnwritable producer.job.assignment then .error (.unusable .unwritable)
    else if producer.status ≠ .succeeded then
      .error (.missing (r.missing ("producer " ++ producer.job.id ++ " is " ++ producer.status.name)))
    else
      let key : ArtifactKey := ⟨producer.job.producer, r.name⟩
      match ArtifactStore.get? store key with
      | some blob =>
        collect store r rest (inputs.insert ⟨⟨r.stage, producer.job.qualifier⟩, r.name⟩ blob, count + 1)
      | none =>
        if r.filter.isEmpty then collect store r rest (inputs, count)
        else .error (.missing (r.missing ("producer " ++ producer.job.id ++ " did not publish it")))

/-- Adds the blobs that a reference selects. At least one job has to match its filter, and at least
one of them to have published the name. -/
def resolve {σ : Type} [ArtifactStore σ] (store : σ) (producers : String → List JobRecord)
    (inputs : Inputs) (r : ArtifactRef) : Except InputFault Inputs := do
  let selected ← (chosen (fun p => p.job.accepts r.filter) (producers r.stage)).mapError .unusable
  if selected.isEmpty then throw (.missing (r.missing "no producer job matches"))
  let (inputs, count) ← r.collect store selected (inputs, 0)
  if count = 0 then throw (.missing (r.missing "no producer job published it"))
  return inputs

end ArtifactRef

namespace Inputs

def resolve {σ : Type} [ArtifactStore σ] (store : σ) (producers : String → List JobRecord)
    (refs : List ArtifactRef) : Except InputFault Inputs :=
  refs.foldlM (ArtifactRef.resolve store producers) []

def qualifierPairs (qualifier : String) : Table String String :=
  Table.ofPairs ((Text.split ',' qualifier).filterMap (Text.cut? '='))

/-- Whether a qualifier gives the keys of a filter the texts of their values, up to the first to which
it does not. The value is written whether the key is there or not. -/
def qualifierAccepts (pairs : Table String String) : Mapping → Except ValueFault Bool
  | [] => .ok true
  | (k, v) :: rest => do
    let asked ← v.written
    match k with
    | .str key => if pairs.get? key = some asked then qualifierAccepts pairs rest else return false
    | _ => return false

def named (inputs : Inputs) (stage name : String) : Inputs :=
  inputs.filter fun (key, _) => key.producer.stage = stage ∧ key.name = name

def select (inputs : Inputs) (stage name : String) (filter : Mapping) :
    Except ValueFault (Table String Blob) := do
  let found ← chosen (fun (key, _) => qualifierAccepts (qualifierPairs key.producer.qualifier) filter)
    (inputs.named stage name)
  return Table.ofPairs (found.map fun (key, blob) => (key.producer.qualifier, blob))

end Inputs
end Conveyor
