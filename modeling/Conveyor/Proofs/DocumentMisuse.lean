import Conveyor.Document.Pipeline
import Conveyor.Proofs.Fallible

/-! Reading a document ends with a pipeline or with a complaint, unless it breaks off at a free-form value that is put to
a use that its kind does not allow. -/

namespace Conveyor.Document

def oneStep (extra : Mapping) (step : Mapping) : Value :=
  .map (extra ++ [(.str "jobs", .map [(.str "a", .map [(.str "steps", .list [.map step])])])])

def filteredByNumber : Value :=
  oneStep [] [(.str "uses", .str "download-artifact"),
    (.str "with", .map [(.str "name", .str "x"), (.str "stage", .str "b"), (.str "matrix", .int 5)])]

def branchesByDate : Value :=
  oneStep [(.str "on", .map [(.str "push", .map [(.str "branches", .date ⟨2020, 1, 1⟩)])])] [(.str "run", .str "make")]

theorem free_forms_break_off :
    parsePipeline "<document>" filteredByNumber = .error (.misuse (.notIterable "int")) ∧
      parsePipeline "<document>" branchesByDate = .error (.misuse (.notIterable "datetime.date")) := by
  constructor
  · decide +kernel
  · decide +kernel

end Conveyor.Document
