import Conveyor.Document.Pipeline
import Conveyor.Workspace.Basic
import Conveyor.Yaml.Reader

/-! Loading pipelines from texts and from files. A document is read from a text; a workflow file
defines names, one of which has to lead to a pipeline. -/

namespace Conveyor.Document

inductive LoadFault where
  | refused (r : Refusal)
  | unreadable (f : Yaml.Fault)
  | undecodable (f : Blob.EncodingFault)
  | notFound (path : String)
  | unsupported (name : String)
  | isFolder (path : String)
  | emptyPackage (path : String)
  | noPipeline (name : String)
  | raised (message : String)
  | helperCalled
  deriving Repr

def LoadFault.message : LoadFault → String
  | .refused (.complaint c) => c.text
  | .refused (.misuse m) => m.message
  | .unreadable f => f.message
  | .undecodable f => f.message
  | .notFound path => "Pipeline file not found: " ++ path
  | .unsupported name => "Pipeline must be a .py, .yml, .yaml or .json file, got: " ++ name
  | .isFolder path => "[Errno 21] Is a directory: " ++ Text.quoted path
  | .emptyPackage path => "can\x27t find \x27__main__\x27 module in " ++ Text.quoted path
  | .noPipeline name =>
    name ++ " must define PIPELINE = pipeline(...) or a function pipeline() / build_pipeline() " ++
      "returning a Pipeline. If you import the \x60pipeline\x60 helper, use PIPELINE or " ++
      "build_pipeline()."
  | .raised message => message
  | .helperCalled => "pipeline() missing 1 required positional argument: \x27name\x27"

def LoadFault.kind : LoadFault → String
  | .refused (.complaint _) => "SpecificationError"
  | .refused (.misuse m) => m.kind
  | .unreadable f => f.kind
  | .undecodable _ => "UnicodeDecodeError"
  | .notFound _ => "FileNotFoundError"
  | .isFolder _ => "IsADirectoryError"
  | .emptyPackage _ => "ImportError"
  | .noPipeline _ => "TypeError"
  | .helperCalled => "TypeError"
  | _ => "ValueError"

def ofValue (source : String) (v : Value) : Except LoadFault Pipeline :=
  (parsePipeline source v).mapError .refused

def ofText (source text : String) : Except LoadFault Pipeline :=
  match Yaml.read text with
  | .ok v => ofValue source v
  | .error .malformed => .error (.refused (.complaint ⟨source ++ ": not valid YAML", []⟩))
  | .error f => .error (.unreadable f)

def valueSource : String := "<document>"

def textSource : String := "<string>"

inductive Binding where
  | pipeline (p : Pipeline)
  | value (v : Value)
  | function (body : WorkflowBody)
  | helper

def Binding.ofDefinition : Definition → Except LoadFault Binding
  | .document doc => Binding.pipeline <$> ofValue valueSource doc
  | .value v => .ok (.value v)
  | .function body => .ok (.function body)
  | .helper => .ok .helper

def call : WorkflowBody → Except LoadFault Binding
  | .document doc => Binding.pipeline <$> ofValue valueSource doc
  | .value v => .ok (.value v)
  | .failure message => .error (.raised message)

/-- The pipeline of a workflow file: its constant, or else what its function returns, or else what
its building function returns. -/
def ofWorkflow (name : String) (definitions : Table String Definition) :
    Except LoadFault Pipeline := do
  let bindings : Table String Binding ← definitions.mapM fun (k, d) => do return (k, ← Binding.ofDefinition d)
  let built := fun (_ : Unit) =>
    match (Table.get? bindings "build_pipeline" : Option Binding) with
    | some (.function body) => call body
    | some .helper => .error .helperCalled
    | _ => .ok (.value .null)
  let result : Binding ←
    match (Table.get? bindings "PIPELINE" : Option Binding) with
    | none | some (.value .null) =>
      match (Table.get? bindings "pipeline" : Option Binding) with
      | some (.function body) => call body
      | _ => built ()
    | some binding => .ok binding
  match result with
  | .pipeline p => return p
  | _ => throw (.noPipeline name)

def plainLines : List Char → List Char
  | '\r' :: '\n' :: rest => '\n' :: plainLines rest
  | '\r' :: rest => '\n' :: plainLines rest
  | c :: rest => c :: plainLines rest
  | [] => []

def documentSuffixes : List String := [".yml", ".yaml", ".json"]

def folderFault (w : Workspace) (place : Place) : LoadFault :=
  let name := place.getLast?.getD ""
  let suffix := Path.suffixOf name
  if suffix = ".py" then .emptyPackage (w.placeText place)
  else if documentSuffixes.contains suffix then .isFolder (w.placeText place)
  else .unsupported name

def ofFile (w : Workspace) (path : Path) : Except LoadFault Pipeline :=
  match (Workspace.locate? path).bind fun place => (w.content? place).map fun c => (place, c) with
  | none =>
    match (Workspace.locate? path).filter w.isFolder with
    | some place => .error (folderFault w place)
    | none => .error (.notFound (w.fullText path))
  | some (place, content) =>
    let name := place.getLast?.getD ""
    let suffix := Path.suffixOf name
    match content with
    | .workflow definitions =>
      if suffix = ".py" then ofWorkflow name definitions else .error (.unsupported name)
    | .bytes blob =>
      if suffix = ".py" then ofWorkflow name []
      else if documentSuffixes.contains suffix then
        match Blob.decode blob with
        | .ok text => ofText name (String.ofList (plainLines text.toList))
        | .error f => .error (.undecodable f)
      else .error (.unsupported name)

end Conveyor.Document
