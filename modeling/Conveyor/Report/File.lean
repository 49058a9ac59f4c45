import Conveyor.Report
import Conveyor.Workspace.Basic

/-! The file of a report in the workspace. -/

namespace Conveyor

inductive SaveFault where
  | unusable (f : ValueFault)
  | unnamed (path : Path)
  | blocked (f : PlaceFault)
  | isFolder (draft path : Path)
  deriving DecidableEq, Repr

def SaveFault.message : SaveFault → String
  | .unusable f => f.message
  | .unnamed path => "PosixPath(" ++ Text.quoted path.text ++ ") has an empty name"
  | .blocked f => f.message
  | .isFolder draft path =>
    "[Errno 21] Is a directory: " ++ Text.quoted draft.text ++ " -> " ++ Text.quoted path.text

def Path.draft (p : Path) : Path := { p with parts := p.parts.dropLast ++ [p.name ++ ".tmp"] }

def RunReport.save (r : RunReport) (w : Workspace) (path : Path) :
    Workspace × Except SaveFault Unit :=
  match w.folderFault? path.folder with
  | some fault => (w, .error (.blocked fault))
  | none =>
    let w := w.makeFolders path.folder
    if path.name = "" then (w, .error (.unnamed path))
    else
      match r.fileText, Workspace.locate? path with
      | .error f, _ => (w, .error (.unusable f))
      | .ok _, none => (w, .ok ())
      | .ok text, some place =>
        if w.isFolder place then
          match Workspace.locate? path.draft with
          | some draft => (w.write draft (Blob.ofText text), .error (.isFolder path.draft path))
          | none => (w, .error (.isFolder path.draft path))
        else (w.write place (Blob.ofText text), .ok ())

end Conveyor
