import Conveyor.Text.Quoted
import Conveyor.Value.Basic
import Conveyor.Workspace.Path

/-! The folder in which a run works: its files, and the folders in it. -/

namespace Conveyor

inductive WorkflowBody where
  | document (doc : Value)
  | value (v : Value)
  | failure (message : String)
  deriving Repr

/-- What a name of a workflow file stands for: a pipeline declared by a document, a plain value, a
function, or the helper that puts pipelines together. -/
inductive Definition where
  | document (doc : Value)
  | value (v : Value)
  | function (body : WorkflowBody)
  | helper
  deriving Repr

inductive Content where
  | bytes (blob : Blob)
  | workflow (definitions : Table String Definition)
  deriving Repr

abbrev Place := List String

structure Workspace where
  root : String
  files : Table Place Content := []
  folders : List Place := []
  deriving Repr

namespace Workspace

/-- The place one part of a path further; none outside the root. -/
def next? (place : Place) (part : String) : Option Place :=
  if part = ".." then if place.isEmpty then none else some place.dropLast
  else some (place ++ [part])

/-- The places that the parts of a path lead through, from a place; none if they leave the root. -/
def stations? (place : Place) : List String → Option (List Place)
  | [] => some []
  | part :: rest => do
    let next ← next? place part
    return next :: (← stations? next rest)

def follow (place : Place) (parts : List String) : Option Place :=
  (stations? place parts).map fun places => places.getLast?.getD place

def locate? (p : Path) : Option Place := if p.absolute then none else follow [] p.parts

def placeText (w : Workspace) (place : Place) : String := "/".intercalate (w.root :: place)

def fullText (w : Workspace) (p : Path) : String :=
  match locate? p with
  | some place => w.placeText place
  | none =>
    if p.absolute then
      "/" ++ "/".intercalate (p.parts.foldl (fun place part => (next? place part).getD []) [])
    else w.root ++ "/" ++ p.text

def content? (w : Workspace) (place : Place) : Option Content := w.files.get? place

def isFile (w : Workspace) (place : Place) : Bool := w.files.has place

def isFolder (w : Workspace) (place : Place) : Bool := place.isEmpty || w.folders.contains place

def occupied (w : Workspace) (place : Place) : Bool := w.isFile place || w.isFolder place

/-- The place that a path leads to through existing folders; none outside the root. -/
def reach? (w : Workspace) (p : Path) : Option Place := do
  let places ← if p.absolute then none else stations? [] p.parts
  if places.dropLast.all w.isFolder then return places.getLast?.getD [] else none

def has (w : Workspace) (p : Path) : Bool := (w.reach? p).any w.occupied

def read? (w : Workspace) (place : Place) : Option Blob :=
  match w.content? place with
  | some (.bytes blob) => some blob
  | some (.workflow _) => some []
  | none => none

def makeFolder (w : Workspace) (place : Place) : Workspace :=
  let missing := ((List.range (place.length + 1)).map place.take).filter fun p => !w.isFolder p
  { w with folders := w.folders ++ missing }

def put (w : Workspace) (place : Place) (content : Content) : Workspace :=
  let w := w.makeFolder place.dropLast
  { w with files := w.files.insert place content }

def write (w : Workspace) (place : Place) (blob : Blob) : Workspace := w.put place (.bytes blob)

def remove (w : Workspace) (place : Place) : Workspace := { w with files := w.files.erase place }

def move (w : Workspace) (source target : Place) : Workspace :=
  match w.content? source with
  | some content => { w with files := (w.files.erase source).insert target content }
  | none => w

def removeFolder (w : Workspace) (place : Place) : Workspace :=
  { w with
    files := w.files.filter fun (p, _) => !(p.dropLast == place && p.length == place.length + 1)
    folders := w.folders.filter (· ≠ place) }

def relativeText (place : Place) : String := "/".intercalate place

/-- The files that are new or hold other bytes than before, in the order of their paths. -/
def changes (w before : Workspace) : List (String × Blob) :=
  let changed := w.files.filterMap fun (place, content) =>
    match content with
    | .bytes blob =>
      if before.read? place = some blob then none else some (relativeText place, blob)
    | .workflow _ => none
  changed.mergeSort fun a b => Text.le a.1 b.1

def removals (w before : Workspace) : List String :=
  (before.files.filter fun (place, _) => !w.isFile place).map fun (place, _) => relativeText place

end Workspace

def Path.folder (p : Path) : Path := { p with parts := p.parts.dropLast }

/-- Why a file cannot be written: its folder is a file or lies in one, or there is a folder where the
file would be. -/
inductive PlaceFault where
  | folderIsFile (folder : Path)
  | insideFile (folder : Path)
  | isFolder (path : Path)
  deriving DecidableEq, Repr

namespace PlaceFault

def kind : PlaceFault → String
  | .folderIsFile _ => "FileExistsError"
  | .insideFile _ => "NotADirectoryError"
  | .isFolder _ => "IsADirectoryError"

def within (root : String) : PlaceFault → PlaceFault
  | .folderIsFile folder => .folderIsFile ((Path.ofText root).join folder)
  | .insideFile folder => .insideFile ((Path.ofText root).join folder)
  | .isFolder path => .isFolder ((Path.ofText root).join path)

def message : PlaceFault → String
  | .folderIsFile folder => "[Errno 17] File exists: " ++ Text.quoted folder.text
  | .insideFile folder => "[Errno 20] Not a directory: " ++ Text.quoted folder.text
  | .isFolder path => "[Errno 21] Is a directory: " ++ Text.quoted path.text

end PlaceFault

namespace Workspace

def stationsOf (p : Path) : List Place :=
  if p.absolute then [] else (stations? [] p.parts).getD []

/-- Why a folder cannot be made: it is a file, or the way to it leads through one. -/
def folderFault? (w : Workspace) (folder : Path) : Option PlaceFault :=
  let places := stationsOf folder
  if places.getLast?.any w.isFile then some (.folderIsFile folder)
  else if places.any w.isFile then some (.insideFile folder)
  else none

def makeFolders (w : Workspace) (folder : Path) : Workspace := (stationsOf folder).foldl makeFolder w

/-- Writes bytes to the file at a path, and makes the folders that it lies in. What lies outside the
root is not seen. -/
def save (w : Workspace) (path : Path) (blob : Blob) : Except PlaceFault Workspace :=
  match w.folderFault? path.folder, locate? path with
  | some fault, _ => .error fault
  | none, none => .ok w
  | none, some place =>
    let w := w.makeFolders path.folder
    if w.isFolder place then .error (.isFolder path) else .ok (w.write place blob)

end Workspace
end Conveyor
