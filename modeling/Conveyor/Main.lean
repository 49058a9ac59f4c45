import Conveyor.CommandLine.Session

/-! The program: it takes the current folder as the workspace, rehearses what its arguments ask for,
prints what the user is told, and brings the files of the folder up to date. Commands of steps are not
started, so each of them counts as one that is not found. -/

namespace Conveyor.CommandLine

def ignoredFolders : List String := [".git"]

def greatestDepth : Nat := 32

def readFolder (depth : Nat) (place : Place) (entries : Array IO.FS.DirEntry) (w : Workspace) :
    IO Workspace := do
  let mut w := w
  for entry in entries do
    let here := place ++ [entry.fileName]
    if ← entry.path.isDir then
      match depth with
      | 0 => pure ()
      | depth + 1 =>
        unless ignoredFolders.contains entry.fileName do
          w ← readFolder depth here (← entry.path.readDir) (w.makeFolder here)
    else
      let bytes ← IO.FS.readBinFile entry.path
      w := w.write here bytes.toList
  return w

def settingVariables : IO (Table String String) := do
  let found ← Settings.variableNames.mapM fun name => do
    return (← IO.getEnv name).map fun value => (name, value)
  return found.filterMap id

end Conveyor.CommandLine

open Conveyor CommandLine in
def main (args : List String) : IO UInt32 := do
  let folder ← IO.currentDir
  let workspace ← readFolder greatestDepth [] (← folder.readDir) { root := folder.toString }
  let ending := execute { workspace, environment := ← settingVariables } args
  IO.print ending.output
  IO.eprint ending.errors
  for name in ending.scene.workspace.removals workspace do
    IO.FS.removeFile (folder / name)
  for (name, blob) in ending.scene.workspace.changes workspace do
    let path := folder / name
    if let some parent := path.parent then IO.FS.createDirAll parent
    IO.FS.writeBinFile path ⟨blob.toArray⟩
  return ending.code.toUInt32
