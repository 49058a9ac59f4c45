import Conveyor.Text.Split

/-! Paths as they are written, without empty parts and parts that stand for the same folder. -/

namespace Conveyor

structure Path where
  /-- The slashes that it starts with: none, one, or two, which are not the same as one. -/
  anchor : String := ""
  parts : List String := []
  deriving DecidableEq, Repr, Inhabited

namespace Path

def absolute (p : Path) : Bool := p.anchor != ""

/-- The slashes that count at the start of a path; three and more count as one. -/
def anchorOf (s : String) : String :=
  match (s.toList.takeWhile (· = '/')).length with
  | 0 => ""
  | 2 => "//"
  | _ => "/"

def ofText (s : String) : Path :=
  { anchor := anchorOf s
    parts := (Text.split '/' s).filter fun part => part != "" && part != "." }

def text (p : Path) : String :=
  if p.absolute then p.anchor ++ "/".intercalate p.parts
  else if p.parts.isEmpty then "."
  else "/".intercalate p.parts

def join (base p : Path) : Path :=
  if p.absolute then p else { base with parts := base.parts ++ p.parts }

def name (p : Path) : String := p.parts.getLast?.getD ""

/-- The end of a file name from its last dot on. A dot at the start or the end does not count. -/
def suffixOf (name : String) : String :=
  let cs := name.toList
  let tail := (cs.reverse.takeWhile (· ≠ '.')).reverse
  let head := cs.length - tail.length
  if tail.isEmpty ∨ head ≤ 1 then "" else "." ++ String.ofList tail

def suffix (p : Path) : String := suffixOf p.name

end Path
end Conveyor
