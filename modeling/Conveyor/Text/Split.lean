/-! Cutting text into parts. -/

namespace Conveyor.Text

/-- The parts of a text between separators; one more part than there are separators. -/
def splitChars (separator : Char) : List Char → List (List Char)
  | [] => [[]]
  | c :: rest =>
    if c = separator then [] :: splitChars separator rest
    else
      match splitChars separator rest with
      | [] => [[c]]
      | part :: parts => (c :: part) :: parts

def split (separator : Char) (s : String) : List String :=
  (splitChars separator s.toList).map String.ofList

def cutChars? (separator : Char) : List Char → Option (List Char × List Char)
  | [] => none
  | c :: rest =>
    if c = separator then some ([], rest)
    else (cutChars? separator rest).map fun (before, after) => (c :: before, after)

/-- What stands before and after the first separator, if there is one. -/
def cut? (separator : Char) (s : String) : Option (String × String) :=
  (cutChars? separator s.toList).map fun (before, after) =>
    (String.ofList before, String.ofList after)

/-- What stands before the first separator; the whole text if there is none. -/
def before (separator : Char) (s : String) : String :=
  String.ofList (s.toList.takeWhile (· ≠ separator))

/-- What stands after the last separator; the whole text if there is none. -/
def afterLast (separator : Char) (s : String) : String :=
  String.ofList (s.toList.reverse.takeWhile (· ≠ separator)).reverse

def dropStart? : List Char → List Char → Option (List Char)
  | [], rest => some rest
  | _ :: _, [] => none
  | c :: start, d :: rest => if c = d then dropStart? start rest else none

theorem dropStart?_eq_some_iff {start s rest : List Char} :
    dropStart? start s = some rest ↔ s = start ++ rest := by
  induction start generalizing s with
  | nil => simp [dropStart?]
  | cons c start ih =>
    cases s with
    | nil => simp [dropStart?]
    | cons d s =>
      by_cases same : c = d
      · simp [dropStart?, same, ih]
      · simp [dropStart?, same, Ne.symm same]

def startsWith (s start : List Char) : Bool := (dropStart? start s).isSome

def endsWith (s finish : List Char) : Bool := startsWith s.reverse finish.reverse

def contains : List Char → List Char → Bool
  | [], part => part.isEmpty
  | c :: rest, part => startsWith (c :: rest) part || contains rest part

def isLineEnd (c : Char) : Bool :=
  let n := c.toNat
  (0x0a ≤ n && n ≤ 0x0d) || (0x1c ≤ n && n ≤ 0x1e) || n == 0x85 || n == 0x2028 || n == 0x2029

/-- The lines of a text. A carriage return and a line feed after it end one line together, and a
line end at the very end starts no further line. -/
def lineChars : List Char → List (List Char)
  | [] => []
  | '\r' :: '\n' :: rest => [] :: lineChars rest
  | c :: rest =>
    if isLineEnd c then [] :: lineChars rest
    else
      match rest, lineChars rest with
      | [], _ => [[c]]
      | d :: _, line :: lines => if isLineEnd d then [c] :: lines else (c :: line) :: lines
      | _, [] => [[c]]

def lines (s : String) : List String := (lineChars s.toList).map String.ofList

def le (a b : String) : Bool := decide (a ≤ b)

def sorted (items : List String) : List String := items.mergeSort le

def sortedSet (items : List String) : List String := sorted items.eraseDups

end Conveyor.Text
