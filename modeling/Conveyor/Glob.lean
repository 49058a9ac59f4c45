/-! Glob patterns over references and names. A single star stands for characters other than a slash,
two stars for characters other than a line feed, and a question mark for one character other than a
slash; every other character stands for itself. -/

namespace Conveyor
namespace Glob

inductive Item where
  | char (c : Char)
  | one
  | segment
  | anything
  deriving DecidableEq, Repr

/-- The items of a pattern; two stars next to each other are one item. -/
def items : List Char → List Item
  | [] => []
  | '*' :: '*' :: rest => .anything :: items rest
  | '*' :: rest => .segment :: items rest
  | '?' :: rest => .one :: items rest
  | c :: rest => .char c :: items rest

def accepts : List Item → List Char → Bool
  | [], cs => cs.isEmpty
  | .char _ :: _, [] => false
  | .char d :: rest, c :: cs => c == d && accepts rest cs
  | .one :: _, [] => false
  | .one :: rest, c :: cs => c != '/' && accepts rest cs
  | .segment :: rest, [] => accepts rest []
  | .segment :: rest, c :: cs =>
    accepts rest (c :: cs) || (c != '/' && accepts (.segment :: rest) cs)
  | .anything :: rest, [] => accepts rest []
  | .anything :: rest, c :: cs =>
    accepts rest (c :: cs) || (c != '\n' && accepts (.anything :: rest) cs)
termination_by pattern cs => pattern.length + cs.length

end Glob

def globMatches (pattern value : String) : Bool :=
  Glob.accepts (Glob.items pattern.toList) value.toList

end Conveyor
