import Conveyor.Text.Split

/-! The words of a command line, taken apart into options and other words. -/

namespace Conveyor.CommandLine

inductive Arity where
  | flag
  | valued
  deriving DecidableEq, Repr

structure Given where
  name : String
  value : String := ""
  deriving DecidableEq, Repr

structure Arguments where
  given : List Given := []
  rest : List String := []
  deriving DecidableEq, Repr

namespace Arguments

def withOption (name value : String) (a : Arguments) : Arguments :=
  { a with given := ⟨name, value⟩ :: a.given }

def withWord (word : String) (a : Arguments) : Arguments := { a with rest := word :: a.rest }

def isOption : List Char → Bool
  | '-' :: _ :: _ => true
  | _ => false

def detach (word : String) : String × Option String :=
  match Text.cut? '=' word with
  | some (name, value) => (name, some value)
  | none => (word, none)

/-- Takes the words apart; none if an option is not known, lacks its value, or has one that it does
not take. Two dashes end the options. If leading, so does the first other word. -/
def split (arity : String → Option Arity) (leading : Bool) : List String → Option Arguments
  | [] => some {}
  | word :: words =>
    if word = "--" then some { rest := words }
    else if isOption word.toList then
      match arity (detach word).1, (detach word).2, words with
      | some .flag, none, words => (split arity leading words).map (withOption word "")
      | some .valued, some value, words =>
        (split arity leading words).map (withOption (detach word).1 value)
      | some .valued, none, value :: words =>
        (split arity leading words).map (withOption word value)
      | _, _, _ => none
    else if leading then some { rest := word :: words }
    else (split arity leading words).map (withWord word)

def latest : List Given → List Given
  | [] => []
  | g :: rest => if rest.any (·.name == g.name) then latest rest else g :: latest rest

end Arguments
end Conveyor.CommandLine
