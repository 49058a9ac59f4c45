import Conveyor.Blob

/-! Bytes written in base sixty-four: four characters for three bytes, filled up with padding. Reading
is lenient: characters outside the alphabet are skipped, and everything after the padding is ignored. -/

namespace Conveyor.Base64

def sextet? (c : Char) : Option Nat :=
  if 'A' ≤ c ∧ c ≤ 'Z' then some (c.toNat - 'A'.toNat)
  else if 'a' ≤ c ∧ c ≤ 'z' then some (c.toNat - 'a'.toNat + 26)
  else if '0' ≤ c ∧ c ≤ '9' then some (c.toNat - '0'.toNat + 52)
  else if c = '+' then some 62
  else if c = '/' then some 63
  else none

/-- The bytes from a place inside a group of four on, given the bits that are left from the group's
last character and the padding met so far. A group that is neither full nor padded has no value. -/
def decodeFrom? (position left pads : Nat) : List Char → Option Blob
  | [] => if position = 0 then some [] else none
  | c :: rest =>
    if c = '=' then
      if position < 2 then decodeFrom? position left pads rest
      else if 4 ≤ position + pads + 1 then some []
      else decodeFrom? position left (pads + 1) rest
    else
      match sextet? c with
      | none => decodeFrom? position left pads rest
      | some bits =>
        match position with
        | 0 => decodeFrom? 1 bits 0 rest
        | 1 => (decodeFrom? 2 (bits % 16) 0 rest).map (UInt8.ofNat (4 * left + bits / 16) :: ·)
        | 2 => (decodeFrom? 3 (bits % 4) 0 rest).map (UInt8.ofNat (16 * left + bits / 4) :: ·)
        | _ => (decodeFrom? 0 0 0 rest).map (UInt8.ofNat (64 * left + bits) :: ·)

def decode? (s : String) : Option Blob := decodeFrom? 0 0 0 s.toList

end Conveyor.Base64
