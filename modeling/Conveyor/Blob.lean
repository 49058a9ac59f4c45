/-! Blobs: the bytes of artifacts and files. -/

namespace Conveyor

abbrev Blob := List UInt8

namespace Blob

def ofText (s : String) : Blob := s.toUTF8.toList

def toText? (b : Blob) : Option String := String.fromUTF8? ⟨b.toArray⟩

def hexDigit (n : Nat) : Char := Nat.digitChar (n % 16)

def hex (b : Blob) : String :=
  String.ofList (b.flatMap fun byte => [hexDigit (byte.toNat / 16), hexDigit byte.toNat])

def hexValue? (c : Char) : Option Nat :=
  if c.isDigit then some (c.toNat - '0'.toNat)
  else if 'a' ≤ c ∧ c ≤ 'f' then some (c.toNat - 'a'.toNat + 10)
  else if 'A' ≤ c ∧ c ≤ 'F' then some (c.toNat - 'A'.toNat + 10)
  else none

def ofHexChars? : List Char → Option Blob
  | [] => some []
  | [_] => none
  | high :: low :: rest => do
    let h ← hexValue? high
    let l ← hexValue? low
    let bytes ← ofHexChars? rest
    return UInt8.ofNat (16 * h + l) :: bytes

def ofHex? (s : String) : Option Blob := ofHexChars? s.toList

/-- Why bytes are no text: the bytes from a first to a last one begin no character. -/
structure EncodingFault where
  first : Nat
  last : Nat
  byte : UInt8
  reason : String
  deriving DecidableEq, Repr

def EncodingFault.message (f : EncodingFault) : String :=
  "\x27utf-8\x27 codec can\x27t decode " ++
    (if f.first = f.last then s!"byte 0x{hex [f.byte]} in position {f.first}"
     else s!"bytes in position {f.first}-{f.last}") ++
    ": " ++ f.reason

def width? (b : UInt8) : Option Nat :=
  if b < 0x80 then some 1
  else if b < 0xc2 then none
  else if b < 0xe0 then some 2
  else if b < 0xf0 then some 3
  else if b < 0xf5 then some 4
  else none

def mayFollow (first second : UInt8) : Bool :=
  let low : UInt8 := if first == 0xe0 then 0xa0 else if first == 0xf0 then 0x90 else 0x80
  let high : UInt8 := if first == 0xed then 0x9f else if first == 0xf4 then 0x8f else 0xbf
  low ≤ second && second ≤ high

def goodBytes (first : UInt8) (rest : Blob) : Nat :=
  match rest with
  | [] => 0
  | second :: more =>
    if mayFollow first second then 1 + (more.takeWhile fun b => 0x80 ≤ b && b ≤ 0xbf).length else 0

def fault (position : Nat) : Nat → Blob → EncodingFault
  | 0, _ => ⟨position, position, 0, "invalid start byte"⟩
  | _, [] => ⟨position, position, 0, "unexpected end of data"⟩
  | fuel + 1, b :: rest =>
    match width? b with
    | none => ⟨position, position, b, "invalid start byte"⟩
    | some width =>
      let after := rest.take (width - 1)
      let good := if width = 1 then 0 else goodBytes b after
      if good = width - 1 then fault (position + width) fuel (rest.drop (width - 1))
      else if good = after.length then
        ⟨position, position + good, b, "unexpected end of data"⟩
      else ⟨position, position + good, b, "invalid continuation byte"⟩

def decode (b : Blob) : Except EncodingFault String :=
  match toText? b with
  | some s => .ok s
  | none => .error (fault 0 b.length b)

end Blob
end Conveyor
