/-!
# UTF-8

`encode` writes characters as bytes, and `dropBytes?` counts in them. `decode` reads any bytes: each
longest stretch that could begin a character but does not complete one becomes the replacement
character U+FFFD.
-/

namespace FlatQuery.Text.Utf8

def encodeChar (c : Char) : List UInt8 :=
  let n := c.toNat
  let more (k : Nat) : UInt8 := UInt8.ofNat (0x80 + n / Nat.pow 64 k % 64)
  if n < 0x80 then [UInt8.ofNat n]
  else if n < 0x800 then [UInt8.ofNat (0xC0 + n / 64), more 0]
  else if n < 0x10000 then [UInt8.ofNat (0xE0 + n / 0x1000), more 1, more 0]
  else [UInt8.ofNat (0xF0 + n / 0x40000), more 2, more 1, more 0]

def encode (cs : List Char) : List UInt8 :=
  cs.flatMap encodeChar

/-- What is left of a text after its first `n` bytes, if they end where a character ends. -/
def dropBytes? : (n : Nat) → List Char → Option (List Char)
  | 0, cs => some cs
  | _ + 1, [] => none
  | n + 1, c :: cs =>
    let size := (encodeChar c).length
    if size ≤ n + 1 then dropBytes? (n + 1 - size) cs else none

def replacement : Char := Char.ofNat 0xFFFD

/-- A character of which `missing` bytes are still to come; the next one lies between `least` and
`greatest`. -/
structure Begun where
  value : Nat
  missing : Nat
  least : Nat
  greatest : Nat

/-- What the first byte of a character says: the character itself, or how it goes on. A byte that
begins no character stands for the replacement character. -/
def begin? (b : Nat) : List Char × Option Begun :=
  if b < 0x80 then ([Char.ofNat b], none)
  else if 0xC2 ≤ b ∧ b ≤ 0xDF then ([], some ⟨b - 0xC0, 1, 0x80, 0xBF⟩)
  else if b = 0xE0 then ([], some ⟨0, 2, 0xA0, 0xBF⟩)
  else if b = 0xED then ([], some ⟨0xD, 2, 0x80, 0x9F⟩)
  else if 0xE1 ≤ b ∧ b ≤ 0xEF then ([], some ⟨b - 0xE0, 2, 0x80, 0xBF⟩)
  else if b = 0xF0 then ([], some ⟨0, 3, 0x90, 0xBF⟩)
  else if 0xF1 ≤ b ∧ b ≤ 0xF3 then ([], some ⟨b - 0xF0, 3, 0x80, 0xBF⟩)
  else if b = 0xF4 then ([], some ⟨4, 3, 0x80, 0x8F⟩)
  else ([replacement], none)

/-- Reads one byte: the characters it completes, and the character it leaves begun. -/
def advance (begun : Option Begun) (b : Nat) : List Char × Option Begun :=
  match begun with
  | none => begin? b
  | some s =>
    if s.least ≤ b ∧ b ≤ s.greatest then
      let value := s.value * 64 + (b - 0x80)
      if s.missing ≤ 1 then ([Char.ofNat value], none)
      else ([], some ⟨value, s.missing - 1, 0x80, 0xBF⟩)
    else
      let (out, next) := begin? b
      (replacement :: out, next)

def decodeFrom (begun : Option Begun) : List UInt8 → List Char
  | [] => if begun.isSome then [replacement] else []
  | b :: bs =>
    let (out, next) := advance begun b.toNat
    out ++ decodeFrom next bs

def decode (bytes : List UInt8) : String :=
  String.ofList (decodeFrom none bytes)

end FlatQuery.Text.Utf8
