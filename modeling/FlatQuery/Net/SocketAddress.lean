/-!
# Socket addresses

The written form of an address and a port: `127.0.0.1:80` or `[::1]:80`. An address of the second
kind has eight groups of up to four hexadecimal digits; a double colon stands for groups of zeros, the
last two groups may be written as an address of the first kind, and a scope may follow after a
percent sign. Every reader here takes its part off the front of a text.
-/

namespace FlatQuery.SocketAddress

abbrev Reader (α : Type) := List Char → Option (α × List Char)

/-- Takes one given character. -/
def char (c : Char) : Reader Unit
  | d :: cs => if d = c then some ((), cs) else none
  | [] => none

/-- Takes all digits of a base off the front; there has to be one. -/
def digits (isDigit : Char → Bool) : Reader (List Char) := fun cs =>
  let taken := cs.takeWhile isDigit
  if taken.isEmpty then none else some (taken, cs.dropWhile isDigit)

def decimalValue (ds : List Char) : Nat :=
  ds.foldl (fun n d => n * 10 + (d.toNat - 48)) 0

/-- A decimal number below `bound`. -/
def decimal (bound : Nat) : Reader Nat := fun cs => do
  let (ds, rest) ← digits Char.isDigit cs
  guard (decimalValue ds < bound)
  some (decimalValue ds, rest)

/-- One of the four numbers of an address; it has no leading zero. -/
def octet : Reader Nat := fun cs => do
  let (ds, rest) ← digits Char.isDigit cs
  guard (ds.length ≤ 3 ∧ (ds.head? ≠ some '0' ∨ ds.length = 1) ∧ decimalValue ds < 256)
  some (decimalValue ds, rest)

/-- Four numbers with points between them. -/
def fourNumbers : Reader Unit := fun cs => do
  let (_, cs) ← octet cs
  let (_, cs) ← char '.' cs
  let (_, cs) ← octet cs
  let (_, cs) ← char '.' cs
  let (_, cs) ← octet cs
  let (_, cs) ← char '.' cs
  let (_, cs) ← octet cs
  some ((), cs)

def isHexDigit (c : Char) : Bool :=
  c.isDigit || ('a' ≤ c && c ≤ 'f') || ('A' ≤ c && c ≤ 'F')

def group : Reader Unit := fun cs => do
  let (ds, rest) ← digits isHexDigit cs
  guard (ds.length ≤ 4)
  some ((), rest)

/-- What stands between two groups is a colon; nothing stands before the first. -/
def afterColon {α : Type} (first : Bool) (read : Reader α) : Reader α := fun cs =>
  if first then read cs
  else do
    let (_, cs) ← char ':' cs
    read cs

/-- Takes as many groups as there are, at most `room`: their number, whether they end in an address
of four numbers, which counts for two, and the rest. -/
def groups (first : Bool) : (room : Nat) → List Char → Nat × Bool × List Char
  | 0, cs => (0, false, cs)
  | room + 1, cs =>
    match if 0 < room then afterColon first fourNumbers cs else none with
    | some (_, rest) => (2, true, rest)
    | none =>
      match afterColon first group cs with
      | none => (0, false, cs)
      | some (_, rest) =>
        let (n, mixed, rest) := groups false room rest
        (n + 1, mixed, rest)

/-- Eight groups, or fewer with a double colon among them. -/
def eightGroups : Reader Unit := fun cs =>
  let (n, mixed, rest) := groups true 8 cs
  if n = 8 then some ((), rest)
  else if mixed then none
  else do
    let (_, rest) ← char ':' rest
    let (_, rest) ← char ':' rest
    let (_, _, rest) := groups true (7 - n) rest
    some ((), rest)

/-- A scope may be left out; one that cannot be read is not taken. -/
def scope : List Char → List Char
  | '%' :: cs => ((decimal 0x100000000 cs).map Prod.snd).getD ('%' :: cs)
  | cs => cs

def bracketed : Reader Unit := fun cs => do
  let (_, cs) ← char '[' cs
  let (_, cs) ← eightGroups cs
  char ']' (scope cs)

/-- Whether the text is an address of one of the two kinds and a port. -/
def isValid (text : String) : Bool :=
  let address := (fourNumbers text.toList).orElse fun _ => bracketed text.toList
  let port := do
    let (_, cs) ← address
    let (_, cs) ← char ':' cs
    decimal 0x10000 cs
  port.any fun (_, rest) => rest.isEmpty

end FlatQuery.SocketAddress
