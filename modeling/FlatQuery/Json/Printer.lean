import FlatQuery.Json.Basic

/-!
# JSON text

Values are written without white space. In strings only the quote, the backslash and the control
characters below U+0020 are escaped.
-/

namespace FlatQuery.Json

/-- The digit for `n` below sixteen. -/
def hexDigit (n : Nat) : Char :=
  if n < 10 then Char.ofNat (48 + n) else Char.ofNat (87 + n)

def escapeChar (c : Char) : List Char :=
  if c = '"' then ['\\', '"']
  else if c = '\\' then ['\\', '\\']
  else if c.toNat < 0x20 then
    if c.toNat = 8 then ['\\', 'b']
    else if c.toNat = 9 then ['\\', 't']
    else if c.toNat = 10 then ['\\', 'n']
    else if c.toNat = 12 then ['\\', 'f']
    else if c.toNat = 13 then ['\\', 'r']
    else ['\\', 'u', '0', '0', hexDigit (c.toNat / 16), hexDigit (c.toNat % 16)]
  else [c]

def quote (s : String) : String :=
  String.ofList ('"' :: s.toList.flatMap escapeChar ++ ['"'])

mutual

/-- The compact text of a value. -/
def text : Json → String
  | .null => "null"
  | .bool b => if b then "true" else "false"
  | .num n => n.text
  | .str s => quote s
  | .arr items => "[" ++ textItems "" items ++ "]"
  | .obj members => "\x7b" ++ textMembers "" members ++ "\x7d"
termination_by structural v => v

/-- The items of an array; `lead` is written before the first. -/
def textItems (lead : String) : List Json → String
  | [] => ""
  | v :: vs => lead ++ text v ++ textItems "," vs
termination_by structural vs => vs

def textMembers (lead : String) : List (String × Json) → String
  | [] => ""
  | (k, v) :: ms => lead ++ quote k ++ ":" ++ text v ++ textMembers "," ms
termination_by structural ms => ms

end

end FlatQuery.Json
