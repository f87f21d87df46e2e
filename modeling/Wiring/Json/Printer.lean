import Wiring.Json.Basic

/-!
# Writing JSON

`compact` writes a value without white space; `pretty` starts a new line, indented by two spaces a
level, for every item and every field, and puts a space after the colon of a field.  In strings only
the quote, the backslash and the control characters are escaped.
-/

namespace Wiring.Json

/-- A character as it stands in a string. -/
def escapeChar (c : Char) : List Char :=
  if c = '"' then ['\\', '"']
  else if c = '\\' then ['\\', '\\']
  else if c = '\x08' then ['\\', 'b']
  else if c = '\t' then ['\\', 't']
  else if c = '\n' then ['\\', 'n']
  else if c = '\x0c' then ['\\', 'f']
  else if c = '\r' then ['\\', 'r']
  else if c.toNat < 0x20 then
    ['\\', 'u', '0', '0', Nat.digitChar (c.toNat / 16), Nat.digitChar (c.toNat % 16)]
  else [c]

def encodeString (s : String) : String :=
  String.ofList ('"' :: s.toList.flatMap escapeChar ++ ['"'])

def encodeInteger : Int → String
  | .ofNat n => String.ofList (Nat.toDigits 10 n)
  | .negSucc n => String.ofList ('-' :: Nat.toDigits 10 (n + 1))

mutual

def compact : Json → String
  | null => "null"
  | bool b => if b then "true" else "false"
  | integer n => encodeInteger n
  | real text => text
  | string s => encodeString s
  | array items => "[" ++ compactItems true items ++ "]"
  | object fields => "\x7b" ++ compactFields true fields ++ "\x7d"

/-- The items from the `first` one on, or from a later one. -/
def compactItems (first : Bool) : List Json → String
  | [] => ""
  | v :: rest => (if first then "" else ",") ++ compact v ++ compactItems false rest

def compactFields (first : Bool) : List (String × Json) → String
  | [] => ""
  | (key, v) :: rest =>
    (if first then "" else ",") ++ encodeString key ++ ":" ++ compact v ++ compactFields false rest

end

def newLine (level : Nat) : String :=
  String.ofList ('\n' :: List.replicate (2 * level) ' ')

mutual

/-- The value on indented lines, at a level of nesting. -/
def prettyAt (level : Nat) : Json → String
  | array [] => "[]"
  | array (v :: rest) =>
    "[" ++ newLine (level + 1) ++ prettyAt (level + 1) v ++ prettyItems (level + 1) rest ++
      newLine level ++ "]"
  | object [] => "\x7b\x7d"
  | object ((key, v) :: rest) =>
    "\x7b" ++ newLine (level + 1) ++ encodeString key ++ ": " ++ prettyAt (level + 1) v ++
      prettyFields (level + 1) rest ++ newLine level ++ "\x7d"
  | null => "null"
  | bool b => if b then "true" else "false"
  | integer n => encodeInteger n
  | real text => text
  | string s => encodeString s

def prettyItems (level : Nat) : List Json → String
  | [] => ""
  | v :: rest => "," ++ newLine level ++ prettyAt level v ++ prettyItems level rest

def prettyFields (level : Nat) : List (String × Json) → String
  | [] => ""
  | (key, v) :: rest =>
    "," ++ newLine level ++ encodeString key ++ ": " ++ prettyAt level v ++ prettyFields level rest

end

def pretty (v : Json) : String :=
  prettyAt 0 v

end Wiring.Json
