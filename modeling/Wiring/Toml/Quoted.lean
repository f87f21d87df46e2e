import Wiring.Text.Basic

/-!
# Quoted texts of TOML

A text stands between two quotes, or, if it may have several lines, between two times three.  Between
double quotes a backslash starts an escape; between single ones everything stands for itself.  Up to
two quotes may stand right before three that close a text.

In a text of several lines a line feed at the start does not count, a carriage return belongs to the
line feed behind it, and a backslash at the end of a line takes away all white space up to the next
character.
-/

namespace Wiring.Toml

/-- Whether `c` may stand in a line as it is. -/
def isPlain (c : Char) : Bool :=
  c == '\t' || (0x20 ≤ c.toNat && c.toNat != 0x7F)

def isGap (c : Char) : Bool :=
  c == ' ' || c == '\t'

/-- What stands before the first quote that is not escaped, and what follows the quote. -/
def closing? (quote : Char) (escapes : Bool) : List Char → Option (List Char × List Char)
  | [] => none
  | [c] => if c = quote then some ([], []) else none
  | c :: d :: rest =>
    if c = quote then some ([], d :: rest)
    else if escapes && c == '\\' then
      (closing? quote escapes rest).map fun (body, after) => (c :: d :: body, after)
    else (closing? quote escapes (d :: rest)).map fun (body, after) => (c :: body, after)

/-- What stands before the first three quotes that are not escaped, and what follows them. -/
def closingThree? (quote : Char) (escapes : Bool) : List Char → Option (List Char × List Char)
  | [] => none
  | [_] => none
  | c :: d :: rest =>
    let quotes := ((c :: d :: rest).takeWhile (· == quote)).take 5
    if 3 ≤ quotes.length then some (quotes.drop 3, (c :: d :: rest).drop quotes.length)
    else if escapes && c == '\\' then
      (closingThree? quote escapes rest).map fun (body, after) => (c :: d :: body, after)
    else (closingThree? quote escapes (d :: rest)).map fun (body, after) => (c :: body, after)

/-- The character that a backslash and one more character stand for. -/
def escape? : Char → Option Char
  | '"' => some '"'
  | '\\' => some '\\'
  | 'b' => some '\x08'
  | 'f' => some '\x0c'
  | 'n' => some '\n'
  | 'r' => some '\r'
  | 't' => some '\t'
  | _ => none

def numbered? (run : List Char) : Option Char := do
  let n ← Text.hexValue? run
  if n.isValidChar then return Char.ofNat n else none

/-- The character that follows a backslash, and the rest. -/
def escaped? : List Char → Option (Char × List Char)
  | 'u' :: rest =>
    if rest.length < 4 then none else (numbered? (rest.take 4)).map (·, rest.drop 4)
  | 'U' :: rest =>
    if rest.length < 8 then none else (numbered? (rest.take 8)).map (·, rest.drop 8)
  | c :: rest => (escape? c).map (·, rest)
  | [] => none

/-- What a backslash and the text behind it amount to, and the rest of the text. -/
def unescaped? (rest : List Char) : Option (List Char × List Char) :=
  if (rest.dropWhile isGap).head? = some '\n' then
    some ([], rest.dropWhile fun c => isGap c || c == '\n')
  else (escaped? rest).map fun (c, after) => ([c], after)

/-- A text that is not longer than `fuel`, with the characters that its escapes stand for. -/
def decodeWithin? : (fuel : Nat) → List Char → Option (List Char)
  | _, [] => some []
  | 0, _ :: _ => none
  | fuel + 1, '\\' :: rest => do
    let (cs, after) ← unescaped? rest
    return cs ++ (← decodeWithin? fuel after)
  | fuel + 1, c :: rest => (decodeWithin? fuel rest).map (c :: ·)

def decode? (escapes : Bool) (body : List Char) : Option String :=
  (if escapes then decodeWithin? body.length body else some body).map String.ofList

/-- The text in which line feeds have no carriage return before them. -/
def dropReturns : List Char → List Char
  | '\r' :: '\n' :: rest => '\n' :: dropReturns rest
  | c :: rest => c :: dropReturns rest
  | [] => []

/-- A text in one line whose opening quote was read, and what follows its closing quote. -/
def shortText? (quote : Char) (text : List Char) : Option (String × List Char) := do
  let escapes := quote == '"'
  let (body, after) ← closing? quote escapes text
  if body.all isPlain then return (← decode? escapes body, after) else none

/-- A text whose opening three quotes were read, and what follows its closing ones. -/
def longText? (quote : Char) (text : List Char) : Option (String × List Char) := do
  let escapes := quote == '"'
  let (body, after) ← closingThree? quote escapes text
  let body := dropReturns body
  let body := if body.head? = some '\n' then body.tail else body
  if body.all fun c => isPlain c || c == '\n' then return (← decode? escapes body, after) else none

end Wiring.Toml
