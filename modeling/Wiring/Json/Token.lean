import Wiring.Json.Basic
import Wiring.Text.Basic

/-!
# The tokens of a JSON text

`tokens?` cuts a text into brackets, separators, strings and the other scalars.  White space between
them is one of space, tab, line feed and carriage return.  A string holds no raw control character,
and an escaped code unit of a surrogate pair must stand in such a pair.
-/

namespace Wiring.Json

open Text (hexValue? decimalValue)

inductive Token where
  | openArray
  | closeArray
  | openObject
  | closeObject
  | comma
  | colon
  | text (s : String)
  | scalar (v : Json)

/-- A part of a string: a character, or a code unit that was given by its number. -/
inductive Piece where
  | char (c : Char)
  | codeUnit (n : Nat)

/-- The character that a backslash and one more character stand for. -/
def escaped? (c : Char) : Option Char :=
  match c with
  | '"' => some '"'
  | '\\' => some '\\'
  | '/' => some '/'
  | 'b' => some '\x08'
  | 'f' => some '\x0c'
  | 'n' => some '\n'
  | 'r' => some '\r'
  | 't' => some '\t'
  | _ => none

/-- The parts of a string up to its closing quote, and what follows the quote. -/
def pieces? : List Char → Option (List Piece × List Char)
  | [] => none
  | '"' :: rest => some ([], rest)
  | '\\' :: 'u' :: a :: b :: c :: d :: rest => do
    let n ← hexValue? [a, b, c, d]
    let (ps, after) ← pieces? rest
    return (.codeUnit n :: ps, after)
  | '\\' :: e :: rest => do
    let c ← escaped? e
    let (ps, after) ← pieces? rest
    return (.char c :: ps, after)
  | c :: rest =>
    if c.toNat < 0x20 then none
    else do
      let (ps, after) ← pieces? rest
      return (.char c :: ps, after)

/-- The characters of a string, where two code units of a surrogate pair make one. -/
def joinPieces? : List Piece → Option (List Char)
  | [] => some []
  | .char c :: rest => (joinPieces? rest).map (c :: ·)
  | .codeUnit n :: rest =>
    if 0xD800 ≤ n ∧ n < 0xDC00 then
      match rest with
      | .codeUnit m :: rest' =>
        if 0xDC00 ≤ m ∧ m < 0xE000 then
          (joinPieces? rest').map
            (Char.ofNat (0x10000 + (n - 0xD800) * 0x400 + (m - 0xDC00)) :: ·)
        else none
      | _ => none
    else if 0xDC00 ≤ n ∧ n < 0xE000 then none
    else (joinPieces? rest).map (Char.ofNat n :: ·)

/-- Whether a text is an exponent: a mark, a sign or none, and digits. -/
def isExponent : List Char → Bool
  | c :: rest =>
    let digits :=
      match rest with
      | '+' :: ds => ds
      | '-' :: ds => ds
      | ds => ds
    (c == 'e' || c == 'E') && !digits.isEmpty && digits.all Char.isDigit
  | [] => false

/-- Whether a text is what makes a number a real one: a fraction, an exponent or both. -/
def isFraction : List Char → Bool
  | '.' :: rest =>
    let digits := rest.takeWhile Char.isDigit
    let after := rest.dropWhile Char.isDigit
    !digits.isEmpty && (after.isEmpty || isExponent after)
  | rest => isExponent rest

def number? (text : List Char) : Option Json :=
  let body := if text.head? = some '-' then text.tail else text
  let digits := body.takeWhile Char.isDigit
  let after := body.dropWhile Char.isDigit
  if digits.isEmpty || (digits.head? == some '0' && digits.length != 1) then none
  else if after.isEmpty then
    let n := decimalValue digits
    if text.head? = some '-' then
      if n = 0 then some (.real (String.ofList text)) else some (.integer (-n))
    else some (.integer n)
  else if isFraction after then some (.real (String.ofList text))
  else none

def isSpace (c : Char) : Bool :=
  c == ' ' || c == '\t' || c == '\n' || c == '\r'

/-- Whether `c` can stand in a number or in a word such as `true`. -/
def isBare (c : Char) : Bool :=
  c.isAlphanum || c == '+' || c == '-' || c == '.'

def bare? (text : List Char) : Option Json :=
  if text = "null".toList then some .null
  else if text = "true".toList then some (.bool true)
  else if text = "false".toList then some (.bool false)
  else number? text

/-- The token that starts with `c` and goes on in `rest`, and what follows it. -/
def token? (c : Char) (rest : List Char) : Option (Token × List Char) :=
  match c with
  | '[' => some (.openArray, rest)
  | ']' => some (.closeArray, rest)
  | '\x7b' => some (.openObject, rest)
  | '\x7d' => some (.closeObject, rest)
  | ',' => some (.comma, rest)
  | ':' => some (.colon, rest)
  | '"' => do
    let (ps, after) ← pieces? rest
    let cs ← joinPieces? ps
    return (.text (String.ofList cs), after)
  | c => do
    let v ← bare? (c :: rest.takeWhile isBare)
    return (.scalar v, rest.dropWhile isBare)

/-- The tokens of a text that is not longer than `fuel`. -/
def tokensWithin? : (fuel : Nat) → List Char → Option (List Token)
  | _, [] => some []
  | 0, _ :: _ => none
  | fuel + 1, c :: rest =>
    if isSpace c then tokensWithin? fuel rest
    else do
      let (t, after) ← token? c rest
      let ts ← tokensWithin? fuel after
      return t :: ts

def tokens? (s : String) : Option (List Token) :=
  tokensWithin? s.length s.toList

end Wiring.Json
