import Wiring.Text.Basic

/-!
# Numbers of TOML

Underscores may stand between two digits.  A decimal number has no zero in front of its other digits.
Integers have 64 bits, and a real number must not be too large for the nearest double, unless it is
negative.
-/

namespace Wiring.Toml

open Text (value?)

/-- The digits of a run in which every underscore stands between two of them. -/
def digits? (isDigit : Char → Bool) (run : List Char) : Option (List Char) :=
  let parts := run.splitOn '_'
  if parts.all fun part => !part.isEmpty && part.all isDigit then some parts.flatten else none

/-- The digits of a decimal run without needless zeros. -/
def wholeDigits? (run : List Char) : Option (List Char) :=
  if run.head? = some '0' ∧ run.length ≠ 1 then none else digits? Char.isDigit run

/-- A text without its sign, and whether that is a minus. -/
def unsigned : List Char → Bool × List Char
  | '+' :: rest => (false, rest)
  | '-' :: rest => (true, rest)
  | text => (false, text)

def based? (base : Nat) (run : List Char) : Option Int := do
  let n ← value? base (← digits? (fun c => (Text.digit? base c).isSome) run)
  if n < Nat.pow 2 63 then return n else none

def decimal? (text : List Char) : Option Int := do
  let (negative, run) := unsigned text
  let n ← value? 10 (← wholeDigits? run)
  if negative then if n ≤ Nat.pow 2 63 then return -n else none
  else if n < Nat.pow 2 63 then return n else none

def integer? : List Char → Option Int
  | '0' :: 'x' :: run => based? 16 run
  | '0' :: 'o' :: run => based? 8 run
  | '0' :: 'b' :: run => based? 2 run
  | text => decimal? text

/-- The exponent that a text with a mark in front is; no text at all is the exponent zero. -/
def exponent? : List Char → Option Int
  | [] => some 0
  | mark :: rest => do
    let (negative, run) := unsigned rest
    let n ← value? 10 (← digits? Char.isDigit run)
    if mark ≠ 'e' ∧ mark ≠ 'E' then none else return if negative then -n else n

/-- Whether `n` times that power of ten has no nearest double. -/
def tooLarge (n : Nat) (power : Int) : Bool :=
  let size := (Nat.toDigits 10 n).length + power
  let bound := Nat.pow 2 1024 - Nat.pow 2 970
  if n = 0 ∨ size < 300 then false
  else if 310 < size then true
  else bound * Nat.pow 10 (-power).toNat ≤ n * Nat.pow 10 power.toNat

/-- Whether a text is a real number with a fraction or an exponent. -/
def isFraction (text : List Char) : Bool :=
  let (negative, run) := unsigned text
  let isWhole (c : Char) : Bool := c.isDigit || c == '_'
  let after := run.dropWhile isWhole
  let (fraction, exponent) :=
    match after with
    | '.' :: rest => (some (rest.takeWhile isWhole), rest.dropWhile isWhole)
    | rest => (none, rest)
  let read : Option Bool := do
    let whole ← wholeDigits? (run.takeWhile isWhole)
    let places ← (fraction.map (digits? Char.isDigit)).getD (some [])
    let power ← exponent? exponent
    let n ← value? 10 (whole ++ places)
    return !after.isEmpty && (negative || !tooLarge n (power - places.length))
  read.getD false

def isReal (text : List Char) : Bool :=
  let run := (unsigned text).2
  run == "inf".toList || run == "nan".toList || isFraction text

end Wiring.Toml
