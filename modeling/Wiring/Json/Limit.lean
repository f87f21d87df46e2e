import Wiring.Json.Fields
import Wiring.Text.Basic

/-!
# Values that a reader can hold

A field that nobody asks for is passed over where it stands.  A value that has to be kept before it is
known what it stands for must be one that can be kept: at most `maxDepth` arrays and objects may be
open at a time, and its numbers must be in the range of a float of 64 bits.

A number is read as one of 64 bits as long as its digits fit.  The digits after that only count as
zeros, behind the point not even that, and a power of ten makes up for them.  The number is out of
range if its product with the power, both rounded to floats, would be infinite.
-/

namespace Wiring.Json

/-- How many arrays and objects may be open at a time. -/
def maxDepth : Nat :=
  127

mutual

/-- How many arrays and objects of a value are open at a time, at most. -/
def depth : Json → Nat
  | array items => depthOfItems items + 1
  | object fields => depthOfFields fields + 1
  | _ => 0

def depthOfItems : List Json → Nat
  | [] => 0
  | v :: rest => max v.depth (depthOfItems rest)

def depthOfFields : List (String × Json) → Nat
  | [] => 0
  | (_, v) :: rest => max v.depth (depthOfFields rest)

end

/-- The number that is made of `n` and the digits behind it as long as it fits 64 bits, and the digits
from the first one that does not. -/
def takeWord (n : Nat) : List Char → Nat × List Char
  | [] => (n, [])
  | c :: rest =>
    let longer := 10 * n + Text.decimalValue [c]
    if longer ≤ maxWord then takeWord longer rest else (n, c :: rest)

/-- The float next to a natural number, which has 53 binary digits and then zeros.  Between two it is
the even one. -/
def nearestFloat (n : Nat) : Nat :=
  let unit := 1 <<< (n.log2 - 52)
  let below := n / unit
  let rest := n % unit
  (if 2 * rest < unit ∨ 2 * rest = unit ∧ below % 2 = 0 then below else below + 1) * unit

/-- Half a step beyond the greatest float, where numbers begin to be rounded to infinity. -/
def floatLimit : Nat :=
  (1 <<< 1024) - (1 <<< 970)

/-- Whether a number of these digits before and behind its point, times a power of ten, is in
range. -/
def partsInRange (whole fraction : List Char) (exponent : Int) : Bool :=
  let (n, dropped) := takeWord 0 whole
  let (m, ignored) := takeWord n fraction
  let power : Int := exponent + dropped.length - (fraction.length - ignored.length : Nat)
  m == 0 || power < 0 ||
    (power ≤ 308 && nearestFloat m * nearestFloat (Nat.pow 10 power.toNat) < floatLimit)

/-- The value of an exponent with its mark; without one it is zero. -/
def exponentValue : List Char → Int
  | _ :: '+' :: digits => Text.decimalValue digits
  | _ :: '-' :: digits => -Text.decimalValue digits
  | digits => Text.decimalValue digits.tail

def textInRange (text : List Char) : Bool :=
  let body := if text.head? = some '-' then text.tail else text
  let whole := body.takeWhile Char.isDigit
  match body.dropWhile Char.isDigit with
  | '.' :: rest =>
    partsInRange whole (rest.takeWhile Char.isDigit) (exponentValue (rest.dropWhile Char.isDigit))
  | rest => partsInRange whole [] (exponentValue rest)

mutual

def inRange : Json → Bool
  | integer n => partsInRange (Nat.toDigits 10 n.natAbs) [] 0
  | real text => textInRange text.toList
  | array items => itemsInRange items
  | object fields => fieldsInRange fields
  | _ => true

def itemsInRange : List Json → Bool
  | [] => true
  | v :: rest => v.inRange && itemsInRange rest

def fieldsInRange : List (String × Json) → Bool
  | [] => true
  | (_, v) :: rest => v.inRange && fieldsInRange rest

end

example : (["1e308", "1.797693134862315e308", "-0e999", "1e-999", "0.001e311"].map fun s =>
    textInRange s.toList) = [true, true, true, true, true] := by
  decide +kernel

example : (["1e309", "1.7976931348623158e308", "-2e308", "0.001e312"].map fun s =>
    textInRange s.toList) = [false, false, false, false] := by
  decide +kernel

end Wiring.Json
