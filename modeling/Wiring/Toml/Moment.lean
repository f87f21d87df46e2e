import Wiring.Text.Basic

/-!
# Dates and times of TOML

A moment is a date, a time of day, or both with `T` between them and with or without the distance from
universal time behind them.  A date is one of the calendar, and a minute may have a leap second.
-/

namespace Wiring.Toml

open Text (value?)

/-- The number of so many digits that a text is, if it is not outside a range. -/
def field? (width least greatest : Nat) (run : List Char) : Option Nat := do
  let n ← value? 10 run
  if run.length = width ∧ least ≤ n ∧ n ≤ greatest then return n else none

def daysOf (year month : Nat) : Nat :=
  if month = 2 then
    if year % 4 = 0 ∧ (year % 100 ≠ 0 ∨ year % 400 = 0) then 29 else 28
  else if month = 4 ∨ month = 6 ∨ month = 9 ∨ month = 11 then 30
  else 31

def isDate (text : List Char) : Bool :=
  match text.splitOn '-' with
  | [year, month, day] =>
    let read : Option Nat := do
      let year ← field? 4 0 9999 year
      let month ← field? 2 1 12 month
      field? 2 1 (daysOf year month) day
    read.isSome
  | _ => false

def isSecond (text : List Char) : Bool :=
  match text.splitOn '.' with
  | [whole] => (field? 2 0 60 whole).isSome
  | [whole, places] =>
    (field? 2 0 60 whole).isSome && !places.isEmpty && places.all Char.isDigit
  | _ => false

def isTime (text : List Char) : Bool :=
  match text.splitOn ':' with
  | [hour, minute, second] =>
    (field? 2 0 23 hour).isSome && (field? 2 0 59 minute).isSome && isSecond second
  | _ => false

/-- Whether a text is a distance from universal time. -/
def isOffset (text : List Char) : Bool :=
  match text with
  | [c] => c == 'Z' || c == 'z'
  | sign :: rest =>
    match rest.splitOn ':' with
    | [hour, minute] =>
      (sign == '+' || sign == '-') && (field? 2 0 23 hour).isSome && (field? 2 0 59 minute).isSome
    | _ => false
  | [] => false

/-- Whether a text is a time of day, with or without a distance from universal time. -/
def isClock (text : List Char) : Bool :=
  let isOwn (c : Char) : Bool := c.isDigit || c == ':' || c == '.'
  let offset := text.dropWhile isOwn
  isTime (text.takeWhile isOwn) && (offset.isEmpty || isOffset offset)

def isDateAndTime (text : List Char) : Bool :=
  let isOwn (c : Char) : Bool := c.isDigit || c == '-'
  match text.dropWhile isOwn with
  | mark :: clock => (mark == 'T' || mark == 't') && isDate (text.takeWhile isOwn) && isClock clock
  | [] => false

/-- Whether a text without a space is a moment. -/
def isMoment (text : List Char) : Bool :=
  isDate text || isTime text || isDateAndTime text

end Wiring.Toml
