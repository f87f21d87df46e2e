import Wiring.Toml.Moment
import Wiring.Toml.Number
import Wiring.Toml.Quoted
import Wiring.Toml.Table

/-!
# Reading keys and values

Every reader takes a text and gives what stands at its front, with the rest of the text.  Arrays may
go over several lines and have remarks in them and a comma behind the last value.  A table between
braces stays in one line and has no such comma.
-/

namespace Wiring.Toml

/-- A reader of the front of a text. -/
abbrev Reader (α : Type) := List Char → Option (α × List Char)

def isKeyChar (c : Char) : Bool :=
  c.isAlphanum || c == '_' || c == '-'

def keyStep? : Reader String
  | '"' :: rest => shortText? '"' rest
  | '\'' :: rest => shortText? '\'' rest
  | text =>
    let name := text.takeWhile isKeyChar
    if name.isEmpty then none else some (String.ofList name, text.dropWhile isKeyChar)

def skipGap (text : List Char) : List Char :=
  text.dropWhile isGap

/-- A key of at most so many steps: the way to its last step, and that step. -/
def keyWithin? : (steps : Nat) → Reader (List String × String)
  | 0, _ => none
  | steps + 1, text => do
    let (name, rest) ← keyStep? (skipGap text)
    match skipGap rest with
    | '.' :: rest => do
      let ((way, key), rest) ← keyWithin? steps rest
      return ((name :: way, key), rest)
    | rest => return (([], name), rest)

def key? : Reader (List String × String) :=
  keyWithin? maxDepth

def entry? (value? : Reader Toml) : Reader ((List String × String) × Toml) := fun text => do
  let (key, rest) ← key? text
  match rest with
  | '=' :: rest => do
    let (value, rest) ← value? (skipGap rest)
    return ((key, value), rest)
  | _ => none

/-- The text without gaps, ends of lines and remarks at its front; with `remark`, from inside one. -/
def skipLines (remark : Bool) : List Char → List Char
  | [] => []
  | c :: rest =>
    if (remark && isPlain c) || c == '#' then skipLines true rest
    else if isGap c || c == '\n' || (c == '\r' && rest.head? == some '\n') then skipLines false rest
    else c :: rest

/-- The values of an array up to its closing bracket. -/
def items? (value? : Reader Toml) : (fuel : Nat) → Reader (List Toml)
  | 0, _ => none
  | fuel + 1, text =>
    match skipLines false text with
    | ']' :: rest => some ([], rest)
    | text => do
      let (v, rest) ← value? text
      match skipLines false rest with
      | ',' :: rest => do
        let (vs, rest) ← items? value? fuel rest
        return (v :: vs, rest)
      | ']' :: rest => return ([v], rest)
      | _ => none

/-- The entries of a table up to its closing brace, added to those that were read before. -/
def entries? (value? : Reader Toml) : (fuel : Nat) → Entries → Reader Entries
  | 0, _, _ => none
  | fuel + 1, es, text => do
    let (((way, key), v), rest) ← entry? value? text
    let es ← es.insert? v way key
    match skipGap rest with
    | ',' :: rest => entries? value? fuel es rest
    | '\x7d' :: rest => return (es, rest)
    | _ => none

/-- Whether `c` can stand in a value without quotes and brackets. -/
def isWordChar (c : Char) : Bool :=
  !(isGap c || c == '\n' || c == '\r' || c == '#' || c == ',' || c == ']' || c == '\x7d')

def word? (word : List Char) : Option Toml :=
  if word = "true".toList then some (.bool true)
  else if word = "false".toList then some (.bool false)
  else if isMoment word then some (.moment (String.ofList word))
  else if isReal word then some (.real (String.ofList word))
  else (integer? word).map .integer

/-- A value without quotes and brackets.  A date and the time of day may have a space between them. -/
def bare? : Reader Toml := fun text => do
  let word := text.takeWhile isWordChar
  let rest := text.dropWhile isWordChar
  let clock := rest.tail.takeWhile isWordChar
  if isDate word && rest.head? == some ' ' && !clock.isEmpty then
    if isClock clock then
      return (.moment (String.ofList (word ++ ' ' :: clock)), rest.tail.dropWhile isWordChar)
    else none
  else return (← word? word, rest)

def text? : Reader String
  | '"' :: '"' :: '"' :: rest => longText? '"' rest
  | '"' :: rest => shortText? '"' rest
  | '\'' :: '\'' :: '\'' :: rest => longText? '\'' rest
  | '\'' :: rest => shortText? '\'' rest
  | _ => none

/-- A value in which at most so many arrays and braces are open at a time. -/
def valueWithin? : (depth : Nat) → Reader Toml
  | depth + 1, '[' :: rest =>
    (items? (valueWithin? depth) (rest.length + 1) rest).map fun (vs, rest) => (.array vs, rest)
  | depth + 1, '\x7b' :: rest =>
    match skipGap rest with
    | '\x7d' :: rest => some (.table .braces [], rest)
    | rest =>
      (entries? (valueWithin? depth) (rest.length + 1) [] rest).map fun (es, rest) =>
        (.table .braces es, rest)
  | _, text =>
    match text with
    | '"' :: _ => (text? text).map fun (s, rest) => (.string s, rest)
    | '\'' :: _ => (text? text).map fun (s, rest) => (.string s, rest)
    | _ => bare? text

def value? : Reader Toml :=
  valueWithin? maxDepth

end Wiring.Toml
