import Wiring.Toml.Value

/-!
# Documents

A document is a list of lines: entries, headers and empty ones, each with or without a remark at its
end.  The entries below a header belong to the table that it opens.
-/

namespace Wiring.Toml

inductive Line where
  | empty
  | entry (way : List String) (key : String) (value : Toml)
  | header (way : List String) (key : String)
  /-- A header in doubled brackets. -/
  | nextHeader (way : List String) (key : String)

/-- The text behind the end of a line, if nothing but a gap and a remark comes before that. -/
def endOfLine? (text : List Char) : Option (List Char) :=
  let text := skipGap text
  match if text.head? = some '#' then text.dropWhile isPlain else text with
  | [] => some []
  | '\n' :: rest => some rest
  | '\r' :: '\n' :: rest => some rest
  | _ => none

/-- What a line says, and the text that is left of it. -/
def lineContent? : Reader Line := fun text =>
  match skipGap text with
  | [] => some (.empty, [])
  | '\n' :: rest => some (.empty, '\n' :: rest)
  | '\r' :: rest => some (.empty, '\r' :: rest)
  | '#' :: rest => some (.empty, '#' :: rest)
  | '[' :: '[' :: rest => do
    let ((way, key), rest) ← key? rest
    return (.nextHeader way key, ← "]]".toList.isPrefixOf? rest)
  | '[' :: rest => do
    let ((way, key), rest) ← key? rest
    return (.header way key, ← "]".toList.isPrefixOf? rest)
  | text => do
    let (((way, key), value), rest) ← entry? value? text
    return (.entry way key value, rest)

def line? : Reader Line := fun text => do
  let (l, rest) ← lineContent? text
  return (l, ← endOfLine? rest)

structure Document where
  root : Entries
  /-- The names on the way to the table that is open, with its own. -/
  opened : List String

def Document.add? (d : Document) : Line → Option Document
  | .empty => some d
  | .entry way key value => do
    return { d with root := ← d.root.within? (·.insert? value way key) d.opened }
  | .header way key => do
    return ⟨← d.root.within? (·.open? key) way, way ++ [key]⟩
  | .nextHeader way key => do
    return ⟨← d.root.within? (·.openNext? key) way, way ++ [key]⟩

/-- The document with the lines of a text that is shorter than `fuel`. -/
def Document.read? : (fuel : Nat) → Document → List Char → Option Document
  | _, d, [] => some d
  | 0, _, _ :: _ => none
  | fuel + 1, d, text => do
    let (l, rest) ← line? text
    read? fuel (← d.add? l) rest

/-- The entries of the document that a text is.  A mark of the byte order in front is passed over. -/
def parse? (s : String) : Option Entries :=
  let text := s.toList
  let text := if text.head? = some '\ufeff' then text.tail else text
  (Document.read? text.length ⟨[], []⟩ text).map (·.root)

end Wiring.Toml
