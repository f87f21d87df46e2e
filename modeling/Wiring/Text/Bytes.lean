/-!
# Bytes that spell a text

The names of files are bytes.  Mostly they spell a text in UTF-8.  Where they do not, a text is shown
for them in which one replacement character stands for every broken sequence: a byte with which no
character begins, or the beginning of a character that is not completed, as far as it goes.
-/

namespace Wiring

abbrev Bytes := List UInt8

namespace Bytes

/-- The bytes that spell a text. -/
def ofText (s : List Char) : Bytes :=
  s.flatMap String.utf8EncodeChar

def ofString (s : String) : Bytes :=
  ofText s.toList

instance : Coe String Bytes :=
  ⟨ofString⟩

instance : Coe (List String) (List Bytes) :=
  ⟨List.map ofString⟩

/-- The character with which bytes begin, if they begin with one. -/
def char? (b : Bytes) : Option Char :=
  b.toByteArray.utf8DecodeChar? 0

/-- Whether a byte is one of those after the first one of a character. -/
def isTail (b : UInt8) : Bool :=
  0x80 ≤ b && b ≤ 0xBF

/-- How many bytes come after this one in the characters that begin with it. -/
def tailLength (first : UInt8) : Nat :=
  if 0xC2 ≤ first && first ≤ 0xDF then 1
  else if 0xE0 ≤ first && first ≤ 0xEF then 2
  else if 0xF0 ≤ first && first ≤ 0xF4 then 3
  else 0

/-- Whether there is a character that begins with these two bytes. -/
def begins (first second : UInt8) : Bool :=
  isTail second &&
    !(first == 0xE0 && second < 0xA0) && !(first == 0xED && 0x9F < second) &&
    !(first == 0xF0 && second < 0x90) && !(first == 0xF4 && 0x8F < second)

/-- How many bytes after this one belong to the same broken sequence. -/
def brokenTail (first : UInt8) : Bytes → Nat
  | [] => 0
  | second :: rest =>
    if tailLength first ≤ 1 || !begins first second then 0
    else 1 + ((rest.take (tailLength first - 2)).takeWhile isTail).length

/-- The characters that bytes spell after so many of them, with `none` for a broken sequence. -/
def piecesAfter : (skipped : Nat) → Bytes → List (Option Char)
  | _, [] => []
  | skipped + 1, _ :: rest => piecesAfter skipped rest
  | 0, b :: rest =>
    match char? (b :: rest) with
    | some c => some c :: piecesAfter (c.utf8Size - 1) rest
    | none => none :: piecesAfter (brokenTail b rest) rest

/-- The characters that bytes spell, with `none` for a broken sequence. -/
def pieces (b : Bytes) : List (Option Char) :=
  piecesAfter 0 b

/-- The text that is shown for bytes. -/
def shown (b : Bytes) : List Char :=
  (pieces b).map (·.getD '\ufffd')

def display (b : Bytes) : String :=
  String.ofList (shown b)

/-- The text that bytes spell, if they spell one. -/
def string? (b : Bytes) : Option String :=
  if (pieces b).contains none then none else some (display b)

end Bytes

end Wiring
