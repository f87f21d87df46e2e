import Wiring.Text.Basic

/-!
# The tokens of a Go file

Every character of a file belongs to a token: white space and comments are tokens too, so the texts of
the tokens of a file, one after the other, are the file.  A token knows the row it starts on.

Outside texts and comments a character beyond ASCII is white space or belongs to a name.  Numbers need
no exact form here, because nothing looks inside them.
-/

namespace Wiring.Go

inductive TokenKind where
  | space
  | comment
  /-- A name or a keyword. -/
  | word
  | literal
  | symbol
  deriving DecidableEq, Repr

/-- A token with the row on which it starts, counted from zero. -/
structure Token where
  kind : TokenKind
  text : List Char
  row : Nat
  deriving DecidableEq, Repr

def keywords : List (List Char) :=
  ["break", "case", "chan", "const", "continue", "default", "defer", "else", "fallthrough", "for",
    "func", "go", "goto", "if", "import", "interface", "map", "package", "range", "return", "select",
    "struct", "switch", "type", "var"].map String.toList

namespace Token

def lastRow (t : Token) : Nat :=
  t.row + t.text.count '\n'

def isTrivia (t : Token) : Bool :=
  t.kind == .space || t.kind == .comment

/-- Whether a token is white space that goes on to the next line. -/
def breaksLine (t : Token) : Bool :=
  t.kind == .space && t.text.contains '\n'

def isSymbol (t : Token) (s : String) : Bool :=
  t.kind == .symbol && t.text == s.toList

def isKeyword (t : Token) (s : String) : Bool :=
  t.kind == .word && t.text == s.toList

def isName (t : Token) : Bool :=
  t.kind == .word && !keywords.contains t.text

def opens (t : Token) : Bool :=
  t.isSymbol "(" || t.isSymbol "[" || t.isSymbol "\x7b"

def closes (t : Token) : Bool :=
  t.isSymbol ")" || t.isSymbol "]" || t.isSymbol "\x7d"

/-- Whether a statement may end with a token when a new line follows. -/
def mayEnd (t : Token) : Bool :=
  t.isName || t.kind == .literal || t.closes || t.isSymbol "++" || t.isSymbol "--" ||
    ["break", "continue", "fallthrough", "return"].any t.isKeyword

end Token

def isNameChar (c : Char) : Bool :=
  c.isAlphanum || c == '_' || (0x80 ≤ c.toNat && !Text.isBlank c)

/-- What belongs to a text up to its closing quote, where a backslash takes one more character. -/
def quotedLength (quote : Char) : List Char → Nat
  | [] => 0
  | '\\' :: _ :: rest => quotedLength quote rest + 2
  | c :: rest => if c = quote then 1 else quotedLength quote rest + 1

/-- What belongs to a block comment after its opening, its end included. -/
def blockLength : List Char → Nat
  | [] => 0
  | '*' :: '/' :: _ => 2
  | _ :: rest => blockLength rest + 1

/-- The kind of the token that starts with `c`, and how many characters of `rest` belong to it. -/
def tokenAt (c : Char) (rest : List Char) : TokenKind × Nat :=
  if Text.isBlank c then (.space, (rest.takeWhile Text.isBlank).length)
  else if c.isDigit then (.literal, (rest.takeWhile fun d => isNameChar d || d == '.').length)
  else if isNameChar c then (.word, (rest.takeWhile isNameChar).length)
  else
    match c, rest with
    | '/', '/' :: _ => (.comment, (rest.takeWhile (· != '\n')).length)
    | '/', '*' :: body => (.comment, blockLength body + 1)
    | '"', _ => (.literal, quotedLength '"' rest)
    | '\'', _ => (.literal, quotedLength '\'' rest)
    | '\x60', _ => (.literal, (rest.takeWhile (· != '\x60')).length + 1)
    | '.', '.' :: '.' :: _ => (.symbol, 2)
    | '<', '-' :: _ => (.symbol, 1)
    | '+', '+' :: _ => (.symbol, 1)
    | '-', '-' :: _ => (.symbol, 1)
    | _, _ => (.symbol, 0)

/-- The tokens of a text that starts on a row and is not longer than `fuel`. -/
def tokensWithin : (fuel row : Nat) → List Char → List Token
  | _, _, [] => []
  | 0, _, _ => []
  | fuel + 1, row, c :: rest =>
    let (kind, n) := tokenAt c rest
    let t : Token := ⟨kind, c :: rest.take n, row⟩
    t :: tokensWithin fuel t.lastRow (rest.drop n)

def tokens (s : List Char) : List Token :=
  tokensWithin s.length 0 s

def textOf (ts : List Token) : List Char :=
  ts.flatMap Token.text

theorem textOf_tokensWithin (fuel row : Nat) (s : List Char) (h : s.length ≤ fuel) :
    textOf (tokensWithin fuel row s) = s := by
  induction fuel generalizing row s with
  | zero =>
    cases s with
    | nil => rfl
    | cons c rest => simp at h
  | succ fuel ih =>
    cases s with
    | nil => rfl
    | cons c rest =>
      have hlen : (rest.drop (tokenAt c rest).2).length ≤ fuel := by
        rw [List.length_drop]
        have := Nat.succ_le_succ_iff.1 h
        omega
      simp only [tokensWithin, textOf, List.flatMap_cons]
      have := ih ((⟨(tokenAt c rest).1, c :: rest.take (tokenAt c rest).2, row⟩ : Token).lastRow) _ hlen
      rw [textOf] at this
      rw [this, List.cons_append, List.take_append_drop]

/-- The tokens of a text, one after the other, are the text. -/
theorem textOf_tokens (s : List Char) : textOf (tokens s) = s :=
  textOf_tokensWithin _ _ _ (Nat.le_refl _)

end Wiring.Go
