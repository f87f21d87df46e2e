import Wiring.Comment.Directive

/-!
# Documentation

What the comments of a declaration say: the lines that are directives, by their names, and the other
lines as text.  A comment may hold several lines, and every line first loses what makes it a comment:
`//` at its start, or else `/*`, `*/` and the `*` in front of a line of a block.  Of two directives of
one name the later counts as a whole.  Empty lines at the start and the end of the text are dropped.
-/

namespace Wiring

structure Documentation where
  text : String
  directives : Dict Directive
  deriving DecidableEq

namespace Documentation

def empty : Documentation :=
  ⟨"", .empty⟩

instance : Inhabited Documentation :=
  ⟨empty⟩

/-- A line of a block comment without the marks at its ends. -/
def blockBody (line : List Char) : List Char :=
  let opened := (['/', '*'].isPrefixOf? line).getD line
  let closed := (['*', '/'].isSuffixOf? opened).getD opened
  let body := closed.dropWhile Text.isBlank
  (['*'].isPrefixOf? body).getD body

/-- A line without what makes it a comment. -/
def sanitize (line : List Char) : List Char :=
  let line := Text.trim line
  Text.trim ((['/', '/'].isPrefixOf? line).getD (blockBody line))

def linesOf (comments : List String) : List (List Char) :=
  (comments.flatMap fun c => Text.lines c.toList).map sanitize

/-- The directives among lines; the last one of a name counts. -/
def directivesOf (marker : List Char) (lines : List (List Char)) : Dict Directive :=
  .ofList ((lines.filterMap (Directive.ofLine? marker)).map fun d => (d.name, d))

/-- The lines that are not directives, as one text. -/
def textOf (marker : List Char) (lines : List (List Char)) : String :=
  let plain := lines.filter fun line => (Directive.ofLine? marker line).isNone
  String.ofList (Text.trimWhile (· == '\n') (['\n'].intercalate plain))

def ofComments (marker : String) (comments : List String) : Documentation :=
  let lines := linesOf comments
  ⟨textOf marker.toList lines, directivesOf marker.toList lines⟩

end Documentation

end Wiring
