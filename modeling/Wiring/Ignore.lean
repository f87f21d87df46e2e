import Wiring.FileTree
import Wiring.Text.Basic

/-!
# Ignored directories

A file `.ignore` names directories that are left out, and so do `.gitignore` and `.git/info/exclude`
as far as they belong to a repository.  A rule is a name, in which `*` stands for any bytes and `?` for
one.  `!` in front of it takes the directory back in, a slash in front of it or inside it ties
it to the directory of the file, and a slash behind it restricts it to directories.

Of the rules in one file the last that fits counts, of several files of one sort the nearest that has
one, and of the three sorts the first in the order above.  Files of a repository count only up to the
directory that holds `.git`.
-/

namespace Wiring

structure IgnoreRule where
  /-- The rule takes back in what it fits. -/
  negated : Bool
  /-- The rule fits only paths from the directory of its file on. -/
  anchored : Bool
  /-- The names between the slashes. -/
  parts : List Bytes
  deriving DecidableEq, Repr

namespace IgnoreRule

def star : UInt8 :=
  0x2A

def question : UInt8 :=
  0x3F

/-- The ends of a name, itself first. -/
def suffixes : Bytes → List Bytes
  | [] => [[]]
  | b :: rest => (b :: rest) :: suffixes rest

def fits : Bytes → Bytes → Bool
  | [], name => name.isEmpty
  | p :: pattern, name =>
    if p = star then (suffixes name).any (fits pattern)
    else (p == question && !name.isEmpty || name.head? == some p) && fits pattern name.tail

def fitAll : List Bytes → List Bytes → Bool
  | [], [] => true
  | p :: ps, n :: ns => fits p n && fitAll ps ns
  | _, _ => false

/-- Whether a rule fits the directory at the end of a chain of names from that of its file. -/
def matchesDir (r : IgnoreRule) (names : List Bytes) : Bool :=
  if r.anchored then fitAll r.parts names
  else fitAll r.parts (names.drop (names.length - 1))

/-- The rule that a line is; an empty line and a remark are none. -/
def ofLine? (line : List Char) : Option IgnoreRule :=
  let line := Text.trimEndWhile Text.isBlank line
  if line.isEmpty || line.head? = some '#' then none
  else
    let negated := line.head? = some '!'
    let line := if negated then line.tail else line
    let rooted := line.head? = some '/'
    let line := if rooted then line.tail else line
    let line := if line.getLast? = some '/' then line.dropLast else line
    some ⟨negated, rooted || line.contains '/', (line.splitOn '/').map Bytes.ofText⟩

def ofText (text : String) : List IgnoreRule :=
  let cs := text.toList
  (Text.lines (if cs.head? = some '\ufeff' then cs.tail else cs)).filterMap ofLine?

/-- Whether the rules of one file leave a directory out; `none` if no rule fits. -/
def verdict? (rules : List IgnoreRule) (names : List Bytes) : Option Bool :=
  (rules.reverse.find? (·.matchesDir names)).map (!·.negated)

end IgnoreRule

structure IgnoreLevel where
  /-- The number of names from the root to the directory. -/
  depth : Nat
  plain : List IgnoreRule
  git : List IgnoreRule
  exclude : List IgnoreRule
  /-- Whether the directory is the top of a repository. -/
  isRepository : Bool

namespace IgnoreLevel

/-- The rules in a directory that is `depth` names away from the root. -/
def ofDir (depth : Nat) (t : FileTree) : IgnoreLevel :=
  let rules (names : List Bytes) : List IgnoreRule :=
    ((t.textAt? names).map IgnoreRule.ofText).getD []
  { depth
    plain := rules [".ignore"]
    git := rules [".gitignore"]
    exclude := rules [".git", "info", "exclude"]
    isRepository := (t.entry? ".git").isSome }

/-- The levels up to the top of the repository, the nearest first. -/
def withinRepository : List IgnoreLevel → List IgnoreLevel
  | [] => []
  | l :: rest => if l.isRepository then [l] else l :: withinRepository rest

/-- What the nearest rules of one sort say about a path. -/
def nearest? (rules : IgnoreLevel → List IgnoreRule) (levels : List IgnoreLevel)
    (names : List Bytes) : Option Bool :=
  levels.findSome? fun l => IgnoreRule.verdict? (rules l) (names.drop l.depth)

/-- Whether a directory is left out by the rules in the directories above it, the nearest first. -/
def ignores (levels : List IgnoreLevel) (names : List Bytes) : Bool :=
  let repository := if levels.any (·.isRepository) then withinRepository levels else []
  ((nearest? (·.plain) levels names).or
    ((nearest? (·.git) repository names).or (nearest? (·.exclude) repository names))).getD false

/-- The levels of a directory and of those above it, the nearest first. -/
def above (t : FileTree) (depth : Nat) (names : List Bytes) (levels : List IgnoreLevel) :
    List IgnoreLevel :=
  match names with
  | [] => levels
  | name :: rest =>
    above ((t.entry? name).getD (.dir [])) (depth + 1) rest (ofDir depth t :: levels)

end IgnoreLevel

end Wiring
