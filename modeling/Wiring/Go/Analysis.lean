import Wiring.Go.Declaration
import Wiring.Text.Basic

/-!
# From a Go file to its unit

The imports, types and functions that a file declares at its top level, in order, with the comments
above them.

The documentation of an item is the run of comments that ends on the row above it: comments with no
item between them, each starting at most one row below the end of the one before.  A comment that
starts on the row on which the item before it ends belongs to that item and to no run.
-/

namespace Wiring.Go

/-! ## Comments above declarations -/

structure DocRun where
  lines : List String
  /-- The row on which the last of them ends. -/
  lastRow : Nat
  /-- The row on which the last item ends, if there was one. -/
  itemRow : Option Nat
  deriving DecidableEq, Repr

namespace DocRun

def start : DocRun :=
  ⟨[], 0, none⟩

def push (run : DocRun) (text : List Char) (first last : Nat) : DocRun :=
  if run.itemRow = some first then run
  else
    let kept := if run.lastRow + 1 < first then [] else run.lines
    { run with lines := kept ++ (Text.lines text).map String.ofList, lastRow := last }

/-- The lines of the run, if it ends on the row above `first`. -/
def above (run : DocRun) (first : Nat) : List String :=
  if run.lastRow + 1 = first then run.lines else []

def close (run : DocRun) (last : Nat) : DocRun :=
  ⟨[], run.lastRow, some last⟩

end DocRun

/-- The items among nodes that come after `run`, each with the lines above it. -/
def withDocs {α : Type} (run : DocRun) : List (Node α) → List (α × List String)
  | [] => []
  | .comment text first last :: rest => withDocs (run.push text first last) rest
  | .item first last a :: rest => (a, run.above first) :: withDocs (run.close last) rest

def documented {α : Type} (nodes : List (Node α)) : List (α × List String) :=
  withDocs .start nodes

/-- The types of a declaration that has `doc` above it: a type without lines of its own takes these. -/
def documentedTypes (doc : List String) (nodes : List (Node TypeDecl)) : List TypeDecl :=
  (documented nodes).map fun (t, own) => { t with doc := if own.isEmpty then doc else own }

/-! ## The unit of a file -/

def importsOf : Declaration → List ImportDecl
  | .imports is => is
  | _ => []

def typesOf : Declaration × List String → List TypeDecl
  | (.types nodes, doc) => documentedTypes doc nodes
  | _ => []

def funcOf? : Declaration × List String → Option FuncDecl
  | (.func f, doc) => some { f with doc }
  | _ => none

def analyze (source packagePath : String) (filePath : Option String) : SourceUnit :=
  let declarations := documented (nodes source)
  { packagePath, filePath
    imports := declarations.flatMap fun d => importsOf d.1
    types := declarations.flatMap typesOf
    funcs := declarations.filterMap funcOf? }

end Wiring.Go
