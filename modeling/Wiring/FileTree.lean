import Wiring.Path
import Wiring.Text.Bytes

/-!
# File trees

The files below one directory as a value.  Names are bytes, and a file holds a text, or something that
is no text.  Looking up a path goes from directory to directory as an operating system does: every
segment but `..` must be there, and whatever is passed must be a directory.
-/

namespace Wiring

inductive FileTree where
  /-- A file by its text, if its content is valid UTF-8. -/
  | file (text? : Option String)
  | dir (entries : List (Bytes × FileTree))
  deriving Inhabited

inductive FileError where
  | notFound
  | notDirectory
  | isDirectory
  | notText
  deriving DecidableEq, Repr

def FileError.message : FileError → String
  | notFound => "No such file or directory (os error 2)"
  | notDirectory => "Not a directory (os error 20)"
  | isDirectory => "Is a directory (os error 21)"
  | notText => "stream did not contain valid UTF-8"

namespace FileTree

def isDir : FileTree → Bool
  | dir _ => true
  | file _ => false

def entries : FileTree → List (Bytes × FileTree)
  | dir es => es
  | file _ => []

def entry? (t : FileTree) (name : Bytes) : Option FileTree :=
  t.entries.lookup name

/-- The file or directory at the end of a chain of names. -/
def at? (t : FileTree) : List Bytes → Option FileTree
  | [] => some t
  | name :: rest => (t.entry? name).bind (·.at? rest)

def readText : FileTree → Except FileError String
  | file (some text) => .ok text
  | file none => .error .notText
  | dir _ => .error .isDirectory

/-- The text of the file at the end of a chain of names, if there is one. -/
def textAt? (t : FileTree) (names : List Bytes) : Option String :=
  match t.at? names with
  | some (file text?) => text?
  | _ => none

/-- The entries with what `f` makes of the one of a name. -/
def alterEntry (name : Bytes) (f : Option FileTree → FileTree) :
    List (Bytes × FileTree) → List (Bytes × FileTree)
  | [] => [(name, f none)]
  | e :: rest => if e.1 = name then (name, f (some e.2)) :: rest else e :: alterEntry name f rest

/-- The tree with `leaf` at the end of a chain of names, directories made where there are none. -/
def insert (leaf : FileTree) : List Bytes → Option FileTree → FileTree
  | [], some t => if leaf.isDir then t else leaf
  | [], none => leaf
  | name :: rest, t? => dir (alterEntry name (insert leaf rest) ((t?.map entries).getD []))

end FileTree

/-- A file tree from the root of the file system on, and the directory in which paths start. -/
structure FileSystem where
  root : FileTree
  workingDir : List Bytes
  deriving Inhabited

namespace FileSystem

/-- One segment further from a place, which is given by the names on the way, the last one first. -/
def step (fs : FileSystem) (trail : List Bytes) (segment : Bytes) :
    Except FileError (List Bytes) :=
  match fs.root.at? trail.reverse with
  | none => .error .notFound
  | some (.file _) => .error .notDirectory
  | some (.dir es) =>
    if segment = [] ∨ segment = [Path.dot] then .ok trail
    else if segment = [Path.dot, Path.dot] then .ok trail.tail
    else if (es.lookup segment).isSome then .ok (segment :: trail)
    else .error .notFound

/-- The place that a path denotes: the names on the way from the root and what is there. -/
def find (fs : FileSystem) (path : Bytes) : Except FileError (List Bytes × FileTree) := do
  if path.isEmpty then throw .notFound
  let start := if path.head? = some Path.slash then [] else fs.workingDir.reverse
  let trail ← (path.splitOn Path.slash).foldlM fs.step start
  match fs.root.at? trail.reverse with
  | some t => return (trail.reverse, t)
  | none => throw .notFound

def isFile (fs : FileSystem) (path : Bytes) : Bool :=
  match fs.find path with
  | .ok (_, .file _) => true
  | _ => false

def readText (fs : FileSystem) (path : Bytes) : Except FileError String := do
  (← fs.find path).2.readText

def readDir (fs : FileSystem) (path : Bytes) : Except FileError (List (Bytes × FileTree)) := do
  match (← fs.find path).2 with
  | .dir es => return es
  | .file _ => throw .notDirectory

end FileSystem

end Wiring
