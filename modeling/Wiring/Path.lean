/-!
# Paths

A path is made of segments between slashes.  The paths of files are written in bytes, and what is shown
of them in characters; both have a slash and a dot (`Letters`).

The components of a path leave out what does not matter: empty segments, and every `.` but one at the
start of a relative path; `..` stays.  `parent?` cuts off the last component and keeps the spelling of
what is before it.
-/

namespace Wiring.Path

/-- What paths are written in. -/
class Letters (α : Type) where
  slash : α
  dot : α
  slash_ne_dot : slash ≠ dot

export Letters (slash dot)

instance : Letters Char where
  slash := '/'
  dot := '.'
  slash_ne_dot := by decide

instance : Letters UInt8 where
  slash := 0x2F
  dot := 0x2E
  slash_ne_dot := by decide

inductive Component (α : Type) where
  | root
  /-- The current directory, at the start of a relative path. -/
  | here
  | up
  | name (s : List α)
  deriving DecidableEq, Repr

variable {α : Type} [Letters α]

def Component.text : Component α → List α
  | root => [slash]
  | here => [dot]
  | up => [dot, dot]
  | name s => s

def absolute (names : List (List α)) : List α :=
  slash :: [slash].intercalate names

variable [DecidableEq α]

/-- The component that a segment is, if it matters inside a path. -/
def inner? (segment : List α) : Option (Component α) :=
  if segment = [] ∨ segment = [dot] then none
  else if segment = [dot, dot] then some .up
  else some (.name segment)

/-- The components of the segments of a relative path. -/
def ofRelative : List (List α) → List (Component α)
  | [] => []
  | first :: rest =>
    (if first = [dot] then [.here] else (inner? first).toList) ++ rest.filterMap inner?

def components (path : List α) : List (Component α) :=
  match path.splitOn slash with
  | [] :: rest => if path = [] then [] else .root :: rest.filterMap inner?
  | segments => ofRelative segments

/-- The path of a directory followed by a name in it. -/
def join (dir name : List α) : List α :=
  if dir = [] ∨ dir.getLast? = some slash then dir ++ name else dir ++ slash :: name

/-- The segments without those at the end that do not matter. -/
def dropTrailing (segments : List (List α)) : List (List α) :=
  (segments.reverse.dropWhile fun s => (inner? s).isNone).reverse

/-- The segments without the last one that matters. -/
def dropLastComponent? (segments : List (List α)) : Option (List (List α)) :=
  match dropTrailing segments with
  | [] => none
  | kept => some (dropTrailing kept.dropLast)

/-- The path without its last component; the root and the empty path have none. -/
def parent? (path : List α) : Option (List α) :=
  match path.splitOn slash with
  | [] => none
  | first :: rest =>
    if first = [] then
      (dropLastComponent? rest).map fun kept => slash :: [slash].intercalate kept
    else if first = [dot] then
      match dropLastComponent? rest with
      | none => some []
      | some kept => some ([slash].intercalate ([dot] :: kept))
    else (dropLastComponent? (first :: rest)).map [slash].intercalate

/-- A path, its parent, the parent of that and so on, at most `depth` parents. -/
def upward : (depth : Nat) → List α → List (List α)
  | 0, path => [path]
  | depth + 1, path =>
    match parent? path with
    | none => [path]
    | some p => path :: upward depth p

end Wiring.Path
