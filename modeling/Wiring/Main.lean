import Wiring.Cli.Outcome

/-!
# The program

Takes the files that a command line is about from the disk, runs the command line on them and prints
what comes out.  All that is looked at are the directories and files that the arguments name, the
working directory, and in every directory above these the files that make it a module or leave
directories out.
-/

namespace Wiring.Cli

/-- A place on the disk: the names on the way from the root, and what is there. -/
abbrev Place := List String × FileTree

def namesOf (path : String) : List String :=
  ((path.toList.splitOn '/').filter (!·.isEmpty)).map String.ofList

def pathOf (names : List String) : String :=
  String.ofList (Path.absolute (names.map String.toList))

/-- Files that say something about the directories around them. -/
def landmarks : List (List String) :=
  [["go.mod"], [".ignore"], [".gitignore"], [".git", "HEAD"], [".git", "info", "exclude"]]

/-- Whether a scan can ask for the text of the file at the end of a chain of names. -/
def isSource (names : List String) : Bool :=
  (names.getLast?.getD "").endsWith ".go" || landmarks.any (·.isSuffixOf names)

/-- What is at the end of a chain of names, without what is below it; the text of a file only if it is
asked for. -/
def placeAt (names : List String) (withText : Bool) : IO (List Place) := do
  try
    let path ← IO.FS.realPath (pathOf names)
    if ← path.isDir then return [(names, .dir [])]
    let bytes ← if withText then IO.FS.readBinFile path else pure .empty
    return [(names, .file (String.fromUTF8? bytes))]
  catch _ => return []

def entryNames (names : List String) : IO (List String) := do
  try
    let path ← IO.FS.realPath (pathOf names)
    return (← path.readDir).toList.map (·.fileName)
  catch _ => return []

/-- Whether the end of a chain of names is a link to somewhere else. -/
def isLink (names : List String) : IO Bool := do
  try
    return namesOf (← IO.FS.realPath (pathOf names)).toString != names
  catch _ => return true

/-- What is at the end of a chain of names and at most so many levels below it. -/
def placesBelow : (levels : Nat) → List String → IO (List Place)
  | 0, names => placeAt names (isSource names)
  | levels + 1, names => do
    let here ← placeAt names (isSource names)
    if ← isLink names then return here
    let entries ← entryNames names
    let below ← entries.mapM fun name => placesBelow levels (names ++ [name])
    return here ++ below.flatten

/-- The beginnings of a list, the whole list among them. -/
def beginnings {α : Type} (l : List α) : List (List α) :=
  (List.range (l.length + 1)).map l.take

/-- The landmarks in a directory and in those above it. -/
def landmarksAbove (names : List String) : IO (List Place) := do
  let wanted := (beginnings names).flatMap fun above => landmarks.map (above ++ ·)
  return (← wanted.mapM fun names => placeAt names true).flatten

def endOf? (path : String) : IO (Option (List String)) := do
  try
    return some (namesOf (← IO.FS.realPath path).toString)
  catch _ => return none

/-- What is passed on the way along a path, and at its end. -/
def placesAlong (path : String) : IO (List Place) := do
  let parts := (beginnings (path.splitOn "/")).map ("/".intercalate ·)
  let places ← parts.mapM fun part => do
    match ← endOf? (if part.isEmpty then "/" else part) with
    | some names => placeAt names (part == path)
    | none => return []
  return places.flatten

def allLevels : Nat :=
  4096

def placesOfPattern (pattern : String) : IO (List Place) := do
  let (dir, recursive) := Scan.splitPattern pattern
  let along ← placesAlong dir
  match ← endOf? dir with
  | some names =>
    let below ← placesBelow (if recursive then allLevels else 1) names
    return along ++ below ++ (← landmarksAbove names)
  | none => return along

def Request.fileSystem (r : Request) : IO FileSystem := do
  let cwd := namesOf (← IO.currentDir).toString
  let scanned ←
    match r.origin with
    | .patterns ps => do pure (← ps.mapM placesOfPattern).flatten
    | .units path => placesAlong path
  let named ← placesAlong (r.config.getD "ease.toml")
  let places := (cwd, FileTree.dir []) :: scanned ++ named
  let root := places.foldl (fun t p => p.2.insert (p.1.map Bytes.ofString) (some t)) (.dir [])
  return ⟨root, cwd.map Bytes.ofString⟩

end Wiring.Cli

def main (args : List String) : IO UInt32 := do
  let fs ←
    match Wiring.Cli.Meaning.ofArgs args with
    | .run r => r.fileSystem
    | _ => pure default
  let o := Wiring.Cli.run fs args
  IO.print o.stdout
  IO.eprint o.stderr
  return o.exit.toUInt32
