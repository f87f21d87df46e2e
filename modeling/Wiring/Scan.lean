import Wiring.Go.Analysis
import Wiring.Ignore
import Wiring.Module
import Wiring.Settings.Basic

/-!
# Scanning directories

A pattern names a directory, or with `...` at its end a directory and all below it.  Every accepted
file of a scanned directory gives a unit, in the order of directories and then of names.  Directories
that the settings skip and those that are ignored are not entered from above, but a pattern may name
one itself.
-/

namespace Wiring.Scan

/-- The directory that a pattern names, and whether all below it is meant. -/
def splitPattern (pattern : String) : String × Bool :=
  match "...".toList.isSuffixOf? pattern.toList with
  | some rest =>
    let dir := Text.trimEndWhile (· == '/') rest
    (if dir.isEmpty then "." else String.ofList dir, true)
  | none => (pattern, false)

/-- Whether one chain of names comes before another or is the same, name by name. -/
def chainLe (a b : List Bytes) : Bool :=
  !(decide (b < a))

/-- Whether a directory of this name is entered from above: the name is a text, and not one that is
skipped. -/
def enters (settings : SourceSettings) (name : Bytes) : Bool :=
  name.string?.any fun text => !settings.skipsDir text

/-- Whether a file of this name is read: the name is a text, and one that is accepted. -/
def accepts (settings : SourceSettings) (name : Bytes) : Bool :=
  name.string?.any settings.acceptsFile

mutual

/-- A directory, at the end of a chain of names, and the directories below it that are entered. -/
def dirsIn (settings : SourceSettings) (levels : List IgnoreLevel) (names : List Bytes) :
    FileTree → List (List Bytes)
  | .file _ => []
  | .dir es =>
    names :: dirsAmong settings (.ofDir names.length (.dir es) :: levels) names es

/-- The directories that are entered from the entries of a directory. -/
def dirsAmong (settings : SourceSettings) (levels : List IgnoreLevel) (names : List Bytes) :
    List (Bytes × FileTree) → List (List Bytes)
  | [] => []
  | (name, t) :: rest =>
    let here := names ++ [name]
    (if enters settings name && !IgnoreLevel.ignores levels here then
      dirsIn settings levels here t else []) ++ dirsAmong settings levels names rest

end

/-- A directory and the directories below it that are entered, in order. -/
def packageDirs (fs : FileSystem) (settings : SourceSettings) (names : List Bytes) (t : FileTree) :
    List (List Bytes) :=
  (dirsIn settings (IgnoreLevel.above fs.root 0 names []) names t).mergeSort chainLe

/-- The texts of the accepted files of a directory with their names, in order of the names. -/
def sources (settings : SourceSettings) (entries : List (Bytes × FileTree)) :
    List (Bytes × String) :=
  (entries.filterMap fun (name, t) =>
    match t with
    | .file (some text) => if accepts settings name then some (name, text) else none
    | _ => none).mergeSort fun a b => a.1 ≤ b.1

def scanPackage (fs : FileSystem) (settings : SourceSettings) (dir : Bytes) (packagePath : String) :
    Except ScanError (List SourceUnit) := do
  let entries ← (fs.readDir dir).mapError .file
  return (sources settings entries).map fun (name, text) =>
    Go.analyze text packagePath (some (Bytes.display (Path.join dir name)))

/-- The units of the packages in several directories of a module. -/
def scanDirs (fs : FileSystem) (settings : SourceSettings) (m : Module) (dirs : List Bytes) :
    Except ScanError (List SourceUnit) := do
  let units ← dirs.mapM fun dir =>
    match m.packagePath? dir with
    | some packagePath => scanPackage fs settings dir packagePath
    | none => .ok []
  return units.flatten

/-- The units that a pattern names. -/
def scan (fs : FileSystem) (settings : SourceSettings) (pattern : String) :
    Except ScanError (List SourceUnit) := do
  let (dir, recursive) := splitPattern pattern
  let (names, t) ← (fs.find dir).mapError .file
  let m ← Module.find fs (Path.absolute names) settings.maxModuleDepth
  let dirs := if recursive then packageDirs fs settings names t else [names]
  scanDirs fs settings m (dirs.map Path.absolute)

/-- The units that several patterns name, in their order. -/
def scanAll (fs : FileSystem) (settings : SourceSettings) (patterns : List String) :
    Except ScanError (List SourceUnit) := do
  return (← patterns.mapM (scan fs settings)).flatten

end Wiring.Scan
