import Wiring.FileTree
import Wiring.Text.Basic

/-!
# Modules

A module is the directory that holds a file `go.mod`, with the import path that this file gives.  The
module of a directory is the nearest one upwards, as far as the search may go, and a bad `go.mod` on
the way ends the search.  A package in the module has the path of the module, followed by the names of
the directories from the module down to it.
-/

namespace Wiring

inductive ScanError where
  | moduleNotFound (dir : Bytes) (depth : Nat)
  | noModuleLine (file : Bytes)
  | file (e : FileError)
  deriving DecidableEq, Repr

def ScanError.message : ScanError → String
  | moduleNotFound dir depth =>
    "No go.mod found for " ++ dir.display ++ " (searched " ++ toString depth ++ " parent directories)"
  | noModuleLine goMod => "Invalid go.mod at " ++ goMod.display ++ ": missing module directive"
  | file e => "IO error: " ++ e.message

structure Module where
  path : String
  root : Bytes
  deriving DecidableEq, Repr

namespace Module

/-- The directory of a module as it is shown. -/
def dir (m : Module) : String :=
  m.root.display

/-- The path that a line of a `go.mod` file gives to the module. -/
def pathOfLine? (line : List Char) : Option (List Char) := do
  let line := Text.trim (Text.upTo ['/', '/'] line)
  let rest ← "module".toList.isPrefixOf? line
  if !rest.head?.any Text.isBlank then none
  let path := Text.trimWhile (· == '"') (Text.trim rest)
  if path.isEmpty then none else return path

/-- The path that a `go.mod` file gives to the module: that of the first line that gives one. -/
def pathOfText? (text : String) : Option String :=
  ((Text.lines text.toList).findSome? pathOfLine?).map String.ofList

/-- The name of the file that makes a directory a module. -/
def goMod : Bytes :=
  "go.mod"

def fileIn (dir : Bytes) : Bytes :=
  Path.join dir goMod

def ofDir (fs : FileSystem) (dir : Bytes) : Except ScanError Module := do
  let text ← (fs.readText (fileIn dir)).mapError .file
  match pathOfText? text with
  | some path => return ⟨path, dir⟩
  | none => throw (.noModuleLine (fileIn dir))

/-- The module of a directory, at most `depth` directories up. -/
def find (fs : FileSystem) (dir : Bytes) (depth : Nat) : Except ScanError Module :=
  match (Path.upward depth dir).find? fun d => fs.isFile (fileIn d) with
  | some d => ofDir fs d
  | none => .error (.moduleNotFound dir depth)

/-- The import path of the package at the end of a chain of components from the top of a module. -/
def pathBelow (m : Module) (rest : List (Path.Component UInt8)) : String :=
  m.path ++ String.join (rest.map fun c => "/" ++ Bytes.display c.text)

/-- The import path of the package in a directory, if it is in the module. -/
def packagePath? (m : Module) (dir : Bytes) : Option String :=
  ((Path.components m.root).isPrefixOf? (Path.components dir)).map m.pathBelow

end Module

end Wiring
