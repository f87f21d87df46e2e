import Wiring.FileTree
import Wiring.Settings.Basic
import Wiring.Toml.Document

/-!
# Configuration files

A configuration is a TOML document with the tables `parser` and `source` and the number `jobs`, each
of which may be missing.  Other names are refused in the document itself and passed over in its
tables.  A value that does not fit makes the whole file invalid; settings that fit but make no sense
are refused one by one.
-/

namespace Wiring

inductive ConfigError where
  | unreadable (file : Bytes)
  | invalid (file : Bytes)
  | settings (e : SettingsError)
  deriving DecidableEq, Repr

def ConfigError.message : ConfigError → String
  | unreadable path => "Failed to read config " ++ path.display
  | invalid path => "Invalid config " ++ path.display
  | settings e => e.message

namespace Toml

/-- The fields of a record by their names.  An array gives the fields in order, and a moment has none
of those that are asked for. -/
def record? (names : List String) : Toml → Option Entries
  | table _ es => some es
  | array items => some (names.zip items)
  | tables before last => some (names.zip ((before ++ [last]).map (table .header)))
  | moment _ => some []
  | _ => none

def string? : Toml → Option String
  | string s => some s
  | _ => none

def bool? : Toml → Option Bool
  | bool b => some b
  | _ => none

def natural? : Toml → Option Nat
  | integer (.ofNat n) => some n
  | _ => none

def strings? : Toml → Option (List String)
  | array items => items.mapM string?
  | _ => none

/-- The case that a value names: by its name, or by a table of that name alone with nothing in it. -/
def case? : Toml → Option String
  | string s => some s
  | table _ [(s, array [])] => some s
  | table _ [(s, table _ [])] => some s
  | _ => none

/-- What is read from the entry of a name, if there is one, and else `default`. -/
def Entries.getD? {α : Type} (es : Entries) (name : String) (default : α)
    (decode : Toml → Option α) : Option α :=
  match es.lookup name with
  | some v => decode v
  | none => some default

end Toml

def ParserSettings.ofToml? (v : Toml) : Option ParserSettings := do
  let fs ← v.record? ["directive_prefix", "producer_policy"]
  return { marker := ← fs.getD? "directive_prefix" default.marker Toml.string?
           policy := ← fs.getD? "producer_policy" default.policy fun v =>
             v.case?.bind ProducerPolicy.ofWord? }

def SourceSettings.ofToml? (v : Toml) : Option SourceSettings := do
  let fs ← v.record? ["include_tests", "skip_dirs", "max_module_depth"]
  return { includeTests := ← fs.getD? "include_tests" default.includeTests Toml.bool?
           skippedDirs := ← fs.getD? "skip_dirs" default.skippedDirs Toml.strings?
           maxModuleDepth := ← fs.getD? "max_module_depth" default.maxModuleDepth Toml.natural? }

structure Config where
  parser : ParserSettings
  source : SourceSettings
  /-- How many loaders work at a time, if that is chosen. -/
  jobs : Option Nat
  deriving DecidableEq, Repr

namespace Config

def default : Config :=
  ⟨.default, .default, none⟩

instance : Inhabited Config :=
  ⟨default⟩

def names : List String :=
  ["parser", "source", "jobs"]

def validate? (c : Config) : Option SettingsError :=
  if c.jobs = some 0 then some .noJobs else c.parser.validate?.or c.source.validate?

def ofEntries? (es : Toml.Entries) : Option Config := do
  if !es.all (fun e => names.contains e.1) then none
  return { parser := ← es.getD? "parser" .default ParserSettings.ofToml?
           source := ← es.getD? "source" .default SourceSettings.ofToml?
           jobs := ← es.getD? "jobs" none fun v => v.natural?.map some }

def read (fs : FileSystem) (path : Bytes) : Except ConfigError Config :=
  match fs.readText path with
  | .error _ => .error (.unreadable path)
  | .ok text =>
    match (Toml.parse? text).bind ofEntries? with
    | none => .error (.invalid path)
    | some c =>
      match c.validate? with
      | some e => .error (.settings e)
      | none => .ok c

/-- The file that is read where no other one is named. -/
def standardPath (fs : FileSystem) : Bytes :=
  Path.join (Path.absolute fs.workingDir) "ease.toml"

/-- The configuration in a file that is named, or in the standard one if that is there. -/
def load (fs : FileSystem) : Option String → Except ConfigError Config
  | some path => read fs path
  | none => if fs.isFile (standardPath fs) then read fs (standardPath fs) else .ok default

end Config

end Wiring
