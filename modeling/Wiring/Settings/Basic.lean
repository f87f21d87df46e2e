import Wiring.Text.Quoted
import Wiring.Text.CharClass

/-!
# Settings

What a user may choose: the marker of directives and the choice among several constructors
(`ParserSettings`), and which files of a directory tree are read (`SourceSettings`).  `validate?`
finds the first thing that is wrong with such a choice.
-/

namespace Wiring

inductive SettingsError where
  /-- A directive reader was asked for without a marker. -/
  | noMarker
  | emptyMarker
  | badMarker (marker : String)
  | noDepth
  | badSkippedDir (dir : String)
  | noJobs
  deriving DecidableEq, Repr

def SettingsError.message : SettingsError → String
  | noMarker => "directive prefix must not be empty"
  | emptyMarker => "directive_prefix must not be empty"
  | badMarker marker =>
    "directive_prefix (" ++ marker ++ ") may only contain letters, digits, '_', '-' and '.'"
  | noDepth => "max_module_depth must be > 0"
  | badSkippedDir dir =>
    "skip_dirs entries must be plain directory names, got " ++ Text.quote dir
  | noJobs => "jobs must be > 0"

/-- The text of an error in settings where it stands among other errors. -/
def SettingsError.report (e : SettingsError) : String :=
  "Invalid configuration: " ++ e.message

inductive ProducerPolicy where
  /-- The constructor that was declared first. -/
  | firstRegistered
  /-- No constructor at all. -/
  | rejectAmbiguous
  deriving DecidableEq, Inhabited, Repr

def ProducerPolicy.word : ProducerPolicy → String
  | firstRegistered => "first_registered"
  | rejectAmbiguous => "reject_ambiguous"

def ProducerPolicy.ofWord? (word : String) : Option ProducerPolicy :=
  [firstRegistered, rejectAmbiguous].find? (·.word == word)

/-- How comments are read and constructors are chosen. -/
structure ParserSettings where
  /-- The word before the colon of a directive. -/
  marker : String
  policy : ProducerPolicy
  deriving DecidableEq, Repr

namespace ParserSettings

def default : ParserSettings :=
  ⟨"ease", .firstRegistered⟩

instance : Inhabited ParserSettings :=
  ⟨default⟩

/-- Whether `c` may stand in a marker. -/
def isMarkerChar (c : Char) : Bool :=
  Text.isKeyChar c || c == '-' || c == '.'

def validate? (s : ParserSettings) : Option SettingsError :=
  if s.marker.toList.isEmpty then some .emptyMarker
  else if s.marker.toList.all isMarkerChar then none
  else some (.badMarker s.marker)

end ParserSettings

/-- Which directories and files of a tree are read. -/
structure SourceSettings where
  /-- Whether test files are read too. -/
  includeTests : Bool
  /-- Names of directories that are never entered from above. -/
  skippedDirs : List String
  /-- How many parent directories are searched for a module. -/
  maxModuleDepth : Nat
  deriving DecidableEq, Repr

namespace SourceSettings

def default : SourceSettings :=
  ⟨false, ["vendor", "testdata"], 10⟩

instance : Inhabited SourceSettings :=
  ⟨default⟩

/-- Whether a text can be the name of a directory to skip. -/
def isPlainName (dir : String) : Bool :=
  !dir.toList.isEmpty && dir.toList.all fun c => c != '/' && c != '\\'

def validate? (s : SourceSettings) : Option SettingsError :=
  if s.maxModuleDepth = 0 then some .noDepth
  else (s.skippedDirs.find? (!isPlainName ·)).map .badSkippedDir

/-- Whether a directory of this name is not entered from above. -/
def skipsDir (s : SourceSettings) (name : String) : Bool :=
  ['.'].isPrefixOf name.toList || ['_'].isPrefixOf name.toList || s.skippedDirs.contains name

def acceptsFile (s : SourceSettings) (name : String) : Bool :=
  ".go".toList.isSuffixOf name.toList &&
    (s.includeTests || !"_test.go".toList.isSuffixOf name.toList)

end SourceSettings

end Wiring
