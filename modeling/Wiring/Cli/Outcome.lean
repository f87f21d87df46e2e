import Wiring.Cli.Report
import Wiring.Cli.Request
import Wiring.Config
import Wiring.Declaration.Codec
import Wiring.Json.Printer
import Wiring.Registry.Load
import Wiring.Scan

/-!
# Running a command line

A run depends on the arguments and on the files that are there.  It ends with a report, or with what
went wrong at the first step that failed: configuration, declarations, directives, constructors.
-/

namespace Wiring.Cli

/-- What went wrong: in which step, and why, from the outside to the inside. -/
structure Failure where
  step : String
  causes : List String
  deriving DecidableEq, Repr

namespace Failure

/-- A text whose later lines are indented by so many spaces. -/
def indented (width : Nat) (text : String) : String :=
  String.ofList (text.toList.flatMap fun c =>
    if c = '\n' then '\n' :: List.replicate width ' ' else [c])

/-- A number at the end of five columns. -/
def column (n : Nat) : String :=
  let digits := Nat.toDigits 10 n
  String.ofList (List.replicate (5 - digits.length) ' ' ++ digits)

/-- The causes below each other, with their numbers if there are several. -/
def causeLines : List String → String
  | [cause] => "\n    " ++ indented 4 cause
  | causes => String.join <| causes.zipIdx.map fun (cause, n) =>
    "\n" ++ column n ++ ": " ++ indented 7 cause

def report (f : Failure) : String :=
  "Error: " ++ f.step ++
    if f.causes.isEmpty then "" else "\n\nCaused by:" ++ causeLines f.causes

def ofConfig (e : ConfigError) : Failure :=
  ⟨e.message, []⟩

def ofSettings (e : SettingsError) : Failure :=
  ⟨e.message, []⟩

def ofScan (e : ScanError) : Failure :=
  ⟨"Failed to scan Go sources",
    match e with
    | .file inner => [e.message, inner.message]
    | _ => [e.message]⟩

end Failure

/-- How a run ends: what it writes on its two channels, and its exit code. -/
structure Outcome where
  exit : Nat
  stdout : String
  stderr : String
  deriving DecidableEq, Repr

namespace Request

/-- The configuration of a request: the choices on the command line come before those in the file. -/
def configIn (r : Request) (fs : FileSystem) : Except Failure Config := do
  let c ← (Config.load fs r.config).mapError .ofConfig
  let c : Config :=
    ⟨⟨r.marker.getD c.parser.marker, r.policy.getD c.parser.policy⟩, c.source, r.jobs.or c.jobs⟩
  match c.validate? with
  | some e => throw (.ofSettings e)
  | none => return c

def unitsIn (r : Request) (fs : FileSystem) (c : Config) : Except Failure (List SourceUnit) :=
  match r.origin with
  | .patterns ps => (Scan.scanAll fs c.source ps).mapError .ofScan
  | .units path =>
    match (fs.readText path).toOption.bind SourceUnit.parseList? with
    | some us => .ok us
    | none => .error ⟨"Failed to load units from " ++ path, []⟩

/-- The types that full names stand for, and the registry that knows them. -/
def typesOf (registry : Registry) : List String → List TypeName × Registry
  | [] => ([], registry)
  | fqn :: rest =>
    let (t, registry) := registry.typeOfFqn fqn
    let (ts, registry) := typesOf registry rest
    (t :: ts, registry)

def reportOn (r : Request) (registry : Registry) : Except Failure Json :=
  match r.command with
  | .inspect => .ok (Report.ofRegistry registry)
  | .resolve => do
    let (targets, registry) := typesOf registry r.targets
    let resolution ← (registry.resolve targets).mapError fun e =>
      ⟨"Constructor resolution failed", [e.message]⟩
    return Report.ofTargets targets resolution
  | .api => do
    let api ← (Api.ofRegistry registry).mapError fun e => ⟨"Invalid api directive", [e.message]⟩
    let plan ← (api.plan registry).mapError fun e => ⟨"Service resolution failed", [e.message]⟩
    return Report.ofApi api plan

def report (r : Request) (fs : FileSystem) : Except Failure Json := do
  let c ← r.configIn fs
  let units ← r.unitsIn fs c
  r.reportOn ((Registry.empty c.parser).loadAll units).2

def outcome (r : Request) (fs : FileSystem) : Outcome :=
  match r.report fs with
  | .ok v => ⟨0, (if r.pretty then v.pretty else v.compact) ++ "\n", ""⟩
  | .error f => ⟨1, "", f.report ++ "\n"⟩

end Request

def usage : String :=
  "Usage: ease [OPTIONS] <COMMAND>\n\n" ++
  "Commands:\n" ++
  "  inspect [PATTERNS]...           Show packages, types and functions\n" ++
  "  resolve --type <TYPE> [PATTERNS]...  Show the constructors of types\n" ++
  "  api [PATTERNS]...               Show endpoints and the constructors of their services\n\n" ++
  "Options:\n" ++
  "  -v, --verbose          Say more\n" ++
  "      --quiet            Say less\n" ++
  "      --config <FILE>    Configuration file (ease.toml if it is there)\n" ++
  "      --jobs <N>         Number of loaders\n" ++
  "      --policy <POLICY>  Choice among constructors: first or strict\n" ++
  "      --prefix <WORD>    Marker of directives\n" ++
  "      --pretty           Indent the report\n" ++
  "      --units <FILE>     Read declarations from a file, not from patterns\n" ++
  "  -h, --help             Show this text\n" ++
  "  -V, --version          Show the version\n"

def version : String :=
  "ease 0.1.1\n"

/-- How a run with some arguments among some files ends. -/
def run (fs : FileSystem) (args : List String) : Outcome :=
  match Meaning.ofArgs args with
  | .run r => r.outcome fs
  | .version => ⟨0, version, ""⟩
  | .usage => ⟨0, usage, ""⟩
  | .wrong => ⟨2, "", "error: the arguments do not fit\n\n" ++ usage⟩

end Wiring.Cli
