import Wiring.Settings.Basic

/-!
# Command lines

A command line is a command with options before and after it and operands after it.  A switch stands
alone or together with others behind one dash.  A setting has a value, behind an equals sign or as the
next argument, which then must not look like an option.  Behind two dashes everything is an operand.

Switches and settings may stand once before the command and once after it, and after it they count.
Only targets may be repeated.  The arguments are read from left to right, and the version and the
usage are shown as soon as they are asked for, unless something before was wrong.
-/

namespace Wiring.Cli

inductive Command where
  | inspect
  | resolve
  | api
  deriving DecidableEq, Repr

def Command.ofName? : String → Option Command
  | "inspect" => some inspect
  | "resolve" => some resolve
  | "api" => some api
  | _ => none

inductive Switch where
  | verbose
  | quiet
  | pretty
  | version
  | usage
  deriving DecidableEq, Repr

def Switch.ofName? : String → Option Switch
  | "verbose" => some verbose
  | "quiet" => some quiet
  | "pretty" => some pretty
  | "version" => some version
  | "help" => some usage
  | _ => none

def Switch.ofLetter? : Char → Option Switch
  | 'v' => some verbose
  | 'V' => some version
  | 'h' => some usage
  | _ => none

inductive Setting where
  | config
  | jobs
  | policy
  | marker
  | units
  | target
  deriving DecidableEq, Repr

def Setting.ofName? : String → Option Setting
  | "config" => some config
  | "jobs" => some jobs
  | "policy" => some policy
  | "prefix" => some marker
  | "units" => some units
  | "type" => some target
  | _ => none

inductive Choice where
  | config (path : String)
  | jobs (n : Nat)
  | policy (p : ProducerPolicy)
  | marker (word : String)
  | units (path : String)
  | target (fqn : String)
  deriving DecidableEq, Repr

def Choice.setting : Choice → Setting
  | config _ => .config
  | jobs _ => .jobs
  | policy _ => .policy
  | marker _ => .marker
  | units _ => .units
  | target _ => .target

/-- The number of 64 bits that a text is; a plus sign may stand before it. -/
def number? (text : String) : Option Nat :=
  let digits := (['+'].isPrefixOf? text.toList).getD text.toList
  let n := digits.foldl (fun n c => 10 * n + (c.toNat - '0'.toNat)) 0
  if digits.isEmpty || !digits.all Char.isDigit || Nat.pow 2 64 ≤ n then none else some n

def policy? : String → Option ProducerPolicy
  | "first" => some .firstRegistered
  | "strict" => some .rejectAmbiguous
  | _ => none

def Setting.choice? (s : Setting) (value : String) : Option Choice :=
  match s with
  | config => if value = "" then none else some (.config value)
  | jobs => (number? value).map .jobs
  | policy => (policy? value).map .policy
  | marker => some (.marker value)
  | units => if value = "" then none else some (.units value)
  | target => some (.target value)

/-- Whether a switch may stand before a command or, if one is given, after it. -/
def Switch.fits (s : Switch) (command : Option Command) : Bool :=
  s != .version || command.isNone

def Setting.fits (s : Setting) (command : Option Command) : Bool :=
  match s with
  | units => command.isSome
  | target => command == some .resolve
  | _ => true

/-- What one argument, or a setting with its value, says. -/
inductive Item where
  | switch (s : Switch)
  | choice (c : Choice)
  | operand (text : String)
  /-- Something that nobody can make sense of. -/
  | stray
  deriving DecidableEq, Repr

def isOptionLike (arg : String) : Bool :=
  match arg.toList with
  | '-' :: _ :: _ => true
  | _ => false

/-- What switches behind one dash say. -/
def switchesOf (command : Option Command) (letters : List Char) : List Item :=
  letters.map fun c =>
    match Switch.ofLetter? c with
    | some s => if s.fits command then .switch s else .stray
    | none => .stray

def choiceOf (s : Setting) (value : String) : Item :=
  ((s.choice? value).map .choice).getD .stray

def settingOf? (command : Option Command) (name : List Char) : Option Setting :=
  (Setting.ofName? (String.ofList name)).filter (·.fits command)

/-- What a long option says that needs no further argument. -/
def longOf (command : Option Command) (option : List Char) : Item :=
  let name := option.takeWhile (· != '=')
  match option.dropWhile (· != '=') with
  | [] =>
    match (Switch.ofName? (String.ofList name)).filter (·.fits command) with
    | some s => .switch s
    | none => .stray
  | _ :: value =>
    match settingOf? command name with
    | some s => choiceOf s (String.ofList value)
    | none => .stray

def prepend (items : List Item) (r : List Item × Option (Command × List String)) :
    List Item × Option (Command × List String) :=
  (items ++ r.1, r.2)

/-- What the arguments up to a command, or after one, say, and with a command what follows it.  A
setting may be `pending`, whose value comes next. -/
def itemsOf (command : Option Command) : (pending : Option Setting) → List String →
    List Item × Option (Command × List String)
  | none, [] => ([], none)
  | some _, [] => ([.stray], none)
  | some s, value :: rest =>
    if isOptionLike value then ([.stray], none)
    else prepend [choiceOf s value] (itemsOf command none rest)
  | none, arg :: rest =>
    match arg.toList with
    | ['-', '-'] =>
      (rest.map fun arg => if command.isNone then .stray else .operand arg, none)
    | '-' :: '-' :: option =>
      match settingOf? command option with
      | some s => itemsOf command (some s) rest
      | none => prepend [longOf command option] (itemsOf command none rest)
    | '-' :: c :: letters =>
      prepend (switchesOf command (c :: letters)) (itemsOf command none rest)
    | _ =>
      match command, Command.ofName? arg with
      | none, some c => ([], some (c, rest))
      | none, none => ([if arg = "help" then .switch .usage else .stray], none)
      | some _, _ => prepend [.operand arg] (itemsOf command none rest)

structure Given where
  switches : List Switch
  choices : List Choice
  operands : List String
  deriving DecidableEq, Repr

inductive Reading where
  | given (g : Given)
  | version
  | usage
  | wrong
  deriving DecidableEq, Repr

/-- Reads items in order after what was given before them. -/
def read (g : Given) : List Item → Reading
  | [] => .given g
  | .stray :: _ => .wrong
  | .operand text :: rest => read { g with operands := g.operands ++ [text] } rest
  | .choice c :: rest =>
    if c.setting ≠ .target ∧ c.setting ∈ g.choices.map Choice.setting then .wrong
    else read { g with choices := g.choices ++ [c] } rest
  | .switch .version :: _ => .version
  | .switch .usage :: _ => .usage
  | .switch s :: rest =>
    if s ∈ g.switches then .wrong else read { g with switches := g.switches ++ [s] } rest

inductive Origin where
  | patterns (ps : List String)
  /-- A file of units. -/
  | units (path : String)
  deriving DecidableEq, Repr

structure Request where
  command : Command
  origin : Origin
  /-- The full names of the types to resolve. -/
  targets : List String
  config : Option String
  jobs : Option Nat
  policy : Option ProducerPolicy
  marker : Option String
  pretty : Bool
  deriving DecidableEq, Repr

inductive Meaning where
  | run (r : Request)
  | version
  | usage
  /-- Nothing, because it is wrong. -/
  | wrong
  deriving DecidableEq, Repr

namespace Request

/-- The pattern that stands where no operand is given. -/
def allBelow : String :=
  "./..."

/-- Where the declarations are taken from; not from a file and from patterns at once. -/
def origin? (g : Given) : Option Origin :=
  match g.choices.findSome? fun c => if let .units path := c then some path else none, g.operands with
  | some path, [] => some (.units path)
  | some _, _ :: _ => none
  | none, [] => some (.patterns [allBelow])
  | none, ps => some (.patterns ps)

def of? (command : Command) (after before : Given) : Option Request := do
  let find {α : Type} (f : Choice → Option α) : Option α :=
    (after.choices ++ before.choices).findSome? f
  let targets := after.choices.filterMap fun c => if let .target fqn := c then some fqn else none
  if command = .resolve ∧ targets = [] then none
  return { command, targets
           origin := ← origin? after
           config := find fun c => if let .config path := c then some path else none
           jobs := find fun c => if let .jobs n := c then some n else none
           policy := find fun c => if let .policy p := c then some p else none
           marker := find fun c => if let .marker word := c then some word else none
           pretty := (after.switches ++ before.switches).contains .pretty }

end Request

/-- What a command with the arguments behind it stands for after what was given before it. -/
def Meaning.ofCommand (command : Command) (args : List String) (before : Given) : Meaning :=
  match read ⟨[], [], []⟩ (itemsOf (some command) none args).1 with
  | .given after => ((Request.of? command after before).map run).getD wrong
  | .version => version
  | .usage => usage
  | .wrong => wrong

def Meaning.ofArgs (args : List String) : Meaning :=
  let (items, next) := itemsOf none none args
  match read ⟨[], [], []⟩ items, next with
  | .given before, some (command, rest) => ofCommand command rest before
  | .given _, none => wrong
  | .version, _ => version
  | .usage, _ => usage
  | .wrong, _ => wrong

end Wiring.Cli
