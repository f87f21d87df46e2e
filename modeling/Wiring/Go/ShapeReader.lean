import Wiring.Declaration.Basic
import Wiring.Go.Token

/-!
# Types and parameters in a Go file

Readers take the tokens from some place on and give what they read with the tokens that follow its
last token.  White space and comments in between are passed over; that a new line ends an optional
part is said where it matters.

A type is read as a shape.  Type arguments are dropped, and parentheses as well.  Function, channel,
structure and interface types are kept as they are written.  In a list of parameters a lone name is
the name of a parameter if the next entries up to one with a type are lone names too, and otherwise a
type.
-/

namespace Wiring.Go

/-- The tokens from the next one on that is neither white space nor a comment. -/
def skip (ts : List Token) : List Token :=
  ts.dropWhile Token.isTrivia

/-- Whether a new line starts before the next token. -/
def lineBreakAhead (ts : List Token) : Bool :=
  (ts.takeWhile Token.isTrivia).any Token.breaksLine

def nextIs (s : String) (ts : List Token) : Bool :=
  (skip ts).head?.any (·.isSymbol s)

/-- What follows a symbol that comes next. -/
def symbol? (s : String) (ts : List Token) : Option (List Token) :=
  match skip ts with
  | t :: rest => if t.isSymbol s then some rest else none
  | [] => none

def name? (ts : List Token) : Option (String × List Token) :=
  match skip ts with
  | t :: rest => if t.isName then some (String.ofList t.text, rest) else none
  | [] => none

/-- What follows the bracket that closes the open one, when `depth` more were opened since. -/
def afterClose? : (depth : Nat) → List Token → Option (List Token)
  | _, [] => none
  | depth, t :: ts =>
    if t.opens then afterClose? (depth + 1) ts
    else if t.closes then
      match depth with
      | 0 => some ts
      | depth + 1 => afterClose? depth ts
    else afterClose? depth ts

def afterGroup? (opening : String) (ts : List Token) : Option (List Token) :=
  (symbol? opening ts).bind (afterClose? 0)

/-- What follows a pair of square brackets, if one comes next on the same line. -/
def afterTypeArguments (ts : List Token) : List Token :=
  if lineBreakAhead ts then ts else (afterGroup? "[" ts).getD ts

/-- The tokens of `ts` before `rest`, which is what follows them. -/
def between (ts rest : List Token) : List Token :=
  ts.take (ts.length - rest.length)

/-- A type that is kept as it is written, from the start of `ts` to `rest`. -/
def verbatim (ts rest : List Token) : Shape × List Token :=
  (.unsupported (String.ofList (textOf (between ts rest))), rest)

/-- The shape of what follows a `*` or an open parenthesis: a comment that stands first takes the
place of the type. -/
def orComment (ts : List Token) (s : Shape) : Shape :=
  match (ts.takeWhile Token.isTrivia).find? (·.kind == .comment) with
  | some c => .unsupported (String.ofList c.text)
  | none => s

def startsType (t : Token) : Bool :=
  t.isName || ["map", "chan", "func", "struct", "interface"].any t.isKeyword ||
    ["*", "[", "(", "<-", "~"].any t.isSymbol

def resultAhead (ts : List Token) : Bool :=
  !lineBreakAhead ts && (skip ts).head?.any startsType

/-- A type of at most `fuel` tokens. -/
def shapeWithin? : (fuel : Nat) → List Token → Option (Shape × List Token)
  | 0, _ => none
  | fuel + 1, ts =>
    let ts := skip ts
    match ts with
    | [] => none
    | t :: rest =>
      if t.isName then
        match (symbol? "." rest).bind name? with
        | some (member, after) =>
          some (.named (some (String.ofList t.text)) member, afterTypeArguments after)
        | none => some (.named none (String.ofList t.text), afterTypeArguments rest)
      else if t.isSymbol "*" then do
        let (elem, after) ← shapeWithin? fuel rest
        return (.pointer (orComment rest elem), after)
      else if t.isSymbol "(" then do
        let (inner, after) ← shapeWithin? fuel rest
        return (orComment rest inner, ← symbol? ")" after)
      else if t.isSymbol "[" then do
        let (elem, after) ← shapeWithin? fuel (← afterClose? 0 rest)
        return (.slice elem, after)
      else if t.isKeyword "map" then do
        let (key, after) ← shapeWithin? fuel (← symbol? "[" rest)
        let (value, after) ← shapeWithin? fuel (← symbol? "]" after)
        return (.map key value, after)
      else if t.isKeyword "struct" || t.isKeyword "interface" then do
        return verbatim ts (← afterGroup? "\x7b" rest)
      else if t.isKeyword "func" then do
        let after ← afterGroup? "(" rest
        if !resultAhead after then return verbatim ts after
        else if nextIs "(" after then return verbatim ts (← afterGroup? "(" after)
        else return verbatim ts (← shapeWithin? fuel after).2
      else if t.isKeyword "chan" then do
        return verbatim ts (← shapeWithin? fuel ((symbol? "<-" rest).getD rest)).2
      else if t.isSymbol "<-" || t.isSymbol "~" then do
        return verbatim ts (← shapeWithin? fuel rest).2
      else none

def shape? (ts : List Token) : Option (Shape × List Token) :=
  shapeWithin? ts.length ts

inductive Entry where
  /-- A lone name. -/
  | bare (name : String)
  | unnamed (s : Shape)
  | named (name : String) (s : Shape)
  /-- The last parameter of a variadic function, by the shape of one argument. -/
  | variadic (name : Option String) (s : Shape)

/-- Whether what follows a pair of square brackets behind a name ends the entry. -/
def endsAfterTypeArguments (ts : List Token) : Bool :=
  match symbol? "[" ts with
  | none => false
  | some inside =>
    !nextIs "]" inside && (afterClose? 0 inside).any fun after =>
      nextIs "," after || nextIs ")" after

def entry? (ts : List Token) : Option (Entry × List Token) :=
  match symbol? "..." ts with
  | some rest => do
    let (s, after) ← shape? rest
    return (.variadic none s, after)
  | none =>
    match name? ts with
    | none => do
      let (s, after) ← shape? ts
      return (.unnamed s, after)
    | some (name, rest) =>
      if nextIs "," rest || nextIs ")" rest then some (.bare name, rest)
      else if nextIs "." rest || endsAfterTypeArguments rest then do
        let (s, after) ← shape? ts
        return (.unnamed s, after)
      else
        match symbol? "..." rest with
        | some rest => do
          let (s, after) ← shape? rest
          return (.variadic (some name) s, after)
        | none => do
          let (s, after) ← shape? rest
          return (.named name s, after)

/-- The entries up to a closing parenthesis, at most `fuel` of them. -/
def entriesWithin? : (fuel : Nat) → List Token → Option (List Entry × List Token)
  | 0, _ => none
  | fuel + 1, ts =>
    match symbol? ")" ts with
    | some rest => some ([], rest)
    | none => do
      let (e, after) ← entry? ts
      match symbol? "," after with
      | some rest => do
        let (es, rest) ← entriesWithin? fuel rest
        return (e :: es, rest)
      | none => return ([e], ← symbol? ")" after)

/-- The fields that entries declare, and the type that a lone name before them would have. -/
def fieldsWithType : List Entry → List FieldDecl × Option Shape
  | [] => ([], none)
  | .bare name :: rest =>
    match fieldsWithType rest with
    | (fs, some s) => (.ofName name s :: fs, some s)
    | (fs, none) => (.unnamed (.named none name) :: fs, none)
  | .named name s :: rest => (.ofName name s :: (fieldsWithType rest).1, some s)
  | .unnamed s :: rest => (.unnamed s :: (fieldsWithType rest).1, none)
  | .variadic name s :: rest => (⟨name, .slice s, []⟩ :: (fieldsWithType rest).1, none)

def fields? (ts : List Token) : Option (List FieldDecl × List Token) := do
  let inside ← symbol? "(" ts
  let (es, after) ← entriesWithin? (inside.length + 1) inside
  return ((fieldsWithType es).1, after)

end Wiring.Go
