import Wiring.Go.ShapeReader

/-!
# The declarations of a Go file

A file is read as a list of nodes: the comments that stand outside any declaration or statement, and
the declarations and statements with the rows they take.  A declaration of types is again a list of
nodes.  A comment after the last token of a declaration no longer belongs to it.

Only what is needed of a declaration is read, and every other statement is passed over up to its end:
a semicolon, or a new line where the statement may end.
-/

namespace Wiring.Go

/-- A comment, or an item with the rows on which it starts and ends. -/
inductive Node (α : Type) where
  | comment (text : List Char) (first last : Nat)
  | item (first last : Nat) (a : α)
  deriving Repr

/-- What a file declares at its top level.  Types carry no documentation yet, nor do functions. -/
inductive Declaration where
  | imports (is : List ImportDecl)
  | func (f : FuncDecl)
  | types (ts : List (Node TypeDecl))
  /-- Anything else. -/
  | other

/-- The row on which the last of several tokens ends. -/
def endRow (ts : List Token) : Nat :=
  (ts.getLast?.map Token.lastRow).getD 0

/-- The item made of the tokens from the start of `ts` to `rest`. -/
def Node.spanning {α : Type} (ts rest : List Token) (a : α) : Node α :=
  .item ((ts.head?.map (·.row)).getD 0) (endRow (between ts rest)) a

def Node.ofComment {α : Type} (t : Token) : Node α :=
  .comment t.text t.row t.lastRow

/-! ## Imports -/

def unquote (literal : List Char) : String :=
  String.ofList (Text.trimWhile (fun c => c == '"' || c == '\x60') literal)

def literal? (ts : List Token) : Option (List Char × List Token) :=
  match skip ts with
  | t :: rest => if t.kind = .literal then some (t.text, rest) else none
  | [] => none

/-- An import.  One under `_` or `.` brings no name into the file and is left out. -/
def import? (ts : List Token) : Option (List ImportDecl × List Token) :=
  match literal? ts with
  | some (path, rest) => some ([⟨none, unquote path⟩], rest)
  | none =>
    match symbol? "." ts with
    | some rest => do
      let (_, after) ← literal? rest
      return ([], after)
    | none => do
      let (name, rest) ← name? ts
      let (path, after) ← literal? rest
      return (if name = "_" then [] else [⟨some name, unquote path⟩], after)

/-- The imports up to a closing parenthesis, at most `fuel` of them. -/
def importsWithin? : (fuel : Nat) → List Token → Option (List ImportDecl × List Token)
  | 0, _ => none
  | fuel + 1, ts =>
    match symbol? ")" ts with
    | some rest => some ([], rest)
    | none =>
      match symbol? ";" ts with
      | some rest => importsWithin? fuel rest
      | none => do
        let (is, after) ← import? ts
        let (more, rest) ← importsWithin? fuel after
        return (is ++ more, rest)

def imports? (ts : List Token) : Option (List ImportDecl × List Token) :=
  match symbol? "(" ts with
  | some inside => importsWithin? (inside.length + 1) inside
  | none => import? ts

/-! ## Functions -/

/-- The results of a function, if any stand on the same line. -/
def returns? (ts : List Token) : Option (List FieldDecl × List Token) :=
  if !resultAhead ts then some ([], ts)
  else if nextIs "(" ts then fields? ts
  else (shape? ts).map fun (s, after) => ([.unnamed s], after)

/-- What follows the body of a function, if one stands on the same line. -/
def afterBody (ts : List Token) : List Token :=
  if lineBreakAhead ts then ts else (afterGroup? "\x7b" ts).getD ts

def signature? (receiver : Option FieldDecl) (ts : List Token) : Option (FuncDecl × List Token) := do
  let (name, rest) ← name? ts
  let (params, rest) ← fields? (afterTypeArguments rest)
  let (returns, rest) ← returns? rest
  return ({ FuncDecl.ofName name with receiver, params, returns }, afterBody rest)

def func? (ts : List Token) : Option (FuncDecl × List Token) :=
  if nextIs "(" ts then do
    let (receivers, rest) ← fields? ts
    signature? receivers.head? rest
  else signature? none ts

/-! ## Types -/

/-- Whether the square brackets behind the name of a type hold parameters and not a length. -/
def parametersAhead (ts : List Token) : Bool :=
  match symbol? "[" ts with
  | none => false
  | some inside =>
    match name? inside with
    | none => false
    | some (_, rest) =>
      (skip rest).head?.any fun t =>
        t.isName || ["interface", "map", "chan", "func", "struct"].any t.isKeyword ||
          [",", "~", "["].any t.isSymbol

def kindAhead (ts : List Token) : TypeKind :=
  match (skip ts).head? with
  | some t =>
    if t.isKeyword "struct" then .struct
    else if t.isKeyword "interface" then .interface
    else .other
  | none => .other

def typeSpec? (ts : List Token) : Option (TypeDecl × List Token) := do
  let (name, rest) ← name? ts
  let rest := if parametersAhead rest then afterTypeArguments rest else rest
  match symbol? "=" rest with
  | some rest => return (⟨name, .synonym, []⟩, (← shape? rest).2)
  | none => return (⟨name, kindAhead rest, []⟩, (← shape? rest).2)

/-- The types and comments up to a closing parenthesis, in at most `fuel` steps. -/
def typeGroupWithin? : (fuel : Nat) → List Token → Option (List (Node TypeDecl) × List Token)
  | 0, _ => none
  | _, [] => none
  | fuel + 1, t :: rest =>
    if t.kind = .comment then do
      let (nodes, after) ← typeGroupWithin? fuel rest
      return (.ofComment t :: nodes, after)
    else if t.isTrivia || t.isSymbol ";" then typeGroupWithin? fuel rest
    else if t.isSymbol ")" then some ([], rest)
    else do
      let (d, after) ← typeSpec? (t :: rest)
      let (nodes, rest') ← typeGroupWithin? fuel after
      return (Node.spanning (t :: rest) after d :: nodes, rest')

def types? (ts : List Token) : Option (List (Node TypeDecl) × List Token) :=
  let comments := ((ts.takeWhile Token.isTrivia).filter (·.kind == .comment)).map Node.ofComment
  match symbol? "(" ts with
  | some inside => do
    let (nodes, rest) ← typeGroupWithin? (inside.length + 1) inside
    return (comments ++ nodes, rest)
  | none => do
    let (d, rest) ← typeSpec? ts
    return (comments ++ [Node.spanning (skip ts) rest d], rest)

/-! ## Files -/

/-- What follows a statement.  `rest` follows the last token so far, after which the statement may end
if `mayEnd` says so, and `depth` brackets are open. -/
def afterStatement (depth : Nat) (mayEnd : Bool) (rest : List Token) : List Token → List Token
  | [] => rest
  | t :: ts =>
    if t.isTrivia then
      if depth = 0 && mayEnd && t.breaksLine then rest else afterStatement depth mayEnd rest ts
    else if depth = 0 && t.isSymbol ";" then rest
    else if t.opens then afterStatement (depth + 1) false ts ts
    else if t.closes then afterStatement (depth - 1) true ts ts
    else afterStatement depth t.mayEnd ts ts

/-- The declaration that starts with `t`, and what follows it. -/
def declaration (t : Token) (ts : List Token) : Declaration × List Token :=
  let read? : Option (Declaration × List Token) :=
    if t.isKeyword "import" then (imports? ts).map fun (is, rest) => (.imports is, rest)
    else if t.isKeyword "func" then (func? ts).map fun (f, rest) => (.func f, rest)
    else if t.isKeyword "type" then (types? ts).map fun (ns, rest) => (.types ns, rest)
    else if t.isKeyword "package" then (name? ts).map fun (_, rest) => (.other, rest)
    else none
  read?.getD (.other, afterStatement 0 false ts (t :: ts))

/-- The nodes of a file, in at most `fuel` steps.  A semicolon ends the item before it if there is
one on the line, and otherwise is an empty statement. -/
def nodesWithin : (fuel : Nat) → (afterItem : Bool) → List Token → List (Node Declaration)
  | _, _, [] => []
  | 0, _, _ => []
  | fuel + 1, afterItem, t :: rest =>
    if t.kind = .comment then .ofComment t :: nodesWithin fuel afterItem rest
    else if t.isTrivia then nodesWithin fuel (afterItem && !t.breaksLine) rest
    else if t.isSymbol ";" then
      if afterItem then nodesWithin fuel false rest
      else Node.spanning (t :: rest) rest .other :: nodesWithin fuel true rest
    else
      let (d, after) := declaration t rest
      Node.spanning (t :: rest) after d :: nodesWithin fuel true after

/-- The nodes of a file.  A byte order mark at its start does not count. -/
def nodes (source : String) : List (Node Declaration) :=
  let cs := source.toList
  let ts := tokens (if cs.head? = some '\ufeff' then cs.tail else cs)
  nodesWithin ts.length false ts

end Wiring.Go
