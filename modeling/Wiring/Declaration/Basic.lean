import Wiring.Text.LetterCase

/-!
# Declarations of a source file

A `SourceUnit` holds what one file declares: the package it belongs to, its imports, its types and
its functions, in the order of the file.  Documentation is kept as the comment lines were written,
markers included.

A `Shape` is the type of a parameter or a result as it is written in the file, before anybody knows
what its names stand for.
-/

namespace Wiring

/-! ## Shapes -/

/-- A type as it is written. -/
inductive Shape where
  /-- A name, alone or behind the local name of an imported package. -/
  | named (package : Option String) (name : String)
  | pointer (elem : Shape)
  /-- A slice, an array or the last parameter of a variadic function. -/
  | slice (elem : Shape)
  | map (key value : Shape)
  /-- Any other type, by its text. -/
  | unsupported (text : String)
  deriving DecidableEq, Inhabited, Repr

namespace Shape

def text : Shape → String
  | named (some package) name => package ++ "." ++ name
  | named none name => name
  | pointer elem => "*" ++ elem.text
  | slice elem => "[]" ++ elem.text
  | map key value => "map[" ++ key.text ++ "]" ++ value.text
  | unsupported text => text

/-- The name that is left when pointers, slices and maps are followed to what they hold. -/
def baseName? : Shape → Option String
  | named _ name => some name
  | pointer elem => elem.baseName?
  | slice elem => elem.baseName?
  | map _ value => value.baseName?
  | unsupported _ => none

end Shape

/-! ## Declarations -/

/-- Whether a name is visible outside its package: it starts with an upper-case letter. -/
def isExported (name : String) : Bool :=
  match name.toList with
  | c :: _ => Text.isUppercase c
  | [] => false

/-- An import, under its own name or under a local one. -/
structure ImportDecl where
  localName : Option String
  path : String
  deriving DecidableEq, Inhabited, Repr

structure FieldDecl where
  name : Option String
  shape : Shape
  doc : List String
  deriving DecidableEq, Inhabited, Repr

def FieldDecl.ofName (name : String) (shape : Shape) : FieldDecl :=
  ⟨some name, shape, []⟩

def FieldDecl.unnamed (shape : Shape) : FieldDecl :=
  ⟨none, shape, []⟩

inductive TypeKind where
  | struct
  | interface
  /-- Another name for a type. -/
  | synonym
  | other
  deriving DecidableEq, Inhabited, Repr

def TypeKind.word : TypeKind → String
  | struct => "struct"
  | interface => "interface"
  | synonym => "alias"
  | other => "other"

def TypeKind.ofWord? (word : String) : Option TypeKind :=
  [struct, interface, synonym, other].find? (·.word == word)

structure TypeDecl where
  name : String
  kind : TypeKind
  doc : List String
  deriving DecidableEq, Inhabited, Repr

/-- A declared function, or a method if it has a receiver. -/
structure FuncDecl where
  name : String
  exported : Bool
  receiver : Option FieldDecl
  params : List FieldDecl
  returns : List FieldDecl
  doc : List String
  deriving DecidableEq, Inhabited, Repr

/-- A function without receiver, parameters and results, visible as its name says. -/
def FuncDecl.ofName (name : String) : FuncDecl :=
  ⟨name, isExported name, none, [], [], []⟩

def FuncDecl.isMethod (f : FuncDecl) : Bool :=
  f.receiver.isSome

/-- The name of the type that a method belongs to, if its receiver has one. -/
def FuncDecl.receiverBase? (f : FuncDecl) : Option String :=
  f.receiver.bind (·.shape.baseName?)

structure SourceUnit where
  packagePath : String
  filePath : Option String
  imports : List ImportDecl
  types : List TypeDecl
  funcs : List FuncDecl
  deriving DecidableEq, Inhabited, Repr

def SourceUnit.ofPackage (packagePath : String) : SourceUnit :=
  ⟨packagePath, none, [], [], []⟩

def SourceUnit.declarationCount (u : SourceUnit) : Nat :=
  u.types.length + u.funcs.length

end Wiring
