import Wiring.Registry.TypeName

/-!
# Signatures

What the shapes of a function mean where the function is declared.  `FileScope.meaning?` follows a
shape from the outside in to the name at its core and keeps in a `SlotKind` what it passes: pointers,
slices and maps, and pointers inside slices.  A name stands for a built-in type, for a type of the
file's own package, or, behind a qualifier, for a type of the package that the file imports under that
qualifier.
-/

namespace Wiring

/-- What stands between a slot and the named type at its core. -/
structure SlotKind where
  /-- The core is a type of a package. -/
  ident : Bool
  /-- The core is a type without package. -/
  builtin : Bool
  /-- A pointer with no slice around it. -/
  pointer : Bool
  slice : Bool
  /-- A pointer with a slice around it. -/
  sliceOfPointer : Bool
  map : Bool
  deriving DecidableEq, Inhabited, Repr

namespace SlotKind

/-- The kind of a slot about which nothing is known. -/
def unknown : SlotKind :=
  ⟨false, false, false, false, false, false⟩

def isUnknown (k : SlotKind) : Bool :=
  !k.ident && !k.builtin

def withIdent (k : SlotKind) : SlotKind :=
  { k with ident := true }

def withBuiltin (k : SlotKind) : SlotKind :=
  { k with builtin := true }

def withPointer (k : SlotKind) : SlotKind :=
  { k with pointer := true }

def withSlice (k : SlotKind) : SlotKind :=
  { k with slice := true }

def withSliceOfPointer (k : SlotKind) : SlotKind :=
  { k with sliceOfPointer := true }

def withMap (k : SlotKind) : SlotKind :=
  { k with map := true }

/-- The kind with one more pointer inside what was passed so far. -/
def throughPointer (k : SlotKind) : SlotKind :=
  if k.slice then k.withSliceOfPointer else k.withPointer

def endingIn (k : SlotKind) (t : TypeName) : SlotKind :=
  if t.isGlobal then k.withBuiltin else k.withIdent

end SlotKind

/-- A parameter, a result or a receiver whose shape was looked up. -/
structure Slot where
  name : String
  documentation : Documentation
  shape : Shape
  type? : Option TypeName
  kind : SlotKind
  deriving DecidableEq

namespace Slot

/-- Whether the type at the core of the slot is the built-in error, whatever is around it. -/
def isError (s : Slot) : Bool :=
  s.type?.any TypeName.isError

/-- Whether the type at the core of the slot is the context of a request. -/
def isContext (s : Slot) : Bool :=
  s.type?.any TypeName.isContext

end Slot

structure Signature where
  receiver : Option Slot
  params : List Slot
  returns : List Slot
  deriving DecidableEq

def Signature.empty : Signature :=
  ⟨none, [], []⟩

structure FileScope where
  /-- The marker of directives in the comments of the file. -/
  marker : String
  package : Package
  /-- The imported packages by their names in the file. -/
  imports : Dict Package
  file : Option String
  deriving DecidableEq

namespace ImportDecl

def package (i : ImportDecl) : Package :=
  .ofPath i.path

/-- The name of the imported package in the file; `_` and `.` give it none. -/
def localName? (i : ImportDecl) : Option String :=
  match i.localName with
  | some name => if name == "_" || name == "." then none else some name
  | none => some i.package.name

end ImportDecl

namespace FileScope

/-- The scope of a unit; of two imports under one name the later counts. -/
def ofUnit (marker : String) (u : SourceUnit) : FileScope where
  marker := marker
  package := .ofPath u.packagePath
  imports := .ofList (u.imports.filterMap fun i => i.localName?.map fun name => (name, i.package))
  file := u.filePath

/-- The type at the core of a shape and the kind of what is around it, inside what was passed. -/
def meaningFrom? (scope : FileScope) (k : SlotKind) : Shape → Option (TypeName × SlotKind)
  | .named (some qualifier) name =>
    (scope.imports.get? qualifier).map fun p => (TypeName.lookup (some p) name, k)
  | .named none name => some (TypeName.lookup (some scope.package) name, k)
  | .pointer elem => scope.meaningFrom? k.throughPointer elem
  | .slice elem => scope.meaningFrom? k.withSlice elem
  | .map _ value => scope.meaningFrom? k.withMap value
  | .unsupported _ => none

/-- The type at the core of a shape and the kind of what is around it. -/
def meaning? (scope : FileScope) (s : Shape) : Option (TypeName × SlotKind) :=
  scope.meaningFrom? .unknown s

/-- The slot of a field, where `canonical` gives the registered form of a type. -/
def slot (scope : FileScope) (canonical : TypeName → TypeName) (f : FieldDecl) : Slot :=
  let m := (scope.meaning? f.shape).map fun (t, k) => (canonical t, k.endingIn (canonical t))
  { name := f.name.getD ""
    documentation := .ofComments scope.marker f.doc
    shape := f.shape
    type? := m.map (·.1)
    kind := (m.map (·.2)).getD .unknown }

/-- The fields of a function in the order in which they are looked up. -/
def fieldsOf (d : FuncDecl) : List FieldDecl :=
  d.receiver.toList ++ d.params ++ d.returns

/-- The types that the signature of a function refers to, in order. -/
def mentioned (scope : FileScope) (d : FuncDecl) : List TypeName :=
  (fieldsOf d).filterMap fun f => (scope.meaning? f.shape).map (·.1)

/-- The signature of a function, where `canonical` gives the registered form of a type. -/
def signature (scope : FileScope) (canonical : TypeName → TypeName) (d : FuncDecl) : Signature where
  receiver := d.receiver.map (scope.slot canonical)
  params := d.params.map (scope.slot canonical)
  returns := d.returns.map (scope.slot canonical)

end FileScope

end Wiring
