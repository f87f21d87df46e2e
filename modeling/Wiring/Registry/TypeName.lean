import Wiring.Comment.Documentation
import Wiring.Declaration.Basic
import Wiring.Registry.Package

/-!
# Names of types

A type is known by its full name: the path of its package, a dot and its own name, or its own name
alone if it belongs to no package.  The built-in types belong to no package, whatever package their
name is looked up in.
-/

namespace Wiring

def builtinNames : List String :=
  ["any", "bool", "byte", "comparable", "complex64", "complex128", "error", "float32", "float64",
    "int", "int8", "int16", "int32", "int64", "rune", "string", "uint", "uint8", "uint16", "uint32",
    "uint64", "uintptr"]

def isBuiltin (name : String) : Bool :=
  builtinNames.contains name

/-- A type by its package, if it has one, and its name. -/
structure TypeName where
  package : Option Package
  name : String
  deriving DecidableEq, Inhabited, Repr

namespace TypeName

/-- The type that a name stands for in a package. -/
def lookup (package : Option Package) (name : String) : TypeName :=
  ⟨if isBuiltin name then none else package, name⟩

def fqn (t : TypeName) : String :=
  match t.package with
  | some p => p.path ++ "." ++ t.name
  | none => t.name

def isError (t : TypeName) : Bool :=
  t.fqn == "error"

def isContext (t : TypeName) : Bool :=
  t.fqn == "context.Context"

def isGlobal (t : TypeName) : Bool :=
  t.package.isNone

def localAlias (t : TypeName) : String :=
  match t.package with
  | none => t.name
  | some _ =>
    String.ofList (sanitizeIdent (Text.lowercase t.name.toList)) ++ "_" ++ Digest.shortHex t.fqn

/-- How generated code refers to the type. -/
def reference (t : TypeName) : String :=
  match t.package with
  | some p => p.localAlias ++ "." ++ t.name
  | none => t.name

end TypeName

/-- What a file says about a type that it declares. -/
structure TypeDeclaration where
  kind : TypeKind
  documentation : Documentation
  file : Option String
  deriving DecidableEq

/-- A type that was referred to, with its declaration once that was read. -/
structure TypeEntry where
  name : TypeName
  declaration : Option TypeDeclaration
  deriving DecidableEq

def TypeEntry.declare (e : TypeEntry) (d : TypeDeclaration) : TypeEntry :=
  { e with declaration := some (e.declaration.getD d) }

end Wiring
