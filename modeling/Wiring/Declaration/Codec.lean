import Wiring.Declaration.Basic
import Wiring.Json.Limit
import Wiring.Json.Reader

/-!
# Declarations as JSON

Units are written with all their fields, `null` for what is absent.  When they are read, lists that
are absent are empty, the kind of a type is `other` unless it is given, and only what may be absent
may be `null`.  A shape says by its field `kind` which fields it has besides.

This field may stand anywhere among the others.  So the reader of a text keeps a shape with all that
stands in it, and refuses one that it cannot hold (`Shape.held?`); all other fields that it does not
know it passes over.  The decoders of records are told how many arrays and objects are open around
them, and with what to read the shapes in them.
-/

namespace Wiring

open Json (fields? string? list? bool?)

namespace Shape

def toJson : Shape → Json
  | named package name =>
    .object [("kind", .string "named"), ("package", Json.ofString? package), ("name", .string name)]
  | pointer elem => .object [("kind", .string "pointer"), ("elem", elem.toJson)]
  | slice elem => .object [("kind", .string "slice"), ("elem", elem.toJson)]
  | map key value =>
    .object [("kind", .string "map"), ("key", key.toJson), ("value", value.toJson)]
  | unsupported text => .object [("kind", .string "unsupported"), ("text", .string text)]

/-- The shape that a record describes, where `shapeOf name` reads the shape in one of its fields. -/
def ofFields? (fs : Json.Fields) (shapeOf : String → Option Shape) : Option Shape := do
  match ← fs.required? "kind" string? with
  | "named" =>
    let package ← fs.optional? "package" string?
    let name ← fs.required? "name" string?
    return named package name
  | "pointer" => return pointer (← shapeOf "elem")
  | "slice" => return slice (← shapeOf "elem")
  | "map" => return map (← shapeOf "key") (← shapeOf "value")
  | "unsupported" => return unsupported (← fs.required? "text" string?)
  | _ => none

mutual

def ofJson? : Json → Option Shape
  | .object fs =>
    let shapes := shapesIn fs
    ofFields? fs fun name =>
      match shapes.filter (·.1 == name) with
      | [(_, shape?)] => shape?
      | _ => none
  | _ => none

/-- The shapes that the fields of a record stand for. -/
def shapesIn : List (String × Json) → List (String × Option Shape)
  | [] => []
  | (name, v) :: rest => (name, ofJson? v) :: shapesIn rest

end

/-- The shape that a value in a text stands for, with so many arrays and objects open around it. -/
def held? (opened : Nat) (v : Json) : Option Shape :=
  if opened + v.depth ≤ Json.maxDepth ∧ v.inRange then ofJson? v else none

end Shape

/-- How shapes are read, by the number of arrays and objects that are open around them. -/
abbrev ShapeDecoder := Nat → Json → Option Shape

namespace ImportDecl

def toJson (i : ImportDecl) : Json :=
  .object [("alias", Json.ofString? i.localName), ("path", .string i.path)]

def ofJson? (v : Json) : Option ImportDecl := do
  let fs ← fields? v
  return { localName := ← fs.optional? "alias" string?
           path := ← fs.required? "path" string? }

end ImportDecl

namespace FieldDecl

def toJson (f : FieldDecl) : Json :=
  .object [("name", Json.ofString? f.name), ("shape", f.shape.toJson), ("doc", Json.strings f.doc)]

def decode? (shapeAt : ShapeDecoder) (opened : Nat) (v : Json) : Option FieldDecl := do
  let fs ← fields? v
  return { name := ← fs.optional? "name" string?
           shape := ← fs.required? "shape" (shapeAt (opened + 1))
           doc := ← fs.getD? "doc" [] (list? string?) }

end FieldDecl

namespace TypeKind

def ofJson? (v : Json) : Option TypeKind :=
  (Json.case? v).bind ofWord?

end TypeKind

namespace TypeDecl

def toJson (t : TypeDecl) : Json :=
  .object [("name", .string t.name), ("kind", .string t.kind.word), ("doc", Json.strings t.doc)]

def ofJson? (v : Json) : Option TypeDecl := do
  let fs ← fields? v
  return { name := ← fs.required? "name" string?
           kind := ← fs.getD? "kind" .other TypeKind.ofJson?
           doc := ← fs.getD? "doc" [] (list? string?) }

end TypeDecl

namespace FuncDecl

def toJson (f : FuncDecl) : Json :=
  .object
    [("name", .string f.name), ("exported", .bool f.exported),
      ("receiver", (f.receiver.map FieldDecl.toJson).getD .null),
      ("params", .array (f.params.map FieldDecl.toJson)),
      ("returns", .array (f.returns.map FieldDecl.toJson)), ("doc", Json.strings f.doc)]

def decode? (shapeAt : ShapeDecoder) (opened : Nat) (v : Json) : Option FuncDecl := do
  let fs ← fields? v
  return { name := ← fs.required? "name" string?
           exported := ← fs.required? "exported" bool?
           receiver := ← fs.optional? "receiver" (FieldDecl.decode? shapeAt (opened + 1))
           params := ← fs.getD? "params" [] (list? (FieldDecl.decode? shapeAt (opened + 2)))
           returns := ← fs.getD? "returns" [] (list? (FieldDecl.decode? shapeAt (opened + 2)))
           doc := ← fs.getD? "doc" [] (list? string?) }

end FuncDecl

namespace SourceUnit

def toJson (u : SourceUnit) : Json :=
  .object
    [("package_path", .string u.packagePath), ("file_path", Json.ofString? u.filePath),
      ("imports", .array (u.imports.map ImportDecl.toJson)),
      ("types", .array (u.types.map TypeDecl.toJson)),
      ("funcs", .array (u.funcs.map FuncDecl.toJson))]

def decode? (shapeAt : ShapeDecoder) (opened : Nat) (v : Json) : Option SourceUnit := do
  let fs ← fields? v
  return { packagePath := ← fs.required? "package_path" string?
           filePath := ← fs.optional? "file_path" string?
           imports := ← fs.getD? "imports" [] (list? ImportDecl.ofJson?)
           types := ← fs.getD? "types" [] (list? TypeDecl.ofJson?)
           funcs := ← fs.getD? "funcs" [] (list? (FuncDecl.decode? shapeAt (opened + 2))) }

/-- The unit that a JSON value stands for, whatever the shapes in it are. -/
def ofJson? (v : Json) : Option SourceUnit :=
  decode? (fun _ => Shape.ofJson?) 0 v

def parseList? (text : String) : Option (List SourceUnit) :=
  (Json.parse? text).bind (list? (decode? Shape.held? 1))

end SourceUnit

end Wiring
