import Mathlib
import Wiring.Proofs.Declaration.Codec
import Wiring.Proofs.Json.Reader

/-!
# Declarations survive JSON

A unit that is written as JSON and read again is the same unit, also if whoever wrote it left out
defaults and put in fields of his own (`SourceUnit.survive_json`).

Texts are read back because values are (`Json.parse?_compact`), but only if the reader can hold each
shape (`Shape.Holdable`).  As it is written, a unit misses this only if a shape is too high
(`SourceUnit.eachShape_toJson_iff`); in an edited text a number out of range in a field that was put
into a shape does it as well.  Either way nothing is read (`SourceUnit.parseList?_eq_none`).
-/

namespace Wiring

open Json (EditedItems EachShape RecordKind KnownField Edited Readable list? eachShape_anyShape_iff
  eachShape_list_iff eachShape_record_iff eachShape_plain eachShape_of_list?)

variable {opened : Nat}

/-! ## Shapes as they are written -/

def Shape.height : Shape → Nat
  | named _ _ => 1
  | pointer elem => elem.height + 1
  | slice elem => elem.height + 1
  | map key value => max key.height value.height + 1
  | unsupported _ => 1

/-- So many pointers, one to the next, and a name in the end. -/
def Shape.tower : Nat → Shape
  | 0 => .named none "T"
  | n + 1 => .pointer (tower n)

theorem Shape.height_tower (n : Nat) : (tower n).height = n + 1 := by
  induction n with
  | zero => rfl
  | succ n ih => rw [tower, height, ih]

theorem Json.depth_ofString? (x : Option String) : (Json.ofString? x).depth = 0 := by
  cases x <;> rfl

theorem Json.inRange_ofString? (x : Option String) : (Json.ofString? x).inRange = true := by
  cases x <;> rfl

theorem Shape.depth_toJson (s : Shape) : s.toJson.depth = s.height := by
  induction s <;>
    simp_all [toJson, height, Json.depth, Json.depthOfFields, Json.depth_ofString?]

theorem Shape.inRange_toJson (s : Shape) : s.toJson.inRange = true := by
  induction s <;>
    simp_all [toJson, Json.inRange, Json.fieldsInRange, Json.inRange_ofString?]

theorem Shape.holdable_toJson_iff (s : Shape) :
    Holdable opened s.toJson ↔ opened + s.height ≤ Json.maxDepth := by
  rw [← s.depth_toJson]
  exact ⟨Holdable.depth, fun h => ⟨h, s.inRange_toJson⟩⟩

theorem FieldDecl.eachShape_toJson_iff (f : FieldDecl) :
    EachShape Shape.Holdable opened (.record .fieldDecl) f.toJson ↔
      opened + 1 + f.shape.height ≤ Json.maxDepth := by
  rw [toJson, eachShape_record_iff]
  simp [RecordKind.known, KnownField.required, KnownField.nullable, KnownField.doc,
    eachShape_plain, eachShape_anyShape_iff, Shape.holdable_toJson_iff]

/-- The shapes in the signature are as high as there is room for, with so many arrays and objects open
around the function. -/
structure FuncDecl.Low (opened : Nat) (f : FuncDecl) : Prop where
  receiver : ∀ d, f.receiver = some d → opened + 2 + d.shape.height ≤ Json.maxDepth
  slots : ∀ d ∈ f.params ++ f.returns, opened + 3 + d.shape.height ≤ Json.maxDepth

theorem FuncDecl.eachShape_toJson_iff (f : FuncDecl) :
    EachShape Shape.Holdable opened (.record .funcDecl) f.toJson ↔ f.Low opened := by
  have hreceiver : EachShape Shape.Holdable (opened + 1) (.record .fieldDecl)
      ((f.receiver.map FieldDecl.toJson).getD .null) ↔
        ∀ d, f.receiver = some d → opened + 2 + d.shape.height ≤ Json.maxDepth := by
    cases f.receiver with
    | none => simp [Json.eachShape_null]
    | some d => simp [FieldDecl.eachShape_toJson_iff]
  rw [toJson, eachShape_record_iff]
  simp [RecordKind.known, KnownField.required, KnownField.nullable, KnownField.several,
    KnownField.doc, eachShape_plain, eachShape_list_iff, FieldDecl.eachShape_toJson_iff, hreceiver]
  constructor
  · rintro ⟨hr, hp, hs⟩
    exact ⟨hr, by simpa [or_imp, forall_and] using ⟨hp, hs⟩⟩
  · rintro ⟨hr, hs⟩
    exact ⟨hr, fun d hd => hs d (by simp [hd]), fun d hd => hs d (by simp [hd])⟩

/-- **A list of units as it is written can be held unless a shape is too high.**  In a receiver there is
room for one shape more. -/
theorem SourceUnit.eachShape_toJson_iff (us : List SourceUnit) :
    EachShape Shape.Holdable 0 (.list (.record .unit)) (.array (us.map toJson)) ↔
      ∀ u ∈ us, ∀ f ∈ u.funcs, f.Low 3 := by
  rw [eachShape_list_iff, List.forall_mem_map]
  refine forall₂_congr fun u _ => ?_
  rw [toJson, eachShape_record_iff]
  simp [RecordKind.known, KnownField.required, KnownField.nullable, KnownField.several,
    eachShape_plain, eachShape_list_iff, ImportDecl.eachShape, TypeDecl.eachShape,
    FuncDecl.eachShape_toJson_iff]

/-! ## Texts -/

section Readable

theorem Json.readable_ofString? (x : Option String) : Readable (Json.ofString? x) := by
  cases x with
  | none => exact .null
  | some s => exact .string s

theorem Json.readable_strings (ss : List String) : Readable (Json.strings ss) := by
  apply Readable.array
  simp [Readable.string]

theorem Json.readable_list {α : Type} {encode : α → Json} {xs : List α}
    (h : ∀ x ∈ xs, Readable (encode x)) : Readable (.array (xs.map encode)) := by
  apply Readable.array
  rwa [List.forall_mem_map]

theorem Shape.readable_toJson (s : Shape) : Readable s.toJson := by
  induction s with
  | named package name =>
    rw [toJson]
    apply Readable.object
    simp [Readable.string, Json.readable_ofString?]
  | pointer elem ih =>
    rw [toJson]
    apply Readable.object
    simp [Readable.string, ih]
  | slice elem ih =>
    rw [toJson]
    apply Readable.object
    simp [Readable.string, ih]
  | map key value ihKey ihValue =>
    rw [toJson]
    apply Readable.object
    simp [Readable.string, ihKey, ihValue]
  | unsupported text =>
    rw [toJson]
    apply Readable.object
    simp [Readable.string]

theorem ImportDecl.readable_toJson (i : ImportDecl) : Readable i.toJson := by
  apply Readable.object
  simp [Readable.string, Json.readable_ofString?]

theorem TypeDecl.readable_toJson (t : TypeDecl) : Readable t.toJson := by
  apply Readable.object
  simp [Readable.string, Json.readable_strings]

theorem FieldDecl.readable_toJson (f : FieldDecl) : Readable f.toJson := by
  apply Readable.object
  simp [Json.readable_ofString?, Json.readable_strings, f.shape.readable_toJson]

theorem FuncDecl.readable_toJson (f : FuncDecl) : Readable f.toJson := by
  have hreceiver : Readable ((f.receiver.map FieldDecl.toJson).getD .null) := by
    cases f.receiver with
    | none => exact .null
    | some receiver => exact receiver.readable_toJson
  have hlist : ∀ ds : List FieldDecl, Readable (.array (ds.map FieldDecl.toJson)) :=
    fun ds => Json.readable_list fun d _ => d.readable_toJson
  apply Readable.object
  simp [Readable.string, Readable.bool, Json.readable_strings, hreceiver, hlist]

theorem SourceUnit.readable_toJson (u : SourceUnit) : Readable u.toJson := by
  have himports : Readable (.array (u.imports.map ImportDecl.toJson)) :=
    Json.readable_list fun i _ => i.readable_toJson
  have htypes : Readable (.array (u.types.map TypeDecl.toJson)) :=
    Json.readable_list fun t _ => t.readable_toJson
  have hfuncs : Readable (.array (u.funcs.map FuncDecl.toJson)) :=
    Json.readable_list fun f _ => f.readable_toJson
  apply Readable.object
  simp [Readable.string, Json.readable_ofString?, himports, htypes, hfuncs]

end Readable

/-! ## All together -/

namespace SourceUnit

variable {us : List SourceUnit} {ws : List Json}

theorem parseList?_of_edited (h : EditedItems (.record .unit) (us.map toJson) ws)
    (hw : Readable (.array ws))
    (hheld : EachShape Shape.Holdable 0 (.list (.record .unit)) (.array ws)) :
    parseList? (Json.compact (.array ws)) = some us := by
  rw [parseList?, Json.parse?_compact hw]
  exact h.mapM_eq (eachShape_list_iff.1 hheld) fun u _ _ => u.decode?_of_edited Shape.reads_held?

/-- A text is refused if it has a shape that the reader cannot hold. -/
theorem parseList?_eq_none (hw : Readable (.array ws))
    (hheld : ¬ EachShape Shape.Holdable 0 (.list (.record .unit)) (.array ws)) :
    parseList? (Json.compact (.array ws)) = none := by
  rw [parseList?, Json.parse?_compact hw, Option.bind_some]
  cases hread : list? (decode? Shape.held? 1) (.array ws) with
  | none => rfl
  | some us =>
    exact absurd (eachShape_of_list? hread fun _ _ => eachShape_of_decode? Shape.reads_held?) hheld

theorem edited_self_items (us : List SourceUnit) :
    EditedItems (.record .unit) (us.map toJson) (us.map toJson) := by
  apply EditedItems.refl
  rw [List.forall_mem_map]
  exact fun u _ => u.edited_self

/-- What becomes of units that are written as JSON and read again. -/
structure Survive (us : List SourceUnit) : Prop where
  decoded : ∀ u ∈ us, ofJson? u.toJson = some u
  /-- Whatever defaults are left out and whatever unknown fields are put in. -/
  edited : ∀ u ∈ us, ∀ w, Edited (.record .unit) u.toJson w → ofJson? w = some u
  /-- In a text no shape may be too high. -/
  written : (∀ u ∈ us, ∀ f ∈ u.funcs, f.Low 3) →
    parseList? (Json.compact (.array (us.map toJson))) = some us
  tooHigh : (¬ ∀ u ∈ us, ∀ f ∈ u.funcs, f.Low 3) →
    parseList? (Json.compact (.array (us.map toJson))) = none
  /-- In an edited text the reader must be able to hold each shape with what was put into it. -/
  editedText : ∀ ws, EditedItems (.record .unit) (us.map toJson) ws → Readable (.array ws) →
    EachShape Shape.Holdable 0 (.list (.record .unit)) (.array ws) →
      parseList? (Json.compact (.array ws)) = some us
  notHeld : ∀ ws, EditedItems (.record .unit) (us.map toJson) ws → Readable (.array ws) →
    ¬ EachShape Shape.Holdable 0 (.list (.record .unit)) (.array ws) →
      parseList? (Json.compact (.array ws)) = none

/-- **Units survive JSON**, and a text of them exactly if the reader can hold the shapes in it. -/
theorem survive_json (us : List SourceUnit) : Survive us where
  decoded u _ := u.ofJson?_of_edited u.edited_self
  edited u _ _ hw := u.ofJson?_of_edited hw
  written hlow := by
    apply parseList?_of_edited (edited_self_items us)
    · exact Json.readable_list fun u _ => u.readable_toJson
    · exact (eachShape_toJson_iff us).2 hlow
  tooHigh hhigh := by
    apply parseList?_eq_none
    · exact Json.readable_list fun u _ => u.readable_toJson
    · rwa [eachShape_toJson_iff]
  editedText _ hws hreadable hheld := parseList?_of_edited hws hreadable hheld
  notHeld _ _ hreadable hheld := parseList?_eq_none hreadable hheld

/-- A unit with one function, which takes a value of this shape. -/
def ofShape (s : Shape) : SourceUnit :=
  ⟨"p", none, [], [], [⟨"F", true, none, [.unnamed s], [], []⟩]⟩

theorem low_tower_iff {n : Nat} :
    (∀ u ∈ [ofShape (.tower n)], ∀ f ∈ u.funcs, f.Low 3) ↔ n ≤ 120 := by
  simp only [List.forall_mem_singleton, ofShape]
  constructor
  · rintro ⟨-, hslots⟩
    have hparam := hslots (.unnamed (.tower n)) (by simp)
    rw [FieldDecl.unnamed, Shape.height_tower, Json.maxDepth] at hparam
    omega
  · intro hn
    refine ⟨nofun, fun d hd => ?_⟩
    obtain rfl : d = .unnamed (.tower n) := by simpa using hd
    rw [FieldDecl.unnamed, Shape.height_tower, Json.maxDepth]
    omega

/-- The unit for a pointer, without its defaults.  The shape has a new field with a number; another
number, which is out of range, stands in the unit. -/
def editedPointer (number : String) : Json :=
  .object [("revision", .real "1e999"), ("package_path", .string "p"),
    ("funcs", .array [.object [("name", .string "F"), ("exported", .bool true),
      ("params", .array [.object [("shape", .object [("weight", .real number),
        ("kind", .string "pointer"),
        ("elem", .object [("kind", .string "named"), ("name", .string "T")])])]])]])]

theorem editedItems_editedPointer (number : String) : EditedItems (.record .unit)
    ([ofShape (.pointer (.named none "T"))].map toJson) [editedPointer number] := by
  have hnamed : Edited .anyShape (Shape.named none "T").toJson
      (.object [("kind", .string "named"), ("name", .string "T")]) := by
    rw [Shape.toJson]
    refine .anyShape rfl (.keep (s := .required "kind" .plain) ?_ .plain
      (.drop (s := .nullable "package" .plain) ?_ rfl
        (.keep (s := .required "name" .plain) ?_ .plain .nil))) <;>
      simp [RecordKind.known]
  have hpointer : Edited .anyShape (Shape.pointer (.named none "T")).toJson
      (.object [("weight", .real number), ("kind", .string "pointer"),
        ("elem", .object [("kind", .string "named"), ("name", .string "T")])]) := by
    rw [Shape.toJson]
    refine .anyShape rfl (.add ?_ _ (.keep (s := .required "kind" .plain) ?_ .plain
      (.keep (s := .required "elem" .anyShape) ?_ hnamed .nil))) <;>
      simp [RecordKind.known, KnownField.required]
  have hfield : Edited (.record .fieldDecl) (FieldDecl.unnamed (.pointer (.named none "T"))).toJson
      (.object [("shape", .object [("weight", .real number), ("kind", .string "pointer"),
        ("elem", .object [("kind", .string "named"), ("name", .string "T")])])]) := by
    refine .record (.drop (s := .nullable "name" .plain) ?_ rfl
      (.keep (s := .required "shape" .anyShape) ?_ hpointer (.drop (s := .doc) ?_ rfl .nil))) <;>
      simp [RecordKind.known]
  refine .cons (.record (.add ?_ _ (.keep (s := .required "package_path" .plain) ?_ .plain
    (.drop (s := .nullable "file_path" .plain) ?_ rfl
      (.drop (s := .several "imports" (.record .importDecl)) ?_ rfl
        (.drop (s := .several "types" (.record .typeDecl)) ?_ rfl
          (.keep (s := .several "funcs" (.record .funcDecl)) ?_
            (.list (.cons (.record (.keep (s := .required "name" .plain) ?_ .plain
              (.keep (s := .required "exported" .plain) ?_ .plain
                (.drop (s := .nullable "receiver" (.record .fieldDecl)) ?_ rfl
                  (.keep (s := .several "params" (.record .fieldDecl)) ?_
                    (.list (.cons hfield .nil))
                    (.drop (s := .several "returns" (.record .fieldDecl)) ?_ rfl
                      (.drop (s := .doc) ?_ rfl .nil))))))) .nil)) .nil))))))) .nil <;>
    simp [RecordKind.known, KnownField.required, KnownField.nullable, KnownField.several,
      KnownField.doc]

theorem readable_editedPointer {number : String}
    (hnumber : Json.number? number.toList = some (.real number))
    (hbare : ∀ c ∈ number.toList, Json.isBare c = true) :
    Readable (.array [editedPointer number]) := by
  have hrevision : Readable (.real "1e999") := .real rfl (by simp [Json.isBare])
  simp [editedPointer, Readable.string, Readable.bool, hrevision, Readable.real hnumber hbare]

theorem eachShape_editedPointer_iff (number : String) :
    EachShape Shape.Holdable 0 (.list (.record .unit)) (.array [editedPointer number]) ↔
      Json.textInRange number.toList = true := by
  have hshape (v : Json) : Shape.Holdable 6 v ↔ 6 + v.depth ≤ Json.maxDepth ∧ v.inRange = true :=
    ⟨fun h => ⟨h.1, h.2⟩, fun h => ⟨h.1, h.2⟩⟩
  rw [eachShape_list_iff, List.forall_mem_singleton, editedPointer, eachShape_record_iff]
  simp [RecordKind.known, KnownField.required, KnownField.nullable, KnownField.several,
    KnownField.doc, eachShape_plain, eachShape_list_iff, eachShape_record_iff,
    eachShape_anyShape_iff, hshape, Json.depth, Json.depthOfFields, Json.inRange,
    Json.fieldsInRange, Json.maxDepth]

theorem survive_editedPointer :
    EditedItems (.record .unit) ([ofShape (.pointer (.named none "T"))].map toJson)
      [editedPointer "1e5"] ∧ Readable (.array [editedPointer "1e5"]) ∧
    EachShape Shape.Holdable 0 (.list (.record .unit)) (.array [editedPointer "1e5"]) ∧
    parseList? (Json.compact (.array [editedPointer "1e5"]))
      = some [ofShape (.pointer (.named none "T"))] ∧
    (∀ u ∈ [ofShape (.tower 120)], ∀ f ∈ u.funcs, f.Low 3) ∧
    parseList? (Json.compact (.array ([ofShape (.tower 120)].map toJson)))
      = some [ofShape (.tower 120)] := by
  have hedited := editedItems_editedPointer "1e5"
  have hreadable : Readable (.array [editedPointer "1e5"]) :=
    readable_editedPointer rfl (by simp [Json.isBare])
  have hheld := (eachShape_editedPointer_iff "1e5").2 (by decide +kernel)
  have hlow := low_tower_iff.2 (le_refl 120)
  exact ⟨hedited, hreadable, hheld, (survive_json _).editedText _ hedited hreadable hheld, hlow,
    (survive_json _).written hlow⟩

/-- **Not every unit is read back from its text.**  A shape of 122 pointers and names is too high, and
a number out of range in a new field of a shape is refused. -/
theorem parseList?_tower :
    parseList? (Json.compact (.array ([ofShape (.tower 121)].map toJson))) = none ∧
    EditedItems (.record .unit) ([ofShape (.pointer (.named none "T"))].map toJson)
      [editedPointer "1e999"] ∧
    parseList? (Json.compact (.array [editedPointer "1e999"])) = none := by
  refine ⟨?_, editedItems_editedPointer _, ?_⟩
  · apply parseList?_eq_none (Json.readable_list fun u _ => u.readable_toJson)
    rw [eachShape_toJson_iff, low_tower_iff]
    decide
  · apply parseList?_eq_none (readable_editedPointer rfl (by simp [Json.isBare]))
    rw [eachShape_editedPointer_iff]
    decide +kernel

end SourceUnit

end Wiring
