import Mathlib
import Wiring.Proofs.Declaration.Edited

/-!
# Declarations are read out of edited records

Whoever writes a unit as JSON may leave out defaults and put in fields of his own; what is read is the
unit all the same.  Each kind of record has its lemma (`decode?_of_edited`), which reads the fields one
by one; for shapes it is an induction, because a shape holds shapes.  A record counts as an edited form
of itself (`edited_self`).

All this is for any way to read the shapes in a record, as long as it reads edited shapes rightly where
it reads them at all (`Shape.Reads`).  A record that is read has only such shapes
(`eachShape_of_decode?`).
-/

namespace Wiring

open Json (Edited EditedFields EditedItems EachShape RecordKind KnownField string? bool? list?
  eachShape_anyShape_iff eachShape_record_iff eachShape_plain eachShape_of_list? eachShape_true)

variable {w : Json} {P : Nat → Json → Prop} {shapeAt : ShapeDecoder} {opened : Nat}

/-! ## Shapes -/

namespace Shape

theorem shapesIn_eq (fs : Json.Fields) : shapesIn fs = fs.map fun f => (f.1, ofJson? f.2) := by
  induction fs with
  | nil => rw [shapesIn, List.map_nil]
  | cons f fs ih => rw [shapesIn, ih, List.map_cons]

/-- The shapes in the fields of a record are read as fields that must be there. -/
theorem ofJson?_object (fs : Json.Fields) :
    ofJson? (.object fs) = ofFields? fs fun name => fs.required? name ofJson? := by
  rw [ofJson?]
  congr 1
  funext name
  rw [shapesIn_eq, List.filter_map, Json.Fields.required?, Json.Fields.find?, Function.comp_def]
  generalize fs.filter (·.1 == name) = named
  rcases named with _ | ⟨f, _ | ⟨g, rest⟩⟩ <;> rfl

/-- An edited record of a shape says of which kind the shape is, as it did before. -/
theorem fields_of_edited {fs : Json.Fields} {word : String}
    (hword : fs.find? "kind" = some (some (.string word))) (h : Edited .anyShape (.object fs) w) :
    ∃ gs : Json.Fields, w = .object gs ∧ EditedFields (.shape word) fs gs ∧
      gs.required? "kind" string? = some word := by
  cases h with
  | @anyShape word' _ gs hword' fields =>
    obtain rfl : word' = word := by
      rw [hword] at hword'
      exact (Json.string.inj (Option.some.inj (Option.some.inj hword'))).symm
    exact ⟨gs, rfl, fields, fields.required?_plain (by simp [RecordKind.known]) hword⟩

theorem required?_of_edited {r : RecordKind} {fs gs : Json.Fields} {name : String} {s : Shape}
    (fields : EditedFields r fs gs) (hname : .required name .anyShape ∈ r.known)
    (hs : fs.find? name = some (some s.toJson))
    (hread : ∀ w, Edited .anyShape s.toJson w → ofJson? w = some s) :
    gs.required? name ofJson? = some s :=
  fields.required?_eq hname (eachShape_true 0) hs fun w hw _ => hread w hw

/-- **A shape is read out of every edited record of it.** -/
theorem ofJson?_of_edited (s : Shape) (h : Edited .anyShape s.toJson w) : ofJson? w = some s := by
  induction s generalizing w with
  | named package name =>
    rw [toJson] at h
    obtain ⟨gs, rfl, fields, hkind⟩ := fields_of_edited rfl h
    rw [ofJson?_object, ofFields?, hkind]
    show (do
      let package ← gs.optional? "package" string?
      let name ← gs.required? "name" string?
      return named package name) = some (named package name)
    rw [fields.optional?_plain (by simp [RecordKind.known]) rfl,
      fields.required?_plain (by simp [RecordKind.known]) rfl]
    rfl
  | pointer elem ih =>
    rw [toJson] at h
    obtain ⟨gs, rfl, fields, hkind⟩ := fields_of_edited rfl h
    rw [ofJson?_object, ofFields?, hkind]
    show (do
      let elem ← gs.required? "elem" ofJson?
      return pointer elem) = some (pointer elem)
    rw [required?_of_edited fields (by simp [RecordKind.known]) rfl fun _ hw => ih hw]
    rfl
  | slice elem ih =>
    rw [toJson] at h
    obtain ⟨gs, rfl, fields, hkind⟩ := fields_of_edited rfl h
    rw [ofJson?_object, ofFields?, hkind]
    show (do
      let elem ← gs.required? "elem" ofJson?
      return slice elem) = some (slice elem)
    rw [required?_of_edited fields (by simp [RecordKind.known]) rfl fun _ hw => ih hw]
    rfl
  | map key value ihKey ihValue =>
    rw [toJson] at h
    obtain ⟨gs, rfl, fields, hkind⟩ := fields_of_edited rfl h
    rw [ofJson?_object, ofFields?, hkind]
    show (do
      let key ← gs.required? "key" ofJson?
      let value ← gs.required? "value" ofJson?
      return map key value) = some (map key value)
    rw [required?_of_edited fields (by simp [RecordKind.known]) rfl fun _ hw => ihKey hw,
      required?_of_edited fields (by simp [RecordKind.known]) rfl fun _ hw => ihValue hw]
    rfl
  | unsupported text =>
    rw [toJson] at h
    obtain ⟨gs, rfl, fields, hkind⟩ := fields_of_edited rfl h
    rw [ofJson?_object, ofFields?, hkind]
    show (do
      let text ← gs.required? "text" string?
      return unsupported text) = some (unsupported text)
    rw [fields.required?_plain (by simp [RecordKind.known]) rfl]
    rfl

/-- The reader of a text can hold a value, with so many arrays and objects open around it. -/
structure Holdable (opened : Nat) (v : Json) : Prop where
  depth : opened + v.depth ≤ Json.maxDepth
  inRange : v.inRange = true

/-- A decoder reads what `P` says of an edited shape, and nothing else. -/
structure Reads (shapeAt : ShapeDecoder) (P : Nat → Json → Prop) : Prop where
  read : ∀ n s w, Edited .anyShape s.toJson w → P n w → shapeAt n w = some s
  only : ∀ n w s, shapeAt n w = some s → P n w

theorem reads_ofJson? : Reads (fun _ => ofJson?) fun _ _ => True where
  read _ s _ h _ := s.ofJson?_of_edited h
  only _ _ _ _ := trivial

theorem reads_held? : Reads held? Holdable where
  read _ s _ h hheld := by
    rw [held?, if_pos ⟨hheld.depth, hheld.inRange⟩]
    exact s.ofJson?_of_edited h
  only n w s h := by
    rw [held?] at h
    split at h
    · next hheld => exact ⟨hheld.1, hheld.2⟩
    · cases h

end Shape

/-! ## Imports, types and functions -/

theorem ImportDecl.ofJson?_of_edited (i : ImportDecl)
    (h : Edited (.record .importDecl) i.toJson w) : ofJson? w = some i := by
  cases h with
  | @record _ _ gs fields =>
    show (do
      let localName ← gs.optional? "alias" string?
      let path ← gs.required? "path" string?
      return ⟨localName, path⟩) = some i
    rw [fields.optional?_plain (by simp [RecordKind.known]) rfl,
      fields.required?_plain (by simp [RecordKind.known]) rfl]
    rfl

theorem FieldDecl.decode?_of_edited (hr : Shape.Reads shapeAt P) (f : FieldDecl)
    (h : Edited (.record .fieldDecl) f.toJson w) (hP : EachShape P opened (.record .fieldDecl) w) :
    decode? shapeAt opened w = some f := by
  cases h with
  | @record _ _ gs fields =>
    show (do
      let name ← gs.optional? "name" string?
      let shape ← gs.required? "shape" (shapeAt (opened + 1))
      let doc ← gs.getD? "doc" [] (list? string?)
      return ⟨name, shape, doc⟩) = some f
    rw [fields.optional?_plain (by simp [RecordKind.known]) rfl,
      fields.required?_eq (k := .anyShape) (by simp [RecordKind.known]) hP rfl fun _ hw hshape =>
        hr.read _ f.shape _ hw (eachShape_anyShape_iff.1 hshape),
      fields.doc_eq (by simp [RecordKind.known]) rfl]
    rfl

theorem TypeKind.ofWord?_word (k : TypeKind) : ofWord? k.word = some k := by
  cases k <;> rfl

theorem TypeDecl.ofJson?_of_edited (t : TypeDecl)
    (h : Edited (.record .typeDecl) t.toJson w) : ofJson? w = some t := by
  cases h with
  | @record _ _ gs fields =>
    have hkind : gs.getD? "kind" .other TypeKind.ofJson? = some t.kind := by
      apply fields.getD?_eq (s := ⟨"kind", .plain, some (.string TypeKind.other.word)⟩)
        (by simp [RecordKind.known]) (eachShape_true 0) rfl
      · intro hother
        have hword : TypeKind.other.word = t.kind.word := Json.string.inj (Option.some.inj hother)
        rw [← Option.some.injEq, ← TypeKind.ofWord?_word, ← hword, TypeKind.ofWord?_word]
      · intro w hw _
        rw [hw.eq_of_plain]
        exact t.kind.ofWord?_word
    show (do
      let name ← gs.required? "name" string?
      let kind ← gs.getD? "kind" .other TypeKind.ofJson?
      let doc ← gs.getD? "doc" [] (list? string?)
      return ⟨name, kind, doc⟩) = some t
    rw [fields.required?_plain (by simp [RecordKind.known]) rfl, hkind,
      fields.doc_eq (by simp [RecordKind.known]) rfl]
    rfl

theorem FieldDecl.toJson_ne_null (f : FieldDecl) : f.toJson ≠ .null := by
  intro h
  cases h

theorem FuncDecl.decode?_of_edited (hr : Shape.Reads shapeAt P) (f : FuncDecl)
    (h : Edited (.record .funcDecl) f.toJson w) (hP : EachShape P opened (.record .funcDecl) w) :
    decode? shapeAt opened w = some f := by
  cases h with
  | @record _ _ gs fields =>
    show (do
      let name ← gs.required? "name" string?
      let exported ← gs.required? "exported" bool?
      let receiver ← gs.optional? "receiver" (FieldDecl.decode? shapeAt (opened + 1))
      let params ← gs.getD? "params" [] (list? (FieldDecl.decode? shapeAt (opened + 2)))
      let returns ← gs.getD? "returns" [] (list? (FieldDecl.decode? shapeAt (opened + 2)))
      let doc ← gs.getD? "doc" [] (list? string?)
      return ⟨name, exported, receiver, params, returns, doc⟩) = some f
    rw [fields.required?_plain (by simp [RecordKind.known]) rfl,
      fields.required?_plain (by simp [RecordKind.known]) rfl,
      fields.optional?_eq (k := .record .fieldDecl) (by simp [RecordKind.known]) hP rfl rfl
        FieldDecl.toJson_ne_null fun receiver _ => receiver.decode?_of_edited hr,
      fields.several_eq (k := .record .fieldDecl) (by simp [RecordKind.known]) hP rfl
        fun param _ _ => param.decode?_of_edited hr,
      fields.several_eq (k := .record .fieldDecl) (by simp [RecordKind.known]) hP rfl
        fun result _ _ => result.decode?_of_edited hr,
      fields.doc_eq (by simp [RecordKind.known]) rfl]
    rfl

/-- **A unit is read out of every edited record of it**, if the shapes in it are ones that the decoder
reads. -/
theorem SourceUnit.decode?_of_edited (hr : Shape.Reads shapeAt P) (u : SourceUnit)
    (h : Edited (.record .unit) u.toJson w) (hP : EachShape P opened (.record .unit) w) :
    decode? shapeAt opened w = some u := by
  cases h with
  | @record _ _ gs fields =>
    show (do
      let packagePath ← gs.required? "package_path" string?
      let filePath ← gs.optional? "file_path" string?
      let imports ← gs.getD? "imports" [] (list? ImportDecl.ofJson?)
      let types ← gs.getD? "types" [] (list? TypeDecl.ofJson?)
      let funcs ← gs.getD? "funcs" [] (list? (FuncDecl.decode? shapeAt (opened + 2)))
      return ⟨packagePath, filePath, imports, types, funcs⟩) = some u
    rw [fields.required?_plain (by simp [RecordKind.known]) rfl,
      fields.optional?_plain (by simp [RecordKind.known]) rfl,
      fields.several_eq (k := .record .importDecl) (by simp [RecordKind.known]) hP rfl
        fun decl _ _ hw _ => decl.ofJson?_of_edited hw,
      fields.several_eq (k := .record .typeDecl) (by simp [RecordKind.known]) hP rfl
        fun decl _ _ hw _ => decl.ofJson?_of_edited hw,
      fields.several_eq (k := .record .funcDecl) (by simp [RecordKind.known]) hP rfl
        fun decl _ _ => decl.decode?_of_edited hr]
    rfl

theorem SourceUnit.ofJson?_of_edited (u : SourceUnit)
    (h : Edited (.record .unit) u.toJson w) : ofJson? w = some u :=
  u.decode?_of_edited Shape.reads_ofJson? h (eachShape_true 0)

/-! ## What is read -/

theorem ImportDecl.eachShape : EachShape P opened (.record .importDecl) w := by
  rintro _ _ (_ | _ | ⟨hknown, -, hs⟩)
  simp only [RecordKind.known, List.mem_cons, List.not_mem_nil, or_false] at hknown
  rcases hknown with rfl | rfl <;> cases hs

theorem TypeDecl.eachShape : EachShape P opened (.record .typeDecl) w := by
  rintro _ _ (_ | _ | ⟨hknown, -, hs⟩)
  simp only [RecordKind.known, List.mem_cons, List.not_mem_nil, or_false] at hknown
  rcases hknown with rfl | rfl | rfl <;> cases hs

/-- The shape in a field that is read is one that the decoder reads. -/
theorem FieldDecl.eachShape_of_decode? (hr : Shape.Reads shapeAt P) {f : FieldDecl}
    (h : decode? shapeAt opened w = some f) : EachShape P opened (.record .fieldDecl) w := by
  cases w with
  | object fs =>
    simp only [decode?, Json.fields?, bind, Option.bind_eq_some_iff] at h
    obtain ⟨_, ⟨⟩, _, -, s, hs, -⟩ := h
    rw [eachShape_record_iff]
    intro k hk v hv
    simp only [RecordKind.known, List.mem_cons, List.not_mem_nil, or_false] at hk
    rcases hk with rfl | rfl | rfl
    · exact eachShape_plain
    · exact eachShape_anyShape_iff.2 (hr.only _ _ s (Json.Fields.decode_of_required? hs hv))
    · exact eachShape_plain
  | _ => cases h

theorem FuncDecl.eachShape_of_decode? (hr : Shape.Reads shapeAt P) {f : FuncDecl}
    (h : decode? shapeAt opened w = some f) : EachShape P opened (.record .funcDecl) w := by
  cases w with
  | object fs =>
    simp only [decode?, Json.fields?, bind, Option.bind_eq_some_iff] at h
    obtain ⟨_, ⟨⟩, _, -, _, -, receiver, hreceiver, params, hparams, returns, hreturns, -⟩ := h
    rw [eachShape_record_iff]
    intro k hk v hv
    simp only [RecordKind.known, List.mem_cons, List.not_mem_nil, or_false] at hk
    rcases hk with rfl | rfl | rfl | rfl | rfl | rfl
    · exact eachShape_plain
    · exact eachShape_plain
    · exact Json.eachShape_of_nullable? (Json.Fields.decode_of_getD? hreceiver hv) fun _ =>
        FieldDecl.eachShape_of_decode? hr
    · exact eachShape_of_list? (Json.Fields.decode_of_getD? hparams hv) fun _ _ =>
        FieldDecl.eachShape_of_decode? hr
    · exact eachShape_of_list? (Json.Fields.decode_of_getD? hreturns hv) fun _ _ =>
        FieldDecl.eachShape_of_decode? hr
    · exact eachShape_plain
  | _ => cases h

/-- **The shapes in a unit that is read are ones that the decoder reads.** -/
theorem SourceUnit.eachShape_of_decode? (hr : Shape.Reads shapeAt P) {u : SourceUnit}
    (h : decode? shapeAt opened w = some u) : EachShape P opened (.record .unit) w := by
  cases w with
  | object fs =>
    simp only [decode?, Json.fields?, bind, Option.bind_eq_some_iff] at h
    obtain ⟨_, ⟨⟩, _, -, _, -, imports, himports, types, htypes, funcs, hfuncs, -⟩ := h
    rw [eachShape_record_iff]
    intro k hk v hv
    simp only [RecordKind.known, List.mem_cons, List.not_mem_nil, or_false] at hk
    rcases hk with rfl | rfl | rfl | rfl | rfl
    · exact eachShape_plain
    · exact eachShape_plain
    · exact eachShape_of_list? (Json.Fields.decode_of_getD? himports hv) fun _ _ _ =>
        ImportDecl.eachShape
    · exact eachShape_of_list? (Json.Fields.decode_of_getD? htypes hv) fun _ _ _ =>
        TypeDecl.eachShape
    · exact eachShape_of_list? (Json.Fields.decode_of_getD? hfuncs hv) fun _ _ =>
        FuncDecl.eachShape_of_decode? hr
  | _ => cases h

/-! ## Nothing edited -/

theorem Shape.edited_self (s : Shape) : Edited .anyShape s.toJson s.toJson := by
  induction s with
  | named package name =>
    rw [toJson]
    apply Edited.anyShape rfl
    apply EditedFields.refl
    simp [RecordKind.known, KnownField.required, KnownField.nullable, Edited.plain]
  | pointer elem ih =>
    rw [toJson]
    apply Edited.anyShape rfl
    apply EditedFields.refl
    simp [RecordKind.known, KnownField.required, Edited.plain, ih]
  | slice elem ih =>
    rw [toJson]
    apply Edited.anyShape rfl
    apply EditedFields.refl
    simp [RecordKind.known, KnownField.required, Edited.plain, ih]
  | map key value ihKey ihValue =>
    rw [toJson]
    apply Edited.anyShape rfl
    apply EditedFields.refl
    simp [RecordKind.known, KnownField.required, Edited.plain, ihKey, ihValue]
  | unsupported text =>
    rw [toJson]
    apply Edited.anyShape rfl
    apply EditedFields.refl
    simp [RecordKind.known, KnownField.required, Edited.plain]

theorem Json.Edited.list_self {α : Type} {encode : α → Json} {k : Json.Kind} (xs : List α)
    (h : ∀ x, Edited k (encode x) (encode x)) :
    Edited (.list k) (.array (xs.map encode)) (.array (xs.map encode)) := by
  apply Edited.list
  apply EditedItems.refl
  rw [List.forall_mem_map]
  exact fun x _ => h x

theorem ImportDecl.edited_self (i : ImportDecl) :
    Edited (.record .importDecl) i.toJson i.toJson := by
  apply Edited.record
  apply EditedFields.refl
  simp [RecordKind.known, KnownField.required, KnownField.nullable, Edited.plain]

theorem FieldDecl.edited_self (f : FieldDecl) : Edited (.record .fieldDecl) f.toJson f.toJson := by
  apply Edited.record
  apply EditedFields.refl
  simp [RecordKind.known, KnownField.required, KnownField.nullable, KnownField.doc, Edited.plain,
    f.shape.edited_self]

theorem TypeDecl.edited_self (t : TypeDecl) : Edited (.record .typeDecl) t.toJson t.toJson := by
  apply Edited.record
  apply EditedFields.refl
  simp [RecordKind.known, KnownField.required, KnownField.doc, Edited.plain]

theorem FuncDecl.edited_self (f : FuncDecl) : Edited (.record .funcDecl) f.toJson f.toJson := by
  have hreceiver : Edited (.record .fieldDecl) ((f.receiver.map FieldDecl.toJson).getD .null)
      ((f.receiver.map FieldDecl.toJson).getD .null) := by
    cases f.receiver with
    | none => exact .null
    | some receiver => exact receiver.edited_self
  apply Edited.record
  apply EditedFields.refl
  simp [RecordKind.known, KnownField.required, KnownField.nullable, KnownField.several,
    KnownField.doc, Edited.plain, hreceiver, Edited.list_self _ FieldDecl.edited_self]

theorem SourceUnit.edited_self (u : SourceUnit) : Edited (.record .unit) u.toJson u.toJson := by
  apply Edited.record
  apply EditedFields.refl
  simp [RecordKind.known, KnownField.required, KnownField.nullable, KnownField.several,
    Edited.plain, Edited.list_self _ ImportDecl.edited_self,
    Edited.list_self _ TypeDecl.edited_self, Edited.list_self _ FuncDecl.edited_self]

end Wiring
