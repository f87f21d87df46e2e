import Mathlib
import Wiring.Declaration.Codec

/-!
# Records that leave out defaults

Whoever writes declarations as JSON need not write all fields: a field may be left out if it holds
what is taken in its absence, and fields whose names say nothing to the reader may stand anywhere.
`Json.Edited` relates a value to what it can be turned into in this way, in all records that it holds.
Which fields the reader of a record knows, and which of them may be absent, is a table
(`RecordKind.known`).

What is read in a known field is the edited value, or nothing if the value was the default
(`EditedFields.find?_eq`).  So a decoder that reads each edited value rightly, and takes the right
value where there is none, does not notice the editing; there is one lemma for each way in which a
field may be read (`EditedFields.required?_eq`, `EditedFields.optional?_eq`,
`EditedFields.several_eq`, `EditedFields.doc_eq`).

What is put into a shape may be more than a reader can hold.  `EachShape` says something of all shapes
in a value, by the number of arrays and objects that are open around them; each lemma hands it on to
the fields and items that are read.
-/

namespace Wiring.Json

/-! ## Known fields -/

inductive RecordKind where
  | unit
  | importDecl
  | typeDecl
  | funcDecl
  | fieldDecl
  /-- The shapes of which the field `kind` holds this word. -/
  | shape (word : String)

inductive Kind where
  /-- Something without records in it. -/
  | plain
  | list (items : Kind)
  | record (kind : RecordKind)
  | anyShape

structure KnownField where
  name : String
  kind : Kind
  /-- What is taken if the field is absent, unless it must be there. -/
  default? : Option Json

/-- A field that must be there. -/
def KnownField.required (name : String) (kind : Kind) : KnownField :=
  ⟨name, kind, none⟩

/-- A field that may be absent or `null`. -/
def KnownField.nullable (name : String) (kind : Kind) : KnownField :=
  ⟨name, kind, some .null⟩

/-- A field that holds an array, which is empty if the field is absent. -/
def KnownField.several (name : String) (items : Kind) : KnownField :=
  ⟨name, .list items, some (.array [])⟩

/-- The lines of comment that belong to a declaration. -/
def KnownField.doc : KnownField :=
  ⟨"doc", .plain, some (.array [])⟩

def RecordKind.known : RecordKind → List KnownField
  | unit =>
    [.required "package_path" .plain, .nullable "file_path" .plain,
      .several "imports" (.record importDecl), .several "types" (.record typeDecl),
      .several "funcs" (.record funcDecl)]
  | importDecl => [.nullable "alias" .plain, .required "path" .plain]
  | typeDecl =>
    [.required "name" .plain, ⟨"kind", .plain, some (.string TypeKind.other.word)⟩, .doc]
  | funcDecl =>
    [.required "name" .plain, .required "exported" .plain, .nullable "receiver" (.record fieldDecl),
      .several "params" (.record fieldDecl), .several "returns" (.record fieldDecl), .doc]
  | fieldDecl => [.nullable "name" .plain, .required "shape" .anyShape, .doc]
  | shape word =>
    .required "kind" .plain ::
      if word = "named" then [.nullable "package" .plain, .required "name" .plain]
      else if word = "pointer" ∨ word = "slice" then [.required "elem" .anyShape]
      else if word = "map" then [.required "key" .anyShape, .required "value" .anyShape]
      else [.required "text" .plain]

theorem RecordKind.nodup_known (r : RecordKind) : (r.known.map KnownField.name).Nodup := by
  cases r with
  | shape word =>
    rw [known]
    split
    · decide
    · split
      · decide
      · split <;> decide
  | _ => decide

/-- A record knows a field by its name. -/
theorem RecordKind.known_unique {r : RecordKind} {s t : KnownField} (hs : s ∈ r.known)
    (ht : t ∈ r.known) (hname : s.name = t.name) : s = t :=
  List.inj_on_of_nodup_map r.nodup_known hs ht hname

theorem Fields.find?_eq_some_some_iff {fs : Fields} {name : String} {v : Json} :
    fs.find? name = some (some v) ↔ fs.filter (·.1 == name) = [(name, v)] := by
  rw [find?]
  split
  · next h => simp [h]
  · next f h =>
    have hname : f.1 = name := by
      have hmem : f ∈ fs.filter (·.1 == name) := by simp [h]
      simpa using (List.mem_filter.1 hmem).2
    obtain ⟨_, u⟩ := f
    obtain rfl : _ = name := hname
    simp [h]
  · next hnil hone =>
    constructor
    · rintro ⟨⟩
    · intro h
      exact absurd h (hone _)

theorem Fields.mem_of_find? {fs : Fields} {name : String} {v : Json}
    (h : fs.find? name = some (some v)) : (name, v) ∈ fs := by
  rw [find?_eq_some_some_iff] at h
  have hmem : (name, v) ∈ fs.filter (·.1 == name) := by simp [h]
  exact List.mem_of_mem_filter hmem

/-- A field that is there is the one that is found, if it is not there twice. -/
theorem Fields.find?_of_mem {fs : Fields} {name : String} {v : Json} (h : (name, v) ∈ fs) :
    fs.find? name = some (some v) ∨ fs.find? name = none := by
  have hmem : (name, v) ∈ fs.filter (·.1 == name) := List.mem_filter.2 ⟨h, by simp⟩
  rw [find?]
  split
  · next hnil => simp [hnil] at hmem
  · next f hone =>
    rw [hone, List.mem_singleton] at hmem
    rw [← hmem]
    exact .inl rfl
  · exact .inr rfl

theorem Fields.decode_of_getD? {α : Type} {fs : Fields} {name : String} {v : Json} {x default : α}
    {decode : Json → Option α} (h : fs.getD? name default decode = some x) (hv : (name, v) ∈ fs) :
    decode v = some x := by
  rw [getD?] at h
  rcases find?_of_mem hv with hfind | hfind <;> rw [hfind] at h
  · exact h
  · cases h

theorem Fields.decode_of_required? {α : Type} {fs : Fields} {name : String} {v : Json} {x : α}
    {decode : Json → Option α} (h : fs.required? name decode = some x) (hv : (name, v) ∈ fs) :
    decode v = some x := by
  rw [required?] at h
  rcases find?_of_mem hv with hfind | hfind <;> rw [hfind] at h
  · exact h
  · cases h

/-! ## Shapes in records -/

/-- A shape that stands in a value, with so many arrays and objects of the value open around it. -/
inductive ShapeAt : Kind → Json → Nat → Json → Prop
  | here {v : Json} : ShapeAt .anyShape v 0 v
  | item {k : Kind} {vs : List Json} {v s : Json} {n : Nat} (mem : v ∈ vs)
      (inside : ShapeAt k v n s) : ShapeAt (.list k) (.array vs) (n + 1) s
  | field {r : RecordKind} {fs : Fields} {f : KnownField} {v s : Json} {n : Nat}
      (known : f ∈ r.known) (mem : (f.name, v) ∈ fs) (inside : ShapeAt f.kind v n s) :
      ShapeAt (.record r) (.object fs) (n + 1) s

/-- All shapes in a value have a property, where `opened` arrays and objects are open around the
value. -/
def EachShape (P : Nat → Json → Prop) (opened : Nat) (k : Kind) (v : Json) : Prop :=
  ∀ n s, ShapeAt k v n s → P (opened + n) s

section EachShape

variable {P : Nat → Json → Prop} {opened : Nat} {k : Kind} {r : RecordKind} {v : Json}

theorem eachShape_anyShape_iff : EachShape P opened .anyShape v ↔ P opened v := by
  constructor
  · intro h
    exact h 0 v .here
  · rintro h _ _ ⟨⟩
    exact h

theorem eachShape_list_iff {vs : List Json} :
    EachShape P opened (.list k) (.array vs) ↔ ∀ v ∈ vs, EachShape P (opened + 1) k v := by
  constructor
  · intro h v hv n s hs
    rw [Nat.add_right_comm]
    exact h (n + 1) s (.item hv hs)
  · rintro h _ s (_ | ⟨hv, hs⟩)
    rw [Nat.add_comm _ 1, ← Nat.add_assoc]
    exact h _ hv _ s hs

theorem eachShape_record_iff {fs : Fields} : EachShape P opened (.record r) (.object fs) ↔
    ∀ f ∈ r.known, ∀ v, (f.name, v) ∈ fs → EachShape P (opened + 1) f.kind v := by
  constructor
  · intro h f hf v hv n s hs
    rw [Nat.add_right_comm]
    exact h (n + 1) s (.field hf hv hs)
  · rintro h _ s (_ | _ | ⟨hf, hv, hs⟩)
    rw [Nat.add_comm _ 1, ← Nat.add_assoc]
    exact h _ hf _ hv _ s hs

theorem eachShape_plain : EachShape P opened .plain v := nofun

theorem eachShape_null : EachShape P opened (.record r) .null := nofun

theorem exists_eq_some_of_mapM {α : Type} {decode : Json → Option α} {vs : List Json} {xs : List α}
    (h : vs.mapM decode = some xs) (hv : v ∈ vs) : ∃ x, decode v = some x := by
  induction vs generalizing xs with
  | nil => cases hv
  | cons w vs ih =>
    simp only [List.mapM_cons, bind, Option.bind_eq_some_iff] at h
    obtain ⟨x, hx, ys, hys, -⟩ := h
    rcases List.mem_cons.1 hv with rfl | hv
    · exact ⟨x, hx⟩
    · exact ih hys hv

theorem eachShape_of_list? {α : Type} {decode : Json → Option α} {xs : List α}
    (h : list? decode v = some xs)
    (hdecode : ∀ w x, decode w = some x → EachShape P (opened + 1) k w) :
    EachShape P opened (.list k) v := by
  cases v with
  | array vs =>
    rw [eachShape_list_iff]
    intro w hw
    obtain ⟨x, hx⟩ := exists_eq_some_of_mapM h hw
    exact hdecode w x hx
  | _ => cases h

theorem eachShape_of_nullable? {α : Type} {decode : Json → Option α} {x : Option α}
    (h : nullable? decode v = some x)
    (hdecode : ∀ a, decode v = some a → EachShape P opened (.record r) v) :
    EachShape P opened (.record r) v := by
  rw [nullable?.eq_def] at h
  split at h
  · exact eachShape_null
  · obtain ⟨a, ha, -⟩ := Option.map_eq_some_iff.1 h
    exact hdecode a ha

theorem eachShape_true (n : Nat) : EachShape (fun _ _ => True) n k v := fun _ _ _ => trivial

end EachShape

/-! ## Editing -/

mutual

/-- What a value may become when fields are left out of its records and put into them. -/
inductive Edited : Kind → Json → Json → Prop
  | plain {v : Json} : Edited .plain v v
  | null {k : Kind} : Edited k .null .null
  | list {k : Kind} {vs ws : List Json} (items : EditedItems k vs ws) :
      Edited (.list k) (.array vs) (.array ws)
  | record {r : RecordKind} {fs gs : Fields} (fields : EditedFields r fs gs) :
      Edited (.record r) (.object fs) (.object gs)
  | anyShape {word : String} {fs gs : Fields}
      (word_eq : fs.find? "kind" = some (some (.string word)))
      (fields : EditedFields (.shape word) fs gs) : Edited .anyShape (.object fs) (.object gs)

inductive EditedItems : Kind → List Json → List Json → Prop
  | nil {k : Kind} : EditedItems k [] []
  | cons {k : Kind} {v w : Json} {vs ws : List Json} (item : Edited k v w)
      (rest : EditedItems k vs ws) : EditedItems k (v :: vs) (w :: ws)

inductive EditedFields : RecordKind → Fields → Fields → Prop
  | nil {r : RecordKind} : EditedFields r [] []
  | keep {r : RecordKind} {s : KnownField} {v w : Json} {fs gs : Fields} (mem : s ∈ r.known)
      (value : Edited s.kind v w) (rest : EditedFields r fs gs) :
      EditedFields r ((s.name, v) :: fs) ((s.name, w) :: gs)
  /-- A field that holds its default is left out. -/
  | drop {r : RecordKind} {s : KnownField} {v : Json} {fs gs : Fields} (mem : s ∈ r.known)
      (holdsDefault : s.default? = some v) (rest : EditedFields r fs gs) :
      EditedFields r ((s.name, v) :: fs) gs
  /-- A field that the reader does not know is put in. -/
  | add {r : RecordKind} {name : String} {fs gs : Fields}
      (unknown : ∀ s ∈ r.known, s.name ≠ name) (v : Json) (rest : EditedFields r fs gs) :
      EditedFields r fs ((name, v) :: gs)

end

theorem ofString?_eq (x : Option String) : ofString? x = (x.map string).getD .null := by
  cases x <;> rfl

theorem list?_strings (ss : List String) : list? string? (strings ss) = some ss := by
  rw [strings, list?]
  induction ss with
  | nil => rfl
  | cons s ss ih =>
    rw [List.map_cons, List.mapM_cons, ih]
    rfl

theorem nullable?_eq_some {α : Type} {decode : Json → Option α} {v : Json} {a : α}
    (hnull : decode .null = none) (h : decode v = some a) :
    nullable? decode v = some (some a) := by
  cases v with
  | null =>
    rw [hnull] at h
    cases h
  | _ => simp [nullable?, h]

theorem Edited.eq_of_plain {v w : Json} (h : Edited .plain v w) : w = v := by
  cases h <;> rfl

theorem Edited.eq_null {k : Kind} {w : Json} (h : Edited k .null w) : w = .null := by
  cases h <;> rfl

namespace EditedFields

variable {r : RecordKind} {s : KnownField} {fs gs : Fields} {v w : Json} {α : Type}

/-- Of the fields under a known name, those that are left are edited. -/
theorem named (hs : s ∈ r.known) : ∀ {fs gs : Fields}, EditedFields r fs gs →
    EditedFields r (fs.filter (·.1 == s.name)) (gs.filter (·.1 == s.name))
  | _, _, .nil => .nil
  | _, _, .keep (s := t) mem value rest => by
    by_cases hname : t.name = s.name
    · simpa [hname] using keep mem value (named hs rest)
    · simpa [hname] using named hs rest
  | _, _, .drop (s := t) mem holdsDefault rest => by
    by_cases hname : t.name = s.name
    · simpa [hname] using drop mem holdsDefault (named hs rest)
    · simpa [hname] using named hs rest
  | _, _, .add unknown v rest => by
    simpa [(unknown s hs).symm] using named hs rest

/-- A field under a known name is edited or left out, and none comes in its place. -/
theorem single {name : String} (h : EditedFields r [(name, v)] gs) (hs : s ∈ r.known)
    (hname : s.name = name) (hgs : ∀ g ∈ gs, g.1 = name) :
    (∃ w, Edited s.kind v w ∧ gs = [(name, w)]) ∨ (s.default? = some v ∧ gs = []) := by
  have hnone : ∀ {gs : Fields}, EditedFields r [] gs → (∀ g ∈ gs, g.1 = name) → gs = [] := by
    intro gs h hgs
    cases h with
    | nil => rfl
    | add unknown u rest => exact absurd (hname.trans (hgs _ List.mem_cons_self).symm) (unknown s hs)
  cases h with
  | @keep _ t _ w _ gs mem value rest =>
    obtain rfl : s = t := r.known_unique hs mem hname
    obtain rfl : gs = [] := hnone rest fun g hg => hgs g (List.mem_cons_of_mem _ hg)
    exact .inl ⟨w, value, rfl⟩
  | @drop _ t _ _ _ mem holdsDefault rest =>
    obtain rfl : s = t := r.known_unique hs mem hname
    exact .inr ⟨holdsDefault, hnone rest hgs⟩
  | add unknown u rest => exact absurd (hname.trans (hgs _ List.mem_cons_self).symm) (unknown s hs)

/-- **The reader of a field gets the edited value**, or nothing if the value was the default. -/
theorem find?_eq (h : EditedFields r fs gs) (hs : s ∈ r.known)
    (hv : fs.find? s.name = some (some v)) :
    (∃ w, Edited s.kind v w ∧ gs.find? s.name = some (some w)) ∨
      (s.default? = some v ∧ gs.find? s.name = some none) := by
  rw [Fields.find?_eq_some_some_iff] at hv
  have hnamed := h.named hs
  rw [hv] at hnamed
  have hgs : ∀ g ∈ gs.filter (·.1 == s.name), g.1 = s.name := by
    intro g hg
    simpa using (List.mem_filter.1 hg).2
  rcases hnamed.single hs rfl hgs with ⟨w, hw, heq⟩ | ⟨hdefault, heq⟩
  · exact .inl ⟨w, hw, Fields.find?_eq_some_some_iff.2 heq⟩
  · exact .inr ⟨hdefault, by rw [Fields.find?, heq]⟩

end EditedFields

/-! ## Nothing edited -/

theorem EditedItems.refl {k : Kind} {vs : List Json} (h : ∀ v ∈ vs, Edited k v v) :
    EditedItems k vs vs := by
  induction vs with
  | nil => exact .nil
  | cons v vs ih =>
    rw [List.forall_mem_cons] at h
    exact .cons h.1 (ih h.2)

/-- **Any fields that hold their defaults can be left out** together. -/
theorem EditedFields.filter {r : RecordKind} {fs : Fields} (kept : String × Json → Bool)
    (h : ∀ f ∈ fs, ∃ s ∈ r.known, s.name = f.1 ∧ Edited s.kind f.2 f.2 ∧
      (kept f = false → s.default? = some f.2)) : EditedFields r fs (fs.filter kept) := by
  induction fs with
  | nil => exact .nil
  | cons f fs ih =>
    rw [List.forall_mem_cons] at h
    obtain ⟨⟨s, hs, hname, hvalue, hdefault⟩, hrest⟩ := h
    obtain ⟨_, v⟩ := f
    obtain rfl : s.name = _ := hname
    cases hkept : kept (s.name, v) with
    | true =>
      rw [List.filter_cons_of_pos hkept]
      exact .keep hs hvalue (ih hrest)
    | false =>
      rw [List.filter_cons_of_neg (by simp [hkept])]
      exact .drop hs (hdefault hkept) (ih hrest)

theorem EditedFields.refl {r : RecordKind} {fs : Fields}
    (h : ∀ f ∈ fs, ∃ s ∈ r.known, s.name = f.1 ∧ Edited s.kind f.2 f.2) : EditedFields r fs fs := by
  have hall : EditedFields r fs (fs.filter fun _ => true) := .filter _ (by simpa using h)
  rwa [List.filter_true] at hall

/-! ## Arrays -/

variable {P : Nat → Json → Prop} {opened : Nat}

/-- An array of edited items is read as before if each of them is. -/
theorem EditedItems.mapM_eq {α : Type} {encode : α → Json} {decode : Json → Option α} {k : Kind}
    {xs : List α} {ws : List Json} (h : EditedItems k (xs.map encode) ws)
    (hP : ∀ w ∈ ws, EachShape P opened k w)
    (hdecode : ∀ x ∈ xs, ∀ w, Edited k (encode x) w → EachShape P opened k w →
      decode w = some x) : ws.mapM decode = some xs := by
  induction xs generalizing ws with
  | nil =>
    cases h
    rfl
  | cons x xs ih =>
    cases h with
    | cons item rest =>
      rw [List.forall_mem_cons] at hdecode hP
      rw [List.mapM_cons, hdecode.1 _ item hP.1, ih rest hP.2 hdecode.2]
      rfl

theorem Edited.list?_eq {α : Type} {encode : α → Json} {decode : Json → Option α} {k : Kind}
    {xs : List α} {w : Json} (h : Edited (.list k) (.array (xs.map encode)) w)
    (hP : EachShape P opened (.list k) w)
    (hdecode : ∀ x ∈ xs, ∀ w, Edited k (encode x) w → EachShape P (opened + 1) k w →
      decode w = some x) : list? decode w = some xs := by
  cases h with
  | list items => exact items.mapM_eq (eachShape_list_iff.1 hP) hdecode

/-! ## Fields -/

namespace EditedFields

variable {α : Type} {r : RecordKind} {fs gs : Fields} {v : Json} {name : String} {k : Kind}
  {encode : α → Json} {decode : Json → Option α}

/-- A field with a default is read as before. -/
theorem getD?_eq {s : KnownField} {x default : α} (h : EditedFields r fs gs) (hs : s ∈ r.known)
    (hP : EachShape P opened (.record r) (.object gs))
    (hv : fs.find? s.name = some (some v)) (hdefault : s.default? = some v → x = default)
    (hdecode : ∀ w, Edited s.kind v w → EachShape P (opened + 1) s.kind w → decode w = some x) :
    gs.getD? s.name default decode = some x := by
  rw [Fields.getD?]
  rcases h.find?_eq hs hv with ⟨w, hw, hfind⟩ | ⟨hleft, hfind⟩
  · rw [hfind]
    exact hdecode w hw (eachShape_record_iff.1 hP s hs w (Fields.mem_of_find? hfind))
  · rw [hfind, hdefault hleft]

/-- A field that must be there is never left out. -/
theorem exists_find?_eq (h : EditedFields r fs gs) (hs : .required name k ∈ r.known)
    (hv : fs.find? name = some (some v)) : ∃ w, Edited k v w ∧ gs.find? name = some (some w) := by
  rcases h.find?_eq hs hv with hkept | ⟨hdefault, -⟩
  · exact hkept
  · cases hdefault

/-- A field that must be there is read as before. -/
theorem required?_eq {x : α} (h : EditedFields r fs gs) (hs : .required name k ∈ r.known)
    (hP : EachShape P opened (.record r) (.object gs)) (hv : fs.find? name = some (some v))
    (hdecode : ∀ w, Edited k v w → EachShape P (opened + 1) k w → decode w = some x) :
    gs.required? name decode = some x := by
  obtain ⟨w, hw, hfind⟩ := h.exists_find?_eq hs hv
  rw [Fields.required?, hfind]
  exact hdecode w hw (eachShape_record_iff.1 hP _ hs w (Fields.mem_of_find? hfind))

theorem required?_plain (h : EditedFields r fs gs) (hs : .required name .plain ∈ r.known)
    (hv : fs.find? name = some (some v)) : gs.required? name decode = decode v := by
  obtain ⟨w, hw, hfind⟩ := h.exists_find?_eq hs hv
  rw [Fields.required?, hfind, hw.eq_of_plain]

/-- A field that may be `null` is read as before. -/
theorem optional?_eq {x : Option α} (h : EditedFields r fs gs) (hs : .nullable name k ∈ r.known)
    (hP : EachShape P opened (.record r) (.object gs))
    (hv : fs.find? name = some (some ((x.map encode).getD .null))) (hnull : decode .null = none)
    (hencode : ∀ a, encode a ≠ .null)
    (hdecode : ∀ a w, Edited k (encode a) w → EachShape P (opened + 1) k w → decode w = some a) :
    gs.optional? name decode = some x := by
  apply h.getD?_eq hs hP hv
  · intro hv
    cases x with
    | none => rfl
    | some a => exact absurd (Option.some.inj hv).symm (hencode a)
  · intro w hw hshapes
    cases x with
    | none =>
      obtain rfl := hw.eq_null
      rfl
    | some a => exact nullable?_eq_some hnull (hdecode a w hw hshapes)

theorem optional?_plain {x : Option String} (h : EditedFields r fs gs)
    (hs : .nullable name .plain ∈ r.known) (hv : fs.find? name = some (some (ofString? x))) :
    gs.optional? name string? = some x := by
  rw [ofString?_eq] at hv
  apply h.optional?_eq hs (eachShape_true 0) hv rfl nofun
  intro a w hw _
  rw [hw.eq_of_plain]
  rfl

/-- An array is read as before if its items are. -/
theorem several_eq {xs : List α} (h : EditedFields r fs gs) (hs : .several name k ∈ r.known)
    (hP : EachShape P opened (.record r) (.object gs))
    (hv : fs.find? name = some (some (.array (xs.map encode))))
    (hdecode : ∀ x ∈ xs, ∀ w, Edited k (encode x) w → EachShape P (opened + 2) k w →
      decode w = some x) : gs.getD? name [] (list? decode) = some xs := by
  apply h.getD?_eq hs hP hv
  · intro hempty
    rw [← List.map_eq_nil_iff (f := encode)]
    exact (Json.array.inj (Option.some.inj hempty)).symm
  · intro w hw hshapes
    exact hw.list?_eq hshapes hdecode

/-- The lines of comment are read as before. -/
theorem doc_eq {doc : List String} (h : EditedFields r fs gs) (hs : .doc ∈ r.known)
    (hv : fs.find? "doc" = some (some (strings doc))) :
    gs.getD? "doc" [] (list? string?) = some doc := by
  apply h.getD?_eq hs (eachShape_true 0) hv
  · intro hempty
    exact List.map_eq_nil_iff.1 (Json.array.inj (Option.some.inj hempty)).symm
  · intro w hw _
    rw [hw.eq_of_plain, list?_strings]

end EditedFields

end Wiring.Json
