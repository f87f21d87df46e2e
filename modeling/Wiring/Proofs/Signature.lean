import Wiring.Proofs.Dict
import Wiring.Proofs.Registry.View
import Wiring.Registry.Load

/-!
# What a shape says

A shape is a name, or a type that no name stands for, inside `wrappers`: pointers, slices and maps,
of which the values count.  `Tells` says what a kind has to tell of the wrappers and the name, each
flag by itself, and `SourceUnit.Binds` says which package a qualifier stands for in a file.

The walk that finds the meaning of a shape carries a kind along, and there a slice changes what
pointers count as from then on.  So the flags are read off for a walk that starts at any kind
(`slice_passAll` and the others, by induction on the wrappers), and only then for the one that
starts with no flag at all (`tells_passAll`).
-/

namespace Wiring

inductive Wrapper where
  | pointer
  | slice
  | map
  deriving DecidableEq

namespace Shape

/-- The wrappers from the outside in.  Inside a map, its values are followed. -/
def wrappers : Shape → List Wrapper
  | pointer elem => .pointer :: elem.wrappers
  | slice elem => .slice :: elem.wrappers
  | map _ value => .map :: value.wrappers
  | named _ _ => []
  | unsupported _ => []

def core : Shape → Shape
  | pointer elem => elem.core
  | slice elem => elem.core
  | map _ value => value.core
  | named qualifier name => named qualifier name
  | unsupported text => unsupported text

theorem core_cases (s : Shape) :
    (∃ qualifier name, s.core = named qualifier name) ∨ ∃ text, s.core = unsupported text := by
  induction s with
  | named qualifier name => exact .inl ⟨qualifier, name, rfl⟩
  | pointer elem ih => exact ih
  | slice elem ih => exact ih
  | map key value _ ih => exact ih
  | unsupported text => exact .inr ⟨text, rfl⟩

end Shape

/-! ## Kinds -/

namespace SlotKind

variable {k : SlotKind} {ws : List Wrapper} {w : Wrapper} {name : String}

/-- A pointer stands among the wrappers, and what is outside it has a property. -/
def PointerBelow (ws : List Wrapper) (p : List Wrapper → Prop) : Prop :=
  ∃ outer inner, ws = outer ++ .pointer :: inner ∧ p outer

/-- What the kind of a slot has to tell of the wrappers around a name. -/
structure Tells (k : SlotKind) (ws : List Wrapper) (name : String) : Prop where
  slice : k.slice = true ↔ Wrapper.slice ∈ ws
  map : k.map = true ↔ Wrapper.map ∈ ws
  pointer : k.pointer = true ↔ PointerBelow ws fun outer => Wrapper.slice ∉ outer
  sliceOfPointer : k.sliceOfPointer = true ↔ PointerBelow ws fun outer => Wrapper.slice ∈ outer
  builtin : k.builtin = isBuiltin name
  ident : k.ident = !isBuiltin name

theorem pointerBelow_cons {p : List Wrapper → Prop} : PointerBelow (w :: ws) p ↔
    w = .pointer ∧ p [] ∨ PointerBelow ws fun outer => p (w :: outer) := by
  constructor
  · rintro ⟨outer, inner, hsplit, hp⟩
    cases outer with
    | nil =>
      obtain ⟨rfl, rfl⟩ := List.cons_eq_cons.1 hsplit
      exact .inl ⟨rfl, hp⟩
    | cons w' outer =>
      obtain ⟨rfl, rfl⟩ := List.cons_eq_cons.1 hsplit
      exact .inr ⟨outer, inner, rfl, hp⟩
  · rintro (⟨rfl, hp⟩ | ⟨outer, inner, rfl, hp⟩)
    · exact ⟨[], ws, rfl, hp⟩
    · exact ⟨w :: outer, inner, rfl, hp⟩

def pass (k : SlotKind) : Wrapper → SlotKind
  | .pointer => k.throughPointer
  | .slice => k.withSlice
  | .map => k.withMap

def passAll (k : SlotKind) (ws : List Wrapper) : SlotKind :=
  ws.foldl pass k

@[simp] theorem passAll_nil (k : SlotKind) : k.passAll [] = k := rfl

@[simp] theorem passAll_cons (k : SlotKind) (w : Wrapper) (ws : List Wrapper) :
    k.passAll (w :: ws) = (k.pass w).passAll ws := rfl

@[simp] theorem slice_throughPointer (k : SlotKind) : k.throughPointer.slice = k.slice := by
  rw [throughPointer]
  split <;> rfl

@[simp] theorem map_throughPointer (k : SlotKind) : k.throughPointer.map = k.map := by
  rw [throughPointer]
  split <;> rfl

@[simp] theorem builtin_throughPointer (k : SlotKind) :
    k.throughPointer.builtin = k.builtin := by
  rw [throughPointer]
  split <;> rfl

@[simp] theorem ident_throughPointer (k : SlotKind) : k.throughPointer.ident = k.ident := by
  rw [throughPointer]
  split <;> rfl

@[simp] theorem pointer_throughPointer (k : SlotKind) :
    k.throughPointer.pointer = (k.pointer || !k.slice) := by
  rw [throughPointer]
  split <;> simp_all [withSliceOfPointer, withPointer]

@[simp] theorem sliceOfPointer_throughPointer (k : SlotKind) :
    k.throughPointer.sliceOfPointer = (k.sliceOfPointer || k.slice) := by
  rw [throughPointer]
  split <;> simp_all [withSliceOfPointer, withPointer]

theorem slice_passAll : (k.passAll ws).slice = true ↔ k.slice = true ∨ Wrapper.slice ∈ ws := by
  induction ws generalizing k with
  | nil => simp
  | cons w ws ih =>
    rw [passAll_cons, ih]
    cases w <;> simp [pass, withSlice, withMap]

theorem map_passAll : (k.passAll ws).map = true ↔ k.map = true ∨ Wrapper.map ∈ ws := by
  induction ws generalizing k with
  | nil => simp
  | cons w ws ih =>
    rw [passAll_cons, ih]
    cases w <;> simp [pass, withSlice, withMap]

theorem builtin_passAll : (k.passAll ws).builtin = k.builtin := by
  induction ws generalizing k with
  | nil => rfl
  | cons w ws ih =>
    rw [passAll_cons, ih]
    cases w <;> simp [pass, withSlice, withMap]

theorem ident_passAll : (k.passAll ws).ident = k.ident := by
  induction ws generalizing k with
  | nil => rfl
  | cons w ws ih =>
    rw [passAll_cons, ih]
    cases w <;> simp [pass, withSlice, withMap]

/-- A pointer counts as one with no slice around it as long as no slice was passed. -/
theorem pointer_passAll : (k.passAll ws).pointer = true ↔ k.pointer = true ∨
    PointerBelow ws fun outer => k.slice = false ∧ Wrapper.slice ∉ outer := by
  induction ws generalizing k with
  | nil => simp [PointerBelow]
  | cons w ws ih =>
    rw [passAll_cons, ih, pointerBelow_cons]
    cases w <;> simp [pass, withSlice, withMap, or_assoc]

/-- Once a slice was passed, a pointer counts as one with a slice around it. -/
theorem sliceOfPointer_passAll : (k.passAll ws).sliceOfPointer = true ↔ k.sliceOfPointer = true ∨
    PointerBelow ws fun outer => k.slice = true ∨ Wrapper.slice ∈ outer := by
  induction ws generalizing k with
  | nil => simp [PointerBelow]
  | cons w ws ih =>
    rw [passAll_cons, ih, pointerBelow_cons]
    cases w <;> simp [pass, withSlice, withMap, or_assoc]

/-- **A kind tells what was passed**, if the type at the core belongs to no package exactly if the
name is that of a built-in type. -/
theorem tells_passAll {t : TypeName} (ht : t.isGlobal = isBuiltin name) :
    ((unknown.passAll ws).endingIn t).Tells ws name := by
  have hslice : (unknown.passAll ws).slice = true ↔ Wrapper.slice ∈ ws := by
    simp [slice_passAll, unknown]
  have hmap : (unknown.passAll ws).map = true ↔ Wrapper.map ∈ ws := by
    simp [map_passAll, unknown]
  have hpointer : (unknown.passAll ws).pointer = true ↔
      PointerBelow ws fun outer => Wrapper.slice ∉ outer := by
    simp [pointer_passAll, unknown]
  have hsliceOfPointer : (unknown.passAll ws).sliceOfPointer = true ↔
      PointerBelow ws fun outer => Wrapper.slice ∈ outer := by
    simp [sliceOfPointer_passAll, unknown]
  have hbuiltin : (unknown.passAll ws).builtin = false := builtin_passAll
  have hident : (unknown.passAll ws).ident = false := ident_passAll
  rw [endingIn, ht]
  cases hb : isBuiltin name with
  | true =>
    refine ⟨hslice, hmap, hpointer, hsliceOfPointer, hb.symm, ?_⟩
    rw [hb]
    exact hident
  | false =>
    refine ⟨hslice, hmap, hpointer, hsliceOfPointer, ?_, ?_⟩
    · rw [hb]
      exact hbuiltin
    · rw [hb]
      rfl

end SlotKind

theorem SlotKind.Tells.unique {k k' : SlotKind} {ws : List Wrapper} {name : String}
    (h : k.Tells ws name) (h' : k'.Tells ws name) : k = k' := by
  obtain ⟨ident, builtin, pointer, slice, sliceOfPointer, map⟩ := k
  obtain ⟨ident', builtin', pointer', slice', sliceOfPointer', map'⟩ := k'
  rw [SlotKind.mk.injEq]
  exact ⟨h.ident.trans h'.ident.symm, h.builtin.trans h'.builtin.symm,
    Bool.eq_iff_iff.2 (h.pointer.trans h'.pointer.symm),
    Bool.eq_iff_iff.2 (h.slice.trans h'.slice.symm),
    Bool.eq_iff_iff.2 (h.sliceOfPointer.trans h'.sliceOfPointer.symm),
    Bool.eq_iff_iff.2 (h.map.trans h'.map.symm)⟩

theorem FileScope.meaningFrom?_eq (scope : FileScope) (k : SlotKind) (s : Shape) :
    scope.meaningFrom? k s = scope.meaningFrom? (k.passAll s.wrappers) s.core := by
  induction s generalizing k with
  | named qualifier name => rfl
  | pointer elem ih => exact ih k.throughPointer
  | slice elem ih => exact ih k.withSlice
  | map key value _ ih => exact ih k.withMap
  | unsupported text => rfl

/-! ## Names -/

/-- The full name that a name stands for in a package. -/
def Package.typeFqn (p : Package) (name : String) : String :=
  if isBuiltin name then name else p.path ++ "." ++ name

theorem TypeName.fqn_lookup (p : Package) (name : String) :
    (TypeName.lookup (some p) name).fqn = p.typeFqn name := by
  rw [TypeName.lookup, TypeName.fqn, Package.typeFqn]
  cases isBuiltin name <;> rfl

theorem Package.isBuiltin_typeFqn (p : Package) (name : String) :
    isBuiltin (p.typeFqn name) = isBuiltin name := by
  rw [Package.typeFqn]
  cases hb : isBuiltin name with
  | true => exact hb
  | false => exact TypeName.isBuiltin_dotted p.path name

/-- An import binds its own name, unless that is `_` or `.`; without one it binds the name of its
package. -/
def ImportDecl.Binds (i : ImportDecl) (name : String) : Prop :=
  i.localName = some name ∧ name ≠ "_" ∧ name ≠ "." ∨ i.localName = none ∧ i.package.name = name

theorem ImportDecl.localName?_eq_some_iff {i : ImportDecl} {name : String} :
    i.localName? = some name ↔ i.Binds name := by
  rw [ImportDecl.localName?, ImportDecl.Binds]
  cases i.localName with
  | none => simp
  | some own =>
    by_cases hown : own = "_" ∨ own = "."
    · rcases hown with rfl | rfl <;> simp +contextual [eq_comm]
    · obtain ⟨hblank, hdot⟩ := not_or.1 hown
      simp only [beq_iff_eq, Bool.or_eq_true, hblank, hdot, or_self, if_false, Option.some.injEq,
        reduceCtorEq, false_and, or_false]
      exact ⟨fun h => ⟨h, h ▸ hblank, h ▸ hdot⟩, And.left⟩

/-- What an import writes in the dictionary of its file: its package, under the name that it
binds. -/
def ImportDecl.binding? (i : ImportDecl) : Option (String × Package) :=
  i.localName?.map fun name => (name, i.package)

theorem ImportDecl.binding?_eq_some_iff {i : ImportDecl} {name : String} {p : Package} :
    i.binding? = some (name, p) ↔ i.Binds name ∧ i.package = p := by
  rw [binding?, Option.map_eq_some_iff, ← localName?_eq_some_iff]
  constructor
  · rintro ⟨own, hown, hbinding⟩
    cases hbinding
    exact ⟨hown, rfl⟩
  · rintro ⟨hname, rfl⟩
    exact ⟨name, hname, rfl⟩

theorem ImportDecl.forall_binding?_ne_iff {i : ImportDecl} {name : String} :
    (∀ p, i.binding? ≠ some (name, p)) ↔ ¬ i.Binds name := by
  simp only [ne_eq, binding?_eq_some_iff, not_and]
  exact ⟨fun h hbinds => h i.package hbinds rfl, fun h p hbinds => absurd hbinds h⟩

namespace SourceUnit

variable {u : SourceUnit} {marker qualifier : String} {p : Package}

/-- In the file a qualifier stands for the package of the last import that binds it. -/
def Binds (u : SourceUnit) (qualifier : String) (p : Package) : Prop :=
  ∃ before i after, u.imports = before ++ i :: after ∧ i.Binds qualifier ∧ i.package = p ∧
    ∀ j ∈ after, ¬ j.Binds qualifier

theorem imports_ofUnit : (FileScope.ofUnit marker u).imports
    = .ofList (u.imports.filterMap ImportDecl.binding?) :=
  rfl

theorem get?_imports_eq_some_iff :
    (FileScope.ofUnit marker u).imports.get? qualifier = some p ↔ u.Binds qualifier p := by
  rw [imports_ofUnit, Dict.get?_ofList_filterMap_eq_some_iff]
  simp only [ImportDecl.binding?_eq_some_iff, ImportDecl.forall_binding?_ne_iff, Binds, and_assoc]

theorem get?_imports_eq_none_iff : (FileScope.ofUnit marker u).imports.get? qualifier = none ↔
    ∀ i ∈ u.imports, ¬ i.Binds qualifier := by
  rw [imports_ofUnit, Dict.get?_ofList_filterMap_eq_none_iff]
  simp only [ImportDecl.forall_binding?_ne_iff]

theorem Binds.unique {p' : Package} (h : u.Binds qualifier p) (h' : u.Binds qualifier p') :
    p = p' := by
  have hp := (@get?_imports_eq_some_iff u "" qualifier p).2 h
  rw [get?_imports_eq_some_iff.2 h'] at hp
  exact (Option.some.inj hp).symm

theorem Binds.not_free (h : u.Binds qualifier p) : ¬ ∀ i ∈ u.imports, ¬ i.Binds qualifier := by
  obtain ⟨before, i, after, hsplit, hi, -⟩ := h
  exact fun hfree => hfree i (by simp [hsplit]) hi

end SourceUnit

end Wiring
