import Wiring.Proofs.Registry.Parts

/-!
# What is seen of a function

A `FuncView` is what can be seen of a listed function: its full name and place, its file, its
documentation, and its slots, where a type shows by its full name.

The moment at which a signature is looked up matters only through the forms in which the types are
listed then.  Names in files stand for `Plain` types: such a type belongs to no package exactly if
its full name is that of a built-in type.  So two ways to list types that agree on the full names of
plain types, and on which of them belong to no package, give views that are equal
(`view_signed_congr`).
-/

namespace Wiring

namespace TypeName

variable {t t' : TypeName}

/-- A type belongs to no package exactly if its full name is that of a built-in type. -/
def Plain (t : TypeName) : Prop :=
  t.isGlobal = isBuiltin t.fqn

theorem dot_notMem_of_isBuiltin {name : String} (h : isBuiltin name = true) :
    '.' ∉ name.toList := by
  have hall : ∀ n ∈ builtinNames, '.' ∉ n.toList := by decide
  exact hall name (List.contains_iff_mem.1 h)

theorem isBuiltin_dotted (path name : String) : isBuiltin (path ++ "." ++ name) = false := by
  rw [Bool.eq_false_iff]
  intro h
  have hdot : '.' ∈ (path ++ "." ++ name).toList := by simp
  exact dot_notMem_of_isBuiltin h hdot

theorem plain_lookup (p : Package) (name : String) : (lookup (some p) name).Plain := by
  cases hb : isBuiltin name with
  | true => simp [Plain, lookup, isGlobal, fqn, hb]
  | false => simp [Plain, lookup, isGlobal, fqn, hb, isBuiltin_dotted]

theorem Plain.isGlobal_eq (ht : t.Plain) (ht' : t'.Plain) (h : t.fqn = t'.fqn) :
    t.isGlobal = t'.isGlobal := by
  have h₁ : t.isGlobal = isBuiltin t.fqn := ht
  have h₂ : t'.isGlobal = isBuiltin t'.fqn := ht'
  rw [h₁, h₂, h]

/-- Two ways to list types under their full names have the same full names and keep the same types
without package, as far as plain types go. -/
def SameForms (c c' : TypeName → TypeName) : Prop :=
  ∀ t : TypeName, t.Plain → (c t).fqn = (c' t).fqn ∧ (c t).isGlobal = (c' t).isGlobal

end TypeName

namespace FileScope

variable {scope : FileScope} {c c' : TypeName → TypeName}

theorem plain_of_meaningFrom? {s : Shape} {k k' : SlotKind} {t : TypeName}
    (h : scope.meaningFrom? k s = some (t, k')) : t.Plain := by
  induction s generalizing k with
  | named package name =>
    cases package with
    | none =>
      rw [meaningFrom?, Option.some.injEq, Prod.mk.injEq] at h
      exact h.1 ▸ TypeName.plain_lookup scope.package name
    | some qualifier =>
      rw [meaningFrom?, Option.map_eq_some_iff] at h
      obtain ⟨p, -, hp⟩ := h
      exact (Prod.mk.inj hp).1 ▸ TypeName.plain_lookup p name
  | pointer elem ih => exact ih h
  | slice elem ih => exact ih h
  | map key value _ ih => exact ih h
  | unsupported text => cases h

theorem plain_of_mem_mentioned {d : FuncDecl} {t : TypeName} (h : t ∈ scope.mentioned d) :
    t.Plain := by
  obtain ⟨f, -, hf⟩ := List.mem_filterMap.1 h
  obtain ⟨⟨t', k⟩, hm, rfl⟩ := Option.map_eq_some_iff.1 hf
  exact plain_of_meaningFrom? hm

end FileScope

/-! ## Views -/

structure SlotView where
  name : String
  documentation : Documentation
  shape : Shape
  /-- The full name of the type. -/
  type? : Option String
  kind : SlotKind
  deriving DecidableEq

structure FuncView where
  fqn : String
  ordinal : Ordinal
  file : Option String
  documentation : Documentation
  receiver : Option SlotView
  params : List SlotView
  returns : List SlotView
  deriving DecidableEq

def Slot.view (s : Slot) : SlotView :=
  ⟨s.name, s.documentation, s.shape, s.type?.map TypeName.fqn, s.kind⟩

def Func.view (f : Func) : FuncView :=
  { fqn := f.fqn
    ordinal := f.ordinal
    file := f.file
    documentation := f.documentation
    receiver := f.receiver.map Slot.view
    params := f.params.map Slot.view
    returns := f.returns.map Slot.view }

theorem view_slot_congr {scope : FileScope} {c c' : TypeName → TypeName}
    (h : TypeName.SameForms c c') (d : FieldDecl) :
    (scope.slot c d).view = (scope.slot c' d).view := by
  cases hm : scope.meaning? d.shape with
  | none => simp [FileScope.slot, Slot.view, hm]
  | some m =>
    obtain ⟨t, k⟩ := m
    obtain ⟨hfqn, hglobal⟩ := h t (FileScope.plain_of_meaningFrom? hm)
    simp [FileScope.slot, Slot.view, SlotKind.endingIn, hm, hfqn, hglobal]

namespace Func

variable {f g : Func} {c : TypeName → TypeName}

/-- A function has a signature that was looked up where types were listed as `c` lists them. -/
def SignedAs (c : TypeName → TypeName) (f : Func) : Prop :=
  ∃ c', TypeName.SameForms c' c ∧ f.signature? = some (f.scope.signature c' f.decl)

theorem SignedAs.isSome (h : f.SignedAs c) : f.signature?.isSome := by
  obtain ⟨c', -, hc'⟩ := h
  rw [hc']
  rfl

/-- **A view does not tell when the signature was looked up.** -/
theorem view_signed_congr (hf : f.SignedAs c) (hg : g.SignedAs c) (h : f.bare = g.bare) :
    f.view = g.view := by
  obtain ⟨c₁, hc₁, hf⟩ := hf
  obtain ⟨c₂, hc₂, hg⟩ := hg
  have hforms : TypeName.SameForms c₁ c₂ := fun t ht =>
    ⟨(hc₁ t ht).1.trans (hc₂ t ht).1.symm, (hc₁ t ht).2.trans (hc₂ t ht).2.symm⟩
  obtain ⟨decl, scope, ordinal, signature?⟩ := f
  obtain ⟨decl', scope', ordinal', signature?'⟩ := g
  simp only [bare, Func.mk.injEq, and_true] at h
  obtain ⟨rfl, rfl, rfl⟩ := h
  dsimp only at hf hg
  subst hf hg
  have hslot : ∀ d, (scope.slot c₁ d).view = (scope.slot c₂ d).view := view_slot_congr hforms
  simp [view, fqn, name, package, file, documentation, receiver, params, returns, signature,
    FileScope.signature, Function.comp_def, hslot]

end Func

end Wiring
