import Mathlib.Data.List.Nodup
import Wiring.Registry.Func

/-!
# What several units declare

`placed` lists the declarations of several units in the order of their places (`pairwise_placed`).
`DeclaredFirst` says of one of them, without that list, that no place before it declares the same
full name; this is the declaration that a search in the list finds (`find?_placed`).
-/

namespace Wiring

variable {δ : Type}

/-- A declaration with the unit that it is in and its place. -/
structure Placed (δ : Type) where
  ordinal : Ordinal
  unit : SourceUnit
  decl : δ

/-- The declarations of the unit of this number. -/
def placedIn (get : SourceUnit → List δ) (n : Nat) (u : SourceUnit) : List (Placed δ) :=
  (get u).zipIdx.map fun (d, j) => ⟨⟨n, j⟩, u, d⟩

/-- The declarations of units that are numbered from `base` on. -/
def placed (get : SourceUnit → List δ) (base : Nat) (us : List SourceUnit) : List (Placed δ) :=
  (us.zipIdx base).flatMap fun (u, n) => placedIn get n u

/-- Unit `i` declares `d` under a full name at place `j`, and nothing before declares this name. -/
structure DeclaredFirst (get : SourceUnit → List δ) (name : SourceUnit → δ → String)
    (us : List SourceUnit) (fqn : String) (i j : Nat) (u : SourceUnit) (d : δ) : Prop where
  unit : us[i]? = some u
  decl : (get u)[j]? = some d
  named : name u d = fqn
  first : ∀ i' j' u' d', us[i']? = some u' → (get u')[j']? = some d' → name u' d' = fqn →
    i < i' ∨ i = i' ∧ j ≤ j'

section

variable {get : SourceUnit → List δ} {name : SourceUnit → δ → String} {base n : Nat}
  {us : List SourceUnit} {u : SourceUnit} {e e' : Placed δ} {fqn : String}

theorem mem_placedIn : e ∈ placedIn get n u ↔
    e.ordinal.unit = n ∧ e.unit = u ∧ (get u)[e.ordinal.index]? = some e.decl := by
  obtain ⟨⟨m, j⟩, v, d⟩ := e
  simp only [placedIn, List.mem_map, Prod.exists, List.mk_mem_zipIdx_iff_getElem?, Placed.mk.injEq,
    Ordinal.mk.injEq]
  constructor
  · rintro ⟨d, j, hd, ⟨rfl, rfl⟩, rfl, rfl⟩
    exact ⟨rfl, rfl, hd⟩
  · rintro ⟨rfl, rfl, hd⟩
    exact ⟨d, j, hd, ⟨rfl, rfl⟩, rfl, rfl⟩

theorem mem_placed : e ∈ placed get base us ↔ ∃ i, us[i]? = some e.unit ∧
    e.ordinal.unit = base + i ∧ (get e.unit)[e.ordinal.index]? = some e.decl := by
  simp only [placed, List.mem_flatMap, Prod.exists, mem_placedIn,
    List.mk_mem_zipIdx_iff_le_and_getElem?_sub]
  constructor
  · rintro ⟨u, n, ⟨hle, hu⟩, rfl, rfl, hd⟩
    exact ⟨e.ordinal.unit - base, hu, by omega, hd⟩
  · rintro ⟨i, hu, hn, hd⟩
    exact ⟨e.unit, e.ordinal.unit, ⟨by omega, by rwa [hn, Nat.add_sub_cancel_left]⟩, rfl, rfl, hd⟩

theorem placed_append (get : SourceUnit → List δ) (base : Nat) (us vs : List SourceUnit) :
    placed get base (us ++ vs) = placed get base us ++ placed get (base + us.length) vs := by
  rw [placed, List.zipIdx_append, List.flatMap_append]
  rfl

/-- Apart from their places, what several units declare is what each of them declares in turn. -/
theorem map_placed {β : Type} (g : SourceUnit → δ → β) (get : SourceUnit → List δ) (base : Nat)
    (us : List SourceUnit) : (placed get base us).map (fun e => g e.unit e.decl)
      = us.flatMap fun u => (get u).map (g u) := by
  have hunit : ∀ (u : SourceUnit) (n : Nat),
      (placedIn get n u).map (fun e => g e.unit e.decl) = (get u).map (g u) := by
    intro u n
    conv_rhs => rw [← List.zipIdx_map_fst 0 (get u), List.map_map]
    rw [placedIn, List.map_map]
    rfl
  rw [placed, List.map_flatMap]
  conv_rhs => rw [← List.zipIdx_map_fst base us, List.flatMap_map]
  exact List.flatMap_congr fun a _ => hunit a.1 a.2

/-! ## The order of the places -/

theorem pairwise_zipIdx {α : Type} (l : List α) (k : Nat) :
    (l.zipIdx k).Pairwise fun a b => a.2 < b.2 := by
  have h := (List.pairwise_lt_range' (s := k) (n := l.length)).imp id
  rw [← List.zipIdx_map_snd, List.pairwise_map] at h
  exact h

def Ordinal.Before (a b : Ordinal) : Prop :=
  a.unit < b.unit ∨ a.unit = b.unit ∧ a.index < b.index

theorem Ordinal.eq_or_before {a b : Ordinal}
    (h : a.unit < b.unit ∨ a.unit = b.unit ∧ a.index ≤ b.index) : b = a ∨ a.Before b := by
  obtain ⟨n, i⟩ := a
  obtain ⟨m, j⟩ := b
  simp only [Ordinal.Before, Ordinal.mk.injEq] at *
  omega

/-- **The declarations stand in the order of their places.** -/
theorem pairwise_placed (get : SourceUnit → List δ) (base : Nat) (us : List SourceUnit) :
    (placed get base us).Pairwise fun e e' => e.ordinal.Before e'.ordinal := by
  refine List.pairwise_flatMap.2 ⟨?_, (pairwise_zipIdx us base).imp ?_⟩
  · rintro ⟨u, n⟩ -
    exact List.pairwise_map.2 ((pairwise_zipIdx (get u) 0).imp fun h => .inr ⟨rfl, h⟩)
  · rintro ⟨u, n⟩ ⟨v, m⟩ hnm e he e' he'
    rw [mem_placedIn] at he he'
    exact .inl (he.1 ▸ he'.1 ▸ hnm)

theorem nodup_ordinals (get : SourceUnit → List δ) (base : Nat) (us : List SourceUnit) :
    ((placed get base us).map (·.ordinal)).Nodup := by
  refine List.pairwise_map.2 ((pairwise_placed get base us).imp ?_)
  intro e e' h he
  rw [he, Ordinal.Before] at h
  omega

theorem eq_of_ordinal_eq (he : e ∈ placed get base us) (he' : e' ∈ placed get base us)
    (h : e.ordinal = e'.ordinal) : e = e' :=
  List.inj_on_of_nodup_map (nodup_ordinals get base us) he he' h

/-- In a list in the order of the places, a search finds the one that is before all others. -/
theorem find?_eq_some_iff_first {l : List (Placed δ)} {p : Placed δ → Bool}
    (hl : l.Pairwise fun e e' => e.ordinal.Before e'.ordinal) :
    l.find? p = some e ↔ e ∈ l ∧ p e = true ∧
      ∀ e' ∈ l, p e' = true → e' = e ∨ e.ordinal.Before e'.ordinal := by
  have hfound : ∀ e, l.find? p = some e → ∀ e' ∈ l, p e' = true →
      e' = e ∨ e.ordinal.Before e'.ordinal := by
    intro e h e' he' hp'
    obtain ⟨-, before, after, rfl, hbefore⟩ := List.find?_eq_some_iff_append.1 h
    rw [List.pairwise_append, List.pairwise_cons] at hl
    rcases List.mem_append.1 he' with hb | ha
    · have hnot := hbefore e' hb
      rw [hp'] at hnot
      cases hnot
    · exact (List.mem_cons.1 ha).imp_right (hl.2.1.1 e')
  constructor
  · exact fun h => ⟨List.mem_of_find?_eq_some h, List.find?_some h, hfound e h⟩
  · rintro ⟨hmem, hp, hfirst⟩
    obtain ⟨e', he'⟩ := Option.isSome_iff_exists.1 (List.find?_isSome.2 ⟨e, hmem, hp⟩)
    rcases hfirst e' (List.mem_of_find?_eq_some he') (List.find?_some he') with rfl | hlt
    · exact he'
    · -- neither can be before the other
      rcases hfound e' he' e hmem hp with rfl | hlt'
      · exact he'
      · unfold Ordinal.Before at hlt hlt'
        omega

/-- **Searching the list finds what is declared first.** -/
theorem find?_placed : (placed get base us).find? (fun e => name e.unit e.decl == fqn) = some e ↔
    ∃ i, e.ordinal.unit = base + i ∧
      DeclaredFirst get name us fqn i e.ordinal.index e.unit e.decl := by
  rw [find?_eq_some_iff_first (pairwise_placed get base us)]
  constructor
  · rintro ⟨hmem, hname, hfirst⟩
    obtain ⟨i, hu, hi, hd⟩ := mem_placed.1 hmem
    refine ⟨i, hi, hu, hd, by simpa using hname, fun i' j' u' d' hu' hd' hn' => ?_⟩
    have hmem' : (⟨⟨base + i', j'⟩, u', d'⟩ : Placed δ) ∈ placed get base us :=
      mem_placed.2 ⟨i', hu', rfl, hd'⟩
    rcases hfirst _ hmem' (by simpa using hn') with rfl | hlt
    · exact .inr ⟨by simpa using hi.symm, Nat.le_refl _⟩
    · simp only [Ordinal.Before] at hlt
      omega
  · rintro ⟨i, hi, hfirst⟩
    have hmem : e ∈ placed get base us := mem_placed.2 ⟨i, hfirst.unit, hi, hfirst.decl⟩
    refine ⟨hmem, by simpa using hfirst.named, fun e' he' hname' => ?_⟩
    obtain ⟨i', hu', hi', hd'⟩ := mem_placed.1 he'
    have hle := hfirst.first i' _ _ _ hu' hd' (by simpa using hname')
    exact (Ordinal.eq_or_before (by omega)).imp_left (eq_of_ordinal_eq he' hmem)

end

end Wiring
