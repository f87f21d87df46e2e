import Mathlib
import Wiring.Go.ShapeReader
import Wiring.Proofs.Go.Token

/-!
# A written shape is read back

The reader of types gives back a shape from its tokens (`shapeWithin?_tokens`), whatever comes after
them, if it is neither a dot nor an open bracket, which could go on a name.  How deep the reader may go
does not matter, as long as it may take as many steps as there are tokens.
-/

namespace Wiring.Go

open Token

/-! ## What comes next -/

section Next

variable {row : Nat} {s : String} {ts : List Token}

@[simp] theorem skip_ofSpace : skip (ofSpace row :: ts) = skip ts := rfl

@[simp] theorem skip_ofWord : skip (ofWord row s :: ts) = ofWord row s :: ts := rfl

@[simp] theorem skip_ofSymbol : skip (ofSymbol row s :: ts) = ofSymbol row s :: ts := rfl

@[simp] theorem lineBreakAhead_ofSpace :
    lineBreakAhead (ofSpace row :: ts) = lineBreakAhead ts := rfl

@[simp] theorem lineBreakAhead_ofWord :
    lineBreakAhead (ofWord row s :: ts) = false := rfl

@[simp] theorem lineBreakAhead_ofSymbol :
    lineBreakAhead (ofSymbol row s :: ts) = false := rfl

@[simp] theorem isSymbol_ofSymbol (s' : String) :
    (ofSymbol row s).isSymbol s' = decide (s = s') := by
  rw [isSymbol, ofSymbol, Bool.eq_iff_iff]
  simp [String.toList_inj]

@[simp] theorem isSymbol_ofWord (s' : String) : (ofWord row s).isSymbol s' = false := rfl

@[simp] theorem isKeyword_ofWord (s' : String) :
    (ofWord row s).isKeyword s' = decide (s = s') := by
  rw [isKeyword, ofWord, Bool.eq_iff_iff]
  simp [String.toList_inj]

@[simp] theorem isKeyword_ofSymbol (s' : String) : (ofSymbol row s).isKeyword s' = false := rfl

@[simp] theorem isName_ofSymbol : (ofSymbol row s).isName = false := rfl

theorem isName_ofWord (hs : IsName s) : (ofWord row s).isName = true := by
  simpa [isName, ofWord] using hs.notKeyword

@[simp] theorem isName_map : (ofWord row "map").isName = false := by
  simp [isName, ofWord, keywords]

theorem symbol?_ofSymbol : symbol? s (ofSymbol row s :: ts) = some ts := by
  simp [symbol?]

theorem symbol?_eq_none (h : nextIs s ts = false) : symbol? s ts = none := by
  rw [nextIs] at h
  rw [symbol?]
  cases hts : skip ts with
  | nil => rfl
  | cons t rest =>
    rw [hts, List.head?_cons, Option.any_some] at h
    simp [h]

theorem name?_ofWord (hs : IsName s) : name? (ofWord row s :: ts) = some (s, ts) := by
  rw [name?, skip_ofWord]
  simp only [isName_ofWord hs, if_true]
  rw [ofWord, String.ofList_toList]

theorem afterTypeArguments_eq (h : nextIs "[" ts = false) : afterTypeArguments ts = ts := by
  rw [afterTypeArguments, afterGroup?, symbol?_eq_none h]
  split <;> rfl

end Next

/-! ## Shapes -/

/-- Tokens before which a name can end: neither a member nor type arguments come next. -/
structure EndsShape (rest : List Token) : Prop where
  noMember : nextIs "." rest = false
  noArguments : nextIs "[" rest = false

theorem endsShape_ofSymbol {row : Nat} {s : String} {rest : List Token} (hdot : s ≠ ".")
    (hopen : s ≠ "[") : EndsShape (ofSymbol row s :: rest) :=
  ⟨by simp [nextIs, hdot], by simp [nextIs, hopen]⟩

variable {row : Nat} {s : Shape} {rest : List Token}

/-- No comment stands before a shape. -/
theorem orComment_shapeTokens (hs : Plain s) (rest : List Token) (elem : Shape) :
    orComment (shapeTokens row s ++ rest) elem = elem := by
  cases hs <;> rfl

/-- **A shape is read from its tokens.** -/
theorem shapeWithin?_tokens (hs : Plain s) {fuel : Nat}
    (hfuel : (shapeTokens row s).length ≤ fuel) (hrest : EndsShape rest) :
    shapeWithin? fuel (shapeTokens row s ++ rest) = some (s, rest) := by
  induction hs generalizing fuel rest with
  | @name name isName =>
    rw [shapeTokens, List.length_singleton] at hfuel
    obtain ⟨fuel, rfl⟩ := Nat.exists_eq_add_of_le' hfuel
    rw [shapeTokens, List.singleton_append, shapeWithin?.eq_def]
    simp only [skip_ofWord, isName_ofWord isName, if_true, symbol?_eq_none hrest.noMember,
      Option.bind_none, afterTypeArguments_eq hrest.noArguments]
    rw [ofWord, String.ofList_toList]
  | @member package name isPackage isName =>
    rw [shapeTokens] at hfuel
    obtain ⟨fuel, rfl⟩ := Nat.exists_eq_add_of_le' (Nat.le_of_add_left_le hfuel)
    rw [shapeTokens, List.cons_append, List.cons_append, List.singleton_append,
      shapeWithin?.eq_def]
    simp only [skip_ofWord, isName_ofWord isPackage, if_true, symbol?_ofSymbol, Option.bind_some,
      name?_ofWord isName, afterTypeArguments_eq hrest.noArguments]
    rw [ofWord, String.ofList_toList]
  | @pointer elem plain ih =>
    rw [shapeTokens, List.length_cons] at hfuel
    obtain ⟨fuel, rfl⟩ := Nat.exists_eq_add_of_le' (Nat.le_of_add_left_le hfuel)
    rw [shapeTokens, List.cons_append, shapeWithin?.eq_def]
    simp [ih (Nat.le_of_add_le_add_right hfuel) hrest, orComment_shapeTokens plain]
  | @slice elem plain ih =>
    rw [shapeTokens, List.length_cons, List.length_cons] at hfuel
    obtain ⟨fuel, rfl⟩ := Nat.exists_eq_add_of_le' (Nat.le_of_add_left_le hfuel)
    have hfuel : (shapeTokens row elem).length ≤ fuel := by omega
    rw [shapeTokens, List.cons_append, List.cons_append, shapeWithin?.eq_def]
    simp [afterClose?, Token.opens, Token.closes, ih hfuel hrest]
  | @map key value plainKey plainValue ihKey ihValue =>
    simp only [shapeTokens, List.cons_append, List.length_cons, List.length_append] at hfuel
    obtain ⟨fuel, rfl⟩ := Nat.exists_eq_add_of_le' (Nat.le_of_add_left_le hfuel)
    have hkey : (shapeTokens row key).length ≤ fuel := by omega
    have hvalue : (shapeTokens row value).length ≤ fuel := by omega
    have hclose : EndsShape (ofSymbol row "]" :: (shapeTokens row value ++ rest)) :=
      endsShape_ofSymbol (by decide) (by decide)
    simp only [shapeTokens, List.cons_append, List.append_assoc]
    rw [shapeWithin?.eq_def]
    simp [symbol?_ofSymbol, ihKey hkey hclose, ihValue hvalue hrest]

end Wiring.Go
