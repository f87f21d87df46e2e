import Wiring.Proofs.Alias
import Wiring.Proofs.LetterCase

/-!
# Which aliases are identifiers

An alias is a name with `_` for all but letters and numbers, followed by `_` and four digits.  What
comes from the name can spoil it in two ways.  A digit stays in the first place.  And letters and
numbers in the sense of `isAlphanumeric` are more than the letters and the decimal digits of
identifiers: `²`, `Ⅳ`, `ⓐ` and the vowel signs of many scripts stay although no identifier has them.

Nothing else spoils it (`isIdentifier_alias_iff`), and whether a name does is not changed by lower
case (`fitsAlias_lowercase`).  So a name that is an identifier gives one (`IsIdentifier.fitsAlias`).
The name of a declared type always is, the last part of a path need not be.
-/

namespace Wiring

open Text (isAlphanumeric isDecimal isKeyChar isLetter lowercase)

/-- A letter or `_`, followed by letters, decimal digits and `_`.  The letters are those of the
category of letters, fewer than the reader of source text takes for some (`Go.isLetter`). -/
def IsIdentifier : List Char → Prop
  | [] => False
  | first :: rest => (isLetter first ∨ first = '_') ∧
      ∀ c ∈ rest, isLetter c ∨ isDecimal c ∨ c = '_'

/-- A name whose letters and numbers are letters and decimal digits, and letters only in the first
place. -/
def FitsAlias : List Char → Prop
  | [] => True
  | first :: rest => (isAlphanumeric first → isLetter first) ∧
      ∀ c ∈ rest, isAlphanumeric c → isLetter c ∨ isDecimal c

-- Without the instance for lists the search takes the one that goes through all characters.
instance (s : List Char) : Decidable (IsIdentifier s) :=
  match s with
  | [] => inferInstanceAs (Decidable False)
  | first :: rest =>
    have : Decidable (∀ c ∈ rest, isLetter c ∨ isDecimal c ∨ c = '_') := List.decidableBAll _ _
    inferInstanceAs (Decidable ((isLetter first ∨ first = '_') ∧ _))

instance (name : List Char) : Decidable (FitsAlias name) :=
  match name with
  | [] => inferInstanceAs (Decidable True)
  | first :: rest =>
    have : Decidable (∀ c ∈ rest, isAlphanumeric c → isLetter c ∨ isDecimal c) :=
      List.decidableBAll _ _
    inferInstanceAs (Decidable ((isAlphanumeric first → isLetter first) ∧ _))

/-! ## One alias -/

theorem ne_underscore {c : Char} (h : isAlphanumeric c = true) : c ≠ '_' := by
  have hunderscore : isAlphanumeric '_' = false := by decide +kernel
  rintro rfl
  rw [hunderscore] at h
  cases h

/-- What becomes of a character that is replaced by `_` unless it is a letter or a number. -/
theorem replaced_iff {P : Char → Prop} (c : Char) :
    (P (if isKeyChar c then c else '_') ∨ (if isKeyChar c then c else '_') = '_') ↔
      (isAlphanumeric c → P c) := by
  by_cases hc : isAlphanumeric c = true
  · simp [isKeyChar, hc, ne_underscore hc]
  · have hkey : (if isKeyChar c then c else '_') = '_' := by
      by_cases h : c = '_'
      · simp [h]
      · simp [isKeyChar, hc, h]
    simp [hkey, hc]

theorem isLetter_or_isDecimal_of_mem_shortHex {s : String} {d : Char}
    (h : d ∈ (Digest.shortHex s).toList) : isLetter d ∨ isDecimal d := by
  have hall : ∀ n < 16, isLetter (Nat.digitChar n) ∨ isDecimal (Nat.digitChar n) := by
    decide +kernel
  rw [Digest.shortHex_eq, String.toList_ofList] at h
  obtain ⟨b, -, hd⟩ := List.mem_flatMap.1 h
  have hb := b.toNat_lt
  have hdigit : d = Nat.digitChar (b.toNat / 16) ∨ d = Nat.digitChar (b.toNat % 16) := by
    simpa [Digest.hexByte] using hd
  rcases hdigit with rfl | rfl
  · exact hall _ (by omega)
  · exact hall _ (by omega)

/-- **A name with digits is an identifier exactly if the name fits.** -/
theorem isIdentifier_alias_iff (name : List Char) (s : String) :
    IsIdentifier (String.ofList (sanitizeIdent name) ++ "_" ++ Digest.shortHex s).toList ↔
      FitsAlias name := by
  have halias : (String.ofList (sanitizeIdent name) ++ "_" ++ Digest.shortHex s).toList
      = sanitizeIdent name ++ '_' :: (Digest.shortHex s).toList := by simp
  have hdigits : ∀ d ∈ (Digest.shortHex s).toList, isLetter d ∨ isDecimal d ∨ d = '_' :=
    fun d hd => (isLetter_or_isDecimal_of_mem_shortHex hd).imp_right .inl
  rw [halias]
  cases name with
  | nil => exact iff_of_true ⟨.inr rfl, hdigits⟩ trivial
  | cons first rest =>
    have hrest : (∀ c ∈ sanitizeIdent rest ++ '_' :: (Digest.shortHex s).toList,
        isLetter c ∨ isDecimal c ∨ c = '_') ↔
          ∀ c ∈ rest, isAlphanumeric c → isLetter c ∨ isDecimal c := by
      have htail : ∀ c ∈ '_' :: (Digest.shortHex s).toList, isLetter c ∨ isDecimal c ∨ c = '_' :=
        List.forall_mem_cons.2 ⟨.inr (.inr rfl), hdigits⟩
      rw [List.forall_mem_append, and_iff_left htail, sanitizeIdent, List.forall_mem_map]
      exact forall₂_congr fun c _ => or_assoc.symm.trans
        (replaced_iff (P := fun c => isLetter c ∨ isDecimal c) c)
    exact and_congr (replaced_iff (P := fun c => isLetter c = true) first) hrest

theorem IsIdentifier.fitsAlias {name : List Char} (h : IsIdentifier name) : FitsAlias name := by
  cases name with
  | nil => trivial
  | cons first rest =>
    obtain ⟨hfirst, hrest⟩ := h
    refine ⟨fun hc => hfirst.resolve_right (ne_underscore hc), fun c hmem hc => ?_⟩
    rcases hrest c hmem with hletter | hdecimal | hunderscore
    · exact .inl hletter
    · exact .inr hdecimal
    · exact absurd hunderscore (ne_underscore hc)

/-! ## Names in lower case -/

/-- **Lower case changes nothing about whether a name fits.** -/
theorem fitsAlias_lowercase (name : List Char) : FitsAlias (lowercase name) ↔ FitsAlias name := by
  cases name with
  | nil => rfl
  | cons c rest =>
    have hfirst := Text.IgnoresCase.imp .alphanumeric .letter
    have hrest := Text.IgnoresCase.imp .alphanumeric (.or .letter .decimal)
    have hdot : isAlphanumeric '\u0307' = false := by decide +kernel
    obtain ⟨first, dots, heq, hlike, hdots⟩ := Text.lowercaseAfter_cons [] c rest
    have hall : ∀ d ∈ dots, isAlphanumeric d → isLetter d ∨ isDecimal d := by
      intro d hd hc
      rw [hdots d hd, hdot] at hc
      cases hc
    rw [lowercase, heq, FitsAlias, FitsAlias, List.forall_mem_append, and_iff_right hall]
    exact and_congr (hlike _ hfirst)
      (Text.forall_mem_lowercaseAfter hrest (by simp [hdot]) _ _)

/-! ## Packages and types -/

/-- **The alias of a package is an identifier exactly if the name of the package fits, and the alias
of a type of a package exactly if the name of the type fits.** -/
theorem localAlias_isIdentifier_iff (p : Package) (n : String) :
    (IsIdentifier p.localAlias.toList ↔ FitsAlias p.name.toList) ∧
    (IsIdentifier (TypeName.mk (some p) n).localAlias.toList ↔ FitsAlias n.toList) :=
  ⟨isIdentifier_alias_iff _ _, (isIdentifier_alias_iff _ _).trans (fitsAlias_lowercase _)⟩

/-- **A digit in the first place and a number that is no decimal digit make aliases that are no
identifiers.** -/
theorem localAlias_digit_number :
    (Package.mk "ex.com/2fa").localAlias = "2fa_50f0" ∧ ¬ IsIdentifier "2fa_50f0".toList ∧
    (TypeName.mk (some ⟨"ex.com/geo"⟩) "Area²").localAlias = "area²_174c" ∧
      ¬ IsIdentifier "area²_174c".toList := by
  decide +kernel

end Wiring
