import Mathlib
import Wiring.Declaration.Basic
import Wiring.Go.Token
import Wiring.Proofs.Text
import Wiring.Proofs.Word

/-!
# The tokens of a written shape

The tokens of a text depend on nothing but the row on which it starts (`tokensFrom`), and those of what
follows a word, a symbol or white space are those of its own text.  So the text of a shape is cut into
the tokens one expects (`tokensFrom_shape`): a word ends where no character of names follows, and in
the text of a shape nothing that could go on a word comes after one.  The names in a shape may be any
identifiers (`isName_of_isIdentifier`).
-/

namespace Wiring.Go

/-! ## Tokens one after the other -/

/-- The tokens of a text that starts on a row. -/
def tokensFrom (row : Nat) (cs : List Char) : List Token :=
  tokensWithin cs.length row cs

theorem tokensWithin_eq {fuel row : Nat} {cs : List Char} (h : cs.length ≤ fuel) :
    tokensWithin fuel row cs = tokensFrom row cs := by
  have hall : ∀ {n m row : Nat} {cs : List Char}, cs.length ≤ n → cs.length ≤ m →
      tokensWithin n row cs = tokensWithin m row cs := by
    intro n
    induction n with
    | zero =>
      intro m row cs hn hm
      obtain rfl := List.eq_nil_of_length_eq_zero (Nat.le_zero.1 hn)
      simp [tokensWithin]
    | succ n ih =>
      intro m row cs hn hm
      cases cs with
      | nil => simp [tokensWithin]
      | cons c rest =>
        cases m with
        | zero => simp at hm
        | succ m =>
          simp only [List.length_cons, Nat.add_le_add_iff_right] at hn hm
          simp only [tokensWithin]
          congr 1
          apply ih <;> rw [List.length_drop] <;> omega
  exact hall h le_rfl

theorem tokensFrom_cons {c : Char} {rest : List Char} {kind : TokenKind} {n : Nat}
    (h : tokenAt c rest = (kind, n)) (row : Nat) : tokensFrom row (c :: rest)
      = ⟨kind, c :: rest.take n, row⟩ ::
          tokensFrom (row + (c :: rest.take n).count '\n') (rest.drop n) := by
  rw [tokensFrom, List.length_cons, tokensWithin, h]
  dsimp only
  rw [tokensWithin_eq (by rw [List.length_drop]; omega)]
  rfl

/-! ## Words, symbols and spaces -/

def Token.ofWord (row : Nat) (s : String) : Token :=
  ⟨.word, s.toList, row⟩

def Token.ofSymbol (row : Nat) (s : String) : Token :=
  ⟨.symbol, s.toList, row⟩

def Token.ofSpace (row : Nat) : Token :=
  ⟨.space, [' '], row⟩

/-- A text that is read as one word, if nothing follows that could go on a word. -/
structure IsWord (s : String) : Prop where
  ne_nil : s.toList ≠ []
  head : ∀ c ∈ s.toList.head?, c.isDigit = false
  chars : ∀ c ∈ s.toList, isNameChar c = true

structure IsName (s : String) : Prop extends IsWord s where
  notKeyword : s.toList ∉ keywords

def EndsWord (rest : List Char) : Prop :=
  ∀ c ∈ rest.head?, isNameChar c = false

theorem isBlank_of_isNameChar {c : Char} (h : isNameChar c = true) : Text.isBlank c = false := by
  rw [isNameChar, Bool.or_eq_true, Bool.or_eq_true] at h
  rcases h with (h | h) | h
  · rw [Bool.eq_false_iff]
    intro hblank
    simp only [Char.isAlphanum, Char.isAlpha, Char.isUpper, Char.isLower, Char.isDigit, ge_iff_le,
      UInt32.le_iff_toNat_le, Bool.or_eq_true, Bool.and_eq_true, decide_eq_true_eq] at h
    change (65 ≤ c.toNat ∧ c.toNat ≤ 90 ∨ 97 ≤ c.toNat ∧ c.toNat ≤ 122) ∨
      48 ≤ c.toNat ∧ c.toNat ≤ 57 at h
    simp only [Text.isBlank, Bool.or_eq_true, Bool.and_eq_true, decide_eq_true_eq,
      beq_iff_eq] at hblank
    omega
  · rw [beq_iff_eq.1 h]
    decide
  · simp only [Bool.and_eq_true, Bool.not_eq_true'] at h
    exact h.2

theorem isNameChar_of_isBlank {c : Char} (h : Text.isBlank c = true) : isNameChar c = false := by
  rw [Bool.eq_false_iff]
  intro hname
  rw [isBlank_of_isNameChar hname] at h
  cases h

theorem tokenAt_word {c : Char} (h : isNameChar c = true) (hdigit : c.isDigit = false)
    (rest : List Char) : tokenAt c rest = (.word, (rest.takeWhile isNameChar).length) := by
  unfold tokenAt
  simp only [isBlank_of_isNameChar h, hdigit, h, Bool.false_eq_true, if_false, if_true]

theorem tokenAt_blank {c : Char} (h : Text.isBlank c = true) (rest : List Char) :
    tokenAt c rest = (.space, (rest.takeWhile Text.isBlank).length) := by
  unfold tokenAt
  exact if_pos h

/-- A word is one token, if nothing that could go on a word comes after it. -/
theorem tokensFrom_word {s : String} (hs : IsWord s) {rest : List Char} (hrest : EndsWord rest)
    (row : Nat) : tokensFrom row (s.toList ++ rest) = .ofWord row s :: tokensFrom row rest := by
  have hhead := hs.head
  have hchars := hs.chars
  cases hcs : s.toList with
  | nil => exact absurd hcs hs.ne_nil
  | cons c cs =>
    rw [hcs, List.forall_mem_cons] at hchars
    rw [hcs] at hhead
    have hat : tokenAt c (cs ++ rest) = (.word, cs.length) := by
      rw [tokenAt_word hchars.1 (hhead c rfl), Text.takeWhile_append_eq_left hchars.2 hrest]
    have hrow : (c :: cs).count '\n' = 0 := by
      rw [List.count_eq_zero]
      intro hmem
      have hname := hs.chars '\n' (by rwa [hcs])
      revert hname
      decide
    rw [List.cons_append, tokensFrom_cons hat, List.take_left, List.drop_left, hrow, Token.ofWord,
      hcs]
    rfl

theorem tokensFrom_symbol {c : Char} {rest : List Char} (h : tokenAt c rest = (.symbol, 0))
    (hc : c ≠ '\n') (row : Nat) : tokensFrom row (c :: rest)
      = .ofSymbol row (String.singleton c) :: tokensFrom row rest := by
  rw [tokensFrom_cons h, List.take_zero, List.drop_zero, List.count_singleton]
  simp [hc, Token.ofSymbol]

/-- A text with something in front that is not white space. -/
def StartsDark (cs : List Char) : Prop :=
  ∀ c ∈ cs.head?, Text.isBlank c = false

theorem startsDark_cons {c : Char} (h : Text.isBlank c = false) (cs : List Char) :
    StartsDark (c :: cs) := by
  simpa [StartsDark] using h

/-- White space is one token. -/
theorem tokensFrom_blank {gap rest : List Char} (hne : gap ≠ [])
    (hgap : ∀ c ∈ gap, Text.isBlank c = true) (hrest : StartsDark rest) (row : Nat) :
    tokensFrom row (gap ++ rest)
      = ⟨.space, gap, row⟩ :: tokensFrom (row + gap.count '\n') rest := by
  cases gap with
  | nil => exact absurd rfl hne
  | cons c gap =>
    rw [List.forall_mem_cons] at hgap
    have hat : tokenAt c (gap ++ rest) = (.space, gap.length) := by
      rw [tokenAt_blank hgap.1, Text.takeWhile_append_eq_left hgap.2 hrest]
    rw [List.cons_append, tokensFrom_cons hat, List.take_left, List.drop_left]

theorem tokensFrom_space {rest : List Char} (h : StartsDark rest) (row : Nat) :
    tokensFrom row (' ' :: rest) = .ofSpace row :: tokensFrom row rest := by
  have hblank : ∀ c ∈ [' '], Text.isBlank c = true := by simp [Text.isBlank]
  exact tokensFrom_blank (List.cons_ne_nil _ _) hblank h row

/-! ## Identifiers -/

def isLetter (c : Char) : Bool :=
  Text.isAlphabetic c || c == '_'

theorem isDigit_of_isLetter {c : Char} (h : isLetter c = true) : c.isDigit = false := by
  have hall : ∀ n < 0x80, isLetter (Char.ofNat n) = true → (Char.ofNat n).isDigit = false := by
    decide +kernel
  by_cases hlt : c.toNat < 0x80
  · rw [← Char.ofNat_toNat c] at h ⊢
    exact hall _ hlt h
  · rw [Bool.eq_false_iff]
    intro hdigit
    simp only [Char.isDigit, ge_iff_le, UInt32.le_iff_toNat_le, Bool.and_eq_true,
      decide_eq_true_eq] at hdigit
    change 48 ≤ c.toNat ∧ c.toNat ≤ 57 at hdigit
    omega

theorem isNameChar_of_isLetter {c : Char} (h : isLetter c = true ∨ Text.isDecimal c = true) :
    isNameChar c = true := by
  have hall : ∀ n < 0x80, isLetter (Char.ofNat n) = true ∨ Text.isDecimal (Char.ofNat n) = true →
      isNameChar (Char.ofNat n) = true := by decide +kernel
  by_cases hlt : c.toNat < 0x80
  · rw [← Char.ofNat_toNat c] at h ⊢
    exact hall _ hlt h
  · have hblank : Text.isBlank c = false := by
      simp only [isLetter, Bool.or_eq_true, beq_iff_eq] at h
      rcases h with (h | rfl) | h
      · exact Text.isBlank_eq_false_of_isAlphabetic h
      · decide
      · exact Text.isBlank_eq_false_of_isDecimal h
    simp [isNameChar, hblank, Nat.le_of_not_lt hlt]

/-- Whether a text is an identifier of the language: a letter and then letters and digits, but no
keyword. -/
def isIdentifier (s : String) : Bool :=
  s.toList.head?.any isLetter && s.toList.all (fun c => isLetter c || Text.isDecimal c) &&
    !keywords.contains s.toList

/-- **All identifiers are names.** -/
theorem isName_of_isIdentifier {s : String} (h : isIdentifier s = true) : IsName s := by
  simp only [isIdentifier, Bool.and_eq_true, Option.any_eq_true, List.all_eq_true, Bool.or_eq_true,
    Bool.not_eq_true', List.contains_eq_mem, decide_eq_false_iff_not] at h
  obtain ⟨⟨⟨c, hc, hletter⟩, hchars⟩, hkeyword⟩ := h
  refine ⟨⟨?_, ?_, fun c hc => isNameChar_of_isLetter (hchars c hc)⟩, hkeyword⟩
  · intro hnil
    simp [hnil] at hc
  · intro d hd
    obtain rfl : c = d := Option.some.inj (hc.symm.trans hd)
    exact isDigit_of_isLetter hletter

/-! ## Shapes -/

/-- A shape that a type can have which is made of names, pointers, slices and maps. -/
inductive Plain : Shape → Prop
  | name {name : String} (isName : IsName name) : Plain (.named none name)
  | member {package name : String} (isPackage : IsName package) (isName : IsName name) :
      Plain (.named (some package) name)
  | pointer {elem : Shape} (plain : Plain elem) : Plain (.pointer elem)
  | slice {elem : Shape} (plain : Plain elem) : Plain (.slice elem)
  | map {key value : Shape} (plainKey : Plain key) (plainValue : Plain value) :
      Plain (.map key value)

def shapeTokens (row : Nat) : Shape → List Token
  | .named none name => [.ofWord row name]
  | .named (some package) name => [.ofWord row package, .ofSymbol row ".", .ofWord row name]
  | .pointer elem => .ofSymbol row "*" :: shapeTokens row elem
  | .slice elem => .ofSymbol row "[" :: .ofSymbol row "]" :: shapeTokens row elem
  | .map key value =>
    .ofWord row "map" :: .ofSymbol row "[" :: shapeTokens row key ++
      .ofSymbol row "]" :: shapeTokens row value
  | .unsupported _ => []

theorem endsWord_cons {c : Char} (h : isNameChar c = false) (rest : List Char) :
    EndsWord (c :: rest) := by
  simpa [EndsWord] using h

theorem isWord_map : IsWord "map" where
  ne_nil := by simp
  head := by simp
  chars := by simp [isNameChar]

/-- A dot before a name is a symbol of its own. -/
theorem tokenAt_dot {s : String} (hs : IsWord s) (rest : List Char) :
    tokenAt '.' (s.toList ++ rest) = (.symbol, 0) := by
  have hchars := hs.chars
  cases hcs : s.toList with
  | nil => exact absurd hcs hs.ne_nil
  | cons c cs =>
    have hc : c ≠ '.' := by
      rintro rfl
      have hdot := hchars '.' (by simp [hcs])
      revert hdot
      decide
    rw [List.cons_append]
    unfold tokenAt
    split_ifs with hblank hdigit hname
    · exact absurd hblank (by decide)
    · exact absurd hdigit (by decide)
    · exact absurd hname (by decide)
    · split <;> simp_all

/-- **The text of a shape is cut into its tokens.** -/
theorem tokensFrom_shape {s : Shape} (hs : Plain s) {rest : List Char} (hrest : EndsWord rest)
    (row : Nat) :
    tokensFrom row (s.text.toList ++ rest) = shapeTokens row s ++ tokensFrom row rest := by
  induction hs generalizing rest with
  | name isName => exact tokensFrom_word isName.toIsWord hrest row
  | @member package name isPackage isName =>
    have hdot : EndsWord ('.' :: (name.toList ++ rest)) := endsWord_cons (by decide) _
    simp only [Shape.text, String.toList_append, List.append_assoc]
    show tokensFrom row (package.toList ++ '.' :: (name.toList ++ rest)) = _
    rw [tokensFrom_word isPackage.toIsWord hdot,
      tokensFrom_symbol (tokenAt_dot isName.toIsWord rest) (by decide),
      tokensFrom_word isName.toIsWord hrest]
    rfl
  | @pointer elem _ ih =>
    rw [Shape.text, String.toList_append, List.append_assoc]
    show tokensFrom row ('*' :: (elem.text.toList ++ rest)) = _
    rw [tokensFrom_symbol rfl (by decide), ih hrest]
    rfl
  | @slice elem _ ih =>
    rw [Shape.text, String.toList_append, List.append_assoc]
    show tokensFrom row ('[' :: ']' :: (elem.text.toList ++ rest)) = _
    rw [tokensFrom_symbol rfl (by decide), tokensFrom_symbol rfl (by decide), ih hrest]
    rfl
  | @map key value _ _ ihKey ihValue =>
    have hopen : EndsWord ('[' :: (key.text.toList ++ ']' :: (value.text.toList ++ rest))) :=
      endsWord_cons (by decide) _
    have hclose : EndsWord (']' :: (value.text.toList ++ rest)) := endsWord_cons (by decide) _
    simp only [Shape.text, String.toList_append, List.append_assoc]
    show tokensFrom row
      ("map".toList ++ '[' :: (key.text.toList ++ ']' :: (value.text.toList ++ rest))) = _
    rw [tokensFrom_word isWord_map hopen, tokensFrom_symbol rfl (by decide), ihKey hclose,
      tokensFrom_symbol rfl (by decide), ihValue hrest, shapeTokens]
    simp

end Wiring.Go
