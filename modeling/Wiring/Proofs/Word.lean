import Mathlib.Data.List.DropRight
import Wiring.Proofs.Text
import Wiring.Settings.Basic

/-!
# Words and the characters of names

White space shares no character with the classes that names, keys and markers are made of
(`isBlank_eq_false_of_isWord`, `isBlank_eq_false_of_isKeyChar`).  There are only twenty-five
characters of white space, so this is checked one character at a time.

Words that stand behind one another with white space between them are found again one after the
other: white space at the front is passed over (`words_cons_of_isBlank`), and a word ends where the
next white space is (`words_append`).
-/

namespace Wiring.Text

variable {c : Char} {s w l : List Char}

/-! ## White space and names -/

def blankCodes : List Nat :=
  [9, 10, 11, 12, 13, 0x20, 0x85, 0xA0, 0x1680, 0x2000, 0x2001, 0x2002, 0x2003, 0x2004, 0x2005,
    0x2006, 0x2007, 0x2008, 0x2009, 0x200A, 0x2028, 0x2029, 0x202F, 0x205F, 0x3000]

theorem mem_blankCodes (h : isBlank c = true) : c.toNat ∈ blankCodes := by
  simp only [isBlank, Bool.or_eq_true, Bool.and_eq_true, decide_eq_true_eq, beq_iff_eq] at h
  simp only [blankCodes, List.mem_cons, List.not_mem_nil, or_false]
  omega

/-- A class that has none of the code points of white space has no white space. -/
theorem isBlank_eq_false_of_holdsAt {changes : List Nat}
    (hnone : ∀ n ∈ blankCodes, holdsFrom n false changes = false) (h : holdsAt changes c = true) :
    isBlank c = false := by
  rw [Bool.eq_false_iff]
  intro hblank
  have hfalse : holdsAt changes c = false := hnone _ (mem_blankCodes hblank)
  rw [h] at hfalse
  cases hfalse

theorem isBlank_eq_false_of_isAlphabetic (h : isAlphabetic c = true) : isBlank c = false :=
  isBlank_eq_false_of_holdsAt (by decide +kernel) h

theorem isBlank_eq_false_of_isNumeric (h : isNumeric c = true) : isBlank c = false :=
  isBlank_eq_false_of_holdsAt (by decide +kernel) h

theorem isBlank_eq_false_of_isMark (h : isMark c = true) : isBlank c = false :=
  isBlank_eq_false_of_holdsAt (by decide +kernel) h

theorem isBlank_eq_false_of_isDecimal (h : isDecimal c = true) : isBlank c = false :=
  isBlank_eq_false_of_holdsAt (by decide +kernel) h

/-- **No character of words is white space.** -/
theorem isBlank_eq_false_of_isWord (h : isWord c = true) : isBlank c = false := by
  simp only [isWord, Bool.or_eq_true] at h
  rcases h with (((h | h) | h) | h) | h
  · exact isBlank_eq_false_of_isAlphabetic h
  · exact isBlank_eq_false_of_isMark h
  · exact isBlank_eq_false_of_isDecimal h
  · exact isBlank_eq_false_of_holdsAt (by decide) h
  · exact isBlank_eq_false_of_holdsAt (by decide) h

/-- **No character of keys is white space.** -/
theorem isBlank_eq_false_of_isKeyChar (h : isKeyChar c = true) : isBlank c = false := by
  simp only [isKeyChar, isAlphanumeric, Bool.or_eq_true, beq_iff_eq] at h
  rcases h with (h | h) | rfl
  · exact isBlank_eq_false_of_isAlphabetic h
  · exact isBlank_eq_false_of_isNumeric h
  · decide

theorem isBlank_eq_false_of_isMarkerChar (h : ParserSettings.isMarkerChar c = true) :
    isBlank c = false := by
  simp only [ParserSettings.isMarkerChar, Bool.or_eq_true, beq_iff_eq] at h
  rcases h with (h | rfl) | rfl
  · exact isBlank_eq_false_of_isKeyChar h
  · decide
  · decide

/-! ## Words -/

theorem words_cons_of_isBlank (hc : isBlank c = true) (s : List Char) :
    words (c :: s) = words s := by
  simp [words, List.splitOnP_cons_eq_if_modifyHead, hc]

/-- A word ends at the end of the text or at white space. -/
theorem words_append (hne : w ≠ []) (hw : ∀ c ∈ w, isBlank c = false)
    (hs : ∀ c ∈ s.head?, isBlank c = true) : words (w ++ s) = w :: words s := by
  cases s with
  | nil => simp [words, List.splitOnP_eq_singleton hw, hne]
  | cons c s =>
    have hc : isBlank c = true := hs c rfl
    rw [words_cons_of_isBlank hc, words, List.splitOnP_append_cons_of_forall_mem hw c hc,
      List.filter_cons_of_pos (by simpa using hne), words]

/-! ## Texts without white space at their ends -/

/-- Nothing is trimmed from a text that neither begins nor ends with white space. -/
theorem trim_eq_self (hhead : ∀ c ∈ l.head?, isBlank c = false)
    (hlast : ∀ c ∈ l.getLast?, isBlank c = false) : trim l = l :=
  trimEnds_eq_self hhead hlast

theorem trim_cons_of_isBlank (hc : isBlank c = true) (l : List Char) : trim (c :: l) = trim l := by
  rw [trim, trimWhile, List.dropWhile_cons_of_pos hc]
  rfl

theorem trim_concat_of_isBlank (hc : isBlank c = true) (l : List Char) :
    trim (l ++ [c]) = trim l := by
  rw [trim, trim, trimWhile_eq_trimEnds, trimWhile_eq_trimEnds, trimEnds, trimEnds]
  by_cases h : ∃ a ∈ l, isBlank a = false
  · rw [dropWhile_append_of_exists h, List.rdropWhile_concat_pos _ _ _ hc]
  · -- the text is nothing but white space
    have hall : ∀ a ∈ l, isBlank a = true := by simpa using h
    rw [List.dropWhile_append_of_pos hall, List.dropWhile_eq_nil_iff.2 hall,
      List.dropWhile_cons_of_pos hc, List.dropWhile_nil]

end Wiring.Text
