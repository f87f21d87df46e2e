import Wiring.Proofs.Word

/-!
# What trimming takes away

Trimming takes nothing away exactly if neither end is of the class (`trimEnds_eq_self_iff`), and
otherwise the text gets shorter (`length_trimEnds_lt`).  Whatever of the class is put around a text
that is trimmed already comes off again (`trimEnds_append_append`).
-/

namespace Wiring.Text

section

variable {α : Type} {q : α → Bool} {l : List α}

theorem trimEnds_eq_self_iff : trimEnds q l = l ↔
    (∀ a ∈ l.head?, q a = false) ∧ ∀ a ∈ l.getLast?, q a = false := by
  constructor
  · intro h
    refine ⟨fun a ha => head?_trimEnds (q := q) (l := l) ?_,
      fun a ha => getLast?_trimEnds (q := q) (l := l) ?_⟩
    · rwa [h]
    · rwa [h]
  · rintro ⟨hhead, hlast⟩
    exact trimEnds_eq_self hhead hlast

theorem length_trimEnds_le (q : α → Bool) (l : List α) : (trimEnds q l).length ≤ l.length := by
  obtain ⟨before, after, hsplit, -, -⟩ := exists_trimEnds_eq q l
  have hlength := congrArg List.length hsplit
  simp only [List.length_append] at hlength
  omega

/-- What is taken away makes the list shorter. -/
theorem length_trimEnds_lt (h : trimEnds q l ≠ l) : (trimEnds q l).length < l.length := by
  obtain ⟨before, after, hsplit, -, -⟩ := exists_trimEnds_eq q l
  have hlength := congrArg List.length hsplit
  simp only [List.length_append] at hlength
  by_contra hle
  obtain rfl : before = [] := List.length_eq_zero_iff.1 (by omega)
  obtain rfl : after = [] := List.length_eq_zero_iff.1 (by omega)
  rw [List.append_nil, List.nil_append] at hsplit
  exact h hsplit.symm

/-- What is of `q` around a trimmed list is taken away. -/
theorem trimEnds_append_append {before after : List α} (hbefore : ∀ a ∈ before, q a = true)
    (hafter : ∀ a ∈ after, q a = true) (hl : trimEnds q l = l) :
    trimEnds q (before ++ l ++ after) = l := by
  rw [List.append_assoc, trimEnds, List.dropWhile_append_of_pos hbefore]
  cases l with
  | nil =>
    rw [List.nil_append, List.dropWhile_eq_nil_iff.2 hafter]
    rfl
  | cons a l =>
    obtain ⟨hhead, hlast⟩ := trimEnds_eq_self_iff.1 hl
    have hdrop : (a :: l ++ after).dropWhile q = a :: l ++ after := by
      rw [List.cons_append, List.dropWhile_cons_of_neg]
      rw [hhead a rfl]
      exact Bool.false_ne_true
    have hreverse : ∀ b ∈ after.reverse, q b = true := fun b hb =>
      hafter b (List.mem_reverse.1 hb)
    rw [hdrop, List.rdropWhile, List.reverse_append, List.dropWhile_append_of_pos hreverse]
    exact rdropWhile_eq_self hlast

end

variable {s : List Char}

/-- A text neither begins nor ends with white space. -/
structure Tight (s : List Char) : Prop where
  head : ∀ c ∈ s.head?, isBlank c = false
  last : ∀ c ∈ s.getLast?, isBlank c = false

theorem trim_eq_self_iff : trim s = s ↔ Tight s := by
  rw [trim, trimWhile_eq_trimEnds, trimEnds_eq_self_iff]
  exact ⟨fun h => ⟨h.1, h.2⟩, fun h => ⟨h.head, h.last⟩⟩

theorem tight_trim (s : List Char) : Tight (trim s) :=
  ⟨fun _ => head?_trimEnds, fun _ => getLast?_trimEnds⟩

/-- White space around a text that has none at its ends. -/
theorem trim_append_append {before after : List Char} (hbefore : ∀ c ∈ before, isBlank c = true)
    (hafter : ∀ c ∈ after, isBlank c = true) (hs : Tight s) : trim (before ++ s ++ after) = s := by
  rw [trim, trimWhile_eq_trimEnds]
  exact trimEnds_append_append hbefore hafter (trim_eq_self_iff.2 hs)

end Wiring.Text
