import Mathlib.Data.List.DropRight
import Wiring.Text.Basic

/-!
# Trimmed texts and texts in lines

`trimEnds` takes away what a list begins and ends with and keeps what stands between
(`mem_trimEnds_iff`).  A text made of lines that is trimmed at its line feeds is the text made of
the lines that are left when the empty ones at either end are gone (`trimEnds_intercalate`), and it
says what these lines are (`intercalate_inj`).

The pieces of a list between separators are told without splitting it: a piece has no separator in
it, and one or an end of the list on either side (`mem_splitOn_iff`).

A line is a text without line feeds, so it is its own only line, unless it is empty: then it has
none (`lines_of_notMem`).  This is why the lines of the lines of a text lack its empty lines
(`lines_linesOf`).
-/

namespace Wiring.Text

/-! ## What is left in the middle -/

section

variable {α β : Type} {q : α → Bool} {l : List α} {x : α}

/-- A list without the elements of `q` at either end. -/
def trimEnds (q : α → Bool) (l : List α) : List α :=
  (l.dropWhile q).rdropWhile q

theorem trimWhile_eq_trimEnds (p : Char → Bool) (s : List Char) :
    trimWhile p s = trimEnds p s := rfl

theorem rdropWhile_eq_self (h : ∀ a ∈ l.getLast?, q a = false) : l.rdropWhile q = l := by
  rw [List.rdropWhile_eq_self_iff]
  intro hl
  rw [h _ (List.getLast?_eq_some_getLast hl)]
  exact Bool.false_ne_true

/-- Nothing is taken away from a list that neither begins nor ends with an element of `q`. -/
theorem trimEnds_eq_self (hhead : ∀ a ∈ l.head?, q a = false)
    (hlast : ∀ a ∈ l.getLast?, q a = false) : trimEnds q l = l := by
  have hdrop : l.dropWhile q = l := by
    cases l with
    | nil => rfl
    | cons a rest => rw [List.dropWhile_cons, hhead a rfl]; rfl
  rw [trimEnds, hdrop]
  exact rdropWhile_eq_self hlast

theorem trimEnds_map (f : β → α) (l : List β) :
    trimEnds q (l.map f) = (trimEnds (q ∘ f) l).map f := by
  rw [trimEnds, List.dropWhile_map, List.rdropWhile, ← List.map_reverse, List.dropWhile_map,
    ← List.map_reverse]
  rfl

theorem trimEnds_filter (p : α → Bool) (l : List α) :
    trimEnds q (l.filter p) = (trimEnds (fun a => !p a || q a) l).filter p := by
  rw [trimEnds, List.dropWhile_filter, List.rdropWhile, ← List.filter_reverse,
    List.dropWhile_filter, ← List.filter_reverse]
  rfl

theorem trimEnds_subset (q : α → Bool) (l : List α) : trimEnds q l ⊆ l := fun _ ha =>
  List.dropWhile_subset _ ((List.rdropWhile_prefix _ _).subset ha)

theorem head?_trimEnds (h : x ∈ (trimEnds q l).head?) : q x = false := by
  obtain ⟨rest, hrest⟩ := List.rdropWhile_prefix q (l.dropWhile q)
  have hhead := List.head?_dropWhile_not q l
  rw [← hrest] at hhead
  cases hm : trimEnds q l with
  | nil =>
    rw [hm] at h
    cases h
  | cons a middle =>
    rw [hm] at h
    cases h
    have hdrop : (l.dropWhile q).rdropWhile q = x :: middle := hm
    rw [hdrop] at hhead
    exact hhead

theorem getLast?_trimEnds (h : x ∈ (trimEnds q l).getLast?) : q x = false := by
  have hne : trimEnds q l ≠ [] := by
    intro hnil
    rw [hnil] at h
    cases h
  have hlast := List.rdropWhile_last_not q (l.dropWhile q) hne
  rw [List.getLast?_eq_some_getLast hne] at h
  cases h
  exact Bool.eq_false_iff.2 hlast

/-- What is taken away at either end is of `q`. -/
theorem exists_trimEnds_eq (q : α → Bool) (l : List α) : ∃ before after,
    l = before ++ trimEnds q l ++ after ∧ (∀ a ∈ before, q a = true) ∧
      ∀ a ∈ after, q a = true := by
  refine ⟨l.takeWhile q, (l.dropWhile q).rtakeWhile q, ?_, ?_, ?_⟩
  · rw [List.append_assoc, trimEnds, List.rdropWhile_append_rtakeWhile,
      List.takeWhile_append_dropWhile]
  · intro a ha
    exact List.mem_takeWhile_imp ha
  · intro a ha
    exact List.mem_rtakeWhile_imp ha

/-- A run of elements of `q` ends where the next element is none of them. -/
theorem takeWhile_append_eq_left {rest : List α} (hl : ∀ a ∈ l, q a = true)
    (hrest : ∀ a ∈ rest.head?, q a = false) : (l ++ rest).takeWhile q = l := by
  rw [List.takeWhile_append_of_pos hl]
  cases rest with
  | nil => simp
  | cons a rest => simp [hrest a rfl]

theorem dropWhile_append_eq_right {rest : List α} (hl : ∀ a ∈ l, q a = true)
    (hrest : ∀ a ∈ rest.head?, q a = false) : (l ++ rest).dropWhile q = rest := by
  rw [List.dropWhile_append_of_pos hl]
  cases rest with
  | nil => rfl
  | cons a rest => simp [hrest a rfl]

theorem exists_of_dropWhile_eq (hx : q x = true) {before after : List α}
    (h : l.dropWhile q = before ++ x :: after) : ∃ a ∈ before, q a = false := by
  have hhead := List.head?_dropWhile_not q l
  rw [h] at hhead
  cases before with
  | nil =>
    have hfalse : q x = false := hhead
    rw [hx] at hfalse
    cases hfalse
  | cons a before => exact ⟨a, List.mem_cons_self, hhead⟩

theorem dropWhile_append_of_exists {before : List α} (h : ∃ a ∈ before, q a = false)
    (after : List α) : (before ++ after).dropWhile q = before.dropWhile q ++ after := by
  have hne : ¬ (before.dropWhile q).isEmpty = true := by
    rw [List.isEmpty_iff, List.dropWhile_eq_nil_iff]
    intro hall
    obtain ⟨a, ha, hfalse⟩ := h
    rw [hall a ha] at hfalse
    cases hfalse
  rw [List.dropWhile_append, if_neg hne]

theorem mem_dropWhile_iff (hx : q x = true) : x ∈ l.dropWhile q ↔ ∃ before after,
    l = before ++ x :: after ∧ ∃ a ∈ before, q a = false := by
  constructor
  · intro h
    obtain ⟨before, after, hsplit⟩ := List.append_of_mem h
    obtain ⟨a, ha, hqa⟩ := exists_of_dropWhile_eq hx hsplit
    refine ⟨l.takeWhile q ++ before, after, ?_, a, List.mem_append_right _ ha, hqa⟩
    rw [List.append_assoc, ← hsplit, List.takeWhile_append_dropWhile]
  · rintro ⟨before, after, rfl, hexists⟩
    rw [dropWhile_append_of_exists hexists]
    simp

theorem mem_rdropWhile_iff (hx : q x = true) : x ∈ l.rdropWhile q ↔ ∃ before after,
    l = before ++ x :: after ∧ ∃ b ∈ after, q b = false := by
  rw [List.rdropWhile, List.mem_reverse, mem_dropWhile_iff hx]
  constructor
  · rintro ⟨before, after, hsplit, b, hb, hqb⟩
    refine ⟨after.reverse, before.reverse, ?_, b, List.mem_reverse.2 hb, hqb⟩
    rw [← List.reverse_reverse l, hsplit]
    simp
  · rintro ⟨before, after, rfl, b, hb, hqb⟩
    exact ⟨after.reverse, before.reverse, by simp, b, List.mem_reverse.2 hb, hqb⟩

/-- An element of `q` is left if elements that are not of `q` stand before and after it. -/
theorem mem_trimEnds_iff (hx : q x = true) : x ∈ trimEnds q l ↔ ∃ before after,
    l = before ++ x :: after ∧ (∃ a ∈ before, q a = false) ∧ ∃ b ∈ after, q b = false := by
  rw [trimEnds, mem_rdropWhile_iff hx]
  constructor
  · rintro ⟨before, after, hsplit, hlast⟩
    obtain ⟨a, ha, hqa⟩ := exists_of_dropWhile_eq hx hsplit
    refine ⟨l.takeWhile q ++ before, after, ?_, ⟨a, List.mem_append_right _ ha, hqa⟩, hlast⟩
    rw [List.append_assoc, ← hsplit, List.takeWhile_append_dropWhile]
  · rintro ⟨before, after, rfl, hfirst, hlast⟩
    exact ⟨before.dropWhile q, after, dropWhile_append_of_exists hfirst _, hlast⟩

end

/-! ## Lines that are put together -/

section

variable {α : Type} {c : α} {L L' : List (List α)}

theorem intercalate_concat (hL : L ≠ []) (l : List α) :
    [c].intercalate (L ++ [l]) = [c].intercalate L ++ c :: l := by
  induction L with
  | nil => exact absurd rfl hL
  | cons a L ih =>
    cases L with
    | nil => simp [List.intercalate_cons_cons]
    | cons b L =>
      have hrest := ih (List.cons_ne_nil b L)
      rw [List.cons_append] at hrest
      rw [List.cons_append, List.cons_append, List.intercalate_cons_cons, hrest,
        List.intercalate_cons_cons]
      simp only [List.append_assoc]

theorem reverse_intercalate (L : List (List α)) :
    ([c].intercalate L).reverse = [c].intercalate (L.map List.reverse).reverse := by
  induction L with
  | nil => rfl
  | cons a L ih =>
    cases L with
    | nil => simp
    | cons b L =>
      rw [List.intercalate_cons_cons, List.map_cons, List.reverse_cons,
        intercalate_concat (by simp), ← ih]
      simp

variable [BEq α] [LawfulBEq α]

theorem dropWhile_intercalate (hL : ∀ l ∈ L, c ∉ l) :
    ([c].intercalate L).dropWhile (· == c) = [c].intercalate (L.dropWhile List.isEmpty) := by
  induction L with
  | nil => rfl
  | cons a L ih =>
    have hrest := ih fun l hl => hL l (List.mem_cons_of_mem a hl)
    cases a with
    | nil =>
      cases L with
      | nil => rfl
      | cons b L =>
        rw [List.intercalate_cons_cons, List.dropWhile_cons_of_pos List.isEmpty_nil, ← hrest]
        simp
    | cons d a =>
      have hd : d ≠ c := by
        rintro rfl
        exact hL _ List.mem_cons_self List.mem_cons_self
      have hnil : ¬ (d :: a).isEmpty = true := Bool.false_ne_true
      rw [List.dropWhile_cons_of_neg hnil]
      cases L with
      | nil => simp [hd]
      | cons b L => simp [List.intercalate_cons_cons, hd]

/-- **A text made of lines is trimmed by dropping the empty lines at its ends.** -/
theorem trimEnds_intercalate (hL : ∀ l ∈ L, c ∉ l) :
    trimEnds (· == c) ([c].intercalate L) = [c].intercalate (trimEnds List.isEmpty L) := by
  have hrev : ∀ l ∈ ((L.dropWhile List.isEmpty).map List.reverse).reverse, c ∉ l := by
    intro l hl
    obtain ⟨l', hl', rfl⟩ := List.mem_map.1 (List.mem_reverse.1 hl)
    exact fun hc => hL l' (List.dropWhile_subset _ hl') (List.mem_reverse.1 hc)
  have hmap : ∀ M : List (List α), (((M.map List.reverse).reverse.dropWhile List.isEmpty).map
      List.reverse).reverse = M.rdropWhile List.isEmpty := by
    intro M
    have hisEmpty : List.isEmpty ∘ List.reverse = (List.isEmpty : List α → Bool) := by
      funext l
      exact List.isEmpty_reverse
    have hreverse : (M.map List.reverse).reverse = M.reverse.map List.reverse :=
      List.map_reverse.symm
    rw [hreverse, List.dropWhile_map, hisEmpty, List.map_map, List.rdropWhile]
    simp
  rw [trimEnds, dropWhile_intercalate hL, List.rdropWhile, reverse_intercalate,
    dropWhile_intercalate hrev, reverse_intercalate, hmap]
  rfl

/-- Lines can be read off the text that is made of them. -/
theorem intercalate_inj (hL : ∀ l ∈ L, c ∉ l) (hL' : ∀ l ∈ L', c ∉ l) (hne : L ≠ [])
    (hne' : L' ≠ []) : [c].intercalate L = [c].intercalate L' ↔ L = L' := by
  constructor
  · intro h
    have hsplit := congrArg (List.splitOn c) h
    rwa [List.splitOn_intercalate c hL hne, List.splitOn_intercalate c hL' hne'] at hsplit
  · rintro rfl
    rfl

theorem notMem_of_mem_splitOn {s l : List α} (hl : l ∈ s.splitOn c) : c ∉ l := by
  induction s generalizing l with
  | nil =>
    rw [List.splitOn_nil, List.mem_singleton] at hl
    rw [hl]
    exact List.not_mem_nil
  | cons d s ih =>
    rw [List.splitOn_cons_eq_if_modifyHead] at hl
    by_cases hd : (d == c) = true
    · rw [if_pos hd] at hl
      rcases List.mem_cons.1 hl with rfl | hl
      · exact List.not_mem_nil
      · exact ih hl
    · rw [if_neg hd] at hl
      cases hs : s.splitOn c with
      | nil => exact absurd hs (List.splitOn_ne_nil c s)
      | cons first rest =>
        rw [hs, List.modifyHead_cons] at hl
        rw [hs] at ih
        rcases List.mem_cons.1 hl with rfl | hl
        · intro hc
          rcases List.mem_cons.1 hc with rfl | hc
          · exact hd BEq.rfl
          · exact ih List.mem_cons_self hc
        · exact ih (List.mem_cons_of_mem _ hl)

end

/-! ## Pieces between separators -/

section

variable {α : Type} {c : α} {s piece : List α}

/-- A part of a list with no `c` in it, and with a `c` or an end of the list on either side. -/
structure IsPiece (c : α) (s piece : List α) : Prop where
  notMem : c ∉ piece
  between : ∃ before after, s = before ++ piece ++ after ∧ (∀ a ∈ before.getLast?, a = c) ∧
    ∀ a ∈ after.head?, a = c

variable [BEq α] [LawfulBEq α]

theorem splitOn_append_cons (a b : List α) :
    (a ++ c :: b).splitOn c = a.splitOn c ++ b.splitOn c := by
  induction a with
  | nil =>
    rw [List.nil_append, List.splitOn_cons_eq_if_modifyHead, if_pos BEq.rfl, List.splitOn_nil]
    rfl
  | cons d a ih =>
    rw [List.cons_append, List.splitOn_cons_eq_if_modifyHead, ih,
      List.splitOn_cons_eq_if_modifyHead]
    split
    · rfl
    · cases ha : a.splitOn c with
      | nil => exact absurd ha (List.splitOn_ne_nil c a)
      | cons first rest => rfl

theorem IsPiece.mem_splitOn (h : IsPiece c s piece) : piece ∈ s.splitOn c := by
  obtain ⟨before, after, rfl, hbefore, hafter⟩ := h.between
  -- a piece at the front is the first one, whatever follows it
  have hfront : piece ∈ (piece ++ after).splitOn c := by
    cases after with
    | nil =>
      rw [List.append_nil, List.splitOn_eq_singleton h.notMem]
      exact List.mem_singleton_self piece
    | cons d after =>
      obtain rfl : d = c := hafter d rfl
      rw [splitOn_append_cons, List.splitOn_eq_singleton h.notMem]
      exact List.mem_cons_self
  rw [List.append_assoc]
  rcases List.eq_nil_or_concat before with rfl | ⟨before', d, rfl⟩
  · exact hfront
  · obtain rfl : d = c := hbefore d (by simp)
    rw [List.concat_eq_append, List.append_assoc, List.singleton_append, splitOn_append_cons]
    exact List.mem_append_right _ hfront

theorem isPiece_of_mem_splitOn (h : piece ∈ s.splitOn c) : IsPiece c s piece := by
  refine ⟨notMem_of_mem_splitOn h, ?_⟩
  induction hn : s.length using Nat.strong_induction_on generalizing s with
  | _ n ih =>
    by_cases hc : c ∈ s
    · -- the first piece ends at the first `c`, and the others are those of what follows
      obtain ⟨first, rest, rfl, hfirst⟩ := List.eq_append_cons_of_mem hc
      rw [splitOn_append_cons, List.splitOn_eq_singleton hfirst, List.singleton_append,
        List.mem_cons] at h
      rcases h with rfl | h
      · exact ⟨[], c :: rest, rfl, by simp, by simp⟩
      · have hlt : rest.length < n := by
          rw [← hn, List.length_append, List.length_cons]
          omega
        obtain ⟨before, after, rfl, hbefore, hafter⟩ := ih rest.length hlt h rfl
        refine ⟨first ++ c :: before, after, by simp, ?_, hafter⟩
        intro a ha
        cases before with
        | nil => simpa [eq_comm] using ha
        | cons d before =>
          apply hbefore a
          simpa using ha
    · rw [List.splitOn_eq_singleton hc, List.mem_singleton] at h
      exact ⟨[], [], by simp [h], by simp, by simp⟩

/-- **Splitting finds the pieces between the separators.** -/
theorem mem_splitOn_iff : piece ∈ s.splitOn c ↔ IsPiece c s piece :=
  ⟨isPiece_of_mem_splitOn, IsPiece.mem_splitOn⟩

end

/-! ## Lines of lines -/

variable {s l : List Char}

theorem dropReturn_subset (l : List Char) : dropReturn l ⊆ l := by
  rw [dropReturn]
  split
  · exact List.dropLast_subset l
  · exact List.Subset.refl l

theorem newline_notMem_of_mem_linesOfPieces {pieces : List (List Char)}
    (hp : ∀ p ∈ pieces, '\n' ∉ p) (hl : l ∈ linesOfPieces pieces) : '\n' ∉ l := by
  induction pieces with
  | nil => cases hl
  | cons p pieces ih =>
    cases pieces with
    | nil =>
      rw [linesOfPieces] at hl
      split at hl
      · cases hl
      · rw [List.mem_singleton.1 hl]
        exact hp p List.mem_cons_self
    | cons p' pieces =>
      rw [linesOfPieces] at hl
      rcases List.mem_cons.1 hl with rfl | hl
      · exact fun hc => hp p List.mem_cons_self (dropReturn_subset p hc)
      · exact ih (fun p hp' => hp p (List.mem_cons_of_mem _ hp')) hl
      · simp

/-- A line has no line feed in it. -/
theorem newline_notMem_of_mem_lines (hl : l ∈ lines s) : '\n' ∉ l :=
  newline_notMem_of_mem_linesOfPieces (fun _ hp => notMem_of_mem_splitOn hp) hl

/-- **A text without line feeds is its own only line, or has none.** -/
theorem lines_of_notMem (hl : '\n' ∉ l) : lines l = if l.isEmpty then [] else [l] := by
  rw [lines, List.splitOn_eq_singleton hl, linesOfPieces]

/-- A text that is not empty has a line. -/
theorem lines_ne_nil (h : s ≠ []) : lines s ≠ [] := by
  intro hnil
  have hjoin : ['\n'].intercalate (s.splitOn '\n') = s := List.intercalate_splitOn '\n'
  rw [lines] at hnil
  cases hpieces : s.splitOn '\n' with
  | nil =>
    rw [hpieces] at hjoin
    exact h hjoin.symm
  | cons piece rest =>
    rw [hpieces] at hnil hjoin
    cases rest with
    | nil =>
      rw [linesOfPieces] at hnil
      split at hnil
      · next hempty =>
        rw [List.isEmpty_iff.1 hempty] at hjoin
        exact h hjoin.symm
      · cases hnil
    | cons piece' rest => cases hnil

/-- The lines of the lines of a text are those that are not empty. -/
theorem lines_linesOf (s : String) : ((linesOf s).flatMap fun l => lines l.toList)
    = (lines s.toList).filter (!·.isEmpty) := by
  have hlines : ∀ ls : List (List Char), (∀ l ∈ ls, '\n' ∉ l) →
      ((ls.map String.ofList).flatMap fun l => lines l.toList) = ls.filter (!·.isEmpty) := by
    intro ls hls
    induction ls with
    | nil => rfl
    | cons l ls ih =>
      rw [List.map_cons, List.flatMap_cons, ih fun l hl => hls l (List.mem_cons_of_mem _ hl),
        String.toList_ofList, lines_of_notMem (hls l List.mem_cons_self)]
      cases l <;> rfl
  exact hlines _ fun l hl => newline_notMem_of_mem_lines hl

end Wiring.Text
