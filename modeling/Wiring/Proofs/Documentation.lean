import Mathlib
import Wiring.Proofs.Comment
import Wiring.Proofs.Dict

/-!
# Text and directives share the lines

Every line of a comment is a directive or part of the text, and never both.
`ofComments_partition` says what becomes of the two sorts.  The text is made of the lines that are
no directives, in their order; only the empty ones at its two ends are missing (`joins_textOf`).
Under a name stands the last directive of this name, as its line has it
(`get?_directivesOf_eq_some_iff`).

Both are read off the lines without their marks.  The lines of two comments in a row are those of
the one and then those of the other, so the later comment hides what it names again
(`get?_directivesOf_append`); and directives that are put between lines add nothing to the text
(`textOf_eq_of_inserted`).
-/

namespace Wiring.Documentation

variable {marker : List Char} {ls ms : List (List Char)} {a b : List String} {name : String}
  {d : Directive}

/-! ## Lines -/

/-- The lines of comments as they were written. -/
def rawLines (comments : List String) : List (List Char) :=
  comments.flatMap fun c => Text.lines c.toList

theorem linesOf_eq (comments : List String) : linesOf comments = (rawLines comments).map sanitize :=
  rfl

theorem linesOf_append (a b : List String) : linesOf (a ++ b) = linesOf a ++ linesOf b := by
  simp [linesOf]

theorem newline_notMem_of_mem_linesOf {l : List Char} (hl : l ∈ linesOf a) : '\n' ∉ l := by
  obtain ⟨raw, hraw, rfl⟩ := List.mem_map.1 hl
  obtain ⟨c, -, hc⟩ := List.mem_flatMap.1 hraw
  intro hmem
  exact Text.newline_notMem_of_mem_lines hc (sanitize_subset raw hmem)

/-! ## The text -/

/-- Lines joined by line feeds, without the empty ones at either end. -/
def Joins (lines : List (List Char)) (text : String) : Prop :=
  ∃ before middle after, lines = before ++ middle ++ after ∧ (∀ l ∈ before, l = []) ∧
    (∀ l ∈ after, l = []) ∧ (∀ l ∈ middle.head?, l ≠ []) ∧ (∀ l ∈ middle.getLast?, l ≠ []) ∧
    text = String.ofList (['\n'].intercalate middle)

theorem joins_trimEnds (ls : List (List Char)) :
    Joins ls (String.ofList (['\n'].intercalate (Text.trimEnds List.isEmpty ls))) := by
  obtain ⟨before, after, hsplit, hbefore, hafter⟩ := Text.exists_trimEnds_eq List.isEmpty ls
  refine ⟨before, Text.trimEnds List.isEmpty ls, after, hsplit, ?_, ?_, ?_, ?_, rfl⟩
  · intro l hl
    exact List.isEmpty_iff.1 (hbefore l hl)
  · intro l hl
    exact List.isEmpty_iff.1 (hafter l hl)
  · intro l hl
    exact List.isEmpty_eq_false_iff.1 (Text.head?_trimEnds hl)
  · intro l hl
    exact List.isEmpty_eq_false_iff.1 (Text.getLast?_trimEnds hl)

/-- **The text is made of the plain lines**, and only empty lines at its ends are dropped. -/
theorem joins_textOf (hls : ∀ l ∈ ls, '\n' ∉ l) :
    Joins (ls.filter fun l => (Directive.ofLine? marker l).isNone) (textOf marker ls) := by
  have hplain : ∀ l ∈ ls.filter fun l => (Directive.ofLine? marker l).isNone, '\n' ∉ l := by
    intro l hl
    exact hls l (List.mem_of_mem_filter hl)
  rw [textOf, Text.trimWhile_eq_trimEnds, Text.trimEnds_intercalate hplain]
  exact joins_trimEnds _

/-! ## The directives -/

/-- `d` is what the last of the lines with a directive of this name says. -/
def LastNamed (marker : List Char) (lines : List (List Char)) (name : String) (d : Directive) :
    Prop :=
  ∃ before l after, lines = before ++ l :: after ∧ Directive.ofLine? marker l = some d ∧
    d.name = name ∧ ∀ l' ∈ after, ∀ d', Directive.ofLine? marker l' = some d' → d'.name ≠ name

/-- **Under a name stands the last directive of this name**, as its line has it. -/
theorem get?_directivesOf_eq_some_iff :
    (directivesOf marker ls).get? name = some d ↔ LastNamed marker ls name d := by
  have hone : ∀ (l : List Char) (d : Directive),
      (Directive.ofLine? marker l).map (fun d => (d.name, d)) = some (name, d) ↔
        Directive.ofLine? marker l = some d ∧ d.name = name := by
    intro l d
    rw [Option.map_eq_some_iff]
    constructor
    · rintro ⟨d, hd, hentry⟩
      cases hentry
      exact ⟨hd, rfl⟩
    · rintro ⟨hd, rfl⟩
      exact ⟨d, hd, rfl⟩
  rw [directivesOf, List.map_filterMap, Dict.get?_ofList_filterMap_eq_some_iff]
  simp only [ne_eq, hone, not_and, LastNamed, and_assoc]

theorem get?_directivesOf_append (ls ms : List (List Char)) :
    (directivesOf marker (ls ++ ms)).get? name
      = ((directivesOf marker ms).get? name).or ((directivesOf marker ls).get? name) := by
  rw [directivesOf, List.filterMap_append, List.map_append, Dict.get?_ofList_append, directivesOf,
    directivesOf]

/-! ## Lines between lines -/

/-- The second list is the first with elements of `p` put in anywhere. -/
inductive Inserted {α : Type} (p : α → Prop) : List α → List α → Prop
  | nil : Inserted p [] []
  | keep (x : α) {l l' : List α} (h : Inserted p l l') : Inserted p (x :: l) (x :: l')
  | put {x : α} {l l' : List α} (hx : p x) (h : Inserted p l l') : Inserted p l (x :: l')

namespace Inserted

variable {α : Type} {p : α → Prop} {l l' : List α} {x : α}

theorem refl (l : List α) : Inserted p l l := by
  induction l with
  | nil => exact .nil
  | cons x l ih => exact ih.keep x

/-- One element can be put in at any place. -/
theorem between (hx : p x) (before after : List α) :
    Inserted p (before ++ after) (before ++ x :: after) := by
  induction before with
  | nil => exact .put hx (refl after)
  | cons y before ih => exact ih.keep y

theorem filter_eq {q : α → Bool} (h : Inserted p l l') (hq : ∀ x, p x → q x = false) :
    l'.filter q = l.filter q := by
  induction h with
  | nil => rfl
  | keep x h ih => rw [List.filter_cons, List.filter_cons, ih]
  | put hx h ih => rw [List.filter_cons, hq _ hx, ih]; rfl

end Inserted

/-- **Directives that are put between the lines leave the text as it is.** -/
theorem textOf_eq_of_inserted
    (h : Inserted (fun l => (Directive.ofLine? marker l).isSome = true) ls ms) :
    textOf marker ms = textOf marker ls := by
  have hplain := h.filter_eq (q := fun l => (Directive.ofLine? marker l).isNone) (by
    intro l hl
    rw [Option.isNone_eq_false_iff]
    exact hl)
  rw [textOf, textOf, hplain]

/-! ## Comments -/

/-- **Text and directives share the lines of a comment.**  The text is made of the lines that are no
directives, the last directive of a name counts as a whole, a later comment hides the directives of
an earlier one that it names again, and directives can be put in anywhere without a change of the
text. -/
theorem ofComments_partition (marker : String) :
    (∀ a, Joins ((linesOf a).filter fun l => (Directive.ofLine? marker.toList l).isNone)
      (ofComments marker a).text) ∧
    (∀ a name d, (ofComments marker a).directives.get? name = some d ↔
      LastNamed marker.toList (linesOf a) name d) ∧
    (∀ a b name, (ofComments marker (a ++ b)).directives.get? name
      = ((ofComments marker b).directives.get? name).or
          ((ofComments marker a).directives.get? name)) ∧
    ∀ a b, Inserted (fun l => (Directive.ofLine? marker.toList l).isSome = true) (linesOf a)
        (linesOf b) → (ofComments marker b).text = (ofComments marker a).text := by
  refine ⟨?_, ?_, ?_, ?_⟩
  · intro a
    apply joins_textOf
    intro l hl
    exact newline_notMem_of_mem_linesOf hl
  · intro a name d
    exact get?_directivesOf_eq_some_iff
  · intro a b name
    show (directivesOf _ (linesOf (a ++ b))).get? name = _
    rw [linesOf_append]
    exact get?_directivesOf_append _ _
  · intro a b h
    exact textOf_eq_of_inserted h

/-- A text of two paragraphs. -/
def prose : List String :=
  ["// Makes a user.", "//\n//", "// with care"]

/-- The same text with two directives in it, one of them at the head of a block. -/
def marked : List String :=
  ["// Makes a user.", "//ease:api path=/old auth=yes", "//", "/* ease:tag k=v\n\n * with care */"]

set_option maxRecDepth 8000 in
theorem partition_marked :
    Inserted (fun l => (Directive.ofLine? "ease".toList l).isSome = true) (linesOf prose)
      (linesOf marked) ∧
    (ofComments "ease" marked).text = (ofComments "ease" prose).text ∧
    (ofComments "ease" prose).text = "Makes a user.\n\n\nwith care" ∧
    (∃ d, LastNamed "ease".toList (linesOf (marked ++ ["// ease:api path=/new"])) "api" d ∧
      d.params.entries = [("path", "/new")]) ∧
    (ofComments "ease" (marked ++ ["// ease:api path=/new"])).directives.get? "tag"
      = (ofComments "ease" marked).directives.get? "tag" := by
  obtain ⟨-, hlast, happend, htext⟩ := ofComments_partition "ease"
  have hprose : linesOf prose = ["Makes a user.".toList, [], [], "with care".toList] := by cbv
  have hmarked : linesOf marked = ["Makes a user.".toList, "ease:api path=/old auth=yes".toList,
      [], "ease:tag k=v".toList, [], "with care".toList] := by cbv
  have hapi : (Directive.ofLine? "ease".toList
      "ease:api path=/old auth=yes".toList).isSome = true := by cbv
  have htag : (Directive.ofLine? "ease".toList "ease:tag k=v".toList).isSome = true := by cbv
  have hinserted : Inserted (fun l => (Directive.ofLine? "ease".toList l).isSome = true)
      (linesOf prose) (linesOf marked) := by
    rw [hprose, hmarked]
    exact .keep _ (.put hapi (.keep _ (.put htag (.keep _ (.keep _ .nil)))))
  have hnew : ((ofComments "ease" (marked ++ ["// ease:api path=/new"])).directives.get? "api").map
      (·.params.entries) = some [("path", "/new")] := by cbv
  obtain ⟨d, hd, hentries⟩ := Option.map_eq_some_iff.1 hnew
  have hnone : (ofComments "ease" ["// ease:api path=/new"]).directives.get? "tag" = none := by cbv
  refine ⟨hinserted, htext _ _ hinserted, by cbv, ⟨d, (hlast _ _ _).1 hd, hentries⟩, ?_⟩
  rw [happend, hnone, Option.none_or]

end Wiring.Documentation
