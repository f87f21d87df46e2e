import Mathlib
import Wiring.Comment.Documentation
import Wiring.Proofs.Text
import Wiring.Settings.Basic

/-!
# Comments that are kept in lines

A comment can be kept as it stands or as the list of its lines.  Reading the lines again drops those
that are empty, since an empty text has no line.  Such a line holds no directive, so the directives
are the same, and as the text is trimmed, so is the text unless an empty line parts two lines that
`tells` finds in it (`ofComments_linesOf`).
-/

namespace Wiring.Documentation

variable {marker l : List Char} {ls : List (List Char)}

def plain (marker line : List Char) : Bool :=
  (Directive.ofLine? marker (sanitize line)).isNone

/-- Whether a line is part of the text and not empty there. -/
def tells (marker line : List Char) : Bool :=
  plain marker line && !(sanitize line).isEmpty

/-! ## Empty lines -/

theorem ofLine?_nil (marker : List Char) : Directive.ofLine? marker [] = none := by
  cases marker <;> rfl

theorem plain_nil (marker : List Char) : plain marker [] = true := by
  rw [plain]
  exact Option.isNone_iff_eq_none.2 (ofLine?_nil marker)

theorem not_tells_nil (marker : List Char) : tells marker [] = false := by
  rw [tells, plain_nil]
  rfl

/-! ## The text of lines -/

theorem trim_subset (l : List Char) : Text.trim l ⊆ l := by
  intro c hc
  have hdrop : c ∈ l.dropWhile Text.isBlank := by
    have h := List.dropWhile_subset _ (List.mem_reverse.1 hc)
    exact List.mem_reverse.1 h
  exact List.dropWhile_subset _ hdrop

theorem getD_isPrefixOf?_subset (p l : List Char) : (p.isPrefixOf? l).getD l ⊆ l := by
  cases h : p.isPrefixOf? l with
  | none => exact List.Subset.refl l
  | some rest =>
    obtain rfl := List.append_eq_of_isPrefixOf?_eq_some h
    exact List.subset_append_right p rest

theorem getD_isSuffixOf?_subset (p l : List Char) : (p.isSuffixOf? l).getD l ⊆ l := by
  cases h : p.isSuffixOf? l with
  | none => exact List.Subset.refl l
  | some rest =>
    obtain rfl := List.append_eq_of_isSuffixOf?_eq_some h
    exact List.subset_append_left rest p

theorem blockBody_subset (l : List Char) : blockBody l ⊆ l := by
  have hopened := getD_isPrefixOf?_subset ['/', '*'] l
  have hclosed := getD_isSuffixOf?_subset ['*', '/'] ((['/', '*'].isPrefixOf? l).getD l)
  have hbody := getD_isPrefixOf?_subset ['*']
    (((['*', '/'].isSuffixOf? ((['/', '*'].isPrefixOf? l).getD l)).getD
      ((['/', '*'].isPrefixOf? l).getD l)).dropWhile Text.isBlank)
  exact fun c hc => hopened (hclosed (List.dropWhile_subset _ (hbody hc)))

/-- What is left of a line when its marks are gone is part of the line. -/
theorem sanitize_subset (l : List Char) : sanitize l ⊆ l := by
  intro c hc
  have hbody : c ∈ (['/', '/'].isPrefixOf? (Text.trim l)).getD (blockBody (Text.trim l)) :=
    trim_subset _ hc
  cases h : ['/', '/'].isPrefixOf? (Text.trim l) with
  | none =>
    rw [h] at hbody
    exact trim_subset l (blockBody_subset _ hbody)
  | some rest =>
    rw [h] at hbody
    have hsplit := List.append_eq_of_isPrefixOf?_eq_some h
    exact trim_subset l (hsplit ▸ List.mem_append_right _ hbody)

/-- The text of lines comes from those between the first and the last that `tells` finds. -/
theorem textOf_map_sanitize (hls : ∀ l ∈ ls, '\n' ∉ l) : textOf marker (ls.map sanitize)
    = String.ofList (['\n'].intercalate
        (((Text.trimEnds (fun l => !tells marker l) ls).filter (plain marker)).map sanitize)) := by
  have hfilter : (ls.map sanitize).filter (fun l => (Directive.ofLine? marker l).isNone)
      = (ls.filter (plain marker)).map sanitize := List.filter_map
  have hplain : ∀ l ∈ (ls.filter (plain marker)).map sanitize, '\n' ∉ l := by
    intro l hl
    obtain ⟨l', hl', rfl⟩ := List.mem_map.1 hl
    exact fun hc => hls l' (List.mem_of_mem_filter hl') (sanitize_subset l' hc)
  have htells : (fun l => !plain marker l || (List.isEmpty ∘ sanitize) l)
      = fun l => !tells marker l := by
    funext l
    simp [tells]
  rw [textOf, hfilter, Text.trimWhile_eq_trimEnds, Text.trimEnds_intercalate hplain,
    Text.trimEnds_map, Text.trimEnds_filter, htells]

/-! ## Lines that are read again -/

theorem trimEnds_filter_isEmpty (ls : List (List Char)) :
    Text.trimEnds (fun l => !tells marker l) (ls.filter (!·.isEmpty))
      = (Text.trimEnds (fun l => !tells marker l) ls).filter (!·.isEmpty) := by
  have htells : (fun l : List Char => !(!l.isEmpty) || !tells marker l)
      = fun l => !tells marker l := by
    funext l
    cases l with
    | nil => simp [not_tells_nil]
    | cons c l => rfl
  rw [Text.trimEnds_filter, htells]

/-- Lines of which the first is part of the text say the same without their empty lines exactly if
none of them is empty. -/
theorem intercalate_filter_eq_iff (hls : ∀ l ∈ ls, '\n' ∉ l)
    (hhead : ∀ l ∈ ls.head?, tells marker l) :
    ['\n'].intercalate (((ls.filter (!·.isEmpty)).filter (plain marker)).map sanitize)
      = ['\n'].intercalate ((ls.filter (plain marker)).map sanitize) ↔ [] ∉ ls := by
  cases ls with
  | nil => simp
  | cons l ls =>
    have htells : tells marker l := hhead l rfl
    have hne : l ≠ [] := by
      rintro rfl
      rw [not_tells_nil] at htells
      cases htells
    have hplain : plain marker l = true := by
      rw [tells, Bool.and_eq_true] at htells
      exact htells.1
    have hnewline : ∀ ms ⊆ l :: ls, ∀ m ∈ ms.map sanitize, '\n' ∉ m := by
      intro ms hms m hm
      obtain ⟨m', hm', rfl⟩ := List.mem_map.1 hm
      exact fun hc => hls m' (hms hm') (sanitize_subset m' hc)
    have hplains : (l :: ls).filter (plain marker) ⊆ l :: ls := fun m hm =>
      List.mem_of_mem_filter hm
    have hkept : ((l :: ls).filter (plain marker)).filter (!·.isEmpty) ⊆ l :: ls := fun m hm =>
      hplains (List.mem_of_mem_filter hm)
    have hmem : l ∈ ((l :: ls).filter (plain marker)).filter (!·.isEmpty) := by
      simp [hplain, hne]
    have hnonempty := List.ne_nil_of_mem (List.mem_map_of_mem (f := sanitize) hmem)
    have hnonempty' := List.ne_nil_of_mem
      (List.mem_map_of_mem (f := sanitize) (List.mem_of_mem_filter hmem))
    rw [List.filter_comm, Text.intercalate_inj (hnewline _ hkept) (hnewline _ hplains) hnonempty
      hnonempty']
    constructor
    · -- equal lists are equally long, so no line was taken away
      intro heq hmem
      have hlength := congrArg List.length heq
      rw [List.length_map, List.length_map, List.length_filter_eq_length_iff] at hlength
      have hnil := hlength [] (List.mem_filter.2 ⟨hmem, plain_nil marker⟩)
      cases hnil
    · intro hmem
      congr 1
      rw [List.filter_eq_self]
      intro m hm
      cases m with
      | nil => exact absurd (List.mem_of_mem_filter hm) hmem
      | cons c m => rfl

theorem directivesOf_filter_isEmpty (marker : List Char) (ls : List (List Char)) :
    directivesOf marker ((ls.filter (!·.isEmpty)).map sanitize)
      = directivesOf marker (ls.map sanitize) := by
  rw [directivesOf, directivesOf, List.filterMap_map, List.filterMap_map, List.filterMap_filter]
  congr 2
  refine List.filterMap_congr fun l _ => ?_
  cases l with
  | nil => exact (ofLine?_nil marker).symm
  | cons c l => rfl

/-- **A comment that is kept in lines has the directives of the comment**, and its text, except that
an empty line within the text is lost. -/
theorem ofComments_linesOf (marker s : String) :
    (ofComments marker (Text.linesOf s)).directives = (ofComments marker [s]).directives ∧
      ((ofComments marker (Text.linesOf s)).text = (ofComments marker [s]).text ↔
        ¬ ∃ before after, Text.lines s.toList = before ++ [] :: after ∧
          (∃ l ∈ before, tells marker.toList l) ∧ ∃ l ∈ after, tells marker.toList l) := by
  have hnewline : ∀ l ∈ Text.lines s.toList, '\n' ∉ l := fun l hl =>
    Text.newline_notMem_of_mem_lines hl
  have hlines : linesOf (Text.linesOf s)
      = ((Text.lines s.toList).filter (!·.isEmpty)).map sanitize := by
    rw [linesOf, Text.lines_linesOf]
  have hwhole : linesOf [s] = (Text.lines s.toList).map sanitize := by
    rw [linesOf, List.flatMap_singleton]
  constructor
  · change directivesOf _ (linesOf _) = directivesOf _ (linesOf _)
    rw [hlines, hwhole, directivesOf_filter_isEmpty]
  · change textOf _ (linesOf _) = textOf _ (linesOf _) ↔ _
    rw [hlines, hwhole, textOf_map_sanitize hnewline, textOf_map_sanitize fun l hl =>
      hnewline l (List.mem_of_mem_filter hl), String.ofList_inj, trimEnds_filter_isEmpty,
      intercalate_filter_eq_iff (fun l hl => hnewline l (Text.trimEnds_subset _ _ hl)) ?_,
      Text.mem_trimEnds_iff]
    · simp
    · rw [not_tells_nil]
      rfl
    · intro l hl
      have htells := Text.head?_trimEnds hl
      simpa using htells

/-- The two paragraphs of a block comment become one. -/
theorem text_paragraphs : ParserSettings.default.validate? = none ∧
    (ofComments "ease" ["/*\na\n\nb\n*/"]).text = "a\n\nb" ∧
    (ofComments "ease" (Text.linesOf "/*\na\n\nb\n*/")).text = "a\nb" ∧
    ofComments ParserSettings.default.marker (Text.linesOf "/*\na\n\nb\n*/")
      ≠ ofComments ParserSettings.default.marker ["/*\na\n\nb\n*/"] := by
  have hwhole : (ofComments "ease" ["/*\na\n\nb\n*/"]).text = "a\n\nb" := by cbv
  have hlines : (ofComments "ease" (Text.linesOf "/*\na\n\nb\n*/")).text = "a\nb" := by cbv
  refine ⟨by cbv, hwhole, hlines, fun h => ?_⟩
  have htext : (ofComments "ease" (Text.linesOf "/*\na\n\nb\n*/")).text
      = (ofComments "ease" ["/*\na\n\nb\n*/"]).text := congrArg text h
  rw [hwhole, hlines] at htext
  exact absurd htext (by decide)

end Wiring.Documentation
