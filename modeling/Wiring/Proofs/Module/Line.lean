import Mathlib.Data.Bool.AllAny
import Wiring.Module
import Wiring.Proofs.Trim

/-!
# The line that names a module

A line counts up to the first two slashes (`Text.Before`), and white space around what counts does
not matter.  The module is named by the first line that then begins with the word `module` and white
space, `Opens`: lines before it give no path (`pathOfLine?_eq_none`), and this one gives what stands
behind the word, without double quotes around it (`pathOfLine?_eq_some`).  Carriage returns are
white space, so that it does not matter how lines end (`pathOfLine?_dropReturn`).

Only double quotes are taken away: a path in backquotes keeps them (`pathOfText?_raw`).
-/

namespace Wiring

namespace Text

variable {mark s front front' : List Char}

/-- What stands in a text before the first `mark`, or the whole text if there is none. -/
structure Before (mark s front : List Char) : Prop where
  split : ∃ rest, s = front ++ rest ∧ (rest = [] ∨ mark <+: rest)
  first : ∀ before after, s = before ++ mark ++ after → front.length ≤ before.length

theorem before_upTo (mark s : List Char) : Before mark s (upTo mark s) := by
  induction s with
  | nil => exact ⟨⟨[], rfl, .inl rfl⟩, fun _ _ _ => Nat.zero_le _⟩
  | cons c s ih =>
    rw [upTo]
    split
    · next h =>
      exact ⟨⟨c :: s, rfl, .inr (List.isPrefixOf_iff_prefix.1 h)⟩, fun _ _ _ => Nat.zero_le _⟩
    · next h =>
      obtain ⟨rest, hsplit, hrest⟩ := ih.split
      refine ⟨⟨rest, congrArg (c :: ·) hsplit, hrest⟩, fun before after heq => ?_⟩
      cases before with
      | nil =>
        refine absurd (List.isPrefixOf_iff_prefix.2 ?_) h
        exact ⟨after, heq.symm⟩
      | cons d before => exact Nat.succ_le_succ (ih.first before after (List.cons.inj heq).2)

theorem Before.length_le (h : Before mark s front) (h' : Before mark s front') :
    front.length ≤ front'.length := by
  obtain ⟨rest', hsplit', rfl | ⟨after, rfl⟩⟩ := h'.split
  · obtain ⟨rest, hsplit, -⟩ := h.split
    have hlength := congrArg List.length (hsplit.symm.trans hsplit')
    simp only [List.length_append, List.length_nil] at hlength
    omega
  · rw [← List.append_assoc] at hsplit'
    exact h.first front' after hsplit'

/-- There is only one such part of a text. -/
theorem before_iff : Before mark s front ↔ front = upTo mark s := by
  have h' := before_upTo mark s
  refine ⟨fun h => ?_, fun heq => heq ▸ h'⟩
  obtain ⟨rest, hsplit, -⟩ := h.split
  obtain ⟨rest', hsplit', -⟩ := h'.split
  have hlength : front.length = (upTo mark s).length :=
    Nat.le_antisymm (h.length_le h') (h'.length_le h)
  exact (List.append_inj (hsplit.symm.trans hsplit') hlength).1

instance (mark s front : List Char) : Decidable (Before mark s front) :=
  decidable_of_iff _ before_iff.symm

/-- One more character that is none of the mark stays outside it. -/
theorem upTo_concat {c : Char} (hc : c ∉ mark) (s : List Char) :
    upTo mark (s ++ [c]) = upTo mark s ∨ upTo mark (s ++ [c]) = upTo mark s ++ [c] := by
  induction s with
  | nil =>
    by_cases h : mark.isPrefixOf [c] = true
    · exact .inl (by simp [upTo, h])
    · exact .inr (by simp [upTo, h])
  | cons d s ih =>
    have hprefix : mark.isPrefixOf (d :: s ++ [c]) = mark.isPrefixOf (d :: s) := by
      rw [Bool.eq_iff_iff, List.isPrefixOf_iff_prefix, List.isPrefixOf_iff_prefix,
        List.prefix_concat_iff]
      refine or_iff_right fun heq => hc ?_
      rw [heq]
      simp
    rw [List.cons_append] at hprefix
    rw [List.cons_append, upTo, upTo, hprefix]
    split
    · exact .inl rfl
    · rcases ih with h | h
      · exact .inl (congrArg (d :: ·) h)
      · exact .inr (congrArg (d :: ·) h)

/-! ## Lines and pieces -/

/-- What does not tell lines that differ in their carriage returns is found at the same place among
the lines and among the pieces between line feeds. -/
theorem findSome?_lines {β : Type} {f : List Char → Option β} (hnil : f [] = none)
    (hreturn : ∀ l, f (dropReturn l) = f l) (s : List Char) :
    (lines s).findSome? f = (s.splitOn '\n').findSome? f := by
  rw [lines]
  induction s.splitOn '\n' with
  | nil => rfl
  | cons piece rest ih =>
    cases rest with
    | nil =>
      rw [linesOfPieces]
      split
      · next hempty =>
        rw [List.isEmpty_iff.1 hempty, List.findSome?_cons, hnil]
      · rfl
    | cons piece' rest =>
      rw [linesOfPieces, List.findSome?_cons, List.findSome?_cons, hreturn, ih]
      simp

/-- The first line of a text of which `P` holds. -/
structure FirstLine (P : List Char → Prop) (s line : List Char) : Prop where
  split : ∃ before after, s = before ++ line ++ after ∧ (∀ c ∈ before.getLast?, c = '\n') ∧
    (∀ c ∈ after.head?, c = '\n') ∧ ∀ l, IsPiece '\n' before l → ¬ P l
  newline : '\n' ∉ line
  holds : P line

theorem FirstLine.exists_splitOn {P : List Char → Prop} {line : List Char}
    (h : FirstLine P s line) :
    ∃ pre post, s.splitOn '\n' = pre ++ line :: post ∧ ∀ l ∈ pre, ¬ P l := by
  obtain ⟨before, after, rfl, hbefore, hafter, hearlier⟩ := h.split
  have hfirst : ∃ post, (line ++ after).splitOn '\n' = line :: post := by
    cases after with
    | nil => exact ⟨[], by rw [List.append_nil, List.splitOn_eq_singleton h.newline]⟩
    | cons c after =>
      obtain rfl : c = '\n' := hafter c rfl
      exact ⟨_, by rw [splitOn_append_cons, List.splitOn_eq_singleton h.newline]; rfl⟩
  obtain ⟨post, hpost⟩ := hfirst
  rw [List.append_assoc]
  rcases List.eq_nil_or_concat before with rfl | ⟨front, c, rfl⟩
  · exact ⟨[], post, hpost, by simp⟩
  · rw [List.concat_eq_append] at *
    obtain rfl : c = '\n' := hbefore c (by simp)
    refine ⟨front.splitOn '\n', post, ?_, fun l hl => hearlier l (mem_splitOn_iff.1 ?_)⟩
    · rw [List.append_assoc, List.singleton_append, splitOn_append_cons, hpost]
    · rw [splitOn_append_cons]
      exact List.mem_append_left _ hl

end Text

namespace Module

open Text (isBlank trim Tight Before)

variable {line written p : List Char}

/-! ## One line -/

/-- Without its comment and the white space around, a line begins with the word and white space. -/
def Opens (line : List Char) : Prop :=
  ∃ lead gap rest, Before ['/', '/'] line (lead ++ "module".toList ++ gap :: rest) ∧
    (∀ c ∈ lead, isBlank c = true) ∧ isBlank gap = true ∧ ∃ c ∈ rest, isBlank c = false

/-- Without its comment and the white space around, a line is the word, white space and
`written`. -/
def Reads (written line : List Char) : Prop :=
  ∃ lead gap trail, Before ['/', '/'] line (lead ++ ("module".toList ++ gap ++ written) ++ trail) ∧
    gap ≠ [] ∧ ∀ c ∈ lead ++ gap ++ trail, isBlank c = true

/-- What stands behind the word in a line, its comment and the white space around taken away. -/
def afterWord? (line : List Char) : Option (List Char) :=
  ("module".toList.isPrefixOf? (trim (Text.upTo ['/', '/'] line))).filter (·.head?.any isBlank)

theorem afterWord?_eq_some_iff {rest : List Char} : afterWord? line = some rest ↔
    trim (Text.upTo ['/', '/'] line) = "module".toList ++ rest ∧
      rest.head?.any isBlank = true := by
  rw [afterWord?, Option.filter_eq_some_iff, List.isPrefixOf?_eq_some_iff_append_eq, eq_comm]

/-- What stands behind the word, without quotes around it. -/
def unquoted? (path : List Char) : Option (List Char) :=
  let path := Text.trimWhile (· == '"') path
  if path.isEmpty then none else some path

theorem pathOfLine?_eq (line : List Char) :
    pathOfLine? line = (afterWord? line).bind fun rest => unquoted? (trim rest) := by
  rw [pathOfLine?, afterWord?]
  cases h : "module".toList.isPrefixOf? (trim (Text.upTo ['/', '/'] line)) with
  | none => rfl
  | some rest =>
    cases hblank : rest.head?.any isBlank <;> simp [unquoted?, hblank, Option.filter]

theorem opens_of_afterWord? {rest : List Char} (h : afterWord? line = some rest) : Opens line := by
  obtain ⟨htrim, hblank⟩ := afterWord?_eq_some_iff.1 h
  obtain ⟨before, after, hsplit, hbefore, -⟩ :=
    Text.exists_trimEnds_eq isBlank (Text.upTo ['/', '/'] line)
  have htight := Text.tight_trim (Text.upTo ['/', '/'] line)
  rw [htrim] at htight
  cases rest with
  | nil => cases hblank
  | cons gap rest =>
    have hgap : isBlank gap = true := hblank
    -- the last character is not white space, so it is not the one behind the word
    have hrest : ∃ c ∈ rest, isBlank c = false := by
      rcases List.eq_nil_or_concat rest with rfl | ⟨front, last, rfl⟩
      · have hfalse := htight.last gap (by simp)
        rw [hgap] at hfalse
        cases hfalse
      · rw [List.concat_eq_append] at *
        exact ⟨last, by simp, htight.last last (by simp [List.getLast?_cons])⟩
    obtain ⟨c, hc, hfalse⟩ := hrest
    refine ⟨before, gap, rest ++ after, ?_, hbefore, hgap, c, List.mem_append_left _ hc, hfalse⟩
    have htrimEnds : Text.trimEnds isBlank (Text.upTo ['/', '/'] line)
        = "module".toList ++ gap :: rest := htrim
    rw [Text.before_iff, hsplit, htrimEnds]
    simp

/-- Whether a line begins with the word shows in what is read behind it. -/
theorem opens_iff : Opens line ↔ (afterWord? line).isSome := by
  rw [Option.isSome_iff_exists]
  refine ⟨?_, fun ⟨rest, hrest⟩ => opens_of_afterWord? hrest⟩
  rintro ⟨lead, gap, rest, hbefore, hlead, hgap, c, hc, hfalse⟩
  -- the white space at the end of the line is that at the end of `rest`
  have hsplit : rest = rest.rdropWhile isBlank ++ rest.rtakeWhile isBlank :=
    List.rdropWhile_append_rtakeWhile.symm
  have hne : rest.rdropWhile isBlank ≠ [] := by
    intro hnil
    rw [List.rdropWhile_eq_nil_iff] at hnil
    rw [hnil c hc] at hfalse
    cases hfalse
  have htight : Tight ("module".toList ++ gap :: rest.rdropWhile isBlank) := by
    refine ⟨fun d hd => ?_, fun d hd => ?_⟩
    · obtain rfl : 'm' = d := Option.some.inj hd
      decide
    · rw [List.getLast?_append_of_ne_nil _ (List.cons_ne_nil _ _), List.getLast?_cons_of_ne_nil hne,
        List.getLast?_eq_some_getLast hne] at hd
      cases hd
      exact Bool.eq_false_iff.2 (List.rdropWhile_last_not isBlank rest hne)
  refine ⟨gap :: rest.rdropWhile isBlank, afterWord?_eq_some_iff.2 ⟨?_, hgap⟩⟩
  have hline : lead ++ "module".toList ++ gap :: rest
      = lead ++ ("module".toList ++ gap :: rest.rdropWhile isBlank) ++ rest.rtakeWhile isBlank := by
    conv_lhs => rw [hsplit]
    simp
  rw [← Text.before_iff.1 hbefore, hline]
  exact Text.trim_append_append hlead (fun d hd => List.mem_rtakeWhile_imp hd) htight

instance (line : List Char) : Decidable (Opens line) :=
  decidable_of_iff _ opens_iff.symm

/-- A line that does not begin with the word gives no path. -/
theorem pathOfLine?_eq_none (h : ¬ Opens line) : pathOfLine? line = none := by
  rw [opens_iff, Option.not_isSome_iff_eq_none] at h
  rw [pathOfLine?_eq, h, Option.bind_none]

/-- A line that begins with the word gives what stands behind it. -/
theorem pathOfLine?_eq_some (h : Reads written line) (hne : written ≠ []) (htight : Tight written) :
    pathOfLine? line = unquoted? written := by
  obtain ⟨lead, gap, trail, hbefore, hgap, hblank⟩ := h
  have hlead : ∀ c ∈ lead, isBlank c = true := fun c hc => hblank c (by simp [hc])
  have hgaps : ∀ c ∈ gap, isBlank c = true := fun c hc => hblank c (by simp [hc])
  have htrail : ∀ c ∈ trail, isBlank c = true := fun c hc => hblank c (by simp [hc])
  have hwhole : Tight ("module".toList ++ gap ++ written) := by
    refine ⟨fun c hc => ?_, fun c hc => htight.last c ?_⟩
    · obtain rfl : 'm' = c := Option.some.inj hc
      decide
    · rwa [List.getLast?_append_of_ne_nil _ hne] at hc
  have htrim : trim (Text.upTo ['/', '/'] line) = "module".toList ++ (gap ++ written) := by
    rw [← Text.before_iff.1 hbefore, Text.trim_append_append hlead htrail hwhole, List.append_assoc]
  have hhead : (gap ++ written).head?.any isBlank = true := by
    obtain ⟨a, gap, rfl⟩ := List.exists_cons_of_ne_nil hgap
    exact hgaps a List.mem_cons_self
  have hrest : trim (gap ++ written) = written := by
    have hnone : ∀ c ∈ ([] : List Char), isBlank c = true := by simp
    rw [← List.append_nil (gap ++ written), Text.trim_append_append hgaps hnone htight]
  rw [pathOfLine?_eq, afterWord?_eq_some_iff.2 ⟨htrim, hhead⟩, Option.bind_some, hrest]

theorem pathOfLine?_dropReturn (line : List Char) :
    pathOfLine? (Text.dropReturn line) = pathOfLine? line := by
  rw [Text.dropReturn]
  split
  · next hlast =>
    obtain ⟨front, rfl⟩ := List.getLast?_eq_some_iff.1 hlast
    have htrim : trim (Text.upTo ['/', '/'] (front ++ ['\r']))
        = trim (Text.upTo ['/', '/'] front) := by
      have hreturn : '\r' ∉ ['/', '/'] := by decide
      rcases Text.upTo_concat hreturn front with h | h
      · rw [h]
      · rw [h, Text.trim_concat_of_isBlank (by decide)]
    rw [List.dropLast_concat, pathOfLine?_eq, pathOfLine?_eq, afterWord?, afterWord?, htrim]
  · rfl

/-! ## Texts -/

/-- The first line of a text that begins with the word reads so. -/
def Names (text written : List Char) : Prop :=
  ∃ line, Text.FirstLine Opens text line ∧ Reads written line

/-- **The first line that begins with the word decides.** -/
theorem pathOfText?_eq_some {text : String} (h : Names text.toList written) (hne : written ≠ [])
    (htight : Tight written) (hp : unquoted? written = some p) :
    pathOfText? text = some (String.ofList p) := by
  obtain ⟨line, hfirst, hreads⟩ := h
  obtain ⟨pre, post, hsplit, hpre⟩ := hfirst.exists_splitOn
  have hearlier : pre.findSome? pathOfLine? = none :=
    List.findSome?_eq_none_iff.2 fun l hl => pathOfLine?_eq_none (hpre l hl)
  have hline : pathOfLine? line = some p := (pathOfLine?_eq_some hreads hne htight).trans hp
  rw [pathOfText?, Text.findSome?_lines rfl pathOfLine?_dropReturn, hsplit, List.findSome?_append,
    hearlier, Option.none_or, List.findSome?_cons, hline]
  rfl

/-- A path between characters that are no quotes itself. -/
theorem unquoted?_append_append {opening closing : List Char} (hne : p ≠ [])
    (hopening : ∀ c ∈ opening, c = '"') (hclosing : ∀ c ∈ closing, c = '"') (hp : '"' ∉ p) :
    unquoted? (opening ++ p ++ closing) = some p := by
  have hnone : ∀ c ∈ p, (c == '"') = false := by
    intro c hc
    rw [beq_eq_false_iff_ne]
    rintro rfl
    exact hp hc
  have hself : Text.trimEnds (· == '"') p = p :=
    Text.trimEnds_eq_self (fun c hc => hnone c (List.mem_of_mem_head? hc))
      fun c hc => hnone c (List.mem_of_getLast? hc)
  have hquotes : ∀ {cs : List Char}, (∀ c ∈ cs, c = '"') → ∀ c ∈ cs, (c == '"') = true := by
    intro cs hcs c hc
    rw [hcs c hc]
    rfl
  have htrim : Text.trimWhile (· == '"') (opening ++ p ++ closing) = p :=
    Text.trimEnds_append_append (hquotes hopening) (hquotes hclosing) hself
  have hempty : ¬ p.isEmpty = true := by simpa using hne
  rw [unquoted?, htrim]
  exact if_neg hempty

/-- **A text names the module as the first line says that begins with the word**: a path that is
written as it is or between double quotes is read as it is, and one between backquotes is read with
the backquotes. -/
theorem pathOfText?_spelled {text p : String} (hne : p ≠ "")
    (hblank : ∀ c ∈ p.toList, isBlank c = false) (hquote : '"' ∉ p.toList) :
    (Names text.toList p.toList ∨ Names text.toList ('"' :: p.toList ++ ['"']) →
      pathOfText? text = some p) ∧
    (Names text.toList ('\x60' :: p.toList ++ ['\x60']) →
      pathOfText? text = some ("\x60" ++ p ++ "\x60")) := by
  have hnil : p.toList ≠ [] := by simpa using hne
  have htight : Tight p.toList :=
    ⟨fun c hc => hblank c (List.mem_of_mem_head? hc),
      fun c hc => hblank c (List.mem_of_getLast? hc)⟩
  have hbetween : ∀ q : Char, isBlank q = false → Tight (q :: p.toList ++ [q]) := by
    intro q hq
    refine ⟨fun c hc => ?_, fun c hc => ?_⟩
    · obtain rfl : q = c := Option.some.inj hc
      exact hq
    · rw [List.getLast?_concat] at hc
      obtain rfl : q = c := Option.some.inj hc
      exact hq
  refine ⟨?_, fun h => ?_⟩
  · rintro (h | h)
    · have hplain : unquoted? ([] ++ p.toList ++ []) = some p.toList :=
        unquoted?_append_append hnil (by simp) (by simp) hquote
      rw [List.nil_append, List.append_nil] at hplain
      rw [pathOfText?_eq_some h hnil htight hplain, String.ofList_toList]
    · have hquoted : unquoted? (['"'] ++ p.toList ++ ['"']) = some p.toList :=
        unquoted?_append_append hnil (by simp) (by simp) hquote
      rw [pathOfText?_eq_some h (by simp) (hbetween '"' (by decide)) hquoted, String.ofList_toList]
  · have hraw : unquoted? ([] ++ ('\x60' :: p.toList ++ ['\x60']) ++ [])
        = some ('\x60' :: p.toList ++ ['\x60']) := by
      refine unquoted?_append_append (by simp) (by simp) (by simp) ?_
      simpa using hquote
    rw [List.nil_append, List.append_nil] at hraw
    rw [pathOfText?_eq_some h (by simp) (hbetween '\x60' (by decide)) hraw, Option.some.injEq,
      ← String.toList_inj]
    simp

/-- A line that is read can be told to be the first one by the pieces before it. -/
theorem names_of_pieces {text line : List Char} (before after : List Char)
    (hsplit : text = before ++ line ++ after) (hbefore : before.getLast?.getD '\n' = '\n')
    (hafter : after.head?.getD '\n' = '\n') (hnewline : '\n' ∉ line) (hopens : Opens line)
    (hreads : Reads written line) (hearlier : ∀ l ∈ before.splitOn '\n', ¬ Opens l) :
    Names text written := by
  refine ⟨line, ⟨⟨before, after, hsplit, fun c hc => ?_, fun c hc => ?_, fun l hl => ?_⟩,
    hnewline, hopens⟩, hreads⟩
  · rwa [Option.mem_def.1 hc] at hbefore
  · rwa [Option.mem_def.1 hc] at hafter
  · exact hearlier l (Text.mem_splitOn_iff.2 hl)

/-- Behind a comment and a word that only begins in the same way, with a comment of its own and with
carriage returns. -/
def annotated : String :=
  "// module a\r\nmodules a\r\n\tmodule  \"ex.com/shop\" // b\r\ngo 1.22"

theorem names_annotated : Names annotated.toList ('"' :: "ex.com/shop".toList ++ ['"']) := by
  have hreads : Reads ('"' :: "ex.com/shop".toList ++ ['"'])
      "\tmodule  \"ex.com/shop\" // b\r".toList :=
    ⟨['\t'], [' ', ' '], [' '], by decide, by decide, List.all_iff_forall_prop.1 (by decide)⟩
  exact names_of_pieces "// module a\r\nmodules a\r\n".toList "\ngo 1.22".toList rfl (by decide)
    (by decide) (by decide) (by decide) hreads (List.all_iff_forall_prop.1 (by decide))

def raw : String :=
  "module \x60ex.com/shop\x60\n"

theorem names_raw : Names raw.toList ('\x60' :: "ex.com/shop".toList ++ ['\x60']) := by
  have hreads : Reads ('\x60' :: "ex.com/shop".toList ++ ['\x60'])
      "module \x60ex.com/shop\x60".toList :=
    ⟨[], [' '], [], by decide, by decide, List.all_iff_forall_prop.1 (by decide)⟩
  exact names_of_pieces [] ['\n'] rfl (by decide) (by decide) (by decide) (by decide) hreads
    (List.all_iff_forall_prop.1 (by decide))

theorem pathOfText?_spelled_annotated :
    Names annotated.toList ('"' :: "ex.com/shop".toList ++ ['"']) ∧
      Names raw.toList ('\x60' :: "ex.com/shop".toList ++ ['\x60']) ∧
      pathOfText? annotated = some "ex.com/shop" ∧
      pathOfText? raw = some ("\x60" ++ "ex.com/shop" ++ "\x60") := by
  have hne : "ex.com/shop" ≠ "" := by decide
  have hblank : ∀ c ∈ "ex.com/shop".toList, isBlank c = false :=
    List.all_iff_forall_prop.1 (by decide)
  have hquote : '"' ∉ "ex.com/shop".toList := by decide
  exact ⟨names_annotated, names_raw,
    (pathOfText?_spelled hne hblank hquote).1 (.inr names_annotated),
    (pathOfText?_spelled hne hblank hquote).2 names_raw⟩

/-- **A path between backquotes is not read as it is.** -/
theorem pathOfText?_raw : Names raw.toList ('\x60' :: "ex.com/shop".toList ++ ['\x60']) ∧
    pathOfText? raw ≠ some "ex.com/shop" := by
  have hread : pathOfText? raw = some "\x60ex.com/shop\x60" := by cbv
  refine ⟨names_raw, ?_⟩
  rw [hread]
  decide

end Module

end Wiring
