import Mathlib
import Wiring.Proofs.Documentation
import Wiring.Proofs.Word

/-!
# Directives that are written are read

`Writes` says how a directive is written: the marker, a colon, the name, and the parameters with
spaces before each of them.  `InLine` says how such a text stands in a line of a comment.  What is
written so is read as it was meant (`ofComments_of_writes`), although values may hold `=`, `*` and
`/`, and names and values any letters.

The proof goes from the outside to the inside.  The marks of the comment are taken off
(`InLine.sanitize_eq`); for this it is enough that the text does not begin or end with white space
and does not begin with a `*`.  The name ends where the first space is (`Writes.ofLine?_eq`), and the
words after it are the parameters, each with its first `=` after the key (`param?_word`).
-/

namespace Wiring

/-- Settings are valid if the marker has characters, and only those of markers. -/
theorem ParserSettings.validate?_eq_none_iff {s : ParserSettings} : s.validate? = none ↔
    s.marker.toList ≠ [] ∧ ∀ c ∈ s.marker.toList, isMarkerChar c = true := by
  rw [validate?, ← List.all_eq_true, ne_eq, ← List.isEmpty_iff]
  split
  · next hnil => simp [hnil]
  · next hne =>
    split
    · next hall => simp [hne, hall]
    · next hall => simp [hall]

namespace Directive

variable {marker line w rest : List Char} {p : String × String} {ps : List (String × String)}

/-! ## One line -/

/-- A marker, a colon, a name and what follows it are a directive. -/
theorem ofLine?_eq_some (hline : Text.trim line = marker ++ ':' :: (w ++ rest)) (hne : w ≠ [])
    (hw : ∀ c ∈ w, Text.isWord c = true) (hrest : ∀ c ∈ rest.head?, Text.isWord c = false)
    (hnewline : '\n' ∉ rest) :
    ofLine? marker line = some ⟨String.ofList w, paramsOf rest⟩ := by
  have hbody : afterMarker? marker (Text.trim line) = some (w ++ rest) := by
    rw [afterMarker?, List.isPrefixOf?_eq_some_iff_append_eq, hline]
    simp
  have hname : (w ++ rest).takeWhile Text.isWord = w := Text.takeWhile_append_eq_left hw hrest
  have hafter : (w ++ rest).dropWhile Text.isWord = rest := Text.dropWhile_append_eq_right hw hrest
  have hread : (w.isEmpty || rest.contains '\n') = false := by
    simp [hne, hnewline]
  simp only [ofLine?, hbody, hname, hafter, hread]
  rfl

/-! ## Parameters -/

structure Writable (p : String × String) : Prop where
  key_ne : p.1.toList ≠ []
  keyChars : ∀ c ∈ p.1.toList, Text.isKeyChar c = true
  value_ne : p.2.toList ≠ []
  noBlank : ∀ c ∈ p.2.toList, Text.isBlank c = false

theorem writable_iff : Writable p ↔ (!p.1.toList.isEmpty && p.1.toList.all Text.isKeyChar &&
    !p.2.toList.isEmpty && p.2.toList.all (!Text.isBlank ·)) = true := by
  simp only [Bool.and_eq_true, Bool.not_eq_true', List.isEmpty_eq_false_iff, List.all_eq_true]
  constructor
  · intro hp
    exact ⟨⟨⟨hp.key_ne, hp.keyChars⟩, hp.value_ne⟩, hp.noBlank⟩
  · rintro ⟨⟨⟨hkey, hkeyChars⟩, hvalue⟩, hnoBlank⟩
    exact ⟨hkey, hkeyChars, hvalue, hnoBlank⟩

def word (p : String × String) : List Char :=
  p.1.toList ++ '=' :: p.2.toList

theorem word_ne_nil (p : String × String) : word p ≠ [] := by
  simp [word]

theorem Writable.isBlank_eq_false (hp : Writable p) {c : Char} (hc : c ∈ word p) :
    Text.isBlank c = false := by
  rcases List.mem_append.1 hc with hc | hc
  · exact Text.isBlank_eq_false_of_isKeyChar (hp.keyChars c hc)
  · rcases List.mem_cons.1 hc with rfl | hc
    · decide
    · exact hp.noBlank c hc

/-- **A parameter is split at its first `=`**, since a key has none. -/
theorem param?_word (hp : Writable p) : param? (word p) = some p := by
  have hkey : ∀ c ∈ p.1.toList, (c != '=') = true := by
    intro c hc
    rw [bne_iff_ne]
    rintro rfl
    have hfalse : Text.isKeyChar '=' = false := by decide +kernel
    rw [hp.keyChars _ hc] at hfalse
    cases hfalse
  have hcut : Text.cut? '=' (word p) = some (p.1.toList, p.2.toList) := by
    rw [Text.cut?, word, List.dropWhile_append_of_pos hkey, List.takeWhile_append_of_pos hkey]
    simp
  have hvalid : (!p.1.toList.isEmpty && p.1.toList.all Text.isKeyChar && !p.2.toList.isEmpty)
      = true := (Bool.and_eq_true_iff.1 (writable_iff.1 hp)).1
  simp only [param?, hcut, hvalid, if_true, String.ofList_toList]

/-- Parameters as they stand behind one another, with spaces before each of them. -/
inductive WritesParams : List (String × String) → List Char → Prop
  | nil : WritesParams [] []
  | cons {p : String × String} {ps : List (String × String)} {rest : List Char} (gap : Nat)
      (hp : Writable p) (h : WritesParams ps rest) :
      WritesParams (p :: ps) (List.replicate (gap + 1) ' ' ++ (word p ++ rest))

namespace WritesParams

/-- What stands after a parameter or the name begins with a space. -/
theorem eq_space_of_head? (h : WritesParams ps rest) : ∀ c ∈ rest.head?, c = ' ' := by
  intro c hc
  cases h with
  | nil => cases hc
  | cons gap hp h =>
    cases hc
    rfl

/-- Spaces are the only white space. -/
theorem eq_space_or (h : WritesParams ps rest) :
    ∀ c ∈ rest, c = ' ' ∨ Text.isBlank c = false := by
  induction h with
  | nil => simp
  | cons gap hp h ih =>
    intro c hc
    rcases List.mem_append.1 hc with hc | hc
    · exact Or.inl (List.eq_of_mem_replicate hc)
    · rcases List.mem_append.1 hc with hc | hc
      · exact Or.inr (hp.isBlank_eq_false hc)
      · exact ih c hc

theorem newline_notMem (h : WritesParams ps rest) : '\n' ∉ rest := by
  intro hmem
  rcases h.eq_space_or _ hmem with heq | hblank
  · exact absurd heq (by decide)
  · exact absurd hblank (by decide)

/-- There is no white space at the end, whether parameters are there or not. -/
theorem isBlank_getLast? (h : WritesParams ps rest) (hne : w ≠ [])
    (hw : ∀ c ∈ w, Text.isBlank c = false) :
    ∀ c ∈ (w ++ rest).getLast?, Text.isBlank c = false := by
  -- the word in front is general, as it is the parameter before in the next step
  induction h generalizing w with
  | nil =>
    intro c hc
    rw [List.append_nil] at hc
    exact hw c (List.mem_of_getLast? hc)
  | @cons p ps rest gap hp h ih =>
    intro c hc
    have hword : word p ++ rest ≠ [] := List.append_ne_nil_of_left_ne_nil (word_ne_nil p) rest
    rw [← List.append_assoc, List.getLast?_append_of_ne_nil _ hword] at hc
    exact ih (word_ne_nil p) (fun _ hc => hp.isBlank_eq_false hc) c hc

theorem words_replicate (n : Nat) (s : List Char) :
    Text.words (List.replicate n ' ' ++ s) = Text.words s := by
  induction n with
  | zero => rfl
  | succ n ih =>
    rw [List.replicate_succ, List.cons_append, Text.words_cons_of_isBlank (by decide), ih]

/-- The words are the parameters, one after the other. -/
theorem words_eq (h : WritesParams ps rest) : Text.words rest = ps.map word := by
  induction h with
  | nil => rfl
  | @cons p ps rest gap hp h ih =>
    have hspace : ∀ c ∈ rest.head?, Text.isBlank c = true := by
      intro c hc
      rw [h.eq_space_of_head? c hc]
      decide
    rw [words_replicate, Text.words_append (word_ne_nil p) (fun _ hc => hp.isBlank_eq_false hc)
      hspace, ih, List.map_cons]

theorem forall_writable (h : WritesParams ps rest) : ∀ p ∈ ps, Writable p := by
  induction h with
  | nil => simp
  | cons gap hp h ih => exact List.forall_mem_cons.2 ⟨hp, ih⟩

/-- **Parameters that are written are read.** -/
theorem paramsOf_eq (h : WritesParams ps rest) : paramsOf rest = Dict.ofList ps := by
  have hread : (ps.map word).filterMap param? = ps := by
    rw [List.filterMap_map, List.filterMap_congr (g := some), List.filterMap_some]
    intro p hp
    exact param?_word (h.forall_writable p hp)
  rw [paramsOf, h.words_eq, hread]

end WritesParams

/-! ## The whole directive -/

/-- `d` is the directive of this name with these parameters, written with the marker of the
settings. -/
structure Writes (settings : ParserSettings) (name : String) (ps : List (String × String))
    (d : List Char) : Prop where
  valid : settings.validate? = none
  name_ne : name.toList ≠ []
  nameChars : ∀ c ∈ name.toList, Text.isWord c = true
  text : ∃ rest, WritesParams ps rest ∧
    d = settings.marker.toList ++ ':' :: (name.toList ++ rest)

namespace Writes

variable {settings : ParserSettings} {name : String} {d : List Char}

/-- What is written begins with neither white space nor a `*`. -/
theorem exists_eq_cons (h : Writes settings name ps d) : ∃ c rest, d = c :: rest ∧
    Text.isBlank c = false ∧ c ≠ '*' := by
  obtain ⟨rest, -, rfl⟩ := h.text
  obtain ⟨hne, hchars⟩ := ParserSettings.validate?_eq_none_iff.1 h.valid
  obtain ⟨c, marker, hmarker⟩ := List.exists_cons_of_ne_nil hne
  have hc : ParserSettings.isMarkerChar c = true := hchars c (hmarker ▸ List.mem_cons_self)
  refine ⟨c, marker ++ ':' :: (name.toList ++ rest), by rw [hmarker, List.cons_append],
    Text.isBlank_eq_false_of_isMarkerChar hc, ?_⟩
  rintro rfl
  have hfalse : ParserSettings.isMarkerChar '*' = false := by decide +kernel
  rw [hc] at hfalse
  cases hfalse

/-- What is written does not end with white space. -/
theorem isBlank_getLast? (h : Writes settings name ps d) :
    ∀ c ∈ d.getLast?, Text.isBlank c = false := by
  obtain ⟨rest, hrest, rfl⟩ := h.text
  have hname : ∀ c ∈ name.toList, Text.isBlank c = false := by
    intro c hc
    exact Text.isBlank_eq_false_of_isWord (h.nameChars c hc)
  have hne : name.toList ++ rest ≠ [] := List.append_ne_nil_of_left_ne_nil h.name_ne rest
  intro c hc
  apply hrest.isBlank_getLast? h.name_ne hname c
  rw [List.getLast?_append_of_ne_nil _ (List.cons_ne_nil _ _)] at hc
  rwa [← List.singleton_append, List.getLast?_append_of_ne_nil _ hne] at hc

theorem newline_notMem (h : Writes settings name ps d) : '\n' ∉ d := by
  obtain ⟨rest, hrest, rfl⟩ := h.text
  obtain ⟨-, hchars⟩ := ParserSettings.validate?_eq_none_iff.1 h.valid
  have hmarker : '\n' ∉ settings.marker.toList := by
    intro hmem
    exact absurd (Text.isBlank_eq_false_of_isMarkerChar (hchars _ hmem)) (by decide)
  have hname : '\n' ∉ name.toList := by
    intro hmem
    exact absurd (Text.isBlank_eq_false_of_isWord (h.nameChars _ hmem)) (by decide)
  simp [hmarker, hname, hrest.newline_notMem]

theorem trim_eq (h : Writes settings name ps d) : Text.trim d = d := by
  obtain ⟨c, rest, hd, hc, -⟩ := h.exists_eq_cons
  apply Text.trim_eq_self
  · intro c' hc'
    rw [hd] at hc'
    cases hc'
    exact hc
  · exact h.isBlank_getLast?

/-- **A directive that is written is read**, with its name and its parameters. -/
theorem ofLine?_eq (h : Writes settings name ps d) :
    ofLine? settings.marker.toList d = some ⟨name, Dict.ofList ps⟩ := by
  obtain ⟨rest, hrest, hd⟩ := h.text
  have hspace : ∀ c ∈ rest.head?, Text.isWord c = false := by
    intro c hc
    rw [hrest.eq_space_of_head? c hc]
    decide +kernel
  have htrim : Text.trim d = settings.marker.toList ++ ':' :: (name.toList ++ rest) := by
    rw [h.trim_eq, hd]
  rw [ofLine?_eq_some htrim h.name_ne h.nameChars hspace hrest.newline_notMem, hrest.paramsOf_eq,
    String.ofList_toList]

end Writes

end Directive

namespace Documentation

variable {settings : ParserSettings} {name : String} {ps : List (String × String)}
  {d line : List Char} {a b : List String} {before after : List (List Char)}

/-! ## Lines of comments -/

/-- The ways in which a text stands in a line of a comment.  In the body of a block the line must
not look like the end of the block. -/
inductive InLine (d : List Char) : List Char → Prop
  | slashes : InLine d ('/' :: '/' :: d)
  | spaced : InLine d ('/' :: '/' :: ' ' :: d)
  | block : InLine d ('/' :: '*' :: ' ' :: (d ++ [' ', '*', '/']))
  | body (hend : ¬ ['*', '/'] <:+ d) : InLine d (' ' :: '*' :: ' ' :: d)

/-- A line that begins with two slashes loses them and the white space around the rest. -/
theorem sanitize_slashes (hlast : ∀ c ∈ ('/' :: '/' :: d).getLast?, Text.isBlank c = false) :
    sanitize ('/' :: '/' :: d) = Text.trim d := by
  have htrim : Text.trim ('/' :: '/' :: d) = '/' :: '/' :: d := by
    apply Text.trim_eq_self _ hlast
    intro c hc
    cases hc
    decide
  rw [sanitize, htrim]
  rfl

/-- A line that does not begin with two slashes is read as one of a block. -/
theorem sanitize_of_not_slashes {l : List Char} (htrim : Text.trim line = l)
    (hnoslash : ['/', '/'].isPrefixOf? l = none) : sanitize line = Text.trim (blockBody l) := by
  rw [sanitize, htrim]
  show Text.trim ((['/', '/'].isPrefixOf? l).getD (blockBody l)) = Text.trim (blockBody l)
  rw [hnoslash, Option.getD_none]

/-- A block on one line loses its marks. -/
theorem sanitize_block {c : Char} {rest : List Char} (hd : d = c :: rest)
    (hblank : Text.isBlank c = false) (hstar : c ≠ '*') :
    sanitize ('/' :: '*' :: ' ' :: (d ++ [' ', '*', '/'])) = Text.trim d := by
  have htrim : Text.trim ('/' :: '*' :: ' ' :: (d ++ [' ', '*', '/']))
      = '/' :: '*' :: ' ' :: (d ++ [' ', '*', '/']) := by
    apply Text.trim_eq_self
    · intro c hc
      cases hc
      decide
    · intro c hc
      have hsplit : '/' :: '*' :: ' ' :: (d ++ [' ', '*', '/'])
          = ('/' :: '*' :: ' ' :: (d ++ [' ', '*'])) ++ ['/'] := by simp
      rw [hsplit, List.getLast?_concat] at hc
      cases hc
      decide
  have hclosed : ['*', '/'].isSuffixOf? (' ' :: (d ++ [' ', '*', '/']))
      = some (' ' :: (d ++ [' '])) := by
    rw [List.isSuffixOf?_eq_some_iff_append_eq]
    simp
  have hbody : blockBody ('/' :: '*' :: ' ' :: (d ++ [' ', '*', '/'])) = d ++ [' '] := by
    have hopened : ['/', '*'].isPrefixOf? ('/' :: '*' :: ' ' :: (d ++ [' ', '*', '/']))
        = some (' ' :: (d ++ [' ', '*', '/'])) := rfl
    have hdrop : (' ' :: (d ++ [' '])).dropWhile Text.isBlank = d ++ [' '] := by
      rw [List.dropWhile_cons_of_pos (by decide), hd, List.cons_append,
        List.dropWhile_cons_of_neg (by simp [hblank])]
    have hnostar : ['*'].isPrefixOf? (d ++ [' ']) = none := by
      rw [hd]
      simp [List.isPrefixOf?, hstar.symm]
    simp only [blockBody, hopened, Option.getD_some, hclosed, hdrop, hnostar, Option.getD_none]
  rw [sanitize_of_not_slashes htrim rfl, hbody, Text.trim_concat_of_isBlank (by decide)]

/-- A line in the body of a block loses its `*`, if nothing at its end is taken for the end of the
block. -/
theorem sanitize_body (hend : ¬ ['*', '/'] <:+ d)
    (hlast : ∀ c ∈ ('*' :: ' ' :: d).getLast?, Text.isBlank c = false) :
    sanitize (' ' :: '*' :: ' ' :: d) = Text.trim d := by
  have htrim : Text.trim (' ' :: '*' :: ' ' :: d) = '*' :: ' ' :: d := by
    rw [Text.trim_cons_of_isBlank (by decide)]
    apply Text.trim_eq_self _ hlast
    intro c hc
    cases hc
    decide
  have hclosed : ['*', '/'].isSuffixOf? ('*' :: ' ' :: d) = none := by
    -- `*/` could only stand at the end of `d`, since a space follows the first `*`
    rw [Option.eq_none_iff_forall_ne_some]
    intro front hfront
    have hsuffix : ['*', '/'] <:+ '*' :: ' ' :: d :=
      ⟨front, List.isSuffixOf?_eq_some_iff_append_eq.1 hfront⟩
    simp only [List.suffix_cons_iff] at hsuffix
    rcases hsuffix with heq | heq | hsuffix
    · cases heq
    · cases heq
    · exact hend hsuffix
  have hbody : blockBody ('*' :: ' ' :: d) = ' ' :: d := by
    have hopened : ['/', '*'].isPrefixOf? ('*' :: ' ' :: d) = none := rfl
    have hdrop : ('*' :: ' ' :: d).dropWhile Text.isBlank = '*' :: ' ' :: d :=
      List.dropWhile_cons_of_neg (by decide)
    simp only [blockBody, hopened, Option.getD_none, hclosed, hdrop]
    rfl
  rw [sanitize_of_not_slashes htrim rfl, hbody, Text.trim_cons_of_isBlank (by decide)]

/-- **The marks of a comment are taken off a directive**, and nothing else. -/
theorem InLine.sanitize_eq (hd : Directive.Writes settings name ps d) (h : InLine d line) :
    sanitize line = d := by
  obtain ⟨c, rest, hcons, hblank, hstar⟩ := hd.exists_eq_cons
  have hne : d ≠ [] := by
    rw [hcons]
    exact List.cons_ne_nil c rest
  have hlast : ∀ front : List Char, ∀ c ∈ (front ++ d).getLast?, Text.isBlank c = false := by
    intro front c hc
    rw [List.getLast?_append_of_ne_nil _ hne] at hc
    exact hd.isBlank_getLast? c hc
  cases h with
  | slashes => exact (sanitize_slashes (hlast ['/', '/'])).trans hd.trim_eq
  | spaced =>
    have htrim : Text.trim (' ' :: d) = d := by
      rw [Text.trim_cons_of_isBlank (by decide), hd.trim_eq]
    exact (sanitize_slashes (hlast ['/', '/', ' '])).trans htrim
  | block => exact (sanitize_block hcons hblank hstar).trans hd.trim_eq
  | body hend => exact (sanitize_body hend (hlast ['*', ' '])).trans hd.trim_eq

/-- A line with a directive has no line feed. -/
theorem InLine.newline_notMem (hd : Directive.Writes settings name ps d) (h : InLine d line) :
    '\n' ∉ line := by
  have hnewline := hd.newline_notMem
  cases h <;> simp [hnewline]

/-- A comment of one line that is put between comments is a line between their lines. -/
theorem rawLines_insert (hd : Directive.Writes settings name ps d) (hline : InLine d line)
    (x y : List String) :
    rawLines (x ++ String.ofList line :: y) = rawLines x ++ line :: rawLines y := by
  have hne : line.isEmpty = false := by
    cases hline <;> rfl
  simp [rawLines, Text.lines_of_notMem (hline.newline_notMem hd), hne]

/-- **A directive that is written in a comment is read back** with its name and its parameters,
unless a later line has a directive of the same name, and the text is that of the other lines. -/
theorem ofComments_of_writes (hd : Directive.Writes settings name ps d) (hline : InLine d line)
    (ha : rawLines a = before ++ after) (hb : rawLines b = before ++ line :: after) :
    (ofComments settings.marker b).text = (ofComments settings.marker a).text ∧
    ((∀ l ∈ after, ∀ d', Directive.ofLine? settings.marker.toList (sanitize l) = some d' →
        d'.name ≠ name) →
      ∃ params, (ofComments settings.marker b).directives.get? name = some ⟨name, params⟩ ∧
        ∀ key, params.get? key = ps.reverse.lookup key) := by
  have hread : Directive.ofLine? settings.marker.toList (sanitize line)
      = some ⟨name, Dict.ofList ps⟩ := by
    rw [hline.sanitize_eq hd, hd.ofLine?_eq]
  have hlinesA : linesOf a = before.map sanitize ++ after.map sanitize := by
    rw [linesOf_eq, ha, List.map_append]
  have hlinesB : linesOf b = before.map sanitize ++ sanitize line :: after.map sanitize := by
    rw [linesOf_eq, hb, List.map_append, List.map_cons]
  constructor
  · show textOf _ (linesOf b) = textOf _ (linesOf a)
    rw [hlinesA, hlinesB]
    apply textOf_eq_of_inserted
    apply Inserted.between
    rw [hread]
    rfl
  · intro hlater
    refine ⟨Dict.ofList ps, ?_, Dict.get?_ofList ps⟩
    show (directivesOf _ (linesOf b)).get? name = _
    rw [get?_directivesOf_eq_some_iff, hlinesB]
    refine ⟨before.map sanitize, sanitize line, after.map sanitize, rfl, hread, rfl, ?_⟩
    intro l hl
    obtain ⟨raw, hraw, rfl⟩ := List.mem_map.1 hl
    exact hlater raw hraw

/-- Settings with a marker that has a dot in it. -/
def dotted : ParserSettings :=
  ⟨"my.gen", .rejectAmbiguous⟩

/-- A directive with a name and values that are no plain letters, and with one key twice. -/
def exotic : List Char :=
  "my.gen:módulo_2  k=a=b path=/*x*/ k=//=²".toList

set_option maxRecDepth 8000 in
theorem writes_exotic :
    Directive.Writes dotted "módulo_2" [("k", "a=b"), ("path", "/*x*/"), ("k", "//=²")] exotic where
  valid := by cbv
  name_ne := by decide
  nameChars := List.all_eq_true.1 (by cbv)
  text := by
    have hfirst : Directive.Writable ("k", "a=b") := Directive.writable_iff.2 (by cbv)
    have hsecond : Directive.Writable ("path", "/*x*/") := Directive.writable_iff.2 (by cbv)
    have hthird : Directive.Writable ("k", "//=²") := Directive.writable_iff.2 (by cbv)
    refine ⟨_, .cons 1 hfirst (.cons 0 hsecond (.cons 0 hthird .nil)), ?_⟩
    decide +kernel

/-- Comments of three kinds, the second of two lines. -/
def plainBlock : List String :=
  ["// Adds.", "/* one\n two */", "//my.gen:other k=v"]

/-- The same comments with a directive between the lines of the second. -/
def markedBlock : List String :=
  ["// Adds.", "/* one\n * my.gen:módulo_2  k=a=b path=/*x*/ k=//=²\n two */", "//my.gen:other k=v"]

set_option maxRecDepth 8000 in
theorem read_exotic :
    (ofComments "my.gen" markedBlock).text = (ofComments "my.gen" plainBlock).text ∧
    (∃ params, (ofComments "my.gen" markedBlock).directives.get? "módulo_2"
        = some ⟨"módulo_2", params⟩ ∧
      params.get? "k" = some "//=²" ∧ params.get? "path" = some "/*x*/") ∧
    rawLines (["// Adds."] ++ String.ofList ("//".toList ++ exotic) :: ["// Takes away."])
      = ["// Adds.".toList, "//".toList ++ exotic, "// Takes away.".toList] := by
  have hend : ¬ ['*', '/'] <:+ exotic := by
    have hfalse : ['*', '/'].isSuffixOf exotic = false := by cbv
    intro hsuffix
    rw [List.isSuffixOf_iff_suffix.2 hsuffix] at hfalse
    cases hfalse
  have hplain : rawLines plainBlock = ["// Adds.".toList, "/* one".toList] ++
      [" two */".toList, "//my.gen:other k=v".toList] := by cbv
  have hmarked : rawLines markedBlock = ["// Adds.".toList, "/* one".toList] ++
      (" * ".toList ++ exotic) :: [" two */".toList, "//my.gen:other k=v".toList] := by cbv
  obtain ⟨htext, hread⟩ := ofComments_of_writes writes_exotic (.body hend) hplain hmarked
  have hlater : ∀ l ∈ [" two */".toList, "//my.gen:other k=v".toList], ∀ d',
      Directive.ofLine? dotted.marker.toList (sanitize l) = some d' → d'.name ≠ "módulo_2" := by
    have htwo : Directive.ofLine? dotted.marker.toList (sanitize " two */".toList) = none := by cbv
    have hother : (Directive.ofLine? dotted.marker.toList
        (sanitize "//my.gen:other k=v".toList)).map (·.name) = some "other" := by cbv
    intro l hl d' hd' hname
    simp only [List.mem_cons, List.not_mem_nil, or_false] at hl
    rcases hl with rfl | rfl
    · rw [htwo] at hd'
      cases hd'
    · rw [hd', Option.map_some, hname] at hother
      exact absurd hother (by decide)
  obtain ⟨params, hparams, hget⟩ := hread hlater
  refine ⟨htext, ⟨params, hparams, ?_, ?_⟩, ?_⟩
  · rw [hget]
    decide
  · rw [hget]
    decide
  · have hinsert := rawLines_insert writes_exotic .slashes ["// Adds."] ["// Takes away."]
    exact hinsert.trans (by cbv)

end Documentation

end Wiring
