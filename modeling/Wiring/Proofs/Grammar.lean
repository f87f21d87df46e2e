import Mathlib
import Wiring.Proofs.Dict
import Wiring.Proofs.Directive

/-!
# Which lines are directives

`ofLine?_eq_some_iff` is the grammar of directives, for every line and every marker: `Fits` tells how
the trimmed line falls into the marker, a colon, a name and the rest, and what the tokens of the rest
say.  The name ends where the first character stands that is not one of words, so there is one way
to take a line apart only.  A token is split at its first `=`, and the last one that gives a key
something counts (`get?_paramsOf_eq_some_iff`).

No colon can stand in a valid marker.  So the marker ends at the first colon of the line, even if
another marker begins with the same characters, and no line is a directive under two markers
(`marker_eq_of_ofLine?`).
-/

namespace Wiring

/-! ## Tokens -/

namespace Text

variable {s : List Char} {ts : List (List Char)}

/-- The longest parts of a text without white space, in order. -/
inductive Tokens : List Char → List (List Char) → Prop
  | nil : Tokens [] []
  | blank {c : Char} {s : List Char} {ts : List (List Char)} (hc : isBlank c = true)
      (h : Tokens s ts) : Tokens (c :: s) ts
  | token {t s : List Char} {ts : List (List Char)} (hne : t ≠ [])
      (ht : ∀ c ∈ t, isBlank c = false) (hs : ∀ c ∈ s.head?, isBlank c = true)
      (h : Tokens s ts) : Tokens (t ++ s) (t :: ts)

theorem Tokens.words_eq (h : Tokens s ts) : words s = ts := by
  induction h with
  | nil => rfl
  | blank hc h ih => rw [words_cons_of_isBlank hc, ih]
  | token hne ht hs h ih => rw [words_append hne ht hs, ih]

/-- **The words of a text are its tokens.** -/
theorem tokens_words (s : List Char) : Tokens s (words s) := by
  induction hn : s.length using Nat.strong_induction_on generalizing s with
  | _ n ih =>
    subst hn
    cases s with
    | nil => exact .nil
    | cons c s =>
      by_cases hc : isBlank c = true
      · rw [words_cons_of_isBlank hc]
        exact .blank hc (ih _ (by simp) s rfl)
      · -- a token goes up to the next white space
        have ht : ∀ a ∈ (c :: s).takeWhile (!isBlank ·), isBlank a = false := by
          intro a ha
          simpa using List.mem_takeWhile_imp ha
        have hne : (c :: s).takeWhile (!isBlank ·) ≠ [] := by simp [hc]
        have hrest : ∀ a ∈ ((c :: s).dropWhile (!isBlank ·)).head?, isBlank a = true := by
          intro a ha
          have hhead := List.head?_dropWhile_not (!isBlank ·) (c :: s)
          rw [ha] at hhead
          simpa using hhead
        have hlt : ((c :: s).dropWhile (!isBlank ·)).length < (c :: s).length := by
          rw [List.dropWhile_cons_of_pos (by simp [hc]), List.length_cons, Nat.lt_succ_iff]
          exact (List.dropWhile_suffix _).length_le
        have htoken := Tokens.token hne ht hrest (ih _ hlt _ rfl)
        rw [List.takeWhile_append_dropWhile] at htoken
        rwa [htoken.words_eq]

/-- A text is cut at the first `c`. -/
theorem cut?_eq_some_iff {c : Char} {before after : List Char} :
    cut? c s = some (before, after) ↔ s = before ++ c :: after ∧ c ∉ before := by
  have hsplit : s.takeWhile (· != c) ++ s.dropWhile (· != c) = s := List.takeWhile_append_dropWhile
  constructor
  · intro h
    have hhead := List.head?_dropWhile_not (· != c) s
    rw [cut?] at h
    cases hdrop : s.dropWhile (· != c) with
    | nil =>
      rw [hdrop] at h
      cases h
    | cons a rest =>
      rw [hdrop] at h hhead hsplit
      cases h
      obtain rfl : a = c := by simpa using hhead
      refine ⟨hsplit.symm, fun hmem => ?_⟩
      have hne : (a != a) = true := List.mem_takeWhile_imp (p := (· != a)) hmem
      rw [bne_self_eq_false] at hne
      cases hne
  · rintro ⟨rfl, hfree⟩
    have hbefore : ∀ a ∈ before, (a != c) = true := by
      intro a ha
      rw [bne_iff_ne]
      rintro rfl
      exact hfree ha
    rw [cut?, dropWhile_append_eq_right hbefore (by simp),
      takeWhile_append_eq_left hbefore (by simp)]

/-- A text is cut at the last `c`. -/
theorem cutLast?_eq_some_iff {c : Char} {before after : List Char} :
    cutLast? c s = some (before, after) ↔ s = before ++ c :: after ∧ c ∉ after := by
  rw [cutLast?, Option.map_eq_some_iff]
  constructor
  · rintro ⟨⟨after', before'⟩, hcut, heq⟩
    obtain ⟨hsplit, hfree⟩ := cut?_eq_some_iff.1 hcut
    obtain ⟨rfl, rfl⟩ := Prod.mk.inj heq
    refine ⟨?_, by simpa using hfree⟩
    rw [← List.reverse_reverse s, hsplit]
    simp
  · rintro ⟨rfl, hfree⟩
    exact ⟨(after.reverse, before.reverse), cut?_eq_some_iff.2 ⟨by simp, by simpa using hfree⟩,
      by simp⟩

theorem cutLast?_eq_none {c : Char} (h : c ∉ s) : cutLast? c s = none := by
  cases hcut : cutLast? c s with
  | none => rfl
  | some parts =>
    refine absurd ?_ h
    rw [(cutLast?_eq_some_iff.1 hcut).1]
    simp

end Text

namespace Directive

variable {marker marker' line token w rest : List Char} {tokens : List (List Char)}
  {key value : String} {d d' : Directive}

/-! ## Parameters -/

structure Gives (token : List Char) (key value : String) : Prop where
  text : token = key.toList ++ '=' :: value.toList
  /-- The token is split at its first `=`. -/
  first : '=' ∉ key.toList
  key_ne : key ≠ ""
  keyChars : ∀ c ∈ key.toList, Text.isKeyChar c = true
  value_ne : value ≠ ""

/-- The last token that gives the key anything gives it this value. -/
def LastGives (tokens : List (List Char)) (key value : String) : Prop :=
  ∃ before token after, tokens = before ++ token :: after ∧ Gives token key value ∧
    ∀ t ∈ after, ∀ v, ¬ Gives t key v

theorem param?_eq_some_iff : param? token = some (key, value) ↔ Gives token key value := by
  constructor
  · intro h
    rw [param?] at h
    cases hcut : Text.cut? '=' token with
    | none =>
      rw [hcut] at h
      cases h
    | some parts =>
      obtain ⟨k, v⟩ := parts
      obtain ⟨htext, hfirst⟩ := Text.cut?_eq_some_iff.1 hcut
      simp only [hcut] at h
      split at h
      · next hvalid =>
        simp only [Bool.and_eq_true, Bool.not_eq_true', List.isEmpty_eq_false_iff,
          List.all_eq_true] at hvalid
        obtain ⟨⟨hkey, hchars⟩, hvalue⟩ := hvalid
        cases h
        exact ⟨by simpa using htext, by simpa using hfirst, by simpa using hkey,
          by simpa using hchars, by simpa using hvalue⟩
      · cases h
  · intro h
    have hcut : Text.cut? '=' token = some (key.toList, value.toList) :=
      Text.cut?_eq_some_iff.2 ⟨h.text, h.first⟩
    have hvalid : (!key.toList.isEmpty && key.toList.all Text.isKeyChar &&
        !value.toList.isEmpty) = true := by
      simp only [Bool.and_eq_true, List.all_eq_true]
      exact ⟨⟨by simpa using h.key_ne, h.keyChars⟩, by simpa using h.value_ne⟩
    simp only [param?, hcut, hvalid, if_true, String.ofList_toList]

/-- **Of several tokens that give a key something the last one counts.** -/
theorem get?_paramsOf_eq_some_iff :
    (paramsOf rest).get? key = some value ↔ LastGives (Text.words rest) key value := by
  rw [paramsOf, Dict.get?_ofList_filterMap_eq_some_iff]
  simp only [ne_eq, param?_eq_some_iff, LastGives]

/-! ## Lines -/

/-- How a line falls into the marker, a name and the rest, and what the directive holds. -/
structure Fits (marker line w rest : List Char) (d : Directive) : Prop where
  text : Text.trim line = marker ++ ':' :: (w ++ rest)
  name_ne : w ≠ []
  nameChars : ∀ c ∈ w, Text.isWord c = true
  /-- The name goes on as long as it can. -/
  longest : ∀ c ∈ rest.head?, Text.isWord c = false
  oneLine : '\n' ∉ rest
  name : d.name = String.ofList w
  params : ∃ tokens, Text.Tokens rest tokens ∧
    ∀ key value, d.param key = some value ↔ LastGives tokens key value

/-- **The grammar of directives.** -/
theorem ofLine?_eq_some_iff : ofLine? marker line = some d ↔ ∃ w rest, Fits marker line w rest d := by
  constructor
  · intro h
    rw [ofLine?] at h
    cases hbody : afterMarker? marker (Text.trim line) with
    | none =>
      rw [hbody] at h
      cases h
    | some body =>
      simp only [hbody] at h
      split at h
      · cases h
      · next hread =>
        simp only [Bool.or_eq_true, List.isEmpty_iff, List.contains_iff_mem, not_or] at hread
        have htext : marker ++ [':'] ++ body = Text.trim line :=
          List.isPrefixOf?_eq_some_iff_append_eq.1 hbody
        refine ⟨body.takeWhile Text.isWord, body.dropWhile Text.isWord, ?_, hread.1, ?_, ?_,
          hread.2, ?_, ?_⟩
        · rw [List.takeWhile_append_dropWhile, ← htext, List.append_assoc, List.singleton_append]
        · intro c hc
          exact List.mem_takeWhile_imp hc
        · intro c hc
          have hhead := List.head?_dropWhile_not Text.isWord body
          rw [hc] at hhead
          exact Bool.eq_false_iff.2 (by simpa using hhead)
        · exact (congrArg Directive.name (Option.some.inj h)).symm
        · refine ⟨_, Text.tokens_words _, fun key value => ?_⟩
          rw [← get?_paramsOf_eq_some_iff, param, ← Option.some.inj h]
  · rintro ⟨w, rest, h⟩
    obtain ⟨tokens, htokens, hparam⟩ := h.params
    have hparams : d.params = paramsOf rest := by
      apply Dict.eq_of_get?_eq
      intro key
      apply Option.ext
      intro value
      rw [get?_paramsOf_eq_some_iff, htokens.words_eq]
      exact hparam key value
    rw [ofLine?_eq_some h.text h.name_ne h.nameChars h.longest h.oneLine, ← h.name, ← hparams]

/-- No colon stands in a valid marker. -/
theorem colon_notMem {s : ParserSettings} (hs : s.validate? = none) : ':' ∉ s.marker.toList := by
  obtain ⟨-, hchars⟩ := ParserSettings.validate?_eq_none_iff.1 hs
  intro hmem
  have hfalse : ParserSettings.isMarkerChar ':' = false := by decide +kernel
  rw [hchars _ hmem] at hfalse
  cases hfalse

/-- **A line is a directive under one marker only**, the part before its first colon. -/
theorem marker_eq_of_ofLine? (hmarker : ':' ∉ marker) (hmarker' : ':' ∉ marker')
    (h : ofLine? marker line = some d) (h' : ofLine? marker' line = some d') :
    marker = marker' := by
  obtain ⟨w, rest, hfits⟩ := ofLine?_eq_some_iff.1 h
  obtain ⟨w', rest', hfits'⟩ := ofLine?_eq_some_iff.1 h'
  have hcut : Text.cut? ':' (Text.trim line) = some (marker, w ++ rest) :=
    Text.cut?_eq_some_iff.2 ⟨hfits.text, hmarker⟩
  have hcut' : Text.cut? ':' (Text.trim line) = some (marker', w' ++ rest') :=
    Text.cut?_eq_some_iff.2 ⟨hfits'.text, hmarker'⟩
  rw [hcut, Option.some.injEq] at hcut'
  exact (Prod.mk.inj hcut').1

/-- **What a line has to look like to be a directive**, and no two valid markers share a line. -/
theorem grammar_exact :
    (∀ marker line d, ofLine? marker line = some d ↔ ∃ w rest, Fits marker line w rest d) ∧
    ∀ s s' : ParserSettings, s.validate? = none → s'.validate? = none → s.marker ≠ s'.marker →
      ∀ line, ofLine? s.marker.toList line = none ∨ ofLine? s'.marker.toList line = none := by
  refine ⟨fun marker line d => ofLine?_eq_some_iff, fun s s' hs hs' hne line => ?_⟩
  cases h : ofLine? s.marker.toList line with
  | none => exact .inl rfl
  | some d =>
    right
    cases h' : ofLine? s'.marker.toList line with
    | none => rfl
    | some d' =>
      have heq := marker_eq_of_ofLine? (colon_notMem hs) (colon_notMem hs') h h'
      exact absurd (String.toList_inj.1 heq) hne

/-- Settings whose marker is the beginning of another one. -/
def undotted : ParserSettings :=
  ⟨"my", .firstRegistered⟩

/-- A line with a name that ends before a hyphen, and after it tokens without key, without value,
with two `=`, and with a key that was there before. -/
def crowded : List Char :=
  " my.gen:v_2-x a=b=c =d e= a²=² a=/ ".toList

set_option maxRecDepth 8000 in
theorem grammar_crowded : undotted.validate? = none ∧ Documentation.dotted.validate? = none ∧
    ofLine? "my".toList crowded = none ∧
    ∃ d, ofLine? "my.gen".toList crowded = some d ∧
      (∃ w rest, Fits "my.gen".toList crowded w rest d) ∧
      d.name = "v_2" ∧ d.params.entries = [("a", "/"), ("a²", "²")] := by
  have hundotted : undotted.validate? = none := by cbv
  have hdotted : Documentation.dotted.validate? = none := by cbv
  have hread : ofLine? "my.gen".toList crowded =
      some ⟨"v_2", .ofList [("a", "/"), ("a²", "²")]⟩ := by cbv
  obtain ⟨hfits, hone⟩ := grammar_exact
  refine ⟨hundotted, hdotted, ?_, _, hread, (hfits _ _ _).1 hread, rfl, by cbv⟩
  have hnone := hone undotted Documentation.dotted hundotted hdotted (by decide) crowded
  apply hnone.resolve_right
  intro h
  cases hread.symm.trans h

end Directive

end Wiring
