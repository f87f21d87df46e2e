import Mathlib.Tactic.SplitIfs
import Wiring.Proofs.Bytes
import Wiring.Proofs.Path.Components

/-!
# Paths as they are shown

A slash is shown for a slash and for nothing else, so what is shown of a path is made of what is shown
of its names (`shown_absolute`), and for a name a name is shown (`IsName.shown`).  Different names may be
shown as the same one, but not if they spell texts.
-/

namespace Wiring

open Wiring.Path (slash dot)

/-! ## Slashes -/

namespace Bytes

variable {b : Bytes} {s : List Char}

theorem eq_of_slash_mem_utf8EncodeChar {c : Char} (h : slash ∈ String.utf8EncodeChar c) :
    c = '/' := by
  have hbyte : ∀ n : Nat, slash = UInt8.ofNat n → n % 256 = 47 := by
    intro n hn
    have hvalue := congrArg UInt8.toNat hn
    rw [UInt8.toNat_ofNat'] at hvalue
    exact hvalue.symm
  have hval : c.val.toNat = 47 := by
    rw [String.utf8EncodeChar] at h
    split_ifs at h <;> simp only [List.mem_cons, List.not_mem_nil, or_false] at h
    · have hfirst := hbyte _ h
      omega
    · rcases h with h | h <;> have hone := hbyte _ h <;> omega
    · rcases h with h | h | h <;> have hone := hbyte _ h <;> omega
    · rcases h with h | h | h | h <;> have hone := hbyte _ h <;> omega
  exact Char.ext (UInt32.toNat_inj.1 hval)

/-- A slash is none of the bytes after the first one of a character. -/
theorem length_takeWhile_append_slash (n : Nat) (a b : Bytes) :
    (((a ++ slash :: b).take n).takeWhile isTail).length = ((a.take n).takeWhile isTail).length := by
  induction a generalizing n with
  | nil =>
    cases n with
    | zero => rfl
    | succ n => rfl
  | cons y a ih =>
    cases n with
    | zero => rfl
    | succ n =>
      rw [List.cons_append, List.take_succ_cons, List.take_succ_cons, List.takeWhile_cons,
        List.takeWhile_cons]
      cases isTail y with
      | false => rfl
      | true => simp [ih]

/-- A slash is in no sequence, and ends a broken one. -/
theorem brokenTail_append_slash (x : UInt8) (a b : Bytes) :
    brokenTail x (a ++ slash :: b) = brokenTail x a := by
  cases a with
  | nil =>
    have hslash : begins x slash = false := rfl
    change brokenTail x (slash :: b) = 0
    rw [brokenTail, hslash]
    simp
  | cons y a =>
    rw [List.cons_append, brokenTail, brokenTail, length_takeWhile_append_slash]

theorem brokenTail_le_length (x : UInt8) (rest : Bytes) : brokenTail x rest ≤ rest.length := by
  cases rest with
  | nil => exact Nat.le_refl 0
  | cons y rest =>
    rw [brokenTail]
    split
    · exact Nat.zero_le _
    · have htake : (rest.take (tailLength x - 2)).length ≤ rest.length :=
        (List.take_sublist _ _).length_le
      have hwhile := (List.takeWhile_sublist isTail (l := rest.take (tailLength x - 2))).length_le
      rw [List.length_cons]
      omega

/-- What is broken stays broken before a slash. -/
theorem char?_append_slash {x : UInt8} {rest : Bytes} (h : char? (x :: rest) = none) (b : Bytes) :
    char? (x :: (rest ++ slash :: b)) = none := by
  rw [Option.eq_none_iff_forall_ne_some]
  intro c hc
  have hself : ∀ after, x :: rest ≠ String.utf8EncodeChar c ++ after := by
    intro after heq
    rw [heq, char?_append] at h
    cases h
  obtain ⟨after, hafter⟩ := exists_of_char? hc
  rw [← List.cons_append] at hafter
  rcases List.append_eq_append_iff.1 hafter with ⟨more, hmore, hslash⟩ | ⟨more, hmore, -⟩
  · cases more with
    | nil => exact hself [] (by rw [hmore, List.append_nil, List.append_nil])
    | cons y more =>
      -- a character with a slash in it is a slash, and nothing comes before that in it
      obtain rfl := (List.cons.inj hslash).1
      obtain rfl : c = '/' := eq_of_slash_mem_utf8EncodeChar (by rw [hmore]; simp)
      have hlength := congrArg List.length hmore
      have hone : (String.utf8EncodeChar '/').length = 1 := rfl
      rw [List.length_append, hone, List.length_cons, List.length_cons] at hlength
      omega
  · exact hself more hmore

theorem pieces_append_slash (a b : Bytes) :
    pieces (a ++ slash :: b) = pieces a ++ some '/' :: pieces b := by
  induction a using induct with
  | nil => exact pieces_char '/' b
  | char c rest ih => rw [List.append_assoc, pieces_char, pieces_char, ih, List.cons_append]
  | broken x rest h ih =>
    have hdrop : (rest ++ slash :: b).drop (brokenTail x rest)
        = rest.drop (brokenTail x rest) ++ slash :: b :=
      List.drop_append_of_le_length (brokenTail_le_length x rest)
    rw [List.cons_append, pieces_broken (char?_append_slash h b), brokenTail_append_slash, hdrop, ih,
      pieces_broken h, List.cons_append]

/-- **What is between slashes is shown by itself.** -/
theorem shown_append_slash (a b : Bytes) : shown (a ++ slash :: b) = shown a ++ '/' :: shown b := by
  rw [shown, pieces_append_slash, List.map_append, List.map_cons]
  rfl

theorem slash_mem_of_mem_shown (h : '/' ∈ shown b) : slash ∈ b := by
  induction b using induct with
  | nil => cases h
  | char c rest ih =>
    rw [shown, pieces_char, List.map_cons, List.mem_cons] at h
    rcases h with h | h
    · obtain rfl : c = '/' := h.symm
      exact List.mem_append_left _ (List.mem_singleton_self _)
    · exact List.mem_append_right _ (ih h)
  | broken x rest hchar ih =>
    rw [shown, pieces_broken hchar, List.map_cons, List.mem_cons] at h
    rcases h with h | h
    · cases h
    · exact List.mem_cons_of_mem _ (List.mem_of_mem_drop (ih h))

/-- What is shown without a replacement character is what the bytes spell. -/
theorem eq_ofText_of_shown (h : shown b = s) (hs : '\ufffd' ∉ s) : b = ofText s := by
  subst h
  refine (ofText_shown fun hnone => hs ?_).symm
  exact List.mem_map.2 ⟨none, hnone, rfl⟩

end Bytes

/-! ## Names -/

namespace Path

variable {s : Bytes} {names : List Bytes} {c : Component UInt8}

theorem IsName.shown (hs : IsName s) : IsName (Bytes.shown s) where
  ne_nil h := hs.ne_nil (Bytes.eq_ofText_of_shown h (by decide))
  ne_here h := hs.ne_here (Bytes.eq_ofText_of_shown h (by decide))
  ne_up h := hs.ne_up (Bytes.eq_ofText_of_shown h (by decide))
  slash h := hs.slash (Bytes.slash_mem_of_mem_shown h)

theorem shown_intercalate (names : List Bytes) :
    Bytes.shown ([slash].intercalate names) = ['/'].intercalate (names.map Bytes.shown) := by
  induction names with
  | nil => rfl
  | cons s names ih =>
    cases names with
    | nil => simp
    | cons s' names =>
      rw [List.intercalate_cons_cons, List.append_assoc, List.singleton_append,
        Bytes.shown_append_slash, ih]
      rfl

/-- **A path of names is shown as the path of what is shown of them.** -/
theorem shown_absolute (names : List Bytes) :
    Bytes.shown (absolute names) = absolute (names.map Bytes.shown) := by
  rw [absolute, ← List.nil_append (slash :: _), Bytes.shown_append_slash, shown_intercalate]
  rfl

theorem ofText_intercalate (names : List (List Char)) :
    Bytes.ofText ([slash].intercalate names) = [slash].intercalate (names.map Bytes.ofText) := by
  induction names with
  | nil => rfl
  | cons s names ih =>
    cases names with
    | nil => simp
    | cons s' names =>
      rw [List.intercalate_cons_cons, Bytes.ofText_append, Bytes.ofText_append, ih, List.map_cons,
        List.map_cons, List.map_cons, List.intercalate_cons_cons]
      rfl

theorem map_ofText_shown (h : ∀ s ∈ names, Bytes.IsText s) :
    (names.map Bytes.shown).map Bytes.ofText = names := by
  rw [List.map_map]
  refine (List.map_congr_left fun s hs => ?_).trans (List.map_id names)
  exact (h s hs).ofText_shown

/-- The path of names that are texts is a text. -/
theorem isText_absolute (h : ∀ s ∈ names, Bytes.IsText s) : Bytes.IsText (absolute names) := by
  refine ⟨String.ofList (absolute (names.map Bytes.shown)), ?_⟩
  rw [Bytes.ofString, String.toList_ofList, absolute, absolute, Bytes.ofText_cons,
    ofText_intercalate, map_ofText_shown h]
  rfl

/-- Below one directory, names that are texts can be told from what is shown of them. -/
theorem eq_of_shown_eq {below below' : List Bytes} (hnames : ∀ s ∈ names ++ below, IsName s)
    (hnames' : ∀ s ∈ names ++ below', IsName s) (htext : ∀ s ∈ below, Bytes.IsText s)
    (htext' : ∀ s ∈ below', Bytes.IsText s)
    (h : Bytes.shown (absolute (names ++ below)) = Bytes.shown (absolute (names ++ below'))) :
    names ++ below = names ++ below' := by
  rw [shown_absolute, shown_absolute] at h
  have hshown := absolute_injective (List.forall_mem_map.2 fun s hs => (hnames s hs).shown)
    (List.forall_mem_map.2 fun s hs => (hnames' s hs).shown) h
  rw [List.map_append, List.map_append, List.append_cancel_left_eq] at hshown
  rw [← map_ofText_shown htext, hshown, map_ofText_shown htext']

/-- A component as it is shown. -/
def Component.shown : Component UInt8 → Component Char
  | root => root
  | here => here
  | up => up
  | name s => name (Bytes.shown s)

theorem Component.text_shown (c : Component UInt8) : c.shown.text = Bytes.shown c.text := by
  cases c with
  | name s => rfl
  | _ => decide

theorem Component.Legal.shown (hc : c.Legal) : c.shown.Legal := by
  intro s hs
  cases c with
  | name s => exact Component.name.inj hs ▸ (hc _ rfl).shown
  | _ => cases hs

end Path

end Wiring
