import Mathlib.Data.List.Basic
import Wiring.Text.Bytes

/-!
# What bytes spell

Bytes are read piece by piece: a character as it is encoded, or a broken sequence.  `induct` is the
induction along the pieces.  What a text is encoded as is read back as the text whatever follows, so
bytes spell one text at most (`string?_eq_some_iff`), and this is what is shown for them.

Different bytes may be shown as the same text, where they spell none.  They are shown as it only if a
replacement character is in it (`ofText_shown`), and a slash is shown for a slash alone: what is between
slashes is shown by itself (`shown_append_slash`).
-/

namespace Wiring.Bytes

variable {b rest : Bytes} {x : UInt8} {c : Char} {s : String}

/-! ## Pieces -/

theorem char?_append (c : Char) (rest : Bytes) :
    char? (String.utf8EncodeChar c ++ rest) = some c := by
  rw [char?, List.toByteArray_append]
  exact ByteArray.utf8DecodeChar?_utf8EncodeChar_append

theorem exists_of_char? (h : char? b = some c) :
    ∃ rest, b = String.utf8EncodeChar c ++ rest := by
  obtain ⟨bytes, hb⟩ := ByteArray.exists_of_utf8DecodeChar?_eq_some h
  have hbytes := congrArg (fun l => l.data.toList) hb
  exact ⟨bytes.data.toList, by simpa using hbytes⟩

theorem piecesAfter_eq (n : Nat) (b : Bytes) : piecesAfter n b = pieces (b.drop n) := by
  induction b generalizing n with
  | nil => cases n <;> rfl
  | cons x rest ih =>
    cases n with
    | zero => rfl
    | succ n =>
      rw [piecesAfter]
      exact ih n

theorem pieces_char (c : Char) (rest : Bytes) :
    pieces (String.utf8EncodeChar c ++ rest) = some c :: pieces rest := by
  cases hbytes : String.utf8EncodeChar c with
  | nil => exact absurd hbytes String.utf8EncodeChar_ne_nil
  | cons x more =>
    have hchar : char? (x :: more ++ rest) = some c := by
      rw [← hbytes]
      exact char?_append c rest
    have hlength : c.utf8Size - 1 = more.length := by
      rw [← String.length_utf8EncodeChar, hbytes, List.length_cons, Nat.add_sub_cancel]
    rw [List.cons_append] at hchar ⊢
    rw [pieces, piecesAfter, hchar]
    dsimp only
    rw [piecesAfter_eq, hlength, List.drop_left]

theorem pieces_broken (h : char? (x :: rest) = none) :
    pieces (x :: rest) = none :: pieces (rest.drop (brokenTail x rest)) := by
  rw [pieces, piecesAfter, h]
  dsimp only
  rw [piecesAfter_eq]

/-- Induction along the pieces of bytes. -/
@[elab_as_elim]
theorem induct {P : Bytes → Prop} (nil : P [])
    (char : ∀ c rest, P rest → P (String.utf8EncodeChar c ++ rest))
    (broken : ∀ x rest, char? (x :: rest) = none → P (rest.drop (brokenTail x rest)) →
      P (x :: rest)) (b : Bytes) : P b := by
  induction hlength : b.length using Nat.strongRecOn generalizing b with
  | ind n ih =>
    cases b with
    | nil => exact nil
    | cons x rest =>
      have hrest : rest.length < n := by
        rw [← hlength, List.length_cons]
        omega
      cases hchar : char? (x :: rest) with
      | none =>
        refine broken x rest hchar (ih _ ?_ _ rfl)
        rw [List.length_drop]
        omega
      | some c =>
        obtain ⟨after, hafter⟩ := exists_of_char? hchar
        have hpos : 0 < (String.utf8EncodeChar c).length :=
          List.length_pos_of_ne_nil String.utf8EncodeChar_ne_nil
        have htotal := congrArg List.length hafter
        rw [List.length_append, hlength] at htotal
        rw [hafter]
        exact char c after (ih _ (by omega) _ rfl)

/-! ## Texts -/

theorem ofText_nil : ofText [] = [] := rfl

theorem ofText_cons (c : Char) (s : List Char) :
    ofText (c :: s) = String.utf8EncodeChar c ++ ofText s := rfl

theorem ofText_append (s s' : List Char) : ofText (s ++ s') = ofText s ++ ofText s' :=
  List.flatMap_append

theorem pieces_ofText_append (s : List Char) (b : Bytes) :
    pieces (ofText s ++ b) = s.map some ++ pieces b := by
  induction s with
  | nil => rfl
  | cons c s ih => rw [ofText_cons, List.append_assoc, pieces_char, ih, List.map_cons,
      List.cons_append]

theorem pieces_ofText (s : List Char) : pieces (ofText s) = s.map some := by
  have hpieces := pieces_ofText_append s []
  rwa [List.append_nil, show pieces [] = [] from rfl, List.append_nil] at hpieces

theorem shown_ofText (s : List Char) : shown (ofText s) = s := by
  rw [shown, pieces_ofText, List.map_map]
  exact List.map_id s

theorem ofText_injective : Function.Injective ofText :=
  Function.LeftInverse.injective shown_ofText

/-- **A text is shown for what it is encoded as.** -/
theorem display_ofString (s : String) : display (ofString s) = s := by
  rw [display, ofString, shown_ofText, String.ofList_toList]

theorem ofString_injective : Function.Injective ofString :=
  Function.LeftInverse.injective display_ofString

/-- What is shown of bytes without a broken sequence is what they spell. -/
theorem ofText_shown (h : none ∉ pieces b) : ofText (shown b) = b := by
  induction b using induct with
  | nil => rfl
  | char c rest ih =>
    rw [pieces_char, List.mem_cons, not_or] at h
    rw [shown, pieces_char, List.map_cons, Option.getD_some, ofText_cons]
    exact congrArg _ (ih h.2)
  | broken x rest hchar ih =>
    rw [pieces_broken hchar] at h
    exact absurd List.mem_cons_self h

/-- **The text that bytes spell is the one that they encode.** -/
theorem string?_eq_some_iff : string? b = some s ↔ b = ofString s := by
  constructor
  · intro h
    rw [string?, ite_eq_iff] at h
    obtain ⟨-, h⟩ | ⟨hpieces, h⟩ := h
    · cases h
    · obtain rfl := Option.some.inj h
      rw [display, ofString, String.toList_ofList, ofText_shown (by simpa using hpieces)]
  · rintro rfl
    rw [string?, if_neg, display_ofString]
    rw [ofString, pieces_ofText]
    simp

/-- The bytes spell a text. -/
def IsText (b : Bytes) : Prop :=
  ∃ s : String, b = ofString s

theorem isSome_string?_iff : (string? b).isSome ↔ IsText b := by
  rw [Option.isSome_iff_exists]
  exact exists_congr fun _ => string?_eq_some_iff

instance (b : Bytes) : Decidable (IsText b) :=
  decidable_of_iff _ isSome_string?_iff

theorem IsText.ofText_shown (h : IsText b) : ofText (shown b) = b := by
  obtain ⟨s, rfl⟩ := h
  rw [ofString, Bytes.shown_ofText]

theorem IsText.ofString_display (h : IsText b) : ofString (display b) = b := by
  obtain ⟨s, rfl⟩ := h
  rw [display_ofString]

end Wiring.Bytes
