import Mathlib
import Wiring.Json.Printer
import Wiring.Json.Reader
import Wiring.Proofs.Text

/-!
# The tokens of a written value

A value that is written without white space is cut into the tokens one expects (`Json.toTokens`).
For strings this is because every character is read back from its escape; for other scalars because
whatever follows one of them, a comma or a bracket, cannot belong to it.
-/

namespace Wiring.Json

/-! ## Strings -/

/-- The part of a string that a written character is read as. -/
def Piece.ofChar (c : Char) : Piece :=
  if c.toNat < 0x20 ∧ c ∉ ['\x08', '\t', '\n', '\x0c', '\r'] then .codeUnit c.toNat else .char c

theorem hexValue?_control : ∀ n < 0x20,
    Text.hexValue? ['0', '0', Nat.digitChar (n / 16), Nat.digitChar (n % 16)] = some n := by
  decide

theorem pieces?_escaped {e c : Char} (he : escaped? e = some c) (cs : List Char) :
    pieces? ('\\' :: e :: cs) = (pieces? cs).map fun p => (.char c :: p.1, p.2) := by
  have hu : e ≠ 'u' := by
    rintro rfl
    cases he
  rw [pieces?, he]
  · cases pieces? cs <;> rfl
  all_goals simp [hu]

/-- A character is read back from its escape. -/
theorem pieces?_escapeChar (c : Char) (cs : List Char) :
    pieces? (escapeChar c ++ cs) = (pieces? cs).map fun p => (Piece.ofChar c :: p.1, p.2) := by
  rw [escapeChar]
  split_ifs with hquote hbackslash hb ht hn hf hr hcontrol
  · subst hquote
    exact pieces?_escaped rfl cs
  · subst hbackslash
    exact pieces?_escaped rfl cs
  · subst hb
    exact pieces?_escaped rfl cs
  · subst ht
    exact pieces?_escaped rfl cs
  · subst hn
    exact pieces?_escaped rfl cs
  · subst hf
    exact pieces?_escaped rfl cs
  · subst hr
    exact pieces?_escaped rfl cs
  · have hpiece : Piece.ofChar c = .codeUnit c.toNat := by
      simp [Piece.ofChar, hcontrol, hb, ht, hn, hf, hr]
    rw [hpiece]
    simp only [List.cons_append, List.nil_append, pieces?, hexValue?_control _ hcontrol]
    cases pieces? cs <;> rfl
  · have hpiece : Piece.ofChar c = .char c := by simp [Piece.ofChar, hcontrol]
    rw [hpiece, List.singleton_append, pieces?, if_neg hcontrol]
    · cases pieces? cs <;> rfl
    all_goals simp [hquote, hbackslash]

theorem pieces?_flatMap (cs rest : List Char) :
    pieces? (cs.flatMap escapeChar ++ '"' :: rest) = some (cs.map Piece.ofChar, rest) := by
  induction cs with
  | nil => rfl
  | cons c cs ih =>
    rw [List.flatMap_cons, List.append_assoc, pieces?_escapeChar, ih]
    rfl

theorem joinPieces?_map (cs : List Char) : joinPieces? (cs.map Piece.ofChar) = some cs := by
  induction cs with
  | nil => rfl
  | cons c cs ih =>
    rw [List.map_cons, Piece.ofChar]
    split
    · next hcontrol =>
      have hlow : ¬ (0xD800 ≤ c.toNat ∧ c.toNat < 0xDC00) := by omega
      have hhigh : ¬ (0xDC00 ≤ c.toNat ∧ c.toNat < 0xE000) := by omega
      rw [joinPieces?.eq_def]
      dsimp only
      rw [if_neg hlow, if_neg hhigh, ih, Char.ofNat_toNat]
      rfl
    · rw [joinPieces?, ih]
      rfl

/-! ## Tokens one after the other -/

theorem length_of_pieces? {cs : List Char} {ps : List Piece} {after : List Char}
    (h : pieces? cs = some (ps, after)) : after.length ≤ cs.length := by
  fun_induction pieces? cs generalizing ps with
  | case1 => cases h
  | case2 rest =>
    cases h
    simp
  | case3 a b c d rest ih =>
    simp only [bind, Option.bind_eq_some_iff] at h
    obtain ⟨n, -, p, hp, h⟩ := h
    cases h
    have hle := ih hp
    simp only [List.length_cons]
    omega
  | case4 e rest hu ih =>
    simp only [bind, Option.bind_eq_some_iff] at h
    obtain ⟨c, -, p, hp, h⟩ := h
    cases h
    have hle := ih hp
    simp only [List.length_cons]
    omega
  | case5 => cases h
  | case6 c rest _ _ _ hcontrol ih =>
    simp only [bind, Option.bind_eq_some_iff] at h
    obtain ⟨p, hp, h⟩ := h
    cases h
    have hle := ih hp
    simp only [List.length_cons]
    omega

/-- What follows a token is a part of the text. -/
theorem length_of_token? {c : Char} {rest after : List Char} {t : Token}
    (h : token? c rest = some (t, after)) : after.length ≤ rest.length := by
  rw [token?.eq_def] at h
  split at h
  case h_7 =>
    simp only [bind, Option.bind_eq_some_iff] at h
    obtain ⟨p, hp, cs, -, h⟩ := h
    cases h
    exact length_of_pieces? hp
  case h_8 =>
    simp only [bind, Option.bind_eq_some_iff] at h
    obtain ⟨v, -, h⟩ := h
    cases h
    exact List.length_dropWhile_le _ _
  all_goals
    cases h
    exact le_rfl

def tokensOf? (cs : List Char) : Option (List Token) :=
  tokensWithin? cs.length cs

theorem tokensWithin?_eq {fuel : Nat} {cs : List Char} (h : cs.length ≤ fuel) :
    tokensWithin? fuel cs = tokensOf? cs := by
  have hall : ∀ {n m : Nat} {cs : List Char}, cs.length ≤ n → cs.length ≤ m →
      tokensWithin? n cs = tokensWithin? m cs := by
    intro n
    induction n with
    | zero =>
      intro m cs hn hm
      obtain rfl := List.eq_nil_of_length_eq_zero (Nat.le_zero.1 hn)
      simp [tokensWithin?]
    | succ n ih =>
      intro m cs hn hm
      cases cs with
      | nil => simp [tokensWithin?]
      | cons c rest =>
        cases m with
        | zero => simp at hm
        | succ m =>
          simp only [List.length_cons, Nat.add_le_add_iff_right] at hn hm
          rw [tokensWithin?, tokensWithin?, ih hn hm]
          congr 1
          cases ht : token? c rest with
          | none => rfl
          | some p =>
            have hle := length_of_token? ht
            show (tokensWithin? n p.2).bind _ = (tokensWithin? m p.2).bind _
            rw [ih (hle.trans hn) (hle.trans hm)]
  exact hall h le_rfl

theorem tokensOf?_cons {c : Char} {rest after : List Char} {t : Token} (hspace : isSpace c = false)
    (h : token? c rest = some (t, after)) :
    tokensOf? (c :: rest) = (tokensOf? after).map (t :: ·) := by
  rw [tokensOf?, List.length_cons, tokensWithin?, hspace, h]
  show (tokensWithin? rest.length after).bind _ = _
  rw [tokensWithin?_eq (length_of_token? h)]
  cases tokensOf? after <;> rfl

/-! ## Scalars -/

theorem ofDigitChars_eq_decimalValue (cs : List Char) :
    Text.decimalValue cs = Nat.ofDigitChars 10 cs 0 := by
  rw [Nat.ofDigitChars_eq_foldl]
  rfl

theorem isDigit_of_mem_toDigits {n : Nat} {c : Char} (h : c ∈ Nat.toDigits 10 n) :
    c.isDigit = true :=
  Nat.isDigit_of_mem_toDigits (by omega) le_rfl h

/-- No number but zero is written with a zero in front. -/
theorem head?_toDigits {n : Nat} (h : 0 < n) : (Nat.toDigits 10 n).head? ≠ some '0' := by
  induction n using Nat.strongRecOn with
  | ind n ih =>
    by_cases hlt : n < 10
    · rw [Nat.toDigits_of_lt_base hlt, List.head?_cons]
      intro heq
      rw [Option.some.injEq, Nat.digitChar_eq_zero] at heq
      omega
    · rw [Nat.toDigits_of_base_le (by omega) (by omega)]
      have hne : Nat.toDigits 10 (n / 10) ≠ [] := Nat.toDigits_ne_nil
      rw [List.head?_append_of_ne_nil _ hne]
      exact ih (n / 10) (by omega) (by omega)

theorem takeWhile_toDigits (n : Nat) :
    (Nat.toDigits 10 n).takeWhile Char.isDigit = Nat.toDigits 10 n :=
  List.takeWhile_eq_self_iff.2 fun _ => isDigit_of_mem_toDigits

theorem dropWhile_toDigits (n : Nat) : (Nat.toDigits 10 n).dropWhile Char.isDigit = [] :=
  List.dropWhile_eq_nil_iff.2 fun _ => isDigit_of_mem_toDigits

/-- The digits of a number are accepted as those of a number. -/
theorem digits_accepted (n : Nat) : ((Nat.toDigits 10 n).isEmpty ||
    ((Nat.toDigits 10 n).head? == some '0' && (Nat.toDigits 10 n).length != 1)) = false := by
  have hne : (Nat.toDigits 10 n).isEmpty = false := by simp
  rw [hne, Bool.false_or, Bool.and_eq_false_iff]
  cases n with
  | zero => exact .inr (by decide)
  | succ n => exact .inl (by simpa using head?_toDigits (Nat.succ_pos n))

theorem number?_encodeInteger (n : Int) : number? (encodeInteger n).toList = some (.integer n) := by
  cases n with
  | ofNat n =>
    have hsign : (Nat.toDigits 10 n).head? ≠ some '-' := by
      intro h
      have hdigit := isDigit_of_mem_toDigits (List.mem_of_mem_head? h)
      revert hdigit
      decide
    rw [encodeInteger, String.toList_ofList, number?]
    simp only [hsign, if_false, takeWhile_toDigits, dropWhile_toDigits, digits_accepted,
      Bool.false_eq_true, List.isEmpty_nil, if_true, ofDigitChars_eq_decimalValue,
      Nat.ofDigitChars_ten_toDigits, Int.ofNat_eq_natCast]
  | negSucc n =>
    rw [encodeInteger, String.toList_ofList, number?]
    simp only [List.head?_cons, if_true, List.tail_cons, takeWhile_toDigits, dropWhile_toDigits,
      digits_accepted, Bool.false_eq_true, if_false, List.isEmpty_nil, ofDigitChars_eq_decimalValue,
      Nat.ofDigitChars_ten_toDigits]
    rw [if_neg (by omega), Int.negSucc_eq]
    simp

theorem isBare_of_isDigit {c : Char} (h : c.isDigit = true) : isBare c = true := by
  simp [isBare, Char.isAlphanum, h]

theorem forall_isBare_encodeInteger (n : Int) : ∀ c ∈ (encodeInteger n).toList, isBare c = true := by
  cases n with
  | ofNat n =>
    rw [encodeInteger, String.toList_ofList]
    intro c hc
    exact isBare_of_isDigit (isDigit_of_mem_toDigits hc)
  | negSucc n =>
    rw [encodeInteger, String.toList_ofList, List.forall_mem_cons]
    refine ⟨by decide, ?_⟩
    intro c hc
    exact isBare_of_isDigit (isDigit_of_mem_toDigits hc)

/-- A number is no word. -/
theorem bare?_of_number? {cs : List Char} {v : Json} (h : number? cs = some v) :
    bare? cs = some v := by
  have hnone : ∀ word ∈ ["null", "true", "false"], cs ≠ word.toList := by
    have hwords : ∀ word ∈ ["null", "true", "false"], (number? word.toList).isNone := by decide
    rintro word hword rfl
    have hnone := hwords word hword
    rw [h] at hnone
    cases hnone
  simp only [List.mem_cons, List.not_mem_nil, or_false, forall_eq_or_imp, forall_eq] at hnone
  rw [bare?, if_neg hnone.1, if_neg hnone.2.1, if_neg hnone.2.2, h]

/-- A text that starts with something that cannot belong to a scalar before it. -/
def StartsAnew (cs : List Char) : Prop :=
  ∀ c ∈ cs.head?, isBare c = false

theorem isSpace_of_isBare {c : Char} (h : isBare c = true) : isSpace c = false := by
  rw [Bool.eq_false_iff]
  intro hspace
  simp only [isSpace, Bool.or_eq_true, beq_iff_eq] at hspace
  rcases hspace with ((rfl | rfl) | rfl) | rfl <;> revert h <;> decide

theorem token?_of_isBare {c : Char} (h : isBare c = true) (rest : List Char) :
    token? c rest = (bare? (c :: rest.takeWhile isBare)).map fun v =>
      (.scalar v, rest.dropWhile isBare) := by
  rw [token?]
  · cases bare? (c :: rest.takeWhile isBare) <;> rfl
  all_goals
    rintro rfl
    revert h
    decide

/-- **A scalar is one token**, whatever comes after it. -/
theorem tokensOf?_scalar {cs rest : List Char} {v : Json} (hcs : ∀ c ∈ cs, isBare c = true)
    (hv : bare? cs = some v) (hrest : StartsAnew rest) :
    tokensOf? (cs ++ rest) = (tokensOf? rest).map (.scalar v :: ·) := by
  cases cs with
  | nil =>
    have hnone : (bare? []).isNone := by decide
    rw [hv] at hnone
    cases hnone
  | cons c cs =>
    rw [List.forall_mem_cons] at hcs
    rw [List.cons_append]
    apply tokensOf?_cons (isSpace_of_isBare hcs.1)
    rw [token?_of_isBare hcs.1, Text.takeWhile_append_eq_left hcs.2 hrest,
      Text.dropWhile_append_eq_right hcs.2 hrest, hv]
    rfl

/-- **A string is one token.** -/
theorem tokensOf?_string (s : String) (rest : List Char) :
    tokensOf? ((encodeString s).toList ++ rest) = (tokensOf? rest).map (.text s :: ·) := by
  rw [encodeString, String.toList_ofList]
  simp only [List.cons_append, List.append_assoc]
  apply tokensOf?_cons rfl
  rw [token?, pieces?_flatMap]
  show (joinPieces? (s.toList.map Piece.ofChar)).bind _ = _
  rw [joinPieces?_map]
  show some (Token.text (String.ofList s.toList), rest) = _
  rw [String.ofList_toList]

/-! ## Values -/

/-- A value that can be read back: its real numbers are texts of such. -/
inductive Readable : Json → Prop
  | null : Readable null
  | bool (b : Bool) : Readable (bool b)
  | integer (i : Int) : Readable (integer i)
  | real {text : String} (number : number? text.toList = some (real text))
      (bare : ∀ c ∈ text.toList, isBare c = true) : Readable (real text)
  | string (s : String) : Readable (string s)
  | array {items : List Json} (each : ∀ v ∈ items, Readable v) : Readable (array items)
  | object {fields : List (String × Json)} (each : ∀ f ∈ fields, Readable f.2) :
      Readable (object fields)

@[simp] theorem readable_array_iff {items : List Json} :
    Readable (array items) ↔ ∀ v ∈ items, Readable v :=
  ⟨fun | .array each => each, .array⟩

@[simp] theorem readable_object_iff {fields : List (String × Json)} :
    Readable (object fields) ↔ ∀ f ∈ fields, Readable f.2 :=
  ⟨fun | .object each => each, .object⟩

mutual

/-- The tokens of a value that is written without white space. -/
def toTokens : Json → List Token
  | string s => [.text s]
  | array items => .openArray :: itemTokens true items ++ [.closeArray]
  | object fields => .openObject :: fieldTokens true fields ++ [.closeObject]
  | v => [.scalar v]

/-- The tokens of the items from the `first` one on, or from a later one. -/
def itemTokens (first : Bool) : List Json → List Token
  | [] => []
  | v :: rest => (if first then [] else [.comma]) ++ toTokens v ++ itemTokens false rest

def fieldTokens (first : Bool) : List (String × Json) → List Token
  | [] => []
  | (key, v) :: rest =>
    (if first then [] else [.comma]) ++ .text key :: .colon :: toTokens v ++ fieldTokens false rest

end

def Lexed (v : Json) : Prop :=
  ∀ rest, StartsAnew rest →
    tokensOf? ((compact v).toList ++ rest) = (tokensOf? rest).map (toTokens v ++ ·)

/-- The comma before a later item is one token. -/
theorem tokensOf?_comma (first : Bool) (cs : List Char) :
    tokensOf? ((if first then "" else ",").toList ++ cs)
      = (tokensOf? cs).map ((if first then [] else [.comma]) ++ ·) := by
  cases first with
  | true => simp
  | false => exact tokensOf?_cons rfl rfl

/-- What follows an item, a comma or the end of the array, starts anew. -/
theorem startsAnew_items (vs : List Json) (rest : List Char) :
    StartsAnew ((compactItems false vs).toList ++ ']' :: rest) := by
  cases vs <;> simp [StartsAnew, compactItems] <;> decide

theorem startsAnew_fields (fs : List (String × Json)) (rest : List Char) :
    StartsAnew ((compactFields false fs).toList ++ '\x7d' :: rest) := by
  cases fs <;> simp [StartsAnew, compactFields] <;> decide

theorem tokensOf?_items {items : List Json} (h : ∀ v ∈ items, Lexed v) (first : Bool)
    (rest : List Char) : tokensOf? ((compactItems first items).toList ++ ']' :: rest)
      = (tokensOf? rest).map (itemTokens first items ++ .closeArray :: ·) := by
  induction items generalizing first with
  | nil => exact tokensOf?_cons rfl rfl
  | cons v items ih =>
    rw [List.forall_mem_cons] at h
    rw [compactItems, String.toList_append, String.toList_append, List.append_assoc,
      List.append_assoc, tokensOf?_comma, h.1 _ (startsAnew_items items rest), ih h.2, itemTokens]
    simp [Function.comp_def]

theorem tokensOf?_fields {fs : List (String × Json)} (h : ∀ f ∈ fs, Lexed f.2) (first : Bool)
    (rest : List Char) : tokensOf? ((compactFields first fs).toList ++ '\x7d' :: rest)
      = (tokensOf? rest).map (fieldTokens first fs ++ .closeObject :: ·) := by
  induction fs generalizing first with
  | nil => exact tokensOf?_cons rfl rfl
  | cons f fs ih =>
    rw [List.forall_mem_cons] at h
    obtain ⟨key, v⟩ := f
    have hcolon : ∀ cs, tokensOf? (":".toList ++ cs) = (tokensOf? cs).map (.colon :: ·) :=
      fun cs => tokensOf?_cons rfl rfl
    simp only [compactFields, String.toList_append, List.append_assoc]
    rw [tokensOf?_comma, tokensOf?_string, hcolon, h.1 _ (startsAnew_fields fs rest), ih h.2,
      fieldTokens]
    simp [Function.comp_def]

/-- **A value that can be read back is cut into its tokens.** -/
theorem Readable.lexed {v : Json} (h : Readable v) : Lexed v := by
  induction h with
  | null =>
    have hword : ∀ c ∈ "null".toList, isBare c = true := by simp [isBare]
    intro rest hrest
    exact tokensOf?_scalar hword (if_pos rfl) hrest
  | bool b =>
    have hword : ∀ c ∈ (if b then "true" else "false").toList, isBare c = true := by
      cases b <;> simp [isBare]
    have hbare : bare? (if b then "true" else "false").toList = some (.bool b) := by
      cases b <;> rfl
    intro rest hrest
    exact tokensOf?_scalar hword hbare hrest
  | integer i =>
    intro rest hrest
    rw [compact]
    exact tokensOf?_scalar (forall_isBare_encodeInteger i)
      (bare?_of_number? (number?_encodeInteger i)) hrest
  | real number bare =>
    intro rest hrest
    rw [compact]
    exact tokensOf?_scalar bare (bare?_of_number? number) hrest
  | string s =>
    intro rest hrest
    rw [compact]
    exact tokensOf?_string s rest
  | @array items each ih =>
    intro rest hrest
    have hopen : ∀ cs, tokensOf? ("[".toList ++ cs) = (tokensOf? cs).map (.openArray :: ·) :=
      fun cs => tokensOf?_cons rfl rfl
    have hclose : "]".toList ++ rest = ']' :: rest := rfl
    rw [compact, String.toList_append, String.toList_append, List.append_assoc, List.append_assoc,
      hopen, hclose, tokensOf?_items ih, toTokens]
    simp [Function.comp_def]
  | @object fs each ih =>
    intro rest hrest
    have hopen : ∀ cs, tokensOf? ("\x7b".toList ++ cs) = (tokensOf? cs).map (.openObject :: ·) :=
      fun cs => tokensOf?_cons rfl rfl
    have hclose : "\x7d".toList ++ rest = '\x7d' :: rest := rfl
    rw [compact, String.toList_append, String.toList_append, List.append_assoc, List.append_assoc,
      hopen, hclose, tokensOf?_fields ih, toTokens]
    simp [Function.comp_def]

end Wiring.Json
