import Mathlib
import Wiring.Text.LetterCase
import Wiring.Text.CharClass

/-!
# What lower case leaves alone

A character and its lower-case partner are of one kind: both are letters or neither is, and so for
numbers, decimal digits and marks (`isLetter_lowercaseChar`, `isDecimal_lowercaseChar`,
`isAlphanumeric_lowercaseChar`).

There are too many characters for a look at each of them, so this is read off the tables.  On the
characters of a run of `lowercaseRuns` a property has one value, and it has the same value on their
partners.  `keeps` checks it along a list of runs and a list of changes at the same time: the runs
are in the order of their first characters, so the changes that are behind one run are behind all
that follow it.  The partners stand in another order than the characters, hence the check is made
once with the runs as they are listed and once with the runs sorted by their partners.
-/

namespace Wiring.Text

/-! ## A property along a list of runs -/

section

variable {m n k low start : Nat} {now : Bool} {changes : List Nat} {r : CodeRun}
  {value : CodeRun → Bool} {runs : List (CodeRun × Nat)} {e : CodeRun × Nat}

/-- How far the code points of a run are from its first. -/
def CodeRun.offsets (r : CodeRun) : List Nat :=
  (List.range ((r.last - r.first) / r.step + 1)).map (r.step * ·)

theorem CodeRun.mem_offsets (h : r.contains n = true) : n - r.first ∈ r.offsets := by
  have hparts : (r.first ≤ n ∧ n ≤ r.last) ∧ (n - r.first) % r.step = 0 := by
    simpa [CodeRun.contains] using h
  obtain ⟨⟨-, hlast⟩, hstep⟩ := hparts
  have hle : (n - r.first) / r.step ≤ (r.last - r.first) / r.step :=
    Nat.div_le_div_right (by omega)
  refine List.mem_map.2 ⟨(n - r.first) / r.step, List.mem_range.2 (by omega), ?_⟩
  exact Nat.mul_div_cancel' (Nat.dvd_of_mod_eq_zero hstep)

/-- The value of a property at `n` and the changes that come after `n`. -/
def ahead (n : Nat) : Bool → List Nat → Bool × List Nat
  | now, [] => (now, [])
  | now, change :: rest => bif Nat.blt n change then (now, change :: rest) else ahead n (!now) rest

/-- Changes that are behind may be forgotten. -/
theorem holdsFrom_ahead (h : m ≤ n) (now : Bool) (changes : List Nat) :
    holdsFrom n (ahead m now changes).1 (ahead m now changes).2 = holdsFrom n now changes := by
  induction changes generalizing now with
  | nil => rfl
  | cons change rest ih =>
    rw [ahead]
    cases hblt : Nat.blt m change with
    | true => rfl
    | false =>
      have hle : change ≤ n := by
        have hnot : ¬ m < change := by simp [← Nat.blt_eq, hblt]
        omega
      rw [holdsFrom_of_le hle]
      exact ih _

/-- Whether the runs stand in order from `low` on, where each begins at the number beside it, and the
property has on each of them the value that is given for it. -/
def keeps (value : CodeRun → Bool) (low : Nat) (now : Bool) (changes : List Nat) :
    List (CodeRun × Nat) → Bool
  | [] => true
  | (r, start) :: rest =>
    match ahead start now changes with
    | (now, changes) => Nat.ble low start &&
      r.offsets.all (fun k => holdsFrom (start + k) now changes == value r) &&
      keeps value start now changes rest

theorem holdsFrom_of_keeps (h : keeps value low now changes runs = true) (he : e ∈ runs) :
    low ≤ e.2 ∧ ∀ k ∈ e.1.offsets, holdsFrom (e.2 + k) now changes = value e.1 := by
  induction runs generalizing low now changes with
  | nil => cases he
  | cons first rest ih =>
    obtain ⟨r, start⟩ := first
    have hahead : ∀ n, start ≤ n → holdsFrom n (ahead start now changes).1
        (ahead start now changes).2 = holdsFrom n now changes :=
      fun n hn => holdsFrom_ahead hn now changes
    obtain ⟨⟨hlow, hhere⟩, hrest⟩ : (low ≤ start ∧
        ∀ k ∈ r.offsets, holdsFrom (start + k) (ahead start now changes).1
          (ahead start now changes).2 = value r) ∧
        keeps value start (ahead start now changes).1 (ahead start now changes).2 rest = true := by
      simpa [keeps] using h
    -- the runs that follow begin at `start` or later, where nothing has been forgotten
    rcases List.mem_cons.1 he with rfl | he
    · exact ⟨hlow, fun k hk => by rw [← hhere k hk, hahead _ (by omega)]⟩
    · obtain ⟨hstart, hvalue⟩ := ih hrest he
      exact ⟨by omega, fun k hk => by rw [← hvalue k hk, hahead _ (by omega)]⟩

end

/-! ## Characters and their partners -/

section

variable {value : CodeRun → Bool} {changes : List Nat} {c : Char}

/-- The runs that have partners, each with its first code point. -/
def sources : List (CodeRun × Nat) :=
  lowercaseRuns.map fun e => (e.1, e.1.first)

/-- The runs that have partners, each with its first partner, in the order of these. -/
def targets : List (CodeRun × Nat) :=
  lowercaseRuns.insertionSort fun e e' => e.2 ≤ e'.2

/-- Whether a property has on each run, and on the partners of the run, the value that is given. -/
def tells (value : CodeRun → Bool) (changes : List Nat) : Bool :=
  keeps value 0 false changes sources && keeps value 0 false changes targets

/-- The partners of a run are code points of characters. -/
theorem isValidChar_target :
    ∀ e ∈ lowercaseRuns, ∀ k ∈ e.1.offsets, (e.2 + k).isValidChar := by
  decide +kernel

/-- A character without a partner stays, and one with a partner becomes the one that stands in the
partners' run where it stands in its own. -/
theorem lowercaseChar_cases (c : Char) : lowercaseChar c = c ∨
    ∃ e ∈ lowercaseRuns, ∃ k ∈ e.1.offsets,
      c.toNat = e.1.first + k ∧ (lowercaseChar c).toNat = e.2 + k := by
  rw [lowercaseChar]
  cases hfind : lowercaseRuns.find? (·.1.contains c.toNat) with
  | none => exact .inl rfl
  | some e =>
    have hmem := List.mem_of_find?_eq_some hfind
    have hcontains := List.find?_some (p := fun e : CodeRun × Nat => e.1.contains c.toNat) hfind
    have hfirst : e.1.first ≤ c.toNat := by
      simp only [CodeRun.contains, Bool.and_eq_true, decide_eq_true_eq] at hcontains
      exact hcontains.1.1
    have hk := CodeRun.mem_offsets hcontains
    refine .inr ⟨e, hmem, _, hk, by omega, ?_⟩
    simp [Char.toNat_ofNat, isValidChar_target e hmem _ hk]

/-- **A property that is the same on each run and on its partners is the same on a character and
on its partner.** -/
theorem holdsAt_lowercaseChar (h : tells value changes = true) (c : Char) :
    holdsAt changes (lowercaseChar c) = holdsAt changes c := by
  obtain ⟨hsources, htargets⟩ : keeps value 0 false changes sources = true ∧
      keeps value 0 false changes targets = true := by simpa [tells] using h
  rcases lowercaseChar_cases c with hself | ⟨e, he, k, hk, hc, hpartner⟩
  · rw [hself]
  · have hsource : (e.1, e.1.first) ∈ sources := List.mem_map.2 ⟨e, he, rfl⟩
    have htarget : e ∈ targets := (List.mem_insertionSort _).2 he
    rw [holdsAt, holdsAt, hpartner, hc, (holdsFrom_of_keeps htargets htarget).2 k hk]
    exact ((holdsFrom_of_keeps hsources hsource).2 k hk).symm

end

/-! ## The kinds of characters -/

/-- Where the letters in circles and squares begin and end.  They count as `Alphabetic`, but belong
to the category of symbols. -/
def enclosedChanges : List Nat :=
  [0x24B6, 0x24EA, 0x1F130, 0x1F14A, 0x1F150, 0x1F16A, 0x1F170, 0x1F18A]

/-- Whether `c` belongs to the category of letters: it is `Alphabetic`, but not a number, a mark or
an enclosed letter. -/
def isLetter (c : Char) : Bool :=
  isAlphabetic c && !isNumeric c && !isMark c && !holdsAt enclosedChanges c

theorem isAlphabetic_lowercaseChar (c : Char) : isAlphabetic (lowercaseChar c) = isAlphabetic c :=
  have htells : tells (fun _ => true) alphabeticChanges = true := by decide +kernel
  holdsAt_lowercaseChar htells c

/-- Of the runs only the Roman numerals are numbers. -/
theorem isNumeric_lowercaseChar (c : Char) : isNumeric (lowercaseChar c) = isNumeric c :=
  have htells : tells (·.first == 0x2160) numericChanges = true := by decide +kernel
  holdsAt_lowercaseChar htells c

theorem isMark_lowercaseChar (c : Char) : isMark (lowercaseChar c) = isMark c :=
  have htells : tells (fun _ => false) markChanges = true := by decide +kernel
  holdsAt_lowercaseChar htells c

theorem isDecimal_lowercaseChar (c : Char) : isDecimal (lowercaseChar c) = isDecimal c :=
  have htells : tells (fun _ => false) decimalChanges = true := by decide +kernel
  holdsAt_lowercaseChar htells c

theorem isAlphanumeric_lowercaseChar (c : Char) :
    isAlphanumeric (lowercaseChar c) = isAlphanumeric c := by
  rw [isAlphanumeric, isAlphabetic_lowercaseChar, isNumeric_lowercaseChar, isAlphanumeric]

/-- Of the runs only the letters in circles are enclosed. -/
theorem isLetter_lowercaseChar (c : Char) : isLetter (lowercaseChar c) = isLetter c := by
  have htells : tells (·.first == 0x24B6) enclosedChanges = true := by decide +kernel
  rw [isLetter, isAlphabetic_lowercaseChar, isNumeric_lowercaseChar, isMark_lowercaseChar,
    holdsAt_lowercaseChar htells, isLetter]

/-! ## Texts in lower case -/

/-- A property that a character shares with what lower case makes of it. -/
structure IgnoresCase (P : Char → Prop) : Prop where
  partner : ∀ c, P (lowercaseChar c) ↔ P c
  finalSigma : P 'ς' ↔ P 'σ'
  dotted : P 'i' ↔ P 'İ'

namespace IgnoresCase

variable {P Q : Char → Prop}

theorem imp (hP : IgnoresCase P) (hQ : IgnoresCase Q) : IgnoresCase fun c => P c → Q c :=
  ⟨fun c => imp_congr (hP.partner c) (hQ.partner c), imp_congr hP.finalSigma hQ.finalSigma,
    imp_congr hP.dotted hQ.dotted⟩

theorem or (hP : IgnoresCase P) (hQ : IgnoresCase Q) : IgnoresCase fun c => P c ∨ Q c :=
  ⟨fun c => or_congr (hP.partner c) (hQ.partner c), or_congr hP.finalSigma hQ.finalSigma,
    or_congr hP.dotted hQ.dotted⟩

theorem alphanumeric : IgnoresCase (isAlphanumeric · = true) :=
  ⟨fun c => by rw [isAlphanumeric_lowercaseChar], by decide +kernel, by decide +kernel⟩

theorem letter : IgnoresCase (isLetter · = true) :=
  ⟨fun c => by rw [isLetter_lowercaseChar], by decide +kernel, by decide +kernel⟩

theorem decimal : IgnoresCase (isDecimal · = true) :=
  ⟨fun c => by rw [isDecimal_lowercaseChar], by decide +kernel, by decide +kernel⟩

end IgnoresCase

/-- Lower case makes of a character one that is like it, which a combining dot may follow. -/
theorem lowercaseAfter_cons (before : List Char) (c : Char) (rest : List Char) : ∃ first dots,
    lowercaseAfter before (c :: rest) = first :: (dots ++ lowercaseAfter (c :: before) rest) ∧
      (∀ P, IgnoresCase P → (P first ↔ P c)) ∧ ∀ d ∈ dots, d = '\u0307' := by
  by_cases hsigma : c = 'Σ'
  · have hpartner : lowercaseChar 'Σ' = 'σ' := by decide +kernel
    subst hsigma
    by_cases hfinal : (startsCased before && !startsCased rest) = true
    · refine ⟨'ς', [], by simp [lowercaseAfter, hfinal], fun P hP => ?_, by simp⟩
      rw [hP.finalSigma, ← hpartner, hP.partner]
    · refine ⟨'σ', [], by simp [lowercaseAfter, hfinal], fun P hP => ?_, by simp⟩
      rw [← hpartner, hP.partner]
  by_cases hdotted : c = 'İ'
  · subst hdotted
    exact ⟨'i', ['\u0307'], by simp [lowercaseAfter], fun P hP => hP.dotted, by simp⟩
  · exact ⟨lowercaseChar c, [], by simp [lowercaseAfter, hsigma, hdotted],
      fun P hP => hP.partner c, by simp⟩

/-- **A property that ignores case and that a combining dot has holds throughout a text exactly if
it does throughout the text in lower case.** -/
theorem forall_mem_lowercaseAfter {P : Char → Prop} (hP : IgnoresCase P) (hdot : P '\u0307')
    (before cs : List Char) : (∀ c ∈ lowercaseAfter before cs, P c) ↔ ∀ c ∈ cs, P c := by
  induction cs generalizing before with
  | nil => simp [lowercaseAfter]
  | cons c rest ih =>
    obtain ⟨first, dots, heq, hfirst, hdots⟩ := lowercaseAfter_cons before c rest
    have hall : ∀ d ∈ dots, P d := fun d hd => by rw [hdots d hd]; exact hdot
    rw [heq, List.forall_mem_cons, List.forall_mem_append, hfirst P hP, ih, List.forall_mem_cons]
    exact and_congr_right fun _ => and_iff_right hall

end Wiring.Text
