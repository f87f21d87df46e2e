import Mathlib
import Wiring.Go.Declaration
import Wiring.Proofs.Go.Shape

/-!
# A written function is read back

A function is written with its name, its parameters and its result on one line, and an empty body
(`Head.text`).  Its text is cut into the tokens of its parts (`tokensFrom_head`), and the reader of
functions gives the function back from them, together with whatever comes after the body
(`func?_tokens`).  A parameter is told from a lone type by what stands behind its name: neither a comma
nor a parenthesis, nor a dot, nor brackets that could hold type arguments.
-/

namespace Wiring.Go

open Token

/-! ## Texts -/

/-- A parameter with a name.  The last one of a variadic function stands for any number of values. -/
structure Param where
  name : String
  variadic : Bool
  shape : Shape

namespace Param

def text (p : Param) : String :=
  p.name ++ " " ++ (if p.variadic then "..." else "") ++ p.shape.text

def tokens (row : Nat) (p : Param) : List Token :=
  .ofWord row p.name :: .ofSpace row ::
    ((if p.variadic then [.ofSymbol row "..."] else []) ++ shapeTokens row p.shape)

def field (p : Param) : FieldDecl :=
  .ofName p.name (if p.variadic then .slice p.shape else p.shape)

/-- A parameter whose name and shape can be read back. -/
structure Plain (p : Param) : Prop where
  isName : IsName p.name
  plain : Go.Plain p.shape

end Param

def paramsText : List Param → String
  | [] => ""
  | [p] => p.text
  | p :: q :: rest => p.text ++ ", " ++ paramsText (q :: rest)

def paramsTokens (row : Nat) : List Param → List Token
  | [] => []
  | [p] => p.tokens row
  | p :: q :: rest => p.tokens row ++ .ofSymbol row "," :: .ofSpace row :: paramsTokens row (q :: rest)

/-- A function without receiver that returns one value or none. -/
structure Head where
  name : String
  params : List Param
  result : Option Shape

namespace Head

def text (f : Head) : String :=
  "func " ++ f.name ++ "(" ++ paramsText f.params ++ ")" ++
    (f.result.map fun s => " " ++ s.text).getD "" ++ " \x7b\x7d"

def tokens (row : Nat) (f : Head) : List Token :=
  .ofSpace row :: .ofWord row f.name :: .ofSymbol row "(" :: (paramsTokens row f.params ++
    .ofSymbol row ")" :: ((f.result.map fun s => .ofSpace row :: shapeTokens row s).getD [] ++
      [.ofSpace row, .ofSymbol row "\x7b", .ofSymbol row "\x7d"]))

def decl (f : Head) : FuncDecl :=
  { FuncDecl.ofName f.name with
    params := f.params.map Param.field, returns := (f.result.map FieldDecl.unnamed).toList }

/-- A function whose names and shapes can be read back. -/
structure Plain (f : Head) : Prop where
  isName : IsName f.name
  params : ∀ p ∈ f.params, p.Plain
  result : ∀ s ∈ f.result, Go.Plain s

end Head

/-! ## Cutting -/

theorem startsDark_name {s : String} (hs : IsName s) (rest : List Char) :
    StartsDark (s.toList ++ rest) := by
  have hchars := hs.chars
  cases hcs : s.toList with
  | nil => exact absurd hcs hs.ne_nil
  | cons c cs =>
    rw [hcs, List.forall_mem_cons] at hchars
    exact startsDark_cons (isBlank_of_isNameChar hchars.1) _

theorem startsDark_shape {s : Shape} (hs : Plain s) (rest : List Char) :
    StartsDark (s.text.toList ++ rest) := by
  cases hs with
  | name isName => exact startsDark_name isName rest
  | member isPackage isName =>
    rw [Shape.text, String.toList_append, String.toList_append, List.append_assoc,
      List.append_assoc]
    exact startsDark_name isPackage _
  | pointer plain =>
    rw [Shape.text, String.toList_append, List.append_assoc]
    exact startsDark_cons (by decide) _
  | slice plain =>
    rw [Shape.text, String.toList_append, List.append_assoc]
    exact startsDark_cons (by decide) _
  | map plainKey plainValue =>
    simp only [Shape.text, String.toList_append, List.append_assoc]
    exact startsDark_cons (by decide) _

theorem tokensFrom_ellipsis (row : Nat) (rest : List Char) : tokensFrom row ("...".toList ++ rest)
    = .ofSymbol row "..." :: tokensFrom row rest := by
  have hat : tokenAt '.' ('.' :: '.' :: rest) = (.symbol, 2) := rfl
  exact tokensFrom_cons hat row

theorem tokensFrom_param {p : Param} (hp : p.Plain) {rest : List Char} (hrest : EndsWord rest)
    (row : Nat) : tokensFrom row (p.text.toList ++ rest) = p.tokens row ++ tokensFrom row rest := by
  have hspace : ∀ cs, EndsWord (' ' :: cs) := endsWord_cons (by decide)
  rw [Param.text, Param.tokens]
  cases p.variadic with
  | false =>
    simp only [Bool.false_eq_true, if_false, String.append_empty, String.toList_append,
      List.append_assoc]
    show tokensFrom row (p.name.toList ++ ' ' :: (p.shape.text.toList ++ rest)) = _
    rw [tokensFrom_word hp.isName.toIsWord (hspace _),
      tokensFrom_space (startsDark_shape hp.plain rest), tokensFrom_shape hp.plain hrest]
    rfl
  | true =>
    simp only [if_true, String.toList_append, List.append_assoc]
    show tokensFrom row
      (p.name.toList ++ ' ' :: ("...".toList ++ (p.shape.text.toList ++ rest))) = _
    have hdots : StartsDark ("...".toList ++ (p.shape.text.toList ++ rest)) :=
      startsDark_cons (by decide) _
    rw [tokensFrom_word hp.isName.toIsWord (hspace _), tokensFrom_space hdots,
      tokensFrom_ellipsis, tokensFrom_shape hp.plain hrest]
    rfl

theorem startsDark_params {p : Param} (hp : p.Plain) (ps : List Param) (rest : List Char) :
    StartsDark ((paramsText (p :: ps)).toList ++ rest) := by
  cases ps <;>
  · simp only [paramsText, Param.text, String.toList_append, List.append_assoc]
    exact startsDark_name hp.isName _

theorem tokensFrom_params {ps : List Param} (hps : ∀ p ∈ ps, p.Plain) {rest : List Char}
    (hrest : EndsWord rest) (row : Nat) :
    tokensFrom row ((paramsText ps).toList ++ rest) = paramsTokens row ps ++ tokensFrom row rest := by
  induction ps with
  | nil => rfl
  | cons p ps ih =>
    rw [List.forall_mem_cons] at hps
    cases ps with
    | nil => exact tokensFrom_param hps.1 hrest row
    | cons q ps =>
      have hdark := startsDark_params (hps.2 q List.mem_cons_self) ps rest
      have hcomma : ∀ cs, EndsWord (',' :: cs) := endsWord_cons (by decide)
      simp only [paramsText, String.toList_append, List.append_assoc]
      show tokensFrom row
        (p.text.toList ++ ',' :: ' ' :: ((paramsText (q :: ps)).toList ++ rest)) = _
      rw [tokensFrom_param hps.1 (hcomma _), tokensFrom_symbol rfl (by decide),
        tokensFrom_space hdark, ih hps.2, paramsTokens, List.append_assoc]
      rfl

theorem isWord_func : IsWord "func" where
  ne_nil := by simp
  head := by simp
  chars := by simp [isNameChar]

/-- The text of a function is cut into its tokens, wherever it stands. -/
theorem tokensFrom_head {f : Head} (hf : f.Plain) (rest : List Char) (row : Nat) :
    tokensFrom row (f.text.toList ++ rest)
      = .ofWord row "func" :: (f.tokens row ++ tokensFrom row rest) := by
  have hspace : ∀ cs, EndsWord (' ' :: cs) := endsWord_cons (by decide)
  have hopen : ∀ cs, EndsWord ('(' :: cs) := endsWord_cons (by decide)
  have hclose : ∀ cs, EndsWord (')' :: cs) := endsWord_cons (by decide)
  have hbody : tokensFrom row (" \x7b\x7d".toList ++ rest) = .ofSpace row ::
      .ofSymbol row "\x7b" :: .ofSymbol row "\x7d" :: tokensFrom row rest := by
    show tokensFrom row (' ' :: '\x7b' :: '\x7d' :: rest) = _
    rw [tokensFrom_space (startsDark_cons (by decide) _), tokensFrom_symbol rfl (by decide),
      tokensFrom_symbol rfl (by decide)]
    rfl
  have hresult : tokensFrom row (((f.result.map fun s => " " ++ s.text).getD "").toList ++
      (" \x7b\x7d".toList ++ rest))
        = (f.result.map fun s => .ofSpace row :: shapeTokens row s).getD [] ++
            tokensFrom row (" \x7b\x7d".toList ++ rest) := by
    have hplain := hf.result
    cases hr : f.result with
    | none => rfl
    | some s =>
      have hs := hplain s hr
      have hends : EndsWord (" \x7b\x7d".toList ++ rest) := endsWord_cons (by decide) _
      simp only [Option.map_some, Option.getD_some, String.toList_append, List.append_assoc]
      show tokensFrom row (' ' :: (s.text.toList ++ (" \x7b\x7d".toList ++ rest))) = _
      rw [tokensFrom_space (startsDark_shape hs _), tokensFrom_shape hs hends]
      rfl
  simp only [Head.text, String.toList_append, List.append_assoc]
  show tokensFrom row ("func".toList ++ ' ' :: (f.name.toList ++ '(' ::
    ((paramsText f.params).toList ++ ')' ::
      (((f.result.map fun s => " " ++ s.text).getD "").toList ++ (" \x7b\x7d".toList ++ rest))))) = _
  rw [tokensFrom_word isWord_func (hspace _), tokensFrom_space (startsDark_name hf.isName _),
    tokensFrom_word hf.isName.toIsWord (hopen _), tokensFrom_symbol rfl (by decide),
    tokensFrom_params hf.params (hclose _), tokensFrom_symbol rfl (by decide), hresult, hbody,
    Head.tokens]
  simp

/-! ## Reading -/

section Reading

variable {row : Nat} {rest ts : List Token}

theorem shapeWithin?_ofSpace (fuel : Nat) (ts : List Token) :
    shapeWithin? fuel (ofSpace row :: ts) = shapeWithin? fuel ts := by
  cases fuel <;> rfl

theorem shape?_tokens {s : Shape} (hs : Plain s) (hrest : EndsShape rest) :
    shape? (shapeTokens row s ++ rest) = some (s, rest) := by
  apply shapeWithin?_tokens hs _ hrest
  simp

theorem shape?_ofSpace {s : Shape} (hs : Plain s) (hrest : EndsShape rest) :
    shape? (ofSpace row :: (shapeTokens row s ++ rest)) = some (s, rest) := by
  rw [shape?, shapeWithin?_ofSpace]
  apply shapeWithin?_tokens hs _ hrest
  simp only [List.length_cons, List.length_append]
  omega

/-- A shape starts with a name, a keyword, a star or a bracket. -/
theorem nextIs_shapeTokens {s : Shape} (hs : Plain s) {symbol : String} (hstar : symbol ≠ "*")
    (hopen : symbol ≠ "[") (rest : List Token) :
    nextIs symbol (shapeTokens row s ++ rest) = false := by
  cases hs <;> simp [nextIs, shapeTokens, hstar.symm, hopen.symm]

/-- The brackets before a slice do not end a parameter. -/
theorem endsAfterTypeArguments_shapeTokens {s : Shape} (hs : Plain s) (rest : List Token) :
    endsAfterTypeArguments (shapeTokens row s ++ rest) = false := by
  cases hs <;> simp [endsAfterTypeArguments, symbol?, nextIs, shapeTokens]

def Param.entry (p : Param) : Entry :=
  if p.variadic then .variadic (some p.name) p.shape else .named p.name p.shape

theorem entry?_tokens {p : Param} (hp : p.Plain) (hts : skip ts = p.tokens row ++ rest)
    (hrest : EndsShape rest) : entry? ts = some (p.entry, rest) := by
  have hellipsis : symbol? "..." ts = none := by
    rw [symbol?, hts]
    rfl
  have hname : ∀ us, p.tokens row ++ rest = ofWord row p.name :: us →
      name? ts = some (p.name, us) := by
    intro us hus
    rw [name?, hts, hus, ← name?_ofWord hp.isName, name?, skip_ofWord]
  rw [ entry?, hellipsis, Param.entry]
  dsimp only
  cases hvariadic : p.variadic with
  | false =>
    have hnext : ∀ symbol, symbol ≠ "*" → symbol ≠ "[" →
        nextIs symbol (ofSpace row :: (shapeTokens row p.shape ++ rest)) = false :=
      fun symbol hstar hopen => nextIs_shapeTokens hp.plain hstar hopen rest
    have hend : endsAfterTypeArguments (ofSpace row :: (shapeTokens row p.shape ++ rest)) = false :=
      endsAfterTypeArguments_shapeTokens hp.plain rest
    rw [hname (ofSpace row :: (shapeTokens row p.shape ++ rest)) (by simp [Param.tokens, hvariadic])]
    simp [hnext, hend, symbol?_eq_none (hnext "..." (by decide) (by decide)),
      shape?_ofSpace hp.plain hrest]
  | true =>
    rw [hname (ofSpace row :: ofSymbol row "..." :: (shapeTokens row p.shape ++ rest))
      (by simp [Param.tokens, hvariadic])]
    simp [nextIs, endsAfterTypeArguments, symbol?, shape?_tokens hp.plain hrest]

theorem entriesWithin?_tokens {ps : List Param} (hps : ∀ p ∈ ps, p.Plain) {fuel : Nat}
    (hfuel : ps.length < fuel)
    (hts : skip ts = paramsTokens row ps ++ .ofSymbol row ")" :: rest) :
    entriesWithin? fuel ts = some (ps.map Param.entry, rest) := by
  induction ps generalizing fuel ts with
  | nil =>
    obtain ⟨fuel, rfl⟩ := Nat.exists_eq_add_one.2 hfuel
    have hclose : symbol? ")" ts = some rest := by
      rw [symbol?, hts]
      rfl
    rw [entriesWithin?, hclose]
    rfl
  | cons p ps ih =>
    rw [List.forall_mem_cons] at hps
    obtain ⟨fuel, rfl⟩ := Nat.exists_eq_add_one.2 (Nat.zero_lt_of_lt hfuel)
    have hopen : symbol? ")" ts = none := by
      rw [symbol?, hts]
      cases ps <;> rfl
    rw [entriesWithin?, hopen]
    cases ps with
    | nil =>
      have hentry := entry?_tokens hps.1 hts (endsShape_ofSymbol (by decide) (by decide))
      simp [hentry, symbol?]
    | cons q ps =>
      rw [paramsTokens, List.append_assoc] at hts
      have hentry := entry?_tokens hps.1 hts (endsShape_ofSymbol (by decide) (by decide))
      have hmore : skip (ofSpace row :: (paramsTokens row (q :: ps) ++ ofSymbol row ")" :: rest))
          = paramsTokens row (q :: ps) ++ ofSymbol row ")" :: rest := by
        cases ps <;> rfl
      have hrest := ih hps.2 (Nat.lt_of_add_lt_add_right hfuel) hmore
      simp [hentry, symbol?_ofSymbol, hrest]

/-- The fields that named parameters declare are their own. -/
theorem fieldsWithType_entries (ps : List Param) :
    (fieldsWithType (ps.map Param.entry)).1 = ps.map Param.field := by
  induction ps with
  | nil => rfl
  | cons p ps ih =>
    rw [List.map_cons, List.map_cons, ← ih, Param.entry, Param.field]
    cases p.variadic <;> rfl

theorem length_le_paramsTokens (ps : List Param) : ps.length ≤ (paramsTokens row ps).length := by
  induction ps with
  | nil => exact Nat.zero_le _
  | cons p ps ih =>
    cases ps with
    | nil => simp [paramsTokens, Param.tokens]
    | cons q ps =>
      simp only [paramsTokens, List.length_append, List.length_cons] at ih ⊢
      omega

theorem fields?_tokens {ps : List Param} (hps : ∀ p ∈ ps, p.Plain) :
    fields? (.ofSymbol row "(" :: (paramsTokens row ps ++ .ofSymbol row ")" :: rest))
      = some (ps.map Param.field, rest) := by
  have hskip : skip (paramsTokens row ps ++ ofSymbol row ")" :: rest)
      = paramsTokens row ps ++ ofSymbol row ")" :: rest := by
    rcases ps with _ | ⟨p, _ | ⟨q, ps⟩⟩ <;> rfl
  have hfuel : ps.length < (paramsTokens row ps ++ ofSymbol row ")" :: rest).length + 1 := by
    have hle := @length_le_paramsTokens row ps
    rw [List.length_append]
    omega
  rw [fields?, symbol?_ofSymbol]
  show (entriesWithin? _ _).bind _ = _
  rw [entriesWithin?_tokens hps hfuel hskip]
  show some ((fieldsWithType (ps.map Param.entry)).1, rest) = _
  rw [fieldsWithType_entries]

theorem resultAhead_shapeTokens {s : Shape} (hs : Plain s) (rest : List Token) :
    resultAhead (ofSpace row :: (shapeTokens row s ++ rest)) = true := by
  cases hs with
  | name isName => simp [resultAhead, shapeTokens, startsType, isName_ofWord isName]
  | member isPackage isName =>
    simp [resultAhead, shapeTokens, startsType, isName_ofWord isPackage]
  | _ => simp [resultAhead, shapeTokens, startsType]

/-- The result is read up to the body. -/
theorem returns?_tokens {result : Option Shape} (hresult : ∀ s ∈ result, Plain s) :
    returns? ((result.map fun s => .ofSpace row :: shapeTokens row s).getD [] ++
        .ofSpace row :: .ofSymbol row "\x7b" :: rest)
      = some ((result.map FieldDecl.unnamed).toList,
          .ofSpace row :: .ofSymbol row "\x7b" :: rest) := by
  cases result with
  | none => simp [returns?, resultAhead, startsType]
  | some s =>
    have hs := hresult s rfl
    have hbody : EndsShape (ofSpace row :: ofSymbol row "\x7b" :: rest) :=
      ⟨by simp [nextIs], by simp [nextIs]⟩
    have hopen : nextIs "(" (ofSpace row :: (shapeTokens row s ++
        ofSpace row :: ofSymbol row "\x7b" :: rest)) = false :=
      nextIs_shapeTokens hs (by decide) (by decide) _
    rw [Option.map_some, Option.getD_some, List.cons_append, returns?, resultAhead_shapeTokens hs,
      hopen, shape?_ofSpace hs hbody]
    rfl

theorem afterBody_tokens : afterBody
    (.ofSpace row :: .ofSymbol row "\x7b" :: .ofSymbol row "\x7d" :: rest) = rest := by
  have hgroup : afterGroup? "\x7b" (ofSpace row :: ofSymbol row "\x7b" ::
      ofSymbol row "\x7d" :: rest) = some rest := by
    simp [afterGroup?, symbol?, afterClose?, Token.opens, Token.closes]
  rw [afterBody, hgroup, lineBreakAhead_ofSpace]
  rfl

/-- **A function is read from its tokens.** -/
theorem func?_tokens {f : Head} (hf : f.Plain) :
    func? (f.tokens row ++ rest) = some (f.decl, rest) := by
  simp only [Head.tokens, List.cons_append, List.append_assoc, List.nil_append]
  have hname : ∀ us, name? (ofSpace row :: ofWord row f.name :: us) = some (f.name, us) :=
    fun us => name?_ofWord hf.isName
  have hopen : ∀ us, nextIs "(" (ofSpace row :: ofWord row f.name :: us) = false := by
    simp [nextIs]
  have harguments : ∀ us, afterTypeArguments (ofSymbol row "(" :: us) = ofSymbol row "(" :: us :=
    fun us => afterTypeArguments_eq (by simp [nextIs])
  rw [func?, hopen]
  simp only [Bool.false_eq_true, if_false]
  rw [signature?, hname]
  show ((fields? (afterTypeArguments _)).bind _) = _
  rw [harguments, fields?_tokens hf.params]
  show ((returns? _).bind _) = _
  rw [returns?_tokens hf.result]
  show some (_, afterBody _) = _
  rw [afterBody_tokens]
  rfl

end Reading

end Wiring.Go
