import Mathlib
import Wiring.Go.Declaration

/-!
# Readers go forward

What follows something that was read is the end of the tokens at hand, for every reader.  So the
reader of a file comes to its end whatever stands there: the number of steps that it may take does not
count, if it may take as many as there are tokens (`nodesWithin_eq`).
-/

namespace Wiring.Go

variable {ts rest after : List Token} {fuel : Nat}

/-! ## Tokens and brackets -/

theorem suffix_of_skip {t : Token} (h : skip ts = t :: rest) : rest <:+ ts :=
  (h ▸ List.suffix_cons t rest).trans (List.dropWhile_suffix _)

theorem suffix_of_symbol? {s : String} (h : symbol? s ts = some rest) : rest <:+ ts := by
  rw [symbol?] at h
  split at h
  · next hts =>
    split at h <;> cases h
    exact suffix_of_skip hts
  · cases h

theorem suffix_of_name? {name : String} (h : name? ts = some (name, rest)) : rest <:+ ts := by
  rw [name?] at h
  split at h
  · next hts =>
    split at h <;> cases h
    exact suffix_of_skip hts
  · cases h

theorem suffix_of_literal? {text : List Char} (h : literal? ts = some (text, rest)) :
    rest <:+ ts := by
  rw [literal?] at h
  split at h
  · next hts =>
    split at h <;> cases h
    exact suffix_of_skip hts
  · cases h

theorem suffix_of_afterClose? {depth : Nat} (h : afterClose? depth ts = some rest) :
    rest <:+ ts := by
  fun_induction afterClose? depth ts with
  | case1 => cases h
  | case3 =>
    cases h
    exact List.suffix_cons _ _
  | case2 _ _ _ _ ih => exact (ih h).trans (List.suffix_cons _ _)
  | case4 _ _ _ _ _ ih => exact (ih h).trans (List.suffix_cons _ _)
  | case5 _ _ _ _ _ ih => exact (ih h).trans (List.suffix_cons _ _)

theorem suffix_of_afterGroup? {opening : String} (h : afterGroup? opening ts = some rest) :
    rest <:+ ts := by
  rw [afterGroup?, Option.bind_eq_some_iff] at h
  obtain ⟨inside, hinside, hrest⟩ := h
  exact (suffix_of_afterClose? hrest).trans (suffix_of_symbol? hinside)

theorem afterTypeArguments_suffix (ts : List Token) : afterTypeArguments ts <:+ ts := by
  rw [afterTypeArguments]
  split
  · exact List.suffix_rfl
  · cases h : afterGroup? "[" ts with
    | none => exact List.suffix_rfl
    | some rest => exact suffix_of_afterGroup? h

theorem afterBody_suffix (ts : List Token) : afterBody ts <:+ ts := by
  rw [afterBody]
  split
  · exact List.suffix_rfl
  · cases h : afterGroup? "\x7b" ts with
    | none => exact List.suffix_rfl
    | some rest => exact suffix_of_afterGroup? h

/-! ## Types and parameters -/

theorem suffix_of_shapeWithin? {s : Shape} (h : shapeWithin? fuel ts = some (s, rest)) :
    rest <:+ ts := by
  induction fuel generalizing s ts rest with
  | zero => cases h
  | succ fuel ih =>
    rw [shapeWithin?] at h
    dsimp only at h
    split at h
    · cases h
    · next t us hts =>
      apply List.IsSuffix.trans _ (suffix_of_skip hts)
      -- the cases are those of the reader: which type it is, is told by the first token
      split at h
      · split at h
        · next member after hmember =>
          cases h
          obtain ⟨inside, hinside, hname⟩ := Option.bind_eq_some_iff.1 hmember
          exact (afterTypeArguments_suffix after).trans
            ((suffix_of_name? hname).trans (suffix_of_symbol? hinside))
        · cases h
          exact afterTypeArguments_suffix us
      -- a pointer
      split at h
      · obtain ⟨⟨elem, after⟩, helem, h⟩ := Option.bind_eq_some_iff.1 h
        cases h
        exact ih helem
      -- a type in parentheses
      split at h
      · obtain ⟨⟨inner, after⟩, hinner, h⟩ := Option.bind_eq_some_iff.1 h
        obtain ⟨close, hclose, h⟩ := Option.bind_eq_some_iff.1 h
        cases h
        exact (suffix_of_symbol? hclose).trans (ih hinner)
      -- a slice or an array
      split at h
      · obtain ⟨inside, hinside, h⟩ := Option.bind_eq_some_iff.1 h
        obtain ⟨⟨elem, after⟩, helem, h⟩ := Option.bind_eq_some_iff.1 h
        cases h
        exact (ih helem).trans (suffix_of_afterClose? hinside)
      -- a map
      split at h
      · obtain ⟨inside, hinside, h⟩ := Option.bind_eq_some_iff.1 h
        obtain ⟨⟨key, after⟩, hkey, h⟩ := Option.bind_eq_some_iff.1 h
        obtain ⟨close, hclose, h⟩ := Option.bind_eq_some_iff.1 h
        obtain ⟨⟨value, after'⟩, hvalue, h⟩ := Option.bind_eq_some_iff.1 h
        cases h
        calc after' <:+ close := ih hvalue
          _ <:+ after := suffix_of_symbol? hclose
          _ <:+ inside := ih hkey
          _ <:+ us := suffix_of_symbol? hinside
      -- a struct or an interface
      split at h
      · obtain ⟨after, hafter, h⟩ := Option.bind_eq_some_iff.1 h
        cases h
        exact suffix_of_afterGroup? hafter
      -- a function, whose result is one type or a list of them
      split at h
      · obtain ⟨after, hafter, h⟩ := Option.bind_eq_some_iff.1 h
        apply List.IsSuffix.trans _ (suffix_of_afterGroup? hafter)
        split at h
        · cases h
          exact List.suffix_rfl
        · split at h
          · obtain ⟨after', hafter', h⟩ := Option.bind_eq_some_iff.1 h
            cases h
            exact suffix_of_afterGroup? hafter'
          · obtain ⟨⟨result, after'⟩, hresult, h⟩ := Option.bind_eq_some_iff.1 h
            cases h
            exact ih hresult
      -- a channel, which may be for sending only
      split at h
      · obtain ⟨⟨elem, after⟩, helem, h⟩ := Option.bind_eq_some_iff.1 h
        cases h
        apply (ih helem).trans
        cases harrow : symbol? "<-" us with
        | none => exact List.suffix_rfl
        | some after' => exact suffix_of_symbol? harrow
      -- a channel for receiving only, or a type set
      split at h
      · obtain ⟨⟨elem, after⟩, helem, h⟩ := Option.bind_eq_some_iff.1 h
        cases h
        exact ih helem
      · cases h

theorem suffix_of_shape? {s : Shape} (h : shape? ts = some (s, rest)) : rest <:+ ts :=
  suffix_of_shapeWithin? h

theorem suffix_of_entry {e : Entry} (h : entry? ts = some (e, rest)) : rest <:+ ts := by
  rw [ entry?] at h
  split at h
  · next us hus =>
    obtain ⟨⟨s, after⟩, hs, h⟩ := Option.bind_eq_some_iff.1 h
    cases h
    exact (suffix_of_shape? hs).trans (suffix_of_symbol? hus)
  · split at h
    · obtain ⟨⟨s, after⟩, hs, h⟩ := Option.bind_eq_some_iff.1 h
      cases h
      exact suffix_of_shape? hs
    · next name us hname =>
      split at h
      · cases h
        exact suffix_of_name? hname
      · split at h
        · obtain ⟨⟨s, after⟩, hs, h⟩ := Option.bind_eq_some_iff.1 h
          cases h
          exact suffix_of_shape? hs
        · apply List.IsSuffix.trans _ (suffix_of_name? hname)
          split at h
          · next vs hvs =>
            obtain ⟨⟨s, after⟩, hs, h⟩ := Option.bind_eq_some_iff.1 h
            cases h
            exact (suffix_of_shape? hs).trans (suffix_of_symbol? hvs)
          · obtain ⟨⟨s, after⟩, hs, h⟩ := Option.bind_eq_some_iff.1 h
            cases h
            exact suffix_of_shape? hs

theorem suffix_of_entriesWithin? {es : List Entry} (h : entriesWithin? fuel ts = some (es, rest)) :
    rest <:+ ts := by
  induction fuel generalizing ts es rest with
  | zero => cases h
  | succ fuel ih =>
    rw [entriesWithin?] at h
    split at h
    · next us hus =>
      cases h
      exact suffix_of_symbol? hus
    · obtain ⟨⟨e, after⟩, he, h⟩ := Option.bind_eq_some_iff.1 h
      apply List.IsSuffix.trans _ (suffix_of_entry he)
      dsimp only at h
      split at h
      · next us hus =>
        obtain ⟨⟨es, after'⟩, hes, h⟩ := Option.bind_eq_some_iff.1 h
        cases h
        exact (ih hes).trans (suffix_of_symbol? hus)
      · obtain ⟨after', hclose, h⟩ := Option.bind_eq_some_iff.1 h
        cases h
        exact suffix_of_symbol? hclose

theorem suffix_of_fields? {fs : List FieldDecl} (h : fields? ts = some (fs, rest)) :
    rest <:+ ts := by
  obtain ⟨inside, hinside, h⟩ := Option.bind_eq_some_iff.1 h
  obtain ⟨⟨es, after⟩, hes, h⟩ := Option.bind_eq_some_iff.1 h
  cases h
  exact (suffix_of_entriesWithin? hes).trans (suffix_of_symbol? hinside)

/-! ## Declarations -/

theorem suffix_of_returns? {fs : List FieldDecl} (h : returns? ts = some (fs, rest)) :
    rest <:+ ts := by
  rw [returns?] at h
  split at h
  · cases h
    exact List.suffix_rfl
  · split at h
    · exact suffix_of_fields? h
    · obtain ⟨⟨s, after⟩, hs, h⟩ := Option.map_eq_some_iff.1 h
      cases h
      exact suffix_of_shape? hs

theorem suffix_of_signature? {receiver : Option FieldDecl} {f : FuncDecl}
    (h : signature? receiver ts = some (f, rest)) : rest <:+ ts := by
  obtain ⟨⟨name, us⟩, hname, h⟩ := Option.bind_eq_some_iff.1 h
  obtain ⟨⟨params, vs⟩, hparams, h⟩ := Option.bind_eq_some_iff.1 h
  obtain ⟨⟨returns, ws⟩, hreturns, h⟩ := Option.bind_eq_some_iff.1 h
  cases h
  calc afterBody ws <:+ ws := afterBody_suffix ws
    _ <:+ vs := suffix_of_returns? hreturns
    _ <:+ afterTypeArguments us := suffix_of_fields? hparams
    _ <:+ us := afterTypeArguments_suffix us
    _ <:+ ts := suffix_of_name? hname

theorem suffix_of_func? {f : FuncDecl} (h : func? ts = some (f, rest)) : rest <:+ ts := by
  rw [func?] at h
  split at h
  · obtain ⟨⟨receivers, us⟩, hreceivers, h⟩ := Option.bind_eq_some_iff.1 h
    exact (suffix_of_signature? h).trans (suffix_of_fields? hreceivers)
  · exact suffix_of_signature? h

theorem suffix_of_import? {is : List ImportDecl} (h : import? ts = some (is, rest)) :
    rest <:+ ts := by
  rw [import?] at h
  split at h
  · next path us hpath =>
    cases h
    exact suffix_of_literal? hpath
  · split at h
    · next us hus =>
      obtain ⟨⟨path, after⟩, hpath, h⟩ := Option.bind_eq_some_iff.1 h
      cases h
      exact (suffix_of_literal? hpath).trans (suffix_of_symbol? hus)
    · obtain ⟨⟨name, us⟩, hname, h⟩ := Option.bind_eq_some_iff.1 h
      obtain ⟨⟨path, after⟩, hpath, h⟩ := Option.bind_eq_some_iff.1 h
      cases h
      exact (suffix_of_literal? hpath).trans (suffix_of_name? hname)

theorem suffix_of_importsWithin? {is : List ImportDecl}
    (h : importsWithin? fuel ts = some (is, rest)) : rest <:+ ts := by
  induction fuel generalizing ts is rest with
  | zero => cases h
  | succ fuel ih =>
    rw [importsWithin?] at h
    split at h
    · next us hus =>
      cases h
      exact suffix_of_symbol? hus
    · split at h
      · next us hus => exact (ih h).trans (suffix_of_symbol? hus)
      · obtain ⟨⟨is, after⟩, his, h⟩ := Option.bind_eq_some_iff.1 h
        obtain ⟨⟨more, after'⟩, hmore, h⟩ := Option.bind_eq_some_iff.1 h
        cases h
        exact (ih hmore).trans (suffix_of_import? his)

theorem suffix_of_imports? {is : List ImportDecl} (h : imports? ts = some (is, rest)) :
    rest <:+ ts := by
  rw [imports?] at h
  split at h
  · next inside hinside => exact (suffix_of_importsWithin? h).trans (suffix_of_symbol? hinside)
  · exact suffix_of_import? h

/-- A type takes at least its name. -/
theorem exists_name_of_typeSpec? {d : TypeDecl} (h : typeSpec? ts = some (d, rest)) :
    ∃ name us, name? ts = some (name, us) ∧ rest <:+ us := by
  obtain ⟨⟨name, us⟩, hname, h⟩ := Option.bind_eq_some_iff.1 h
  refine ⟨name, us, hname, ?_⟩
  have hparameters : (if parametersAhead us then afterTypeArguments us else us) <:+ us := by
    split
    · exact afterTypeArguments_suffix us
    · exact List.suffix_rfl
  apply List.IsSuffix.trans _ hparameters
  dsimp only at h
  split at h
  · next vs hvs =>
    obtain ⟨⟨s, after⟩, hs, h⟩ := Option.bind_eq_some_iff.1 h
    cases h
    exact (suffix_of_shape? hs).trans (suffix_of_symbol? hvs)
  · obtain ⟨⟨s, after⟩, hs, h⟩ := Option.bind_eq_some_iff.1 h
    cases h
    exact suffix_of_shape? hs

theorem suffix_of_typeSpec? {d : TypeDecl} (h : typeSpec? ts = some (d, rest)) : rest <:+ ts := by
  obtain ⟨name, us, hname, hrest⟩ := exists_name_of_typeSpec? h
  exact hrest.trans (suffix_of_name? hname)

theorem suffix_of_typeGroupWithin? {ns : List (Node TypeDecl)}
    (h : typeGroupWithin? fuel ts = some (ns, rest)) : rest <:+ ts := by
  induction fuel generalizing ts ns rest with
  | zero => cases h
  | succ fuel ih =>
    cases ts with
    | nil => cases h
    | cons t us =>
      rw [typeGroupWithin?] at h
      split at h
      · obtain ⟨⟨nodes, after⟩, hnodes, h⟩ := Option.bind_eq_some_iff.1 h
        cases h
        exact (ih hnodes).trans (List.suffix_cons t us)
      · split at h
        · exact (ih h).trans (List.suffix_cons t us)
        · split at h
          · cases h
            exact List.suffix_cons t _
          · obtain ⟨⟨d, after⟩, hd, h⟩ := Option.bind_eq_some_iff.1 h
            obtain ⟨⟨nodes, after'⟩, hnodes, h⟩ := Option.bind_eq_some_iff.1 h
            cases h
            exact (ih hnodes).trans (suffix_of_typeSpec? hd)

theorem suffix_of_types? {ns : List (Node TypeDecl)} (h : types? ts = some (ns, rest)) :
    rest <:+ ts := by
  rw [types?] at h
  dsimp only at h
  split at h
  · next inside hinside =>
    obtain ⟨⟨nodes, after⟩, hnodes, h⟩ := Option.bind_eq_some_iff.1 h
    cases h
    exact (suffix_of_typeGroupWithin? hnodes).trans (suffix_of_symbol? hinside)
  · obtain ⟨⟨d, after⟩, hd, h⟩ := Option.bind_eq_some_iff.1 h
    cases h
    exact suffix_of_typeSpec? hd

theorem afterStatement_suffix {depth : Nat} {mayEnd : Bool} (h : ts <:+ rest) :
    afterStatement depth mayEnd rest ts <:+ rest := by
  induction ts generalizing depth mayEnd rest with
  | nil => exact List.suffix_rfl
  | cons t ts ih =>
    have hts : ts <:+ rest := (List.suffix_cons t ts).trans h
    rw [afterStatement]
    split
    · split
      · exact List.suffix_rfl
      · exact ih hts
    · split
      · exact List.suffix_rfl
      · split
        · exact (ih List.suffix_rfl).trans hts
        · split <;> exact (ih List.suffix_rfl).trans hts

/-- What follows a declaration is the end of what follows its first token. -/
theorem declaration_suffix (t : Token) (ts : List Token) : (declaration t ts).2 <:+ ts := by
  have hother : afterStatement 0 false ts (t :: ts) <:+ ts := by
    rw [afterStatement]
    split
    · exact afterStatement_suffix List.suffix_rfl
    · split
      · exact List.suffix_rfl
      · split
        · exact afterStatement_suffix List.suffix_rfl
        · split <;> exact afterStatement_suffix List.suffix_rfl
  rw [declaration]
  dsimp only
  split
  · cases h : imports? ts with
    | none => exact hother
    | some p => exact suffix_of_imports? h
  · split
    · cases h : func? ts with
      | none => exact hother
      | some p => exact suffix_of_func? h
    · split
      · cases h : types? ts with
        | none => exact hother
        | some p => exact suffix_of_types? h
      · split
        · cases h : name? ts with
          | none => exact hother
          | some p => exact suffix_of_name? h
        · exact hother

/-! ## Files -/

/-- What the reader of a file does with a token and those that come after it: the nodes that it adds,
whether an item stands before on the line from then on, and the tokens that are left. -/
def step (afterItem : Bool) (t : Token) (rest : List Token) :
    List (Node Declaration) × Bool × List Token :=
  if t.kind = .comment then ([.ofComment t], afterItem, rest)
  else if t.isTrivia then ([], afterItem && !t.breaksLine, rest)
  else if t.isSymbol ";" then
    if afterItem then ([], false, rest) else ([Node.spanning (t :: rest) rest .other], true, rest)
  else
    ([Node.spanning (t :: rest) (declaration t rest).2 (declaration t rest).1], true,
      (declaration t rest).2)

theorem step_suffix (afterItem : Bool) (t : Token) (rest : List Token) :
    (step afterItem t rest).2.2 <:+ rest := by
  rw [step]
  split
  · exact List.suffix_rfl
  · split
    · exact List.suffix_rfl
    · split
      · split <;> exact List.suffix_rfl
      · exact declaration_suffix t rest

theorem nodesWithin_succ (fuel : Nat) (afterItem : Bool) (t : Token) (rest : List Token) :
    nodesWithin (fuel + 1) afterItem (t :: rest) = (step afterItem t rest).1 ++
      nodesWithin fuel (step afterItem t rest).2.1 (step afterItem t rest).2.2 := by
  rw [nodesWithin, step]
  split
  · rfl
  · split
    · rfl
    · split
      · split <;> rfl
      · rfl

def nodesFrom (afterItem : Bool) (ts : List Token) : List (Node Declaration) :=
  nodesWithin ts.length afterItem ts

/-- **There are always steps enough.** -/
theorem nodesWithin_eq {afterItem : Bool} (h : ts.length ≤ fuel) :
    nodesWithin fuel afterItem ts = nodesFrom afterItem ts := by
  have hall : ∀ {n m : Nat} {afterItem : Bool} {ts : List Token}, ts.length ≤ n → ts.length ≤ m →
      nodesWithin n afterItem ts = nodesWithin m afterItem ts := by
    intro n
    induction n with
    | zero =>
      intro m afterItem ts hn hm
      obtain rfl := List.eq_nil_of_length_eq_zero (Nat.le_zero.1 hn)
      simp [nodesWithin]
    | succ n ih =>
      intro m afterItem ts hn hm
      cases ts with
      | nil => simp [nodesWithin]
      | cons t rest =>
        cases m with
        | zero => simp at hm
        | succ m =>
          simp only [List.length_cons, Nat.add_le_add_iff_right] at hn hm
          have hle := (step_suffix afterItem t rest).length_le
          rw [nodesWithin_succ, nodesWithin_succ, ih (hle.trans hn) (hle.trans hm)]
  exact hall h le_rfl

/-- The nodes of a file are added step by step. -/
theorem nodesFrom_cons (afterItem : Bool) (t : Token) (rest : List Token) :
    nodesFrom afterItem (t :: rest) = (step afterItem t rest).1 ++
      nodesFrom (step afterItem t rest).2.1 (step afterItem t rest).2.2 := by
  rw [nodesFrom, List.length_cons, nodesWithin_succ,
    nodesWithin_eq (step_suffix afterItem t rest).length_le]

end Wiring.Go
