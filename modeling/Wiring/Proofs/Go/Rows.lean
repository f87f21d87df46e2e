import Mathlib
import Wiring.Go.Analysis
import Wiring.Proofs.Go.Progress
import Wiring.Proofs.Go.Token

/-!
# Down the rows of a file

A token starts where the one before it ends, so the rows of the tokens of a file never go back
(`tokensBelow_tokensFrom`).  A node takes some of the tokens, and the next node takes later ones.  So
the rows of nodes never go back either, at the top level of a file (`nodesBelow_nodes`) and inside a
declaration of types (`nodesBelow_of_types?`).
-/

namespace Wiring.Go

variable {ts us rest pre : List Token} {t : Token} {row row' fuel : Nat}

/-! ## Tokens -/

theorem Token.row_le_lastRow (t : Token) : t.row ≤ t.lastRow :=
  Nat.le_add_right _ _

/-- The tokens have texts and start on `row` or below it, each no higher than where the one before
it ends. -/
inductive TokensBelow : Nat → List Token → Prop
  | nil {row : Nat} : TokensBelow row []
  | cons {row : Nat} {t : Token} {ts : List Token} (hrow : row ≤ t.row) (htext : t.text ≠ [])
      (h : TokensBelow t.lastRow ts) : TokensBelow row (t :: ts)

namespace TokensBelow

theorem mono (h : TokensBelow row ts) (hle : row' ≤ row) : TokensBelow row' ts := by
  cases h with
  | nil => exact .nil
  | cons hrow htext h => exact .cons (hle.trans hrow) htext h

theorem tail (h : TokensBelow row (t :: ts)) : TokensBelow row ts := by
  cases h with
  | cons hrow _ h => exact h.mono (hrow.trans t.row_le_lastRow)

theorem of_append (h : TokensBelow row (pre ++ ts)) : TokensBelow row ts := by
  induction pre with
  | nil => exact h
  | cons t pre ih => exact ih h.tail

theorem of_suffix (h : TokensBelow row ts) (hrest : rest <:+ ts) : TokensBelow row rest := by
  obtain ⟨pre, rfl⟩ := hrest
  exact h.of_append

/-- What follows several tokens stands below their last one. -/
theorem after (h : TokensBelow row (t :: (pre ++ rest))) :
    t.row ≤ endRow (t :: pre) ∧ TokensBelow (endRow (t :: pre)) rest := by
  induction pre generalizing row t with
  | nil =>
    cases h with
    | cons _ _ h => exact ⟨t.row_le_lastRow, h⟩
  | cons u pre ih =>
    cases h with
    | cons _ _ h =>
      obtain ⟨hu, hrest⟩ := ih h
      have hend : endRow (t :: u :: pre) = endRow (u :: pre) := by
        rw [endRow, List.getLast?_cons_cons, endRow]
      have htu : t.lastRow ≤ u.row := by
        cases h with
        | cons hrow _ _ => exact hrow
      rw [hend]
      exact ⟨(t.row_le_lastRow.trans htu).trans hu, hrest⟩

end TokensBelow

/-- **The rows of the tokens of a text never go back.** -/
theorem tokensBelow_tokensFrom (row : Nat) (cs : List Char) : TokensBelow row (tokensFrom row cs) := by
  induction hn : cs.length using Nat.strong_induction_on generalizing row cs with
  | _ n ih =>
    subst hn
    cases cs with
    | nil => exact .nil
    | cons c cs =>
      have hlt : (cs.drop (tokenAt c cs).2).length < (c :: cs).length := by
        rw [List.length_drop, List.length_cons]
        omega
      rw [tokensFrom_cons rfl]
      exact .cons le_rfl (List.cons_ne_nil _ _) (ih _ hlt _ _ rfl)

/-! ## Nodes -/

namespace Node

variable {α : Type}

def first : Node α → Nat
  | .comment _ first _ => first
  | .item first _ _ => first

def last : Node α → Nat
  | .comment _ _ last => last
  | .item _ last _ => last

def isComment : Node α → Bool
  | .comment .. => true
  | .item .. => false

def lines : Node α → List String
  | .comment text _ _ => (Text.lines text).map String.ofList
  | .item .. => []

/-- A node does not end above its start, and a comment has a line. -/
structure Proper (n : Node α) : Prop where
  rows : n.first ≤ n.last
  lines_ne : n.isComment = true → n.lines ≠ []

end Node

variable {α : Type} {n : Node α} {ns : List (Node α)}

/-- The nodes start on `row` or below it, each no higher than where the one before it ends. -/
inductive NodesBelow : Nat → List (Node α) → Prop
  | nil {row : Nat} : NodesBelow row []
  | cons {row : Nat} {n : Node α} {ns : List (Node α)} (hrow : row ≤ n.first) (hn : n.Proper)
      (h : NodesBelow n.last ns) : NodesBelow row (n :: ns)

namespace NodesBelow

theorem mono (h : NodesBelow row ns) (hle : row' ≤ row) : NodesBelow row' ns := by
  cases h with
  | nil => exact .nil
  | cons hrow hn h => exact .cons (hle.trans hrow) hn h

/-- A comment stands where its token stands. -/
theorem comment (hrow : row ≤ t.row) (htext : t.text ≠ []) (h : NodesBelow t.lastRow ns) :
    NodesBelow row (.ofComment t :: ns) := by
  refine .cons hrow ⟨t.row_le_lastRow, fun _ => ?_⟩ h
  show (Text.lines t.text).map String.ofList ≠ []
  rw [ne_eq, List.map_eq_nil_iff]
  exact Text.lines_ne_nil htext

theorem between_append (pre rest : List Token) : between (pre ++ rest) rest = pre := by
  rw [between, List.length_append, Nat.add_sub_cancel, List.take_left]

/-- An item stands where its tokens stand, and what is read from there on stands below it. -/
theorem spanning {a : α} (h : TokensBelow row (t :: us)) (hrest : rest <:+ us)
    (hns : ∀ row, TokensBelow row rest → NodesBelow row ns) :
    NodesBelow row (Node.spanning (t :: us) rest a :: ns) := by
  obtain ⟨pre, rfl⟩ := hrest
  obtain ⟨hle, hbelow⟩ := h.after
  have hnode : Node.spanning (t :: (pre ++ rest)) rest a = .item t.row (endRow (t :: pre)) a := by
    rw [Node.spanning, ← List.cons_append, between_append]
    rfl
  have hrow : row ≤ t.row := by
    cases h with
    | cons hrow _ _ => exact hrow
  rw [hnode]
  exact .cons hrow ⟨hle, fun h => nomatch h⟩ (hns _ hbelow)

end NodesBelow

/-! ## Declarations of types -/

theorem exists_skip_of_symbol? {s : String} (h : symbol? s ts = some rest) :
    ∃ t, skip ts = t :: rest := by
  rw [symbol?] at h
  split at h
  · next t us hts =>
    split at h <;> cases h
    exact ⟨t, hts⟩
  · cases h

theorem exists_skip_of_name? {name : String} (h : name? ts = some (name, rest)) :
    ∃ t, skip ts = t :: rest := by
  rw [name?] at h
  split at h
  · next t us hts =>
    split at h <;> cases h
    exact ⟨t, hts⟩
  · cases h

/-- The comments among several tokens stand above what is read after these. -/
theorem nodesBelow_comments (h : TokensBelow row (pre ++ rest))
    (hns : ∀ row, TokensBelow row rest → NodesBelow row ns) :
    NodesBelow row ((pre.filter (·.kind == .comment)).map Node.ofComment ++ ns) := by
  induction pre generalizing row with
  | nil => exact hns row h
  | cons t pre ih =>
    by_cases ht : t.kind = .comment
    · rw [List.filter_cons_of_pos (by simpa using ht), List.map_cons, List.cons_append]
      cases h with
      | cons hrow htext h => exact .comment hrow htext (ih h)
    · rw [List.filter_cons_of_neg (by simpa using ht)]
      exact ih h.tail

theorem nodesBelow_of_typeGroupWithin? {ns : List (Node TypeDecl)}
    (h : typeGroupWithin? fuel ts = some (ns, rest)) (hts : TokensBelow row ts) :
    NodesBelow row ns := by
  induction fuel generalizing ts ns rest row with
  | zero => cases h
  | succ fuel ih =>
    cases ts with
    | nil => cases h
    | cons t us =>
      rw [typeGroupWithin?] at h
      split at h
      · obtain ⟨⟨nodes, after⟩, hnodes, h⟩ := Option.bind_eq_some_iff.1 h
        cases h
        cases hts with
        | cons hrow htext hus => exact .comment hrow htext (ih hnodes hus)
      · split at h
        · exact ih h hts.tail
        · split at h
          · cases h
            exact .nil
          · next hcomment hskipped _ =>
            obtain ⟨⟨d, after⟩, hd, h⟩ := Option.bind_eq_some_iff.1 h
            obtain ⟨⟨nodes, after'⟩, hnodes, h⟩ := Option.bind_eq_some_iff.1 h
            cases h
            -- the type begins with the token at hand
            obtain ⟨name, vs, hname, hafter⟩ := exists_name_of_typeSpec? hd
            obtain ⟨t', hskip⟩ := exists_skip_of_name? hname
            have ht : ¬ t.isTrivia = true := fun ht => hskipped (by rw [ht]; rfl)
            rw [skip, List.dropWhile_cons_of_neg ht] at hskip
            cases hskip
            exact .spanning hts hafter fun _ hrest => ih hnodes hrest

/-- **The rows of the types and comments of a declaration never go back.** -/
theorem nodesBelow_of_types? {ns : List (Node TypeDecl)} (h : types? ts = some (ns, rest))
    (hts : TokensBelow row ts) : NodesBelow row ns := by
  have hsplit : ts.takeWhile Token.isTrivia ++ skip ts = ts := List.takeWhile_append_dropWhile
  rw [← hsplit] at hts
  rw [types?] at h
  dsimp only at h
  split at h
  · next inside hinside =>
    obtain ⟨⟨nodes, after⟩, hnodes, h⟩ := Option.bind_eq_some_iff.1 h
    cases h
    obtain ⟨t, hskip⟩ := exists_skip_of_symbol? hinside
    rw [hskip] at hts
    exact nodesBelow_comments hts fun _ hrest => nodesBelow_of_typeGroupWithin? hnodes hrest.tail
  · obtain ⟨⟨d, after⟩, hd, h⟩ := Option.bind_eq_some_iff.1 h
    cases h
    obtain ⟨name, us, hname, hrest⟩ := exists_name_of_typeSpec? hd
    obtain ⟨t, hskip⟩ := exists_skip_of_name? hname
    rw [hskip] at hts ⊢
    exact nodesBelow_comments hts fun _ hus => .spanning hus hrest fun _ _ => .nil

/-! ## Files -/

theorem nodesBelow_nodesFrom (h : TokensBelow row ts) (afterItem : Bool) :
    NodesBelow row (nodesFrom afterItem ts) := by
  induction hn : ts.length using Nat.strong_induction_on generalizing ts row afterItem with
  | _ n ih =>
    subst hn
    cases ts with
    | nil =>
      rw [nodesFrom, nodesWithin]
      exact .nil
    | cons t us =>
      have hrest : ∀ {rest : List Token}, rest <:+ us → ∀ (afterItem : Bool) (row : Nat),
          TokensBelow row rest → NodesBelow row (nodesFrom afterItem rest) := by
        intro rest hsuffix afterItem row hbelow
        exact ih _ (Nat.lt_succ_of_le hsuffix.length_le) hbelow afterItem rfl
      rw [nodesFrom_cons, step]
      split
      · cases h with
        | cons hrow htext h => exact .comment hrow htext (hrest List.suffix_rfl _ _ h)
      · split
        · exact hrest List.suffix_rfl _ _ h.tail
        · split
          · split
            · exact hrest List.suffix_rfl _ _ h.tail
            · exact .spanning h List.suffix_rfl (hrest List.suffix_rfl true)
          · exact .spanning h (declaration_suffix t us) (hrest (declaration_suffix t us) true)

/-- **The rows of the nodes of a file never go back.** -/
theorem nodesBelow_nodes (source : String) : NodesBelow 0 (nodes source) :=
  nodesBelow_nodesFrom (tokensBelow_tokensFrom 0 _) false

theorem types?_of_declaration {ns : List (Node TypeDecl)} (h : (declaration t ts).1 = .types ns) :
    ∃ rest, types? ts = some (ns, rest) := by
  rw [declaration] at h
  dsimp only at h
  split at h
  · cases his : imports? ts with
    | none => rw [his] at h; cases h
    | some p => rw [his] at h; cases h
  · split at h
    · cases hf : func? ts with
      | none => rw [hf] at h; cases h
      | some p => rw [hf] at h; cases h
    · split at h
      · cases hns : types? ts with
        | none => rw [hns] at h; cases h
        | some p =>
          rw [hns] at h
          cases h
          exact ⟨p.2, rfl⟩
      · split at h
        · cases hname : name? ts with
          | none => rw [hname] at h; cases h
          | some p => rw [hname] at h; cases h
        · cases h

/-- An item of a file is an empty statement, or a declaration that is read from one of the tokens
on. -/
theorem declaration_of_mem {first last : Nat} {d : Declaration} {afterItem : Bool}
    (h : .item first last d ∈ nodesFrom afterItem ts) :
    d = .other ∨ ∃ t us, t :: us <:+ ts ∧ (declaration t us).1 = d := by
  induction hn : ts.length using Nat.strong_induction_on generalizing ts afterItem with
  | _ n ih =>
    subst hn
    cases ts with
    | nil =>
      rw [nodesFrom, nodesWithin] at h
      cases h
    | cons t us =>
      rw [nodesFrom_cons, List.mem_append] at h
      rcases h with h | h
      · rw [step] at h
        split at h
        · cases List.mem_singleton.1 h
        · split at h
          · cases h
          · split at h
            · split at h
              · cases h
              · cases List.mem_singleton.1 h
                exact .inl rfl
            · cases List.mem_singleton.1 h
              exact .inr ⟨t, us, List.suffix_rfl, rfl⟩
      · have hsuffix := step_suffix afterItem t us
        have hlt := Nat.lt_succ_of_le hsuffix.length_le
        refine (ih _ hlt h rfl).imp_right ?_
        rintro ⟨t', vs, hvs, hd⟩
        exact ⟨t', vs, (hvs.trans hsuffix).trans (List.suffix_cons t us), hd⟩

/-- The rows inside the declarations of a file never go back either. -/
theorem nodesBelow_of_mem_nodes {source : String} {first last : Nat} {ns : List (Node TypeDecl)}
    (h : .item first last (.types ns) ∈ nodes source) : NodesBelow 0 ns := by
  rcases declaration_of_mem h with hother | ⟨t, us, hus, hd⟩
  · cases hother
  · obtain ⟨rest, hns⟩ := types?_of_declaration hd
    exact nodesBelow_of_types? hns ((tokensBelow_tokensFrom 0 _).of_suffix hus).tail

end Wiring.Go
