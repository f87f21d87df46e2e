import Mathlib
import Wiring.Go.Analysis
import Wiring.Proofs.Go.Progress
import Wiring.Proofs.Go.Signature

/-!
# Written shapes come back from a file

A shape that is written into a Go file as the type of a parameter or of a result is the shape that the
unit of the file holds (`analyze_undoes_text`).  This runs on four facts.  The text of a function is cut
into its tokens wherever it stands, and the function is read from them (`func?_tokens`).  The reader of
a file takes one item after the other (`nodesFrom_cons`), so it comes to a function if it comes to its
first token (`Starts`).  And an item of a file is an item of its unit.
-/

namespace Wiring.Go

open Token

/-! ## The way through a file -/

/-- The reader of a file goes from some tokens on to others and adds nodes on its way. -/
inductive Reaches : Bool → List Token → List (Node Declaration) → Bool → List Token → Prop
  | refl {a : Bool} {ts : List Token} : Reaches a ts [] a ts
  | step {a b : Bool} {t : Token} {rest ts : List Token} {ns : List (Node Declaration)}
      (more : Reaches (step a t rest).2.1 (step a t rest).2.2 ns b ts) :
      Reaches a (t :: rest) ((step a t rest).1 ++ ns) b ts

theorem Reaches.of_step {a b c : Bool} {t : Token} {rest ts us : List Token}
    {ns ms : List (Node Declaration)} (h : Go.step a t rest = (ns, b, ts))
    (more : Reaches b ts ms c us) : Reaches a (t :: rest) (ns ++ ms) c us := by
  have hreaches : Reaches a (t :: rest) ((Go.step a t rest).1 ++ ms) c us :=
    .step (by rw [h]; exact more)
  rwa [h] at hreaches

theorem Reaches.trans {a b c : Bool} {ts us vs : List Token} {ns ms : List (Node Declaration)}
    (h : Reaches a ts ns b us) (h' : Reaches b us ms c vs) : Reaches a ts (ns ++ ms) c vs := by
  induction h with
  | refl => exact h'
  | step _ ih =>
    rw [List.append_assoc]
    exact .step (ih h')

theorem Reaches.nodesFrom_eq {a b : Bool} {ts us : List Token} {ns : List (Node Declaration)}
    (h : Reaches a ts ns b us) : nodesFrom a ts = ns ++ nodesFrom b us := by
  induction h with
  | refl => rfl
  | step _ ih => rw [nodesFrom_cons, ih, List.append_assoc]

/-- The tokens of a file.  A byte order mark at its start does not count. -/
def fileTokens (source : String) : List Token :=
  tokensFrom 0 (if source.toList.head? = some '\ufeff' then source.toList.tail else source.toList)

theorem nodes_eq (source : String) : nodes source = nodesFrom false (fileTokens source) := rfl

/-- The reader of a file comes to the start of `rest`, where it looks for the next item. -/
def Starts (before rest : String) : Prop :=
  ∃ ns afterItem row,
    Reaches false (fileTokens (before ++ rest)) ns afterItem (tokensFrom row rest.toList)

/-! ## Functions in a file -/

/-- **A function that the reader of a file comes to is one of its items.** -/
theorem step_head {f : Head} (hf : f.Plain) (afterItem : Bool) (row : Nat) (rest : List Token) :
    ∃ first last, step afterItem (ofWord row "func") (f.tokens row ++ rest)
      = ([.item first last (.func f.decl)], true, rest) := by
  have hread : declaration (ofWord row "func") (f.tokens row ++ rest) = (.func f.decl, rest) := by
    rw [declaration, func?_tokens hf]
    simp
  rw [step, hread]
  exact ⟨_, _, rfl⟩

theorem exists_nodes_eq {f : Head} (hf : f.Plain) {before after : String}
    (h : Starts before (f.text ++ after)) : ∃ ns first last ms,
      nodes (before ++ f.text ++ after) = ns ++ .item first last (.func f.decl) :: ms := by
  obtain ⟨ns, afterItem, row, hreaches⟩ := h
  rw [String.toList_append, tokensFrom_head hf] at hreaches
  obtain ⟨first, last, hstep⟩ := step_head hf afterItem row (tokensFrom row after.toList)
  refine ⟨ns, first, last, nodesFrom true (tokensFrom row after.toList), ?_⟩
  rw [nodes_eq, String.append_assoc, hreaches.nodesFrom_eq, nodesFrom_cons, hstep]
  rfl

/-- Every item of a file comes with the lines above it. -/
theorem exists_withDocs_eq {α : Type} (run : DocRun) (ns : List (Node α)) (first last : Nat) (a : α)
    (ms : List (Node α)) :
    ∃ l doc r, withDocs run (ns ++ .item first last a :: ms) = l ++ (a, doc) :: r := by
  induction ns generalizing run with
  | nil => exact ⟨[], _, _, rfl⟩
  | cons n ns ih =>
    cases n with
    | comment text first last => exact ih (run.push text first last)
    | item first last b =>
      obtain ⟨l, doc, r, hl⟩ := ih (run.close last)
      refine ⟨(b, run.above first) :: l, doc, r, ?_⟩
      rw [List.cons_append, withDocs, hl, List.cons_append]

theorem exists_funcs_eq {f : Head} (hf : f.Plain) {before after : String}
    (h : Starts before (f.text ++ after)) (packagePath : String) (filePath : Option String) :
    ∃ l doc r, (analyze (before ++ f.text ++ after) packagePath filePath).funcs
      = l ++ { f.decl with doc } :: r := by
  obtain ⟨ns, first, last, ms, hnodes⟩ := exists_nodes_eq hf h
  obtain ⟨l, doc, r, hdocs⟩ := exists_withDocs_eq .start ns first last (.func f.decl) ms
  refine ⟨l.filterMap funcOf?, doc, r.filterMap funcOf?, ?_⟩
  rw [analyze, hnodes, documented, hdocs]
  simp [funcOf?]

/-! ## Where a function can stand -/

theorem isWord_package : IsWord "package" where
  ne_nil := by simp
  head := by simp
  chars := by simp [isNameChar]

/-- After the clause that names its package, the reader of a file looks for an item. -/
theorem reaches_package {package : String} (hpackage : IsName package) {gap rest : List Char}
    (hne : gap ≠ []) (hgap : ∀ c ∈ gap, Text.isBlank c = true) (hrest : StartsDark rest)
    (row : Nat) : ∃ first last afterItem,
      Reaches false (tokensFrom row ("package ".toList ++ (package.toList ++ (gap ++ rest))))
        [.item first last .other] afterItem (tokensFrom (row + gap.count '\n') rest) := by
  have hspace : ∀ cs, EndsWord (' ' :: cs) := endsWord_cons (by decide)
  have hends : EndsWord (gap ++ rest) := by
    cases gap with
    | nil => exact absurd rfl hne
    | cons c gap => exact endsWord_cons (isNameChar_of_isBlank (hgap c List.mem_cons_self)) _
  have htokens : tokensFrom row ("package ".toList ++ (package.toList ++ (gap ++ rest)))
      = ofWord row "package" :: ofSpace row :: ofWord row package :: ⟨.space, gap, row⟩ ::
          tokensFrom (row + gap.count '\n') rest := by
    show tokensFrom row ("package".toList ++ ' ' :: (package.toList ++ (gap ++ rest))) = _
    rw [tokensFrom_word isWord_package (hspace _), tokensFrom_space (startsDark_name hpackage _),
      tokensFrom_word hpackage.toIsWord hends, tokensFrom_blank hne hgap hrest]
  have hread : ∀ us, declaration (ofWord row "package") (ofSpace row :: ofWord row package :: us)
      = (.other, us) := by
    intro us
    have hname : name? (ofSpace row :: ofWord row package :: us) = some (package, us) :=
      name?_ofWord hpackage
    simp [declaration, hname]
  have hclause : ∀ us, ∃ first last, step false (ofWord row "package")
      (ofSpace row :: ofWord row package :: us) = ([.item first last .other], true, us) := by
    intro us
    rw [step, hread]
    exact ⟨_, _, rfl⟩
  rw [htokens]
  obtain ⟨first, last, hstep⟩ := hclause (⟨.space, gap, row⟩ ::
    tokensFrom (row + gap.count '\n') rest)
  exact ⟨first, last, _, .of_step hstep (.of_step rfl .refl)⟩

/-- A file that names its package and has one function. -/
def fileWith (package text : String) : String :=
  "package " ++ package ++ "\n\n" ++ text ++ "\n"

/-- The reader of a file comes to what follows the clause that names the package. -/
theorem exists_reaches_fileTokens {package : String} (hpackage : IsName package) {rest : String}
    (hrest : StartsDark rest.toList) : ∃ first last afterItem,
      Reaches false (fileTokens ("package " ++ package ++ "\n\n" ++ rest))
        [.item first last .other] afterItem (tokensFrom 2 rest.toList) := by
  have htext : ("package " ++ package ++ "\n\n" ++ rest).toList
      = "package ".toList ++ (package.toList ++ (['\n', '\n'] ++ rest.toList)) := by simp
  have hmark : ("package ".toList ++ (package.toList ++ (['\n', '\n'] ++ rest.toList))).head?
      ≠ some '\ufeff' := by simp
  rw [fileTokens, htext, if_neg hmark]
  exact reaches_package hpackage (by simp) (by simp [Text.isBlank]) hrest 0

theorem starts_fileWith {package : String} (hpackage : IsName package) {rest : String}
    (hrest : StartsDark rest.toList) : Starts ("package " ++ package ++ "\n\n") rest := by
  obtain ⟨first, last, afterItem, h⟩ := exists_reaches_fileTokens hpackage hrest
  exact ⟨_, _, _, h⟩

theorem startsDark_head (f : Head) (rest : List Char) : StartsDark (f.text.toList ++ rest) := by
  simp only [Head.text, String.toList_append, List.append_assoc]
  exact startsDark_cons (by decide) _

/-- On the line after a function the reader looks for the next item. -/
theorem Starts.after_head {f : Head} (hf : f.Plain) {before rest : String}
    (hrest : StartsDark rest.toList) (h : Starts before (f.text ++ ("\n" ++ rest))) :
    Starts (before ++ f.text ++ "\n") rest := by
  obtain ⟨ns, afterItem, row, hreaches⟩ := h
  have hbreak : tokensFrom row ("\n" ++ rest).toList
      = ⟨.space, ['\n'], row⟩ :: tokensFrom (row + 1) rest.toList := by
    rw [String.toList_append]
    exact tokensFrom_blank (by simp) (by simp [Text.isBlank]) hrest row
  rw [String.toList_append, tokensFrom_head hf, hbreak] at hreaches
  obtain ⟨first, last, hstep⟩ := step_head hf afterItem row
    (⟨.space, ['\n'], row⟩ :: tokensFrom (row + 1) rest.toList)
  rw [Starts, String.append_assoc, String.append_assoc]
  exact ⟨_, _, _, hreaches.trans (.of_step hstep (.of_step rfl .refl))⟩

/-- The only function of a file is that of its unit. -/
theorem funcs_fileWith {package : String} (hpackage : IsName package) {f : Head} (hf : f.Plain)
    (packagePath : String) (filePath : Option String) :
    (analyze (fileWith package f.text) packagePath filePath).funcs = [f.decl] := by
  have hrest : StartsDark (f.text ++ "\n").toList := by
    rw [String.toList_append]
    exact startsDark_head f _
  obtain ⟨first, last, afterItem, hreaches⟩ := exists_reaches_fileTokens hpackage hrest
  rw [String.toList_append, tokensFrom_head hf] at hreaches
  obtain ⟨first', last', hstep⟩ := step_head hf afterItem 2 (tokensFrom 2 "\n".toList)
  have hend : nodesFrom true (tokensFrom 2 "\n".toList) = [] := by rfl
  have hnodes : nodes (fileWith package f.text)
      = [.item first last .other, .item first' last' (.func f.decl)] := by
    rw [fileWith, String.append_assoc, nodes_eq, hreaches.nodesFrom_eq, nodesFrom_cons, hstep, hend]
    rfl
  have hdoc : (DocRun.close .start last).above first' = [] := by
    rw [DocRun.above]
    split <;> rfl
  rw [analyze, hnodes]
  show [{ f.decl with doc := (DocRun.close .start last).above first' }] = [f.decl]
  rw [hdoc]
  rfl

/-! ## All together -/

/-- What can be said of the text of a function that a file holds. -/
structure ReadAs (text : String) (f : FuncDecl) : Prop where
  /-- The function is one of those of the unit, wherever in a file it stands. -/
  inFile : ∀ before after, Starts before (text ++ after) → ∀ packagePath filePath, ∃ l doc r,
    (analyze (before ++ text ++ after) packagePath filePath).funcs = l ++ { f with doc } :: r
  /-- It may stand behind the clause that names the package, -/
  first : ∀ package after, IsName package →
    Starts ("package " ++ package ++ "\n\n") (text ++ after)
  /-- and something else may stand on the line after it. -/
  next : ∀ before rest, StartsDark rest.toList → Starts before (text ++ ("\n" ++ rest)) →
    Starts (before ++ text ++ "\n") rest
  /-- If it is the only function of the file, it is the only one of the unit. -/
  alone : ∀ package, IsName package → ∀ packagePath filePath,
    (analyze (fileWith package text) packagePath filePath).funcs = [f]

theorem Head.readAs {f : Head} (hf : f.Plain) : ReadAs f.text f.decl where
  inFile _ _ h := exists_funcs_eq hf h
  first package after hpackage := starts_fileWith hpackage <| by
    rw [String.toList_append]
    exact startsDark_head f _
  next _ _ hrest h := h.after_head hf hrest
  alone _ hpackage := funcs_fileWith hpackage hf

/-- **A shape comes back from a file**, as that of a parameter, of a variadic one or of a result.  All
identifiers are names (`isName_of_isIdentifier`). -/
theorem analyze_undoes_text {s : Shape} (hs : Plain s) {name x : String} (hname : IsName name)
    (hx : IsName x) :
    ReadAs ("func " ++ name ++ "(" ++ x ++ " " ++ s.text ++ ") \x7b\x7d")
        { FuncDecl.ofName name with params := [.ofName x s] } ∧
      ReadAs ("func " ++ name ++ "(" ++ x ++ " ..." ++ s.text ++ ") \x7b\x7d")
        { FuncDecl.ofName name with params := [.ofName x (.slice s)] } ∧
      ReadAs ("func " ++ name ++ "() " ++ s.text ++ " \x7b\x7d")
        { FuncDecl.ofName name with returns := [.unnamed s] } := by
  have hparam : Head.Plain ⟨name, [⟨x, false, s⟩], none⟩ :=
    ⟨hname, by simpa using Param.Plain.mk hx hs, by simp⟩
  have hvariadic : Head.Plain ⟨name, [⟨x, true, s⟩], none⟩ :=
    ⟨hname, by simpa using Param.Plain.mk hx hs, by simp⟩
  have hresult : Head.Plain ⟨name, [], some s⟩ := ⟨hname, by simp, by simpa using hs⟩
  have hparamText : Head.text ⟨name, [⟨x, false, s⟩], none⟩
      = "func " ++ name ++ "(" ++ x ++ " " ++ s.text ++ ") \x7b\x7d" := by
    simp [← String.toList_inj, Head.text, paramsText, Param.text]
  have hvariadicText : Head.text ⟨name, [⟨x, true, s⟩], none⟩
      = "func " ++ name ++ "(" ++ x ++ " ..." ++ s.text ++ ") \x7b\x7d" := by
    simp [← String.toList_inj, Head.text, paramsText, Param.text]
  have hresultText : Head.text ⟨name, [], some s⟩
      = "func " ++ name ++ "() " ++ s.text ++ " \x7b\x7d" := by
    simp [← String.toList_inj, Head.text, paramsText]
  rw [← hparamText, ← hvariadicText, ← hresultText]
  exact ⟨Head.readAs hparam, Head.readAs hvariadic, Head.readAs hresult⟩

def index : Shape :=
  .map (.named none "string") (.slice (.pointer (.named (some "todo") "Todo")))

theorem analyze_undoes_index : Plain index ∧ IsName "Find" ∧ IsName "by" ∧
    ReadAs "func Find(by map[string][]*todo.Todo) \x7b\x7d"
      { FuncDecl.ofName "Find" with params := [.ofName "by" index] } := by
  have hname : ∀ s ∈ ["string", "todo", "Todo", "Find", "by"], IsName s := by
    intro s hs
    simp only [List.mem_cons, List.not_mem_nil, or_false] at hs
    rcases hs with rfl | rfl | rfl | rfl | rfl <;> exact isName_of_isIdentifier (by decide +kernel)
  have hindex : Plain index :=
    .map (.name (hname _ (by simp))) (.slice (.pointer (.member (hname _ (by simp))
      (hname _ (by simp)))))
  have hfind : IsName "Find" := hname _ (by simp)
  have hby : IsName "by" := hname _ (by simp)
  exact ⟨hindex, hfind, hby, (analyze_undoes_text hindex hfind hby).1⟩

end Wiring.Go
