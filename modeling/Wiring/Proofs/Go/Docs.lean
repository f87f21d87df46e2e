import Mathlib
import Wiring.Go.Analysis
import Wiring.Proofs.Go.Rows

/-!
# Which comments document what

`Site.Doc` says which comments are the documentation of an item: the longest `Run` of comments right
before it that ends on the row above it.  A run has no item in it, keeps clear of the row on which
the item before it ends, and has no empty row between its comments.  `analyze_documents` says that
the functions and the types of a file get these comments, and that no comment counts twice.

The reader goes through the nodes once and keeps a `DocRun`.  What it keeps is the longest run up to
the node at hand (`Gathers`): a comment goes on a run or starts a new one (`Gathers.push`), and an
item ends it (`Gathers.close`).  This rests on the rows of the nodes, which never go back: a comment
on the row of the item before it can only stand right behind that item.
-/

namespace Wiring.Go

variable {α : Type} {before run ns : List (Node α)} {n : Node α} {row : Nat}

/-! ## Items and runs -/

def lastItem? (ns : List (Node α)) : Option (Node α) :=
  (ns.filter (!·.isComment)).getLast?

theorem lastItem?_concat_comment (hn : n.isComment = true) :
    lastItem? (before ++ [n]) = lastItem? before := by
  rw [lastItem?, List.filter_append, List.filter_cons_of_neg (by simp [hn]), List.filter_nil,
    List.append_nil, lastItem?]

theorem lastItem?_concat_item (hn : n.isComment = false) :
    lastItem? (before ++ [n]) = some n := by
  rw [lastItem?, List.filter_append, List.filter_cons_of_pos (by simp [hn]), List.filter_nil,
    List.getLast?_concat]

theorem mem_of_mem_lastItem? (h : n ∈ lastItem? before) : n ∈ before :=
  List.mem_of_mem_filter (List.mem_of_getLast? h)

/-- Comments at the end of `before` that belong together: none of them starts on the row on which
the last item ends, and each starts at most one row below the end of the one before it. -/
structure Run (before run : List (Node α)) : Prop where
  ending : run <:+ before
  comments : ∀ n ∈ run, n.isComment = true
  apart : ∀ i ∈ lastItem? before, ∀ n ∈ run, n.first ≠ i.last
  linked : run.IsChain fun m n => n.first ≤ m.last + 1

namespace Run

theorem nil : Run before [] where
  ending := List.nil_suffix
  comments _ hn := nomatch hn
  apart _ _ _ hn := nomatch hn
  linked := .nil

/-- No run goes on behind an item. -/
theorem eq_nil (hn : n.isComment = false) (h : Run (before ++ [n]) run) : run = [] := by
  rcases List.suffix_concat_iff.1 h.ending with hnil | ⟨front, rfl, -⟩
  · exact hnil
  · have hcomment := h.comments n (by simp)
    rw [hn] at hcomment
    cases hcomment

/-- A run up to a comment is one up to the node before it, with the comment added. -/
theorem concat_iff (hn : n.isComment = true) : Run (before ++ [n]) run ↔
    run = [] ∨ ∃ front, run = front ++ [n] ∧ Run before front ∧
      (∀ i ∈ lastItem? before, n.first ≠ i.last) ∧ ∀ m ∈ front.getLast?, n.first ≤ m.last + 1 := by
  constructor
  · intro h
    rcases List.suffix_concat_iff.1 h.ending with hnil | ⟨front, rfl, hfront⟩
    · exact .inl hnil
    · have hapart := h.apart
      rw [lastItem?_concat_comment hn] at hapart
      obtain ⟨hlinked, -, hlast⟩ := List.isChain_append.1 h.linked
      refine .inr ⟨front, rfl, ⟨hfront, ?_, ?_, hlinked⟩, ?_, fun m hm => hlast m hm n rfl⟩
      · exact fun m hm => h.comments m (List.mem_append_left _ hm)
      · exact fun i hi m hm => hapart i hi m (List.mem_append_left _ hm)
      · exact fun i hi => hapart i hi n (by simp)
  · rintro (rfl | ⟨front, rfl, h, hapart, hlast⟩)
    · exact .nil
    · refine ⟨List.suffix_concat_iff.2 (.inr ⟨front, rfl, h.ending⟩), ?_, ?_, ?_⟩
      · intro m hm
        rcases List.mem_append.1 hm with hm | hm
        · exact h.comments m hm
        · rw [List.mem_singleton.1 hm]
          exact hn
      · rw [lastItem?_concat_comment hn]
        intro i hi m hm
        rcases List.mem_append.1 hm with hm | hm
        · exact h.apart i hi m hm
        · rw [List.mem_singleton.1 hm]
          exact hapart i hi
      · refine List.isChain_append.2 ⟨h.linked, .singleton n, fun m hm n' hn' => ?_⟩
        cases hn'
        exact hlast m hm

end Run

/-- An item with the nodes before it and the row on which it starts. -/
structure Site (α : Type) where
  before : List (Node α)
  first : Nat
  item : α

def sitesAfter (before : List (Node α)) : List (Node α) → List (Site α)
  | [] => []
  | .comment text first last :: rest => sitesAfter (before ++ [.comment text first last]) rest
  | .item first last a :: rest =>
    ⟨before, first, a⟩ :: sitesAfter (before ++ [.item first last a]) rest

def sites (ns : List (Node α)) : List (Site α) :=
  sitesAfter [] ns

theorem mem_sitesAfter_iff {s : Site α} : s ∈ sitesAfter before ns ↔ ∃ front last rest,
    ns = front ++ .item s.first last s.item :: rest ∧ s.before = before ++ front := by
  induction ns generalizing before with
  | nil => simp [sitesAfter]
  | cons n ns ih =>
    cases n with
    | comment text first last =>
      rw [sitesAfter, ih]
      constructor
      · rintro ⟨front, last', rest, rfl, hbefore⟩
        exact ⟨.comment text first last :: front, last', rest, rfl, by simp [hbefore]⟩
      · rintro ⟨front, last', rest, hsplit, hbefore⟩
        cases front with
        | nil => cases hsplit
        | cons n front =>
          obtain ⟨rfl, hrest⟩ := List.cons_eq_cons.1 hsplit
          exact ⟨front, last', rest, hrest, by simp [hbefore]⟩
    | item first last a =>
      rw [sitesAfter, List.mem_cons, ih]
      constructor
      · rintro (rfl | ⟨front, last', rest, rfl, hbefore⟩)
        · exact ⟨[], last, ns, rfl, by simp⟩
        · exact ⟨.item first last a :: front, last', rest, rfl, by simp [hbefore]⟩
      · rintro ⟨front, last', rest, hsplit, hbefore⟩
        cases front with
        | nil =>
          cases hsplit
          rw [List.append_nil] at hbefore
          exact .inl (by rw [← hbefore])
        | cons n front =>
          obtain ⟨rfl, hrest⟩ := List.cons_eq_cons.1 hsplit
          exact .inr ⟨front, last', rest, hrest, by simp [hbefore]⟩

namespace Site

variable {s s' : Site α}

/-- A run that ends on the row above the item. -/
structure RunAbove (s : Site α) (run : List (Node α)) : Prop extends Run s.before run where
  touches : ∃ n ∈ run.getLast?, n.last + 1 = s.first

/-- The longest run that ends on the row above the item. -/
def LongestRun (s : Site α) (run : List (Node α)) : Prop :=
  s.RunAbove run ∧ ∀ run', s.RunAbove run' → run'.length ≤ run.length

/-- The lines above an item: those of the longest run, or none if there is no run. -/
inductive Doc (s : Site α) : List String → Prop
  | run {run : List (Node α)} (h : s.LongestRun run) : s.Doc (run.flatMap Node.lines)
  | none (h : ∀ run, ¬ s.RunAbove run) : s.Doc []

end Site

/-! ## The reader -/

/-- What the reader keeps of the nodes up to `row`: the row of the last item, and the longest run. -/
structure Gathers (before : List (Node α)) (row : Nat) (r : DocRun) (run : List (Node α)) : Prop
    extends Run before run where
  itemRow : r.itemRow = (lastItem? before).map Node.last
  above : ∀ n ∈ before, n.first ≤ n.last ∧ n.last ≤ row
  longest : ∀ run', Run before run' → run' <:+ run
  lines : r.lines = run.flatMap Node.lines
  lastRow : ∀ n ∈ run.getLast?, r.lastRow = n.last
  /-- The rows never go back. -/
  below : ∀ i ∈ lastItem? before, ∀ n ∈ run, i.last < n.first

theorem getLast?_of_suffix {l l' : List α} (h : l <:+ l') (hne : l ≠ []) :
    l.getLast? = l'.getLast? := by
  obtain ⟨front, rfl⟩ := h
  rw [List.getLast?_append_of_ne_nil _ hne]

namespace Gathers

variable {r : DocRun} {text : List Char} {first last : Nat} {a : α}

/-- **What the reader gives an item is its documentation.** -/
theorem doc (h : Gathers before row r run) (first : Nat) (a : α) :
    (Site.mk before first a).Doc (r.above first) := by
  rw [DocRun.above]
  by_cases hrun : run = []
  · -- no run is longer, so there is none
    have hnone : ∀ run', ¬ (Site.mk before first a).RunAbove run' := by
      intro run' h'
      obtain ⟨n, hn, -⟩ := h'.touches
      have hsuffix := h.longest run' h'.toRun
      rw [hrun, List.suffix_nil] at hsuffix
      rw [hsuffix] at hn
      cases hn
    have hlines : r.lines = [] := by
      rw [h.lines, hrun]
      rfl
    rw [hlines, ite_self]
    exact .none hnone
  · obtain ⟨n, hn⟩ : ∃ n, run.getLast? = some n := ⟨_, List.getLast?_eq_some_getLast hrun⟩
    rw [h.lastRow n hn]
    split
    · next htouches =>
      rw [h.lines]
      refine .run ⟨⟨h.toRun, n, hn, htouches⟩, fun run' h' => ?_⟩
      exact (h.longest run' h'.toRun).length_le
    · next hapart =>
      refine .none fun run' h' => hapart ?_
      obtain ⟨n', hn', htouches⟩ := h'.touches
      have hne : run' ≠ [] := by
        rintro rfl
        cases hn'
      rw [getLast?_of_suffix (h.longest run' h'.toRun) hne, hn] at hn'
      cases hn'
      exact htouches

/-- Every node up to a further one ends no lower than this one. -/
theorem above_concat (h : Gathers before row r run) (hrow : row ≤ n.first) (hn : n.first ≤ n.last) :
    ∀ m ∈ before ++ [n], m.first ≤ m.last ∧ m.last ≤ n.last := by
  intro m hm
  rcases List.mem_append.1 hm with hm | hm
  · obtain ⟨hfirst, hlast⟩ := h.above m hm
    exact ⟨hfirst, (hlast.trans hrow).trans hn⟩
  · rw [List.mem_singleton.1 hm]
    exact ⟨hn, le_rfl⟩

/-- An item ends the run. -/
theorem close (h : Gathers before row r run) (hrow : row ≤ first) (hle : first ≤ last) :
    Gathers (before ++ [.item first last a]) last (r.close last) [] where
  toRun := .nil
  itemRow := by rw [lastItem?_concat_item rfl]; rfl
  above := h.above_concat hrow hle
  longest run' h' := by rw [h'.eq_nil rfl]
  lines := rfl
  lastRow := nofun
  below := nofun

/-- A comment on the row of the last item stands right behind it, and belongs to no run. -/
theorem push_trailing (h : Gathers before row r run) (hrow : row ≤ first) (hle : first ≤ last)
    (hsame : r.itemRow = some first) :
    Gathers (before ++ [.comment text first last]) last r [] := by
  have hitem := h.itemRow
  rw [hsame, eq_comm, Option.map_eq_some_iff] at hitem
  obtain ⟨i, hi, hirow⟩ := hitem
  have hnil : run = [] := by
    rw [List.eq_nil_iff_forall_not_mem]
    intro m hm
    have hlt : i.last < m.first := h.below i hi m hm
    obtain ⟨hfirst, hlast⟩ := h.above m (h.ending.subset hm)
    omega
  exact
    { toRun := .nil
      itemRow := by rw [lastItem?_concat_comment rfl, h.itemRow]
      above := h.above_concat hrow hle
      longest := fun run' h' => by
        rcases (Run.concat_iff rfl).1 h' with rfl | ⟨front, -, -, hapart, -⟩
        · exact List.suffix_rfl
        · exact absurd hirow.symm (hapart i hi)
      lines := by rw [h.lines, hnil]
      lastRow := nofun
      below := nofun }

/-- Any other comment stands below the row of the last item. -/
theorem item_lt (h : Gathers before row r run) (hrow : row ≤ first)
    (hother : r.itemRow ≠ some first) : ∀ i ∈ lastItem? before, i.last < first := by
  intro i hi
  have hle : i.last ≤ first := (h.above i (mem_of_mem_lastItem? hi)).2.trans hrow
  refine lt_of_le_of_ne hle ?_
  rintro rfl
  rw [h.itemRow, Option.mem_def.1 hi] at hother
  exact hother rfl

/-- A comment with an empty row above it starts a new run. -/
theorem push_apart (h : Gathers before row r run) (hrow : row ≤ first) (hle : first ≤ last)
    (hother : r.itemRow ≠ some first) (hgap : r.lastRow + 1 < first) :
    Gathers (before ++ [.comment text first last]) last
      ⟨(Text.lines text).map String.ofList, last, r.itemRow⟩ [.comment text first last] where
  toRun := by
    refine (Run.concat_iff rfl).2 (.inr ⟨[], rfl, .nil, fun i hi => ?_, nofun⟩)
    exact (h.item_lt hrow hother i hi).ne'
  itemRow := by rw [lastItem?_concat_comment rfl, ← h.itemRow]
  above := h.above_concat hrow hle
  longest run' h' := by
    rcases (Run.concat_iff rfl).1 h' with rfl | ⟨front, rfl, hfront, -, hnear⟩
    · exact List.nil_suffix
    · by_cases hne : front = []
      · rw [hne]
        exact List.suffix_rfl
      · exfalso
        obtain ⟨m, hm⟩ : ∃ m, front.getLast? = some m := ⟨_, List.getLast?_eq_some_getLast hne⟩
        have hlast : r.lastRow = m.last :=
          h.lastRow m (getLast?_of_suffix (h.longest front hfront) hne ▸ hm)
        have hle : first ≤ m.last + 1 := hnear m hm
        omega
  lines := (List.append_nil _).symm
  lastRow m hm := by
    cases hm
    rfl
  below := by
    rw [lastItem?_concat_comment rfl]
    intro i hi m hm
    rw [List.mem_singleton.1 hm]
    exact h.item_lt hrow hother i hi

/-- A comment right below the run goes on it. -/
theorem push_next (h : Gathers before row r run) (hrow : row ≤ first) (hle : first ≤ last)
    (hother : r.itemRow ≠ some first) (hnext : first ≤ r.lastRow + 1) :
    Gathers (before ++ [.comment text first last]) last
      ⟨r.lines ++ (Text.lines text).map String.ofList, last, r.itemRow⟩
      (run ++ [.comment text first last]) where
  toRun := by
    refine (Run.concat_iff rfl).2 (.inr ⟨run, rfl, h.toRun, fun i hi => ?_, fun m hm => ?_⟩)
    · exact (h.item_lt hrow hother i hi).ne'
    · rw [← h.lastRow m hm]
      exact hnext
  itemRow := by rw [lastItem?_concat_comment rfl, ← h.itemRow]
  above := h.above_concat hrow hle
  longest run' h' := by
    rcases (Run.concat_iff rfl).1 h' with rfl | ⟨front, rfl, hfront, -, -⟩
    · exact List.nil_suffix
    · exact List.suffix_concat_iff.2 (.inr ⟨front, rfl, h.longest front hfront⟩)
  lines := by
    rw [h.lines, List.flatMap_append, List.flatMap_singleton]
    rfl
  lastRow m hm := by
    rw [List.getLast?_concat] at hm
    cases hm
    rfl
  below := by
    rw [lastItem?_concat_comment rfl]
    intro i hi m hm
    rcases List.mem_append.1 hm with hm | hm
    · exact h.below i hi m hm
    · rw [List.mem_singleton.1 hm]
      exact h.item_lt hrow hother i hi

/-- **What the reader keeps stays the longest run.** -/
theorem push (h : Gathers before row r run) (text : List Char) (hrow : row ≤ first)
    (hle : first ≤ last) :
    ∃ run', Gathers (before ++ [.comment text first last]) last (r.push text first last) run' := by
  rw [DocRun.push]
  by_cases hsame : r.itemRow = some first
  · rw [if_pos hsame]
    exact ⟨[], h.push_trailing hrow hle hsame⟩
  · rw [if_neg hsame]
    by_cases hgap : r.lastRow + 1 < first
    · simp only [if_pos hgap, List.nil_append]
      exact ⟨_, h.push_apart hrow hle hsame hgap⟩
    · simp only [if_neg hgap]
      exact ⟨_, h.push_next hrow hle hsame (not_lt.1 hgap)⟩

end Gathers

/-! ## All items -/

theorem forall₂_withDocs {r : DocRun} (h : Gathers before row r run) (hns : NodesBelow row ns) :
    List.Forall₂ (fun s p => p.1 = s.item ∧ s.Doc p.2) (sitesAfter before ns) (withDocs r ns) := by
  induction ns generalizing before row r run with
  | nil => exact .nil
  | cons n ns ih =>
    cases hns with
    | cons hrow hn hns =>
      cases n with
      | comment text first last =>
        obtain ⟨run', h'⟩ := h.push text hrow hn.rows
        exact ih h' hns
      | item first last a => exact .cons ⟨rfl, h.doc first a⟩ (ih (h.close hrow hn.rows) hns)

/-- **Every item gets its documentation.** -/
theorem forall₂_documented (hns : NodesBelow 0 ns) :
    List.Forall₂ (fun s p => p.1 = s.item ∧ s.Doc p.2) (sites ns) (documented ns) := by
  have hstart : Gathers ([] : List (Node α)) 0 .start [] :=
    { toRun := .nil
      itemRow := rfl
      above := nofun
      longest := fun run' h' => h'.ending
      lines := rfl
      lastRow := nofun
      below := nofun }
  exact forall₂_withDocs hstart hns

/-! ## No comment counts twice -/

theorem mem_sites_iff {s : Site α} :
    s ∈ sites ns ↔ ∃ last rest, ns = s.before ++ .item s.first last s.item :: rest := by
  rw [sites, mem_sitesAfter_iff]
  constructor
  · rintro ⟨front, last, rest, hsplit, hbefore⟩
    exact ⟨last, rest, by rw [hbefore, List.nil_append, hsplit]⟩
  · rintro ⟨last, rest, hsplit⟩
    exact ⟨s.before, last, rest, hsplit, rfl⟩

namespace Site

variable {s s' : Site α} {k : Nat}

/-- The node at place `k` is one of the comments above the item. -/
def Takes (s : Site α) (k : Nat) : Prop :=
  ∃ run, s.LongestRun run ∧ s.before.length ≤ k + run.length ∧ k < s.before.length

/-- Comments above an item stand behind every item before it. -/
theorem Takes.le (hs : s ∈ sites ns) (hs' : s' ∈ sites ns) (hk : k < s.before.length)
    (h : s'.Takes k) : s'.before.length ≤ s.before.length := by
  obtain ⟨last, rest, hsplit⟩ := mem_sites_iff.1 hs
  obtain ⟨last', rest', hsplit'⟩ := mem_sites_iff.1 hs'
  obtain ⟨run, ⟨hrun, -⟩, hle, -⟩ := h
  by_contra hlt
  rw [not_le] at hlt
  -- the item would stand inside the run
  have hitem : s'.before[s.before.length]? = some (.item s.first last s.item) := by
    have hns : ns[s.before.length]? = s'.before[s.before.length]? := by
      rw [hsplit', List.getElem?_append_left hlt]
    rw [← hns, hsplit, List.getElem?_append_right le_rfl, Nat.sub_self]
    rfl
  obtain ⟨front, hfront⟩ := hrun.ending
  have hlength : front.length + run.length = s'.before.length := by
    rw [← List.length_append, hfront]
  rw [← hfront, List.getElem?_append_right (by omega)] at hitem
  have hcomment := hrun.comments _ (List.mem_of_getElem? hitem)
  cases hcomment

/-- **No comment stands above two items.** -/
theorem eq_of_takes (hs : s ∈ sites ns) (hs' : s' ∈ sites ns) (h : s.Takes k) (h' : s'.Takes k) :
    s = s' := by
  have hlt : k < s.before.length := h.choose_spec.2.2
  have hlt' : k < s'.before.length := h'.choose_spec.2.2
  have hlength : s.before.length = s'.before.length :=
    Nat.le_antisymm (h.le hs' hs hlt') (h'.le hs hs' hlt)
  obtain ⟨last, rest, hsplit⟩ := mem_sites_iff.1 hs
  obtain ⟨last', rest', hsplit'⟩ := mem_sites_iff.1 hs'
  obtain ⟨hbefore, hrest⟩ := List.append_inj (hsplit.symm.trans hsplit') hlength
  obtain ⟨before, first, item⟩ := s
  obtain ⟨before', first', item'⟩ := s'
  cases hbefore
  cases hrest
  rfl

end Site

/-! ## Files -/

/-- The lines above a type: its own, or those above the declaration that it stands in. -/
inductive TypeDoc (group : Site Declaration) (own : Site TypeDecl) : List String → Prop
  | own {run : List (Node TypeDecl)} (h : own.LongestRun run) :
      TypeDoc group own (run.flatMap Node.lines)
  | group {doc : List String} (hnone : ∀ run, ¬ own.RunAbove run) (h : group.Doc doc) :
      TypeDoc group own doc

theorem NodesBelow.proper (h : NodesBelow row ns) : ∀ n ∈ ns, n.Proper := by
  induction h with
  | nil => exact nofun
  | cons _ hn _ ih => exact List.forall_mem_cons.2 ⟨hn, ih⟩

/-- A run has a line. -/
theorem Site.RunAbove.flatMap_lines_ne_nil {s : Site α} (h : s.RunAbove run)
    (hproper : ∀ n ∈ s.before, n.Proper) : run.flatMap Node.lines ≠ [] := by
  obtain ⟨n, hn, -⟩ := h.touches
  have hmem : n ∈ run := List.mem_of_getLast? hn
  intro hnil
  rw [List.flatMap_eq_nil_iff] at hnil
  exact (hproper n (h.ending.subset hmem)).lines_ne (h.comments n hmem) (hnil n hmem)

theorem typeDoc_of {group : Site Declaration} {own : Site TypeDecl} {doc lines : List String}
    (hproper : ∀ n ∈ own.before, n.Proper) (hgroup : group.Doc doc) (hown : own.Doc lines) :
    TypeDoc group own (if lines.isEmpty then doc else lines) := by
  cases hown with
  | run h =>
    rw [if_neg (by simpa using h.1.flatMap_lines_ne_nil hproper)]
    exact .own h
  | none hnone => exact .group hnone hgroup

def funcSites (source : String) : List (Site Declaration × FuncDecl) :=
  (sites (nodes source)).filterMap fun s =>
    match s.item with
    | .func f => some (s, f)
    | _ => none

/-- The types of a file with the places of their declarations, and with their own places there. -/
def typeSites (source : String) : List (Site Declaration × Site TypeDecl) :=
  (sites (nodes source)).flatMap fun s =>
    match s.item with
    | .types ns => (sites ns).map fun own => (s, own)
    | _ => []

theorem forall₂_funcs (source packagePath : String) (filePath : Option String) :
    List.Forall₂ (fun s f => ∃ doc, s.1.Doc doc ∧ f = { s.2 with doc }) (funcSites source)
      (analyze source packagePath filePath).funcs := by
  refine List.rel_filterMap ?_ (forall₂_documented (nodesBelow_nodes source))
  rintro ⟨before, first, d⟩ ⟨d', doc⟩ ⟨rfl, hdoc⟩
  cases d' with
  | func f => exact .some ⟨doc, hdoc, rfl⟩
  | imports is => exact .none
  | types ns => exact .none
  | other => exact .none

/-- The types of one declaration. -/
theorem forall₂_documentedTypes {group : Site Declaration} {doc : List String}
    {ns : List (Node TypeDecl)} (hns : NodesBelow 0 ns) (hgroup : group.Doc doc) :
    List.Forall₂ (fun own t => ∃ doc, TypeDoc group own doc ∧ t = { own.item with doc })
      (sites ns) (documentedTypes doc ns) := by
  have hproper : ∀ own ∈ sites ns, ∀ n ∈ own.before, n.Proper := by
    intro own hown n hn
    obtain ⟨last, rest, hsplit⟩ := mem_sites_iff.1 hown
    refine hns.proper n ?_
    rw [hsplit]
    exact List.mem_append_left _ hn
  have hboth := (List.forall₂_and_left _ _).2 ⟨hproper, forall₂_documented hns⟩
  rw [documentedTypes, List.forall₂_map_right_iff]
  apply hboth.imp
  rintro own ⟨t, lines⟩ ⟨hown, rfl, hlines⟩
  exact ⟨_, typeDoc_of hown hgroup hlines, rfl⟩

theorem forall₂_types (source packagePath : String) (filePath : Option String) :
    List.Forall₂ (fun s t => ∃ doc, TypeDoc s.1 s.2 doc ∧ t = { s.2.item with doc })
      (typeSites source) (analyze source packagePath filePath).types := by
  have hbelow : ∀ s ∈ sites (nodes source), ∀ ns, s.item = .types ns → NodesBelow 0 ns := by
    intro s hs ns hns
    obtain ⟨last, rest, hsplit⟩ := mem_sites_iff.1 hs
    have hmem : .item s.first last (.types ns) ∈ nodes source := by
      rw [hsplit, hns]
      simp
    exact nodesBelow_of_mem_nodes hmem
  have hboth := (List.forall₂_and_left _ _).2
    ⟨hbelow, forall₂_documented (nodesBelow_nodes source)⟩
  refine List.rel_flatMap hboth ?_
  rintro ⟨before, first, d⟩ ⟨d', doc⟩ ⟨hns, rfl, hdoc⟩
  cases d' with
  | func f => exact .nil
  | imports is => exact .nil
  | types ns =>
    show List.Forall₂ _ ((sites ns).map _) (documentedTypes doc ns)
    rw [List.forall₂_map_left_iff]
    exact forall₂_documentedTypes (hns ns rfl) hdoc
  | other => exact .nil

/-- What stands above the functions and the types of a file is their documentation. -/
structure Documents (source : String) (u : SourceUnit) : Prop where
  sites : ∀ s, s ∈ sites (nodes source) ↔
    ∃ last rest, nodes source = s.before ++ .item s.first last s.item :: rest
  funcs : List.Forall₂ (fun s f => ∃ doc, s.1.Doc doc ∧ f = { s.2 with doc }) (funcSites source)
    u.funcs
  types : List.Forall₂ (fun s t => ∃ doc, TypeDoc s.1 s.2 doc ∧ t = { s.2.item with doc })
    (typeSites source) u.types
  once : ∀ s ∈ Go.sites (nodes source), ∀ s' ∈ Go.sites (nodes source), ∀ k,
    s.Takes k → s'.Takes k → s = s'

/-- **Comments document what stands right below them**, and nothing else. -/
theorem analyze_documents (source packagePath : String) (filePath : Option String) :
    Documents source (analyze source packagePath filePath) where
  sites _ := mem_sites_iff
  funcs := forall₂_funcs source packagePath filePath
  types := forall₂_types source packagePath filePath
  once _ hs _ hs' _ h h' := Site.eq_of_takes hs hs' h h'

/-- A comment on the last row of an item is dropped, and one above an empty row as well. -/
example :
    (analyze ("package p\n// No.\n\n// A one.\n/* A\n two. */\nfunc A() \x7b\x7d // No.\n" ++
      "// B.\nfunc B() \x7b\x7d\n") "p" none).funcs.map (·.doc) =
        [["// A one.", "/* A", " two. */"], ["// B."]] := by
  decide +kernel

end Wiring.Go
