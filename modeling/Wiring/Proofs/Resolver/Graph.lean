import Mathlib
import Wiring.Proofs.Resolver.Targets

/-!
# The dependency graph

`edges` leaves out an edge that starts at no node and keeps one of several equal edges.  In a sound
resolution it finds nothing to leave out: each dependency is a constructor at an earlier place
(`Sound.earlier_of_mem_dependencies`), and a constructor is called once and names a dependency once.
So the edges are the dependencies, written down in call order (`Sound.edges_eq`), and every one of
them leads forward.
-/

namespace Wiring

namespace Resolution

variable {d : Resolution} {f : Func} {n m : String}

def Edge (d : Resolution) (n m : String) : Prop :=
  (n, m) ∈ d.edges

/-- The graph shows the constructors and their dependencies as they are, and call order is a
topological order of it. -/
structure Ordered (d : Resolution) : Prop where
  /-- One node for every constructor, in call order. -/
  nodes : d.nodes = d.funcs.map Func.fqn
  nodup : d.nodes.Nodup
  /-- Every dependency is a node. -/
  closed : ∀ f ∈ d.funcs, ∀ n ∈ d.dependencies f.fqn, n ∈ d.nodes
  /-- The edges are the dependencies of the constructors, each once. -/
  edge : ∀ n m, d.Edge n m ↔ n ∈ d.dependencies m
  once : d.edges.Nodup
  loopless : ∀ n, ¬ d.Edge n n
  /-- Every edge leads from an earlier to a later place. -/
  forward : ∀ n m, d.Edge n m → ∃ i j : Nat, i < j ∧ d.nodes[i]? = some n ∧ d.nodes[j]? = some m
  acyclic : ∀ n, ¬ Relation.TransGen d.Edge n n

theorem mem_nodes_iff : n ∈ d.nodes ↔ ∃ f ∈ d.funcs, f.fqn = n :=
  List.mem_map

/-- Only what is called has dependencies. -/
theorem mem_nodes_of_mem_dependencies (hn : n ∈ d.dependencies m) : m ∈ d.nodes := by
  cases hc : d.contains m with
  | true => exact mem_nodes_iff.2 (contains_iff.1 hc)
  | false =>
    rw [dependencies_of_not_contains hc] at hn
    cases hn

/-! ## Dependencies are nodes -/

/-- A dependency stands at an earlier place. -/
theorem Sound.earlier_of_mem_dependencies (h : d.Sound) {j : Nat} (hj : d.funcs[j]? = some f)
    (hn : n ∈ d.dependencies f.fqn) : ∃ i < j, d.nodes[i]? = some n := by
  rw [h.dependencies f (List.mem_of_getElem? hj), List.mem_eraseDups] at hn
  obtain ⟨p, hp, hsup⟩ := List.mem_filterMap.1 hn
  obtain ⟨t, g, i, ht, hg, hi, hig⟩ := h.earlier j f hj p hp
  have hname : g.fqn = n := by simpa [supplier?, ht, hg] using hsup
  refine ⟨i, hi, ?_⟩
  rw [nodes, List.getElem?_map, hig, Option.map_some, hname]

theorem Sound.mem_nodes_of_dependency (h : d.Sound) (hf : f ∈ d.funcs)
    (hn : n ∈ d.dependencies f.fqn) : n ∈ d.nodes := by
  obtain ⟨j, hj⟩ := List.getElem?_of_mem hf
  obtain ⟨i, -, hi⟩ := h.earlier_of_mem_dependencies hj hn
  exact List.mem_of_getElem? hi

theorem Sound.nodup_dependencies (h : d.Sound) (hf : f ∈ d.funcs) :
    (d.dependencies f.fqn).Nodup := by
  rw [h.dependencies f hf]
  exact nodup_eraseDups _

/-- Where no constructor is called twice, a step is found by the name of its constructor. -/
theorem Sound.dependencies_of_mem_steps (h : d.Sound) {s : Step} (hs : s ∈ d.steps) :
    d.dependencies s.func.fqn = s.dependencies := by
  have hkeys : (d.steps.map (·.func.fqn)).Nodup := by
    have hnames := h.nodup
    rwa [funcs, List.map_map] at hnames
  have hfind : d.steps.find? (·.func.fqn == s.func.fqn) = some s :=
    (@find?_eq_some_iff_of_nodup _ _ _ (·.func.fqn) _ _ hkeys _ _).2 ⟨hs, rfl⟩
  rw [Resolution.dependencies, hfind]
  rfl

/-! ## The edges -/

/-- **The edges are the dependencies in call order**: none is left out, and none is merged with
another. -/
theorem Sound.edges_eq (h : d.Sound) :
    d.edges = d.funcs.flatMap fun f => (d.dependencies f.fqn).map fun n => (n, f.fqn) := by
  have hall : (d.steps.flatMap fun s => (s.dependencies.filter d.contains).map (·, s.func.fqn))
      = d.funcs.flatMap fun f => (d.dependencies f.fqn).map (·, f.fqn) := by
    rw [funcs, List.flatMap_map]
    refine List.flatMap_congr fun s hs => ?_
    have hf : s.func ∈ d.funcs := List.mem_map_of_mem hs
    have hkept : s.dependencies.filter d.contains = s.dependencies := by
      rw [List.filter_eq_self, ← h.dependencies_of_mem_steps hs]
      intro n hn
      exact contains_iff.2 (mem_nodes_iff.1 (h.mem_nodes_of_dependency hf hn))
    rw [hkept, h.dependencies_of_mem_steps hs]
  rw [edges, hall]
  refine eraseDups_of_nodup (List.nodup_flatMap.2 ⟨fun f hf => ?_, ?_⟩)
  · exact (h.nodup_dependencies hf).map fun n n' he => (Prod.mk.inj he).1
  · -- edges into different constructors are different
    refine (List.pairwise_map.1 h.nodup).imp fun {f g} hne => ?_
    intro e he he'
    obtain ⟨n, -, rfl⟩ := List.mem_map.1 he
    obtain ⟨n', -, he⟩ := List.mem_map.1 he'
    exact hne (Prod.mk.inj he).2.symm

theorem Sound.edge_iff (h : d.Sound) : d.Edge n m ↔ n ∈ d.dependencies m := by
  rw [Edge, h.edges_eq, List.mem_flatMap]
  constructor
  · rintro ⟨f, -, he⟩
    obtain ⟨n', hn, he⟩ := List.mem_map.1 he
    cases he
    exact hn
  · intro hn
    obtain ⟨f, hf, rfl⟩ := mem_nodes_iff.1 (mem_nodes_of_mem_dependencies hn)
    exact ⟨f, hf, List.mem_map_of_mem hn⟩

theorem Sound.forward (h : d.Sound) (he : d.Edge n m) :
    ∃ i j : Nat, i < j ∧ d.nodes[i]? = some n ∧ d.nodes[j]? = some m := by
  have hn := h.edge_iff.1 he
  obtain ⟨f, hf, rfl⟩ := mem_nodes_iff.1 (mem_nodes_of_mem_dependencies hn)
  obtain ⟨j, hj⟩ := List.getElem?_of_mem hf
  obtain ⟨i, hlt, hi⟩ := h.earlier_of_mem_dependencies hj hn
  refine ⟨i, j, hlt, hi, ?_⟩
  rw [nodes, List.getElem?_map, hj, Option.map_some]

/-- A node has one place only. -/
theorem Sound.place_unique (h : d.Sound) {i j : Nat} (hi : d.nodes[i]? = some n)
    (hj : d.nodes[j]? = some n) : i = j :=
  (List.getElem?_inj (List.getElem?_eq_some_iff.1 hi).1 h.nodup).1 (hi.trans hj.symm)

/-- A way along edges leads forward too. -/
theorem Sound.forward_of_way (h : d.Sound) (hway : Relation.TransGen d.Edge n m) :
    ∃ i j : Nat, i < j ∧ d.nodes[i]? = some n ∧ d.nodes[j]? = some m := by
  induction hway with
  | single he => exact h.forward he
  | tail _ he ih =>
    obtain ⟨i, j, hij, hi, hj⟩ := ih
    obtain ⟨j', k, hjk, hj', hk⟩ := h.forward he
    have hsame : j = j' := h.place_unique hj hj'
    exact ⟨i, k, by omega, hi, hk⟩

theorem Sound.not_way_self (h : d.Sound) : ¬ Relation.TransGen d.Edge n n := by
  intro hway
  obtain ⟨i, j, hij, hi, hj⟩ := h.forward_of_way hway
  have hsame : i = j := h.place_unique hi hj
  omega

/-- **A sound resolution is ordered.** -/
theorem Sound.ordered (h : d.Sound) : d.Ordered where
  nodes := rfl
  nodup := h.nodup
  closed _ hf _ hn := h.mem_nodes_of_dependency hf hn
  edge _ _ := h.edge_iff
  once := nodup_eraseDups _
  loopless _ he := h.not_way_self (.single he)
  forward _ _ := h.forward
  acyclic _ := h.not_way_self

/-! ## Calls in a row -/

/-- **From nothing, calls leave an ordered resolution**, whatever resolvers over the functions of a
registry they are made with, and whichever of them fail. -/
theorem calls_ordered {reg : Registry} (hreg : reg.Reachable)
    {cs : List (Resolver × List TypeName)} (hcs : ∀ c ∈ cs, c.1.funcs ⊆ reg.funcs) :
    (empty.calls cs).Ordered := by
  have hpool : Distinct reg.funcs := fun f hf g hg => hreg.wellFormed.eq_of_fqn_eq hf hg
  have hsound : (empty.calls cs).Sound := (sound_empty.calls hpool hcs (List.nil_subset _)).1
  exact hsound.ordered

/-- A registry in which `B` and `C` are made together from `A`, and `D` from all three. -/
def diamond : Registry :=
  ((Registry.empty .default).load ⟨"p", none, [], [],
    [⟨"NewA", true, none, [], [.unnamed (.named none "A")], []⟩,
      ⟨"NewBC", true, none, [.unnamed (.named none "A")],
        [.unnamed (.named none "B"), .unnamed (.named none "C")], []⟩,
      ⟨"NewD", true, none, [.unnamed (.named none "B"), .unnamed (.named none "A"),
        .unnamed (.named none "C")], [.unnamed (.named none "D")], []⟩]⟩).2

/-- A call for `C` with a resolver of its own, one that fails after it has made `D`, and one for
`D`. -/
def diamondCalls : List (Resolver × List TypeName) :=
  [(⟨diamond.funcs, .rejectAmbiguous⟩, [.lookup (some (.ofPath "p")) "C"]),
    (diamond.resolver, [.lookup (some (.ofPath "p")) "D", .lookup (some (.ofPath "p")) "E"]),
    (diamond.resolver, [.lookup (some (.ofPath "p")) "D"])]

set_option maxRecDepth 4000 in
theorem ordered_diamondCalls : diamond.Reachable ∧
    (∀ c ∈ diamondCalls, c.1.funcs ⊆ diamond.funcs) ∧
    (empty.calls diamondCalls).edges
      = [("p.NewA", "p.NewBC"), ("p.NewBC", "p.NewD"), ("p.NewA", "p.NewD")] ∧
    (empty.calls diamondCalls).Ordered := by
  have hreg : diamond.Reachable := (@Registry.Reachable.create .default _ (by cbv)).load _
  have hcs : ∀ c ∈ diamondCalls, c.1.funcs ⊆ diamond.funcs := by
    intro c hc
    simp only [diamondCalls, List.mem_cons, List.not_mem_nil, or_false] at hc
    rcases hc with rfl | rfl | rfl
    · exact List.Subset.refl _
    · exact List.filter_subset_self _
    · exact List.filter_subset_self _
  exact ⟨hreg, hcs, by cbv, calls_ordered hreg hcs⟩

end Resolution

end Wiring
