import Wiring.Proofs.Resolver.Replay

/-!
# The strict policy

Under `rejectAmbiguous` a constructor is chosen only if it is the one candidate of its type.  Then
it is the one candidate in whatever order the functions are listed, and it is also what
`firstRegistered` chooses.  So a search that succeeds under the strict policy is taken over again by
every resolver with the same functions, whatever its policy (`keeps_of_perm`), and one that fails is
failed again under the strict policy (`visit_fails`): a type without candidates has none in any
order, and one that is ambiguous stays so, with its candidates listed differently.
-/

namespace Wiring

/-- The same error, but for the order in which candidates are listed. -/
inductive ResolveError.Alike : ResolveError → ResolveError → Prop
  | refl (e : ResolveError) : Alike e e
  | ambiguous {type : String} {names names' : List String} (h : names.Perm names') :
      Alike (.ambiguous type names) (.ambiguous type names')

namespace Resolver

variable {r r' : Resolver} {t : TypeName} {f : Func} {q : Option String} {stack : List String}
  {done : Resolution} {e : ResolveError} {targets : List TypeName}

/-! ## The choice -/

theorem candidates_perm (h : r.funcs.Perm r'.funcs) (t : TypeName) :
    (r.candidates t).Perm (r'.candidates t) :=
  h.filter _

theorem producerFor_of_candidates_eq (h : r.candidates t = [f]) : r.producerFor t = .ok f := by
  rw [producerFor, pick, h]

theorem candidates_eq_of_producerFor (hr : r.policy = .rejectAmbiguous)
    (h : r.producerFor t = .ok f) : r.candidates t = [f] := by
  rw [producerFor, pick, hr] at h
  cases hc : r.candidates t with
  | nil => rw [hc] at h; cases h
  | cons g gs =>
    cases gs with
    | nil => rw [hc] at h; cases h; rfl
    | cons _ _ => rw [hc] at h; cases h

/-- **What the strict policy chooses is chosen in every order and under every policy.** -/
theorem keeps_of_perm (h : r.funcs.Perm r'.funcs) (hr : r.policy = .rejectAmbiguous) :
    r.Keeps r' := by
  intro t f hf
  have hone : (r.candidates t).Perm (r'.candidates t) := candidates_perm h t
  rw [candidates_eq_of_producerFor hr hf, List.singleton_perm] at hone
  exact producerFor_of_candidates_eq hone.symm

/-- Wherever one resolver has no choice, the other one has none for the same reason. -/
def Fails (r r' : Resolver) : Prop :=
  ∀ t q e, r.pick t q = .error e → ∃ e', r'.pick t q = .error e' ∧ e.Alike e'

theorem fails_of_perm (h : r.funcs.Perm r'.funcs) (hr' : r'.policy = .rejectAmbiguous) :
    r.Fails r' := by
  intro t q e he
  have hperm : (r.candidates t).Perm (r'.candidates t) := candidates_perm h t
  rcases pick_eq_error_iff.1 he with ⟨hnone, rfl⟩ | ⟨-, hlen, rfl⟩
  · rw [hnone] at hperm
    have hnone' : r'.candidates t = [] := hperm.nil_eq.symm
    exact ⟨_, pick_eq_error_iff.2 (.inl ⟨hnone', rfl⟩), .refl _⟩
  · rw [hperm.length_eq] at hlen
    exact ⟨_, pick_eq_error_iff.2 (.inr ⟨hr', hlen, rfl⟩), .ambiguous (hperm.map _)⟩

/-! ## The search -/

theorem visit_of_unchosen (hnew : ¬ (done.producer? t.fqn).isSome = true) (hs : t.fqn ∉ stack)
    (he : r.pick t q = .error e) : r.visit t q stack done = .error e := by
  rw [visit, if_neg hnew, dif_neg hs]
  split
  · next e' he' =>
    rw [he', Except.error.injEq] at he
    rw [he]
  · next f hf =>
    rw [hf] at he
    cases he

/-- **A visit that fails is failed again.** -/
theorem visit_fails (hk : r.Keeps r') (hf : r.Fails r') (h : r.visit t q stack done = .error e) :
    ∃ e', r'.visit t q stack done = .error e' ∧ e.Alike e' := by
  refine (visit.mutual_induct_unfolding r
    (fun t q stack done result => ∀ e, result = .error e →
      ∃ e', r'.visit t q stack done = .error e' ∧ e.Alike e')
    (fun f ps stack done deps result => ∀ e, result = .error e →
      ∃ e', r'.visitParams f ps stack done deps = .error e' ∧ e.Alike e')
    ?made ?cycle ?unchosen ?chosen ?none ?untyped ?param).1 t q stack done e h
  case made =>
    rintro t q stack done - e h
    cases h
  case cycle =>
    intro t q stack done hnew hs e h
    cases h
    exact ⟨_, by rw [visit, if_neg hnew, dif_pos hs], .refl _⟩
  case unchosen =>
    intro t q stack done hnew hs e₁ he e h
    obtain rfl : e₁ = e := Except.error.inj h
    obtain ⟨e', he', halike⟩ := hf t q e₁ he
    exact ⟨e', visit_of_unchosen hnew hs he', halike⟩
  case chosen =>
    intro t q stack done hnew hs f hchosen ih e h
    have hchosen' : r'.pick t q = .ok f := pick_eq_ok_iff.2 (hk t f (pick_eq_ok_iff.1 hchosen))
    rw [visit_of_chosen hnew hs hchosen']
    cases hv : r.visitParams f f.params (t.fqn :: stack) done [] with
    | ok v => rw [hv] at h; cases h
    | error e₁ =>
      rw [hv] at h
      cases h
      obtain ⟨e', he', halike⟩ := ih e hv
      exact ⟨e', by rw [he']; rfl, halike⟩
  case none =>
    rintro f stack done deps e h
    cases h
  case untyped =>
    intro f stack done deps p rest hp e h
    cases h
    refine ⟨_, ?_, .refl _⟩
    rw [visitParams, hp]
  case param =>
    intro f stack done deps p rest t hp ih ihrest e h
    rw [visitParams, hp]
    dsimp only
    cases hv : r.visit t (some f.fqn) stack done with
    | error e₁ =>
      rw [hv] at h
      cases h
      obtain ⟨e', he', halike⟩ := ih e hv
      exact ⟨e', by rw [he']; rfl, halike⟩
    | ok d =>
      -- this parameter is made by both, so it is a later one that is not
      rw [hv] at h
      obtain ⟨e', he', halike⟩ := ihrest d e h
      exact ⟨e', by rw [visit_replay hk hv]; exact he', halike⟩

theorem resolveInto_fails (hk : r.Keeps r') (hf : r.Fails r')
    (h : r.resolveInto done targets = .error e) :
    ∃ e', r'.resolveInto done targets = .error e' ∧ e.Alike e' := by
  induction targets generalizing done with
  | nil => cases h
  | cons t ts ih =>
    rw [resolveInto_cons] at h ⊢
    cases hv : r.visit t none [] done with
    | error e₁ =>
      rw [hv] at h
      cases h
      obtain ⟨e', he', halike⟩ := visit_fails hk hf hv
      exact ⟨e', by rw [he']; rfl, halike⟩
    | ok d =>
      rw [hv] at h
      obtain ⟨e', he', halike⟩ := ih h
      exact ⟨e', by rw [visit_replay hk hv]; exact he', halike⟩

/-- **Under the strict policy the order of the functions does not matter**, and what succeeds under
it succeeds in the same way under the other policy.  This holds from every state. -/
theorem strict_perm {fs fs' : List Func} (h : fs.Perm fs') (done : Resolution)
    (targets : List TypeName) :
    (∀ d, (Resolver.mk fs .rejectAmbiguous).resolveInto done targets = .ok d →
      (Resolver.mk fs' .rejectAmbiguous).resolveInto done targets = .ok d ∧
        (Resolver.mk fs' .firstRegistered).resolveInto done targets = .ok d) ∧
    ∀ e, (Resolver.mk fs .rejectAmbiguous).resolveInto done targets = .error e →
      ∃ e', (Resolver.mk fs' .rejectAmbiguous).resolveInto done targets = .error e' ∧
        e.Alike e' := by
  have hkeeps : ∀ policy, (Resolver.mk fs .rejectAmbiguous).Keeps ⟨fs', policy⟩ := fun policy =>
    keeps_of_perm h rfl
  have hfails : (Resolver.mk fs .rejectAmbiguous).Fails ⟨fs', .rejectAmbiguous⟩ :=
    fails_of_perm h rfl
  refine ⟨fun d hd => ⟨?_, ?_⟩, fun e he => ?_⟩
  · exact resolveInto_replay (hkeeps _) hd
  · exact resolveInto_replay (hkeeps _) hd
  · exact resolveInto_fails (hkeeps _) hfails he

/-- Functions that make `A`, `B` from `A`, and `C` in two ways. -/
def twoWays : List Func :=
  ((Registry.empty .default).loadAll [⟨"p", none, [], [],
    [Registry.makes "NewA" "A" none, Registry.makes "NewB" "B" (some "A"),
      Registry.makes "NewC" "C" none, Registry.makes "LateC" "C" none]⟩]).2.funcs

set_option maxRecDepth 4000 in
theorem strict_perm_twoWays : twoWays.Perm twoWays.reverse ∧
    (∃ d, (Resolver.mk twoWays .rejectAmbiguous).resolve [.lookup (some (.ofPath "p")) "B"]
        = .ok d ∧
      (Resolver.mk twoWays.reverse .rejectAmbiguous).resolve [.lookup (some (.ofPath "p")) "B"]
        = .ok d ∧
      (Resolver.mk twoWays.reverse .firstRegistered).resolve [.lookup (some (.ofPath "p")) "B"]
        = .ok d ∧ d.nodes = ["p.NewA", "p.NewB"]) ∧
    ∃ e e', (Resolver.mk twoWays .rejectAmbiguous).resolve [.lookup (some (.ofPath "p")) "C"]
        = .error e ∧
      (Resolver.mk twoWays.reverse .rejectAmbiguous).resolve [.lookup (some (.ofPath "p")) "C"]
        = .error e' ∧ e.Alike e' ∧ e = .ambiguous "p.C" ["p.NewC", "p.LateC"] := by
  have hperm : twoWays.Perm twoWays.reverse := (List.reverse_perm _).symm
  have hnodes : ((Resolver.mk twoWays .rejectAmbiguous).resolve
      [.lookup (some (.ofPath "p")) "B"]).map Resolution.nodes = .ok ["p.NewA", "p.NewB"] := by cbv
  have herror : (Resolver.mk twoWays .rejectAmbiguous).resolve [.lookup (some (.ofPath "p")) "C"]
      = .error (.ambiguous "p.C" ["p.NewC", "p.LateC"]) := by cbv
  refine ⟨hperm, ?_, ?_⟩
  · cases hd : (Resolver.mk twoWays .rejectAmbiguous).resolve
        [.lookup (some (.ofPath "p")) "B"] with
    | error e =>
      rw [hd] at hnodes
      cases hnodes
    | ok d =>
      rw [hd] at hnodes
      obtain ⟨hstrict, hfirst⟩ := (strict_perm hperm .empty _).1 d hd
      exact ⟨d, rfl, hstrict, hfirst, Except.ok.inj hnodes⟩
  · obtain ⟨e', he', halike⟩ := (strict_perm hperm .empty _).2 _ herror
    exact ⟨_, e', herror, he', halike, rfl⟩

end Resolver

end Wiring
