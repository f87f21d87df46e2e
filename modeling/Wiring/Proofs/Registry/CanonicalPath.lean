import Wiring.Proofs.Registry.Listing
import Wiring.Proofs.Registry.Reload
import Wiring.Proofs.Trim

/-!
# The path of a package as it counts

White space around a path is taken away first and then the quotes around what is left
(`wrapped_canonicalPath`).  So no quote is left at either end, but white space may come out that
stood between the quotes and the path.  Asked for the package of its own path, a registry gives the
same package exactly if this did not happen (`ofPath_path_eq_iff`); otherwise it gives another one,
of a shorter path, and lists it beside the first (`padded_twice`).
-/

namespace Wiring

namespace Package

open Text (Tight isBlank trim trimEnds)

variable {written : String}

/-- A path as it may be written: between quotes, and these between white space. -/
structure Wrapped (written path : List Char) : Prop where
  split : ∃ before opening closing after,
    written = before ++ (opening ++ path ++ closing) ++ after ∧
      (∀ c ∈ before, isBlank c = true) ∧ (∀ c ∈ after, isBlank c = true) ∧
      (∀ c ∈ opening, isQuote c = true) ∧ (∀ c ∈ closing, isQuote c = true) ∧
      Tight (opening ++ path ++ closing)
  head : ∀ c ∈ path.head?, isQuote c = false
  last : ∀ c ∈ path.getLast?, isQuote c = false

theorem toList_canonicalPath (written : String) :
    (canonicalPath written).toList = trimEnds isQuote (trim written.toList) := by
  rw [canonicalPath, String.toList_ofList, Text.trimWhile_eq_trimEnds]

/-- **What counts of a path** stands between the quotes that are left without white space. -/
theorem wrapped_canonicalPath (written : String) :
    Wrapped written.toList (canonicalPath written).toList := by
  rw [toList_canonicalPath]
  refine ⟨?_, fun c => Text.head?_trimEnds, fun c => Text.getLast?_trimEnds⟩
  obtain ⟨before, after, hwritten, hbefore, hafter⟩ :=
    Text.exists_trimEnds_eq isBlank written.toList
  obtain ⟨opening, closing, htrimmed, hopening, hclosing⟩ :=
    Text.exists_trimEnds_eq isQuote (trim written.toList)
  refine ⟨before, opening, closing, after, ?_, hbefore, hafter, hopening, hclosing, ?_⟩
  · rw [← htrimmed]
    exact hwritten
  · rw [← htrimmed]
    exact Text.tight_trim _

theorem canonicalPath_canonicalPath_iff : canonicalPath (canonicalPath written)
    = canonicalPath written ↔ Tight (canonicalPath written).toList := by
  have hquotes : trimEnds isQuote (canonicalPath written).toList = (canonicalPath written).toList :=
    Text.trimEnds_eq_self_iff.2
      ⟨(wrapped_canonicalPath written).head, (wrapped_canonicalPath written).last⟩
  rw [← String.toList_inj, toList_canonicalPath, ← Text.trim_eq_self_iff]
  constructor
  · intro h
    by_contra hne
    have hshorter := Text.length_trimEnds_lt hne
    have hle := Text.length_trimEnds_le isQuote (trim (canonicalPath written).toList)
    have hlength := congrArg List.length h
    rw [hlength] at hle
    exact absurd hshorter (not_lt.2 hle)
  · intro h
    rw [h, hquotes]

theorem length_canonicalPath_lt (h : ¬ Tight (canonicalPath written).toList) :
    (canonicalPath (canonicalPath written)).toList.length
      < (canonicalPath written).toList.length := by
  rw [← Text.trim_eq_self_iff] at h
  rw [toList_canonicalPath (canonicalPath written)]
  exact (Text.length_trimEnds_le _ _).trans_lt (Text.length_trimEnds_lt h)

/-- The path of a package leads back to it exactly if no white space is left at its ends. -/
theorem ofPath_path_eq_iff : ofPath (ofPath written).path = ofPath written ↔
    Tight (ofPath written).path.toList := by
  have hpath : (ofPath written).path = canonicalPath written := rfl
  rw [hpath, ← canonicalPath_canonicalPath_iff, ofPath, ofPath, mk.injEq]

end Package

namespace Registry

open Text (Tight)

variable {r : Registry}

theorem ByCalls.lists_addPackage (h : r.ByCalls) (written : String) :
    (r.addPackage (.ofPath written)).Lists (.ofPath written) :=
  (h.closed.addPackage _).lists KeyedSet.mem_keys_insert_self

/-- **The package of a path, and the package of its own path.**  The path is what stands between
the quotes.  If it neither begins nor ends with white space, its package is the same one and nothing
is added; otherwise its package is another one, of a shorter path, and is listed as well. -/
theorem ByCalls.package_again (h : r.ByCalls) (written : String) :
    let p := Package.ofPath written
    let s := r.addPackage p
    Package.Wrapped written.toList p.path.toList ∧ s.Lists p ∧
      (Package.ofPath p.path = p ↔ Tight p.path.toList) ∧
      (Tight p.path.toList → s.addPackage (.ofPath p.path) = s) ∧
      (¬ Tight p.path.toList → (s.addPackage (.ofPath p.path)).Lists (.ofPath p.path) ∧
        (s.addPackage (.ofPath p.path)).Lists p ∧
        (Package.ofPath p.path).path.toList.length < p.path.toList.length) := by
  intro p s
  have hs : s.ByCalls := h.call (.package written)
  have hlists : s.Lists p := h.lists_addPackage written
  refine ⟨Package.wrapped_canonicalPath written, hlists, Package.ofPath_path_eq_iff, ?_, ?_⟩
  · intro htight
    have hsame : Package.ofPath p.path = p := Package.ofPath_path_eq_iff.2 htight
    rw [hsame]
    exact addPackage_of_mem (KeyedSet.mem_keys_iff.2 (Option.isSome_iff_exists.2 ⟨p, hlists⟩))
  · intro hloose
    exact ⟨hs.lists_addPackage p.path, hlists.perform (.package _),
      Package.length_canonicalPath_lt hloose⟩

/-- The registry in which nothing is known. -/
theorem byCalls_empty : (empty .default).ByCalls :=
  @ByCalls.create .default _ (by cbv)

/-- Quotes in quotes come off together, white space in quotes does not come off. -/
theorem package_again_quoted :
    (empty .default).ByCalls ∧
    (let p := Package.ofPath "\t\"\x60ex.com/a\x60\"\n"
      let s := (empty .default).addPackage p
      p.path = "ex.com/a" ∧ Package.ofPath p.path = p ∧ s.addPackage (.ofPath p.path) = s) ∧
    let p := Package.ofPath "\"ex.com/a \""
    let s := (empty .default).addPackage p
    p.path = "ex.com/a " ∧ Package.ofPath p.path ≠ p ∧
      (s.addPackage (.ofPath p.path)).Lists (.ofPath p.path) := by
  obtain ⟨-, -, hsame, hadded, -⟩ := byCalls_empty.package_again "\t\"\x60ex.com/a\x60\"\n"
  obtain ⟨-, -, hother, -, hlisted⟩ := byCalls_empty.package_again "\"ex.com/a \""
  have hpath : (Package.ofPath "\t\"\x60ex.com/a\x60\"\n").path = "ex.com/a" := by cbv
  have hloosePath : (Package.ofPath "\"ex.com/a \"").path = "ex.com/a " := by cbv
  have htight : Tight (Package.ofPath "\t\"\x60ex.com/a\x60\"\n").path.toList :=
    Text.trim_eq_self_iff.1 (by cbv)
  have hlast : (Package.ofPath "\"ex.com/a \"").path.toList.getLast? = some ' ' := by cbv
  have hloose : ¬ Tight (Package.ofPath "\"ex.com/a \"").path.toList := fun h =>
    absurd (h.last ' ' hlast) (by decide)
  exact ⟨byCalls_empty, ⟨hpath, hsame.2 htight, hadded htight⟩, hloosePath,
    fun heq => hloose (hother.1 heq), (hlisted hloose).1⟩

/-- **White space between the quotes and the path makes two packages of one**: the path of the first
is trimmed further when it is given back. -/
theorem padded_twice : (empty .default).ByCalls ∧
    Package.ofPath (Package.ofPath "\" ex.com/a \"").path ≠ Package.ofPath "\" ex.com/a \"" ∧
    (((empty .default).addPackage (.ofPath "\" ex.com/a \"")).addPackage
      (.ofPath (Package.ofPath "\" ex.com/a \"").path)).packages.items.map (·.path)
        = [" ex.com/a ", "ex.com/a"] :=
  ⟨byCalls_empty, by decide, by cbv⟩

end Registry

end Wiring
