import Mathlib
import Wiring.Proofs.Registry.Calls

/-!
# Which aliases are equal

An alias is a name made fit for generated code and four digits.  The digits give the first two bytes
of a digest (`shortHex_eq_iff`), and since there are always four of them an alias falls into its two
parts in one way only.  So two aliases are equal exactly if the names come out equal and the digests
agree in two bytes (`localAlias_eq_iff`).

Two bytes do not tell all paths apart: of 65537 packages whose names come out equal two have one
alias (`exists_localAlias_eq`).  They do not tell a hundred apart either, as `crowded` shows.
-/

namespace Wiring

namespace Digest

variable {s t : String} {b c : UInt8}

/-- The two bytes of the digest of a text that an alias shows. -/
def tag (s : String) : List UInt8 :=
  (sha256 (s.toList.flatMap String.utf8EncodeChar)).take 2

theorem digitChar_inj {m n : Nat} (hm : m < 16) (hn : n < 16)
    (h : Nat.digitChar m = Nat.digitChar n) : m = n := by
  have hall : ∀ m < 16, ∀ n < 16, Nat.digitChar m = Nat.digitChar n → m = n := by decide
  exact hall m hm n hn h

theorem hexByte_inj (h : hexByte b = hexByte c) : b = c := by
  have hb := b.toNat_lt
  have hc := c.toNat_lt
  obtain ⟨hhigh, hlow⟩ := List.cons.inj h
  have hdiv := digitChar_inj (by omega) (by omega) hhigh
  have hmod := digitChar_inj (by omega) (by omega) (List.cons.inj hlow).1
  exact UInt8.toNat_inj.1 (by omega)

theorem length_bigEndian (count n : Nat) : (bigEndian count n).length = count := by
  induction count with
  | zero => rfl
  | succ count ih => rw [bigEndian, List.length_cons, ih]

theorem length_sha256 (message : List UInt8) : (sha256 message).length = 32 := by
  simp [sha256, length_bigEndian]

theorem tag_eq (s : String) : ∃ b c, tag s = [b, c] := by
  have hlen : (tag s).length = 2 := by rw [tag, List.length_take, length_sha256]; rfl
  exact List.length_eq_two.1 hlen

theorem shortHex_eq (s : String) : shortHex s = String.ofList ((tag s).flatMap hexByte) := rfl

theorem length_shortHex (s : String) : (shortHex s).toList.length = 4 := by
  obtain ⟨b, c, h⟩ := tag_eq s
  rw [shortHex_eq, h, String.toList_ofList]
  rfl

/-- **The digits of two texts are equal exactly if two bytes of their digests are.** -/
theorem shortHex_eq_iff : shortHex s = shortHex t ↔ tag s = tag t := by
  refine ⟨fun h => ?_, fun h => by rw [shortHex_eq, h, shortHex_eq]⟩
  obtain ⟨b, c, hs⟩ := tag_eq s
  obtain ⟨b', c', ht⟩ := tag_eq t
  rw [shortHex_eq, shortHex_eq, String.ofList_inj, hs, ht] at h
  obtain ⟨hb, hc⟩ : hexByte b = hexByte b' ∧ hexByte c = hexByte c' := by
    simpa using List.append_inj h rfl
  rw [hs, ht, hexByte_inj hb, hexByte_inj hc]

end Digest

open Digest (tag shortHex)

/-- A name with digits falls into its parts in one way only. -/
theorem name_digits_inj {name name' : List Char} {s t : String} :
    String.ofList name ++ "_" ++ shortHex s = String.ofList name' ++ "_" ++ shortHex t ↔
      name = name' ∧ tag s = tag t := by
  rw [← Digest.shortHex_eq_iff]
  refine ⟨fun h => ?_, fun ⟨hname, hdigits⟩ => by rw [hname, hdigits]⟩
  have hchars : name ++ ['_'] ++ (shortHex s).toList = name' ++ ['_'] ++ (shortHex t).toList := by
    simpa using congrArg String.toList h
  obtain ⟨hname, hdigits⟩ := List.append_inj' hchars
    ((Digest.length_shortHex s).trans (Digest.length_shortHex t).symm)
  exact ⟨List.append_cancel_right hname, String.toList_inj.1 hdigits⟩

namespace Registry

/-- **Aliases are equal exactly if the names come out equal and the digests of the paths, or of the
full names, agree in their first two bytes.** -/
theorem localAlias_eq_iff (p q : Package) (n m : String) :
    (p.localAlias = q.localAlias ↔
      sanitizeIdent p.name.toList = sanitizeIdent q.name.toList ∧ tag p.path = tag q.path) ∧
    ((TypeName.mk (some p) n).localAlias = (TypeName.mk (some q) m).localAlias ↔
      sanitizeIdent (Text.lowercase n.toList) = sanitizeIdent (Text.lowercase m.toList) ∧
        tag (p.path ++ "." ++ n) = tag (q.path ++ "." ++ m)) :=
  ⟨name_digits_inj, name_digits_inj⟩

/-- Two packages and two types, each pair with equal names. -/
def crowded : Registry :=
  ((((empty .default).addPackage (.ofPath "ex.com/m12/api")).addPackage
    (.ofPath "ex.com/m80/api")).typeIn (some "ex.com/m92/api") "User").2.typeIn
      (some "ex.com/m103/api") "User" |>.2

/-- **Two packages have one alias, and so have two types of packages.** -/
theorem crowded_clash : crowded.ByCalls ∧
    (∃ p ∈ crowded.packages.items, ∃ q ∈ crowded.packages.items,
      p.path ≠ q.path ∧ p.localAlias = q.localAlias) ∧
    ∃ e ∈ crowded.types.items, ∃ e' ∈ crowded.types.items,
      e.name.package.isSome ∧ e'.name.package.isSome ∧ e.name.fqn ≠ e'.name.fqn ∧
        e.name.localAlias = e'.name.localAlias := by
  have hcalls : crowded.ByCalls :=
    ((((@ByCalls.create .default _ (by cbv)).call (.package _)).call
      (.package _)).call (.typeIn _ _)).call (.typeIn _ _)
  have hpackages : crowded.packages.items = [⟨"ex.com/m12/api"⟩, ⟨"ex.com/m80/api"⟩,
      ⟨"ex.com/m92/api"⟩, ⟨"ex.com/m103/api"⟩] := by decide +kernel
  have htypes : crowded.types.items = [⟨⟨some ⟨"ex.com/m92/api"⟩, "User"⟩, none⟩,
      ⟨⟨some ⟨"ex.com/m103/api"⟩, "User"⟩, none⟩] := by decide +kernel
  have hapi : (Package.mk "ex.com/m12/api").localAlias = (Package.mk "ex.com/m80/api").localAlias :=
    by decide +kernel
  have huser : (TypeName.mk (some ⟨"ex.com/m92/api"⟩) "User").localAlias
      = (TypeName.mk (some ⟨"ex.com/m103/api"⟩) "User").localAlias := by decide +kernel
  rw [hpackages, htypes]
  refine ⟨hcalls, ⟨_, List.mem_cons_self, _, List.mem_cons_of_mem _ List.mem_cons_self, ?_, hapi⟩,
    ⟨_, List.mem_cons_self, _, List.mem_cons_of_mem _ List.mem_cons_self, rfl, rfl, ?_, huser⟩⟩
  · decide
  · decide

/-! ## Two bytes do not suffice -/

/-- Two bytes are the digits of a number below 65536. -/
theorem exists_tags : ∃ tags : Finset (List UInt8), tags.card ≤ 65536 ∧ ∀ s, tag s ∈ tags := by
  let digits (n : Nat) : List UInt8 := [.ofNat (n / 256), .ofNat (n % 256)]
  have hcard : ((Finset.range 65536).image digits).card ≤ 65536 :=
    Finset.card_image_le.trans_eq (Finset.card_range _)
  refine ⟨_, hcard, fun s => Finset.mem_image.2 ?_⟩
  obtain ⟨b, c, h⟩ := Digest.tag_eq s
  have hb := b.toNat_lt
  have hc := c.toNat_lt
  have hhigh : (256 * b.toNat + c.toNat) / 256 = b.toNat := by omega
  have hlow : (256 * b.toNat + c.toNat) % 256 = c.toNat := by omega
  refine ⟨256 * b.toNat + c.toNat, Finset.mem_range.2 (by omega), ?_⟩
  simp only [digits, hhigh, hlow, UInt8.ofNat_toNat, h]

/-- **Of more than 65536 packages whose names come out equal two have one alias.** -/
theorem exists_localAlias_eq {ps : List Package} {name : List Char} (hps : ps.Nodup)
    (hname : ∀ p ∈ ps, sanitizeIdent p.name.toList = name) (hlen : 65536 < ps.length) :
    ∃ p ∈ ps, ∃ q ∈ ps, p ≠ q ∧ p.localAlias = q.localAlias := by
  obtain ⟨tags, hcard, htags⟩ := exists_tags
  have hfew : tags.card < ps.toFinset.card := by
    rw [List.toFinset_card_of_nodup hps]
    omega
  obtain ⟨p, hp, q, hq, hne, htag⟩ := Finset.exists_ne_map_eq_of_card_lt_of_maps_to
    (f := fun p : Package => tag p.path) hfew fun p _ => htags p.path
  rw [List.mem_toFinset] at hp hq
  have hnames := (hname p hp).trans (hname q hq).symm
  exact ⟨p, hp, q, hq, hne, name_digits_inj.2 ⟨hnames, htag⟩⟩

end Registry

end Wiring
