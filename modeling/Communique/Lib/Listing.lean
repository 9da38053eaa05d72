import Mathlib.Data.FinEnum
import Mathlib.Data.List.Perm.Basic
import Mathlib.Data.Fintype.EquivFin

/-!
# Listings: key-value lists strictly ascending in their keys

A strictly ascending listing is the one sorted listing of the finite map it stores.

* `keys`, `lookup` : the stored keys and the map itself; `mem_iff_lookup` ties it to membership;
* `Ascending.insert` : putting a key between the smaller and the larger ones;
* `Ascending.eraseKey`, `mem_eraseKey` : taking one key out;
* `Ascending.length_le`, `Ascending.full_iff` : how many keys fit (the pigeonhole).
-/

namespace Listing

universe u v
variable {K : Type u} {V : Type v}

/-- The stored keys, in order. -/
def keys (l : List (K × V)) : List K := l.map Prod.fst

@[simp] theorem keys_cons (p : K × V) (l : List (K × V)) : keys (p :: l) = p.1 :: keys l := rfl

@[simp] theorem length_keys (l : List (K × V)) : (keys l).length = l.length := List.length_map _

theorem mem_keys {l : List (K × V)} {k : K} : k ∈ keys l ↔ ∃ v, (k, v) ∈ l := by
  simp [keys]

/-- The keys strictly ascend along the list. -/
def Ascending [LT K] (l : List (K × V)) : Prop := l.Pairwise (fun a b => a.1 < b.1)

instance [LT K] [DecidableLT K] (l : List (K × V)) : Decidable (Ascending l) :=
  inferInstanceAs (Decidable (l.Pairwise _))

section Ordered
variable [LT K]

theorem ascending_nil : Ascending ([] : List (K × V)) := List.Pairwise.nil

theorem ascending_cons {p : K × V} {l : List (K × V)} :
    Ascending (p :: l) ↔ (∀ q ∈ l, p.1 < q.1) ∧ Ascending l := List.pairwise_cons

theorem ascending_append {l m : List (K × V)} :
    Ascending (l ++ m) ↔ Ascending l ∧ Ascending m ∧ ∀ p ∈ l, ∀ q ∈ m, p.1 < q.1 :=
  List.pairwise_append

/-- An entry put between the smaller keys and the larger ones keeps the order. -/
theorem Ascending.insert {l m : List (K × V)} {p : K × V} (h : Ascending (l ++ m))
    (hl : ∀ q ∈ l, q.1 < p.1) (hm : ∀ q ∈ m, p.1 < q.1) : Ascending (l ++ p :: m) := by
  obtain ⟨hal, ham, hlm⟩ := ascending_append.mp h
  refine ascending_append.mpr ⟨hal, ascending_cons.mpr ⟨hm, ham⟩, fun q hq r hr => ?_⟩
  rcases List.mem_cons.mp hr with rfl | hr
  · exact hl q hq
  · exact hlm q hq r hr

theorem Ascending.sublist {l m : List (K × V)} (h : Ascending m) (hs : l.Sublist m) : Ascending l :=
  List.Pairwise.sublist hs h

variable [Std.Irrefl (α := K) (· < ·)]

theorem Ascending.nodup {l : List (K × V)} (h : Ascending l) : (keys l).Nodup := by
  unfold keys
  rw [List.Nodup, List.pairwise_map]
  refine List.Pairwise.imp (fun {a b} hlt heq => ?_) h
  rw [heq] at hlt
  exact Std.Irrefl.irrefl (r := (· < · : K → K → Prop)) _ hlt

/-- A key between the smaller and the larger ones is not stored. -/
theorem not_mem_keys_of_between {l m : List (K × V)} {k : K} (hl : ∀ q ∈ l, q.1 < k)
    (hm : ∀ q ∈ m, k < q.1) : k ∉ keys (l ++ m) := by
  rw [mem_keys]
  rintro ⟨v, hv⟩
  rcases List.mem_append.mp hv with hv | hv
  · exact Std.Irrefl.irrefl (r := (· < · : K → K → Prop)) k (hl _ hv)
  · exact Std.Irrefl.irrefl (r := (· < · : K → K → Prop)) k (hm _ hv)

theorem Ascending.value_unique {l : List (K × V)} (h : Ascending l) {k : K} {v v' : V}
    (hv : (k, v) ∈ l) (hv' : (k, v') ∈ l) : v = v' := by
  have hinj := List.inj_on_of_nodup_map h.nodup hv hv' rfl
  exact (Prod.mk.inj hinj).2

end Ordered

/-! ## Lookup and removal -/

section Lookup
variable [DecidableEq K]

/-- The value of the first entry under `k`: the map that the list stores. -/
def lookup (l : List (K × V)) (k : K) : Option V :=
  (l.find? (fun p => k == p.1)).map Prod.snd

/-- The list without its first entry under `k`. -/
def eraseKey (l : List (K × V)) (k : K) : List (K × V) := l.eraseP (fun p => k == p.1)

theorem lookup_eq_none {l : List (K × V)} {k : K} : lookup l k = none ↔ k ∉ keys l := by
  rw [lookup, Option.map_eq_none_iff, List.find?_eq_none, mem_keys]
  simp only [beq_iff_eq, Prod.forall, not_exists]
  exact ⟨fun h v hv => h k v hv rfl, fun h k' v hv hk => h v (hk ▸ hv)⟩

theorem find?_key {l : List (K × V)} {k : K} {p : K × V}
    (h : l.find? (fun p => k == p.1) = some p) : p.1 = k ∧ p ∈ l := by
  refine ⟨?_, List.mem_of_find?_eq_some h⟩
  have := List.find?_some h
  exact (beq_iff_eq.mp this).symm

theorem eraseKey_sublist (l : List (K × V)) (k : K) : (eraseKey l k).Sublist l := List.eraseP_sublist

theorem eraseKey_of_not_mem {l : List (K × V)} {k : K} (h : k ∉ keys l) : eraseKey l k = l := by
  refine List.eraseP_of_forall_not fun p hp hk => h ?_
  rw [beq_iff_eq.mp hk]
  exact List.mem_map_of_mem hp

/-- Taking out the first entry under `k` leaves the other entries, up to their order. -/
theorem perm_eraseKey {l : List (K × V)} {k : K} {p : K × V}
    (h : l.find? (fun p => k == p.1) = some p) : l.Perm (p :: eraseKey l k) := by
  induction l with
  | nil => simp at h
  | cons q l ih =>
    unfold eraseKey
    by_cases hq : (k == q.1) = true
    · simp only [List.find?_cons, hq, Option.some.injEq] at h
      obtain rfl := h
      rw [List.eraseP_cons, hq, cond_true]
    · rw [Bool.not_eq_true] at hq
      simp only [List.find?_cons, hq] at h
      simp only [List.eraseP_cons, hq, cond_false]
      exact ((ih h).cons q).trans (List.Perm.swap p q _)

variable [LT K] [Std.Irrefl (α := K) (· < ·)]

theorem Ascending.mem_iff_lookup {l : List (K × V)} (h : Ascending l) {k : K} {v : V} :
    (k, v) ∈ l ↔ lookup l k = some v := by
  constructor
  · intro hv
    cases hk : lookup l k with
    | none => exact absurd (mem_keys.mpr ⟨v, hv⟩) (lookup_eq_none.mp hk)
    | some v' =>
      obtain ⟨⟨k', w⟩, hf, rfl⟩ := Option.map_eq_some_iff.mp hk
      obtain ⟨rfl, hw⟩ := find?_key hf
      rw [h.value_unique hv hw]
  · intro hk
    obtain ⟨⟨k', w⟩, hf, rfl⟩ := Option.map_eq_some_iff.mp hk
    obtain ⟨rfl, hw⟩ := find?_key hf
    exact hw

omit [Std.Irrefl (α := K) (· < ·)] in
theorem Ascending.eraseKey {l : List (K × V)} (h : Ascending l) (k : K) : Ascending (eraseKey l k) :=
  h.sublist (eraseKey_sublist l k)

/-- Taking a key out removes its entry and no other. -/
theorem Ascending.mem_eraseKey {l : List (K × V)} (h : Ascending l) {k : K} {p : K × V} :
    p ∈ Listing.eraseKey l k ↔ p ∈ l ∧ p.1 ≠ k := by
  cases hf : l.find? (fun p => k == p.1) with
  | none =>
    have hk : k ∉ keys l := by rw [← lookup_eq_none, lookup, hf]; rfl
    rw [eraseKey_of_not_mem hk]
    refine ⟨fun hp => ⟨hp, ?_⟩, fun hp => hp.1⟩
    rintro rfl
    exact hk (List.mem_map_of_mem hp)
  | some q =>
    obtain ⟨rfl, hq⟩ := find?_key hf
    have hperm := perm_eraseKey hf
    have hnd : (keys (q :: Listing.eraseKey l q.1)).Nodup := (hperm.map Prod.fst).nodup_iff.mp h.nodup
    rw [keys_cons, List.nodup_cons] at hnd
    constructor
    · intro hp
      refine ⟨(eraseKey_sublist l q.1).subset hp, fun hpq => hnd.1 ?_⟩
      exact mem_keys.mpr ⟨p.2, hpq ▸ hp⟩
    · rintro ⟨hp, hne⟩
      rcases List.mem_cons.mp (hperm.mem_iff.mp hp) with rfl | hp
      · exact absurd rfl hne
      · exact hp

theorem Ascending.keys_eraseKey {l : List (K × V)} (h : Ascending l) {k k' : K} :
    k' ∈ keys (Listing.eraseKey l k) ↔ k' ∈ keys l ∧ k' ≠ k := by
  simp only [mem_keys, h.mem_eraseKey]
  tauto

end Lookup

/-! ## Capacity -/

section Capacity
variable [Fintype K] [LT K] [Std.Irrefl (α := K) (· < ·)]

theorem Ascending.length_le {l : List (K × V)} (h : Ascending l) : l.length ≤ Fintype.card K := by
  rw [← length_keys]
  exact h.nodup.length_le_card

/-- As many entries as there are keys: then every key is stored. -/
theorem Ascending.full_iff {l : List (K × V)} (h : Ascending l) :
    l.length = Fintype.card K ↔ ∀ k, k ∈ keys l := by
  classical
  have hcard : (keys l).toFinset.card = l.length := by
    rw [List.toFinset_card_of_nodup h.nodup, length_keys]
  rw [← hcard, Finset.card_eq_iff_eq_univ]
  simp [Finset.eq_univ_iff_forall]

end Capacity

end Listing
