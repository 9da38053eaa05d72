import Communique.Bytes
import Communique.Lib.Listing

/-!
# `UniqueTokenStorage`: a list of elements under tokens that `push` chooses

The template keeps a list of (token, element) pairs. `push` asks `getFreeToken` for a token that is
not in use and for the place to insert at; `pop` and `at` walk the list for a token.

* `TokenType` : what the template uses of its token type; `unsigned w` is an unsigned integer type of
  `w` bits, `unbounded w` the same range over the integers, where `++` and `--` cannot wrap;
* `getFreeToken`, `push`, `popInto`, `pop`, `atPointer` : the functions of the template, over any
  token type; an iterator is the index of the entry it points to;
* `getFreeToken_ok`, `getFreeToken_error` : what `getFreeToken` does to an ascending list;
* `UniqueTokenStorage` : the storage whose list ascends.
-/

namespace Communique.Storage
open Listing

/-- `std::numeric_limits<T_Token>` and the prefix operators of `T_Token`. -/
structure TokenType (T : Type) where
  min : T
  max : T
  incr : T → T
  decr : T → T

/-- An unsigned integer type of `w` bits: `++` and `--` wrap. -/
def unsigned (w : Nat) : TokenType (BitVec w) where
  min := 0#w
  max := BitVec.allOnes w
  incr token := token + 1#w
  decr token := token - 1#w

/-- The range of `unsigned w`, over the integers. -/
def unbounded (w : Nat) : TokenType ℤ where
  min := 0
  max := 2 ^ w - 1
  incr token := token + 1
  decr token := token - 1

/-! ## The functions of the template -/

section Template
variable {T E : Type} [DecidableEq T] (limits : TokenType T)

/-- The loop that walks the entries and counts `token` up until an entry has another token. -/
def findGap (token : T) : List (T × E) → Nat → Option (T × Nat)
  | [], _ => none
  | entry :: rest, iEntry =>
    if token ≠ entry.1 then some (token, iEntry) else findGap (limits.incr token) rest (iEntry + 1)

def getFreeToken : List (T × E) → Except Exn (T × Nat)
  | [] => .ok (limits.min, 0)
  | front :: rest =>
    let container := front :: rest
    let back := container.getLast (List.cons_ne_nil front rest)
    if back.1 ≠ limits.max then .ok (limits.incr back.1, container.length)
    else if front.1 ≠ limits.min then .ok (limits.decr front.1, 0)
    else match findGap limits front.1 container 0 with
      | some gap => .ok gap
      | none => .error (runtimeError "communique::impl::UniqueTokenStorage::push couldn't find free space")

/-- `push` : the token and the list with the new entry, or the exception of `getFreeToken`. -/
def push (container : List (T × E)) (newElement : E) : Except Exn (T × List (T × E)) :=
  match getFreeToken limits container with
  | .error e => .error e
  | .ok (token, iterator) => .ok (token, container.insertIdx iterator (token, newElement))

/-- `bool pop( token, returnValue )` : the element and the list without its entry, or `false`. -/
def popInto (container : List (T × E)) (token : T) : Option (E × List (T × E)) :=
  match container.find? (fun entry => token == entry.1) with
  | none => none
  | some iEntry => some (iEntry.2, eraseKey container token)

/-- `T_Element pop( token )`. -/
def pop (container : List (T × E)) (token : T) : Except Exn (E × List (T × E)) :=
  match popInto container token with
  | none => .error (runtimeError "communique::impl::UniqueTokenStorage::pop couldn't find token")
  | some r => .ok r

/-- `bool at( token, pReturnValue )` : the element pointed to, or `false`. -/
def atPointer (container : List (T × E)) (token : T) : Option E :=
  match container.find? (fun entry => token == entry.1) with
  | none => none
  | some iEntry => some iEntry.2

end Template

/-! ## `pop` and `at` by the map that the list stores -/

section Map
variable {T E : Type} [DecidableEq T]

theorem popInto_eq (container : List (T × E)) (token : T) :
    popInto container token = (lookup container token).map (fun e => (e, eraseKey container token)) := by
  unfold popInto lookup
  cases container.find? (fun entry => token == entry.1) <;> rfl

theorem atPointer_eq (container : List (T × E)) (token : T) :
    atPointer container token = lookup container token := by
  unfold atPointer lookup
  cases container.find? (fun entry => token == entry.1) <;> rfl

end Map

/-! ## Arithmetic of the unsigned tokens -/

section Arithmetic
variable {w : Nat}

theorem incr_toNat {t u : BitVec w} (h : t < u) : ((unsigned w).incr t).toNat = t.toNat + 1 := by
  have hu := u.isLt
  have hlt : t.toNat < u.toNat := BitVec.lt_def.mp h
  have hw : 1 % 2 ^ w = 1 := Nat.mod_eq_of_lt (by omega)
  rw [unsigned, BitVec.toNat_add, BitVec.toNat_ofNat, hw, Nat.mod_eq_of_lt (by omega)]

theorem decr_toNat {t u : BitVec w} (h : u < t) : ((unsigned w).decr t).toNat = t.toNat - 1 := by
  have ht := t.isLt
  have hlt : u.toNat < t.toNat := BitVec.lt_def.mp h
  have hw : 1 % 2 ^ w = 1 := Nat.mod_eq_of_lt (by omega)
  rw [unsigned, BitVec.toNat_sub, BitVec.toNat_ofNat, hw,
    show 2 ^ w - 1 + t.toNat = t.toNat - 1 + 2 ^ w by omega, Nat.add_mod_right,
    Nat.mod_eq_of_lt (by omega)]

theorem lt_max_of_ne {t : BitVec w} (h : t ≠ (unsigned w).max) : t < (unsigned w).max := by
  have ht := t.isLt
  rw [BitVec.lt_def, unsigned, BitVec.toNat_allOnes]
  have hne : t.toNat ≠ 2 ^ w - 1 := by
    rw [← BitVec.toNat_allOnes]
    exact fun he => h (BitVec.eq_of_toNat_eq he)
  omega

theorem min_lt_of_ne {t : BitVec w} (h : t ≠ (unsigned w).min) : (unsigned w).min < t := by
  rw [BitVec.lt_def, unsigned, BitVec.toNat_ofNat, Nat.zero_mod]
  exact Nat.pos_of_ne_zero fun he => h (BitVec.eq_of_toNat_eq (by simp [he, unsigned]))

theorem le_max (t : BitVec w) : t ≤ (unsigned w).max := by
  have ht := t.isLt
  rw [BitVec.le_def, unsigned, BitVec.toNat_allOnes]
  omega

theorem min_le (t : BitVec w) : (unsigned w).min ≤ t := by
  rw [BitVec.le_def, unsigned, BitVec.toNat_ofNat, Nat.zero_mod]
  exact Nat.zero_le _

theorem incr_le_of_lt {t u : BitVec w} (h : t < u) : (unsigned w).incr t ≤ u := by
  rw [BitVec.le_def, incr_toNat h]
  exact BitVec.lt_def.mp h

theorem decr_lt_of_lt {t u : BitVec w} (h : u < t) : (unsigned w).decr t < t := by
  have := BitVec.lt_def.mp h
  rw [BitVec.lt_def, decr_toNat h]
  omega

theorem lt_incr_of_lt {t u : BitVec w} (h : t < u) : t < (unsigned w).incr t := by
  rw [BitVec.lt_def, incr_toNat h]
  exact Nat.lt_succ_self _

end Arithmetic

/-! ## What `getFreeToken` does to an ascending list -/

section Spec
variable {w : Nat} {E : Type}

theorem head_le {front : BitVec w × E} {rest : List (BitVec w × E)}
    (h : Ascending (front :: rest)) {p : BitVec w × E} (hp : p ∈ front :: rest) : front.1 ≤ p.1 := by
  rcases List.mem_cons.mp hp with rfl | hp
  · exact BitVec.le_refl _
  · exact BitVec.le_of_lt ((ascending_cons.mp h).1 p hp)

theorem le_getLast {container : List (BitVec w × E)} (h : Ascending container)
    {p : BitVec w × E} (hp : p ∈ container) (hne : container ≠ []) : p.1 ≤ (container.getLast hne).1 := by
  rw [← List.dropLast_append_getLast hne] at hp h
  rcases List.mem_append.mp hp with hp | hp
  · exact BitVec.le_of_lt ((ascending_append.mp h).2.2 p hp _ List.mem_cons_self)
  · rw [List.mem_singleton.mp hp]
    exact BitVec.le_refl _

/-- The list is cut at the returned index, below the returned token before it and above it after. -/
def Cut (container : List (BitVec w × E)) (token : BitVec w) (iterator : Nat) : Prop :=
  ∃ before after, container = before ++ after ∧ iterator = before.length ∧
    (∀ p ∈ before, p.1 < token) ∧ ∀ p ∈ after, token < p.1

theorem findGap_some_ne_nil {rest : List (BitVec w × E)} {token : BitVec w} {i : Nat}
    {gap : BitVec w × Nat} (hg : findGap (unsigned w) token rest i = some gap) : rest ≠ [] := by
  rintro rfl
  cases hg

/-- Where the loop stops, it cuts the rest of the list at its token. -/
theorem findGap_some {rest : List (BitVec w × E)} {token t : BitVec w} {i j : Nat} (h : Ascending rest)
    (hle : ∀ p ∈ rest, token ≤ p.1) (hg : findGap (unsigned w) token rest i = some (t, j)) :
    token ≤ t ∧ ∃ k, j = i + k ∧ Cut rest t k := by
  induction rest generalizing token i with
  | nil => cases hg
  | cons entry rest ih =>
    obtain ⟨hlt, hrest⟩ := ascending_cons.mp h
    by_cases heq : token = entry.1
    · rw [← heq] at hlt
      rw [findGap, if_neg (not_not_intro heq)] at hg
      obtain ⟨q, hq⟩ := List.exists_mem_of_ne_nil _ (findGap_some_ne_nil hg)
      obtain ⟨hle', k, rfl, before, after, rfl, rfl, hb, ha⟩ :=
        ih hrest (fun p hp => incr_le_of_lt (hlt p hp)) hg
      -- `q` is above `token`, so the increment did not wrap
      have htop : token < t := Std.lt_of_lt_of_le (lt_incr_of_lt (hlt q hq)) hle'
      refine ⟨BitVec.le_of_lt htop, before.length + 1, by omega, entry :: before, after, rfl, rfl,
        fun p hp => ?_, ha⟩
      rcases List.mem_cons.mp hp with rfl | hp
      · exact heq ▸ htop
      · exact hb p hp
    · rw [findGap, if_pos heq, Option.some.injEq, Prod.mk.injEq] at hg
      obtain ⟨rfl, rfl⟩ := hg
      have htop : token < entry.1 := Std.lt_of_le_of_ne (hle entry List.mem_cons_self) heq
      refine ⟨BitVec.le_refl _, 0, rfl, [], entry :: rest, rfl, rfl, by simp, fun p hp => ?_⟩
      rcases List.mem_cons.mp hp with rfl | hp
      · exact htop
      · exact BitVec.lt_trans htop (hlt p hp)

/-- Where the loop runs to the end, the tokens counted are all stored. -/
theorem findGap_none {rest : List (BitVec w × E)} {token : BitVec w} {i : Nat} (h : Ascending rest)
    (hg : findGap (unsigned w) token rest i = none) (k : BitVec w) (hk : token ≤ k) :
    k ∈ keys rest ∨ ∀ p ∈ rest, p.1 < k := by
  induction rest generalizing token i with
  | nil => exact Or.inr (by simp)
  | cons entry rest ih =>
    obtain ⟨hlt, hrest⟩ := ascending_cons.mp h
    by_cases heq : token = entry.1
    · rw [findGap, if_neg (not_not_intro heq)] at hg
      by_cases hke : k = entry.1
      · exact Or.inl (by simp [hke])
      · have htk : token < k := Std.lt_of_le_of_ne hk (fun he => hke (he ▸ heq))
        rcases ih hrest hg (incr_le_of_lt htk) with hmem | hall
        · exact Or.inl (List.mem_cons_of_mem _ hmem)
        · refine Or.inr fun p hp => ?_
          rcases List.mem_cons.mp hp with rfl | hp
          · exact heq ▸ htk
          · exact hall p hp
    · rw [findGap, if_pos heq] at hg
      cases hg

/-- A returned token cuts the list at the returned index: it is in none of the entries. -/
theorem getFreeToken_ok {container : List (BitVec w × E)} {token : BitVec w} {iterator : Nat}
    (h : Ascending container) (hg : getFreeToken (unsigned w) container = .ok (token, iterator)) :
    Cut container token iterator := by
  cases container with
  | nil =>
    rw [getFreeToken, Except.ok.injEq, Prod.mk.injEq] at hg
    obtain ⟨rfl, rfl⟩ := hg
    exact ⟨[], [], rfl, rfl, by simp, by simp⟩
  | cons front rest =>
    simp only [getFreeToken] at hg
    split at hg
    · next hback =>
      rw [Except.ok.injEq, Prod.mk.injEq] at hg
      obtain ⟨rfl, rfl⟩ := hg
      refine ⟨front :: rest, [], (List.append_nil _).symm, rfl, fun p hp => ?_, by simp⟩
      exact Std.lt_of_le_of_lt (le_getLast h hp _) (lt_incr_of_lt (lt_max_of_ne hback))
    · split at hg
      · next hfront =>
        rw [Except.ok.injEq, Prod.mk.injEq] at hg
        obtain ⟨rfl, rfl⟩ := hg
        refine ⟨[], front :: rest, rfl, rfl, by simp, fun p hp => ?_⟩
        exact Std.lt_of_lt_of_le (decr_lt_of_lt (min_lt_of_ne hfront)) (head_le h hp)
      · split at hg
        · next gap hgap =>
          rw [Except.ok.injEq] at hg
          subst hg
          obtain ⟨-, k, hk, hcut⟩ := findGap_some h (fun p hp => head_le h hp) hgap
          rw [Nat.zero_add] at hk
          exact hk ▸ hcut
        · cases hg

/-- Where `getFreeToken` throws, every token is stored. -/
theorem getFreeToken_error {container : List (BitVec w × E)} {e : Exn} (h : Ascending container)
    (hg : getFreeToken (unsigned w) container = .error e) (k : BitVec w) : k ∈ keys container := by
  cases container with
  | nil => cases hg
  | cons front rest =>
    simp only [getFreeToken] at hg
    split at hg
    · cases hg
    · next hback =>
      split at hg
      · cases hg
      · next hfront =>
        split at hg
        · cases hg
        · next hgap =>
          rw [not_not] at hback hfront
          rcases findGap_none h hgap k (hfront ▸ min_le k) with hmem | hall
          · exact hmem
          · -- the last entry is stored under the largest token, which is not below `k`
            have hlast := hall _ (List.getLast_mem (List.cons_ne_nil front rest))
            rw [hback] at hlast
            exact absurd (Std.lt_of_lt_of_le hlast (le_max k)) (BitVec.lt_irrefl _)

theorem insertIdx_before (before after : List (BitVec w × E)) (p : BitVec w × E) :
    (before ++ after).insertIdx before.length p = before ++ p :: after := by
  induction before with
  | nil => rfl
  | cons q before ih => rw [List.cons_append, List.length_cons, List.insertIdx_succ_cons, ih, List.cons_append]

/-- A successful `push` puts its entry between the smaller tokens and the larger ones. -/
theorem push_ok {container container' : List (BitVec w × E)} {newElement : E} {token : BitVec w}
    (h : Ascending container) (hp : push (unsigned w) container newElement = .ok (token, container')) :
    ∃ before after, container = before ++ after ∧ container' = before ++ (token, newElement) :: after ∧
      (∀ p ∈ before, p.1 < token) ∧ ∀ p ∈ after, token < p.1 := by
  unfold push at hp
  split at hp
  · cases hp
  · next t iterator hg =>
    rw [Except.ok.injEq, Prod.mk.injEq] at hp
    obtain ⟨rfl, rfl⟩ := hp
    obtain ⟨before, after, rfl, rfl, hb, ha⟩ := getFreeToken_ok h hg
    exact ⟨before, after, rfl, insertIdx_before before after _, hb, ha⟩

theorem push_ascending {container container' : List (BitVec w × E)} {newElement : E} {token : BitVec w}
    (h : Ascending container) (hp : push (unsigned w) container newElement = .ok (token, container')) :
    Ascending container' := by
  obtain ⟨before, after, rfl, rfl, hb, ha⟩ := push_ok h hp
  exact h.insert hb ha

theorem push_fresh {container container' : List (BitVec w × E)} {newElement : E} {token : BitVec w}
    (h : Ascending container) (hp : push (unsigned w) container newElement = .ok (token, container')) :
    token ∉ keys container := by
  obtain ⟨before, after, rfl, rfl, hb, ha⟩ := push_ok h hp
  exact not_mem_keys_of_between hb ha

theorem push_perm {container container' : List (BitVec w × E)} {newElement : E} {token : BitVec w}
    (h : Ascending container) (hp : push (unsigned w) container newElement = .ok (token, container')) :
    container'.Perm ((token, newElement) :: container) := by
  obtain ⟨before, after, rfl, rfl, -, -⟩ := push_ok h hp
  exact List.perm_middle

theorem push_error {container : List (BitVec w × E)} {newElement : E} {e : Exn} (h : Ascending container)
    (hp : push (unsigned w) container newElement = .error e) (k : BitVec w) : k ∈ keys container := by
  unfold push at hp
  split at hp
  · next e' hg => exact getFreeToken_error h hg k
  · cases hp

theorem popInto_some {container container' : List (BitVec w × E)} {token : BitVec w} {element : E}
    (hp : popInto container token = some (element, container')) :
    container.Perm ((token, element) :: container') ∧ container' = eraseKey container token := by
  unfold popInto at hp
  split at hp
  · cases hp
  · next iEntry hf =>
    rw [Option.some.injEq, Prod.mk.injEq] at hp
    obtain ⟨rfl, rfl⟩ := hp
    obtain ⟨rfl, -⟩ := find?_key hf
    exact ⟨perm_eraseKey hf, rfl⟩

theorem popInto_ascending {container container' : List (BitVec w × E)} {token : BitVec w} {element : E}
    (h : Ascending container) (hp : popInto container token = some (element, container')) :
    Ascending container' := by
  rw [(popInto_some hp).2]
  exact h.eraseKey token

end Spec

/-! ## The storage -/

/-- A `UniqueTokenStorage` with tokens of `w` bits: only `push` and `pop` change the list, and both keep
it ascending. -/
structure UniqueTokenStorage (w : Nat) (E : Type) where
  container : List (BitVec w × E)
  ascending : Ascending container

namespace UniqueTokenStorage
variable {w : Nat} {E : Type}

/-- The storage as it is constructed. -/
def empty (w : Nat) (E : Type) : UniqueTokenStorage w E := ⟨[], ascending_nil⟩

def push (s : UniqueTokenStorage w E) (newElement : E) : Except Exn (BitVec w × UniqueTokenStorage w E) :=
  match hp : Storage.push (unsigned w) s.container newElement with
  | .error e => .error e
  | .ok (token, container) => .ok (token, ⟨container, push_ascending s.ascending hp⟩)

/-- `bool pop( token, returnValue )`. -/
def pop (s : UniqueTokenStorage w E) (token : BitVec w) : Option (E × UniqueTokenStorage w E) :=
  match hp : popInto s.container token with
  | none => none
  | some (element, container) => some (element, ⟨container, popInto_ascending s.ascending hp⟩)

theorem push_container {s s' : UniqueTokenStorage w E} {newElement : E} {token : BitVec w}
    (hp : s.push newElement = .ok (token, s')) :
    Storage.push (unsigned w) s.container newElement = .ok (token, s'.container) := by
  unfold push at hp
  split at hp
  · cases hp
  · next t c hc =>
    rw [Except.ok.injEq, Prod.mk.injEq] at hp
    obtain ⟨rfl, rfl⟩ := hp
    exact hc

theorem push_error_container {s : UniqueTokenStorage w E} {newElement : E} {e : Exn}
    (hp : s.push newElement = .error e) : Storage.push (unsigned w) s.container newElement = .error e := by
  unfold push at hp
  split at hp
  · next e' he =>
    obtain rfl := Except.error.inj hp
    exact he
  · cases hp

theorem pop_container {s s' : UniqueTokenStorage w E} {token : BitVec w} {element : E}
    (hp : s.pop token = some (element, s')) :
    popInto s.container token = some (element, s'.container) := by
  unfold pop at hp
  split at hp
  · cases hp
  · next e c hc =>
    rw [Option.some.injEq, Prod.mk.injEq] at hp
    obtain ⟨rfl, rfl⟩ := hp
    exact hc

theorem pop_eq_none {s : UniqueTokenStorage w E} {token : BitVec w} :
    s.pop token = none ↔ token ∉ keys s.container := by
  rw [← lookup_eq_none]
  unfold pop
  split
  · next hc => simpa [popInto_eq] using hc
  · next hc =>
    rw [popInto_eq, Option.map_eq_some_iff] at hc
    obtain ⟨e, he, -⟩ := hc
    simp [he]

end UniqueTokenStorage

end Communique.Storage
