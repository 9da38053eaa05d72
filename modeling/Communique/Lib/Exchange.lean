import Mathlib.Data.Multiset.UnionInter

/-!
# Requests and answers that are matched by tokens

One party asks, the other one answers, and what travels between them carries a token `K` only. The asking
party keeps a table from the tokens to its calls `C`, from the moment a call is registered until an
answer with its token comes; tokens are used again after that. `M` and `R` are the contents of the
requests and of the answers. The requests and answers that are on their way are bags: they may overtake
each other.

* `Exchange.Step` : what either party or the transport can do. Who made a call is written on everything
  that belongs to it, and no step decides by it;
* `Exchange.Good` : the invariant, and `good_step`: every step keeps it;
* `Good.answer_mem` : the table has the call of every answer on its way under the token of that answer;
* `Good.origin`, `Good.invoked_nodup` : a handler is run on the answer to its own request, and once;
* `Good.stored_iff_unanswered`, `Good.table_eq_abandoned` : what is left in the table;
* `State.AtRest`, `Good.answered_once`, `Good.settled` : what has become of the calls when nothing is on its way.

An answer that reports a failure leaves the table as it is, and its call is `abandoned`.
-/

namespace Exchange

variable {K C M R : Type}

structure State (K C M R : Type) where
  table : Multiset (K × C)
  /-- The requests registered and not yet answered, wherever they are. -/
  asked : Multiset (K × C × M)
  /-- The normal answers on their way. -/
  answers : Multiset (K × C × R)
  /-- The failure answers on their way. -/
  refused : Multiset (K × C)
  /-- The failure answers that have come. -/
  abandoned : Multiset (K × C)
  /-- The calls whose normal answer has come. -/
  accepted : Multiset C
  /-- The calls with the answer that their handler is to be run on. -/
  ready : Multiset (C × R)
  invoked : Multiset (C × R)
  registered : Multiset (C × M)
  returned : Multiset (C × M × R)
  /-- The number of normal answers that found no entry in the table. -/
  dropped : Nat

/-- Nobody has asked yet. -/
def State.start : State K C M R := ⟨0, 0, 0, 0, 0, 0, 0, 0, 0, 0, 0⟩

inductive Step : State K C M R → State K C M R → Prop
  /-- A call that has not asked before stores itself under a token that is free. -/
  | register {s : State K C M R} {k : K} {c : C} (m : M) (hk : k ∉ s.table.map Prod.fst)
      (hc : c ∉ s.registered.map Prod.fst) :
      Step s { s with
        table := (k, c) ::ₘ s.table
        asked := (k, c, m) ::ₘ s.asked
        registered := (c, m) ::ₘ s.registered }
  | answer {s : State K C M R} {k : K} {c : C} {m : M} {asked : Multiset (K × C × M)} (r : R)
      (h : s.asked = (k, c, m) ::ₘ asked) :
      Step s { s with
        asked := asked
        answers := (k, c, r) ::ₘ s.answers
        returned := (c, m, r) ::ₘ s.returned }
  | refuse {s : State K C M R} {k : K} {c : C} {m : M} {asked : Multiset (K × C × M)}
      (h : s.asked = (k, c, m) ::ₘ asked) :
      Step s { s with asked := asked, refused := (k, c) ::ₘ s.refused }
  /-- The answer of `c` comes, and takes the call `c'` out of the table that has its token. -/
  | accept {s : State K C M R} {k : K} {c c' : C} {r : R} {answers : Multiset (K × C × R)}
      {table : Multiset (K × C)} (h : s.answers = (k, c, r) ::ₘ answers) (ht : s.table = (k, c') ::ₘ table) :
      Step s { s with
        table := table
        answers := answers
        accepted := c ::ₘ s.accepted
        ready := (c', r) ::ₘ s.ready }
  | drop {s : State K C M R} {k : K} {c : C} {r : R} {answers : Multiset (K × C × R)}
      (h : s.answers = (k, c, r) ::ₘ answers) (ht : k ∉ s.table.map Prod.fst) :
      Step s { s with answers := answers, accepted := c ::ₘ s.accepted, dropped := s.dropped + 1 }
  | abandon {s : State K C M R} {k : K} {c : C} {refused : Multiset (K × C)}
      (h : s.refused = (k, c) ::ₘ refused) :
      Step s { s with refused := refused, abandoned := (k, c) ::ₘ s.abandoned }
  | invoke {s : State K C M R} {c : C} {r : R} {ready : Multiset (C × R)} (h : s.ready = (c, r) ::ₘ ready) :
      Step s { s with ready := ready, invoked := (c, r) ::ₘ s.invoked }

/-- The token and the call of a request or of an answer. -/
def key {A : Type} (p : K × C × A) : K × C := (p.1, p.2.1)

@[simp] theorem key_mk {A : Type} (k : K) (c : C) (a : A) : key (k, c, a) = (k, c) := rfl

/-- `r` answers what `c` asked. -/
def State.Origin (s : State K C M R) (c : C) (r : R) : Prop :=
  ∃ m, (c, m) ∈ s.registered ∧ (c, m, r) ∈ s.returned

structure Good (s : State K C M R) : Prop where
  /-- No token is in the table twice. -/
  tokens : (s.table.map Prod.fst).Nodup
  /-- An entry of the table is a request or an answer on its way, or is abandoned. -/
  ledger : s.table = s.asked.map key + s.answers.map key + s.refused + s.abandoned
  /-- A call is in the table or its normal answer has come. -/
  calls : s.registered.map Prod.fst = s.table.map Prod.snd + s.accepted
  fresh : (s.registered.map Prod.fst).Nodup
  accepted : s.accepted = s.ready.map Prod.fst + s.invoked.map Prod.fst
  /-- A call that was answered normally has its answer on the way or come. -/
  returns : s.returned.map Prod.fst = (s.answers.map key).map Prod.snd + s.accepted
  asked : ∀ k c m, (k, c, m) ∈ s.asked → (c, m) ∈ s.registered
  answers : ∀ k c r, (k, c, r) ∈ s.answers → s.Origin c r
  origin : ∀ c r, (c, r) ∈ s.ready + s.invoked → s.Origin c r
  dropped : s.dropped = 0

theorem good_start : Good (State.start : State K C M R) where
  tokens := Multiset.nodup_zero
  ledger := rfl
  calls := rfl
  fresh := Multiset.nodup_zero
  accepted := rfl
  returns := rfl
  asked := by simp [State.start]
  answers := by simp [State.start]
  origin := by simp [State.start]
  dropped := rfl

namespace Good
variable {s t : State K C M R}

/-- The table has every answer on its way. -/
theorem answer_mem (h : Good s) {k : K} {c : C} {r : R} (ha : (k, c, r) ∈ s.answers) : (k, c) ∈ s.table := by
  rw [h.ledger]
  have hkey : (k, c) ∈ s.answers.map key := Multiset.mem_map.mpr ⟨_, ha, rfl⟩
  simp [hkey]

theorem abandoned_le (h : Good s) : s.abandoned ≤ s.table := by
  rw [h.ledger]
  exact Multiset.le_add_left _ _

/-- A token leads to one call. -/
theorem call_unique (h : Good s) {k : K} {c c' : C} {table : Multiset (K × C)}
    (ht : s.table = (k, c') ::ₘ table) (hc : (k, c) ∈ s.table) : c = c' := by
  have hnodup := h.tokens
  rw [ht, Multiset.map_cons, Multiset.nodup_cons] at hnodup
  rw [ht, Multiset.mem_cons] at hc
  rcases hc with heq | hmem
  · exact congrArg Prod.snd heq
  · exact absurd (Multiset.mem_map.mpr ⟨_, hmem, rfl⟩) hnodup.1

/-! ### One lemma for each step -/

theorem register (h : Good s) {k : K} {c : C} (m : M) (hk : k ∉ s.table.map Prod.fst)
    (hc : c ∉ s.registered.map Prod.fst) :
    Good { s with
      table := (k, c) ::ₘ s.table
      asked := (k, c, m) ::ₘ s.asked
      registered := (c, m) ::ₘ s.registered } where
  tokens := by
    rw [Multiset.map_cons, Multiset.nodup_cons]
    exact ⟨hk, h.tokens⟩
  ledger := by
    show (k, c) ::ₘ s.table = _
    rw [h.ledger, Multiset.map_cons, key_mk, Multiset.cons_add, Multiset.cons_add, Multiset.cons_add]
  calls := by
    show Multiset.map Prod.fst ((c, m) ::ₘ s.registered) = Multiset.map Prod.snd ((k, c) ::ₘ s.table) + _
    rw [Multiset.map_cons, Multiset.map_cons, h.calls, Multiset.cons_add]
  fresh := by
    rw [Multiset.map_cons, Multiset.nodup_cons]
    exact ⟨hc, h.fresh⟩
  accepted := h.accepted
  returns := h.returns
  asked := by
    intro k' c' m' hmem
    rcases Multiset.mem_cons.mp hmem with heq | hmem
    · rw [Prod.mk.injEq, Prod.mk.injEq] at heq
      rw [heq.2.1, heq.2.2]
      exact Multiset.mem_cons_self _ _
    · exact Multiset.mem_cons_of_mem (h.asked k' c' m' hmem)
  answers := by
    intro k' c' r hmem
    obtain ⟨m', hreg, hret⟩ := h.answers k' c' r hmem
    exact ⟨m', Multiset.mem_cons_of_mem hreg, hret⟩
  origin := by
    intro c' r hmem
    obtain ⟨m', hreg, hret⟩ := h.origin c' r hmem
    exact ⟨m', Multiset.mem_cons_of_mem hreg, hret⟩
  dropped := h.dropped

theorem answer (h : Good s) {k : K} {c : C} {m : M} {asked : Multiset (K × C × M)} (r : R)
    (ha : s.asked = (k, c, m) ::ₘ asked) :
    Good { s with
      asked := asked
      answers := (k, c, r) ::ₘ s.answers
      returned := (c, m, r) ::ₘ s.returned } where
  tokens := h.tokens
  ledger := by
    show s.table = asked.map key + Multiset.map key ((k, c, r) ::ₘ s.answers) + s.refused + s.abandoned
    rw [h.ledger, ha, Multiset.map_cons, Multiset.map_cons, key_mk, key_mk, Multiset.cons_add,
      Multiset.add_cons]
  calls := h.calls
  fresh := h.fresh
  accepted := h.accepted
  returns := by
    show Multiset.map Prod.fst ((c, m, r) ::ₘ s.returned) =
      Multiset.map Prod.snd (Multiset.map key ((k, c, r) ::ₘ s.answers)) + s.accepted
    rw [Multiset.map_cons, Multiset.map_cons, Multiset.map_cons, h.returns, Multiset.cons_add]
    rfl
  asked := by
    intro k' c' m' hmem
    exact h.asked k' c' m' (ha ▸ Multiset.mem_cons_of_mem hmem)
  answers := by
    intro k' c' r' hmem
    rcases Multiset.mem_cons.mp hmem with heq | hmem
    · rw [Prod.mk.injEq, Prod.mk.injEq] at heq
      rw [heq.2.1, heq.2.2]
      exact ⟨m, h.asked k c m (ha ▸ Multiset.mem_cons_self _ _), Multiset.mem_cons_self _ _⟩
    · obtain ⟨m', hreg, hret⟩ := h.answers k' c' r' hmem
      exact ⟨m', hreg, Multiset.mem_cons_of_mem hret⟩
  origin := by
    intro c' r' hmem
    obtain ⟨m', hreg, hret⟩ := h.origin c' r' hmem
    exact ⟨m', hreg, Multiset.mem_cons_of_mem hret⟩
  dropped := h.dropped

theorem refuse (h : Good s) {k : K} {c : C} {m : M} {asked : Multiset (K × C × M)}
    (ha : s.asked = (k, c, m) ::ₘ asked) :
    Good { s with asked := asked, refused := (k, c) ::ₘ s.refused } where
  tokens := h.tokens
  ledger := by
    show s.table = asked.map key + s.answers.map key + ((k, c) ::ₘ s.refused) + s.abandoned
    rw [h.ledger, ha, Multiset.map_cons, key_mk, Multiset.cons_add, Multiset.cons_add, Multiset.add_cons]
  calls := h.calls
  fresh := h.fresh
  accepted := h.accepted
  returns := h.returns
  asked := by
    intro k' c' m' hmem
    exact h.asked k' c' m' (ha ▸ Multiset.mem_cons_of_mem hmem)
  answers := h.answers
  origin := h.origin
  dropped := h.dropped

/-- The call that leaves the table is the one that the answer is meant for. -/
theorem accept (h : Good s) {k : K} {c c' : C} {r : R} {answers : Multiset (K × C × R)}
    {table : Multiset (K × C)} (ha : s.answers = (k, c, r) ::ₘ answers) (ht : s.table = (k, c') ::ₘ table) :
    Good { s with
      table := table
      answers := answers
      accepted := c ::ₘ s.accepted
      ready := (c', r) ::ₘ s.ready } := by
  have hmem : (k, c, r) ∈ s.answers := ha ▸ Multiset.mem_cons_self _ _
  obtain rfl : c = c' := h.call_unique ht (h.answer_mem hmem)
  constructor
  · have htokens := h.tokens
    rw [ht, Multiset.map_cons, Multiset.nodup_cons] at htokens
    exact htokens.2
  · have hledger := h.ledger
    rw [ht, ha, Multiset.map_cons, key_mk, Multiset.add_cons, Multiset.cons_add, Multiset.cons_add] at hledger
    exact (Multiset.cons_inj_right _).mp hledger
  · show s.registered.map Prod.fst = table.map Prod.snd + (c ::ₘ s.accepted)
    rw [h.calls, ht, Multiset.map_cons, Multiset.cons_add, Multiset.add_cons]
  · exact h.fresh
  · show c ::ₘ s.accepted = Multiset.map Prod.fst ((c, r) ::ₘ s.ready) + _
    rw [h.accepted, Multiset.map_cons, Multiset.cons_add]
  · show s.returned.map Prod.fst = (answers.map key).map Prod.snd + (c ::ₘ s.accepted)
    rw [h.returns, ha, Multiset.map_cons, Multiset.map_cons, Multiset.cons_add, Multiset.add_cons]
    rfl
  · exact h.asked
  · intro k' c' r' hmem'
    exact h.answers k' c' r' (ha ▸ Multiset.mem_cons_of_mem hmem')
  · intro c' r' hmem'
    rw [Multiset.cons_add, Multiset.mem_cons, Prod.mk.injEq] at hmem'
    rcases hmem' with ⟨rfl, rfl⟩ | hmem'
    · exact h.answers k c' r' hmem
    · exact h.origin c' r' hmem'
  · exact h.dropped

/-- No answer comes whose token is not in the table. -/
theorem not_drop (h : Good s) {k : K} {c : C} {r : R} {answers : Multiset (K × C × R)}
    (ha : s.answers = (k, c, r) ::ₘ answers) : k ∈ s.table.map Prod.fst :=
  Multiset.mem_map.mpr ⟨(k, c), h.answer_mem (ha ▸ Multiset.mem_cons_self _ _), rfl⟩

theorem abandon (h : Good s) {k : K} {c : C} {refused : Multiset (K × C)}
    (ha : s.refused = (k, c) ::ₘ refused) :
    Good { s with refused := refused, abandoned := (k, c) ::ₘ s.abandoned } where
  tokens := h.tokens
  ledger := by
    show s.table = s.asked.map key + s.answers.map key + refused + ((k, c) ::ₘ s.abandoned)
    rw [h.ledger, ha, Multiset.add_cons, Multiset.add_cons, Multiset.cons_add]
  calls := h.calls
  fresh := h.fresh
  accepted := h.accepted
  returns := h.returns
  asked := h.asked
  answers := h.answers
  origin := h.origin
  dropped := h.dropped

theorem invoke (h : Good s) {c : C} {r : R} {ready : Multiset (C × R)} (hr : s.ready = (c, r) ::ₘ ready) :
    Good { s with ready := ready, invoked := (c, r) ::ₘ s.invoked } where
  tokens := h.tokens
  ledger := h.ledger
  calls := h.calls
  fresh := h.fresh
  accepted := by
    show s.accepted = ready.map Prod.fst + Multiset.map Prod.fst ((c, r) ::ₘ s.invoked)
    rw [h.accepted, hr, Multiset.map_cons, Multiset.map_cons, Multiset.cons_add, Multiset.add_cons]
  returns := h.returns
  asked := h.asked
  answers := h.answers
  origin := by
    intro c' r' hmem
    apply h.origin c' r'
    rw [hr, Multiset.cons_add, ← Multiset.add_cons]
    exact hmem
  dropped := h.dropped

end Good

theorem good_step {s t : State K C M R} (h : Good s) (step : Step s t) : Good t := by
  cases step with
  | register m hk hc => exact h.register m hk hc
  | answer r ha => exact h.answer r ha
  | refuse ha => exact h.refuse ha
  | accept ha ht => exact h.accept ha ht
  | drop ha ht => exact absurd (h.not_drop ha) ht
  | abandon ha => exact h.abandon ha
  | invoke hr => exact h.invoke hr

/-! ## What follows -/

namespace Good
variable {s : State K C M R}

/-- The calls in the table are those that have registered and whose normal answer has not come. -/
theorem stored_iff (h : Good s) {c : C} :
    c ∈ s.table.map Prod.snd ↔ c ∈ s.registered.map Prod.fst ∧ c ∉ s.accepted := by
  have hnodup := h.fresh
  rw [h.calls, Multiset.nodup_add] at hnodup
  rw [h.calls, Multiset.mem_add]
  constructor
  · intro hc
    exact ⟨Or.inl hc, fun ha => Multiset.disjoint_left.mp hnodup.2.2 hc ha⟩
  · rintro ⟨hc | hc, hna⟩
    · exact hc
    · exact absurd hc hna

/-- The table is exactly the calls that no answer has come for, if and only if none is abandoned. -/
theorem stored_iff_unanswered (h : Good s) :
    (∀ c, c ∈ s.table.map Prod.snd ↔
      c ∈ s.registered.map Prod.fst ∧ c ∉ s.accepted ∧ c ∉ s.abandoned.map Prod.snd) ↔ s.abandoned = 0 := by
  constructor
  · intro hiff
    apply Multiset.eq_zero_of_forall_notMem
    intro p hp
    have hc : p.2 ∈ s.table.map Prod.snd :=
      Multiset.mem_map.mpr ⟨p, Multiset.mem_of_le h.abandoned_le hp, rfl⟩
    exact ((hiff p.2).mp hc).2.2 (Multiset.mem_map.mpr ⟨p, hp, rfl⟩)
  · intro hzero c
    rw [h.stored_iff, hzero]
    simp

/-- Every call has its handler run at most once. -/
theorem invoked_nodup (h : Good s) : (s.invoked.map Prod.fst).Nodup := by
  have hnodup := h.fresh
  rw [h.calls, Multiset.nodup_add, h.accepted, Multiset.nodup_add] at hnodup
  exact hnodup.2.1.2.1

/-- A call asks for one thing. -/
theorem registered_unique (h : Good s) {c : C} {m m' : M} (hm : (c, m) ∈ s.registered)
    (hm' : (c, m') ∈ s.registered) : m = m' :=
  congrArg Prod.snd (Multiset.inj_on_of_nodup_map h.fresh _ hm _ hm' rfl)

/-- A call is answered once. -/
theorem returned_unique (h : Good s) {c : C} {m m' : M} {r r' : R} (hr : (c, m, r) ∈ s.returned)
    (hr' : (c, m', r') ∈ s.returned) : r = r' := by
  have hle : (s.answers.map key).map Prod.snd ≤ s.table.map Prod.snd := by
    apply Multiset.map_le_map
    rw [h.ledger, Multiset.add_assoc, Multiset.add_assoc]
    exact le_trans (Multiset.le_add_right _ _) (Multiset.le_add_left _ _)
  have hnodup : (s.returned.map Prod.fst).Nodup := by
    apply Multiset.nodup_of_le _ h.fresh
    rw [h.returns, h.calls]
    exact Multiset.add_le_add_right hle
  exact congrArg (fun p => p.2.2) (Multiset.inj_on_of_nodup_map hnodup _ hr _ hr' rfl)

/-- With nothing on its way, only the abandoned calls are left in the table. -/
theorem table_eq_abandoned (h : Good s) (hasked : s.asked = 0) (hanswers : s.answers = 0)
    (hrefused : s.refused = 0) : s.table = s.abandoned := by
  rw [h.ledger, hasked, hanswers, hrefused]
  simp

end Good

/-! ## At rest -/

/-- Nothing is on its way, and no answer waits for its handler. -/
structure State.AtRest (s : State K C M R) : Prop where
  asked : s.asked = 0
  answers : s.answers = 0
  refused : s.refused = 0
  ready : s.ready = 0

namespace Good
variable {s : State K C M R}

/-- Then every call has one answer: a normal one that has come, or it is abandoned. -/
theorem answered_once [DecidableEq C] (h : Good s) (hrest : s.AtRest) {c : C} (hc : c ∈ s.registered.map Prod.fst) :
    s.accepted.count c + (s.abandoned.map Prod.snd).count c = 1 := by
  rw [← Multiset.count_eq_one_of_mem h.fresh hc, h.calls,
    h.table_eq_abandoned hrest.asked hrest.answers hrest.refused, Multiset.count_add, Nat.add_comm]

/-- Its handler has been run on what it was answered, and it is out of the table, or it is abandoned, and in the
table. -/
theorem settled (h : Good s) (hrest : s.AtRest) {c : C} {m : M} (hc : (c, m) ∈ s.registered) :
    (∃ r, (c, m, r) ∈ s.returned ∧ (c, r) ∈ s.invoked ∧ c ∉ s.table.map Prod.snd) ∨
      c ∈ s.abandoned.map Prod.snd ∧ (∀ r, (c, r) ∉ s.invoked) ∧ c ∈ s.table.map Prod.snd := by
  have haccepted := h.accepted
  rw [hrest.ready, Multiset.map_zero, Multiset.zero_add] at haccepted
  have hcall : c ∈ s.registered.map Prod.fst := Multiset.mem_map.mpr ⟨_, hc, rfl⟩
  by_cases hstored : c ∈ s.table.map Prod.snd
  · refine Or.inr ⟨?_, fun r hr => ?_, hstored⟩
    · rwa [← h.table_eq_abandoned hrest.asked hrest.answers hrest.refused]
    · apply (h.stored_iff.mp hstored).2
      rw [haccepted]
      exact Multiset.mem_map.mpr ⟨_, hr, rfl⟩
  · have hmem : c ∈ s.accepted := by
      by_contra hnot
      exact hstored (h.stored_iff.mpr ⟨hcall, hnot⟩)
    rw [haccepted] at hmem
    obtain ⟨p, hp, rfl⟩ := Multiset.mem_map.mp hmem
    obtain ⟨m', hm', hret⟩ := h.origin p.1 p.2 (Multiset.mem_add.mpr (Or.inr hp))
    obtain rfl := h.registered_unique hm' hc
    exact Or.inl ⟨p.2, hret, hp, hstored⟩

end Good

end Exchange
