import Communique.Lib.Run
import Mathlib.Logic.Function.Basic
import Mathlib.Logic.Relation

/-!
# An object behind a mutex

Any number of threads call the functions of one object. Every function locks the mutex of the object first and
unlocks it when it returns or throws; in between it runs one statement after the other, and the statements of
the other threads may come in between. The last statement, the unlocking and the return are one step here: the order
in which calls return is the order in which they unlock the mutex.

* `Object` : the functions, statement by statement; `State`, `Act`, `step` : the threads;
* `Object.Alone` : a call that nobody disturbs, from its first statement to its return;
* `Good`, `good_step`, `Reachable.good` : at most one thread is inside, and it does what it would do alone;
* **`Reachable.serial`** : the calls that have returned, in the order in which they unlocked the mutex, are a run of the
  object in which nobody disturbs anybody;
* `Good.returns`, **`Reachable.returns`** : if the statements lower a rank, the thread that holds the mutex returns,
  and then any thread can.
-/

namespace Mutex
open Transition Relation

/-- The functions of an object with state `S`. A function begins at a location; a statement leads to the next
location, or it is the last one and gives the result. -/
structure Object (S Op Loc Res : Type) where
  enter : Op → Loc
  statement : S → Loc → S × (Loc ⊕ Res)

inductive Phase (Op Loc : Type)
  | outside
  | waiting (op : Op)
  | inside (op : Op) (loc : Loc)

inductive Event (T Op Res : Type)
  | called (t : T) (op : Op)
  | returned (t : T) (op : Op) (res : Res)

/-- The calls that have returned, in the order in which they unlocked the mutex. -/
def completed {T Op Res : Type} (log : List (Event T Op Res)) : List (T × Op × Res) :=
  log.filterMap fun
    | .returned t op res => some (t, op, res)
    | _ => none

@[simp] theorem completed_called {T Op Res : Type} (log : List (Event T Op Res)) (t : T) (op : Op) :
    completed (log ++ [.called t op]) = completed log := by
  simp [completed]

@[simp] theorem completed_returned {T Op Res : Type} (log : List (Event T Op Res)) (t : T) (op : Op) (res : Res) :
    completed (log ++ [.returned t op res]) = completed log ++ [(t, op, res)] := by
  simp [completed]

structure State (T S Op Loc Res : Type) where
  shared : S
  /-- The thread that has locked the mutex. -/
  owner : Option T
  phase : T → Phase Op Loc
  log : List (Event T Op Res)

inductive Act (T Op : Type)
  | call (t : T) (op : Op)
  | lock (t : T)
  | run (t : T)

variable {T S Op Loc Res : Type}

/-- Nobody has called anything. -/
def start (shared : S) : State T S Op Loc Res := ⟨shared, none, fun _ => .outside, []⟩

namespace Object

def Goes (obj : Object S Op Loc Res) (p q : S × Loc) : Prop := obj.statement p.1 p.2 = (q.1, .inl q.2)

/-- A call with its result, from its first statement to its return, with no other thread in between. -/
def Alone (obj : Object S Op Loc Res) (s : S) (call : Op × Res) (s' : S) : Prop :=
  ∃ s₁ loc, ReflTransGen obj.Goes (s, obj.enter call.1) (s₁, loc) ∧ obj.statement s₁ loc = (s', .inr call.2)

/-- One thread after the other. -/
def Serial (obj : Object S Op Loc Res) (s : S) (call : T × Op × Res) (s' : S) : Prop := obj.Alone s call.2 s'

/-- What can be shown of every location that a call alone comes to, its result has as well. -/
theorem Alone.induct {obj : Object S Op Loc Res} {s s' : S} {op : Op} {res : Res} {P : S → Loc → Prop}
    (h : obj.Alone s (op, res) s') (henter : P s (obj.enter op))
    (hgoes : ∀ {s₁ loc s₂ loc'}, P s₁ loc → obj.statement s₁ loc = (s₂, .inl loc') → P s₂ loc') :
    ∃ s₁ loc, P s₁ loc ∧ obj.statement s₁ loc = (s', .inr res) := by
  obtain ⟨s₁, loc, hpath, hlast⟩ := h
  have hall : ∀ q, ReflTransGen obj.Goes (s, obj.enter op) q → P q.1 q.2 := by
    intro q hq
    induction hq with
    | refl => exact henter
    | tail _ hstep ih => exact hgoes ih hstep
  exact ⟨s₁, loc, hall (s₁, loc) hpath, hlast⟩

end Object

section Step
variable [DecidableEq T] (obj : Object S Op Loc Res)

/-- A thread that does its last statement unlocks the mutex and returns in the same step. -/
def step (s : State T S Op Loc Res) : Act T Op → Option (State T S Op Loc Res)
  | .call t op =>
    match s.phase t with
    | .outside => some { s with
        phase := Function.update s.phase t (.waiting op)
        log := s.log ++ [.called t op] }
    | _ => none
  | .lock t =>
    match s.phase t, s.owner with
    | .waiting op, none => some { s with
        owner := some t
        phase := Function.update s.phase t (.inside op (obj.enter op)) }
    | _, _ => none
  | .run t =>
    match s.phase t with
    | .inside op loc =>
      match obj.statement s.shared loc with
      | (shared, .inl loc') => some { s with
          shared := shared
          phase := Function.update s.phase t (.inside op loc') }
      | (shared, .inr res) => some { s with
          shared := shared
          owner := none
          phase := Function.update s.phase t .outside
          log := s.log ++ [.returned t op res] }
    | _ => none

end Step

/-! ## At most one thread is inside -/

section Good
variable {obj : Object S Op Loc Res} {shared : S} {s s' : State T S Op Loc Res}

/-- The calls that have returned have left `before`, one after the other, and from there the thread that holds
the mutex has done what it would have done alone. -/
structure Good (obj : Object S Op Loc Res) (shared : S) (s : State T S Op Loc Res) : Prop where
  free : s.owner = none → Run obj.Serial shared (completed s.log) s.shared
  held : ∀ t, s.owner = some t → ∃ op loc before, s.phase t = .inside op loc ∧
    Run obj.Serial shared (completed s.log) before ∧
    ReflTransGen obj.Goes (before, obj.enter op) (s.shared, loc)
  inside : ∀ t op loc, s.phase t = .inside op loc → s.owner = some t

theorem good_start : Good obj shared (start shared : State T S Op Loc Res) where
  free _ := Run.nil shared
  held _ h := nomatch h
  inside _ _ _ h := nomatch h

theorem Good.exclusive (h : Good obj shared s) {t u : T} {op op' : Op} {loc loc' : Loc}
    (ht : s.phase t = .inside op loc) (hu : s.phase u = .inside op' loc') : t = u := by
  have howner := h.inside t op loc ht
  rw [h.inside u op' loc' hu, Option.some.injEq] at howner
  exact howner.symm

variable [DecidableEq T]

/-- The states of the runs of any threads. -/
def Reachable (obj : Object S Op Loc Res) (shared : S) (s : State T S Op Loc Res) : Prop :=
  ∃ acts, Run (ofFun (step obj)) (start shared) acts s

theorem good_call (h : Good obj shared s) {t : T} {op : Op} (hout : s.phase t = .outside) :
    Good obj shared { s with
      phase := Function.update s.phase t (.waiting op)
      log := s.log ++ [.called t op] } where
  free hfree := by
    rw [completed_called]
    exact h.free hfree
  held u howner := by
    obtain ⟨op', loc, before, hu, hrun, hpath⟩ := h.held u howner
    have hne : u ≠ t := by
      rintro rfl
      rw [hout] at hu
      cases hu
    rw [completed_called]
    refine ⟨op', loc, before, ?_, hrun, hpath⟩
    show Function.update s.phase t _ u = _
    rw [Function.update_of_ne hne, hu]
  inside u op' loc hu := by
    have hne : u ≠ t := by
      rintro rfl
      simp at hu
    simp only [Function.update_of_ne hne] at hu
    exact h.inside u op' loc hu

theorem good_lock (h : Good obj shared s) {t : T} {op : Op} (hfree : s.owner = none) :
    Good obj shared { s with
      owner := some t
      phase := Function.update s.phase t (.inside op (obj.enter op)) } where
  free hnone := nomatch hnone
  held u howner := by
    obtain rfl : t = u := Option.some.inj howner
    exact ⟨op, obj.enter op, s.shared, Function.update_self .., h.free hfree, ReflTransGen.refl⟩
  inside u op' loc hu := by
    by_cases hut : u = t
    · rw [hut]
    · simp only [Function.update_of_ne hut] at hu
      have howner := h.inside u op' loc hu
      rw [hfree] at howner
      cases howner

theorem good_goes (h : Good obj shared s) {t : T} {op : Op} {loc loc' : Loc} {shared' : S}
    (hin : s.phase t = .inside op loc) (hst : obj.statement s.shared loc = (shared', .inl loc')) :
    Good obj shared { s with
      shared := shared'
      phase := Function.update s.phase t (.inside op loc') } where
  free hnone := by
    have howner := h.inside t op loc hin
    rw [show s.owner = none from hnone] at howner
    cases howner
  held u howner := by
    have ht := h.inside t op loc hin
    rw [show s.owner = some u from howner, Option.some.injEq] at ht
    subst ht
    obtain ⟨op', loc₁, before, hu, hrun, hpath⟩ := h.held u howner
    rw [hin, Phase.inside.injEq] at hu
    obtain ⟨rfl, rfl⟩ := hu
    exact ⟨op, loc', before, Function.update_self .., hrun, hpath.tail hst⟩
  inside u op' loc₁ hu := by
    by_cases hut : u = t
    · subst hut
      exact h.inside u op loc hin
    · simp only [Function.update_of_ne hut] at hu
      exact h.inside u op' loc₁ hu

theorem good_return (h : Good obj shared s) {t : T} {op : Op} {loc : Loc} {shared' : S} {res : Res}
    (hin : s.phase t = .inside op loc) (hst : obj.statement s.shared loc = (shared', .inr res)) :
    Good obj shared { s with
      shared := shared'
      owner := none
      phase := Function.update s.phase t .outside
      log := s.log ++ [.returned t op res] } where
  free _ := by
    obtain ⟨op', loc₁, before, hu, hrun, hpath⟩ := h.held t (h.inside t op loc hin)
    rw [hin, Phase.inside.injEq] at hu
    obtain ⟨rfl, rfl⟩ := hu
    rw [completed_returned]
    exact hrun.snoc ⟨s.shared, loc, hpath, hst⟩
  held u hsome := nomatch hsome
  inside u op' loc₁ hu := by
    have hne : u ≠ t := by
      rintro rfl
      simp at hu
    simp only [Function.update_of_ne hne] at hu
    exact absurd (h.exclusive hu hin) hne

theorem good_step (h : Good obj shared s) {act : Act T Op} (hst : step obj s act = some s') :
    Good obj shared s' := by
  cases act with
  | call t op =>
    rw [step] at hst
    split at hst
    · next hout =>
      cases hst
      exact good_call h hout
    · cases hst
  | lock t =>
    rw [step] at hst
    split at hst
    · next op hwait hfree =>
      cases hst
      exact good_lock h hfree
    · cases hst
  | run t =>
    rw [step] at hst
    split at hst
    · next op loc hin =>
      split at hst
      · next shared' loc' hstatement =>
        cases hst
        exact good_goes h hin hstatement
      · next shared' res hstatement =>
        cases hst
        exact good_return h hin hstatement
    · cases hst

theorem Reachable.good (h : Reachable obj shared s) : Good obj shared s := by
  obtain ⟨acts, hrun⟩ := h
  exact hrun.invariant (P := Good obj shared) (fun hs hst => good_step hs hst) good_start

/-- **The threads do what they could do one after the other**: the calls that have returned, in the order in
which they did, are a run of the object, and it leaves the object as it is where the mutex is free. -/
theorem Reachable.serial (h : Reachable obj shared s) :
    ∃ before, Run obj.Serial shared (completed s.log) before ∧ (s.owner = none → before = s.shared) := by
  have hgood := h.good
  cases howner : s.owner with
  | none => exact ⟨s.shared, hgood.free howner, fun _ => rfl⟩
  | some t =>
    obtain ⟨op, loc, before, -, hrun, -⟩ := hgood.held t howner
    exact ⟨before, hrun, fun hnone => nomatch hnone⟩

/-! ## The threads return -/

/-- The thread inside is at its last statement after at most as many statements as the rank, and unlocks the
mutex, whatever the others are waiting for. -/
theorem Good.returns {rank : S → Loc → Nat}
    (hrank : ∀ {s loc s' loc'}, obj.statement s loc = (s', .inl loc') → rank s' loc' < rank s loc)
    (h : Good obj shared s) {t : T} {op : Op} {loc : Loc} (hin : s.phase t = .inside op loc) :
    ∃ n s' res, n ≤ rank s.shared loc + 1 ∧ exec (step obj) s (List.replicate n (.run t)) = some s' ∧
      s'.owner = none ∧ s'.log = s.log ++ [.returned t op res] ∧ ∀ u, u ≠ t → s'.phase u = s.phase u := by
  generalize hk : rank s.shared loc = k
  induction k using Nat.strongRecOn generalizing s loc with
  | _ k ih =>
    rcases hstatement : obj.statement s.shared loc with ⟨shared', loc' | res⟩
    · have hlt := hrank hstatement
      have hstep : step obj s (.run t) = some { s with
          shared := shared'
          phase := Function.update s.phase t (.inside op loc') } := by
        rw [step, hin]
        dsimp only
        rw [hstatement]
      obtain ⟨n, s', res, hn, hrun, howner, hlog, hothers⟩ := ih (rank shared' loc') (hk ▸ hlt)
        (good_step h hstep) (Function.update_self ..) rfl
      refine ⟨n + 1, s', res, by omega, ?_, howner, hlog, fun u hu => ?_⟩
      · rw [List.replicate_succ, exec, hstep]
        exact hrun
      · rw [hothers u hu]
        exact Function.update_of_ne hu ..
    · have hstep : step obj s (.run t) = some { s with
          shared := shared'
          owner := none
          phase := Function.update s.phase t .outside
          log := s.log ++ [.returned t op res] } := by
        rw [step, hin]
        dsimp only
        rw [hstatement]
      have hexec : exec (step obj) s (List.replicate 1 (.run t)) = step obj s (.run t) := by
        rw [List.replicate_one, exec, hstep]
        rfl
      exact ⟨1, _, res, by omega, hexec.trans hstep, rfl, rfl, fun u hu => Function.update_of_ne hu ..⟩

/-- **No thread is kept waiting for ever**: wherever a thread is in a call, it can come to the end of it. -/
theorem Reachable.returns {rank : S → Loc → Nat}
    (hrank : ∀ {s loc s' loc'}, obj.statement s loc = (s', .inl loc') → rank s' loc' < rank s loc)
    (h : Reachable obj shared s) {t : T} (ht : s.phase t ≠ .outside) :
    ∃ acts s' op res log, exec (step obj) s acts = some s' ∧ s'.log = log ++ [.returned t op res] := by
  have hinside : ∀ {s : State T S Op Loc Res} {op : Op} {loc : Loc}, Good obj shared s →
      s.phase t = .inside op loc →
      ∃ acts s' op res log, exec (step obj) s acts = some s' ∧ s'.log = log ++ [.returned t op res] := by
    intro s op loc hs hin
    obtain ⟨n, s', res, -, hrun, -, hlog, -⟩ := hs.returns hrank hin
    exact ⟨_, s', op, res, _, hrun, hlog⟩
  have hwaiting : ∀ {s : State T S Op Loc Res} {op : Op}, Good obj shared s → s.owner = none →
      s.phase t = .waiting op →
      ∃ acts s' op res log, exec (step obj) s acts = some s' ∧ s'.log = log ++ [.returned t op res] := by
    intro s op hs hfree hwait
    have hstep : step obj s (.lock t) = some { s with
        owner := some t
        phase := Function.update s.phase t (.inside op (obj.enter op)) } := by
      rw [step, hwait, hfree]
    obtain ⟨acts, s', op', res, log, hrun, hlog⟩ := hinside (good_step hs hstep) (Function.update_self ..)
    refine ⟨.lock t :: acts, s', op', res, log, ?_, hlog⟩
    rw [exec, hstep]
    exact hrun
  have hgood := h.good
  cases hphase : s.phase t with
  | outside => exact absurd hphase ht
  | inside op loc => exact hinside hgood hphase
  | waiting op =>
    cases howner : s.owner with
    | none => exact hwaiting hgood howner hphase
    | some u =>
      -- the thread that holds the mutex returns first
      obtain ⟨op', loc, -, hin, -⟩ := hgood.held u howner
      have hne : t ≠ u := by
        rintro rfl
        rw [hphase] at hin
        cases hin
      obtain ⟨n, s₁, res', -, hrun₁, hfree, -, hothers⟩ := hgood.returns hrank hin
      have hgood₁ := (run_of_exec hrun₁).invariant (P := Good obj shared) (fun hs hst => good_step hs hst) hgood
      obtain ⟨acts, s', op'', res, log, hrun, hlog⟩ :=
        hwaiting hgood₁ hfree ((hothers t hne).trans hphase)
      refine ⟨List.replicate n (.run u) ++ acts, s', op'', res, log, ?_, hlog⟩
      rw [exec_append, hrun₁]
      exact hrun

end Good

end Mutex
