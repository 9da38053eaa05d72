import Mathlib.Data.List.Basic

/-!
# Labelled runs of a transition relation

* `Run Step s ls t` : a finite run from `s` to `t`, with the labels `ls` in the order they were taken;
* `Run.invariant`, `Run.invariant_on` : what every step keeps, every run keeps (`invariant_on` with a
  condition on the labels);
* `Run.simulation` : a simulation relation carries runs to runs with the translated labels;
* `Passes`, `Takes` : the states that a run passes through, and the steps that it takes;
  `Run.invariant_takes` is the rule for a condition on these steps;
* `Run.length_add_weight_le`, `exists_run_to_rest` : runs of labels that lower a weight are short, and lead to
  rest where one can be taken until then;
* `ofFun`, `exec`, `run_of_exec`, `exec_of_run` : runs of a partial step function, evaluated.
-/

namespace Transition

universe u v w x
variable {σ : Type u} {τ : Type v} {L : Type w} {L' : Type x}

/-- A finite run of `Step`. -/
inductive Run (Step : σ → L → σ → Prop) : σ → List L → σ → Prop
  | nil (s : σ) : Run Step s [] s
  | snoc {s t u : σ} {ls : List L} {l : L} (run : Run Step s ls t) (step : Step t l u) :
      Run Step s (ls ++ [l]) u

namespace Run

variable {Step : σ → L → σ → Prop} {Step' : τ → L' → τ → Prop}

theorem append {s t u : σ} {ls ms : List L} (h₁ : Run Step s ls t) (h₂ : Run Step t ms u) :
    Run Step s (ls ++ ms) u := by
  induction h₂ with
  | nil => simpa using h₁
  | snoc _ step ih => rw [← List.append_assoc]; exact ih.snoc step

theorem cons {s t u : σ} {l : L} {ls : List L} (step : Step s l t) (h : Run Step t ls u) :
    Run Step s (l :: ls) u :=
  ((nil s).snoc step).append h

theorem exists_of_cons {s u : σ} {l : L} {ls : List L} (h : Run Step s (l :: ls) u) :
    ∃ t, Step s l t ∧ Run Step t ls u := by
  generalize hms : l :: ls = ms at h
  induction h generalizing ls with
  | nil => cases hms
  | @snoc t u ms m run step ih =>
    obtain ⟨rfl, hm⟩ | ⟨ms', rfl, rfl⟩ := List.cons_eq_append_iff.mp hms
    · obtain ⟨rfl, rfl⟩ := List.cons.inj hm
      generalize hnil : ([] : List L) = ns at run
      cases run with
      | nil => exact ⟨u, step, nil u⟩
      | snoc => simp at hnil
    · obtain ⟨v, hv, hrest⟩ := ih rfl
      exact ⟨v, hv, hrest.snoc step⟩

theorem exists_of_append {s u : σ} {ls ms : List L} (h : Run Step s (ls ++ ms) u) :
    ∃ t, Run Step s ls t ∧ Run Step t ms u := by
  induction ls generalizing s with
  | nil => exact ⟨s, nil s, h⟩
  | cons l ls ih =>
    obtain ⟨v, hstep, hrest⟩ := h.exists_of_cons
    obtain ⟨t, hls, hms⟩ := ih hrest
    exact ⟨t, cons hstep hls, hms⟩

/-- What every step under a condition on its label keeps, every run of such labels keeps. -/
theorem invariant_on {P : σ → Prop} {Q : L → Prop}
    (hstep : ∀ {s l t}, P s → Q l → Step s l t → P t) {s t : σ} {ls : List L}
    (h : Run Step s ls t) (hq : ∀ l ∈ ls, Q l) (hs : P s) : P t := by
  induction h with
  | nil => exact hs
  | snoc _ step ih =>
    exact hstep (ih (fun l hl => hq l (List.mem_append_left _ hl))) (hq _ (by simp)) step

/-- What every step keeps, every run keeps. -/
theorem invariant {P : σ → Prop} (hstep : ∀ {s l t}, P s → Step s l t → P t) {s t : σ} {ls : List L}
    (h : Run Step s ls t) (hs : P s) : P t := by
  induction h with
  | nil => exact hs
  | snoc _ step ih => exact hstep ih step

/-- A relation that every step of `Step` carries to a step of `Step'`, its label translated by `f`,
carries runs to runs. -/
theorem simulation {R : σ → τ → Prop} (f : L → L')
    (hstep : ∀ {s l s' t}, R s t → Step s l s' → ∃ t', Step' t (f l) t' ∧ R s' t') {s s' : σ} {t : τ}
    {ls : List L} (h : Run Step s ls s') (hr : R s t) : ∃ t', Run Step' t (ls.map f) t' ∧ R s' t' := by
  induction h with
  | nil => exact ⟨t, nil t, hr⟩
  | snoc _ step ih =>
    obtain ⟨t₁, hrun, hr₁⟩ := ih
    obtain ⟨t₂, hstep₂, hr₂⟩ := hstep hr₁ step
    rw [List.map_append]
    exact ⟨t₂, hrun.snoc hstep₂, hr₂⟩

end Run

/-! ## The states and the steps of a run -/

section Trace
variable {Step : σ → L → σ → Prop} {s t u v : σ} {ls : List L} {l : L}

/-- The run of `ls` from `s` to `t` passes through `u`. -/
def Passes (Step : σ → L → σ → Prop) (s : σ) (ls : List L) (t u : σ) : Prop :=
  ∃ as bs, ls = as ++ bs ∧ Run Step s as u ∧ Run Step u bs t

/-- The run of `ls` from `s` to `t` takes the step from `u` to `v` that is labelled `l`. -/
def Takes (Step : σ → L → σ → Prop) (s : σ) (ls : List L) (t u : σ) (l : L) (v : σ) : Prop :=
  ∃ as bs, ls = as ++ l :: bs ∧ Run Step s as u ∧ Step u l v ∧ Run Step v bs t

theorem Run.passes (h : Run Step s ls t) : Passes Step s ls t t :=
  ⟨ls, [], (List.append_nil ls).symm, h, Run.nil t⟩

theorem Passes.snoc (h : Passes Step s ls t u) (hstep : Step t l v) : Passes Step s (ls ++ [l]) v u := by
  obtain ⟨as, bs, rfl, has, hbs⟩ := h
  exact ⟨as, bs ++ [l], List.append_assoc as bs [l], has, hbs.snoc hstep⟩

theorem Run.takes (h : Run Step s ls t) (hstep : Step t l v) : Takes Step s (ls ++ [l]) v t l v :=
  ⟨ls, [], rfl, h, hstep, Run.nil v⟩

theorem Takes.append {w : σ} {ms : List L} (h : Takes Step s ls t u l v) (hms : Run Step t ms w) :
    Takes Step s (ls ++ ms) w u l v := by
  obtain ⟨as, bs, rfl, has, hl, hbs⟩ := h
  exact ⟨as, bs ++ ms, by simp, has, hl, hbs.append hms⟩

theorem Takes.snoc {w : σ} {m : L} (h : Takes Step s ls t u l v) (hstep : Step t m w) :
    Takes Step s (ls ++ [m]) w u l v :=
  h.append ((Run.nil t).snoc hstep)

/-- What every step that the run takes keeps, the run keeps. -/
theorem Run.invariant_takes {P : σ → Prop} (h : Run Step s ls t) (hs : P s)
    (hstep : ∀ {u l v}, Takes Step s ls t u l v → P u → P v) : P t := by
  induction h with
  | nil => exact hs
  | snoc run step ih => exact hstep (run.takes step) (ih fun htakes => hstep (htakes.snoc step))

end Trace

/-! ## Labels that lower a weight -/

section Weight
variable {Step : σ → L → σ → Prop} {Q : L → Prop} {P Rest : σ → Prop} {weight : σ → Nat}

/-- Every label of the run takes one from the weight at least. -/
theorem Run.length_add_weight_le {s t : σ} {ls : List L} (h : Run Step s ls t) (hq : ∀ l ∈ ls, Q l)
    (hlower : ∀ {s l t}, Q l → Step s l t → weight t < weight s) : ls.length + weight t ≤ weight s := by
  induction h with
  | nil => simp
  | snoc _ step ih =>
    have hrun := ih fun l hl => hq l (List.mem_append_left _ hl)
    have hlast := hlower (hq _ (by simp)) step
    rw [List.length_append, List.length_singleton]
    omega

/-- As long as such a label can be taken where the state is not at rest, a run of them leads to rest. -/
theorem exists_run_to_rest (Step : σ → L → σ → Prop)
    (hlower : ∀ {s l t}, Q l → Step s l t → weight t < weight s)
    (hkeep : ∀ {s l t}, P s → Q l → Step s l t → P t)
    (hgo : ∀ {s}, P s → ¬ Rest s → ∃ l t, Q l ∧ Step s l t) {n : Nat} {s : σ} (hn : weight s ≤ n) (hs : P s) :
    ∃ ls t, (∀ l ∈ ls, Q l) ∧ Run Step s ls t ∧ Rest t := by
  induction n generalizing s with
  | zero =>
    refine ⟨[], s, by simp, Run.nil s, ?_⟩
    by_contra hrest
    obtain ⟨l, t, hl, hstep⟩ := hgo hs hrest
    have := hlower hl hstep
    omega
  | succ n ih =>
    by_cases hrest : Rest s
    · exact ⟨[], s, by simp, Run.nil s, hrest⟩
    · obtain ⟨l, t, hl, hstep⟩ := hgo hs hrest
      have hlt := hlower hl hstep
      obtain ⟨ls, u, hls, hrun, hu⟩ := ih (Nat.le_of_lt_succ (by omega)) (hkeep hs hl hstep)
      refine ⟨l :: ls, u, ?_, Run.cons hstep hrun, hu⟩
      intro k hk
      rcases List.mem_cons.mp hk with rfl | hk
      · exact hl
      · exact hls k hk

end Weight

/-! ## Partial step functions -/

/-- The step relation of a partial function. -/
def ofFun (step : σ → L → Option σ) : σ → L → σ → Prop := fun s l t => step s l = some t

/-- The state a partial function reaches over the labels, if it takes them all. -/
def exec (step : σ → L → Option σ) : σ → List L → Option σ
  | s, [] => some s
  | s, l :: ls => (step s l).bind (fun t => exec step t ls)

theorem run_of_exec {step : σ → L → Option σ} :
    ∀ {ls : List L} {s t : σ}, exec step s ls = some t → Run (ofFun step) s ls t
  | [], s, t, h => by
    rw [exec, Option.some.injEq] at h
    exact h ▸ Run.nil s
  | l :: ls, s, t, h => by
    rw [exec, Option.bind_eq_some_iff] at h
    obtain ⟨m, hm, hrest⟩ := h
    exact Run.cons (show ofFun step s l m from hm) (run_of_exec hrest)

theorem exec_append {step : σ → L → Option σ} :
    ∀ (ls ms : List L) (s : σ), exec step s (ls ++ ms) = (exec step s ls).bind fun t => exec step t ms
  | [], ms, s => rfl
  | l :: ls, ms, s => by
    rw [List.cons_append, exec, exec, Option.bind_assoc]
    congr 1
    funext t
    exact exec_append ls ms t

theorem exec_of_run {step : σ → L → Option σ} {s t : σ} {ls : List L} (h : Run (ofFun step) s ls t) :
    exec step s ls = some t := by
  induction h with
  | nil => rfl
  | snoc _ hstep ih =>
    rw [exec_append, ih, Option.bind_some, exec, show step _ _ = some _ from hstep]
    rfl

end Transition
