import Communique.Lib.Run

/-!
# A run loop and the thread that works on it

A loop runs in the threads that enter it until it is out of work. Then it is stopped, and a thread that
enters a stopped loop returns at once. A thread handle is joinable from the assignment of a thread to the
join; assigning to a joinable handle terminates the process.

* `Loop`, `Loop.step` : the handle and the loop; `Event` is what happens to them;
* `Served` : a thread that has been started will find the loop ready;
* `History` : what is known of the loop after a number of threads;
* `Hosts` : a system with such a loop; **`Hosts.served_iff`** : every thread is served exactly in the runs
  that start one thread at most;
* `Alternates` : a join between any two assignments; **`Hosts.terminated_iff`** : the process survives
  exactly those runs.
-/

namespace RunLoop
open Transition

/-- What a thread handle stands for: no thread, or one that has not entered the loop yet, is in it, or has
returned from it. -/
inductive Thread
  | none
  | started
  | running
  | returned
  deriving DecidableEq

def Thread.joinable (t : Thread) : Bool := t ≠ .none

structure Loop where
  thread : Thread
  stopped : Bool
  terminated : Bool
  deriving DecidableEq

inductive Event
  | assign
  | enter
  | finish
  | join
  deriving DecidableEq

namespace Loop

def new : Loop := ⟨.none, false, false⟩

/-- `join` is called on a joinable handle only, and waits until the thread has returned. -/
def step (l : Loop) (e : Event) : Option Loop :=
  if l.terminated then none
  else match e with
    | .assign => some (if l.thread.joinable then { l with terminated := true } else { l with thread := .started })
    | .enter =>
      if l.thread = .started then some { l with thread := if l.stopped then .returned else .running } else none
    | .finish => if l.thread = .running then some { l with thread := .returned, stopped := true } else none
    | .join =>
      if l.thread.joinable then
        if l.thread = .returned then some { l with thread := .none } else none
      else some l

theorem step_assign {l : Loop} (halive : l.terminated = false) (hthread : l.thread = .none) :
    l.step .assign = some { l with thread := .started } := by
  obtain ⟨thread, stopped, terminated⟩ := l
  obtain rfl := halive
  obtain rfl := hthread
  rfl

/-- What an event changes. -/
inductive Stepped (l : Loop) : Event → Loop → Prop
  | crash (h : l.thread ≠ .none) : Stepped l .assign { l with terminated := true }
  | assign (h : l.thread = .none) : Stepped l .assign { l with thread := .started }
  | leave (h : l.thread = .started) (hs : l.stopped = true) : Stepped l .enter { l with thread := .returned }
  | enter (h : l.thread = .started) (hs : l.stopped = false) : Stepped l .enter { l with thread := .running }
  | finish (h : l.thread = .running) : Stepped l .finish { l with thread := .returned, stopped := true }
  | join (h : l.thread = .returned) : Stepped l .join { l with thread := .none }
  | skip (h : l.thread = .none) : Stepped l .join l

theorem step_cases {l l' : Loop} {e : Event} (h : l.step e = some l') : l.terminated = false ∧ Stepped l e l' := by
  obtain ⟨thread, stopped, terminated⟩ := l
  unfold step at h
  obtain ⟨hterminated, h⟩ := Option.ite_none_left_eq_some.mp h
  refine ⟨(Bool.not_eq_true _).mp hterminated, ?_⟩
  cases e with
  | assign =>
    obtain rfl := Option.some.inj h
    cases thread with
    | none => exact Stepped.assign rfl
    | started => exact Stepped.crash (by simp)
    | running => exact Stepped.crash (by simp)
    | returned => exact Stepped.crash (by simp)
  | enter =>
    obtain ⟨hthread, h⟩ := Option.ite_none_right_eq_some.mp h
    obtain rfl := Option.some.inj h
    cases stopped with
    | true => exact Stepped.leave hthread rfl
    | false => exact Stepped.enter hthread rfl
  | finish =>
    obtain ⟨hthread, h⟩ := Option.ite_none_right_eq_some.mp h
    obtain rfl := Option.some.inj h
    exact Stepped.finish hthread
  | join =>
    cases thread with
    | none =>
      obtain rfl := Option.some.inj h
      exact Stepped.skip rfl
    | started => simp [Thread.joinable] at h
    | running => simp [Thread.joinable] at h
    | returned =>
      obtain rfl := Option.some.inj h
      exact Stepped.join rfl

/-- An assignment that the process survives. -/
theorem started_of_assign {l l' : Loop} (h : l.step .assign = some l') (hl : l'.terminated = false) :
    l'.thread = .started := by
  obtain ⟨-, hstepped⟩ := step_cases h
  cases hstepped with
  | crash hthread => cases hl
  | assign hthread => rfl

theorem thread_of_assign {l l' : Loop} (h : l.step .assign = some l') : l'.thread ≠ .none := by
  obtain ⟨-, hstepped⟩ := step_cases h
  cases hstepped with
  | crash hthread => exact hthread
  | assign hthread => simp

theorem thread_of_join {l l' : Loop} (h : l.step .join = some l') : l'.thread = .none := by
  obtain ⟨-, hstepped⟩ := step_cases h
  cases hstepped with
  | join hthread => rfl
  | skip hthread => exact hthread

/-- Only a thread enters the loop and returns from it, and its handle stays joinable. -/
theorem thread_ne_none {l l' : Loop} {e : Event} (h : l.step e = some l') (he : e = .enter ∨ e = .finish) :
    l.thread ≠ .none ∧ l'.thread ≠ .none := by
  obtain ⟨-, hstepped⟩ := step_cases h
  cases hstepped with
  | leave hthread => simp [hthread]
  | enter hthread => simp [hthread]
  | finish hthread => simp [hthread]
  | _ => simp at he

/-- A thread in the loop neither enters it nor can be joined. -/
theorem thread_ne_running {l l' : Loop} {e : Event} (h : l.step e = some l') (he : e = .enter ∨ e = .join) :
    l.thread ≠ .running := by
  obtain ⟨-, hstepped⟩ := step_cases h
  cases hstepped with
  | leave hthread => simp [hthread]
  | enter hthread => simp [hthread]
  | join hthread => simp [hthread]
  | skip hthread => simp [hthread]
  | _ => simp at he

/-- The process can only be terminated by an assignment to a joinable handle. -/
theorem alive_of_step {l l' : Loop} {e : Event} (h : l.step e = some l')
    (he : e = .assign → l.thread = .none) : l'.terminated = false := by
  obtain ⟨halive, hstepped⟩ := step_cases h
  cases hstepped with
  | crash hthread => exact absurd (he rfl) hthread
  | _ => exact halive

/-- The thread that has been started will not find the loop stopped. -/
def Served (l : Loop) : Prop := l.thread = .started → l.stopped = false

/-- The loop after `n` threads have been assigned. -/
structure History (n : Nat) (l : Loop) : Prop where
  fresh : n = 0 → l = new
  first : n = 1 → l.Served
  running : l.thread = .running → l.stopped = false
  returned : l.thread = .returned → l.stopped = true
  idle : 0 < n → l.thread = .none → l.stopped = true
  again : 2 ≤ n → l.stopped = true

theorem history_new : History 0 new where
  fresh _ := rfl
  first h := absurd h (by decide)
  running h := absurd h (by decide)
  returned h := absurd h (by decide)
  idle h := absurd h (by decide)
  again h := absurd h (by decide)

/-- The threads that an event adds: an assignment that does not terminate the process. -/
def added (e : Event) (l' : Loop) : Nat := if e = .assign ∧ l'.terminated = false then 1 else 0

/-- Without a thread so far, no handle stands for one. -/
theorem History.pos {n : Nat} {l : Loop} (h : History n l) (hthread : l.thread ≠ .none) : 0 < n := by
  by_contra hn
  have hnew := h.fresh (by omega)
  rw [hnew] at hthread
  exact hthread rfl

theorem History.step {n : Nat} {l l' : Loop} {e : Event} (h : History n l) (hstep : l.step e = some l') :
    History (n + added e l') l' := by
  obtain ⟨hterminated, hstepped⟩ := step_cases hstep
  cases hstepped with
  | crash hthread =>
    have hn := h.pos hthread
    refine ⟨fun h0 => ?_, h.first, h.running, h.returned, h.idle, h.again⟩
    simp only [added, Nat.add_eq_zero_iff] at h0
    omega
  | assign hthread =>
    have hadded : added .assign { l with thread := .started } = 1 := if_pos ⟨rfl, hterminated⟩
    rw [hadded]
    refine ⟨fun h0 => absurd h0 (by omega), fun h1 _ => ?_, fun h => ?_, fun h => ?_, fun _ h => ?_, fun h2 => ?_⟩
    · exact congrArg Loop.stopped (h.fresh (by omega))
    · cases h
    · cases h
    · cases h
    · exact h.idle (by omega) hthread
  | leave hthread hstopped =>
    have hn := h.pos (by simp [hthread])
    refine ⟨fun h0 => absurd h0 (by simp [added]; omega), fun _ h => ?_, fun h => ?_, fun _ => hstopped,
      fun _ _ => hstopped, fun _ => hstopped⟩
    · cases h
    · cases h
  | enter hthread hstopped =>
    have hn := h.pos (by simp [hthread])
    refine ⟨fun h0 => absurd h0 (by simp [added]; omega), fun _ h => ?_, fun _ => hstopped, fun h => ?_,
      fun _ h => ?_, fun h2 => ?_⟩
    · cases h
    · cases h
    · cases h
    · exact h.again h2
  | finish hthread =>
    have hn := h.pos (by simp [hthread])
    refine ⟨fun h0 => absurd h0 (by simp [added]; omega), fun _ h => ?_, fun h => ?_, fun _ => rfl,
      fun _ _ => rfl, fun _ => rfl⟩
    · cases h
    · cases h
  | join hthread =>
    have hn := h.pos (by simp [hthread])
    have hstopped := h.returned hthread
    refine ⟨fun h0 => absurd h0 (by simp [added]; omega), fun _ h => ?_, fun h => ?_, fun h => ?_,
      fun _ _ => hstopped, fun _ => hstopped⟩
    · cases h
    · cases h
    · cases h
  | skip hthread => exact h

theorem History.served {n : Nat} {l : Loop} (h : History n l) (hn : n ≤ 1) : l.Served := by
  intro hthread
  have hpos := h.pos (by simp [hthread])
  exact h.first (by omega) hthread

end Loop

/-! ## Systems with a loop -/

universe u v
variable {σ : Type u} {L : Type v}

/-- Every step leaves the loop alone or takes one of its steps, and `starts` counts the threads. -/
def Hosts (step : σ → L → Option σ) (loop : σ → Loop) (starts : σ → Nat) : Prop :=
  ∀ ⦃s l t⦄, step s l = some t →
    loop t = loop s ∧ starts t = starts s ∨
      ∃ e, (loop s).step e = some (loop t) ∧ starts t = starts s + Loop.added e (loop t)

section Hosts
variable {step : σ → L → Option σ} {loop : σ → Loop} {starts : σ → Nat} {s t : σ} {ls : List L}

theorem Hosts.history (h : Hosts step loop starts) (hrun : Run (ofFun step) s ls t) (hloop : loop s = .new)
    (hstarts : starts s = 0) : (loop t).History (starts t) := by
  have hs : (loop s).History (starts s) := by
    rw [hloop, hstarts]
    exact Loop.history_new
  refine hrun.invariant (P := fun u => (loop u).History (starts u)) ?_ hs
  intro u l v hu hstep
  obtain ⟨hsame, hcount⟩ | ⟨e, hevent, hcount⟩ := h hstep
  · rwa [hsame, hcount]
  · rw [hcount]
    exact hu.step hevent

theorem Hosts.starts_le (h : Hosts step loop starts) (hrun : Run (ofFun step) s ls t) : starts s ≤ starts t := by
  refine hrun.invariant (P := fun u => starts s ≤ starts u) ?_ (Nat.le_refl _)
  intro u l v hu hstep
  obtain ⟨-, hcount⟩ | ⟨e, -, hcount⟩ := h hstep <;> omega

/-- A second thread finds the loop stopped. -/
theorem Hosts.exists_not_served (h : Hosts step loop starts) (hrun : Run (ofFun step) s ls t)
    (hloop : loop s = .new) (hstarts : starts s = 0) (htwo : 2 ≤ starts t) :
    ∃ u, Passes (ofFun step) s ls t u ∧ ¬ (loop u).Served := by
  induction hrun with
  | nil => omega
  | @snoc u v ls l run hstep ih =>
    by_cases hu : 2 ≤ starts u
    · obtain ⟨w, hpasses, hserved⟩ := ih hu
      exact ⟨w, hpasses.snoc hstep, hserved⟩
    · have hhistory := h.history (run.snoc hstep) hloop hstarts
      refine ⟨v, (run.snoc hstep).passes, ?_⟩
      obtain ⟨-, hcount⟩ | ⟨e, hevent, hcount⟩ := h hstep
      · omega
      · obtain ⟨rfl, hterminated⟩ : e = .assign ∧ (loop v).terminated = false := by
          by_contra hnone
          rw [Loop.added, if_neg hnone] at hcount
          omega
        have hstarted := Loop.started_of_assign hevent hterminated
        intro hserved
        have hstopped := hhistory.again htwo
        rw [hserved hstarted] at hstopped
        cases hstopped

/-- **Every thread is served exactly** in the runs that start one thread at most. -/
theorem Hosts.served_iff (h : Hosts step loop starts) (hrun : Run (ofFun step) s ls t) (hloop : loop s = .new)
    (hstarts : starts s = 0) :
    (∀ u, Passes (ofFun step) s ls t u → (loop u).Served) ↔ starts t ≤ 1 := by
  constructor
  · intro hserved
    by_contra htwo
    obtain ⟨u, hpasses, hnot⟩ := h.exists_not_served hrun hloop hstarts (by omega)
    exact hnot (hserved u hpasses)
  · rintro hone u ⟨as, bs, rfl, has, hbs⟩
    have hle := h.starts_le hbs
    exact (h.history has hloop hstarts).served (by omega)

end Hosts

/-! ## Assignments and joins -/

section Alternation
variable (event : L → Option Event)

/-- A thread has been assigned and not joined. -/
def Pending (ls : List L) : Prop :=
  ∃ as a bs, ls = as ++ a :: bs ∧ event a = some .assign ∧ ∀ b ∈ bs, event b ≠ some .join

/-- Between any two assignments there is a join. -/
def Alternates (ls : List L) : Prop :=
  ∀ as a bs b cs, ls = as ++ a :: (bs ++ b :: cs) → event a = some .assign → event b = some .assign →
    ∃ j ∈ bs, event j = some .join

variable {event}

theorem not_pending_nil : ¬ Pending event [] := by
  rintro ⟨as, a, bs, h, -⟩
  simp at h

theorem alternates_nil : Alternates event [] := by
  intro as a bs b cs h
  simp at h

/-- The last label of a list with a label in front of its end. -/
theorem concat_eq_append_cons {ls as bs : List L} {l a : L} (h : ls ++ [l] = as ++ a :: bs) :
    ls = as ∧ l = a ∧ bs = [] ∨ ∃ cs, bs = cs ++ [l] ∧ ls = as ++ a :: cs := by
  obtain rfl | ⟨cs, c, rfl⟩ := List.eq_nil_or_concat' bs
  · obtain ⟨rfl, hl⟩ := List.append_inj' h rfl
    exact Or.inl ⟨rfl, List.singleton_inj.mp hl, rfl⟩
  · rw [← List.cons_append, ← List.append_assoc] at h
    obtain ⟨rfl, hl⟩ := List.append_inj' h rfl
    exact Or.inr ⟨cs, by rw [List.singleton_inj.mp hl], rfl⟩

theorem pending_concat {ls : List L} {l : L} :
    Pending event (ls ++ [l]) ↔ event l = some .assign ∨ event l ≠ some .join ∧ Pending event ls := by
  constructor
  · rintro ⟨as, a, bs, h, ha, hbs⟩
    obtain ⟨rfl, rfl, rfl⟩ | ⟨cs, rfl, rfl⟩ := concat_eq_append_cons h
    · exact Or.inl ha
    · refine Or.inr ⟨hbs l (by simp), as, a, cs, rfl, ha, fun b hb => hbs b (by simp [hb])⟩
  · rintro (hl | ⟨hl, as, a, bs, rfl, ha, hbs⟩)
    · exact ⟨ls, l, [], rfl, hl, by simp⟩
    · refine ⟨as, a, bs ++ [l], by simp, ha, ?_⟩
      simp only [List.mem_append, List.mem_singleton]
      rintro b (hb | rfl)
      · exact hbs b hb
      · exact hl

theorem alternates_concat {ls : List L} {l : L} :
    Alternates event (ls ++ [l]) ↔ Alternates event ls ∧ (event l = some .assign → ¬ Pending event ls) := by
  constructor
  · intro h
    refine ⟨fun as a bs b cs hls => h as a bs b (cs ++ [l]) (by simp [hls]), ?_⟩
    rintro hl ⟨as, a, bs, rfl, ha, hbs⟩
    obtain ⟨j, hj, hjoin⟩ := h as a bs l [] (by simp) ha hl
    exact hbs j hj hjoin
  · rintro ⟨hls, hl⟩ as a bs b cs h ha hb
    by_contra hnone
    have hbs : ∀ j ∈ bs, event j ≠ some .join := fun j hj hjoin => hnone ⟨j, hj, hjoin⟩
    obtain ⟨-, -, hnil⟩ | ⟨ds, hds, rfl⟩ := concat_eq_append_cons h
    · simp at hnil
    · obtain ⟨rfl, rfl, -⟩ | ⟨es, -, rfl⟩ := concat_eq_append_cons hds.symm
      · exact hl hb ⟨as, a, _, rfl, ha, hbs⟩
      · exact hnone (hls as a bs b es rfl ha hb)

/-- Every step takes the step of the loop that its label names. -/
def Labels (step : σ → L → Option σ) (loop : σ → Loop) (event : L → Option Event) : Prop :=
  ∀ ⦃s l t⦄, step s l = some t →
    match event l with
    | none => loop t = loop s
    | some e => (loop s).step e = some (loop t)

/-- **The process survives exactly** the runs with a join between any two assignments. -/
theorem Labels.terminated_iff {step : σ → L → Option σ} {loop : σ → Loop} (h : Labels step loop event) {s t : σ}
    {ls : List L} (hrun : Run (ofFun step) s ls t) (hloop : loop s = .new) :
    (loop t).terminated = false ↔ Alternates event ls := by
  have hboth : ((loop t).terminated = false ↔ Alternates event ls) ∧
      ((loop t).terminated = false → ((loop t).thread ≠ .none ↔ Pending event ls)) := by
    induction hrun with
    | nil =>
      rw [hloop]
      exact ⟨iff_of_true rfl alternates_nil, fun _ => iff_of_false (by simp [Loop.new]) not_pending_nil⟩
    | @snoc u v ls l run hstep ih =>
      obtain ⟨ihterminated, ihpending⟩ := ih
      rw [alternates_concat, pending_concat, ← ihterminated]
      have hlabel := h hstep
      cases hevent : event l with
      | none =>
        rw [hevent] at hlabel
        rw [hlabel]
        simpa using ihpending
      | some e =>
        rw [hevent] at hlabel
        obtain ⟨halive, hstepped⟩ := Loop.step_cases hlabel
        have hpending := ihpending halive
        generalize loop v = l' at hstepped
        cases hstepped with
        | crash hthread => simp [hpending.mp hthread]
        | assign hthread => simp [halive, ← hpending, hthread]
        | leave hthread hstopped => simp [halive, ← hpending, hthread]
        | enter hthread hstopped => simp [halive, ← hpending, hthread]
        | finish hthread => simp [halive, ← hpending, hthread]
        | join hthread => simp [halive]
        | skip hthread => simp [halive, hthread]
  exact hboth.1

end Alternation

end RunLoop
