import Communique.Lifecycle.Restart

/-!
# `stop` and the connections that open meanwhile

`stop` tells the connections that are registered when its loop runs to close. A handshake that is in progress
then can still complete, and `on_open` tells nobody anything.

* `ToldToClose` : while `stop` waits in its join, every open connection has been told to close;
* `Quiet` : nothing is open and nothing can open any more; `Quiet.ioStep` : the io thread keeps it;
* `Sound` : what holds in every life; `Settled` : the invariant of the lives in which no loop of `stop` finds
  a handshake in progress;
* **`toldToClose_iff`** : the lives and the calls of `stop` for which all connections are told to close.
-/

namespace Communique.Server
open RunLoop Transition

variable {I R H : Type}

/-- While `stop` waits in its join, every open connection has been told to close. -/
def ToldToClose (s : Server I R H) : Prop :=
  ∀ next, s.caller = .joining next → ∀ c ∈ s.currentConnections, c.state = .open → c.toldToClose = true

/-! ## Nothing can open any more -/

/-- Nothing is open, and no accept or handshake is under way. -/
structure Quiet (s : Server I R H) : Prop where
  accepting : s.accepting = false
  handshaking : s.handshaking = []
  connections : ∀ c ∈ s.currentConnections, c.state ≠ .open

theorem Quiet.toldToClose {s : Server I R H} (h : s.Quiet) : s.ToldToClose := by
  intro next hjoining c hc hopen
  exact absurd hopen (h.connections c hc)

theorem state_close (c : ServerConnection I R H) : c.close.state ≠ .open := by
  unfold ServerConnection.close
  split
  · simp
  · next hopen => exact hopen

theorem quiet_closeAll {s : Server I R H} (haccepting : s.accepting = false) (hhandshaking : s.handshaking = []) :
    s.closeAll.Quiet where
  accepting := haccepting
  handshaking := hhandshaking
  connections c hc := by
    obtain ⟨d, -, rfl⟩ := List.mem_map.mp hc
    exact state_close d

theorem Quiet.ioStep {s t : Server I R H} {a : Action I R} (hs : s.Quiet) (h : s.ioStep a = some t) : t.Quiet := by
  cases a with
  | accept =>
    obtain ⟨haccepting, -⟩ := Option.ite_none_right_eq_some.mp h
    rw [hs.accepting] at haccepting
    cases haccepting
  | handshakeFailed hdl =>
    obtain ⟨hmem, -⟩ := Option.ite_none_right_eq_some.mp h
    simp [hs.handshaking] at hmem
  | on_open hdl =>
    obtain ⟨hmem, -⟩ := Option.ite_none_right_eq_some.mp h
    simp [hs.handshaking] at hmem
  | closing hdl =>
    obtain rfl := Option.some.inj h
    refine ⟨hs.accepting, hs.handshaking, fun c hc => ?_⟩
    obtain ⟨d, hd, rfl⟩ := List.mem_map.mp hc
    have hopen := hs.connections d hd
    simp [hopen]
  | on_close hdl =>
    obtain ⟨-, h⟩ := Option.ite_none_left_eq_some.mp h
    obtain rfl := Option.some.inj h
    exact ⟨hs.accepting, hs.handshaking, fun c hc => hs.connections c (List.mem_of_mem_eraseP hc)⟩
  | _ => cases h

/-- Until `stop` has joined the io thread, all stays quiet. -/
theorem Quiet.step {s t : Server I R H} {a : Action I R} {next : Option ListenCall} (hs : s.Quiet)
    (hjoining : s.caller = .joining next) (h : s.step a = some t) (ha : a ≠ .join) :
    t.caller = .joining next ∧ t.Quiet := by
  cases step_cases h with
  | call hcaller =>
    rw [hjoining] at hcaller
    cases hcaller
  | closeAll hcaller =>
    rw [hjoining] at hcaller
    cases hcaller
  | join hcaller hloop => exact absurd rfl ha
  | start hcaller hstarted =>
    rw [hjoining] at hcaller
    cases hcaller
  | enter hloop => exact ⟨hjoining, hs.accepting, hs.handshaking, hs.connections⟩
  | finish hwork hloop => exact ⟨hjoining, hs.accepting, hs.handshaking, hs.connections⟩
  | io hrunning h =>
    refine ⟨?_, hs.ioStep h⟩
    rw [(ioStep_frame h).caller]
    exact hjoining

/-! ## What holds in every life -/

/-- Only a running io thread has handshakes in progress. -/
structure Sound (s : Server I R H) : Prop where
  guarded : s.Guarded
  closed : s.Closed
  handshaking : s.handshaking ≠ [] → s.loop.thread = .running

theorem sound_new : Sound (new : Server I R H) where
  guarded := guarded_new
  closed := closed_new
  handshaking h := absurd rfl h

theorem call_handshaking (s : Server I R H) (c : Call I R) : (s.call c).handshaking = s.handshaking := by
  cases c with
  | listen attempt =>
    unfold call
    dsimp only
    split <;> rfl
  | _ => rfl

theorem handshaking_step {s t : Server I R H} {a : Action I R} (hs : s.Sound) (h : s.step a = some t)
    (ht : t.handshaking ≠ []) : t.loop.thread = .running := by
  cases step_cases h with
  | call hcaller =>
    rw [call_handshaking] at ht
    rw [call_loop]
    exact hs.handshaking ht
  | closeAll hcaller => exact hs.handshaking ht
  | join hcaller hloop => exact absurd (hs.handshaking ht) (Loop.thread_ne_running hloop (Or.inr rfl))
  | start hcaller hstarted =>
    cases hstarted with
    | refused h => exact hs.handshaking ht
    | badFile => exact hs.handshaking ht
    | noThread => exact hs.handshaking ht
    | started hlistening hport hfile hthread hloop =>
      have hrunning := hs.handshaking ht
      rw [hs.guarded.guard _ hcaller] at hrunning
      cases hrunning
  | enter hloop => exact absurd (hs.handshaking ht) (Loop.thread_ne_running hloop (Or.inl rfl))
  | finish hwork hloop => exact absurd hwork.2.1 ht
  | io hrunning h =>
    rw [(ioStep_frame h).loop]
    exact hrunning

theorem Sound.step {s t : Server I R H} {a : Action I R} (hs : s.Sound) (h : s.step a = some t) : t.Sound where
  guarded := hs.guarded.step h
  closed := hs.closed.step h
  handshaking := handshaking_step hs h

theorem sound {actions : List (Action I R)} {s : Server I R H} (h : Run (ofFun step) new actions s) : s.Sound :=
  h.invariant (fun hs hstep => hs.step hstep) sound_new

/-! ## Lives in which no loop finds a handshake in progress -/

/-- All is quiet while `stop` waits in its join. -/
def Settled (s : Server I R H) : Prop := ∀ next, s.caller = .joining next → s.Quiet

theorem Settled.toldToClose {s : Server I R H} (h : s.Settled) : s.ToldToClose :=
  fun next hjoining => (h next hjoining).toldToClose next hjoining

theorem call_caller_ne_joining {s : Server I R H} {c : Call I R} {next : Option ListenCall}
    (hidle : s.caller = .idle) : (s.call c).caller ≠ .joining next := by
  cases c with
  | listen call =>
    unfold Server.call
    dsimp only
    split <;> simp
  | stop => simp [Server.call]
  | _ =>
    show s.caller ≠ .joining next
    simp [hidle]

theorem Settled.step {s t : Server I R H} {a : Action I R} (hs : s.Settled) (hsound : s.Sound)
    (h : s.step a = some t) (hloop : a = .closeAll → s.handshaking = []) : t.Settled := by
  intro next ht
  cases step_cases h with
  | call hcaller => exact absurd ht (call_caller_ne_joining hcaller)
  | @closeAll next hcaller =>
    obtain ⟨h1, h2, h3⟩ := quiet_closeAll (hsound.closed ⟨next, Or.inl hcaller⟩).2 (hloop rfl)
    exact ⟨h1, h2, h3⟩
  | join hcaller hloop => exact absurd (Or.inr ht) (not_stopping_afterStop _ next)
  | start hcaller hstarted =>
    rw [hstarted.caller] at ht
    cases ht
  | enter hloop => exact ((hs next ht).step ht h (by simp)).2
  | finish hwork hloop => exact ((hs next ht).step ht h (by simp)).2
  | io hrunning h =>
    rw [(ioStep_frame h).caller] at ht
    exact (hs next ht).ioStep h

/-! ## Whole lives -/

theorem settled {actions : List (Action I R)} {s : Server I R H} (h : Run (ofFun step) new actions s)
    (hloop : ∀ u v, Takes (ofFun step) new actions s u .closeAll v → u.handshaking = []) : s.Settled := by
  refine h.invariant_takes (fun next h => (by cases h)) ?_
  intro u a v htakes hu
  obtain ⟨as, bs, -, has, hstep, -⟩ := id htakes
  refine hu.step (sound has) hstep ?_
  rintro rfl
  exact hloop u v htakes

/-- Until its join, all stays quiet. -/
theorem Quiet.run {s t : Server I R H} {later : List (Action I R)} {next : Option ListenCall} (hs : s.Quiet)
    (hjoining : s.caller = .joining next) (h : Run (ofFun Server.step) s later t) (hlater : .join ∉ later) :
    t.Quiet := by
  have hboth : t.caller = .joining next ∧ t.Quiet := by
    refine h.invariant_on (P := fun u => u.caller = .joining next ∧ u.Quiet) (Q := fun a => a ≠ .join) ?_ ?_
      ⟨hjoining, hs⟩
    · rintro u a v ⟨hu, hquiet⟩ ha hstep
      exact hquiet.step hu hstep ha
    · rintro a ha rfl
      exact hlater ha
  exact hboth.2

/-- The handshake `hdl` completes after the loop of `stop`. -/
theorem not_toldToClose {s : Server I R H} {next : Option ListenCall} {hdl : Nat} (hs : s.Sound)
    (hcaller : s.caller = .closing next) (hhdl : hdl ∈ s.handshaking) :
    ∃ t, Run (ofFun step) s [.closeAll, .on_open hdl] t ∧ ¬ t.ToldToClose := by
  have hrunning := hs.handshaking (List.ne_nil_of_mem hhdl)
  have hclose : s.step .closeAll = some { s.closeAll with caller := .joining next } := by
    simp [step, hs.guarded.alive, hcaller]
  have hopen : step { s.closeAll with caller := .joining next } (.on_open hdl) = some
      ({ s.closeAll with
        caller := .joining next
        handshaking := s.handshaking.erase hdl }.on_open hdl) := by
    simp [step, closeAll, ioStep, hs.guarded.alive, hrunning, hhdl]
  refine ⟨_, run_of_exec (by rw [exec, hclose, Option.bind_some, exec, hopen]; rfl), ?_⟩
  intro htold
  have := htold next rfl ⟨hdl, .open, false, _⟩ (List.mem_append_right _ (List.mem_singleton_self _)) rfl
  cases this

/-- **`stop` tells every connection to close** in every life in which no loop of `stop` finds a handshake in
progress; and whatever the steps until the join, those that are open by then have been told to close exactly if
the loop finds none. -/
theorem toldToClose_iff :
    (∀ actions (s : Server I R H), Run (ofFun step) new actions s →
      (∀ u v, Takes (ofFun step) new actions s u .closeAll v → u.handshaking = []) →
        ∀ t, Passes (ofFun step) new actions s t → t.ToldToClose) ∧
    ∀ actions (s : Server I R H) next, Run (ofFun step) new actions s → s.caller = .closing next →
      ((∀ later t, .join ∉ later → Run (ofFun step) s (.closeAll :: later) t → t.ToldToClose) ↔
        s.handshaking = []) := by
  refine ⟨?_, fun actions s next h hcaller => ⟨fun htold => ?_, fun hhandshaking later t hlater hrun => ?_⟩⟩
  · rintro actions s h hloop t ⟨as, bs, rfl, has, hbs⟩
    refine (settled has fun u v htakes => ?_).toldToClose
    exact hloop u v (htakes.append hbs)
  · by_contra hne
    obtain ⟨hdl, hhdl⟩ := List.exists_mem_of_ne_nil s.handshaking hne
    obtain ⟨t, hrun, hnot⟩ := not_toldToClose (sound h) hcaller hhdl
    exact hnot (htold [.on_open hdl] t (by simp) hrun)
  · have haccepting := ((sound h).closed ⟨next, Or.inl hcaller⟩).2
    obtain ⟨u, hstep, hrest⟩ := hrun.exists_of_cons
    cases step_cases hstep with
    | @closeAll next hcaller =>
      obtain ⟨h1, h2, h3⟩ := quiet_closeAll haccepting hhandshaking
      have hquiet : Quiet { s.closeAll with caller := .joining next } := ⟨h1, h2, h3⟩
      exact (hquiet.run rfl hrest hlater).toldToClose
    | io hrunning h => cases h

/-- A client has completed its handshake after the loop: it is open, and nobody has told it to close. -/
theorem stop_during_handshake :
    ∃ s : Server Unit Unit Unit,
      exec step new [.call (.listen goodCall), .start, .enter, .accept, .call .stop, .closeAll, .on_open 0] =
        some s ∧ s.caller = .joining none ∧
          s.currentConnections.map (fun c => (c.state, c.toldToClose)) = [(.open, false)] ∧ ¬ s.ToldToClose := by
  refine ⟨_, rfl, rfl, rfl, fun htold => ?_⟩
  have := htold none rfl ⟨0, .open, false, _⟩ (List.mem_singleton_self _) rfl
  cases this

/-- A client has completed its handshake, and `stop` is before its loop. -/
def openedBefore : Server Unit Unit Unit where
  listening := false
  accepting := false
  tlsHandler := .new
  defaultInfoHandler := none
  defaultRequestHandler := none
  loop := ⟨.running, false, false⟩
  handshaking := []
  nextHdl := 1
  currentConnections := [⟨0, .open, false, Connection.new none none⟩]
  caller := .closing none
  results := [.ok true]

/-- The loop tells that client to close, whatever comes later. -/
theorem stop_after_handshake :
    ¬ ∃ later t, .join ∉ later ∧ Run (ofFun step) openedBefore (.closeAll :: later) t ∧ ¬ t.ToldToClose := by
  rintro ⟨later, t, hlater, hrun, hnot⟩
  have hreached : exec step new [.call (.listen goodCall), .start, .enter, .accept, .on_open 0, .call .stop] =
      some openedBefore := rfl
  exact hnot ((toldToClose_iff.2 _ _ none (run_of_exec hreached) rfl).mpr rfl later t hlater hrun)

end Communique.Server
