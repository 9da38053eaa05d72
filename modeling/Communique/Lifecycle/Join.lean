import Communique.Lifecycle.Stop

/-!
# Whether `stop` returns

`stop` joins the io thread, which stays in `run` as long as there is a handshake in progress or a connection. It comes
to an end of its own accord if every handshake is over at some time and every connection that is closing is closed at
some time; a connection that is open is closed by its peer or not at all.

* `GoesOn`, `Goes` : the steps that need no decision of a peer or of the user; `joinWeight`, `weight_goes` : how many of
  them are left at most;
* `Leaving` : nothing keeps the io thread from its end; `Leaving.goes` : this stays so until the join;
* `Held` : an open connection keeps it in `run`; `Held.goes` : this stays so for ever;
* **`stop_returns_iff`** : when `stop` returns of its own accord;
* `Stopped`, **`nothing_after_stop`** : what is left when it has returned.
-/

namespace Communique.Server
open RunLoop Transition

variable {I R H : Type} {s t : Server I R H} {a : Action I R}

/-! ## What goes on of its own accord -/

/-- The rest of `stop`, the end of a handshake, the end of a connection that is closing, and the end of the thread. -/
def GoesOn (s : Server I R H) : Action I R → Prop
  | .closeAll => True
  | .join => True
  | .enter => True
  | .finish => True
  | .handshakeFailed _ => True
  | .on_open _ => True
  | .on_close hdl => ∃ c, s.currentConnections.find? (fun c => c.hdl = hdl) = some c ∧ c.state = .closing
  | _ => False

def Goes (s : Server I R H) (a : Action I R) (t : Server I R H) : Prop := s.GoesOn a ∧ s.step a = some t

def callerWeight : Caller → Nat
  | .closing _ => 2
  | .joining _ => 1
  | _ => 0

def threadWeight : Thread → Nat
  | .started => 2
  | .running => 1
  | _ => 0

def joinWeight (s : Server I R H) : Nat :=
  callerWeight s.caller + threadWeight s.loop.thread + 2 * s.handshaking.length + s.currentConnections.length

theorem weight_afterStop (next : Option ListenCall) : callerWeight (afterStop next) = 0 := by
  cases next <;> rfl

theorem threadWeight_step {l l' : Loop} {e : Event} (h : l.step e = some l') (he : e ≠ .assign) :
    threadWeight l'.thread ≤ threadWeight l.thread ∧
      (e = .enter ∨ e = .finish → threadWeight l'.thread < threadWeight l.thread) := by
  obtain ⟨-, hstepped⟩ := Loop.step_cases h
  cases hstepped with
  | crash => exact absurd rfl he
  | assign => exact absurd rfl he
  | leave hthread hs => simp [hthread, threadWeight]
  | enter hthread hs => simp [hthread, threadWeight]
  | finish hthread => simp [hthread, threadWeight]
  | join hthread => simp [hthread, threadWeight]
  | skip hthread => simp

theorem length_on_close {hdl : Nat} {c : ServerConnection I R H}
    (h : s.currentConnections.find? (fun c => c.hdl = hdl) = some c) :
    (s.on_close hdl).currentConnections.length + 1 = s.currentConnections.length := by
  have hmem := List.mem_of_find?_eq_some h
  have hhdl : decide (c.hdl = hdl) = true := by simpa using List.find?_some h
  have hpos := List.length_pos_of_mem hmem
  show (s.currentConnections.eraseP fun c => c.hdl = hdl).length + 1 = _
  rw [List.length_eraseP_of_mem hmem hhdl]
  omega

/-- Each of these steps takes something off. -/
theorem weight_goes (h : Goes s a t) : t.joinWeight < s.joinWeight := by
  obtain ⟨hgoes, hstep⟩ := h
  unfold joinWeight
  cases step_cases hstep with
  | call hcaller => exact hgoes.elim
  | closeAll hcaller =>
    rw [hcaller]
    simp [callerWeight, closeAll]
  | join hcaller hloop =>
    have hthread := (threadWeight_step hloop (by simp)).1
    rw [hcaller]
    dsimp only
    rw [weight_afterStop]
    simp only [callerWeight]
    omega
  | start hcaller hstarted => exact hgoes.elim
  | enter hloop =>
    have hthread := (threadWeight_step hloop (by simp)).2 (Or.inl rfl)
    dsimp only
    omega
  | finish hwork hloop =>
    have hthread := (threadWeight_step hloop (by simp)).2 (Or.inr rfl)
    dsimp only
    omega
  | io hrunning h =>
    have hframe := ioStep_frame h
    rw [hframe.loop, hframe.caller]
    cases a with
    | handshakeFailed hdl =>
      obtain ⟨hmem, h⟩ := Option.ite_none_right_eq_some.mp h
      cases h
      have hlength := List.length_erase_of_mem hmem
      have hpos := List.length_pos_of_mem hmem
      dsimp only
      omega
    | on_open hdl =>
      obtain ⟨hmem, h⟩ := Option.ite_none_right_eq_some.mp h
      cases h
      have hlength := List.length_erase_of_mem hmem
      have hpos := List.length_pos_of_mem hmem
      simp only [on_open, List.length_append, List.length_singleton]
      omega
    | on_close hdl =>
      obtain ⟨-, h⟩ := Option.ite_none_left_eq_some.mp h
      cases h
      obtain ⟨c, hc, -⟩ := hgoes
      have hlength := length_on_close hc
      show _ + _ + 2 * s.handshaking.length + _ < _
      omega
    | accept => exact hgoes.elim
    | closing hdl => exact hgoes.elim
    | _ => cases h

/-! ## The connections of the list -/

/-- The list holds connections that are open or closing. -/
def Registered (s : Server I R H) : Prop := ∀ c ∈ s.currentConnections, c.state = .open ∨ c.state = .closing

theorem call_currentConnections (s : Server I R H) (c : Call I R) :
    (s.call c).currentConnections = s.currentConnections := by
  cases c with
  | listen call =>
    unfold Server.call
    dsimp only
    split <;> rfl
  | _ => rfl

theorem Registered.ioStep (hs : s.Registered) (h : s.ioStep a = some t) : t.Registered := by
  cases a with
  | accept =>
    obtain ⟨-, h⟩ := Option.ite_none_right_eq_some.mp h
    cases h
    exact hs
  | handshakeFailed hdl =>
    obtain ⟨-, h⟩ := Option.ite_none_right_eq_some.mp h
    cases h
    exact hs
  | on_open hdl =>
    obtain ⟨-, h⟩ := Option.ite_none_right_eq_some.mp h
    cases h
    intro c hc
    rcases List.mem_append.mp hc with hc | hc
    · exact hs c hc
    · rw [List.mem_singleton.mp hc]
      exact Or.inl rfl
  | closing hdl =>
    cases h
    intro c hc
    obtain ⟨d, hd, rfl⟩ := List.mem_map.mp hc
    split
    · exact Or.inr rfl
    · exact hs d hd
  | on_close hdl =>
    obtain ⟨-, h⟩ := Option.ite_none_left_eq_some.mp h
    cases h
    exact fun c hc => hs c (List.mem_of_mem_eraseP hc)
  | _ => cases h

theorem Registered.step (hs : s.Registered) (h : s.step a = some t) : t.Registered := by
  cases step_cases h with
  | call hcaller =>
    intro c hc
    rw [call_currentConnections] at hc
    exact hs c hc
  | closeAll hcaller =>
    intro c hc
    obtain ⟨d, hd, rfl⟩ := List.mem_map.mp hc
    unfold ServerConnection.close
    split
    · exact Or.inr rfl
    · exact hs d hd
  | join hcaller hloop => exact hs
  | start hcaller hstarted => cases hstarted <;> exact hs
  | enter hloop => exact hs
  | finish hwork hloop => exact hs
  | io hrunning h => exact hs.ioStep h

theorem registered {actions : List (Action I R)} (h : Run (ofFun step) new actions s) : s.Registered :=
  h.invariant (P := Registered) (fun hs hstep => hs.step hstep) fun c hc => by cases hc

/-! ## A stop that nothing holds up -/

/-- Before its loop there is no handshake in progress, and behind it all is quiet. -/
def Leaving (next : Option ListenCall) (s : Server I R H) : Prop :=
  s.caller = .closing next ∧ s.accepting = false ∧ s.handshaking = [] ∨ s.caller = .joining next ∧ s.Quiet ∨
    s.caller = afterStop next

theorem handshaking_ioStep (haccepting : s.accepting = false) (hhandshaking : s.handshaking = [])
    (h : s.ioStep a = some t) : t.handshaking = [] := by
  cases a with
  | accept =>
    rw [ioStep, haccepting] at h
    cases h
  | handshakeFailed hdl =>
    rw [ioStep, hhandshaking] at h
    cases h
  | on_open hdl =>
    rw [ioStep, hhandshaking] at h
    cases h
  | closing hdl =>
    cases h
    exact hhandshaking
  | on_close hdl =>
    obtain ⟨-, h⟩ := Option.ite_none_left_eq_some.mp h
    cases h
    exact hhandshaking
  | _ => cases h

/-- The thread handle and the io service are not looked at. -/
theorem Leaving.withLoop {next : Option ListenCall} (hs : s.Leaving next) (loop : Loop) :
    Leaving next { s with loop := loop } := by
  rcases hs with hclosing | ⟨hjoining, hquiet⟩ | hafter
  · exact Or.inl hclosing
  · exact Or.inr (Or.inl ⟨hjoining, hquiet.accepting, hquiet.handshaking, hquiet.connections⟩)
  · exact Or.inr (Or.inr hafter)

theorem Leaving.goes {next : Option ListenCall} (hs : s.Leaving next) (h : Goes s a t) : t.Leaving next := by
  obtain ⟨hgoes, hstep⟩ := h
  cases step_cases hstep with
  | call hcaller => exact hgoes.elim
  | start hcaller hstarted => exact hgoes.elim
  | enter hloop => exact hs.withLoop _
  | finish hwork hloop => exact hs.withLoop _
  | @closeAll next' hcaller =>
    rcases hs with ⟨hclosing, haccepting, hhandshaking⟩ | ⟨hjoining, -⟩ | hafter
    · rw [hclosing] at hcaller
      cases hcaller
      have hquiet := quiet_closeAll haccepting hhandshaking
      exact Or.inr (Or.inl ⟨rfl, hquiet.accepting, hquiet.handshaking, hquiet.connections⟩)
    · rw [hjoining] at hcaller
      cases hcaller
    · rw [hafter] at hcaller
      exact absurd (Or.inl hcaller) (not_stopping_afterStop next next')
  | @join next' loop hcaller hloop =>
    rcases hs with ⟨hclosing, -⟩ | ⟨hjoining, -⟩ | hafter
    · rw [hclosing] at hcaller
      cases hcaller
    · rw [hjoining] at hcaller
      cases hcaller
      exact Or.inr (Or.inr rfl)
    · rw [hafter] at hcaller
      exact absurd (Or.inr hcaller) (not_stopping_afterStop next next')
  | io hrunning h =>
    have hframe := ioStep_frame h
    rcases hs with ⟨hclosing, haccepting, hhandshaking⟩ | ⟨hjoining, hquiet⟩ | hafter
    · exact Or.inl ⟨hframe.caller.trans hclosing, hframe.accepting.trans haccepting,
        handshaking_ioStep haccepting hhandshaking h⟩
    · exact Or.inr (Or.inl ⟨hframe.caller.trans hjoining, hquiet.ioStep h⟩)
    · exact Or.inr (Or.inr (hframe.caller.trans hafter))

/-- As long as the io thread is in `run`, a connection is closed or the thread ends. -/
theorem running_goes (hs : s.Sound) (hregistered : s.Registered) (hquiet : s.Quiet) (hrunning : s.loop.thread = .running) :
    ∃ a t, Goes s a t := by
  cases hconnections : s.currentConnections with
  | nil =>
    have hwork : s.OutOfWork := ⟨hquiet.accepting, hquiet.handshaking, by simp [hconnections]⟩
    obtain ⟨loop, hloop⟩ : ∃ loop, s.loop.step .finish = some loop := by
      rw [Loop.step, hs.guarded.alive, hrunning]
      exact ⟨_, rfl⟩
    exact ⟨.finish, { s with loop := loop }, trivial, by simp [step, hs.guarded.alive, hwork, hloop]⟩
  | cons c rest =>
    have hmem : c ∈ s.currentConnections := by simp [hconnections]
    have hclosing : c.state = .closing := (hregistered c hmem).resolve_left (hquiet.connections c hmem)
    refine ⟨.on_close c.hdl, s.on_close c.hdl, ⟨c, by simp [hconnections], hclosing⟩, ?_⟩
    simp [step, ioStep, hs.guarded.alive, hrunning, hquiet.handshaking]

/-- Until `stop` has returned something goes on. -/
theorem Leaving.goes_on {next : Option ListenCall} (hs : s.Sound) (hregistered : s.Registered) (h : s.Leaving next)
    (hcaller : s.caller ≠ afterStop next) : ∃ a t, Goes s a t := by
  have halive := hs.guarded.alive
  rcases h with ⟨hclosing, -⟩ | ⟨hjoining, hquiet⟩ | hafter
  · exact ⟨.closeAll, { s.closeAll with caller := .joining next }, trivial, by simp [step, halive, hclosing]⟩
  · cases hthread : s.loop.thread with
    | running => exact running_goes hs hregistered hquiet hthread
    | started =>
      obtain ⟨loop, hloop⟩ : ∃ loop, s.loop.step .enter = some loop := by
        rw [Loop.step, halive, hthread]
        exact ⟨_, rfl⟩
      exact ⟨.enter, { s with loop := loop }, trivial, by simp [step, halive, hloop]⟩
    | _ =>
      obtain ⟨loop, hloop⟩ : ∃ loop, s.loop.step .join = some loop := by
        rw [Loop.step, halive, hthread]
        exact ⟨_, rfl⟩
      exact ⟨.join, { s with loop := loop, caller := afterStop next }, trivial, by
        simp [step, halive, hjoining, hloop]⟩
  · exact absurd hafter hcaller

/-! ## A stop that an open connection holds up -/

/-- An open connection keeps the io thread in `run`, and `stop` in its join. -/
structure Held (next : Option ListenCall) (s : Server I R H) : Prop where
  caller : s.caller = .joining next
  running : s.loop.thread = .running
  connection : ∃ c ∈ s.currentConnections, c.state = .open

/-- The connection that is closed is another one. -/
theorem open_on_close {hdl : Nat} {c : ServerConnection I R H}
    (hfind : s.currentConnections.find? (fun c => c.hdl = hdl) = some c) (hclosing : c.state = .closing)
    (h : ∃ d ∈ s.currentConnections, d.state = .open) : ∃ d ∈ (s.on_close hdl).currentConnections, d.state = .open := by
  obtain ⟨d, hd, hopen⟩ := h
  obtain ⟨hhdl, before, after, hsplit, hbefore⟩ := List.find?_eq_some_iff_append.mp hfind
  refine ⟨d, ?_, hopen⟩
  have herase : (s.on_close hdl).currentConnections = before ++ after := by
    show (s.currentConnections.eraseP fun c => c.hdl = hdl) = _
    rw [hsplit, List.eraseP_append_right _ (by simpa using hbefore), List.eraseP_cons, hhdl]
    rfl
  rw [hsplit] at hd
  rw [herase]
  rcases List.mem_append.mp hd with hd | hd
  · exact List.mem_append_left _ hd
  · rcases List.mem_cons.mp hd with rfl | hd
    · rw [hopen] at hclosing
      cases hclosing
    · exact List.mem_append_right _ hd

theorem Held.goes {next : Option ListenCall} (hs : s.Held next) (h : Goes s a t) : t.Held next := by
  obtain ⟨hgoes, hstep⟩ := h
  have hcaller := hs.caller
  have hrunning := hs.running
  cases step_cases hstep with
  | call hidle => exact hgoes.elim
  | start hstarting hstarted => exact hgoes.elim
  | closeAll hclosing =>
    rw [hcaller] at hclosing
    cases hclosing
  | join hjoining hloop => exact absurd hrunning (Loop.thread_ne_running hloop (Or.inr rfl))
  | enter hloop => exact absurd hrunning (Loop.thread_ne_running hloop (Or.inl rfl))
  | finish hwork hloop =>
    obtain ⟨c, hc, -⟩ := hs.connection
    rw [List.isEmpty_iff.mp hwork.2.2] at hc
    cases hc
  | io _ h =>
    have hframe := ioStep_frame h
    refine ⟨hframe.caller.trans hcaller, by rw [hframe.loop]; exact hrunning, ?_⟩
    cases a with
    | handshakeFailed hdl =>
      obtain ⟨-, h⟩ := Option.ite_none_right_eq_some.mp h
      cases h
      exact hs.connection
    | on_open hdl =>
      obtain ⟨-, h⟩ := Option.ite_none_right_eq_some.mp h
      cases h
      obtain ⟨c, hc, hopen⟩ := hs.connection
      exact ⟨c, List.mem_append_left _ hc, hopen⟩
    | on_close hdl =>
      obtain ⟨-, h⟩ := Option.ite_none_left_eq_some.mp h
      cases h
      obtain ⟨c, hfind, hclosing⟩ := hgoes
      exact open_on_close hfind hclosing hs.connection
    | accept => exact hgoes.elim
    | closing hdl => exact hgoes.elim
    | _ => cases h

/-- A handshake completes right after the loop. -/
theorem held_of_handshaking {next : Option ListenCall} (hs : s.Sound) (hcaller : s.caller = .closing next)
    (hhandshaking : s.handshaking ≠ []) : ∃ actions t, Run Goes s actions t ∧ t.Held next := by
  obtain ⟨hdl, hhdl⟩ := List.exists_mem_of_ne_nil s.handshaking hhandshaking
  have hrunning := hs.handshaking hhandshaking
  have hclose : Goes s .closeAll { s.closeAll with caller := .joining next } :=
    ⟨trivial, by simp [step, hs.guarded.alive, hcaller]⟩
  have hopen : Goes { s.closeAll with caller := .joining next } (.on_open hdl)
      ({ s.closeAll with
        caller := .joining next
        handshaking := s.handshaking.erase hdl }.on_open hdl) :=
    ⟨trivial, by simp [step, closeAll, ioStep, hs.guarded.alive, hrunning, hhdl]⟩
  exact ⟨_, _, Run.cons hclose (Run.cons hopen (Run.nil _)), rfl, hrunning, _,
    List.mem_append_right _ (List.mem_singleton_self _), rfl⟩

/-! ## When `stop` returns -/

/-- **`stop` returns of its own accord exactly when its loop finds no handshake in progress.** Whatever it finds, the
steps that need no decision of a peer are at most as many as the weight. Without a handshake, wherever they have come to
an end the call is over. With one, they may come to an end in which `stop` waits for a client that nobody told to close. -/
theorem stop_returns_iff {actions : List (Action I R)} {next : Option ListenCall} (h : Run (ofFun step) new actions s)
    (hcaller : s.caller = .closing next) :
    (∀ later t, Run Goes s later t → later.length ≤ s.joinWeight) ∧
      ((∀ later t, Run Goes s later t → (∀ a u, ¬ Goes t a u) → t.caller = afterStop next) ↔ s.handshaking = []) := by
  have hlower : ∀ {s : Server I R H} {a t}, True → Goes s a t → t.joinWeight < s.joinWeight := fun _ hgoes =>
    weight_goes hgoes
  have hsound := sound h
  refine ⟨fun later t hrun => ?_, fun hreturns => ?_, fun hhandshaking later t hrun hend => ?_⟩
  · have := hrun.length_add_weight_le (Q := fun _ => True) (fun _ _ => trivial) hlower
    omega
  · by_contra hne
    obtain ⟨before, u, hbefore, hheld⟩ := held_of_handshaking hsound hcaller hne
    have hkeep : ∀ {s : Server I R H} {a t}, s.Held next → Goes s a t → t.Held next := fun hs hgoes => hs.goes hgoes
    have hgo : ∀ {s : Server I R H}, s.Held next → ¬ (∀ a u, ¬ Goes s a u) → ∃ a u, True ∧ Goes s a u := by
      intro s _ hrest
      push Not at hrest
      simpa using hrest
    obtain ⟨after, t, -, hafter, hend⟩ : ∃ later t, (∀ a ∈ later, True) ∧ Run Goes u later t ∧ ∀ a v, ¬ Goes t a v :=
      exists_run_to_rest Goes hlower (fun ht _ hst => hkeep ht hst) hgo le_rfl hheld
    have hover := hreturns _ t (hbefore.append hafter) hend
    have hjoining := (hafter.invariant (P := fun t : Server I R H => t.Held next) hkeep hheld).caller
    exact not_stopping_afterStop next next (Or.inr (hover.symm.trans hjoining))
  · have hkeep : ∀ {s : Server I R H} {a t}, s.Sound ∧ s.Registered ∧ s.Leaving next → Goes s a t →
        t.Sound ∧ t.Registered ∧ t.Leaving next := fun hs hgoes =>
      ⟨hs.1.step hgoes.2, hs.2.1.step hgoes.2, hs.2.2.goes hgoes⟩
    have haccepting := (hsound.closed ⟨next, Or.inl hcaller⟩).2
    obtain ⟨ht, hregistered, hleaving⟩ := hrun.invariant (P := fun t : Server I R H =>
      t.Sound ∧ t.Registered ∧ t.Leaving next) hkeep
      ⟨hsound, registered h, Or.inl ⟨hcaller, haccepting, hhandshaking⟩⟩
    by_contra hnot
    obtain ⟨a, u, hgoes⟩ := hleaving.goes_on ht hregistered hnot
    exact hend a u hgoes

/-- A client that has completed its handshake before the loop: four steps at most, and the call is over. -/
theorem stop_returns_iff_opened_before :
    openedBefore.joinWeight = 4 ∧ ∀ later t, Run Goes openedBefore later t → (∀ a u, ¬ Goes t a u) → t.caller = .idle := by
  have hreached : exec step new [.call (.listen goodCall), .start, .enter, .accept, .on_open 0, .call .stop] =
      some openedBefore := rfl
  exact ⟨rfl, (stop_returns_iff (run_of_exec hreached) rfl).2.mpr rfl⟩

/-! ## After `stop` -/

/-- Connections are kept only while the io thread is in `run`. -/
def Busy (s : Server I R H) : Prop := s.currentConnections ≠ [] → s.loop.thread = .running

theorem Busy.step (hs : s.Busy) (hguarded : s.Guarded) (h : s.step a = some t) : t.Busy := by
  intro ht
  cases step_cases h with
  | call hcaller =>
    rw [call_currentConnections] at ht
    rw [call_loop]
    exact hs ht
  | closeAll hcaller => exact hs fun hnil => ht (by simp [closeAll, hnil])
  | join hcaller hloop => exact absurd (hs ht) (Loop.thread_ne_running hloop (Or.inr rfl))
  | start hcaller hstarted =>
    cases hstarted with
    | refused h => exact hs ht
    | badFile => exact hs ht
    | noThread => exact hs ht
    | started hlistening hport hfile hthread hloop =>
      have hrunning := hs ht
      rw [hguarded.guard _ hcaller] at hrunning
      cases hrunning
  | enter hloop => exact absurd (hs ht) (Loop.thread_ne_running hloop (Or.inl rfl))
  | finish hwork hloop => exact absurd (List.isEmpty_iff.mp hwork.2.2) ht
  | io hrunning h =>
    rw [(ioStep_frame h).loop]
    exact hrunning

theorem busy {actions : List (Action I R)} (h : Run (ofFun step) new actions s) : s.Busy := by
  have hboth := h.invariant (P := fun s : Server I R H => s.Guarded ∧ s.Busy)
    (fun hs hstep => ⟨hs.1.step hstep, hs.2.step hs.1 hstep⟩) ⟨guarded_new, fun h => absurd rfl h⟩
  exact hboth.2

/-- No thread, no port, no handshake and no connection. -/
structure Stopped (s : Server I R H) : Prop where
  thread : s.loop.thread = .none
  listening : s.listening = false
  accepting : s.accepting = false
  handshaking : s.handshaking = []
  currentConnections : s.currentConnections = []

theorem stopped_of_join {actions : List (Action I R)} (h : Run (ofFun step) new actions s)
    (hjoin : s.step .join = some t) : t.Stopped := by
  have hsound := sound h
  have hbusy := busy h
  cases step_cases hjoin with
  | @join next loop hcaller hloop =>
    have hidle := Loop.thread_ne_running hloop (Or.inr rfl)
    obtain ⟨hlistening, haccepting⟩ := hsound.closed ⟨next, Or.inr hcaller⟩
    refine ⟨Loop.thread_of_join hloop, hlistening, haccepting, ?_, ?_⟩
    · by_contra hne
      exact hidle (hsound.handshaking hne)
    · by_contra hne
      exact hidle (hbusy hne)
  | io _ h => cases h

theorem Stopped.call (hs : s.Stopped) (c : Call I R) : (s.call c).Stopped := by
  have hlistening : (s.call c).listening = false ∧ (s.call c).accepting = false := by
    cases c with
    | listen call =>
      unfold Server.call
      dsimp only
      split
      · exact ⟨rfl, rfl⟩
      · exact ⟨hs.listening, hs.accepting⟩
    | stop => exact ⟨rfl, rfl⟩
    | _ => exact ⟨hs.listening, hs.accepting⟩
  exact ⟨by rw [call_loop]; exact hs.thread, hlistening.1, hlistening.2,
    by rw [call_handshaking]; exact hs.handshaking, by rw [call_currentConnections]; exact hs.currentConnections⟩

theorem Stopped.step (hs : s.Stopped) (h : s.step a = some t) (ha : a ≠ .start) : t.Stopped := by
  cases step_cases h with
  | call hcaller => exact hs.call _
  | closeAll hcaller =>
    exact ⟨hs.thread, hs.listening, hs.accepting, hs.handshaking, by simp [closeAll, hs.currentConnections]⟩
  | join hcaller hloop =>
    exact ⟨Loop.thread_of_join hloop, hs.listening, hs.accepting, hs.handshaking, hs.currentConnections⟩
  | start hcaller hstarted => exact absurd rfl ha
  | enter hloop => exact absurd hs.thread (Loop.thread_ne_none hloop (Or.inl rfl)).1
  | finish hwork hloop => exact absurd hs.thread (Loop.thread_ne_none hloop (Or.inr rfl)).1
  | io hrunning h =>
    rw [hs.thread] at hrunning
    cases hrunning

/-- **When `stop` has returned nothing is left**, in every life, and nothing comes back before `listen` is behind its
guard: no thread, no port, no handshake and no connection, whatever is called and whatever the network does. -/
theorem nothing_after_stop {actions later : List (Action I R)} {u : Server I R H}
    (h : Run (ofFun step) new actions s) (hjoin : s.step .join = some t) (hlater : Run (ofFun step) t later u)
    (hstart : .start ∉ later) : u.Stopped := by
  refine hlater.invariant_on (P := Stopped) (Q := fun a => a ≠ .start) (fun hs ha hstep => hs.step hstep ha) ?_
    (stopped_of_join h hjoin)
  rintro a ha rfl
  exact hstart ha

/-- One client has been served; after `stop`, the next `listen` begins. -/
theorem nothing_after_stop_served :
    ∃ s t u : Server Unit Unit Unit,
      exec step new [.call (.listen goodCall), .start, .enter, .accept, .on_open 0, .call .stop, .closeAll, .on_close 0,
        .finish] = some s ∧ s.step .join = some t ∧ exec step t [.call (.listen goodCall)] = some u ∧ u.Stopped := by
  obtain ⟨s, hs⟩ : ∃ s : Server Unit Unit Unit, exec step new [.call (.listen goodCall), .start, .enter, .accept,
    .on_open 0, .call .stop, .closeAll, .on_close 0, .finish] = some s := ⟨_, rfl⟩
  obtain ⟨t, ht⟩ : ∃ t, s.step .join = some t := by
    cases hs
    exact ⟨_, rfl⟩
  obtain ⟨u, hu⟩ : ∃ u, exec step t [.call (.listen goodCall)] = some u := by
    cases hs
    cases ht
    exact ⟨_, rfl⟩
  exact ⟨s, t, u, hs, ht, hu, nothing_after_stop (run_of_exec hs) ht (run_of_exec hu) (by simp)⟩

end Communique.Server
