import Communique.Protocol.Network

/-!
# The io thread of the server

A request handler of the server that waits for the answer to a request of its own holds up the io thread, which
would have to read the answer: from then on no client is served any more and none is let in. The other handlers
return at once, and the server is never stopped.

* `System.step_at` : what a step does to one of the two ends;
* `Endpoint.Blocked` : a task waits for an answer that has not come; `blocked_act`, `blocked_step` : only the io
  thread could change that;
* `Frozen` : the server opens no connection and reads no frame from any client, whatever happens;
* **`never_frozen_iff`** : exactly which handlers keep the server going;
* **`network_comes_to_rest`** : where no handler waits, what is under way on all the connections ends.
-/

namespace Communique
open Transition Storage

variable {I R : Type}

/-! ## One end -/

/-- What a step does to the end `y`. -/
theorem System.step_at {cfg : Config} {s t : System I R} {m : Move I R} (h : System.step cfg s m = some t)
    (y : Side) :
    (t.endpoint y = s.endpoint y) ∨
      (∃ a r, m = .act y a ∧ (s.endpoint y).act (cfg.platform y) (cfg.mayWait y) a = some r ∧
        t.endpoint y = r.1.recordSent r.2) ∨
      ∃ infoOutcome frame, m = .deliver y infoOutcome ∧
        t.endpoint y = ((s.endpoint y).receive (cfg.platform y) infoOutcome frame).1.recordSent
          ((s.endpoint y).receive (cfg.platform y) infoOutcome frame).2 := by
  cases m with
  | act x a =>
    obtain ⟨r, hr, rfl⟩ := Option.map_eq_some_iff.mp h
    rcases Side.eq_or_eq_peer x y with rfl | rfl
    · exact Or.inr (Or.inl ⟨a, r, rfl, hr, System.put_endpoint_self _ _ _ _⟩)
    · exact Or.inl (System.put_endpoint_peer _ _ _ _)
  | deliver x infoOutcome =>
    rw [System.step] at h
    cases hc : s.channel x.peer with
    | nil =>
      rw [hc] at h
      cases h
    | cons frame rest =>
      rw [hc] at h
      obtain ⟨hidle, h⟩ := Option.ite_none_left_eq_some.mp h
      cases h
      rcases Side.eq_or_eq_peer x y with rfl | rfl
      · exact Or.inr (Or.inr ⟨infoOutcome, frame, rfl, System.put_endpoint_self _ _ _ _⟩)
      · exact Or.inl (System.put_endpoint_peer _ _ _ _)

namespace Endpoint
variable {platform : Platform} {mayWait : Bytes → Bool} {e e' : Endpoint I R} {out : List Frame}

/-- A request task waits for the response handler of the call, which has not been run and is not about to be. -/
structure Blocked (e : Endpoint I R) (call : Nat) : Prop where
  waits : ∃ t ∈ e.requestTasks, t.progress = .waiting call
  notInvoked : call ∉ (invokedHandlers e.log).map Prod.fst
  noTask : ∀ t ∈ e.responseTasks, t.call ≠ call

theorem Blocked.not_idle {call : Nat} (h : e.Blocked call) : ¬ e.Idle := by
  intro hidle
  obtain ⟨t, ht, -⟩ := h.waits
  rw [hidle.1] at ht
  exact List.not_mem_nil ht

/-- A task that is not the one replaced or removed is still there. -/
theorem mem_of_ne {t u : RequestTask} {tasks before after : List RequestTask} (middle : List RequestTask)
    (h : tasks = before ++ u :: after) (ht : t ∈ tasks) (hne : t ≠ u) : t ∈ before ++ middle ++ after := by
  rw [h] at ht
  simp only [List.mem_append, List.mem_cons] at ht ⊢
  rcases ht with ht | ht | ht
  · exact Or.inl (Or.inl ht)
  · exact absurd ht hne
  · exact Or.inr ht

theorem invokedHandlers_recordSent (e : Endpoint I R) (out : List Frame) :
    invokedHandlers (e.recordSent out).log = invokedHandlers e.log := by
  have hout : invokedHandlers (out.map Event.sent) = [] := by
    rw [invokedHandlers, List.filterMap_map]
    exact List.filterMap_eq_nil_iff.mpr fun frame _ => rfl
  show invokedHandlers (e.log ++ out.map Event.sent) = _
  rw [invokedHandlers, List.filterMap_append]
  exact (congrArg (_ ++ ·) hout).trans (List.append_nil _)

theorem invokedHandlers_concat (log : List Event) (event : Event) :
    invokedHandlers (log ++ [event]) = invokedHandlers log ++ invokedHandlers [event] := List.filterMap_append

theorem invokedHandlers_other (log : List Event) (event : Event) (h : invokedHandlers [event] = []) :
    invokedHandlers (log ++ [event]) = invokedHandlers log := by
  rw [invokedHandlers_concat, h, List.append_nil]

/-- Only the task of its response runs the response handler of a call. -/
theorem not_invoked_act {call : Nat} {a : Action I R} (h : Acted platform mayWait e a e' out)
    (hinvoked : call ∉ (invokedHandlers e.log).map Prod.fst) (htask : ∀ t ∈ e.responseTasks, t.call ≠ call) :
    call ∉ (invokedHandlers (e'.recordSent out).log).map Prod.fst := by
  rw [invokedHandlers_recordSent]
  cases h with
  | @invoke i before after u hl =>
    have hu : u.call ≠ call := htask u (by rw [hl]; simp)
    rw [record, invokedHandlers_concat, List.map_append, List.mem_append]
    rintro (hmem | hmem)
    · exact hinvoked hmem
    · exact hu (List.mem_singleton.mp hmem).symm
  | push hp =>
    rw [record, invokedHandlers_other _ (.registered _ _) rfl]
    exact hinvoked
  | start hl hu =>
    rw [record, invokedHandlers_other _ (.handled _ _) rfl]
    exact hinvoked
  | finish hl hu =>
    rw [record, invokedHandlers_other _ (.returned _ _ _) rfl]
    exact hinvoked
  | _ => exact hinvoked

/-- The threads of the end do not unblock the task. -/
theorem blocked_act {call : Nat} {a : Action I R} (hb : e.Blocked call)
    (ha : e.act platform mayWait a = some (e', out)) : (e'.recordSent out).Blocked call := by
  obtain ⟨⟨t, ht, hw⟩, hinvoked, htask⟩ := hb
  have hcases := act_cases ha
  have hinvoked' := not_invoked_act hcases hinvoked htask
  cases a with
  | resume i =>
    obtain ⟨u, hi, ha⟩ := Option.bind_eq_some_iff.mp ha
    obtain ⟨before, after, hl, -, hset⟩ := split_at hi
    obtain ⟨hu, ha⟩ := Option.ite_none_right_eq_some.mp ha
    cases ha
    -- the answer that this task waits for has come, so it is another one
    have hne : t ≠ u := by
      rintro rfl
      rw [RequestTask.hasAnswer, hw] at hu
      exact hinvoked (of_decide_eq_true hu)
    refine ⟨⟨t, ?_, hw⟩, hinvoked', htask⟩
    show t ∈ e.requestTasks.set i _
    rw [hset]
    simpa using mem_of_ne [{ u with progress := .running }] hl ht hne
  | finish i outcome =>
    obtain ⟨u, hi, ha⟩ := Option.bind_eq_some_iff.mp ha
    obtain ⟨before, after, hl, herase, -⟩ := split_at hi
    obtain ⟨hu, ha⟩ := Option.ite_none_right_eq_some.mp ha
    cases ha
    have hne : t ≠ u := by
      rintro rfl
      rw [hw] at hu
      rcases hu with hu | hu
      · cases hu
      · cases hu.1
    refine ⟨⟨t, ?_, hw⟩, hinvoked', htask⟩
    show t ∈ e.requestTasks.eraseIdx i
    rw [herase]
    simpa using mem_of_ne [] hl ht hne
  | start i =>
    cases hcases with
    | @start i before after u hl hu =>
      have hne : t ≠ u := by
        rintro rfl
        rw [hw] at hu
        cases hu
      exact ⟨⟨t, by simpa using mem_of_ne [{ u with progress := .running }] hl ht hne, hw⟩,
        hinvoked', htask⟩
  | wait i waited =>
    cases hcases with
    | @wait i waited before after u hl hu hmay =>
      have hne : t ≠ u := by
        rintro rfl
        rw [hw] at hu
        cases hu
      exact ⟨⟨t, by simpa using mem_of_ne [{ u with progress := .waiting waited }] hl ht hne, hw⟩,
        hinvoked', htask⟩
  | invoke i =>
    cases hcases with
    | @invoke i before after u hl =>
      refine ⟨⟨t, ht, hw⟩, hinvoked', fun v hv => htask v ?_⟩
      rw [hl]
      rcases List.mem_append.mp hv with hv | hv
      · exact List.mem_append_left _ hv
      · exact List.mem_append_right _ (List.mem_cons_of_mem _ hv)
  | push message =>
    cases hcases with
    | full => exact ⟨⟨t, ht, hw⟩, hinvoked', htask⟩
    | push hp => exact ⟨⟨t, ht, hw⟩, hinvoked', htask⟩
  | send i =>
    cases hcases
    exact ⟨⟨t, ht, hw⟩, hinvoked', htask⟩
  | sendInfo message =>
    cases hcases
    exact ⟨⟨t, ht, hw⟩, hinvoked', htask⟩
  | setInfoHandler infoHandler =>
    cases hcases
    exact ⟨⟨t, ht, hw⟩, hinvoked', htask⟩
  | setRequestHandler requestHandler =>
    cases hcases
    exact ⟨⟨t, ht, hw⟩, hinvoked', htask⟩

/-- As long as a task that does not wait is under way, one of them can go on. -/
theorem goes_on (platform : Platform) (mayWait : Bytes → Bool) (hidle : ¬ e.Idle) (h : System.NoneWaits e) :
    ∃ a : Action I R, (∀ x, (Move.act x a).Progresses) ∧ e.act platform mayWait a ≠ none := by
  cases hl : e.requestTasks with
  | nil =>
    cases hr : e.responseTasks with
    | nil => exact absurd ⟨hl, hr⟩ hidle
    | cons task rest => exact ⟨.invoke 0, fun _ => trivial, by simp [act, hr]⟩
  | cons task rest =>
    have htask : task ∈ e.requestTasks := by
      rw [hl]
      exact List.mem_cons_self
    rcases h task htask with hp | hp
    · cases hset : e.connection.requestHandler with
      | some requestHandler => exact ⟨.start 0, fun _ => trivial, by simp [act, hl, hp, hset]⟩
      | none =>
        exact ⟨.finish 0 (.error (.exception [])), fun _ => trivial, by simp [act, hl, hp, hset, isException]⟩
    · exact ⟨.finish 0 (.ok []), fun _ => trivial, by simp [act, hl, hp]⟩

end Endpoint

/-! ## One connection -/

namespace Link
variable {cfg : Config} {l l' : Link I R} {m : Move I R}

/-- An end on which no task waits keeps to that, if its request handler does not wait. -/
theorem noneWaits_step {x : Side} (hw : ∀ body, cfg.mayWait x body = false)
    (h : System.NoneWaits (l.endpoint x)) (hl : l.step cfg m = some l') : System.NoneWaits (l'.endpoint x) := by
  rcases System.step_at (whole_step hl) x with heq | ⟨a, r, -, ha, heq⟩ | ⟨infoOutcome, frame, -, heq⟩
  · rw [whole_endpoint, whole_endpoint] at heq
    rw [heq]
    exact h
  · rw [whole_endpoint] at heq
    rw [heq]
    exact System.noneWaits_act hw h (Endpoint.act_cases ha)
  · rw [whole_endpoint] at heq
    rw [heq]
    exact System.noneWaits_receive h (Endpoint.receive_cases _ _ infoOutcome frame)

/-- Without its io thread the server is given no frame on the connection, and none of its tasks is unblocked. -/
theorem server_step (hm : ¬ m.ReadsAtServer) (hl : l.step cfg m = some l') :
    deliveredFrames (l'.endpoint .B).log = deliveredFrames (l.endpoint .B).log ∧
      ∀ call, (l.endpoint .B).Blocked call → (l'.endpoint .B).Blocked call := by
  rcases System.step_at (whole_step hl) .B with heq | ⟨a, r, -, ha, heq⟩ | ⟨infoOutcome, frame, rfl, heq⟩
  · rw [whole_endpoint, whole_endpoint] at heq
    rw [heq]
    exact ⟨rfl, fun call hb => hb⟩
  · rw [whole_endpoint] at heq
    rw [heq]
    exact ⟨(act_frames (Endpoint.act_cases ha)).2, fun call hb => Endpoint.blocked_act hb ha⟩
  · exact absurd trivial hm

theorem weight_step (hgo : m.GoesOn) (hl : l.step cfg m = some l') :
    l'.toSystem.weight < l.toSystem.weight := by
  cases m with
  | act x a =>
    obtain ⟨r, hr, rfl⟩ := Option.map_eq_some_iff.mp hl
    have hact := Endpoint.act_weight hgo (Endpoint.act_cases hr)
    have hchannel : framesWeight ((l.pass x r.1 r.2).channel x) ≤
        framesWeight (l.channel x) + framesWeight r.2 := by
      by_cases hx : l.isOpen x <;> simp [pass, hx]
    have hpeer : (l.pass x r.1 r.2).channel x.peer = l.channel x.peer := by
      by_cases hx : l.isOpen x <;> simp [pass, hx]
    have hself : (l.pass x r.1 r.2).endpoint x = r.1.recordSent r.2 := by simp [pass]
    have hother : (l.pass x r.1 r.2).endpoint x.peer = l.endpoint x.peer := by simp [pass]
    rw [System.weight_eq _ x, System.weight_eq l.toSystem x, System.weightOf, System.weightOf, System.weightOf,
      System.weightOf, hself, hother, hpeer]
    omega
  | deliver x infoOutcome =>
    rw [step] at hl
    cases hc : l.channel x.peer with
    | nil =>
      rw [hc] at hl
      cases hl
    | cons frame rest =>
      rw [hc] at hl
      obtain ⟨hidle, hl⟩ := Option.ite_none_left_eq_some.mp hl
      cases hl
      generalize hr : (l.endpoint x).receive (cfg.platform x) infoOutcome frame = r
      have hreceive := Endpoint.receive_weight (hr ▸ Endpoint.receive_cases (cfg.platform x) (l.endpoint x)
        infoOutcome frame)
      have hchannel : framesWeight (((l.take x.peer rest).pass x r.1 r.2).channel x) ≤
          framesWeight (l.channel x) + framesWeight r.2 := by
        by_cases hx : l.isOpen x <;> simp [pass, take, hx]
      have hpeer : ((l.take x.peer rest).pass x r.1 r.2).channel x.peer = rest := by
        by_cases hx : l.isOpen x <;> simp [pass, take, hx]
      have hself : ((l.take x.peer rest).pass x r.1 r.2).endpoint x = r.1.recordSent r.2 := by simp [pass]
      have hother : ((l.take x.peer rest).pass x r.1 r.2).endpoint x.peer = l.endpoint x.peer := by
        simp [pass, take]
      rw [System.weight_eq _ x, System.weight_eq l.toSystem x, System.weightOf, System.weightOf, System.weightOf,
        System.weightOf, hself, hother, hpeer, hc, framesWeight_cons]
      omega

end Link

/-! ## The server -/

/-- The moves that start nothing new. -/
def NetworkMove.GoesOn : NetworkMove I R → Prop
  | .onLink _ move => move.GoesOn
  | _ => False

namespace Network
variable {cfg : NetworkConfig} {n n' : Network I R} {move : NetworkMove I R}

/-- The states of the runs of a server with the given defaults. -/
def Reachable (cfg : NetworkConfig) (infoHandler : Option I) (requestHandler : Option R) (n : Network I R) : Prop :=
  ∃ moves, Run (ofFun (step cfg)) (start infoHandler requestHandler) moves n

/-- What every opened connection has and every step of a connection keeps, every connection has. -/
theorem Reachable.each_link {infoHandler : Option I} {requestHandler : Option R} {P : Nat → Link I R → Prop}
    (h : Reachable cfg infoHandler requestHandler n)
    (hstart : ∀ k infoHandler requestHandler, P k (Link.start infoHandler requestHandler))
    (hclose : ∀ {k l} x, P k l → P k (l.close x))
    (hstep : ∀ {k l m l'}, P k l → l.step (cfg.link k) m = some l' → P k l') {k : Nat} {l : Link I R}
    (hk : n.links[k]? = some l) : P k l := by
  obtain ⟨moves, hrun⟩ := h
  have hall : ∀ k l, n.links[k]? = some l → P k l := by
    apply hrun.invariant (P := fun n => ∀ k l, n.links[k]? = some l → P k l)
    · intro n move n' hn hstep' k l' hk
      rcases link_of_step (step_cases hstep') hk with
        ⟨l, m, hl, -, hm⟩ | ⟨l, hl, -, rfl | ⟨x, rfl⟩⟩ | ⟨-, clientInfo, clientRequest, -, rfl⟩
      · exact hstep (hn k l hl) hm
      · exact hn k l' hl
      · exact hclose x (hn k l hl)
      · exact hstart k _ _
    · intro k l hk
      cases hk
  exact hall k l hk

/-- Each connection is in a state of its own two ends. -/
theorem Reachable.link {infoHandler : Option I} {requestHandler : Option R}
    (h : Reachable cfg infoHandler requestHandler n) {k : Nat} {l : Link I R} (hk : n.links[k]? = some l) :
    ∃ infoHandler requestHandler, System.Reachable (cfg.link k) infoHandler requestHandler l.whole := by
  apply h.each_link (P := fun k l =>
    ∃ infoHandler requestHandler, System.Reachable (cfg.link k) infoHandler requestHandler l.whole) _ _ _ hk
  · intro k infoHandler requestHandler
    exact ⟨infoHandler, requestHandler, [], Run.nil _⟩
  · intro k l x hl
    exact hl
  · rintro k l m l' ⟨infoHandler, requestHandler, moves, hrun⟩ hm
    exact ⟨infoHandler, requestHandler, _, hrun.snoc (Link.whole_step hm)⟩

/-! ### A handler of the server waits -/

/-- From `n` to `n'` the server has opened no connection and has been given no frame on any. -/
def ServesNothing (n n' : Network I R) : Prop :=
  n'.links.length = n.links.length ∧ ∀ (k : Nat) (l l' : Link I R), n.links[k]? = some l → n'.links[k]? = some l' →
    deliveredFrames (l'.endpoint .B).log = deliveredFrames (l.endpoint .B).log

theorem servesNothing_refl (n : Network I R) : n.ServesNothing n := by
  refine ⟨rfl, fun k l l' hl hl' => ?_⟩
  rw [hl, Option.some.injEq] at hl'
  rw [hl']

theorem ServesNothing.trans {n₁ n₂ n₃ : Network I R} (h : n₁.ServesNothing n₂) (h' : n₂.ServesNothing n₃) :
    n₁.ServesNothing n₃ := by
  refine ⟨h'.1.trans h.1, fun k l l' hl hl' => ?_⟩
  have hlt : k < n₂.links.length := by
    rw [h.1]
    exact (List.getElem?_eq_some_iff.mp hl).1
  have hmiddle := List.getElem?_eq_getElem hlt
  rw [h'.2 k _ l' hmiddle hl', h.2 k l _ hl hmiddle]

/-- Whatever happens, the server serves nothing any more. -/
def Frozen (cfg : NetworkConfig) (n : Network I R) : Prop :=
  ∀ moves n', Run (ofFun (step cfg)) n moves n' → n.ServesNothing n'

/-- On the `k`-th connection, a task of the server waits for an answer that has not come. -/
def Blocked (n : Network I R) (k call : Nat) : Prop := ∃ l, n.links[k]? = some l ∧ (l.endpoint .B).Blocked call

theorem Blocked.not_serverIdle {k call : Nat} (h : n.Blocked k call) : ¬ n.ServerIdle := by
  obtain ⟨l, hl, hb⟩ := h
  intro hidle
  exact hb.not_idle (hidle l (List.mem_of_getElem? hl))

/-- A step while a task of the server waits: nothing new is let in, and the task still waits. -/
theorem blocked_step {k call : Nat} (hb : n.Blocked k call) (hst : Stepped cfg n move n') :
    n.ServesNothing n' ∧ n'.Blocked k call := by
  have hbusy := hb.not_serverIdle
  have hsame : ∀ (j : Nat) (l l' : Link I R), n.links[j]? = some l → n'.links[j]? = some l' →
      deliveredFrames (l'.endpoint .B).log = deliveredFrames (l.endpoint .B).log ∧
        ∀ call, (l.endpoint .B).Blocked call → (l'.endpoint .B).Blocked call := by
    intro j l l' hl hl'
    rcases link_of_step hst hl' with ⟨l₁, m, hl₁, hon, hm⟩ | ⟨l₁, hl₁, -, hl₁'⟩ | ⟨hlen, -⟩
    · rw [hl, Option.some.injEq] at hl₁
      subst hl₁
      apply Link.server_step _ hm
      intro hreads
      cases hst with
      | @onLink i m' l₂ l₃ hi hidle hm' =>
        by_cases hij : i = j
        · rw [NetworkMove.on?, if_pos hij, Option.some.injEq] at hon
          rw [hon] at hidle
          exact hbusy (hidle hreads)
        · rw [NetworkMove.on?, if_neg hij] at hon
          cases hon
      | _ => cases hon
    · rw [hl, Option.some.injEq] at hl₁
      subst hl₁
      rcases hl₁' with rfl | ⟨x, rfl⟩
      · exact ⟨rfl, fun call hb => hb⟩
      · exact ⟨rfl, fun call hb => hb⟩
    · rw [hlen, List.getElem?_eq_none le_rfl] at hl
      cases hl
  have hlength : n'.links.length = n.links.length := by
    cases hst with
    | connect hidle => exact absurd hidle hbusy
    | onLink => exact List.length_set
    | close => exact List.length_set
    | _ => rfl
  refine ⟨⟨hlength, fun j l l' hl hl' => (hsame j l l' hl hl').1⟩, ?_⟩
  obtain ⟨l, hl, hblocked⟩ := hb
  have hlt : k < n'.links.length := by
    rw [hlength]
    exact (List.getElem?_eq_some_iff.mp hl).1
  exact ⟨n'.links[k], List.getElem?_eq_getElem hlt, (hsame k l _ hl (List.getElem?_eq_getElem hlt)).2 call hblocked⟩

theorem Blocked.frozen {k call : Nat} (hb : n.Blocked k call) : Frozen cfg n := by
  intro moves n' hrun
  have hall : n.ServesNothing n' ∧ n'.Blocked k call := by
    apply hrun.invariant (P := fun n' => n.ServesNothing n' ∧ n'.Blocked k call)
    · intro n₁ move n₂ h hstep
      obtain ⟨hserves, hblocked⟩ := blocked_step h.2 (step_cases hstep)
      exact ⟨h.1.trans hserves, hblocked⟩
    · exact ⟨servesNothing_refl n, hb⟩
  exact hall.1

/-- The moves of one connection can be made when the server does nothing on the others. -/
theorem exec_onLink {k : Nat} {l l' : Link I R} {moves : List (Move I R)} (hk : n.links[k]? = some l)
    (hothers : ∀ j l₁, j ≠ k → n.links[j]? = some l₁ → (l₁.endpoint .B).Idle)
    (h : exec (Link.step (cfg.link k)) l moves = some l') :
    exec (step cfg) n (moves.map (.onLink k)) = some { n with links := n.links.set k l' } := by
  induction moves generalizing n l with
  | nil =>
    cases h
    obtain ⟨hlt, rfl⟩ := List.getElem?_eq_some_iff.mp hk
    rw [List.set_getElem_self]
    rfl
  | cons m moves ih =>
    obtain ⟨l₁, hm, hrest⟩ := Option.bind_eq_some_iff.mp h
    have hreads : m.ReadsAtServer → n.ServerIdle := by
      intro hreads l₂ hl₂
      obtain ⟨j, hj⟩ := List.mem_iff_getElem?.mp hl₂
      by_cases hjk : j = k
      · subst hjk
        rw [hk, Option.some.injEq] at hj
        subst hj
        by_contra hbusy
        cases m with
        | act x a => exact hreads
        | deliver x infoOutcome =>
          cases x with
          | A => exact hreads
          | B =>
            rw [Link.step] at hm
            cases hc : l.channel (Side.B).peer with
            | nil =>
              rw [hc] at hm
              cases hm
            | cons frame rest =>
              rw [hc] at hm
              exact (Option.ite_none_left_eq_some.mp hm).1 (Or.inr ⟨rfl, hbusy⟩)
      · exact hothers j l₂ hjk hj
    have hstep : step cfg n (.onLink k m) = some { n with links := n.links.set k l₁ } := by
      rw [step, hk, Option.bind_some, if_neg (fun hbusy => hbusy.2 (hreads hbusy.1)), hm]
      rfl
    have hlt := (List.getElem?_eq_some_iff.mp hk).1
    rw [List.map_cons, exec, hstep, Option.bind_some]
    rw [ih (List.getElem?_set_self hlt) _ hrest]
    · simp
    · intro j l₂ hjk hl₂
      apply hothers j l₂ hjk
      have hset : (n.links.set k l₁)[j]? = some l₂ := hl₂
      rw [List.getElem?_set_ne (Ne.symm hjk)] at hset
      exact hset

/-- Clients connect, one after the other. -/
def connects : Nat → List (NetworkMove I R)
  | 0 => []
  | k + 1 => connects k ++ [.connect none none]

theorem exec_connects (cfg : NetworkConfig) (infoHandler : Option I) (requestHandler : Option R) (k : Nat) :
    exec (step cfg) (start infoHandler requestHandler) (connects k) = some ⟨infoHandler, requestHandler,
      List.replicate k (Link.start (ends none infoHandler) (ends none requestHandler))⟩ := by
  induction k with
  | zero => rfl
  | succ k ih =>
    rw [connects, exec_append, ih, Option.bind_some, exec, step, if_pos]
    · rw [List.replicate_succ']
      rfl
    · intro l hl
      rw [(List.mem_replicate.mp hl).2]
      exact ⟨rfl, rfl⟩

/-- The client sends a request, and the handler of the server sends one back and waits for its answer. -/
def blockingRun (body : Bytes) : List (Move I R) :=
  [.act .A (.push body), .act .A (.send 0), .deliver .B (.ok ()), .act .B (.start 0), .act .B (.push []),
    .act .B (.send 0), .act .B (.wait 0 0)]

theorem blockingRun_blocked (cfg : Config) (infoHandler : Side → Option I) (requestHandler : Side → Option R)
    (handler : R) (hset : requestHandler .B = some handler) (body : Bytes)
    (h : cfg.mayWait .B body = true) :
    ∃ l, exec (Link.step cfg) (Link.start infoHandler requestHandler) (blockingRun body) = some l ∧
      (l.endpoint .B).Blocked 0 := by
  obtain ⟨storage, hpush⟩ := System.push_empty Nat 0
  have hrun : ∃ l, exec (Link.step cfg) (Link.start infoHandler requestHandler) (blockingRun body) = some l ∧
      (l.endpoint .B).requestTasks.map RequestTask.progress = [.waiting 0] ∧
      (l.endpoint .B).responseTasks = [] ∧ invokedHandlers (l.endpoint .B).log = [] := by
    simp [blockingRun, exec, Link.step, Link.start, Link.pass, Link.take, System.start, Endpoint.start,
      Endpoint.act, Connection.new, hpush, Endpoint.receive_request, Endpoint.Idle, h, hset, ofType_cons, Side.peer]
  obtain ⟨l, hl, hwaits, hresponse, hinvoked⟩ := hrun
  obtain ⟨task, htasks, hp⟩ := List.map_eq_singleton_iff.mp hwaits
  refine ⟨l, hl, ⟨task, by rw [htasks]; simp, hp⟩, by rw [hinvoked]; simp, ?_⟩
  intro t ht
  rw [hresponse] at ht
  cases ht

/-! ### No handler of the server waits -/

/-- How many moves are left on all the connections, at most. -/
def weight (n : Network I R) : Nat := (n.links.map fun l => l.toSystem.weight).sum

theorem weight_step (hgo : move.GoesOn) (hst : Stepped cfg n move n') : n'.weight < n.weight := by
  cases hst with
  | @onLink k m l l' hk hidle hl =>
    obtain ⟨before, after, hlinks, -, hset⟩ := Endpoint.split_at hk
    have hlink := Link.weight_step hgo hl
    show ((n.links.set k l').map fun l => l.toSystem.weight).sum < _
    rw [hset, weight, hlinks, List.map_append, List.map_append, List.map_cons, List.map_cons, List.sum_append,
      List.sum_append, List.sum_cons, List.sum_cons]
    omega
  | _ => cases hgo

/-- What a thread of an end can do, it can do whatever the server is doing. -/
theorem step_act_ne_none {k : Nat} {l : Link I R} {x : Side} {a : Action I R} (hk : n.links[k]? = some l)
    (ha : (l.endpoint x).act (cfg.platform k x) (cfg.mayWait k x) a ≠ none) :
    ∃ n', step cfg n (.onLink k (.act x a)) = some n' := by
  obtain ⟨r, hr⟩ := Option.ne_none_iff_exists'.mp ha
  have hl : l.step (cfg.link k) (.act x a) = some (l.pass x r.1 r.2) := by
    rw [Link.step]
    exact Option.map_eq_some_iff.mpr ⟨r, hr, rfl⟩
  refine ⟨{ n with links := n.links.set k (l.pass x r.1 r.2) }, ?_⟩
  rw [step, hk, Option.bind_some, if_neg (fun hreads => hreads.1), hl]
  rfl

theorem Reachable.noneWaits {infoHandler : Option I} {requestHandler : Option R} {x : Side}
    (hw : ∀ k body, cfg.mayWait k x body = false) (h : Reachable cfg infoHandler requestHandler n) {k : Nat}
    {l : Link I R} (hk : n.links[k]? = some l) : System.NoneWaits (l.endpoint x) := by
  apply h.each_link (P := fun _ l => System.NoneWaits (l.endpoint x)) _ _ _ hk
  · intro k infoHandler requestHandler t ht
    cases ht
  · intro k l y hl
    exact hl
  · intro k l m l' hl hm
    exact Link.noneWaits_step (hw k) hl hm

/-- Where no handler of the server waits, the tasks of the server can finish, and it can go on reading. -/
theorem Reachable.run_to_idle {infoHandler : Option I} {requestHandler : Option R}
    (hw : ∀ k body, cfg.mayWait k .B body = false) (h : Reachable cfg infoHandler requestHandler n) :
    ∃ moves n', (∀ m ∈ moves, m.GoesOn) ∧ Run (ofFun (step cfg)) n moves n' ∧ n'.ServerIdle := by
  have hlower : ∀ {n : Network I R} {move n'}, move.GoesOn → ofFun (step cfg) n move n' → n'.weight < n.weight :=
    fun hm hst => weight_step hm (step_cases hst)
  have hkeep : ∀ {n : Network I R} {move n'}, Reachable cfg infoHandler requestHandler n →
      ofFun (step cfg) n move n' → Reachable cfg infoHandler requestHandler n' := by
    rintro n move n' ⟨moves, hrun⟩ hst
    exact ⟨_, hrun.snoc hst⟩
  apply exists_run_to_rest (ofFun (step cfg)) hlower (fun hn _ hst => hkeep hn hst) _ le_rfl h
  intro n hn hbusy
  rw [ServerIdle, not_forall] at hbusy
  obtain ⟨l, hbusy⟩ := hbusy
  obtain ⟨hl, hbusy⟩ := Classical.not_imp.mp hbusy
  obtain ⟨k, hk⟩ := List.mem_iff_getElem?.mp hl
  obtain ⟨a, hprogress, ha⟩ := Endpoint.goes_on (cfg.platform k .B) (cfg.mayWait k .B) hbusy (hn.noneWaits hw hk)
  obtain ⟨n', hn'⟩ := step_act_ne_none hk ha
  exact ⟨.onLink k (.act .B a), n', (hprogress .B).goesOn, hn'⟩

/-- **The server never freezes exactly when none of its request handlers waits** for a request of its own. What
the request handlers of the clients do does not matter. Request handlers are the only ones that can wait here: info
handlers and response handlers return at once. The server keeps listening, as `stop` is none of the moves. -/
theorem never_frozen_iff (cfg : NetworkConfig) (infoHandler : Option I) (requestHandler : R) :
    (∀ n, Reachable cfg infoHandler (some requestHandler) n → ¬ Frozen cfg n) ↔
      ∀ k body, cfg.mayWait k .B body = false := by
  constructor
  · intro hnever k body
    by_contra hmay
    obtain ⟨l, hl, hblocked⟩ := blockingRun_blocked (cfg.link k) (ends none infoHandler)
      (ends none (some requestHandler)) requestHandler rfl body (Bool.eq_true_of_not_eq_false hmay)
    have hconnects := exec_connects cfg infoHandler (some requestHandler) (k + 1)
    generalize hn : (⟨infoHandler, some requestHandler, List.replicate (k + 1) (Link.start (ends none infoHandler)
      (ends none (some requestHandler)))⟩ : Network I R) = n at hconnects
    have hk : n.links[k]? = some (Link.start (ends none infoHandler) (ends none (some requestHandler))) := by
      rw [← hn]
      exact List.getElem?_replicate_of_lt (Nat.lt_succ_self k)
    have hothers : ∀ j l, j ≠ k → n.links[j]? = some l → (l.endpoint .B).Idle := by
      intro j l hjk hl
      have hmem := List.mem_of_getElem? hl
      rw [← hn] at hmem
      rw [(List.mem_replicate.mp hmem).2]
      exact ⟨rfl, rfl⟩
    have hmoves := exec_onLink hk hothers hl
    have hlt := (List.getElem?_eq_some_iff.mp hk).1
    have hfrozen : Frozen cfg { n with links := n.links.set k l } :=
      Blocked.frozen ⟨l, List.getElem?_set_self hlt, hblocked⟩
    exact hnever _ ⟨_, (run_of_exec hconnects).append (run_of_exec hmoves)⟩ hfrozen
  · intro hw n hreach hfrozen
    obtain ⟨moves, n', -, hrun, hidle⟩ := hreach.run_to_idle hw
    have hconnect : step cfg n' (.connect none none) = some { n' with
        links := n'.links ++ [Link.start (ends none n'.defaultInfoHandler)
          (ends none n'.defaultRequestHandler)] } := if_pos hidle
    have hlen := (hfrozen _ _ (hrun.snoc hconnect)).1
    have hlen' := (hfrozen _ _ hrun).1
    rw [← hlen', List.length_append, List.length_singleton] at hlen
    omega

/-! ### No handler waits -/

/-- No thread is in a call, and nothing is in flight to an end that is open. -/
def AtRest (n : Network I R) : Prop :=
  ∀ l ∈ n.links, ∀ x, (l.endpoint x).sending = [] ∧ (l.endpoint x).Idle ∧
    (l.isOpen x = true → l.channel x.peer = [])

/-- If no task waits, something can be done until the network is at rest. -/
theorem goes_on (h : ∀ (k : Nat) (l : Link I R) x, n.links[k]? = some l → System.NoneWaits (l.endpoint x))
    (hrest : ¬ n.AtRest) :
    ∃ (move : NetworkMove I R) (n' : Network I R), move.GoesOn ∧ step cfg n move = some n' := by
  by_cases hidle : ∀ l ∈ n.links, ∀ x, (l.endpoint x).Idle
  · have hserver : n.ServerIdle := fun l hl => hidle l hl .B
    simp only [AtRest, not_forall] at hrest
    obtain ⟨l, hl, x, hx⟩ := hrest
    obtain ⟨k, hk⟩ := List.mem_iff_getElem?.mp hl
    cases hsending : (l.endpoint x).sending with
    | cons p rest =>
      have hsend : (l.endpoint x).act (cfg.platform k x) (cfg.mayWait k x) (.send 0) ≠ none := by
        simp [Endpoint.act, hsending]
      obtain ⟨n', hn'⟩ := step_act_ne_none hk hsend
      exact ⟨.onLink k (.act x (.send 0)), n', trivial, hn'⟩
    | nil =>
      have hchannel : ¬ (l.isOpen x = true → l.channel x.peer = []) :=
        fun hchannel => hx ⟨hsending, hidle l hl x, hchannel⟩
      obtain ⟨hopen, hne⟩ := Classical.not_imp.mp hchannel
      cases hc : l.channel x.peer with
      | nil => exact absurd hc hne
      | cons frame rest =>
        have hready : ¬ (l.isOpen x = false ∨ ((cfg.link k).waitsForTask ∧ ¬ (l.endpoint x).Idle)) := by
          rintro (hclosed | hbusy)
          · rw [hopen] at hclosed
            cases hclosed
          · exact hbusy.2 (hidle l hl x)
        have hdeliver : step cfg n (.onLink k (.deliver x (.ok ()))) ≠ none := by
          rw [step, hk, Option.bind_some, if_neg (fun hbusy => hbusy.2 hserver), Link.step, hc]
          dsimp only
          rw [if_neg hready]
          exact Option.some_ne_none _
        obtain ⟨n', hn'⟩ := Option.ne_none_iff_exists'.mp hdeliver
        exact ⟨.onLink k (.deliver x (.ok ())), n', trivial, hn'⟩
  · simp only [not_forall] at hidle
    obtain ⟨l, hl, x, hbusy⟩ := hidle
    obtain ⟨k, hk⟩ := List.mem_iff_getElem?.mp hl
    obtain ⟨a, hprogress, ha⟩ := Endpoint.goes_on (cfg.platform k x) (cfg.mayWait k x) hbusy (h k l x hk)
    obtain ⟨n', hn'⟩ := step_act_ne_none hk ha
    exact ⟨.onLink k (.act x a), n', (hprogress x).goesOn, hn'⟩

/-- **What is under way on all the connections ends.** Where no request handler waits for a request of its own:
the moves that start nothing new are at most as many as the weight of the state; where none of them can be taken
any more, the network is at rest; such a state can be reached; and then, on every connection with both ends open,
every call is settled. Info handlers and response handlers return at once, and the server keeps listening. -/
theorem network_comes_to_rest {infoHandler : Option I} {requestHandler : Option R}
    (hw : ∀ k x body, cfg.mayWait k x body = false) (h : Reachable cfg infoHandler requestHandler n) :
    (∀ moves n', Run (ofFun (step cfg)) n moves n' → (∀ m ∈ moves, m.GoesOn) →
      moves.length ≤ n.weight ∧
        ((∀ m : NetworkMove I R, m.GoesOn → step cfg n' m = none) → n'.AtRest)) ∧
      (∃ moves n', (∀ m ∈ moves, m.GoesOn) ∧ Run (ofFun (step cfg)) n moves n' ∧ n'.AtRest) ∧
      (n.AtRest → ∀ l ∈ n.links, (∀ x, l.isOpen x = true) → ∀ x call message,
        .registered call message ∈ (l.endpoint x).log → System.Settled l.whole x call) := by
  have hlower : ∀ {n : Network I R} {move n'}, move.GoesOn → ofFun (step cfg) n move n' → n'.weight < n.weight :=
    fun hm hst => weight_step hm (step_cases hst)
  have hkeep : ∀ {n : Network I R} {move n'}, Reachable cfg infoHandler requestHandler n →
      ofFun (step cfg) n move n' → Reachable cfg infoHandler requestHandler n' := by
    rintro n move n' ⟨moves, hrun⟩ hst
    exact ⟨_, hrun.snoc hst⟩
  have hgo : ∀ {n : Network I R}, Reachable cfg infoHandler requestHandler n → ¬ n.AtRest →
      ∃ (move : NetworkMove I R) (n' : Network I R), move.GoesOn ∧ step cfg n move = some n' := by
    intro n hn hrest
    exact goes_on (fun k l x hk => hn.noneWaits (fun k body => hw k x body) hk) hrest
  refine ⟨fun moves n' hrun hmoves => ?_,
    exists_run_to_rest (ofFun (step cfg)) hlower (fun hn _ hst => hkeep hn hst) hgo le_rfl h, ?_⟩
  · refine ⟨(Nat.le_add_right _ _).trans (hrun.length_add_weight_le hmoves hlower), fun hend => ?_⟩
    have hn' : Reachable cfg infoHandler requestHandler n' :=
      hrun.invariant (P := fun n => Reachable cfg infoHandler requestHandler n) hkeep h
    by_contra hrest
    obtain ⟨m, n'', hm, hstep⟩ := hgo hn' hrest
    rw [hend m hm] at hstep
    cases hstep
  · intro hrest l hl hopen x call message hreg
    obtain ⟨k, hk⟩ := List.mem_iff_getElem?.mp hl
    obtain ⟨infoHandlers, requestHandlers, hlink⟩ := h.link hk
    have hquiescent : System.Quiescent l.whole := by
      intro y
      obtain ⟨hsending, hidle, -⟩ := hrest l hl y
      have hchannel := (hrest l hl y.peer).2.2 (hopen y.peer)
      rw [Side.peer_peer] at hchannel
      refine ⟨?_, hsending, hidle⟩
      show l.channel y ++ l.lost y = []
      rw [hchannel, l.nothingLost y (hopen y)]
      rfl
    exact hlink.settled hquiescent hreg

theorem network_comes_to_rest_two_clients :
    ∃ n, exec (step plain) (start none (some ())) twoClients = some n ∧
      ∃ moves n', (∀ m ∈ moves, m.GoesOn) ∧ Run (ofFun (step plain)) n moves n' ∧ n'.AtRest := by
  have hrun : (exec (step plain) (start none (some ())) twoClients).map (fun n => n.links.length) =
      some 2 := by decide
  obtain ⟨n, hn, -⟩ := Option.map_eq_some_iff.mp hrun
  exact ⟨n, hn, (network_comes_to_rest (fun _ _ _ => rfl) ⟨twoClients, run_of_exec hn⟩).2.1⟩

end Network

end Communique
