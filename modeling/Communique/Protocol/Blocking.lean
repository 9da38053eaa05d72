import Communique.Protocol.System

/-!
# The io thread and the handlers

`onMessage` drops the future that `std::async` returns, and the destructor of that future waits for the
task: the io thread of an end stands still while a handler runs. A request handler that waits for a
request of its own waits for an answer which this thread would have to deliver.

* `Stuck` : something is left to do, and no delivery and no handler can go on;
* `not_stuck` : without a handler that waits, there is no such state;
* `Deadlocked`, `stuckRun_deadlocked` : with one, on any body and at either end, there is;
* **`never_stuck_iff`** : exactly which handlers keep the two ends going.
-/

namespace Communique
open Transition Storage

variable {I R : Type}

/-- The moves of the transport and of the handlers: all but the calls that the users make. -/
def Move.Progresses : Move I R → Prop
  | .deliver _ _ => True
  | .act _ (.start _) => True
  | .act _ (.resume _) => True
  | .act _ (.finish _ _) => True
  | .act _ (.invoke _) => True
  | _ => False

namespace System
variable {cfg : Config} {s t : System I R}

/-- A frame is undelivered or a handler is unfinished. -/
def Busy (s : System I R) : Prop := ∃ x, s.channel x ≠ [] ∨ ¬ (s.endpoint x).Idle

def Stuck (cfg : Config) (s : System I R) : Prop :=
  Busy s ∧ ∀ m : Move I R, m.Progresses → step cfg s m = none

/-! ## No handler waits -/

/-- No task is waiting. -/
def NoneWaits (e : Endpoint I R) : Prop :=
  ∀ t ∈ e.requestTasks, t.progress = .created ∨ t.progress = .running

theorem noneWaits_act {platform : Platform} {mayWait : Bytes → Bool} {e e' : Endpoint I R}
    {a : Action I R} {out : List Frame} (hw : ∀ body, mayWait body = false) (h : NoneWaits e)
    (ha : Endpoint.Acted platform mayWait e a e' out) : NoneWaits (e'.recordSent out) := by
  cases ha with
  | @start i before after t ht hp =>
    intro u hu
    have hcases : u ∈ before ∨ u = { t with progress := .running } ∨ u ∈ after := by simpa using hu
    rcases hcases with hu | rfl | hu
    · exact h u (by rw [ht]; exact List.mem_append_left _ hu)
    · exact Or.inr rfl
    · exact h u (by rw [ht]; exact List.mem_append_right _ (List.mem_cons_of_mem _ hu))
  | wait ht hp hmay =>
    rw [hw] at hmay
    cases hmay
  | @resume i call before after t ht hp =>
    have hrunning := h t (by rw [ht]; exact List.mem_append_right _ List.mem_cons_self)
    rw [hp] at hrunning
    rcases hrunning with hc | hc <;> cases hc
  | @finish i outcome before after t ht hp =>
    intro u hu
    apply h u
    rw [ht]
    rcases List.mem_append.mp hu with hu | hu
    · exact List.mem_append_left _ hu
    · exact List.mem_append_right _ (List.mem_cons_of_mem _ hu)
  | _ => exact h

theorem noneWaits_receive {platform : Platform} {infoOutcome : Except Exn Unit} {e e' : Endpoint I R}
    {frame : Frame} {out : List Frame} (h : NoneWaits e)
    (hr : Endpoint.Received platform e infoOutcome frame e' out) : NoneWaits (e'.recordSent out) := by
  cases hr with
  | requestTask ht =>
    intro u hu
    rcases List.mem_append.mp hu with hu | hu
    · exact h u hu
    · rw [List.mem_singleton.mp hu]
      exact Or.inl rfl
  | _ => exact h

theorem noneWaits_step {m : Move I R} (hw : ∀ x body, cfg.mayWait x body = false)
    (h : ∀ x, NoneWaits (s.endpoint x)) (hst : Stepped cfg s m t) (y : Side) : NoneWaits (t.endpoint y) := by
  apply hst.each_endpoint h
  · intro x a e out hm ha
    exact noneWaits_act (hw x) (h x) ha
  · intro x infoOutcome frame e out hm hidle hr
    exact noneWaits_receive (h x) hr

/-- A task that does not wait can go on: it starts its handler, or the handler returns or throws. -/
theorem task_progresses (cfg : Config) {x : Side} {task : RequestTask} {rest : List RequestTask}
    (hl : (s.endpoint x).requestTasks = task :: rest)
    (h : task.progress = .created ∨ task.progress = .running) :
    ∃ m : Move I R, m.Progresses ∧ step cfg s m ≠ none := by
  rcases h with hp | hp
  · cases hset : (s.endpoint x).connection.requestHandler with
    | some requestHandler =>
      refine ⟨.act x (.start 0), trivial, ?_⟩
      simp [step, Endpoint.act, hl, hp, hset]
    | none =>
      refine ⟨.act x (.finish 0 (.error (.exception []))), trivial, ?_⟩
      simp [step, Endpoint.act, hl, hp, hset, Endpoint.isException]
  · refine ⟨.act x (.finish 0 (.ok [])), trivial, ?_⟩
    simp [step, Endpoint.act, hl, hp]

/-- If no task waits and something is left to do, it can be done. -/
theorem not_stuck (h : ∀ x, NoneWaits (s.endpoint x)) : ¬ Stuck cfg s := by
  rintro ⟨hbusy, hnone⟩
  have hno : ∀ m : Move I R, m.Progresses → ¬ step cfg s m ≠ none := fun m hm hne => hne (hnone m hm)
  have hidle : ∀ x, (s.endpoint x).Idle := by
    intro x
    constructor
    · cases hl : (s.endpoint x).requestTasks with
      | nil => rfl
      | cons task rest =>
        have htask : task ∈ (s.endpoint x).requestTasks := by
          rw [hl]
          exact List.mem_cons_self
        obtain ⟨m, hm, hne⟩ := task_progresses cfg hl (h x task htask)
        exact absurd hne (hno m hm)
    · cases hl : (s.endpoint x).responseTasks with
      | nil => rfl
      | cons task rest =>
        refine absurd ?_ (hno (.act x (.invoke 0)) trivial)
        simp [step, Endpoint.act, hl]
  obtain ⟨x, hx⟩ := hbusy
  have hchannel : s.channel x ≠ [] := hx.resolve_right (not_not_intro (hidle x))
  refine absurd ?_ (hno (.deliver x.peer (.ok ())) trivial)
  cases hc : s.channel x with
  | nil => exact absurd hc hchannel
  | cons frame rest => simp [step, hc, hidle x.peer]

/-! ## A handler waits -/

/-- The end `x` waits for the answer to its call, which it has been sent: its io thread stands still, and
the other end has nothing to do. -/
structure Deadlocked (s : System I R) (x : Side) (call : Nat) : Prop where
  waits : (s.endpoint x).requestTasks.map RequestTask.progress = [.waiting call]
  responseTasks : (s.endpoint x).responseTasks = []
  notInvoked : invokedHandlers (s.endpoint x).log = []
  peerIdle : (s.endpoint x.peer).Idle
  channel : s.channel x = []

theorem Deadlocked.stuck {x : Side} {call : Nat} (h : Deadlocked s x call) (hw : cfg.waitsForTask = true) :
    Stuck cfg s := by
  obtain ⟨task, htasks, hp⟩ := List.map_eq_singleton_iff.mp h.waits
  have hbusy : ¬ (s.endpoint x).Idle := fun hidle => by
    rw [hidle.1] at htasks
    cases htasks
  have htask : ∀ (i : Nat) (t : RequestTask), (s.endpoint x).requestTasks[i]? = some t → t = task := by
    intro i t ht
    rw [htasks] at ht
    exact List.mem_singleton.mp (List.mem_of_getElem? ht)
  refine ⟨⟨x, Or.inr hbusy⟩, ?_⟩
  have hact : ∀ y (a : Action I R), (Move.act y a).Progresses → step cfg s (.act y a) = none := by
    intro y a hprog
    apply Option.map_eq_none_iff.mpr
    rcases Side.eq_or_eq_peer x y with rfl | rfl
    · cases a with
      | start i =>
        apply Option.bind_eq_none_iff.mpr
        intro t ht
        rw [htask i t ht, hp]
        simp
      | resume i =>
        apply Option.bind_eq_none_iff.mpr
        intro t ht
        have hno : ¬ t.hasAnswer (s.endpoint y).log := by
          rw [htask i t ht, RequestTask.hasAnswer, hp, h.notInvoked]
          simp
        rw [if_neg hno]
      | finish i outcome =>
        apply Option.bind_eq_none_iff.mpr
        intro t ht
        rw [htask i t ht, hp]
        simp
      | invoke i => simp [Endpoint.act, h.responseTasks]
      | _ => cases hprog
    · have hpeer := h.peerIdle
      cases a with
      | start i => simp [Endpoint.act, hpeer.1]
      | resume i => simp [Endpoint.act, hpeer.1]
      | finish i outcome => simp [Endpoint.act, hpeer.1]
      | invoke i => simp [Endpoint.act, hpeer.2]
      | _ => cases hprog
  intro m hm
  cases m with
  | act y a => exact hact y a hm
  | deliver y infoOutcome =>
    rcases Side.eq_or_eq_peer x y with rfl | rfl
    · rw [step]
      cases hc : s.channel y.peer with
      | nil => rfl
      | cons frame rest => exact if_pos ⟨hw, hbusy⟩
    · rw [step, Side.peer_peer, h.channel]

/-- The peer sends a request, and its handler at `x` sends one back and waits for it. -/
def stuckRun (x : Side) (body : Bytes) : List (Move I R) :=
  [.act x.peer (.push body), .act x.peer (.send 0), .deliver x (.ok ()), .act x (.start 0),
    .act x (.push []), .act x (.send 0), .act x (.wait 0 0), .deliver x.peer (.ok ()),
    .act x.peer (.start 0), .act x.peer (.finish 0 (.ok []))]

theorem push_empty (H : Type) (h : H) :
    ∃ storage, (UniqueTokenStorage.empty 32 H).push h = .ok (0, storage) := ⟨_, rfl⟩

theorem stuckRun_deadlocked (platform : Side → Platform) (mayWait : Side → Bytes → Bool)
    (infoHandler : Side → Option I) (requestHandler : Side → R) (x : Side) (body : Bytes)
    (h : mayWait x body = true) :
    ∃ s, exec (step ⟨platform, true, mayWait⟩) (start infoHandler fun y => some (requestHandler y))
      (stuckRun x body) = some s ∧ Deadlocked s x 0 := by
  obtain ⟨storage, hpush⟩ := push_empty Nat 0
  have hrun : ∃ s, exec (step ⟨platform, true, mayWait⟩)
      (start infoHandler fun y => some (requestHandler y)) (stuckRun x body) = some s ∧
      (s.endpoint x).requestTasks.map RequestTask.progress = [.waiting 0] ∧
      (s.endpoint x).responseTasks = [] ∧ invokedHandlers (s.endpoint x).log = [] ∧
      (s.endpoint x.peer).Idle ∧ s.channel x = [] := by
    simp [stuckRun, exec, step, start, Endpoint.start, Endpoint.act, Connection.new, hpush,
      Endpoint.receive_request, Endpoint.Idle, h, ofType_cons]
  obtain ⟨s, hs, hwaits, hresponse, hinvoked, hpeer, hchannel⟩ := hrun
  exact ⟨s, hs, hwaits, hresponse, hinvoked, hpeer, hchannel⟩

/-- **The ends never get stuck exactly when no request handler waits** for a request of its own. -/
theorem never_stuck_iff (platform : Side → Platform) (mayWait : Side → Bytes → Bool)
    (infoHandler : Side → Option I) (requestHandler : Side → R) :
    (∀ s, Reachable ⟨platform, true, mayWait⟩ infoHandler (fun x => some (requestHandler x)) s →
        ¬ Stuck ⟨platform, true, mayWait⟩ s) ↔
      ∀ x body, mayWait x body = false := by
  constructor
  · intro hnever x body
    by_contra hmay
    obtain ⟨s, hs, hdead⟩ := stuckRun_deadlocked platform mayWait infoHandler requestHandler x body
      (Bool.eq_true_of_not_eq_false hmay)
    exact hnever s (reachable_of_exec hs) (hdead.stuck rfl)
  · intro hw s hreach
    apply not_stuck
    apply hreach.invariant (P := fun s => ∀ x, NoneWaits (s.endpoint x))
    · intro x t ht
      cases ht
    · intro s m t hs hst
      exact noneWaits_step hw hs hst

/-- A request handler that waits gets the two ends stuck. -/
theorem waiting_handler_stuck :
    ¬ ∀ s : System Unit Unit,
      Reachable ⟨fun _ => ⟨.little, []⟩, true, fun _ _ => true⟩ (fun _ => some ()) (fun _ => some ()) s →
        ¬ Stuck ⟨fun _ => ⟨.little, []⟩, true, fun _ _ => true⟩ s := by
  intro hall
  obtain ⟨s, hs, hdead⟩ := stuckRun_deadlocked (fun _ => ⟨.little, []⟩) (fun _ _ => true)
    (fun _ => some ()) (fun _ => ()) .A [5] rfl
  exact hall s (reachable_of_exec hs) (hdead.stuck rfl)

end System

end Communique
