import Communique.Lib.Run
import Communique.Protocol.Endpoint
import Mathlib.Logic.Function.Basic

/-!
# Two ends and the transport between them

The transport delivers the frames of each direction once and in the order they were sent. What the
threads do and when a frame is delivered is up to the environment: any interleaving is a run.

* `Config` : what the results are stated for: the hosts, whether the io thread waits for the tasks that it
  starts, and which request handlers may wait for a request of their own;
* `System`, `Move`, `step` : the state and one step, evaluated;
* `step_cases` : a step changes one end and one or two channels; `Stepped.each_endpoint` : what each end
  keeps, a step keeps;
* `Reachable`, `Reachable.invariant` : the states of the runs, and what holds in all of them.
-/

namespace Communique
open Transition

inductive Side
  | A
  | B
  deriving DecidableEq

def Side.peer : Side → Side
  | .A => .B
  | .B => .A

@[simp] theorem Side.peer_peer (x : Side) : x.peer.peer = x := by
  cases x <;> rfl

@[simp] theorem Side.peer_ne (x : Side) : x.peer ≠ x := by
  cases x <;> decide

@[simp] theorem Side.ne_peer (x : Side) : x ≠ x.peer := (Side.peer_ne x).symm

theorem Side.eq_or_eq_peer (x y : Side) : y = x ∨ y = x.peer := by
  cases x <;> cases y <;> decide

structure Config where
  platform : Side → Platform
  /-- The destructor of the future of `std::async`, which `onMessage` drops at once, waits for the task. -/
  waitsForTask : Bool
  /-- The request handler of the end may wait for a request of its own when it is called on the body. -/
  mayWait : Side → Bytes → Bool

/-- The two ends, and the frames that an end has sent and the other one has not been given. -/
structure System (I R : Type) where
  endpoint : Side → Endpoint I R
  channel : Side → List Frame

inductive Move (I R : Type)
  | act (x : Side) (action : Action I R)
  /-- The next frame for `x` is delivered; an info handler called on it ends with `infoOutcome`. -/
  | deliver (x : Side) (infoOutcome : Except Exn Unit)

namespace System
variable {I R : Type}

/-- The two ends with the handlers they start with. -/
def start (infoHandler : Side → Option I) (requestHandler : Side → Option R) : System I R where
  endpoint x := Endpoint.start (infoHandler x) (requestHandler x)
  channel _ := []

/-- The end `x` has become `e` and has sent `out`. -/
def put (s : System I R) (x : Side) (e : Endpoint I R) (out : List Frame) : System I R where
  endpoint := Function.update s.endpoint x (e.recordSent out)
  channel := Function.update s.channel x (s.channel x ++ out)

/-- The channel of `x` without its first frame. -/
def take (s : System I R) (x : Side) (rest : List Frame) : System I R :=
  { s with channel := Function.update s.channel x rest }

def step (cfg : Config) (s : System I R) : Move I R → Option (System I R)
  | .act x action =>
    ((s.endpoint x).act (cfg.platform x) (cfg.mayWait x) action).map fun r => s.put x r.1 r.2
  | .deliver x infoOutcome =>
    match s.channel x.peer with
    | [] => none
    | frame :: rest =>
      if cfg.waitsForTask ∧ ¬ (s.endpoint x).Idle then none
      else
        let r := (s.endpoint x).receive (cfg.platform x) infoOutcome frame
        some ((s.take x.peer rest).put x r.1 r.2)

section Frame
variable (s : System I R) (x : Side) (e : Endpoint I R) (out rest : List Frame)

@[simp] theorem put_endpoint_self : (s.put x e out).endpoint x = e.recordSent out :=
  Function.update_self x _ s.endpoint

@[simp] theorem put_endpoint_peer : (s.put x e out).endpoint x.peer = s.endpoint x.peer :=
  Function.update_of_ne x.peer_ne _ s.endpoint

@[simp] theorem put_channel_self : (s.put x e out).channel x = s.channel x ++ out :=
  Function.update_self x _ s.channel

@[simp] theorem put_channel_peer : (s.put x e out).channel x.peer = s.channel x.peer :=
  Function.update_of_ne x.peer_ne _ s.channel

@[simp] theorem put_endpoint_of_peer : (s.put x.peer e out).endpoint x = s.endpoint x :=
  Function.update_of_ne x.ne_peer _ s.endpoint

@[simp] theorem put_channel_of_peer : (s.put x.peer e out).channel x = s.channel x :=
  Function.update_of_ne x.ne_peer _ s.channel

@[simp] theorem take_endpoint : (s.take x rest).endpoint = s.endpoint := rfl

@[simp] theorem take_channel_self : (s.take x rest).channel x = rest :=
  Function.update_self x _ s.channel

@[simp] theorem take_channel_of_peer : (s.take x.peer rest).channel x = s.channel x :=
  Function.update_of_ne x.ne_peer _ s.channel

end Frame

/-- What one step changes: a thread of `x` has acted, or `x` was given the next frame. -/
inductive Stepped (cfg : Config) (s : System I R) : Move I R → System I R → Prop
  | act {x : Side} {a : Action I R} {e : Endpoint I R} {out : List Frame}
      (h : Endpoint.Acted (cfg.platform x) (cfg.mayWait x) (s.endpoint x) a e out) :
      Stepped cfg s (.act x a) (s.put x e out)
  | deliver {x : Side} {infoOutcome : Except Exn Unit} {e : Endpoint I R} {out : List Frame}
      {frame : Frame} {rest : List Frame} (hc : s.channel x.peer = frame :: rest)
      (hidle : cfg.waitsForTask → (s.endpoint x).Idle)
      (h : Endpoint.Received (cfg.platform x) (s.endpoint x) infoOutcome frame e out) :
      Stepped cfg s (.deliver x infoOutcome) ((s.take x.peer rest).put x e out)

theorem step_cases {cfg : Config} {s t : System I R} {m : Move I R} (h : step cfg s m = some t) :
    Stepped cfg s m t := by
  cases m with
  | act x a =>
    obtain ⟨r, hr, rfl⟩ := Option.map_eq_some_iff.mp h
    exact Stepped.act (Endpoint.act_cases hr)
  | deliver x infoOutcome =>
    rw [step] at h
    cases hc : s.channel x.peer with
    | nil =>
      rw [hc] at h
      cases h
    | cons frame rest =>
      rw [hc] at h
      obtain ⟨hidle, h⟩ := Option.ite_none_left_eq_some.mp h
      cases h
      refine Stepped.deliver hc (fun hw => ?_) (Endpoint.receive_cases _ _ infoOutcome frame)
      by_contra hbusy
      exact hidle ⟨hw, hbusy⟩

/-- What an end keeps when one of its threads acts and when it is given a frame, both ends keep. -/
theorem Stepped.each_endpoint {cfg : Config} {s t : System I R} {m : Move I R}
    {P : Endpoint I R → Prop} (hst : Stepped cfg s m t) (h : ∀ x, P (s.endpoint x))
    (hact : ∀ {x a e out}, m = .act x a →
      Endpoint.Acted (cfg.platform x) (cfg.mayWait x) (s.endpoint x) a e out → P (e.recordSent out))
    (hreceive : ∀ {x infoOutcome frame e out}, m = .deliver x infoOutcome →
      (cfg.waitsForTask → (s.endpoint x).Idle) →
      Endpoint.Received (cfg.platform x) (s.endpoint x) infoOutcome frame e out → P (e.recordSent out))
    (y : Side) : P (t.endpoint y) := by
  cases hst with
  | @act x a e out ha =>
    rcases Side.eq_or_eq_peer x y with rfl | rfl
    · rw [put_endpoint_self]
      exact hact rfl ha
    · rw [put_endpoint_peer]
      exact h x.peer
  | @deliver x infoOutcome e out frame rest hc hidle hr =>
    rcases Side.eq_or_eq_peer x y with rfl | rfl
    · rw [put_endpoint_self]
      exact hreceive rfl hidle hr
    · rw [put_endpoint_peer]
      exact h x.peer

/-- No frame is in flight and no thread is in a call. -/
def Quiescent (s : System I R) : Prop :=
  ∀ x, s.channel x = [] ∧ (s.endpoint x).sending = [] ∧ (s.endpoint x).Idle

instance (s : System I R) : Decidable (Quiescent s) :=
  decidable_of_iff
    ((s.channel .A = [] ∧ (s.endpoint .A).sending = [] ∧ (s.endpoint .A).Idle) ∧
      s.channel .B = [] ∧ (s.endpoint .B).sending = [] ∧ (s.endpoint .B).Idle)
    ⟨fun h x => match x with
      | .A => h.1
      | .B => h.2, fun h => ⟨h .A, h .B⟩⟩

/-- The states of the runs from ends with the given handlers. -/
def Reachable (cfg : Config) (infoHandler : Side → Option I) (requestHandler : Side → Option R)
    (s : System I R) : Prop :=
  ∃ moves, Run (ofFun (step cfg)) (start infoHandler requestHandler) moves s

theorem reachable_of_exec {cfg : Config} {infoHandler : Side → Option I}
    {requestHandler : Side → Option R} {moves : List (Move I R)} {s : System I R}
    (h : exec (step cfg) (start infoHandler requestHandler) moves = some s) :
    Reachable cfg infoHandler requestHandler s := ⟨moves, run_of_exec h⟩

theorem Reachable.invariant {cfg : Config} {infoHandler : Side → Option I}
    {requestHandler : Side → Option R} {P : System I R → Prop}
    (hstart : P (start infoHandler requestHandler)) (hstep : ∀ {s m t}, P s → Stepped cfg s m t → P t)
    {s : System I R} (h : Reachable cfg infoHandler requestHandler s) : P s := by
  obtain ⟨moves, hrun⟩ := h
  exact hrun.invariant (fun hs hst => hstep hs (step_cases hst)) hstart

end System

end Communique
