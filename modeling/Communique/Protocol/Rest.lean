import Communique.Protocol.Blocking
import Communique.Protocol.Order

/-!
# How the traffic ends

Sending what is registered, delivering what is in flight and carrying on with what is under way can not go
on for ever: a request is sent, becomes a task, is answered or refused, and the answer becomes a task of its
own.

* `Move.GoesOn` : the moves that start nothing new; `System.weight` : how many of them are left at most;
* `act_weight`, `receive_weight`, `weight_step` : every such move takes something off the weight;
* **`comes_to_rest`** : where no handler waits, such moves end, and they end in a quiescent state;
* `Settled`, **`settled_at_rest`** : then every call has been answered once: its handler was run on what the
  request handler returned, or its request was refused.
-/

namespace Communique
open Transition

variable {I R : Type}

/-- The moves of the transport and of the handlers, and the second half of `sendRequest`. -/
def Move.GoesOn : Move I R → Prop
  | .act _ (.send _) => True
  | m => m.Progresses

theorem Move.Progresses.goesOn {m : Move I R} (h : m.Progresses) : m.GoesOn := by
  cases m with
  | deliver x infoOutcome => trivial
  | act x a => cases a <;> first | exact h | trivial

/-! ## The weight of what is left to do -/

/-- A request in flight stands for its task and for its answer, a response for its task. -/
def Frame.weight (frame : Frame) : Nat :=
  match frame.type with
  | some .REQUEST => 5
  | some .RESPONSE => 2
  | _ => 1

def Progress.weight : Progress → Nat
  | .created => 4
  | .running => 3
  | .waiting _ => 4

def framesWeight (frames : List Frame) : Nat := (frames.map Frame.weight).sum

def tasksWeight (tasks : List RequestTask) : Nat := (tasks.map fun t => t.progress.weight).sum

@[simp] theorem framesWeight_nil : framesWeight [] = 0 := rfl

@[simp] theorem framesWeight_cons (frame : Frame) (frames : List Frame) :
    framesWeight (frame :: frames) = frame.weight + framesWeight frames := by
  rw [framesWeight, List.map_cons, List.sum_cons, framesWeight]

@[simp] theorem framesWeight_append (frames frames' : List Frame) :
    framesWeight (frames ++ frames') = framesWeight frames + framesWeight frames' := by
  rw [framesWeight, List.map_append, List.sum_append, framesWeight, framesWeight]

@[simp] theorem tasksWeight_cons (t : RequestTask) (tasks : List RequestTask) :
    tasksWeight (t :: tasks) = t.progress.weight + tasksWeight tasks := by
  rw [tasksWeight, List.map_cons, List.sum_cons, tasksWeight]

@[simp] theorem tasksWeight_append (tasks tasks' : List RequestTask) :
    tasksWeight (tasks ++ tasks') = tasksWeight tasks + tasksWeight tasks' := by
  rw [tasksWeight, List.map_append, List.sum_append, tasksWeight, tasksWeight]

@[simp] theorem tasksWeight_nil : tasksWeight [] = 0 := rfl

theorem Frame.weight_pos (frame : Frame) : 0 < frame.weight := by
  unfold Frame.weight
  split <;> omega

/-- An answer weighs less than the task that sends it. -/
theorem weight_answer_lt (platform : Platform) (receivedMessage : Message) (outcome : Except Exn Bytes)
    (call : Nat) (progress : Progress) :
    Frame.weight ⟨Connection.answer platform receivedMessage outcome, call⟩ < progress.weight := by
  have hprogress : 3 ≤ progress.weight := by
    cases progress <;> simp [Progress.weight]
  have hanswer : Frame.weight ⟨Connection.answer platform receivedMessage outcome, call⟩ ≤ 2 := by
    obtain ⟨body, type, htype, hanswer⟩ := Connection.answer_eq_build platform receivedMessage outcome
    rw [hanswer, Frame.weight, Frame.type_build]
    rcases htype with rfl | rfl <;> simp
  omega

namespace Endpoint

def weight (e : Endpoint I R) : Nat := 6 * e.sending.length + tasksWeight e.requestTasks + e.responseTasks.length

variable {platform : Platform} {mayWait : Bytes → Bool} {e e' : Endpoint I R} {out : List Frame}

theorem act_weight {x : Side} {a : Action I R} (hgo : (Move.act x a).GoesOn)
    (h : Acted platform mayWait e a e' out) : (e'.recordSent out).weight + framesWeight out < e.weight := by
  unfold weight
  cases h with
  | send h =>
    simp [h, Frame.weight]
    omega
  | start h ht => simp [h, ht, Progress.weight]
  | resume h ht => simp [h, ht, Progress.weight]
  | @finish i outcome before after t h ht =>
    have hlt := weight_answer_lt platform t.receivedMessage outcome t.call t.progress
    simp [h]
    omega
  | invoke h => simp [h]
  | _ => cases hgo

theorem receive_weight {infoOutcome : Except Exn Unit} {frame : Frame}
    (h : Received platform e infoOutcome frame e' out) :
    (e'.recordSent out).weight + framesWeight out < e.weight + frame.weight := by
  have hpos := frame.weight_pos
  unfold weight
  cases h with
  | infoHandled ht => simpa using hpos
  | unhandled hq hp hi => simpa using hpos
  | requestTask ht =>
    simp [Frame.weight, ht, Progress.weight]
    omega
  | requestRefused ht hset => simp [Frame.weight, ht]
  | responseTask ht hp =>
    simp [Frame.weight, ht]
    omega
  | responseIgnored ht hp => simpa using hpos

end Endpoint

namespace System
variable {cfg : Config} {s t : System I R} {m : Move I R}

/-- What the end has to do and what is in flight from it. -/
def weightOf (s : System I R) (x : Side) : Nat := (s.endpoint x).weight + framesWeight (s.channel x)

def weight (s : System I R) : Nat := s.weightOf .A + s.weightOf .B

theorem weight_eq (s : System I R) (x : Side) : s.weight = s.weightOf x + s.weightOf x.peer := by
  cases x with
  | A => rfl
  | B => exact Nat.add_comm _ _

theorem weight_step (hgo : m.GoesOn) (hst : Stepped cfg s m t) : t.weight < s.weight := by
  cases hst with
  | @act x a e out h =>
    have hact := Endpoint.act_weight hgo h
    rw [weight_eq _ x, weight_eq s x, weightOf, weightOf, weightOf, weightOf, put_endpoint_self,
      put_endpoint_peer, put_channel_self, put_channel_peer, framesWeight_append]
    omega
  | @deliver x infoOutcome e out frame rest hc hidle h =>
    have hreceive := Endpoint.receive_weight h
    rw [weight_eq _ x, weight_eq s x, weightOf, weightOf, weightOf, weightOf, put_endpoint_self,
      put_endpoint_peer, put_channel_self, put_channel_peer, take_endpoint, take_channel_of_peer,
      take_channel_self, framesWeight_append, hc, framesWeight_cons]
    omega

/-- If no task waits, something can be done until the state is quiescent. -/
theorem goes_on (h : ∀ x, NoneWaits (s.endpoint x)) (hq : ¬ Quiescent s) :
    ∃ (m : Move I R) (t : System I R), m.GoesOn ∧ step cfg s m = some t := by
  by_cases hbusy : Busy s
  · have hstuck : ¬ Stuck cfg s := not_stuck h
    rw [Stuck, not_and] at hstuck
    have hmove := hstuck hbusy
    rw [not_forall] at hmove
    obtain ⟨m, hm⟩ := hmove
    rw [Classical.not_imp] at hm
    obtain ⟨t, ht⟩ := Option.ne_none_iff_exists'.mp hm.2
    exact ⟨m, t, hm.1.goesOn, ht⟩
  · rw [Busy, not_exists] at hbusy
    rw [Quiescent, not_forall] at hq
    obtain ⟨x, hx⟩ := hq
    obtain ⟨hchannel, hidle⟩ := not_or.mp (hbusy x)
    cases hsending : (s.endpoint x).sending with
    | nil => exact absurd ⟨not_not.mp hchannel, hsending, not_not.mp hidle⟩ hx
    | cons p rest =>
      have hsend : step cfg s (.act x (.send 0)) ≠ none := by simp [step, Endpoint.act, hsending]
      obtain ⟨t, ht⟩ := Option.ne_none_iff_exists'.mp hsend
      exact ⟨.act x (.send 0), t, trivial, ht⟩

/-- **The traffic comes to rest.** Where no request handler waits for a request of its own, from every
reachable state: the moves that start nothing new are at most as many as the weight of the state; where none of
them can be taken any more, no frame is in flight and no thread is in a call; and such a state can be reached. The
other handlers do not wait: an info handler returns within the move that delivers its message, a response handler
within the move that runs it. -/
theorem comes_to_rest {infoHandler : Side → Option I} {requestHandler : Side → Option R}
    (hw : ∀ x body, cfg.mayWait x body = false) (h : Reachable cfg infoHandler requestHandler s) :
    (∀ moves t, Run (ofFun (step cfg)) s moves t → (∀ m ∈ moves, m.GoesOn) →
      moves.length ≤ s.weight ∧ ((∀ m : Move I R, m.GoesOn → step cfg t m = none) → Quiescent t)) ∧
      ∃ moves t, (∀ m ∈ moves, m.GoesOn) ∧ Run (ofFun (step cfg)) s moves t ∧ Quiescent t := by
  have hlower : ∀ {s : System I R} {m t}, m.GoesOn → ofFun (step cfg) s m t → t.weight < s.weight :=
    fun hm hst => weight_step hm (step_cases hst)
  have hkeep : ∀ {s : System I R} {m t}, (∀ x, NoneWaits (s.endpoint x)) → ofFun (step cfg) s m t →
      ∀ x, NoneWaits (t.endpoint x) := fun hs hst => noneWaits_step hw hs (step_cases hst)
  have hs : ∀ x, NoneWaits (s.endpoint x) := by
    apply h.invariant (P := fun s => ∀ x, NoneWaits (s.endpoint x))
    · intro x t ht
      cases ht
    · intro s m t hs hst
      exact noneWaits_step hw hs hst
  constructor
  · intro moves t hrun hmoves
    refine ⟨(Nat.le_add_right _ _).trans (hrun.length_add_weight_le hmoves hlower), fun hend => ?_⟩
    have ht : ∀ x, NoneWaits (t.endpoint x) :=
      hrun.invariant (P := fun s => ∀ x, NoneWaits (s.endpoint x)) hkeep hs
    by_contra hq
    obtain ⟨m, u, hm, hstep⟩ := goes_on ht hq
    rw [hend m hm] at hstep
    cases hstep
  · exact exists_run_to_rest (ofFun (step cfg)) hlower (fun hs _ hst => hkeep hs hst) goes_on le_rfl hs

/-- `A` has registered a call: six moves are left. -/
theorem comes_to_rest_registered :
    ∃ s : System Unit Unit, Reachable plain (fun _ => some ()) (fun _ => some ()) s ∧ s.weight = 6 ∧
      ∃ moves t, (∀ m ∈ moves, m.GoesOn) ∧ Run (ofFun (step plain)) s moves t ∧ Quiescent t := by
  have hrun : (exec (step plain) (start (fun _ => some ()) fun _ => some ())
      [(.act .A (.push [5]) : Move Unit Unit)]).map weight = some 6 := by decide
  obtain ⟨s, hs, hweight⟩ := Option.map_eq_some_iff.mp hrun
  have hreach := reachable_of_exec hs
  exact ⟨s, hreach, hweight, (comes_to_rest (fun _ _ => rfl) hreach).2⟩

/-! ## What has become of the calls -/

theorem answersOf_cons (frame : Frame) (frames : List Frame) : answersOf (frame :: frames) =
    if frame.type = some .RESPONSE ∨ frame.type = some .REQUESTERROR then frame :: answersOf frames
    else answersOf frames := by
  unfold answersOf
  rw [List.filter_cons]
  simp only [decide_eq_true_eq]

theorem count_answersOf (frames : List Frame) (call : Nat) :
    ((answersOf frames).map Frame.call).count call =
      ((ofType .RESPONSE frames).map Frame.call).count call +
        ((ofType .REQUESTERROR frames).map Frame.call).count call := by
  induction frames with
  | nil => rfl
  | cons frame frames ih =>
    rw [ofType_cons, ofType_cons, answersOf_cons]
    by_cases hp : frame.type = some .RESPONSE
    · simp [hp, List.count_cons, ih]
      omega
    · by_cases he : frame.type = some .REQUESTERROR
      · simp [he, List.count_cons, ih]
        omega
      · simp [hp, he, ih]

theorem abandoned_calls (s : System I R) (x : Side) : (s.exchange x).abandoned.map Prod.snd =
    ↑((ofType .REQUESTERROR (deliveredFrames (s.endpoint x).log)).map Frame.call) := by
  rw [exchange, Communique.exchange, Multiset.map_coe, List.map_map]
  rfl

theorem Quiescent.atRest (h : Quiescent s) (x : Side) : (s.exchange x).AtRest := by
  obtain ⟨hchannel, hsending, hidle⟩ := h x
  obtain ⟨hchannel', -, hidle'⟩ := h x.peer
  constructor
  · simp [exchange, Communique.exchange, hchannel, hsending, hidle'.1]
  · simp [exchange, Communique.exchange, hchannel']
  · simp [exchange, Communique.exchange, hchannel']
  · simp [exchange, Communique.exchange, hidle.2]

/-- One answer has been delivered to the call. Either it is the string that the request handler of the other end
returned for the body of the call: the response handler has been run on it, once, and is out of the table. Or
it is a refusal: the response handler has not been run, and is in the table. -/
def Settled (s : System I R) (x : Side) (call : Nat) : Prop :=
  ((answersOf (deliveredFrames (s.endpoint x).log)).map Frame.call).count call = 1 ∧
    ((∃ message r, .registered call message ∈ (s.endpoint x).log ∧
        .returned call message (.ok r) ∈ (s.endpoint x.peer).log ∧ .invoked call r ∈ (s.endpoint x).log ∧
        ((invokedHandlers (s.endpoint x).log).map Prod.fst).count call = 1 ∧ ¬ Stored (s.endpoint x) call) ∨
      ((∃ frame, .delivered frame ∈ (s.endpoint x).log ∧ frame.call = call ∧ frame.type = some .REQUESTERROR) ∧
        (∀ r, .invoked call r ∉ (s.endpoint x).log) ∧ Stored (s.endpoint x) call))

theorem Reachable.settled {infoHandler : Side → Option I} {requestHandler : Side → Option R}
    (h : Reachable cfg infoHandler requestHandler s) (hq : Quiescent s) {x : Side} {call : Nat}
    {message : Bytes} (hreg : .registered call message ∈ (s.endpoint x).log) : Settled s x call := by
  have hgood := h.good x
  have hone := hgood.answered_once (hq.atRest x) (registered_iff.mp ⟨message, hreg⟩)
  have haccepted : (s.exchange x).accepted.count call =
      ((ofType .RESPONSE (deliveredFrames (s.endpoint x).log)).map Frame.call).count call := Multiset.coe_count call _
  rw [haccepted, abandoned_calls, Multiset.coe_count] at hone
  refine ⟨(count_answersOf _ _).trans hone, ?_⟩
  rcases hgood.settled (hq.atRest x) (mem_registeredCalls.mpr hreg) with
    ⟨r, hret, hinvoked, hstored⟩ | ⟨habandoned, hinvoked, hstored⟩
  · refine Or.inl ⟨message, r, hreg, mem_returnedResponses.mp hret, mem_invokedHandlers.mp hinvoked, ?_,
      fun h => hstored (stored_iff.mp h)⟩
    exact List.count_eq_one_of_mem hgood.invoked_nodup (List.mem_map_of_mem (f := Prod.fst) hinvoked)
  · rw [abandoned_calls] at habandoned
    exact Or.inr ⟨mem_map_delivered.mp habandoned, fun r hr => hinvoked r (mem_invokedHandlers.mpr hr),
      stored_iff.mpr hstored⟩

/-- **At rest every call is settled**, whatever the handlers have done and in whatever order things went. -/
theorem settled_at_rest {infoHandler : Side → Option I} {requestHandler : Side → Option R}
    (h : Reachable cfg infoHandler requestHandler s) (hq : Quiescent s) (x : Side) :
    ∀ call message, .registered call message ∈ (s.endpoint x).log → Settled s x call :=
  fun _ _ hreg => h.settled hq hreg

/-- `A` sends two requests, `B` returns 7 to the first and throws at the second. -/
def twoRequests : List (Move Unit Unit) :=
  [.act .A (.push [5]), .act .A (.push [6]), .act .A (.send 0), .act .A (.send 0), .deliver .B (.ok ()),
    .act .B (.start 0), .act .B (.finish 0 (.ok [7])), .deliver .A (.ok ()), .act .A (.invoke 0),
    .deliver .B (.ok ()), .act .B (.start 0), .act .B (.finish 0 (.error (.exception []))), .deliver .A (.ok ())]

theorem settled_at_rest_two_requests :
    ∃ s, Reachable plain (fun _ => some ()) (fun _ => some ()) s ∧ Quiescent s ∧
      Settled s .A 0 ∧ Settled s .A 1 := by
  have hrun : (exec (step plain) (start (fun _ => some ()) fun _ => some ()) twoRequests).map
      (fun s => (decide s.Quiescent, registeredCalls (s.endpoint .A).log)) =
        some (true, [(0, [5]), (1, [6])]) := by decide
  obtain ⟨s, hs, hend⟩ := Option.map_eq_some_iff.mp hrun
  obtain ⟨hq, hcalls⟩ := Prod.mk.inj hend
  have hreach := reachable_of_exec hs
  have hquiescent : Quiescent s := of_decide_eq_true hq
  have hfirst : .registered 0 [5] ∈ (s.endpoint .A).log := mem_registeredCalls.mp (by rw [hcalls]; simp)
  have hsecond : .registered 1 [6] ∈ (s.endpoint .A).log := mem_registeredCalls.mp (by rw [hcalls]; simp)
  exact ⟨s, hreach, hquiescent, settled_at_rest hreach hquiescent .A 0 _ hfirst,
    settled_at_rest hreach hquiescent .A 1 _ hsecond⟩

end System

end Communique
