import Communique.Protocol.Answers

/-!
# No loss, no duplication, in order

The io thread of each end takes one frame at a time and stands still until the task of that frame is over,
so at most one task is under way and everything happens in the order in which the frames come.

* `Move.Orderly` : the info handlers return, and the handlers, once set, stay set;
* `InOrder` : what an end sent is what the other one was given, and then what is in the channel;
* `Sends` : a call that has registered sends its request, once;
* `Serving` : what an end has done with the frames it was given, kept by every orderly step;
* **`in_order`** : what is handed to the handlers of one end is what the other end sent.
-/

namespace Communique
open Transition

variable {I R : Type}

/-- The kind and the body of the frames that are meant for the info handler or the request handler. -/
def messagesOf (frames : List Frame) : List (MessageType × Bytes) :=
  frames.filterMap fun frame => match frame.type with
    | some .INFO => some (.INFO, frame.messageBody)
    | some .REQUEST => some (.REQUEST, frame.messageBody)
    | _ => none

/-- The answers of either kind among the frames. -/
def answersOf (frames : List Frame) : List Frame :=
  frames.filter fun frame => frame.type = some .RESPONSE ∨ frame.type = some .REQUESTERROR

theorem messagesOf_append (frames frames' : List Frame) :
    messagesOf (frames ++ frames') = messagesOf frames ++ messagesOf frames' := List.filterMap_append

/-- The messages of the tasks whose handler has not been called yet. -/
def createdMessages (tasks : List RequestTask) : List (MessageType × Bytes) :=
  (tasks.filter fun t => t.progress = .created).map fun t => (.REQUEST, t.receivedMessage.messageBody)

def RequestTask.key (t : RequestTask) : UserReference × Nat :=
  (wireReference t.receivedMessage.payload, t.call)

/-- The info handlers return, and no handler is taken away. -/
def Move.Orderly : Move I R → Prop
  | .deliver _ infoOutcome => infoOutcome = .ok ()
  | .act _ (.setInfoHandler infoHandler) => infoHandler.isSome
  | .act _ (.setRequestHandler requestHandler) => requestHandler.isSome
  | _ => True

/-! ## One end -/

theorem act_frames {platform : Platform} {mayWait : Bytes → Bool} {e e' : Endpoint I R} {a : Action I R}
    {out : List Frame} (h : Endpoint.Acted platform mayWait e a e' out) :
    sentFrames (e'.recordSent out).log = sentFrames e.log ++ out ∧
      deliveredFrames (e'.recordSent out).log = deliveredFrames e.log := by
  cases h <;> constructor <;> simp

theorem receive_frames {platform : Platform} {infoOutcome : Except Exn Unit} {e e' : Endpoint I R}
    {frame : Frame} {out : List Frame} (h : Endpoint.Received platform e infoOutcome frame e' out) :
    sentFrames (e'.recordSent out).log = sentFrames e.log ++ out ∧
      deliveredFrames (e'.recordSent out).log = deliveredFrames e.log ++ [frame] := by
  cases h <;> constructor <;> simp

/-- What an end has done with the frames it was given. -/
structure Serving (e : Endpoint I R) : Prop where
  infoHandler : e.connection.infoHandler.isSome
  requestHandler : e.connection.requestHandler.isSome
  /-- At most one task is under way. -/
  oneTask : e.requestTasks.length + e.responseTasks.length ≤ 1
  /-- The messages given are those handed to the handlers, and then the one that a task is for. -/
  handled : messagesOf (deliveredFrames e.log) = handledMessages e.log ++ createdMessages e.requestTasks
  /-- The requests given are those answered, and then the one that a task is for. -/
  answered : (ofType .REQUEST (deliveredFrames e.log)).map Frame.key =
    (answersOf (sentFrames e.log)).map Frame.key ++ e.requestTasks.map RequestTask.key
  /-- The calls registered are those that have sent their request and those that will. -/
  sent : ((registeredCalls e.log).map Prod.fst).Perm
    (e.sending.map Sending.call ++ (ofType .REQUEST (sentFrames e.log)).map Frame.call)

theorem serving_start (infoHandler : I) (requestHandler : R) :
    Serving (Endpoint.start (some infoHandler) (some requestHandler)) where
  infoHandler := rfl
  requestHandler := rfl
  oneTask := Nat.zero_le 1
  handled := rfl
  answered := rfl
  sent := List.Perm.nil

/-- A task that is under way is the only one. -/
theorem Serving.task_alone {e : Endpoint I R} (h : Serving e) {before after : List RequestTask}
    {t : RequestTask} (ht : e.requestTasks = before ++ t :: after) : before = [] ∧ after = [] := by
  have hone := h.oneTask
  rw [ht, List.length_append, List.length_cons] at hone
  constructor
  · apply List.eq_nil_of_length_eq_zero
    omega
  · apply List.eq_nil_of_length_eq_zero
    omega

/-- The calls registered are those that have sent their request and those that will. -/
def Sends (e : Endpoint I R) : Prop :=
  ((registeredCalls e.log).map Prod.fst).Perm
    (e.sending.map Sending.call ++ (ofType .REQUEST (sentFrames e.log)).map Frame.call)

theorem sends_act {platform : Platform} {mayWait : Bytes → Bool} {e e' : Endpoint I R} {a : Action I R}
    {out : List Frame} (h : Sends e) (ha : Endpoint.Acted platform mayWait e a e' out) :
    Sends (e'.recordSent out) := by
  unfold Sends at h ⊢
  cases ha with
  | @push message userReference responseHandlers hp =>
    have hperm : ((registeredCalls e.log).map Prod.fst ++ [e.calls]).Perm
        ((e.sending.map Sending.call ++ [e.calls]) ++ (ofType .REQUEST (sentFrames e.log)).map Frame.call) := by
      rw [List.append_assoc]
      refine ((h.append_right [e.calls]).trans ?_)
      rw [List.append_assoc]
      exact List.perm_append_comm.append_left _
    simpa using hperm
  | @send i before after p ht =>
    have hperm : ((registeredCalls e.log).map Prod.fst).Perm
        ((before ++ after).map Sending.call ++
          ((ofType .REQUEST (sentFrames e.log)).map Frame.call ++ [p.call])) := by
      refine h.trans ?_
      rw [ht, List.map_append, List.map_cons, List.append_assoc, List.cons_append, List.map_append,
        List.append_assoc]
      apply List.Perm.append_left
      rw [← List.append_assoc]
      exact (List.perm_append_singleton _ _).symm
    simpa [ofType_cons] using hperm
  | sendInfo => simpa [ofType_cons] using h
  | @finish i outcome before after t ht hp =>
    obtain ⟨body, type, htype, hanswer⟩ := Connection.answer_eq_build platform t.receivedMessage outcome
    rw [hanswer]
    rcases htype with rfl | rfl <;> simpa [ofType_cons] using h
  | _ => simpa using h

theorem sends_receive {platform : Platform} {infoOutcome : Except Exn Unit} {e e' : Endpoint I R} {frame : Frame}
    {out : List Frame} (h : Sends e) (hr : Endpoint.Received platform e infoOutcome frame e' out) :
    Sends (e'.recordSent out) := by
  unfold Sends at h ⊢
  cases hr with
  | requestRefused ht hset => simpa [ofType_cons] using h
  | _ => simpa using h

theorem serving_act {platform : Platform} {mayWait : Bytes → Bool} {e e' : Endpoint I R} {x : Side}
    {a : Action I R} {out : List Frame} (ho : (Move.act x a).Orderly) (h : Serving e)
    (ha : Endpoint.Acted platform mayWait e a e' out) : Serving (e'.recordSent out) := by
  have halone := @h.task_alone
  have hsent := sends_act h.sent ha
  obtain ⟨hi, hr, hone, hhandled, hanswered, -⟩ := h
  cases ha with
  | full => exact ⟨hi, hr, hone, by simpa using hhandled, by simpa using hanswered, hsent⟩
  | push hp => exact ⟨hi, hr, hone, by simpa using hhandled, by simpa using hanswered, hsent⟩
  | send ht => exact ⟨hi, hr, hone, by simpa using hhandled, by simpa [answersOf] using hanswered, hsent⟩
  | sendInfo => exact ⟨hi, hr, hone, by simpa using hhandled, by simpa [answersOf] using hanswered, hsent⟩
  | @start i before after t ht hp =>
    obtain ⟨rfl, rfl⟩ := halone ht
    rw [ht] at hone hhandled hanswered
    refine ⟨hi, hr, hone, ?_, by simpa [RequestTask.key] using hanswered, hsent⟩
    simpa [createdMessages, hp] using hhandled
  | @wait i call before after t ht hp hmay =>
    obtain ⟨rfl, rfl⟩ := halone ht
    rw [ht] at hone hhandled hanswered
    refine ⟨hi, hr, hone, ?_, by simpa [RequestTask.key] using hanswered, hsent⟩
    simpa [createdMessages, hp] using hhandled
  | @resume i call before after t ht hp =>
    obtain ⟨rfl, rfl⟩ := halone ht
    rw [ht] at hone hhandled hanswered
    refine ⟨hi, hr, hone, ?_, by simpa [RequestTask.key] using hanswered, hsent⟩
    simpa [createdMessages, hp] using hhandled
  | @finish i outcome before after t ht hp =>
    obtain ⟨rfl, rfl⟩ := halone ht
    have hrunning : ¬ t.progress = .created := by
      intro hcreated
      rw [hp hcreated] at hr
      cases hr
    rw [ht] at hone hhandled hanswered
    obtain ⟨body, type, htype, hanswer⟩ := Connection.answer_eq_build platform t.receivedMessage outcome
    rw [hanswer] at hsent ⊢
    refine ⟨hi, hr, ?_, ?_, ?_, hsent⟩
    · show 0 + e.responseTasks.length ≤ 1
      have hone' : 1 + e.responseTasks.length ≤ 1 := hone
      omega
    · simpa [createdMessages, hrunning] using hhandled
    · simpa [answersOf, htype, RequestTask.key] using hanswered
  | @invoke i before after t ht =>
    refine ⟨hi, hr, ?_, by simpa using hhandled, by simpa using hanswered, hsent⟩
    rw [ht] at hone
    simp at hone ⊢
    omega
  | setInfoHandler => exact ⟨ho, hr, hone, by simpa using hhandled, by simpa using hanswered, hsent⟩
  | setRequestHandler => exact ⟨hi, ho, hone, by simpa using hhandled, by simpa using hanswered, hsent⟩

theorem serving_receive {platform : Platform} {e e' : Endpoint I R} {frame : Frame} {out : List Frame}
    (hidle : e.Idle) (h : Serving e) (hr : Endpoint.Received platform e (.ok ()) frame e' out) :
    Serving (e'.recordSent out) := by
  have hsent := sends_receive h.sent hr
  obtain ⟨htasks, hresponses⟩ := hidle
  obtain ⟨hinfo, hrequest, hone, hhandled, hanswered, -⟩ := h
  rw [htasks] at hhandled hanswered
  cases hr with
  | infoHandled ht =>
    refine ⟨hinfo, hrequest, hone, ?_, ?_, hsent⟩
    · simpa [messagesOf, createdMessages, ht, htasks] using hhandled
    · simpa [ofType_cons, ht, htasks] using hanswered
  | unhandled hq hp hi =>
    have hi' : frame.type ≠ some .INFO := by
      intro ht
      rcases hi ht with hnone | hthrow
      · rw [hnone] at hinfo
        cases hinfo
      · exact hthrow rfl
    refine ⟨hinfo, hrequest, hone, ?_, ?_, hsent⟩
    · simpa [messagesOf, createdMessages, htasks] using hhandled
    · simpa [ofType_cons, hq, htasks] using hanswered
  | requestTask ht =>
    refine ⟨hinfo, hrequest, ?_, ?_, ?_, hsent⟩
    · simp [htasks, hresponses]
    · simpa [messagesOf, createdMessages, ht, htasks, Frame.messageBody] using hhandled
    · simpa [ofType_cons, ht, htasks, RequestTask.key, Frame.key, Frame.token] using hanswered
  | requestRefused ht hset =>
    rw [hset] at hrequest
    cases hrequest
  | responseTask ht hp =>
    refine ⟨hinfo, hrequest, ?_, ?_, ?_, hsent⟩
    · simp [htasks, hresponses]
    · simpa [messagesOf, createdMessages, ht, htasks] using hhandled
    · simpa [ofType_cons, ht, htasks] using hanswered
  | responseIgnored ht hp =>
    refine ⟨hinfo, hrequest, hone, ?_, ?_, hsent⟩
    · simpa [messagesOf, createdMessages, ht, htasks] using hhandled
    · simpa [ofType_cons, ht, htasks] using hanswered

/-! ## The system -/

namespace System
variable {cfg : Config} {s t : System I R} {m : Move I R}

/-- The transport: what an end has sent is what the other one was given, and then what is on its way. -/
def InOrder (s : System I R) (x : Side) : Prop :=
  sentFrames (s.endpoint x).log = deliveredFrames (s.endpoint x.peer).log ++ s.channel x

theorem inOrder_step (h : ∀ x, InOrder s x) (hst : Stepped cfg s m t) (y : Side) : InOrder t y := by
  cases hst with
  | @act x a e out ha =>
    obtain ⟨hsent, hdelivered⟩ := act_frames ha
    rcases Side.eq_or_eq_peer x y with rfl | rfl
    · rw [InOrder, put_endpoint_self, put_endpoint_peer, put_channel_self, hsent, h y, List.append_assoc]
    · have hpeer := h x.peer
      rw [InOrder, Side.peer_peer] at hpeer ⊢
      rw [put_endpoint_peer, put_endpoint_self, put_channel_peer, hdelivered, hpeer]
  | @deliver x infoOutcome e out frame rest hc hidle hr =>
    obtain ⟨hsent, hdelivered⟩ := receive_frames hr
    rcases Side.eq_or_eq_peer x y with rfl | rfl
    · rw [InOrder, put_endpoint_self, put_endpoint_peer, put_channel_self, take_endpoint,
        take_channel_of_peer, hsent, h y, List.append_assoc]
    · have hpeer := h x.peer
      rw [InOrder, Side.peer_peer] at hpeer ⊢
      rw [put_endpoint_peer, put_endpoint_self, put_channel_peer, take_endpoint, take_channel_self,
        hdelivered, hpeer, hc, List.append_assoc]
      rfl

theorem serving_step (hw : cfg.waitsForTask = true) (ho : m.Orderly) (h : ∀ x, Serving (s.endpoint x))
    (hst : Stepped cfg s m t) (y : Side) : Serving (t.endpoint y) := by
  apply hst.each_endpoint h
  · intro x a e out hm ha
    rw [hm] at ho
    exact serving_act ho (h x) ha
  · intro x infoOutcome frame e out hm hidle hr
    have hok : infoOutcome = .ok () := by
      rw [hm] at ho
      exact ho
    rw [hok] at hr
    exact serving_receive (hidle hw) (h x) hr

/-- A call sends one request. -/
theorem Reachable.requests_nodup {infoHandler : Side → Option I} {requestHandler : Side → Option R}
    (h : Reachable cfg infoHandler requestHandler s) {x : Side} (hs : Serving (s.endpoint x)) :
    ((ofType .REQUEST (sentFrames (s.endpoint x).log)).map Frame.call).Nodup := by
  have hfresh : ((registeredCalls (s.endpoint x).log).map Prod.fst).Nodup := (h.good x).fresh
  have hall := hs.sent.nodup_iff.mp hfresh
  exact (List.nodup_append.mp hall).2.1

/-- With no response task left, every normal answer delivered has had its handler run once. -/
theorem Reachable.invoked_once {infoHandler : Side → Option I} {requestHandler : Side → Option R}
    (h : Reachable cfg infoHandler requestHandler s) {x : Side} (hidle : (s.endpoint x).Idle) {frame : Frame}
    (hmem : frame ∈ deliveredFrames (s.endpoint x).log) (ht : frame.type = some .RESPONSE) :
    ((invokedHandlers (s.endpoint x).log).map Prod.fst).count frame.call = 1 := by
  have hgood := h.good x
  have haccepted : frame.call ∈ (s.exchange x).accepted :=
    List.mem_map_of_mem (mem_ofType.mpr ⟨hmem, ht⟩)
  have hready : (s.exchange x).ready = 0 := by
    rw [exchange, Communique.exchange, hidle.2]
    rfl
  rw [hgood.accepted, hready, Multiset.map_zero, Multiset.zero_add] at haccepted
  have hnodup : ((invokedHandlers (s.endpoint x).log).map Prod.fst).Nodup := hgood.invoked_nodup
  exact List.count_eq_one_of_mem hnodup haccepted

/-- **Nothing is lost, nothing comes twice, everything comes in order.** With handlers set from the start,
in every state reached by orderly moves: the bodies handed to the handlers of one end are a first part of
those that the other end sent; and when everything is over they are all of them, the answers sent carry
the tokens of the requests in their order, one for each request, and every response handler whose request
was answered normally has been run once. -/
theorem in_order (platform : Side → Platform) (mayWait : Side → Bytes → Bool) (infoHandler : Side → I)
    (requestHandler : Side → R) {moves : List (Move I R)}
    (hrun : Run (ofFun (step ⟨platform, true, mayWait⟩))
      (start (fun x => some (infoHandler x)) fun x => some (requestHandler x)) moves s)
    (ho : ∀ m ∈ moves, m.Orderly) (x : Side) :
    handledMessages (s.endpoint x.peer).log <+: messagesOf (sentFrames (s.endpoint x).log) ∧
      (Quiescent s →
        handledMessages (s.endpoint x.peer).log = messagesOf (sentFrames (s.endpoint x).log) ∧
        (answersOf (sentFrames (s.endpoint x.peer).log)).map Frame.key =
          (ofType .REQUEST (sentFrames (s.endpoint x).log)).map Frame.key ∧
        (∀ frame, .sent frame ∈ (s.endpoint x).log → frame.type = some .REQUEST →
          ((answersOf (sentFrames (s.endpoint x.peer).log)).map Frame.call).count frame.call = 1) ∧
        ∀ frame, .sent frame ∈ (s.endpoint x.peer).log → frame.type = some .RESPONSE →
          ((invokedHandlers (s.endpoint x).log).map Prod.fst).count frame.call = 1) := by
  have hreach : Reachable ⟨platform, true, mayWait⟩ (fun x => some (infoHandler x))
      (fun x => some (requestHandler x)) s := ⟨moves, hrun⟩
  have horder : ∀ y, InOrder s y := by
    apply hreach.invariant (P := fun s => ∀ y, InOrder s y)
    · exact fun y => rfl
    · intro s m t hs hst
      exact inOrder_step hs hst
  have hserving : ∀ y, Serving (s.endpoint y) := by
    apply hrun.invariant_on (P := fun s => ∀ y, Serving (s.endpoint y)) (Q := Move.Orderly) _ ho
    · exact fun y => serving_start (infoHandler y) (requestHandler y)
    · intro s m t hs hm hst
      exact serving_step rfl hm hs (step_cases hst)
  have hx := horder x
  have hpeer := horder x.peer
  rw [InOrder] at hx hpeer
  rw [Side.peer_peer] at hpeer
  obtain ⟨-, -, -, hhandled, hanswered, -⟩ := hserving x.peer
  refine ⟨?_, fun hq => ?_⟩
  · rw [hx, messagesOf_append, hhandled, List.append_assoc]
    exact List.prefix_append _ _
  · obtain ⟨hchannel, -, hidle⟩ := hq x
    obtain ⟨hchannel', -, hidle'⟩ := hq x.peer
    rw [hchannel, List.append_nil] at hx
    rw [hchannel', List.append_nil] at hpeer
    rw [hidle'.1] at hhandled hanswered
    have hkeys : (answersOf (sentFrames (s.endpoint x.peer).log)).map Frame.key =
        (ofType .REQUEST (sentFrames (s.endpoint x).log)).map Frame.key := by
      rw [hx, hanswered, List.map_nil, List.append_nil]
    refine ⟨?_, hkeys, fun frame hmem ht => ?_, fun frame hmem ht => ?_⟩
    · rw [hx, hhandled]
      exact (List.append_nil _).symm
    · have hcalls : (answersOf (sentFrames (s.endpoint x.peer).log)).map Frame.call =
          (ofType .REQUEST (sentFrames (s.endpoint x).log)).map Frame.call := by
        have hsnd := congrArg (List.map Prod.snd) hkeys
        rw [List.map_map, List.map_map] at hsnd
        exact hsnd
      rw [hcalls]
      apply List.count_eq_one_of_mem (hreach.requests_nodup (hserving x))
      exact List.mem_map_of_mem (mem_ofType.mpr ⟨mem_sentFrames.mpr hmem, ht⟩)
    · apply hreach.invoked_once hidle _ ht
      rw [← hpeer]
      exact mem_sentFrames.mpr hmem

/-- Infos and requests from either side, the second request sent first. -/
theorem in_order_both_ways :
    ∃ s, Run (ofFun (step plain)) (start (fun _ => some ()) fun _ => some ()) bothWays s ∧ Quiescent s ∧
      handledMessages (s.endpoint .B).log = [(.REQUEST, [6]), (.INFO, [1]), (.REQUEST, [5])] ∧
      handledMessages (s.endpoint .A).log = [(.REQUEST, [8]), (.INFO, [2])] ∧
      (answersOf (sentFrames (s.endpoint .B).log)).map Frame.key = [(1, 1), (0, 0)] ∧
      (answersOf (sentFrames (s.endpoint .A).log)).map Frame.key = [(0, 0)] := by
  have hrun : (exec (step plain) (start (fun _ => some ()) fun _ => some ()) bothWays).map
      (fun s => decide (s.Quiescent ∧
        messagesOf (sentFrames (s.endpoint .A).log) = [(.REQUEST, [6]), (.INFO, [1]), (.REQUEST, [5])] ∧
        messagesOf (sentFrames (s.endpoint .B).log) = [(.REQUEST, [8]), (.INFO, [2])] ∧
        (ofType .REQUEST (sentFrames (s.endpoint .A).log)).map Frame.key = [(1, 1), (0, 0)] ∧
        (ofType .REQUEST (sentFrames (s.endpoint .B).log)).map Frame.key = [(0, 0)])) = some true := by decide
  obtain ⟨s, hs, hend⟩ := Option.map_eq_some_iff.mp hrun
  obtain ⟨hquiescent, hsentA, hsentB, hkeysA, hkeysB⟩ := of_decide_eq_true hend
  have horderly : ∀ m ∈ bothWays, m.Orderly := by
    simp [bothWays, Move.Orderly]
  have hinOrder := in_order (fun _ => ⟨.little, []⟩) (fun _ _ => false) (fun _ => ()) (fun _ => ())
    (run_of_exec hs) horderly
  obtain ⟨hhandledB, hanswersB, -⟩ := (hinOrder .A).2 hquiescent
  obtain ⟨hhandledA, hanswersA, -⟩ := (hinOrder .B).2 hquiescent
  exact ⟨s, run_of_exec hs, hquiescent, hhandledB.trans hsentA, hhandledA.trans hsentB, hanswersB.trans hkeysA,
    hanswersA.trans hkeysB⟩

end System

end Communique
