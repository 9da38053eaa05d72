import Communique.Protocol.Hanging
import Communique.Protocol.Rest

/-!
# What comes of the calls of a script

A script talks to the library through the JavaScript client. Where the io thread of the library waits for its tasks,
everything that the script says is handled and answered in its turn, and the response handlers run in the order of
the calls. What the library says to the script comes in order, too, though no request of the library is answered.

* `said` : what the script has said, in bytes; `sentMessages_said` : it is what the client sends;
* **`handlers_get_their_answers`** : a response handler of the script runs once at most, on the answer to its call;
* `InTurn` : what each end has done with the frames that it was given, kept by every orderly move;
* **`in_turn`** : the order, in both directions;
* `PairMove.GoesOn`, `weight`, `weight_step` : the moves that start nothing new take something off the weight;
* **`everything_is_answered`** : they come to an end, with every call settled.
-/

namespace Communique
open Text Transition

variable {I R : Type}

/-! ## What the script says -/

/-- An info message as UTF-8, a request with one byte for each character. -/
def Script.message : Script → MessageType × Bytes
  | .sendRequest message => (.REQUEST, latin1 message)
  | .sendInfo message => (.INFO, utf8 message)

/-- What the script has said in a run. -/
def said (moves : List (PairMove I R)) : List (MessageType × Bytes) :=
  moves.filterMap fun
    | .script script => some script.message
    | _ => none

/-- The info handlers of the library return, and no handler is taken away. -/
def PairMove.Orderly : PairMove I R → Prop
  | .onMessage infoOutcome => infoOutcome = .ok ()
  | .act action => (Move.act .B action).Orderly
  | _ => True

namespace Pair
variable {host : Host} {s t : Pair I R} {m : PairMove I R}

/-- A move sends the message of the script that it is, if it is one. -/
theorem sentMessages_step (hst : Stepped host s m t) :
    messagesOf (sentFrames t.js.log) = messagesOf (sentFrames s.js.log) ++ said [m] := by
  cases hst with
  | sendRequest =>
    simp [said, Script.message, messagesOf, Javascript.requested, Javascript.request, Frame.messageBody]
  | sendInfo => simp [said, Script.message, messagesOf, Frame.messageBody]
  | act ha => simp [said]
  | handleMessage hc hr =>
    dsimp only
    rw [hr.sentFrames_eq]
    exact (List.append_nil _).symm
  | onMessage hc hr => simp [said]

theorem sentMessages_said {infoHandler : Option I} {requestHandler : Option R} {moves : List (PairMove I R)}
    (h : Run (ofFun (step host)) (start infoHandler requestHandler) moves s) :
    messagesOf (sentFrames s.js.log) = said moves := by
  induction h with
  | nil => rfl
  | snoc run hstep ih =>
    rw [sentMessages_step (step_cases hstep), ih]
    exact List.filterMap_append.symm

/-! ## The answers -/

section Answers
variable {infoHandler : Option I} {requestHandler : Option R} {moves : List (PairMove I R)}

/-- The client returns nothing to the library, which has nothing to run a response handler on. -/
theorem Good.no_handler (h : s.Good) : invokedHandlers s.cpp.log = [] := by
  apply List.eq_nil_iff_forall_not_mem.mpr
  rintro ⟨call, r⟩ hmem
  obtain ⟨message, -, hret⟩ := h.cppCalls.origin call r (Multiset.mem_add.mpr (Or.inr hmem))
  exact absurd hret (Multiset.notMem_zero _)

/-- No response ever misses its handler. -/
theorem not_ignored {log : List Event} (h : (ignoredResponses log).length = 0) (messageBody : Bytes) :
    .ignored messageBody ∉ log := by
  intro hmem
  have hmem' : messageBody ∈ ignoredResponses log := List.mem_filterMap.mpr ⟨_, hmem, rfl⟩
  rw [List.eq_nil_of_length_eq_zero h] at hmem'
  cases hmem'

/-- **The script gets the answers to its own calls.** In every run in which each `sendRequest` finds a reference that
fits into the wire format: a response handler of the script is run once at most; what it is run on is the one string
that the request handler of the library returned for that call, called on the one body of that call; the alert about
an invalid response never comes up, and no response handler of the library is run. -/
theorem handlers_get_their_answers (h : Run (ofFun (step host)) (start infoHandler requestHandler) moves s)
    (hfree : ∀ u v message, Takes (ofFun (step host)) (start infoHandler requestHandler) moves s u
      (.script (.sendRequest message)) v → u.ReferenceFree) :
    (∀ call, ((invokedHandlers s.js.log).map Prod.fst).count call ≤ 1) ∧
      (∀ call r, .invoked call r ∈ s.js.log → ∃ message,
        .registered call message ∈ s.js.log ∧ .returned call message (.ok r) ∈ s.cpp.log ∧
          (∀ message', .registered call message' ∈ s.js.log → message' = message) ∧
          ∀ message' r', .returned call message' (.ok r') ∈ s.cpp.log → r' = r) ∧
      (∀ messageBody, .ignored messageBody ∉ s.js.log) ∧ invokedHandlers s.cpp.log = [] := by
  have hgood := good h hfree
  have hcalls := hgood.jsCalls
  refine ⟨fun call => ?_, fun call r hr => ?_, not_ignored hcalls.dropped, hgood.no_handler⟩
  · have hnodup : ((invokedHandlers s.js.log).map Prod.fst).Nodup := hcalls.invoked_nodup
    exact List.nodup_iff_count_le_one.mp hnodup call
  · have hinvoked : (call, r) ∈ s.jsCalls.invoked := mem_invokedHandlers.mpr hr
    obtain ⟨message, hreg, hret⟩ := hcalls.origin call r (Multiset.mem_add.mpr (Or.inr hinvoked))
    refine ⟨message, mem_registeredCalls.mp hreg, mem_returnedResponses.mp hret, ?_, ?_⟩
    · intro message' hreg'
      exact hcalls.registered_unique (mem_registeredCalls.mpr hreg') hreg
    · intro message' r' hret'
      exact hcalls.returned_unique (mem_returnedResponses.mpr hret') hret

/-- A call of the script under the reference that the search finds. -/
theorem step_sendRequest {n : Nat} (h : s.js.newUserReference = n) (message : CodeUnits) :
    let request : Frame := ⟨Message.build plainHost.platform (latin1 message) .REQUEST (BitVec.ofNat 32 n), s.js.calls⟩
    step host s (.script (.sendRequest message)) = some { s with
      js := { client := ⟨s.js.client.responseHandlers ++ [(n, s.js.calls)]⟩
              calls := s.js.calls + 1
              log := s.js.log ++ [.registered s.js.calls (latin1 message)] ++ [.sent request] }
      toCpp := s.toCpp ++ [request] } := by
  subst h
  rw [step, Javascript.act_sendRequest plainHost.platform, Javascript.requested, Javascript.request]
  rfl

/-- Two calls of a script, and an info message with a character above 127 between them. -/
def asking : List (PairMove Unit Unit) :=
  [.script (.sendRequest [65]), .script (.sendInfo [233]), .script (.sendRequest [66])]

/-- Where they lead to from the start. -/
def askedTwice : Pair Unit Unit :=
  let first : Frame := ⟨Message.build plainHost.platform (latin1 [65]) .REQUEST 124, 0⟩
  let info : Frame := ⟨Message.build plainHost.platform (utf8 [233]) .INFO 0, 0⟩
  let second : Frame := ⟨Message.build plainHost.platform (latin1 [66]) .REQUEST 125, 1⟩
  { start (some ()) (some ()) with
    js := ⟨⟨[(124, 0), (125, 1)]⟩, 2,
      [.registered 0 (latin1 [65]), .sent first, .sent info, .registered 1 (latin1 [66]), .sent second]⟩
    toCpp := [first, info, second] }

theorem exec_asking (host : Host) : exec (step host) (start (some ()) (some ())) asking = some askedTwice := by
  let told : Pair Unit Unit :=
    let info : Frame := ⟨Message.build plainHost.platform (utf8 [233]) .INFO 0, 0⟩
    { asked with js := asked.js.recordSent [info], toCpp := asked.toCpp ++ [info] }
  have hfirst : step host (start (some ()) (some ())) (.script (.sendRequest [65])) = some asked := step_asked
  have hinfo : step host asked (.script (.sendInfo [233])) = some told := by
    rw [step, Javascript.act_sendInfo plainHost.platform]
  have hreference : told.js.newUserReference = 125 := by
    show spareReference [124] 124 = 125
    rw [spareReference, if_pos (by decide), spareReference, if_neg (by decide)]
  have hsecond : step host told (.script (.sendRequest [66])) = some askedTwice := step_sendRequest hreference [66]
  rw [asking, exec, hfirst, Option.bind_some, exec, hinfo, Option.bind_some, exec, hsecond]
  rfl

/-- The library says two things itself; its tasks are run in the other order than their requests came, and return 8 to
the second one and 7 to the first. -/
def answeredBackwards : List (PairMove Unit Unit) :=
  [.act (.push [5]), .act (.sendInfo [9]), .act (.send 0), .onMessage (.ok ()), .onMessage (.ok ()),
    .onMessage (.ok ()), .act (.start 1), .act (.finish 1 (.ok [8])), .act (.start 0), .act (.finish 0 (.ok [7])),
    .handleMessage, .handleMessage, .handleMessage, .handleMessage]

/-- The io thread of the library does not wait for its tasks: the second call is answered first, and each handler of the
script is run on what was returned for its own call. -/
theorem handlers_get_their_answers_backwards :
    ∃ s : Pair Unit Unit, Run (ofFun (step { plainHost with waitsForTask := false })) (start (some ()) (some ()))
        (asking ++ answeredBackwards) s ∧
      invokedHandlers s.js.log = [(1, [8]), (0, [7])] ∧
      .returned 0 [65] (.ok [7]) ∈ s.cpp.log ∧ .returned 1 [66] (.ok [8]) ∈ s.cpp.log := by
  let host : Host := { plainHost with waitsForTask := false }
  have hrun : (exec (step host) askedTwice answeredBackwards).map
      (fun s => (invokedHandlers s.js.log, registeredCalls s.js.log)) =
      some ([(1, [8]), (0, [7])], [(0, [65]), (1, [66])]) := by decide
  obtain ⟨s, hs, hlog⟩ := Option.map_eq_some_iff.mp hrun
  obtain ⟨hinvoked, hcalls⟩ := Prod.mk.inj hlog
  have hrun : Run (ofFun (step host)) (start (some ()) (some ())) (asking ++ answeredBackwards) s :=
    (run_of_exec (exec_asking host)).append (run_of_exec hs)
  have hreturned : ∀ call r body, (call, r) ∈ invokedHandlers s.js.log → (call, body) ∈ registeredCalls s.js.log →
      .returned call body (.ok r) ∈ s.cpp.log := by
    intro call r body hinvoked hregistered
    obtain ⟨message, -, hret, honly, -⟩ := (handlers_get_their_answers hrun fun u v message =>
      referenceFree_of_short (by decide)).2.1 call r (mem_invokedHandlers.mp hinvoked)
    rwa [honly body (mem_registeredCalls.mp hregistered)]
  refine ⟨s, hrun, hinvoked, hreturned 0 [7] [65] ?_ ?_, hreturned 1 [8] [66] ?_ ?_⟩
  all_goals first | rw [hinvoked] | rw [hcalls]
  all_goals decide

end Answers

/-! ## The order -/

/-- What each end has done with the frames that it was given. -/
structure InTurn (s : Pair I R) : Prop where
  serving : Serving s.cpp
  fifo : sentFrames s.cpp.log = deliveredFrames s.js.log ++ s.toJs
  /-- The calls of the script store their handlers and send their requests in their order. -/
  registered : (registeredCalls s.js.log).map Prod.fst = List.range s.js.calls
  asked : (ofType .REQUEST (sentFrames s.js.log)).map Frame.call = List.range s.js.calls
  /-- The client passes every message on at once. -/
  handled : handledMessages s.js.log = messagesOf (deliveredFrames s.js.log)
  /-- The handler that a response is for is run at once. -/
  run : (invokedHandlers s.js.log).map Prod.fst = (ofType .RESPONSE (deliveredFrames s.js.log)).map Frame.call

theorem inTurn_start (infoHandler : I) (requestHandler : R) :
    InTurn (start (some infoHandler) (some requestHandler)) where
  serving := serving_start infoHandler requestHandler
  fifo := rfl
  registered := rfl
  asked := rfl
  handled := rfl
  run := rfl

/-- What the client does with a frame that it is given. -/
theorem received_inTurn {js js' : Javascript} {frame : Frame} (h : Javascript.Received js frame js') :
    deliveredFrames js'.log = deliveredFrames js.log ++ [frame] ∧
      handledMessages js'.log = handledMessages js.log ++ messagesOf [frame] := by
  cases h with
  | info ht => constructor <;> simp [messagesOf, ht]
  | request ht => constructor <;> simp [messagesOf, ht]
  | response ht hl => constructor <;> simp [messagesOf, ht]
  | alert ht hmissing => constructor <;> simp [messagesOf, ht]
  | nothing hi hq hp =>
    have hnone : messagesOf [frame] = [] := by simp [messagesOf]
    rw [hnone]
    constructor <;> simp

/-- The entry that a response finds is the one of its own call. -/
theorem received_run (server : Endpoint I R) (ch back : List Frame) {js js' : Javascript}
    {frame : Frame} (h : Javascript.Received js frame js')
    (hgood : Exchange.Good (serve js.calling server ch (frame :: back)))
    (hdropped : (ignoredResponses js'.log).length = 0)
    (hrun : (invokedHandlers js.log).map Prod.fst = (ofType .RESPONSE (deliveredFrames js.log)).map Frame.call) :
    (invokedHandlers js'.log).map Prod.fst = (ofType .RESPONSE (deliveredFrames js'.log)).map Frame.call := by
  rw [(received_inTurn h).1, ofType_append, List.map_append, ← hrun]
  cases h with
  | @response call before after ht hl =>
    have hanswer : (frame.token, frame.call, frame.messageBody) ∈
        (serve js.calling server ch (frame :: back)).answers := by
      simp [serve, ofType_cons, ht, Frame.item]
    have htable : (serve js.calling server ch (frame :: back)).table = (frame.token, call) ::ₘ
        ↑((before ++ after).map fun entry => (BitVec.ofNat 32 entry.1, entry.2)) := by
      simp [-Multiset.coe_add, -Multiset.cons_coe, serve, Javascript.calling, hl, coe_middle]
    obtain rfl := hgood.call_unique htable (hgood.answer_mem hanswer)
    simp [ofType_cons, ht]
  | info ht => simp [ofType_cons, ht]
  | request ht => simp [ofType_cons, ht]
  | alert ht hmissing => simp at hdropped
  | nothing hi hq hp => simp [ofType_cons, hp]

/-- The io thread of the library takes a frame when its tasks are over. -/
theorem idle_of_step {infoOutcome : Except Exn Unit} (hw : host.waitsForTask = true)
    (h : step host s (.onMessage infoOutcome) = some t) : s.cpp.Idle := by
  rw [step] at h
  cases hc : s.toCpp with
  | nil =>
    rw [hc] at h
    cases h
  | cons frame rest =>
    rw [hc] at h
    obtain ⟨hidle, -⟩ := Option.ite_none_left_eq_some.mp h
    by_contra hbusy
    exact hidle ⟨hw, hbusy⟩

theorem InTurn.step (hw : host.waitsForTask = true) (h : s.InTurn) (hs : s.Good) (ht : t.Good) (ho : m.Orderly)
    (hstep : Pair.step host s m = some t) : t.InTurn := by
  have hst := step_cases hstep
  cases hst with
  | sendRequest => exact
    { serving := h.serving
      fifo := by simpa [Javascript.requested] using h.fifo
      registered := by
        have hregistered := h.registered
        simp only [registeredCalls] at hregistered
        simp [Javascript.requested, hregistered, List.range_succ]
      asked := by
        have hasked := h.asked
        simp only [sentFrames] at hasked
        simp [Javascript.requested, Javascript.request, ofType_cons, hasked, List.range_succ]
      handled := by simpa [Javascript.requested] using h.handled
      run := by simpa [Javascript.requested] using h.run }
  | sendInfo => exact
    { serving := h.serving
      fifo := by simpa using h.fifo
      registered := by simpa using h.registered
      asked := by simpa [ofType_cons] using h.asked
      handled := by simpa using h.handled
      run := by simpa using h.run }
  | act ha => exact
    { serving := serving_act ho h.serving ha
      fifo := by
        dsimp only
        rw [(act_frames ha).1, h.fifo, List.append_assoc]
      registered := h.registered
      asked := h.asked
      handled := h.handled
      run := h.run }
  | @handleMessage frame rest js hc hr =>
    have hgood := hs.jsCalls
    rw [jsCalls, hc] at hgood
    exact
    { serving := h.serving
      fifo := by
        dsimp only
        rw [h.fifo, hc, (received_inTurn hr).1, List.append_assoc]
        rfl
      registered := by
        dsimp only
        rw [hr.registered.1, hr.registered.2]
        exact h.registered
      asked := by
        dsimp only
        rw [hr.sentFrames_eq, hr.registered.2]
        exact h.asked
      handled := by
        dsimp only
        rw [(received_inTurn hr).1, (received_inTurn hr).2, messagesOf_append, h.handled]
      run := received_run s.cpp s.toCpp rest hr hgood ht.jsCalls.dropped h.run }
  | @onMessage infoOutcome frame rest e out hc hr =>
    have hok : infoOutcome = .ok () := ho
    rw [hok] at hr
    exact
    { serving := serving_receive (idle_of_step hw hstep) h.serving hr
      fifo := by
        dsimp only
        rw [(receive_frames hr).1, h.fifo, List.append_assoc]
      registered := h.registered
      asked := h.asked
      handled := h.handled
      run := h.run }

/-- The calls of the script, in their order: those that were given an answer, those whose answer is on its way, those
that a task is for and those whose request is on its way. -/
theorem InTurn.calls (h : s.InTurn) (hs : s.Good) : List.range s.js.calls =
    (answersOf (deliveredFrames s.js.log)).map Frame.call ++ ((answersOf s.toJs).map Frame.call ++
      s.cpp.requestTasks.map RequestTask.call ++ (ofType .REQUEST s.toCpp).map Frame.call) := by
  have hserved : (ofType .REQUEST (deliveredFrames s.cpp.log)).map Frame.call =
      (answersOf (sentFrames s.cpp.log)).map Frame.call ++ s.cpp.requestTasks.map RequestTask.call := by
    have hkeys := congrArg (List.map Prod.snd) h.serving.answered
    rw [List.map_append, List.map_map, List.map_map, List.map_map] at hkeys
    exact hkeys
  rw [← h.asked, hs.fifo, ofType_append, List.map_append, hserved, h.fifo, answersOf_append, List.map_append,
    List.append_assoc, List.append_assoc, List.append_assoc]

theorem InTurn.said_eq (h : s.InTurn) (hs : s.Good) : messagesOf (sentFrames s.js.log) =
    handledMessages s.cpp.log ++ (createdMessages s.cpp.requestTasks ++ messagesOf s.toCpp) := by
  rw [hs.fifo, messagesOf_append, h.serving.handled, List.append_assoc]

theorem InTurn.back_eq (h : s.InTurn) :
    messagesOf (sentFrames s.cpp.log) = handledMessages s.js.log ++ messagesOf s.toJs := by
  rw [h.fifo, messagesOf_append, h.handled]

/-- When nothing is on its way, everything has been handled and answered. -/
structure Complete (s : Pair I R) : Prop where
  handled : handledMessages s.cpp.log = messagesOf (sentFrames s.js.log)
  back : handledMessages s.js.log = messagesOf (sentFrames s.cpp.log)
  answered : (answersOf (deliveredFrames s.js.log)).map Frame.call = List.range s.js.calls

theorem InTurn.complete (h : s.InTurn) (hs : s.Good) (hq : s.Quiescent) : s.Complete := by
  obtain ⟨htoCpp, htoJs, -, hidle, -⟩ := hq
  have hsaid := h.said_eq hs
  have hback := h.back_eq
  have hcalls := h.calls hs
  rw [htoCpp, hidle] at hsaid
  rw [htoJs] at hback
  rw [htoCpp, htoJs, hidle] at hcalls
  constructor
  · rw [hsaid]
    exact (List.append_nil _).symm
  · rw [hback]
    exact (List.append_nil _).symm
  · rw [hcalls]
    exact (List.append_nil _).symm

section Runs
variable {infoHandler : I} {requestHandler : R} {moves : List (PairMove I R)}

theorem ReferenceFree.newUserReference_lt (h : s.ReferenceFree) : s.js.newUserReference < 2 ^ 32 := by
  obtain ⟨userReference, hle, hlt, hunused⟩ := h
  exact lt_of_le_of_lt (spareReference_le hle hunused) hlt

theorem good_inTurn (h : Run (ofFun (step host)) (start (some infoHandler) (some requestHandler)) moves s)
    (hw : host.waitsForTask = true) (ho : ∀ m ∈ moves, m.Orderly)
    (hfree : ∀ u v message, Takes (ofFun (step host)) (start (some infoHandler) (some requestHandler)) moves s u
      (.script (.sendRequest message)) v → u.ReferenceFree) : s.Good ∧ s.InTurn := by
  refine h.invariant_takes (P := fun s => s.Good ∧ s.InTurn) ⟨good_start _ _, inTurn_start _ _⟩ ?_
  intro u m v htakes hu
  obtain ⟨before, after, hmoves, -, hstep, -⟩ := id htakes
  have hv : v.Good := by
    refine hu.1.step (step_cases hstep) ?_
    rintro message rfl
    exact (hfree u v message htakes).newUserReference_lt
  have hm : m ∈ moves := by
    rw [hmoves]
    exact List.mem_append_right _ List.mem_cons_self
  exact ⟨hv, hu.2.step hw hu.1 hv (ho m hm) hstep⟩

/-- **Everything in its turn.** The io thread of the library waits for its tasks, its info handlers return and its
handlers stay set. In every run in which each `sendRequest` finds a reference that fits into the wire format: the
library hands to its handlers what the script has said, in this order; the client hands on what the library has
said, in this order; the answers come one by one in the order of the calls; and the response handlers are run in this
order. When nothing is on its way, all this is complete. -/
theorem in_turn (h : Run (ofFun (step host)) (start (some infoHandler) (some requestHandler)) moves s)
    (hw : host.waitsForTask = true) (ho : ∀ m ∈ moves, m.Orderly)
    (hfree : ∀ u v message, Takes (ofFun (step host)) (start (some infoHandler) (some requestHandler)) moves s u
      (.script (.sendRequest message)) v → u.ReferenceFree) :
    handledMessages s.cpp.log <+: said moves ∧
      handledMessages s.js.log <+: messagesOf (sentFrames s.cpp.log) ∧
      (answersOf (deliveredFrames s.js.log)).map Frame.call <+: List.range s.js.calls ∧
      List.Sublist ((invokedHandlers s.js.log).map Prod.fst)
        ((answersOf (deliveredFrames s.js.log)).map Frame.call) ∧
      (s.Quiescent → handledMessages s.cpp.log = said moves ∧
        handledMessages s.js.log = messagesOf (sentFrames s.cpp.log) ∧
        (answersOf (deliveredFrames s.js.log)).map Frame.call = List.range s.js.calls) := by
  obtain ⟨hs, ht⟩ := good_inTurn h hw ho hfree
  have hsaid := sentMessages_said h
  refine ⟨?_, ?_, ?_, ?_, fun hq => ?_⟩
  · rw [← hsaid, ht.said_eq hs]
    exact List.prefix_append _ _
  · rw [ht.back_eq]
    exact List.prefix_append _ _
  · rw [ht.calls hs]
    exact List.prefix_append _ _
  · rw [ht.run]
    apply List.Sublist.map
    apply List.monotone_filter_right
    intro frame hframe
    exact decide_eq_true (Or.inl (of_decide_eq_true hframe))
  · obtain ⟨hhandled, hback, hanswered⟩ := ht.complete hs hq
    exact ⟨hhandled.trans hsaid, hback, hanswered⟩

end Runs

/-- The library says two things itself, and handles what it is told one by one; to the second request it throws. -/
def answeredInTurn : List (PairMove Unit Unit) :=
  [.act (.push [5]), .act (.sendInfo [9]), .act (.send 0), .onMessage (.ok ()), .act (.start 0),
    .act (.finish 0 (.ok [7])), .onMessage (.ok ()), .onMessage (.ok ()), .act (.start 0), .handleMessage,
    .act (.finish 0 (.error .unknown)), .handleMessage, .handleMessage, .handleMessage]

/-- Two calls and an info message of the script, an info message and a request of the library. -/
theorem in_turn_both_ways : ∃ s : Pair Unit Unit,
    Run (ofFun (step plainHost)) (start (some ()) (some ())) (asking ++ answeredInTurn) s ∧
      handledMessages s.cpp.log = [(.REQUEST, [65]), (.INFO, [195, 169]), (.REQUEST, [66])] ∧
      handledMessages s.js.log = [(.INFO, [9]), (.REQUEST, [5])] ∧
      (answersOf (deliveredFrames s.js.log)).map Frame.call = [0, 1] ∧
      (invokedHandlers s.js.log).map Prod.fst = [0] := by
  have hrun : (exec (step plainHost) askedTwice answeredInTurn).map
      (fun s => decide (s.Quiescent ∧ messagesOf (sentFrames s.cpp.log) = [(.INFO, [9]), (.REQUEST, [5])] ∧
        s.js.calls = 2 ∧ (invokedHandlers s.js.log).map Prod.fst = [0])) = some true := by decide
  obtain ⟨s, hs, hend⟩ := Option.map_eq_some_iff.mp hrun
  obtain ⟨hq, hsent, hcalls, hinvoked⟩ := of_decide_eq_true hend
  have hrun : Run (ofFun (step plainHost)) (start (some ()) (some ())) (asking ++ answeredInTurn) s :=
    (run_of_exec (exec_asking plainHost)).append (run_of_exec hs)
  have horderly : ∀ m ∈ asking ++ answeredInTurn, m.Orderly := by
    simp [asking, answeredInTurn, PairMove.Orderly, Move.Orderly]
  have hall := in_turn hrun rfl horderly fun u v message => referenceFree_of_short (by decide)
  obtain ⟨hhandled, hback, hanswered⟩ := hall.2.2.2.2 hq
  rw [hcalls] at hanswered
  exact ⟨s, hrun, hhandled.trans (by decide), hback.trans hsent, hanswered, hinvoked⟩

end Pair

/-! ## The end of the traffic -/

/-- The moves of the transport, of the handlers of the library and of the second half of its `sendRequest`. -/
def PairMove.GoesOn : PairMove I R → Prop
  | .script _ => False
  | .act action => (Move.act .B action).GoesOn
  | .handleMessage => True
  | .onMessage _ => True

theorem said_of_goesOn {moves more : List (PairMove I R)} (h : ∀ m ∈ more, m.GoesOn) :
    said (moves ++ more) = said moves := by
  have hnone : said more = [] := by
    apply List.filterMap_eq_nil_iff.mpr
    intro m hm
    have hgo := h m hm
    cases m with
    | script script => cases hgo
    | _ => rfl
  rw [said, List.filterMap_append]
  exact (congrArg _ hnone).trans (List.append_nil _)

namespace Pair
variable {host : Host} {s t : Pair I R} {m : PairMove I R}

def weight (s : Pair I R) : Nat := s.cpp.weight + framesWeight s.toCpp + framesWeight s.toJs

theorem weight_step (hgo : m.GoesOn) (hst : Stepped host s m t) : t.weight < s.weight := by
  unfold weight
  cases hst with
  | sendRequest => cases hgo
  | sendInfo => cases hgo
  | act ha =>
    have hact := Endpoint.act_weight hgo ha
    dsimp only
    rw [framesWeight_append]
    omega
  | @handleMessage frame rest js hc hr =>
    have hpos := frame.weight_pos
    dsimp only
    rw [hc, framesWeight_cons]
    omega
  | onMessage hc hr =>
    have hreceive := Endpoint.receive_weight hr
    dsimp only
    rw [hc, framesWeight_cons, framesWeight_append]
    omega

theorem noneWaits_step (hw : ∀ body, host.mayWait body = false) (h : System.NoneWaits s.cpp)
    (hst : Stepped host s m t) : System.NoneWaits t.cpp := by
  cases hst with
  | act ha => exact System.noneWaits_act hw h ha
  | onMessage hc hr => exact System.noneWaits_receive h hr
  | _ => exact h

/-- If no task waits, something can be done until the state is quiescent. -/
theorem goes_on (h : System.NoneWaits s.cpp) (hhandler : s.cpp.connection.requestHandler.isSome)
    (hq : ¬ s.Quiescent) :
    ∃ (m : PairMove I R) (t : Pair I R), (m.GoesOn ∧ m.Orderly) ∧ step host s m = some t := by
  have hmove : ∀ m : PairMove I R, m.GoesOn ∧ m.Orderly → step host s m ≠ none →
      ∃ (m : PairMove I R) (t : Pair I R), (m.GoesOn ∧ m.Orderly) ∧ step host s m = some t := by
    intro m hm hne
    obtain ⟨t, ht⟩ := Option.ne_none_iff_exists'.mp hne
    exact ⟨m, t, hm, ht⟩
  cases hjs : s.toJs with
  | cons frame rest =>
    refine hmove .handleMessage ⟨trivial, trivial⟩ ?_
    rw [step, hjs]
    exact Option.some_ne_none _
  | nil =>
    cases hsending : s.cpp.sending with
    | cons p rest =>
      refine hmove (.act (.send 0)) ⟨trivial, trivial⟩ ?_
      simp [step, Endpoint.act, hsending]
    | nil =>
      cases hresponses : s.cpp.responseTasks with
      | cons task rest =>
        refine hmove (.act (.invoke 0)) ⟨trivial, trivial⟩ ?_
        simp [step, Endpoint.act, hresponses]
      | nil =>
        cases htasks : s.cpp.requestTasks with
        | cons task rest =>
          rcases h task (htasks ▸ List.mem_cons_self) with hp | hp
          · refine hmove (.act (.start 0)) ⟨trivial, trivial⟩ ?_
            simp [step, Endpoint.act, htasks, hp, hhandler]
          · refine hmove (.act (.finish 0 (.ok []))) ⟨trivial, trivial⟩ ?_
            simp [step, Endpoint.act, htasks, hp]
        | nil =>
          have hidle : s.cpp.Idle := ⟨htasks, hresponses⟩
          cases hcpp : s.toCpp with
          | cons frame rest =>
            refine hmove (.onMessage (.ok ())) ⟨trivial, rfl⟩ ?_
            simp [step, hcpp, hidle]
          | nil => exact absurd ⟨hcpp, hjs, hsending, hidle⟩ hq

/-- The call of the script is over: its handler has been run on what the request handler of the library returned for
its body, or an error has come, its handler has not been run, and its entry is still there. -/
def Over (s : Pair I R) (call : Nat) : Prop :=
  (∃ message r, .registered call message ∈ s.js.log ∧ .returned call message (.ok r) ∈ s.cpp.log ∧
      .invoked call r ∈ s.js.log ∧ call ∉ s.js.client.responseHandlers.map Prod.snd) ∨
    ((∃ frame, .delivered frame ∈ s.js.log ∧ frame.call = call ∧ frame.type = some .REQUESTERROR) ∧
      (∀ r, .invoked call r ∉ s.js.log) ∧ call ∈ s.js.client.responseHandlers.map Prod.snd)

theorem InTurn.callOver (h : s.InTurn) (hs : s.Good) (hq : s.Quiescent) {call : Nat} (hcall : call < s.js.calls) :
    s.Over call := by
  rw [← List.mem_range, ← h.registered] at hcall
  obtain ⟨⟨call, message⟩, hreg, rfl⟩ := List.mem_map.mp hcall
  obtain ⟨htoCpp, htoJs, -, hidle⟩ := hq
  have hrest : s.jsCalls.AtRest :=
    { asked := by simp [Pair.jsCalls, serve, Javascript.calling, htoCpp, hidle.1]
      answers := by simp [Pair.jsCalls, serve, htoJs]
      refused := by simp [Pair.jsCalls, serve, htoJs]
      ready := rfl }
  rcases hs.jsCalls.settled hrest hreg with ⟨r, hret, hinvoked, hstored⟩ | ⟨habandoned, hinvoked, hstored⟩
  · exact Or.inl ⟨message, r, mem_registeredCalls.mp hreg, mem_returnedResponses.mp hret,
      mem_invokedHandlers.mp hinvoked, fun hmem => hstored (mem_table.mpr hmem)⟩
  · refine Or.inr ⟨?_, fun r hr => hinvoked r (mem_invokedHandlers.mpr hr), mem_table.mp hstored⟩
    obtain ⟨p, hp, rfl⟩ := Multiset.mem_map.mp habandoned
    obtain ⟨frame, hframe, rfl⟩ := List.mem_map.mp (Multiset.mem_coe.mp hp)
    obtain ⟨hmem, ht⟩ := mem_ofType.mp hframe
    exact ⟨frame, mem_deliveredFrames.mp hmem, rfl, ht⟩

/-- Nothing is on its way, the library has handled the messages, and every call of the script has got its one answer,
in the order of the calls, and is over. -/
structure Done (s : Pair I R) (messages : List (MessageType × Bytes)) : Prop where
  quiescent : s.Quiescent
  handled : handledMessages s.cpp.log = messages
  answered : (answersOf (deliveredFrames s.js.log)).map Frame.call = List.range s.js.calls
  settled : ∀ call < s.js.calls, s.Over call

/-- What holds from the start on where the handlers of the library do not wait. -/
structure Going (s : Pair I R) : Prop where
  good : s.Good
  inTurn : s.InTurn
  noneWaits : System.NoneWaits s.cpp

theorem Going.step (hw : host.waitsForTask = true) (hmay : ∀ body, host.mayWait body = false) (h : s.Going)
    (hm : m.GoesOn ∧ m.Orderly) (hstep : Pair.step host s m = some t) : t.Going := by
  have hst := step_cases hstep
  have hgood : t.Good := by
    refine h.good.step hst ?_
    rintro message rfl
    cases hm.1
  exact ⟨hgood, h.inTurn.step hw h.good hgood hm.2 hstep, noneWaits_step hmay h.noneWaits hst⟩

/-- **Everything that a script says is answered in the end.** The io thread of the library waits for its tasks, its
handlers do not wait for requests of their own, its info handlers return and its handlers stay set. After every run
in which each `sendRequest` found a reference that fits into the wire format: the moves that start nothing new are at
most as many as the weight of the state; where none of them can be taken any more, all is done that the script has
asked for; and this can be reached. -/
theorem everything_is_answered {infoHandler : I} {requestHandler : R} {moves : List (PairMove I R)}
    (h : Run (ofFun (step host)) (start (some infoHandler) (some requestHandler)) moves s)
    (hw : host.waitsForTask = true) (hmay : ∀ body, host.mayWait body = false) (ho : ∀ m ∈ moves, m.Orderly)
    (hfree : ∀ u v message, Takes (ofFun (step host)) (start (some infoHandler) (some requestHandler)) moves s u
      (.script (.sendRequest message)) v → u.ReferenceFree) :
    (∀ more t, Run (ofFun (step host)) s more t → (∀ m ∈ more, m.GoesOn ∧ m.Orderly) →
      more.length ≤ s.weight ∧
        ((∀ m : PairMove I R, m.GoesOn ∧ m.Orderly → step host t m = none) → t.Done (said moves))) ∧
      ∃ more t, (∀ m ∈ more, m.GoesOn ∧ m.Orderly) ∧ Run (ofFun (step host)) s more t ∧ t.Done (said moves) := by
  obtain ⟨hgood, hturn⟩ := good_inTurn h hw ho hfree
  have hwaits : System.NoneWaits s.cpp := by
    apply h.invariant (P := fun s : Pair I R => System.NoneWaits s.cpp)
    · intro s m t hs hst
      exact noneWaits_step hmay hs (step_cases hst)
    · intro task htask
      cases htask
  have hs : s.Going := ⟨hgood, hturn, hwaits⟩
  have hlower : ∀ {s : Pair I R} {m t}, m.GoesOn ∧ m.Orderly → ofFun (step host) s m t → t.weight < s.weight :=
    fun hm hst => weight_step hm.1 (step_cases hst)
  have hkeep : ∀ {more : List (PairMove I R)} {t}, Run (ofFun (step host)) s more t →
      (∀ m ∈ more, m.GoesOn ∧ m.Orderly) → t.Going := by
    intro more t hrun hmore
    exact hrun.invariant_on (P := Going) (fun hs hm hst => hs.step hw hmay hm hst) hmore hs
  have hgo : ∀ {t : Pair I R}, t.Going → ¬ t.Quiescent → ∃ (m : PairMove I R) (u : Pair I R),
      (m.GoesOn ∧ m.Orderly) ∧ step host t m = some u :=
    fun ht hq => goes_on ht.noneWaits ht.inTurn.serving.requestHandler hq
  have hdone : ∀ {more : List (PairMove I R)} {t}, Run (ofFun (step host)) s more t →
      (∀ m ∈ more, m.GoesOn ∧ m.Orderly) → t.Quiescent → t.Done (said moves) := by
    intro more t hrun hmore hq
    have ht := hkeep hrun hmore
    obtain ⟨hhandled, -, hanswered⟩ := ht.inTurn.complete ht.good hq
    have hsaid := sentMessages_said (h.append hrun)
    rw [said_of_goesOn fun m hm => (hmore m hm).1] at hsaid
    exact ⟨hq, hhandled.trans hsaid, hanswered, fun call hcall => ht.inTurn.callOver ht.good hq hcall⟩
  constructor
  · intro more t hrun hmore
    refine ⟨(Nat.le_add_right _ _).trans (hrun.length_add_weight_le hmore hlower), fun hend => ?_⟩
    apply hdone hrun hmore
    by_contra hq
    obtain ⟨m, u, hm, hstep⟩ := hgo (hkeep hrun hmore) hq
    rw [hend m hm] at hstep
    cases hstep
  · obtain ⟨more, t, hmore, hrun, hq⟩ :=
      exists_run_to_rest (ofFun (step host)) hlower (fun hs hm hst => Going.step hw hmay hs hm hst) hgo le_rfl hs
    exact ⟨more, t, hmore, hrun, hdone hrun hmore hq⟩

/-- Two requests and an info message are on their way, and after eleven moves at most all is done. -/
theorem everything_is_answered_twice : askedTwice.weight = 11 ∧ ∃ more t,
    Run (ofFun (step plainHost)) (askedTwice : Pair Unit Unit) more t ∧
      t.Done [(.REQUEST, [65]), (.INFO, [195, 169]), (.REQUEST, [66])] := by
  have hall := everything_is_answered (run_of_exec (exec_asking plainHost)) rfl (fun _ => rfl)
    (by simp [asking, PairMove.Orderly]) fun u v message => referenceFree_of_short (by decide)
  obtain ⟨more, t, -, hmore, hdone⟩ := hall.2
  have hsaid : said asking = [(.REQUEST, [65]), (.INFO, [195, 169]), (.REQUEST, [66])] := by decide
  exact ⟨by decide, more, t, hmore, hsaid ▸ hdone⟩

end Pair

end Communique
