import Communique.Connection

/-!
# One end with its threads

The threads of an end do what they do one statement at a time: a call of `sendRequest` first stores the
response handler and then sends, the task of a request runs its handler and then sends the answer, the
task of a response runs the response handler. The response handler that a call stores is named by the
number of the call.

* `Frame` : a message between the ends, with the call it belongs to, which no step looks at;
* `Endpoint` : the connection, the threads that are under way and a log of what happened;
* `Endpoint.receive` : what delivering a frame to `onMessage` does; `Endpoint.act` : what a thread does;
* `Received`, `Acted` : every way these can go, one constructor each (`receive_cases`, `act_cases`);
* `push_send` : storing and sending in a row is `Connection.sendRequest`.
-/

namespace Communique
open Storage

/-- A message between the ends. Requests and answers are marked with the number of their call at the end
that called `sendRequest`; the code has no such mark. -/
structure Frame where
  message : Message
  call : Nat

namespace Frame

def type (frame : Frame) : Option MessageType := frame.message.type

def messageBody (frame : Frame) : Bytes := frame.message.messageBody

/-- The user reference, which both ends use as the token of the request. -/
def token (frame : Frame) : UserReference := wireReference frame.message.payload

def key (frame : Frame) : UserReference × Nat := (frame.token, frame.call)

/-- Token, call and content. -/
def item (frame : Frame) : UserReference × Nat × Bytes := (frame.token, frame.call, frame.messageBody)

section Build
variable (platform : Platform) (messageBody : Bytes) (t : MessageType) (userReference : UserReference)
  (call : Nat)

@[simp] theorem type_build : type ⟨Message.build platform messageBody t userReference, call⟩ = some t :=
  Message.type_build platform messageBody t userReference

@[simp] theorem key_build :
    key ⟨Message.build platform messageBody t userReference, call⟩ = (userReference, call) := by
  rw [key, token, Message.build_payload, wireReference_wire]

@[simp] theorem item_build :
    item ⟨Message.build platform messageBody t userReference, call⟩ =
      (userReference, call, messageBody) := by
  rw [item, token, Message.build_payload, wireReference_wire, Frame.messageBody, Message.messageBody_build]

end Build

end Frame

/-- A call of `sendRequest` that has stored its handler and not yet sent. -/
structure Sending where
  call : Nat
  userReference : UserReference
  message : Bytes

def Sending.item (p : Sending) : UserReference × Nat × Bytes := (p.userReference, p.call, p.message)

/-- The task of a request before it runs the request handler, in it, and in it while it waits for the
response handler of a call of its own. -/
inductive Progress
  | created
  | running
  | waiting (call : Nat)
  deriving DecidableEq

structure RequestTask where
  call : Nat
  receivedMessage : Message
  progress : Progress

def RequestTask.item (t : RequestTask) : UserReference × Nat × Bytes :=
  (wireReference t.receivedMessage.payload, t.call, t.receivedMessage.messageBody)

/-- The task of a response: it runs the response handler of `call`. -/
structure ResponseTask where
  call : Nat
  messageBody : Bytes

inductive Event
  /-- `sendRequest` has stored the handler. -/
  | registered (call : Nat) (message : Bytes)
  | sent (frame : Frame)
  | delivered (frame : Frame)
  /-- The info handler or the request handler was called on a body. -/
  | handled (type : MessageType) (messageBody : Bytes)
  /-- The request handler ended, for the call of the other end. -/
  | returned (call : Nat) (messageBody : Bytes) (outcome : Except Exn Bytes)
  /-- The response handler of the call was run. -/
  | invoked (call : Nat) (messageBody : Bytes)
  /-- A response found no handler. -/
  | ignored (messageBody : Bytes)

/-! ## The log -/

section Log

@[simp] def sentFrames (log : List Event) : List Frame :=
  log.filterMap fun
    | .sent frame => some frame
    | _ => none

@[simp] def deliveredFrames (log : List Event) : List Frame :=
  log.filterMap fun
    | .delivered frame => some frame
    | _ => none

@[simp] def registeredCalls (log : List Event) : List (Nat × Bytes) :=
  log.filterMap fun
    | .registered call message => some (call, message)
    | _ => none

@[simp] def handledMessages (log : List Event) : List (MessageType × Bytes) :=
  log.filterMap fun
    | .handled type messageBody => some (type, messageBody)
    | _ => none

/-- The strings that the request handler returned, with the call and its body. -/
@[simp] def returnedResponses (log : List Event) : List (Nat × Bytes × Bytes) :=
  log.filterMap fun
    | .returned call messageBody (.ok response) => some (call, messageBody, response)
    | _ => none

@[simp] def invokedHandlers (log : List Event) : List (Nat × Bytes) :=
  log.filterMap fun
    | .invoked call messageBody => some (call, messageBody)
    | _ => none

@[simp] def ignoredResponses (log : List Event) : List Bytes :=
  log.filterMap fun
    | .ignored messageBody => some messageBody
    | _ => none

/-- The frames of one type. -/
def ofType (type : MessageType) (frames : List Frame) : List Frame :=
  frames.filter fun frame => frame.type = some type

@[simp] theorem ofType_nil (type : MessageType) : ofType type [] = [] := rfl

@[simp] theorem ofType_append (type : MessageType) (frames frames' : List Frame) :
    ofType type (frames ++ frames') = ofType type frames ++ ofType type frames' := List.filter_append ..

theorem ofType_cons (type : MessageType) (frame : Frame) (frames : List Frame) :
    ofType type (frame :: frames) =
      if frame.type = some type then frame :: ofType type frames else ofType type frames := by
  unfold ofType
  rw [List.filter_cons]
  by_cases h : frame.type = some type
  · rw [if_pos h, if_pos (decide_eq_true h)]
  · rw [if_neg h, if_neg (by rw [decide_eq_false h]; exact Bool.false_ne_true)]

/-- The task waits for a response handler that has been run. -/
def RequestTask.hasAnswer (t : RequestTask) (log : List Event) : Bool :=
  match t.progress with
  | .waiting call => call ∈ (invokedHandlers log).map Prod.fst
  | _ => false

theorem RequestTask.waiting_of_hasAnswer {t : RequestTask} {log : List Event} (h : t.hasAnswer log) :
    ∃ call, t.progress = .waiting call := by
  unfold hasAnswer at h
  cases hp : t.progress with
  | waiting call => exact ⟨call, rfl⟩
  | _ =>
    rw [hp] at h
    cases h

end Log

/-! ## An end -/

structure Endpoint (I R : Type) where
  connection : Connection I R Nat
  /-- The number of calls of `sendRequest` that have stored their handler. -/
  calls : Nat
  sending : List Sending
  requestTasks : List RequestTask
  responseTasks : List ResponseTask
  log : List Event

/-- What a thread of an end may do. -/
inductive Action (I R : Type)
  | push (message : Bytes)
  | send (i : Nat)
  | sendInfo (message : Bytes)
  | start (i : Nat)
  | wait (i call : Nat)
  | resume (i : Nat)
  | finish (i : Nat) (outcome : Except Exn Bytes)
  | invoke (i : Nat)
  | setInfoHandler (infoHandler : Option I)
  | setRequestHandler (requestHandler : Option R)

namespace Endpoint
variable {I R : Type}

/-- An end before any traffic. -/
def start (infoHandler : Option I) (requestHandler : Option R) : Endpoint I R where
  connection := Connection.new infoHandler requestHandler
  calls := 0
  sending := []
  requestTasks := []
  responseTasks := []
  log := []

/-- Neither a request task nor a response task is under way. -/
def Idle (e : Endpoint I R) : Prop := e.requestTasks = [] ∧ e.responseTasks = []

instance (e : Endpoint I R) : Decidable e.Idle :=
  inferInstanceAs (Decidable (e.requestTasks = [] ∧ e.responseTasks = []))

/-- The end after an event. -/
@[simp] def record (e : Endpoint I R) (event : Event) : Endpoint I R := { e with log := e.log ++ [event] }

/-- The end after frames went to the transport. -/
@[simp] def recordSent (e : Endpoint I R) (frames : List Frame) : Endpoint I R :=
  { e with log := e.log ++ frames.map .sent }

/-- A `std::exception`, which is what calling an empty `std::function` throws. -/
def isException : Except Exn Bytes → Bool
  | .error (.exception _) => true
  | _ => false

/-- Delivering a frame to `onMessage`. The info handlers, called on this thread, end with `infoOutcome`; the
tasks are left to their threads. Returns the frames passed to the transport. -/
def receive (platform : Platform) (e : Endpoint I R) (infoOutcome : Except Exn Unit) (frame : Frame) :
    Endpoint I R × List Frame :=
  let r := e.connection.onMessage platform (fun _ _ => infoOutcome) frame.message.payload
  let e := { e.record (.delivered frame) with connection := r.1 }
  match r.2 with
  | .ok (.infoHandled _ messageBody) => (e.record (.handled .INFO messageBody), [])
  | .ok (.requestTask receivedMessage) =>
    ({ e with requestTasks := e.requestTasks ++ [⟨frame.call, receivedMessage, .created⟩] }, [])
  | .ok (.requestRefused newMessage) => (e, [⟨newMessage, frame.call⟩])
  | .ok (.responseTask call messageBody) =>
    ({ e with responseTasks := e.responseTasks ++ [⟨call, messageBody⟩] }, [])
  | .ok (.responseIgnored messageBody) => (e.record (.ignored messageBody), [])
  | .ok (.infoIgnored _) | .ok .nothing | .error _ => (e, [])

/-- One statement of a thread, where it can be run: the end after it and the frames passed to the
transport. `mayWait` says on which bodies the request handler may wait for a request of its own. -/
def act (platform : Platform) (mayWait : Bytes → Bool) (e : Endpoint I R) :
    Action I R → Option (Endpoint I R × List Frame)
  | .push message =>
    match e.connection.responseHandlers.push e.calls with
    | .error _ => some (e, [])
    | .ok (userReference, responseHandlers) =>
      some ({ e.record (.registered e.calls message) with
        connection := { e.connection with responseHandlers := responseHandlers }
        calls := e.calls + 1
        sending := e.sending ++ [⟨e.calls, userReference, message⟩] }, [])
  | .send i =>
    e.sending[i]?.bind fun p =>
      some ({ e with sending := e.sending.eraseIdx i },
        [⟨Message.build platform p.message .REQUEST p.userReference, p.call⟩])
  | .sendInfo message => some (e, [⟨Message.build platform message .INFO 0, 0⟩])
  | .start i =>
    e.requestTasks[i]?.bind fun t =>
      if t.progress = .created ∧ e.connection.requestHandler.isSome then
        some ({ e.record (.handled .REQUEST t.receivedMessage.messageBody) with
          requestTasks := e.requestTasks.set i { t with progress := .running } }, [])
      else none
  | .wait i call =>
    e.requestTasks[i]?.bind fun t =>
      if t.progress = .running ∧ mayWait t.receivedMessage.messageBody ∧
          call ∈ (ofType .REQUEST (sentFrames e.log)).map Frame.call then
        some ({ e with requestTasks := e.requestTasks.set i { t with progress := .waiting call } }, [])
      else none
  | .resume i =>
    e.requestTasks[i]?.bind fun t =>
      if t.hasAnswer e.log then
        some ({ e with requestTasks := e.requestTasks.set i { t with progress := .running } }, [])
      else none
  | .finish i outcome =>
    e.requestTasks[i]?.bind fun t =>
      if t.progress = .running ∨
          (t.progress = .created ∧ e.connection.requestHandler.isNone ∧ isException outcome) then
        some ({ e.record (.returned t.call t.receivedMessage.messageBody outcome) with
          requestTasks := e.requestTasks.eraseIdx i },
          [⟨Connection.answer platform t.receivedMessage outcome, t.call⟩])
      else none
  | .invoke i =>
    e.responseTasks[i]?.bind fun t =>
      some ({ e.record (.invoked t.call t.messageBody) with
        responseTasks := e.responseTasks.eraseIdx i }, [])
  | .setInfoHandler infoHandler =>
    some ({ e with connection := { e.connection with infoHandler := infoHandler } }, [])
  | .setRequestHandler requestHandler =>
    some ({ e with connection := { e.connection with requestHandler := requestHandler } }, [])

/-! ## What can happen -/

/-- The outcomes of `receive`, by the type of the frame. -/
inductive Received (platform : Platform) (e : Endpoint I R) (infoOutcome : Except Exn Unit) (frame : Frame) :
    Endpoint I R → List Frame → Prop
  | infoHandled (ht : frame.type = some .INFO) :
      Received platform e infoOutcome frame
        ((e.record (.delivered frame)).record (.handled .INFO frame.messageBody)) []
  | unhandled (hq : frame.type ≠ some .REQUEST) (hp : frame.type ≠ some .RESPONSE)
      (hi : frame.type = some .INFO → e.connection.infoHandler = none ∨ infoOutcome ≠ .ok ()) :
      Received platform e infoOutcome frame (e.record (.delivered frame)) []
  | requestTask (ht : frame.type = some .REQUEST) :
      Received platform e infoOutcome frame { e.record (.delivered frame) with
        requestTasks := e.requestTasks ++ [⟨frame.call, frame.message, .created⟩] } []
  | requestRefused (ht : frame.type = some .REQUEST) (hset : e.connection.requestHandler = none) :
      Received platform e infoOutcome frame (e.record (.delivered frame))
        [⟨Message.build platform (ascii "No request handler set") .REQUESTERROR frame.token, frame.call⟩]
  | responseTask {call : Nat} {responseHandlers : UniqueTokenStorage 32 Nat}
      (ht : frame.type = some .RESPONSE)
      (hp : e.connection.responseHandlers.pop frame.token = some (call, responseHandlers)) :
      Received platform e infoOutcome frame { e.record (.delivered frame) with
        connection := { e.connection with responseHandlers := responseHandlers }
        responseTasks := e.responseTasks ++ [⟨call, frame.messageBody⟩] } []
  | responseIgnored (ht : frame.type = some .RESPONSE)
      (hp : e.connection.responseHandlers.pop frame.token = none) :
      Received platform e infoOutcome frame
        ((e.record (.delivered frame)).record (.ignored frame.messageBody)) []

theorem receive_cases (platform : Platform) (e : Endpoint I R) (infoOutcome : Except Exn Unit)
    (frame : Frame) :
    Received platform e infoOutcome frame (e.receive platform infoOutcome frame).1
      (e.receive platform infoOutcome frame).2 := by
  unfold receive
  by_cases hi : frame.type = some .INFO
  · have hq : frame.type ≠ some .REQUEST := by
      rw [hi]
      decide
    have hp : frame.type ≠ some .RESPONSE := by
      rw [hi]
      decide
    rw [Connection.onMessage_info frame.message hi]
    cases hset : e.connection.infoHandler with
    | none => exact Received.unhandled hq hp fun _ => Or.inl hset
    | some infoHandler =>
      cases infoOutcome with
      | ok u => exact Received.infoHandled hi
      | error exn => exact Received.unhandled hq hp fun _ => Or.inr (by simp)
  · by_cases hq : frame.type = some .REQUEST
    · rw [Connection.onMessage_request frame.message hq]
      cases hset : e.connection.requestHandler with
      | none => exact Received.requestRefused hq hset
      | some requestHandler => exact Received.requestTask hq
    · by_cases hp : frame.type = some .RESPONSE
      · rw [Connection.onMessage_response frame.message hp]
        cases hpop : e.connection.responseHandlers.pop (wireReference frame.message.payload) with
        | none => exact Received.responseIgnored hp hpop
        | some r => exact Received.responseTask hp hpop
      · rw [Connection.onMessage_other frame.message hi hq hp]
        exact Received.unhandled hq hp fun h => absurd h hi

/-- A request that comes to a request handler becomes a task. -/
theorem receive_request {platform : Platform} {e : Endpoint I R} {infoOutcome : Except Exn Unit}
    {frame : Frame} {requestHandler : R} (hset : e.connection.requestHandler = some requestHandler)
    (ht : frame.type = some .REQUEST) :
    e.receive platform infoOutcome frame = ({ e.record (.delivered frame) with
      requestTasks := e.requestTasks ++ [⟨frame.call, frame.message, .created⟩] }, []) := by
  unfold receive
  rw [Connection.onMessage_request frame.message ht, hset]
  rfl

/-- The outcomes of `act`, by the action. -/
inductive Acted (platform : Platform) (mayWait : Bytes → Bool) (e : Endpoint I R) :
    Action I R → Endpoint I R → List Frame → Prop
  /-- No token was free: the exception goes to the caller. -/
  | full {message : Bytes} : Acted platform mayWait e (.push message) e []
  | push {message : Bytes} {userReference : UserReference} {responseHandlers : UniqueTokenStorage 32 Nat}
      (hp : e.connection.responseHandlers.push e.calls = .ok (userReference, responseHandlers)) :
      Acted platform mayWait e (.push message) { e.record (.registered e.calls message) with
        connection := { e.connection with responseHandlers := responseHandlers }
        calls := e.calls + 1
        sending := e.sending ++ [⟨e.calls, userReference, message⟩] } []
  | send {i : Nat} {before after : List Sending} {p : Sending} (h : e.sending = before ++ p :: after) :
      Acted platform mayWait e (.send i) { e with sending := before ++ after }
        [⟨Message.build platform p.message .REQUEST p.userReference, p.call⟩]
  | sendInfo {message : Bytes} :
      Acted platform mayWait e (.sendInfo message) e [⟨Message.build platform message .INFO 0, 0⟩]
  | start {i : Nat} {before after : List RequestTask} {t : RequestTask}
      (h : e.requestTasks = before ++ t :: after) (ht : t.progress = .created) :
      Acted platform mayWait e (.start i) { e.record (.handled .REQUEST t.receivedMessage.messageBody) with
        requestTasks := before ++ { t with progress := .running } :: after } []
  | wait {i call : Nat} {before after : List RequestTask} {t : RequestTask}
      (h : e.requestTasks = before ++ t :: after) (ht : t.progress = .running)
      (hw : mayWait t.receivedMessage.messageBody) :
      Acted platform mayWait e (.wait i call) { e with
        requestTasks := before ++ { t with progress := .waiting call } :: after } []
  | resume {i call : Nat} {before after : List RequestTask} {t : RequestTask}
      (h : e.requestTasks = before ++ t :: after) (ht : t.progress = .waiting call) :
      Acted platform mayWait e (.resume i) { e with
        requestTasks := before ++ { t with progress := .running } :: after } []
  | finish {i : Nat} {outcome : Except Exn Bytes} {before after : List RequestTask} {t : RequestTask}
      (h : e.requestTasks = before ++ t :: after)
      (ht : t.progress = .created → e.connection.requestHandler = none) :
      Acted platform mayWait e (.finish i outcome)
        { e.record (.returned t.call t.receivedMessage.messageBody outcome) with
          requestTasks := before ++ after } [⟨Connection.answer platform t.receivedMessage outcome, t.call⟩]
  | invoke {i : Nat} {before after : List ResponseTask} {t : ResponseTask}
      (h : e.responseTasks = before ++ t :: after) :
      Acted platform mayWait e (.invoke i) { e.record (.invoked t.call t.messageBody) with
        responseTasks := before ++ after } []
  | setInfoHandler {infoHandler : Option I} :
      Acted platform mayWait e (.setInfoHandler infoHandler)
        { e with connection := { e.connection with infoHandler := infoHandler } } []
  | setRequestHandler {requestHandler : Option R} :
      Acted platform mayWait e (.setRequestHandler requestHandler)
        { e with connection := { e.connection with requestHandler := requestHandler } } []

/-- An element of a list, with what stands before and behind it. -/
theorem split_at {α : Type} {l : List α} {i : Nat} {x : α} (h : l[i]? = some x) :
    ∃ before after, l = before ++ x :: after ∧ l.eraseIdx i = before ++ after ∧
      ∀ y, l.set i y = before ++ y :: after := by
  obtain ⟨hi, hx⟩ := List.getElem?_eq_some_iff.mp h
  refine ⟨l.take i, l.drop (i + 1), ?_, List.eraseIdx_eq_take_drop_succ l i, fun y => ?_⟩
  · rw [← hx, List.getElem_cons_drop, List.take_append_drop]
  · rw [List.set_eq_take_append_cons_drop, if_pos hi]

theorem act_cases {platform : Platform} {mayWait : Bytes → Bool} {e e' : Endpoint I R}
    {out : List Frame} {a : Action I R} (h : e.act platform mayWait a = some (e', out)) :
    Acted platform mayWait e a e' out := by
  cases a with
  | push message =>
    rw [act] at h
    cases hp : e.connection.responseHandlers.push e.calls with
    | error exn =>
      rw [hp] at h
      cases h
      exact Acted.full
    | ok r =>
      rw [hp] at h
      cases h
      exact Acted.push hp
  | send i =>
    obtain ⟨p, hi, h⟩ := Option.bind_eq_some_iff.mp h
    obtain ⟨before, after, hl, herase, -⟩ := split_at hi
    cases h
    rw [herase]
    exact Acted.send hl
  | sendInfo message =>
    cases h
    exact Acted.sendInfo
  | start i =>
    obtain ⟨t, hi, h⟩ := Option.bind_eq_some_iff.mp h
    obtain ⟨before, after, hl, -, hset⟩ := split_at hi
    obtain ⟨ht, h⟩ := Option.ite_none_right_eq_some.mp h
    cases h
    rw [hset]
    exact Acted.start hl ht.1
  | wait i call =>
    obtain ⟨t, hi, h⟩ := Option.bind_eq_some_iff.mp h
    obtain ⟨before, after, hl, -, hset⟩ := split_at hi
    obtain ⟨ht, h⟩ := Option.ite_none_right_eq_some.mp h
    cases h
    rw [hset]
    exact Acted.wait hl ht.1 ht.2.1
  | resume i =>
    obtain ⟨t, hi, h⟩ := Option.bind_eq_some_iff.mp h
    obtain ⟨before, after, hl, -, hset⟩ := split_at hi
    obtain ⟨ht, h⟩ := Option.ite_none_right_eq_some.mp h
    cases h
    rw [hset]
    obtain ⟨call, hw⟩ := RequestTask.waiting_of_hasAnswer ht
    exact Acted.resume hl hw
  | finish i outcome =>
    obtain ⟨t, hi, h⟩ := Option.bind_eq_some_iff.mp h
    obtain ⟨before, after, hl, herase, -⟩ := split_at hi
    obtain ⟨ht, h⟩ := Option.ite_none_right_eq_some.mp h
    cases h
    rw [herase]
    apply Acted.finish hl
    intro hcreated
    rcases ht with ht | ⟨-, hnone, -⟩
    · rw [hcreated] at ht
      cases ht
    · exact Option.isNone_iff_eq_none.mp hnone
  | invoke i =>
    obtain ⟨t, hi, h⟩ := Option.bind_eq_some_iff.mp h
    obtain ⟨before, after, hl, herase, -⟩ := split_at hi
    cases h
    rw [herase]
    exact Acted.invoke hl
  | setInfoHandler infoHandler =>
    cases h
    exact Acted.setInfoHandler
  | setRequestHandler requestHandler =>
    cases h
    exact Acted.setRequestHandler

/-- Storing the handler and sending right after it is `Connection.sendRequest` on a transport that does not
throw. -/
theorem push_send {platform : Platform} {mayWait : Bytes → Bool} (transport : Transport)
    {e e₁ e₂ : Endpoint I R} {out₁ out₂ : List Frame} {message freshPayload : Bytes} {errorCode : Nat}
    (hget : ∀ size, transport.getMessage size = .ok freshPayload)
    (hsend : ∀ payload, transport.send payload = .ok errorCode)
    (h₁ : e.act platform mayWait (.push message) = some (e₁, out₁))
    (hcalls : e₁.calls = e.calls + 1)
    (h₂ : e₁.act platform mayWait (.send e.sending.length) = some (e₂, out₂)) :
    out₁ = [] ∧ e.connection.sendRequest platform.byteOrder transport message e.calls =
      ⟨e₂.connection, out₂.head?.map fun frame => frame.message.payload, .ok ()⟩ := by
  rw [act] at h₁
  cases hp : e.connection.responseHandlers.push e.calls with
  | error exn =>
    rw [hp] at h₁
    cases h₁
    omega
  | ok r =>
    rw [hp] at h₁
    cases h₁
    rw [act, List.getElem?_concat_length] at h₂
    cases h₂
    refine ⟨rfl, ?_⟩
    rw [Connection.sendRequest, hp]
    show Connection.transmit _ _ _ _ _ _ = _
    rw [Connection.transmit, hget]
    simp [hsend]

end Endpoint

end Communique
