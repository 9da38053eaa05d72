import Communique.Message
import Communique.Storage.Tokens

/-!
# `Connection`: one end of a connection

The connection holds the two handlers of its user and the table of the response handlers whose requests
are still to be answered. The handlers are opaque: `I`, `R` and `H` are the types of the info handlers,
the request handlers and the response handlers, and what calling one does is an argument of the
functions that call it.

* `Connection.sendRequest`, `Connection.sendInfo` : the frame that reaches the transport's `send` and
  the connection left behind, also when a step of the call throws;
* `answer` : what the task of a request sends once the request handler has returned or thrown;
* `Connection.onMessage` : the message handler; a `Reaction` says what it did besides;
* `onMessage_info`, `onMessage_request`, `onMessage_response`, `onMessage_other` : one case each;
* **`onMessage_returns_iff`** : exactly when no exception escapes `onMessage`.
-/

namespace Communique
open Storage

/-- What a `Connection` uses of its websocketpp connection: `get_message` gives a message of its own
payload, `send` takes a payload and gives an error code, which is zero on success. -/
structure Transport where
  getMessage : Nat → Except Exn Bytes
  send : Bytes → Except Exn Nat

structure Connection (I R H : Type) where
  infoHandler : Option I
  requestHandler : Option R
  responseHandlers : UniqueTokenStorage 32 H

namespace Connection
variable {I R H : Type}

/-- A connection as the constructor leaves it, with the handlers it is given. -/
def new (infoHandler : Option I) (requestHandler : Option R) : Connection I R H where
  infoHandler := infoHandler
  requestHandler := requestHandler
  responseHandlers := UniqueTokenStorage.empty 32 H

/-! ## Sending -/

/-- What a sending function leaves: the connection, the payload that it passed to `send`, if control got
there, and how it ended. -/
structure Sent (I R H : Type) where
  connection : Connection I R H
  frame : Option Bytes
  result : Except Exn Unit

/-- Building a message and sending it; the error code that `send` returns is not looked at. -/
def transmit (byteOrder : Endian.Order) (transport : Transport) (c : Connection I R H)
    (messageBody : Bytes) (type : MessageType) (userReference : UserReference) : Sent I R H :=
  match transport.getMessage (messageBody.length + 4 + 1) with
  | .error e => ⟨c, none, .error e⟩
  | .ok freshPayload =>
    let newMessage := Message.build ⟨byteOrder, freshPayload⟩ messageBody type userReference
    match transport.send newMessage.payload with
    | .error e => ⟨c, some newMessage.payload, .error e⟩
    | .ok _errorCode => ⟨c, some newMessage.payload, .ok ()⟩

def sendRequest (byteOrder : Endian.Order) (transport : Transport) (c : Connection I R H)
    (message : Bytes) (responseHandler : H) : Sent I R H :=
  match c.responseHandlers.push responseHandler with
  | .error e => ⟨c, none, .error e⟩
  | .ok (userReference, responseHandlers) =>
    transmit byteOrder transport { c with responseHandlers := responseHandlers } message .REQUEST
      userReference

def sendInfo (byteOrder : Endian.Order) (transport : Transport) (c : Connection I R H)
    (message : Bytes) : Sent I R H :=
  transmit byteOrder transport c message .INFO 0

/-! ## Receiving -/

/-- What the task of a request sends: the string that the request handler returned, or what it threw. -/
def answer (platform : Platform) (receivedMessage : Message) (outcome : Except Exn Bytes) : Message :=
  let (handlerResponse, responseType) : Bytes × MessageType := match outcome with
    | .ok handlerResponse => (handlerResponse, .RESPONSE)
    | .error (.exception what) => (what, .REQUESTERROR)
    | .error .unknown => (ascii "Unknown exception", .REQUESTERROR)
  Message.build platform handlerResponse responseType (receivedMessage.userReference platform.byteOrder)

theorem answer_ok (platform : Platform) (receivedMessage : Message) (handlerResponse : Bytes) :
    answer platform receivedMessage (.ok handlerResponse) =
      Message.build platform handlerResponse .RESPONSE (wireReference receivedMessage.payload) := by
  rw [answer, Message.userReference_eq]

/-- Whatever the request handler throws is reported as an error. -/
theorem answer_error (platform : Platform) (receivedMessage : Message) (e : Exn) :
    ∃ what, answer platform receivedMessage (.error e) =
      Message.build platform what .REQUESTERROR (wireReference receivedMessage.payload) := by
  cases e with
  | exception what => exact ⟨what, by rw [answer, Message.userReference_eq]⟩
  | unknown => exact ⟨_, by rw [answer, Message.userReference_eq]⟩

/-- Either way the answer carries the user reference of the request. -/
theorem answer_eq_build (platform : Platform) (receivedMessage : Message) (outcome : Except Exn Bytes) :
    ∃ body type, (type = .RESPONSE ∨ type = .REQUESTERROR) ∧ answer platform receivedMessage outcome =
      Message.build platform body type (wireReference receivedMessage.payload) := by
  cases outcome with
  | ok handlerResponse => exact ⟨_, _, Or.inl rfl, answer_ok platform receivedMessage handlerResponse⟩
  | error e =>
    obtain ⟨what, hw⟩ := answer_error platform receivedMessage e
    exact ⟨_, _, Or.inr rfl, hw⟩

/-- What `onMessage` did besides changing the table of response handlers. The tasks run in threads of
their own: an exception that leaves one stays in its future. -/
inductive Reaction (I H : Type)
  | infoHandled (infoHandler : I) (messageBody : Bytes)
  | infoIgnored (messageBody : Bytes)
  | requestTask (receivedMessage : Message)
  | requestRefused (newMessage : Message)
  | responseTask (responseHandler : H) (messageBody : Bytes)
  | responseIgnored (messageBody : Bytes)
  | nothing

/-- `on_message`. The info handler runs on the calling thread, and `callInfo` says whether it returns. -/
def onMessage (platform : Platform) (callInfo : I → Bytes → Except Exn Unit) (c : Connection I R H)
    (msg : Bytes) : Connection I R H × Except Exn (Reaction I H) :=
  match Message.receive msg with
  | .error e => (c, .error e)
  | .ok receivedMessage =>
    if receivedMessage.type = some .INFO then
      match c.infoHandler with
      | some infoHandler =>
        match callInfo infoHandler receivedMessage.messageBody with
        | .error e => (c, .error e)
        | .ok () => (c, .ok (.infoHandled infoHandler receivedMessage.messageBody))
      | none => (c, .ok (.infoIgnored receivedMessage.messageBody))
    else if receivedMessage.type = some .REQUEST then
      match c.requestHandler with
      | some _ => (c, .ok (.requestTask receivedMessage))
      | none =>
        let newMessage := Message.build platform (ascii "No request handler set") .REQUESTERROR
          (receivedMessage.userReference platform.byteOrder)
        (c, .ok (.requestRefused newMessage))
    else if receivedMessage.type = some .RESPONSE then
      match c.responseHandlers.pop (receivedMessage.userReference platform.byteOrder) with
      | some (responseHandler, responseHandlers) =>
        ({ c with responseHandlers := responseHandlers },
          .ok (.responseTask responseHandler receivedMessage.messageBody))
      | none => (c, .ok (.responseIgnored receivedMessage.messageBody))
    else (c, .ok .nothing)

/-! ## One lemma for each kind of payload -/

section Cases
variable {platform : Platform} {callInfo : I → Bytes → Except Exn Unit} {c : Connection I R H}

/-- The type byte of a payload, decoded. -/
abbrev typeOf (payload : Bytes) : Option MessageType := MessageType.ofChar (payload.getD 0 0)

theorem onMessage_short {msg : Bytes} (h : msg.length < 5) :
    c.onMessage platform callInfo msg = (c, .error (runtimeError
      "Received a websocket message that is too small to be a Communique message")) := by
  rw [onMessage, Message.receive, dif_pos h]

theorem onMessage_info (m : Message) (ht : typeOf m.payload = some .INFO) :
    c.onMessage platform callInfo m.payload = (c, match c.infoHandler with
      | some infoHandler => (callInfo infoHandler m.messageBody).map fun _ =>
          .infoHandled infoHandler m.messageBody
      | none => .ok (.infoIgnored m.messageBody)) := by
  have hm : m.type = some .INFO := ht
  rw [onMessage, Message.receive_payload]
  simp only [hm, if_true]
  cases c.infoHandler with
  | none => rfl
  | some infoHandler =>
    dsimp only
    cases callInfo infoHandler m.messageBody <;> rfl

theorem onMessage_request (m : Message) (ht : typeOf m.payload = some .REQUEST) :
    c.onMessage platform callInfo m.payload = (c, .ok (match c.requestHandler with
      | some _ => .requestTask m
      | none => .requestRefused (Message.build platform (ascii "No request handler set") .REQUESTERROR
          (wireReference m.payload)))) := by
  have hm : m.type = some .REQUEST := ht
  rw [onMessage, Message.receive_payload]
  simp only [hm, Option.some.injEq, reduceCtorEq, if_false, if_true, Message.userReference_eq]
  cases c.requestHandler <;> rfl

theorem onMessage_response (m : Message) (ht : typeOf m.payload = some .RESPONSE) :
    c.onMessage platform callInfo m.payload =
      match c.responseHandlers.pop (wireReference m.payload) with
      | some (responseHandler, responseHandlers) =>
        ({ c with responseHandlers := responseHandlers }, .ok (.responseTask responseHandler m.messageBody))
      | none => (c, .ok (.responseIgnored m.messageBody)) := by
  have hm : m.type = some .RESPONSE := ht
  rw [onMessage, Message.receive_payload]
  simp only [hm, Option.some.injEq, reduceCtorEq, if_false, if_true, Message.userReference_eq]

theorem onMessage_other (m : Message) (hi : typeOf m.payload ≠ some .INFO)
    (hr : typeOf m.payload ≠ some .REQUEST) (hp : typeOf m.payload ≠ some .RESPONSE) :
    c.onMessage platform callInfo m.payload = (c, .ok .nothing) := by
  rw [onMessage, Message.receive_payload]
  simp only [Message.type, hi, hr, hp, if_false]

/-! ## Which exceptions escape -/

/-- **`onMessage` returns normally exactly when** the payload is at least a header long and is not an info
message on whose body the info handler that is set throws. -/
theorem onMessage_returns_iff (platform : Platform) (callInfo : I → Bytes → Except Exn Unit)
    (c : Connection I R H) (msg : Bytes) :
    (∃ reaction, (c.onMessage platform callInfo msg).2 = .ok reaction) ↔
      5 ≤ msg.length ∧ ¬ (typeOf msg = some .INFO ∧ ∃ infoHandler e,
        c.infoHandler = some infoHandler ∧ callInfo infoHandler (msg.drop 5) = .error e) := by
  by_cases hlen : msg.length < 5
  · rw [onMessage_short hlen]
    constructor
    · rintro ⟨reaction, hr⟩
      cases hr
    · intro h
      omega
  · obtain ⟨m, rfl⟩ : ∃ m : Message, m.payload = msg := ⟨⟨msg, by omega⟩, rfl⟩
    rw [and_iff_right m.size_ge]
    by_cases hi : typeOf m.payload = some .INFO
    · rw [onMessage_info m hi]
      cases hh : c.infoHandler with
      | none => simp
      | some infoHandler =>
        show (∃ reaction, (callInfo infoHandler (m.payload.drop 5)).map _ = .ok reaction) ↔ _
        cases hc : callInfo infoHandler (m.payload.drop 5) with
        | ok u => simp [Except.map, hc]
        | error e => simp [Except.map, hc, hi]
    · refine ⟨fun _ h => hi h.1, fun _ => ?_⟩
      by_cases hr : typeOf m.payload = some .REQUEST
      · rw [onMessage_request m hr]
        exact ⟨_, rfl⟩
      · by_cases hp : typeOf m.payload = some .RESPONSE
        · rw [onMessage_response m hp]
          cases c.responseHandlers.pop (wireReference m.payload) with
          | none => exact ⟨_, rfl⟩
          | some r => exact ⟨_, rfl⟩
        · rw [onMessage_other m hi hr hp]
          exact ⟨_, rfl⟩

/-- Four bytes from a peer make an exception escape. -/
theorem onMessage_four_bytes :
    ¬ ∃ reaction, ((new none none : Connection Unit Unit Unit).onMessage ⟨.little, []⟩ (fun _ _ => .ok ())
      [0, 0, 0, 0]).2 = .ok reaction := by
  rintro ⟨reaction, hr⟩
  rw [onMessage_short (by decide)] at hr
  cases hr

end Cases

end Connection

end Communique
