import Communique.Connection

/-!
# The handlers of a message

A setter for a handler of one argument wraps it with `std::bind` in a function of two, which drops the connection.
What `std::bind` returns can always be called, also where it holds an empty function.

* `Given`, `Target`, `Overload` : the functions of the user, what a `std::function` of two arguments holds, and the
  argument of either setter;
* `Connection.react` : `Connection::on_message` with the calls of the user's functions, the answer and the exception;
* `Meant.entry` : the same message, given to whatever was set last;
* `ReachesWrapped` : the messages that call what `std::bind` has made of an empty function;
* **`entry_eq_iff`** : these are the messages on which the two disagree.
-/

namespace Communique
open Connection (typeOf)

/-! ## `std::function` -/

section Functions
variable {F₁ F₂ A : Type}

/-- A function of two arguments that the user gives: one of the user's own, or the one that ignores the connection
and calls a function of one argument. -/
inductive Given (F₁ F₂ : Type)
  | function (f : F₂)
  | ignoring (f : F₁)

/-- What a `std::function` of two arguments holds if it is not empty: what it was given, or the result of
`std::bind( f, _1 )`, with a copy of `f`, which may be empty. -/
inductive Target (F₁ F₂ : Type)
  | given (f : Given F₁ F₂)
  | bound (f : Option F₁)

/-- A call of a function of the user on a message. The second argument of `two` is the connection. -/
inductive HandlerCall (F₁ F₂ : Type)
  | one (f : F₁) (messageBody : Bytes)
  | two (f : F₂) (messageBody : Bytes)

/-- What `std::bad_function_call` carries. -/
def badFunctionCall : Exn := .exception (ascii "bad_function_call")

def Given.callee (messageBody : Bytes) : Given F₁ F₂ → HandlerCall F₁ F₂
  | .function f => .two f messageBody
  | .ignoring f => .one f messageBody

/-- The function of the user that a call arrives at. -/
def Target.callee (messageBody : Bytes) : Target F₁ F₂ → Option (HandlerCall F₁ F₂)
  | .given f => some (f.callee messageBody)
  | .bound (some f) => some (.one f messageBody)
  | .bound none => none

def Target.call (behave : HandlerCall F₁ F₂ → Except Exn A) (target : Target F₁ F₂) (messageBody : Bytes) :
    Except Exn A :=
  match target.callee messageBody with
  | some call => behave call
  | none => .error badFunctionCall

/-- The argument of a setter: a function of one argument or of two, which may be empty. -/
inductive Overload (F₁ F₂ : Type)
  | one (f : Option F₁)
  | two (f : Option (Given F₁ F₂))

/-- What the setter stores. -/
def Overload.stored : Overload F₁ F₂ → Option (Target F₁ F₂)
  | .one f => some (.bound f)
  | .two f => f.map .given

/-- What the setter is meant to store, an empty function for an empty one. -/
def Overload.meant : Overload F₁ F₂ → Option (Given F₁ F₂)
  | .one f => f.map .ignoring
  | .two f => f

end Functions

variable {I₁ I₂ R₁ R₂ H : Type}

/-! ## One message -/

/-- What a message leads to: a call of an info or request handler of the user, an answer, an exception out of
`on_message`. -/
structure Entry (I₁ I₂ R₁ R₂ : Type) where
  infoCall : Option (HandlerCall I₁ I₂)
  requestCall : Option (HandlerCall R₁ R₂)
  frame : Option Bytes
  thrown : Option Exn

/-- What the user's functions do, which may depend on all that happened before. -/
structure Users (I₁ I₂ R₁ R₂ : Type) where
  info : List (Entry I₁ I₂ R₁ R₂) → HandlerCall I₁ I₂ → Except Exn Unit
  request : List (Entry I₁ I₂ R₁ R₂) → HandlerCall R₁ R₂ → Except Exn Bytes

namespace Connection

/-- The info handler's part of an entry. -/
def infoCall (c : Connection (Target I₁ I₂) (Target R₁ R₂) H) (msg : Bytes) : Option (HandlerCall I₁ I₂) :=
  if 5 ≤ msg.length ∧ typeOf msg = some .INFO then
    c.infoHandler.bind fun infoHandler => infoHandler.callee (msg.drop 5)
  else none

/-- `on_message`, with what it leads to. The task of a request is over before it returns, since the future of
`std::async` waits for it. -/
def react (platform : Platform) (users : Users I₁ I₂ R₁ R₂) (log : List (Entry I₁ I₂ R₁ R₂))
    (c : Connection (Target I₁ I₂) (Target R₁ R₂) H) (msg : Bytes) :
    Connection (Target I₁ I₂) (Target R₁ R₂) H × Entry I₁ I₂ R₁ R₂ :=
  let r := c.onMessage platform (Target.call (users.info log)) msg
  (r.1, match r.2 with
    | .error e => ⟨c.infoCall msg, none, none, some e⟩
    | .ok (.requestTask receivedMessage) =>
      match c.requestHandler with
      | some requestHandler =>
        ⟨none, requestHandler.callee receivedMessage.messageBody,
          some (answer platform receivedMessage
            (requestHandler.call (users.request log) receivedMessage.messageBody)).payload, none⟩
      | none => ⟨none, none, none, none⟩
    | .ok (.requestRefused newMessage) => ⟨none, none, some newMessage.payload, none⟩
    | .ok _ => ⟨c.infoCall msg, none, none, none⟩)

end Connection

/-! ## What the settings mean -/

/-- The handlers that were set last, and what each message is to lead to. -/
structure Meant (I₁ I₂ R₁ R₂ : Type) where
  info : Option (Given I₁ I₂)
  request : Option (Given R₁ R₂)
  log : List (Entry I₁ I₂ R₁ R₂)

namespace Meant

/-- A message goes to the handler of its type that was set last; without one an info message is ignored and a
request answered with an error. -/
def entry (platform : Platform) (users : Users I₁ I₂ R₁ R₂) (m : Meant I₁ I₂ R₁ R₂) (msg : Bytes) :
    Entry I₁ I₂ R₁ R₂ :=
  match Message.receive msg with
  | .error e => ⟨none, none, none, some e⟩
  | .ok receivedMessage =>
    if receivedMessage.type = some .INFO then
      match m.info with
      | some f =>
        let call := f.callee receivedMessage.messageBody
        ⟨some call, none, none, match users.info m.log call with
          | .error e => some e
          | .ok () => none⟩
      | none => ⟨none, none, none, none⟩
    else if receivedMessage.type = some .REQUEST then
      match m.request with
      | some f =>
        let call := f.callee receivedMessage.messageBody
        ⟨none, some call, some (Connection.answer platform receivedMessage (users.request m.log call)).payload, none⟩
      | none =>
        ⟨none, none, some (wire .REQUESTERROR (wireReference receivedMessage.payload)
          (ascii "No request handler set")), none⟩
    else ⟨none, none, none, none⟩

end Meant

/-! ## One message, both ways -/

section Message
variable {platform : Platform} {users : Users I₁ I₂ R₁ R₂} {log : List (Entry I₁ I₂ R₁ R₂)}
  {c : Connection (Target I₁ I₂) (Target R₁ R₂) H}

/-- A function that is not empty is called the same way by either setter. -/
theorem Overload.stored_of_meant {F₁ F₂ : Type} {h : Overload F₁ F₂} {f : Given F₁ F₂} (hmeant : h.meant = some f) :
    ∃ target, h.stored = some target ∧ ∀ messageBody, target.callee messageBody = some (f.callee messageBody) := by
  cases h with
  | one f' =>
    obtain ⟨f', rfl, rfl⟩ := Option.map_eq_some_iff.mp hmeant
    exact ⟨_, rfl, fun _ => rfl⟩
  | two f' =>
    obtain rfl : f' = some f := hmeant
    exact ⟨_, rfl, fun _ => rfl⟩

/-- An empty function stays empty through the setter of two arguments alone. -/
theorem Overload.stored_of_not_meant {F₁ F₂ : Type} {h : Overload F₁ F₂} (hmeant : h.meant = none) :
    h = .one none ∨ h = .two none := by
  cases h with
  | one f => exact Or.inl (congrArg Overload.one (Option.map_eq_none_iff.mp hmeant))
  | two f => exact Or.inr (congrArg Overload.two hmeant)

theorem Target.call_of_callee {F₁ F₂ A : Type} (behave : HandlerCall F₁ F₂ → Except Exn A) {target : Target F₁ F₂}
    {messageBody : Bytes} {call : HandlerCall F₁ F₂} (h : target.callee messageBody = some call) :
    target.call behave messageBody = behave call := by
  rw [Target.call, h]

namespace Connection

theorem react_info (m : Message) (ht : typeOf m.payload = some .INFO) :
    (c.react platform users log m.payload).2 = match c.infoHandler with
      | some infoHandler => ⟨infoHandler.callee m.messageBody, none, none,
          match infoHandler.call (users.info log) m.messageBody with
          | .error e => some e
          | .ok () => none⟩
      | none => ⟨none, none, none, none⟩ := by
  have hcall : c.infoCall m.payload = c.infoHandler.bind fun infoHandler => infoHandler.callee m.messageBody :=
    if_pos ⟨m.size_ge, ht⟩
  rw [react, onMessage_info m ht]
  dsimp only
  rw [hcall]
  cases c.infoHandler with
  | none => rfl
  | some infoHandler =>
    dsimp only
    cases infoHandler.call (users.info log) m.messageBody <;> rfl

theorem react_request (m : Message) (ht : typeOf m.payload = some .REQUEST) :
    (c.react platform users log m.payload).2 = match c.requestHandler with
      | some requestHandler => ⟨none, requestHandler.callee m.messageBody,
          some (answer platform m (requestHandler.call (users.request log) m.messageBody)).payload, none⟩
      | none => ⟨none, none, some (wire .REQUESTERROR (wireReference m.payload) (ascii "No request handler set")),
          none⟩ := by
  rw [react, onMessage_request m ht]
  cases c.requestHandler with
  | none =>
    dsimp only
    rw [Message.build_payload]
  | some requestHandler => rfl

/-- A message of another type calls no function of the user. -/
theorem react_other (m : Message) (hi : typeOf m.payload ≠ some .INFO) (hr : typeOf m.payload ≠ some .REQUEST) :
    (c.react platform users log m.payload).2 = ⟨none, none, none, none⟩ := by
  have hcall : c.infoCall m.payload = none := if_neg fun h => hi h.2
  by_cases hp : typeOf m.payload = some .RESPONSE
  · rw [react, onMessage_response m hp]
    cases c.responseHandlers.pop (wireReference m.payload) with
    | none => dsimp only; rw [hcall]
    | some r => dsimp only; rw [hcall]
  · rw [react, onMessage_other m hi hr hp]
    dsimp only
    rw [hcall]

theorem react_short {msg : Bytes} (h : msg.length < 5) :
    (c.react platform users log msg).2 = ⟨none, none, none, some (runtimeError
      "Received a websocket message that is too small to be a Communique message")⟩ := by
  have hcall : c.infoCall msg = none := if_neg fun hlong => by omega
  rw [react, onMessage_short h]
  dsimp only
  rw [hcall]

end Connection

namespace Meant
variable {meant : Meant I₁ I₂ R₁ R₂}

theorem entry_info (m : Message) (ht : typeOf m.payload = some .INFO) :
    meant.entry platform users m.payload = match meant.info with
      | some f => ⟨some (f.callee m.messageBody), none, none,
          match users.info meant.log (f.callee m.messageBody) with
          | .error e => some e
          | .ok () => none⟩
      | none => ⟨none, none, none, none⟩ := by
  have hm : m.type = some .INFO := ht
  rw [entry, Message.receive_payload]
  simp only [hm, if_true]

theorem entry_request (m : Message) (ht : typeOf m.payload = some .REQUEST) :
    meant.entry platform users m.payload = match meant.request with
      | some f => ⟨none, some (f.callee m.messageBody), some (Connection.answer platform m
          (users.request meant.log (f.callee m.messageBody))).payload, none⟩
      | none => ⟨none, none, some (wire .REQUESTERROR (wireReference m.payload) (ascii "No request handler set")),
          none⟩ := by
  have hm : m.type = some .REQUEST := ht
  rw [entry, Message.receive_payload]
  simp only [hm, Option.some.injEq, reduceCtorEq, if_false, if_true]

theorem entry_other (m : Message) (hi : typeOf m.payload ≠ some .INFO)
    (hr : typeOf m.payload ≠ some .REQUEST) : meant.entry platform users m.payload = ⟨none, none, none, none⟩ := by
  rw [entry, Message.receive_payload]
  simp only [Message.type, hi, hr, if_false]

theorem entry_short {msg : Bytes} (h : msg.length < 5) :
    meant.entry platform users msg = ⟨none, none, none, some (runtimeError
      "Received a websocket message that is too small to be a Communique message")⟩ := by
  rw [entry, Message.receive, dif_pos h]

end Meant

/-- The message would reach an empty function that a setter has wrapped. -/
def ReachesWrapped (infoHandler : Overload I₁ I₂) (requestHandler : Overload R₁ R₂) (msg : Bytes) : Prop :=
  5 ≤ msg.length ∧ (typeOf msg = some .INFO ∧ infoHandler = .one none ∨
    typeOf msg = some .REQUEST ∧ requestHandler = .one none)

/-- The answer of a request whose handler is a wrapped empty function. -/
theorem answer_badFunctionCall (platform : Platform) (m : Message) :
    (Connection.answer platform m (.error badFunctionCall)).payload ≠
      wire .REQUESTERROR (wireReference m.payload) (ascii "No request handler set") := by
  rw [badFunctionCall, Connection.answer, Message.userReference_eq, Message.build_payload]
  intro h
  have hbody := congrArg (List.drop 5) h
  rw [drop_wire, drop_wire] at hbody
  exact absurd hbody (by decide)

/-- A connection that holds what was stored does with an info message what is meant, unless it has wrapped an empty
function. -/
theorem entry_info_iff (platform : Platform) (users : Users I₁ I₂ R₁ R₂) {infoHandler : Overload I₁ I₂}
    {meant : Meant I₁ I₂ R₁ R₂} (hi : c.infoHandler = infoHandler.stored) (hi' : meant.info = infoHandler.meant)
    (m : Message) (ht : typeOf m.payload = some .INFO) :
    (c.react platform users meant.log m.payload).2 = meant.entry platform users m.payload ↔
      infoHandler ≠ .one none := by
  rw [Connection.react_info m ht, Meant.entry_info m ht, hi, hi']
  cases hmeant : infoHandler.meant with
  | some f =>
    obtain ⟨target, htarget, hcallee⟩ := Overload.stored_of_meant hmeant
    rw [htarget]
    dsimp only
    rw [hcallee, Target.call_of_callee _ (hcallee m.messageBody)]
    apply iff_of_true rfl
    rintro rfl
    cases hmeant
  | none =>
    obtain rfl | rfl := Overload.stored_of_not_meant hmeant
    · refine iff_of_false (fun h => ?_) (fun h => h rfl)
      have hthrown : some badFunctionCall = none := congrArg Entry.thrown h
      cases hthrown
    · exact iff_of_true rfl (by simp)

theorem entry_request_iff (platform : Platform) (users : Users I₁ I₂ R₁ R₂) {requestHandler : Overload R₁ R₂}
    {meant : Meant I₁ I₂ R₁ R₂} (hr : c.requestHandler = requestHandler.stored)
    (hr' : meant.request = requestHandler.meant) (m : Message) (ht : typeOf m.payload = some .REQUEST) :
    (c.react platform users meant.log m.payload).2 = meant.entry platform users m.payload ↔
      requestHandler ≠ .one none := by
  rw [Connection.react_request m ht, Meant.entry_request m ht, hr, hr']
  cases hmeant : requestHandler.meant with
  | some f =>
    obtain ⟨target, htarget, hcallee⟩ := Overload.stored_of_meant hmeant
    rw [htarget]
    dsimp only
    rw [hcallee, Target.call_of_callee _ (hcallee m.messageBody)]
    apply iff_of_true rfl
    rintro rfl
    cases hmeant
  | none =>
    obtain rfl | rfl := Overload.stored_of_not_meant hmeant
    · refine iff_of_false (fun h => ?_) (fun h => h rfl)
      exact answer_badFunctionCall platform m (Option.some.inj (congrArg Entry.frame h))
    · exact iff_of_true rfl (by simp)

/-- Any message is dealt with as is meant, unless it reaches a wrapped empty function. -/
theorem entry_eq_iff (platform : Platform) (users : Users I₁ I₂ R₁ R₂) {infoHandler : Overload I₁ I₂}
    {requestHandler : Overload R₁ R₂} {meant : Meant I₁ I₂ R₁ R₂} (hi : c.infoHandler = infoHandler.stored)
    (hr : c.requestHandler = requestHandler.stored) (hi' : meant.info = infoHandler.meant)
    (hr' : meant.request = requestHandler.meant) (msg : Bytes) :
    (c.react platform users meant.log msg).2 = meant.entry platform users msg ↔
      ¬ ReachesWrapped infoHandler requestHandler msg := by
  by_cases hlen : msg.length < 5
  · rw [Connection.react_short hlen, Meant.entry_short hlen]
    exact iff_of_true rfl fun h => Nat.not_le_of_lt hlen h.1
  obtain ⟨m, rfl⟩ : ∃ m : Message, m.payload = msg := ⟨⟨msg, by omega⟩, rfl⟩
  by_cases hinfo : typeOf m.payload = some .INFO
  · rw [entry_info_iff platform users hi hi' m hinfo]
    simp [ReachesWrapped, m.size_ge, hinfo]
  by_cases hrequest : typeOf m.payload = some .REQUEST
  · rw [entry_request_iff platform users hr hr' m hrequest]
    simp [ReachesWrapped, m.size_ge, hrequest]
  · rw [Connection.react_other m hinfo hrequest, Meant.entry_other m hinfo hrequest]
    exact iff_of_true rfl (by simp [ReachesWrapped, hinfo, hrequest])

end Message

end Communique
