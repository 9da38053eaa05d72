import Communique.SendRequest

/-!
# A connection whose peer sends anything

One connection, its user calling `sendRequest`, and any payloads coming in. The response handler of a
call is named by the number of the call.

* `Session.step`, `Session.after` : one input and a sequence of inputs; the log records the handlers that
  `sendRequest` stored, the requests that the transport accepted, and the invocations of response handlers;
* `Session.sendRequest_cases`, `Session.receive_answers`, `Session.receive_ignored` : what one input can do;
* `Session.Good` : the invariant, `Session.good_after` keeps it over every sequence;
* `Session.Delivers` : no call stores a handler without its request getting onto the wire;
* `Session.exists_answers` : the peer can have every stored handler invoked;
* **`hostile_peer_iff`** : what a peer can do with the table of response handlers, and exactly when it can
  have more handlers invoked than requests were sent.
-/

namespace Communique
open Storage Listing

variable {I R : Type}

inductive Record
  | stored (call : Nat) (token : UserReference)
  | accepted (call : Nat) (frame : Bytes)
  | invoked (call : Nat) (payload messageBody : Bytes)
  deriving DecidableEq

/-- A connection, the number of `sendRequest` calls so far, and what happened. -/
structure Session (I R : Type) where
  connection : Connection I R Nat
  calls : Nat
  log : List Record

/-- `sendRequest`, with what the transport does then; or a payload from the peer, with what the info handlers
do on it. -/
inductive Input (I : Type)
  | sendRequest (transport : Transport) (message : Bytes)
  | receive (payload : Bytes) (callInfo : I → Bytes → Except Exn Unit)

namespace Session

/-- The session before any input. -/
def start (infoHandler : Option I) (requestHandler : Option R) : Session I R where
  connection := Connection.new infoHandler requestHandler
  calls := 0
  log := []

/-- The record of the handler that the next call stores, if it finds a token. -/
def storing (s : Session I R) : List Record :=
  match s.connection.responseHandlers.push s.calls with
  | .ok (token, _) => [.stored s.calls token]
  | .error _ => []

/-- The record of a frame for which `send` returns no error. -/
def accepting (transport : Transport) (call : Nat) (frame : Option Bytes) : List Record :=
  match frame with
  | none => []
  | some frame =>
    match transport.send frame with
    | .ok 0 => [.accepted call frame]
    | _ => []

def sendRequest (platform : Platform) (s : Session I R) (transport : Transport) (message : Bytes) :
    Session I R :=
  let sent := s.connection.sendRequest platform.byteOrder transport message s.calls
  { connection := sent.connection
    calls := s.calls + 1
    log := s.log ++ s.storing ++ accepting transport s.calls sent.frame }

def receive (platform : Platform) (s : Session I R) (payload : Bytes)
    (callInfo : I → Bytes → Except Exn Unit) : Session I R :=
  let r := s.connection.onMessage platform callInfo payload
  { s with
    connection := r.1
    log := match r.2 with
      | .ok (.responseTask call messageBody) => s.log ++ [.invoked call payload messageBody]
      | _ => s.log }

def step (platform : Platform) (s : Session I R) : Input I → Session I R
  | .sendRequest transport message => s.sendRequest platform transport message
  | .receive payload callInfo => s.receive platform payload callInfo

def after (platform : Platform) (s : Session I R) (inputs : List (Input I)) : Session I R :=
  inputs.foldl (step platform) s

/-! ## What one input can do -/

theorem accepting_none (transport : Transport) (call : Nat) : accepting transport call none = [] := rfl

theorem accepting_some {transport : Transport} {frame : Bytes} (h : transport.send frame = .ok 0) (call : Nat) :
    accepting transport call (some frame) = [.accepted call frame] := by
  simp only [accepting, h]

theorem accepting_refused {transport : Transport} {frame : Bytes} (h : transport.send frame ≠ .ok 0) (call : Nat) :
    accepting transport call (some frame) = [] := by
  unfold accepting
  dsimp only
  split
  · rename_i hsend
    exact absurd hsend h
  · rfl

/-- The frame of a request is accepted exactly if the request is. -/
theorem accepting_sendRequest {c : Connection I R Nat} {call : Nat} {token : UserReference}
    {responseHandlers : UniqueTokenStorage 32 Nat} {transport : Transport}
    (hpush : c.responseHandlers.push call = .ok (token, responseHandlers)) (platform : Platform) (message : Bytes) :
    let accepted := accepting transport call (c.sendRequest platform.byteOrder transport message call).frame
    accepted = [.accepted call (wire .REQUEST token message)] ∧ c.Accepted transport message call ∨
      accepted = [] ∧ ¬ c.Accepted transport message call := by
  have hframe : (c.sendRequest platform.byteOrder transport message call).frame =
      (transport.getMessage (message.length + 4 + 1)).toOption.map fun _ => wire .REQUEST token message :=
    Connection.frame_of_push hpush
  unfold Connection.Accepted
  simp only [hpush]
  cases hmessage : transport.getMessage (message.length + 4 + 1) with
  | error e =>
    refine Or.inr ⟨?_, by simp⟩
    rw [hframe, hmessage]
    rfl
  | ok payload =>
    rw [hframe, hmessage]
    by_cases hsend : transport.send (wire .REQUEST token message) = .ok 0
    · exact Or.inl ⟨accepting_some hsend call, ⟨payload, rfl⟩, token, responseHandlers, rfl, hsend⟩
    · refine Or.inr ⟨accepting_refused hsend call, ?_⟩
      rintro ⟨-, t, r, heq, hok⟩
      obtain ⟨rfl, rfl⟩ := Prod.mk.inj (Except.ok.inj heq)
      exact hsend hok

/-- A call stores its handler if it finds a token, and its request is accepted or not. -/
theorem sendRequest_cases (platform : Platform) (s : Session I R) (transport : Transport) (message : Bytes) :
    (s.connection.responseHandlers.container.length = 2 ^ 32 ∧
      s.sendRequest platform transport message = { s with calls := s.calls + 1 }) ∨
    ∃ token responseHandlers accepted, s.connection.responseHandlers.container.length ≠ 2 ^ 32 ∧
      s.connection.responseHandlers.push s.calls = .ok (token, responseHandlers) ∧
      s.sendRequest platform transport message =
        { connection := { s.connection with responseHandlers := responseHandlers }
          calls := s.calls + 1
          log := s.log ++ [.stored s.calls token] ++ accepted } ∧
      (accepted = [.accepted s.calls (wire .REQUEST token message)] ∧
          s.connection.Accepted transport message s.calls ∨
        accepted = [] ∧ ¬ s.connection.Accepted transport message s.calls) := by
  cases hpush : s.connection.responseHandlers.push s.calls with
  | error e =>
    refine Or.inl ⟨(Connection.push_error_iff s.calls).mp ⟨e, hpush⟩, ?_⟩
    rw [sendRequest, Connection.sendRequest_full hpush]
    simp [storing, hpush, accepting_none]
  | ok r =>
    obtain ⟨token, responseHandlers⟩ := r
    have hfree : s.connection.responseHandlers.container.length ≠ 2 ^ 32 := by
      intro hfull
      obtain ⟨e, he⟩ := (Connection.push_error_iff s.calls).mpr hfull
      rw [hpush] at he
      cases he
    refine Or.inr ⟨token, responseHandlers, accepting transport s.calls
      (s.connection.sendRequest platform.byteOrder transport message s.calls).frame, hfree, rfl, ?_, ?_⟩
    · rw [sendRequest, Connection.sendRequest_push hpush]
      simp [storing, hpush]
    · exact accepting_sendRequest hpush platform message

/-- The payload answers a stored handler: it has a header, its type is RESPONSE, and its user reference is
the token of an entry of the table. -/
def Answers (s : Session I R) (payload : Bytes) : Prop :=
  5 ≤ payload.length ∧ payload.getD 0 0 = 1 ∧
    wireReference payload ∈ keys s.connection.responseHandlers.container

/-- The handler that `payload` answers is invoked on its body and taken out of the table. -/
theorem receive_answers (platform : Platform) (s : Session I R) (payload : Bytes)
    (callInfo : I → Bytes → Except Exn Unit) (h : Answers s payload) :
    ∃ call responseHandlers,
      s.connection.responseHandlers.pop (wireReference payload) = some (call, responseHandlers) ∧
      s.receive platform payload callInfo =
        { s with
          connection := { s.connection with responseHandlers := responseHandlers }
          log := s.log ++ [.invoked call payload (payload.drop 5)] } := by
  obtain ⟨hlen, hone, htok⟩ := h
  obtain ⟨m, rfl⟩ : ∃ m : Message, m.payload = payload := ⟨⟨payload, hlen⟩, rfl⟩
  have hp : Connection.typeOf m.payload = some .RESPONSE := MessageType.ofChar_eq_some.mpr hone
  cases hpop : s.connection.responseHandlers.pop (wireReference m.payload) with
  | none => exact absurd htok (UniqueTokenStorage.pop_eq_none.mp hpop)
  | some r =>
    refine ⟨r.1, r.2, rfl, ?_⟩
    rw [receive, Connection.onMessage_response m hp, hpop]
    rfl

/-- Every other payload changes neither the table nor the log. -/
theorem receive_ignored (platform : Platform) (s : Session I R) (payload : Bytes)
    (callInfo : I → Bytes → Except Exn Unit) (h : ¬ Answers s payload) :
    s.receive platform payload callInfo = s := by
  by_cases hlen : payload.length < 5
  · rw [receive, Connection.onMessage_short hlen]
  · obtain ⟨m, rfl⟩ : ∃ m : Message, m.payload = payload := ⟨⟨payload, by omega⟩, rfl⟩
    rw [receive]
    by_cases hi : Connection.typeOf m.payload = some .INFO
    · rw [Connection.onMessage_info m hi]
      cases s.connection.infoHandler with
      | none => rfl
      | some infoHandler =>
        dsimp only
        cases callInfo infoHandler m.messageBody <;> rfl
    · by_cases hr : Connection.typeOf m.payload = some .REQUEST
      · rw [Connection.onMessage_request m hr]
        cases s.connection.requestHandler <;> rfl
      · by_cases hp : Connection.typeOf m.payload = some .RESPONSE
        · have hnone : s.connection.responseHandlers.pop (wireReference m.payload) = none := by
            apply UniqueTokenStorage.pop_eq_none.mpr
            intro htok
            exact h ⟨m.size_ge, MessageType.ofChar_eq_some.mp hp, htok⟩
          rw [Connection.onMessage_response m hp, hnone]
        · rw [Connection.onMessage_other m hi hr hp]

/-! ## The invariant -/

/-- The calls that stored their handler. -/
def storedCalls (log : List Record) : List Nat :=
  log.filterMap fun
    | .stored call _ => some call
    | _ => none

/-- The calls whose request the transport accepted. -/
def acceptedCalls (log : List Record) : List Nat :=
  log.filterMap fun
    | .accepted call _ => some call
    | _ => none

/-- The calls whose response handler was invoked, once for each invocation. -/
def invokedCalls (log : List Record) : List Nat :=
  log.filterMap fun
    | .invoked call _ _ => some call
    | _ => none

section Calls
variable (log log' : List Record) (call : Nat) (token : UserReference) (frame payload messageBody : Bytes)

@[simp] theorem storedCalls_append : storedCalls (log ++ log') = storedCalls log ++ storedCalls log' :=
  List.filterMap_append

@[simp] theorem acceptedCalls_append : acceptedCalls (log ++ log') = acceptedCalls log ++ acceptedCalls log' :=
  List.filterMap_append

@[simp] theorem invokedCalls_append : invokedCalls (log ++ log') = invokedCalls log ++ invokedCalls log' :=
  List.filterMap_append

@[simp] theorem storedCalls_nil : storedCalls [] = [] := rfl
@[simp] theorem acceptedCalls_nil : acceptedCalls [] = [] := rfl
@[simp] theorem invokedCalls_nil : invokedCalls [] = [] := rfl

@[simp] theorem storedCalls_stored : storedCalls (.stored call token :: log) = call :: storedCalls log := rfl
@[simp] theorem storedCalls_accepted : storedCalls (.accepted call frame :: log) = storedCalls log := rfl
@[simp] theorem storedCalls_invoked : storedCalls (.invoked call payload messageBody :: log) = storedCalls log := rfl
@[simp] theorem acceptedCalls_stored : acceptedCalls (.stored call token :: log) = acceptedCalls log := rfl
@[simp] theorem acceptedCalls_accepted :
    acceptedCalls (.accepted call frame :: log) = call :: acceptedCalls log := rfl
@[simp] theorem acceptedCalls_invoked :
    acceptedCalls (.invoked call payload messageBody :: log) = acceptedCalls log := rfl
@[simp] theorem invokedCalls_stored : invokedCalls (.stored call token :: log) = invokedCalls log := rfl
@[simp] theorem invokedCalls_accepted : invokedCalls (.accepted call frame :: log) = invokedCalls log := rfl
@[simp] theorem invokedCalls_invoked :
    invokedCalls (.invoked call payload messageBody :: log) = call :: invokedCalls log := rfl

end Calls

structure Good (s : Session I R) : Prop where
  /-- Every handler that was stored is in the table or has been invoked. -/
  perm : (s.connection.responseHandlers.container.map Prod.snd ++ invokedCalls s.log).Perm
    (storedCalls s.log)
  nodup : (storedCalls s.log).Nodup
  below : ∀ call ∈ storedCalls s.log, call < s.calls
  token : ∀ token call, (token, call) ∈ s.connection.responseHandlers.container → .stored call token ∈ s.log
  accepted : ∀ call frame, .accepted call frame ∈ s.log → .stored call (wireReference frame) ∈ s.log
  invoked : ∀ call payload messageBody, .invoked call payload messageBody ∈ s.log →
    5 ≤ payload.length ∧ payload.getD 0 0 = 1 ∧ messageBody = payload.drop 5 ∧
      .stored call (wireReference payload) ∈ s.log

theorem good_start (infoHandler : Option I) (requestHandler : Option R) :
    Good (start infoHandler requestHandler) where
  perm := List.Perm.nil
  nodup := List.nodup_nil
  below := by simp [start]
  token := by simp [start, Connection.new, UniqueTokenStorage.empty]
  accepted := by simp [start]
  invoked := by simp [start]

/-- A handler that is stored, with the acceptance of its request or without. -/
theorem Good.store {s : Session I R} (h : Good s) {token : UserReference}
    {responseHandlers : UniqueTokenStorage 32 Nat} {accepted : List Record} {message : Bytes}
    (hpush : s.connection.responseHandlers.push s.calls = .ok (token, responseHandlers))
    (haccepted : accepted = [.accepted s.calls (wire .REQUEST token message)] ∨ accepted = []) :
    Good { connection := { s.connection with responseHandlers := responseHandlers }
           calls := s.calls + 1
           log := s.log ++ [.stored s.calls token] ++ accepted } := by
  have hperm := push_perm s.connection.responseHandlers.ascending
    (UniqueTokenStorage.push_container hpush)
  have hstored : storedCalls (s.log ++ [.stored s.calls token] ++ accepted) =
      storedCalls s.log ++ [s.calls] := by
    rcases haccepted with rfl | rfl <;> simp
  have hinvoked : invokedCalls (s.log ++ [.stored s.calls token] ++ accepted) = invokedCalls s.log := by
    rcases haccepted with rfl | rfl <;> simp
  have hmem : ∀ record, record ∈ s.log → record ∈ s.log ++ [.stored s.calls token] ++ accepted :=
    fun record hr => List.mem_append_left _ (List.mem_append_left _ hr)
  have hnew : Record.stored s.calls token ∈ s.log ++ [.stored s.calls token] ++ accepted :=
    List.mem_append_left _ (List.mem_append_right _ List.mem_cons_self)
  have hfresh : s.calls ∉ storedCalls s.log := fun hmem => Nat.lt_irrefl _ (h.below _ hmem)
  constructor
  · rw [hstored, hinvoked]
    refine ((hperm.map Prod.snd).append_right _).trans ?_
    exact (h.perm.cons s.calls).trans (List.perm_append_singleton _ _).symm
  · rw [hstored]
    exact List.nodup_append.mpr ⟨h.nodup, List.nodup_singleton _, by
      intro a ha b hb hab
      rw [List.mem_singleton.mp hb] at hab
      exact hfresh (hab ▸ ha)⟩
  · intro call hc
    rw [hstored, List.mem_append, List.mem_singleton] at hc
    rcases hc with hc | rfl
    · exact Nat.lt_succ_of_lt (h.below call hc)
    · exact Nat.lt_succ_self _
  · intro t call ht
    rcases List.mem_cons.mp (hperm.mem_iff.mp ht) with heq | ht
    · obtain ⟨rfl, rfl⟩ := Prod.mk.inj heq
      exact hnew
    · exact hmem _ (h.token t call ht)
  · intro call frame hf
    rcases haccepted with rfl | rfl
    · simp only [List.mem_append, List.mem_singleton, reduceCtorEq, or_false, Record.accepted.injEq] at hf
      rcases hf with hf | ⟨rfl, rfl⟩
      · exact hmem _ (h.accepted call frame hf)
      · rw [wireReference_wire]
        exact hnew
    · exact hmem _ (h.accepted call frame (by simpa using hf))
  · intro call payload messageBody hi
    obtain ⟨hlen, hone, hbody, hs⟩ := h.invoked call payload messageBody (by
      rcases haccepted with rfl | rfl <;> simpa using hi)
    exact ⟨hlen, hone, hbody, hmem _ hs⟩

theorem good_sendRequest (platform : Platform) {s : Session I R} (h : Good s) (transport : Transport)
    (message : Bytes) : Good (s.sendRequest platform transport message) := by
  rcases sendRequest_cases platform s transport message with
    ⟨-, heq⟩ | ⟨token, responseHandlers, accepted, -, hpush, heq, haccepted⟩
  · rw [heq]
    exact ⟨h.perm, h.nodup, fun call hc => Nat.lt_succ_of_lt (h.below call hc), h.token, h.accepted, h.invoked⟩
  · rw [heq]
    exact h.store hpush (haccepted.imp And.left And.left)

theorem good_receive (platform : Platform) {s : Session I R} (h : Good s) (payload : Bytes)
    (callInfo : I → Bytes → Except Exn Unit) : Good (s.receive platform payload callInfo) := by
  by_cases ha : Answers s payload
  · obtain ⟨call, responseHandlers, hp, heq⟩ := receive_answers platform s payload callInfo ha
    rw [heq]
    obtain ⟨hperm, -⟩ := popInto_some (UniqueTokenStorage.pop_container hp)
    constructor
    · rw [storedCalls_append, invokedCalls_append, storedCalls_invoked, invokedCalls_invoked, storedCalls_nil,
        invokedCalls_nil, List.append_nil]
      refine List.Perm.trans ?_ (((hperm.map Prod.snd).append_right _).symm.trans h.perm)
      rw [← List.append_assoc]
      exact List.perm_append_singleton _ _
    · simpa using h.nodup
    · simpa using h.below
    · intro t n hmem
      exact List.mem_append_left _ (h.token t n (hperm.mem_iff.mpr (List.mem_cons_of_mem _ hmem)))
    · intro n frame hmem
      exact List.mem_append_left _ (h.accepted n frame (by simpa using hmem))
    · intro n p body hmem
      rcases List.mem_append.mp hmem with hmem | hmem
      · obtain ⟨hlen, hone, hbody, hs⟩ := h.invoked n p body hmem
        exact ⟨hlen, hone, hbody, List.mem_append_left _ hs⟩
      · rw [List.mem_singleton, Record.invoked.injEq] at hmem
        obtain ⟨rfl, rfl, rfl⟩ := hmem
        exact ⟨ha.1, ha.2.1, rfl,
          List.mem_append_left _ (h.token _ _ (hperm.mem_iff.mpr List.mem_cons_self))⟩
  · rw [receive_ignored platform s payload callInfo ha]
    exact h

theorem good_after (platform : Platform) {s : Session I R} (h : Good s) (inputs : List (Input I)) :
    Good (s.after platform inputs) := by
  induction inputs generalizing s with
  | nil => exact h
  | cons input inputs ih =>
    apply ih
    cases input with
    | sendRequest transport message => exact good_sendRequest platform h transport message
    | receive payload callInfo => exact good_receive platform h payload callInfo

/-! ## Handlers without a request -/

/-- A call of `sendRequest` that leaves no handler behind without its request: every token is in use, or the
transport accepts the frame with the next free one. -/
def Delivered (s : Session I R) : Input I → Prop
  | .sendRequest transport message => s.connection.responseHandlers.container.length = 2 ^ 32 ∨
      s.connection.Accepted transport message s.calls
  | .receive _ _ => True

/-- Every call of the sequence is such a call, in the state in which it is made. -/
def Delivers (platform : Platform) (s : Session I R) : List (Input I) → Prop
  | [] => True
  | input :: inputs => s.Delivered input ∧ Delivers platform (s.step platform input) inputs

theorem receive_calls (platform : Platform) (s : Session I R) (payload : Bytes)
    (callInfo : I → Bytes → Except Exn Unit) :
    storedCalls (s.receive platform payload callInfo).log = storedCalls s.log ∧
      acceptedCalls (s.receive platform payload callInfo).log = acceptedCalls s.log := by
  by_cases ha : Answers s payload
  · obtain ⟨call, responseHandlers, -, heq⟩ := receive_answers platform s payload callInfo ha
    rw [heq]
    simp
  · rw [receive_ignored platform s payload callInfo ha]
    exact ⟨rfl, rfl⟩

/-- One input: the stored handlers are as many more than the accepted requests as they were, unless a call
leaves its handler behind. -/
theorem step_calls (platform : Platform) (s : Session I R) (input : Input I) :
    let s' := s.step platform input
    (s.Delivered input ∧ (storedCalls s'.log).length + (acceptedCalls s.log).length =
        (storedCalls s.log).length + (acceptedCalls s'.log).length) ∨
      ¬ s.Delivered input ∧ (storedCalls s'.log).length + (acceptedCalls s.log).length =
        (storedCalls s.log).length + (acceptedCalls s'.log).length + 1 := by
  cases input with
  | receive payload callInfo =>
    obtain ⟨hs, ha⟩ := receive_calls platform s payload callInfo
    refine Or.inl ⟨trivial, ?_⟩
    show (storedCalls (s.receive platform payload callInfo).log).length + _ =
      _ + (acceptedCalls (s.receive platform payload callInfo).log).length
    rw [hs, ha]
  | sendRequest transport message =>
    show (_ ∧ (storedCalls (s.sendRequest platform transport message).log).length + _ =
        _ + (acceptedCalls (s.sendRequest platform transport message).log).length) ∨
      ¬ _ ∧ (storedCalls (s.sendRequest platform transport message).log).length + _ =
        _ + (acceptedCalls (s.sendRequest platform transport message).log).length + 1
    rcases sendRequest_cases platform s transport message with
      ⟨hfull, heq⟩ | ⟨token, responseHandlers, accepted, hfree, hpush, heq, ⟨rfl, haccepted⟩ | ⟨rfl, hrefused⟩⟩
    · rw [heq]
      exact Or.inl ⟨Or.inl hfull, rfl⟩
    · refine Or.inl ⟨Or.inr haccepted, ?_⟩
      rw [heq]
      simp
      omega
    · refine Or.inr ⟨fun hdelivered => hdelivered.elim hfree hrefused, ?_⟩
      rw [heq]
      simp
      omega

/-- A sequence of inputs: as many handlers are stored as requests are accepted exactly if it was so before and
every call is delivered. -/
theorem after_calls (platform : Platform) {s : Session I R}
    (h : (acceptedCalls s.log).length ≤ (storedCalls s.log).length) (inputs : List (Input I)) :
    let t := s.after platform inputs
    (acceptedCalls t.log).length ≤ (storedCalls t.log).length ∧
      ((storedCalls t.log).length ≤ (acceptedCalls t.log).length ↔
        (storedCalls s.log).length ≤ (acceptedCalls s.log).length ∧ Delivers platform s inputs) := by
  induction inputs generalizing s with
  | nil => exact ⟨h, iff_of_eq (and_true _).symm⟩
  | cons input inputs ih =>
    show let t := (s.step platform input).after platform inputs; _
    intro t
    rcases step_calls platform s input with ⟨hdelivered, hcount⟩ | ⟨hkept, hcount⟩
    · obtain ⟨hle, hiff⟩ := ih (s := s.step platform input) (by omega)
      refine ⟨hle, hiff.trans ?_⟩
      rw [Delivers, and_iff_right hdelivered]
      exact and_congr_left fun _ => by omega
    · obtain ⟨hle, hiff⟩ := ih (s := s.step platform input) (by omega)
      refine ⟨hle, hiff.trans (iff_of_false ?_ fun hd => hkept hd.2.1)⟩
      rintro ⟨heq, -⟩
      omega

theorem received_calls (platform : Platform) (s : Session I R)
    (received : List (Bytes × (I → Bytes → Except Exn Unit))) :
    let t := s.after platform (received.map fun r => .receive r.1 r.2)
    storedCalls t.log = storedCalls s.log ∧ acceptedCalls t.log = acceptedCalls s.log := by
  induction received generalizing s with
  | nil => exact ⟨rfl, rfl⟩
  | cons r received ih =>
    obtain ⟨hstored, haccepted⟩ := receive_calls platform s r.1 r.2
    obtain ⟨hstored', haccepted'⟩ := ih (s.receive platform r.1 r.2)
    exact ⟨hstored'.trans hstored, haccepted'.trans haccepted⟩

/-- The peer can answer all that is in the table, whether a request came with it or not. -/
theorem exists_answers (platform : Platform) (callInfo : I → Bytes → Except Exn Unit) {s : Session I R}
    (h : Good s) :
    ∃ payloads : List Bytes, let t := s.after platform (payloads.map fun payload => .receive payload callInfo)
      (invokedCalls t.log).length = (storedCalls s.log).length ∧ acceptedCalls t.log = acceptedCalls s.log := by
  induction hn : s.connection.responseHandlers.container.length generalizing s with
  | zero =>
    refine ⟨[], ?_, rfl⟩
    have hlen := h.perm.length_eq
    rw [List.length_append, List.length_map, hn, Nat.zero_add] at hlen
    exact hlen
  | succ n ih =>
    obtain ⟨⟨token, call⟩, rest, hcontainer⟩ := List.exists_cons_of_length_eq_add_one hn
    -- the first entry is answered by an empty response with its token
    have ha : Answers s (wire .RESPONSE token []) := by
      refine ⟨by simp [wire], rfl, ?_⟩
      rw [wireReference_wire, hcontainer]
      exact List.mem_cons_self
    obtain ⟨call', responseHandlers, hpop, heq⟩ := receive_answers platform s _ callInfo ha
    have hlen : responseHandlers.container.length = n := by
      have := (popInto_some (UniqueTokenStorage.pop_container hpop)).1.length_eq
      rw [hn, List.length_cons] at this
      omega
    obtain ⟨hstored, haccepted⟩ := receive_calls platform s (wire .RESPONSE token []) callInfo
    obtain ⟨payloads, hinvoked, hsame⟩ := ih (good_receive platform h (wire .RESPONSE token []) callInfo)
      (by rw [heq]; exact hlen)
    refine ⟨wire .RESPONSE token [] :: payloads, ?_, ?_⟩
    · rw [← hstored]
      exact hinvoked
    · rw [← haccepted]
      exact hsame

end Session

open Session in
/-- **What a peer that sends anything can do with the table of response handlers.** After any calls and any
payloads: every handler was invoked at most once, on the bytes from index 5 of a RESPONSE with the token under
which it was stored; the next payload either answers a stored handler, which alone leaves the table, or changes
nothing; and not more handlers were invoked than stored. However the peer goes on, it has at most as many
invoked as requests were sent exactly if no call left a handler behind whose request the transport did not
take. -/
theorem hostile_peer_iff (platform : Platform) (infoHandler : Option I) (requestHandler : Option R)
    (inputs : List (Input I)) :
    let s := (start infoHandler requestHandler).after platform inputs
    (∀ call, (invokedCalls s.log).count call ≤ 1) ∧
      (∀ call payload messageBody, .invoked call payload messageBody ∈ s.log →
        5 ≤ payload.length ∧ payload.getD 0 0 = 1 ∧ messageBody = payload.drop 5 ∧
          .stored call (wireReference payload) ∈ s.log) ∧
      (∀ token call, (token, call) ∈ s.connection.responseHandlers.container → .stored call token ∈ s.log) ∧
      (∀ call frame, .accepted call frame ∈ s.log → .stored call (wireReference frame) ∈ s.log) ∧
      (∀ payload callInfo, let s' := s.receive platform payload callInfo
        (5 ≤ payload.length ∧ payload.getD 0 0 = 1 ∧
          ∃ call, (wireReference payload, call) ∈ s.connection.responseHandlers.container ∧
            s'.log = s.log ++ [.invoked call payload (payload.drop 5)] ∧
            ∀ p, p ∈ s'.connection.responseHandlers.container ↔
              p ∈ s.connection.responseHandlers.container ∧ p.1 ≠ wireReference payload) ∨
        (¬ (5 ≤ payload.length ∧ payload.getD 0 0 = 1 ∧
            wireReference payload ∈ keys s.connection.responseHandlers.container) ∧
          s'.log = s.log ∧ s'.connection.responseHandlers = s.connection.responseHandlers)) ∧
      (invokedCalls s.log).length ≤ (storedCalls s.log).length ∧
      ((∀ received : List (Bytes × (I → Bytes → Except Exn Unit)),
          let t := s.after platform (received.map fun r => .receive r.1 r.2)
          (invokedCalls t.log).length ≤ (acceptedCalls t.log).length) ↔
        Delivers platform (start infoHandler requestHandler) inputs) := by
  intro s
  have h : Good s := good_after platform (good_start infoHandler requestHandler) inputs
  have hatMost : ∀ {t : Session I R}, Good t → (invokedCalls t.log).length ≤ (storedCalls t.log).length := by
    intro t ht
    have hlen := ht.perm.length_eq
    rw [List.length_append] at hlen
    omega
  refine ⟨fun call => ?_, h.invoked, h.token, h.accepted, fun payload callInfo => ?_, hatMost h, ?_⟩
  · have hcount := h.perm.count_eq call
    rw [List.count_append] at hcount
    have := List.nodup_iff_count_le_one.mp h.nodup call
    omega
  · by_cases ha : Answers s payload
    · obtain ⟨call, responseHandlers, hp, heq⟩ := receive_answers platform s payload callInfo ha
      obtain ⟨hperm, herase⟩ := popInto_some (UniqueTokenStorage.pop_container hp)
      refine Or.inl ⟨ha.1, ha.2.1, call, hperm.mem_iff.mpr List.mem_cons_self, by rw [heq], fun p => ?_⟩
      rw [heq]
      show p ∈ responseHandlers.container ↔ _
      rw [herase]
      exact s.connection.responseHandlers.ascending.mem_eraseKey
    · rw [receive_ignored platform s payload callInfo ha]
      exact Or.inr ⟨ha, rfl, rfl⟩
  · obtain ⟨-, hiff⟩ := after_calls platform (s := start infoHandler requestHandler) (Nat.le_refl 0) inputs
    have hstart : (storedCalls (start infoHandler requestHandler : Session I R).log).length ≤
        (acceptedCalls (start infoHandler requestHandler : Session I R).log).length := Nat.le_refl 0
    rw [and_iff_right hstart] at hiff
    rw [← hiff]
    constructor
    · intro hpeer
      obtain ⟨payloads, hinvoked, haccepted⟩ := exists_answers platform (fun _ _ => .ok ()) h
      have hbound := hpeer (payloads.map fun payload => (payload, fun _ _ => .ok ()))
      rw [List.map_map] at hbound
      rw [← hinvoked, ← haccepted]
      exact hbound
    · intro hle received t
      have hcalls : storedCalls t.log = storedCalls s.log ∧ acceptedCalls t.log = acceptedCalls s.log :=
        received_calls platform s received
      rw [hcalls.2]
      exact ((hatMost (good_after platform h _)).trans_eq (congrArg List.length hcalls.1)).trans hle

/-- `send` on a connection that is not open yet returns an error code; once it is open the peer answers what
it was never asked. -/
theorem hostile_peer_not_open :
    let transport : Transport := ⟨fun size => .ok (List.replicate size 0), fun _ => .ok 1⟩
    let s := (Session.start none none : Session Unit Unit).after ⟨.little, []⟩
      [.sendRequest transport [], .receive [1, 0, 0, 0, 0] fun _ _ => .ok ()]
    Session.invokedCalls s.log = [0] ∧
      ¬ (Session.invokedCalls s.log).length ≤ (Session.acceptedCalls s.log).length := by
  decide

end Communique
