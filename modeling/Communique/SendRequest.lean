import Communique.Connection
import Communique.Storage.Capacity

/-!
# `sendRequest` when the request does not leave

The handler is stored before the message is built and sent, and nothing takes it out again when one of the
two fails.

* `Sent.OnWire` : the transport took the frame; `Accepted` : it takes the frame of a request;
* `sendRequest_full`, `sendRequest_push` : the call with and without a free token;
* `length_sendAll`, `sendAll_full` : what any number of requests leaves in the table;
* `clientSendRequest` : `Client::sendRequest`, which needs a connection;
* **`sendRequest_atomic_iff`** : exactly when the table survives a failed call, and a series of them.
-/

namespace Communique
open Storage Endian Listing

variable {I R H : Type}

/-- The transport fails: it gives no message, or does not take one. -/
def Transport.Refuses (transport : Transport) : Prop :=
  (∀ size, ∃ e, transport.getMessage size = .error e) ∨ ∀ payload, transport.send payload ≠ .ok 0

namespace Connection

/-- The frame got onto the wire: `send` was called and returned no error. -/
def Sent.OnWire (transport : Transport) (s : Sent I R H) : Prop :=
  ∃ frame, s.frame = some frame ∧ transport.send frame = .ok 0

/-- The transport gives a message of the right size and takes the frame with the next free token. -/
def Accepted (transport : Transport) (c : Connection I R H) (message : Bytes) (responseHandler : H) : Prop :=
  (∃ payload, transport.getMessage (message.length + 4 + 1) = .ok payload) ∧
    ∃ token responseHandlers, c.responseHandlers.push responseHandler = .ok (token, responseHandlers) ∧
      transport.send (wire .REQUEST token message) = .ok 0

/-! ## One call -/

variable {byteOrder : Order} {transport : Transport} {c : Connection I R H} {message : Bytes} {responseHandler : H}

/-- Without a free token nothing happens. -/
theorem sendRequest_full {e : Exn} (h : c.responseHandlers.push responseHandler = .error e) :
    c.sendRequest byteOrder transport message responseHandler = ⟨c, none, .error e⟩ := by
  rw [sendRequest, h]

/-- With one, the handler is stored whatever the transport does. -/
theorem sendRequest_push {token : BitVec 32} {responseHandlers : UniqueTokenStorage 32 H}
    (h : c.responseHandlers.push responseHandler = .ok (token, responseHandlers)) :
    (c.sendRequest byteOrder transport message responseHandler).connection =
      { c with responseHandlers := responseHandlers } := by
  rw [sendRequest, h]
  dsimp only
  rw [transmit]
  split
  · rfl
  · dsimp only
    split <;> rfl

/-- The frame that is passed to `send` carries the token. -/
theorem frame_of_push {token : BitVec 32} {responseHandlers : UniqueTokenStorage 32 H}
    (h : c.responseHandlers.push responseHandler = .ok (token, responseHandlers)) :
    (c.sendRequest byteOrder transport message responseHandler).frame =
      (transport.getMessage (message.length + 4 + 1)).toOption.map fun _ => wire .REQUEST token message := by
  rw [sendRequest, h]
  dsimp only
  rw [transmit]
  cases transport.getMessage (message.length + 4 + 1) with
  | error e => rfl
  | ok payload =>
    simp only [Message.build_payload]
    split <;> rfl

/-- A request gets onto the wire if it is accepted. -/
theorem onWire_iff_accepted :
    (c.sendRequest byteOrder transport message responseHandler).OnWire transport ↔
      c.Accepted transport message responseHandler := by
  unfold Sent.OnWire Accepted
  cases hpush : c.responseHandlers.push responseHandler with
  | error e => simp [sendRequest_full hpush]
  | ok r =>
    obtain ⟨token, responseHandlers⟩ := r
    rw [frame_of_push hpush]
    cases hmessage : transport.getMessage (message.length + 4 + 1) with
    | error e => simp [Except.toOption]
    | ok payload => simp [Except.toOption]

theorem length_push {token : BitVec 32} {storage storage' : UniqueTokenStorage 32 H}
    (h : storage.push responseHandler = .ok (token, storage')) :
    storage'.container.length = storage.container.length + 1 := by
  rw [(push_perm storage.ascending (UniqueTokenStorage.push_container h)).length_eq, List.length_cons]

theorem push_error_iff {storage : UniqueTokenStorage 32 H} (responseHandler : H) :
    (∃ e, storage.push responseHandler = .error e) ↔ storage.container.length = 2 ^ 32 := by
  have hle : storage.container.length ≤ 2 ^ 32 := card_tokens 32 ▸ storage.ascending.length_le
  have hok := push_ok_iff storage.ascending responseHandler
  cases hpush : storage.push responseHandler with
  | error e =>
    have hfull : ¬ storage.container.length < 2 ^ 32 := by
      rw [← hok]
      rintro ⟨r, hr⟩
      rw [UniqueTokenStorage.push_error_container hpush] at hr
      cases hr
    exact iff_of_true ⟨e, rfl⟩ (by omega)
  | ok r =>
    have hfree : storage.container.length < 2 ^ 32 :=
      hok.mp ⟨(r.1, r.2.container), UniqueTokenStorage.push_container hpush⟩
    exact iff_of_false (by simp) (by omega)

/-- A call that stores its handler has changed the table. -/
theorem connection_eq_iff :
    (c.sendRequest byteOrder transport message responseHandler).connection = c ↔
      c.responseHandlers.container.length = 2 ^ 32 := by
  rw [← push_error_iff responseHandler]
  cases hpush : c.responseHandlers.push responseHandler with
  | error e => exact iff_of_true (by rw [sendRequest_full hpush]) ⟨e, rfl⟩
  | ok r =>
    rw [sendRequest_push hpush]
    refine iff_of_false ?_ (by simp)
    intro hsame
    have hlength := length_push hpush
    rw [← congrArg (fun c => c.responseHandlers.container.length) hsame] at hlength
    simp at hlength

/-! ## Any number of calls -/

/-- A series of calls, each with what the transport does then. -/
def sendAll (byteOrder : Order) (c : Connection I R H) : List (Transport × Bytes × H) → Connection I R H
  | [] => c
  | (transport, message, responseHandler) :: calls =>
    sendAll byteOrder (c.sendRequest byteOrder transport message responseHandler).connection calls

theorem length_le (c : Connection I R H) : c.responseHandlers.container.length ≤ 2 ^ 32 :=
  card_tokens 32 ▸ c.responseHandlers.ascending.length_le

theorem length_sendRequest (byteOrder : Order) (transport : Transport) (c : Connection I R H) (message : Bytes)
    (responseHandler : H) :
    (c.sendRequest byteOrder transport message responseHandler).connection.responseHandlers.container.length =
      min (2 ^ 32) (c.responseHandlers.container.length + 1) := by
  cases hpush : c.responseHandlers.push responseHandler with
  | error e =>
    have hfull := (push_error_iff _).mp ⟨e, hpush⟩
    rw [sendRequest_full hpush, hfull]
    rfl
  | ok r =>
    have hle := length_le { c with responseHandlers := r.2 }
    have hlength := length_push hpush
    rw [sendRequest_push hpush]
    dsimp only at hle ⊢
    omega

/-- Every call takes a token as long as there is one. -/
theorem length_sendAll (byteOrder : Order) (calls : List (Transport × Bytes × H)) (c : Connection I R H) :
    (sendAll byteOrder c calls).responseHandlers.container.length =
      min (2 ^ 32) (c.responseHandlers.container.length + calls.length) := by
  induction calls generalizing c with
  | nil =>
    have := length_le c
    rw [sendAll, List.length_nil]
    omega
  | cons call calls ih =>
    rw [sendAll, ih, length_sendRequest, List.length_cons]
    omega

/-- With every token in use, a series of calls does nothing. -/
theorem sendAll_full {calls : List (Transport × Bytes × H)} (h : c.responseHandlers.container.length = 2 ^ 32) :
    sendAll byteOrder c calls = c := by
  induction calls with
  | nil => rfl
  | cons call calls ih => rw [sendAll, connection_eq_iff.mpr h, ih]

end Connection

/-! ## `Client::sendRequest` -/

/-- The client's connection afterwards, and how the call ended. -/
def clientSendRequest (byteOrder : Order) (transport : Transport) (pConnection : Option (Connection I R H))
    (message : Bytes) (responseHandler : H) : Option (Connection I R H) × Except Exn Unit :=
  match pConnection with
  | none => (none, .error (.exception (ascii "No connection")))
  | some c =>
    let sent := c.sendRequest byteOrder transport message responseHandler
    (some sent.connection, sent.result)

theorem clientSendRequest_fst (byteOrder : Order) (transport : Transport)
    (pConnection : Option (Connection I R H)) (message : Bytes) (responseHandler : H) :
    (clientSendRequest byteOrder transport pConnection message responseHandler).1 =
      pConnection.map fun c => (c.sendRequest byteOrder transport message responseHandler).connection := by
  cases pConnection <;> rfl

/-! ## Atomicity -/

namespace Connection

/-- **`sendRequest` is atomic exactly when** every token is in use or the transport takes the frame: then a
request that does not get onto the wire leaves the table as it was. Of any number of requests that the
transport refuses, the same holds only if there are none or every token is in use. -/
theorem sendRequest_atomic_iff (byteOrder : Order) (c : Connection I R H) :
    (∀ transport message responseHandler,
      (¬ (c.sendRequest byteOrder transport message responseHandler).OnWire transport →
        (c.sendRequest byteOrder transport message responseHandler).connection = c) ↔
      c.responseHandlers.container.length = 2 ^ 32 ∨ c.Accepted transport message responseHandler) ∧
    ∀ calls : List (Transport × Bytes × H), (∀ call ∈ calls, call.1.Refuses) →
      (sendAll byteOrder c calls = c ↔ calls = [] ∨ c.responseHandlers.container.length = 2 ^ 32) := by
  constructor
  · intro transport message responseHandler
    rw [connection_eq_iff, onWire_iff_accepted]
    tauto
  · intro calls _
    constructor
    · intro hsame
      have hlength := length_sendAll byteOrder calls c
      have hle := length_le c
      rw [hsame] at hlength
      cases calls with
      | nil => exact Or.inl rfl
      | cons call calls =>
        rw [List.length_cons] at hlength
        omega
    · rintro (rfl | hfull)
      · rfl
      · exact sendAll_full hfull

/-- `send` on a connection that is not open: an error code, which is not looked at. -/
theorem sendRequest_not_open :
    let transport : Transport := ⟨fun size => .ok (List.replicate size 0), fun _ => .ok 1⟩
    let sent := (new none none : Connection Unit Unit Unit).sendRequest .little transport [] ()
    ¬ sent.OnWire transport ∧ sent.result = .ok () ∧ sent.connection.responseHandlers.container = [(0, ())] := by
  refine ⟨?_, rfl, rfl⟩
  rintro ⟨frame, -, hsend⟩
  exact absurd (Except.ok.inj hsend) (by decide)

end Connection

end Communique
