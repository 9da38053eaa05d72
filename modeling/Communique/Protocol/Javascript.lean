import Communique.CommuniqueClient
import Communique.Protocol.Endpoint
import Mathlib.Data.List.Perm.Subperm
import Mathlib.Data.List.Range

/-!
# The JavaScript end

The client with the script that uses it. Scripts have one thread, so each call of `sendRequest` and each
delivery of a message is one step; the functions of the user that it calls do what they do in further steps.
The client looks at nothing that `onrequest` returns.

* `sendInfo_eq`, `decodeData_eq` : every info message has the header of one, and every message with a header is
  read as what the library reads;
* `spareReference_le`, `spareReference_le_add` : the search ends at the first reference that is free, which is not
  far;
* `Javascript` : the client and a log of what happened, as at the end of the library;
* `Javascript.act`, `act_sendRequest`, `act_sendInfo` : what the script does;
* `Javascript.receive`, `Received`, `receive_cases` : what delivering a message does, by its type.
-/

namespace Communique
open Endian Text

/-! ## The wire -/

/-- An info message is a frame of the library whose body is UTF-8. -/
theorem sendInfo_eq (message : CodeUnits) : CommuniqueClient.sendInfo message = wire .INFO 0 (utf8 message) := by
  show utf8 (2 :: 0 :: 0 :: 0 :: 0 :: message) = _
  rw [utf8_cons_ascii (by decide), utf8_cons_ascii (by decide), utf8_cons_ascii (by decide),
    utf8_cons_ascii (by decide), utf8_cons_ascii (by decide)]
  rfl

theorem latin1_toUInt16 (bytes : Bytes) : latin1 (bytes.map UInt8.toUInt16) = bytes := by
  rw [latin1, List.map_map]
  apply List.map_id''
  intro b
  simp

/-- The client reads from every message with a header what the library reads. -/
theorem decodeData_eq (m : Message) :
    decodeData m.payload =
      some ((m.payload.getD 0 0).toNat, (wireReference m.payload).toNat, m.messageBody.map UInt8.toUInt16) := by
  have hsize := m.size_ge
  have htype : getUint8 m.payload 0 = some (m.payload.getD 0 0).toNat := by
    rw [getUint8, List.getD_eq_getElem?_getD, List.getElem?_eq_getElem (by omega)]
    rfl
  have hfour : ((m.payload.drop 1).take 4).length = 4 := by
    rw [List.length_take, List.length_drop]
    omega
  have href : getUint32 m.payload 1 = some (wireReference m.payload).toNat := by
    have hlt : ofBigEndian ((m.payload.drop 1).take 4) < 2 ^ 32 := by
      have h := ofBigEndian_lt ((m.payload.drop 1).take 4)
      rw [hfour] at h
      exact h
    rw [getUint32, if_pos (by omega), wireReference, BitVec.toNat_ofNat, Nat.mod_eq_of_lt hlt]
  have hbody : fromCharCode m.payload 5 = some (m.messageBody.map UInt8.toUInt16) := if_pos hsize
  rw [decodeData, htype, href, hbody]
  rfl

theorem isType_iff (m : Message) (type : MessageType) :
    isType (m.payload.getD 0 0).toNat type ↔ m.type = some type := by
  rw [Message.type, MessageType.ofChar_eq_some, isType, UInt8.toNat_inj]

/-- The search does not pass a free reference. -/
theorem spareReference_le {used : List Nat} {n k : Nat} (hnk : n ≤ k) (hk : k ∉ used) :
    spareReference used n ≤ k := by
  fun_induction spareReference used n with
  | case1 n hused ih =>
    apply ih
    have hne : n ≠ k := fun heq => hk (heq ▸ hused)
    omega
  | case2 n hused => exact hnk

theorem spareReference_ge (used : List Nat) (n : Nat) : n ≤ spareReference used n := by
  fun_induction spareReference used n with
  | case1 n hused ih => exact Nat.le_of_succ_le ih
  | case2 n hused => exact Nat.le_refl n

/-- Of one number more than are used, one is free. -/
theorem spareReference_le_add (used : List Nat) (n : Nat) : spareReference used n ≤ n + used.length := by
  by_contra hlt
  have hsub : List.range' n (used.length + 1) ⊆ used := by
    intro k hk
    rw [List.mem_range'_1] at hk
    by_contra hfree
    have hle := spareReference_le hk.1 hfree
    omega
  have hle := ((List.nodup_range' 1 (by decide)).subperm hsub).length_le
  rw [List.length_range'] at hle
  omega

/-! ## The end -/

/-- What the script may do between two messages. -/
inductive Script
  | sendRequest (message : CodeUnits)
  | sendInfo (message : CodeUnits)

/-- The response handler that a call stores is named by the number of the call. -/
structure Javascript where
  client : CommuniqueClient Nat
  calls : Nat
  log : List Event

namespace Javascript

/-- The client before any traffic. -/
def start : Javascript := ⟨⟨[]⟩, 0, []⟩

@[simp] def record (js : Javascript) (event : Event) : Javascript := { js with log := js.log ++ [event] }

@[simp] def recordSent (js : Javascript) (frames : List Frame) : Javascript :=
  { js with log := js.log ++ frames.map .sent }

/-- What `websocket.send` is given, marked with the call; a message without a header is none of the library's. -/
def transmit (data : Option Bytes) (call : Nat) : List Frame :=
  match data with
  | some data => if h : 5 ≤ data.length then [⟨⟨data, h⟩, call⟩] else []
  | none => []

/-- One call of a sending method: the end after it and the frames passed to the transport. -/
def act (js : Javascript) : Script → Javascript × List Frame
  | .sendRequest message =>
    let r := js.client.sendRequest message js.calls
    ({ js.record (.registered js.calls (latin1 message)) with client := r.1, calls := js.calls + 1 },
      transmit r.2 js.calls)
  | .sendInfo message => (js, transmit (some (CommuniqueClient.sendInfo message)) 0)

/-- Delivering a frame to `handleMessage`, which runs a response handler itself. -/
def receive (js : Javascript) (frame : Frame) : Javascript :=
  let js' := js.record (.delivered frame)
  match js.client.handleMessage frame.message.payload with
  | none => js'
  | some (client, callback) =>
    let js' := { js' with client := client }
    match callback with
    | .oninfo message => js'.record (.handled .INFO (latin1 message))
    | .onrequest request => js'.record (.handled .REQUEST (latin1 request))
    | .handler call message => js'.record (.invoked call (latin1 message))
    | .alert => js'.record (.ignored frame.messageBody)
    | .nothing => js'

/-! ## What can happen -/

theorem transmit_wire (platform : Platform) (type : MessageType) (userReference : UserReference)
    (messageBody : Bytes) (call : Nat) :
    transmit (some (wire type userReference messageBody)) call =
      [⟨Message.build platform messageBody type userReference, call⟩] := by
  have hpayload := Message.build_payload platform messageBody type userReference
  have hsize := (Message.build platform messageBody type userReference).size_ge
  unfold transmit
  dsimp only
  rw [dif_pos (by rw [← hpayload]; exact hsize)]
  congr
  exact hpayload.symm

/-- The reference of the next request. -/
def newUserReference (js : Javascript) : Nat := spareReference (js.client.responseHandlers.map Prod.fst) 124

/-- The client after its next call of `sendRequest` has stored the handler. -/
def requested (js : Javascript) (message : CodeUnits) : Javascript :=
  { js.record (.registered js.calls (latin1 message)) with
    client := ⟨js.client.responseHandlers ++ [(js.newUserReference, js.calls)]⟩
    calls := js.calls + 1 }

/-- What that call sends. -/
def request (platform : Platform) (js : Javascript) (message : CodeUnits) : Frame :=
  ⟨Message.build platform (latin1 message) .REQUEST (BitVec.ofNat 32 js.newUserReference), js.calls⟩

theorem act_sendRequest (platform : Platform) (js : Javascript) (message : CodeUnits) :
    js.act (.sendRequest message) = (js.requested message, [js.request platform message]) := by
  rw [act, CommuniqueClient.sendRequest, requestFrame_eq, transmit_wire platform]
  rfl

theorem act_sendInfo (platform : Platform) (js : Javascript) (message : CodeUnits) :
    js.act (.sendInfo message) = (js, [⟨Message.build platform (utf8 message) .INFO 0, 0⟩]) := by
  rw [act, sendInfo_eq, transmit_wire platform]

/-- The outcomes of `receive`, by the type of the frame. -/
inductive Received (js : Javascript) (frame : Frame) : Javascript → Prop
  | info (ht : frame.type = some .INFO) :
      Received js frame ((js.record (.delivered frame)).record (.handled .INFO frame.messageBody))
  | request (ht : frame.type = some .REQUEST) :
      Received js frame ((js.record (.delivered frame)).record (.handled .REQUEST frame.messageBody))
  | response {call : Nat} {before after : List (Nat × Nat)} (ht : frame.type = some .RESPONSE)
      (h : js.client.responseHandlers = before ++ (frame.token.toNat, call) :: after) :
      Received js frame { (js.record (.delivered frame)).record (.invoked call frame.messageBody) with
        client := ⟨before ++ after⟩ }
  | alert (ht : frame.type = some .RESPONSE)
      (h : frame.token.toNat ∉ js.client.responseHandlers.map Prod.fst) :
      Received js frame ((js.record (.delivered frame)).record (.ignored frame.messageBody))
  | nothing (hi : frame.type ≠ some .INFO) (hq : frame.type ≠ some .REQUEST)
      (hp : frame.type ≠ some .RESPONSE) :
      Received js frame (js.record (.delivered frame))

/-- The search for the handler of a response. -/
theorem findIdx_cases {H : Type} (handlers : List (Nat × H)) (userReference : Nat) :
    (∃ before handler after,
      handlers[handlers.findIdx fun entry => entry.1 == userReference]? = some (userReference, handler) ∧
        handlers = before ++ (userReference, handler) :: after ∧
        handlers.eraseIdx (handlers.findIdx fun entry => entry.1 == userReference) = before ++ after) ∨
      handlers[handlers.findIdx fun entry => entry.1 == userReference]? = none ∧
        userReference ∉ handlers.map Prod.fst := by
  cases hentry : handlers[handlers.findIdx fun entry => entry.1 == userReference]? with
  | some entry =>
    left
    obtain ⟨before, after, hl, herase, -⟩ := Endpoint.split_at hentry
    obtain ⟨hlt, hget⟩ := List.getElem?_eq_some_iff.mp hentry
    have hfound := List.findIdx_getElem (w := hlt)
    rw [hget] at hfound
    obtain ⟨reference, handler⟩ := entry
    obtain rfl : reference = userReference := eq_of_beq hfound
    exact ⟨before, handler, after, rfl, hl, herase⟩
  | none =>
    right
    refine ⟨rfl, fun hmem => ?_⟩
    obtain ⟨entry, hmem', hreference⟩ := List.mem_map.mp hmem
    have hfound : (entry.1 == userReference) = true := beq_iff_eq.mpr hreference
    have hlt := List.findIdx_lt_length_of_exists (p := fun entry : Nat × H => entry.1 == userReference)
      ⟨entry, hmem', hfound⟩
    rw [List.getElem?_eq_getElem hlt] at hentry
    cases hentry

theorem handleMessage_eq (client : CommuniqueClient Nat) (frame : Frame) :
    client.handleMessage frame.message.payload =
      some (client.dispatch (frame.message.payload.getD 0 0).toNat frame.token.toNat
        (frame.messageBody.map UInt8.toUInt16)) := by
  rw [CommuniqueClient.handleMessage, decodeData_eq]
  rfl

theorem receive_cases (js : Javascript) (frame : Frame) : Received js frame (js.receive frame) := by
  have hpayload : js.client.handleMessage frame.message.payload = _ := handleMessage_eq js.client frame
  unfold receive
  rw [hpayload]
  have htype : ∀ type, isType (frame.message.payload.getD 0 0).toNat type ↔ frame.type = some type :=
    isType_iff frame.message
  unfold CommuniqueClient.dispatch
  by_cases hi : frame.type = some .INFO
  · rw [if_pos ((htype _).mpr hi)]
    dsimp only
    rw [latin1_toUInt16]
    exact Received.info hi
  · rw [if_neg fun h => hi ((htype _).mp h)]
    by_cases hq : frame.type = some .REQUEST
    · rw [if_pos ((htype _).mpr hq)]
      dsimp only
      rw [latin1_toUInt16]
      exact Received.request hq
    · rw [if_neg fun h => hq ((htype _).mp h)]
      by_cases hp : frame.type = some .RESPONSE
      · rw [if_pos ((htype _).mpr hp)]
        dsimp only
        obtain ⟨before, call, after, hentry, hl, herase⟩ | ⟨hentry, hmissing⟩ :=
          findIdx_cases js.client.responseHandlers frame.token.toNat
        · rw [hentry, herase]
          dsimp only
          rw [latin1_toUInt16]
          exact Received.response hp hl
        · rw [hentry]
          exact Received.alert hp hmissing
      · rw [if_neg fun h => hp ((htype _).mp h)]
        exact Received.nothing hi hq hp

end Javascript

end Communique
