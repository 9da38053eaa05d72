import Communique.Message
import Communique.Lib.Text

/-!
# `CommuniqueClient`: the JavaScript client

A message is a JavaScript string, which stands for bytes with one code unit for each. A request leaves as
a binary frame that is written into an `ArrayBuffer`; an info message leaves as a string, which the
WebSocket sends as UTF-8.

* `spareReference` : the search for a reference that no outstanding request uses;
* `CommuniqueClient.sendRequest`, `sendInfo`, `handleMessage` : the methods that touch the wire;
* `requestFrame_eq`, `decodeData_wire` : the frames of both languages agree on requests and on what the
  client receives;
* **`wire_format_agrees_iff`** : they agree on a message exactly when it is ASCII.
-/

namespace Communique
open Endian Text

/-! ## `DataView` -/

/-- `setUint8`, which throws outside the buffer. -/
def setUint8 (view : Bytes) (byteOffset value : Nat) : Option Bytes :=
  if byteOffset < view.length then some (view.set byteOffset (UInt8.ofNat value)) else none

/-- `setUint32`, big-endian. -/
def setUint32 (view : Bytes) (byteOffset value : Nat) : Option Bytes :=
  if byteOffset + 4 ≤ view.length then some (replace view byteOffset 4 (bigEndian 4 (value % 2 ^ 32)))
  else none

def getUint8 (view : Bytes) (byteOffset : Nat) : Option Nat := view[byteOffset]?.map UInt8.toNat

/-- `getUint32`, big-endian. -/
def getUint32 (view : Bytes) (byteOffset : Nat) : Option Nat :=
  if byteOffset + 4 ≤ view.length then some (ofBigEndian ((view.drop byteOffset).take 4)) else none

/-- `String.fromCharCode.apply` on the bytes of `new Uint8Array( buffer, byteOffset )`. The language sets no limit on
the number of arguments; an engine has one, of the order of a hundred thousand, above which `apply`, and with it
`handleMessage`, throws a `RangeError`. -/
def fromCharCode (view : Bytes) (byteOffset : Nat) : Option CodeUnits :=
  if byteOffset ≤ view.length then some ((view.drop byteOffset).map UInt8.toUInt16) else none

/-! ## The client -/

/-- `==` between a message type that was read and one of the constants `REQUEST`, `RESPONSE`, `INFO`. -/
def isType (messageType : Nat) (type : MessageType) : Prop := messageType = type.toChar.toNat

instance (messageType : Nat) (type : MessageType) : Decidable (isType messageType type) :=
  inferInstanceAs (Decidable (_ = _))

def INFO_STRING : CodeUnits := [2]
def nullUserReference : CodeUnits := [0, 0, 0, 0]

/-- The handlers of the outstanding requests, each with its reference. -/
structure CommuniqueClient (H : Type) where
  responseHandlers : List (Nat × H)

/-- Counting up a used reference leaves fewer used ones ahead. -/
theorem length_filter_succ_lt {used : List Nat} {n : Nat} (h : n ∈ used) :
    (used.filter (n + 1 ≤ ·)).length < (used.filter (n ≤ ·)).length := by
  have hsub : used.filter (n + 1 ≤ ·) = (used.filter (n ≤ ·)).filter (n + 1 ≤ ·) := by
    rw [List.filter_filter]
    apply List.filter_congr
    intro x _
    rw [← Bool.decide_and, decide_eq_decide]
    omega
  rw [hsub, List.length_filter_lt_length_iff_exists]
  exact ⟨n, List.mem_filter.mpr ⟨h, by simp⟩, by simp⟩

/-- The `while` loop: each round looks for the reference among the used ones, and a hit counts it up. -/
def spareReference (used : List Nat) (newUserReference : Nat) : Nat :=
  if newUserReference ∈ used then spareReference used (newUserReference + 1) else newUserReference
termination_by (used.filter (newUserReference ≤ ·)).length
decreasing_by exact length_filter_succ_lt (by assumption)

/-- The loop that copies the characters behind the header, from `index` on. -/
def setCharCodes (view : Bytes) (index : Nat) : CodeUnits → Option Bytes
  | [] => some view
  | charCode :: message =>
    (setUint8 view (index + 5) charCode.toNat).bind fun view => setCharCodes view (index + 1) message

/-- The buffer of a request. The source writes the type twice. -/
def requestFrame (newUserReference : Nat) (message : CodeUnits) : Option Bytes := do
  let view := List.replicate (message.length + 5) 0
  let view ← setUint8 view 0 MessageType.REQUEST.toChar.toNat
  let view ← setUint8 view 0 MessageType.REQUEST.toChar.toNat
  let view ← setUint32 view 1 newUserReference
  setCharCodes view 0 message

/-- What the client has read of a message before it looks at the type: type, reference and string. -/
def decodeData (data : Bytes) : Option (Nat × Nat × CodeUnits) := do
  let messageType ← getUint8 data 0
  let userReference ← getUint32 data 1
  let message ← fromCharCode data 5
  return (messageType, userReference, message)

/-- The function of the user that `handleMessage` calls. -/
inductive Callback (H : Type)
  | oninfo (message : CodeUnits)
  | onrequest (request : CodeUnits)
  | handler (handler : H) (message : CodeUnits)
  | alert
  | nothing

namespace CommuniqueClient
variable {H : Type}

/-- `sendInfo`: the bytes of the text frame that the WebSocket makes of the string. -/
def sendInfo (message : CodeUnits) : Bytes := utf8 (INFO_STRING ++ nullUserReference ++ message)

/-- `sendRequest`: the client with the handler stored, and what reaches `websocket.send`. -/
def sendRequest (client : CommuniqueClient H) (message : CodeUnits) (newHandler : H) :
    CommuniqueClient H × Option Bytes :=
  let newUserReference := spareReference (client.responseHandlers.map Prod.fst) 124
  ({ client with responseHandlers := client.responseHandlers ++ [(newUserReference, newHandler)] },
    requestFrame newUserReference message)

/-- What `handleMessage` does with what it has read. -/
def dispatch (client : CommuniqueClient H) (messageType userReference : Nat) (message : CodeUnits) :
    CommuniqueClient H × Callback H :=
  if isType messageType .INFO then (client, .oninfo message)
  else if isType messageType .REQUEST then (client, .onrequest message)
  else if isType messageType .RESPONSE then
    let index := client.responseHandlers.findIdx fun entry => entry.1 == userReference
    match client.responseHandlers[index]? with
    | some (_, handler) =>
      ({ client with responseHandlers := client.responseHandlers.eraseIdx index }, .handler handler message)
    | none => (client, .alert)
  else (client, .nothing)

/-- `handleMessage`: the client and the callback made; `none` where reading the data throws. -/
def handleMessage (client : CommuniqueClient H) (data : Bytes) :
    Option (CommuniqueClient H × Callback H) := do
  let (messageType, userReference, message) ← decodeData data
  return client.dispatch messageType userReference message

end CommuniqueClient

/-! ## What the client writes and reads -/

/-- The reference that the search ends with is not in use. -/
theorem spareReference_not_mem (used : List Nat) (n : Nat) : spareReference used n ∉ used := by
  fun_induction spareReference used n with
  | case1 n hused ih => exact ih
  | case2 n hused => exact hused

/-- Behind what is written already, the loop replaces one byte for each character. -/
theorem setCharCodes_eq (written : Bytes) {index : Nat} (message : CodeUnits)
    (h : written.length = index + 5) :
    setCharCodes (written ++ List.replicate message.length 0) index message =
      some (written ++ latin1 message) := by
  induction message generalizing written index with
  | nil =>
    show some (written ++ []) = some (written ++ [])
    rfl
  | cons charCode message ih =>
    have hlt : index + 5 < (written ++ List.replicate (message.length + 1) (0 : UInt8)).length := by
      rw [List.length_append, List.length_replicate]
      omega
    have hset : (written ++ List.replicate (message.length + 1) 0).set (index + 5)
        (UInt8.ofNat charCode.toNat) =
          (written ++ [UInt8.ofNat charCode.toNat]) ++ List.replicate message.length 0 := by
      rw [List.set_append_right _ _ (by omega), h, Nat.sub_self, List.replicate_succ,
        List.set_cons_zero, List.append_assoc]
      rfl
    rw [setCharCodes, setUint8, List.length_cons, if_pos hlt, hset]
    show setCharCodes _ (index + 1) message = _
    rw [ih (written ++ [UInt8.ofNat charCode.toNat]) (by rw [List.length_append, h]; rfl), List.append_assoc]
    rfl

/-- The buffer of a request is the frame that the library would build. -/
theorem requestFrame_eq (newUserReference : Nat) (message : CodeUnits) :
    requestFrame newUserReference message =
      some (wire .REQUEST (BitVec.ofNat 32 newUserReference) (latin1 message)) := by
  have hbuffer : List.replicate (message.length + 5) (0 : UInt8) =
      [0, 0, 0, 0, 0] ++ List.replicate message.length 0 := by
    rw [Nat.add_comm, List.replicate_add]
    rfl
  have hheader : (MessageType.REQUEST.toChar :: bigEndian 4 (newUserReference % 2 ^ 32)).length = 0 + 5 := by
    rw [List.length_cons, length_bigEndian]
  have hwritten := setCharCodes_eq _ message hheader
  rw [requestFrame, hbuffer, wire, BitVec.toNat_ofNat]
  simpa [setUint8, setUint32, replace, MessageType.toChar] using hwritten

/-- The client reads a frame of the library as what it was built from. -/
theorem decodeData_wire (type : MessageType) (userReference : UserReference) (messageBody : Bytes) :
    decodeData (wire type userReference messageBody) =
      some (type.toChar.toNat, userReference.toNat, messageBody.map UInt8.toUInt16) := by
  have hlen : (wire type userReference messageBody).length = messageBody.length + 5 := by
    rw [wire, List.length_cons, List.length_append, length_bigEndian]
    omega
  have href : getUint32 (wire type userReference messageBody) 1 = some userReference.toNat := by
    have hlt : userReference.toNat < 256 ^ 4 := userReference.isLt
    rw [getUint32, if_pos (by omega), wire, List.drop_succ_cons, List.drop_zero,
      List.take_left' (length_bigEndian _ _), ofBigEndian_bigEndian hlt]
  have hbody : fromCharCode (wire type userReference messageBody) 5 =
      some (messageBody.map UInt8.toUInt16) := by
    rw [fromCharCode, if_pos (by omega), drop_wire]
  have htype : getUint8 (wire type userReference messageBody) 0 = some type.toChar.toNat := rfl
  rw [decodeData, htype, href, hbody]
  rfl

/-! ## The two languages -/

/-- The library accepts the frame and decodes it to these values. -/
def Decodes (byteOrder : Order) (frame : Bytes) (type : MessageType) (userReference : UserReference)
    (messageBody : Bytes) : Prop :=
  ∃ m, Message.receive frame = .ok m ∧ m.type = some type ∧ m.userReference byteOrder = userReference ∧
    m.messageBody = messageBody

/-- Only one frame decodes to given values. -/
theorem decodes_iff {byteOrder : Order} {frame : Bytes} {type : MessageType}
    {userReference : UserReference} {messageBody : Bytes} :
    Decodes byteOrder frame type userReference messageBody ↔ frame = wire type userReference messageBody := by
  constructor
  · rintro ⟨m, hm, ht, hr, hb⟩
    have hpayload := Message.receive_ok hm
    rw [Message.userReference_eq] at hr
    rw [← hpayload, ← hr, ← hb]
    exact (wire_decode m.size_ge ht).symm
  · rintro rfl
    have h := Message.build_payload ⟨byteOrder, []⟩ messageBody type userReference
    refine ⟨Message.build ⟨byteOrder, []⟩ messageBody type userReference, ?_, ?_, ?_, ?_⟩
    · rw [← h]
      exact Message.receive_payload _
    · exact Message.type_build _ _ _ _
    · rw [Message.userReference_eq, h, wireReference_wire]
    · exact Message.messageBody_build _ _ _ _

/-- An info message has the right body exactly when UTF-8 leaves its characters alone. -/
theorem sendInfo_eq_wire_iff {message : CodeUnits} (h : ∀ c ∈ message, c.toNat ≤ 255) :
    CommuniqueClient.sendInfo message = wire .INFO 0 (latin1 message) ↔ ∀ c ∈ message, c.toNat ≤ 127 := by
  have hall : ∀ c ∈ INFO_STRING ++ nullUserReference ++ message, c.toNat ≤ 255 := by
    intro c hc
    rcases List.mem_append.mp hc with hc | hc
    · have hheader : ∀ c ∈ INFO_STRING ++ nullUserReference, c.toNat ≤ 255 := by
        simp [INFO_STRING, nullUserReference]
      exact hheader c hc
    · exact h c hc
  have hwire : wire .INFO 0 (latin1 message) = latin1 (INFO_STRING ++ nullUserReference ++ message) := rfl
  have hheader : ∀ c ∈ INFO_STRING ++ nullUserReference, c.toNat ≤ 127 := by
    simp [INFO_STRING, nullUserReference]
  rw [CommuniqueClient.sendInfo, hwire, utf8_eq_latin1_iff hall]
  constructor
  · intro hascii c hc
    exact hascii c (List.mem_append_right _ hc)
  · intro hascii c hc
    rcases List.mem_append.mp hc with hc | hc
    · exact hheader c hc
    · exact hascii c hc

/-- **The client and the library read each other's frames of a message exactly when it is ASCII.** Requests,
with any reference, and the frames that the client receives always agree; an info message goes through
UTF-8, which changes every character from 128 on. -/
theorem wire_format_agrees_iff (platform : Platform) (message : CodeUnits)
    (h : ∀ c ∈ message, c.toNat ≤ 255) :
    ((∀ userReference : UserReference, ∃ frame, requestFrame userReference.toNat message = some frame ∧
          Decodes platform.byteOrder frame .REQUEST userReference (latin1 message)) ∧
        (∀ (H : Type) (client : CommuniqueClient H) (newHandler : H), ∃ newUserReference frame,
          client.sendRequest message newHandler =
              (⟨client.responseHandlers ++ [(newUserReference, newHandler)]⟩, some frame) ∧
            newUserReference ∉ client.responseHandlers.map Prod.fst ∧
            Decodes platform.byteOrder frame .REQUEST (BitVec.ofNat 32 newUserReference) (latin1 message)) ∧
        Decodes platform.byteOrder (CommuniqueClient.sendInfo message) .INFO 0 (latin1 message) ∧
        ∀ (H : Type) (client : CommuniqueClient H) type userReference messageBody,
          decodeData (Message.build platform messageBody type userReference).payload =
              some (type.toChar.toNat, userReference.toNat, messageBody.map UInt8.toUInt16) ∧
            client.handleMessage (Message.build platform messageBody type userReference).payload =
              some (client.dispatch type.toChar.toNat userReference.toNat
                (messageBody.map UInt8.toUInt16))) ↔
      ∀ c ∈ message, c.toNat ≤ 127 := by
  constructor
  · rintro ⟨-, -, hinfo, -⟩
    exact (sendInfo_eq_wire_iff h).mp (decodes_iff.mp hinfo)
  · intro hascii
    refine ⟨fun userReference => ?_, fun H client newHandler => ?_, ?_, ?_⟩
    · refine ⟨_, requestFrame_eq _ _, decodes_iff.mpr ?_⟩
      rw [BitVec.ofNat_toNat, BitVec.setWidth_eq]
    · refine ⟨_, _, ?_, spareReference_not_mem _ 124, decodes_iff.mpr rfl⟩
      rw [CommuniqueClient.sendRequest, requestFrame_eq]
    · exact decodes_iff.mpr ((sendInfo_eq_wire_iff h).mpr hascii)
    · intro H client type userReference messageBody
      rw [CommuniqueClient.handleMessage, Message.build_payload, decodeData_wire]
      exact ⟨rfl, rfl⟩

/-- A message of one letter. -/
theorem wire_format_agrees_on_letter :
    Decodes .little (CommuniqueClient.sendInfo [0x41]) .INFO 0 (latin1 [0x41]) :=
  ((wire_format_agrees_iff ⟨.little, []⟩ [0x41] (by simp)).mpr (by simp)).2.2.1

/-- The character U+00E9, sent as an info message, arrives as two bytes. -/
theorem sendInfo_accented :
    (∀ c ∈ ([0xE9] : CodeUnits), c.toNat ≤ 255) ∧
      ¬ Decodes .little (CommuniqueClient.sendInfo [0xE9]) .INFO 0 (latin1 [0xE9]) := by
  have hbyte : ∀ c ∈ ([0xE9] : CodeUnits), c.toNat ≤ 255 := by simp
  refine ⟨hbyte, fun hd => ?_⟩
  have hascii := (sendInfo_eq_wire_iff hbyte).mp (decodes_iff.mp hd) 0xE9 (List.mem_singleton_self _)
  exact absurd hascii (by decide)

end Communique
