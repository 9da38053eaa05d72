import Communique.Bytes
import Communique.Lib.Endian

/-!
# `Message`: the frame codec

A frame is the message type (one byte), the user reference (four bytes in network order) and the body.
The constructor for sending writes them into the payload of a fresh websocketpp message; the one for
receiving only checks the size, and `type`, `userReference` and `messageBody` cut the payload.

* `wire` : the frame as bytes; `Message.build_payload` : what the sending constructor writes, on every host;
* `wire_getD`, `wireReference_wire`, `drop_wire` : decoding a frame; `wire_decode` : encoding what was
  decoded;
* **`codec_bijection`** : the codec, between hosts of any byte order.
-/

namespace Communique
open Endian

/-- `Message::UserReference`, a `uint32_t`. -/
abbrev UserReference := BitVec 32

inductive MessageType
  | REQUEST
  | RESPONSE
  | INFO
  | REQUESTERROR
  deriving DecidableEq

/-- `static_cast<char>( type )`. -/
def MessageType.toChar : MessageType → UInt8
  | .REQUEST => 0
  | .RESPONSE => 1
  | .INFO => 2
  | .REQUESTERROR => 3

/-- `static_cast<MessageType>( payload[0] )`: any other byte gives a value that equals no enumerator. -/
def MessageType.ofChar (c : UInt8) : Option MessageType :=
  if c = 0 then some .REQUEST
  else if c = 1 then some .RESPONSE
  else if c = 2 then some .INFO
  else if c = 3 then some .REQUESTERROR
  else none

@[simp] theorem MessageType.ofChar_toChar (type : MessageType) : ofChar type.toChar = some type := by
  cases type <;> rfl

theorem MessageType.ofChar_eq_some {c : UInt8} {type : MessageType} :
    ofChar c = some type ↔ c = type.toChar := by
  constructor
  · intro h
    unfold ofChar at h
    split_ifs at h <;> cases h <;> simp_all [toChar]
  · rintro rfl
    exact ofChar_toChar type

/-! ## Building and reading a frame -/

/-- `std::string::resize`. -/
def resize (s : Bytes) (size : Nat) : Bytes := s.take size ++ List.replicate (size - s.length) 0

/-- `std::string::replace( pos, count, str )` inside the string. -/
def replace (s : Bytes) (pos count : Nat) (str : Bytes) : Bytes := s.take pos ++ str ++ s.drop (pos + count)

/-- `std::string::replace( pos, npos, str )`: everything from `pos` on. -/
def replaceFrom (s : Bytes) (pos : Nat) (str : Bytes) : Bytes := s.take pos ++ str

/-- What the sending constructor depends on besides its arguments: the byte order of the host, and the
payload that a message fresh from websocketpp's `get_message` has before it is written. -/
structure Platform where
  byteOrder : Order
  freshPayload : Bytes

/-- A message that either constructor has accepted: its payload holds at least the header. -/
structure Message where
  payload : Bytes
  size_ge : 5 ≤ payload.length

/-- `Message::Message( pMessage )`, the receiving constructor. -/
def Message.receive (payload : Bytes) : Except Exn Message :=
  if h : payload.length < 5 then
    .error (runtimeError "Received a websocket message that is too small to be a Communique message")
  else .ok ⟨payload, Nat.le_of_not_lt h⟩

/-- What the sending constructor leaves in the payload. -/
def buildPayload (platform : Platform) (messageBody : Bytes) (type : MessageType)
    (userReference : UserReference) : Bytes :=
  let payload := resize platform.freshPayload (messageBody.length + 4 + 1)
  let userNetorder := toNetwork platform.byteOrder 4 userReference.toNat
  let payload := payload.set 0 type.toChar
  let payload := replace payload 1 4 (inMemory platform.byteOrder 4 userNetorder)
  replaceFrom payload 5 messageBody

def Message.type (m : Message) : Option MessageType := MessageType.ofChar (m.payload.getD 0 0)

/-- `ntohl` of the four bytes from index 1, read as the host reads a number. -/
def Message.userReference (byteOrder : Order) (m : Message) : UserReference :=
  BitVec.ofNat 32 (ofNetwork byteOrder 4 (ofMemory byteOrder ((m.payload.drop 1).take 4)))

/-- `substr( 5 )`, which throws beyond the end only: `size_ge` rules that out. -/
def Message.messageBody (m : Message) : Bytes := m.payload.drop 5

/-! ## The frame -/

/-- The frame: type, user reference in network order, body. -/
def wire (type : MessageType) (userReference : UserReference) (messageBody : Bytes) : Bytes :=
  type.toChar :: (bigEndian 4 userReference.toNat ++ messageBody)

/-- The user reference of a frame: the bytes 1 to 4, big-endian. -/
def wireReference (payload : Bytes) : UserReference := BitVec.ofNat 32 (ofBigEndian ((payload.drop 1).take 4))

theorem length_resize (s : Bytes) (size : Nat) : (resize s size).length = size := by
  rw [resize, List.length_append, List.length_take, List.length_replicate]
  omega

/-- The sending constructor overwrites the whole payload: neither the host nor what the payload held
before shows. -/
theorem buildPayload_eq (platform : Platform) (messageBody : Bytes) (type : MessageType)
    (userReference : UserReference) :
    buildPayload platform messageBody type userReference = wire type userReference messageBody := by
  have hlen := length_resize platform.freshPayload (messageBody.length + 4 + 1)
  generalize hp : resize platform.freshPayload (messageBody.length + 4 + 1) = payload at hlen
  obtain ⟨c, rest, rfl⟩ : ∃ c rest, payload = c :: rest :=
    List.exists_cons_of_length_pos (by rw [hlen]; omega)
  simp only [buildPayload, hp, inMemory_toNetwork, List.set_cons_zero]
  have hheader : ([type.toChar] ++ bigEndian 4 userReference.toNat).length = 5 := by simp
  rw [replaceFrom, replace, List.take_succ_cons, List.take_zero, List.take_left' hheader, wire]
  rfl

/-- The sending constructor `Message::Message( pConnection, messageBody, type, userReference )`. -/
def Message.build (platform : Platform) (messageBody : Bytes) (type : MessageType)
    (userReference : UserReference) : Message where
  payload := buildPayload platform messageBody type userReference
  size_ge := by simp [buildPayload_eq, wire]

@[simp] theorem Message.build_payload (platform : Platform) (messageBody : Bytes) (type : MessageType)
    (userReference : UserReference) :
    (build platform messageBody type userReference).payload = wire type userReference messageBody :=
  buildPayload_eq platform messageBody type userReference

theorem Message.receive_error {payload : Bytes} :
    (∃ e, receive payload = .error e) ↔ payload.length < 5 := by
  unfold receive
  split
  · next h => exact ⟨fun _ => h, fun _ => ⟨_, rfl⟩⟩
  · next h =>
    refine ⟨?_, fun hlt => absurd hlt h⟩
    rintro ⟨e, he⟩
    cases he

/-- The receiving constructor takes the payload as it is. -/
theorem Message.receive_ok {payload : Bytes} {m : Message} (h : receive payload = .ok m) :
    m.payload = payload := by
  unfold receive at h
  split at h
  · cases h
  · rw [Except.ok.injEq] at h
    rw [← h]

theorem Message.receive_payload (m : Message) : receive m.payload = .ok m := by
  rw [receive, dif_neg (by have := m.size_ge; omega)]

/-- What a host reads as the user reference does not depend on its byte order. -/
theorem Message.userReference_eq (byteOrder : Order) (m : Message) :
    m.userReference byteOrder = wireReference m.payload := by
  have hlen : ((m.payload.drop 1).take 4).length = 4 := by
    have := m.size_ge
    rw [List.length_take, List.length_drop]
    omega
  have h := ofNetwork_ofMemory byteOrder ((m.payload.drop 1).take 4)
  rw [hlen] at h
  rw [userReference, wireReference, h]

@[simp] theorem wire_getD (type : MessageType) (userReference : UserReference) (messageBody : Bytes) :
    (wire type userReference messageBody).getD 0 0 = type.toChar := rfl

@[simp] theorem wireReference_wire (type : MessageType) (userReference : UserReference)
    (messageBody : Bytes) : wireReference (wire type userReference messageBody) = userReference := by
  have hlt : userReference.toNat < 256 ^ 4 := userReference.isLt
  rw [wireReference, wire, List.drop_succ_cons, List.drop_zero,
    List.take_left' (length_bigEndian _ _), ofBigEndian_bigEndian hlt, BitVec.ofNat_toNat,
    BitVec.setWidth_eq]

@[simp] theorem drop_wire (type : MessageType) (userReference : UserReference) (messageBody : Bytes) :
    (wire type userReference messageBody).drop 5 = messageBody := by
  rw [wire, List.drop_succ_cons, List.drop_left' (length_bigEndian _ _)]

@[simp] theorem Message.type_build (platform : Platform) (messageBody : Bytes) (type : MessageType)
    (userReference : UserReference) : (build platform messageBody type userReference).type = some type := by
  rw [Message.type, build_payload, wire_getD, MessageType.ofChar_toChar]

@[simp] theorem Message.messageBody_build (platform : Platform) (messageBody : Bytes) (type : MessageType)
    (userReference : UserReference) :
    (build platform messageBody type userReference).messageBody = messageBody := by
  rw [Message.messageBody, build_payload, drop_wire]

/-- A frame of at least five bytes with one of the four types is the frame of what it decodes to. -/
theorem wire_decode {payload : Bytes} {type : MessageType} (h : 5 ≤ payload.length)
    (ht : MessageType.ofChar (payload.getD 0 0) = some type) :
    wire type (wireReference payload) (payload.drop 5) = payload := by
  obtain ⟨c, rest, rfl⟩ := List.exists_cons_of_length_pos (show 0 < payload.length by omega)
  have hrest : (rest.take 4).length = 4 := by
    rw [List.length_cons] at h
    rw [List.length_take]
    omega
  have hread := bigEndian_ofBigEndian (rest.take 4)
  rw [hrest] at hread
  have hlt : ofBigEndian (rest.take 4) < 2 ^ 32 := by
    have := ofBigEndian_lt (rest.take 4)
    rw [hrest] at this
    exact this
  rw [wire, wireReference, List.drop_succ_cons, List.drop_zero, BitVec.toNat_ofNat,
    Nat.mod_eq_of_lt hlt, hread, List.drop_succ_cons, List.take_append_drop,
    ← MessageType.ofChar_eq_some.mp ht, List.getD_cons_zero]

/-- **The frame codec is a bijection**: between any two hosts, whatever the payload held before, a frame
decodes to what it was built from; what a payload of a known type decodes to builds the same payload;
the receiving constructor refuses the payloads below five bytes and no others; and the bytes on the wire
are the same on every host. -/
theorem codec_bijection (p q : Platform) :
    (∀ messageBody type userReference,
      Message.receive (Message.build p messageBody type userReference).payload =
          .ok (Message.build p messageBody type userReference) ∧
        (Message.build p messageBody type userReference).type = some type ∧
        (Message.build p messageBody type userReference).userReference q.byteOrder = userReference ∧
        (Message.build p messageBody type userReference).messageBody = messageBody) ∧
      (∀ (payload : Bytes) (m : Message) type, Message.receive payload = .ok m → m.type = some type →
        (Message.build p m.messageBody type (m.userReference q.byteOrder)).payload = payload) ∧
      (∀ payload, (∃ e, Message.receive payload = .error e) ↔ payload.length < 5) ∧
      ∀ messageBody type userReference,
        (Message.build p messageBody type userReference).payload =
            type.toChar :: (bigEndian 4 userReference.toNat ++ messageBody) ∧
          (Message.build q messageBody type userReference).payload =
            (Message.build p messageBody type userReference).payload := by
  refine ⟨fun messageBody type userReference => ⟨Message.receive_payload _,
    Message.type_build p messageBody type userReference, ?_,
    Message.messageBody_build p messageBody type userReference⟩,
    fun payload m type hr ht => ?_, fun payload => Message.receive_error, fun messageBody type
    userReference => ⟨Message.build_payload p messageBody type userReference, ?_⟩⟩
  · rw [Message.userReference_eq, Message.build_payload, wireReference_wire]
  · rw [Message.build_payload, Message.userReference_eq, Message.messageBody, wire_decode m.size_ge ht,
      Message.receive_ok hr]
  · rw [Message.build_payload, Message.build_payload]

end Communique
