import Communique.Protocol.Order
import Communique.Protocol.Pair

/-!
# Requests that are left hanging

* `Answered` : an end of the library answers every request that it is given, once;
* `jsCalls`, `cppCalls` : the exchanges that the client and the library call in; the client is a server that
  never gets to its tasks;
* `Good` : what holds in every state as long as references fit into the wire format;
* `Settled` : no request is left hanging;
* **`settled_iff`** : this is so until the client is given a request or an error.
-/

namespace Communique
open Text Transition

variable {I R : Type}

/-! ## The answers of the library -/

/-- The requests that an end was given are those that it has answered and those that it has a task for. -/
def Answered (e : Endpoint I R) : Prop :=
  ((ofType .REQUEST (deliveredFrames e.log)).map Frame.key).Perm
    ((answersOf (sentFrames e.log)).map Frame.key ++ e.requestTasks.map RequestTask.key)

theorem answersOf_append (frames frames' : List Frame) :
    answersOf (frames ++ frames') = answersOf frames ++ answersOf frames' := List.filter_append _ _

theorem answered_act {platform : Platform} {mayWait : Bytes → Bool} {e e' : Endpoint I R} {a : Action I R}
    {out : List Frame} (h : Answered e) (ha : Endpoint.Acted platform mayWait e a e' out) :
    Answered (e'.recordSent out) := by
  obtain ⟨hsent, hdelivered⟩ := act_frames ha
  unfold Answered at h ⊢
  rw [hsent, hdelivered, answersOf_append]
  cases ha with
  | @finish i outcome before after t ht hp =>
    have hanswer : (answersOf [⟨Connection.answer platform t.receivedMessage outcome, t.call⟩]).map Frame.key =
        [t.key] := by
      obtain ⟨body, type, rfl | rfl, heq⟩ := Connection.answer_eq_build platform t.receivedMessage outcome
      · rw [heq]
        simp [answersOf, RequestTask.key]
      · rw [heq]
        simp [answersOf, RequestTask.key]
    rw [List.map_append, hanswer]
    refine h.trans ?_
    rw [ht, List.map_append, List.map_cons, List.append_assoc]
    apply List.Perm.append_left
    show List.Perm _ ([t.key] ++ (before ++ after).map RequestTask.key)
    rw [List.map_append]
    exact List.perm_middle
  | start ht hp =>
    rw [ht] at h
    simpa [answersOf, RequestTask.key] using h
  | wait ht hp hw =>
    rw [ht] at h
    simpa [answersOf, RequestTask.key] using h
  | resume ht hp =>
    rw [ht] at h
    simpa [answersOf, RequestTask.key] using h
  | _ => simpa [answersOf] using h

theorem answered_receive {platform : Platform} {e e' : Endpoint I R} {infoOutcome : Except Exn Unit}
    {frame : Frame} {out : List Frame} (h : Answered e)
    (hr : Endpoint.Received platform e infoOutcome frame e' out) : Answered (e'.recordSent out) := by
  obtain ⟨hsent, hdelivered⟩ := receive_frames hr
  unfold Answered at h ⊢
  rw [hsent, hdelivered, answersOf_append, ofType_append]
  cases hr with
  | requestTask ht =>
    have hrequest : (ofType .REQUEST [frame]).map Frame.key = [frame.key] := by simp [ofType_cons, ht]
    rw [List.map_append, hrequest]
    have hperm := h.append_right [frame.key]
    rw [List.append_assoc] at hperm
    simpa [answersOf, RequestTask.key, Frame.key, Frame.token] using hperm
  | requestRefused ht hset =>
    have hrequest : (ofType .REQUEST [frame]).map Frame.key = [frame.key] := by simp [ofType_cons, ht]
    have hanswer : (answersOf [⟨Message.build platform (ascii "No request handler set") .REQUESTERROR frame.token,
        frame.call⟩]).map Frame.key = [frame.key] := by
      simp [answersOf]
      rfl
    rw [List.map_append, List.map_append, hrequest, hanswer]
    have hperm : ((answersOf (sentFrames e.log)).map Frame.key ++ e.requestTasks.map RequestTask.key ++
        [frame.key]).Perm ((answersOf (sentFrames e.log)).map Frame.key ++ [frame.key] ++
          e.requestTasks.map RequestTask.key) := by
      rw [List.append_assoc, List.append_assoc]
      apply List.Perm.append_left
      exact List.perm_append_comm
    exact (h.append_right [frame.key]).trans hperm
  | unhandled hq hp hi => simpa [ofType_cons, answersOf, hq] using h
  | infoHandled ht => simpa [ofType_cons, answersOf, ht] using h
  | responseTask ht hp => simpa [ofType_cons, answersOf, ht] using h
  | responseIgnored ht hp => simpa [ofType_cons, answersOf, ht] using h

/-! ## The exchanges -/

namespace Javascript

/-- The part of the exchange that the client has in hand; its response handlers run at once. -/
def calling (js : Javascript) : Exchange.State UserReference Nat Bytes Bytes where
  table := js.client.responseHandlers.map fun entry => (BitVec.ofNat 32 entry.1, entry.2)
  asked := 0
  answers := 0
  refused := 0
  abandoned := (ofType .REQUESTERROR (deliveredFrames js.log)).map Frame.key
  accepted := (ofType .RESPONSE (deliveredFrames js.log)).map Frame.call
  ready := 0
  invoked := invokedHandlers js.log
  registered := registeredCalls js.log
  returned := 0
  dropped := (ignoredResponses js.log).length

/-- The client as a server: every request that it is given is a task that never starts. -/
def server (js : Javascript) : Endpoint I R :=
  { Endpoint.start none none with
    requestTasks := (ofType .REQUEST (deliveredFrames js.log)).map fun frame =>
      ⟨frame.call, frame.message, .created⟩ }

/-- The references fit into the wire format. -/
def Fits (js : Javascript) : Prop := ∀ entry ∈ js.client.responseHandlers, entry.1 < 2 ^ 32

/-- References that fit are told apart by what is sent of them. -/
theorem ofNat_inj {m n : Nat} (hm : m < 2 ^ 32) (hn : n < 2 ^ 32) (h : BitVec.ofNat 32 m = BitVec.ofNat 32 n) :
    m = n := by
  have htoNat := congrArg BitVec.toNat h
  rwa [BitVec.toNat_ofNat, BitVec.toNat_ofNat, Nat.mod_eq_of_lt hm, Nat.mod_eq_of_lt hn] at htoNat

theorem Fits.free {js : Javascript} (h : js.Fits) {n : Nat} (hn : n < 2 ^ 32)
    (hfree : n ∉ js.client.responseHandlers.map Prod.fst) :
    BitVec.ofNat 32 n ∉ js.calling.table.map Prod.fst := by
  intro hmem
  obtain ⟨p, hp, hpn⟩ := Multiset.mem_map.mp hmem
  obtain ⟨entry, hentry, rfl⟩ := List.mem_map.mp (Multiset.mem_coe.mp hp)
  obtain rfl := ofNat_inj (h entry hentry) hn hpn
  exact hfree (List.mem_map_of_mem hentry)

/-- The numbers of the calls are used in order. -/
def Numbered (js : Javascript) : Prop := ∀ call ∈ (registeredCalls js.log).map Prod.fst, call < js.calls

theorem Numbered.requested {js : Javascript} (h : js.Numbered) (message : CodeUnits) (frames : List Frame) :
    ((js.requested message).recordSent frames).Numbered := by
  intro call hcall
  have hcases : call ∈ (registeredCalls js.log).map Prod.fst ∨ call = js.calls := by
    simpa [Javascript.requested] using hcall
  show call < js.calls + 1
  rcases hcases with hold | rfl
  · exact Nat.lt_succ_of_lt (h call hold)
  · exact Nat.lt_succ_self _

theorem Received.registered {js js' : Javascript} {frame : Frame} (h : Received js frame js') :
    registeredCalls js'.log = registeredCalls js.log ∧ js'.calls = js.calls := by
  cases h <;> constructor <;> simp

theorem Numbered.received {js js' : Javascript} {frame : Frame} (hn : js.Numbered) (h : Received js frame js') :
    js'.Numbered := by
  obtain ⟨hregistered, hcalls⟩ := h.registered
  unfold Numbered
  rw [hregistered, hcalls]
  exact hn

theorem Fits.received {js js' : Javascript} {frame : Frame} (hf : js.Fits) (h : Received js frame js') :
    js'.Fits := by
  cases h with
  | response ht hl =>
    intro entry hentry
    apply hf entry
    rw [hl]
    simp only [List.mem_append, List.mem_cons] at hentry ⊢
    exact hentry.imp_right Or.inr
  | _ => exact hf

/-- A message makes the client send nothing. -/
theorem Received.sentFrames_eq {js js' : Javascript} {frame : Frame} (h : Received js frame js') :
    sentFrames js'.log = sentFrames js.log := by
  cases h <;> simp

section Exchange
variable (platform : Platform) (server : Endpoint I R) (ch back : List Frame)

/-- In the exchange that the client calls in, `sendRequest` registers. -/
theorem register_calling {js : Javascript} (hfits : js.Fits) (hnumbered : js.Numbered)
    (href : js.newUserReference < 2 ^ 32) (message : CodeUnits) :
    Exchange.Step (serve js.calling server ch back)
      (serve ((js.requested message).recordSent [js.request platform message]).calling server
        (ch ++ [js.request platform message]) back) := by
  have hfree : BitVec.ofNat 32 js.newUserReference ∉ (serve js.calling server ch back).table.map Prod.fst :=
    hfits.free href (spareReference_not_mem _ _)
  have hcall : js.calls ∉ (serve js.calling server ch back).registered.map Prod.fst := by
    intro hmem
    exact Nat.lt_irrefl _ (hnumbered js.calls (by simpa [serve, calling] using hmem))
  convert Exchange.Step.register (latin1 message) hfree hcall using 1
  simp [-Multiset.coe_add, -Multiset.cons_coe, serve, calling, requested, request, ofType_cons, coe_concat]

/-- In the exchange that the client calls in, answers come, and a response has its handler run. -/
theorem received_calling {js js' : Javascript} {frame : Frame} (h : Received js frame js') (hfits : js.Fits)
    (hgood : Exchange.Good (serve js.calling server ch (frame :: back))) :
    Exchange.Good (serve js'.calling server ch back) := by
  cases h with
  | info ht =>
    convert hgood using 1
    simp [serve, calling, ofType_cons, ht]
  | request ht =>
    convert hgood using 1
    simp [serve, calling, ofType_cons, ht]
  | @response call before after ht hl =>
    have hanswers : (serve js.calling server ch (frame :: back)).answers =
        (frame.token, frame.call, frame.messageBody) ::ₘ ↑((ofType .RESPONSE back).map Frame.item) := by
      simp [serve, ofType_cons, ht, Frame.item]
    have htable : (serve js.calling server ch (frame :: back)).table = (frame.token, call) ::ₘ
        ↑((before ++ after).map fun entry => (BitVec.ofNat 32 entry.1, entry.2)) := by
      simp [-Multiset.coe_add, -Multiset.cons_coe, serve, calling, hl, coe_middle]
    have haccepted := Exchange.good_step hgood (Exchange.Step.accept hanswers htable)
    have hinvoked := haccepted.invoke (show _ = (call, frame.messageBody) ::ₘ 0 from rfl)
    convert hinvoked using 1
    simp [-Multiset.coe_add, -Multiset.cons_coe, serve, calling, ofType_cons, ht, coe_concat]
  | alert ht hmissing =>
    have hanswers : (serve js.calling server ch (frame :: back)).answers =
        (frame.token, frame.call, frame.messageBody) ::ₘ ↑((ofType .RESPONSE back).map Frame.item) := by
      simp [serve, ofType_cons, ht, Frame.item]
    have hfree : frame.token ∉ js.calling.table.map Prod.fst := by
      have hnone := hfits.free frame.token.isLt hmissing
      rwa [BitVec.ofNat_toNat, BitVec.setWidth_eq] at hnone
    have hdropped := Exchange.good_step hgood (Exchange.Step.drop hanswers hfree)
    convert hdropped using 1
    simp [-Multiset.coe_add, -Multiset.cons_coe, serve, calling, ofType_cons, ht, coe_concat]
  | nothing hi hq hp =>
    by_cases he : frame.type = some .REQUESTERROR
    · have hrefused : (serve js.calling server ch (frame :: back)).refused =
          (frame.token, frame.call) ::ₘ ↑((ofType .REQUESTERROR back).map Frame.key) := by
        simp [serve, ofType_cons, he, Frame.key]
      have habandoned := Exchange.good_step hgood (Exchange.Step.abandon hrefused)
      convert habandoned using 1
      simp [-Multiset.coe_add, -Multiset.cons_coe, serve, calling, ofType_cons, he, coe_concat, Frame.key]
    · convert hgood using 1
      simp [serve, calling, ofType_cons, he, hp]

/-- In the exchange that the client serves, a request goes from the channel to the tasks that never start. -/
theorem received_server (caller : Endpoint I R) {js js' : Javascript} {frame : Frame} (h : Received js frame js') :
    exchange caller js'.server ch back = exchange caller js.server (frame :: ch) back := by
  cases h with
  | request ht =>
    simp [-Multiset.coe_add, ← Multiset.cons_coe, exchange, server, ofType_cons, ht, coe_concat, RequestTask.item,
      Frame.item, Frame.token, Frame.messageBody]
  | info ht => simp [exchange, server, ofType_cons, ht]
  | response ht hl => simp [exchange, server, ofType_cons, ht]
  | alert ht hmissing => simp [exchange, server, ofType_cons, ht]
  | nothing hi hq hp => simp [exchange, server, ofType_cons, hq]

end Exchange

end Javascript

namespace Pair

/-- The exchange that the client calls in. -/
def jsCalls (s : Pair I R) : Exchange.State UserReference Nat Bytes Bytes :=
  serve s.js.calling s.cpp s.toCpp s.toJs

/-- The exchange that the library calls in. -/
def cppCalls (s : Pair I R) : Exchange.State UserReference Nat Bytes Bytes :=
  exchange s.cpp s.js.server s.toJs s.toCpp

/-- What holds as long as references fit into the wire format. -/
structure Good (s : Pair I R) : Prop where
  jsNumbered : s.js.Numbered
  cppNumbered : Numbered s.cpp
  fits : s.js.Fits
  jsCalls : Exchange.Good s.jsCalls
  cppCalls : Exchange.Good s.cppCalls
  answered : Answered s.cpp
  fifo : sentFrames s.js.log = deliveredFrames s.cpp.log ++ s.toCpp
  /-- The client answers nothing. -/
  asks : answersOf (sentFrames s.js.log) = []

theorem good_start (infoHandler : Option I) (requestHandler : Option R) :
    Good (start infoHandler requestHandler) where
  jsNumbered call h := by cases h
  cppNumbered := numbered_start infoHandler requestHandler
  fits entry h := by cases h
  jsCalls := Exchange.good_start
  cppCalls := Exchange.good_start
  answered := List.Perm.nil
  fifo := rfl
  asks := rfl

namespace Good
variable {s : Pair I R}

/-! ### One lemma for each step -/

theorem sendRequest (platform : Platform) (h : s.Good) (message : CodeUnits)
    (href : s.js.newUserReference < 2 ^ 32) :
    Good { s with
      js := (s.js.requested message).recordSent [s.js.request platform message]
      toCpp := s.toCpp ++ [s.js.request platform message] } where
  jsNumbered := h.jsNumbered.requested message _
  cppNumbered := h.cppNumbered
  fits := by
    intro entry hentry
    rcases List.mem_append.mp hentry with hentry | hentry
    · exact h.fits entry hentry
    · rw [List.mem_singleton.mp hentry]
      exact href
  jsCalls := Exchange.good_step h.jsCalls
    (Javascript.register_calling platform s.cpp s.toCpp s.toJs h.fits h.jsNumbered href message)
  cppCalls := by
    convert h.cppCalls using 1
    simp [Pair.cppCalls, exchange, Javascript.server, Javascript.requested, Javascript.request, ofType_cons]
  answered := h.answered
  fifo := by
    have hfifo := h.fifo
    simp only [sentFrames] at hfifo
    simp [Javascript.requested, hfifo]
  asks := by
    have hasks := h.asks
    simpa [answersOf, Javascript.requested, Javascript.request] using hasks

theorem sendInfo (platform : Platform) (h : s.Good) (messageBody : Bytes) :
    Good { s with
      js := s.js.recordSent [⟨Message.build platform messageBody .INFO 0, 0⟩]
      toCpp := s.toCpp ++ [⟨Message.build platform messageBody .INFO 0, 0⟩] } where
  jsNumbered := by
    intro call hcall
    exact h.jsNumbered call (by simpa using hcall)
  cppNumbered := h.cppNumbered
  fits := h.fits
  jsCalls := by
    convert h.jsCalls using 1
    simp [Pair.jsCalls, serve, Javascript.calling, ofType_cons]
  cppCalls := by
    convert h.cppCalls using 1
    simp [Pair.cppCalls, exchange, Javascript.server, ofType_cons]
  answered := h.answered
  fifo := by
    have hfifo := h.fifo
    simp only [sentFrames] at hfifo
    simp [hfifo]
  asks := by
    have hasks := h.asks
    simpa [answersOf] using hasks

theorem act {platform : Platform} {mayWait : Bytes → Bool} {action : Action I R} {e : Endpoint I R}
    {out : List Frame} (h : s.Good) (ha : Endpoint.Acted platform mayWait s.cpp action e out) :
    Good { s with cpp := e.recordSent out, toJs := s.toJs ++ out } where
  jsNumbered := h.jsNumbered
  cppNumbered := numbered_act h.cppNumbered ha
  fits := h.fits
  jsCalls := good_of_stays h.jsCalls (act_serve s.js.calling s.toCpp s.toJs ha)
  cppCalls := good_of_stays h.cppCalls (act_caller s.js.server s.toJs s.toCpp h.cppNumbered ha)
  answered := answered_act h.answered ha
  fifo := by
    rw [(act_frames ha).2]
    exact h.fifo
  asks := h.asks

theorem handleMessage {frame : Frame} {rest : List Frame} {js : Javascript} (h : s.Good)
    (hc : s.toJs = frame :: rest) (hr : Javascript.Received s.js frame js) :
    Good { s with js := js, toJs := rest } where
  jsNumbered := h.jsNumbered.received hr
  cppNumbered := h.cppNumbered
  fits := h.fits.received hr
  jsCalls := by
    have hgood := h.jsCalls
    rw [Pair.jsCalls, hc] at hgood
    exact Javascript.received_calling s.cpp s.toCpp rest hr h.fits hgood
  cppCalls := by
    have hgood := h.cppCalls
    rw [Pair.cppCalls, hc, ← Javascript.received_server rest s.toCpp s.cpp hr] at hgood
    exact hgood
  answered := h.answered
  fifo := by
    rw [hr.sentFrames_eq]
    exact h.fifo
  asks := by
    rw [hr.sentFrames_eq]
    exact h.asks

theorem onMessage {platform : Platform} {infoOutcome : Except Exn Unit} {frame : Frame} {rest : List Frame}
    {e : Endpoint I R} {out : List Frame} (h : s.Good) (hc : s.toCpp = frame :: rest)
    (hr : Endpoint.Received platform s.cpp infoOutcome frame e out) :
    Good { s with cpp := e.recordSent out, toCpp := rest, toJs := s.toJs ++ out } where
  jsNumbered := h.jsNumbered
  cppNumbered := numbered_receive h.cppNumbered hr
  fits := h.fits
  jsCalls := by
    have hgood := h.jsCalls
    rw [Pair.jsCalls, hc] at hgood
    exact good_of_stays hgood (receive_serve s.js.calling rest s.toJs hr)
  cppCalls := by
    have hgood := h.cppCalls
    rw [Pair.cppCalls, hc] at hgood
    exact good_of_stays hgood (receive_caller s.js.server s.toJs rest hr)
  answered := answered_receive h.answered hr
  fifo := by
    rw [(receive_frames hr).2, h.fifo, hc, List.append_assoc]
    rfl
  asks := h.asks

theorem step {host : Host} {t : Pair I R} {m : PairMove I R} (h : s.Good) (hst : Stepped host s m t)
    (href : ∀ message, m = .script (.sendRequest message) → s.js.newUserReference < 2 ^ 32) : t.Good := by
  cases hst with
  | @sendRequest message => exact h.sendRequest host.platform message (href message rfl)
  | sendInfo => exact h.sendInfo host.platform _
  | act ha => exact h.act ha
  | handleMessage hc hr => exact h.handleMessage hc hr
  | onMessage hc hr => exact h.onMessage hc hr

end Good

/-! ## No request is left hanging -/

/-- No frame is in flight and no thread is in a call. -/
def Quiescent (s : Pair I R) : Prop := s.toCpp = [] ∧ s.toJs = [] ∧ s.cpp.sending = [] ∧ s.cpp.Idle

instance (s : Pair I R) : Decidable s.Quiescent := inferInstanceAs (Decidable (_ ∧ _ ∧ _ ∧ _))

structure Settled (s : Pair I R) : Prop where
  /-- Every request that the library was given has one answer with its reference, or a task for it. -/
  cppAnswers : Answered s.cpp
  /-- Every request that the client was given has one answer with its reference. -/
  jsAnswers : ((ofType .REQUEST (deliveredFrames s.js.log)).map Frame.key).Perm
    ((answersOf (sentFrames s.js.log)).map Frame.key)
  /-- The calls that an answer came for are not in the tables. -/
  cppRemoved : ∀ frame ∈ answersOf (deliveredFrames s.cpp.log), ¬ System.Stored s.cpp frame.call
  jsRemoved : ∀ frame ∈ answersOf (deliveredFrames s.js.log),
    frame.call ∉ s.js.client.responseHandlers.map Prod.snd
  empty : s.Quiescent → s.js.client.responseHandlers = [] ∧ s.cpp.connection.responseHandlers.container = []

theorem mem_answersOf {frames : List Frame} {frame : Frame} :
    frame ∈ answersOf frames ↔
      frame ∈ frames ∧ (frame.type = some .RESPONSE ∨ frame.type = some .REQUESTERROR) := by
  rw [answersOf, List.mem_filter, decide_eq_true_iff]

theorem mem_table {s : Pair I R} {call : Nat} :
    call ∈ s.jsCalls.table.map Prod.snd ↔ call ∈ s.js.client.responseHandlers.map Prod.snd := by
  simp [jsCalls, serve, Javascript.calling]

/-- The library is given no answers, since the client sends none. -/
theorem Good.no_answers {s : Pair I R} (h : s.Good) : answersOf (deliveredFrames s.cpp.log) = [] := by
  have hasks := h.asks
  rw [h.fifo, answersOf_append] at hasks
  exact (List.append_eq_nil_iff.mp hasks).1

/-- A request that comes to the client is never answered. -/
theorem Settled.no_request {s : Pair I R} (hs : s.Settled) (h : s.Good) {frame : Frame}
    (hframe : .delivered frame ∈ s.js.log) : frame.type ≠ some .REQUEST := by
  intro ht
  have hperm := hs.jsAnswers
  rw [h.asks] at hperm
  have hmem := List.mem_map_of_mem (f := Frame.key) (mem_ofType.mpr ⟨mem_deliveredFrames.mpr hframe, ht⟩)
  rw [hperm.eq_nil] at hmem
  cases hmem

/-- An error that comes to the client leaves its call in the table. -/
theorem Settled.no_error {s : Pair I R} (hs : s.Settled) (h : s.Good) {frame : Frame}
    (hframe : .delivered frame ∈ s.js.log) : frame.type ≠ some .REQUESTERROR := by
  intro ht
  have hdelivered := mem_deliveredFrames.mpr hframe
  have habandoned : frame.key ∈ s.jsCalls.abandoned :=
    List.mem_map_of_mem (f := Frame.key) (mem_ofType.mpr ⟨hdelivered, ht⟩)
  have htable := Multiset.mem_of_le h.jsCalls.abandoned_le habandoned
  exact hs.jsRemoved frame (mem_answersOf.mpr ⟨hdelivered, Or.inr ht⟩)
    (mem_table.mp (Multiset.mem_map.mpr ⟨frame.key, htable, rfl⟩))

/-- With nothing on its way, the client's table holds the calls that an error came for. -/
theorem Good.js_empty {s : Pair I R} (h : s.Good) (hquiescent : s.Quiescent)
    (herrors : ofType .REQUESTERROR (deliveredFrames s.js.log) = []) : s.js.client.responseHandlers = [] := by
  obtain ⟨htoCpp, htoJs, -, hidle⟩ := hquiescent
  have htable := h.jsCalls.table_eq_abandoned
    (by simp [Pair.jsCalls, serve, Javascript.calling, htoCpp, hidle.1])
    (by simp [Pair.jsCalls, serve, htoJs])
    (by simp [Pair.jsCalls, serve, htoJs])
  have habandoned : s.jsCalls.abandoned = 0 := by
    show (↑((ofType .REQUESTERROR (deliveredFrames s.js.log)).map Frame.key) : Multiset (UserReference × Nat)) = 0
    rw [herrors]
    rfl
  rw [habandoned] at htable
  exact List.map_eq_nil_iff.mp ((Multiset.coe_eq_zero _).mp htable)

/-- With nothing on its way, the library's table holds the calls whose request the client was given. -/
theorem Good.cpp_empty {s : Pair I R} (h : s.Good) (hquiescent : s.Quiescent)
    (hrequests : ofType .REQUEST (deliveredFrames s.js.log) = []) :
    s.cpp.connection.responseHandlers.container = [] := by
  obtain ⟨htoCpp, htoJs, hsending, -⟩ := hquiescent
  have hasked : s.cppCalls.asked = 0 := by
    have htasks : (s.js.server : Endpoint I R).requestTasks = [] := by
      rw [Javascript.server, hrequests]
      rfl
    simp [Pair.cppCalls, exchange, hsending, htoJs, htasks]
  have htable := h.cppCalls.table_eq_abandoned hasked (by simp [Pair.cppCalls, exchange, htoCpp])
    (by simp [Pair.cppCalls, exchange, htoCpp])
  have habandoned : s.cppCalls.abandoned = 0 := by
    have herrors : ofType .REQUESTERROR (deliveredFrames s.cpp.log) = [] := by
      apply List.eq_nil_iff_forall_not_mem.mpr
      intro frame hframe
      obtain ⟨hmem, ht⟩ := mem_ofType.mp hframe
      have hanswer : frame ∈ answersOf (deliveredFrames s.cpp.log) := mem_answersOf.mpr ⟨hmem, Or.inr ht⟩
      rw [h.no_answers] at hanswer
      cases hanswer
    show (↑((ofType .REQUESTERROR (deliveredFrames s.cpp.log)).map Frame.key) : Multiset (UserReference × Nat)) = 0
    rw [herrors]
    rfl
  rw [habandoned] at htable
  exact (Multiset.coe_eq_zero _).mp htable

theorem Good.settled {s : Pair I R} (h : s.Good)
    (hnone : ∀ frame, .delivered frame ∈ s.js.log →
      frame.type ≠ some .REQUEST ∧ frame.type ≠ some .REQUESTERROR) : s.Settled := by
  have hrequests : ofType .REQUEST (deliveredFrames s.js.log) = [] :=
    ofType_delivered_eq_nil.mpr fun frame hframe => (hnone frame hframe).1
  have herrors : ofType .REQUESTERROR (deliveredFrames s.js.log) = [] :=
    ofType_delivered_eq_nil.mpr fun frame hframe => (hnone frame hframe).2
  exact
    { cppAnswers := h.answered
      jsAnswers := by
        rw [hrequests, h.asks]
      cppRemoved := by
        intro frame hframe
        rw [h.no_answers] at hframe
        cases hframe
      jsRemoved := by
        intro frame hframe hstored
        obtain ⟨hdelivered, ht | ht⟩ := mem_answersOf.mp hframe
        · have haccepted : frame.call ∈ s.jsCalls.accepted :=
            List.mem_map_of_mem (f := Frame.call) (mem_ofType.mpr ⟨hdelivered, ht⟩)
          exact (h.jsCalls.stored_iff.mp (mem_table.mpr hstored)).2 haccepted
        · exact (hnone frame (mem_deliveredFrames.mp hdelivered)).2 ht
      empty := by
        intro hquiescent
        exact ⟨h.js_empty hquiescent herrors, h.cpp_empty hquiescent hrequests⟩ }

/-! ## Whole runs -/

section Runs
variable {host : Host} {infoHandler : Option I} {requestHandler : Option R} {moves : List (PairMove I R)}
  {s : Pair I R}

/-- Some reference from 124 on that fits into the wire format is not in use at the client. -/
def ReferenceFree (s : Pair I R) : Prop :=
  ∃ userReference, 124 ≤ userReference ∧ userReference < 2 ^ 32 ∧
    userReference ∉ s.js.client.responseHandlers.map Prod.fst

theorem good (h : Run (ofFun (step host)) (start infoHandler requestHandler) moves s)
    (hfree : ∀ u v message, Takes (ofFun (step host)) (start infoHandler requestHandler) moves s u
      (.script (.sendRequest message)) v → u.ReferenceFree) : s.Good := by
  refine h.invariant_takes (good_start infoHandler requestHandler) ?_
  intro u m v htakes hu
  obtain ⟨-, -, -, -, hstep, -⟩ := id htakes
  refine hu.step (step_cases hstep) ?_
  rintro message rfl
  obtain ⟨userReference, hle, hlt, hunused⟩ := hfree u v message htakes
  exact lt_of_le_of_lt (spareReference_le hle hunused) hlt

/-- A move of the script stores one handler at most, and no other move stores any. -/
theorem length_handlers_step {host : Host} {s t : Pair I R} {m : PairMove I R} (hst : Stepped host s m t) :
    t.js.client.responseHandlers.length ≤ s.js.client.responseHandlers.length + 1 := by
  cases hst with
  | sendRequest => simp [Javascript.requested]
  | handleMessage hc hr =>
    cases hr with
    | response ht hsplit =>
      simp only [hsplit, List.length_append, List.length_cons]
      omega
    | _ => exact Nat.le_succ _
  | _ => exact Nat.le_succ _

/-- In a run that is not too long every call finds a reference. -/
theorem referenceFree_of_short (hshort : moves.length < 2 ^ 32 - 124) {u v : Pair I R} {m : PairMove I R}
    (h : Takes (ofFun (step host)) (start infoHandler requestHandler) moves s u m v) : u.ReferenceFree := by
  obtain ⟨before, after, rfl, hbefore, -, -⟩ := h
  have hlength : u.js.client.responseHandlers.length ≤ before.length := by
    clear hshort
    induction hbefore with
    | nil => exact Nat.le_refl 0
    | snoc run hstep ih =>
      rw [List.length_append, List.length_singleton]
      exact (length_handlers_step (step_cases hstep)).trans (Nat.succ_le_succ ih)
  have hle := spareReference_le_add (u.js.client.responseHandlers.map Prod.fst) 124
  rw [List.length_map] at hle
  rw [List.length_append, List.length_cons] at hshort
  exact ⟨_, spareReference_ge _ 124, by omega, spareReference_not_mem _ 124⟩

/-- **No request is left hanging exactly as long as** the client is given no request and no error: in every run in
which each `sendRequest` of the client finds a reference that fits into the wire format. -/
theorem settled_iff (h : Run (ofFun (step host)) (start infoHandler requestHandler) moves s)
    (hfree : ∀ u v message, Takes (ofFun (step host)) (start infoHandler requestHandler) moves s u
      (.script (.sendRequest message)) v → u.ReferenceFree) :
    s.Settled ↔ ∀ frame, .delivered frame ∈ s.js.log →
      frame.type ≠ some .REQUEST ∧ frame.type ≠ some .REQUESTERROR := by
  have hgood := good h hfree
  constructor
  · intro hs frame hframe
    exact ⟨hs.no_request hgood hframe, hs.no_error hgood hframe⟩
  · exact hgood.settled

end Runs

/-- A little-endian host, whose io thread waits for its tasks and whose request handler does not wait. -/
def plainHost : Host := ⟨⟨.little, []⟩, true, fun _ => false⟩

/-- The library sends one request and the client is given it: nothing is under way, and the library's table keeps
the call. -/
theorem request_to_client_hangs :
    ¬ ∀ moves (s : Pair Unit Unit), Run (ofFun (step plainHost)) (start (some ()) (some ())) moves s →
      s.Settled := by
  intro hall
  have hrun : (exec (step plainHost) (start (some ()) (some ()) : Pair Unit Unit)
      [.act (.push [5]), .act (.send 0), .handleMessage]).map
        (fun s => (decide s.Quiescent, s.cpp.connection.responseHandlers.container)) =
      some (true, [(0, 0)]) := by decide
  obtain ⟨s, hs, hend⟩ := Option.map_eq_some_iff.mp hrun
  obtain ⟨hq, htable⟩ := Prod.mk.inj hend
  have hempty := ((hall _ s (run_of_exec hs)).empty (of_decide_eq_true hq)).2
  rw [htable] at hempty
  cases hempty

theorem newUserReference_start : Javascript.start.newUserReference = 124 := by
  rw [Javascript.newUserReference, spareReference]
  rfl

/-- The client has sent one request to a library whose handlers are set. -/
def asked : Pair Unit Unit :=
  let frame : Frame := ⟨Message.build plainHost.platform (latin1 [65]) .REQUEST 124, 0⟩
  { start (some ()) (some ()) with
    js := ⟨⟨[(124, 0)]⟩, 1, [.registered 0 (latin1 [65]), .sent frame]⟩
    toCpp := [frame] }

theorem step_asked :
    step plainHost (start (some ()) (some ()) : Pair Unit Unit) (.script (.sendRequest [65])) = some asked := by
  have hreference : (start (some ()) (some ()) : Pair Unit Unit).js.newUserReference = 124 := newUserReference_start
  rw [step, Javascript.act_sendRequest plainHost.platform, Javascript.requested, Javascript.request, hreference]
  rfl

/-- The client sends one request, and its response comes. -/
theorem request_of_client_settled :
    ∃ s : Pair Unit Unit, Run (ofFun (step plainHost)) (start (some ()) (some ())) [.script (.sendRequest [65]),
      .onMessage (.ok ()), .act (.start 0), .act (.finish 0 (.ok [7])), .handleMessage] s ∧ s.Settled := by
  have hrun : (exec (step plainHost) asked
      [.onMessage (.ok ()), .act (.start 0), .act (.finish 0 (.ok [7])), .handleMessage]).map
        (fun s => (deliveredFrames s.js.log).map Frame.type) = some [some .RESPONSE] := by decide
  obtain ⟨s, hs, hlog⟩ := Option.map_eq_some_iff.mp hrun
  have hreach := Run.cons (show ofFun (step plainHost) _ _ _ from step_asked) (run_of_exec hs)
  refine ⟨s, hreach, (settled_iff hreach fun u v message => referenceFree_of_short (by decide)).mpr ?_⟩
  intro frame hframe
  have htype : frame.type ∈ (deliveredFrames s.js.log).map Frame.type :=
    List.mem_map_of_mem (mem_deliveredFrames.mpr hframe)
  rw [hlog, List.mem_singleton] at htype
  rw [htype]
  decide

end Pair

end Communique
