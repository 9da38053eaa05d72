import Communique.Lib.Exchange
import Communique.Protocol.System

/-!
# The ledger of requests and answers

Seen from the end that calls `sendRequest`, the two ends carry out an exchange of requests and answers by
tokens. There are two such exchanges at once, one from each end, over the same channels and with the same
tokens.

* `exchange` : the exchange that an end calls in, read off the two ends and the two channels;
* `serve` : an exchange whose caller is not looked into;
* `act_caller`, `act_serve`, `receive_caller`, `receive_serve` : what a step of an end does to the exchange that
  it calls in and to the one that it serves (`act_server`, `receive_server` with an end as the caller);
* `exchange_step` : a step of the system is, in both exchanges, a step or nothing;
* `Reachable.good` : the invariant of exchanges holds in both, always.
-/

namespace Communique
open Storage Listing

variable {I R : Type}

/-- The exchange with calls at `caller`, which has sent `out`, and handlers at `server`, which has sent
`back`. -/
def exchange (caller server : Endpoint I R) (out back : List Frame) :
    Exchange.State UserReference Nat Bytes Bytes where
  table := caller.connection.responseHandlers.container
  asked := ↑(caller.sending.map Sending.item) + ↑((ofType .REQUEST out).map Frame.item) +
    ↑(server.requestTasks.map RequestTask.item)
  answers := (ofType .RESPONSE back).map Frame.item
  refused := (ofType .REQUESTERROR back).map Frame.key
  abandoned := (ofType .REQUESTERROR (deliveredFrames caller.log)).map Frame.key
  accepted := (ofType .RESPONSE (deliveredFrames caller.log)).map Frame.call
  ready := caller.responseTasks.map fun t => (t.call, t.messageBody)
  invoked := invokedHandlers caller.log
  registered := registeredCalls caller.log
  returned := returnedResponses server.log
  dropped := (ignoredResponses caller.log).length

/-- The part of the exchange that `caller` has in hand. -/
def calling (caller : Endpoint I R) : Exchange.State UserReference Nat Bytes Bytes where
  table := caller.connection.responseHandlers.container
  asked := caller.sending.map Sending.item
  answers := 0
  refused := 0
  abandoned := (ofType .REQUESTERROR (deliveredFrames caller.log)).map Frame.key
  accepted := (ofType .RESPONSE (deliveredFrames caller.log)).map Frame.call
  ready := caller.responseTasks.map fun t => (t.call, t.messageBody)
  invoked := invokedHandlers caller.log
  registered := registeredCalls caller.log
  returned := 0
  dropped := (ignoredResponses caller.log).length

/-- The exchange with any caller, which has sent `out`, and handlers at `server`, which has sent `back`. -/
def serve (caller : Exchange.State UserReference Nat Bytes Bytes) (server : Endpoint I R)
    (out back : List Frame) : Exchange.State UserReference Nat Bytes Bytes :=
  { caller with
    asked := caller.asked + ↑((ofType .REQUEST out).map Frame.item) + ↑(server.requestTasks.map RequestTask.item)
    answers := (ofType .RESPONSE back).map Frame.item
    refused := (ofType .REQUESTERROR back).map Frame.key
    returned := returnedResponses server.log }

theorem exchange_eq_serve (caller server : Endpoint I R) (out back : List Frame) :
    exchange caller server out back = serve (calling caller) server out back := rfl

/-- Nothing happens in the exchange, or one step. -/
def Stays (s t : Exchange.State UserReference Nat Bytes Bytes) : Prop := t = s ∨ Exchange.Step s t

theorem good_of_stays {s t : Exchange.State UserReference Nat Bytes Bytes} (h : Exchange.Good s) (hst : Stays s t) :
    Exchange.Good t := by
  rcases hst with rfl | hstep
  · exact h
  · exact Exchange.good_step h hstep

/-- The numbers of the calls are used in order. -/
def Numbered (e : Endpoint I R) : Prop := ∀ call ∈ (registeredCalls e.log).map Prod.fst, call < e.calls

theorem coe_concat {α : Type} (l : List α) (a : α) : (↑(l ++ [a]) : Multiset α) = a ::ₘ ↑l := by
  rw [Multiset.cons_coe, Multiset.coe_eq_coe]
  exact List.perm_append_singleton a l

theorem coe_middle {α : Type} (l l' : List α) (a : α) :
    (↑(l ++ a :: l') : Multiset α) = a ::ₘ ↑(l ++ l') := by
  rw [Multiset.cons_coe, Multiset.coe_eq_coe]
  exact List.perm_middle

section Acted
variable {platform : Platform} {mayWait : Bytes → Bool} {e e' : Endpoint I R} {a : Action I R}
  {out : List Frame}

/-- In the exchange that the end calls in, `push` registers and the task of a response invokes. -/
theorem act_caller (server : Endpoint I R) (ch back : List Frame) (hn : Numbered e)
    (h : Endpoint.Acted platform mayWait e a e' out) :
    Stays (exchange e server ch back) (exchange (e'.recordSent out) server (ch ++ out) back) := by
  cases h with
  | @push message userReference responseHandlers hp =>
    right
    have hpush := UniqueTokenStorage.push_container hp
    have hfree : userReference ∉ (exchange e server ch back).table.map Prod.fst := by
      simpa [exchange, keys] using push_fresh e.connection.responseHandlers.ascending hpush
    have hcall : e.calls ∉ (exchange e server ch back).registered.map Prod.fst := by
      intro hmem
      exact Nat.lt_irrefl _ (hn e.calls (by simpa [exchange] using hmem))
    have htable : (↑responseHandlers.container : Multiset (UserReference × Nat)) =
        (userReference, e.calls) ::ₘ ↑e.connection.responseHandlers.container := by
      rw [Multiset.cons_coe, Multiset.coe_eq_coe]
      exact push_perm e.connection.responseHandlers.ascending hpush
    convert Exchange.Step.register message hfree hcall using 1
    simp [-Multiset.coe_add, -Multiset.cons_coe, exchange, htable, coe_concat, Sending.item]
  | @invoke i before after t h =>
    right
    have hready : (exchange e server ch back).ready =
        (t.call, t.messageBody) ::ₘ ↑((before ++ after).map fun t => (t.call, t.messageBody)) := by
      simp [-Multiset.coe_add, -Multiset.cons_coe, exchange, h, coe_middle]
    convert Exchange.Step.invoke hready using 1
    simp [-Multiset.coe_add, -Multiset.cons_coe, exchange, coe_concat]
  | @send i before after p h =>
    left
    simp [-Multiset.coe_add, -Multiset.cons_coe, exchange, ofType_cons, h, coe_middle, Sending.item]
  | @finish i outcome before after t h ht =>
    left
    cases outcome with
    | ok response =>
      rw [Connection.answer_ok]
      simp [exchange, ofType_cons]
    | error exn =>
      obtain ⟨what, hw⟩ := Connection.answer_error platform t.receivedMessage exn
      rw [hw]
      simp [exchange, ofType_cons]
  | sendInfo =>
    left
    simp [exchange, ofType_cons]
  | full =>
    left
    simp [exchange]
  | start h ht =>
    left
    simp [exchange]
  | wait h ht hw =>
    left
    simp [exchange]
  | resume h ht =>
    left
    simp [exchange]
  | setInfoHandler =>
    left
    simp [exchange]
  | setRequestHandler =>
    left
    simp [exchange]

/-- In the exchange that the end serves, the task of a request answers. -/
theorem act_serve (caller : Exchange.State UserReference Nat Bytes Bytes) (ch back : List Frame)
    (h : Endpoint.Acted platform mayWait e a e' out) :
    Stays (serve caller e ch back) (serve caller (e'.recordSent out) ch (back ++ out)) := by
  cases h with
  | @finish i outcome before after t h ht =>
    right
    have hasked : (serve caller e ch back).asked =
        (wireReference t.receivedMessage.payload, t.call, t.receivedMessage.messageBody) ::ₘ
          (caller.asked + ↑((ofType .REQUEST ch).map Frame.item) +
            ↑((before ++ after).map RequestTask.item)) := by
      simp [-Multiset.coe_add, -Multiset.cons_coe, serve, h, coe_middle, RequestTask.item]
    cases outcome with
    | ok response =>
      rw [Connection.answer_ok]
      convert Exchange.Step.answer response hasked using 1
      simp [-Multiset.coe_add, -Multiset.cons_coe, serve, ofType_cons, coe_concat]
    | error exn =>
      obtain ⟨what, hw⟩ := Connection.answer_error platform t.receivedMessage exn
      rw [hw]
      convert Exchange.Step.refuse hasked using 1
      simp [-Multiset.coe_add, -Multiset.cons_coe, serve, ofType_cons, coe_concat]
  | @start i before after t h ht =>
    left
    simp [serve, h, RequestTask.item]
  | @wait i call before after t h ht hw =>
    left
    simp [serve, h, RequestTask.item]
  | @resume i call before after t h ht =>
    left
    simp [serve, h, RequestTask.item]
  | full =>
    left
    simp [serve]
  | push hp =>
    left
    simp [serve]
  | send h =>
    left
    simp [serve, ofType_cons]
  | sendInfo =>
    left
    simp [serve, ofType_cons]
  | invoke h =>
    left
    simp [serve]
  | setInfoHandler =>
    left
    simp [serve]
  | setRequestHandler =>
    left
    simp [serve]

theorem act_server (caller : Endpoint I R) (ch back : List Frame)
    (h : Endpoint.Acted platform mayWait e a e' out) :
    Stays (exchange caller e ch back) (exchange caller (e'.recordSent out) ch (back ++ out)) := by
  rw [exchange_eq_serve, exchange_eq_serve]
  exact act_serve (calling caller) ch back h

end Acted

section Received
variable {platform : Platform} {e e' : Endpoint I R} {infoOutcome : Except Exn Unit} {frame : Frame}
  {out : List Frame}

/-- In the exchange that the end calls in, answers come. -/
theorem receive_caller (server : Endpoint I R) (ch back : List Frame)
    (h : Endpoint.Received platform e infoOutcome frame e' out) :
    Stays (exchange e server ch (frame :: back)) (exchange (e'.recordSent out) server (ch ++ out) back) := by
  cases h with
  | @responseTask call responseHandlers ht hp =>
    right
    have hanswers : (exchange e server ch (frame :: back)).answers =
        (frame.token, frame.call, frame.messageBody) ::ₘ ↑((ofType .RESPONSE back).map Frame.item) := by
      simp [exchange, ofType_cons, ht, Frame.item]
    have htable : (exchange e server ch (frame :: back)).table =
        (frame.token, call) ::ₘ ↑responseHandlers.container := by
      rw [Multiset.cons_coe]
      exact Multiset.coe_eq_coe.mpr (popInto_some (UniqueTokenStorage.pop_container hp)).1
    convert Exchange.Step.accept hanswers htable using 1
    simp [-Multiset.coe_add, -Multiset.cons_coe, exchange, ofType_cons, ht, coe_concat]
  | responseIgnored ht hp =>
    right
    have hanswers : (exchange e server ch (frame :: back)).answers =
        (frame.token, frame.call, frame.messageBody) ::ₘ ↑((ofType .RESPONSE back).map Frame.item) := by
      simp [exchange, ofType_cons, ht, Frame.item]
    have hmissing : frame.token ∉ (exchange e server ch (frame :: back)).table.map Prod.fst := by
      intro hmem
      exact UniqueTokenStorage.pop_eq_none.mp hp (by simpa [exchange, keys] using hmem)
    convert Exchange.Step.drop hanswers hmissing using 1
    simp [-Multiset.coe_add, -Multiset.cons_coe, exchange, ofType_cons, ht, coe_concat]
  | unhandled hq hp hi =>
    by_cases he : frame.type = some .REQUESTERROR
    · right
      have hrefused : (exchange e server ch (frame :: back)).refused =
          (frame.token, frame.call) ::ₘ ↑((ofType .REQUESTERROR back).map Frame.key) := by
        simp [exchange, ofType_cons, he, Frame.key]
      convert Exchange.Step.abandon hrefused using 1
      simp [-Multiset.coe_add, -Multiset.cons_coe, exchange, ofType_cons, he, coe_concat, Frame.key]
    · left
      simp [exchange, ofType_cons, he, hp]
  | infoHandled ht =>
    left
    simp [exchange, ofType_cons, ht]
  | requestTask ht =>
    left
    simp [exchange, ofType_cons, ht]
  | requestRefused ht hset =>
    left
    simp [exchange, ofType_cons, ht]

/-- In the exchange that the end serves, requests come: they become tasks or are refused at once. -/
theorem receive_serve (caller : Exchange.State UserReference Nat Bytes Bytes) (ch back : List Frame)
    (h : Endpoint.Received platform e infoOutcome frame e' out) :
    Stays (serve caller e (frame :: ch) back) (serve caller (e'.recordSent out) ch (back ++ out)) := by
  cases h with
  | requestTask ht =>
    left
    simp [-Multiset.coe_add, ← Multiset.cons_coe, serve, ofType_cons, ht, coe_concat, RequestTask.item,
      Frame.item, Frame.token, Frame.messageBody]
  | requestRefused ht hset =>
    right
    have hasked : (serve caller e (frame :: ch) back).asked =
        (frame.token, frame.call, frame.messageBody) ::ₘ (caller.asked +
          ↑((ofType .REQUEST ch).map Frame.item) + ↑(e.requestTasks.map RequestTask.item)) := by
      simp [-Multiset.coe_add, ← Multiset.cons_coe, serve, ofType_cons, ht, Frame.item]
    convert Exchange.Step.refuse hasked using 1
    simp [-Multiset.coe_add, -Multiset.cons_coe, serve, ofType_cons, coe_concat]
  | unhandled hq hp hi =>
    left
    simp [serve, ofType_cons, hq]
  | infoHandled ht =>
    left
    simp [serve, ofType_cons, ht]
  | responseTask ht hp =>
    left
    simp [serve, ofType_cons, ht]
  | responseIgnored ht hp =>
    left
    simp [serve, ofType_cons, ht]

theorem receive_server (caller : Endpoint I R) (ch back : List Frame)
    (h : Endpoint.Received platform e infoOutcome frame e' out) :
    Stays (exchange caller e (frame :: ch) back) (exchange caller (e'.recordSent out) ch (back ++ out)) := by
  rw [exchange_eq_serve, exchange_eq_serve]
  exact receive_serve (calling caller) ch back h

end Received

/-! ## The system -/

theorem numbered_start (infoHandler : Option I) (requestHandler : Option R) :
    Numbered (Endpoint.start infoHandler requestHandler) := by
  intro call hcall
  cases hcall

theorem numbered_act {platform : Platform} {mayWait : Bytes → Bool} {e e' : Endpoint I R}
    {a : Action I R} {out : List Frame} (hn : Numbered e) (h : Endpoint.Acted platform mayWait e a e' out) :
    Numbered (e'.recordSent out) := by
  cases h with
  | push hp =>
    intro call hcall
    have hcases : call ∈ (registeredCalls e.log).map Prod.fst ∨ call = e.calls := by simpa using hcall
    show call < e.calls + 1
    rcases hcases with hold | rfl
    · exact Nat.lt_succ_of_lt (hn call hold)
    · exact Nat.lt_succ_self _
  | _ =>
    intro call hcall
    exact hn call (by simpa using hcall)

theorem numbered_receive {platform : Platform} {e e' : Endpoint I R} {infoOutcome : Except Exn Unit}
    {frame : Frame} {out : List Frame} (hn : Numbered e)
    (h : Endpoint.Received platform e infoOutcome frame e' out) : Numbered (e'.recordSent out) := by
  cases h <;>
  · intro call hcall
    exact hn call (by simpa using hcall)

namespace System

/-- The exchange that the end `x` calls in. -/
def exchange (s : System I R) (x : Side) : Exchange.State UserReference Nat Bytes Bytes :=
  Communique.exchange (s.endpoint x) (s.endpoint x.peer) (s.channel x) (s.channel x.peer)

theorem exchange_peer (s : System I R) (x : Side) : s.exchange x.peer =
    Communique.exchange (s.endpoint x.peer) (s.endpoint x) (s.channel x.peer) (s.channel x) := by
  rw [exchange, Side.peer_peer]

/-- **One step of the system is at most one step of the exchange in each direction.** -/
theorem exchange_step {cfg : Config} {s t : System I R} {m : Move I R} (hn : ∀ x, Numbered (s.endpoint x))
    (h : Stepped cfg s m t) (y : Side) : Stays (s.exchange y) (t.exchange y) := by
  cases h with
  | @act x a e out h =>
    rcases Side.eq_or_eq_peer x y with rfl | rfl
    · rw [exchange, exchange, put_endpoint_self, put_endpoint_peer, put_channel_self, put_channel_peer]
      exact act_caller _ _ _ (hn y) h
    · rw [exchange_peer, exchange_peer, put_endpoint_self, put_endpoint_peer, put_channel_self,
        put_channel_peer]
      exact act_server _ _ _ h
  | @deliver x infoOutcome e out frame rest hc hidle h =>
    rcases Side.eq_or_eq_peer x y with rfl | rfl
    · rw [exchange, exchange, put_endpoint_self, put_endpoint_peer, put_channel_self, put_channel_peer,
        take_endpoint, take_channel_self, take_channel_of_peer, hc]
      exact receive_caller _ _ _ h
    · rw [exchange_peer, exchange_peer, put_endpoint_self, put_endpoint_peer, put_channel_self,
        put_channel_peer, take_endpoint, take_channel_self, take_channel_of_peer, hc]
      exact receive_server _ _ _ h

theorem numbered_step {cfg : Config} {s t : System I R} {m : Move I R}
    (hn : ∀ x, Numbered (s.endpoint x)) (h : Stepped cfg s m t) (y : Side) : Numbered (t.endpoint y) := by
  apply h.each_endpoint hn
  · intro x a e out hm ha
    exact numbered_act (hn x) ha
  · intro x infoOutcome frame e out hm hidle hr
    exact numbered_receive (hn x) hr

/-- In every reachable state, the exchanges of both directions keep the invariant of exchanges. -/
theorem Reachable.good {cfg : Config} {infoHandler : Side → Option I} {requestHandler : Side → Option R}
    {s : System I R} (h : Reachable cfg infoHandler requestHandler s) (x : Side) :
    Exchange.Good (s.exchange x) := by
  have hinv : (∀ x, Numbered (s.endpoint x)) ∧ ∀ x, Exchange.Good (s.exchange x) := by
    apply h.invariant (P := fun s => (∀ x, Numbered (s.endpoint x)) ∧ ∀ x, Exchange.Good (s.exchange x))
    · exact ⟨fun x => numbered_start _ _, fun x => Exchange.good_start⟩
    · intro s m t hs hst
      exact ⟨numbered_step hs.1 hst, fun x => good_of_stays (hs.2 x) (exchange_step hs.1 hst x)⟩
  exact hinv.2 x

end System

end Communique
