import Communique.Protocol.Ledger

/-!
# What response handlers are run on, and what stays in the table

* **`responses_reach_their_requests`** : a response handler is run at most once, on the string that the
  request handler of the other end returned for the body of the same call, and no response finds its
  handler missing;
* **`unanswered_iff_no_error`** : the table holds exactly the unanswered calls until an error comes back.
-/

namespace Communique
open Transition

variable {I R : Type}

/-! ## Reading the log -/

/-- A projection of the log has what stands for an event if and only if the log has that event. -/
theorem mem_projection {α : Type} {f : Event → Option α} {log : List Event} {event : Event} {a : α}
    (hf : f event = some a) (honly : ∀ other, f other = some a → other = event) :
    a ∈ log.filterMap f ↔ event ∈ log := by
  rw [List.mem_filterMap]
  constructor
  · rintro ⟨other, hmem, heq⟩
    rw [← honly other heq]
    exact hmem
  · intro hmem
    exact ⟨event, hmem, hf⟩

theorem mem_registeredCalls {log : List Event} {call : Nat} {message : Bytes} :
    (call, message) ∈ registeredCalls log ↔ .registered call message ∈ log := by
  refine mem_projection rfl fun other h => ?_
  cases other <;> cases h
  rfl

theorem mem_invokedHandlers {log : List Event} {call : Nat} {messageBody : Bytes} :
    (call, messageBody) ∈ invokedHandlers log ↔ .invoked call messageBody ∈ log := by
  refine mem_projection rfl fun other h => ?_
  cases other <;> cases h
  rfl

theorem mem_returnedResponses {log : List Event} {call : Nat} {messageBody response : Bytes} :
    (call, messageBody, response) ∈ returnedResponses log ↔
      .returned call messageBody (.ok response) ∈ log := by
  refine mem_projection rfl fun other h => ?_
  cases other with
  | returned call' messageBody' outcome =>
    cases outcome <;> cases h
    rfl
  | _ => cases h

theorem mem_deliveredFrames {log : List Event} {frame : Frame} :
    frame ∈ deliveredFrames log ↔ .delivered frame ∈ log := by
  refine mem_projection rfl fun other h => ?_
  cases other <;> cases h
  rfl

theorem mem_sentFrames {log : List Event} {frame : Frame} :
    frame ∈ sentFrames log ↔ .sent frame ∈ log := by
  refine mem_projection rfl fun other h => ?_
  cases other <;> cases h
  rfl

theorem mem_ofType {type : MessageType} {frames : List Frame} {frame : Frame} :
    frame ∈ ofType type frames ↔ frame ∈ frames ∧ frame.type = some type := by
  rw [ofType, List.mem_filter, decide_eq_true_iff]

theorem mem_map_delivered {α : Type} {f : Frame → α} {type : MessageType} {log : List Event} {a : α} :
    a ∈ (ofType type (deliveredFrames log)).map f ↔
      ∃ frame, .delivered frame ∈ log ∧ f frame = a ∧ frame.type = some type := by
  rw [List.mem_map]
  constructor
  · rintro ⟨frame, hmem, heq⟩
    obtain ⟨hmem, ht⟩ := mem_ofType.mp hmem
    exact ⟨frame, mem_deliveredFrames.mp hmem, heq, ht⟩
  · rintro ⟨frame, hmem, heq, ht⟩
    exact ⟨frame, mem_ofType.mpr ⟨mem_deliveredFrames.mpr hmem, ht⟩, heq⟩

theorem ofType_delivered_eq_nil {type : MessageType} {log : List Event} :
    ofType type (deliveredFrames log) = [] ↔ ∀ frame, .delivered frame ∈ log → frame.type ≠ some type := by
  rw [List.eq_nil_iff_forall_not_mem]
  constructor
  · intro hnone frame hmem ht
    exact hnone frame (mem_ofType.mpr ⟨mem_deliveredFrames.mpr hmem, ht⟩)
  · intro hnone frame hmem
    obtain ⟨hmem, ht⟩ := mem_ofType.mp hmem
    exact hnone frame (mem_deliveredFrames.mp hmem) ht

namespace System
variable {cfg : Config} {infoHandler : Side → Option I} {requestHandler : Side → Option R}
  {s : System I R}

/-! ## Responses -/

/-- **Every response reaches the handler of its own request.** In every reachable state: a response handler
was run at most once; the body it was run on is the one string that the request handler of the other end
returned for that call, called on the one body that the call was registered with; and no response was
ignored because its handler was missing. -/
theorem responses_reach_their_requests (h : Reachable cfg infoHandler requestHandler s) (x : Side) :
    let mine := (s.endpoint x).log
    let theirs := (s.endpoint x.peer).log
    (∀ call, ((invokedHandlers mine).map Prod.fst).count call ≤ 1) ∧
      (∀ call r, .invoked call r ∈ mine → ∃ message,
        .registered call message ∈ mine ∧ .returned call message (.ok r) ∈ theirs ∧
          (∀ message', .registered call message' ∈ mine → message' = message) ∧
          ∀ message' r', .returned call message' (.ok r') ∈ theirs → r' = r) ∧
      ∀ messageBody, .ignored messageBody ∉ mine := by
  intro mine theirs
  have hgood := h.good x
  refine ⟨fun call => ?_, fun call r hr => ?_, fun messageBody hmem => ?_⟩
  · have hnodup : ((invokedHandlers mine).map Prod.fst).Nodup := hgood.invoked_nodup
    exact List.nodup_iff_count_le_one.mp hnodup call
  · have hinv : (call, r) ∈ (s.exchange x).invoked := mem_invokedHandlers.mpr hr
    obtain ⟨message, hreg, hret⟩ := hgood.origin call r (Multiset.mem_add.mpr (Or.inr hinv))
    refine ⟨message, mem_registeredCalls.mp hreg, mem_returnedResponses.mp hret, ?_, ?_⟩
    · intro message' hreg'
      exact hgood.registered_unique (mem_registeredCalls.mpr hreg') hreg
    · intro message' r' hret'
      exact hgood.returned_unique (mem_returnedResponses.mpr hret') hret
  · have hzero : (ignoredResponses mine).length = 0 := hgood.dropped
    have hnone := List.eq_nil_of_length_eq_zero hzero
    have hmem' : messageBody ∈ ignoredResponses mine := List.mem_filterMap.mpr ⟨_, hmem, rfl⟩
    rw [hnone] at hmem'
    exact List.not_mem_nil hmem'

/-- Both hosts are little-endian, the io threads wait for their tasks, no handler waits. -/
def plain : Config := ⟨fun _ => ⟨.little, []⟩, true, fun _ _ => false⟩

/-- `A` has two requests outstanding, of which the second is sent first, and `B` one under a token of the same
number; either sends an info as well. `B` returns 7 to the body 6 and 9 to the body 5, `A` returns 4 to the body 8. -/
def bothWays : List (Move Unit Unit) :=
  [.act .A (.push [5]), .act .A (.push [6]), .act .B (.push [8]), .act .B (.send 0), .act .A (.send 1),
    .act .A (.sendInfo [1]), .act .A (.send 0), .act .B (.sendInfo [2]), .deliver .B (.ok ()), .act .B (.start 0),
    .deliver .A (.ok ()), .act .B (.finish 0 (.ok [7])), .act .A (.start 0), .deliver .B (.ok ()),
    .deliver .B (.ok ()), .act .B (.start 0), .act .B (.finish 0 (.ok [9])), .act .A (.finish 0 (.ok [4])),
    .deliver .A (.ok ()), .deliver .A (.ok ()), .act .A (.invoke 0), .deliver .B (.ok ()), .deliver .A (.ok ()),
    .act .B (.invoke 0), .act .A (.invoke 0)]

/-- Each response reaches its own call, whatever overtook what. -/
theorem responses_reach_both_ways :
    ∃ s, Reachable plain (fun _ => some ()) (fun _ => some ()) s ∧
      invokedHandlers (s.endpoint .A).log = [(1, [7]), (0, [9])] ∧
      invokedHandlers (s.endpoint .B).log = [(0, [4])] ∧
      .returned 0 [5] (.ok [9]) ∈ (s.endpoint .B).log ∧ .returned 1 [6] (.ok [7]) ∈ (s.endpoint .B).log ∧
      .returned 0 [8] (.ok [4]) ∈ (s.endpoint .A).log := by
  have hrun : (exec (step plain) (start (fun _ => some ()) fun _ => some ()) bothWays).map
      (fun s => decide (invokedHandlers (s.endpoint .A).log = [(1, [7]), (0, [9])] ∧
        invokedHandlers (s.endpoint .B).log = [(0, [4])] ∧
        registeredCalls (s.endpoint .A).log = [(0, [5]), (1, [6])] ∧
        registeredCalls (s.endpoint .B).log = [(0, [8])])) = some true := by decide
  obtain ⟨s, hs, hlogs⟩ := Option.map_eq_some_iff.mp hrun
  obtain ⟨hA, hB, hcallsA, hcallsB⟩ := of_decide_eq_true hlogs
  have hreach := reachable_of_exec hs
  have hreturned : ∀ (x : Side) call r body, (call, r) ∈ invokedHandlers (s.endpoint x).log →
      (call, body) ∈ registeredCalls (s.endpoint x).log → .returned call body (.ok r) ∈ (s.endpoint x.peer).log := by
    intro x call r body hinvoked hregistered
    obtain ⟨message, -, hret, honly, -⟩ :=
      (responses_reach_their_requests hreach x).2.1 call r (mem_invokedHandlers.mp hinvoked)
    rwa [honly body (mem_registeredCalls.mp hregistered)]
  refine ⟨s, hreach, hA, hB, ?_, ?_, ?_⟩
  · exact hreturned .A 0 [9] [5] (by rw [hA]; decide) (by rw [hcallsA]; decide)
  · exact hreturned .A 1 [7] [6] (by rw [hA]; decide) (by rw [hcallsA]; decide)
  · exact hreturned .B 0 [4] [8] (by rw [hB]; decide) (by rw [hcallsB]; decide)

/-! ## The table -/

/-- The end has the response handler of the call in its table. -/
def Stored (e : Endpoint I R) (call : Nat) : Prop :=
  ∃ token, (token, call) ∈ e.connection.responseHandlers.container

/-- The answer to the call, of either kind, has been delivered to the end. -/
def AnswerDelivered (e : Endpoint I R) (call : Nat) : Prop :=
  ∃ frame, .delivered frame ∈ e.log ∧ frame.call = call ∧
    (frame.type = some .RESPONSE ∨ frame.type = some .REQUESTERROR)

/-- What the table is for: it holds the handlers of the unanswered calls, and is empty at the end. -/
def TableExact (s : System I R) : Prop :=
  (∀ x call, Stored (s.endpoint x) call ↔
      (∃ message, .registered call message ∈ (s.endpoint x).log) ∧ ¬ AnswerDelivered (s.endpoint x) call) ∧
    (Quiescent s → ∀ x, (s.endpoint x).connection.responseHandlers.container = [])

theorem stored_iff {x : Side} {call : Nat} :
    Stored (s.endpoint x) call ↔ call ∈ (s.exchange x).table.map Prod.snd := by
  rw [Multiset.mem_map]
  constructor
  · rintro ⟨token, hmem⟩
    exact ⟨(token, call), hmem, rfl⟩
  · rintro ⟨p, hmem, rfl⟩
    exact ⟨p.1, hmem⟩

theorem registered_iff {x : Side} {call : Nat} :
    (∃ message, .registered call message ∈ (s.endpoint x).log) ↔
      call ∈ (s.exchange x).registered.map Prod.fst := by
  rw [Multiset.mem_map]
  constructor
  · rintro ⟨message, hmem⟩
    exact ⟨(call, message), mem_registeredCalls.mpr hmem, rfl⟩
  · rintro ⟨p, hmem, rfl⟩
    exact ⟨p.2, mem_registeredCalls.mp hmem⟩

theorem answerDelivered_iff {x : Side} {call : Nat} :
    AnswerDelivered (s.endpoint x) call ↔
      call ∈ (s.exchange x).accepted ∨ call ∈ (s.exchange x).abandoned.map Prod.snd := by
  have haccepted : call ∈ (s.exchange x).accepted ↔ ∃ frame,
      .delivered frame ∈ (s.endpoint x).log ∧ frame.call = call ∧ frame.type = some .RESPONSE :=
    mem_map_delivered
  have habandoned : call ∈ (s.exchange x).abandoned.map Prod.snd ↔ ∃ frame,
      .delivered frame ∈ (s.endpoint x).log ∧ frame.call = call ∧ frame.type = some .REQUESTERROR := by
    show call ∈ ((ofType .REQUESTERROR (deliveredFrames (s.endpoint x).log)).map Frame.key).map Prod.snd ↔ _
    rw [List.map_map]
    exact mem_map_delivered
  rw [haccepted, habandoned, AnswerDelivered]
  constructor
  · rintro ⟨frame, hmem, hcall, ht | ht⟩
    · exact Or.inl ⟨frame, hmem, hcall, ht⟩
    · exact Or.inr ⟨frame, hmem, hcall, ht⟩
  · rintro (⟨frame, hmem, hcall, ht⟩ | ⟨frame, hmem, hcall, ht⟩)
    · exact ⟨frame, hmem, hcall, Or.inl ht⟩
    · exact ⟨frame, hmem, hcall, Or.inr ht⟩

theorem abandoned_eq_zero {x : Side} : (s.exchange x).abandoned = 0 ↔
    ∀ frame, .delivered frame ∈ (s.endpoint x).log → frame.type ≠ some .REQUESTERROR := by
  show (↑((ofType .REQUESTERROR (deliveredFrames (s.endpoint x).log)).map Frame.key) :
    Multiset (UserReference × Nat)) = 0 ↔ _
  rw [Multiset.coe_eq_zero, List.map_eq_nil_iff]
  exact ofType_delivered_eq_nil

/-- **The table is exact as long as no error comes back, and no longer.** In every reachable state the
table holds exactly the handlers of the unanswered calls, and nothing once everything is over, if and only
if no REQUESTERROR has been delivered to either end. -/
theorem unanswered_iff_no_error (h : Reachable cfg infoHandler requestHandler s) :
    TableExact s ↔
      ∀ x frame, .delivered frame ∈ (s.endpoint x).log → frame.type ≠ some .REQUESTERROR := by
  have hiff : ∀ x, (∀ call, Stored (s.endpoint x) call ↔
      (∃ message, .registered call message ∈ (s.endpoint x).log) ∧
        ¬ AnswerDelivered (s.endpoint x) call) ↔ (s.exchange x).abandoned = 0 := by
    intro x
    rw [← (h.good x).stored_iff_unanswered]
    apply forall_congr'
    intro call
    rw [stored_iff, registered_iff, answerDelivered_iff, not_or]
  constructor
  · intro hexact x
    exact abandoned_eq_zero.mp ((hiff x).mp (hexact.1 x))
  · intro hnone
    have hzero : ∀ x, (s.exchange x).abandoned = 0 := fun x => abandoned_eq_zero.mpr (hnone x)
    refine ⟨fun x => (hiff x).mpr (hzero x), fun hq x => ?_⟩
    obtain ⟨hch, hsending, -⟩ := hq x
    obtain ⟨hch', -, hidle'⟩ := hq x.peer
    have htable := (h.good x).table_eq_abandoned
      (by simp [exchange, Communique.exchange, hch, hsending, hidle'.1])
      (by simp [exchange, Communique.exchange, hch'])
      (by simp [exchange, Communique.exchange, hch'])
    rw [hzero x] at htable
    exact (Multiset.coe_eq_zero _).mp htable

/-- `A` sends a request with the body 5, and `B` returns 7. -/
def oneRequest : List (Move Unit Unit) :=
  [.act .A (.push [5]), .act .A (.send 0), .deliver .B (.ok ()), .act .B (.start 0),
    .act .B (.finish 0 (.ok [7])), .deliver .A (.ok ()), .act .A (.invoke 0)]

theorem unanswered_after_response :
    ∃ s, Reachable plain (fun _ => some ()) (fun _ => some ()) s ∧ TableExact s := by
  have hrun : (exec (step plain) (start (fun _ => some ()) fun _ => some ()) oneRequest).map
      (fun s => ((deliveredFrames (s.endpoint .A).log).map Frame.type,
        (deliveredFrames (s.endpoint .B).log).map Frame.type)) =
      some ([some .RESPONSE], [some .REQUEST]) := by decide
  obtain ⟨s, hs, hlog⟩ := Option.map_eq_some_iff.mp hrun
  obtain ⟨hA, hB⟩ := Prod.mk.inj hlog
  have hreach := reachable_of_exec hs
  refine ⟨s, hreach, (unanswered_iff_no_error hreach).mpr fun x frame hmem => ?_⟩
  have htype : frame.type ∈ (deliveredFrames (s.endpoint x).log).map Frame.type :=
    List.mem_map_of_mem (mem_deliveredFrames.mpr hmem)
  cases x with
  | A =>
    rw [hA, List.mem_singleton] at htype
    rw [htype]
    decide
  | B =>
    rw [hB, List.mem_singleton] at htype
    rw [htype]
    decide

/-- `B` has no request handler: its answer is an error, and `A` keeps the response handler for good. -/
theorem table_keeps_refused_request :
    ¬ ∀ s : System Unit Unit, Reachable plain (fun _ => some ()) (fun _ => none) s → TableExact s := by
  intro hall
  have hrun : (exec (step plain) (start (fun _ => some ()) fun _ => (none : Option Unit))
      [.act .A (.push [5]), .act .A (.send 0), .deliver .B (.ok ()), .deliver .A (.ok ())]).map
      (fun s => (decide s.Quiescent, (s.endpoint .A).connection.responseHandlers.container)) =
      some (true, [(0, 0)]) := by decide
  obtain ⟨s, hs, hend⟩ := Option.map_eq_some_iff.mp hrun
  obtain ⟨hq, htable⟩ := Prod.mk.inj hend
  have hempty := (hall s (reachable_of_exec hs)).2 (of_decide_eq_true hq) .A
  rw [htable] at hempty
  cases hempty

end System

end Communique
