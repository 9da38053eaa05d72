import Communique.Protocol.Javascript
import Communique.Lib.Run
import Mathlib.Order.Bounds.Basic

/-!
# The JavaScript client on its page

None of the loop variables of `CommuniqueClient` is declared: they are global variables of the page, which the
other clients and the scripts of the page share. A function of the user may call `sendRequest` while
`handleMessage` runs it.

* `Globals`, `scan`, `searchRound`, `searchRounds` : the global variables and the loops that use them;
* `search_isLeast` : the search ends, whatever the variables held, with the least reference that is free;
* `Page`, `PageAction`, `step` : the client with its global variables and the functions of the user that run;
* `Stepped`, `step_cases` : what a step changes;
* `sendRequest_client`, `handleMessage_client` : the global variables make no difference to the handlers;
* `Fits`, `Accounted` : the invariants of the references and of the handlers;
* **`responses_routed`** : every response calls the handler that is stored under its reference;
* `Alike`, **`globals_do_not_matter`** : what the global variables hold, and who else writes them, changes nothing.
-/

namespace Communique
open Transition Text

variable {H : Type}

/-! ## The loops -/

/-- The global variables of the loops, and the handler that is called next. -/
structure Globals (H : Type) where
  newUserReference : Nat
  referenceIsUsed : Bool
  index : Nat
  handler : Option H

/-- The `for` loop of both methods over the entries from `index` on: it stops at the first one with the
reference. -/
def scan (userReference index : Nat) : List (Nat × H) → Nat
  | [] => index
  | entry :: entries => if entry.1 = userReference then index else scan userReference (index + 1) entries

/-- One round of the `while` loop. -/
def searchRound (responseHandlers : List (Nat × H)) (globals : Globals H) : Globals H :=
  let index := scan globals.newUserReference 0 responseHandlers
  if index < responseHandlers.length then
    { globals with index := index, referenceIsUsed := true, newUserReference := globals.newUserReference + 1 }
  else { globals with index := index, referenceIsUsed := false }

/-- The `while` loop, if it ends within the given number of rounds. -/
def searchRounds (responseHandlers : List (Nat × H)) : Nat → Globals H → Option (Globals H)
  | 0, globals => if globals.referenceIsUsed then none else some globals
  | rounds + 1, globals =>
    if globals.referenceIsUsed then searchRounds responseHandlers rounds (searchRound responseHandlers globals)
    else some globals

/-- The search of `sendRequest`, with one round more than there are handlers. -/
def search (responseHandlers : List (Nat × H)) (globals : Globals H) : Option (Globals H) :=
  searchRounds responseHandlers (responseHandlers.length + 1)
    { globals with newUserReference := 124, referenceIsUsed := true }

/-! ## The page -/

/-- An entry that was stored, with the frame that was given to `websocket.send`, or a call of a function on a
message with a reference. -/
inductive PageEvent (H : Type)
  | stored (entry : Nat × H) (frame : Option Bytes)
  | called (userReference : Nat) (callback : Callback H)

structure Page (H : Type) where
  globals : Globals H
  client : CommuniqueClient H
  /-- The functions of the user that `handleMessage` has called and that have not returned. -/
  running : List (Callback H)
  log : List (PageEvent H)

inductive PageAction (H : Type)
  | sendRequest (message : CodeUnits) (newHandler : H)
  | handleMessage (data : Bytes)
  /-- The function of the user returns, and `handleMessage` behind it. -/
  | returns
  /-- Another script of the page, or another client, writes the global variables. -/
  | overwrite (globals : Globals H)

namespace Page

def start (globals : Globals H) : Page H := ⟨globals, ⟨[]⟩, [], []⟩

def call (p : Page H) (userReference : Nat) (callback : Callback H) : Page H :=
  { p with running := callback :: p.running, log := p.log ++ [.called userReference callback] }

/-- The loop behind the search leaves the length of the message in `index`. -/
def sendRequest (p : Page H) (message : CodeUnits) (newHandler : H) : Option (Page H) :=
  (search p.client.responseHandlers p.globals).map fun globals =>
    { p with
      globals := { globals with index := message.length }
      client := ⟨p.client.responseHandlers ++ [(globals.newUserReference, newHandler)]⟩
      log := p.log ++ [.stored (globals.newUserReference, newHandler)
        (requestFrame globals.newUserReference message)] }

/-- What `handleMessage` does with a response. -/
def respond (p : Page H) (userReference : Nat) (message : CodeUnits) : Page H :=
  let index := scan userReference 0 p.client.responseHandlers
  match p.client.responseHandlers[index]? with
  | some (_, handler) =>
    { p with
      globals := { p.globals with index := index, handler := some handler }
      client := ⟨p.client.responseHandlers.eraseIdx index⟩ }.call userReference (.handler handler message)
  | none => { p with globals := { p.globals with index := index } }.call userReference .alert

/-- Data without a header throws, and another type is ignored. -/
def handleMessage (p : Page H) (data : Bytes) : Page H :=
  match decodeData data with
  | none => p
  | some (messageType, userReference, message) =>
    if isType messageType .INFO then p.call userReference (.oninfo message)
    else if isType messageType .REQUEST then p.call userReference (.onrequest message)
    else if isType messageType .RESPONSE then p.respond userReference message
    else p

/-- A message is delivered when no script runs; a request is sent by one that does. -/
def step (p : Page H) : PageAction H → Option (Page H)
  | .sendRequest message newHandler => p.sendRequest message newHandler
  | .handleMessage data => if p.running.isEmpty then some (p.handleMessage data) else none
  | .returns =>
    match p.running with
    | [] => none
    | _ :: running => some { p with running := running }
  | .overwrite globals => some { p with globals := globals }

end Page

/-! ## The search -/

theorem scan_eq (userReference index : Nat) (entries : List (Nat × H)) :
    scan userReference index entries = index + entries.findIdx fun entry => entry.1 == userReference := by
  induction entries generalizing index with
  | nil => rfl
  | cons entry entries ih =>
    rw [scan, List.findIdx_cons]
    by_cases h : entry.1 = userReference
    · rw [if_pos h, beq_iff_eq.mpr h]
      rfl
    · rw [if_neg h, beq_eq_false_iff_ne.mpr h, ih, cond_false]
      omega

/-- The loop from the start of the list is the search for the first entry. -/
theorem scan_zero (userReference : Nat) (responseHandlers : List (Nat × H)) :
    scan userReference 0 responseHandlers = responseHandlers.findIdx fun entry => entry.1 == userReference := by
  rw [scan_eq, Nat.zero_add]

theorem scan_lt_iff (userReference : Nat) (responseHandlers : List (Nat × H)) :
    scan userReference 0 responseHandlers < responseHandlers.length ↔
      userReference ∈ responseHandlers.map Prod.fst := by
  rw [scan_zero, List.findIdx_lt_length, List.mem_map]
  simp only [beq_iff_eq]

theorem searchRound_hit {responseHandlers : List (Nat × H)} {globals : Globals H}
    (h : globals.newUserReference ∈ responseHandlers.map Prod.fst) :
    (searchRound responseHandlers globals).referenceIsUsed = true ∧
      (searchRound responseHandlers globals).newUserReference = globals.newUserReference + 1 := by
  rw [searchRound, if_pos ((scan_lt_iff _ _).mpr h)]
  exact ⟨rfl, rfl⟩

theorem searchRound_miss {responseHandlers : List (Nat × H)} {globals : Globals H}
    (h : globals.newUserReference ∉ responseHandlers.map Prod.fst) :
    (searchRound responseHandlers globals).referenceIsUsed = false ∧
      (searchRound responseHandlers globals).newUserReference = globals.newUserReference := by
  rw [searchRound, if_neg fun hlt => h ((scan_lt_iff _ _).mp hlt)]
  exact ⟨rfl, rfl⟩

theorem searchRounds_of_unused {responseHandlers : List (Nat × H)} {globals : Globals H} (rounds : Nat)
    (h : globals.referenceIsUsed = false) :
    searchRounds responseHandlers rounds globals = some globals := by
  cases rounds with
  | zero => rw [searchRounds, h]; rfl
  | succ rounds => rw [searchRounds, h]; rfl

/-- Every round but the last one passes another used reference. -/
theorem searchRounds_eq (responseHandlers : List (Nat × H)) (rounds : Nat) {globals : Globals H}
    (hused : globals.referenceIsUsed = true)
    (hrounds : ((responseHandlers.map Prod.fst).filter (globals.newUserReference ≤ ·)).length < rounds) :
    ∃ globals', searchRounds responseHandlers rounds globals = some globals' ∧
      globals'.newUserReference = spareReference (responseHandlers.map Prod.fst) globals.newUserReference := by
  induction rounds generalizing globals with
  | zero => exact absurd hrounds (Nat.not_lt_zero _)
  | succ rounds ih =>
    rw [searchRounds, if_pos hused, spareReference]
    by_cases h : globals.newUserReference ∈ responseHandlers.map Prod.fst
    · obtain ⟨hused', hnext⟩ := searchRound_hit h
      have hlt := length_filter_succ_lt h
      rw [if_pos h, ← hnext]
      apply ih hused'
      rw [hnext]
      omega
    · obtain ⟨hused', hsame⟩ := searchRound_miss h
      rw [if_neg h]
      exact ⟨_, searchRounds_of_unused rounds hused', hsame⟩

theorem search_eq (responseHandlers : List (Nat × H)) (globals : Globals H) :
    ∃ globals', search responseHandlers globals = some globals' ∧
      globals'.newUserReference = spareReference (responseHandlers.map Prod.fst) 124 := by
  apply searchRounds_eq responseHandlers (responseHandlers.length + 1) rfl
  apply Nat.lt_succ_of_le
  rw [← List.length_map (f := Prod.fst)]
  apply List.length_filter_le

theorem spareReference_isLeast (used : List Nat) (n : Nat) :
    IsLeast {k | n ≤ k ∧ k ∉ used} (spareReference used n) :=
  ⟨⟨spareReference_ge used n, spareReference_not_mem used n⟩, fun _ hk => spareReference_le hk.1 hk.2⟩

/-- The search ends with the least reference that is free. -/
theorem search_isLeast (responseHandlers : List (Nat × H)) (globals : Globals H) :
    ∃ globals', search responseHandlers globals = some globals' ∧
      IsLeast {n | 124 ≤ n ∧ n ∉ responseHandlers.map Prod.fst} globals'.newUserReference := by
  obtain ⟨globals', hsearch, hreference⟩ := search_eq responseHandlers globals
  refine ⟨globals', hsearch, ?_⟩
  rw [hreference]
  exact spareReference_isLeast _ 124

namespace Page

/-! ## What a step changes -/

/-- The entry that an event stored. -/
def storedEntry : PageEvent H → Option (Nat × H)
  | .stored entry _ => some entry
  | .called _ _ => none

/-- The entry whose handler an event called. -/
def calledEntry : PageEvent H → Option (Nat × H)
  | .called userReference (.handler handler _) => some (userReference, handler)
  | _ => none

/-- What happened stores no entry and calls no handler. -/
def Silent (events : List (PageEvent H)) : Prop :=
  events.filterMap storedEntry = [] ∧ events.filterMap calledEntry = []

inductive Stepped (p : Page H) : Page H → Prop
  | stored {newHandler : H} {frame : Option Bytes} {globals : Globals H} (userReference : Nat)
      (h : userReference = spareReference (p.client.responseHandlers.map Prod.fst) 124) :
      Stepped p { p with
        globals := globals
        client := ⟨p.client.responseHandlers ++ [(userReference, newHandler)]⟩
        log := p.log ++ [.stored (userReference, newHandler) frame] }
  | answered {before after : List (Nat × H)} {handler : H} {globals : Globals H} (userReference : Nat)
      (message : CodeUnits) (h : p.client.responseHandlers = before ++ (userReference, handler) :: after) :
      Stepped p ({ p with globals := globals, client := ⟨before ++ after⟩ }.call userReference
        (.handler handler message))
  | other {globals : Globals H} {running : List (Callback H)} {events : List (PageEvent H)} (h : Silent events) :
      Stepped p ⟨globals, p.client, running, p.log ++ events⟩

/-- The outcomes of a response. -/
theorem respond_cases (p : Page H) (userReference : Nat) (message : CodeUnits) :
    (∃ before handler after globals, p.client.responseHandlers = before ++ (userReference, handler) :: after ∧
        p.respond userReference message =
          { p with globals := globals, client := ⟨before ++ after⟩ }.call userReference
            (.handler handler message)) ∨
      userReference ∉ p.client.responseHandlers.map Prod.fst ∧
        ∃ globals, p.respond userReference message = { p with globals := globals }.call userReference .alert := by
  unfold respond
  rw [scan_zero]
  dsimp only
  obtain ⟨before, handler, after, hentry, hl, herase⟩ | ⟨hentry, hmissing⟩ :=
    Javascript.findIdx_cases p.client.responseHandlers userReference
  · left
    rw [hentry, herase]
    exact ⟨before, handler, after, _, hl, rfl⟩
  · right
    rw [hentry]
    exact ⟨hmissing, _, rfl⟩

theorem stepped_of_silent {p : Page H} {callback : Callback H} (globals : Globals H) (userReference : Nat)
    (h : Silent [.called userReference callback]) :
    Stepped p ({ p with globals := globals }.call userReference callback) :=
  Stepped.other h

theorem handleMessage_cases (p : Page H) (data : Bytes) : Stepped p (p.handleMessage data) := by
  have hnothing : Stepped p p := by
    have h : Stepped p ⟨p.globals, p.client, p.running, p.log ++ []⟩ := Stepped.other ⟨rfl, rfl⟩
    rwa [List.append_nil] at h
  unfold handleMessage
  split
  · exact hnothing
  · next messageType userReference message hdata =>
    split
    · exact stepped_of_silent p.globals userReference ⟨rfl, rfl⟩
    · split
      · exact stepped_of_silent p.globals userReference ⟨rfl, rfl⟩
      · split
        · obtain ⟨before, handler, after, globals, hl, heq⟩ | ⟨-, globals, heq⟩ :=
            respond_cases p userReference message
          · rw [heq]
            exact Stepped.answered userReference message hl
          · rw [heq]
            exact stepped_of_silent globals userReference ⟨rfl, rfl⟩
        · exact hnothing

theorem step_cases {p q : Page H} {a : PageAction H} (h : p.step a = some q) : Stepped p q := by
  cases a with
  | sendRequest message newHandler =>
    obtain ⟨globals, hsearch, hreference⟩ := search_eq p.client.responseHandlers p.globals
    rw [step, sendRequest, hsearch, Option.map_some, Option.some.injEq] at h
    rw [← h]
    exact Stepped.stored globals.newUserReference hreference
  | handleMessage data =>
    obtain ⟨-, h⟩ := Option.ite_none_right_eq_some.mp h
    rw [← Option.some.inj h]
    exact handleMessage_cases p data
  | returns =>
    rw [step] at h
    split at h
    · cases h
    · rw [← Option.some.inj h, ← List.append_nil p.log]
      exact Stepped.other ⟨rfl, rfl⟩
  | overwrite globals =>
    rw [← Option.some.inj h, ← List.append_nil p.log]
    exact Stepped.other ⟨rfl, rfl⟩

/-! ## The client without the global variables -/

theorem sendRequest_client {p q : Page H} {message : CodeUnits} {newHandler : H}
    (h : p.sendRequest message newHandler = some q) : q.client = (p.client.sendRequest message newHandler).1 := by
  obtain ⟨globals, hsearch, hreference⟩ := search_eq p.client.responseHandlers p.globals
  rw [sendRequest, hsearch, Option.map_some, Option.some.injEq] at h
  rw [← h, CommuniqueClient.sendRequest, ← hreference]

theorem handleMessage_client (p : Page H) (data : Bytes) :
    (p.handleMessage data).client = ((p.client.handleMessage data).map Prod.fst).getD p.client := by
  unfold handleMessage CommuniqueClient.handleMessage
  cases decodeData data with
  | none => rfl
  | some decoded =>
    obtain ⟨messageType, userReference, message⟩ := decoded
    show _ = (p.client.dispatch messageType userReference message).1
    unfold CommuniqueClient.dispatch
    dsimp only
    split
    · rfl
    · split
      · rfl
      · split
        · unfold respond
          rw [scan_zero]
          dsimp only
          cases p.client.responseHandlers[
            p.client.responseHandlers.findIdx fun entry => entry.1 == userReference]? <;> rfl
        · rfl

/-! ## What holds in every run -/

/-- The references are different, and fit into the header of a message. -/
structure Fits (p : Page H) : Prop where
  nodup : (p.client.responseHandlers.map Prod.fst).Nodup
  lt : ∀ userReference ∈ p.client.responseHandlers.map Prod.fst, userReference < 2 ^ 32

/-- Every entry that was stored has had its handler called once, or is stored still. -/
def Accounted (p : Page H) : Prop :=
  (p.log.filterMap storedEntry).Perm (p.log.filterMap calledEntry ++ p.client.responseHandlers)

theorem Fits.step {p q : Page H} (h : p.Fits) (hstep : Stepped p q)
    (hfew : p.client.responseHandlers.length < 2 ^ 32 - 124) : q.Fits := by
  cases hstep with
  | stored userReference hreference =>
    have hnew := spareReference_not_mem (p.client.responseHandlers.map Prod.fst) 124
    have hle := spareReference_le_add (p.client.responseHandlers.map Prod.fst) 124
    rw [← hreference] at hnew hle
    rw [List.length_map] at hle
    constructor
    · rw [List.map_append, List.map_singleton]
      apply h.nodup.append (List.nodup_singleton _)
      rw [List.disjoint_singleton]
      exact hnew
    · rw [List.map_append, List.forall_mem_append]
      refine ⟨h.lt, fun r hr => ?_⟩
      obtain rfl := List.mem_singleton.mp hr
      omega
  | @answered before after handler globals userReference message hl =>
    have hsub : ((before ++ after).map Prod.fst).Sublist (p.client.responseHandlers.map Prod.fst) := by
      rw [hl]
      apply List.Sublist.map
      exact List.Sublist.append (List.Sublist.refl before) (List.sublist_cons_self _ after)
    exact ⟨h.nodup.sublist hsub, fun r hr => h.lt r (hsub.subset hr)⟩
  | other => exact ⟨h.nodup, h.lt⟩

theorem Accounted.step {p q : Page H} (h : p.Accounted) (hstep : Stepped p q) : q.Accounted := by
  unfold Accounted at *
  cases hstep with
  | @stored newHandler frame globals userReference hreference =>
    simp only [List.filterMap_append, List.append_nil, List.filterMap_cons, List.filterMap_nil, storedEntry,
      calledEntry]
    rw [← List.append_assoc]
    exact h.append_right _
  | @answered before after handler globals userReference message hl =>
    simp only [call, List.filterMap_append, List.append_nil, List.filterMap_cons, List.filterMap_nil, storedEntry,
      calledEntry]
    rw [hl] at h
    apply h.trans
    rw [List.append_assoc, List.singleton_append]
    exact List.Perm.append_left _ List.perm_middle
  | other hsilent =>
    rw [List.filterMap_append, List.filterMap_append, hsilent.1, hsilent.2, List.append_nil, List.append_nil]
    exact h

/-! ## Responses -/

/-- A response calls the handler that is stored under its reference, once, and no other, and removes the entry
and no other; without an entry there is only an alert. -/
def Routes (p : Page H) : Prop :=
  ∀ data messageType userReference message, decodeData data = some (messageType, userReference, message) →
    isType messageType .RESPONSE →
      (∀ handler, (userReference, handler) ∈ p.client.responseHandlers → ∃ q before after,
        p.step (.handleMessage data) = some q ∧
          p.client.responseHandlers = before ++ (userReference, handler) :: after ∧
          q.client.responseHandlers = before ++ after ∧
          q.log = p.log ++ [.called userReference (.handler handler message)] ∧
          q.running = [.handler handler message]) ∧
      (userReference ∉ p.client.responseHandlers.map Prod.fst → ∃ q, p.step (.handleMessage data) = some q ∧
        q.client = p.client ∧ q.log = p.log ++ [.called userReference .alert])

theorem handleMessage_response (p : Page H) {data : Bytes} {messageType userReference : Nat} {message : CodeUnits}
    (hdata : decodeData data = some (messageType, userReference, message)) (htype : isType messageType .RESPONSE) :
    p.handleMessage data = p.respond userReference message := by
  obtain rfl : messageType = MessageType.RESPONSE.toChar.toNat := htype
  rw [handleMessage, hdata]
  rfl

theorem Fits.routes {p : Page H} (h : p.Fits) (hidle : p.running = []) : p.Routes := by
  intro data messageType userReference message hdata htype
  have hstep : p.step (.handleMessage data) = some (p.respond userReference message) := by
    rw [Page.step, hidle, handleMessage_response p hdata htype]
    rfl
  rw [hstep]
  obtain ⟨before, handler, after, globals, hl, heq⟩ | ⟨hmissing, globals, heq⟩ :=
    respond_cases p userReference message
  · rw [heq]
    have hentry : (userReference, handler) ∈ p.client.responseHandlers := by
      rw [hl]
      exact List.mem_append_right _ List.mem_cons_self
    constructor
    · intro handler' hmem
      have hsame := List.inj_on_of_nodup_map h.nodup hmem hentry rfl
      obtain rfl : handler' = handler := congrArg Prod.snd hsame
      refine ⟨_, before, after, rfl, hl, rfl, rfl, ?_⟩
      rw [call, hidle]
    · intro hmissing
      exact absurd (List.mem_map_of_mem hentry) hmissing
  · rw [heq]
    constructor
    · intro handler hmem
      exact absurd (List.mem_map_of_mem hmem) hmissing
    · intro _
      exact ⟨_, rfl, rfl, rfl⟩

/-- **The allocator ends with the least free reference, and responses are routed by it.** The search ends on every
list of handlers, whatever the global variables held. In every run with fewer than `2 ^ 32 - 124` handlers
outstanding at once the references are different and fit into 32 bits, every stored handler has been called once
or is stored still, and a response calls the handler under its reference. -/
theorem responses_routed :
    (∀ (responseHandlers : List (Nat × H)) (globals : Globals H), ∃ globals',
        search responseHandlers globals = some globals' ∧
          IsLeast {n | 124 ≤ n ∧ n ∉ responseHandlers.map Prod.fst} globals'.newUserReference) ∧
      ∀ (globals : Globals H) actions p, Run (ofFun step) (start globals) actions p →
        (∀ q, Passes (ofFun step) (start globals) actions p q →
          q.client.responseHandlers.length < 2 ^ 32 - 124) →
        p.Fits ∧ p.Accounted ∧ (p.running = [] → p.Routes) := by
  refine ⟨search_isLeast, ?_⟩
  intro globals actions p hrun hfew
  have hstart : (start globals).Fits ∧ (start globals).Accounted :=
    ⟨⟨List.nodup_nil, by simp [start]⟩, List.Perm.refl _⟩
  have hinv : p.Fits ∧ p.Accounted := by
    refine hrun.invariant_takes (P := fun p => p.Fits ∧ p.Accounted) hstart ?_
    rintro q a q' ⟨as, bs, rfl, has, hstep, hbs⟩ ⟨hfits, haccounted⟩
    have hpasses : Passes (ofFun step) (start globals) (as ++ a :: bs) p q := ⟨as, a :: bs, rfl, has, hbs.cons hstep⟩
    exact ⟨hfits.step (step_cases hstep) (hfew q hpasses), haccounted.step (step_cases hstep)⟩
  exact ⟨hinv.1, hinv.2, hinv.1.routes⟩

/-- Each step stores one entry at most. -/
theorem length_le_of_run {p q : Page H} {actions : List (PageAction H)} (h : Run (ofFun step) p actions q) :
    q.client.responseHandlers.length ≤ p.client.responseHandlers.length + actions.length := by
  induction h with
  | nil => exact Nat.le_refl _
  | @snoc q q' as a run hstep ih =>
    have hone : q'.client.responseHandlers.length ≤ q.client.responseHandlers.length + 1 := by
      cases step_cases hstep with
      | stored userReference h => exact Nat.le_of_eq (List.length_append ..)
      | @answered before after handler globals userReference message hl =>
        rw [hl]
        simp only [call, List.length_append, List.length_cons]
        omega
      | other h => exact Nat.le_succ _
    rw [List.length_append, List.length_singleton]
    omega

/-- The handler of the first request sends another one, which is given the reference that has become free. -/
theorem responses_routed_nested :
    ∃ p : Page Nat, Run (ofFun step) (start ⟨7, false, 3, none⟩) [.sendRequest [] 0, .sendRequest [] 1,
        .handleMessage (wire .RESPONSE 124 []), .sendRequest [] 2, .returns] p ∧
      p.client.responseHandlers = [(125, 1), (124, 2)] ∧ p.Fits ∧ p.Accounted ∧ p.Routes := by
  obtain ⟨p, hexec, hidle, hhandlers⟩ : ∃ p : Page Nat, exec step (start ⟨7, false, 3, none⟩) [.sendRequest [] 0,
      .sendRequest [] 1, .handleMessage (wire .RESPONSE 124 []), .sendRequest [] 2, .returns] = some p ∧
        p.running = [] ∧ p.client.responseHandlers = [(125, 1), (124, 2)] := ⟨_, rfl, rfl, rfl⟩
  have hrun := run_of_exec hexec
  obtain ⟨hfits, haccounted, hroutes⟩ := responses_routed.2 _ _ p hrun (by
    rintro q ⟨as, bs, happend, has, -⟩
    have hle := length_le_of_run has
    have hlength := congrArg List.length happend
    simp only [start, List.length_nil, List.length_cons, List.length_append] at hle hlength
    omega)
  exact ⟨p, hrun, hhandlers, hfits, haccounted, hroutes hidle⟩

/-! ## The global variables and the others who write them -/

/-- The pages differ in the global variables only. -/
structure Alike (p q : Page H) : Prop where
  client : q.client = p.client
  running : q.running = p.running
  log : q.log = p.log

def PageAction.isOverwrite : PageAction H → Bool
  | .overwrite _ => true
  | _ => false

theorem Alike.call {p q : Page H} (h : Alike p q) (userReference : Nat) (callback : Callback H) :
    Alike (p.call userReference callback) (q.call userReference callback) := by
  obtain ⟨hclient, hrunning, hlog⟩ := h
  refine ⟨hclient, ?_, ?_⟩
  · show callback :: q.running = callback :: p.running
    rw [hrunning]
  · show q.log ++ _ = p.log ++ _
    rw [hlog]

/-- Both pages find the same entry, since the loop starts from 0. -/
theorem Alike.respond {p q : Page H} (h : Alike p q) (userReference : Nat) (message : CodeUnits) :
    Alike (p.respond userReference message) (q.respond userReference message) := by
  have hupdated : ∀ (globals globals' : Globals H) (client : CommuniqueClient H),
      Alike { p with globals := globals, client := client } { q with globals := globals', client := client } :=
    fun _ _ _ => ⟨rfl, h.running, h.log⟩
  have hindexed : ∀ globals globals' : Globals H,
      Alike { p with globals := globals } { q with globals := globals' } :=
    fun _ _ => ⟨h.client, h.running, h.log⟩
  unfold Page.respond
  rw [h.client]
  dsimp only
  split
  · exact (hupdated _ _ _).call userReference _
  · have hnone := (hindexed { p.globals with index := scan userReference 0 p.client.responseHandlers }
      { q.globals with index := scan userReference 0 p.client.responseHandlers }).call userReference .alert
    rwa [h.client] at hnone

theorem Alike.handleMessage {p q : Page H} (h : Alike p q) (data : Bytes) :
    Alike (p.handleMessage data) (q.handleMessage data) := by
  unfold Page.handleMessage
  split
  · exact h
  · next messageType userReference message hdata =>
    split_ifs
    · exact h.call userReference _
    · exact h.call userReference _
    · exact h.respond userReference message
    · exact h

/-- What the client does is not decided by the global variables. -/
theorem Alike.step {p p' q : Page H} {a : PageAction H} (h : Alike p q) (hstep : p.step a = some p') :
    if PageAction.isOverwrite a then Alike p' q else ∃ q', q.step a = some q' ∧ Alike p' q' := by
  cases a with
  | sendRequest message newHandler =>
    obtain ⟨globals, hsearch, hreference⟩ := search_eq p.client.responseHandlers p.globals
    obtain ⟨globals', hsearch', hreference'⟩ := search_eq q.client.responseHandlers q.globals
    rw [Page.step, sendRequest, hsearch, Option.map_some, Option.some.injEq] at hstep
    subst hstep
    have hsame : globals'.newUserReference = globals.newUserReference := by
      rw [hreference', hreference, h.client]
    refine ⟨_, by rw [Page.step, sendRequest, hsearch', Option.map_some], ?_⟩
    constructor
    · dsimp only
      rw [hsame, h.client]
    · exact h.running
    · dsimp only
      rw [hsame, h.log]
  | handleMessage data =>
    obtain ⟨hidle, hstep⟩ := Option.ite_none_right_eq_some.mp hstep
    cases hstep
    refine ⟨_, ?_, h.handleMessage data⟩
    rw [Page.step, h.running]
    exact if_pos hidle
  | returns =>
    rw [Page.step] at hstep
    split at hstep
    · cases hstep
    · next callback running hrunning =>
      cases hstep
      have hrunning' : q.running = callback :: running := h.running.trans hrunning
      refine ⟨{ q with running := running }, ?_, h.client, rfl, h.log⟩
      rw [Page.step, hrunning']
  | overwrite globals =>
    cases hstep
    exact ⟨h.client, h.running, h.log⟩

/-- **The undeclared loop variables do no harm**: whatever they hold at first, and whatever other clients and scripts
write to them between the actions of this client, it does what it would do with variables of its own. -/
theorem globals_do_not_matter {globals : Globals H} {actions : List (PageAction H)} {p : Page H}
    (h : Run (ofFun step) (start globals) actions p) (globals' : Globals H) :
    ∃ q, Run (ofFun step) (start globals') (actions.filter fun a => !PageAction.isOverwrite a) q ∧ Alike p q := by
  induction h with
  | nil => exact ⟨start globals', Run.nil _, rfl, rfl, rfl⟩
  | @snoc p₁ p₂ actions a run hstep ih =>
    obtain ⟨q, hrun, halike⟩ := ih
    have hnext := halike.step hstep
    rw [List.filter_append]
    by_cases ha : PageAction.isOverwrite a = true
    · rw [if_pos ha] at hnext
      refine ⟨q, ?_, hnext⟩
      rw [List.filter_cons_of_neg (by simpa using ha)]
      simpa using hrun
    · rw [if_neg ha] at hnext
      obtain ⟨q', hq', halike'⟩ := hnext
      refine ⟨q', ?_, halike'⟩
      rw [List.filter_cons_of_pos (by simpa using ha)]
      exact hrun.snoc hq'

/-- Another client writes the variables while a request is open. -/
theorem globals_do_not_matter_nested :
    ∃ p q : Page Nat, Run (ofFun step) (start ⟨7, false, 3, none⟩) [.sendRequest [] 0,
        .overwrite ⟨125, true, 9, some 4⟩, .sendRequest [] 1, .handleMessage (wire .RESPONSE 124 [])] p ∧
      Run (ofFun step) (start ⟨0, true, 0, none⟩) [.sendRequest [] 0, .sendRequest [] 1,
        .handleMessage (wire .RESPONSE 124 [])] q ∧ Alike p q := by
  obtain ⟨p, hexec⟩ : ∃ p : Page Nat, exec step (start ⟨7, false, 3, none⟩) [.sendRequest [] 0,
      .overwrite ⟨125, true, 9, some 4⟩, .sendRequest [] 1, .handleMessage (wire .RESPONSE 124 [])] = some p :=
    ⟨_, rfl⟩
  have hrun := run_of_exec hexec
  obtain ⟨q, hq, halike⟩ := globals_do_not_matter hrun ⟨0, true, 0, none⟩
  exact ⟨p, q, hrun, hq, halike⟩

end Page

end Communique
