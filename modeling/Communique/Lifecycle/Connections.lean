import Communique.Lifecycle.Server
import Mathlib.Data.List.Induction

/-!
# The connections of a server

websocketpp calls `on_open` and `on_close`, and any thread may ask for the current connections; each of the three
holds the mutex of the list. `on_close` also comes for connections that never opened.

* `currentHdls` : what `Server::currentConnections()` returns, each connection as its handle;
* `ConnectionEvent`, `handle`, `handleAll` : the calls in the order in which they get the mutex;
* `openAfter` : the connections that are opened and not closed afterwards, told from the calls alone;
* `on_close_eq` : closing takes one connection out of the list and leaves the others as they are;
* **`currentConnections_exact`** : the list and all that is read of it are exact;
* `currentHdls_of_run` : in every life of a server it is.
-/

namespace Communique
open Transition

variable {I R H : Type}

/-- A call that changes or reads the list of connections. -/
inductive ConnectionEvent
  | on_open (hdl : Nat)
  | on_close (hdl : Nat)
  | currentConnections
  deriving DecidableEq

/-- A server, and what `Server::currentConnections()` has returned. -/
structure Observed (I R H : Type) where
  server : Server I R H
  snapshots : List (List Nat)

namespace Server

/-- `Server::currentConnections()`, and the list itself: the connections by their handles. -/
def currentHdls (s : Server I R H) : List Nat := s.currentConnections.map ServerConnection.hdl

end Server

namespace Observed

def handle (o : Observed I R H) : ConnectionEvent → Observed I R H
  | .on_open hdl => { o with server := o.server.on_open hdl }
  | .on_close hdl => { o with server := o.server.on_close hdl }
  | .currentConnections => { o with snapshots := o.snapshots ++ [o.server.currentHdls] }

def handleAll (s : Server I R H) (events : List ConnectionEvent) : Observed I R H := events.foldl handle ⟨s, []⟩

end Observed

/-! ## What the calls say -/

namespace ConnectionEvent

def opened : ConnectionEvent → Option Nat
  | .on_open hdl => some hdl
  | _ => none

/-- The connections whose opening no closing follows, in the order of their openings. -/
def openAfter : List ConnectionEvent → List Nat
  | [] => []
  | .on_open hdl :: events => if .on_close hdl ∈ events then openAfter events else hdl :: openAfter events
  | _ :: events => openAfter events

theorem openAfter_sublist (events : List ConnectionEvent) :
    (openAfter events).Sublist (events.filterMap opened) := by
  fun_induction openAfter events with
  | case1 => exact List.Sublist.refl []
  | case2 hdl events hclosed ih => exact ih.cons hdl
  | case3 hdl events hclosed ih => exact ih.cons_cons hdl
  | case4 event events hother ih =>
    cases event with
    | on_open hdl => exact absurd rfl (hother hdl)
    | on_close hdl => exact ih
    | currentConnections => exact ih

theorem openAfter_concat_open (events : List ConnectionEvent) (hdl : Nat) :
    openAfter (events ++ [.on_open hdl]) = openAfter events ++ [hdl] := by
  induction events with
  | nil => rfl
  | cons event events ih =>
    cases event with
    | on_open hdl' =>
      rw [List.cons_append, openAfter, openAfter, ih]
      simp only [List.mem_append, List.mem_singleton, reduceCtorEq, or_false]
      split <;> rfl
    | on_close hdl' => exact ih
    | currentConnections => exact ih

theorem openAfter_concat_close (events : List ConnectionEvent) (hdl : Nat) :
    openAfter (events ++ [.on_close hdl]) = (openAfter events).filter (· ≠ hdl) := by
  induction events with
  | nil => rfl
  | cons event events ih =>
    cases event with
    | on_open hdl' =>
      rw [List.cons_append, openAfter, openAfter, ih]
      simp only [List.mem_append, List.mem_singleton, on_close.injEq]
      by_cases hclosed : .on_close hdl' ∈ events
      · rw [if_pos (Or.inl hclosed), if_pos hclosed]
      · by_cases hsame : hdl' = hdl
        · rw [if_pos (Or.inr hsame), if_neg hclosed, List.filter_cons_of_neg (by simp [hsame])]
        · rw [if_neg (by tauto), if_neg hclosed, List.filter_cons_of_pos (by simp [hsame])]
    | on_close hdl' => exact ih
    | currentConnections => exact ih

theorem openAfter_concat_currentConnections (events : List ConnectionEvent) :
    openAfter (events ++ [.currentConnections]) = openAfter events := by
  induction events with
  | nil => rfl
  | cons event events ih =>
    cases event with
    | on_open hdl =>
      rw [List.cons_append, openAfter, openAfter, ih]
      simp only [List.mem_append, List.mem_singleton, reduceCtorEq, or_false]
    | on_close hdl => exact ih
    | currentConnections => exact ih

end ConnectionEvent

open ConnectionEvent

/-! ## One call -/

namespace Server

/-- The first connection with the handle is the only one. -/
theorem eraseP_eq_filter {connections : List (ServerConnection I R H)} (hdl : Nat)
    (h : (connections.map ServerConnection.hdl).Nodup) :
    (connections.eraseP fun c => c.hdl = hdl) = connections.filter fun c => c.hdl ≠ hdl := by
  induction connections with
  | nil => rfl
  | cons c connections ih =>
    rw [List.map_cons, List.nodup_cons] at h
    by_cases hsame : c.hdl = hdl
    · rw [List.eraseP_cons_of_pos (by simpa using hsame), List.filter_cons_of_neg (by simpa using hsame)]
      refine (List.filter_eq_self.mpr fun d hd => ?_).symm
      have hne : d.hdl ≠ hdl := fun heq => h.1 (hsame ▸ heq ▸ List.mem_map_of_mem hd)
      simpa using hne
    · rw [List.eraseP_cons_of_neg (by simpa using hsame), List.filter_cons_of_pos (by simpa using hsame), ih h.2]

/-- Closing takes out the connection with the handle; the others stay as they are and in their order. -/
theorem on_close_eq {s : Server I R H} (hdl : Nat) (h : s.currentHdls.Nodup) :
    s.on_close hdl = { s with currentConnections := s.currentConnections.filter fun c => c.hdl ≠ hdl } := by
  rw [on_close, eraseP_eq_filter hdl h]

theorem on_close_of_not_mem {s : Server I R H} {hdl : Nat} (h : hdl ∉ s.currentHdls) : s.on_close hdl = s := by
  have hkept : (s.currentConnections.eraseP fun c => c.hdl = hdl) = s.currentConnections := by
    apply List.eraseP_of_forall_not
    intro c hc
    have hne : c.hdl ≠ hdl := fun heq => h (heq ▸ List.mem_map_of_mem hc)
    simpa using hne
  rw [on_close, hkept]

@[simp] theorem currentHdls_on_open (s : Server I R H) (hdl : Nat) :
    (s.on_open hdl).currentHdls = s.currentHdls ++ [hdl] := by
  rw [currentHdls, on_open, List.map_append]
  rfl

theorem currentHdls_on_close {s : Server I R H} (hdl : Nat) (h : s.currentHdls.Nodup) :
    (s.on_close hdl).currentHdls = s.currentHdls.filter (· ≠ hdl) := by
  rw [on_close_eq hdl h, currentHdls, currentHdls, List.filter_map]
  rfl

end Server

/-! ## All calls -/

namespace Observed
open Server

theorem handleAll_concat (s : Server I R H) (events : List ConnectionEvent) (event : ConnectionEvent) :
    handleAll s (events ++ [event]) = (handleAll s events).handle event :=
  List.foldl_concat ..

/-- Where every connection opens once, the list holds those that are open, in the order in which they opened. -/
theorem currentHdls_handleAll {s : Server I R H} (hs : s.currentConnections = []) {events : List ConnectionEvent}
    (hopen : (events.filterMap opened).Nodup) : (handleAll s events).server.currentHdls = openAfter events := by
  induction events using List.reverseRecOn with
  | nil =>
    rw [currentHdls, handleAll, List.foldl_nil, hs]
    rfl
  | append_singleton events event ih =>
    rw [List.filterMap_append] at hopen
    have ih := ih (hopen.sublist (List.sublist_append_left _ _))
    rw [handleAll_concat]
    cases event with
    | on_open hdl => rw [handle, currentHdls_on_open, ih, openAfter_concat_open]
    | on_close hdl =>
      have hnodup : (handleAll s events).server.currentHdls.Nodup := by
        rw [ih]
        exact (hopen.sublist (List.sublist_append_left _ _)).sublist (openAfter_sublist events)
      rw [handle, currentHdls_on_close hdl hnodup, ih, openAfter_concat_close]
    | currentConnections => rw [handle, ih, openAfter_concat_currentConnections]

/-- Later calls add snapshots behind those that were taken. -/
theorem snapshots_foldl (o : Observed I R H) (events : List ConnectionEvent) :
    ∃ more, (events.foldl handle o).snapshots = o.snapshots ++ more ∧
      more.length = events.count .currentConnections := by
  induction events generalizing o with
  | nil => exact ⟨[], (List.append_nil _).symm, rfl⟩
  | cons event events ih =>
    obtain ⟨more, hmore, hlength⟩ := ih (o.handle event)
    rw [List.foldl_cons, hmore]
    cases event with
    | on_open hdl => exact ⟨more, rfl, by rw [hlength, List.count_cons_of_ne (by simp)]⟩
    | on_close hdl => exact ⟨more, rfl, by rw [hlength, List.count_cons_of_ne (by simp)]⟩
    | currentConnections =>
      refine ⟨o.server.currentHdls :: more, ?_, ?_⟩
      · rw [handle, List.append_assoc, List.singleton_append]
      · rw [List.length_cons, hlength, List.count_cons_self]

theorem length_snapshots (s : Server I R H) (events : List ConnectionEvent) :
    (handleAll s events).snapshots.length = events.count .currentConnections := by
  obtain ⟨more, hmore, hlength⟩ := snapshots_foldl ⟨s, []⟩ events
  rw [handleAll, hmore, List.nil_append, hlength]

/-- A snapshot is the list when it was taken. -/
theorem getElem?_snapshots (s : Server I R H) (before after : List ConnectionEvent) :
    (handleAll s (before ++ .currentConnections :: after)).snapshots[before.count .currentConnections]? =
      some (handleAll s before).server.currentHdls := by
  obtain ⟨more, hmore, -⟩ := snapshots_foldl ((handleAll s before).handle .currentConnections) after
  rw [handleAll, List.foldl_append, List.foldl_cons]
  show (after.foldl handle ((handleAll s before).handle .currentConnections)).snapshots[_]? = _
  rw [hmore, handle, List.append_assoc, ← length_snapshots s before, List.getElem?_append_right (Nat.le_refl _),
    Nat.sub_self]
  rfl

/-- **The list of connections is exact.** In every order of the calls in which each connection opens once at most,
it holds the connections that are opened and not yet closed, each once and in the order in which they opened;
closing one leaves all others as they are, closing an unknown one changes nothing, and every snapshot is the list
at that point. -/
theorem currentConnections_exact (s : Server I R H) (hs : s.currentConnections = [])
    (events : List ConnectionEvent) (hopen : (events.filterMap opened).Nodup) :
    (handleAll s events).server.currentHdls = openAfter events ∧
      (handleAll s events).server.currentHdls.Nodup ∧
      (∀ before hdl after, events = before ++ .on_close hdl :: after →
        ((handleAll s before).server.on_close hdl).currentConnections =
            (handleAll s before).server.currentConnections.filter (fun c => c.hdl ≠ hdl) ∧
          (hdl ∉ openAfter before → (handleAll s before).server.on_close hdl = (handleAll s before).server)) ∧
      (handleAll s events).snapshots.length = events.count .currentConnections ∧
      ∀ before after, events = before ++ .currentConnections :: after →
        (handleAll s events).snapshots[before.count .currentConnections]? = some (openAfter before) := by
  have hnodup : ∀ before, (before.filterMap opened).Sublist (events.filterMap opened) →
      (handleAll s before).server.currentHdls = openAfter before ∧
        (handleAll s before).server.currentHdls.Nodup := by
    intro before hsub
    have hbefore := hopen.sublist hsub
    rw [currentHdls_handleAll hs hbefore]
    exact ⟨rfl, hbefore.sublist (openAfter_sublist before)⟩
  obtain ⟨hlist, hlist_nodup⟩ := hnodup events (List.Sublist.refl _)
  refine ⟨hlist, hlist_nodup, ?_, length_snapshots s events, ?_⟩
  · rintro before hdl after rfl
    obtain ⟨hbefore, hbefore_nodup⟩ := hnodup before (by
      rw [List.filterMap_append]
      exact List.sublist_append_left _ _)
    refine ⟨by rw [on_close_eq hdl hbefore_nodup], fun hunknown => ?_⟩
    rw [← hbefore] at hunknown
    exact on_close_of_not_mem hunknown
  · rintro before after rfl
    obtain ⟨hbefore, -⟩ := hnodup before (by
      rw [List.filterMap_append]
      exact List.sublist_append_left _ _)
    rw [getElem?_snapshots, hbefore]

/-- Three connections, of which the second is closed, and one closing of a connection that never opened. -/
theorem currentConnections_exact_example :
    (handleAll (new : Server Unit Unit Unit) [.on_open 5, .on_close 9, .on_open 6, .currentConnections, .on_open 7,
        .on_close 6, .currentConnections]).server.currentHdls = [5, 7] ∧
      (handleAll (new : Server Unit Unit Unit) [.on_open 5, .on_close 9, .on_open 6, .currentConnections, .on_open 7,
        .on_close 6, .currentConnections]).snapshots[0]? = some [5, 6] := by
  obtain ⟨hlist, -, -, -, hsnapshots⟩ := currentConnections_exact (new : Server Unit Unit Unit) rfl
    [.on_open 5, .on_close 9, .on_open 6, .currentConnections, .on_open 7, .on_close 6, .currentConnections]
    (by decide)
  refine ⟨hlist.trans (by decide), ?_⟩
  exact (hsnapshots [.on_open 5, .on_close 9, .on_open 6] [.on_open 7, .on_close 6, .currentConnections] rfl).trans
    (by decide)

end Observed

/-! ## In the life of a server -/

namespace Server

/-- The call that a step of the server is. -/
def event : Action I R → Option ConnectionEvent
  | .on_open hdl => some (.on_open hdl)
  | .on_close hdl => some (.on_close hdl)
  | _ => none

/-- What these steps have left behind: a connection opens after its handshake, and every handshake has its own
handle. -/
structure Recorded (s : Server I R H) (events : List ConnectionEvent) : Prop where
  list : s.currentHdls = openAfter events
  nodup : (events.filterMap opened ++ s.handshaking).Nodup
  lt : ∀ hdl ∈ events.filterMap opened ++ s.handshaking, hdl < s.nextHdl

/-- The connections that are open and those that will open are the same. -/
structure ListFrame (s t : Server I R H) : Prop where
  currentHdls : t.currentHdls = s.currentHdls
  handshaking : t.handshaking = s.handshaking
  nextHdl : t.nextHdl = s.nextHdl

theorem Recorded.frame {s t : Server I R H} {events : List ConnectionEvent} (h : s.Recorded events)
    (hframe : ListFrame s t) : t.Recorded events := by
  obtain ⟨hlist, hhandshaking, hnext⟩ := hframe
  constructor
  · rw [hlist, h.list]
  · rw [hhandshaking]
    exact h.nodup
  · rw [hhandshaking, hnext]
    exact h.lt

theorem call_frame (s : Server I R H) (c : Call I R) : ListFrame s (s.call c) := by
  cases c with
  | listen attempt =>
    unfold call
    dsimp only
    split <;> exact ⟨rfl, rfl, rfl⟩
  | _ => exact ⟨rfl, rfl, rfl⟩

theorem map_hdl_eq {connections : List (ServerConnection I R H)} {f : ServerConnection I R H → ServerConnection I R H}
    (hf : ∀ c, (f c).hdl = c.hdl) :
    (connections.map f).map ServerConnection.hdl = connections.map ServerConnection.hdl := by
  rw [List.map_map]
  exact List.map_congr_left fun c _ => hf c

theorem hdl_close (c : ServerConnection I R H) : c.close.hdl = c.hdl := by
  unfold ServerConnection.close
  split <;> rfl

theorem Recorded.ioStep {s t : Server I R H} {events : List ConnectionEvent} {a : Action I R}
    (h : s.Recorded events) (hstep : s.ioStep a = some t) : t.Recorded (events ++ (event a).toList) := by
  have hopened : (events.filterMap opened).Nodup := h.nodup.sublist (List.sublist_append_left _ _)
  cases a with
  | accept =>
    obtain ⟨-, hstep⟩ := Option.ite_none_right_eq_some.mp hstep
    obtain rfl := Option.some.inj hstep
    show Recorded _ (events ++ [])
    rw [List.append_nil]
    refine ⟨h.list, ?_, ?_⟩
    · dsimp only
      rw [← List.append_assoc]
      apply h.nodup.append (List.nodup_singleton _)
      rw [List.disjoint_singleton]
      exact fun hmem => Nat.lt_irrefl _ (h.lt _ hmem)
    · intro hdl hmem
      dsimp only at hmem ⊢
      rw [← List.append_assoc, List.mem_append, List.mem_singleton] at hmem
      rcases hmem with hmem | rfl
      · exact Nat.lt_succ_of_lt (h.lt hdl hmem)
      · exact Nat.lt_succ_self _
  | handshakeFailed hdl =>
    obtain ⟨-, hstep⟩ := Option.ite_none_right_eq_some.mp hstep
    obtain rfl := Option.some.inj hstep
    show Recorded _ (events ++ [])
    rw [List.append_nil]
    have hsub := (List.Sublist.refl (events.filterMap opened)).append
      (List.erase_sublist (a := hdl) (l := s.handshaking))
    exact ⟨h.list, h.nodup.sublist hsub, fun hdl' hmem => h.lt hdl' (hsub.subset hmem)⟩
  | on_open hdl =>
    obtain ⟨hmem, hstep⟩ := Option.ite_none_right_eq_some.mp hstep
    obtain rfl := Option.some.inj hstep
    have hperm : (events.filterMap opened ++ [hdl] ++ s.handshaking.erase hdl).Perm
        (events.filterMap opened ++ s.handshaking) := by
      rw [List.append_assoc]
      exact (List.perm_cons_erase hmem).symm.append_left _
    rw [event, Option.toList_some]
    refine ⟨?_, ?_, ?_⟩
    · rw [openAfter_concat_open, ← h.list]
      exact currentHdls_on_open _ hdl
    · rw [List.filterMap_append]
      exact hperm.nodup_iff.mpr h.nodup
    · rw [List.filterMap_append]
      exact fun hdl' hmem' => h.lt hdl' (hperm.mem_iff.mp hmem')
  | closing hdl =>
    obtain rfl := Option.some.inj hstep
    show Recorded _ (events ++ [])
    rw [List.append_nil]
    refine h.frame ⟨map_hdl_eq fun c => ?_, rfl, rfl⟩
    split <;> rfl
  | on_close hdl =>
    obtain ⟨-, hstep⟩ := Option.ite_none_left_eq_some.mp hstep
    obtain rfl := Option.some.inj hstep
    have hnodup : s.currentHdls.Nodup := by
      rw [h.list]
      exact hopened.sublist (openAfter_sublist events)
    have hsame : (events ++ [ConnectionEvent.on_close hdl]).filterMap opened = events.filterMap opened := by
      rw [List.filterMap_append]
      exact List.append_nil _
    rw [event, Option.toList_some]
    refine ⟨?_, ?_, ?_⟩
    · rw [openAfter_concat_close, ← h.list]
      exact currentHdls_on_close hdl hnodup
    · rw [hsame]
      exact h.nodup
    · rw [hsame]
      exact h.lt
  | _ => cases hstep

theorem Recorded.step {s t : Server I R H} {events : List ConnectionEvent} {a : Action I R} (h : s.Recorded events)
    (hstep : s.step a = some t) : t.Recorded (events ++ (event a).toList) := by
  cases step_cases hstep with
  | call hcaller => exact (List.append_nil events).symm ▸ h.frame (call_frame s _)
  | closeAll hcaller => exact (List.append_nil events).symm ▸ h.frame ⟨map_hdl_eq hdl_close, rfl, rfl⟩
  | start hcaller hstarted =>
    refine (List.append_nil events).symm ▸ h.frame ?_
    cases hstarted <;> exact ⟨rfl, rfl, rfl⟩
  | join | enter | finish => exact (List.append_nil events).symm ▸ h.frame ⟨rfl, rfl, rfl⟩
  | io hrunning hstep => exact h.ioStep hstep

/-- In every life of a server the connections open once each, and the list holds those that are open. -/
theorem currentHdls_of_run {s : Server I R H} {actions : List (Action I R)} (h : Run (ofFun step) new actions s) :
    ((actions.filterMap event).filterMap opened).Nodup ∧
      s.currentHdls = openAfter (actions.filterMap event) := by
  have hrecorded : s.Recorded (actions.filterMap event) := by
    induction h with
    | nil => exact ⟨rfl, List.nodup_nil, by simp [new]⟩
    | @snoc t u as a run hstep ih =>
      rw [List.filterMap_append]
      exact ih.step hstep
  exact ⟨hrecorded.nodup.sublist (List.sublist_append_left _ _), hrecorded.list⟩

end Server

end Communique
