import Communique.Lifecycle.Connections
import Communique.Storage.Threads

/-!
# The list of connections and its mutex

The io thread adds a connection in `on_open` and takes it out in `on_close`, which looks for it first; any thread
copies the list in `currentConnections`, and `stop` walks along it to close the connections. Each of them locks
`currentConnectionsMutex_` for as long as it does so. Here they are taken apart into statements.

* `ListOp`, `ListLocation`, `listStatement`, `connectionList` : the functions, each turn of a loop for itself;
* `ListOp.apply` : what each of them does at once; `apply_of_alone` : a call that nobody disturbs does that;
* **`snapshots_serial`** : whatever the threads do, the list and all copies of it are exact.
-/

namespace Communique
open Transition Mutex Storage ConnectionEvent

variable {I R H : Type}

/-! ## The functions, statement by statement -/

inductive ListOp
  | on_open (hdl : Nat)
  | on_close (hdl : Nat)
  | currentConnections
  /-- The loop of `stop`. -/
  | closeAll
  deriving DecidableEq

inductive ListResult
  | done
  /-- `on_close` found no connection to remove. -/
  | notFound
  | snapshot (hdls : List Nat)
  deriving DecidableEq

inductive ListLocation
  | opening (hdl : Nat)
  /-- In the loop of `find_if`. -/
  | finding (hdl iConnection : Nat)
  | erasing (iConnection : Nat)
  | copying (iConnection : Nat) (copied : List Nat)
  | closing (iConnection : Nat)

def listStatement (s : Server I R H) : ListLocation → Server I R H × (ListLocation ⊕ ListResult)
  | .opening hdl => (s.on_open hdl, .inr .done)
  | .finding hdl iConnection =>
    match s.currentConnections[iConnection]? with
    | none => (s, .inr .notFound)
    | some c =>
      if c.hdl = hdl then (s, .inl <| .erasing iConnection) else (s, .inl <| .finding hdl (iConnection + 1))
  | .erasing iConnection => ({ s with currentConnections := s.currentConnections.eraseIdx iConnection }, .inr .done)
  | .copying iConnection copied =>
    match s.currentConnections[iConnection]? with
    | none => (s, .inr <| .snapshot copied)
    | some c => (s, .inl <| .copying (iConnection + 1) (copied ++ [c.hdl]))
  | .closing iConnection =>
    match s.currentConnections[iConnection]? with
    | none => (s, .inr .done)
    | some c =>
      ({ s with currentConnections := s.currentConnections.set iConnection c.close },
        .inl <| .closing (iConnection + 1))

/-- The functions as functions of an object behind a mutex. -/
def connectionList (I R H : Type) : Object (Server I R H) ListOp ListLocation ListResult where
  enter
    | .on_open hdl => .opening hdl
    | .on_close hdl => .finding hdl 0
    | .currentConnections => .copying 0 []
    | .closeAll => .closing 0
  statement := listStatement

/-! ## A call that nobody disturbs -/

namespace ListOp

/-- The function at once. -/
def apply (s : Server I R H) : ListOp → Server I R H × ListResult
  | .on_open hdl => (s.on_open hdl, .done)
  | .on_close hdl => (s.on_close hdl, if hdl ∈ s.currentHdls then .done else .notFound)
  | .currentConnections => (s, .snapshot s.currentHdls)
  | .closeAll => (s.closeAll, .done)

def event : ListOp → Option ConnectionEvent
  | .on_open hdl => some (.on_open hdl)
  | .on_close hdl => some (.on_close hdl)
  | .currentConnections => some .currentConnections
  | .closeAll => none

end ListOp

/-- Where a call alone on `s` can be. -/
inductive ListVisits (s : Server I R H) : ListOp → Server I R H → ListLocation → Prop
  | opening {hdl : Nat} : ListVisits s (.on_open hdl) s (.opening hdl)
  | finding {hdl : Nat} {before after : List (ServerConnection I R H)}
      (hs : s.currentConnections = before ++ after) (hbefore : ∀ c ∈ before, c.hdl ≠ hdl) :
      ListVisits s (.on_close hdl) s (.finding hdl before.length)
  | erasing {c : ServerConnection I R H} {before after : List (ServerConnection I R H)}
      (hs : s.currentConnections = before ++ c :: after) (hbefore : ∀ d ∈ before, d.hdl ≠ c.hdl) :
      ListVisits s (.on_close c.hdl) s (.erasing before.length)
  | copying {before after : List (ServerConnection I R H)} (hs : s.currentConnections = before ++ after) :
      ListVisits s .currentConnections s (.copying before.length (before.map ServerConnection.hdl))
  | closing {before after : List (ServerConnection I R H)} (hs : s.currentConnections = before ++ after) :
      ListVisits s .closeAll { s with currentConnections := before.map ServerConnection.close ++ after }
        (.closing before.length)

theorem listVisits_enter (s : Server I R H) (op : ListOp) : ListVisits s op s ((connectionList I R H).enter op) := by
  have hnil : s.currentConnections = [] ++ s.currentConnections := rfl
  cases op with
  | on_open hdl => exact ListVisits.opening
  | on_close hdl => exact ListVisits.finding hnil fun c hc => nomatch hc
  | currentConnections => exact ListVisits.copying hnil
  | closeAll => exact ListVisits.closing hnil

theorem listVisits_goes {s t t' : Server I R H} {op : ListOp} {loc loc' : ListLocation} (h : ListVisits s op t loc)
    (hst : listStatement t loc = (t', .inl loc')) : ListVisits s op t' loc' := by
  cases h with
  | opening => cases hst
  | @finding hdl before after hs hbefore =>
    rw [listStatement, hs, getElem?_length_append] at hst
    cases after with
    | nil => cases hst
    | cons c after =>
      dsimp only [List.head?_cons] at hst
      by_cases heq : c.hdl = hdl
      · rw [if_pos heq] at hst
        cases hst
        subst heq
        exact ListVisits.erasing hs hbefore
      · rw [if_neg heq] at hst
        cases hst
        rw [← length_concat before c]
        refine ListVisits.finding (hs.trans (append_cons before after c)) fun d hd => ?_
        rcases List.mem_append.mp hd with hd | hd
        · exact hbefore d hd
        · rw [List.mem_singleton.mp hd]
          exact heq
  | erasing hs hbefore => cases hst
  | @copying before after hs =>
    rw [listStatement, hs, getElem?_length_append] at hst
    cases after with
    | nil => cases hst
    | cons c after =>
      cases hst
      have hcopied : before.map ServerConnection.hdl ++ [c.hdl] = (before ++ [c]).map ServerConnection.hdl := by
        rw [List.map_append, List.map_singleton]
      rw [← length_concat before c, hcopied]
      exact ListVisits.copying (hs.trans (append_cons before after c))
  | @closing before after hs =>
    have hlength : before.length = (before.map ServerConnection.close).length := (List.length_map _).symm
    rw [listStatement, hlength, getElem?_length_append] at hst
    cases after with
    | nil => cases hst
    | cons c after =>
      rw [List.head?_cons] at hst
      dsimp only at hst
      rw [List.set_append_right _ _ le_rfl, Nat.sub_self, List.set_cons_zero, ← hlength] at hst
      cases hst
      have hclosed : before.map ServerConnection.close ++ c.close :: after =
          (before ++ [c]).map ServerConnection.close ++ after := by
        rw [List.map_append, List.map_singleton, List.append_assoc, List.singleton_append]
      rw [hclosed, ← length_concat before c]
      exact ListVisits.closing (hs.trans (append_cons before after c))

theorem listVisits_last {s t t' : Server I R H} {op : ListOp} {loc : ListLocation} {result : ListResult}
    (h : ListVisits s op t loc) (hst : listStatement t loc = (t', .inr result)) : op.apply s = (t', result) := by
  cases h with
  | opening =>
    cases hst
    rfl
  | @finding hdl before after hs hbefore =>
    rw [listStatement, hs, getElem?_length_append] at hst
    cases after with
    | nil =>
      cases hst
      have hunknown : hdl ∉ s.currentHdls := by
        rw [Server.currentHdls, hs, List.append_nil, List.mem_map]
        rintro ⟨c, hc, hhdl⟩
        exact hbefore c hc hhdl
      rw [ListOp.apply, Server.on_close_of_not_mem hunknown, if_neg hunknown]
    | cons c after =>
      dsimp only [List.head?_cons] at hst
      by_cases heq : c.hdl = hdl
      · rw [if_pos heq] at hst
        cases hst
      · rw [if_neg heq] at hst
        cases hst
  | @erasing c before after hs hbefore =>
    rw [listStatement, hs, List.eraseIdx_append_of_length_le le_rfl, Nat.sub_self, List.eraseIdx_zero,
      List.tail_cons] at hst
    cases hst
    have hknown : c.hdl ∈ s.currentHdls := by
      rw [Server.currentHdls, hs]
      exact List.mem_map_of_mem (by simp)
    have herase : s.currentConnections.eraseP (fun d => d.hdl = c.hdl) = before ++ after := by
      rw [hs, List.eraseP_append_right _ fun d hd => by simpa using hbefore d hd, List.eraseP_cons_of_pos (by simp)]
    rw [ListOp.apply, if_pos hknown, Server.on_close, herase]
  | @copying before after hs =>
    rw [listStatement, hs, getElem?_length_append] at hst
    cases after with
    | nil =>
      cases hst
      rw [ListOp.apply, Server.currentHdls, hs, List.append_nil]
    | cons c after => cases hst
  | @closing before after hs =>
    have hlength : before.length = (before.map ServerConnection.close).length := (List.length_map _).symm
    rw [listStatement, hlength, getElem?_length_append] at hst
    cases after with
    | nil =>
      cases hst
      rw [ListOp.apply, Server.closeAll, hs, List.append_nil, List.append_nil]
    | cons c after => cases hst

/-- **A call that nobody disturbs is the function at once.** -/
theorem apply_of_alone {s s' : Server I R H} {op : ListOp} {result : ListResult}
    (h : (connectionList I R H).Alone s (op, result) s') : op.apply s = (s', result) := by
  obtain ⟨t, loc, hvisits, hlast⟩ := h.induct (P := ListVisits s op) (listVisits_enter s op)
    fun hv hst => listVisits_goes hv hst
  exact listVisits_last hvisits hlast

/-! ## Any threads -/

/-- The calls that have returned, but for those of `stop`. -/
def eventsOf {T : Type} (history : List (T × ListOp × ListResult)) : List ConnectionEvent :=
  history.filterMap fun entry => entry.2.1.event

/-- One after the other, the calls keep the list as exact as the calls say. -/
theorem serial_exact {T : Type} {s s' : Server I R H} {history : List (T × ListOp × ListResult)}
    (hs : s.currentConnections = []) (h : Run (connectionList I R H).Serial s history s')
    (hopen : ((eventsOf history).filterMap opened).Nodup) : s'.currentHdls = openAfter (eventsOf history) := by
  induction h with
  | nil =>
    rw [Server.currentHdls, hs]
    rfl
  | @snoc s₁ s₂ history entry run step ih =>
    have happly : entry.2.1.apply s₁ = (s₂, entry.2.2) := apply_of_alone step
    have hevents : eventsOf (history ++ [entry]) = eventsOf history ++ entry.2.1.event.toList := by
      rw [eventsOf, List.filterMap_append, ← eventsOf]
      cases hevent : entry.2.1.event <;> simp [hevent]
    rw [hevents, List.filterMap_append] at hopen
    have hbefore := hopen.sublist (List.sublist_append_left _ _)
    have ih := ih hbefore
    rw [hevents]
    obtain ⟨t, op, result⟩ := entry
    cases op with
    | on_open hdl =>
      cases happly
      rw [Server.currentHdls_on_open, ih]
      exact (openAfter_concat_open _ hdl).symm
    | on_close hdl =>
      cases happly
      have hnodup : s₁.currentHdls.Nodup := by
        rw [ih]
        exact hbefore.sublist (openAfter_sublist _)
      rw [Server.currentHdls_on_close hdl hnodup, ih]
      exact (openAfter_concat_close _ hdl).symm
    | currentConnections =>
      cases happly
      rw [ih]
      exact (openAfter_concat_currentConnections _).symm
    | closeAll =>
      cases happly
      rw [Server.currentHdls, Server.closeAll, Server.map_hdl_eq Server.hdl_close]
      show s₁.currentHdls = openAfter (eventsOf history ++ [])
      rw [List.append_nil, ih]

/-- **The list and all copies of it are exact, whatever the threads do.** Where each connection opens once at most:
a copy that a call of `currentConnections` returns holds the connections whose `on_open` has returned and whose
`on_close` has not, each once and in the order in which they opened, at the moment when the call returns; and
so does the list where the mutex is free. A call returns in the step in which it unlocks the mutex. -/
theorem snapshots_serial {T : Type} [DecidableEq T] {s₀ : Server I R H} (hs : s₀.currentConnections = [])
    {s : State T (Server I R H) ListOp ListLocation ListResult} (h : Reachable (connectionList I R H) s₀ s)
    (hopen : ((eventsOf (completed s.log)).filterMap opened).Nodup) :
    (s.owner = none → s.shared.currentHdls = openAfter (eventsOf (completed s.log))) ∧
      ∀ before t result after, completed s.log = before ++ (t, .currentConnections, result) :: after →
        result = .snapshot (openAfter (eventsOf before)) := by
  obtain ⟨last, hrun, hfree⟩ := h.serial
  refine ⟨fun hnone => ?_, fun before t result after hlog => ?_⟩
  · rw [← hfree hnone]
    exact serial_exact hs hrun hopen
  · rw [hlog] at hrun hopen
    obtain ⟨s₁, hbefore, hrest⟩ := hrun.exists_of_append
    obtain ⟨s₂, hcall, -⟩ := hrest.exists_of_cons
    rw [eventsOf, List.filterMap_append, List.filterMap_append] at hopen
    have hexact := serial_exact hs hbefore (hopen.sublist (List.sublist_append_left _ _))
    have happly : ListOp.apply s₁ .currentConnections = (s₂, result) := apply_of_alone hcall
    rw [← hexact]
    exact (congrArg Prod.snd happly).symm

/-- A thread copies the list while the io thread waits to add a second connection. -/
def copyAndOpen : List (Act Bool ListOp) :=
  [.call true (.on_open 5), .lock true, .run true, .call false .currentConnections, .lock false, .run false,
    .call true (.on_open 6), .run false, .lock true, .run true]

theorem snapshots_serial_copyAndOpen :
    ∃ s : State Bool (Server Unit Unit Unit) ListOp ListLocation ListResult,
      Reachable (connectionList Unit Unit Unit) .new s ∧
      s.shared.currentHdls = openAfter (eventsOf (completed s.log)) ∧
      ∀ before t result after, completed s.log = before ++ (t, .currentConnections, result) :: after →
        result = .snapshot (openAfter (eventsOf before)) := by
  have hrun : (exec (step (connectionList Unit Unit Unit)) (start .new) copyAndOpen).map
      (fun s => (s.owner, completed s.log)) = some (none, [(true, .on_open 5, .done),
        (false, .currentConnections, .snapshot [5]), (true, .on_open 6, .done)]) := by decide
  obtain ⟨s, hs, hend⟩ := Option.map_eq_some_iff.mp hrun
  obtain ⟨howner, hlog⟩ := Prod.mk.inj hend
  have hreach : Reachable (connectionList Unit Unit Unit) .new s := ⟨_, run_of_exec hs⟩
  obtain ⟨hlist, hsnapshots⟩ := snapshots_serial rfl hreach (by rw [hlog]; decide)
  exact ⟨s, hreach, hlist howner, hsnapshots⟩

end Communique
