import Communique.Handlers
import Communique.Lifecycle.Client
import Mathlib.Data.List.Forall2
import Mathlib.Data.List.Induction

/-!
# The settings of the handlers

Both the client and its connection have a copy of each handler. The setters write both, and `connect` gives the
client's copies to the new connection.

* `Heard`, `HandlerAction`, `step` : the life of a client with its settings and its incoming messages;
* `Meant.after` : what the messages of a life are to lead to;
* `Synced` : the client and its connection hold what was set last; `synced_of_run` : they always do;
* `NeverWrapped` : no message reaches a wrapped empty function; `neverWrapped_of_not_mem` : as where none is set;
* `Replaced`, `exists_run_of_replaced` : a setting with one argument, or the one with two that means the same;
* **`settings_agree_iff`** : the runs in which both setters mean the same.
-/

namespace Communique
open Transition Endian

variable {I₁ I₂ R₁ R₂ H : Type}

/-! ## The life of a client -/

/-- A client, and what each message has led to. -/
structure Heard (I₁ I₂ R₁ R₂ H : Type) where
  client : Client (Target I₁ I₂) (Target R₁ R₂) H
  log : List (Entry I₁ I₂ R₁ R₂)

/-- A setting, a message on the connection, or any other step of the client's life. -/
inductive HandlerAction (I₁ I₂ R₁ R₂ H : Type)
  | setInfoHandler (infoHandler : Overload I₁ I₂)
  | setRequestHandler (requestHandler : Overload R₁ R₂)
  | onMessage (msg : Bytes)
  | other (action : Client.Action (Target I₁ I₂) (Target R₁ R₂) H)

/-- The calls of the setters, which are steps of their own here. -/
def Client.Action.isSetter {I R : Type} : Client.Action I R H → Bool
  | .call (.setInfoHandler _) => true
  | .call (.setRequestHandler _) => true
  | _ => false

namespace Heard

def start : Heard I₁ I₂ R₁ R₂ H := ⟨Client.new, []⟩

def step (platform : Platform) (users : Users I₁ I₂ R₁ R₂) (h : Heard I₁ I₂ R₁ R₂ H) :
    HandlerAction I₁ I₂ R₁ R₂ H → Option (Heard I₁ I₂ R₁ R₂ H)
  | .setInfoHandler infoHandler => some { h with client := h.client.setInfoHandler infoHandler.stored }
  | .setRequestHandler requestHandler => some { h with client := h.client.setRequestHandler requestHandler.stored }
  | .onMessage msg =>
    h.client.pConnection.map fun p =>
      let r := p.2.react platform users h.log msg
      ⟨{ h.client with pConnection := some (p.1, r.1) }, h.log ++ [r.2]⟩
  | .other action =>
    if action.isSetter then none
    else (h.client.step platform.byteOrder action).map fun client => { h with client := client }

end Heard

/-! ## What the settings mean -/

namespace Meant

def start : Meant I₁ I₂ R₁ R₂ := ⟨none, none, []⟩

def step (platform : Platform) (users : Users I₁ I₂ R₁ R₂) (m : Meant I₁ I₂ R₁ R₂) :
    HandlerAction I₁ I₂ R₁ R₂ H → Meant I₁ I₂ R₁ R₂
  | .setInfoHandler infoHandler => { m with info := infoHandler.meant }
  | .setRequestHandler requestHandler => { m with request := requestHandler.meant }
  | .onMessage msg => { m with log := m.log ++ [m.entry platform users msg] }
  | .other _ => m

/-- After all of the actions. -/
def after (platform : Platform) (users : Users I₁ I₂ R₁ R₂) (actions : List (HandlerAction I₁ I₂ R₁ R₂ H)) :
    Meant I₁ I₂ R₁ R₂ := actions.foldl (step platform users) start

end Meant

/-! ## Both copies of the handlers -/

namespace Connection
variable {I R : Type}

theorem transmit_connection (byteOrder : Order) (transport : Transport) (c : Connection I R H) (messageBody : Bytes)
    (type : MessageType) (userReference : UserReference) :
    (transmit byteOrder transport c messageBody type userReference).connection = c := by
  unfold transmit
  split
  · rfl
  · dsimp only
    split <;> rfl

/-- The connection with these handlers. -/
def withHandlers (c : Connection I R H) (infoHandler : Option I) (requestHandler : Option R) : Connection I R H :=
  { c with infoHandler := infoHandler, requestHandler := requestHandler }

theorem responseHandlers_withHandlers (c : Connection I R H) (i : Option I) (r : Option R) :
    (c.withHandlers i r).responseHandlers = c.responseHandlers := rfl

theorem sendRequest_withHandlers (byteOrder : Order) (transport : Transport) (c : Connection I R H) (message : Bytes)
    (responseHandler : H) (i : Option I) (r : Option R) :
    ((c.withHandlers i r).sendRequest byteOrder transport message responseHandler).connection =
      (c.sendRequest byteOrder transport message responseHandler).connection.withHandlers i r := by
  unfold sendRequest
  rw [responseHandlers_withHandlers]
  cases c.responseHandlers.push responseHandler with
  | error e => rfl
  | ok pushed =>
    dsimp only
    rw [transmit_connection, transmit_connection]
    rfl

theorem onMessage_withHandlers (platform : Platform) (callInfo callInfo' : I → Bytes → Except Exn Unit)
    (c : Connection I R H) (i : Option I) (r : Option R) (msg : Bytes) :
    ((c.withHandlers i r).onMessage platform callInfo msg).1 =
      (c.onMessage platform callInfo' msg).1.withHandlers i r := by
  by_cases hlen : msg.length < 5
  · rw [onMessage_short hlen, onMessage_short hlen]
  obtain ⟨m, rfl⟩ : ∃ m : Message, m.payload = msg := ⟨⟨msg, by omega⟩, rfl⟩
  by_cases hi : typeOf m.payload = some .INFO
  · rw [onMessage_info m hi, onMessage_info m hi]
  by_cases hr : typeOf m.payload = some .REQUEST
  · rw [onMessage_request m hr, onMessage_request m hr]
  by_cases hp : typeOf m.payload = some .RESPONSE
  · rw [onMessage_response m hp, onMessage_response m hp, responseHandlers_withHandlers]
    cases c.responseHandlers.pop (wireReference m.payload) <;> rfl
  · rw [onMessage_other m hi hr hp, onMessage_other m hi hr hp]

end Connection

namespace Client
variable {I R : Type}

/-- The client with these handlers, which its connection has as well. -/
def withHandlers (c : Client I R H) (infoHandler : Option I) (requestHandler : Option R) : Client I R H :=
  { c with
    infoHandler := infoHandler
    requestHandler := requestHandler
    pConnection := c.pConnection.map fun p => (p.1, p.2.withHandlers infoHandler requestHandler) }

variable (c : Client I R H) (i : Option I) (r : Option R)

theorem session_withHandlers : (c.withHandlers i r).session = c.session := by
  unfold session withHandlers
  cases c.pConnection <;> rfl

theorem isConnected_withHandlers : (c.withHandlers i r).isConnected = c.isConnected := by
  rw [isConnected, isConnected, session_withHandlers]

theorem isDisconnected_withHandlers : (c.withHandlers i r).isDisconnected = c.isDisconnected := by
  rw [isDisconnected, isDisconnected, session_withHandlers]

theorem close_withHandlers : (c.withHandlers i r).close = c.close.map fun d => d.withHandlers i r := by
  rw [close, close, isConnected_withHandlers, Option.map_map]
  congr 1
  funext connected
  unfold withHandlers
  cases hp : c.pConnection with
  | none => simp [hp]
  | some p =>
    cases connected <;> simp [hp, setState]

theorem onConnection_withHandlers {f : Connection I R H → Connection I R H}
    (hf : ∀ d, f (d.withHandlers i r) = (f d).withHandlers i r) :
    (c.withHandlers i r).onConnection f = (c.onConnection f).withHandlers i r := by
  unfold onConnection withHandlers
  dsimp only
  rw [Option.map_map, Option.map_map]
  simp only [Function.comp_def, hf]

theorem call_withHandlers (byteOrder : Order) {call : Call I R H} (hset : (Action.call call).isSetter = false) :
    (c.withHandlers i r).call byteOrder call = (c.call byteOrder call).map fun d => d.withHandlers i r := by
  cases call with
  | connect attempt =>
    cases attempt with
    | started =>
      show Option.map _ (c.loop.step .assign) = Option.map _ (Option.map _ (c.loop.step .assign))
      rw [Option.map_map]
      rfl
    | _ => rfl
  | disconnect =>
    show Option.map _ (c.withHandlers i r).close = Option.map _ (Option.map _ c.close)
    rw [close_withHandlers, Option.map_map, Option.map_map]
    rfl
  | isConnected =>
    show Option.map _ (c.withHandlers i r).isConnected = Option.map _ (Option.map _ c.isConnected)
    rw [isConnected_withHandlers, Option.map_map]
    rfl
  | isDisconnected =>
    show Option.map _ (c.withHandlers i r).isDisconnected = Option.map _ (Option.map _ c.isDisconnected)
    rw [isDisconnected_withHandlers, Option.map_map]
    rfl
  | sendInfo transport message =>
    apply congrArg some
    apply onConnection_withHandlers
    intro d
    rw [Connection.sendInfo, Connection.sendInfo, Connection.transmit_connection, Connection.transmit_connection]
  | sendRequest transport message responseHandler =>
    apply congrArg some
    apply onConnection_withHandlers
    intro d
    exact Connection.sendRequest_withHandlers byteOrder transport d message responseHandler i r
  | setInfoHandler infoHandler => cases hset
  | setRequestHandler requestHandler => cases hset

theorem move_withHandlers (n : Nat) (before : List SessionState) (after : SessionState) :
    (c.withHandlers i r).move n before after = (c.move n before after).map fun d => d.withHandlers i r := by
  unfold move
  rw [apply_ite (Option.map _)]
  rfl

theorem step_withHandlers (byteOrder : Order) {a : Action I R H} (hset : a.isSetter = false) :
    (c.withHandlers i r).step byteOrder a = (c.step byteOrder a).map fun d => d.withHandlers i r := by
  unfold step
  rw [apply_ite (Option.map _)]
  congr 1
  cases a with
  | call call =>
    dsimp only
    rw [call_withHandlers c i r byteOrder hset, apply_ite (Option.map _)]
    rfl
  | join =>
    dsimp only
    rw [apply_ite (Option.map _), Option.map_map]
    rfl
  | enter =>
    dsimp only
    rw [Option.map_map]
    rfl
  | finish =>
    dsimp only
    rw [apply_ite (Option.map _), Option.map_map]
    rfl
  | establish n => exact c.move_withHandlers i r n _ _
  | fail n => exact c.move_withHandlers i r n _ _
  | closed n => exact c.move_withHandlers i r n _ _

@[simp] theorem withHandlers_withHandlers (i' : Option I) (r' : Option R) :
    (c.withHandlers i r).withHandlers i' r' = c.withHandlers i' r' := by
  unfold withHandlers
  dsimp only
  rw [Option.map_map]
  rfl

/-- Both copies are set. -/
theorem setInfoHandler_withHandlers (i' : Option I) :
    (c.withHandlers i r).setInfoHandler i' = c.withHandlers i' r := by
  unfold setInfoHandler onConnection withHandlers
  dsimp only
  rw [Option.map_map]
  rfl

theorem setRequestHandler_withHandlers (r' : Option R) :
    (c.withHandlers i r).setRequestHandler r' = c.withHandlers i r' := by
  unfold setRequestHandler onConnection withHandlers
  dsimp only
  rw [Option.map_map]
  rfl

theorem withHandlers_setInfoHandler (i' : Option I) :
    (c.setInfoHandler i').withHandlers i r = c.withHandlers i r := by
  unfold setInfoHandler onConnection withHandlers
  dsimp only
  rw [Option.map_map]
  rfl

theorem withHandlers_setRequestHandler (r' : Option R) :
    (c.setRequestHandler r').withHandlers i r = c.withHandlers i r := by
  unfold setRequestHandler onConnection withHandlers
  dsimp only
  rw [Option.map_map]
  rfl

end Client

/-! ## The settings of a run -/

namespace HandlerAction

/-- The argument of the last setting of the info handler. -/
def lastInfo (actions : List (HandlerAction I₁ I₂ R₁ R₂ H)) : Overload I₁ I₂ :=
  actions.foldl (fun last action => match action with
    | .setInfoHandler infoHandler => infoHandler
    | _ => last) (.two none)

/-- The argument of the last setting of the request handler. -/
def lastRequest (actions : List (HandlerAction I₁ I₂ R₁ R₂ H)) : Overload R₁ R₂ :=
  actions.foldl (fun last action => match action with
    | .setRequestHandler requestHandler => requestHandler
    | _ => last) (.two none)

/-- No message reaches an empty function that was set through the setter of one argument. -/
def NeverWrapped (actions : List (HandlerAction I₁ I₂ R₁ R₂ H)) : Prop :=
  ∀ before msg after, actions = before ++ .onMessage msg :: after →
    ¬ ReachesWrapped (lastInfo before) (lastRequest before) msg

/-- A setting with one argument may be replaced by the one with two that means the same. -/
inductive Replaced : HandlerAction I₁ I₂ R₁ R₂ H → HandlerAction I₁ I₂ R₁ R₂ H → Prop
  | same (action : HandlerAction I₁ I₂ R₁ R₂ H) : Replaced action action
  | info (f : Option I₁) : Replaced (.setInfoHandler (.one f)) (.setInfoHandler (.two (f.map .ignoring)))
  | request (f : Option R₁) : Replaced (.setRequestHandler (.one f)) (.setRequestHandler (.two (f.map .ignoring)))

variable {actions : List (HandlerAction I₁ I₂ R₁ R₂ H)} {action : HandlerAction I₁ I₂ R₁ R₂ H}

@[simp] theorem lastInfo_concat (actions : List (HandlerAction I₁ I₂ R₁ R₂ H))
    (action : HandlerAction I₁ I₂ R₁ R₂ H) : lastInfo (actions ++ [action]) = match action with
      | .setInfoHandler infoHandler => infoHandler
      | _ => lastInfo actions :=
  List.foldl_concat ..

@[simp] theorem lastRequest_concat (actions : List (HandlerAction I₁ I₂ R₁ R₂ H))
    (action : HandlerAction I₁ I₂ R₁ R₂ H) : lastRequest (actions ++ [action]) = match action with
      | .setRequestHandler requestHandler => requestHandler
      | _ => lastRequest actions :=
  List.foldl_concat ..

theorem neverWrapped_nil : NeverWrapped ([] : List (HandlerAction I₁ I₂ R₁ R₂ H)) := by
  intro before msg after h
  simp at h

/-- The last action is checked against the settings before it. -/
theorem neverWrapped_concat : NeverWrapped (actions ++ [action]) ↔ NeverWrapped actions ∧
    ∀ msg, action = .onMessage msg → ¬ ReachesWrapped (lastInfo actions) (lastRequest actions) msg := by
  constructor
  · intro h
    refine ⟨fun before msg after heq => ?_, fun msg heq => ?_⟩
    · apply h before msg (after ++ [action])
      rw [heq, List.append_assoc, List.cons_append]
    · apply h actions msg []
      rw [heq]
  · rintro ⟨h, hlast⟩ before msg after heq
    obtain rfl | ⟨after, a, rfl⟩ := List.eq_nil_or_concat' after
    · obtain ⟨rfl, ha⟩ := List.append_inj' heq rfl
      exact hlast msg (List.singleton_inj.mp ha)
    · rw [← List.cons_append, ← List.append_assoc] at heq
      exact h before msg after (List.append_inj' heq rfl).1

/-- The last action of the replaced ones. -/
theorem exists_concat_of_forall₂ {α β : Type} {R : α → β → Prop} {as : List α} {a : α} {bs : List β}
    (h : List.Forall₂ R (as ++ [a]) bs) : ∃ bs' b, bs = bs' ++ [b] ∧ List.Forall₂ R as bs' ∧ R a b := by
  rw [← List.forall₂_reverse_iff, List.reverse_concat, List.forall₂_cons_left_iff] at h
  obtain ⟨b, bs', hab, hrest, hbs⟩ := h
  refine ⟨bs'.reverse, b, ?_, ?_, hab⟩
  · rw [← List.reverse_cons, ← hbs, List.reverse_reverse]
  · rw [← List.reverse_reverse as, List.forall₂_reverse_iff]
    exact hrest

/-- A replaced setting leaves no wrapped empty function where there was none. -/
theorem last_of_replaced {actions' : List (HandlerAction I₁ I₂ R₁ R₂ H)}
    (h : List.Forall₂ Replaced actions actions') :
    (lastInfo actions' = .one none → lastInfo actions = .one none) ∧
      (lastRequest actions' = .one none → lastRequest actions = .one none) := by
  induction actions using List.reverseRecOn generalizing actions' with
  | nil =>
    obtain rfl := List.forall₂_nil_left_iff.mp h
    exact ⟨id, id⟩
  | append_singleton actions action ih =>
    obtain ⟨actions', action', rfl, hinit, hlast⟩ := exists_concat_of_forall₂ h
    obtain ⟨hinfo, hrequest⟩ := ih hinit
    simp only [lastInfo_concat, lastRequest_concat]
    cases hlast with
    | same =>
      cases action with
      | setInfoHandler infoHandler => exact ⟨id, hrequest⟩
      | setRequestHandler requestHandler => exact ⟨hinfo, id⟩
      | onMessage msg => exact ⟨hinfo, hrequest⟩
      | other action => exact ⟨hinfo, hrequest⟩
    | info f =>
      refine ⟨fun heq => ?_, hrequest⟩
      cases heq
    | request f =>
      refine ⟨hinfo, fun heq => ?_⟩
      cases heq

theorem NeverWrapped.replaced {actions' : List (HandlerAction I₁ I₂ R₁ R₂ H)} (h : NeverWrapped actions)
    (hreplaced : List.Forall₂ Replaced actions actions') : NeverWrapped actions' := by
  induction actions using List.reverseRecOn generalizing actions' with
  | nil =>
    obtain rfl := List.forall₂_nil_left_iff.mp hreplaced
    exact h
  | append_singleton actions action ih =>
    obtain ⟨actions', action', rfl, hinit, hlast⟩ := exists_concat_of_forall₂ hreplaced
    obtain ⟨hbefore, hmessage⟩ := neverWrapped_concat.mp h
    refine neverWrapped_concat.mpr ⟨ih hbefore hinit, ?_⟩
    rintro msg rfl
    obtain ⟨hinfo, hrequest⟩ := last_of_replaced hinit
    cases hlast with
    | same =>
      rintro ⟨hlength, ⟨htype, hwrapped⟩ | ⟨htype, hwrapped⟩⟩
      · exact hmessage msg rfl ⟨hlength, Or.inl ⟨htype, hinfo hwrapped⟩⟩
      · exact hmessage msg rfl ⟨hlength, Or.inr ⟨htype, hrequest hwrapped⟩⟩

theorem mem_of_lastInfo {f : Option I₁} (h : lastInfo actions = .one f) : .setInfoHandler (.one f) ∈ actions := by
  induction actions using List.reverseRecOn with
  | nil => cases h
  | append_singleton actions action ih =>
    rw [lastInfo_concat] at h
    cases action with
    | setInfoHandler infoHandler =>
      obtain rfl : infoHandler = .one f := h
      exact List.mem_append_right _ (List.mem_singleton_self _)
    | _ => exact List.mem_append_left _ (ih h)

theorem mem_of_lastRequest {f : Option R₁} (h : lastRequest actions = .one f) :
    .setRequestHandler (.one f) ∈ actions := by
  induction actions using List.reverseRecOn with
  | nil => cases h
  | append_singleton actions action ih =>
    rw [lastRequest_concat] at h
    cases action with
    | setRequestHandler requestHandler =>
      obtain rfl : requestHandler = .one f := h
      exact List.mem_append_right _ (List.mem_singleton_self _)
    | _ => exact List.mem_append_left _ (ih h)

/-- It is enough that the setters of one argument are given no empty function. -/
theorem neverWrapped_of_not_mem (hinfo : .setInfoHandler (.one none) ∉ actions)
    (hrequest : .setRequestHandler (.one none) ∉ actions) : NeverWrapped actions := by
  rintro before msg after rfl ⟨-, ⟨-, hwrapped⟩ | ⟨-, hwrapped⟩⟩
  · exact hinfo (List.mem_append_left _ (mem_of_lastInfo hwrapped))
  · exact hrequest (List.mem_append_left _ (mem_of_lastRequest hwrapped))

end HandlerAction

open HandlerAction

namespace Meant

theorem after_concat (platform : Platform) (users : Users I₁ I₂ R₁ R₂) (actions : List (HandlerAction I₁ I₂ R₁ R₂ H))
    (action : HandlerAction I₁ I₂ R₁ R₂ H) :
    after platform users (actions ++ [action]) = step platform users (after platform users actions) action :=
  List.foldl_concat ..

/-- The handlers that were set last are those that the last settings mean. -/
theorem after_handlers (platform : Platform) (users : Users I₁ I₂ R₁ R₂)
    (actions : List (HandlerAction I₁ I₂ R₁ R₂ H)) :
    (after platform users actions).info = (lastInfo actions).meant ∧
      (after platform users actions).request = (lastRequest actions).meant := by
  induction actions using List.reverseRecOn with
  | nil => exact ⟨rfl, rfl⟩
  | append_singleton actions action ih =>
    rw [after_concat, lastInfo_concat, lastRequest_concat]
    cases action with
    | setInfoHandler infoHandler => exact ⟨rfl, ih.2⟩
    | setRequestHandler requestHandler => exact ⟨ih.1, rfl⟩
    | onMessage msg => exact ih
    | other action => exact ih

theorem step_replaced (platform : Platform) (users : Users I₁ I₂ R₁ R₂) (meant : Meant I₁ I₂ R₁ R₂)
    {action action' : HandlerAction I₁ I₂ R₁ R₂ H} (h : Replaced action action') :
    step platform users meant action' = step platform users meant action := by
  cases h with
  | same => rfl
  | info f => rfl
  | request f => rfl

/-- The replaced settings mean the same. -/
theorem after_replaced (platform : Platform) (users : Users I₁ I₂ R₁ R₂)
    {actions actions' : List (HandlerAction I₁ I₂ R₁ R₂ H)} (h : List.Forall₂ Replaced actions actions') :
    after platform users actions' = after platform users actions := by
  unfold after
  generalize (start : Meant I₁ I₂ R₁ R₂) = meant
  induction h generalizing meant with
  | nil => rfl
  | cons hhead htail ih => rw [List.foldl_cons, List.foldl_cons, step_replaced platform users meant hhead, ih]

end Meant

/-! ## The runs -/

namespace Heard
variable {platform : Platform} {users : Users I₁ I₂ R₁ R₂}
  {actions actions' : List (HandlerAction I₁ I₂ R₁ R₂ H)} {s s' t : Heard I₁ I₂ R₁ R₂ H}
  {action action' : HandlerAction I₁ I₂ R₁ R₂ H}

/-- The client and its connection hold what was set last. -/
def Synced (s : Heard I₁ I₂ R₁ R₂ H) (actions : List (HandlerAction I₁ I₂ R₁ R₂ H)) : Prop :=
  s.client.withHandlers (lastInfo actions).stored (lastRequest actions).stored = s.client

/-- The client of the same life with other handlers. -/
def Alike (s s' : Heard I₁ I₂ R₁ R₂ H) : Prop :=
  ∃ infoHandler requestHandler, s'.client = s.client.withHandlers infoHandler requestHandler

/-- A message leaves the handlers alone. -/
theorem react_withHandlers (platform : Platform) (users : Users I₁ I₂ R₁ R₂) (log log' : List (Entry I₁ I₂ R₁ R₂))
    (c : Connection (Target I₁ I₂) (Target R₁ R₂) H) (i : Option (Target I₁ I₂)) (r : Option (Target R₁ R₂)) (msg : Bytes) :
    ((c.withHandlers i r).react platform users log' msg).1 = (c.react platform users log msg).1.withHandlers i r :=
  Connection.onMessage_withHandlers platform _ _ c i r msg

theorem Synced.connection (hs : s.Synced actions) {p : Nat × Connection (Target I₁ I₂) (Target R₁ R₂) H}
    (hp : s.client.pConnection = some p) :
    p.2.withHandlers (lastInfo actions).stored (lastRequest actions).stored = p.2 := by
  have h := congrArg Client.pConnection hs
  rw [Client.withHandlers, hp, Option.map_some, Option.some.injEq] at h
  exact congrArg Prod.snd h

theorem Synced.step (hs : s.Synced actions) (hstep : s.step platform users action = some t) :
    t.Synced (actions ++ [action]) := by
  unfold Synced
  rw [lastInfo_concat, lastRequest_concat]
  cases action with
  | setInfoHandler infoHandler =>
    obtain rfl := Option.some.inj hstep
    dsimp only
    rw [← hs, Client.setInfoHandler_withHandlers, Client.withHandlers_withHandlers]
  | setRequestHandler requestHandler =>
    obtain rfl := Option.some.inj hstep
    dsimp only
    rw [← hs, Client.setRequestHandler_withHandlers, Client.withHandlers_withHandlers]
  | onMessage msg =>
    obtain ⟨p, hp, rfl⟩ := Option.map_eq_some_iff.mp hstep
    have hconnection := Synced.connection hs hp
    have hreact := react_withHandlers platform users s.log s.log p.2
      (lastInfo actions).stored (lastRequest actions).stored msg
    rw [hconnection] at hreact
    show { s.client.withHandlers (lastInfo actions).stored (lastRequest actions).stored with
      pConnection := some (p.1, (p.2.react platform users s.log msg).1.withHandlers (lastInfo actions).stored
        (lastRequest actions).stored) } = _
    rw [hs, ← hreact]
  | other action =>
    obtain ⟨hset, hstep⟩ := Option.ite_none_left_eq_some.mp hstep
    obtain ⟨client, hclient, rfl⟩ := Option.map_eq_some_iff.mp hstep
    have h := s.client.step_withHandlers (lastInfo actions).stored (lastRequest actions).stored platform.byteOrder
      ((Bool.not_eq_true _).mp hset)
    rw [hs, hclient, Option.map_some, Option.some.injEq] at h
    exact h.symm

/-- A replaced setting is a step of the same life as well. -/
theorem Alike.step (h : s.Alike s') (hreplaced : Replaced action action')
    (hstep : s.step platform users action = some t) :
    ∃ t', s'.step platform users action' = some t' ∧ t.Alike t' := by
  obtain ⟨i, r, hclient⟩ := h
  have hinfo : ∀ h h' : Overload I₁ I₂, ∃ t', s'.step platform users (.setInfoHandler h') = some t' ∧
      Alike { s with client := s.client.setInfoHandler h.stored } t' := by
    intro h h'
    refine ⟨_, rfl, h'.stored, r, ?_⟩
    rw [hclient, Client.setInfoHandler_withHandlers, Client.withHandlers_setInfoHandler]
  have hrequest : ∀ h h' : Overload R₁ R₂, ∃ t', s'.step platform users (.setRequestHandler h') = some t' ∧
      Alike { s with client := s.client.setRequestHandler h.stored } t' := by
    intro h h'
    refine ⟨_, rfl, i, h'.stored, ?_⟩
    rw [hclient, Client.setRequestHandler_withHandlers, Client.withHandlers_setRequestHandler]
  cases hreplaced with
  | same =>
    cases action with
    | setInfoHandler infoHandler =>
      obtain rfl := Option.some.inj hstep
      exact hinfo infoHandler infoHandler
    | setRequestHandler requestHandler =>
      obtain rfl := Option.some.inj hstep
      exact hrequest requestHandler requestHandler
    | onMessage msg =>
      obtain ⟨p, hp, rfl⟩ := Option.map_eq_some_iff.mp hstep
      have hp' : s'.client.pConnection = some (p.1, p.2.withHandlers i r) := by
        rw [hclient, Client.withHandlers, hp]
        rfl
      refine ⟨_, by rw [Heard.step, hp']; rfl, i, r, ?_⟩
      dsimp only
      rw [react_withHandlers platform users s.log s'.log p.2 i r msg, hclient]
      rfl
    | other action =>
      obtain ⟨hset, hstep⟩ := Option.ite_none_left_eq_some.mp hstep
      obtain ⟨client, hd, rfl⟩ := Option.map_eq_some_iff.mp hstep
      have hstep' := s.client.step_withHandlers i r platform.byteOrder ((Bool.not_eq_true _).mp hset)
      rw [hd, ← hclient] at hstep'
      refine ⟨⟨client.withHandlers i r, s'.log⟩, ?_, i, r, rfl⟩
      rw [Heard.step, if_neg hset, hstep']
      rfl
  | info f =>
    obtain rfl := Option.some.inj hstep
    exact hinfo (.one f) (.two (f.map .ignoring))
  | request f =>
    obtain rfl := Option.some.inj hstep
    exact hrequest (.one f) (.two (f.map .ignoring))

theorem synced_of_run (h : Run (ofFun (step platform users)) start actions s) : s.Synced actions := by
  induction h with
  | nil => rfl
  | snoc run hstep ih => exact ih.step hstep

/-- The replaced settings lead the same life. -/
theorem exists_run_of_replaced (h : Run (ofFun (step platform users)) start actions s)
    (hreplaced : List.Forall₂ Replaced actions actions') :
    ∃ s', Run (ofFun (step platform users)) start actions' s' ∧ s.Alike s' := by
  induction h generalizing actions' with
  | nil =>
    obtain rfl := List.forall₂_nil_left_iff.mp hreplaced
    exact ⟨start, Run.nil start, none, none, rfl⟩
  | snoc run hstep ih =>
    obtain ⟨actions', action', rfl, hinit, hlast⟩ := exists_concat_of_forall₂ hreplaced
    obtain ⟨s', hrun, halike⟩ := ih hinit
    obtain ⟨t', hstep', halike'⟩ := halike.step hlast hstep
    exact ⟨t', hrun.snoc hstep', halike'⟩

/-- Every message has led to what the settings mean exactly if none reached a wrapped empty function. -/
theorem log_eq_iff (h : Run (ofFun (step platform users)) start actions s) :
    s.log = (Meant.after platform users actions).log ↔ NeverWrapped actions := by
  induction h with
  | nil => exact iff_of_true rfl neverWrapped_nil
  | @snoc u v as a run hstep ih =>
    have hsynced := synced_of_run run
    obtain ⟨hinfo, hrequest⟩ := Meant.after_handlers platform users as
    rw [Meant.after_concat, neverWrapped_concat, ← ih]
    cases a with
    | setInfoHandler infoHandler =>
      obtain rfl := Option.some.inj hstep
      exact (and_iff_left (by simp)).symm
    | setRequestHandler requestHandler =>
      obtain rfl := Option.some.inj hstep
      exact (and_iff_left (by simp)).symm
    | onMessage msg =>
      obtain ⟨p, hp, rfl⟩ := Option.map_eq_some_iff.mp hstep
      have hconnection := hsynced.connection hp
      have hentry := entry_eq_iff platform users
        (congrArg Connection.infoHandler hconnection).symm (congrArg Connection.requestHandler hconnection).symm
        hinfo hrequest msg
      dsimp only [Meant.step]
      constructor
      · intro heq
        obtain ⟨hlog, hlast⟩ := List.append_inj' heq rfl
        rw [hlog] at hlast
        refine ⟨hlog, fun msg' hmsg => ?_⟩
        obtain rfl := HandlerAction.onMessage.inj hmsg
        exact hentry.mp (List.singleton_inj.mp hlast)
      · rintro ⟨hlog, hnot⟩
        rw [hlog, hentry.mpr (hnot msg rfl)]
    | other action =>
      obtain ⟨hset, hstep⟩ := Option.ite_none_left_eq_some.mp hstep
      obtain ⟨client, hclient, rfl⟩ := Option.map_eq_some_iff.mp hstep
      exact (and_iff_left (by simp)).symm

/-- **Both setters mean the same** in a run if and only if none of its messages reaches an empty function that was
set through the setter of one argument: then every message goes to the handler that was set last, before or after
`connect`, and an empty one is none; and any settings with one argument can be replaced by those with two, and
every call, answer and exception stays the same. -/
theorem settings_agree_iff (h : Run (ofFun (step platform users)) start actions s) :
    (s.log = (Meant.after platform users actions).log ∧
        ∀ actions', List.Forall₂ Replaced actions actions' →
          ∃ s', Run (ofFun (step platform users)) start actions' s' ∧ s'.log = s.log) ↔
      NeverWrapped actions := by
  rw [log_eq_iff h]
  constructor
  · exact fun h => h.1
  · intro hnever
    refine ⟨hnever, fun actions' hreplaced => ?_⟩
    obtain ⟨s', hrun, -⟩ := exists_run_of_replaced h hreplaced
    refine ⟨s', hrun, ?_⟩
    rw [(log_eq_iff h).mpr hnever, ← Meant.after_replaced platform users hreplaced, log_eq_iff hrun]
    exact hnever.replaced hreplaced

/-- A handler set before `connect`, one set behind it, and a message for each. -/
theorem settings_agree_example :
    ∃ s : Heard Nat Nat Nat Nat Nat,
      Run (ofFun (step ⟨.little, []⟩ ⟨fun _ _ => .ok (), fun _ _ => .ok []⟩)) start
          [.setInfoHandler (.one (some 1)), .other (.call (.connect .started)), .onMessage (wire .INFO 0 []),
            .setRequestHandler (.two none), .onMessage (wire .REQUEST 0 [])] s ∧
        ∃ s' : Heard Nat Nat Nat Nat Nat,
          Run (ofFun (step ⟨.little, []⟩ ⟨fun _ _ => .ok (), fun _ _ => .ok []⟩)) start
              [.setInfoHandler (.two (some (.ignoring 1))), .other (.call (.connect .started)),
                .onMessage (wire .INFO 0 []), .setRequestHandler (.two none), .onMessage (wire .REQUEST 0 [])] s' ∧
            s'.log = s.log := by
  obtain ⟨s, hexec⟩ : ∃ s : Heard Nat Nat Nat Nat Nat,
      exec (step ⟨.little, []⟩ ⟨fun _ _ => .ok (), fun _ _ => .ok []⟩) start
        [.setInfoHandler (.one (some 1)), .other (.call (.connect .started)), .onMessage (wire .INFO 0 []),
          .setRequestHandler (.two none), .onMessage (wire .REQUEST 0 [])] = some s := ⟨_, rfl⟩
  have hrun := run_of_exec hexec
  refine ⟨s, hrun, ?_⟩
  apply ((settings_agree_iff hrun).mpr (neverWrapped_of_not_mem (by simp) (by simp))).2
  exact .cons (.info (some 1)) (.cons (.same _) (.cons (.same _) (.cons (.same _) (.cons (.same _) .nil))))

/-- An empty handler of one argument, set before `connect`, and an info message: the exception leaves
`on_message`, where the empty handler of two arguments would have ignored the message. -/
theorem empty_handler_throws :
    ∃ s : Heard Nat Nat Nat Nat Nat,
      Run (ofFun (step ⟨.little, []⟩ ⟨fun _ _ => .ok (), fun _ _ => .ok []⟩)) start
          [.setInfoHandler (.one none), .other (.call (.connect .started)), .onMessage (wire .INFO 0 [])] s ∧
        s.log = [⟨none, none, none, some badFunctionCall⟩] ∧
        (Meant.after ⟨.little, []⟩ ⟨fun _ _ => .ok (), fun _ _ => .ok []⟩
          ([.setInfoHandler (.one none), .other (.call (.connect .started)), .onMessage (wire .INFO 0 [])] :
            List (HandlerAction Nat Nat Nat Nat Nat))).log = [⟨none, none, none, none⟩] ∧
        s.log ≠ (Meant.after ⟨.little, []⟩ ⟨fun _ _ => .ok (), fun _ _ => .ok []⟩
          ([.setInfoHandler (.one none), .other (.call (.connect .started)), .onMessage (wire .INFO 0 [])] :
            List (HandlerAction Nat Nat Nat Nat Nat))).log := by
  refine ⟨_, run_of_exec rfl, rfl, rfl, fun heq => ?_⟩
  exact absurd (congrArg (List.map Entry.thrown) heq) (by decide)

end Heard

end Communique
