import Communique.Connection
import Communique.Lib.RunLoop

/-!
# `Client`: the life of a client

The members are what `connect` and `disconnect` change: the connection, the thread handle with the io
service it works on, and the handlers that a new connection is given. The io thread and the network take
steps of their own: a handshake succeeds or fails, a connection closes, the thread enters `run` and returns.

* `ClientSession` : a websocketpp connection; `Attempt` : how far a call of `connect` gets;
* `Client.connect`, `isConnected`, `isDisconnected`, `close` : the functions; `Client.step` : the calls of one
  thread among the steps of the io thread;
* **`not_terminated_iff`** : which series of calls never assigns to a joinable thread handle;
* **`served_iff`** : which ones start every io thread on a service that is not stopped.
-/

namespace Communique
open RunLoop Transition Endian

/-- `websocketpp::session::state`. -/
inductive SessionState
  | connecting
  | open
  | closing
  | closed
  deriving DecidableEq

/-- A websocketpp connection, and whether the endpoint has started to connect it. -/
structure ClientSession where
  state : SessionState
  started : Bool
  deriving DecidableEq

/-- How far `connect` gets: `get_connection` throws, as it does if `on_tls_init` throws, or it rejects the URI; the
connection cannot be started; there is no thread for it; or all three steps succeed. -/
inductive Attempt
  | noConnection (e : Exn)
  | rejected (message : Bytes)
  | notStarted (e : Exn)
  | noThread (e : Exn)
  | started
  deriving DecidableEq

structure Client (I R H : Type) where
  /-- The connections that `get_connection` has made, the last one at the end. -/
  sessions : List ClientSession
  /-- The index of the underlying connection, and the handlers. -/
  pConnection : Option (Nat × Connection I R H)
  infoHandler : Option I
  requestHandler : Option R
  /-- `ioThread_`, and the io service of `client_`. -/
  loop : Loop
  /-- A call of `disconnect` is in its join. -/
  disconnecting : Bool
  /-- How the calls of `connect` ended. -/
  results : List (Except Exn Unit)

namespace Client
variable {I R H : Type}

def new : Client I R H where
  sessions := []
  pConnection := none
  infoHandler := none
  requestHandler := none
  loop := .new
  disconnecting := false
  results := []

/-! ## The functions -/

/-- The underlying connection of `pConnection_`. -/
def session (c : Client I R H) : Option ClientSession := c.pConnection.bind fun p => c.sessions[p.1]?

/-- A new connection, which has the client's handlers. -/
def makeConnection (c : Client I R H) (started : Bool) : Client I R H :=
  { c with
    sessions := c.sessions ++ [⟨.connecting, started⟩]
    pConnection := some (c.sessions.length, Connection.new c.infoHandler c.requestHandler) }

def threw (c : Client I R H) (e : Exn) : Client I R H := { c with results := c.results ++ [.error e] }

/-- The call does not return when the assignment terminates the process. -/
def connect (c : Client I R H) : Attempt → Option (Client I R H)
  | .noConnection e => some (c.threw e)
  | .rejected message =>
    some (c.threw (.exception (ascii "Unable to get the websocketpp connection - " ++ message)))
  | .notStarted e => some ((c.makeConnection false).threw e)
  | .noThread e => some ((c.makeConnection true).threw e)
  | .started =>
    (c.loop.step .assign).map fun loop =>
      { c.makeConnection true with
        loop := loop
        results := if loop.terminated then c.results else c.results ++ [.ok ()] }

/-- `none` while the call waits for the end of the handshake. -/
def isConnected (c : Client I R H) : Option Bool :=
  match c.session with
  | none => some false
  | some s => if s.state = .connecting then none else some (s.state = .open)

/-- `none` while the call waits for the end of the closing handshake. -/
def isDisconnected (c : Client I R H) : Option Bool :=
  match c.session with
  | none => some true
  | some s => if s.state = .closing then none else some (s.state = .closed)

def setState (c : Client I R H) (i : Nat) (state : SessionState) : Client I R H :=
  { c with sessions := c.sessions.modify i fun s => { s with state := state } }

/-- `Connection::close` on `pConnection_`, once `isConnected` returns. -/
def close (c : Client I R H) : Option (Client I R H) :=
  c.isConnected.map fun connected =>
    match c.pConnection with
    | some (i, _) => if connected then c.setState i .closing else c
    | none => c

/-- The connection that a handler or a request is passed on to. -/
def onConnection (c : Client I R H) (f : Connection I R H → Connection I R H) : Client I R H :=
  { c with pConnection := c.pConnection.map fun p => (p.1, f p.2) }

def setInfoHandler (c : Client I R H) (infoHandler : Option I) : Client I R H :=
  { c with infoHandler := infoHandler }.onConnection fun d => { d with infoHandler := infoHandler }

def setRequestHandler (c : Client I R H) (requestHandler : Option R) : Client I R H :=
  { c with requestHandler := requestHandler }.onConnection fun d => { d with requestHandler := requestHandler }

/-! ## The steps -/

/-- The public calls; `disconnect` up to its join. -/
inductive Call (I R H : Type)
  | connect (attempt : Attempt)
  | disconnect
  | isConnected
  | isDisconnected
  | sendInfo (transport : Transport) (message : Bytes)
  | sendRequest (transport : Transport) (message : Bytes) (responseHandler : H)
  | setInfoHandler (infoHandler : Option I)
  | setRequestHandler (requestHandler : Option R)

/-- A call, the join of `disconnect`, and the steps of the io thread. -/
inductive Action (I R H : Type)
  | call (call : Call I R H)
  | join
  | enter
  | finish
  | establish (i : Nat)
  | fail (i : Nat)
  | closed (i : Nat)

/-- No connection keeps the io service busy. -/
def OutOfWork (c : Client I R H) : Prop := ∀ s ∈ c.sessions, s.started = true → s.state = .closed

instance (c : Client I R H) : Decidable c.OutOfWork := inferInstanceAs (Decidable (∀ s ∈ c.sessions, _))

/-- A handler of the io thread moves a connection from one of the states `before` to `after`. -/
def move (c : Client I R H) (i : Nat) (before : List SessionState) (after : SessionState) :
    Option (Client I R H) :=
  if c.loop.thread = .running ∧ ∃ s ∈ c.sessions[i]?, s.started = true ∧ s.state ∈ before then
    some (c.setState i after)
  else none

def call (byteOrder : Order) (c : Client I R H) : Call I R H → Option (Client I R H)
  | .connect attempt => c.connect attempt
  | .disconnect => c.close.map fun c => { c with disconnecting := true }
  | .isConnected => c.isConnected.map fun _ => c
  | .isDisconnected => c.isDisconnected.map fun _ => c
  | .sendInfo transport message => some (c.onConnection fun d => (d.sendInfo byteOrder transport message).connection)
  | .sendRequest transport message responseHandler =>
    some (c.onConnection fun d => (d.sendRequest byteOrder transport message responseHandler).connection)
  | .setInfoHandler infoHandler => some (c.setInfoHandler infoHandler)
  | .setRequestHandler requestHandler => some (c.setRequestHandler requestHandler)

/-- One thread makes the calls, and is in a call of `disconnect` until it has joined. -/
def step (byteOrder : Order) (c : Client I R H) (a : Action I R H) : Option (Client I R H) :=
  if c.loop.terminated then none
  else match a with
    | .call call => if c.disconnecting then none else c.call byteOrder call
    | .join =>
      if c.disconnecting then
        (c.loop.step .join).map fun loop => { c with loop := loop, disconnecting := false }
      else none
    | .enter => (c.loop.step .enter).map fun loop => { c with loop := loop }
    | .finish => if c.OutOfWork then (c.loop.step .finish).map fun loop => { c with loop := loop } else none
    | .establish i => c.move i [.connecting] .open
    | .fail i => c.move i [.connecting] .closed
    | .closed i => c.move i [.open, .closing] .closed

/-- What a step does to the thread handle and the io service. -/
def Action.event : Action I R H → Option Event
  | .call (.connect .started) => some .assign
  | .join => some .join
  | .enter => some .enter
  | .finish => some .finish
  | _ => none

/-- The calls of `connect` that have returned normally. -/
def connects (c : Client I R H) : Nat := c.results.countP fun result => result.isOk

/-! ## What a step leaves alone -/

theorem close_frame {c d : Client I R H} (h : c.close = some d) : d.loop = c.loop ∧ d.results = c.results := by
  obtain ⟨connected, -, rfl⟩ := Option.map_eq_some_iff.mp h
  split
  · split <;> exact ⟨rfl, rfl⟩
  · exact ⟨rfl, rfl⟩

/-- What a call does to the thread handle and the io service, and to the number of connects. -/
inductive Called (c d : Client I R H) : Call I R H → Prop
  | assign (hloop : c.loop.step .assign = some d.loop)
      (hresults : d.results = if d.loop.terminated then c.results else c.results ++ [.ok ()]) :
      Called c d (.connect .started)
  | frame {call : Call I R H} (hcall : call ≠ .connect .started) (hloop : d.loop = c.loop)
      (hconnects : d.connects = c.connects) : Called c d call

theorem connects_threw (c : Client I R H) (e : Exn) : (c.threw e).connects = c.connects := by
  rw [connects, threw, List.countP_append]
  rfl

theorem call_cases {byteOrder : Order} {c d : Client I R H} {call : Call I R H} (h : c.call byteOrder call = some d) :
    Called c d call := by
  cases call with
  | connect attempt =>
    cases attempt with
    | noConnection e =>
      obtain rfl := Option.some.inj h
      exact Called.frame (by simp) rfl (connects_threw c e)
    | rejected message =>
      obtain rfl := Option.some.inj h
      exact Called.frame (by simp) rfl (connects_threw c _)
    | notStarted e =>
      obtain rfl := Option.some.inj h
      exact Called.frame (by simp) rfl (connects_threw _ e)
    | noThread e =>
      obtain rfl := Option.some.inj h
      exact Called.frame (by simp) rfl (connects_threw _ e)
    | started =>
      obtain ⟨loop, hloop, rfl⟩ := Option.map_eq_some_iff.mp h
      exact Called.assign hloop rfl
  | disconnect =>
    obtain ⟨d, hd, rfl⟩ := Option.map_eq_some_iff.mp h
    obtain ⟨hloop, hresults⟩ := close_frame hd
    exact Called.frame (by simp) hloop (congrArg (List.countP _) hresults)
  | isConnected =>
    obtain ⟨connected, -, rfl⟩ := Option.map_eq_some_iff.mp h
    exact Called.frame (by simp) rfl rfl
  | isDisconnected =>
    obtain ⟨disconnected, -, rfl⟩ := Option.map_eq_some_iff.mp h
    exact Called.frame (by simp) rfl rfl
  | sendInfo transport message =>
    obtain rfl := Option.some.inj h
    exact Called.frame (by simp) rfl rfl
  | sendRequest transport message responseHandler =>
    obtain rfl := Option.some.inj h
    exact Called.frame (by simp) rfl rfl
  | setInfoHandler infoHandler =>
    obtain rfl := Option.some.inj h
    exact Called.frame (by simp) rfl rfl
  | setRequestHandler requestHandler =>
    obtain rfl := Option.some.inj h
    exact Called.frame (by simp) rfl rfl

theorem move_frame {c d : Client I R H} {i : Nat} {before : List SessionState} {after : SessionState}
    (h : c.move i before after = some d) : d.loop = c.loop ∧ d.results = c.results := by
  obtain ⟨-, h⟩ := Option.ite_none_right_eq_some.mp h
  obtain rfl := Option.some.inj h
  exact ⟨rfl, rfl⟩

/-- What a step does to the thread handle and the io service. -/
inductive Stepped (c d : Client I R H) : Action I R H → Prop
  | call {call : Call I R H} (h : Called c d call) : Stepped c d (.call call)
  | event {a : Action I R H} {e : Event} (ha : a.event = some e) (he : e ≠ .assign)
      (hloop : c.loop.step e = some d.loop) (hresults : d.results = c.results) : Stepped c d a
  | frame {a : Action I R H} (ha : a.event = none) (hloop : d.loop = c.loop)
      (hresults : d.results = c.results) : Stepped c d a

theorem step_cases {byteOrder : Order} {c d : Client I R H} {a : Action I R H}
    (h : step byteOrder c a = some d) : Stepped c d a := by
  obtain ⟨-, h⟩ := Option.ite_none_left_eq_some.mp h
  cases a with
  | call call =>
    obtain ⟨-, h⟩ := Option.ite_none_left_eq_some.mp h
    exact Stepped.call (call_cases h)
  | join =>
    obtain ⟨-, h⟩ := Option.ite_none_right_eq_some.mp h
    obtain ⟨loop, hloop, rfl⟩ := Option.map_eq_some_iff.mp h
    exact Stepped.event rfl (by simp) hloop rfl
  | enter =>
    obtain ⟨loop, hloop, rfl⟩ := Option.map_eq_some_iff.mp h
    exact Stepped.event rfl (by simp) hloop rfl
  | finish =>
    obtain ⟨-, h⟩ := Option.ite_none_right_eq_some.mp h
    obtain ⟨loop, hloop, rfl⟩ := Option.map_eq_some_iff.mp h
    exact Stepped.event rfl (by simp) hloop rfl
  | establish i =>
    obtain ⟨hloop, hresults⟩ := move_frame h
    exact Stepped.frame rfl hloop hresults
  | fail i =>
    obtain ⟨hloop, hresults⟩ := move_frame h
    exact Stepped.frame rfl hloop hresults
  | closed i =>
    obtain ⟨hloop, hresults⟩ := move_frame h
    exact Stepped.frame rfl hloop hresults

theorem event_call {call : Call I R H} (h : call ≠ .connect .started) : (Action.call call).event = none := by
  cases call with
  | connect attempt => cases attempt <;> first | rfl | exact absurd rfl h
  | _ => rfl

theorem event_eq_assign {a : Action I R H} : a.event = some .assign ↔ a = .call (.connect .started) := by
  refine ⟨fun h => ?_, fun h => by rw [h]; rfl⟩
  cases a with
  | call call =>
    by_contra hcall
    rw [event_call (fun he => hcall (by rw [he]))] at h
    cases h
  | _ => cases h

theorem event_eq_join {a : Action I R H} : a.event = some .join ↔ a = .join := by
  refine ⟨fun h => ?_, fun h => by rw [h]; rfl⟩
  cases a with
  | call call =>
    by_cases hcall : call = .connect .started
    · rw [hcall] at h
      cases h
    · rw [event_call hcall] at h
      cases h
  | join => rfl
  | _ => cases h

theorem labels (byteOrder : Order) :
    Labels (step byteOrder) (Client.loop (I := I) (R := R) (H := H)) Action.event := by
  intro c a d h
  cases step_cases h with
  | call hcalled =>
    cases hcalled with
    | assign hloop hresults => exact hloop
    | frame hcall hloop hconnects =>
      rw [event_call hcall]
      exact hloop
  | event ha he hloop hresults =>
    rw [ha]
    exact hloop
  | frame ha hloop hresults =>
    rw [ha]
    exact hloop

/-- The calls of `connect` that return normally are those that start a thread. -/
theorem hosts (byteOrder : Order) : Hosts (step byteOrder) (Client.loop (I := I) (R := R) (H := H)) connects := by
  intro c a d h
  cases step_cases h with
  | call hcalled =>
    cases hcalled with
    | assign hloop hresults =>
      refine Or.inr ⟨.assign, hloop, ?_⟩
      rw [connects, hresults, Loop.added]
      cases d.loop.terminated with
      | true => rfl
      | false => exact List.countP_append
    | frame hcall hloop hconnects => exact Or.inl ⟨hloop, hconnects⟩
  | event ha he hloop hresults =>
    refine Or.inr ⟨_, hloop, ?_⟩
    rw [connects, hresults, Loop.added, if_neg (fun h => he h.1)]
    rfl
  | frame ha hloop hresults => exact Or.inl ⟨hloop, congrArg (List.countP _) hresults⟩

/-! ## Whole lives -/

variable {byteOrder : Order} {actions : List (Action I R H)} {c : Client I R H}

/-- **No call of `connect` assigns to a joinable `ioThread_` exactly** in the lives in which, between any two
calls of `connect` that get as far as the assignment, a call of `disconnect` returns. -/
theorem not_terminated_iff (h : Run (ofFun (step byteOrder)) new actions c) :
    c.loop.terminated = false ↔
      ∀ before between after, actions = before ++ .call (.connect .started) ::
        (between ++ .call (.connect .started) :: after) → .join ∈ between := by
  rw [(labels byteOrder).terminated_iff h rfl]
  constructor
  · intro halternates before between after hactions
    obtain ⟨j, hj, hjoin⟩ := halternates before _ between _ after hactions rfl rfl
    rwa [event_eq_join.mp hjoin] at hj
  · intro hjoin as a bs b cs hactions ha hb
    obtain rfl := event_eq_assign.mp ha
    obtain rfl := event_eq_assign.mp hb
    exact ⟨.join, hjoin as bs cs hactions, rfl⟩

/-- The connection is refused and the io thread returns, and its handle is joinable still. -/
theorem connect_after_refusal :
    (exec (step .little) (new : Client Unit Unit Unit)
      [.call (.connect .started), .enter, .fail 0, .finish, .call (.connect .started)]).map
        (fun c => c.loop.terminated) = some true := rfl

/-- With a `disconnect` that returns between them, both calls of `connect` return. -/
theorem connect_after_disconnect :
    ¬ ∃ before between after : List (Action Unit Unit Unit),
      [.call (.connect .started), .enter, .fail 0, .finish, .call .disconnect, .join, .call (.connect .started)] =
        before ++ .call (.connect .started) :: (between ++ .call (.connect .started) :: after) ∧
      .join ∉ between := by
  rintro ⟨before, between, after, h, hjoin⟩
  have hrun := run_of_exec (show exec (step .little) (new : Client Unit Unit Unit)
    [.call (.connect .started), .enter, .fail 0, .finish, .call .disconnect, .join,
      .call (.connect .started)] = some _ from rfl)
  exact hjoin ((not_terminated_iff hrun).mp rfl before between after h)

/-- **Every io thread finds its service running exactly** in the lives in which `connect` returns normally at
most once. -/
theorem served_iff (h : Run (ofFun (step byteOrder)) new actions c) :
    (∀ d, Passes (ofFun (step byteOrder)) new actions c d → d.loop.Served) ↔ c.connects ≤ 1 :=
  (hosts byteOrder).served_iff h rfl rfl

end Client

end Communique
