import Communique.Lifecycle.Client

/-!
# `Server`: the life of a server

One thread calls `listen` and `stop`; the io thread accepts connections and runs the handlers of those that
open and close. `stop` is three steps, and `listen` takes these first when there is an io thread; each step
that holds the mutex of the connections is one step here.

* `TLSHandler.on_tls_init` : which of the files that are set make it throw;
* `on_open`, `on_close`, `closeAll` : what happens to the list of connections;
* `Server.start` : the part of `listen` that can fail, behind its guard;
* `Server.step` : the steps of both threads; `Stepped` and `step_cases` say what each one changes;
* `Guarded`, `Closed` : what holds in every life of the thread, and of the acceptor while `stop` is under way;
* **`not_terminated`** : no call of `listen` assigns to a joinable thread handle;
* **`served_iff`** : which lives start every io thread on a service that is not stopped.
-/

namespace Communique
open RunLoop Transition

/-! ## The TLS settings -/

structure TLSHandler where
  certificateChainFileName : Bytes
  privateKeyFileName : Bytes
  verifyFileName : Bytes
  diffieHellmanParamsFileName : Bytes
  deriving DecidableEq

/-- What the TLS context does with a file of each kind: nothing on a good one, an exception else. -/
structure Files where
  use_certificate_chain_file : Bytes → Except Exn Unit
  use_private_key_file : Bytes → Except Exn Unit
  load_verify_file : Bytes → Except Exn Unit
  use_tmp_dh_file : Bytes → Except Exn Unit

namespace TLSHandler

/-- The names of a new handler are empty. -/
def new : TLSHandler := ⟨[], [], [], []⟩

/-- A file is used if its name is set. -/
def useFile (use : Bytes → Except Exn Unit) (fileName : Bytes) : Except Exn Unit :=
  if fileName.isEmpty then .ok () else use fileName

def on_tls_init (t : TLSHandler) (files : Files) : Except Exn Unit :=
  (useFile files.use_certificate_chain_file t.certificateChainFileName).bind fun _ =>
    (useFile files.use_private_key_file t.privateKeyFileName).bind fun _ =>
      (useFile files.load_verify_file t.verifyFileName).bind fun _ =>
        useFile files.use_tmp_dh_file t.diffieHellmanParamsFileName

end TLSHandler

/-! ## The server -/

/-- An element of `currentConnections_`, and whether it has been told to close. -/
structure ServerConnection (I R H : Type) where
  hdl : Nat
  state : SessionState
  toldToClose : Bool
  connection : Connection I R H

/-- What a call of `listen` finds: the message of an endpoint that is listening already, the errors of the
port, the files, and whether there is a thread for it. -/
structure ListenCall where
  alreadyListening : Bytes
  portError : Option (Bytes × Option Bytes)
  files : Files
  thread : Except Exn Unit

/-- Where the calling thread is: in no call, in `stop` before its loop or in its join, with the call of
`listen` that `stop` is part of, or in `listen` behind its guard. -/
inductive Caller
  | idle
  | closing (next : Option ListenCall)
  | joining (next : Option ListenCall)
  | starting (call : ListenCall)

structure Server (I R H : Type) where
  listening : Bool
  /-- An asynchronous accept is under way. -/
  accepting : Bool
  tlsHandler : TLSHandler
  defaultInfoHandler : Option I
  defaultRequestHandler : Option R
  /-- `ioThread_`, and the io service of `server_`. -/
  loop : Loop
  /-- The accepted connections whose handshake is not over. -/
  handshaking : List Nat
  nextHdl : Nat
  currentConnections : List (ServerConnection I R H)
  caller : Caller
  /-- How the calls of `listen` ended. -/
  results : List (Except Exn Bool)

namespace Server
variable {I R H : Type}

def new : Server I R H where
  listening := false
  accepting := false
  tlsHandler := .new
  defaultInfoHandler := none
  defaultRequestHandler := none
  loop := .new
  handshaking := []
  nextHdl := 0
  currentConnections := []
  caller := .idle
  results := []

/-! ## The handlers -/

def on_open (s : Server I R H) (hdl : Nat) : Server I R H :=
  { s with currentConnections := s.currentConnections ++
      [⟨hdl, .open, false, Connection.new s.defaultInfoHandler s.defaultRequestHandler⟩] }

/-- The first connection with the handle is erased; without one there is only a message. -/
def on_close (s : Server I R H) (hdl : Nat) : Server I R H :=
  { s with currentConnections := s.currentConnections.eraseP fun c => c.hdl = hdl }

end Server

/-- `Connection::close`, which acts on an open connection only. -/
def ServerConnection.close {I R H : Type} (c : ServerConnection I R H) : ServerConnection I R H :=
  if c.state = .open then { c with state := .closing, toldToClose := true } else c

namespace Server
variable {I R H : Type}

/-- The loop of `stop`. -/
def closeAll (s : Server I R H) : Server I R H :=
  { s with currentConnections := s.currentConnections.map ServerConnection.close }

/-! ## `listen` and `stop` -/

/-- `stop_listening`, if the endpoint is listening. -/
def stopListening (s : Server I R H) : Server I R H := { s with listening := false, accepting := false }

def listenError (message : Bytes) (underlying : Option Bytes) : Exn :=
  .exception (ascii "Communique server listen error: " ++ message ++
    match underlying with
    | some underlying => ascii " (" ++ underlying ++ ascii ")"
    | none => [])

/-- The handlers of `listen` leave a `std::exception` as it is. -/
def rethrow : Exn → Exn
  | .exception what => .exception what
  | .unknown => runtimeError "Unknown exception in communique::Server::listen"

def threw (s : Server I R H) (e : Exn) : Server I R H :=
  { s with caller := .idle, results := s.results ++ [.error (rethrow e)] }

/-- `listen` behind its guard: the acceptor, the accept loop and the thread, one after the other. -/
def start (s : Server I R H) (call : ListenCall) : Option (Server I R H) :=
  if s.listening then some (s.threw (listenError call.alreadyListening none))
  else match call.portError with
    | some (message, underlying) => some (s.threw (listenError message underlying))
    | none =>
      match s.tlsHandler.on_tls_init call.files with
      | .error e => some ({ s with listening := true }.threw e)
      | .ok () =>
        match call.thread with
        | .error e => some ({ s with listening := true, accepting := true }.threw e)
        | .ok () =>
          (s.loop.step .assign).map fun loop =>
            { s with
              listening := true
              accepting := true
              loop := loop
              caller := .idle
              results := if loop.terminated then s.results else s.results ++ [.ok true] }

/-! ## The steps -/

inductive Call (I R : Type)
  | listen (call : ListenCall)
  | stop
  | setCertificateChainFile (filename : Bytes)
  | setPrivateKeyFile (filename : Bytes)
  | setVerifyFile (filename : Bytes)
  | setDiffieHellmanParamsFile (filename : Bytes)
  | setDefaultInfoHandler (infoHandler : Option I)
  | setDefaultRequestHandler (requestHandler : Option R)

/-- The calls, the further steps of `stop` and `listen`, and the steps of the io thread. -/
inductive Action (I R : Type)
  | call (call : Call I R)
  | closeAll
  | join
  | start
  | enter
  | finish
  | accept
  | handshakeFailed (hdl : Nat)
  | on_open (hdl : Nat)
  | closing (hdl : Nat)
  | on_close (hdl : Nat)

def call (s : Server I R H) : Call I R → Server I R H
  | .listen call =>
    if s.loop.thread.joinable then { s.stopListening with caller := .closing (some call) }
    else { s with caller := .starting call }
  | .stop => { s.stopListening with caller := .closing none }
  | .setCertificateChainFile filename =>
    { s with tlsHandler := { s.tlsHandler with certificateChainFileName := filename } }
  | .setPrivateKeyFile filename => { s with tlsHandler := { s.tlsHandler with privateKeyFileName := filename } }
  | .setVerifyFile filename => { s with tlsHandler := { s.tlsHandler with verifyFileName := filename } }
  | .setDiffieHellmanParamsFile filename =>
    { s with tlsHandler := { s.tlsHandler with diffieHellmanParamsFileName := filename } }
  | .setDefaultInfoHandler infoHandler => { s with defaultInfoHandler := infoHandler }
  | .setDefaultRequestHandler requestHandler => { s with defaultRequestHandler := requestHandler }

/-- What the calling thread does after `stop`. -/
def afterStop : Option ListenCall → Caller
  | none => .idle
  | some call => .starting call

/-- No accept, handshake or connection keeps the io service busy. -/
def OutOfWork (s : Server I R H) : Prop :=
  s.accepting = false ∧ s.handshaking = [] ∧ s.currentConnections.isEmpty = true

instance (s : Server I R H) : Decidable s.OutOfWork := inferInstanceAs (Decidable (_ ∧ _ ∧ _))

/-- The io thread takes its steps while it is in `run`. -/
def ioStep (s : Server I R H) : Action I R → Option (Server I R H)
  | .accept =>
    if s.accepting then some { s with handshaking := s.handshaking ++ [s.nextHdl], nextHdl := s.nextHdl + 1 }
    else none
  | .handshakeFailed hdl =>
    if hdl ∈ s.handshaking then some { s with handshaking := s.handshaking.erase hdl } else none
  | .on_open hdl =>
    if hdl ∈ s.handshaking then some ({ s with handshaking := s.handshaking.erase hdl }.on_open hdl) else none
  | .closing hdl =>
    some { s with currentConnections := s.currentConnections.map fun c =>
      if c.hdl = hdl ∧ c.state = .open then { c with state := .closing } else c }
  | .on_close hdl => if hdl ∈ s.handshaking then none else some (s.on_close hdl)
  | _ => none

def step (s : Server I R H) (a : Action I R) : Option (Server I R H) :=
  if s.loop.terminated then none
  else match a with
    | .call call =>
      match s.caller with
      | .idle => some (s.call call)
      | _ => none
    | .closeAll =>
      match s.caller with
      | .closing next => some { s.closeAll with caller := .joining next }
      | _ => none
    | .join =>
      match s.caller with
      | .joining next => (s.loop.step .join).map fun loop => { s with loop := loop, caller := afterStop next }
      | _ => none
    | .start =>
      match s.caller with
      | .starting call => s.start call
      | _ => none
    | .enter => (s.loop.step .enter).map fun loop => { s with loop := loop }
    | .finish => if s.OutOfWork then (s.loop.step .finish).map fun loop => { s with loop := loop } else none
    | a => if s.loop.thread = .running then s.ioStep a else none

/-- The calls of `listen` that have returned true. -/
def listens (s : Server I R H) : Nat := s.results.countP fun result => result.isOk

/-! ## What a step changes -/

/-- How `listen` ends behind its guard. -/
inductive Started (s : Server I R H) (call : ListenCall) : Server I R H → Prop
  | refused {e : Exn} (h : s.listening = true ∨ call.portError ≠ none) : Started s call (s.threw e)
  | badFile {e : Exn} (hlistening : s.listening = false) (hport : call.portError = none)
      (hfile : s.tlsHandler.on_tls_init call.files = .error e) :
      Started s call ({ s with listening := true }.threw e)
  | noThread {e : Exn} (hlistening : s.listening = false) (hport : call.portError = none)
      (hfile : s.tlsHandler.on_tls_init call.files = .ok ()) (hthread : call.thread = .error e) :
      Started s call ({ s with listening := true, accepting := true }.threw e)
  | started {loop : Loop} (hlistening : s.listening = false) (hport : call.portError = none)
      (hfile : s.tlsHandler.on_tls_init call.files = .ok ()) (hthread : call.thread = .ok ())
      (hloop : s.loop.step .assign = some loop) :
      Started s call { s with
        listening := true
        accepting := true
        loop := loop
        caller := .idle
        results := if loop.terminated then s.results else s.results ++ [.ok true] }

theorem start_cases {s t : Server I R H} {call : ListenCall} (h : s.start call = some t) : Started s call t := by
  unfold start at h
  split at h
  · next hlistening =>
    obtain rfl := Option.some.inj h
    exact Started.refused (Or.inl hlistening)
  · next hlistening =>
    have hlistening := (Bool.not_eq_true _).mp hlistening
    split at h
    · next message underlying hport =>
      obtain rfl := Option.some.inj h
      exact Started.refused (Or.inr (by simp [hport]))
    · next hport =>
      split at h
      · next e hfile =>
        obtain rfl := Option.some.inj h
        exact Started.badFile hlistening hport hfile
      · next hfile =>
        split at h
        · next e hthread =>
          obtain rfl := Option.some.inj h
          exact Started.noThread hlistening hport hfile hthread
        · next hthread =>
          obtain ⟨loop, hloop, rfl⟩ := Option.map_eq_some_iff.mp h
          exact Started.started hlistening hport hfile hthread hloop

inductive Stepped (s : Server I R H) : Action I R → Server I R H → Prop
  | call {call : Call I R} (h : s.caller = .idle) : Stepped s (.call call) (s.call call)
  | closeAll {next : Option ListenCall} (h : s.caller = .closing next) :
      Stepped s .closeAll { s.closeAll with caller := .joining next }
  | join {next : Option ListenCall} {loop : Loop} (h : s.caller = .joining next)
      (hloop : s.loop.step .join = some loop) : Stepped s .join { s with loop := loop, caller := afterStop next }
  | start {call : ListenCall} {t : Server I R H} (h : s.caller = .starting call) (hstarted : Started s call t) :
      Stepped s .start t
  | enter {loop : Loop} (hloop : s.loop.step .enter = some loop) : Stepped s .enter { s with loop := loop }
  | finish {loop : Loop} (hwork : s.OutOfWork) (hloop : s.loop.step .finish = some loop) :
      Stepped s .finish { s with loop := loop }
  | io {a : Action I R} {t : Server I R H} (hrunning : s.loop.thread = .running) (h : s.ioStep a = some t) :
      Stepped s a t

theorem step_cases {s t : Server I R H} {a : Action I R} (h : s.step a = some t) : Stepped s a t := by
  obtain ⟨-, h⟩ := Option.ite_none_left_eq_some.mp h
  cases a with
  | call call =>
    dsimp only at h
    split at h
    · next hcaller =>
      obtain rfl := Option.some.inj h
      exact Stepped.call hcaller
    · cases h
  | closeAll =>
    dsimp only at h
    split at h
    · next next hcaller =>
      obtain rfl := Option.some.inj h
      exact Stepped.closeAll hcaller
    · cases h
  | join =>
    dsimp only at h
    split at h
    · next next hcaller =>
      obtain ⟨loop, hloop, rfl⟩ := Option.map_eq_some_iff.mp h
      exact Stepped.join hcaller hloop
    · cases h
  | start =>
    dsimp only at h
    split at h
    · next call hcaller => exact Stepped.start hcaller (start_cases h)
    · cases h
  | enter =>
    obtain ⟨loop, hloop, rfl⟩ := Option.map_eq_some_iff.mp h
    exact Stepped.enter hloop
  | finish =>
    obtain ⟨hwork, h⟩ := Option.ite_none_right_eq_some.mp h
    obtain ⟨loop, hloop, rfl⟩ := Option.map_eq_some_iff.mp h
    exact Stepped.finish hwork hloop
  | _ =>
    obtain ⟨hrunning, h⟩ := Option.ite_none_right_eq_some.mp h
    exact Stepped.io hrunning h

/-- The io thread touches the connections only. -/
structure IoFrame (s t : Server I R H) : Prop where
  loop : t.loop = s.loop
  caller : t.caller = s.caller
  listening : t.listening = s.listening
  accepting : t.accepting = s.accepting
  results : t.results = s.results

theorem ioStep_frame {s t : Server I R H} {a : Action I R} (h : s.ioStep a = some t) : IoFrame s t := by
  cases a with
  | accept =>
    obtain ⟨-, h⟩ := Option.ite_none_right_eq_some.mp h
    obtain rfl := Option.some.inj h
    exact ⟨rfl, rfl, rfl, rfl, rfl⟩
  | handshakeFailed hdl =>
    obtain ⟨-, h⟩ := Option.ite_none_right_eq_some.mp h
    obtain rfl := Option.some.inj h
    exact ⟨rfl, rfl, rfl, rfl, rfl⟩
  | on_open hdl =>
    obtain ⟨-, h⟩ := Option.ite_none_right_eq_some.mp h
    obtain rfl := Option.some.inj h
    exact ⟨rfl, rfl, rfl, rfl, rfl⟩
  | closing hdl =>
    obtain rfl := Option.some.inj h
    exact ⟨rfl, rfl, rfl, rfl, rfl⟩
  | on_close hdl =>
    obtain ⟨-, h⟩ := Option.ite_none_left_eq_some.mp h
    obtain rfl := Option.some.inj h
    exact ⟨rfl, rfl, rfl, rfl, rfl⟩
  | _ => cases h

/-! ## The io thread and its service -/

@[simp] theorem call_loop (s : Server I R H) (c : Call I R) : (s.call c).loop = s.loop := by
  cases c with
  | listen attempt =>
    unfold call
    dsimp only
    split <;> rfl
  | _ => rfl

@[simp] theorem call_results (s : Server I R H) (c : Call I R) : (s.call c).results = s.results := by
  cases c with
  | listen attempt =>
    unfold call
    dsimp only
    split <;> rfl
  | _ => rfl

theorem listens_threw (s : Server I R H) (e : Exn) : (s.threw e).listens = s.listens := by
  rw [listens, threw, List.countP_append]
  rfl

/-- The calls of `listen` that return true are those that start a thread. -/
theorem hosts : Hosts step (Server.loop (I := I) (R := R) (H := H)) listens := by
  intro s a t h
  cases step_cases h with
  | call hcaller =>
    refine Or.inl ⟨call_loop s _, ?_⟩
    rw [listens, call_results]
    rfl
  | closeAll hcaller => exact Or.inl ⟨rfl, rfl⟩
  | join hcaller hloop => exact Or.inr ⟨.join, hloop, rfl⟩
  | start hcaller hstarted =>
    cases hstarted with
    | refused h => exact Or.inl ⟨rfl, listens_threw s _⟩
    | badFile => exact Or.inl ⟨rfl, listens_threw _ _⟩
    | noThread => exact Or.inl ⟨rfl, listens_threw _ _⟩
    | @started loop hlistening hport hfile hthread hloop =>
      refine Or.inr ⟨.assign, hloop, ?_⟩
      dsimp only [listens, Loop.added]
      cases loop.terminated with
      | true => rfl
      | false => exact List.countP_append
  | enter hloop => exact Or.inr ⟨.enter, hloop, rfl⟩
  | finish hwork hloop => exact Or.inr ⟨.finish, hloop, rfl⟩
  | io hrunning h =>
    have hframe := ioStep_frame h
    exact Or.inl ⟨hframe.loop, congrArg (List.countP _) hframe.results⟩

/-- The process lives, and `listen` behind its guard has no thread. -/
structure Guarded (s : Server I R H) : Prop where
  alive : s.loop.terminated = false
  guard : ∀ call, s.caller = .starting call → s.loop.thread = .none

theorem guarded_new : Guarded (new : Server I R H) where
  alive := rfl
  guard call h := by cases h

/-- `listen` passes its guard without a thread. -/
theorem thread_of_call_starting {s : Server I R H} {c : Call I R} {attempt : ListenCall} (hidle : s.caller = .idle)
    (h : (s.call c).caller = .starting attempt) : s.loop.thread = .none := by
  cases c with
  | listen call =>
    unfold Server.call at h
    dsimp only at h
    split at h
    · cases h
    · next hjoinable => simpa [Thread.joinable] using hjoinable
  | stop => cases h
  | _ =>
    rw [show s.caller = .starting attempt from h] at hidle
    cases hidle

theorem Guarded.step {s t : Server I R H} {a : Action I R} (hs : s.Guarded) (h : s.step a = some t) : t.Guarded := by
  cases step_cases h with
  | call hcaller =>
    refine ⟨by rw [call_loop]; exact hs.alive, fun attempt hstarting => ?_⟩
    rw [call_loop]
    exact thread_of_call_starting hcaller hstarting
  | closeAll hcaller => exact ⟨hs.alive, fun attempt h => by cases h⟩
  | join hcaller hloop =>
    exact ⟨Loop.alive_of_step hloop (by simp), fun _ _ => Loop.thread_of_join hloop⟩
  | start hcaller hstarted =>
    cases hstarted with
    | refused h => exact ⟨hs.alive, fun attempt h => by cases h⟩
    | badFile => exact ⟨hs.alive, fun attempt h => by cases h⟩
    | noThread => exact ⟨hs.alive, fun attempt h => by cases h⟩
    | started hlistening hport hfile hthread hloop =>
      exact ⟨Loop.alive_of_step hloop fun _ => hs.guard _ hcaller, fun attempt h => by cases h⟩
  | enter hloop =>
    refine ⟨Loop.alive_of_step hloop (by simp), fun attempt hstarting => ?_⟩
    exact absurd (hs.guard attempt hstarting) (Loop.thread_ne_none hloop (Or.inl rfl)).1
  | finish hwork hloop =>
    refine ⟨Loop.alive_of_step hloop (by simp), fun attempt hstarting => ?_⟩
    exact absurd (hs.guard attempt hstarting) (Loop.thread_ne_none hloop (Or.inr rfl)).1
  | io hrunning h =>
    have hframe := ioStep_frame h
    refine ⟨by rw [hframe.loop]; exact hs.alive, fun attempt hstarting => ?_⟩
    rw [hframe.caller] at hstarting
    rw [hframe.loop]
    exact hs.guard attempt hstarting

/-- `listen` returns or throws behind its guard. -/
theorem Started.caller {s t : Server I R H} {call : ListenCall} (h : Started s call t) : t.caller = .idle := by
  cases h <;> rfl

/-- The calling thread is in `stop`, behind `stop_listening`. -/
def Stopping (s : Server I R H) : Prop := ∃ next, s.caller = .closing next ∨ s.caller = .joining next

theorem not_stopping_afterStop (next next' : Option ListenCall) :
    ¬ (afterStop next = .closing next' ∨ afterStop next = .joining next') := by
  cases next <;> simp [afterStop]

/-- Nothing is accepted while the server is being stopped. -/
def Closed (s : Server I R H) : Prop := s.Stopping → s.listening = false ∧ s.accepting = false

theorem closed_new : Closed (new : Server I R H) := by
  rintro ⟨next, h | h⟩ <;> cases h

theorem closed_call {s : Server I R H} {c : Call I R} (hidle : s.caller = .idle) : (s.call c).Closed := by
  cases c with
  | listen call =>
    unfold Server.call
    dsimp only
    split
    · exact fun _ => ⟨rfl, rfl⟩
    · rintro ⟨next, h | h⟩ <;> cases h
  | stop => exact fun _ => ⟨rfl, rfl⟩
  | _ =>
    rintro ⟨next, h⟩
    have hcaller : s.caller = .closing next ∨ s.caller = .joining next := h
    simp [hidle] at hcaller

theorem Closed.step {s t : Server I R H} {a : Action I R} (hs : s.Closed) (h : s.step a = some t) : t.Closed := by
  cases step_cases h with
  | call hcaller => exact closed_call hcaller
  | @closeAll next hcaller => exact fun _ => hs ⟨next, Or.inl hcaller⟩
  | join hcaller hloop =>
    rintro ⟨next, h⟩
    exact absurd h (not_stopping_afterStop _ _)
  | start hcaller hstarted =>
    rintro ⟨next, h⟩
    rw [hstarted.caller] at h
    simp at h
  | enter hloop => exact hs
  | finish hwork hloop => exact hs
  | io hrunning h =>
    have hframe := ioStep_frame h
    rintro ⟨next, hcaller⟩
    rw [hframe.caller] at hcaller
    rw [hframe.listening, hframe.accepting]
    exact hs ⟨next, hcaller⟩

/-! ## Whole lives -/

variable {actions : List (Action I R)} {s : Server I R H}

theorem guarded (h : Run (ofFun step) new actions s) : s.Guarded :=
  h.invariant (fun hs hstep => hs.step hstep) guarded_new

theorem closed (h : Run (ofFun step) new actions s) : s.Closed :=
  h.invariant (fun hs hstep => hs.step hstep) closed_new

/-- **No call of `listen` assigns to a joinable `ioThread_`**: its guard stops the server first. -/
theorem not_terminated (h : Run (ofFun step) new actions s) : s.loop.terminated = false := (guarded h).alive

/-- **Every io thread finds its service running exactly** in the lives in which `listen` returns true at most
once. -/
theorem served_iff (h : Run (ofFun step) new actions s) :
    (∀ t, Passes (ofFun step) new actions s t → t.loop.Served) ↔ s.listens ≤ 1 :=
  hosts.served_iff h rfl rfl

end Server

end Communique
