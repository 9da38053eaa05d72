import Communique.Lifecycle.Client

/-!
# Calls of the client from its own handlers

An info handler runs on the io thread. A request handler and a response handler run on a thread of their own, and
the io thread waits for its end in the destructor of the future. A handler may call the client that it belongs to,
and some of these calls wait for what only the io thread can do. `connect` is none of these calls: the client connects
once, and neither its user nor its handlers connect it again. After `disconnect` a second connection would be started on
a stopped io service, where it is never served and `isConnected` waits for ever (`Client.served_iff`).

* `Call`, `Part` : the calls that may wait, and what each of them does between two waits;
* `Handlers`, `Message`, `Life`, `step` : the handlers by what they call, and the thread of the user, the io thread
  and the connection from the first `connect` on;
* `HandlerStepped`, `handlerStep_cases` : what a handler does in a step;
* `Act.GoesOn`, `Life.weight` : the steps that start nothing new, and how many of them are left at most;
* `Good`, `good_step` : what holds where the handlers call nothing that waits; `goes_on` : then something can go on
  until the user's call has returned;
* `Shows`, `exists_client` : such a life is one of the lives of `Client`;
* `Dead`, `dead_step` : nobody can go on, for ever; `exists_dead` : one call of a handler is enough;
* **`disconnect_returns`** : for which handlers the calls of the user return;
* **`silent_after_disconnect`** : no handler runs after that.
-/

namespace Communique.Reentry
open Transition

/-! ## The calls -/

/-- The calls of a client that may wait; `connect` does not. -/
inductive Call
  | isConnected
  | isDisconnected
  | disconnect
  deriving DecidableEq

inductive Part
  | isConnected
  | isDisconnected
  | close
  | join
  deriving DecidableEq

def Call.parts : Call → List Part
  | .isConnected => [.isConnected]
  | .isDisconnected => [.isDisconnected]
  | .disconnect => [.close, .join]

/-- The parts of calls in a row. -/
def parts (calls : List Call) : List Part := calls.flatMap Call.parts

/-- The io thread: in `run` between two messages, in the info handler, waiting for a task, or out of `run`, by its
end or by an exception, which terminates the process. Handlers stand for the parts of calls that they still have to
make. -/
inductive IoThread
  | polling
  | informing (handler : List Part)
  | waiting (task : List Part)
  | finished
  | threw
  deriving DecidableEq

/-- The life of a client with its one connection: the connection, the io thread, and what is left of the call of the
user's thread. -/
structure Life where
  state : SessionState
  io : IoThread
  user : List Part
  deriving DecidableEq

/-- `connect` has returned, and is not called again. -/
def start : Life := ⟨.connecting, .polling, []⟩

/-- What a part of a call leaves the connection in, once it can be done. -/
def Part.run (s : Life) : Part → Option SessionState
  | .isConnected => if s.state = .connecting then none else some s.state
  | .isDisconnected => if s.state = .closing then none else some s.state
  | .close => if s.state = .connecting then none else some (if s.state = .open then .closing else s.state)
  | .join => if s.io = .finished then some s.state else none

/-! ## The handlers -/

/-- A message, a response with the handler that is stored for it. -/
inductive Message (H : Type)
  | info (body : Bytes)
  | request (body : Bytes)
  | response (handler : H) (body : Bytes)

/-- What the handlers call, depending on the message. -/
structure Handlers (H : Type) where
  infoHandler : Option (Bytes → List Call)
  requestHandler : Option (Bytes → List Call)
  responseHandler : H → Bytes → List Call

variable {H : Type}

/-- What the handler of a message calls, if there is one. -/
def Handlers.calls (handlers : Handlers H) : Message H → Option (List Call)
  | .info body => handlers.infoHandler.map fun f => f body
  | .request body => handlers.requestHandler.map fun f => f body
  | .response handler body => some (handlers.responseHandler handler body)

/-- Where the io thread runs the handler of a message. -/
def Message.run : Message H → List Part → IoThread
  | .info _ => .informing
  | .request _ => .waiting
  | .response _ _ => .waiting

/-- Where the io thread gets to in `on_message`: a message without a handler is ignored or refused at once. -/
def Handlers.on_message (handlers : Handlers H) (message : Message H) : IoThread :=
  match handlers.calls message with
  | none => .polling
  | some calls => message.run (parts calls)

/-- No handler makes a call that waits for the io thread once the connection has been open. -/
def Handlers.LeaveAlone (handlers : Handlers H) : Prop :=
  ∀ message calls, handlers.calls message = some calls → ∀ call ∈ calls, call = .isConnected

/-! ## The steps -/

inductive Act (H : Type)
  | call (call : Call)
  | user
  | message (message : Message H)
  | handler
  | handlerReturns
  | establish
  | fail
  | lost
  | closed
  | finish

/-- The steps that start nothing new and do not come from outside. -/
def Act.GoesOn : Act H → Prop
  | .call _ => False
  | .message _ => False
  | .lost => False
  | _ => True

/-- The connection is moved on by the io thread between two messages. -/
def Life.move (s : Life) (before : List SessionState) (after : SessionState) : Option Life :=
  if s.io = .polling ∧ s.state ∈ before then some { s with state := after } else none

/-- The next part of the handler's calls. A thread that joins itself gets an exception, which neither
`on_message` nor the thread catches. -/
def Life.handlerStep (s : Life) : Option Life :=
  match s.io with
  | .informing (.join :: _) => some { s with io := .threw }
  | .informing (part :: rest) => (part.run s).map fun state => { s with state := state, io := .informing rest }
  | .waiting (part :: rest) => (part.run s).map fun state => { s with state := state, io := .waiting rest }
  | _ => none

/-- Messages are passed on while the connection is open. -/
def Life.act (handlers : Handlers H) (s : Life) : Act H → Option Life
  | .call call => if s.user = [] then some { s with user := call.parts } else none
  | .user =>
    match s.user with
    | [] => none
    | part :: rest => (part.run s).map fun state => { s with state := state, user := rest }
  | .message message =>
    if s.io = .polling ∧ s.state = .open then some { s with io := handlers.on_message message } else none
  | .handler => s.handlerStep
  | .handlerReturns => if s.io = .informing [] ∨ s.io = .waiting [] then some { s with io := .polling } else none
  | .establish => s.move [.connecting] .open
  | .fail => s.move [.connecting] .closed
  | .lost => s.move [.open] .closed
  | .closed => s.move [.closing] .closed
  | .finish => if s.io = .polling ∧ s.state = .closed then some { s with io := .finished } else none

/-- Nothing happens after the end of the process. -/
def step (handlers : Handlers H) (s : Life) (a : Act H) : Option Life :=
  if s.io = .threw then none else s.act handlers a

variable {handlers : Handlers H} {s t : Life} {a : Act H}

/-! ## A step of a handler -/

/-- What is left of the handler that runs. -/
def IoThread.parts : IoThread → List Part
  | .informing handler => handler
  | .waiting task => task
  | _ => []

/-- A handler runs. -/
def IoThread.InHandler : IoThread → Prop
  | .informing _ => True
  | .waiting _ => True
  | _ => False

theorem IoThread.InHandler.ne {io other : IoThread} (h : io.InHandler) (hother : ¬ other.InHandler) : io ≠ other := by
  rintro rfl
  exact hother h

/-- The handler does its next part, or the io thread joins itself. -/
inductive HandlerStepped (s : Life) : Life → Prop
  | threw {rest : List Part} (hio : s.io = .informing (.join :: rest)) : HandlerStepped s { s with io := .threw }
  | part {part : Part} {state : SessionState} {io : IoThread} (hs : s.io.InHandler) (hio : io.InHandler)
      (hparts : s.io.parts = part :: io.parts) (hrun : part.run s = some state) :
      HandlerStepped s { s with state := state, io := io }

theorem handlerStep_cases (h : s.handlerStep = some t) : HandlerStepped s t := by
  unfold Life.handlerStep at h
  split at h
  · next hio =>
    cases h
    exact .threw hio
  · next hio =>
    obtain ⟨state, hrun, rfl⟩ := Option.map_eq_some_iff.mp h
    exact .part (by rw [hio]; trivial) trivial (by rw [hio]; rfl) hrun
  · next hio =>
    obtain ⟨state, hrun, rfl⟩ := Option.map_eq_some_iff.mp h
    exact .part (by rw [hio]; trivial) trivial (by rw [hio]; rfl) hrun
  · cases h

/-! ## What is left to do -/

/-- How far the connection is from its end. -/
def sessionWeight : SessionState → Nat
  | .connecting => 3
  | .open => 2
  | .closing => 1
  | .closed => 0

def IoThread.weight : IoThread → Nat
  | .polling => 1
  | .informing handler => handler.length + 2
  | .waiting task => task.length + 2
  | .finished => 0
  | .threw => 0

def Life.weight (s : Life) : Nat := s.user.length + s.io.weight + sessionWeight s.state

theorem run_weight {part : Part} {state : SessionState} (h : part.run s = some state) :
    sessionWeight state ≤ sessionWeight s.state := by
  cases part with
  | close =>
    obtain ⟨-, h⟩ := Option.ite_none_left_eq_some.mp h
    cases h
    split
    · next hopen =>
      rw [hopen]
      decide
    · exact Nat.le_refl _
  | join =>
    obtain ⟨-, h⟩ := Option.ite_none_right_eq_some.mp h
    cases h
    exact Nat.le_refl _
  | _ =>
    obtain ⟨-, h⟩ := Option.ite_none_left_eq_some.mp h
    cases h
    exact Nat.le_refl _

theorem move_weight {before : List SessionState} {after : SessionState} (h : s.move before after = some t)
    (hless : ∀ state ∈ before, sessionWeight after < sessionWeight state) : t.weight < s.weight := by
  obtain ⟨⟨-, hstate⟩, h⟩ := Option.ite_none_right_eq_some.mp h
  cases h
  have hlt := hless _ hstate
  unfold Life.weight
  dsimp only
  omega

theorem IoThread.InHandler.weight {io : IoThread} (h : io.InHandler) : io.weight = io.parts.length + 2 := by
  cases io with
  | informing handler => rfl
  | waiting task => rfl
  | _ => exact h.elim

theorem handlerStep_weight (h : s.handlerStep = some t) : t.weight < s.weight := by
  unfold Life.weight
  cases handlerStep_cases h with
  | threw hio =>
    rw [hio]
    simp [IoThread.weight]
  | part hs hio hparts hrun =>
    have hle := run_weight hrun
    rw [hs.weight, hparts, List.length_cons]
    dsimp only
    rw [hio.weight]
    omega

/-- What starts nothing new takes something off. -/
theorem weight_step (ha : a.GoesOn) (h : step handlers s a = some t) : t.weight < s.weight := by
  obtain ⟨-, h⟩ := Option.ite_none_left_eq_some.mp h
  cases a with
  | call call => exact ha.elim
  | message message => exact ha.elim
  | lost => exact ha.elim
  | user =>
    unfold Life.act at h
    dsimp only at h
    split at h
    · cases h
    · next hrest =>
      obtain ⟨state, hrun, rfl⟩ := Option.map_eq_some_iff.mp h
      have hle := run_weight hrun
      unfold Life.weight
      rw [hrest, List.length_cons]
      dsimp only
      omega
  | handler => exact handlerStep_weight h
  | handlerReturns =>
    obtain ⟨hio, h⟩ := Option.ite_none_right_eq_some.mp h
    cases h
    unfold Life.weight
    rcases hio with hio | hio <;> rw [hio] <;> simp [IoThread.weight]
  | establish => exact move_weight h (by decide)
  | fail => exact move_weight h (by decide)
  | closed => exact move_weight h (by decide)
  | finish =>
    obtain ⟨⟨hio, -⟩, h⟩ := Option.ite_none_right_eq_some.mp h
    cases h
    unfold Life.weight
    rw [hio]
    simp [IoThread.weight]

/-! ## Handlers that call nothing that waits -/

/-- What is left of a call of the user: whoever is in the join has closed the connection before. -/
inductive Calling (state : SessionState) : List Part → Prop
  | none : Calling state []
  | isConnected : Calling state [.isConnected]
  | isDisconnected : Calling state [.isDisconnected]
  | disconnect : Calling state [.close, .join]
  | joining (h : sessionWeight state ≤ 1) : Calling state [.join]

structure Good (s : Life) : Prop where
  alone : ∀ part ∈ s.io.parts, part = .isConnected
  established : s.io ≠ .polling → sessionWeight s.state ≤ 2
  ended : s.io = .finished → sessionWeight s.state = 0
  quiet : s.io ≠ .threw
  calling : Calling s.state s.user

theorem good_of_polling (h : s.io = .polling) (hcalling : Calling s.state s.user) : Good s where
  alone := by simp [h, IoThread.parts]
  established hne := absurd h hne
  ended := by simp [h]
  quiet := by simp [h]
  calling := hcalling

theorem calling_call (state : SessionState) (call : Call) : Calling state call.parts := by
  cases call with
  | isConnected => exact .isConnected
  | isDisconnected => exact .isDisconnected
  | disconnect => exact .disconnect

/-- The connection does not get away from its end. -/
theorem Calling.mono {state state' : SessionState} {user : List Part} (h : Calling state user)
    (hle : sessionWeight state' ≤ sessionWeight state) : Calling state' user := by
  cases h with
  | none => exact .none
  | isConnected => exact .isConnected
  | isDisconnected => exact .isDisconnected
  | disconnect => exact .disconnect
  | joining h => exact .joining (Nat.le_trans hle h)

theorem sessionWeight_close {state : SessionState} (h : Part.close.run s = some state) : sessionWeight state ≤ 1 := by
  obtain ⟨hstate, h⟩ := Option.ite_none_left_eq_some.mp h
  cases h
  cases hs : s.state with
  | connecting => exact absurd hs hstate
  | _ => decide

theorem Calling.tail {state : SessionState} {part : Part} {rest : List Part} (h : Calling s.state (part :: rest))
    (hrun : part.run s = some state) : Calling state rest := by
  cases h with
  | isConnected => exact .none
  | isDisconnected => exact .none
  | disconnect => exact .joining (sessionWeight_close hrun)
  | joining h => exact .none

theorem parts_alone {calls : List Call} (h : ∀ call ∈ calls, call = .isConnected) :
    ∀ part ∈ parts calls, part = .isConnected := by
  intro part hpart
  obtain ⟨call, hcall, hin⟩ := List.mem_flatMap.mp hpart
  rw [h call hcall] at hin
  exact List.mem_singleton.mp hin

theorem Message.parts_run (message : Message H) (handler : List Part) : (message.run handler).parts = handler := by
  cases message <;> rfl

theorem good_handlerStep (h : Good s) (hst : s.handlerStep = some t) : Good t := by
  cases handlerStep_cases hst with
  | threw hio =>
    have hjoin : Part.join = .isConnected := h.alone _ (by simp [hio, IoThread.parts])
    cases hjoin
  | part hs hio hparts hrun =>
    have hle := run_weight hrun
    have hestablished := h.established (hs.ne id)
    refine ⟨fun p hp => h.alone p ?_, fun _ => Nat.le_trans hle hestablished, fun heq => absurd heq (hio.ne id),
      hio.ne id, h.calling.mono hle⟩
    rw [hparts]
    exact List.mem_cons_of_mem _ hp

theorem good_user (h : Good s) (hst : s.act handlers .user = some t) : Good t := by
  unfold Life.act at hst
  dsimp only at hst
  split at hst
  · cases hst
  · next part rest huser =>
    obtain ⟨state, hrun, rfl⟩ := Option.map_eq_some_iff.mp hst
    have hle := run_weight hrun
    have hcalling := h.calling
    rw [huser] at hcalling
    exact ⟨h.alone, fun hne => Nat.le_trans hle (h.established hne),
      fun hfinished => Nat.eq_zero_of_le_zero (Nat.le_trans hle (h.ended hfinished).le), h.quiet, hcalling.tail hrun⟩

theorem good_message (halone : handlers.LeaveAlone) (h : Good s) {message : Message H}
    (hst : s.act handlers (.message message) = some t) : Good t := by
  obtain ⟨⟨-, hopen⟩, hst⟩ := Option.ite_none_right_eq_some.mp hst
  cases hst
  have hestablished : sessionWeight s.state ≤ 2 := by
    rw [hopen]
    decide
  unfold Handlers.on_message
  split
  · exact good_of_polling rfl h.calling
  · next calls hcalls =>
    refine ⟨?_, fun _ => hestablished, ?_, ?_, h.calling⟩
    · rw [Message.parts_run]
      exact parts_alone (halone message calls hcalls)
    · cases message <;> simp [Message.run]
    · cases message <;> simp [Message.run]

theorem good_move {before : List SessionState} {after : SessionState} (h : Good s)
    (hst : s.move before after = some t)
    (hless : ∀ state ∈ before, sessionWeight after < sessionWeight state) : Good t := by
  obtain ⟨⟨hio, hstate⟩, hst⟩ := Option.ite_none_right_eq_some.mp hst
  cases hst
  exact good_of_polling hio (h.calling.mono (hless _ hstate).le)

theorem good_step (halone : handlers.LeaveAlone) (h : Good s) (hst : step handlers s a = some t) : Good t := by
  obtain ⟨-, hst⟩ := Option.ite_none_left_eq_some.mp hst
  cases a with
  | call call =>
    obtain ⟨-, hst⟩ := Option.ite_none_right_eq_some.mp hst
    cases hst
    exact ⟨h.alone, h.established, h.ended, h.quiet, calling_call s.state call⟩
  | user => exact good_user h hst
  | message message => exact good_message halone h hst
  | handler => exact good_handlerStep h hst
  | handlerReturns =>
    obtain ⟨-, hst⟩ := Option.ite_none_right_eq_some.mp hst
    cases hst
    exact good_of_polling rfl h.calling
  | establish => exact good_move h hst (by decide)
  | fail => exact good_move h hst (by decide)
  | lost => exact good_move h hst (by decide)
  | closed => exact good_move h hst (by decide)
  | finish =>
    obtain ⟨⟨-, hclosed⟩, hst⟩ := Option.ite_none_right_eq_some.mp hst
    cases hst
    exact ⟨by simp [IoThread.parts], by simp [hclosed, sessionWeight], by simp [hclosed, sessionWeight], by simp,
      h.calling⟩

theorem ne_connecting_of_le {state : SessionState} (h : sessionWeight state ≤ 2) : state ≠ .connecting := by
  rintro rfl
  exact absurd h (by decide)

/-- A handler can always make the call that is next, or return. -/
theorem handler_goes_on (h : Good s) (hio : s.io ≠ .polling) (hfinished : s.io ≠ .finished) :
    ∃ a : Act H, a.GoesOn ∧ s.act handlers a ≠ none := by
  have hestablished := ne_connecting_of_le (h.established hio)
  cases hs : s.io with
  | polling => exact absurd hs hio
  | finished => exact absurd hs hfinished
  | threw => exact absurd hs h.quiet
  | informing handler =>
    cases handler with
    | nil => exact ⟨.handlerReturns, trivial, by simp [Life.act, hs]⟩
    | cons part rest =>
      have hpart := h.alone part (by simp [hs, IoThread.parts])
      exact ⟨.handler, trivial, by simp [Life.act, Life.handlerStep, hs, hpart, Part.run, hestablished]⟩
  | waiting task =>
    cases task with
    | nil => exact ⟨.handlerReturns, trivial, by simp [Life.act, hs]⟩
    | cons part rest =>
      have hpart := h.alone part (by simp [hs, IoThread.parts])
      exact ⟨.handler, trivial, by simp [Life.act, Life.handlerStep, hs, hpart, Part.run, hestablished]⟩

/-- The user's call waits for no more than the connection's next state and the end of the io thread. -/
theorem user_goes_on (h : Good s) (huser : s.user ≠ []) (hstate : s.state = .open ∨ s.io = .finished) :
    ∃ a : Act H, a.GoesOn ∧ s.act handlers a ≠ none := by
  obtain ⟨part, rest, hs⟩ := List.exists_cons_of_ne_nil huser
  have hcalling := h.calling
  rw [hs] at hcalling
  refine ⟨.user, trivial, ?_⟩
  rcases hstate with hopen | hfinished
  · cases hcalling with
    | joining hle =>
      rw [hopen] at hle
      exact absurd hle (by decide)
    | _ => simp [Life.act, hs, Part.run, hopen]
  · have hended := h.ended hfinished
    cases hstate : s.state with
    | closed => cases part <;> simp [Life.act, hs, Part.run, hstate, hfinished]
    | _ =>
      rw [hstate] at hended
      exact absurd hended (by decide)

/-- As long as a call of the user is under way, something can go on. -/
theorem goes_on (handlers : Handlers H) (h : Good s) (huser : s.user ≠ []) :
    ∃ a : Act H, a.GoesOn ∧ s.act handlers a ≠ none := by
  by_cases hpolling : s.io = .polling
  · cases hstate : s.state with
    | connecting => exact ⟨.establish, trivial, by simp [Life.act, Life.move, hpolling, hstate]⟩
    | «open» => exact user_goes_on h huser (Or.inl hstate)
    | closing => exact ⟨.closed, trivial, by simp [Life.act, Life.move, hpolling, hstate]⟩
    | closed => exact ⟨.finish, trivial, by simp [Life.act, hpolling, hstate]⟩
  · by_cases hfinished : s.io = .finished
    · exact user_goes_on h huser (Or.inr hfinished)
    · exact handler_goes_on h hpolling hfinished

/-! ## The life of the client -/

section Client
variable {I R K : Type} {byteOrder : Endian.Order} {c : Client I R K}

/-- The client with its one connection, whose handlers are left out. -/
structure Shows (c : Client I R K) (s : Life) : Prop where
  sessions : c.sessions = [⟨s.state, true⟩]
  connection : ∃ d, c.pConnection = some (0, d)
  alive : c.loop.terminated = false
  running : s.io ≠ .finished → c.loop.thread = .running
  finished : s.io = .finished → c.loop.thread = .returned ∨ c.loop.thread = .none
  disconnecting : c.disconnecting = true ↔ s.user = [.join]

theorem Shows.session (h : Shows c s) : c.session = some ⟨s.state, true⟩ := by
  obtain ⟨d, hd⟩ := h.connection
  rw [Client.session, hd, h.sessions]
  rfl

theorem Shows.not_disconnecting (h : Shows c s) (huser : s.user ≠ [.join]) : c.disconnecting = false := by
  rw [← Bool.not_eq_true, h.disconnecting]
  exact huser

/-- A call that waits does so here where it does so there. -/
theorem Shows.call (h : Shows c s) (huser : s.user ≠ [.join]) (call : Client.Call I R K) :
    Client.step byteOrder c (.call call) = c.call byteOrder call := by
  simp [Client.step, h.alive, h.not_disconnecting huser]

theorem Shows.setState (h : Shows c s) (state : SessionState) :
    (c.setState 0 state).sessions = [⟨state, true⟩] := by
  rw [Client.setState, h.sessions]
  rfl

theorem Shows.move (h : Shows c s) {before : List SessionState} {after : SessionState}
    (hst : s.move before after = some t) (before' : List SessionState) (hsub : ∀ state ∈ before, state ∈ before') :
    c.move 0 before' after = some (c.setState 0 after) ∧ Shows (c.setState 0 after) t := by
  obtain ⟨⟨hio, hstate⟩, hst⟩ := Option.ite_none_right_eq_some.mp hst
  cases hst
  have hrunning := h.running (by simp [hio])
  constructor
  · rw [Client.move, if_pos]
    exact ⟨hrunning, ⟨s.state, true⟩, by rw [h.sessions]; rfl, rfl, hsub _ hstate⟩
  · exact ⟨h.setState after, h.connection, h.alive, h.running, h.finished, h.disconnecting⟩

theorem Shows.isConnected (h : Shows c s) : c.isConnected = (Part.isConnected.run s).map (decide <| · = .open) := by
  rw [Client.isConnected, h.session, Part.run]
  dsimp only
  split_ifs <;> rfl

theorem Shows.isDisconnected (h : Shows c s) :
    c.isDisconnected = (Part.isDisconnected.run s).map (decide <| · = .closed) := by
  rw [Client.isDisconnected, h.session, Part.run]
  dsimp only
  split_ifs <;> rfl

theorem Shows.close {state : SessionState} (h : Shows c s) (hrun : Part.close.run s = some state) :
    ∃ d, c.close = some d ∧ d.sessions = [⟨state, true⟩] ∧ d.pConnection = c.pConnection ∧ d.loop = c.loop := by
  obtain ⟨hconnecting, hrun⟩ := Option.ite_none_left_eq_some.mp hrun
  obtain ⟨d, hd⟩ := h.connection
  cases hrun
  rw [Client.close, h.isConnected, Part.run, if_neg hconnecting, hd]
  by_cases hopen : s.state = .open
  · refine ⟨c.setState 0 .closing, by simp [hopen], ?_, hd, rfl⟩
    rw [if_pos hopen]
    exact h.setState .closing
  · refine ⟨c, by simp [hopen], ?_, hd, rfl⟩
    rw [if_neg hopen]
    exact h.sessions

/-- What the user's call does here is the call there, or the join of `disconnect`. -/
theorem Shows.user (h : Shows c s) (hcalling : Calling s.state s.user) (hst : s.act handlers .user = some t) :
    ∃ a d, Client.step byteOrder c a = some d ∧ Shows d t := by
  unfold Life.act at hst
  dsimp only at hst
  split at hst
  · cases hst
  · next part rest huser =>
    obtain ⟨state, hrun, rfl⟩ := Option.map_eq_some_iff.mp hst
    rw [huser] at hcalling
    cases hcalling with
    | isConnected =>
      have hfree : s.user ≠ [.join] := by simp [huser]
      refine ⟨.call .isConnected, c, ?_, ?_⟩
      · rw [h.call hfree, Client.call, h.isConnected, hrun]
        rfl
      · obtain ⟨-, hrun⟩ := Option.ite_none_left_eq_some.mp hrun
        cases hrun
        exact ⟨h.sessions, h.connection, h.alive, h.running, h.finished, by simp [h.not_disconnecting hfree]⟩
    | isDisconnected =>
      have hfree : s.user ≠ [.join] := by simp [huser]
      refine ⟨.call .isDisconnected, c, ?_, ?_⟩
      · rw [h.call hfree, Client.call, h.isDisconnected, hrun]
        rfl
      · obtain ⟨-, hrun⟩ := Option.ite_none_left_eq_some.mp hrun
        cases hrun
        exact ⟨h.sessions, h.connection, h.alive, h.running, h.finished, by simp [h.not_disconnecting hfree]⟩
    | disconnect =>
      obtain ⟨d, hclose, hsessions, hconnection, hloop⟩ := h.close hrun
      refine ⟨.call .disconnect, { d with disconnecting := true }, ?_, ?_⟩
      · rw [h.call (by simp [huser]), Client.call, hclose]
        rfl
      · refine ⟨hsessions, ?_, ?_, ?_, ?_, by simp⟩
        · rw [hconnection]
          exact h.connection
        · rw [hloop]
          exact h.alive
        · rw [hloop]
          exact h.running
        · rw [hloop]
          exact h.finished
    | joining hle =>
      obtain ⟨hfinished, hrun⟩ := Option.ite_none_right_eq_some.mp hrun
      cases hrun
      have halive := h.alive
      have hdisconnecting := h.disconnecting.mpr huser
      refine ⟨.join, { c with loop := { c.loop with thread := .none }, disconnecting := false }, ?_, ?_⟩
      · rcases h.finished hfinished with hthread | hthread
        · simp [Client.step, RunLoop.Loop.step, halive, hdisconnecting, hthread, RunLoop.Thread.joinable]
        · simp [Client.step, RunLoop.Loop.step, halive, hdisconnecting, hthread, RunLoop.Thread.joinable]
          rw [← hthread, ← halive]
      · exact ⟨h.sessions, h.connection, halive, fun hne => absurd hfinished hne, fun _ => Or.inr rfl, by simp⟩

theorem Shows.ioThread (h : Shows c s) (hio : s.io ≠ .finished) {io : IoThread} (hio' : io ≠ .finished) :
    Shows c { s with io := io } :=
  ⟨h.sessions, h.connection, h.alive, fun _ => h.running hio, fun heq => absurd heq hio', h.disconnecting⟩

theorem Shows.handler (h : Shows c s) (hgood : Good s) (hst : s.handlerStep = some t) : Shows c t := by
  cases handlerStep_cases hst with
  | threw hio => exact h.ioThread (by simp [hio]) (by simp)
  | @part part state io hs hio hparts hrun =>
    have hmem : part ∈ s.io.parts := by
      rw [hparts]
      exact List.mem_cons_self
    rw [hgood.alone part hmem] at hrun
    obtain ⟨-, hrun⟩ := Option.ite_none_left_eq_some.mp hrun
    obtain rfl := Option.some.inj hrun
    exact h.ioThread (hs.ne id) (hio.ne id)

theorem Shows.finish (h : Shows c s) (hst : s.act handlers .finish = some t) :
    ∃ d, Client.step byteOrder c .finish = some d ∧ Shows d t := by
  obtain ⟨⟨hio, hclosed⟩, hst⟩ := Option.ite_none_right_eq_some.mp hst
  cases hst
  have hrunning := h.running (by simp [hio])
  have halive := h.alive
  have hout : c.OutOfWork := by
    intro session hmem _
    rw [h.sessions, List.mem_singleton] at hmem
    rw [hmem]
    exact hclosed
  refine ⟨{ c with loop := { c.loop with thread := .returned, stopped := true } }, ?_, ?_⟩
  · simp [Client.step, RunLoop.Loop.step, halive, hrunning, hout]
  · exact ⟨h.sessions, h.connection, halive, fun hne => absurd rfl hne, fun _ => Or.inl rfl, h.disconnecting⟩

/-- The steps of a client whose handlers leave it alone. What handlers do changes nothing there. -/
theorem shows_step (byteOrder : Endian.Order) (h : Shows c s) (hgood : Good s) (hst : step handlers s a = some t) :
    Shows c t ∨ ∃ b d, Client.step byteOrder c b = some d ∧ Shows d t := by
  obtain ⟨-, hst⟩ := Option.ite_none_left_eq_some.mp hst
  cases a with
  | call call =>
    obtain ⟨huser, hst⟩ := Option.ite_none_right_eq_some.mp hst
    cases hst
    have hfree := h.not_disconnecting (s := s) (by simp [huser])
    exact Or.inl ⟨h.sessions, h.connection, h.alive, h.running, h.finished,
      by cases call <;> simp [hfree, Call.parts]⟩
  | user => exact Or.inr (h.user hgood.calling hst)
  | message message =>
    obtain ⟨⟨hio, -⟩, hst⟩ := Option.ite_none_right_eq_some.mp hst
    cases hst
    refine Or.inl (h.ioThread (by simp [hio]) ?_)
    unfold Handlers.on_message
    split
    · simp
    · cases message <;> simp [Message.run]
  | handler => exact Or.inl (h.handler hgood hst)
  | handlerReturns =>
    obtain ⟨hio, hst⟩ := Option.ite_none_right_eq_some.mp hst
    cases hst
    exact Or.inl (h.ioThread (by rcases hio with hio | hio <;> simp [hio]) (by simp))
  | establish =>
    obtain ⟨hmove, hshows⟩ := h.move hst [.connecting] (fun _ => id)
    exact Or.inr ⟨.establish 0, _, by simp [Client.step, h.alive, hmove], hshows⟩
  | fail =>
    obtain ⟨hmove, hshows⟩ := h.move hst [.connecting] (fun _ => id)
    exact Or.inr ⟨.fail 0, _, by simp [Client.step, h.alive, hmove], hshows⟩
  | lost =>
    obtain ⟨hmove, hshows⟩ := h.move hst [.open, .closing] (by simp)
    exact Or.inr ⟨.closed 0, _, by simp [Client.step, h.alive, hmove], hshows⟩
  | closed =>
    obtain ⟨hmove, hshows⟩ := h.move hst [.open, .closing] (by simp)
    exact Or.inr ⟨.closed 0, _, by simp [Client.step, h.alive, hmove], hshows⟩
  | finish => exact Or.inr ⟨.finish, h.finish hst⟩

/-- The client from its first `connect` on, with its io thread inside `run`. -/
theorem shows_start (byteOrder : Endian.Order) : ∃ c : Client I R K,
    exec (Client.step byteOrder) Client.new [.call (.connect .started), .enter] = some c ∧ Shows c start := by
  refine ⟨_, rfl, ?_⟩
  exact ⟨rfl, ⟨_, rfl⟩, rfl, fun _ => rfl, by simp [start], by simp [start, Client.new, Client.makeConnection]⟩

/-- As long as the handlers leave it alone, the client lives one of the lives that it has without them. -/
theorem exists_client (byteOrder : Endian.Order) (halone : handlers.LeaveAlone) {acts : List (Act H)}
    (h : Run (ofFun (step handlers)) start acts s) :
    ∃ actions, ∃ c : Client I R K, Run (ofFun (Client.step byteOrder)) Client.new actions c ∧ Shows c s := by
  induction h with
  | nil =>
    obtain ⟨c, hexec, hshows⟩ := shows_start (I := I) (R := R) (K := K) byteOrder
    exact ⟨_, c, run_of_exec hexec, hshows⟩
  | snoc run hst ih =>
    obtain ⟨actions, c, hrun, hshows⟩ := ih
    have hgood := run.invariant (P := Good) (good_step halone) (good_of_polling rfl .none)
    rcases shows_step byteOrder hshows hgood hst with hshows | ⟨b, d, hb, hshows⟩
    · exact ⟨actions, c, hrun, hshows⟩
    · exact ⟨actions ++ [b], d, hrun.snoc hb, hshows⟩

end Client

/-! ## Handlers that call something that waits -/

/-- Nobody can go on: the user's thread is in its join, and the io thread has left by an exception, or its handler
waits for what the io thread would have to do next. -/
inductive Dead : Life → Prop
  | threw (state : SessionState) : Dead ⟨state, .threw, [.join]⟩
  | joining (state : SessionState) (rest : List Part) : Dead ⟨state, .waiting (.join :: rest), [.join]⟩
  | informing (rest : List Part) : Dead ⟨.closing, .informing (.isDisconnected :: rest), [.join]⟩
  | waiting (rest : List Part) : Dead ⟨.closing, .waiting (.isDisconnected :: rest), [.join]⟩

/-- In fact nothing at all can happen. -/
theorem dead_step (h : Dead s) : step handlers s a = none := by
  cases h <;> cases a <;> rfl

/-- The handler makes the calls that do not wait. -/
theorem exec_isConnected (message : Message H) (n : Nat) (rest : List Part) :
    exec (step handlers) ⟨.open, message.run (List.replicate n .isConnected ++ rest), []⟩
      (List.replicate n .handler) = some ⟨.open, message.run rest, []⟩ := by
  induction n with
  | zero => rfl
  | succ n ih =>
    have hstep : step handlers ⟨.open, message.run (List.replicate (n + 1) .isConnected ++ rest), []⟩ .handler =
        some ⟨.open, message.run (List.replicate n .isConnected ++ rest), []⟩ := by
      cases message <;> rfl
    show (step handlers _ .handler).bind _ = _
    rw [hstep]
    exact ih

theorem exists_first {calls : List Call} {call : Call} (hmem : call ∈ calls) (hne : call ≠ .isConnected) :
    ∃ n first after, first ≠ .isConnected ∧ calls = List.replicate n .isConnected ++ first :: after := by
  induction calls with
  | nil => cases hmem
  | cons c calls ih =>
    by_cases hc : c = .isConnected
    · rcases List.mem_cons.mp hmem with rfl | hmem
      · exact absurd hc hne
      · obtain ⟨n, first, after, hfirst, rfl⟩ := ih hmem
        exact ⟨n + 1, first, after, hfirst, by rw [hc, List.replicate_succ, List.cons_append]⟩
    · exact ⟨0, c, calls, hc, rfl⟩

theorem parts_replicate (n : Nat) (first : Call) (after : List Call) :
    parts (List.replicate n .isConnected ++ first :: after) =
      List.replicate n .isConnected ++ (first.parts ++ parts after) := by
  induction n with
  | zero => rfl
  | succ n ih => exact congrArg (Part.isConnected :: ·) ih

/-- The user disconnects while the handler is at its first call that waits. -/
theorem exists_dead {message : Message H} {calls : List Call} {call : Call}
    (hcalls : handlers.calls message = some calls) (hmem : call ∈ calls) (hne : call ≠ .isConnected) :
    ∃ acts s, exec (step handlers) start acts = some s ∧ Dead s := by
  obtain ⟨n, first, after, hfirst, rfl⟩ := exists_first hmem hne
  let rest := parts after
  have hmessage : exec (step handlers) start [.establish, .message message] =
      some ⟨.open, message.run (List.replicate n .isConnected ++ (first.parts ++ rest)), []⟩ := by
    rw [← parts_replicate]
    show (some (⟨.open, handlers.on_message message, []⟩ : Life)) = _
    rw [Handlers.on_message, hcalls]
  have hprefix : exec (step handlers) start (([.establish, .message message] ++ List.replicate n .handler) ++
      [.call .disconnect, .user]) = some ⟨.closing, message.run (first.parts ++ rest), [.join]⟩ := by
    rw [exec_append, exec_append, hmessage, Option.bind_some, exec_isConnected]
    cases message <;> rfl
  have hgo : ∀ acts {s}, exec (step handlers) ⟨.closing, message.run (first.parts ++ rest), [.join]⟩ acts = some s →
      Dead s → ∃ acts s, exec (step handlers) start acts = some s ∧ Dead s := by
    intro acts s hexec hdead
    exact ⟨_, s, by rw [exec_append _ acts, hprefix, Option.bind_some, hexec], hdead⟩
  cases first with
  | isConnected => exact absurd rfl hfirst
  | isDisconnected =>
    cases message with
    | info body => exact hgo [] rfl (.informing rest)
    | request body => exact hgo [] rfl (.waiting rest)
    | response handler body => exact hgo [] rfl (.waiting rest)
  | disconnect =>
    cases message with
    | info body => exact hgo [.handler, .handler] rfl (.threw .closing)
    | request body => exact hgo [.handler] rfl (.joining .closing rest)
    | response handler body => exact hgo [.handler] rfl (.joining .closing rest)

/-! ## Which calls of the user return -/

/-- **A client that its handlers leave alone can be disconnected, and no other**: if they make no call that waits but
`isConnected`, then from every state that can be reached what is under way ends after as many steps as the weight
says at most, and where it has ended the user's call has returned. Otherwise there is a state that can be reached in
which the user's thread is in the join of `disconnect` and no thread will ever take a step again. The client has been
connected once, and neither the user nor the handlers call `connect`. -/
theorem disconnect_returns (handlers : Handlers H) :
    (handlers.LeaveAlone → ∀ acts s, Run (ofFun (step handlers)) start acts s →
      ∀ acts' t, Run (ofFun (step handlers)) s acts' t → (∀ a ∈ acts', a.GoesOn) →
        acts'.length ≤ s.weight ∧ ((∀ a : Act H, a.GoesOn → step handlers t a = none) → t.user = [])) ∧
      (¬ handlers.LeaveAlone → ∃ acts s, Run (ofFun (step handlers)) start acts s ∧ s.user = [.join] ∧
        ∀ a, step handlers s a = none) := by
  constructor
  · intro halone acts s hrun acts' t hrun' hgoes
    have hlength := hrun'.length_add_weight_le hgoes fun ha hst => weight_step ha hst
    refine ⟨by omega, fun hend => ?_⟩
    have hstart : Good start := good_of_polling rfl .none
    have hgood : Good t := (hrun.append hrun').invariant (P := Good) (good_step halone) hstart
    by_contra huser
    obtain ⟨a, ha, hstep⟩ := goes_on handlers hgood huser
    have hlast := hend a ha
    rw [step, if_neg hgood.quiet] at hlast
    exact hstep hlast
  · intro hnot
    obtain ⟨message, calls, hcalls, call, hmem, hne⟩ : ∃ message calls, handlers.calls message = some calls ∧
        ∃ call ∈ calls, call ≠ .isConnected := by
      unfold Handlers.LeaveAlone at hnot
      push Not at hnot
      exact hnot
    obtain ⟨acts, s, hexec, hdead⟩ := exists_dead hcalls hmem hne
    refine ⟨acts, s, run_of_exec hexec, ?_, fun a => dead_step hdead⟩
    cases hdead <;> rfl

/-- A request handler that asks whether the client is connected does not keep the user from disconnecting; an info
handler that disconnects itself ends the process, and the user's call never returns. -/
theorem disconnect_returns_asking :
    let asking : Handlers Unit := ⟨none, some fun _ => [.isConnected], fun _ _ => []⟩
    let leaving : Handlers Unit := ⟨some fun _ => [.disconnect], none, fun _ _ => []⟩
    (∃ s t, exec (step asking) start [.establish, .message (.request []), .call .disconnect, .user] = some s ∧
      exec (step asking) s [.handler, .handlerReturns, .closed, .finish, .user] = some t ∧ 5 ≤ s.weight ∧
      t.user = []) ∧
    ∃ acts s, Run (ofFun (step leaving)) start acts s ∧ s.user = [.join] ∧ ∀ a, step leaving s a = none := by
  intro asking leaving
  have halone : asking.LeaveAlone := by
    intro message calls hcalls call hmem
    cases message with
    | info body => cases hcalls
    | request body =>
      cases hcalls
      exact List.mem_singleton.mp hmem
    | response handler body =>
      cases hcalls
      cases hmem
  have hnot : ¬ leaving.LeaveAlone := by
    intro h
    cases h (.info []) [.disconnect] rfl .disconnect List.mem_cons_self
  have hcalled : exec (step asking) start [.establish, .message (.request []), .call .disconnect, .user] =
      some ⟨.closing, .waiting [.isConnected], [.join]⟩ := rfl
  have hended : exec (step asking) ⟨.closing, .waiting [.isConnected], [.join]⟩
      [.handler, .handlerReturns, .closed, .finish, .user] = some ⟨.closed, .finished, []⟩ := rfl
  obtain ⟨hweight, hreturned⟩ := (disconnect_returns asking).1 halone _ _ (run_of_exec hcalled) _ _
    (run_of_exec hended) (by simp [Act.GoesOn])
  refine ⟨⟨_, _, hcalled, hended, hweight, hreturned fun a hgoes => ?_⟩, (disconnect_returns leaving).2 hnot⟩
  cases a with
  | call call => cases hgoes
  | _ => rfl

/-! ## After `disconnect` -/

/-- Nobody but the user does anything. -/
def Act.IsUsers : Act H → Prop
  | .call _ => True
  | .user => True
  | _ => False

theorem finished_step (hs : s.io = .finished) (h : step handlers s a = some t) : t.io = .finished ∧ a.IsUsers := by
  obtain ⟨-, h⟩ := Option.ite_none_left_eq_some.mp h
  cases a with
  | call call =>
    obtain ⟨-, h⟩ := Option.ite_none_right_eq_some.mp h
    cases h
    exact ⟨hs, trivial⟩
  | user =>
    unfold Life.act at h
    dsimp only at h
    split at h
    · cases h
    · obtain ⟨state, -, rfl⟩ := Option.map_eq_some_iff.mp h
      exact ⟨hs, trivial⟩
  | handler => simp [Life.act, Life.handlerStep, hs] at h
  | _ => simp [Life.act, Life.move, hs] at h

/-- **No handler runs any more when `disconnect` has returned**, whatever the handlers call: once the user's thread is
past the join, the io thread has left `run`, and in every run from there on, in which the client is not connected again,
nothing is done but what the user calls. -/
theorem silent_after_disconnect {later : List (Act H)} {u : Life} (huser : s.user = [.join])
    (hjoin : step handlers s .user = some t) (hlater : Run (ofFun (step handlers)) t later u) :
    u.io = .finished ∧ ∀ a ∈ later, a.IsUsers := by
  have hfinished : t.io = .finished := by
    obtain ⟨-, h⟩ := Option.ite_none_left_eq_some.mp hjoin
    rw [Life.act, huser] at h
    obtain ⟨state, hrun, rfl⟩ := Option.map_eq_some_iff.mp h
    exact (Option.ite_none_right_eq_some.mp hrun).1
  induction hlater with
  | nil => exact ⟨hfinished, by simp⟩
  | snoc run hstep ih =>
    obtain ⟨hio, husers⟩ := ih
    obtain ⟨hlast, husers'⟩ := finished_step hio hstep
    refine ⟨hlast, fun a ha => ?_⟩
    rcases List.mem_append.mp ha with ha | ha
    · exact husers a ha
    · rw [List.mem_singleton.mp ha]
      exact husers'

/-- The request handler returns at once; the user disconnects, and asks afterwards. -/
theorem silent_after_disconnect_asks :
    ∃ (s t u : Life) (handlers : Handlers Unit),
      exec (step handlers) start [.establish, .message (.request []), .handler, .handlerReturns, .call .disconnect,
        .user, .closed, .finish] = some s ∧ s.user = [.join] ∧ step handlers s .user = some t ∧
      exec (step handlers) t [.call .isDisconnected, .user] = some u ∧ u.io = .finished := by
  let handlers : Handlers Unit := ⟨none, some fun _ => [.isConnected], fun _ _ => []⟩
  have hrun : exec (step handlers) start [.establish, .message (.request []), .handler, .handlerReturns,
      .call .disconnect, .user, .closed, .finish] = some ⟨.closed, .finished, [.join]⟩ := rfl
  have hjoin : step handlers ⟨.closed, .finished, [.join]⟩ .user = some ⟨.closed, .finished, []⟩ := rfl
  have hasks : exec (step handlers) ⟨.closed, .finished, []⟩ [.call .isDisconnected, .user] =
      some ⟨.closed, .finished, []⟩ := rfl
  exact ⟨_, _, _, handlers, hrun, rfl, hjoin, hasks, (silent_after_disconnect rfl hjoin (run_of_exec hasks)).1⟩

end Communique.Reentry
