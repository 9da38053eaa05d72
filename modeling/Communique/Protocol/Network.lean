import Communique.Protocol.Rest

/-!
# One server, any number of clients

The server reads all its connections on one io thread, which stands still while the task of a message runs:
no other connection is read and none is opened meanwhile. Each client has an io thread of its own.

* `Link` : a connection, the client's end `A` and the server's end `B`, either of which may have been closed:
  a closed end reads nothing, and what it passes to the transport is lost;
* `Link.whole`, `Link.whole_step` : with what was lost left in the channel, a step of a link is a step of the two
  ends;
* `Network`, `NetworkMove`, `Network.step` : the server with its default handlers and its connections;
* `link_of_step` : what a step does to one connection;
* **`isolated`** : what happened on a connection is a run of its own two ends, made of its own moves.
-/

namespace Communique
open Transition

variable {I R : Type}

/-! ## A connection -/

structure Link (I R : Type) extends System I R where
  isOpen : Side → Bool
  /-- What the end has passed to the transport since it was closed. -/
  lost : Side → List Frame
  nothingLost : ∀ x, isOpen x = true → lost x = []

namespace Link

def start (infoHandler : Side → Option I) (requestHandler : Side → Option R) : Link I R where
  toSystem := System.start infoHandler requestHandler
  isOpen _ := true
  lost _ := []
  nothingLost _ _ := rfl

/-- The end `x` has become `e` and has passed `out` to the transport. -/
def pass (l : Link I R) (x : Side) (e : Endpoint I R) (out : List Frame) : Link I R where
  endpoint := Function.update l.endpoint x (e.recordSent out)
  channel := if l.isOpen x then Function.update l.channel x (l.channel x ++ out) else l.channel
  isOpen := l.isOpen
  lost := if l.isOpen x then l.lost else Function.update l.lost x (l.lost x ++ out)
  nothingLost := by
    intro y hy
    by_cases hx : l.isOpen x
    · rw [if_pos hx]
      exact l.nothingLost y hy
    · have hne : y ≠ x := by
        rintro rfl
        exact hx hy
      rw [if_neg hx, Function.update_of_ne hne]
      exact l.nothingLost y hy

/-- The channel of `x` without its first frame. -/
def take (l : Link I R) (x : Side) (rest : List Frame) : Link I R :=
  { l with channel := Function.update l.channel x rest }

def close (l : Link I R) (x : Side) : Link I R where
  toSystem := l.toSystem
  isOpen := Function.update l.isOpen x false
  lost := l.lost
  nothingLost := by
    intro y hy
    have hne : y ≠ x := by
      rintro rfl
      rw [Function.update_self] at hy
      cases hy
    rw [Function.update_of_ne hne] at hy
    exact l.nothingLost y hy

def step (cfg : Config) (l : Link I R) : Move I R → Option (Link I R)
  | .act x action =>
    ((l.endpoint x).act (cfg.platform x) (cfg.mayWait x) action).map fun r => l.pass x r.1 r.2
  | .deliver x infoOutcome =>
    match l.channel x.peer with
    | [] => none
    | frame :: rest =>
      if l.isOpen x = false ∨ (cfg.waitsForTask ∧ ¬ (l.endpoint x).Idle) then none
      else
        let r := (l.endpoint x).receive (cfg.platform x) infoOutcome frame
        some ((l.take x.peer rest).pass x r.1 r.2)

/-- The two ends, and all that has been passed to the transport and not delivered, lost or not. -/
def whole (l : Link I R) : System I R where
  endpoint := l.endpoint
  channel x := l.channel x ++ l.lost x

@[simp] theorem whole_endpoint (l : Link I R) : l.whole.endpoint = l.endpoint := rfl

@[simp] theorem whole_close (l : Link I R) (x : Side) : (l.close x).whole = l.whole := rfl

theorem whole_pass (l : Link I R) (x : Side) (e : Endpoint I R) (out : List Frame) :
    (l.pass x e out).whole = l.whole.put x e out := by
  have hchannel : (l.pass x e out).whole.channel = (l.whole.put x e out).channel := by
    funext y
    by_cases hx : l.isOpen x = true
    · rcases Side.eq_or_eq_peer x y with rfl | rfl
      · simp [whole, pass, System.put, hx, l.nothingLost y hx]
      · simp [whole, pass, System.put, hx]
    · rcases Side.eq_or_eq_peer x y with rfl | rfl
      · simp [whole, pass, System.put, hx]
      · simp [whole, pass, System.put, hx]
  show System.mk _ _ = System.mk _ _
  rw [System.mk.injEq]
  exact ⟨rfl, hchannel⟩

theorem whole_take (l : Link I R) (x : Side) (rest : List Frame) :
    (l.take x rest).whole = l.whole.take x (rest ++ l.lost x) := by
  have hchannel : (l.take x rest).whole.channel = (l.whole.take x (rest ++ l.lost x)).channel := by
    funext y
    rcases Side.eq_or_eq_peer x y with rfl | rfl
    · simp [whole, take, System.take]
    · simp [whole, take, System.take]
  show System.mk _ _ = System.mk _ _
  rw [System.mk.injEq]
  exact ⟨rfl, hchannel⟩

/-- **A step of a link is a step of its two ends.** -/
theorem whole_step {cfg : Config} {l l' : Link I R} {m : Move I R} (h : l.step cfg m = some l') :
    System.step cfg l.whole m = some l'.whole := by
  cases m with
  | act x a =>
    obtain ⟨r, hr, rfl⟩ := Option.map_eq_some_iff.mp h
    rw [System.step, whole_endpoint, hr, whole_pass]
    rfl
  | deliver x infoOutcome =>
    rw [step] at h
    cases hc : l.channel x.peer with
    | nil =>
      rw [hc] at h
      cases h
    | cons frame rest =>
      rw [hc] at h
      obtain ⟨hidle, h⟩ := Option.ite_none_left_eq_some.mp h
      cases h
      have hwhole : l.whole.channel x.peer = frame :: (rest ++ l.lost x.peer) := by
        show l.channel x.peer ++ l.lost x.peer = _
        rw [hc, List.cons_append]
      rw [System.step, hwhole, whole_pass, whole_take]
      exact if_neg fun hbusy => hidle (Or.inr hbusy)

end Link

/-! ## The server and its connections -/

structure Network (I R : Type) where
  defaultInfoHandler : Option I
  defaultRequestHandler : Option R
  /-- The connections in the order in which the server opened them, those that were closed as well. -/
  links : List (Link I R)

inductive NetworkMove (I R : Type)
  | setDefaultInfoHandler (infoHandler : Option I)
  | setDefaultRequestHandler (requestHandler : Option R)
  /-- `on_open` of the server for a client whose end has these handlers. -/
  | connect (infoHandler : Option I) (requestHandler : Option R)
  | onLink (k : Nat) (move : Move I R)
  | close (k : Nat) (x : Side)

/-- The hosts, and what the request handlers may do, for each connection. -/
structure NetworkConfig where
  platform : Nat → Side → Platform
  mayWait : Nat → Side → Bytes → Bool

/-- The two ends of a connection; the destructor of the future of `std::async` waits for the task. -/
def NetworkConfig.link (cfg : NetworkConfig) (k : Nat) : Config := ⟨cfg.platform k, true, cfg.mayWait k⟩

/-- The handlers that the two ends of a new connection start with. -/
def ends {α : Type} (client server : α) : Side → α
  | .A => client
  | .B => server

/-- The move is made by the io thread of the server. -/
def Move.ReadsAtServer : Move I R → Prop
  | .deliver .B _ => True
  | _ => False

instance (m : Move I R) : Decidable m.ReadsAtServer :=
  match m with
  | .deliver .B _ => isTrue trivial
  | .deliver .A _ => isFalse id
  | .act _ _ => isFalse id

/-- The move on the `k`-th connection, where it is one. -/
def NetworkMove.on? (k : Nat) : NetworkMove I R → Option (Move I R)
  | .onLink j move => if j = k then some move else none
  | _ => none

namespace Network

def start (infoHandler : Option I) (requestHandler : Option R) : Network I R := ⟨infoHandler, requestHandler, []⟩

/-- The io thread of the server is not held up by a task. -/
def ServerIdle (n : Network I R) : Prop := ∀ l ∈ n.links, (l.endpoint .B).Idle

instance (n : Network I R) : Decidable n.ServerIdle :=
  inferInstanceAs (Decidable (∀ l ∈ n.links, (l.endpoint .B).Idle))

def step (cfg : NetworkConfig) (n : Network I R) : NetworkMove I R → Option (Network I R)
  | .setDefaultInfoHandler infoHandler => some { n with defaultInfoHandler := infoHandler }
  | .setDefaultRequestHandler requestHandler => some { n with defaultRequestHandler := requestHandler }
  | .connect infoHandler requestHandler =>
    if n.ServerIdle then
      some { n with links := n.links ++ [Link.start (ends infoHandler n.defaultInfoHandler)
        (ends requestHandler n.defaultRequestHandler)] }
    else none
  | .onLink k move =>
    n.links[k]?.bind fun l =>
      if move.ReadsAtServer ∧ ¬ n.ServerIdle then none
      else (l.step (cfg.link k) move).map fun l' => { n with links := n.links.set k l' }
  | .close k x => n.links[k]?.map fun l => { n with links := n.links.set k (l.close x) }

/-- What a step changes. -/
inductive Stepped (cfg : NetworkConfig) (n : Network I R) : NetworkMove I R → Network I R → Prop
  | setDefaultInfoHandler {infoHandler : Option I} :
      Stepped cfg n (.setDefaultInfoHandler infoHandler) { n with defaultInfoHandler := infoHandler }
  | setDefaultRequestHandler {requestHandler : Option R} :
      Stepped cfg n (.setDefaultRequestHandler requestHandler) { n with defaultRequestHandler := requestHandler }
  | connect {infoHandler : Option I} {requestHandler : Option R} (hidle : n.ServerIdle) :
      Stepped cfg n (.connect infoHandler requestHandler) { n with
        links := n.links ++ [Link.start (ends infoHandler n.defaultInfoHandler)
          (ends requestHandler n.defaultRequestHandler)] }
  | onLink {k : Nat} {move : Move I R} {l l' : Link I R} (hk : n.links[k]? = some l)
      (hidle : move.ReadsAtServer → n.ServerIdle) (hl : l.step (cfg.link k) move = some l') :
      Stepped cfg n (.onLink k move) { n with links := n.links.set k l' }
  | close {k : Nat} {x : Side} {l : Link I R} (hk : n.links[k]? = some l) :
      Stepped cfg n (.close k x) { n with links := n.links.set k (l.close x) }

theorem step_cases {cfg : NetworkConfig} {n n' : Network I R} {move : NetworkMove I R}
    (h : step cfg n move = some n') : Stepped cfg n move n' := by
  cases move with
  | setDefaultInfoHandler infoHandler =>
    cases h
    exact Stepped.setDefaultInfoHandler
  | setDefaultRequestHandler requestHandler =>
    cases h
    exact Stepped.setDefaultRequestHandler
  | connect infoHandler requestHandler =>
    obtain ⟨hidle, h⟩ := Option.ite_none_right_eq_some.mp h
    cases h
    exact Stepped.connect hidle
  | onLink k move =>
    obtain ⟨l, hk, h⟩ := Option.bind_eq_some_iff.mp h
    obtain ⟨hidle, h⟩ := Option.ite_none_left_eq_some.mp h
    obtain ⟨l', hl, rfl⟩ := Option.map_eq_some_iff.mp h
    refine Stepped.onLink hk (fun hreads => ?_) hl
    by_contra hbusy
    exact hidle ⟨hreads, hbusy⟩
  | close k x =>
    obtain ⟨l, hk, rfl⟩ := Option.map_eq_some_iff.mp h
    exact Stepped.close hk

/-- What a step does to the `k`-th connection: a move of its own, or nothing but that an end may be closed, or
the server has opened it. -/
theorem link_of_step {cfg : NetworkConfig} {n n' : Network I R} {move : NetworkMove I R} {k : Nat}
    {l' : Link I R} (h : Stepped cfg n move n') (hk : n'.links[k]? = some l') :
    (∃ l m, n.links[k]? = some l ∧ move.on? k = some m ∧ l.step (cfg.link k) m = some l') ∨
      (∃ l, n.links[k]? = some l ∧ move.on? k = none ∧ (l' = l ∨ ∃ x, l' = l.close x)) ∨
      (k = n.links.length ∧ ∃ infoHandler requestHandler, move = .connect infoHandler requestHandler ∧
        l' = Link.start (ends infoHandler n.defaultInfoHandler) (ends requestHandler n.defaultRequestHandler)) := by
  cases h with
  | setDefaultInfoHandler => exact Or.inr (Or.inl ⟨l', hk, rfl, Or.inl rfl⟩)
  | setDefaultRequestHandler => exact Or.inr (Or.inl ⟨l', hk, rfl, Or.inl rfl⟩)
  | @connect infoHandler requestHandler hidle =>
    rcases Nat.lt_trichotomy k n.links.length with hlt | heq | hgt
    · rw [List.getElem?_append_left hlt] at hk
      exact Or.inr (Or.inl ⟨l', hk, rfl, Or.inl rfl⟩)
    · rw [heq, List.getElem?_concat_length, Option.some.injEq] at hk
      exact Or.inr (Or.inr ⟨heq, infoHandler, requestHandler, rfl, hk.symm⟩)
    · rw [List.getElem?_eq_none (by simp; omega)] at hk
      cases hk
  | @onLink j m l l₁ hj hidle hl =>
    by_cases hjk : j = k
    · subst hjk
      rw [List.getElem?_set_self (List.getElem?_eq_some_iff.mp hj).1, Option.some.injEq] at hk
      exact Or.inl ⟨l, m, hj, if_pos rfl, by rw [hl, hk]⟩
    · rw [List.getElem?_set_ne hjk] at hk
      exact Or.inr (Or.inl ⟨l', hk, if_neg hjk, Or.inl rfl⟩)
  | @close j x l hj =>
    by_cases hjk : j = k
    · subst hjk
      rw [List.getElem?_set_self (List.getElem?_eq_some_iff.mp hj).1, Option.some.injEq] at hk
      exact Or.inr (Or.inl ⟨l, hj, rfl, Or.inr ⟨x, hk.symm⟩⟩)
    · rw [List.getElem?_set_ne hjk] at hk
      exact Or.inr (Or.inl ⟨l', hk, rfl, Or.inl rfl⟩)

/-- **No connection affects another one.** In every run of the network, what has happened on the `k`-th
connection is a run of its own two ends: made of the moves on this connection alone, from the client's handlers
and the defaults that the server had when it opened the connection. -/
theorem isolated (cfg : NetworkConfig) {infoHandler : Option I} {requestHandler : Option R}
    {moves : List (NetworkMove I R)} {n : Network I R}
    (hrun : Run (ofFun (step cfg)) (start infoHandler requestHandler) moves n) {k : Nat} {l : Link I R}
    (hk : n.links[k]? = some l) :
    ∃ before clientInfo clientRequest after n₀, moves = before ++ .connect clientInfo clientRequest :: after ∧
      Run (ofFun (step cfg)) (start infoHandler requestHandler) before n₀ ∧ n₀.links.length = k ∧
      Run (ofFun (System.step (cfg.link k)))
        (System.start (ends clientInfo n₀.defaultInfoHandler) (ends clientRequest n₀.defaultRequestHandler))
        (after.filterMap (NetworkMove.on? k)) l.whole := by
  generalize hs : start infoHandler requestHandler = s at hrun
  induction hrun generalizing l with
  | nil =>
    subst hs
    cases hk
  | @snoc n' n moves move hrun hstep ih =>
    rcases link_of_step (step_cases hstep) hk with
      ⟨l₁, m, hk₁, hon, hl⟩ | ⟨l₁, hk₁, hon, hl⟩ | ⟨hlen, clientInfo, clientRequest, rfl, rfl⟩
    · obtain ⟨before, clientInfo, clientRequest, after, n₀, rfl, hbefore, hlen, hlink⟩ := ih hk₁
      refine ⟨before, clientInfo, clientRequest, after ++ [move], n₀, by simp, hbefore, hlen, ?_⟩
      rw [List.filterMap_append, List.filterMap_cons_some hon]
      exact hlink.snoc (Link.whole_step hl)
    · obtain ⟨before, clientInfo, clientRequest, after, n₀, rfl, hbefore, hlen, hlink⟩ := ih hk₁
      refine ⟨before, clientInfo, clientRequest, after ++ [move], n₀, by simp, hbefore, hlen, ?_⟩
      have hwhole : l.whole = l₁.whole := by
        rcases hl with rfl | ⟨x, rfl⟩
        · rfl
        · exact Link.whole_close l₁ x
      rw [List.filterMap_append, List.filterMap_cons_none hon, List.filterMap_nil, List.append_nil, hwhole]
      exact hlink
    · subst hs
      exact ⟨moves, clientInfo, clientRequest, [], n', rfl, hrun, hlen.symm, Run.nil _⟩

/-- Two clients connect; the second one sends a request, which the server is given. -/
def twoClients : List (NetworkMove Unit Unit) :=
  [.connect none none, .connect none none, .onLink 0 (.act .A (.push [6])), .onLink 1 (.act .A (.push [5])),
    .onLink 1 (.act .A (.send 0)), .onLink 1 (.deliver .B (.ok ()))]

/-- All hosts are little-endian, no handler waits. -/
def plain : NetworkConfig := ⟨fun _ _ => ⟨.little, []⟩, fun _ _ _ => false⟩

theorem isolated_two_clients :
    ∃ n l, Run (ofFun (step plain)) (start none (some ())) twoClients n ∧ n.links[1]? = some l ∧
      ∃ infoHandler requestHandler moves,
        Run (ofFun (System.step (plain.link 1))) (System.start infoHandler requestHandler) moves l.whole := by
  have hrun : (exec (step plain) (start none (some ())) twoClients).map (fun n => n.links.length) =
      some 2 := by decide
  obtain ⟨n, hn, hlen⟩ := Option.map_eq_some_iff.mp hrun
  have hk := List.getElem?_eq_getElem (l := n.links) (i := 1) (by omega)
  obtain ⟨before, clientInfo, clientRequest, after, n₀, -, -, -, hlink⟩ := isolated plain (run_of_exec hn) hk
  exact ⟨n, _, run_of_exec hn, hk, _, _, _, hlink⟩

end Network

end Communique
