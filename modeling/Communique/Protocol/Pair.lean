import Communique.Lib.Run
import Communique.Protocol.Javascript

/-!
# A JavaScript client and a library connection

The transport delivers the frames of each direction once and in the order they were sent. What the script and
the threads do and when a frame is delivered is up to the environment.

* `Pair`, `PairMove`, `step` : the two ends and the transport between them, and one step;
* `Stepped`, `step_cases` : what a step changes.
-/

namespace Communique
open Text

variable {I R : Type}

/-- The host of the library, whether its io thread waits for the tasks that it starts, and on which bodies its
request handler may wait for a request of its own. -/
structure Host where
  platform : Platform
  waitsForTask : Bool
  mayWait : Bytes → Bool

/-- The two ends, and the frames on their way to each. -/
structure Pair (I R : Type) where
  js : Javascript
  cpp : Endpoint I R
  toCpp : List Frame
  toJs : List Frame

inductive PairMove (I R : Type)
  | script (script : Script)
  | act (action : Action I R)
  /-- The next frame for the client is delivered. -/
  | handleMessage
  /-- The next frame for the library is delivered; an info handler called on it ends with `infoOutcome`. -/
  | onMessage (infoOutcome : Except Exn Unit)

namespace Pair

def start (infoHandler : Option I) (requestHandler : Option R) : Pair I R where
  js := Javascript.start
  cpp := Endpoint.start infoHandler requestHandler
  toCpp := []
  toJs := []

def step (host : Host) (s : Pair I R) : PairMove I R → Option (Pair I R)
  | .script script =>
    let r := s.js.act script
    some { s with js := r.1.recordSent r.2, toCpp := s.toCpp ++ r.2 }
  | .act action =>
    (s.cpp.act host.platform host.mayWait action).map fun r =>
      { s with cpp := r.1.recordSent r.2, toJs := s.toJs ++ r.2 }
  | .handleMessage =>
    match s.toJs with
    | [] => none
    | frame :: rest => some { s with js := s.js.receive frame, toJs := rest }
  | .onMessage infoOutcome =>
    match s.toCpp with
    | [] => none
    | frame :: rest =>
      if host.waitsForTask ∧ ¬ s.cpp.Idle then none
      else
        let r := s.cpp.receive host.platform infoOutcome frame
        some { s with cpp := r.1.recordSent r.2, toCpp := rest, toJs := s.toJs ++ r.2 }

/-- What one step changes. -/
inductive Stepped (host : Host) (s : Pair I R) : PairMove I R → Pair I R → Prop
  | sendRequest {message : CodeUnits} :
      Stepped host s (.script (.sendRequest message)) { s with
        js := (s.js.requested message).recordSent [s.js.request host.platform message]
        toCpp := s.toCpp ++ [s.js.request host.platform message] }
  | sendInfo {message : CodeUnits} :
      Stepped host s (.script (.sendInfo message)) { s with
        js := s.js.recordSent [⟨Message.build host.platform (utf8 message) .INFO 0, 0⟩]
        toCpp := s.toCpp ++ [⟨Message.build host.platform (utf8 message) .INFO 0, 0⟩] }
  | act {action : Action I R} {e : Endpoint I R} {out : List Frame}
      (h : Endpoint.Acted host.platform host.mayWait s.cpp action e out) :
      Stepped host s (.act action) { s with cpp := e.recordSent out, toJs := s.toJs ++ out }
  | handleMessage {frame : Frame} {rest : List Frame} {js : Javascript} (hc : s.toJs = frame :: rest)
      (h : Javascript.Received s.js frame js) :
      Stepped host s .handleMessage { s with js := js, toJs := rest }
  | onMessage {infoOutcome : Except Exn Unit} {frame : Frame} {rest : List Frame} {e : Endpoint I R}
      {out : List Frame} (hc : s.toCpp = frame :: rest)
      (h : Endpoint.Received host.platform s.cpp infoOutcome frame e out) :
      Stepped host s (.onMessage infoOutcome)
        { s with cpp := e.recordSent out, toCpp := rest, toJs := s.toJs ++ out }

theorem step_cases {host : Host} {s t : Pair I R} {m : PairMove I R} (h : step host s m = some t) :
    Stepped host s m t := by
  cases m with
  | script script =>
    cases script with
    | sendRequest message =>
      rw [step, Javascript.act_sendRequest host.platform] at h
      obtain rfl := Option.some.inj h
      exact Stepped.sendRequest
    | sendInfo message =>
      rw [step, Javascript.act_sendInfo host.platform] at h
      obtain rfl := Option.some.inj h
      exact Stepped.sendInfo
  | act action =>
    obtain ⟨r, hr, rfl⟩ := Option.map_eq_some_iff.mp h
    exact Stepped.act (Endpoint.act_cases hr)
  | handleMessage =>
    rw [step] at h
    cases hc : s.toJs with
    | nil =>
      rw [hc] at h
      cases h
    | cons frame rest =>
      rw [hc] at h
      obtain rfl := Option.some.inj h
      exact Stepped.handleMessage hc (Javascript.receive_cases s.js frame)
  | onMessage infoOutcome =>
    rw [step] at h
    cases hc : s.toCpp with
    | nil =>
      rw [hc] at h
      cases h
    | cons frame rest =>
      rw [hc] at h
      obtain ⟨-, h⟩ := Option.ite_none_left_eq_some.mp h
      obtain rfl := Option.some.inj h
      exact Stepped.onMessage hc (Endpoint.receive_cases _ _ infoOutcome frame)

end Pair

end Communique
