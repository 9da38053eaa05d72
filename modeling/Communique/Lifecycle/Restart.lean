import Communique.Lifecycle.Server

/-!
# Starting again

Nothing calls `reset` on the io service, so the thread of a second start finds it stopped.

* **`restart_served_iff`** : a server and a client serve every start exactly when there is one at most.
-/

namespace Communique
open RunLoop Transition

variable {I R H : Type}

/-- **The io service is never stopped when a new io thread is to enter it** exactly in the lives of a server in
which `listen` returns true at most once, and in the lives of a client in which `connect` returns normally at
most once. -/
theorem restart_served_iff :
    (∀ actions (s : Server I R H), Run (ofFun Server.step) .new actions s →
      ((∀ t, Passes (ofFun Server.step) .new actions s t → t.loop.Served) ↔ s.listens ≤ 1)) ∧
    ∀ byteOrder actions (c : Client I R H), Run (ofFun (Client.step byteOrder)) .new actions c →
      ((∀ d, Passes (ofFun (Client.step byteOrder)) .new actions c d → d.loop.Served) ↔ c.connects ≤ 1) :=
  ⟨fun _ _ h => Server.served_iff h, fun _ _ _ h => Client.served_iff h⟩

/-- A free port, good files and a thread. -/
def goodCall : ListenCall where
  alreadyListening := []
  portError := none
  files := ⟨fun _ => .ok (), fun _ => .ok (), fun _ => .ok (), fun _ => .ok ()⟩
  thread := .ok ()

/-- The server is stopped and started again: both calls of `listen` return true, and the second io thread is
to enter a stopped service. -/
theorem listen_after_stop :
    (exec Server.step (.new : Server Unit Unit Unit)
      [.call (.listen goodCall), .start, .enter, .call .stop, .closeAll, .finish, .join,
        .call (.listen goodCall), .start]).map (fun s => (s.results, s.loop)) =
      some ([.ok true, .ok true], ⟨.started, true, false⟩) := rfl

/-- One start is served. -/
theorem listen_once :
    ¬ ∃ t : Server Unit Unit Unit, Passes (ofFun Server.step) .new [.call (.listen goodCall), .start, .enter]
      { Server.new with
        listening := true
        accepting := true
        loop := ⟨.running, false, false⟩
        results := [.ok true] } t ∧ ¬ t.loop.Served := by
  rintro ⟨t, hpasses, hserved⟩
  exact hserved ((restart_served_iff.1 _ _ (run_of_exec rfl)).mpr (by decide) t hpasses)

end Communique
