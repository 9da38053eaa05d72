import Communique.Lifecycle.Restart

/-!
# `listen` when it fails

`listen` opens the acceptor, starts to accept and makes the thread, and undoes none of these when the next
one fails; its guard looks at the thread only.

* `Clean` : neither the acceptor nor a thread is left; `CanListen` : a call on a free port with good files
  returns true; `Clean.canListen` : the first gives the second;
* `Tidy` : the invariant of the lives in which no call fails between two of its steps;
* **`failed_listen_iff`** : exactly in these lives every call that throws leaves nothing behind.
-/

namespace Communique.Server
open RunLoop Transition

variable {I R H : Type}

/-- The endpoint is not listening and there is no io thread. -/
def Clean (s : Server I R H) : Prop := s.listening = false ∧ s.loop.thread = .none

/-- The rest of `listen` does not fail on a free port. -/
def Completes (t : TLSHandler) (call : ListenCall) : Prop :=
  call.portError = none → t.on_tls_init call.files = .ok () ∧ call.thread = .ok ()

/-- A call on a free port with good files returns true, without a `stop` before it. -/
def CanListen (s : Server I R H) : Prop :=
  ∀ call, call.portError = none → s.tlsHandler.on_tls_init call.files = .ok () → call.thread = .ok () →
    ∃ t, exec step s [.call (.listen call), .start] = some t ∧ t.results = s.results ++ [.ok true]

theorem Clean.canListen {s : Server I R H} (h : s.Clean) (halive : s.loop.terminated = false)
    (hidle : s.caller = .idle) : s.CanListen := by
  obtain ⟨hlistening, hthread⟩ := h
  intro call hport hfile hok
  have hloop := Loop.step_assign halive hthread
  have hcall : s.step (.call (.listen call)) = some { s with caller := .starting call } := by
    rw [step, halive, hidle]
    simp [Server.call, hthread, Thread.joinable]
  have hstart : step { s with caller := .starting call } .start = some { s with
      listening := true
      accepting := true
      loop := { s.loop with thread := .started }
      caller := .idle
      results := s.results ++ [.ok true] } := by
    simp [step, start, halive, hlistening, hport, hfile, hok, hloop]
  exact ⟨_, by rw [exec, hcall, Option.bind_some, exec, hstart]; rfl, rfl⟩

/-- A listening endpoint has a thread. -/
def Tidy (s : Server I R H) : Prop := s.listening = true → s.loop.thread ≠ .none

theorem listening_of_call {s : Server I R H} {c : Call I R} (h : (s.call c).listening = true) :
    s.listening = true := by
  cases c with
  | listen call =>
    unfold Server.call at h
    dsimp only at h
    split at h
    · cases h
    · exact h
  | stop => cases h
  | _ => exact h

theorem Tidy.step {s t : Server I R H} {a : Action I R} (hs : s.Tidy) (hclosed : s.Closed) (h : s.step a = some t)
    (hcompletes : ∀ call, a = .start → s.caller = .starting call → Completes s.tlsHandler call) : t.Tidy := by
  intro hlistening
  cases step_cases h with
  | call hcaller =>
    rw [call_loop]
    exact hs (listening_of_call hlistening)
  | closeAll hcaller => exact hs hlistening
  | @join next loop hcaller hloop =>
    have hdeaf := (hclosed ⟨next, Or.inr hcaller⟩).1
    exact absurd (hdeaf.symm.trans hlistening) (by simp)
  | start hcaller hstarted =>
    have hcall := hcompletes _ rfl hcaller
    cases hstarted with
    | refused h => exact hs hlistening
    | badFile _ hport hfile =>
      rw [(hcall hport).1] at hfile
      cases hfile
    | noThread _ hport hfile hthread =>
      rw [(hcall hport).2] at hthread
      cases hthread
    | started _ hport hfile hthread hloop => exact Loop.thread_of_assign hloop
  | enter hloop => exact (Loop.thread_ne_none hloop (Or.inl rfl)).2
  | finish hwork hloop => exact (Loop.thread_ne_none hloop (Or.inr rfl)).2
  | io hrunning h =>
    rw [(ioStep_frame h).loop, hrunning]
    simp

/-- A call that throws in a tidy life has found the port taken. -/
theorem clean_of_threw {s t : Server I R H} {call : ListenCall} {e : Exn} (hs : s.Tidy) (hguarded : s.Guarded)
    (hcaller : s.caller = .starting call) (hstarted : Started s call t)
    (hthrew : t.results = s.results ++ [.error e]) (hcompletes : Completes s.tlsHandler call) :
    t.Clean ∧ t.CanListen := by
  have hthread := hguarded.guard call hcaller
  cases hstarted with
  | @refused e' h =>
    have hlistening : s.listening = false := by
      by_contra hlistening
      exact hs ((Bool.not_eq_false _).mp hlistening) hthread
    have hclean : (s.threw e').Clean := ⟨hlistening, hthread⟩
    exact ⟨hclean, hclean.canListen hguarded.alive rfl⟩
  | badFile hlistening hport hfile =>
    rw [(hcompletes hport).1] at hfile
    cases hfile
  | noThread hlistening hport hfile hok =>
    rw [(hcompletes hport).2] at hok
    cases hok
  | started hlistening hport hfile hok hloop =>
    rw [Loop.alive_of_step hloop fun _ => hthread] at hthrew
    simp at hthrew

/-- A call that leaves nothing behind when it throws has not failed behind `server_.listen`. -/
theorem completes_of_clean {s t : Server I R H} {call : ListenCall} (hstarted : Started s call t)
    (hclean : ∀ e, t.results = s.results ++ [.error e] → t.Clean) : Completes s.tlsHandler call := by
  intro hport
  cases hstarted with
  | refused h =>
    have hlistening := h.resolve_right (by simp [hport])
    have := (hclean _ rfl).1
    rw [show (threw s _).listening = s.listening from rfl, hlistening] at this
    cases this
  | badFile hlistening hport hfile =>
    have := (hclean _ rfl).1
    cases this
  | noThread hlistening hport hfile hok =>
    have := (hclean _ rfl).1
    cases this
  | started hlistening hport hfile hok hloop => exact ⟨hfile, hok⟩

/-- **A call of `listen` that throws leaves nothing behind**, and a later call can succeed without a `stop`,
exactly in the lives in which no call fails behind `server_.listen`, because of a file or for want of a
thread. -/
theorem failed_listen_iff {actions : List (Action I R)} {s : Server I R H}
    (h : Run (ofFun step) new actions s) :
    (∀ u v e, Takes (ofFun step) new actions s u .start v → v.results = u.results ++ [.error e] →
      v.Clean ∧ v.CanListen) ↔
    ∀ u v call, Takes (ofFun step) new actions s u .start v → u.caller = .starting call →
      Completes u.tlsHandler call := by
  constructor
  · intro hclean u v call htakes hcaller
    obtain ⟨as, bs, -, -, hstep, -⟩ := id htakes
    cases step_cases hstep with
    | start hcaller' hstarted =>
      rw [hcaller] at hcaller'
      cases hcaller'
      exact completes_of_clean hstarted fun e hthrew => (hclean u v e htakes hthrew).1
    | io hrunning h => cases h
  · intro hcompletes u v e htakes hthrew
    obtain ⟨as, bs, rfl, has, hstep, hbs⟩ := id htakes
    have htidy : u.Tidy := by
      refine has.invariant_takes (fun h => (by cases h)) ?_
      intro x a y hearlier hx
      obtain ⟨_, _, -, hreached, hxy, -⟩ := id hearlier
      refine hx.step (closed hreached) hxy ?_
      rintro call rfl hcaller
      exact hcompletes x y call (hearlier.append (Run.cons hstep hbs)) hcaller
    cases step_cases hstep with
    | start hcaller hstarted =>
      exact clean_of_threw htidy (guarded has) hcaller hstarted hthrew (hcompletes u v _ htakes hcaller)
    | io hrunning h => cases h

/-- A call for which the certificate file is bad. -/
def badFilesCall : ListenCall where
  alreadyListening := ascii "already listening"
  portError := none
  files :=
    { use_certificate_chain_file := fun _ =>
        .error (.exception (ascii "use_certificate_chain_file: No such file or directory"))
      use_private_key_file := fun _ => .ok ()
      load_verify_file := fun _ => .ok ()
      use_tmp_dh_file := fun _ => .ok () }
  thread := .ok ()

/-- The first call throws because of the certificate and leaves the endpoint listening without a thread; so the
second, on a free port and without a certificate, throws too. -/
theorem listen_after_badFile :
    (exec step (new : Server Unit Unit Unit)
      [.call (.setCertificateChainFile (ascii "missing.pem")), .call (.listen badFilesCall), .start]).map
        (fun s => (s.results.map Except.isOk, s.listening, s.loop.thread)) = some ([false], true, .none) ∧
    (exec step (new : Server Unit Unit Unit)
      [.call (.setCertificateChainFile (ascii "missing.pem")), .call (.listen badFilesCall), .start,
        .call (.setCertificateChainFile []), .call (.listen badFilesCall), .start]).map
        (fun s => s.results.map Except.isOk) = some [false, false] :=
  ⟨rfl, rfl⟩

/-- A call for which the port is taken. -/
def portTakenCall : ListenCall := { badFilesCall with portError := some (ascii "Underlying Transport Error", none) }

/-- After a call for which the port was taken the next one can succeed. -/
theorem listen_portTaken :
    ¬ ∃ u v : Server Unit Unit Unit, ∃ e, Takes (ofFun step) new [.call (.listen portTakenCall), .start]
      (new.threw (listenError (ascii "Underlying Transport Error") none)) u .start v ∧
        v.results = u.results ++ [.error e] ∧ ¬ (v.Clean ∧ v.CanListen) := by
  rintro ⟨u, v, e, htakes, hthrew, hnot⟩
  refine hnot ((failed_listen_iff (run_of_exec rfl)).mpr ?_ u v e htakes hthrew)
  rintro u v call ⟨as, bs, hactions, has, -, -⟩ hcaller hport
  obtain ⟨rfl, -, -⟩ | ⟨cs, -, hcs⟩ := concat_eq_append_cons (show [_] ++ [_] = as ++ _ :: bs from hactions)
  · have hu : some { new with caller := .starting portTakenCall } = some u := exec_of_run has
    obtain rfl := Option.some.inj hu
    cases hcaller
    cases hport
  · simp [List.cons_eq_append_iff] at hcs

end Communique.Server
