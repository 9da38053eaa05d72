import Communique.Certificate
import Communique.Lifecycle.Server

/-!
# `TLSHandler`: the context and the check of the peer

`on_tls_init` makes the context of a handshake from the names of the files. If there is a file to check the peer
against, the peer has to show a certificate, and OpenSSL calls `verify_certificate` for what it finds about each
certificate of its chain, as long as it returns true.

* `Context`, `TLSHandler.context` : the settings of a context;
* `Check`, `verify_certificate` : one call, with the line that it logs;
* `verifyPeer` : the calls in a row; `checkPeer` : what the modes and the callback of a context make of them;
* `Acceptable`, `Readable` : what a call looks at; `verify_certificate_of_readable` : what it does;
* `Ends` : the three ways in which a row of calls ends;
* **`checkPeer_spec`** : which peers are accepted, and what is logged and reported of the others.
-/

namespace Communique

/-! ## The context -/

inductive VerifyMode
  | verify_none
  | verify_peer_or_fail
  deriving DecidableEq

/-- What is set in an `asio::ssl::context`; its method and its options are always the same. -/
structure Context where
  certificate_chain_file : Option Bytes
  private_key_file : Option Bytes
  verify_mode : VerifyMode
  verify_file : Option Bytes
  verify_callback : Bool
  tmp_dh_file : Option Bytes
  deriving DecidableEq

namespace TLSHandler

/-- The context that `on_tls_init` returns if it does not throw. -/
def context (t : TLSHandler) : Context :=
  let set (fileName : Bytes) : Option Bytes := if fileName.isEmpty then none else some fileName
  { certificate_chain_file := set t.certificateChainFileName
    private_key_file := set t.privateKeyFileName
    verify_mode := if t.verifyFileName.isEmpty then .verify_none else .verify_peer_or_fail
    verify_file := set t.verifyFileName
    verify_callback := !t.verifyFileName.isEmpty
    tmp_dh_file := set t.diffieHellmanParamsFileName }

end TLSHandler

/-! ## The check of one certificate -/

/-- A certificate with its names in one line, as `X509_NAME_oneline` writes them. -/
structure NamedX509 (Object ASN1 : Type) extends X509 Object ASN1 where
  issuerName : Bytes
  subjectName : Bytes

/-- What the callback is told: whether OpenSSL accepts the certificate, the error, the depth in the chain, and the
certificate. -/
structure Check (Object ASN1 : Type) where
  preverified : Bool
  error : Int
  depth : Int
  certificate : NamedX509 Object ASN1

def maxDepth : Int := 8

def X509_V_ERR_UNABLE_TO_GET_ISSUER_CERT : Int := 2

def X509_V_ERR_CERT_CHAIN_TOO_LONG : Int := 22

/-- `std::to_string`. -/
def to_string (n : Int) : Bytes := ascii (toString n)

variable {Object ASN1 : Type}

namespace Check
variable (X509_verify_cert_error_string : Int → Bytes) (check : Check Object ASN1)

def tooLong : Bool := maxDepth < check.depth

/-- The error that the call leaves in the context of OpenSSL. -/
def errorCode : Int := if check.tooLong then X509_V_ERR_CERT_CHAIN_TOO_LONG else check.error

def errorMessage : Bytes :=
  ascii "X509 verification error:" ++ to_string check.errorCode ++ ascii ":" ++
    X509_verify_cert_error_string check.errorCode ++ ascii ":depth=" ++ to_string check.depth ++ ascii ":subject=" ++
    check.certificate.subjectName ++
    if check.errorCode = X509_V_ERR_UNABLE_TO_GET_ISSUER_CERT then ascii ":issuer=" ++ check.certificate.issuerName
    else []

/-- What is logged of a certificate that is accepted, since `verbose` is set. -/
def message : Bytes :=
  ascii "X509 verification depth=" ++ to_string check.depth ++ ascii ":" ++ check.certificate.subjectName

/-- The certificate is accepted by OpenSSL, and the chain is not too long. -/
def Acceptable : Prop := check.preverified = true ∧ check.depth ≤ maxDepth

instance : Decidable check.Acceptable := inferInstanceAs (Decidable (_ ∧ _))

def line : Bytes := if check.Acceptable then check.message else check.errorMessage X509_verify_cert_error_string

/-- The subject can be read. -/
def Readable (openSSL : OpenSSL Object ASN1) : Prop := ∃ c, Certificate.init openSSL check.certificate.toX509 = .ok c

end Check

variable (openSSL : OpenSSL Object ASN1) (X509_verify_cert_error_string : Int → Bytes)

/-- What the call returns, with the error and the line that it leaves behind. The certificate is read first. -/
def verify_certificate (check : Check Object ASN1) : Except Exn (Bool × Int × Bytes) :=
  (Certificate.init openSSL check.certificate.toX509).map fun _ =>
    let preverified := if check.tooLong then false else check.preverified
    if preverified then (true, check.errorCode, check.message)
    else (false, check.errorCode, check.errorMessage X509_verify_cert_error_string)

/-! ## The check of a chain -/

/-- How the check of a peer ends: it is accepted, it has no certificate to show, a certificate is refused with an
error, or a call has thrown. -/
inductive Outcome
  | accepted
  | noCertificate
  | refused (error : Int)
  | threw (e : Exn)
  deriving DecidableEq

/-- OpenSSL goes on as long as the callback returns true; the lines are those of the calls that return. -/
def verifyPeer : List (Check Object ASN1) → Outcome × List Bytes
  | [] => (.accepted, [])
  | check :: checks =>
    match verify_certificate openSSL X509_verify_cert_error_string check with
    | .error e => (.threw e, [])
    | .ok (true, _, line) => ((verifyPeer checks).1, line :: (verifyPeer checks).2)
    | .ok (false, error, line) => (.refused error, [line])

/-- Without a callback the first certificate decides that OpenSSL does not accept itself. -/
def verifyDefault (checks : List (Check Object ASN1)) : Outcome × List Bytes :=
  match checks.find? fun check => !check.preverified with
  | some check => (.refused check.error, [])
  | none => (.accepted, [])

/-- The check of a peer whose certificates give this row, which is empty if it shows none: `verify_none` looks at
nothing, `verify_peer` with `verify_fail_if_no_peer_cert` needs a certificate. -/
def Context.checkPeer (context : Context) (checks : List (Check Object ASN1)) : Outcome × List Bytes :=
  match context.verify_mode with
  | .verify_none => (.accepted, [])
  | .verify_peer_or_fail =>
    if checks.isEmpty then (.noCertificate, [])
    else if context.verify_callback then verifyPeer openSSL X509_verify_cert_error_string checks
    else verifyDefault checks

variable {openSSL X509_verify_cert_error_string} {check : Check Object ASN1} {checks : List (Check Object ASN1)}

theorem verify_certificate_of_readable (h : check.Readable openSSL) :
    verify_certificate openSSL X509_verify_cert_error_string check =
      .ok (decide check.Acceptable, check.errorCode, check.line X509_verify_cert_error_string) := by
  obtain ⟨c, hc⟩ := h
  rw [verify_certificate, hc]
  show Except.ok _ = _
  unfold Check.line
  by_cases hacceptable : check.Acceptable
  · obtain ⟨hpreverified, hdepth⟩ := id hacceptable
    have hlong : check.tooLong = false := by
      unfold Check.tooLong
      rw [decide_eq_false_iff_not]
      omega
    simp [hacceptable, hlong, hpreverified]
  · have hfalse : (if check.tooLong = true then false else check.preverified) = false := by
      split_ifs with hlong
      · rfl
      · rw [Check.tooLong, decide_eq_true_iff] at hlong
        rw [← Bool.not_eq_true]
        exact fun hpreverified => hacceptable ⟨hpreverified, by omega⟩
    simp only [hfalse, hacceptable, if_false, decide_false, Bool.false_eq_true]

/-- What goes before is accepted, and the row ends as the rest of it does. -/
theorem verifyPeer_append (X509_verify_cert_error_string : Int → Bytes) {before : List (Check Object ASN1)}
    (h : ∀ check ∈ before, check.Readable openSSL ∧ check.Acceptable) (checks : List (Check Object ASN1)) :
    verifyPeer openSSL X509_verify_cert_error_string (before ++ checks) =
      ((verifyPeer openSSL X509_verify_cert_error_string checks).1,
        before.map (Check.line X509_verify_cert_error_string) ++
          (verifyPeer openSSL X509_verify_cert_error_string checks).2) := by
  induction before with
  | nil => rfl
  | cons check before ih =>
    obtain ⟨hreadable, hacceptable⟩ := h check List.mem_cons_self
    have hrest := ih fun c hc => h c (List.mem_cons_of_mem _ hc)
    rw [List.cons_append, verifyPeer, verify_certificate_of_readable hreadable, decide_eq_true hacceptable]
    dsimp only
    rw [hrest]
    rfl

/-- The ways in which a row of calls ends, each with the certificates whose lines are logged. -/
inductive Ends (openSSL : OpenSSL Object ASN1) : List (Check Object ASN1) → Outcome → List (Check Object ASN1) → Prop
  | accepted {checks : List (Check Object ASN1)} (h : ∀ check ∈ checks, check.Readable openSSL ∧ check.Acceptable) :
      Ends openSSL checks .accepted checks
  | refused (before : List (Check Object ASN1)) {after : List (Check Object ASN1)} {check : Check Object ASN1}
      (h : ∀ check ∈ before, check.Readable openSSL ∧ check.Acceptable) (hreadable : check.Readable openSSL)
      (hrefused : ¬ check.Acceptable) :
      Ends openSSL (before ++ check :: after) (.refused check.errorCode) (before ++ [check])
  | threw (before : List (Check Object ASN1)) {after : List (Check Object ASN1)} {check : Check Object ASN1} {e : Exn}
      (h : ∀ check ∈ before, check.Readable openSSL ∧ check.Acceptable)
      (hthrew : Certificate.init openSSL check.certificate.toX509 = .error e) :
      Ends openSSL (before ++ check :: after) (.threw e) before

/-- A certificate that is accepted can go in front. -/
theorem Ends.cons {outcome : Outcome} {seen : List (Check Object ASN1)} (h : Ends openSSL checks outcome seen)
    (hreadable : check.Readable openSSL) (hacceptable : check.Acceptable) :
    Ends openSSL (check :: checks) outcome (check :: seen) := by
  cases h with
  | accepted h => exact .accepted (List.forall_mem_cons.mpr ⟨⟨hreadable, hacceptable⟩, h⟩)
  | refused before h hreadable' hrefused =>
    exact .refused (check :: before) (List.forall_mem_cons.mpr ⟨⟨hreadable, hacceptable⟩, h⟩) hreadable' hrefused
  | threw before h hthrew =>
    exact .threw (check :: seen) (List.forall_mem_cons.mpr ⟨⟨hreadable, hacceptable⟩, h⟩) hthrew

theorem exists_ends (openSSL : OpenSSL Object ASN1) (checks : List (Check Object ASN1)) :
    ∃ outcome seen, Ends openSSL checks outcome seen := by
  induction checks with
  | nil => exact ⟨.accepted, [], .accepted (by simp)⟩
  | cons check checks ih =>
    cases hinit : Certificate.init openSSL check.certificate.toX509 with
    | error e => exact ⟨.threw e, [], .threw [] (by simp) hinit⟩
    | ok c =>
      by_cases hacceptable : check.Acceptable
      · obtain ⟨outcome, seen, hends⟩ := ih
        exact ⟨outcome, check :: seen, hends.cons ⟨c, hinit⟩ hacceptable⟩
      · exact ⟨.refused check.errorCode, [check], .refused [] (by simp) ⟨c, hinit⟩ hacceptable⟩

theorem verifyPeer_of_ends (X509_verify_cert_error_string : Int → Bytes) {outcome : Outcome}
    {seen : List (Check Object ASN1)} (h : Ends openSSL checks outcome seen) :
    verifyPeer openSSL X509_verify_cert_error_string checks =
      (outcome, seen.map (Check.line X509_verify_cert_error_string)) := by
  cases h with
  | accepted h =>
    have hall := verifyPeer_append X509_verify_cert_error_string h []
    rw [List.append_nil, verifyPeer, List.append_nil] at hall
    exact hall
  | refused before h hreadable hrefused =>
    rw [verifyPeer_append _ h, verifyPeer, verify_certificate_of_readable hreadable, decide_eq_false hrefused,
      List.map_append]
    rfl
  | threw before h hthrew =>
    rw [verifyPeer_append _ h, verifyPeer, verify_certificate, hthrew]
    exact congrArg (Prod.mk _) (List.append_nil _)

/-- Without a file to check against nothing is looked at. -/
theorem checkPeer_of_no_file {t : TLSHandler} (h : t.verifyFileName = []) (checks : List (Check Object ASN1)) :
    t.context.checkPeer openSSL X509_verify_cert_error_string checks = (.accepted, []) := by
  simp [Context.checkPeer, TLSHandler.context, h]

/-- With one, a certificate has to be shown. -/
theorem checkPeer_nil {t : TLSHandler} (h : t.verifyFileName ≠ []) :
    t.context.checkPeer openSSL X509_verify_cert_error_string [] = (.noCertificate, []) := by
  simp [Context.checkPeer, TLSHandler.context, h]

/-- And the callback goes through the row. -/
theorem checkPeer_cons {t : TLSHandler} (h : t.verifyFileName ≠ []) (hshown : checks ≠ []) :
    t.context.checkPeer openSSL X509_verify_cert_error_string checks =
      verifyPeer openSSL X509_verify_cert_error_string checks := by
  simp [Context.checkPeer, TLSHandler.context, h, hshown]

/-- A row of calls does not end for want of a certificate. -/
theorem Ends.ne_noCertificate {outcome : Outcome} {seen : List (Check Object ASN1)}
    (h : Ends openSSL checks outcome seen) : outcome ≠ .noCertificate := by
  cases h <;> exact fun heq => by cases heq

/-- **How the check of a peer ends.** Without a file to check it against every peer is accepted. With one, a peer
that shows no certificate fails; exactly the nonempty rows of certificates are accepted that OpenSSL accepts, none
of which lies deeper than `maxDepth` and all of whose subjects can be read. A peer is refused at the first one for
which this fails, for the length of the chain or with the error of OpenSSL, and the call throws at the first one
that it cannot read. A line is logged for every certificate up to there. -/
theorem checkPeer_spec (t : TLSHandler) (openSSL : OpenSSL Object ASN1) (X509_verify_cert_error_string : Int → Bytes)
    (checks : List (Check Object ASN1)) :
    (∀ lines, t.context.checkPeer openSSL X509_verify_cert_error_string checks = (.accepted, lines) ↔
      t.verifyFileName = [] ∧ lines = [] ∨ t.verifyFileName ≠ [] ∧ checks ≠ [] ∧
        (∀ check ∈ checks, check.Readable openSSL ∧ check.preverified = true ∧ check.depth ≤ maxDepth) ∧
        lines = checks.map (Check.line X509_verify_cert_error_string)) ∧
      (∀ lines, t.context.checkPeer openSSL X509_verify_cert_error_string checks = (.noCertificate, lines) ↔
        t.verifyFileName ≠ [] ∧ checks = [] ∧ lines = []) ∧
      (∀ error lines, t.context.checkPeer openSSL X509_verify_cert_error_string checks = (.refused error, lines) ↔
        t.verifyFileName ≠ [] ∧ ∃ before check after, checks = before ++ check :: after ∧
          (∀ c ∈ before, c.Readable openSSL ∧ c.preverified = true ∧ c.depth ≤ maxDepth) ∧ check.Readable openSSL ∧
          ¬ (check.preverified = true ∧ check.depth ≤ maxDepth) ∧
          error = (if maxDepth < check.depth then X509_V_ERR_CERT_CHAIN_TOO_LONG else check.error) ∧
          lines = (before ++ [check]).map (Check.line X509_verify_cert_error_string)) ∧
      ∀ e lines, t.context.checkPeer openSSL X509_verify_cert_error_string checks = (.threw e, lines) ↔
        t.verifyFileName ≠ [] ∧ ∃ before check after, checks = before ++ check :: after ∧
          (∀ c ∈ before, c.Readable openSSL ∧ c.preverified = true ∧ c.depth ≤ maxDepth) ∧
          Certificate.init openSSL check.certificate.toX509 = .error e ∧
          lines = before.map (Check.line X509_verify_cert_error_string) := by
  by_cases hfile : t.verifyFileName = []
  · rw [checkPeer_of_no_file hfile]
    refine ⟨fun lines => ⟨fun h => ?_, ?_⟩, ?_, ?_, ?_⟩
    · exact Or.inl ⟨hfile, (congrArg Prod.snd h).symm⟩
    · rintro (⟨-, rfl⟩ | ⟨hset, -⟩)
      · rfl
      · exact absurd hfile hset
    · intro lines
      exact iff_of_false (fun h => by cases h) fun h => h.1 hfile
    · intro error lines
      exact iff_of_false (fun h => by cases h) fun h => h.1 hfile
    · intro e lines
      exact iff_of_false (fun h => by cases h) fun h => h.1 hfile
  simp only [hfile, false_and, false_or, ne_eq, not_false_eq_true, true_and]
  by_cases hshown : checks = []
  · subst hshown
    rw [checkPeer_nil hfile]
    simp
  have heq : t.context.checkPeer openSSL X509_verify_cert_error_string checks = _ := checkPeer_cons hfile hshown
  obtain ⟨outcome, seen, hends⟩ := exists_ends openSSL checks
  rw [verifyPeer_of_ends X509_verify_cert_error_string hends] at heq
  have hrow : ∀ {outcome' seen'}, Ends openSSL checks outcome' seen' →
      t.context.checkPeer openSSL X509_verify_cert_error_string checks =
        (outcome', seen'.map (Check.line X509_verify_cert_error_string)) := by
    intro outcome' seen' hends'
    rw [checkPeer_cons hfile hshown, verifyPeer_of_ends X509_verify_cert_error_string hends']
  simp only [hshown, not_false_eq_true, true_and, false_and, iff_false]
  refine ⟨fun lines => ⟨fun h => ?_, ?_⟩, fun lines h => ?_, fun error lines => ⟨fun h => ?_, ?_⟩,
    fun e lines => ⟨fun h => ?_, ?_⟩⟩
  · rw [heq, Prod.mk.injEq] at h
    obtain ⟨rfl, rfl⟩ := h
    cases hends with
    | accepted h => exact ⟨h, rfl⟩
  · rintro ⟨h, rfl⟩
    exact hrow (.accepted h)
  · rw [heq, Prod.mk.injEq] at h
    exact hends.ne_noCertificate h.1
  · rw [heq, Prod.mk.injEq] at h
    obtain ⟨rfl, rfl⟩ := h
    cases hends with
    | @refused before after check h hreadable hrefused =>
      exact ⟨before, check, after, rfl, h, hreadable, hrefused, by simp [Check.errorCode, Check.tooLong], rfl⟩
  · rintro ⟨before, check, after, rfl, h, hreadable, hrefused, rfl, rfl⟩
    have hrefuses := hrow (.refused before h hreadable hrefused)
    simpa [Check.errorCode, Check.tooLong] using hrefuses
  · rw [heq, Prod.mk.injEq] at h
    obtain ⟨rfl, rfl⟩ := h
    cases hends with
    | @threw before after check e h hthrew => exact ⟨_, check, after, rfl, h, hthrew, rfl⟩
  · rintro ⟨before, check, after, rfl, h, hthrew, rfl⟩
    exact hrow (.threw before h hthrew)

/-- A root and an intermediate certificate that are accepted, and a leaf that has expired. -/
theorem checkPeer_spec_three :
    let expired : Int → Bytes := fun _ => ascii "certificate has expired"
    let certificate (name : String) : NamedX509 Nat Bytes :=
      { subject := [(13, ascii name)], subjectAltName := none, issuerName := ascii "/CN=CA",
        subjectName := ascii name }
    let chain : List (Check Nat Bytes) :=
      [⟨true, 0, 2, certificate "CA"⟩, ⟨true, 0, 1, certificate "Sub CA"⟩, ⟨false, 10, 0, certificate "a.com"⟩]
    let t : TLSHandler := ⟨[], [], ascii "ca.pem", []⟩
    t.context.checkPeer Certificate.names expired chain = (.refused 10, chain.map (Check.line expired)) ∧
      t.context.checkPeer Certificate.names expired (chain.take 2) =
        (.accepted, (chain.take 2).map (Check.line expired)) ∧
      t.context.checkPeer Certificate.names expired [] = (.noCertificate, []) := by
  intro expired certificate chain t
  have hreadable : ∀ check : Check Nat Bytes, check.Readable Certificate.names :=
    fun check => Certificate.init_ok_iff.mpr fun _ _ => rfl
  have hfile : t.verifyFileName ≠ [] := by decide
  have haccepted : ∀ check ∈ chain.take 2, check.Readable Certificate.names ∧ check.preverified = true ∧
      check.depth ≤ maxDepth := fun check hc => ⟨hreadable check, by revert check; decide⟩
  obtain ⟨-, -, hrefused, -⟩ := checkPeer_spec t Certificate.names expired chain
  obtain ⟨htwo, -⟩ := checkPeer_spec t Certificate.names expired (chain.take 2)
  obtain ⟨-, hnone, -⟩ := checkPeer_spec t Certificate.names expired []
  refine ⟨(hrefused 10 _).mpr ⟨hfile, chain.take 2, ⟨false, 10, 0, certificate "a.com"⟩, [], rfl, haccepted,
    hreadable _, by decide, rfl, rfl⟩, (htwo _).mpr (Or.inr ⟨hfile, by simp [chain], haccepted, rfl⟩),
    (hnone _).mpr ⟨hfile, rfl, rfl⟩⟩

end Communique
