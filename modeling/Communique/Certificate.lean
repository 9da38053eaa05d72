import Communique.OpenSSLTools.CheckHostname
import Mathlib.Data.List.AList

/-!
# `Certificate`: which names a certificate is valid for

* `OpenSSL`, `X509` : the functions and the parts of a certificate that are read;
* `convertName`, `getAlternateNames` : both lists of names as strings;
* `Certificate.init`, `subjectRDN`, `hostnameMatches` : the subject regrouped by type, and the two checks;
* **`Certificate.hostnameMatches_eq`** : together they are one check against the common names and the DNS
  names, and their order and repetitions do not matter;
* `subjectRDNAt`, **`subject_exact`** : the accessors of the subject, and how they agree.
-/

namespace Communique

/-! ## What OpenSSL hands over -/

/-- `OBJ_nid2sn` and `OBJ_nid2ln` of an object's identifier, and the conversion of a string, which can
fail. -/
structure OpenSSL (Object ASN1 : Type) where
  OBJ_nid2sn : Object → Bytes
  OBJ_nid2ln : Object → Bytes
  ASN1_STRING_to_UTF8 : ASN1 → Option Bytes

/-- `GENERAL_NAME`: a DNS name, or a name of another type, which is not read. -/
inductive GeneralName (ASN1 : Type)
  | GEN_DNS (dNSName : ASN1)
  | other (type : Nat)

/-- The subject's entries, and the subject alternative names where the certificate has the extension. -/
structure X509 (Object ASN1 : Type) where
  subject : List (Object × ASN1)
  subjectAltName : Option (List (GeneralName ASN1))

variable {Object ASN1 : Type} (openSSL : OpenSSL Object ASN1)

def convertASN1 (original : ASN1) : Except Exn Bytes :=
  match openSSL.ASN1_STRING_to_UTF8 original with
  | none => .error (runtimeError "Couldn't convert ASN1 string to UTF8")
  | some returnValue => .ok returnValue

def convertNameEntry (shortName : Bool) (entry : Object × ASN1) : Except Exn (Bytes × Bytes) :=
  let objectName := if shortName then openSSL.OBJ_nid2sn entry.1 else openSSL.OBJ_nid2ln entry.1
  (convertASN1 openSSL entry.2).map fun value => (objectName, value)

def convertName (shortName : Bool) : List (Object × ASN1) → Except Exn (List (Bytes × Bytes))
  | [] => .ok []
  | entry :: name =>
    (convertNameEntry openSSL shortName entry).bind fun thisEntry =>
      (convertName shortName name).map fun returnValue => thisEntry :: returnValue

/-- The loop over the alternative names. -/
def convertDNSNames : List (GeneralName ASN1) → Except Exn (List Bytes)
  | [] => .ok []
  | .GEN_DNS dNSName :: names =>
    (convertASN1 openSSL dNSName).bind fun name =>
      (convertDNSNames names).map fun returnValue => name :: returnValue
  | .other _ :: names => convertDNSNames names

/-- Without the extension the number of names is -1, and the loop does not run. -/
def getAlternateNames (certificate : X509 Object ASN1) : Except Exn (List Bytes) :=
  match certificate.subjectAltName with
  | none => .ok []
  | some alternateNames => convertDNSNames openSSL alternateNames

/-! ## The certificate -/

/-- The map of relative distinguished names. -/
abbrev Rdns := AList (fun _ : Bytes => List Bytes)

/-- `rdns_[type].push_back(value)`. -/
def Rdns.push_back (rdns : Rdns) (entry : Bytes × Bytes) : Rdns :=
  rdns.insert entry.1 ((rdns.lookup entry.1).getD [] ++ [entry.2])

/-- The map that `init` fills from the subject, with the default `shortName=true`. -/
def initRdns (handle : X509 Object ASN1) : Except Exn Rdns :=
  (convertName openSSL true handle.subject).map fun subjectSplitDown => subjectSplitDown.foldl Rdns.push_back ∅

structure Certificate where
  pOpenSSLHandle : X509 Object ASN1
  rdns : Rdns
  rdns_eq : initRdns openSSL pOpenSSLHandle = .ok rdns

variable {openSSL}

namespace Certificate

def init (openSSL : OpenSSL Object ASN1) (handle : X509 Object ASN1) : Except Exn (Certificate openSSL) :=
  match h : initRdns openSSL handle with
  | .error e => .error e
  | .ok rdns => .ok ⟨handle, rdns, h⟩

variable (c : Certificate openSSL)

def subjectRDN (RDN : Bytes) : List Bytes :=
  match c.rdns.lookup RDN with
  | some values => values
  | none => []

def subjectRDNEntries (RDN : Bytes) : Nat :=
  match c.rdns.lookup RDN with
  | some values => values.length
  | none => 0

def hostnameMatches (hostname : Bytes) : Except Exn Bool :=
  (checkHostname hostname (c.subjectRDN (ascii "CN"))).bind fun matched =>
    if matched then .ok true
    else (getAlternateNames openSSL c.pOpenSSLHandle).bind fun names => checkHostname hostname names

end Certificate

/-! ## The names it is valid for -/

/-- The values of the subject's entries of one type, in order. -/
def X509.values (openSSL : OpenSSL Object ASN1) (x : X509 Object ASN1) (type : Bytes) : List Bytes :=
  x.subject.filterMap fun entry =>
    if openSSL.OBJ_nid2sn entry.1 = type then openSSL.ASN1_STRING_to_UTF8 entry.2 else none

/-- The DNS alternative names, in order. -/
def X509.dNSNames (openSSL : OpenSSL Object ASN1) (x : X509 Object ASN1) : List Bytes :=
  (x.subjectAltName.getD []).filterMap fun
    | .GEN_DNS dNSName => openSSL.ASN1_STRING_to_UTF8 dNSName
    | .other _ => none

/-- Every string that is read can be converted. -/
structure X509.Convertible (openSSL : OpenSSL Object ASN1) (x : X509 Object ASN1) : Prop where
  subject : ∀ entry ∈ x.subject, (openSSL.ASN1_STRING_to_UTF8 entry.2).isSome
  dNSName : ∀ dNSName, .GEN_DNS dNSName ∈ x.subjectAltName.getD [] →
    (openSSL.ASN1_STRING_to_UTF8 dNSName).isSome

theorem convertASN1_some {original : ASN1} {value : Bytes}
    (h : openSSL.ASN1_STRING_to_UTF8 original = some value) : convertASN1 openSSL original = .ok value := by
  rw [convertASN1, h]

theorem convertName_eq {name : List (Object × ASN1)}
    (h : ∀ entry ∈ name, (openSSL.ASN1_STRING_to_UTF8 entry.2).isSome) :
    convertName openSSL true name = .ok (name.filterMap fun entry =>
      (openSSL.ASN1_STRING_to_UTF8 entry.2).map fun value => (openSSL.OBJ_nid2sn entry.1, value)) := by
  induction name with
  | nil => rfl
  | cons entry name ih =>
    obtain ⟨value, hvalue⟩ := Option.isSome_iff_exists.mp (h entry List.mem_cons_self)
    rw [convertName, convertNameEntry, convertASN1_some hvalue, ih fun e he => h e (List.mem_cons_of_mem _ he)]
    simp [Except.map, Except.bind, hvalue]

theorem getAlternateNames_eq {x : X509 Object ASN1} (h : x.Convertible openSSL) :
    getAlternateNames openSSL x = .ok (x.dNSNames openSSL) := by
  have hconvert : ∀ names : List (GeneralName ASN1),
      (∀ dNSName, .GEN_DNS dNSName ∈ names → (openSSL.ASN1_STRING_to_UTF8 dNSName).isSome) →
      convertDNSNames openSSL names = .ok (names.filterMap fun
        | .GEN_DNS dNSName => openSSL.ASN1_STRING_to_UTF8 dNSName
        | .other _ => none) := by
    intro names hnames
    fun_induction convertDNSNames openSSL names with
    | case1 => rfl
    | case2 dNSName names ih =>
      obtain ⟨value, hvalue⟩ := Option.isSome_iff_exists.mp (hnames dNSName List.mem_cons_self)
      rw [convertASN1_some hvalue, Except.bind, ih fun d hd => hnames d (List.mem_cons_of_mem _ hd)]
      simp [Except.map, hvalue]
    | case3 type names ih =>
      rw [ih fun d hd => hnames d (List.mem_cons_of_mem _ hd)]
      simp
  unfold getAlternateNames X509.dNSNames
  have hnames := h.dNSName
  cases hsan : x.subjectAltName with
  | none => rfl
  | some names =>
    rw [hsan] at hnames
    exact hconvert names hnames

/-- Each type keeps its values, in order. -/
theorem getD_lookup_foldl (entries : List (Bytes × Bytes)) (rdns : Rdns) (type : Bytes) :
    ((entries.foldl Rdns.push_back rdns).lookup type).getD [] =
      (rdns.lookup type).getD [] ++ (entries.filter (·.1 = type)).map Prod.snd := by
  induction entries generalizing rdns with
  | nil => simp
  | cons entry entries ih =>
    rw [List.foldl_cons, ih, Rdns.push_back]
    by_cases htype : entry.1 = type
    · subst htype
      simp [AList.lookup_insert]
    · rw [AList.lookup_insert_ne (Ne.symm htype), List.filter_cons_of_neg (by simpa using htype)]

namespace Certificate

theorem subjectRDN_eq_getD (c : Certificate openSSL) (RDN : Bytes) :
    c.subjectRDN RDN = (c.rdns.lookup RDN).getD [] := by
  unfold subjectRDN
  cases c.rdns.lookup RDN <;> rfl

theorem subjectRDNEntries_eq (c : Certificate openSSL) (RDN : Bytes) :
    c.subjectRDNEntries RDN = (c.subjectRDN RDN).length := by
  unfold subjectRDNEntries subjectRDN
  cases c.rdns.lookup RDN <;> rfl

/-- The regrouped subject gives back the values of each type. -/
theorem subjectRDN_eq {c : Certificate openSSL} (h : c.pOpenSSLHandle.Convertible openSSL) (RDN : Bytes) :
    c.subjectRDN RDN = c.pOpenSSLHandle.values openSSL RDN := by
  have hinit := c.rdns_eq
  rw [initRdns, convertName_eq h.subject, Except.map, Except.ok.injEq] at hinit
  rw [subjectRDN_eq_getD, ← hinit, getD_lookup_foldl, AList.lookup_empty, X509.values, List.filter_filterMap,
    List.map_filterMap]
  apply congrArg (List.filterMap · c.pOpenSSLHandle.subject)
  funext entry
  by_cases htype : openSSL.OBJ_nid2sn entry.1 = RDN
  · cases openSSL.ASN1_STRING_to_UTF8 entry.2 <;> simp [htype]
  · cases openSSL.ASN1_STRING_to_UTF8 entry.2 <;> simp [htype]

/-- The two checks are one check against both lists. -/
theorem hostnameMatches_append {c : Certificate openSSL} (h : c.pOpenSSLHandle.Convertible openSSL)
    (hostname : Bytes) :
    c.hostnameMatches hostname = checkHostname hostname
      (c.pOpenSSLHandle.values openSSL (ascii "CN") ++ c.pOpenSSLHandle.dNSNames openSSL) := by
  rw [hostnameMatches, subjectRDN_eq h, getAlternateNames_eq h, checkHostname_append]
  rfl

theorem init_ok {x : X509 Object ASN1} (h : x.Convertible openSSL) :
    ∃ c, init openSSL x = .ok c := by
  unfold init
  split
  · next e herror =>
    rw [initRdns, convertName_eq h.subject] at herror
    exact absurd herror (by simp [Except.map])
  · exact ⟨_, rfl⟩

theorem pOpenSSLHandle_init {x : X509 Object ASN1} {c : Certificate openSSL} (h : init openSSL x = .ok c) :
    c.pOpenSSLHandle = x := by
  unfold init at h
  split at h
  · exact absurd h (by simp)
  · exact congrArg pOpenSSLHandle (Except.ok.inj h).symm

/-- **`hostnameMatches` is one check**, against the values of the subject's `CN` entries followed by the DNS
alternative names, whatever else the certificate holds. Neither the order nor the repetitions of these
names matter. -/
theorem hostnameMatches_eq {x : X509 Object ASN1} (h : x.Convertible openSSL) :
    ∃ c, init openSSL x = .ok c ∧
      (∀ hostname, c.hostnameMatches hostname =
        checkHostname hostname (x.values openSSL (ascii "CN") ++ x.dNSNames openSSL)) ∧
      ∀ x' c', x'.Convertible openSSL → init openSSL x' = .ok c' →
        (∀ name, name ∈ x.values openSSL (ascii "CN") ↔ name ∈ x'.values openSSL (ascii "CN")) →
        (∀ name, name ∈ x.dNSNames openSSL ↔ name ∈ x'.dNSNames openSSL) →
        ∀ hostname, c.hostnameMatches hostname = c'.hostnameMatches hostname := by
  obtain ⟨c, hc⟩ := init_ok h
  obtain rfl := pOpenSSLHandle_init hc
  refine ⟨c, hc, hostnameMatches_append h, ?_⟩
  intro x' c' h' hc' hcommon hdns hostname
  obtain rfl := pOpenSSLHandle_init hc'
  rw [hostnameMatches_append h, hostnameMatches_append h']
  apply checkHostname_congr
  intro name
  rw [List.mem_append, List.mem_append, hcommon, hdns]

/-- The identifiers of `commonName` and `organizationName`, and strings that are UTF-8 already. -/
def names : OpenSSL Nat Bytes where
  OBJ_nid2sn nid := if nid = 13 then ascii "CN" else if nid = 17 then ascii "O" else ascii "UNDEF"
  OBJ_nid2ln nid :=
    if nid = 13 then ascii "commonName" else if nid = 17 then ascii "organizationName" else ascii "undefined"
  ASN1_STRING_to_UTF8 := some

/-- Both names in one order, and in the other with an organization between them and one name twice. -/
theorem hostnameMatches_reordered :
    ∃ c c' : Certificate names,
      init names ⟨[(13, ascii "a.com"), (13, ascii "b.com")], some [.GEN_DNS (ascii "*.c.com")]⟩ = .ok c ∧
      init names ⟨[(13, ascii "b.com"), (17, ascii "Org"), (13, ascii "a.com"), (13, ascii "b.com")],
        some [.other 1, .GEN_DNS (ascii "*.c.com")]⟩ = .ok c' ∧
      c.hostnameMatches (ascii "www.c.com") = .ok true ∧ c'.hostnameMatches (ascii "www.c.com") = .ok true := by
  have hconvertible : ∀ x : X509 Nat Bytes, x.Convertible names := fun x => ⟨fun _ _ => rfl, fun _ _ => rfl⟩
  obtain ⟨c, hc, hcheck, hsame⟩ := hostnameMatches_eq
    (hconvertible ⟨[(13, ascii "a.com"), (13, ascii "b.com")], some [.GEN_DNS (ascii "*.c.com")]⟩)
  obtain ⟨c', hc', -, -⟩ := hostnameMatches_eq (hconvertible
    ⟨[(13, ascii "b.com"), (17, ascii "Org"), (13, ascii "a.com"), (13, ascii "b.com")],
      some [.other 1, .GEN_DNS (ascii "*.c.com")]⟩)
  have htrue : c.hostnameMatches (ascii "www.c.com") = .ok true := by
    rw [hcheck, checkHostname_eq]
    decide
  refine ⟨c, c', hc, hc', htrue, ?_⟩
  rw [← hsame _ c' (hconvertible _) hc' ?_ ?_]
  · exact htrue
  · intro name
    simp [X509.values, names, show ascii "O" ≠ ascii "CN" by decide]
    tauto
  · intro name
    simp [X509.dNSNames]

/-! ## The entries of the subject -/

/-- `subjectRDN` with an index. `outOfRange` is what `std::vector::at` throws for an index and a size. -/
def subjectRDNAt (c : Certificate openSSL) (outOfRange : Nat → Nat → Exn) (RDN : Bytes) (entry : Nat) :
    Except Exn Bytes :=
  match c.rdns.lookup RDN with
  | some values =>
    match values[entry]? with
    | some value => .ok value
    | none => .error (outOfRange entry values.length)
  | none => .ok []

theorem convertName_ok {name : List (Object × ASN1)} {entries : List (Bytes × Bytes)}
    (h : convertName openSSL true name = .ok entries) :
    ∀ entry ∈ name, (openSSL.ASN1_STRING_to_UTF8 entry.2).isSome := by
  induction name generalizing entries with
  | nil => exact fun entry hentry => absurd hentry List.not_mem_nil
  | cons entry name ih =>
    rw [convertName, convertNameEntry, convertASN1] at h
    cases hvalue : openSSL.ASN1_STRING_to_UTF8 entry.2 with
    | none => simp [hvalue, Except.map, Except.bind] at h
    | some value =>
      cases hname : convertName openSSL true name with
      | error e => simp [hvalue, hname, Except.map, Except.bind] at h
      | ok rest => exact List.forall_mem_cons.mpr ⟨by simp [hvalue], ih hname⟩

/-- The object is made exactly from certificates whose subject can be read. -/
theorem init_ok_iff {x : X509 Object ASN1} :
    (∃ c, init openSSL x = .ok c) ↔ ∀ entry ∈ x.subject, (openSSL.ASN1_STRING_to_UTF8 entry.2).isSome := by
  constructor
  · rintro ⟨c, hc⟩
    have hrdns := c.rdns_eq
    rw [pOpenSSLHandle_init hc, initRdns] at hrdns
    cases hname : convertName openSSL true x.subject with
    | error e => simp [hname, Except.map] at hrdns
    | ok entries => exact convertName_ok hname
  · intro h
    unfold init
    split
    · next e herror =>
      rw [initRdns, convertName_eq h] at herror
      exact absurd herror (by simp [Except.map])
    · exact ⟨_, rfl⟩

theorem exists_init (c : Certificate openSSL) : ∃ d, init openSSL c.pOpenSSLHandle = .ok d := by
  unfold init
  split
  · next e herror => exact absurd (c.rdns_eq.symm.trans herror) (by simp)
  · exact ⟨_, rfl⟩

/-- Whether the alternative names can be read makes no difference to the subject. -/
theorem subjectRDN_values (c : Certificate openSSL) (RDN : Bytes) :
    c.subjectRDN RDN = c.pOpenSSLHandle.values openSSL RDN := by
  let bare : Certificate openSSL := ⟨{ c.pOpenSSLHandle with subjectAltName := none }, c.rdns, c.rdns_eq⟩
  have hconvertible : bare.pOpenSSLHandle.Convertible openSSL :=
    ⟨init_ok_iff.mp bare.exists_init, fun dNSName h => absurd h (by simp [bare])⟩
  exact subjectRDN_eq hconvertible RDN

/-- No type is kept without a value. -/
theorem lookup_foldl_ne_nil (entries : List (Bytes × Bytes)) {rdns : Rdns}
    (h : ∀ type values, rdns.lookup type = some values → values ≠ []) :
    ∀ type values, (entries.foldl Rdns.push_back rdns).lookup type = some values → values ≠ [] := by
  induction entries generalizing rdns with
  | nil => exact h
  | cons entry entries ih =>
    apply ih
    intro type values hvalues
    rw [Rdns.push_back] at hvalues
    by_cases htype : type = entry.1
    · subst htype
      rw [AList.lookup_insert, Option.some.injEq] at hvalues
      rw [← hvalues]
      exact List.append_ne_nil_of_right_ne_nil _ (List.cons_ne_nil _ _)
    · rw [AList.lookup_insert_ne htype] at hvalues
      exact h type values hvalues

theorem lookup_eq_none_iff (c : Certificate openSSL) (RDN : Bytes) :
    c.rdns.lookup RDN = none ↔ c.pOpenSSLHandle.values openSSL RDN = [] := by
  rw [← subjectRDN_values, subjectRDN_eq_getD]
  have hrdns := c.rdns_eq
  rw [initRdns] at hrdns
  cases hname : convertName openSSL true c.pOpenSSLHandle.subject with
  | error e => simp [hname, Except.map] at hrdns
  | ok entries =>
    rw [hname, Except.map, Except.ok.injEq] at hrdns
    have hempty : ∀ type values, (∅ : Rdns).lookup type = some values → values ≠ [] := by simp
    have hne := lookup_foldl_ne_nil entries hempty RDN
    rw [hrdns] at hne
    cases hlookup : c.rdns.lookup RDN with
    | none => simp
    | some values => simpa [hlookup] using hne values hlookup

/-- **The accessors of the subject agree.** A certificate object is made if all entries of the subject can be read;
then the values of a type are those of the subject, in order, `subjectRDNEntries` counts them, and the one with an
index is the value there. An index behind the last value throws, but gives the empty string where the type has
none. -/
theorem subject_exact (outOfRange : Nat → Nat → Exn) (x : X509 Object ASN1) :
    ((∃ c, init openSSL x = .ok c) ↔ ∀ entry ∈ x.subject, (openSSL.ASN1_STRING_to_UTF8 entry.2).isSome) ∧
      ∀ c RDN, init openSSL x = .ok c →
        c.subjectRDN RDN = x.values openSSL RDN ∧ c.subjectRDNEntries RDN = (x.values openSSL RDN).length ∧
          (∀ entry value, c.subjectRDNAt outOfRange RDN entry = .ok value ↔
            (x.values openSSL RDN)[entry]? = some value ∨ x.values openSSL RDN = [] ∧ value = []) ∧
          ∀ entry e, c.subjectRDNAt outOfRange RDN entry = .error e ↔
            0 < (x.values openSSL RDN).length ∧ (x.values openSSL RDN).length ≤ entry ∧
              e = outOfRange entry (x.values openSSL RDN).length := by
  refine ⟨init_ok_iff, fun c RDN hc => ?_⟩
  obtain rfl := pOpenSSLHandle_init hc
  refine ⟨subjectRDN_values c RDN, ?_, ?_⟩
  · rw [subjectRDNEntries_eq, subjectRDN_values]
  · have hnone := lookup_eq_none_iff c RDN
    have hvalues := subjectRDN_values c RDN
    rw [subjectRDN_eq_getD] at hvalues
    unfold subjectRDNAt
    cases hlookup : c.rdns.lookup RDN with
    | none =>
      have hnil := hnone.mp hlookup
      rw [hnil]
      exact ⟨fun entry value => by simp [eq_comm], fun entry e => by simp⟩
    | some values =>
      rw [hlookup, Option.getD_some] at hvalues
      rw [← hvalues]
      have hne : values ≠ [] := by
        rw [hvalues, ne_eq, ← hnone, hlookup]
        simp
      have hpos := List.length_pos_iff.mpr hne
      dsimp only
      constructor
      · intro entry value
        cases hentry : values[entry]? <;> simp [hne]
      · intro entry e
        cases hentry : values[entry]? with
        | none =>
          have hle := List.getElem?_eq_none_iff.mp hentry
          simp [hpos, hle, eq_comm]
        | some value =>
          have hlt := (List.getElem?_eq_some_iff.mp hentry).1
          exact iff_of_false (by simp) (by omega)

/-- Two common names with an organization between them, and no country. -/
theorem subject_exact_two_names :
    let outOfRange : Nat → Nat → Exn := fun _ _ => .exception (ascii "vector")
    ∃ c : Certificate names,
      init names ⟨[(13, ascii "a.com"), (17, ascii "Org"), (13, ascii "b.com")], none⟩ = .ok c ∧
      c.subjectRDN (ascii "CN") = [ascii "a.com", ascii "b.com"] ∧
      c.subjectRDNAt outOfRange (ascii "CN") 1 = .ok (ascii "b.com") ∧
      c.subjectRDNAt outOfRange (ascii "CN") 2 = .error (outOfRange 2 2) ∧
      c.subjectRDNAt outOfRange (ascii "C") 2 = .ok [] := by
  intro outOfRange
  let x : X509 Nat Bytes := ⟨[(13, ascii "a.com"), (17, ascii "Org"), (13, ascii "b.com")], none⟩
  have hreadable : ∀ entry ∈ x.subject, (names.ASN1_STRING_to_UTF8 entry.2).isSome := fun _ _ => rfl
  have hcommon : x.values names (ascii "CN") = [ascii "a.com", ascii "b.com"] := by decide
  have hcountry : x.values names (ascii "C") = [] := by decide
  obtain ⟨hinit, hexact⟩ := subject_exact outOfRange x
  obtain ⟨c, hc⟩ := hinit.mpr hreadable
  obtain ⟨hvalues, -, hvalue, herror⟩ := hexact c (ascii "CN") hc
  obtain ⟨-, -, hnone, -⟩ := hexact c (ascii "C") hc
  rw [hcommon] at hvalues hvalue herror
  rw [hcountry] at hnone
  exact ⟨c, hc, hvalues, (hvalue _ _).mpr (by simp), (herror _ _).mpr (by simp), (hnone _ _).mpr (by simp)⟩

end Certificate

end Communique
