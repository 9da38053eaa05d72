import Communique.Bytes
import Mathlib.Data.List.TakeWhile

/-!
# `hostnameFromURL`: the hand-written parser

* `isProtocol`, `isHostname` : the characters of a scheme and of a host;
* `parseURL`, `hostnameFromURL` : the single pass, with its mode flag and its lookahead;
* `behindScheme` : what follows a scheme and `://`;
* `finish` : what decides between the text that was read and the exception;
* **`hostnameFromURL_spec`** : the exact result on every string.
-/

namespace Communique

/-! ## The parser -/

/-- A character literal of the source. -/
def character (c : Char) : UInt8 := c.toNat.toUInt8

def isUppercase (c : UInt8) : Bool := character 'A' ≤ c && c ≤ character 'Z'
def isLowercase (c : UInt8) : Bool := character 'a' ≤ c && c ≤ character 'z'
def isNumeric (c : UInt8) : Bool := character '0' ≤ c && c ≤ character '9'
def isAlphaNumeric (c : UInt8) : Bool := isUppercase c || isLowercase c || isNumeric c
def isProtocol (c : UInt8) : Bool := isAlphaNumeric c || c == character '_'
def isHostname (c : UInt8) : Bool := isProtocol c || c == character '.' || c == character '-'

def invalidCharacters : Exn := runtimeError "hostnameFromURL called with string that has invalid characters"

/-- The loop: the list is what the iterator has still to pass, its length the distance to the end. -/
def parseURL (alreadyParsedProtocol : Bool) (hostname : Bytes) : Bytes → Except Exn Bytes
  | [] => .ok hostname
  | c :: rest =>
    if !alreadyParsedProtocol then
      if isProtocol c then parseURL false (hostname ++ [c]) rest
      else if isHostname c then parseURL true (hostname ++ [c]) rest
      else if c = character ':' then
        -- the lookahead moves the iterator, to the second slash where both are there
        match rest with
        | second :: third :: rest =>
          if second = character '/' ∧ third = character '/' then parseURL true [] rest else .ok hostname
        | _ => .ok hostname
      else if c = character '/' then .ok hostname
      else .error invalidCharacters
    else
      if isHostname c then parseURL true (hostname ++ [c]) rest
      else if c = character ':' then .ok hostname
      else if c = character '/' then .ok hostname
      else .error invalidCharacters

def hostnameFromURL (URL : Bytes) : Except Exn Bytes := parseURL false [] URL

/-! ## The parts of a URL -/

/-- What follows `://`, if the string starts with it. -/
def behindSeparator : Bytes → Option Bytes
  | first :: second :: third :: rest =>
    if first = character ':' ∧ second = character '/' ∧ third = character '/' then some rest else none
  | _ => none

/-- What follows a scheme and `://`, if there is one. -/
def behindScheme (URL : Bytes) : Option Bytes := behindSeparator (URL.dropWhile isProtocol)

/-- A host ends with the string, or before a port or a path. -/
def finish (hostname : Bytes) : Bytes → Except Exn Bytes
  | [] => .ok hostname
  | c :: _ => if c = character ':' ∨ c = character '/' then .ok hostname else .error invalidCharacters

/-! ## What the loop computes -/

/-- One round in the second mode. -/
theorem parseURL_true_cons (hostname : Bytes) (c : UInt8) (rest : Bytes) :
    parseURL true hostname (c :: rest) =
      if isHostname c then parseURL true (hostname ++ [c]) rest else finish hostname (c :: rest) := by
  rw [finish, ite_or, parseURL.eq_def]
  rfl

/-- The second mode reads on to the end of the host. -/
theorem parseURL_true (hostname w : Bytes) :
    parseURL true hostname w = finish (hostname ++ w.takeWhile isHostname) (w.dropWhile isHostname) := by
  induction w generalizing hostname with
  | nil =>
    show Except.ok hostname = Except.ok (hostname ++ [])
    rw [List.append_nil]
  | cons c rest ih =>
    rw [parseURL_true_cons]
    split
    · next hc =>
      rw [ih, List.takeWhile_cons_of_pos hc, List.dropWhile_cons_of_pos hc, List.append_assoc]
      rfl
    · next hc => rw [List.takeWhile_cons_of_neg hc, List.dropWhile_cons_of_neg hc, List.append_nil]

theorem isHostname_of_isProtocol {c : UInt8} (h : isProtocol c = true) : isHostname c = true := by
  rw [isHostname, h, Bool.true_or, Bool.true_or]

theorem isHostname_colon : isHostname (character ':') = false := by decide

theorem isHostname_slash : isHostname (character '/') = false := by decide

theorem behindScheme_cons_of_pos {c : UInt8} (h : isProtocol c = true) (rest : Bytes) :
    behindScheme (c :: rest) = behindScheme rest := by
  rw [behindScheme, List.dropWhile_cons_of_pos h, behindScheme]

theorem eq_colon_of_behindSeparator {v w : Bytes} (h : behindSeparator v = some w) :
    ∃ rest, v = character ':' :: rest := by
  unfold behindSeparator at h
  split at h
  · next first second third rest =>
    obtain ⟨⟨rfl, -⟩, -⟩ := Option.ite_none_right_eq_some.mp h
    exact ⟨_, rfl⟩
  · exact absurd h (by simp)

theorem behindScheme_cons_of_ne {c : UInt8} (h : ¬ isProtocol c = true) (hc : c ≠ character ':') (rest : Bytes) :
    behindScheme (c :: rest) = none := by
  rw [behindScheme, List.dropWhile_cons_of_neg h, Option.eq_none_iff_forall_ne_some]
  intro w hw
  obtain ⟨v, hv⟩ := eq_colon_of_behindSeparator hw
  exact hc (List.cons.inj hv).1

/-- The first mode at a character that no scheme has: the lookahead decides at a colon. -/
theorem parseURL_false_cons {c : UInt8} (h : ¬ isProtocol c = true) (hostname rest : Bytes) :
    parseURL false hostname (c :: rest) =
      match behindScheme (c :: rest) with
      | some w => parseURL true [] w
      | none => parseURL true hostname (c :: rest) := by
  by_cases hc : c = character ':'
  · subst hc
    rw [parseURL_true_cons, isHostname_colon, behindScheme, List.dropWhile_cons_of_neg h, parseURL.eq_def]
    rcases rest with _ | ⟨second, _ | ⟨third, rest⟩⟩
    · simp [behindSeparator, h, isHostname_colon, finish]
    · simp [behindSeparator, h, isHostname_colon, finish]
    · by_cases hslashes : second = character '/' ∧ third = character '/' <;>
        simp [behindSeparator, h, isHostname_colon, finish, hslashes]
  · rw [behindScheme_cons_of_ne h hc, parseURL_true_cons, parseURL.eq_def]
    simp [h, hc, finish]

/-- The first mode starts anew behind a scheme, and else reads as the second one does. -/
theorem parseURL_false (hostname u : Bytes) :
    parseURL false hostname u =
      match behindScheme u with
      | some w => parseURL true [] w
      | none => parseURL true hostname u := by
  induction u generalizing hostname with
  | nil => rfl
  | cons c rest ih =>
    by_cases hprotocol : isProtocol c
    · have hround : parseURL false hostname (c :: rest) = parseURL false (hostname ++ [c]) rest := by
        rw [parseURL.eq_def]
        simp [hprotocol]
      rw [hround, ih, behindScheme_cons_of_pos hprotocol, parseURL_true_cons,
        if_pos (isHostname_of_isProtocol hprotocol)]
    · exact parseURL_false_cons hprotocol hostname rest

/-- What the parser returns on any string. -/
theorem hostnameFromURL_eq (URL : Bytes) :
    hostnameFromURL URL =
      let w := (behindScheme URL).getD URL
      finish (w.takeWhile isHostname) (w.dropWhile isHostname) := by
  rw [hostnameFromURL, parseURL_false]
  cases behindScheme URL <;> exact parseURL_true [] _

/-! ## URLs -/

theorem finish_append {host tail : Bytes} (hhost : ∀ c ∈ host, isHostname c = true)
    (htail : tail = [] ∨ ∃ c rest, tail = c :: rest ∧ (c = character ':' ∨ c = character '/')) :
    finish ((host ++ tail).takeWhile isHostname) ((host ++ tail).dropWhile isHostname) = .ok host := by
  rw [List.takeWhile_append_of_pos hhost, List.dropWhile_append_of_pos hhost]
  obtain rfl | ⟨c, rest, rfl, hc⟩ := htail
  · rw [List.takeWhile_nil, List.append_nil]
    rfl
  · have hnot : isHostname c = false := by
      obtain rfl | rfl := hc
      · exact isHostname_colon
      · exact isHostname_slash
    rw [List.takeWhile_cons_of_neg (by simp [hnot]), List.dropWhile_cons_of_neg (by simp [hnot]), finish,
      if_pos hc, List.append_nil]

theorem behindScheme_append {scheme : Bytes} (hscheme : ∀ c ∈ scheme, isProtocol c = true) (rest : Bytes) :
    behindScheme (scheme ++ (ascii "://" ++ rest)) = some rest := by
  rw [behindScheme, List.dropWhile_append_of_pos hscheme]
  rfl

/-- A string of hostname characters has no scheme. -/
theorem behindScheme_of_isHostname {host : Bytes} (hhost : ∀ c ∈ host, isHostname c = true) :
    behindScheme host = none := by
  rw [behindScheme, Option.eq_none_iff_forall_ne_some]
  intro w hw
  obtain ⟨v, hv⟩ := eq_colon_of_behindSeparator hw
  have hmem : character ':' ∈ host := by
    apply (List.dropWhile_sublist isProtocol).mem
    rw [hv]
    exact List.mem_cons_self
  have := hhost _ hmem
  rw [isHostname_colon] at this
  exact Bool.false_ne_true this

theorem finish_eq (hostname w : Bytes) :
    finish hostname w =
      if w = [] ∨ w.head? = some (character ':') ∨ w.head? = some (character '/') then .ok hostname
      else .error invalidCharacters := by
  cases w <;> simp [finish]

/-- What is returned is made of hostname characters. -/
theorem isHostname_of_ok {URL host : Bytes} (h : hostnameFromURL URL = .ok host) :
    ∀ c ∈ host, isHostname c = true := by
  rw [hostnameFromURL_eq, finish_eq] at h
  split at h
  · obtain rfl := Except.ok.inj h
    exact fun c hc => List.mem_takeWhile_imp hc
  · exact absurd h (by simp)

theorem hostnameFromURL_append {scheme host tail : Bytes} (hscheme : ∀ c ∈ scheme, isProtocol c = true)
    (hhost : ∀ c ∈ host, isHostname c = true)
    (htail : tail = [] ∨ ∃ c rest, tail = c :: rest ∧ (c = character ':' ∨ c = character '/')) :
    hostnameFromURL (scheme ++ (ascii "://" ++ (host ++ tail))) = .ok host := by
  rw [hostnameFromURL_eq, behindScheme_append hscheme]
  exact finish_append hhost htail

/-- A host alone is its own host. -/
theorem hostnameFromURL_of_isHostname {host : Bytes} (hhost : ∀ c ∈ host, isHostname c = true) :
    hostnameFromURL host = .ok host := by
  rw [hostnameFromURL_eq, behindScheme_of_isHostname hhost]
  have := finish_append hhost (Or.inl rfl)
  rwa [List.append_nil] at this

/-- **`hostnameFromURL` on every string**: the hostname characters behind the scheme, or from the start, if
the string ends behind them or goes on with a port or a path, and else the exception. So it finds the host
of every URL, and leaves a host as it is. -/
theorem hostnameFromURL_spec :
    (∀ URL w, w = (behindScheme URL).getD URL →
      hostnameFromURL URL =
        if w.dropWhile isHostname = [] ∨ (w.dropWhile isHostname).head? = some (character ':') ∨
          (w.dropWhile isHostname).head? = some (character '/')
        then .ok (w.takeWhile isHostname) else .error invalidCharacters) ∧
    (∀ scheme host tail, (∀ c ∈ scheme, isProtocol c = true) → (∀ c ∈ host, isHostname c = true) →
      (tail = [] ∨ ∃ c rest, tail = c :: rest ∧ (c = character ':' ∨ c = character '/')) →
      hostnameFromURL (scheme ++ (ascii "://" ++ (host ++ tail))) = .ok host) ∧
    ∀ URL host, hostnameFromURL URL = .ok host → hostnameFromURL host = .ok host := by
  refine ⟨?_, ?_, ?_⟩
  · rintro URL w rfl
    rw [hostnameFromURL_eq, finish_eq]
  · intro scheme host tail hscheme hhost htail
    exact hostnameFromURL_append hscheme hhost htail
  · intro URL host h
    exact hostnameFromURL_of_isHostname (isHostname_of_ok h)

/-- A URL with all its parts, from the tests. -/
theorem hostnameFromURL_google :
    hostnameFromURL (ascii "https://google.com:443/foo/bar") = .ok (ascii "google.com") := by
  have hscheme : ∀ c ∈ ascii "https", isProtocol c = true := List.all_eq_true.mp (by decide)
  have hhost : ∀ c ∈ ascii "google.com", isHostname c = true := List.all_eq_true.mp (by decide)
  exact hostnameFromURL_spec.2.1 (ascii "https") (ascii "google.com") (ascii ":443/foo/bar") hscheme hhost
    (Or.inr ⟨_, _, rfl, Or.inl rfl⟩)

end Communique
