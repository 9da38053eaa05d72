import Communique.OpenSSLTools.HostnameFromURL
import Communique.Lib.Regex

/-!
# `hostnameFromURL` against the regular expression it replaces

* `hostnameRegex` : the expression that the source has disabled;
* `hostnameMatch` : its second group;
* `hostnameMatch_of_scheme`, `hostnameMatch_of_no_host` : what it is, with a host behind a scheme and without;
* `hostname_without_host` : what both make of a scheme that no host follows;
* **`hostnameRegex_agrees`** : where the parser returns the second group, and where it throws instead.
-/

namespace Communique
open Regex

/-! ## The expression -/

def literal (c : Char) : Regex UInt8 := .set (· == character c)

/-- `://` -/
def separator : Regex UInt8 := .seq (literal ':') (.seq (literal '/') (literal '/'))

/-- `([_[:alnum:]]+://)` -/
def schemeGroup : Regex UInt8 := .group 1 (.seq (.plus (.set isProtocol)) separator)

/-- `([_.[:alnum:]\-]+)(:|/)?` -/
def hostGroups : Regex UInt8 :=
  .seq (.group 2 (.plus (.set isHostname))) (.optional (.group 3 (.alt (literal ':') (literal '/'))))

/-- `^([_[:alnum:]]+://)?([_.[:alnum:]\-]+)(:|/)?`, in the C locale. -/
def hostnameRegex : Regex UInt8 := .seq (.optional schemeGroup) hostGroups

/-- The second group of the match. -/
def hostnameMatch (URL : Bytes) : Option (SubMatch UInt8) :=
  (hostnameRegex.match? URL).bind fun groups => groups.find? (·.index = 2)

/-! ## What it matches -/

abbrev accept : Continuation UInt8 := fun _ groups => some groups

theorem run_literal_cons {next : Continuation UInt8} {groups : List (SubMatch UInt8)} (c : Char) (d : UInt8)
    (rest : Bytes) :
    (literal c).run next (d :: rest) groups = if d = character c then next rest groups else none := by
  rw [literal, run]
  simp

/-- The last group always succeeds, and leaves the second one. -/
theorem run_portGroup (rest : Bytes) (groups : List (SubMatch UInt8)) :
    ∃ result, (Regex.optional (.group 3 (.alt (literal ':') (literal '/')))).run accept rest groups = some result ∧
      result.find? (·.index = 2) = groups.find? (·.index = 2) := by
  rw [run]
  cases hgroup : (Regex.group 3 (.alt (literal ':') (literal '/'))).run accept rest groups with
  | none => exact ⟨groups, rfl, rfl⟩
  | some result =>
    refine ⟨result, rfl, ?_⟩
    cases rest with
    | nil => simp [run, literal] at hgroup
    | cons d rest =>
      obtain rfl : ⟨3, d :: rest, rest⟩ :: groups = result := by
        simp only [run, run_literal_cons] at hgroup
        split_ifs at hgroup <;> simp at hgroup <;> exact hgroup
      simp

/-- The groups of the host at a hostname character. -/
theorem run_hostGroups_of_pos {c : UInt8} (rest : Bytes) (h : isHostname c = true)
    (groups : List (SubMatch UInt8)) :
    ∃ result, hostGroups.run accept (c :: rest) groups = some result ∧
      result.find? (·.index = 2) = some ⟨2, c :: rest, rest.dropWhile isHostname⟩ := by
  obtain ⟨result, hrun, hfind⟩ := run_portGroup (rest.dropWhile isHostname)
    (⟨2, c :: rest, rest.dropWhile isHostname⟩ :: groups)
  refine ⟨result, ?_, ?_⟩
  · rw [hostGroups, run, run]
    exact run_plus_of_success h hrun
  · rw [hfind]
    rfl

theorem run_hostGroups_of_absent {w : Bytes} (h : Absent isHostname w) (groups : List (SubMatch UInt8)) :
    hostGroups.run accept w groups = none := by
  rw [hostGroups, run, run, run_plus_of_absent h]

/-- The separator behind the scheme. -/
theorem run_separator (next : Continuation UInt8) (v : Bytes) (groups : List (SubMatch UInt8)) :
    separator.run next v groups = (behindSeparator v).bind fun w => next w groups := by
  rw [separator]
  rcases v with _ | ⟨first, _ | ⟨second, _ | ⟨third, rest⟩⟩⟩
  · rfl
  · simp [run, literal, behindSeparator]
  · simp [run, literal, behindSeparator]
  · simp only [run, run_literal_cons, behindSeparator]
    split_ifs <;> simp_all

/-- The group of the scheme: only the longest run of scheme characters can go on with a colon. -/
theorem run_schemeGroup_of_pos {c : UInt8} {rest : Bytes} (h : isProtocol c = true) (next : Continuation UInt8)
    (groups : List (SubMatch UInt8)) :
    schemeGroup.run next (c :: rest) groups =
      (behindScheme (c :: rest)).bind fun w => next w (⟨1, c :: rest, w⟩ :: groups) := by
  rw [schemeGroup, run, run, run_plus_of_longest h, run_separator, behindScheme_cons_of_pos h, behindScheme]
  intro d v hd
  rw [run_separator]
  cases hv : behindSeparator (d :: v) with
  | none => rfl
  | some w =>
    obtain ⟨v', hv'⟩ := eq_colon_of_behindSeparator hv
    obtain ⟨rfl, -⟩ := List.cons.inj hv'
    exact absurd hd (by decide)

theorem run_schemeGroup_of_absent {u : Bytes} (h : Absent isProtocol u) (next : Continuation UInt8)
    (groups : List (SubMatch UInt8)) : schemeGroup.run next u groups = none := by
  rw [schemeGroup, run, run, run_plus_of_absent h]

theorem absent_or_cons (p : UInt8 → Bool) (w : Bytes) : Absent p w ∨ ∃ c rest, w = c :: rest ∧ p c = true := by
  cases w with
  | nil => exact Or.inl absent_nil
  | cons c rest =>
    by_cases hc : p c
    · exact Or.inr ⟨c, rest, rfl, hc⟩
    · exact Or.inl (absent_cons hc)

theorem absent_isProtocol {URL : Bytes} (h : Absent isHostname URL) : Absent isProtocol URL :=
  fun c hc hprotocol => h c hc (isHostname_of_isProtocol hprotocol)

/-- The expression fails exactly at a start without a hostname character. -/
theorem match?_eq_none_iff {URL : Bytes} : hostnameRegex.match? URL = none ↔ Absent isHostname URL := by
  rw [match?, hostnameRegex, run, run]
  constructor
  · intro h
    apply (absent_or_cons isHostname URL).resolve_right
    rintro ⟨c, rest, rfl, hc⟩
    obtain ⟨result, hrun, -⟩ := run_hostGroups_of_pos rest hc []
    rw [hrun] at h
    simp at h
  · intro h
    rw [run_schemeGroup_of_absent (absent_isProtocol h), run_hostGroups_of_absent h]
    rfl

/-- With a scheme in front of a host, the second group is the host. -/
theorem hostnameMatch_of_scheme {URL rest : Bytes} {c : UInt8} (hfirst : ¬ Absent isProtocol URL)
    (hscheme : behindScheme URL = some (c :: rest)) (hc : isHostname c = true) :
    hostnameMatch URL = some ⟨2, c :: rest, rest.dropWhile isHostname⟩ := by
  obtain ⟨d, tail, rfl, hd⟩ := (absent_or_cons isProtocol URL).resolve_left hfirst
  obtain ⟨result, hrun, hfind⟩ := run_hostGroups_of_pos rest hc [⟨1, d :: tail, c :: rest⟩]
  rw [hostnameMatch, match?, hostnameRegex, run, run, run_schemeGroup_of_pos hd, hscheme, Option.bind_some, hrun]
  exact hfind

/-- Without a scheme, or with no host behind it, it is what the URL starts with. -/
theorem hostnameMatch_of_no_host {rest : Bytes} {c : UInt8}
    (hscheme : ∀ w, behindScheme (c :: rest) = some w → Absent isHostname w) (hc : isHostname c = true) :
    hostnameMatch (c :: rest) = some ⟨2, c :: rest, rest.dropWhile isHostname⟩ := by
  obtain ⟨result, hrun, hfind⟩ := run_hostGroups_of_pos rest hc []
  have hnone : schemeGroup.run (hostGroups.run accept) (c :: rest) [] = none := by
    by_cases hd : isProtocol c
    · rw [run_schemeGroup_of_pos hd]
      cases hbehind : behindScheme (c :: rest) with
      | none => rfl
      | some w => exact run_hostGroups_of_absent (hscheme w hbehind) _
    · exact run_schemeGroup_of_absent (absent_cons hd) _ _
  rw [hostnameMatch, match?, hostnameRegex, run, run, hnone, Option.none_or, hrun]
  exact hfind

/-! ## The parser against the expression -/

/-- A scheme and its `://` are followed by a hostname character. -/
def HostBehindScheme (URL : Bytes) : Prop :=
  ∀ w, behindScheme URL = some w → ∃ c rest, w = c :: rest ∧ isHostname c = true

/-- Without a match, the parser throws, unless it finds an empty hostname. -/
theorem hostnameFromURL_of_no_match {URL : Bytes} {c : UInt8} {rest : Bytes} (hURL : URL = c :: rest)
    (hcolon : c ≠ character ':') (hslash : c ≠ character '/') (h : hostnameRegex.match? URL = none) :
    hostnameFromURL URL = .error invalidCharacters := by
  have habsent : ¬ isHostname c = true := match?_eq_none_iff.mp h c (by rw [hURL]; rfl)
  have hprotocol : ¬ isProtocol c = true := fun hc => habsent (isHostname_of_isProtocol hc)
  rw [hURL, hostnameFromURL_eq, behindScheme_cons_of_ne hprotocol hcolon]
  show finish ((c :: rest).takeWhile isHostname) ((c :: rest).dropWhile isHostname) = _
  rw [List.dropWhile_cons_of_neg habsent, finish, if_neg (by tauto)]

theorem str_hostname {c : UInt8} {rest : Bytes} (hc : isHostname c = true) :
    SubMatch.str ⟨2, c :: rest, rest.dropWhile isHostname⟩ = (c :: rest).takeWhile isHostname := by
  have hsplit : c :: rest = (c :: rest).takeWhile isHostname ++ rest.dropWhile isHostname := by
    rw [← List.dropWhile_cons_of_pos hc, List.takeWhile_append_dropWhile]
  conv_lhs => rw [hsplit]
  exact SubMatch.str_append 2 _ _

/-- With a match, the parser returns the second group if the string ends behind it or goes on with a port
or a path. -/
theorem hostnameFromURL_of_match {URL : Bytes} {groups : List (SubMatch UInt8)} (hhost : HostBehindScheme URL)
    (h : hostnameRegex.match? URL = some groups) :
    ∃ m, hostnameMatch URL = some m ∧ hostnameFromURL URL = finish m.str m.second := by
  have hfirst : ¬ Absent isHostname URL := by
    intro habsent
    rw [match?_eq_none_iff.mpr habsent] at h
    exact absurd h (by simp)
  obtain ⟨d, tail, rfl, hd⟩ := (absent_or_cons isHostname URL).resolve_left hfirst
  rw [hostnameFromURL_eq]
  cases hscheme : behindScheme (d :: tail) with
  | none =>
    have hnone : ∀ w, behindScheme (d :: tail) = some w → Absent isHostname w := by simp [hscheme]
    refine ⟨_, hostnameMatch_of_no_host hnone hd, ?_⟩
    rw [str_hostname hd, ← List.dropWhile_cons_of_pos hd]
    rfl
  | some w =>
    obtain ⟨c, rest, rfl, hc⟩ := hhost w hscheme
    have hprotocol : ¬ Absent isProtocol (d :: tail) := by
      intro habsent
      have hcolon : d ≠ character ':' := by
        rintro rfl
        exact absurd hd (by decide)
      rw [behindScheme_cons_of_ne (habsent d rfl) hcolon] at hscheme
      exact absurd hscheme (by simp)
    refine ⟨_, hostnameMatch_of_scheme hprotocol hscheme hc, ?_⟩
    rw [str_hostname hc, ← List.dropWhile_cons_of_pos hc]
    rfl

/-- A scheme that no hostname, port or path follows. -/
theorem hostnameFromURL_of_scheme {URL rest : Bytes} {c : UInt8} (hscheme : behindScheme URL = some (c :: rest))
    (hc : ¬ isHostname c = true) (hcolon : c ≠ character ':') (hslash : c ≠ character '/') :
    hostnameFromURL URL = .error invalidCharacters := by
  rw [hostnameFromURL_eq, hscheme]
  show finish ((c :: rest).takeWhile isHostname) ((c :: rest).dropWhile isHostname) = _
  rw [List.dropWhile_cons_of_neg hc, finish, if_neg (by tauto)]

/-- Where only a port, a path or nothing follows a scheme, the parser returns the empty hostname, and the
expression goes back and takes the scheme for the host. -/
theorem hostname_without_host {scheme w : Bytes} (hscheme : ∀ c ∈ scheme, isProtocol c = true) (hne : scheme ≠ [])
    (hw : w = [] ∨ w.head? = some (character ':') ∨ w.head? = some (character '/')) :
    (hostnameMatch (scheme ++ (ascii "://" ++ w))).map SubMatch.str = some scheme ∧
      hostnameFromURL (scheme ++ (ascii "://" ++ w)) = .ok [] := by
  have habsent : Absent isHostname w := by
    intro c hc
    rcases hw with rfl | hw | hw
    · cases hc
    · obtain rfl := Option.some.inj (hw.symm.trans hc)
      simp [isHostname_colon]
    · obtain rfl := Option.some.inj (hw.symm.trans hc)
      simp [isHostname_slash]
  have hbehind := behindScheme_append hscheme w
  obtain ⟨d, tail, rfl⟩ := List.exists_cons_of_ne_nil hne
  have hd : isHostname d = true := isHostname_of_isProtocol (hscheme d List.mem_cons_self)
  have hhost : ∀ c ∈ d :: tail, isHostname c = true := fun c hc => isHostname_of_isProtocol (hscheme c hc)
  constructor
  · have hmatch : hostnameMatch (d :: (tail ++ (ascii "://" ++ w))) = _ :=
      hostnameMatch_of_no_host (fun v hv => by rwa [← Option.some.inj (hbehind.symm.trans hv)]) hd
    rw [List.cons_append, hmatch, Option.map_some, str_hostname hd, ← List.cons_append,
      List.takeWhile_append_of_pos hhost]
    exact congrArg some (List.append_nil _)
  · rw [hostnameFromURL_eq, hbehind, Option.getD_some]
    have htake : w.takeWhile isHostname = [] := by
      cases w with
      | nil => rfl
      | cons c rest => exact List.takeWhile_cons_of_neg (habsent c rfl)
    have hdrop : w.dropWhile isHostname = w := by
      have := List.takeWhile_append_dropWhile (p := isHostname) (l := w)
      rwa [htake, List.nil_append] at this
    show finish (w.takeWhile isHostname) (w.dropWhile isHostname) = _
    rw [htake, hdrop, finish_eq, if_pos hw]

/-- A string that starts with `://` is no match, and the parser throws at a character behind it that is none of a
hostname, nor the start of a port or a path. -/
theorem hostnameFromURL_of_separator {w rest : Bytes} {c : UInt8} (hw : w.dropWhile isHostname = c :: rest)
    (hcolon : c ≠ character ':') (hslash : c ≠ character '/') :
    hostnameFromURL (ascii "://" ++ w) = .error invalidCharacters := by
  have hbehind : behindScheme ([] ++ (ascii "://" ++ w)) = some w := behindScheme_append (by simp) w
  rw [List.nil_append] at hbehind
  rw [hostnameFromURL_eq, hbehind]
  show finish (w.takeWhile isHostname) (w.dropWhile isHostname) = _
  rw [hw, finish, if_neg (by tauto)]

/-- **The parser against the expression.** Where the expression matches and a scheme, if there is one, is followed
by a host, the parser returns the second group if the string ends behind it or goes on with `:` or `/`, and throws
if another character follows. Behind a scheme without a host it throws at such a character as well
(`hostname_without_host` is about the rest of these strings, where it does not throw). Where the expression does
not match, the parser throws on every string that does not start with `:` or `/` and is not empty, and on one that
starts with `://` at such a character behind it. -/
theorem hostnameRegex_agrees :
    (∀ URL groups, HostBehindScheme URL → hostnameRegex.match? URL = some groups →
      ∃ m, groups.find? (·.index = 2) = some m ∧ hostnameFromURL URL =
        if m.second = [] ∨ m.second.head? = some (character ':') ∨ m.second.head? = some (character '/')
        then .ok m.str else .error invalidCharacters) ∧
    (∀ URL c rest, behindScheme URL = some (c :: rest) → ¬ isHostname c = true → c ≠ character ':' →
      c ≠ character '/' → hostnameFromURL URL = .error invalidCharacters) ∧
    (∀ URL c rest, URL = c :: rest → c ≠ character ':' → c ≠ character '/' →
      hostnameRegex.match? URL = none → hostnameFromURL URL = .error invalidCharacters) ∧
    ∀ w, hostnameRegex.match? (ascii "://" ++ w) = none ∧
      ∀ c rest, w.dropWhile isHostname = c :: rest → c ≠ character ':' → c ≠ character '/' →
        hostnameFromURL (ascii "://" ++ w) = .error invalidCharacters := by
  refine ⟨?_, ?_, ?_, ?_⟩
  · intro URL groups hhost h
    obtain ⟨m, hm, hparse⟩ := hostnameFromURL_of_match hhost h
    rw [hostnameMatch, h, Option.bind_some] at hm
    exact ⟨m, hm, by rw [hparse, finish_eq]⟩
  · intro URL c rest hscheme hc hcolon hslash
    exact hostnameFromURL_of_scheme hscheme hc hcolon hslash
  · intro URL c rest hURL hcolon hslash h
    exact hostnameFromURL_of_no_match hURL hcolon hslash h
  · intro w
    have hcolon : ¬ isHostname (character ':') = true := by simp [isHostname_colon]
    refine ⟨match?_eq_none_iff.mpr (absent_cons hcolon), fun c rest hw hcolon hslash => ?_⟩
    exact hostnameFromURL_of_separator hw hcolon hslash

/-- The expression leaves open what follows the match, and finds no hostname in the empty string. -/
theorem hostnameRegex_differs :
    (hostnameMatch (ascii "a b")).map SubMatch.str = some (ascii "a") ∧
      hostnameFromURL (ascii "a b") = .error invalidCharacters ∧
      hostnameRegex.match? [] = none ∧ hostnameFromURL [] = .ok [] := by
  refine ⟨by decide, rfl, rfl, rfl⟩

/-- Both find the host of a URL with a scheme, a port and a path. -/
theorem hostnameRegex_agrees_example :
    let URL := ascii "wss://www.example.com:443/foo/bar"
    (hostnameRegex.match? URL).isSome ∧
      (hostnameMatch URL).map SubMatch.str = some (ascii "www.example.com") ∧
      hostnameFromURL URL = .ok (ascii "www.example.com") := by
  intro URL
  have hhost : HostBehindScheme URL := by
    rintro w hw
    obtain rfl := Option.some.inj hw
    exact ⟨_, _, rfl, rfl⟩
  obtain ⟨m, hm, hparse⟩ := hostnameRegex_agrees.1 URL _ hhost rfl
  obtain rfl := Option.some.inj hm
  exact ⟨rfl, rfl, hparse⟩

end Communique
