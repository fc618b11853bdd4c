import FlagPoll.Proofs.Text.Lowercase
import FlagPoll.Proofs.Text.Split
import FlagPoll.Url.Target

/-!
# FlagPoll.Proofs.Url.Target

What a target address names.

* `ofText_of_scheme`       — behind its scheme, an address is read as far as its authority goes.
* `Written`                — how an authority names a host and a port.
* `ofAuthority_eq_ok`      — the target has the host and the port that its authority names.
* `lowercase_lowerHost`    — in lower case, the host of a target is the one that is written.
-/

namespace FlagPoll.Url.Target

open Text (before after? afterLast lowerAscii lowercase)
open Decimal (isDigit natOfDigits)

/-! ## Schemes -/

/-- The name of a scheme in small letters. -/
def schemeName (secure : Bool) : List Char := if secure then "https".toList else "http".toList

/-- What `clean` keeps wherever it stands. -/
def isKept (c : Char) : Bool := c ≠ '\t' && c ≠ '\r' && c ≠ '\n'

/-- The authority at the front of what stands behind `://`. -/
def authorityOf (rest : List Char) : List Char :=
  (rest.filter isKept).takeWhile fun c => !isAuthorityEnd c

theorem isAlpha_iff {c : Char} :
    c.isAlpha = true ↔ 'A' ≤ c ∧ c ≤ 'Z' ∨ 'a' ≤ c ∧ c ≤ 'z' := by
  have hclasses : c.isAlpha =
      (decide ('A' ≤ c ∧ c ≤ 'Z') || decide ('a' ≤ c) && decide (c ≤ 'z')) := rfl
  simp only [hclasses, Bool.or_eq_true, Bool.and_eq_true, decide_eq_true_eq]

theorem isAlpha_of_toLower {c : Char} (h : c.toLower.isAlpha = true) : c.isAlpha = true := by
  by_cases hc : 'A' ≤ c ∧ c ≤ 'Z'
  · exact isAlpha_iff.mpr (.inl hc)
  · have hlower : c.toLower = c := dif_neg hc
    rwa [hlower] at h

theorem isAlpha_of_lowerAscii {scheme : List Char} {secure : Bool}
    (h : lowerAscii scheme = schemeName secure) : ∀ c ∈ scheme, c.isAlpha = true := by
  have hname : (schemeName secure).all (·.isAlpha) = true := by
    cases secure <;> decide
  intro c hc
  exact isAlpha_of_toLower (List.all_eq_true.mp hname _ (h ▸ List.mem_map_of_mem hc))

theorem lt_toNat_of_isAlpha {c : Char} (h : c.isAlpha = true) : 0x40 < c.toNat := by
  rcases isAlpha_iff.mp h with hc | hc
  · exact hc.1
  · have hle : 'a'.toNat ≤ c.toNat := hc.1
    have ha : 'a'.toNat = 97 := rfl
    omega

theorem isKept_of_visible {c : Char} (h : 0x20 < c.toNat) : isKept c = true := by
  simp only [isKept, Bool.and_eq_true, decide_eq_true_eq]
  refine ⟨⟨?_, ?_⟩, ?_⟩
  all_goals
    rintro rfl
    exact absurd h (by decide)

theorem hasSlashes_append (front rest : List Char) :
    hasSlashes (front ++ '/' :: '/' :: rest) = true := by
  induction front with
  | nil => rfl
  | cons c front ih =>
    rw [List.cons_append]
    unfold hasSlashes
    split
    · rfl
    · simp_all
    · simp_all

/-- Any two slashes count, wherever they stand. -/
theorem hasSlashes_iff {cs : List Char} : hasSlashes cs = true ↔ "//".toList <:+: cs := by
  constructor
  · intro h
    induction cs using hasSlashes.induct with
    | case1 rest => exact ⟨[], rest, rfl⟩
    | case2 c rest hno ih =>
      rw [hasSlashes.eq_2 _ _ hno] at h
      exact (ih h).trans (List.suffix_cons c rest).isInfix
    | case3 => cases h
  · rintro ⟨front, rest, rfl⟩
    rw [List.append_assoc]
    exact hasSlashes_append front rest

theorem filter_isKept_of_visible {front : List Char} (h : ∀ c ∈ front, 0x20 < c.toNat) :
    front.filter isKept = front :=
  List.filter_eq_self.mpr fun c hc => isKept_of_visible (h c hc)

theorem clean_append {front : List Char} (hne : front ≠ []) (h : ∀ c ∈ front, 0x20 < c.toNat)
    (rest : List Char) : clean (front ++ rest) = front ++ rest.filter isKept := by
  obtain ⟨c, cs, rfl⟩ := List.exists_cons_of_ne_nil hne
  have hc : ¬ c.toNat ≤ 0x20 := Nat.not_le.mpr (h c List.mem_cons_self)
  have hfront : Text.dropFront (fun c => c.toNat ≤ 0x20) (c :: (cs ++ rest)) =
      c :: (cs ++ rest) := by
    rw [Text.dropFront, List.dropWhile_cons_of_neg (by simpa using hc)]
  rw [clean, List.cons_append, hfront, ← List.cons_append]
  exact (List.filter_append ..).trans (congrArg (· ++ _) (filter_isKept_of_visible h))

theorem splitScheme_of_not_mem {cs : List Char} (h : ':' ∉ cs) : splitScheme cs = ([], cs) := by
  rw [splitScheme, Text.after?_of_not_mem h]
  cases cs.head? <;> rfl

/-- What stands before the first colon is a scheme if its characters are those of schemes. -/
theorem splitScheme_cons {scheme : List Char} (h : ':' ∉ scheme) (rest : List Char) :
    splitScheme (scheme ++ ':' :: rest) =
      if scheme.head?.any Char.isAlpha && scheme.all isSchemeChar then (lowerAscii scheme, rest)
      else ([], scheme ++ ':' :: rest) := by
  have hafter := Text.after?_append_cons h rest
  have hbefore := Text.before_append_cons h rest
  cases scheme with
  | nil => rfl
  | cons c cs =>
    rw [List.cons_append] at hafter hbefore ⊢
    simp only [splitScheme, List.head?_cons, hafter, hbefore, Option.any_some]
    rfl

theorem splitScheme_append {scheme : List Char} (hne : scheme ≠ [])
    (h : ∀ c ∈ scheme, c.isAlpha = true) (rest : List Char) :
    splitScheme (scheme ++ ':' :: rest) = (lowerAscii scheme, rest) := by
  obtain ⟨c, cs, rfl⟩ := List.exists_cons_of_ne_nil hne
  have hcolon : ':' ∉ c :: cs := fun hmem => absurd (h ':' hmem) (by decide)
  have hall : (c :: cs).all isSchemeChar = true := by
    refine List.all_eq_true.mpr fun d hd => ?_
    have halphanum : d.isAlphanum = (d.isAlpha || d.isDigit) := rfl
    simp [isSchemeChar, halphanum, h d hd]
  have hc := h c List.mem_cons_self
  rw [splitScheme_cons hcolon, hall, List.head?_cons, Option.any_some, hc]
  rfl

/-- Behind the scheme, in letters of either size, an address is read as far as its authority
goes. -/
theorem ofText_of_scheme {scheme : List Char} {secure : Bool}
    (h : lowerAscii scheme = schemeName secure) (rest : List Char) :
    ofText (scheme ++ "://".toList ++ rest) = ofAuthority secure (authorityOf rest) := by
  have halpha := isAlpha_of_lowerAscii h
  have hvisible (c : Char) (hc : c ∈ scheme) : 0x20 < c.toNat :=
    Nat.lt_trans (by decide) (lt_toNat_of_isAlpha (halpha c hc))
  have hne : scheme ≠ [] := by
    rintro rfl
    cases secure <;> exact absurd h (by decide)
  have htext : scheme ++ "://".toList ++ rest = (scheme ++ [':']) ++ '/' :: '/' :: rest := by simp
  have hwith : withScheme (scheme ++ "://".toList ++ rest) = scheme ++ ("://".toList ++ rest) := by
    rw [withScheme, if_pos (by rw [htext]; exact hasSlashes_append _ _), List.append_assoc]
  have hrest : ("://".toList ++ rest).filter isKept = ':' :: '/' :: '/' :: rest.filter isKept := by
    rw [List.filter_append]
    rfl
  have hsecure : decide (schemeName secure = "https".toList) = secure := by
    cases secure <;> decide
  rw [ofText, hwith, clean_append hne hvisible, hrest, splitScheme_append hne halpha]
  simp only [h, hsecure, authority, authorityOf]

/-! ## Hosts and ports -/

/-- User information, if there is any, ends with its sign. -/
def IsUser (user : List Char) : Prop := user = [] ∨ user.getLast? = some '@'

/-- What may follow a host: nothing, or a colon and the text of a port. -/
inductive Follows : (more port : List Char) → Prop where
  | nothing : Follows [] []
  | colon (port : List Char) : Follows (':' :: port) port

/-- How an authority names a host and a port. User information goes up to the last `@`, and a host
with colons stands in brackets; if only the user information closes a bracket, the host goes on to
the end. -/
inductive Written : (authority host port : List Char) → Prop where
  | name {user host more port : List Char} (huser : IsUser user) (hat : '@' ∉ host ++ more)
      (hbracket : '[' ∉ host ++ more) (hcolon : ':' ∉ host) (hmore : Follows more port) :
      Written (user ++ (host ++ more)) host port
  | bracketed {user host more port : List Char} (huser : IsUser user) (hat : '@' ∉ host ++ more)
      (hclose : ']' ∉ host) (hmore : Follows more port) :
      Written (user ++ '[' :: (host ++ ']' :: more)) host port
  | unclosed {user host : List Char} (huser : IsUser user) (hat : '@' ∉ host)
      (hclose : ']' ∉ host) : Written (user ++ '[' :: host) host []

theorem Follows.after?_getD {more port : List Char} (h : Follows more port) :
    (after? ':' more).getD [] = port := by
  cases h <;> rfl

theorem afterLast_append {user place : List Char} (huser : IsUser user) (h : '@' ∉ place) :
    afterLast '@' (user ++ place) = place := by
  rcases huser with rfl | huser
  · exact Text.afterLast_of_not_mem h
  · obtain ⟨front, rfl⟩ := List.getLast?_eq_some_iff.mp huser
    rw [List.append_assoc]
    exact Text.afterLast_append_cons front h

theorem Written.hostAndPort_eq {a host port : List Char} (h : Written a host port) :
    hostAndPort a = (host, port) := by
  cases h with
  | @name user _ more _ huser hat hbracket hcolon hmore =>
    rw [hostAndPort, afterLast_append huser hat, Text.after?_of_not_mem hbracket]
    cases hmore with
    | nothing => simp [Text.before_of_not_mem hcolon, Text.after?_of_not_mem hcolon]
    | colon => simp [Text.before_append_cons hcolon, Text.after?_append_cons hcolon]
  | @bracketed user _ more _ huser hat hclose hmore =>
    have hat' : '@' ∉ '[' :: (host ++ ']' :: more) := by simpa using hat
    simp only [hostAndPort, afterLast_append huser hat', Text.after?_cons_self]
    rw [Text.before_append_cons hclose, Text.after?_append_cons hclose, Option.getD_some,
      hmore.after?_getD]
  | @unclosed user _ huser hat hclose =>
    have hat' : '@' ∉ '[' :: host := by simpa using hat
    simp only [hostAndPort, afterLast_append huser hat', Text.after?_cons_self]
    rw [Text.before_of_not_mem hclose, Text.after?_of_not_mem hclose]
    rfl

/-- Without brackets, a place is a host up to the first colon, and what follows it. -/
theorem exists_follows (place : List Char) : ∃ more, place = before ':' place ++ more ∧
    ':' ∉ before ':' place ∧ Follows more ((after? ':' place).getD []) := by
  rcases Text.split_cases ':' place with h | ⟨host, port, hhost, rfl⟩
  · rw [Text.before_of_not_mem h, Text.after?_of_not_mem h]
    exact ⟨[], by simp, h, .nothing⟩
  · rw [Text.before_append_cons hhost, Text.after?_append_cons hhost]
    exact ⟨':' :: port, rfl, hhost, .colon port⟩

/-- Nothing stands before the brackets of an authority without fault, and only a port behind. -/
theorem place_of_bracketFault? {a rest : List Char} (h : bracketFault? a = none)
    (hrest : after? '[' (afterLast '@' a) = some rest) :
    afterLast '@' a = '[' :: rest ∧ ∃ port, Follows ((after? ']' rest).getD []) port := by
  have hplace := Text.before_append_after hrest
  have hopen : '[' ∈ a := by
    obtain ⟨front, ha, -⟩ := Text.exists_afterLast '@' a
    rw [ha, ← hplace]
    simp
  rw [bracketFault?, if_neg (fun hno => hno.1 hopen)] at h
  split_ifs at h with hboth
  simp only [hrest] at h
  split_ifs at h with hends
  rw [not_or, not_ne_iff] at hends
  refine ⟨by rw [← hplace, hends.1]; rfl, ?_⟩
  cases hmore : (after? ']' rest).getD [] with
  | nil => exact ⟨_, .nothing⟩
  | cons c port =>
    have hc : c = ':' := by simpa [hmore] using hends.2
    exact ⟨port, hc ▸ .colon port⟩

/-- Where the brackets of an authority have no fault, it names one host and one port, and these are
the ones that are taken from it. -/
theorem written_iff {a : List Char} (h : bracketFault? a = none) {host port : List Char} :
    Written a host port ↔ hostAndPort a = (host, port) := by
  refine ⟨Written.hostAndPort_eq, fun heq => ?_⟩
  obtain ⟨user, ha, huser, hat⟩ := Text.exists_afterLast '@' a
  cases hrest : after? '[' (afterLast '@' a) with
  | none =>
    have hbracket : '[' ∉ afterLast '@' a := Text.after?_eq_none_iff.mp hrest
    obtain ⟨more, hplace, hcolon, hmore⟩ := exists_follows (afterLast '@' a)
    simp only [hostAndPort, hrest, Prod.mk.injEq] at heq
    obtain ⟨rfl, rfl⟩ := heq
    rw [hplace] at hat hbracket
    have hwritten := Written.name huser hat hbracket hcolon hmore
    rwa [← hplace, ← ha] at hwritten
  | some rest =>
    obtain ⟨hplace, port', hmore⟩ := place_of_bracketFault? h hrest
    simp only [hostAndPort, hrest, hmore.after?_getD, Prod.mk.injEq] at heq
    obtain ⟨rfl, rfl⟩ := heq
    rw [hplace] at ha hat
    rw [List.mem_cons, not_or] at hat
    rcases Text.split_cases ']' rest with hclose | ⟨host, more, hclose, rfl⟩
    · rw [Text.after?_of_not_mem hclose] at hmore
      cases hmore
      rw [Text.before_of_not_mem hclose, ha]
      exact .unclosed huser hat.2 hclose
    · rw [Text.after?_append_cons hclose] at hmore
      rw [Text.before_append_cons hclose, ha]
      exact .bracketed huser (by simpa using hat.2) hclose hmore

theorem portOf_eq_ok {port : List Char} {p : Option Nat} (h : portOf port = .ok p) :
    (∀ d ∈ port, isDigit d = true) ∧ natOfDigits port ≤ 65535 ∧ p.getD 0 = natOfDigits port := by
  unfold portOf at h
  split_ifs at h with hnil hdigits hcount hrange
  · cases h
    subst hnil
    exact ⟨by simp, by decide, rfl⟩
  · cases h
    exact ⟨by simpa using hdigits, Nat.le_of_not_lt hrange, rfl⟩

/-- The port of a target: the one that is written, or that of the scheme if there is none or it is
zero. -/
def portFor (secure : Bool) (port : List Char) : Nat :=
  if natOfDigits port = 0 then defaultPort secure else natOfDigits port

theorem ofAuthority_eq_ok {secure : Bool} {a : List Char} {t : Target}
    (h : ofAuthority secure a = .ok t) : ∃ host port, Written a host port ∧
      (∀ d ∈ port, isDigit d = true) ∧ natOfDigits port ≤ 65535 ∧
      t = ⟨secure, lowerHost host, portFor secure port⟩ := by
  unfold ofAuthority at h
  cases hfault : bracketFault? a <|> compatibilityFault? a with
  | some f =>
    rw [hfault] at h
    contradiction
  | none =>
    have hbrackets : bracketFault? a = none := by
      cases hb : bracketFault? a with
      | none => rfl
      | some f => simp [hb] at hfault
    rcases hplace : hostAndPort a with ⟨host, port⟩
    refine ⟨host, port, (written_iff hbrackets).mpr hplace, ?_⟩
    simp only [hfault, hplace] at h
    cases hport : portOf port with
    | error f =>
      rw [hport] at h
      contradiction
    | ok p =>
      obtain ⟨hdigits, hrange, hp⟩ := portOf_eq_ok hport
      refine ⟨hdigits, hrange, ?_⟩
      rw [portFor, ← hp]
      rw [hport] at h
      -- a port of zero is read like none
      rcases p with _ | _ | p
      all_goals exact (Except.ok.inj h).symm

/-- The zone of a host keeps its letters in a target; in lower case that makes no difference. -/
theorem lowercase_lowerHost (host : List Char) : lowercase (lowerHost host) = lowercase host := by
  rcases Text.split_cases '%' host with h | ⟨address, zone, haddress, rfl⟩
  · simp [lowerHost, Text.before_of_not_mem h, Text.after?_of_not_mem h, Text.lowercase_lowercase]
  · have hpercent : Text.isInsideWord '%' = false ∧ Text.isCased '%' = false ∧
        Text.IsPlain '%' := by
      decide +kernel
    obtain ⟨hinside, hcased, hplain⟩ := hpercent
    simp only [lowerHost, Text.before_append_cons haddress, Text.after?_append_cons haddress]
    rw [Text.lowercase_append_cons hinside hcased hplain,
      Text.lowercase_append_cons hinside hcased hplain, Text.lowercase_lowercase]

end FlagPoll.Url.Target
