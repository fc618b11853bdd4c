import FlagPoll.Proofs.Proxy

/-!
# FlagPoll.Proofs.BareTarget

Target addresses without a scheme, and what two slashes behind the host make of them.

* `Bare`              — how a host, with its port, and what follows it are written without a scheme.
* `ofText_of_slashes` — such an address loses its host where two slashes come in it.
* `proxyFor_bare`     — it has the proxy of the same address behind `http://` exactly where none do.
-/

namespace FlagPoll

namespace Url.Target

/-- An address without a scheme: an authority that names a host, and a path, a query or a
fragment if there is more. Two slashes right behind a colon would be those of a scheme. -/
structure Bare (authority rest host port : List Char) : Prop where
  written : Written authority host port
  host_ne : host ≠ []
  visible : ∀ c ∈ authority, 0x20 < c.toNat
  inside : ∀ c ∈ authority, isAuthorityEnd c = false
  behind : ∀ c ∈ rest.head?, isAuthorityEnd c = true
  apart : authority.getLast? = some ':' → ¬ "//".toList <+: rest.filter isKept

variable {a rest host port : List Char}

theorem ofText_of_hasSlashes_eq_false {cs : List Char} (h : hasSlashes cs = false) :
    ofText ("http://".toList ++ cs) = ofText cs := by
  have hfront : hasSlashes ("http://".toList ++ cs) = true := hasSlashes_append "http:".toList cs
  have hwith : withScheme ("http://".toList ++ cs) = withScheme cs := by
    rw [withScheme, if_pos hfront, withScheme, h]
    rfl
  rw [ofText, hwith, ofText]

/-! ## Two slashes -/

theorem Bare.authority_ne_nil (h : Bare a rest host port) : a ≠ [] := by
  have hhost := h.host_ne
  cases h.written <;> simp [hhost]

theorem isSchemeChar_of_end {c : Char} (h : isAuthorityEnd c = true) : isSchemeChar c = false := by
  simp only [isAuthorityEnd, Bool.or_eq_true, decide_eq_true_eq] at h
  rcases h with (rfl | rfl) | rfl <;> decide

/-- What begins behind an authority begins there still without tabs and line ends. -/
theorem Bare.behind_kept (h : Bare a rest host port) :
    ∀ c ∈ (rest.filter isKept).head?, isAuthorityEnd c = true := by
  have hbehind := h.behind
  cases rest with
  | nil => exact hbehind
  | cons c cs =>
    have hend : isAuthorityEnd c = true := hbehind c rfl
    have hc : isKept c = true := by
      simp only [isAuthorityEnd, Bool.or_eq_true, decide_eq_true_eq] at hend
      rcases hend with (rfl | rfl) | rfl <;> decide
    rw [List.filter_cons_of_pos hc]
    exact hbehind

/-- What stands behind an authority makes no scheme of it. -/
theorem splitScheme_behind (hrest : ∀ c ∈ rest.head?, isAuthorityEnd c = true) :
    splitScheme (a ++ rest) = ((splitScheme a).1, (splitScheme a).2 ++ rest) := by
  rcases Text.split_cases ':' a with ha | ⟨scheme, more, hscheme, rfl⟩
  · rw [splitScheme_of_not_mem ha]
    rcases Text.split_cases ':' rest with hno | ⟨front, more, hfront, rfl⟩
    · exact splitScheme_of_not_mem (by simp [ha, hno])
    · obtain ⟨c, cs, rfl⟩ : ∃ c cs, front = c :: cs := by
        refine List.exists_cons_of_ne_nil ?_
        rintro rfl
        exact absurd (hrest ':' rfl) (by decide)
      have hall : (a ++ c :: cs).all isSchemeChar = false := by
        simp [isSchemeChar_of_end (hrest c rfl)]
      have hcolon : ':' ∉ a ++ c :: cs := by
        rw [List.mem_append, not_or]
        exact ⟨ha, hfront⟩
      rw [← List.append_assoc, splitScheme_cons hcolon, hall, Bool.and_false, if_neg (by decide)]
  · rw [List.append_assoc, List.cons_append, splitScheme_cons hscheme, splitScheme_cons hscheme]
    split <;> simp

theorem authority_eq_nil {cs : List Char} (h : ¬ "//".toList <+: cs) : authority cs = [] := by
  unfold authority
  split
  · rename_i rest
    exact absurd ⟨rest, rfl⟩ h
  · rfl

theorem authority_cons {c : Char} (hc : isAuthorityEnd c = false) (cs : List Char) :
    authority (c :: cs) = [] := by
  refine authority_eq_nil ?_
  rintro ⟨rest, hrest⟩
  obtain ⟨rfl, -⟩ := List.cons.inj hrest
  cases hc

/-- The slashes of such an address stand too far back to begin an authority. -/
theorem Bare.authority_behind (h : Bare a rest host port) :
    authority ((splitScheme a).2 ++ rest.filter isKept) = [] := by
  obtain ⟨c, cs, hcs⟩ := List.exists_cons_of_ne_nil h.authority_ne_nil
  have hself : authority (a ++ rest.filter isKept) = [] := by
    have hc := h.inside c (hcs ▸ List.mem_cons_self)
    rw [hcs]
    exact authority_cons hc _
  rcases Text.split_cases ':' a with ha | ⟨scheme, more, hscheme, rfl⟩
  · rwa [splitScheme_of_not_mem ha]
  · rw [splitScheme_cons hscheme]
    split
    · cases more with
      | nil => exact authority_eq_nil (h.apart (by simp))
      | cons d ds => exact authority_cons (h.inside d (by simp)) _
    · exact hself

/-- Where two slashes come in it, an address without a scheme counts as one with a scheme, and it
names no host. -/
theorem ofText_of_slashes (h : Bare a rest host port) (hs : hasSlashes (a ++ rest) = true) :
    ofText (a ++ rest) = .ok
      ⟨(splitScheme a).1 = "https".toList, [],
        defaultPort ((splitScheme a).1 = "https".toList)⟩ := by
  have hnone (secure : Bool) : ofAuthority secure [] = .ok ⟨secure, [], defaultPort secure⟩ := rfl
  rw [ofText, withScheme, if_pos hs, clean_append h.authority_ne_nil h.visible,
    splitScheme_behind h.behind_kept]
  simp only [h.authority_behind, hnone]

theorem Bare.authorityOf_eq (h : Bare a rest host port) : authorityOf (a ++ rest) = a := by
  have hnone : (rest.filter isKept).takeWhile (fun c => !isAuthorityEnd c) = [] := by
    have hbehind := h.behind_kept
    cases hrest : rest.filter isKept with
    | nil => rfl
    | cons c cs =>
      have hend : isAuthorityEnd c = true := hbehind c (by rw [hrest]; rfl)
      exact List.takeWhile_cons_of_neg (by simp [hend])
  have hall (c : Char) (hc : c ∈ a) : (!isAuthorityEnd c) = true := by simp [h.inside c hc]
  rw [authorityOf, List.filter_append, filter_isKept_of_visible h.visible,
    List.takeWhile_append_of_pos hall, hnone, List.append_nil]

/-- Behind `http://`, the authority is read, and a target has the host that it names. -/
theorem ofText_behind_http (h : Bare a rest host port) {t : Target}
    (ht : ofText ("http://".toList ++ (a ++ rest)) = .ok t) :
    t = ⟨false, lowerHost host, portFor false port⟩ := by
  have hscheme : Text.lowerAscii "http".toList = schemeName false := rfl
  have hread := ofText_of_scheme hscheme (a ++ rest)
  rw [h.authorityOf_eq] at hread
  obtain ⟨host', port', hwritten, -, -, rfl⟩ := ofAuthority_eq_ok (hread.symm.trans ht)
  obtain ⟨rfl, rfl⟩ := Prod.mk.inj (h.written.hostAndPort_eq.symm.trans hwritten.hostAndPort_eq)
  rfl

end Url.Target

namespace Proxy.Environment

open Decimal (isDigit)
open Text (lowercase trim)
open Url (Target)

variable {name host : List Char} {port : Nat}

/-! ## An environment that tells a host apart -/

/-- A host that an entry of a list can name. -/
structure Listable (host : List Char) : Prop where
  ne_nil : host ≠ []
  head : host.head? ≠ some '.'
  comma : ',' ∉ host

/-- An entry for a host with a port, behind a dot so that no blank is at its front. -/
def entryFor (host : List Char) (port : Nat) : List Char :=
  '.' :: host ++ ':' :: Nat.toDigits 10 port

/-- A proxy for all targets but the one in a list. -/
def exempting (list : String) : Environment :=
  [("http_proxy", "p"), ("https_proxy", "p"), ("no_proxy", list)]

theorem inForce_exempting {list : String} (h : list ≠ "") (secure : Bool) :
    (exempting list).inForce (keyFor secure) = some "p" ∧
      (exempting list).inForce "no" = some list := by
  have hsuffix : hasPlainSuffix "http_proxy" = true ∧ hasPlainSuffix "https_proxy" = true ∧
      hasPlainSuffix "no_proxy" = true := by
    decide +kernel
  have hhttp : names "http_proxy" "http" = true ∧ names "https_proxy" "http" = false ∧
      names "no_proxy" "http" = false := by
    decide +kernel
  have hhttps : names "http_proxy" "https" = false ∧ names "https_proxy" "https" = true ∧
      names "no_proxy" "https" = false := by
    decide +kernel
  have hno : names "http_proxy" "no" = false ∧ names "https_proxy" "no" = false ∧
      names "no_proxy" "no" = true := by
    decide +kernel
  constructor
  · cases secure <;> simp [inForce, exempting, lastOf, keyFor, hsuffix, hhttp, hhttps]
  · simp [inForce, exempting, lastOf, hsuffix, hno, h]

theorem not_mem_toDigits {c : Char} (hc : isDigit c = false) (n : Nat) :
    c ∉ Nat.toDigits 10 n := by
  intro hmem
  rw [Decimal.isDigit_of_mem_toDigits hmem] at hc
  cases hc

theorem isBlank_of_isDigit {c : Char} (h : isDigit c = true) : Text.isBlank c = false := by
  simp only [isDigit, Bool.and_eq_true, decide_eq_true_eq] at h
  have hlow : 48 ≤ c.toNat := h.1
  have hhigh : c.toNat ≤ 57 := h.2
  simp only [Text.isBlank, Text.Ranges.contains, Text.blankRanges, List.any_cons, List.any_nil,
    Bool.or_false, Bool.or_eq_false_iff, Bool.and_eq_false_imp, decide_eq_true_eq,
    decide_eq_false_iff_not, not_le]
  omega

theorem trim_ends {c d : Char} (hc : Text.isBlank c = false) (hd : Text.isBlank d = false)
    (cs : List Char) : trim (c :: cs ++ [d]) = c :: cs ++ [d] := by
  have hfront : Text.dropFront Text.isBlank (c :: cs ++ [d]) = c :: cs ++ [d] :=
    List.dropWhile_cons_of_neg (by simp [hc])
  rw [trim, hfront, Text.dropBack, List.reverse_append, List.reverse_singleton,
    List.singleton_append, List.dropWhile_cons_of_neg (by simp [hd]), List.reverse_cons,
    List.reverse_reverse]

theorem trim_entryFor (host : List Char) (port : Nat) :
    trim (entryFor host port) = entryFor host port := by
  obtain ⟨ds, d, hds⟩ := (List.eq_nil_or_concat (Nat.toDigits 10 port)).resolve_left
    Nat.toDigits_ne_nil
  have hd : isDigit d = true := Decimal.isDigit_of_mem_toDigits (n := port) (by simp [hds])
  have hentry : entryFor host port = '.' :: (host ++ ':' :: ds) ++ [d] := by
    simp [entryFor, hds]
  rw [hentry]
  exact trim_ends (by decide) (isBlank_of_isDigit hd) _

theorem entryName_entryFor (h : Listable host) (port : Nat) :
    entryName (entryFor host port) = lowercase host ++ ':' :: Nat.toDigits 10 port := by
  have hname : entryName ('.' :: host) = lowercase host := by
    obtain ⟨c, cs, rfl⟩ := List.exists_cons_of_ne_nil h.ne_nil
    have hc : c ≠ '.' := fun heq => h.head (congrArg some heq)
    rw [entryName, Text.dropFront, List.dropWhile_cons_of_pos (by simp),
      List.dropWhile_cons_of_neg (by simp [hc])]
  have hdigits : ∀ d ∈ Nat.toDigits 10 port, isDigit d = true :=
    fun d hd => Decimal.isDigit_of_mem_toDigits hd
  rw [entryFor, entryName_append_digits _ hdigits, hname]

theorem ofList_entryFor_ne (host : List Char) (port : Nat) {s : String}
    (hs : s.toList.head? ≠ some '.') : String.ofList (entryFor host port) ≠ s := by
  rintro rfl
  rw [String.toList_ofList] at hs
  exact hs rfl

/-- What such a list exempts: the host with this port, and what is in front of it. -/
theorem exempts_exempting (h : Listable host) (port : Nat) {other : List Char} {p : Nat} :
    (exempting (String.ofList (entryFor host port))).Exempts other p ↔
      Covers (lowercase host ++ ':' :: Nat.toDigits 10 port) other ∨
        Covers (lowercase host ++ ':' :: Nat.toDigits 10 port)
          (other ++ ':' :: Nat.toDigits 10 p) := by
  have hcomma : ',' ∉ entryFor host port := by
    have hdigits : ',' ∉ Nat.toDigits 10 port := not_mem_toDigits (by decide) port
    simp [entryFor, h.comma, hdigits]
  have hentry : entryFor host port ≠ [] := List.cons_ne_nil _ _
  have hempty : String.ofList (entryFor host port) ≠ "" := ofList_entryFor_ne host port (by decide)
  have hforce := (inForce_exempting hempty false).2
  have hstar : String.ofList (entryFor host port) ≠ "*" := ofList_entryFor_ne host port (by decide)
  simp only [Exempts, hforce, Option.some.injEq, exists_eq_left', Excludes, hstar, false_or,
    String.toList_ofList, Text.fields_of_not_mem hcomma, List.mem_singleton, exists_eq_left,
    trim_entryFor, ne_eq, hentry, not_false_eq_true, true_and, Matches, entryName_entryFor h]

/-- In some environment, a target without its host has a proxy, and with its host it has none. -/
theorem exists_proxyForTarget (h : Listable host) (port p : Nat) (secure : Bool) :
    ∃ env : Environment, env.proxyForTarget ⟨secure, [], p⟩ = some "p" ∧
      env.proxyForTarget ⟨false, Target.lowerHost host, port⟩ = none := by
  have hne : String.ofList (entryFor host port) ≠ "" := ofList_entryFor_ne host port (by decide)
  refine ⟨exempting (String.ofList (entryFor host port)), ?_, ?_⟩
  · refine (proxyForTarget_eq _ ⟨secure, [], p⟩).2 "p" (inForce_exempting hne secure).1 ?_
    rw [exempts_exempting h]
    have hcolon (n : Nat) : ':' ∉ Nat.toDigits 10 n := not_mem_toDigits (by decide) n
    rintro (hcovers | hcovers)
    · exact absurd (colon_mem_of_covers hcovers) List.not_mem_nil
    · have hcovers : Covers (lowercase host ++ ':' :: Nat.toDigits 10 port)
          ([] ++ ':' :: Nat.toDigits 10 p) := hcovers
      have hport := port_eq_of_covers (hcolon port) (hcolon p) hcovers
      have hlength := length_le_of_covers hcovers
      have hpos := List.length_pos_iff.mpr (Text.lowercase_ne_nil h.ne_nil)
      rw [hport, List.nil_append, List.length_append] at hlength
      omega
  · refine (proxyForTarget_eq _ _).1 (.inr ((exempts_exempting h port).mpr (.inr ?_)))
    rw [Target.lowercase_lowerHost]
    exact .inl rfl

/-! ## The proxy for an address without a scheme -/

/-- Without `//`, an address has the proxy that it has behind `http://`, in every environment. If
it is written without a scheme and two slashes come in it, these are taken for those of a scheme:
the target has no host. So such an address, whose host a list can name, has the proxy that it has
behind `http://` only without them. -/
theorem proxyFor_bare (text : String) :
    (¬ "//".toList <:+: text.toList →
      ∀ env, proxyFor env (some text) = proxyFor env (some ("http://" ++ text))) ∧
    ∀ {authority rest host port : List Char}, text.toList = authority ++ rest →
      Target.Bare authority rest host port →
      ("//".toList <:+: text.toList → ∃ secure : Bool,
        (secure = true ↔ (Target.splitScheme authority).1 = "https".toList) ∧
        ∀ env, proxyFor env (some text) =
          .ok (env.proxyForTarget ⟨secure, [], Target.defaultPort secure⟩)) ∧
      (Listable host →
        ((∀ env, proxyFor env (some text) = proxyFor env (some ("http://" ++ text))) ↔
          ¬ "//".toList <:+: text.toList)) := by
  have hsame (hno : ¬ "//".toList <:+: text.toList) (env : Environment) :
      proxyFor env (some text) = proxyFor env (some ("http://" ++ text)) := by
    have hslashes : Target.hasSlashes text.toList = false := by
      rwa [← Bool.not_eq_true, Target.hasSlashes_iff]
    simp only [proxyFor, String.toList_append, Target.ofText_of_hasSlashes_eq_false hslashes]
  refine ⟨hsame, fun {authority rest host port} htext hbare => ?_⟩
  have hlost (hs : "//".toList <:+: text.toList) : ∃ secure : Bool,
      (secure = true ↔ (Target.splitScheme authority).1 = "https".toList) ∧
      ∀ env, proxyFor env (some text) =
        .ok (env.proxyForTarget ⟨secure, [], Target.defaultPort secure⟩) := by
    rw [htext] at hs
    have hread := Target.ofText_of_slashes hbare (Target.hasSlashes_iff.mpr hs)
    refine ⟨_, decide_eq_true_iff, fun env => ?_⟩
    rw [proxyFor, htext, hread]
    rfl
  refine ⟨hlost, fun hlist => ⟨fun hall hs => ?_, hsame⟩⟩
  obtain ⟨secure, -, hproxy⟩ := hlost hs
  cases ht : Target.ofText ("http://".toList ++ (authority ++ rest)) with
  | error f =>
    have hempty := hall []
    rw [hproxy] at hempty
    simp only [proxyFor, String.toList_append, htext, ht] at hempty
    cases hempty
  | ok t =>
    obtain rfl := Target.ofText_behind_http hbare ht
    obtain ⟨env, hsome, hnone⟩ := exists_proxyForTarget hlist (Target.portFor false port)
      (Target.defaultPort secure) secure
    have henv := hall env
    rw [hproxy, hsome] at henv
    simp only [proxyFor, String.toList_append, htext, ht, Except.map, hnone] at henv
    cases henv

/-- The list names the host, but two slashes in the path keep it from being seen. -/
theorem proxyFor_slashes :
    proxyFor [("http_proxy", "http://proxy:3128"), ("no_proxy", "example.com")]
        (some "example.com/a//b") = .ok (some "http://proxy:3128") ∧
      proxyFor [("http_proxy", "http://proxy:3128"), ("no_proxy", "example.com")]
        (some "http://example.com/a//b") = .ok none :=
  ⟨by decide +kernel, by decide +kernel⟩

/-- A host with a port, and a whole address in the query. -/
theorem proxyFor_bare_query :
    (∀ env, proxyFor env (some "example.com:8080/a/b?c") =
        proxyFor env (some "http://example.com:8080/a/b?c")) ∧
      (∀ env, proxyFor env (some "example.com:8080/a?u=https://b") =
        .ok (env.proxyForTarget ⟨false, [], 80⟩)) ∧
      ∃ env, proxyFor env (some "example.com:8080/a?u=https://b") ≠
        proxyFor env (some "http://example.com:8080/a?u=https://b") := by
  have hnone : ¬ "//".toList <:+: "example.com:8080/a/b?c".toList := by
    rw [← Target.hasSlashes_iff]
    decide
  have hsome : "//".toList <:+: "example.com:8080/a?u=https://b".toList := by
    rw [← Target.hasSlashes_iff]
    decide
  have htext : "example.com:8080/a?u=https://b".toList =
      "example.com:8080".toList ++ "/a?u=https://b".toList := by decide
  have hwritten : Target.Written ([] ++ ("example.com".toList ++ ':' :: "8080".toList))
      "example.com".toList "8080".toList :=
    .name (.inl rfl) (by decide) (by decide) (by decide) (.colon _)
  have hall : "example.com:8080".toList.all (fun c =>
      0x20 < c.toNat ∧ Target.isAuthorityEnd c = false) = true := by
    decide
  have hplain (c : Char) (hc : c ∈ "example.com:8080".toList) :
      0x20 < c.toNat ∧ Target.isAuthorityEnd c = false :=
    of_decide_eq_true (List.all_eq_true.mp hall c hc)
  have hbehind : ∀ c ∈ "/a?u=https://b".toList.head?, Target.isAuthorityEnd c = true := by
    rintro c ⟨⟩
    rfl
  have hbare : Target.Bare "example.com:8080".toList "/a?u=https://b".toList
      "example.com".toList "8080".toList :=
    ⟨hwritten, by decide, fun c hc => (hplain c hc).1, fun c hc => (hplain c hc).2, hbehind,
      fun hlast => absurd hlast (by decide)⟩
  have hlist : Listable "example.com".toList := ⟨by decide, by decide, by decide⟩
  obtain ⟨-, hslashes⟩ := proxyFor_bare "example.com:8080/a?u=https://b"
  obtain ⟨hlost, hiff⟩ := hslashes htext hbare
  obtain ⟨secure, hsecure, hproxy⟩ := hlost hsome
  obtain rfl : secure = false := by
    rw [← Bool.not_eq_true, hsecure]
    decide
  refine ⟨(proxyFor_bare "example.com:8080/a/b?c").1 hnone, hproxy, ?_⟩
  exact not_forall.mp fun hall => (hiff hlist).mp hall hsome

end Proxy.Environment
end FlagPoll
