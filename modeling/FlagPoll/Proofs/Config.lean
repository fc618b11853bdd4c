import FlagPoll.Config
import Mathlib.Data.List.DropRight

/-!
# FlagPoll.Proofs.Config

Settings in the form in which they are used.

* `Tags.IsTag`           — the texts that a header can carry as tags.
* `Tags.Accepts`         — an application gives such a text under a name; whatever else it gives
  counts as nothing.
* `Config.IsSettled`     — settings that are left as they are when they are brought into form.
* `withKey_of_isSettled` — such settings with another key.
-/

namespace FlagPoll

open Json (Value Members)

namespace Tags

/-- Letters and digits of ASCII, points, underscores and hyphens. -/
def IsPermitted (c : Char) : Prop :=
  ('A' ≤ c ∧ c ≤ 'Z') ∨ ('a' ≤ c ∧ c ≤ 'z') ∨ ('0' ≤ c ∧ c ≤ '9') ∨ c = '.' ∨ c = '_' ∨ c = '-'

/-- The texts that a header can carry as tags. -/
structure IsTag (s : String) : Prop where
  ne_empty : s ≠ ""
  length_le : s.length ≤ 64
  permitted : ∀ c ∈ s.toList, IsPermitted c

/-- An application gives a tag under a name. -/
def Accepts (application : Members) (name s : String) : Prop :=
  application.get? name = some (.string s) ∧ IsTag s

theorem isTagChar_iff {c : Char} : isTagChar c = true ↔ IsPermitted c := by
  have hclasses : isTagChar c =
      (((decide ('A' ≤ c ∧ c ≤ 'Z') || decide ('a' ≤ c) && decide (c ≤ 'z'))
        || decide ('0' ≤ c) && decide (c ≤ '9')) || c = '.' || c = '_' || c = '-') := rfl
  simp only [hclasses, IsPermitted, Bool.or_eq_true, Bool.and_eq_true, decide_eq_true_eq]
  tauto

theorem fault?_eq_none_iff {s : String} : fault? s = none ↔ s = "" ∨ IsTag s := by
  have hall : s.toList.all isTagChar = true ↔ ∀ c ∈ s.toList, IsPermitted c := by
    simp only [List.all_eq_true, isTagChar_iff]
  rw [fault?]
  split
  · rename_i hlong
    simp only [reduceCtorEq, false_iff, not_or]
    refine ⟨?_, fun h => absurd hlong (Nat.not_lt.mpr h.length_le)⟩
    rintro rfl
    exact absurd hlong (by decide)
  · rename_i hshort
    rw [ite_eq_left_iff]
    constructor
    · intro h
      by_cases hs : s = ""
      · exact .inl hs
      · refine .inr ⟨hs, Nat.not_lt.mp hshort, hall.mp ?_⟩
        simpa using h
    · rintro (rfl | h) hnot
      · exact absurd rfl hnot
      · exact absurd (hall.mpr h.permitted) hnot

instance : DecidablePred IsPermitted := fun _ => decidable_of_iff _ isTagChar_iff

/-- No substitute is a character of tags, so such a character is the code point itself. -/
theorem toNat_scalar {n : Nat} (h : IsPermitted (CodePoints.scalar n)) :
    (CodePoints.scalar n).toNat = n := by
  unfold CodePoints.scalar at h ⊢
  split at h
  · exact absurd h (by decide)
  · rename_i hn
    rw [if_neg hn]
    by_cases hvalid : n.isValidChar
    · rw [Char.ofNat, dif_pos hvalid]
      rfl
    · have hzero : Char.ofNat n = '\x00' := by rw [Char.ofNat, dif_neg hvalid]; rfl
      exact absurd (hzero ▸ h) (by decide)

/-- A text of permitted characters has no surrogates. -/
theorem ofString_toString {t : CodePoints} (h : ∀ c ∈ t.toString.toList, IsPermitted c) :
    CodePoints.ofString t.toString = t := by
  obtain ⟨points⟩ := t
  simp only [CodePoints.toString, CodePoints.ofString, String.toList_ofList, List.map_map,
    CodePoints.mk.injEq] at h ⊢
  refine (List.map_congr_left fun n hn => ?_).trans (List.map_id points)
  exact toNat_scalar (h _ (List.mem_map_of_mem hn))

/-- A tag is taken as it is given, and nothing is logged of it; anything else counts as no tag. -/
theorem read_cases (name : String) (given : Option Value) :
    (∃ s : String, given = some (.string s) ∧ IsTag s ∧ read name given = (s, [])) ∨
    ((∀ s : String, given = some (.string s) → ¬ IsTag s) ∧ (read name given).1 = "" ∧
      ∀ r ∈ (read name given).2, ∃ f : Fault, r = f.record name) := by
  match given with
  | none | some .null | some (.bool _) | some (.int _) | some (.float _) | some (.array _)
  | some (.object _) => exact .inr ⟨by simp, rfl, by simp [read]⟩
  | some (.string t) =>
    have unique (s : String) (hs : some (Value.string t) = some (.string s)) : t.toString = s := by
      obtain rfl : t = s := by simpa using hs
      exact CodePoints.toString_ofString s
    cases hf : fault? t.toString with
    | some f =>
      refine .inr ⟨fun s hs htag => ?_, by simp [read, hf], by simp [read, hf]⟩
      rw [unique s hs, fault?_eq_none_iff.mpr (.inr htag)] at hf
      contradiction
    | none =>
      have hread : read name (some (.string t)) = (t.toString, []) := by simp [read, hf]
      rcases fault?_eq_none_iff.mp hf with hempty | htag
      · refine .inr ⟨fun s hs htag => htag.ne_empty (unique s hs ▸ hempty), ?_, by simp [hread]⟩
        rw [hread, hempty]
      · exact .inl ⟨t.toString, by rw [ofString_toString htag.permitted], htag, hread⟩

theorem read_eq_iff {name s : String} {given : Option Value} (hs : s ≠ "") :
    (read name given).1 = s ↔ given = some (.string s) ∧ IsTag s := by
  rcases read_cases name given with ⟨u, rfl, htag, hread⟩ | ⟨hnot, hread, -⟩
  · rw [hread]
    constructor
    · rintro rfl
      exact ⟨rfl, htag⟩
    · rintro ⟨hus, -⟩
      simpa [CodePoints.ofString_inj] using hus
  · rw [hread]
    exact ⟨fun h => absurd h.symm hs, fun ⟨hgiven, htag⟩ => absurd htag (hnot s hgiven)⟩

/-- What counts as no tag is read as if nothing were given. -/
theorem read_eq_absent {name : String} {given : Option Value}
    (h : ∀ s : String, given = some (.string s) → ¬ IsTag s) :
    (read name given).1 = (read name none).1 := by
  rcases read_cases name given with ⟨s, hgiven, htag, -⟩ | ⟨-, hread, -⟩
  · exact absurd htag (h s hgiven)
  · exact hread

theorem accepts_iff {application : Members} {name s : String} :
    Accepts application name s ↔ s ≠ "" ∧ (read name (application.get? name)).1 = s := by
  constructor
  · rintro ⟨hgiven, htag⟩
    exact ⟨htag.ne_empty, (read_eq_iff htag.ne_empty).mpr ⟨hgiven, htag⟩⟩
  · rintro ⟨hs, hread⟩
    exact (read_eq_iff hs).mp hread

theorem fault?_read (name : String) (given : Option Value) : fault? (read name given).1 = none := by
  rcases read_cases name given with ⟨s, -, htag, hread⟩ | ⟨-, hread, -⟩
  · rw [hread]
    exact fault?_eq_none_iff.mpr (.inr htag)
  · rw [hread]
    rfl

/-- An application without what it gives under a name. -/
def without (application : Members) (name : CodePoints) : Members :=
  application.filter (·.1 ≠ name)

theorem get?_without (application : Members) (name other : CodePoints) :
    (without application name).get? other =
      if other = name then none else application.get? other := by
  induction application with
  | nil => simp [without, Members.get?]
  | cons m rest ih =>
    obtain ⟨n, v⟩ := m
    simp only [without, Members.get?] at ih ⊢
    have hbeq : (other == n) = decide (other = n) := rfl
    by_cases hn : n = name
    · subst hn
      rw [List.filter_cons_of_neg (by simp), ih, List.lookup_cons, hbeq]
      by_cases ho : other = n <;> simp [ho]
    · rw [List.filter_cons_of_pos (by simpa using hn), List.lookup_cons, List.lookup_cons, ih, hbeq]
      by_cases ho : other = n
      · simp [ho, hn]
      · simp [ho]

/-- Under every name, an application without a value that counts as no tag reads as it did, but for
what is logged of that value. -/
theorem read_without {application : Members} {name : String}
    (h : ∀ s, ¬ Accepts application name s) (other : String) :
    (read other ((without application name).get? other)).1 =
        (read other (application.get? other)).1 ∧
      ∀ r ∈ (read other (application.get? other)).2,
        r ∈ (read other ((without application name).get? other)).2 ∨
          ∃ f : Fault, r = f.record name := by
  rw [get?_without]
  by_cases ho : other = name
  · subst ho
    have hnot (s : String) (hs : application.get? other = some (.string s)) : ¬ IsTag s :=
      fun htag => h s ⟨hs, htag⟩
    rw [if_pos rfl]
    refine ⟨(read_eq_absent hnot).symm, fun r hr => .inr ?_⟩
    rcases read_cases other (application.get? other) with ⟨s, hs, htag, -⟩ | ⟨-, -, hlog⟩
    · exact absurd htag (hnot s hs)
    · exact hlog r hr
  · rw [if_neg (by simpa [CodePoints.ofString_inj] using ho)]
    exact ⟨rfl, fun r hr => .inl hr⟩

/-- What counts as no tag might as well not be there, but for what is logged of it. -/
theorem ofMembers_without {application : Members} {name : String}
    (h : ∀ s, ¬ Accepts application name s) :
    (ofMembers (without application name)).1 = (ofMembers application).1 ∧
      ∀ r ∈ (ofMembers application).2, r ∈ (ofMembers (without application name)).2 ∨
        ∃ f : Fault, r = f.record name := by
  obtain ⟨hid, hidLog⟩ := read_without h "id"
  obtain ⟨hversion, hversionLog⟩ := read_without h "version"
  refine ⟨by simp only [ofMembers, hid, hversion], fun r hr => ?_⟩
  simp only [ofMembers, List.mem_append] at hr ⊢
  rcases hr with hr | hr
  · exact (hidLog r hr).imp_left .inl
  · exact (hversionLog r hr).imp_left .inr

theorem read_string {name s : String} (h : fault? s = none) :
    read name (some (.string s)) = (s, []) := by
  simp [read, CodePoints.toString_ofString, h]

end Tags

namespace Config

/-- Settings that are left as they are when they are brought into form. -/
structure IsSettled (c : Config) : Prop where
  baseUri : trimSlashes c.baseUri = c.baseUri
  pollInterval : Time.latest c.pollInterval leastInterval = c.pollInterval
  id : Tags.fault? c.tags.id = none
  version : Tags.fault? c.tags.version = none

theorem trimSlashes_trimSlashes (s : String) : trimSlashes (trimSlashes s) = trimSlashes s := by
  simp only [trimSlashes, Text.dropBack, String.toList_ofList, List.reverse_reverse,
    List.dropWhile_idempotent]

/-- What is cut off an address are slashes, and all those at its end. -/
theorem exists_slashes (s : String) : ∃ slashes,
    s.toList = (trimSlashes s).toList ++ slashes ∧ (∀ c ∈ slashes, c = '/') ∧
      (trimSlashes s).toList.getLast? ≠ some '/' := by
  have htrim : (trimSlashes s).toList = s.toList.rdropWhile (· = '/') := by
    rw [trimSlashes, String.toList_ofList]
    rfl
  have hparts := List.rdropWhile_append_rtakeWhile (p := (· = '/')) (l := s.toList)
  refine ⟨s.toList.rtakeWhile (· = '/'), ?_, fun c hc => ?_, fun hlast => ?_⟩
  · rw [htrim, hparts]
  · simpa using List.mem_rtakeWhile_imp hc
  · rw [htrim] at hlast
    have hne := List.getLast?_isSome.mp (Option.isSome_of_eq_some hlast)
    refine List.rdropWhile_last_not (· = '/') s.toList hne ?_
    simpa [List.getLast?_eq_some_getLast hne] using hlast

theorem not_lt_self (a : Number) : ¬ a < a := by
  rw [Number.lt_iff]
  cases a.value with
  | finite q => simp [ExtendedRat.lt]
  | infinite negative => cases negative <;> simp [ExtendedRat.lt]
  | undefined => simp [ExtendedRat.lt]

theorem latest_latest (a b : Number) : Time.latest (Time.latest a b) b = Time.latest a b := by
  by_cases h : a < b
  · simp [Time.latest, h, not_lt_self]
  · simp [Time.latest, h]

theorem isSettled_make (a : Arguments) : (make a).1.IsSettled where
  baseUri := trimSlashes_trimSlashes a.baseUri
  pollInterval := latest_latest a.pollInterval leastInterval
  id := Tags.fault?_read "id" (a.application.get? "id")
  version := Tags.fault?_read "version" (a.application.get? "version")

theorem ofMembers_toMembers {t : Tags} (hid : Tags.fault? t.id = none)
    (hversion : Tags.fault? t.version = none) : Tags.ofMembers t.toMembers = (t, []) := by
  have hi : t.toMembers.get? "id" = some (.string t.id) := rfl
  have hv : t.toMembers.get? "version" = some (.string t.version) := rfl
  simp only [Tags.ofMembers, hi, hv, Tags.read_string hid, Tags.read_string hversion]
  rfl

/-- Settings in their form have their key replaced, and only the key is looked at. -/
theorem withKey_of_isSettled {c : Config} (h : c.IsSettled) (key : Option String) :
    c.withKey key = ({ c with sdkKey := key }, if isBlankKey key then [blankKeyLog] else []) := by
  simp only [withKey, make, toArguments, h.baseUri, h.pollInterval,
    ofMembers_toMembers h.id h.version, List.nil_append]
  rfl

theorem IsSettled.withKey {c : Config} (h : c.IsSettled) (key : Option String) :
    (c.withKey key).1.IsSettled := by
  rw [withKey_of_isSettled h]
  exact ⟨h.baseUri, h.pollInterval, h.id, h.version⟩

theorem IsSettled.withKey_withKey {c : Config} (h : c.IsSettled) (key key₂ : Option String) :
    (c.withKey key).1.withKey key₂ = c.withKey key₂ := by
  rw [withKey_of_isSettled (h.withKey key), withKey_of_isSettled h key₂]
  simp only [withKey_of_isSettled h key]

end Config
end FlagPoll
