import FlagPoll.Headers
import FlagPoll.Proofs.Config
import FlagPoll.Proofs.Text.Split

/-!
# FlagPoll.Proofs.Headers

What the headers of a request say of a configuration.

* `withKey_changes_only_key` — a configuration with another key is the same in all else, and so
  are its headers.
* `readTags`                 — the tags that a header spells, by name.
* `tags_header_unambiguous`  — the header of the tags spells those that are accepted, and no more.
-/

namespace FlagPoll

open Json (Value Members)
open Text (fields before after?)

namespace Headers

theorem lookup_optional {key name : String} (h : (key == name) = false) (value : Option String) :
    (optional name value).lookup key = none := by
  cases value <;> simp only [optional, List.lookup_cons, h, List.lookup_nil]

theorem lookup_optional_self (name : String) (value : Option String) :
    (optional name value).lookup name = value := by
  cases value <;> simp [optional]

theorem lookup_base_tags (c : Config) : (base c).lookup "X-FlagSync-Tags" = tags? c.tags := by
  have hwrapper : ("X-FlagSync-Tags" == "X-FlagSync-Wrapper") = false := rfl
  simp only [base, List.lookup_append, lookup_optional_self, lookup_optional hwrapper,
    Option.or_none]
  rfl

/-- Only one header depends on the key. -/
theorem lookup_base_withKey (c : Config) (key : Option String) (name : String) :
    (base { c with sdkKey := key }).lookup name =
      if name = "Authorization" then some (key.getD "") else (base c).lookup name := by
  have hbeq : (name == "Authorization") = decide (name = "Authorization") := rfl
  simp only [base, List.cons_append, List.lookup_cons, hbeq]
  by_cases h : name = "Authorization" <;> simp [h]

end Headers

namespace Config

/-- Whatever a configuration is made of, with another key it is the same as if it had been made with
that key: all other settings stay, headers other than the credentials stay, and nothing is logged
but that the key is blank if it is. Where a key has come in between makes no difference, so a
configuration comes back when its own key does. -/
theorem withKey_changes_only_key (a : Arguments) (key key₂ : Option String) :
    ((make a).1.withKey key).1 = (make { a with sdkKey := key }).1 ∧
    ((make a).1.withKey key).1 = { (make a).1 with sdkKey := key } ∧
    (∀ name, (Headers.base ((make a).1.withKey key).1).lookup name =
      if name = "Authorization" then some (key.getD "")
      else (Headers.base (make a).1).lookup name) ∧
    ((make a).1.withKey key).2 = (if key = none ∨ key = some "" then [blankKeyLog] else []) ∧
    ((make a).1.withKey key).1.withKey key₂ = (make a).1.withKey key₂ ∧
    (((make a).1.withKey key).1.withKey a.sdkKey).1 = (make a).1 := by
  have hsettled := isSettled_make a
  have hcopy := withKey_of_isSettled hsettled key
  have hblank : isBlankKey key = true ↔ key = none ∨ key = some "" := by
    cases key <;> simp [isBlankKey]
  refine ⟨?_, ?_, ?_, ?_, hsettled.withKey_withKey key key₂, ?_⟩
  · rw [hcopy]
    rfl
  · rw [hcopy]
  · rw [hcopy]
    exact Headers.lookup_base_withKey (make a).1 key
  · rw [hcopy]
    simp only [hblank]
  · rw [hsettled.withKey_withKey, withKey_of_isSettled hsettled]
    rfl

end Config

/-! ## Tags -/

namespace Headers

/-- The tags that are not blank, by the names that a header has for them. -/
def named (t : Tags) : List (String × String) :=
  [("application-id", t.id), ("application-version", t.version)].filter (·.2 ≠ "")

/-- Name and value around the first slash. -/
def readPart (part : List Char) : String × String :=
  (String.ofList (before '/' part), String.ofList ((after? '/' part).getD []))

/-- The tags that a header spells. -/
def readTags (header : String) : List (String × String) :=
  (fields ' ' header.toList).map readPart

def partText (p : String × String) : List Char := p.1.toList ++ '/' :: p.2.toList

variable {t u : Tags} {name s v : String}

theorem mem_named : (name, s) ∈ named t ↔
    s ≠ "" ∧
      (name = "application-id" ∧ t.id = s ∨ name = "application-version" ∧ t.version = s) := by
  simp only [named, List.mem_filter, List.mem_cons, List.not_mem_nil, or_false, Prod.mk.injEq,
    decide_eq_true_eq, eq_comm (a := s)]
  exact and_comm

theorem nodup_named (t : Tags) : ((named t).map Prod.fst).Nodup :=
  List.Nodup.sublist (List.filter_sublist.map _)
    (show ["application-id", "application-version"].Nodup by decide)

theorem named_inj (h : named t = named u) : t = u := by
  have key (name : String) (f : Tags → String)
      (hf : ∀ t s, (name, s) ∈ named t ↔ s ≠ "" ∧ f t = s) : f t = f u := by
    by_cases ht : f t = ""
    · by_contra hne
      have hu : (name, f u) ∈ named u := (hf u _).mpr ⟨fun hu => hne (ht.trans hu.symm), rfl⟩
      exact hne ((hf t _).mp (h ▸ hu)).2
    · exact (((hf u _).mp (h ▸ (hf t _).mpr ⟨ht, rfl⟩)).2).symm
  have hid := key "application-id" (·.id) fun t s => by simp [mem_named]
  have hversion := key "application-version" (·.version) fun t s => by simp [mem_named]
  cases t
  cases u
  simp_all

theorem toList_tagParts (t : Tags) : (tagParts t).map String.toList = (named t).map partText := by
  have hparts : tagParts t = (named t).map fun p => p.1 ++ "/" ++ p.2 := rfl
  rw [hparts, List.map_map]
  refine List.map_congr_left fun p _ => ?_
  simp [partText]

theorem tags?_eq (t : Tags) : (tags? t).map String.toList =
    if named t = [] then none else some ([' '].intercalate ((named t).map partText)) := by
  have hnil : tagParts t = [] ↔ named t = [] := List.map_eq_nil_iff
  rw [← toList_tagParts, tags?]
  split
  · rename_i h
    rw [if_pos (hnil.mp h)]
    rfl
  · rename_i h
    rw [if_neg (mt hnil.mpr h), Option.map_some, String.toList_intercalate]
    rfl

theorem tags?_eq_none_iff : tags? t = none ↔ named t = [] := by
  rw [← Option.map_eq_none_iff, tags?_eq]
  split <;> simp_all

/-- Tags whose characters are all permitted. -/
def Sendable (t : Tags) : Prop := Tags.fault? t.id = none ∧ Tags.fault? t.version = none

theorem Sendable.isTag (h : Sendable t) {p : String × String} (hp : p ∈ named t) :
    p.1 ∈ ["application-id", "application-version"] ∧ Tags.IsTag p.2 := by
  obtain ⟨name, s⟩ := p
  obtain ⟨hs, ⟨rfl, rfl⟩ | ⟨rfl, rfl⟩⟩ := mem_named.mp hp
  · exact ⟨by simp, (Tags.fault?_eq_none_iff.mp h.1).resolve_left hs⟩
  · exact ⟨by simp, (Tags.fault?_eq_none_iff.mp h.2).resolve_left hs⟩

theorem slash_not_mem_name {name : String}
    (h : name ∈ ["application-id", "application-version"]) : '/' ∉ name.toList := by
  revert name
  decide

theorem permitted_of_mem_name {name : String}
    (h : name ∈ ["application-id", "application-version"]) :
    ∀ c ∈ name.toList, Tags.IsPermitted c := by
  have hall : name.toList.all Tags.isTagChar = true := by
    revert name
    decide
  exact fun c hc => Tags.isTagChar_iff.mp (List.all_eq_true.mp hall c hc)

theorem Sendable.mem_partText (h : Sendable t) {p : String × String} (hp : p ∈ named t) {c : Char}
    (hc : c ∈ partText p) : Tags.IsPermitted c ∨ c = '/' := by
  obtain ⟨hname, htag⟩ := h.isTag hp
  rcases List.mem_append.mp hc with hc | hc
  · exact .inl (permitted_of_mem_name hname c hc)
  · rcases List.mem_cons.mp hc with rfl | hc
    · exact .inr rfl
    · exact .inl (htag.permitted c hc)

theorem Sendable.readPart (h : Sendable t) {p : String × String} (hp : p ∈ named t) :
    readPart (partText p) = p := by
  have hslash := slash_not_mem_name (h.isTag hp).1
  simp [Headers.readPart, partText, Text.before_append_cons hslash, Text.after?_append_cons hslash]

/-- The fields of the header are the parts that it is made of. -/
theorem Sendable.fields (h : Sendable t) (hv : tags? t = some v) :
    fields ' ' v.toList = (named t).map partText := by
  have hsome := tags?_eq t
  rw [hv] at hsome
  split at hsome
  · contradiction
  · rename_i hne
    rw [Option.some.inj hsome]
    refine Text.fields_intercalate (by simpa using hne) fun part hpart hspace => ?_
    obtain ⟨p, hp, rfl⟩ := List.mem_map.mp hpart
    exact absurd (h.mem_partText hp hspace) (by decide)

theorem Sendable.readTags (h : Sendable t) (hv : tags? t = some v) : readTags v = named t := by
  rw [Headers.readTags, h.fields hv, List.map_map]
  exact (List.map_congr_left fun p hp => h.readPart hp).trans (List.map_id _)

theorem Sendable.tags?_inj (ht : Sendable t) (hu : Sendable u) : tags? t = tags? u ↔ t = u := by
  refine ⟨fun h => named_inj ?_, fun h => h ▸ rfl⟩
  cases hv : tags? t with
  | none => rw [tags?_eq_none_iff.mp hv, tags?_eq_none_iff.mp (h ▸ hv)]
  | some v => rw [← ht.readTags hv, hu.readTags (h ▸ hv)]

/-- The header of the tags that a configuration has, if it has one. -/
def sentTags (a : Config.Arguments) : Option String :=
  (base (Config.make a).1).lookup "X-FlagSync-Tags"

variable {a b : Config.Arguments}

theorem sentTags_eq (a : Config.Arguments) : sentTags a = tags? (Config.make a).1.tags :=
  lookup_base_tags (Config.make a).1

theorem sendable_make (a : Config.Arguments) : Sendable (Config.make a).1.tags :=
  ⟨(Config.isSettled_make a).id, (Config.isSettled_make a).version⟩

/-- The tags that are not blank are those that are accepted. -/
theorem mem_named_make : (name, s) ∈ named (Config.make a).1.tags ↔
    name = "application-id" ∧ Tags.Accepts a.application "id" s ∨
      name = "application-version" ∧ Tags.Accepts a.application "version" s := by
  have hid : (Config.make a).1.tags.id = (Tags.read "id" (a.application.get? "id")).1 := rfl
  have hversion : (Config.make a).1.tags.version =
    (Tags.read "version" (a.application.get? "version")).1 := rfl
  rw [mem_named, Tags.accepts_iff, Tags.accepts_iff, hid, hversion]
  tauto

theorem isSome_sentTags_iff : (sentTags a).isSome = true ↔
    ∃ s, Tags.Accepts a.application "id" s ∨ Tags.Accepts a.application "version" s := by
  rw [Option.isSome_iff_ne_none, ne_eq, sentTags_eq, tags?_eq_none_iff]
  constructor
  · intro h
    obtain ⟨⟨name, s⟩, hp⟩ := List.exists_mem_of_ne_nil _ h
    rcases mem_named_make.mp hp with ⟨-, hs⟩ | ⟨-, hs⟩
    · exact ⟨s, .inl hs⟩
    · exact ⟨s, .inr hs⟩
  · rintro ⟨s, hs | hs⟩
    · exact List.ne_nil_of_mem (mem_named_make.mpr (.inl ⟨rfl, hs⟩))
    · exact List.ne_nil_of_mem (mem_named_make.mpr (.inr ⟨rfl, hs⟩))

/-- A permitted character is none that controls a header. -/
theorem visible_of_permitted {c : Char} (h : Tags.IsPermitted c ∨ c = '/' ∨ c = ' ') :
    0x20 ≤ c.toNat ∧ c.toNat < 0x7F := by
  simp only [Tags.IsPermitted, Char.le_def, UInt32.le_iff_toNat_le] at h
  have hc : c.toNat = c.val.toNat := rfl
  rcases h with (h | h | h | rfl | rfl | rfl) | rfl | rfl
  · change 65 ≤ c.val.toNat ∧ c.val.toNat ≤ 90 at h
    omega
  · change 97 ≤ c.val.toNat ∧ c.val.toNat ≤ 122 at h
    omega
  · change 48 ≤ c.val.toNat ∧ c.val.toNat ≤ 57 at h
    omega
  all_goals decide

/-- For every application, whatever its values are: the header of the tags is sent exactly if it
gives a tag as its id or its version. The header has no characters but those of tags, slashes, and
single blanks between its parts, so none that controls it; its parts, each cut at its first slash,
are the tags that are accepted under their names, and no more. So two configurations send the same
header exactly if they have the same tags, and a value that is not accepted might as well not be
there, but for what is logged of it. -/
theorem tags_header_unambiguous (a b : Config.Arguments) :
    ((sentTags a).isSome = true ↔
      ∃ s, Tags.Accepts a.application "id" s ∨ Tags.Accepts a.application "version" s) ∧
    (∀ v, sentTags a = some v →
      (∀ c ∈ v.toList, (Tags.IsPermitted c ∨ c = '/' ∨ c = ' ') ∧ 0x20 ≤ c.toNat ∧ c.toNat < 0x7F) ∧
      [] ∉ fields ' ' v.toList ∧
      ((readTags v).map Prod.fst).Nodup ∧
      ∀ name s, (name, s) ∈ readTags v ↔
        name = "application-id" ∧ Tags.Accepts a.application "id" s ∨
          name = "application-version" ∧ Tags.Accepts a.application "version" s) ∧
    (sentTags a = sentTags b ↔ (Config.make a).1.tags = (Config.make b).1.tags) ∧
    (∀ name : String, (∀ s, ¬ Tags.Accepts a.application name s) →
      ∀ absent, absent = { a with application := Tags.without a.application name } →
      (Config.make absent).1 = (Config.make a).1 ∧
      ∀ r ∈ (Config.make a).2, r ∈ (Config.make absent).2 ∨ ∃ f : Tags.Fault, r = f.record name) := by
  have ha := sendable_make a
  refine ⟨isSome_sentTags_iff, ?_, ?_, ?_⟩
  · intro v hv
    rw [sentTags_eq] at hv
    have hfields := ha.fields hv
    have hread := ha.readTags hv
    refine ⟨?_, ?_, hread ▸ nodup_named _, fun name s => hread ▸ mem_named_make⟩
    · intro c hc
      have hcases : Tags.IsPermitted c ∨ c = '/' ∨ c = ' ' := by
        rcases Text.mem_fields_of_mem ' ' hc with rfl | ⟨f, hf, hcf⟩
        · exact .inr (.inr rfl)
        · obtain ⟨p, hp, rfl⟩ := List.mem_map.mp (hfields ▸ hf)
          exact (ha.mem_partText hp hcf).imp_right .inl
      exact ⟨hcases, visible_of_permitted hcases⟩
    · rw [hfields]
      simp [partText]
  · rw [sentTags_eq, sentTags_eq]
    exact ha.tags?_inj (sendable_make b)
  · rintro name hnot absent rfl
    obtain ⟨htags, hlog⟩ := Tags.ofMembers_without hnot
    refine ⟨by simp only [Config.make, htags], fun r hr => ?_⟩
    simp only [Config.make, List.mem_append] at hr ⊢
    rcases hr with hr | hr
    · exact (hlog r hr).imp_left .inl
    · exact .inl (.inr hr)

/-- A version that tries to smuggle in a header of its own. -/
def smuggling : Config.Arguments :=
  { sdkKey := some "key"
    application := [("id", .string "web-1.2_x"), ("version", .string "1\r\nX-Other: y")] }

theorem tags_header_unambiguous_smuggling : (∀ s, ¬ Tags.Accepts smuggling.application "version" s) ∧
    sentTags smuggling = some "application-id/web-1.2_x" ∧
    readTags "application-id/web-1.2_x" = [("application-id", "web-1.2_x")] ∧
    ("application-id", "web-1.2_x") ∈ readTags "application-id/web-1.2_x" ∧
    Tags.Accepts smuggling.application "id" "web-1.2_x" ∧
    (Config.make { smuggling with
      application := Tags.without smuggling.application "version" }).1 = (Config.make smuggling).1 := by
  have hnot : ∀ s, ¬ Tags.Accepts smuggling.application "version" s := by
    rintro s ⟨hs, htag⟩
    have hgiven : smuggling.application.get? "version" = some (.string "1\r\nX-Other: y") := rfl
    obtain rfl : "1\r\nX-Other: y" = s := by
      simpa [CodePoints.ofString_inj] using hgiven.symm.trans hs
    exact absurd (htag.permitted '\r' (by decide)) (by decide)
  have hsent : sentTags smuggling = some "application-id/web-1.2_x" := by decide +kernel
  obtain ⟨-, hheader, -, habsent⟩ := tags_header_unambiguous smuggling smuggling
  obtain ⟨-, -, -, hread⟩ := hheader _ hsent
  have hmem : ("application-id", "web-1.2_x") ∈ readTags "application-id/web-1.2_x" := by
    decide +kernel
  have haccepts : Tags.Accepts smuggling.application "id" "web-1.2_x" := by
    simpa using (hread _ _).mp hmem
  exact ⟨hnot, hsent, by decide +kernel, hmem, haccepts, (habsent "version" hnot _ rfl).1⟩

end Headers
end FlagPoll
