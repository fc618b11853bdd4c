import FlagPoll.Payload
import FlagPoll.Proofs.Json.Reading
import FlagPoll.Proofs.Json.Reordering
import FlagPoll.Proofs.Text.Utf8

/-!
# FlagPoll.Proofs.Payload

Reading what a service wrote gives what it had.

* `Snapshot.Sound`      — every item has a string key and an integer version.
* `Snapshot.Reordered`  — the same items in another order.
* `Snapshot.Shows`      — the members of a body that hold a data set.
* `Payload.reads_back`  — a body that holds a data set is read as this data set.
-/

namespace FlagPoll

open Json

namespace Snapshot

/-- An object with a string under `key` and an integer under `version`, whatever else it holds. -/
def IsItem (v : Value) : Prop :=
  ∃ ms key version, v = .object ms ∧ Members.get? ms "key" = some (.string key) ∧
    Members.get? ms "version" = some (.int version)

def Sound (s : Snapshot) : Prop := ∀ kind, ∀ m ∈ s.items kind, IsItem m.2

/-- The same items in another order, and what they hold in another order. -/
def Reordered (s t : Snapshot) : Prop :=
  ∀ kind, Json.Reordered (.value (.object (s.items kind))) (.value (.object (t.items kind)))

/-- A data set as a plain object. -/
def members (s : Snapshot) : Members := [("flags", .object s.flags), ("segments", .object s.segments)]

/-- The members of a body: each collection under its name, the two in either order; one that is
empty may be left out. -/
inductive Shows (s : Snapshot) : Members → Prop
  | both : Shows s [("flags", .object s.flags), ("segments", .object s.segments)]
  | swapped : Shows s [("segments", .object s.segments), ("flags", .object s.flags)]
  | flags (h : s.segments = []) : Shows s [("flags", .object s.flags)]
  | segments (h : s.flags = []) : Shows s [("segments", .object s.segments)]
  | neither (hf : s.flags = []) (hs : s.segments = []) : Shows s []

theorem lack?_of_isItem {v : Value} (h : IsItem v) : lack? v = none := by
  obtain ⟨ms, key, version, rfl, hk, hv⟩ := h
  simp only [lack?, hk, hv]

theorem firstFault?_of_isItem (kind : Kind) {items : Items} (h : ∀ m ∈ items, IsItem m.2) :
    firstFault? kind items = none := by
  induction items with
  | nil => rfl
  | cons m items ih =>
    rw [firstFault?, lack?_of_isItem (h m List.mem_cons_self)]
    exact ih fun n hn => h n (List.mem_cons_of_mem _ hn)

theorem itemsOf_of_get? {ms : Members} {kind : Kind} {items : Items}
    (h : ms.get? kind.payloadName = some (.object items)) (hi : ∀ m ∈ items, IsItem m.2) :
    itemsOf ms kind = .ok items := by
  simp only [itemsOf, h, firstFault?_of_isItem kind hi]

theorem itemsOf_of_shows {s : Snapshot} (hs : s.Sound) {ms : Members} (h : s.Shows ms)
    (kind : Kind) : itemsOf ms kind = .ok (s.items kind) := by
  have sound := hs kind
  cases h with
  | both | swapped => cases kind <;> exact itemsOf_of_get? rfl sound
  | flags h =>
    cases kind with
    | flags => exact itemsOf_of_get? rfl sound
    | segments => rw [items, h]; rfl
  | segments h =>
    cases kind with
    | flags => rw [items, h]; rfl
    | segments => exact itemsOf_of_get? rfl sound
  | neither hf hs =>
    cases kind with
    | flags => rw [items, hf]; rfl
    | segments => rw [items, hs]; rfl

theorem ofJson_of_shows {s : Snapshot} (hs : s.Sound) {ms : Members} (h : s.Shows ms) :
    ofJson (.object ms) = .ok s := by
  simp only [ofJson, itemsOf_of_shows hs h]
  rfl

theorem Reordered.isItem {v w : Value} (h : Json.Reordered (.value v) (.value w)) (hw : IsItem w) :
    IsItem v := by
  obtain ⟨ns, key, version, rfl, hk, hv⟩ := hw
  obtain ⟨ms, rfl⟩ : ∃ ms, v = .object ms := by
    cases h
    exact ⟨_, rfl⟩
  obtain ⟨k, hk, rk⟩ := h.get? hk
  obtain ⟨n, hv, rv⟩ := h.get? hv
  cases rk
  cases rv
  exact ⟨ms, key, version, rfl, hk, hv⟩

theorem Reordered.sound {s t : Snapshot} (h : s.Reordered t) (ht : t.Sound) : s.Sound := by
  intro kind m hm
  cases h kind with
  | object hs hp hn =>
    obtain ⟨w, hw, hr⟩ := hs.mem_left hm
    exact isItem hr (ht kind _ (hp.mem_iff.mp hw))

theorem Reordered.same {s t : Snapshot} (h : s.Reordered t) : s.same t = true := by
  have flags := same_of_reordered (h .flags)
  have segments := same_of_reordered (h .segments)
  simp only [Same, items] at flags segments
  simp [Snapshot.same, flags, segments]

end Snapshot

namespace Payload

theorem readWithin_encode {room : Nat} {text : List Char} {v : Value}
    (h : Json.readWithin room text = .ok v) :
    readWithin room (Utf8.encode text) = (Snapshot.ofJson v).mapError .shape := by
  simp only [readWithin, Utf8.decode_encode, h]

theorem readWithin_document {room : Nat} {v : Value} {text : List Char} (h : Document v text)
    (hr : v.depth ≤ room) :
    readWithin room (Utf8.encode text) = (Snapshot.ofJson v).mapError .shape :=
  readWithin_encode (Reader.document_eq h hr)

/-- A data set `t` whose items are sound, its objects written in the order of `s`. Where a text may
be nested as deeply as this one is, reading its octets gives `s`, which equals `t`; and so does the
plain object of its two collections. -/
theorem reads_back {s t : Snapshot} (ht : t.Sound) (hs : s.Reordered t) {ms : Members}
    (hm : s.Shows ms) {text : List Char} (h : Document (.object ms) text) :
    (∀ room, (Value.object ms).depth ≤ room → readWithin room (Utf8.encode text) = .ok s) ∧
      ((Value.object ms).depth ≤ Reader.mostNested → read (Utf8.encode text) = .ok s) ∧
      s.same t = true ∧
      (∀ kind key item, (t.items kind).get? key = some item →
        ∃ v, (s.items kind).get? key = some v ∧ v.same item = true) ∧
      Snapshot.ofJson (.object s.members) = .ok s := by
  have sound := hs.sound ht
  have reads : ∀ room, (Value.object ms).depth ≤ room →
      readWithin room (Utf8.encode text) = .ok s := by
    intro room hr
    rw [readWithin_document h hr, Snapshot.ofJson_of_shows sound hm]
    rfl
  have found : ∀ kind key item, (t.items kind).get? key = some item →
      ∃ v, (s.items kind).get? key = some v ∧ v.same item = true := by
    intro kind key item hi
    obtain ⟨v, hv, hr⟩ := (hs kind).get? hi
    exact ⟨v, hv, same_of_reordered hr⟩
  exact ⟨reads, reads Reader.mostNested, hs.same, found, Snapshot.ofJson_of_shows sound .both⟩

/-- One flag whose key is not in ASCII. -/
def smiling : Snapshot :=
  ⟨[("a", .object [("key", .string "é😀"), ("version", .int (-12)), ("on", .array [])])], []⟩

def smilingWritten : Snapshot :=
  ⟨[("a", .object [("version", .int (-12)), ("key", .string "é😀"), ("on", .array [])])], []⟩

/-- The text ` {"flags":{"\u0061":{"version":-12 ,"key":"é\ud83d\uDE00","on":[ ]}}}` and a line
feed. -/
def smilingText : List Char :=
  [' ', '\x7b', '"', 'f', 'l', 'a', 'g', 's', '"', ':', '\x7b', '"', '\\', 'u', '0', '0', '6', '1',
    '"', ':', '\x7b', '"', 'v', 'e', 'r', 's', 'i', 'o', 'n', '"', ':', '-', '1', '2', ' ', ',',
    '"', 'k', 'e', 'y', '"', ':', '"', 'é', '\\', 'u', 'd', '8', '3', 'd', '\\', 'u', 'D', 'E',
    '0', '0', '"', ',', '"', 'o', 'n', '"', ':', '[', ' ', ']', '\x7d', '\x7d', '\x7d', '\n']

theorem document_smiling :
    Document (.object [("flags", .object smilingWritten.flags)]) smilingText := by
  have blank : Blank [] := by simp [Blank]
  have space : Blank [' '] := by simp [Blank]
  have plain : ∀ (s : String) (cs : List Char), s.toList = cs →
      (cs.all fun c => 0x20 ≤ c.toNat && c != '"' && c != '\\') = true →
        StringText s.toList cs := by
    rintro s cs rfl h
    exact stringText_of_all h
  have letter : CharText 'a' ['\\', 'u', '0', '0', '6', '1'] :=
    .unit (.mk (.small (n := 0) (by decide)) (.small (n := 0) (by decide))
      (.small (n := 6) (by decide)) (.small (n := 1) (by decide)))
  have high : UnitText (0xD800 + 0x3d) ['\\', 'u', 'd', '8', '3', 'd'] :=
    .mk (.small (n := 13) (by decide)) (.small (n := 8) (by decide))
      (.small (n := 3) (by decide)) (.small (n := 13) (by decide))
  have low : UnitText (0xDC00 + 0x200) ['\\', 'u', 'D', 'E', '0', '0'] :=
    .mk (.capital (n := 13) (by decide)) (.capital (n := 14) (by decide))
      (.small (n := 0) (by decide)) (.small (n := 0) (by decide))
  have face : CharText '😀' ['\\', 'u', 'd', '8', '3', 'd', '\\', 'u', 'D', 'E', '0', '0'] :=
    .pair high low (by decide) (by decide) (by decide)
  have a : StringText "a".toList ['\\', 'u', '0', '0', '6', '1'] := .cons letter .nil
  have key := StringText.cons (c := 'é') (.raw (by decide) (by decide) (by decide))
    (.cons face .nil)
  have version := IntegerText.negative (n := 12) (by decide)
  have item := Rendering.object blank (by decide)
    (.members (plain "version" _ rfl rfl) blank blank (.integer version) space blank
      (.members (plain "key" _ rfl rfl) blank blank (.string (s := "é😀") key) blank blank
        (.member (plain "on" _ rfl rfl) blank blank (.emptyArray space) blank)))
  have flags := Rendering.object blank (by decide) (.member a blank blank item blank)
  have body := Rendering.object blank (by decide)
    (.member (plain "flags" _ rfl rfl) blank blank flags blank)
  exact .mk space body (c := ['\n']) (by simp [Blank])

theorem reordered_smiling : smilingWritten.Reordered smiling := by
  have item : Json.Reordered (.value (.object [("version", .int (-12)), ("key", .string "é😀"),
      ("on", .array [])])) (.value (.object [("key", .string "é😀"), ("version", .int (-12)),
      ("on", .array [])])) :=
    .object (.members (.int _) (.members (.string _) (.members (.array .noItems) .noMembers)))
      (.swap ..) (by decide)
  intro kind
  cases kind with
  | flags => exact .object (.members item .noMembers) (.refl _) (by decide)
  | segments => exact .object .noMembers (.refl _) (by decide)

theorem reads_back_smiling :
    smiling.Sound ∧ smilingWritten.Reordered smiling ∧
      Document (.object [("flags", .object smilingWritten.flags)]) smilingText ∧
      read (Utf8.encode smilingText) = .ok smilingWritten ∧ smilingWritten.same smiling = true := by
  have sound : smiling.Sound := by
    intro kind m hm
    cases kind with
    | flags =>
      obtain rfl := List.mem_singleton.mp hm
      exact ⟨_, _, _, rfl, rfl, rfl⟩
    | segments => cases hm
  have back := reads_back sound reordered_smiling (.flags rfl) document_smiling
  exact ⟨sound, reordered_smiling, document_smiling, back.2.1 (by decide), back.2.2.1⟩

end Payload
end FlagPoll
