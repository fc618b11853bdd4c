import FlagPoll.Proofs.Json.Rendering

/-!
# FlagPoll.Proofs.Json.Reordering

Values that differ only in the order in which their objects were written.

* `Reordered`            — the members of an object are there in another order, at any depth.
* `same_of_reordered`    — such values are equal.
* `Reordered.get?`       — they hold reorderings of the same under every name.
-/

namespace FlagPoll.Json

/-- A phrase with the members of its objects in another order. The names of an object are distinct,
and binary64 numbers are left out. -/
inductive Reordered : Phrase → Phrase → Prop
  | null : Reordered (.value .null) (.value .null)
  | bool (b : Bool) : Reordered (.value (.bool b)) (.value (.bool b))
  | int (n : Int) : Reordered (.value (.int n)) (.value (.int n))
  | string (s : CodePoints) : Reordered (.value (.string s)) (.value (.string s))
  | array {vs ws : List Value} (h : Reordered (.items vs) (.items ws)) :
      Reordered (.value (.array vs)) (.value (.array ws))
  | object {ms ns os : Members} (h : Reordered (.members ms) (.members ns)) (hp : ns.Perm os)
      (hn : (os.map Prod.fst).Nodup) : Reordered (.value (.object ms)) (.value (.object os))
  | noItems : Reordered (.items []) (.items [])
  | items {v w : Value} {vs ws : List Value} (h : Reordered (.value v) (.value w))
      (hs : Reordered (.items vs) (.items ws)) : Reordered (.items (v :: vs)) (.items (w :: ws))
  | noMembers : Reordered (.members []) (.members [])
  | members {name : CodePoints} {v w : Value} {ms ns : Members}
      (h : Reordered (.value v) (.value w)) (hs : Reordered (.members ms) (.members ns)) :
      Reordered (.members ((name, v) :: ms)) (.members ((name, w) :: ns))

/-- Equality of two phrases. Members are looked up among all those that they were taken from. -/
def Same : Phrase → Phrase → Prop
  | .value v, .value w => v.same w = true
  | .items vs, .items ws => Value.sameItems vs ws = true
  | .members ms, .members ns =>
    ms.length = ns.length ∧
      ∀ os : Members, (os.map Prod.fst).Nodup → (∀ m ∈ ns, m ∈ os) → Value.sameMembers ms os = true
  | _, _ => False

theorem same_of_reordered {p q : Phrase} (h : Reordered p q) : Same p q := by
  induction h with
  | null => rfl
  | bool b => cases b <;> rfl
  | int n => simp [Same, Value.same, Value.sameNumber, Value.number?, ExtendedRat.same]
  | string s => simp [Same, Value.same]
  | array _ ih => simpa [Same, Value.same] using ih
  | object h hp hn ih =>
    obtain ⟨length, members⟩ := ih
    have := members _ hn fun m hm => hp.mem_iff.mp hm
    simp [Same, Value.same, length, hp.length_eq, this]
  | noItems => rfl
  | items _ _ ih ihs =>
    simp only [Same] at ih ihs
    simp [Same, Value.sameItems, ih, ihs]
  | noMembers => exact ⟨rfl, fun _ _ _ => rfl⟩
  | members _ _ ih ihs =>
    refine ⟨congrArg (· + 1) ihs.1, fun os hn hm => ?_⟩
    have found := Members.get?_of_mem hn (hm _ List.mem_cons_self)
    have others := ihs.2 os hn fun m h => hm m (List.mem_cons_of_mem _ h)
    simp only [Same] at ih
    simp only [Members.get?] at found
    simp [Value.sameMembers, found, ih, others]

theorem Reordered.names {ms ns : Members} (h : Reordered (.members ms) (.members ns)) :
    ms.map Prod.fst = ns.map Prod.fst := by
  induction ms generalizing ns with
  | nil =>
    cases h
    rfl
  | cons m ms ih =>
    cases h with
    | members _ hs => rw [List.map_cons, List.map_cons, ih hs]

theorem Reordered.mem_left {ms ns : Members} (h : Reordered (.members ms) (.members ns))
    {name : CodePoints} {v : Value} (hm : (name, v) ∈ ms) :
    ∃ w, (name, w) ∈ ns ∧ Reordered (.value v) (.value w) := by
  induction ms generalizing ns with
  | nil => cases hm
  | cons m ms ih =>
    cases h with
    | members h hs =>
      rcases List.mem_cons.mp hm with he | hm
      · cases he
        exact ⟨_, List.mem_cons_self, h⟩
      · obtain ⟨w, hw, hr⟩ := ih hs hm
        exact ⟨w, List.mem_cons_of_mem _ hw, hr⟩

theorem Reordered.mem_right {ms ns : Members} (h : Reordered (.members ms) (.members ns))
    {name : CodePoints} {w : Value} (hm : (name, w) ∈ ns) :
    ∃ v, (name, v) ∈ ms ∧ Reordered (.value v) (.value w) := by
  induction ns generalizing ms with
  | nil => cases hm
  | cons n ns ih =>
    cases h with
    | members h hs =>
      rcases List.mem_cons.mp hm with he | hm
      · cases he
        exact ⟨_, List.mem_cons_self, h⟩
      · obtain ⟨v, hv, hr⟩ := ih hs hm
        exact ⟨v, List.mem_cons_of_mem _ hv, hr⟩

/-- A reordered object has a reordered value under every name. -/
theorem Reordered.get? {ms os : Members} (h : Reordered (.value (.object ms)) (.value (.object os)))
    {name : CodePoints} {w : Value} (hw : os.get? name = some w) :
    ∃ v, ms.get? name = some v ∧ Reordered (.value v) (.value w) := by
  cases h with
  | object hs hp hn =>
    obtain ⟨v, hv, hr⟩ := hs.mem_right (hp.mem_iff.mpr (Members.mem_of_get? hw))
    refine ⟨v, Members.get?_of_mem ?_ hv, hr⟩
    rw [hs.names]
    exact (hp.map Prod.fst).nodup_iff.mpr hn

end FlagPoll.Json
