import FlagPoll.Store

/-!
# FlagPoll.Proofs.Store

A store is a map that is replaced as a whole, whatever callers do with what they are handed.

* `Handler`, `serve`     — any caller of a read, and what the store gives it.
* `call_eq_serve`        — the calls of `Store.call` are among these.
* `stored`, `emptied`    — what the latest data has, and which of it was emptied since.
* `serves_latest_data`   — reads are reads of the latest data, less what was emptied since.
-/

namespace FlagPoll

open Json (Value Members)

theorem Json.Value.emptied_emptied (v : Value) : v.emptied.emptied = v.emptied := by
  cases v <;> rfl

theorem Json.Value.isNull_emptied (v : Value) : v.emptied.isNull = v.isNull := by
  cases v <;> rfl

namespace Store

/-- What the caller of a read does with what it is handed: what it makes of it, be it a result or an
error, and whether it empties it. -/
structure Handler (α : Type) where
  answer : Value → α
  empties : Bool

inductive Request (α : Type) where
  | init (data : List (Kind × Items))
  | get (kind : Kind) (key : CodePoints) (handler : Handler α)
  | all (kind : Kind) (handler : Handler α)
  | initialized

inductive Response (α : Type) where
  | nothing
  | flag (b : Bool)
  | answer (a : α)

section Serve

variable {α : Type}

/-- The store after a request, and its response. -/
def serve (s : Store) : Request α → Store × Response α
  | .init data => (s.init data, .nothing)
  | .get kind key h =>
    match s.find? kind key with
    | none => (s, .answer (h.answer .null))
    | some v => (if h.empties then s.clearItem kind key else s, .answer (h.answer v))
  | .all kind h => (s, .answer (h.answer (.object (s.items kind))))
  | .initialized => (s, .flag s.initialized)

/-- The store after requests, of which the latest stands first. -/
def after : List (Request α) → Store
  | [] => .empty
  | r :: past => ((after past).serve r).1

end Serve

def Reader.handler (r : Reader) : Handler (Except Reader.Fault Value) := ⟨r.answer, r = .clear⟩

def Call.request : Call → Request (Except Reader.Fault Value)
  | .init data => .init data
  | .get kind key r => .get kind key r.handler
  | .all kind r => .all kind r.handler
  | .initialized => .initialized

def Response.reading : Response (Except Reader.Fault Value) → Reading
  | .nothing => .nothing
  | .flag b => .flag b
  | .answer a => .ofAnswer a

theorem call_eq_serve (s : Store) (c : Call) :
    (s.call c).1 = (s.serve c.request).1 ∧ (s.call c).2.1 = (s.serve c.request).2.reading := by
  cases c with
  | init data => exact ⟨rfl, rfl⟩
  | get kind key r =>
    simp only [call, get, Call.request, serve, Reader.handler, decide_eq_true_eq]
    cases s.find? kind key with
    | none => exact ⟨rfl, rfl⟩
    | some v => exact ⟨rfl, rfl⟩
  | all kind r => exact ⟨rfl, rfl⟩
  | initialized => exact ⟨rfl, rfl⟩

/-! ## A plain map -/

section Spec

variable {α : Type}

/-- The data of the latest `init`, none if there was none. -/
def latest? : List (Request α) → Option (List (Kind × Items))
  | [] => none
  | .init data :: _ => some data
  | .get .. :: past | .all .. :: past | .initialized :: past => latest? past

/-- The items of a kind in the latest data. -/
def stored (past : List (Request α)) (kind : Kind) : Items :=
  (((latest? past).getD []).lookup kind).getD []

/-- Whether the latest data has an item under a key; one that is null counts as missing. -/
def has (past : List (Request α)) (kind : Kind) (key : CodePoints) : Bool :=
  ((stored past kind).get? key).any fun v => !v.isNull

/-- Whether an item of the latest data was handed out and emptied since. -/
def emptied (kind : Kind) (key : CodePoints) : List (Request α) → Bool
  | [] => false
  | .init _ :: _ => false
  | .get k n h :: past => (k = kind && n = key && h.empties && has past k n) || emptied kind key past
  | .all .. :: past | .initialized :: past => emptied kind key past

/-- An item as it is handed out: empty if it was emptied since the latest `init`. -/
def shown (past : List (Request α)) (kind : Kind) (key : CodePoints) (v : Value) : Value :=
  if emptied kind key past then v.emptied else v

def allShown (past : List (Request α)) (kind : Kind) (items : Items) : Items :=
  items.map fun m => (m.1, shown past kind m.1 m.2)

/-- What is handed out for a key, null if the latest data does not have it. -/
def shownItem (past : List (Request α)) (kind : Kind) (key : CodePoints) : Value :=
  shown past kind key (((stored past kind).get? key).getD .null)

/-- What is handed out for a kind. -/
def shownItems (past : List (Request α)) (kind : Kind) : Items :=
  allShown past kind (stored past kind)

end Spec

theorem lookup_map_values {α β γ : Type} [BEq α] [LawfulBEq α] (f : α → β → γ) (a : α)
    (ms : List (α × β)) :
    (ms.map fun m => (m.1, f m.1 m.2)).lookup a = (ms.lookup a).map (f a) := by
  induction ms with
  | nil => rfl
  | cons m ms ih =>
    obtain ⟨b, v⟩ := m
    simp only [List.map_cons, List.lookup_cons]
    by_cases h : a = b
    · simp [h]
    · have hb : (a == b) = false := by simpa using h
      simp only [hb, ih]

section Shown

variable {α : Type} {past : List (Request α)} {kind k : Kind} {key n : CodePoints} {h : Handler α}

theorem emptied_shown (v : Value) : (shown past kind key v).emptied = v.emptied := by
  unfold shown
  split
  · exact v.emptied_emptied
  · rfl

theorem isNull_shown (v : Value) : (shown past kind key v).isNull = v.isNull := by
  unfold shown
  split
  · exact v.isNull_emptied
  · rfl

theorem shown_get_self (hh : h.empties = true) (hs : has past kind key = true) (v : Value) :
    shown (.get kind key h :: past) kind key v = v.emptied := by
  simp [shown, emptied, hh, hs]

theorem shown_get_of_ne (hn : ¬(k = kind ∧ n = key)) (v : Value) :
    shown (.get k n h :: past) kind key v = shown past kind key v := by
  have hb : (k = kind && n = key : Bool) = false := by simpa using hn
  simp [shown, emptied, hb]

theorem shown_get_of_keep (hn : ¬(h.empties = true ∧ has past k n = true)) (v : Value) :
    shown (.get k n h :: past) kind key v = shown past kind key v := by
  have hb : (h.empties && has past k n) = false := by simpa using hn
  simp [shown, emptied, Bool.and_assoc, hb]

theorem clearItem_allShown (hh : h.empties = true) (hs : has past kind key = true)
    (items : Items) :
    (allShown past kind items).clearItem key =
      allShown (.get kind key h :: past) kind items := by
  unfold Items.clearItem allShown
  rw [List.map_map]
  refine List.map_congr_left fun m _ => ?_
  by_cases hm : m.1 = key
  · subst hm
    simp [shown_get_self hh hs, emptied_shown]
  · have hn : ¬(kind = kind ∧ key = m.1) := fun e => hm e.2.symm
    simp [hm, shown_get_of_ne hn]

end Shown

section Refinement

variable {α : Type} {past : List (Request α)}

/-- A store has the latest data, less what was emptied since. -/
def Keeps (past : List (Request α)) (s : Store) : Prop :=
  s.contents = ((latest? past).getD []).map (fun c => (c.1, allShown past c.1 c.2)) ∧
    s.initialized = (latest? past).isSome

variable {s : Store}

theorem Keeps.items (h : Keeps past s) (kind : Kind) : s.items kind = shownItems past kind := by
  rw [Store.items, h.1, lookup_map_values (allShown past), shownItems, stored]
  cases ((latest? past).getD []).lookup kind with
  | none => rfl
  | some items => rfl

theorem Keeps.find? (h : Keeps past s) (kind : Kind) (key : CodePoints) :
    s.find? kind key = if has past kind key then some (shownItem past kind key) else none := by
  rw [Store.find?, h.items, shownItems, Members.get?, allShown, lookup_map_values (shown past kind),
    shownItem, has, Members.get?]
  cases (stored past kind).lookup key with
  | none => rfl
  | some v => simp [Option.filter, isNull_shown]

/-- A missing item is handed out as null. -/
theorem shownItem_of_not_has {kind : Kind} {key : CodePoints} (h : has past kind key = false) :
    shownItem past kind key = .null := by
  have null : ((stored past kind).get? key).getD .null = .null := by
    unfold has at h
    cases hv : (stored past kind).get? key with
    | none => rfl
    | some v =>
      rw [hv] at h
      cases v <;> first | rfl | cases h
  rw [shownItem, null, shown]
  split <;> rfl

theorem Keeps.get (h : Keeps past s) (kind : Kind) (key : CodePoints) (handler : Handler α) :
    Keeps (.get kind key handler :: past) (s.serve (.get kind key handler)).1 := by
  by_cases clears : handler.empties = true ∧ has past kind key = true
  · obtain ⟨hh, hs⟩ := clears
    have served : (s.serve (.get kind key handler)).1 = s.clearItem kind key := by
      simp [serve, h.find?, hs, hh]
    rw [served]
    refine ⟨?_, h.2⟩
    simp only [clearItem, modify, h.1, List.map_map, latest?]
    refine List.map_congr_left fun c _ => ?_
    by_cases hc : c.1 = kind
    · subst hc
      simp [clearItem_allShown hh hs]
    · have hn : ∀ m : CodePoints × Value, ¬(kind = c.1 ∧ key = m.1) := fun m e => hc e.1.symm
      simp [hc, allShown, shown_get_of_ne (hn _)]
  · have served : (s.serve (.get kind key handler)).1 = s := by
      rw [serve, h.find?]
      by_cases hs : has past kind key = true
      · have hh : handler.empties = false := by simpa [hs] using clears
        simp [hs, hh]
      · simp [hs]
    rw [served]
    refine ⟨?_, h.2⟩
    simp only [h.1, latest?, allShown, shown_get_of_keep clears]

theorem Keeps.serve (h : Keeps past s) (r : Request α) : Keeps (r :: past) (s.serve r).1 := by
  cases r with
  | init data => exact ⟨by simp [Store.serve, init, latest?, allShown, shown, emptied], rfl⟩
  | get kind key handler => exact h.get kind key handler
  | all kind handler => exact h
  | initialized => exact h

theorem keeps_after (past : List (Request α)) : Keeps past (after past) := by
  induction past with
  | nil => exact ⟨rfl, rfl⟩
  | cons r past ih => exact ih.serve r

theorem after_append_congr {past past' : List (Request α)} (h : after past = after past')
    (later : List (Request α)) : after (later ++ past) = after (later ++ past') := by
  induction later with
  | nil => exact h
  | cons r later ih => simp only [List.cons_append, after, ih]

/-- Nothing is left of what was before an `init`. -/
theorem after_init (past past' : List (Request α)) (data : List (Kind × Items)) :
    after (.init data :: past) = after (.init data :: past') := rfl

theorem after_all (past : List (Request α)) (kind : Kind) (handler : Handler α) :
    after (.all kind handler :: past) = after past := rfl

theorem after_get_of_keep (kind : Kind) (key : CodePoints) {handler : Handler α}
    (h : handler.empties = false) : after (.get kind key handler :: past) = after past := by
  rw [after, serve]
  split
  · rfl
  · simp only [h]
    rfl

theorem isSome_latest?_iff : (latest? past).isSome ↔ ∃ data, Request.init data ∈ past := by
  induction past with
  | nil => simp [latest?]
  | cons r past ih => cases r <;> simp [latest?, ih]

end Refinement

/-! ## One item emptied -/

section Emptying

variable {α : Type} {past : List (Request α)} {kind kind' : Kind} {key key' : CodePoints}
  {h : Handler α}

theorem latest?_append_get (later : List (Request α)) :
    latest? (later ++ .get kind key h :: past) = latest? (later ++ past) := by
  induction later with
  | nil => rfl
  | cons r later ih =>
    cases r with
    | init data => rfl
    | get | all | initialized => exact ih

theorem stored_append_get (later : List (Request α)) (k : Kind) :
    stored (later ++ .get kind key h :: past) k = stored (later ++ past) k := by
  rw [stored, latest?_append_get, stored]

theorem emptied_append_get_of_ne (hn : ¬(kind = kind' ∧ key = key')) (later : List (Request α)) :
    emptied kind' key' (later ++ .get kind key h :: past) = emptied kind' key' (later ++ past) := by
  induction later with
  | nil =>
    have hb : (kind = kind' && key = key' : Bool) = false := by simpa using hn
    simp [emptied, hb]
  | cons r later ih =>
    cases r with
    | init data => rfl
    | get k n g => simp only [List.cons_append, emptied, ih, has, stored_append_get]
    | all | initialized => exact ih

/-- Other items do not show that one was emptied. -/
theorem shownItem_append_get_of_ne (hn : ¬(kind = kind' ∧ key = key'))
    (later : List (Request α)) : shownItem (later ++ .get kind key h :: past) kind' key' =
      shownItem (later ++ past) kind' key' := by
  rw [shownItem, shownItem, shown, shown, stored_append_get, emptied_append_get_of_ne hn]

theorem emptied_append {later : List (Request α)} (hl : ∀ data, Request.init data ∉ later)
    (he : emptied kind key past = true) : emptied kind key (later ++ past) = true := by
  induction later with
  | nil => exact he
  | cons r later ih =>
    have earlier := ih fun data hd => hl data (List.mem_cons_of_mem _ hd)
    cases r with
    | init data => exact absurd List.mem_cons_self (hl data)
    | get => simp only [List.cons_append, emptied, earlier, Bool.or_true]
    | all | initialized => exact earlier

theorem stored_append {later : List (Request α)} (hl : ∀ data, Request.init data ∉ later)
    (k : Kind) : stored (later ++ past) k = stored past k := by
  induction later with
  | nil => rfl
  | cons r later ih =>
    have earlier := ih fun data hd => hl data (List.mem_cons_of_mem _ hd)
    cases r with
    | init data => exact absurd List.mem_cons_self (hl data)
    | get | all | initialized => exact earlier

/-- An emptied item stays empty until the next `init`. -/
theorem shownItem_append_get_self (hh : h.empties = true) {later : List (Request α)}
    (hl : ∀ data, Request.init data ∉ later) :
    shownItem (later ++ .get kind key h :: past) kind key = (shownItem past kind key).emptied := by
  by_cases hs : has past kind key = true
  · have now : emptied kind key (.get kind key h :: past) = true := by simp [emptied, hh, hs]
    rw [shownItem, shown, if_pos (emptied_append hl now), stored_append hl, shownItem, emptied_shown]
    rfl
  · have gone : has past kind key = false := by simpa using hs
    have still : has (later ++ .get kind key h :: past) kind key = false := by
      rw [has, stored_append hl]
      exact gone
    rw [shownItem_of_not_has gone, shownItem_of_not_has still]
    rfl

end Emptying

/-! ## A map that is replaced -/

/-- After any requests a reader of a key or a kind is handed what the latest data has, less the
items that were handed out and emptied since, and the store counts as initialized once it was given
data. A reader that empties nothing leaves no trace, whether it returns or raises, and neither does
a reader of a kind. An emptied item stays empty until the next `init` and no other shows it; what
was before that `init` is forgotten, so giving the same data twice is giving it once. -/
theorem serves_latest_data {α : Type} (past : List (Request α)) :
    (∀ kind key (h : Handler α), ((after past).serve (.get kind key h)).2 =
        .answer (h.answer (shownItem past kind key))) ∧
      (∀ kind (h : Handler α), ((after past).serve (.all kind h)).2 =
        .answer (h.answer (.object (shownItems past kind)))) ∧
      (∃ b, ((after past).serve (.initialized : Request α)).2 = .flag b ∧
        (b = true ↔ ∃ data, Request.init data ∈ past)) ∧
      (∀ later kind key h, h.empties = false →
        after (later ++ .get kind key h :: past) = after (later ++ past)) ∧
      (∀ later kind h, after (later ++ .all kind h :: past) = after (later ++ past)) ∧
      (∀ later kind key h kind' key', ¬(kind = kind' ∧ key = key') →
        shownItem (later ++ .get kind key h :: past) kind' key' =
          shownItem (later ++ past) kind' key') ∧
      (∀ later kind key h, h.empties = true → (∀ data, Request.init data ∉ later) →
        shownItem (later ++ .get kind key h :: past) kind key =
          (shownItem past kind key).emptied) ∧
      (∀ later data, after (later ++ .init data :: past) = after (later ++ [.init data])) ∧
      (∀ later data,
        after (later ++ .init data :: .init data :: past) = after (later ++ .init data :: past)) ∧
      ∀ (s : Store) (c : Call), (s.call c).1 = (s.serve c.request).1 ∧
        (s.call c).2.1 = (s.serve c.request).2.reading := by
  have keeps := keeps_after past
  refine ⟨fun kind key h => ?_, fun kind h => ?_, ⟨_, rfl, ?_⟩, fun later kind key h hh => ?_,
    fun later kind h => ?_, fun later kind key h kind' key' hn => ?_,
    fun later kind key h hh hl => ?_, fun later data => ?_, fun later data => ?_, call_eq_serve⟩
  · rw [serve, keeps.find?]
    by_cases hs : has past kind key = true
    · simp [hs]
    · rw [if_neg hs, shownItem_of_not_has (by simpa using hs)]
  · rw [serve, keeps.items]
  · rw [keeps.2]
    exact isSome_latest?_iff
  · exact after_append_congr (after_get_of_keep kind key hh) later
  · exact after_append_congr (after_all past kind h) later
  · exact shownItem_append_get_of_ne hn later
  · exact shownItem_append_get_self hh hl
  · exact after_append_congr (after_init past [] data) later
  · exact after_append_congr (after_init (.init data :: past) past data) later

def flagOf (key : String) : CodePoints × Value :=
  (key, .object [("key", .string key), ("version", .int 1)])

/-- Two flags, of which the first is emptied. -/
def tampered : List (Request Value) :=
  [.get .flags "a" ⟨id, true⟩, .init [(.flags, [flagOf "a", flagOf "b"])],
    .init [(.segments, [flagOf "c"])]]

theorem serves_latest_data_tampered :
    ((after tampered).serve (.get .flags "a" ⟨id, false⟩)).2 = .answer (.object []) ∧
      ((after tampered).serve (.get .flags "b" ⟨id, false⟩)).2 = .answer (flagOf "b").2 ∧
      ((after tampered).serve (.all .segments ⟨id, false⟩)).2 = .answer (.object []) ∧
      after (.init [] :: tampered) = after ([.init []] : List (Request Value)) := by
  obtain ⟨get, all, -, -, -, -, -, init, -⟩ := serves_latest_data tampered
  exact ⟨get .flags "a" ⟨id, false⟩, get .flags "b" ⟨id, false⟩, all .segments ⟨id, false⟩,
    init [] []⟩

end Store
end FlagPoll
