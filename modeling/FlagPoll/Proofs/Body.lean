import FlagPoll.Proofs.Caching
import FlagPoll.Proofs.Json.Accepting
import FlagPoll.Proofs.Snapshot

/-!
# FlagPoll.Proofs.Body

What is made of the body of a response, whatever octets it has.

* `Carries`                    — the octets are the text of a value, in UTF-8.
* `Shallow`                    — reading does not give up on the body for how deeply it is nested.
* `readWithin_of_carries`, `readWithin_of_not_carries` — what is made of a body in either case.
* `message_notJson_iff`        — the message tells the two cases apart.
* `Judged`                     — all of it: a snapshot, or an invalid payload and what is wrong.
* `Client.receive_of_isRead`   — what a response comes to is what is made of its body.
-/

namespace FlagPoll

namespace Payload

/-- The octets are the text of a value, in UTF-8. -/
def Carries (v : Json.Value) (body : List UInt8) : Prop :=
  ∃ text, Utf8.encode text = body ∧ Json.Written v text

/-- Reading does not give up on a body for how deeply it is nested. -/
def Shallow (room : Nat) (body : List UInt8) : Prop :=
  ∀ text f, Utf8.decode body = .ok text → Json.readWithin room text = .error f → ¬ f.IsTooDeep

/-- With room for as many values as the body has octets nothing is nested too deeply. -/
theorem shallow_of_length {room : Nat} {body : List UInt8} (h : body.length ≤ room) :
    Shallow room body := by
  intro text f ht hf
  obtain rfl := Utf8.decode_eq_ok_iff.mp ht
  exact Json.Reader.not_isTooDeep_of_length (Nat.le_trans (Utf8.length_le_encode text) h) hf

theorem isTooDeep_iff (f : Json.Reader.Fault) : isTooDeep f.cause = true ↔ f.IsTooDeep := by
  constructor
  · intro h
    unfold isTooDeep at h
    split at h
    · rename_i c hc
      exact ⟨c, hc⟩
    · cases h
  · rintro ⟨c, hc⟩
    rw [hc]
    rfl

/-- What the message of a body begins with that is not UTF-8 or not JSON. -/
def notJson : String := "polling response was not valid JSON: "

theorem message_text {text : List Char} {f : Json.Reader.Fault} (h : isTooDeep f.cause = false) :
    (Fault.text text f).message = notJson ++ f.message text := by
  change (if isTooDeep f.cause then f.message text else notJson ++ f.message text) = _
  rw [h]
  rfl

section Body

variable {room : Nat} {body : List UInt8}

theorem readWithin_of_carries (hs : Shallow room body) {v : Json.Value} (h : Carries v body) :
    readWithin room body = (Snapshot.ofJson v).mapError .shape := by
  obtain ⟨text, rfl, hw⟩ := h
  have decoded := Utf8.decode_encode text
  have read : Json.readWithin room text = .ok v :=
    (Json.Reader.document_eq_ok_iff fun f hf => hs text f decoded hf).mpr hw
  simp only [readWithin, decoded, read]

/-- A body that carries no value is refused as no valid JSON. -/
theorem readWithin_of_not_carries (hs : Shallow room body) (h : ∀ v, ¬ Carries v body) :
    ∃ f detail, readWithin room body = .error f ∧ f.message = notJson ++ detail ∧
      f.failure = .payload f.message := by
  cases hd : Utf8.decode body with
  | error f => exact ⟨.encoding f, f.message, by simp only [readWithin, hd], rfl, rfl⟩
  | ok text =>
    cases hr : Json.readWithin room text with
    | error f =>
      have shallow : isTooDeep f.cause = false := by
        have := hs text f hd hr
        rwa [← isTooDeep_iff, Bool.not_eq_true] at this
      refine ⟨.text text f, f.message text, by simp only [readWithin, hd, hr], ?_, ?_⟩
      · exact message_text shallow
      · rw [Fault.failure, shallow, if_neg Bool.false_ne_true]
    | ok v =>
      exact absurd ⟨text, Utf8.decode_eq_ok_iff.mp hd, Json.Reader.written_of_document hr⟩ (h v)

end Body

/-- What is said of the shape of a value does not begin so. -/
theorem shape_message_ne (f : Snapshot.Fault) (detail : String) :
    f.message ≠ notJson ++ detail := by
  intro h
  by_cases hf : f = .notObject
  · subst hf
    have start : (notJson ++ detail).toList.take 26 = notJson.toList.take 26 := by
      rw [String.toList_append, List.take_append_of_le_length (by decide)]
    rw [← h] at start
    exact absurd start (by decide)
  · have start : (notJson ++ detail).toList.head? = some 'p' := by
      rw [String.toList_append, List.head?_append]
      rfl
    rw [← h] at start
    cases f with
    | notObject => exact hf rfl
    | collection kind => cases kind <;> exact absurd start (by decide)
    | item kind key l =>
      rw [Snapshot.Fault.head?_message_item] at start
      cases kind <;> exact absurd start (by decide)

section Decision

variable {room : Nat} {body : List UInt8} (hs : Shallow room body)
include hs

/-- A body is read as a snapshot or refused as an invalid payload, and in no other way. -/
theorem read_or_refused : (∃ s, readWithin room body = .ok s) ∨
    ∃ f, readWithin room body = .error f ∧ f.failure = .payload f.message := by
  by_cases hc : ∃ v, Carries v body
  · obtain ⟨v, hv⟩ := hc
    rw [readWithin_of_carries hs hv]
    cases Snapshot.ofJson v with
    | ok s => exact .inl ⟨s, rfl⟩
    | error f => exact .inr ⟨.shape f, rfl, rfl⟩
  · obtain ⟨f, detail, hf, -, hp⟩ := readWithin_of_not_carries hs (not_exists.mp hc)
    exact .inr ⟨f, hf, hp⟩

/-- The message says that a body is no valid JSON exactly if it carries no value. -/
theorem message_notJson_iff {f : Fault} (hf : readWithin room body = .error f) :
    (∃ detail, f.message = notJson ++ detail) ↔ ∀ v, ¬ Carries v body := by
  constructor
  · rintro ⟨detail, hm⟩ v hv
    rw [readWithin_of_carries hs hv] at hf
    cases ho : Snapshot.ofJson v with
    | ok s =>
      rw [ho] at hf
      cases hf
    | error g =>
      rw [ho] at hf
      obtain rfl := Except.error.inj hf
      exact shape_message_ne g detail hm
  · intro hno
    obtain ⟨g, detail, hg, hm, -⟩ := readWithin_of_not_carries hs hno
    obtain rfl := Except.error.inj (hf.symm.trans hg)
    exact ⟨detail, hm⟩

end Decision

/-- A body is a snapshot or an invalid payload, and the message tells what is wrong: that it is no
valid JSON, or what is wrong with the shape of the value that it carries. -/
structure Judged (room : Nat) (body : List UInt8) : Prop where
  outcome : (∃ s, readWithin room body = .ok s) ∨
    ∃ f, readWithin room body = .error f ∧ f.failure = .payload f.message
  text : ∀ f, readWithin room body = .error f →
    ((∃ detail, f.message = notJson ++ detail) ↔ ∀ v, ¬ Carries v body)
  shape : ∀ v, Carries v body → readWithin room body = (Snapshot.ofJson v).mapError .shape

theorem judged_of_shallow {room : Nat} {body : List UInt8} (hs : Shallow room body) :
    Judged room body where
  outcome := read_or_refused hs
  text _ hf := message_notJson_iff hs hf
  shape _ hv := readWithin_of_carries hs hv

end Payload

/-- What a response that is read comes to is what is made of its body. -/
theorem Client.receive_of_isRead (c : Client) {r : Reply} {asked : Option CacheEntry}
    (h : r.IsRead asked) :
    (c.receive asked (.ok r)).2.1 = (Payload.read r.body).mapError (·.failure) := by
  rw [receive_accept h, accept_outcome]

end FlagPoll
