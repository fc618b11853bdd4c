import FlagPoll.Proofs.Text.Utf8
import FlagPoll.Text.FormUrl

/-!
# FlagPoll.Proofs.Text.FormUrl

Form encoding loses nothing, whatever the text is.

* `IsForm`        — texts of plain characters, `+`, and `%` with two hexadecimal digits.
* `isForm_encode` — every text is encoded as such a text.
* `decode_encode` — and it is read back from it.
-/

namespace FlagPoll.FormUrl

/-- Letters and digits of ASCII and `_ . - ~`. -/
def IsPlain (c : Char) : Prop :=
  ('A' ≤ c ∧ c ≤ 'Z') ∨ ('a' ≤ c ∧ c ≤ 'z') ∨ ('0' ≤ c ∧ c ≤ '9') ∨
    c = '_' ∨ c = '.' ∨ c = '-' ∨ c = '~'

/-- Hexadecimal digits with capital letters. -/
def IsHex (c : Char) : Prop := ('0' ≤ c ∧ c ≤ '9') ∨ ('A' ≤ c ∧ c ≤ 'F')

instance : DecidablePred IsHex := fun _ => inferInstanceAs (Decidable (_ ∨ _))

inductive IsForm : List Char → Prop where
  | nil : IsForm []
  | plain {c : Char} {cs : List Char} (h : IsPlain c) (hcs : IsForm cs) : IsForm (c :: cs)
  | plus {cs : List Char} (hcs : IsForm cs) : IsForm ('+' :: cs)
  | percent {x y : Char} {cs : List Char} (hx : IsHex x) (hy : IsHex y) (hcs : IsForm cs) :
      IsForm ('%' :: x :: y :: cs)

theorem isPlain_iff {c : Char} : isPlain c = true ↔ IsPlain c := by
  have hclasses : isPlain c =
      (((decide ('A' ≤ c ∧ c ≤ 'Z') || decide ('a' ≤ c) && decide (c ≤ 'z'))
        || decide ('0' ≤ c) && decide (c ≤ '9')) || c = '_' || c = '.' || c = '-' || c = '~') := rfl
  simp only [hclasses, IsPlain, Bool.or_eq_true, Bool.and_eq_true, decide_eq_true_eq, or_assoc]

instance : DecidablePred IsPlain := fun _ => decidable_of_iff _ isPlain_iff

theorem IsHex.isPlain {c : Char} (h : IsHex c) : IsPlain c := by
  rcases h with h | ⟨hl, hu⟩
  · exact .inr (.inr (.inl h))
  · exact .inl ⟨hl, Char.le_trans hu (by decide)⟩

/-! ## The characters of an encoded text -/

/-- What stands in an encoded text besides the plain characters separates nothing in an address. -/
theorem IsForm.mem {cs : List Char} (h : IsForm cs) {c : Char} (hc : c ∈ cs) :
    IsPlain c ∨ c = '+' ∨ c = '%' := by
  induction h with
  | nil => contradiction
  | plain hplain _ ih =>
    rcases List.mem_cons.mp hc with rfl | hc
    · exact .inl hplain
    · exact ih hc
  | plus _ ih =>
    rcases List.mem_cons.mp hc with rfl | hc
    · exact .inr (.inl rfl)
    · exact ih hc
  | percent hx hy _ ih =>
    simp only [List.mem_cons] at hc
    rcases hc with rfl | rfl | rfl | hc
    · exact .inr (.inr rfl)
    · exact .inl hx.isPlain
    · exact .inl hy.isPlain
    · exact ih hc

theorem IsForm.append {as bs : List Char} (ha : IsForm as) (hb : IsForm bs) : IsForm (as ++ bs) := by
  induction ha with
  | nil => exact hb
  | plain h _ ih => exact .plain h ih
  | plus _ ih => exact .plus ih
  | percent hx hy _ ih => exact .percent hx hy ih

theorem isForm_flatMap {α : Type} {f : α → List Char} (h : ∀ a, IsForm (f a)) (as : List α) :
    IsForm (as.flatMap f) := by
  induction as with
  | nil => exact .nil
  | cons a as ih =>
    rw [List.flatMap_cons]
    exact (h a).append ih

theorem isHex_upperHex : ∀ n < 16, IsHex (upperHex n) := by decide

theorem hexValue?_upperHex : ∀ n < 16, hexValue? (upperHex n) = some n := by decide

theorem isForm_percent (b : UInt8) : IsForm (percent b) := by
  have hb := b.toNat_lt
  exact .percent (isHex_upperHex _ (by omega)) (isHex_upperHex _ (by omega)) .nil

theorem isForm_encodeChar (c : Char) : IsForm (encodeChar c) := by
  unfold encodeChar
  split
  · rename_i hplain
    exact .plain (isPlain_iff.mp hplain) .nil
  · split
    · exact .plus .nil
    · exact isForm_flatMap isForm_percent _

theorem isForm_encode (cs : List Char) : IsForm (encode cs) := isForm_flatMap isForm_encodeChar cs

example : encode "a b&c=é/%\n".toList = "a+b%26c%3D%C3%A9%2F%25%0A".toList := by decide

/-! ## The way back -/

theorem octets_cons {c : Char} (h : c ≠ '%') (rest : List Char) :
    octets (c :: rest) =
      (octets rest).map (Utf8.encodeChar (if c = '+' then ' ' else c) ++ ·) := by
  rw [octets, if_neg h]
  rintro a b rest' ⟨⟩
  exact absurd rfl h

theorem octets_percent (b : UInt8) (rest : List Char) :
    octets (percent b ++ rest) = (octets rest).map (b :: ·) := by
  have hb := b.toNat_lt
  have hvalue : UInt8.ofNat (16 * (b.toNat / 16) + b.toNat % 16) = b := by
    rw [Nat.div_add_mod, UInt8.ofNat_toNat]
  simp only [percent, List.cons_append, List.nil_append, octets,
    hexValue?_upperHex _ (show b.toNat / 16 < 16 by omega),
    hexValue?_upperHex _ (show b.toNat % 16 < 16 by omega), hvalue]

theorem octets_flatMap_percent (bytes : List UInt8) (rest : List Char) :
    octets (bytes.flatMap percent ++ rest) = (octets rest).map (bytes ++ ·) := by
  induction bytes with
  | nil => simp
  | cons b bytes ih =>
    rw [List.flatMap_cons, List.append_assoc, octets_percent, ih, Option.map_map]
    rfl

/-- Of the three forms of a character, each is read as the octets of the character. -/
theorem octets_encodeChar (c : Char) (rest : List Char) :
    octets (encodeChar c ++ rest) = (octets rest).map (Utf8.encodeChar c ++ ·) := by
  unfold encodeChar
  split
  · rename_i hplain
    have hpercent : c ≠ '%' := by
      rintro rfl
      exact absurd hplain (by decide)
    have hplus : c ≠ '+' := by
      rintro rfl
      exact absurd hplain (by decide)
    rw [List.singleton_append, octets_cons hpercent, if_neg hplus]
  · split
    · rename_i hblank
      subst hblank
      exact octets_cons (by decide) rest
    · exact octets_flatMap_percent _ rest

theorem octets_encode (cs : List Char) : octets (encode cs) = some (Utf8.encode cs) := by
  induction cs with
  | nil => rfl
  | cons c cs ih =>
    rw [encode, List.flatMap_cons, octets_encodeChar, ← encode, ih]
    rfl

theorem decode_encode (cs : List Char) : decode? (encode cs) = some cs := by
  simp only [decode?, octets_encode, Utf8.decode_encode]
  rfl

end FlagPoll.FormUrl
