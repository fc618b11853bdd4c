import FlagPoll.Text.Utf8

/-!
# FlagPoll.Proofs.Text.Utf8

Reading the octets of a text gives the text, and no other octets are read.

* `lead_two`, `lead_three`, `lead_four` — what the first octet of a longer character announces.
* `decodeFrom_encodeChar`               — the octets of one character are read as this character.
* `decode_encode`                       — the octets of a text are read as this text.
* `encode_of_decodeFrom`                — what is read as a text are the octets of this text.
-/

namespace FlagPoll.Utf8

theorem toNat_ofNat {n : Nat} (h : n < 256) : (UInt8.ofNat n).toNat = n := by
  rw [UInt8.toNat_ofNat']
  exact Nat.mod_eq_of_lt h

theorem lead_one {n : Nat} (h : n < 0x80) : lead (.ofNat n) = .alone (Char.ofNat n) := by
  simp only [lead, toNat_ofNat (show n < 256 by omega), h, if_true]

theorem lead_two {n : Nat} (hl : 0xC2 ≤ n) (hu : n < 0xE0) :
    lead (.ofNat n) = .begun ⟨.ofNat n, 1, 0, 0x80, 0xBF, n - 0xC0⟩ := by
  have h1 : ¬ n < 0x80 := by omega
  have h2 : ¬ n < 0xC2 := by omega
  simp only [lead, toNat_ofNat (show n < 256 by omega), h1, h2, hu, if_true, if_false]

theorem lead_three {n : Nat} (hl : 0xE0 ≤ n) (hu : n < 0xF0) :
    lead (.ofNat n) = .begun ⟨.ofNat n, 1, 1, if n = 0xE0 then 0xA0 else 0x80,
      if n = 0xED then 0x9F else 0xBF, n - 0xE0⟩ := by
  have h1 : ¬ n < 0x80 := by omega
  have h2 : ¬ n < 0xC2 := by omega
  have h3 : ¬ n < 0xE0 := by omega
  simp only [lead, toNat_ofNat (show n < 256 by omega), h1, h2, h3, hu, if_true, if_false]

theorem lead_four {n : Nat} (hl : 0xF0 ≤ n) (hu : n < 0xF5) :
    lead (.ofNat n) = .begun ⟨.ofNat n, 1, 2, if n = 0xF0 then 0x90 else 0x80,
      if n = 0xF4 then 0x8F else 0xBF, n - 0xF0⟩ := by
  have h1 : ¬ n < 0x80 := by omega
  have h2 : ¬ n < 0xC2 := by omega
  have h3 : ¬ n < 0xE0 := by omega
  have h4 : ¬ n < 0xF0 := by omega
  simp only [lead, toNat_ofNat (show n < 256 by omega), h1, h2, h3, h4, hu, if_true, if_false]

theorem decodeFrom_begun {position : Nat} {b : UInt8} {g : Begun} (rest : List UInt8)
    (h : lead b = .begun g) :
    decodeFrom position none (b :: rest) = decodeFrom (position + 1) (some g) rest := by
  simp only [decodeFrom, h]

/-- An octet within its bounds that another one has to follow. -/
theorem decodeFrom_push {position n more : Nat} {g : Begun} (rest : List UInt8)
    (hn : n < 256) (hl : g.low ≤ n) (hu : n ≤ g.high) (hm : g.more = more + 1) :
    decodeFrom position (some g) (.ofNat n :: rest) =
      decodeFrom (position + 1)
        (some ⟨g.first, g.taken + 1, more, 0x80, 0xBF, g.bits * 64 + (n - 0x80)⟩) rest := by
  simp only [decodeFrom, toNat_ofNat hn, hl, hu, and_self, if_true, hm, Begun.push,
    Nat.add_sub_cancel]

/-- An octet within its bounds that is the last one of its character. -/
theorem decodeFrom_last {position n : Nat} {g : Begun} (rest : List UInt8)
    (hn : n < 256) (hl : g.low ≤ n) (hu : n ≤ g.high) (hm : g.more = 0) :
    decodeFrom position (some g) (.ofNat n :: rest) =
      (decodeFrom (position + 1) none rest).map
        (Char.ofNat (g.bits * 64 + (n - 0x80)) :: ·) := by
  simp only [decodeFrom, toNat_ofNat hn, hl, hu, and_self, if_true, hm, Begun.push]

theorem toNat_bounds (c : Char) :
    c.toNat < 0xD800 ∨ 0xDFFF < c.toNat ∧ c.toNat < 0x110000 := by
  have h := c.valid
  simp only [UInt32.isValidChar, Nat.isValidChar] at h
  exact h

/-- The bounds of the second octet keep out surrogates and what is above the last character: no
character has octets outside of them. -/
theorem decodeFrom_encodeChar (position : Nat) (c : Char) (rest : List UInt8) :
    decodeFrom position none (encodeChar c ++ rest) =
      (decodeFrom (position + (encodeChar c).length) none rest).map (c :: ·) := by
  obtain ⟨n, hn⟩ : ∃ n, c.toNat = n := ⟨_, rfl⟩
  have hc : Char.ofNat n = c := hn ▸ Char.ofNat_toNat c
  have valid := toNat_bounds c
  rw [hn] at valid
  rw [encodeChar, hn]
  by_cases h1 : n < 0x80
  · simp [h1, decodeFrom, lead_one h1, hc]
  by_cases h2 : n < 0x800
  · simp only [h1, h2, if_true, if_false, List.cons_append, List.nil_append]
    rw [decodeFrom_begun _ (lead_two (by omega) (by omega)),
      decodeFrom_last _ (by omega) (by dsimp only; omega) (by dsimp only; omega) rfl]
    have bits : (0xC0 + n / 64 - 0xC0) * 64 + (0x80 + n % 64 - 0x80) = n := by omega
    simp only [bits, hc]
    rfl
  by_cases h3 : n < 0x10000
  · simp only [h1, h2, h3, if_true, if_false, List.cons_append, List.nil_append]
    rw [decodeFrom_begun _ (lead_three (by omega) (by omega)),
      decodeFrom_push _ (by omega) (by dsimp only; split <;> omega)
        (by dsimp only; split <;> omega) rfl,
      decodeFrom_last _ (by omega) (by dsimp only; omega) (by dsimp only; omega) rfl]
    have bits : ((0xE0 + n / 4096 - 0xE0) * 64 + (0x80 + n / 64 % 64 - 0x80)) * 64
        + (0x80 + n % 64 - 0x80) = n := by omega
    simp only [bits, hc]
    rfl
  · simp only [h1, h2, h3, if_false, List.cons_append, List.nil_append]
    rw [decodeFrom_begun _ (lead_four (by omega) (by omega)),
      decodeFrom_push _ (by omega) (by dsimp only; split <;> omega)
        (by dsimp only; split <;> omega) rfl,
      decodeFrom_push _ (by omega) (by dsimp only; omega) (by dsimp only; omega) rfl,
      decodeFrom_last _ (by omega) (by dsimp only; omega) (by dsimp only; omega) rfl]
    have bits : (((0xF0 + n / 262144 - 0xF0) * 64 + (0x80 + n / 4096 % 64 - 0x80)) * 64
        + (0x80 + n / 64 % 64 - 0x80)) * 64 + (0x80 + n % 64 - 0x80) = n := by omega
    simp only [bits, hc]
    rfl

theorem decodeFrom_encode (position : Nat) (cs : List Char) :
    decodeFrom position none (encode cs) = .ok cs := by
  induction cs generalizing position with
  | nil => rfl
  | cons c cs ih =>
    rw [encode, List.flatMap_cons, decodeFrom_encodeChar, ← encode, ih]
    rfl

theorem decode_encode (cs : List Char) : decode (encode cs) = .ok cs := decodeFrom_encode 0 cs

/-! ## Octets that are read -/

theorem toNat_charOfNat {n : Nat} (h : n < 0xD800 ∨ 0xDFFF < n ∧ n < 0x110000) :
    (Char.ofNat n).toNat = n := by
  have hv : n.isValidChar := h
  rw [Char.ofNat, dif_pos hv]
  rfl

theorem ofNat_eq {n : Nat} {b : UInt8} (h : n = b.toNat) : UInt8.ofNat n = b := by
  rw [h, UInt8.ofNat_toNat]

theorem encodeChar_one {b : UInt8} (hb : b.toNat < 0x80) : encodeChar (Char.ofNat b.toNat) = [b] := by
  rw [encodeChar, toNat_charOfNat (by omega), if_pos hb, ofNat_eq rfl]

theorem encodeChar_two {b c : UInt8} (hb : 0xC2 ≤ b.toNat ∧ b.toNat < 0xE0)
    (hc : 0x80 ≤ c.toNat ∧ c.toNat ≤ 0xBF) :
    encodeChar (Char.ofNat ((b.toNat - 0xC0) * 64 + (c.toNat - 0x80))) = [b, c] := by
  generalize hn : (b.toNat - 0xC0) * 64 + (c.toNat - 0x80) = n
  have h1 : ¬ n < 0x80 := by omega
  have h2 : n < 0x800 := by omega
  rw [encodeChar, toNat_charOfNat (by omega)]
  simp only [h1, h2, if_true, if_false]
  rw [ofNat_eq (b := b) (by omega), ofNat_eq (b := c) (by omega)]

/-- The bounds of the second octet see to it that the character needs three octets and is no
surrogate. -/
theorem encodeChar_three {b c d : UInt8} (hb : 0xE0 ≤ b.toNat ∧ b.toNat < 0xF0)
    (hc : (if b.toNat = 0xE0 then 0xA0 else 0x80) ≤ c.toNat ∧
      c.toNat ≤ if b.toNat = 0xED then 0x9F else 0xBF)
    (hd : 0x80 ≤ d.toNat ∧ d.toNat ≤ 0xBF) :
    encodeChar (Char.ofNat (((b.toNat - 0xE0) * 64 + (c.toNat - 0x80)) * 64 + (d.toNat - 0x80))) =
      [b, c, d] := by
  generalize hn : ((b.toNat - 0xE0) * 64 + (c.toNat - 0x80)) * 64 + (d.toNat - 0x80) = n
  have hc' : 0x80 ≤ c.toNat ∧ c.toNat ≤ 0xBF := by
    constructor
    · split at hc <;> omega
    · obtain ⟨-, hc⟩ := hc
      split at hc <;> omega
  have h2 : ¬ n < 0x800 := by
    by_cases he : b.toNat = 0xE0
    · rw [if_pos he] at hc
      omega
    · omega
  have valid : n < 0xD800 ∨ 0xDFFF < n := by
    by_cases he : b.toNat = 0xED
    · rw [if_pos he] at hc
      omega
    · omega
  have h3 : n < 0x10000 := by omega
  have h1 : ¬ n < 0x80 := by omega
  rw [encodeChar, toNat_charOfNat (by omega)]
  simp only [h1, h2, h3, if_true, if_false]
  rw [ofNat_eq (b := b) (by omega), ofNat_eq (b := c) (by omega), ofNat_eq (b := d) (by omega)]

/-- The bounds of the second octet see to it that the character needs four octets and is none
beyond the last one. -/
theorem encodeChar_four {b c d e : UInt8} (hb : 0xF0 ≤ b.toNat ∧ b.toNat < 0xF5)
    (hc : (if b.toNat = 0xF0 then 0x90 else 0x80) ≤ c.toNat ∧
      c.toNat ≤ if b.toNat = 0xF4 then 0x8F else 0xBF)
    (hd : 0x80 ≤ d.toNat ∧ d.toNat ≤ 0xBF) (he : 0x80 ≤ e.toNat ∧ e.toNat ≤ 0xBF) :
    encodeChar (Char.ofNat ((((b.toNat - 0xF0) * 64 + (c.toNat - 0x80)) * 64 +
      (d.toNat - 0x80)) * 64 + (e.toNat - 0x80))) = [b, c, d, e] := by
  generalize hn : (((b.toNat - 0xF0) * 64 + (c.toNat - 0x80)) * 64 + (d.toNat - 0x80)) * 64 +
    (e.toNat - 0x80) = n
  have hc' : 0x80 ≤ c.toNat ∧ c.toNat ≤ 0xBF := by
    constructor
    · split at hc <;> omega
    · obtain ⟨-, hc⟩ := hc
      split at hc <;> omega
  have h3 : ¬ n < 0x10000 := by
    by_cases hf : b.toNat = 0xF0
    · rw [if_pos hf] at hc
      omega
    · omega
  have valid : n < 0x110000 := by
    by_cases hf : b.toNat = 0xF4
    · rw [if_pos hf] at hc
      omega
    · omega
  have h1 : ¬ n < 0x80 := by omega
  have h2 : ¬ n < 0x800 := by omega
  rw [encodeChar, toNat_charOfNat (by omega)]
  simp only [h1, h2, h3, if_false]
  rw [ofNat_eq (b := b) (by omega), ofNat_eq (b := c) (by omega), ofNat_eq (b := d) (by omega),
    ofNat_eq (b := e) (by omega)]

/-- A character that has begun goes on with an octet within its bounds. -/
theorem decodeFrom_some_ok {position : Nat} {g : Begun} {bytes : List UInt8} {cs : List Char}
    (h : decodeFrom position (some g) bytes = .ok cs) :
    ∃ b rest, bytes = b :: rest ∧ (g.low ≤ b.toNat ∧ b.toNat ≤ g.high) ∧
      match g.more with
      | 0 => ∃ ds, decodeFrom (position + 1) none rest = .ok ds ∧
          cs = Char.ofNat (g.bits * 64 + (b.toNat - 0x80)) :: ds
      | more + 1 => decodeFrom (position + 1)
          (some ⟨g.first, g.taken + 1, more, 0x80, 0xBF, g.bits * 64 + (b.toNat - 0x80)⟩) rest =
            .ok cs := by
  cases bytes with
  | nil => simp [decodeFrom] at h
  | cons b rest =>
    simp only [decodeFrom] at h
    split at h
    · rename_i hb
      refine ⟨b, rest, rfl, hb, ?_⟩
      cases hm : g.more with
      | zero =>
        simp only [hm] at h
        cases hd : decodeFrom (position + 1) none rest with
        | error f => simp [hd, Except.map] at h
        | ok ds =>
          rw [hd] at h
          exact ⟨ds, rfl, (Except.ok.inj h).symm⟩
      | succ more =>
        simp only [hm] at h
        simpa only [Begun.push, hm, Nat.succ_sub_one] using h
    · cases h

/-- What is read begins with the octets of a character. -/
theorem decodeFrom_none_ok {position : Nat} {bytes : List UInt8} {cs : List Char}
    (h : decodeFrom position none bytes = .ok cs) (hne : bytes ≠ []) :
    ∃ c rest position' ds, bytes = encodeChar c ++ rest ∧ cs = c :: ds ∧
      decodeFrom position' none rest = .ok ds := by
  obtain ⟨b, rest, rfl⟩ := List.exists_cons_of_ne_nil hne
  simp only [decodeFrom, lead] at h
  by_cases h1 : b.toNat < 0x80
  · simp only [h1, if_true] at h
    cases hd : decodeFrom (position + 1) none rest with
    | error f => simp [hd, Except.map] at h
    | ok ds =>
      rw [hd] at h
      exact ⟨_, rest, _, ds, by rw [encodeChar_one h1]; rfl, (Except.ok.inj h).symm, hd⟩
  by_cases h2 : b.toNat < 0xC2
  · simp [h1, h2] at h
  by_cases h3 : b.toNat < 0xE0
  · simp only [h1, h2, h3, if_true, if_false] at h
    obtain ⟨c, rest, rfl, hc, ds, hd, rfl⟩ := decodeFrom_some_ok h
    exact ⟨_, rest, _, ds, by rw [encodeChar_two (by omega) hc]; rfl, rfl, hd⟩
  by_cases h4 : b.toNat < 0xF0
  · simp only [h1, h2, h3, h4, if_true, if_false] at h
    obtain ⟨c, rest, rfl, hc, h⟩ := decodeFrom_some_ok h
    obtain ⟨d, rest, rfl, hd, ds, hr, rfl⟩ := decodeFrom_some_ok h
    exact ⟨_, rest, _, ds, by rw [encodeChar_three (by omega) hc hd]; rfl, rfl, hr⟩
  by_cases h5 : b.toNat < 0xF5
  · simp only [h1, h2, h3, h4, h5, if_true, if_false] at h
    obtain ⟨c, rest, rfl, hc, h⟩ := decodeFrom_some_ok h
    obtain ⟨d, rest, rfl, hd, h⟩ := decodeFrom_some_ok h
    obtain ⟨e, rest, rfl, he, ds, hr, rfl⟩ := decodeFrom_some_ok h
    exact ⟨_, rest, _, ds, by rw [encodeChar_four (by omega) hc hd he]; rfl, rfl, hr⟩
  · simp [h1, h2, h3, h4, h5] at h

theorem encodeChar_ne_nil (c : Char) : encodeChar c ≠ [] := by
  unfold encodeChar
  dsimp only
  split
  · simp
  · split
    · simp
    · split <;> simp

theorem encode_of_decodeFrom {position : Nat} {bytes : List UInt8} {cs : List Char}
    (h : decodeFrom position none bytes = .ok cs) : encode cs = bytes := by
  induction hl : bytes.length using Nat.strongRecOn generalizing position bytes cs with
  | _ k ih =>
    by_cases hne : bytes = []
    · subst hne
      obtain rfl : [] = cs := Except.ok.inj h
      rfl
    · obtain ⟨c, rest, position', ds, rfl, rfl, hd⟩ := decodeFrom_none_ok h hne
      have shorter : rest.length < k := by
        rw [← hl, List.length_append]
        have := List.length_pos_iff.mpr (encodeChar_ne_nil c)
        omega
      rw [encode, List.flatMap_cons, ← encode, ih _ shorter hd rfl]

/-- Exactly the octets of texts are read. -/
theorem decode_eq_ok_iff {bytes : List UInt8} {cs : List Char} :
    decode bytes = .ok cs ↔ encode cs = bytes := by
  constructor
  · exact encode_of_decodeFrom
  · rintro rfl
    exact decode_encode cs

theorem length_le_encode (cs : List Char) : cs.length ≤ (encode cs).length := by
  induction cs with
  | nil => exact Nat.le_refl _
  | cons c cs ih =>
    have := List.length_pos_iff.mpr (encodeChar_ne_nil c)
    rw [encode, List.flatMap_cons, ← encode, List.length_append, List.length_cons]
    omega

end FlagPoll.Utf8
