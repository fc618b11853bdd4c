import FlagPoll.Decimal
import FlagPoll.Text.Lowercase
import Mathlib.Data.List.Chain

/-!
# FlagPoll.Proofs.Text.Lowercase

Lower-case forms of texts.

* `isPlain_lowerChar`       — a small letter is no capital one: the table leads out of itself.
* `lowercase_append`        — the front of a text is as if it stood alone where no word goes on.
* `lowercase_lowercase`     — a text in lower case stays as it is.
* `lowercase_append_digits` — a port behind a host makes no difference to the host.
-/

namespace FlagPoll.Text

/-! ## Characters -/

/-- No small letter of the first range is a capital one of the second: it lies outside, or it falls
between the capital letters, which are every other one. -/
def CaseRange.apart (r s : CaseRange) : Bool :=
  r.last + r.shift < s.first || (s.last : Int) < r.first + r.shift ||
    ((r.step = 2 || r.first = r.last) && s.step = 2 && (r.first + r.shift - s.first) % 2 = 1)

/-- All small letters of a range are characters. -/
def CaseRange.hasScalars (r : CaseRange) : Bool :=
  0 ≤ r.first + r.shift &&
    (r.last + r.shift < 0xD800 || (0xDFFF < r.first + r.shift && r.last + r.shift < 0x110000))

/-- The small letters of a range, which lie between two bounds, are no capital ones of ranges in
ascending order. Ranges beyond the bounds need no closer look. -/
def CaseRange.isClear (r : CaseRange) (low high : Nat) : List CaseRange → Bool
  | [] => true
  | s :: rest =>
    if s.last < low then r.isClear low high rest
    else if high < s.first then true
    else r.apart s && r.isClear low high rest

/-- The capital letter with a dot, whose lower-case form is no single character. -/
def dottedRange : CaseRange := ⟨0x0130, 0x0130, 1, 0⟩

theorem lowerRanges_ascend : lowerRanges.Pairwise fun r s => r.first ≤ s.first := by
  have hchain : (lowerRanges.map (·.first)).IsChain (· ≤ ·) := by decide +kernel
  exact List.pairwise_map.mp (List.isChain_iff_pairwise.mp hchain)

theorem ranges_clear : ∀ r ∈ lowerRanges, r.hasScalars = true ∧ r.apart dottedRange = true ∧
    r.isClear (r.first + r.shift).toNat (r.last + r.shift).toNat lowerRanges = true := by
  decide +kernel

theorem CaseRange.contains_bounds {r : CaseRange} {n : Nat} (h : r.contains n = true) :
    r.first ≤ n ∧ n ≤ r.last := by
  simp only [contains, Bool.and_eq_true, decide_eq_true_eq] at h
  exact h.1

theorem CaseRange.apart_of_isClear {r : CaseRange} {low high n : Nat} {ranges : List CaseRange}
    (hranges : ranges.Pairwise fun r s => r.first ≤ s.first)
    (h : r.isClear low high ranges = true) (hlow : low ≤ n) (hhigh : n ≤ high) :
    ∀ s ∈ ranges, s.contains n = true → r.apart s = true := by
  induction ranges with
  | nil => simp
  | cons s rest ih =>
    obtain ⟨hs, hrest⟩ := List.pairwise_cons.mp hranges
    rw [isClear] at h
    split_ifs at h with hlast hfirst
    · refine List.forall_mem_cons.mpr ⟨fun hc => ?_, ih hrest h⟩
      have := contains_bounds hc
      omega
    · intro t ht hc
      have hle : s.first ≤ t.first := by
        rcases List.mem_cons.mp ht with rfl | ht
        · exact Nat.le_refl _
        · exact hs t ht
      have := contains_bounds hc
      omega
    · rw [Bool.and_eq_true] at h
      exact List.forall_mem_cons.mpr ⟨fun _ => h.1, ih hrest h.2⟩

theorem CaseRange.not_contains {r s : CaseRange} {n : Nat} (hn : r.contains n = true)
    (hr : r.hasScalars = true) (h : r.apart s = true) :
    s.contains ((n : Int) + r.shift).toNat = false := by
  obtain ⟨first, last, step, shift⟩ := r
  obtain ⟨first', last', step', shift'⟩ := s
  simp only [contains, hasScalars, apart, Bool.and_eq_true, Bool.or_eq_true, decide_eq_true_eq,
    Bool.and_eq_false_iff, decide_eq_false_iff_not] at hn hr h ⊢
  rcases h with (h | h) | ⟨⟨rfl | rfl, rfl⟩, h⟩
  all_goals omega

theorem CaseRange.toNat_shifted {r : CaseRange} {n : Nat} (hr : r.contains n = true)
    (h : r.hasScalars = true) :
    (Char.ofNat ((n : Int) + r.shift).toNat).toNat = ((n : Int) + r.shift).toNat := by
  simp only [contains, hasScalars, Bool.and_eq_true, Bool.or_eq_true, decide_eq_true_eq] at hr h
  have hvalid : Nat.isValidChar ((n : Int) + r.shift).toNat := by
    unfold Nat.isValidChar
    omega
  rw [Char.ofNat, dif_pos hvalid]
  rfl

theorem CaseRange.shifted_bounds {r : CaseRange} {n : Nat} (hr : r.contains n = true) :
    (r.first + r.shift).toNat ≤ ((n : Int) + r.shift).toNat ∧
      ((n : Int) + r.shift).toNat ≤ (r.last + r.shift).toNat := by
  have := contains_bounds hr
  omega

/-- A character is no capital letter, so it is its own lower-case form. -/
def IsPlain (c : Char) : Prop := ∀ r ∈ dottedRange :: lowerRanges, r.contains c.toNat = false

instance (c : Char) : Decidable (IsPlain c) :=
  inferInstanceAs (Decidable (∀ r ∈ dottedRange :: lowerRanges, r.contains c.toNat = false))

theorem IsPlain.lowerChar_eq {c : Char} (h : IsPlain c) : lowerChar c = c := by
  have hnone : lowerRanges.find? (·.contains c.toNat) = none :=
    List.find?_eq_none.mpr fun r hr => by simp [h r (List.mem_cons_of_mem _ hr)]
  rw [lowerChar, hnone]

theorem IsPlain.ne_dotted {c : Char} (h : IsPlain c) : c ≠ 'İ' := by
  rintro rfl
  exact absurd (h dottedRange List.mem_cons_self) (by decide)

theorem IsPlain.ne_sigma {c : Char} (h : IsPlain c) : c ≠ 'Σ' := by
  rintro rfl
  exact absurd h.lowerChar_eq (by decide +kernel)

theorem dottedRange_contains_eq_false {c : Char} (hc : c ≠ 'İ') :
    dottedRange.contains c.toNat = false := by
  rw [Bool.eq_false_iff]
  intro h
  obtain ⟨hge, hle⟩ := CaseRange.contains_bounds h
  exact hc (Char.toNat_inj.mp (Nat.le_antisymm hle hge))

theorem isPlain_lowerChar {c : Char} (hc : c ≠ 'İ') : IsPlain (lowerChar c) := by
  unfold lowerChar
  split
  · rename_i r hfind
    have hr : r ∈ lowerRanges := List.mem_of_find?_eq_some hfind
    have hn : r.contains c.toNat = true := by simpa using List.find?_some hfind
    obtain ⟨hscalars, hdotted, hclear⟩ := ranges_clear r hr
    rw [IsPlain, CaseRange.toNat_shifted hn hscalars]
    refine List.forall_mem_cons.mpr ⟨CaseRange.not_contains hn hscalars hdotted, fun s hs => ?_⟩
    rw [Bool.eq_false_iff]
    intro hcontains
    obtain ⟨hlow, hhigh⟩ := CaseRange.shifted_bounds hn
    have hapart := CaseRange.apart_of_isClear lowerRanges_ascend hclear hlow hhigh s hs hcontains
    exact absurd hcontains (by simp [CaseRange.not_contains hn hscalars hapart])
  · rename_i hnone
    refine List.forall_mem_cons.mpr ⟨dottedRange_contains_eq_false hc, fun r hr => ?_⟩
    exact Bool.eq_false_iff.mpr (List.find?_eq_none.mp hnone r hr)

/-! ## Texts -/

variable {xs ys : List Char}

theorem wordGoesOn_append (xs : List Char) (h : wordGoesOn ys = false) :
    wordGoesOn (xs ++ ys) = wordGoesOn xs := by
  induction xs with
  | nil => simpa [wordGoesOn] using h
  | cons c xs ih =>
    by_cases hc : isInsideWord c = true
    · simpa [wordGoesOn, hc] using ih
    · simp [wordGoesOn, hc]

/-- What stands further in front of a text makes no difference to it if no word goes on there. -/
theorem lowerAfter_append_left {before front : List Char} (h : wordGoesOn front = false)
    (cs : List Char) : lowerAfter (before ++ front) cs = lowerAfter before cs := by
  induction cs generalizing before with
  | nil => rfl
  | cons c cs ih =>
    have hrest := @ih (c :: before)
    rw [List.cons_append] at hrest
    rw [lowerAfter, lowerAfter, hrest, wordGoesOn_append before h]

theorem lowerAfter_append (before xs : List Char) (h : wordGoesOn ys = false) :
    lowerAfter before (xs ++ ys) =
      lowerAfter before xs ++ lowerAfter (xs.reverse ++ before) ys := by
  induction xs generalizing before with
  | nil => rfl
  | cons c xs ih =>
    rw [List.cons_append, lowerAfter, lowerAfter, ih, wordGoesOn_append xs h, List.reverse_cons]
    simp

theorem lowercase_append (xs : List Char) (h : wordGoesOn ys = false) :
    lowercase (xs ++ ys) = lowercase xs ++ lowerAfter xs.reverse ys := by
  rw [lowercase, lowerAfter_append [] xs h, List.append_nil]
  rfl

theorem lowerAfter_of_isPlain {cs : List Char} (h : ∀ c ∈ cs, IsPlain c) (before : List Char) :
    lowerAfter before cs = cs := by
  induction cs generalizing before with
  | nil => rfl
  | cons c cs ih =>
    obtain ⟨hc, hcs⟩ := List.forall_mem_cons.mp h
    rw [lowerAfter, if_neg hc.ne_sigma, if_neg hc.ne_dotted, hc.lowerChar_eq, ih hcs]
    rfl

theorem isPlain_lowerAfter {cs : List Char} (before : List Char) :
    ∀ c ∈ lowerAfter before cs, IsPlain c := by
  induction cs generalizing before with
  | nil => simp [lowerAfter]
  | cons c cs ih =>
    have hsigmas : IsPlain 'ς' ∧ IsPlain 'σ' ∧ IsPlain 'i' ∧ IsPlain '\u0307' := by
      decide +kernel
    obtain ⟨hfinal, hinner, hi, hdot⟩ := hsigmas
    intro d hd
    rcases List.mem_append.mp hd with hd | hd
    · split at hd
      · rw [List.mem_singleton.mp hd]
        split
        · exact hfinal
        · exact hinner
      · split at hd
        · simp only [List.mem_cons, List.not_mem_nil, or_false] at hd
          rcases hd with rfl | rfl
          · exact hi
          · exact hdot
        · rename_i hc
          rw [List.mem_singleton.mp hd]
          exact isPlain_lowerChar hc
    · exact ih _ d hd

theorem lowercase_lowercase (cs : List Char) : lowercase (lowercase cs) = lowercase cs :=
  lowerAfter_of_isPlain (isPlain_lowerAfter []) []

/-- A character that is neither a letter nor passed over divides a text: both sides are as if they
stood alone. -/
theorem lowercase_append_cons {c : Char} (hinside : isInsideWord c = false)
    (hcased : isCased c = false) (hplain : IsPlain c) (xs ys : List Char) :
    lowercase (xs ++ c :: ys) = lowercase xs ++ c :: lowercase ys := by
  have hstop (zs : List Char) : wordGoesOn (c :: zs) = false := by
    simp [wordGoesOn, hinside, hcased]
  have hback : lowerAfter ([] ++ c :: xs.reverse) ys = lowerAfter [] ys :=
    lowerAfter_append_left (hstop _) ys
  rw [lowercase_append xs (hstop ys), lowerAfter, if_neg hplain.ne_sigma, if_neg hplain.ne_dotted,
    hplain.lowerChar_eq, ← List.nil_append (c :: xs.reverse), hback]
  rfl

theorem isPlain_of_isDigit {c : Char} (h : Decimal.isDigit c = true) :
    IsPlain c ∧ isInsideWord c = false ∧ isCased c = false := by
  have hdigits : ∀ n < 58, 48 ≤ n → IsPlain (Char.ofNat n) ∧
      isInsideWord (Char.ofNat n) = false ∧ isCased (Char.ofNat n) = false := by
    decide +kernel
  simp only [Decimal.isDigit, Bool.and_eq_true, decide_eq_true_eq, Char.le_def,
    UInt32.le_iff_toNat_le] at h
  have hlt : c.toNat < 58 := Nat.lt_succ_of_le h.2
  have hle : 48 ≤ c.toNat := h.1
  simpa using hdigits c.toNat hlt hle

theorem lowercase_ne_nil {xs : List Char} (h : xs ≠ []) : lowercase xs ≠ [] := by
  obtain ⟨c, cs, rfl⟩ := List.exists_cons_of_ne_nil h
  simp only [lowercase, lowerAfter]
  split_ifs <;> simp

/-- A colon may stand inside a word, but no word goes on with digits. -/
theorem lowercase_append_digits (xs : List Char) {ds : List Char}
    (h : ∀ d ∈ ds, Decimal.isDigit d = true) :
    lowercase (xs ++ ':' :: ds) = lowercase xs ++ ':' :: ds := by
  have hcolon : isInsideWord ':' = true ∧ IsPlain ':' := by decide +kernel
  have hstop : wordGoesOn (':' :: ds) = false := by
    cases ds with
    | nil => simp [wordGoesOn, hcolon.1]
    | cons d ds =>
      have hd := isPlain_of_isDigit (h d List.mem_cons_self)
      simp [wordGoesOn, hcolon.1, hd.2.1, hd.2.2]
  have hplain : ∀ c ∈ ':' :: ds, IsPlain c :=
    List.forall_mem_cons.mpr ⟨hcolon.2, fun d hd => (isPlain_of_isDigit (h d hd)).1⟩
  rw [lowercase_append xs hstop, lowerAfter_of_isPlain hplain]

end FlagPoll.Text
