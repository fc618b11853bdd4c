import FlagPoll.Proofs.Json.Reading
import FlagPoll.Proofs.Json.Spelling

/-!
# FlagPoll.Proofs.Json.Accepting

Exactly the spellings of values are read, unless they are nested too deeply.

* `units_of_unitsSpelling`, `number_of_numberText` and the lemmas back — strings and numbers.
* `Sound`, `written_of_document`      — what is read as a value is spelled as it.
* `Accepts`, `comes_of_written`       — what is spelled as a value is read as it.
* `document_eq_ok_iff`                — both, for whole texts.
* `Deep`, `not_isTooDeep_of_length`   — what is nested too deeply is longer than there is room for.
-/

namespace FlagPoll.Json.Reader

theorem exists_of_map {α β : Type} {r : Except Fault α} {g : α → β} {b : β}
    (h : r.map g = .ok b) : ∃ a, r = .ok a ∧ g a = b := by
  cases r with
  | error f => cases h
  | ok a => exact ⟨a, rfl, Except.ok.inj h⟩

/-! ## What is read: blanks and strings -/

theorem blank_skip (cs : List Char) : ∃ b, Blank b ∧ cs = b ++ skip cs := by
  refine ⟨cs.takeWhile isSpace, fun c hc => ?_, List.takeWhile_append_dropWhile.symm⟩
  have hs : isSpace c = true := List.all_eq_true.mp List.all_takeWhile c hc
  simpa [isSpace, or_assoc] using hs

theorem hexDigit_of_hexValue? {c : Char} {n : Nat} (h : hexValue? c = some n) : HexDigit n c := by
  have table : ∀ k < 128, ∀ m < 16, hexValue? (Char.ofNat k) = some m →
      Char.ofNat k = Nat.digitChar m ∨ Char.ofNat k = (Nat.digitChar m).toUpper := by decide
  have bounds : c.toNat < 128 ∧ n < 16 := by
    simp only [hexValue?, Char.le_def, UInt32.le_iff_toNat_le] at h
    have e : c.toNat = c.val.toNat := rfl
    split at h
    · obtain rfl := Option.some.inj h
      simp only [Char.reduceVal, UInt32.reduceToNat] at *
      omega
    · split at h
      · obtain rfl := Option.some.inj h
        simp only [Char.reduceVal, UInt32.reduceToNat] at *
        omega
      · split at h
        · obtain rfl := Option.some.inj h
          simp only [Char.reduceVal, UInt32.reduceToNat] at *
          omega
        · cases h
  have found := table c.toNat bounds.1 n bounds.2
  rw [Char.ofNat_toNat] at found
  rcases found h with rfl | rfl
  · exact .small bounds.2
  · exact .capital bounds.2

theorem unitText_of_hex4? {a b c d : Char} {n : Nat} (h : hex4? a b c d = some n) :
    UnitText n ['\\', 'u', a, b, c, d] := by
  simp only [hex4?, bind, Option.bind_eq_some_iff, pure, Option.some.injEq] at h
  obtain ⟨p, hp, q, hq, r, hr, s, hs, rfl⟩ := h
  exact .mk (hexDigit_of_hexValue? hp) (hexDigit_of_hexValue? hq) (hexDigit_of_hexValue? hr)
    (hexDigit_of_hexValue? hs)

theorem mem_shortEscapes {x y : Char} (h : escaped? x = some y) : (y, x) ∈ shortEscapes := by
  unfold escaped? at h
  split at h <;> first | (obtain rfl := Option.some.inj h; decide) | cases h

theorem unitsSpelling_of_units {quote cs rest : List Char} {us : List Nat}
    (h : units quote cs = .ok (us, rest)) : ∃ t, cs = t ++ '"' :: rest ∧ UnitsSpelling us t := by
  fun_induction units quote cs generalizing us with
  | case2 rest' =>
    obtain ⟨rfl, rfl⟩ := Prod.mk.inj (Except.ok.inj h)
    exact ⟨[], rfl, .nil⟩
  | case4 a b d e n x more hn _ ih =>
    obtain ⟨⟨us', r⟩, hu, he⟩ := exists_of_map h
    obtain ⟨rfl, rfl⟩ := Prod.mk.inj he
    obtain ⟨t, ht, hs⟩ := ih hu
    exact ⟨['\\', 'u', a, b, d, e] ++ t, by simp [ht], .unit (unitText_of_hex4? hn) hs⟩
  | case7 x more _ y hy _ ih =>
    obtain ⟨⟨us', r⟩, hu, he⟩ := exists_of_map h
    obtain ⟨rfl, rfl⟩ := Prod.mk.inj he
    obtain ⟨t, rfl, hs⟩ := ih hu
    exact ⟨'\\' :: x :: t, rfl, .short (mem_shortEscapes hy) hs⟩
  | case10 c rest' hq hb hc ih =>
    obtain ⟨⟨us', r⟩, hu, he⟩ := exists_of_map h
    obtain ⟨rfl, rfl⟩ := Prod.mk.inj he
    obtain ⟨t, rfl, hs⟩ := ih hu
    exact ⟨c :: t, rfl, .raw (Nat.le_of_not_lt hc) hq hb hs⟩
  | _ => cases h

theorem unitsSpelling_of_string {cs rest : List Char} {s : CodePoints}
    (h : string cs = .ok (s, rest)) :
    ∃ us t, s = ⟨join us⟩ ∧ cs = t ++ '"' :: rest ∧ UnitsSpelling us t := by
  obtain ⟨⟨us, r⟩, hu, he⟩ := exists_of_map h
  obtain ⟨rfl, rfl⟩ := Prod.mk.inj he
  obtain ⟨t, ht, hs⟩ := unitsSpelling_of_units hu
  exact ⟨us, t, rfl, ht, hs⟩

/-! ## What is read: numbers -/

theorem isDigit_of_mem_digits {cs : List Char} {c : Char} (h : c ∈ Decimal.digits cs) :
    Decimal.isDigit c = true := List.all_eq_true.mp List.all_takeWhile c h

theorem digits_of_not_isEmpty {cs : List Char} (h : (Decimal.digits cs).isEmpty = false) :
    Digits (Decimal.digits cs) :=
  ⟨fun he => by simp [he] at h, fun _ hc => isDigit_of_mem_digits hc⟩

theorem wholeText_of_readWhole {cs whole rest : List Char}
    (h : Decimal.Numeral.readWhole cs = some (whole, rest)) :
    cs = whole ++ rest ∧ WholeText whole := by
  unfold Decimal.Numeral.readWhole at h
  split at h
  · cases h
  · obtain ⟨rfl, rfl⟩ := Prod.mk.inj (Option.some.inj h)
    have zero : Digits ['0'] := by
      refine ⟨List.cons_ne_nil _ _, fun c hc => ?_⟩
      rw [List.mem_singleton.mp hc]
      rfl
    exact ⟨rfl, zero, .inl rfl⟩
  · rename_i c cs hc
    split at h
    · rename_i hd
      obtain ⟨rfl, rfl⟩ := Prod.mk.inj (Option.some.inj h)
      have first : Decimal.digits (c :: cs) = c :: Decimal.digits cs := List.takeWhile_cons_of_pos hd
      refine ⟨(Decimal.digits_append_afterDigits _).symm,
        ⟨by simp [first], fun _ hm => isDigit_of_mem_digits hm⟩, .inr ?_⟩
      rw [first]
      intro he
      exact hc (Option.some.inj he)
    · cases h

theorem fractionText_of_readFraction {cs rest : List Char} {f : Option (List Char)}
    (h : Decimal.Numeral.readFraction cs = (f, rest)) : ∃ t, cs = t ++ rest ∧ FractionText f t := by
  unfold Decimal.Numeral.readFraction at h
  split at h
  · rename_i cs
    split at h
    · obtain ⟨rfl, rfl⟩ := Prod.mk.inj h
      exact ⟨[], rfl, .none⟩
    · rename_i hd
      obtain ⟨rfl, rfl⟩ := Prod.mk.inj h
      refine ⟨'.' :: Decimal.digits cs, ?_, .some (digits_of_not_isEmpty (by simpa using hd))⟩
      rw [List.cons_append, Decimal.digits_append_afterDigits]
  · obtain ⟨rfl, rfl⟩ := Prod.mk.inj h
    exact ⟨[], rfl, .none⟩

theorem signText_of_readSign (cs : List Char) :
    ∃ s, cs = s ++ (Decimal.Numeral.readSign cs).2 ∧
      SignText (Decimal.Numeral.readSign cs).1 s := by
  unfold Decimal.Numeral.readSign
  split
  · exact ⟨['-'], rfl, .minus⟩
  · exact ⟨['+'], rfl, .plus⟩
  · exact ⟨[], rfl, .none⟩

theorem exponentText_of_readExponent {cs rest : List Char} {x : Option (Bool × List Char)}
    (h : Decimal.Numeral.readExponent cs = (x, rest)) : ∃ t, cs = t ++ rest ∧ ExponentText x t := by
  unfold Decimal.Numeral.readExponent at h
  split at h
  · obtain ⟨rfl, rfl⟩ := Prod.mk.inj h
    exact ⟨[], rfl, .none⟩
  · rename_i c cs
    obtain ⟨s, hs, sign⟩ := signText_of_readSign cs
    simp only at h
    split at h
    · rename_i hc
      simp only [Bool.and_eq_true, Bool.or_eq_true, decide_eq_true_eq, Bool.not_eq_true'] at hc
      obtain ⟨rfl, rfl⟩ := Prod.mk.inj h
      refine ⟨c :: (s ++ Decimal.digits (Decimal.Numeral.readSign cs).2), ?_,
        .some hc.1 sign (digits_of_not_isEmpty hc.2)⟩
      rw [List.cons_append, List.append_assoc, Decimal.digits_append_afterDigits, ← hs]
    · obtain ⟨rfl, rfl⟩ := Prod.mk.inj h
      exact ⟨[], rfl, .none⟩

theorem numeralText_of_read {cs rest : List Char} {n : Decimal.Numeral}
    (h : Decimal.Numeral.read cs = some (n, rest)) : ∃ t, cs = t ++ rest ∧ NumeralText n t := by
  have unsigned {negative : Bool} {cs rest : List Char} {n : Decimal.Numeral}
      (h : Decimal.Numeral.readUnsigned negative cs = some (n, rest)) :
      ∃ whole fraction exponent f x, n = ⟨negative, whole, fraction, exponent⟩ ∧
        cs = (whole ++ (f ++ x)) ++ rest ∧ WholeText whole ∧ FractionText fraction f ∧
          ExponentText exponent x := by
    obtain ⟨⟨whole, more⟩, hw, he⟩ := Option.map_eq_some_iff.mp h
    obtain ⟨rfl, hwhole⟩ := wholeText_of_readWhole hw
    rcases hfr : Decimal.Numeral.readFraction more with ⟨fraction, behind⟩
    rcases hxr : Decimal.Numeral.readExponent behind with ⟨exponent, last⟩
    obtain ⟨f, rfl, hfraction⟩ := fractionText_of_readFraction hfr
    obtain ⟨x, rfl, hexponent⟩ := exponentText_of_readExponent hxr
    simp only [hfr, hxr, Prod.mk.injEq] at he
    obtain ⟨rfl, rfl⟩ := he
    refine ⟨whole, fraction, exponent, f, x, rfl, ?_, hwhole, hfraction, hexponent⟩
    rw [List.append_assoc, List.append_assoc]
  unfold Decimal.Numeral.read at h
  split at h
  · obtain ⟨whole, fraction, exponent, f, x, rfl, rfl, hw, hf, hx⟩ := unsigned h
    exact ⟨_, rfl, .negative hw hf hx⟩
  · obtain ⟨whole, fraction, exponent, f, x, rfl, rfl, hw, hf, hx⟩ := unsigned h
    exact ⟨_, rfl, .natural hw hf hx⟩

theorem numberText_of_number {cs rest : List Char} {v : Value} (h : number cs = .ok (v, rest)) :
    ∃ t, cs = t ++ rest ∧ NumberText v t := by
  unfold number at h
  split at h
  · cases h
  · rename_i n more hn
    obtain ⟨t, rfl, ht⟩ := numeralText_of_read hn
    split at h
    · rename_i hi
      obtain ⟨rfl, rfl⟩ := Prod.mk.inj (Except.ok.inj h)
      exact ⟨t, rfl, .real ht (by simpa using hi)⟩
    · rename_i hi
      split at h
      · cases h
      · rename_i hd
        obtain ⟨rfl, rfl⟩ := Prod.mk.inj (Except.ok.inj h)
        exact ⟨t, rfl, .integer ht (by simpa using hi) (Nat.le_of_not_lt hd)⟩

/-! ## What is read: values -/

/-- What is read with so much fuel is spelled as the phrase that it is read as. -/
structure Sound (fuel : Nat) : Prop where
  value : ∀ room cs v rest, value fuel room cs = .ok (v, rest) →
    ∃ t, cs = t ++ rest ∧ Spelling (.value v) t
  items : ∀ room cs vs rest, items fuel room cs = .ok (vs, rest) →
    ∃ t, cs = t ++ ']' :: rest ∧ Spelling (.items vs) t
  members : ∀ room cs ms rest, members fuel room cs = .ok (ms, rest) →
    ∃ t, cs = t ++ '\x7d' :: rest ∧ Spelling (.members ms) t

section Sound

variable {fuel : Nat} (ih : Sound fuel)
include ih

theorem sound_value {room : Nat} {cs rest : List Char} {v : Value}
    (h : value (fuel + 1) room cs = .ok (v, rest)) :
    ∃ t, cs = t ++ rest ∧ Spelling (.value v) t := by
  rw [value.eq_def] at h
  simp only at h
  split at h
  · obtain ⟨⟨s, r⟩, hs, he⟩ := exists_of_map h
    obtain ⟨rfl, rfl⟩ := Prod.mk.inj he
    obtain ⟨us, t, rfl, rfl, ht⟩ := unitsSpelling_of_string hs
    exact ⟨_, by simp, .string ht⟩
  · rename_i rest'
    obtain ⟨b, hb, hr⟩ := blank_skip rest'
    split at h
    · cases h
    · rename_i hclose
      obtain ⟨rfl, rfl⟩ := Prod.mk.inj (Except.ok.inj h)
      exact ⟨_, by rw [hr, hclose]; simp, .emptyObject hb⟩
    · obtain ⟨⟨ms, r⟩, hm, he⟩ := exists_of_map h
      obtain ⟨rfl, rfl⟩ := Prod.mk.inj he
      obtain ⟨t, ht, hms⟩ := ih.members _ _ _ _ hm
      exact ⟨_, by rw [hr, ht]; simp, .object hb hms⟩
  · rename_i rest'
    obtain ⟨b, hb, hr⟩ := blank_skip rest'
    split at h
    · cases h
    · rename_i hclose
      obtain ⟨rfl, rfl⟩ := Prod.mk.inj (Except.ok.inj h)
      exact ⟨_, by rw [hr, hclose]; simp, .emptyArray hb⟩
    · obtain ⟨⟨vs, r⟩, hm, he⟩ := exists_of_map h
      obtain ⟨rfl, rfl⟩ := Prod.mk.inj he
      obtain ⟨t, ht, hvs⟩ := ih.items _ _ _ _ hm
      exact ⟨_, by rw [hr, ht]; simp, .array hb hvs⟩
  · obtain ⟨rfl, rfl⟩ := Prod.mk.inj (Except.ok.inj h)
    exact ⟨_, rfl, .null⟩
  · obtain ⟨rfl, rfl⟩ := Prod.mk.inj (Except.ok.inj h)
    exact ⟨_, rfl, .yes⟩
  · obtain ⟨rfl, rfl⟩ := Prod.mk.inj (Except.ok.inj h)
    exact ⟨_, rfl, .no⟩
  · obtain ⟨rfl, rfl⟩ := Prod.mk.inj (Except.ok.inj h)
    exact ⟨_, rfl, .nan⟩
  · obtain ⟨rfl, rfl⟩ := Prod.mk.inj (Except.ok.inj h)
    exact ⟨_, rfl, .infinity⟩
  · obtain ⟨rfl, rfl⟩ := Prod.mk.inj (Except.ok.inj h)
    exact ⟨_, rfl, .minusInfinity⟩
  · obtain ⟨t, ht, hn⟩ := numberText_of_number h
    exact ⟨t, ht, .number hn⟩

theorem sound_items {room : Nat} {cs rest : List Char} {vs : List Value}
    (h : items (fuel + 1) room cs = .ok (vs, rest)) :
    ∃ t, cs = t ++ ']' :: rest ∧ Spelling (.items vs) t := by
  rw [items.eq_def] at h
  simp only at h
  split at h
  · cases h
  · rename_i v behind hv
    obtain ⟨t, rfl, ht⟩ := ih.value _ _ _ _ hv
    obtain ⟨b, hb, hr⟩ := blank_skip behind
    split at h
    · rename_i hclose
      obtain ⟨rfl, rfl⟩ := Prod.mk.inj (Except.ok.inj h)
      exact ⟨_, by rw [hr, hclose, List.append_assoc], .item ht hb⟩
    · rename_i r hcomma
      obtain ⟨c, hc, hr'⟩ := blank_skip r
      obtain ⟨⟨vs', r'⟩, hm, he⟩ := exists_of_map h
      obtain ⟨rfl, rfl⟩ := Prod.mk.inj he
      obtain ⟨u, hu, hvs⟩ := ih.items _ _ _ _ hm
      exact ⟨_, by rw [hr, hcomma, hr', hu]; simp, .items ht hb hc hvs⟩
    · cases h

theorem sound_members {room : Nat} {cs rest : List Char} {ms : Members}
    (h : members (fuel + 1) room cs = .ok (ms, rest)) :
    ∃ t, cs = t ++ '\x7d' :: rest ∧ Spelling (.members ms) t := by
  rw [members.eq_def] at h
  simp only at h
  split at h
  · split at h
    · cases h
    · rename_i name behind hn
      obtain ⟨us, s, rfl, rfl, hs⟩ := unitsSpelling_of_string hn
      obtain ⟨b, hb, hr⟩ := blank_skip behind
      split at h
      · rename_i r hcolon
        obtain ⟨c, hc, hr'⟩ := blank_skip r
        split at h
        · cases h
        · rename_i v more hv
          obtain ⟨t, ht, hval⟩ := ih.value _ _ _ _ hv
          obtain ⟨d, hd, hmore⟩ := blank_skip more
          split at h
          · rename_i hclose
            obtain ⟨rfl, rfl⟩ := Prod.mk.inj (Except.ok.inj h)
            exact ⟨_, by rw [hr, hcolon, hr', ht, hmore, hclose]; simp,
              .member hs hb hc hval hd⟩
          · rename_i r' hcomma
            obtain ⟨e, he', hr''⟩ := blank_skip r'
            obtain ⟨⟨ms', last⟩, hm, he⟩ := exists_of_map h
            obtain ⟨rfl, rfl⟩ := Prod.mk.inj he
            obtain ⟨u, hu, hms⟩ := ih.members _ _ _ _ hm
            exact ⟨_, by rw [hr, hcolon, hr', ht, hmore, hcomma, hr'', hu]; simp,
              .members hs hb hc hval hd he' hms⟩
          · cases h
      · cases h
  · cases h

end Sound

theorem sound (fuel : Nat) : Sound fuel := by
  induction fuel with
  | zero =>
    constructor
    · intro room cs v rest h
      simp [value] at h
    · intro room cs vs rest h
      simp [items] at h
    · intro room cs ms rest h
      simp [members] at h
  | succ fuel ih =>
    exact ⟨fun _ _ _ _ => sound_value ih, fun _ _ _ _ => sound_items ih,
      fun _ _ _ _ => sound_members ih⟩

theorem blank_of_skip_eq_nil {cs : List Char} (h : skip cs = []) : Blank cs := by
  obtain ⟨b, hb, he⟩ := blank_skip cs
  rw [h, List.append_nil] at he
  exact he ▸ hb

/-- A text that is read as a value is this value between blanks. -/
theorem written_of_document {room : Nat} {text : List Char} {v : Value}
    (h : document room text = .ok v) : Written v text := by
  rw [document.eq_def] at h
  split at h
  · cases h
  · split at h
    · cases h
    · rename_i v' behind hv
      split at h
      · rename_i hend
        obtain rfl := Except.ok.inj h
        obtain ⟨b, hb, hr⟩ := blank_skip text
        obtain ⟨t, ht, hval⟩ := (sound _).value _ _ _ _ hv
        rw [hr, ht]
        exact .mk hb hval (blank_of_skip_eq_nil hend)
      · cases h

/-! ## What is accepted: strings and numbers -/

theorem units_of_unitsSpelling {us : List Nat} {t : List Char} (h : UnitsSpelling us t)
    (quote rest : List Char) : units quote (t ++ '"' :: rest) = .ok (us, rest) := by
  induction h with
  | nil => exact units_quote quote rest
  | raw hc hq hb _ ih =>
    rw [List.cons_append, units_raw hc hq hb, ih]
    rfl
  | short he _ ih =>
    rw [List.cons_append, List.cons_append, units_short he, ih]
    rfl
  | unit hu _ ih =>
    rw [List.append_assoc, units_of_unitText hu quote (by simp), ih]
    rfl

theorem string_of_unitsSpelling {us : List Nat} {t : List Char} (h : UnitsSpelling us t)
    (rest : List Char) : string (t ++ '"' :: rest) = .ok (⟨join us⟩, rest) := by
  rw [string, units_of_unitsSpelling h]
  rfl

theorem readWhole_of_wholeText {ds rest : List Char} (h : WholeText ds) (hr : Stops rest) :
    Decimal.Numeral.readWhole (ds ++ rest) = some (ds, rest) := by
  obtain ⟨hd, rfl | hfirst⟩ := h
  · rfl
  · obtain ⟨c, cs, rfl, hc⟩ := hd.exists_cons
    have split := digits_append hd.all hr
    rw [List.cons_append] at split ⊢
    rw [Decimal.Numeral.readWhole, if_pos hc, split.1, split.2]
    rintro rfl
    exact hfirst rfl

/-- Behind a delimiter or at an exponent the digits of a numeral come to an end. -/
theorem stops_of_exponentText {x : Option (Bool × List Char)} {t rest : List Char}
    (h : ExponentText x t) (hr : Delimited rest) : Stops (t ++ rest) := by
  cases h with
  | none => exact hr.stops
  | some he hs hd =>
    rcases he with rfl | rfl
    · exact stops_cons rfl _
    · exact stops_cons rfl _

theorem stops_of_fractionText {f : Option (List Char)} {t rest : List Char}
    (h : FractionText f t) (hr : Stops rest) : Stops (t ++ rest) := by
  cases h with
  | none => exact hr
  | some hd => exact stops_cons rfl _

theorem readExponent_of_exponentText {x : Option (Bool × List Char)} {t rest : List Char}
    (h : ExponentText x t) (hr : Delimited rest) :
    Decimal.Numeral.readExponent (t ++ rest) = (x, rest) := by
  cases h with
  | none => exact hr.ends.2.2.2
  | @some e negative s ds he hs hd =>
    obtain ⟨hdigits, hafter⟩ := digits_append hd.all hr.stops
    have sign : Decimal.Numeral.readSign (s ++ (ds ++ rest)) = (negative, ds ++ rest) := by
      cases hs with
      | none =>
        obtain ⟨c, cs, rfl, hc⟩ := hd.exists_cons
        unfold Decimal.Numeral.readSign
        split
        · rename_i he
          rw [(List.cons.inj he).1] at hc
          cases hc
        · rename_i he
          rw [(List.cons.inj he).1] at hc
          cases hc
        · rfl
      | plus => rfl
      | minus => rfl
    have some : (ds.isEmpty) = false := by simpa using hd.some
    rw [List.cons_append, List.append_assoc, Decimal.Numeral.readExponent, sign]
    simp [hdigits, hafter, some, he]

theorem readFraction_of_fractionText {f : Option (List Char)} {t rest : List Char}
    (h : FractionText f t) (hr : Stops rest) (hp : ∀ r, rest ≠ '.' :: r) :
    Decimal.Numeral.readFraction (t ++ rest) = (f, rest) := by
  cases h with
  | none =>
    unfold Decimal.Numeral.readFraction
    split
    · rename_i he
      exact absurd he (hp _)
    · rfl
  | some hd =>
    obtain ⟨hdigits, hafter⟩ := digits_append hd.all hr
    have some := hd.some
    simp [Decimal.Numeral.readFraction, hdigits, hafter, some]

theorem no_point {x : Option (Bool × List Char)} {t rest : List Char} (h : ExponentText x t)
    (hr : Delimited rest) (r : List Char) : t ++ rest ≠ '.' :: r := by
  intro he
  cases h with
  | none =>
    cases rest with
    | nil => cases he
    | cons c rest =>
      rw [(List.cons.inj he).1] at hr
      simp [Delimited, isSpace] at hr
  | some hc hs hd =>
    rw [(List.cons.inj he).1] at hc
    simp at hc

theorem readUnsigned_of_texts {whole f x rest : List Char} {fraction : Option (List Char)}
    {exponent : Option (Bool × List Char)} (negative : Bool) (hw : WholeText whole)
    (hf : FractionText fraction f) (hx : ExponentText exponent x) (hr : Delimited rest) :
    Decimal.Numeral.readUnsigned negative ((whole ++ (f ++ x)) ++ rest) =
      some (⟨negative, whole, fraction, exponent⟩, rest) := by
  have hstops := stops_of_exponentText hx hr
  rw [List.append_assoc, List.append_assoc, Decimal.Numeral.readUnsigned,
    readWhole_of_wholeText hw (stops_of_fractionText hf hstops)]
  simp only [Option.map_some, readFraction_of_fractionText hf hstops (no_point hx hr),
    readExponent_of_exponentText hx hr]

theorem opensNumeral_of_numeralText {n : Decimal.Numeral} {t : List Char} (h : NumeralText n t) :
    OpensNumeral t := by
  cases h with
  | natural hw hf hx =>
    obtain ⟨c, cs, rfl, hc⟩ := hw.digits.exists_cons
    exact ⟨c, _, rfl, .inl hc⟩
  | negative hw hf hx =>
    obtain ⟨c, cs, rfl, hc⟩ := hw.digits.exists_cons
    exact ⟨'-', _, rfl, .inr ⟨rfl, c, _, rfl, hc⟩⟩

theorem read_of_numeralText {n : Decimal.Numeral} {t rest : List Char} (h : NumeralText n t)
    (hr : Delimited rest) : Decimal.Numeral.read (t ++ rest) = some (n, rest) := by
  cases h with
  | natural hw hf hx =>
    rw [← readUnsigned_of_texts false hw hf hx hr]
    obtain ⟨c, cs, rfl, hc⟩ := hw.digits.exists_cons
    unfold Decimal.Numeral.read
    split
    · rename_i he
      rw [(List.cons.inj he).1] at hc
      cases hc
    · rfl
  | negative hw hf hx => exact readUnsigned_of_texts true hw hf hx hr

theorem number_of_numberText {v : Value} {t rest : List Char} (h : NumberText v t)
    (hr : Delimited rest) : number (t ++ rest) = .ok (v, rest) := by
  cases h with
  | integer h hi hd =>
    have few := Nat.not_lt.mpr hd
    simp [number, read_of_numeralText h hr, hi, few]
  | real h hi => simp [number, read_of_numeralText h hr, hi]

theorem opensNumeral_of_numberText {v : Value} {t : List Char} (h : NumberText v t) :
    OpensNumeral t := by
  cases h with
  | integer h | real h => exact opensNumeral_of_numeralText h

/-! ## What is accepted: values -/

/-- A text is given up on as too deeply nested, whatever else it holds. -/
def Fault.IsTooDeep (f : Fault) : Prop := ∃ c, f.cause = .tooDeep c

/-- What is read comes out, unless it is nested too deeply. -/
inductive Comes {α : Type} (r : Except Fault α) (a : α) : Prop where
  | found (h : r = .ok a)
  | tooDeep {f : Fault} (h : r = .error f) (hf : f.IsTooDeep)

theorem Comes.map {α β : Type} {r : Except Fault α} {a : α} (h : Comes r a) (g : α → β) :
    Comes (r.map g) (g a) := by
  cases h with
  | found h => exact .found (by rw [h]; rfl)
  | tooDeep h hf => exact .tooDeep (by rw [h]; rfl) hf

theorem opens_spelling {p : Phrase} {t : List Char} (h : Spelling p t) :
    ∃ c r, t = c :: r ∧ Opens c := by
  induction h with
  | number h => exact (opensNumeral_of_numberText h).opens
  | item _ _ ih | items _ _ _ _ ih _ =>
    obtain ⟨c, r, rfl, hc⟩ := ih
    exact ⟨c, _, rfl, hc⟩
  | _ => exact ⟨_, _, rfl, by constructor <;> decide⟩

theorem skip_spelling {p : Phrase} {t : List Char} (h : Spelling p t) {b : List Char}
    (hb : Blank b) (rest : List Char) : skip (b ++ (t ++ rest)) = t ++ rest :=
  skip_of_opens (opens_spelling h) hb rest

/-- What the reader of a phrase does on a spelling of it that stands in front of another text. -/
def Accepts (fuel room : Nat) : Phrase → List Char → Prop
  | .value v, t => ∀ rest, Delimited rest → Comes (value fuel room (t ++ rest)) (v, rest)
  | .items vs, t => ∀ rest, Comes (items fuel room (t ++ ']' :: rest)) (vs, rest)
  | .members ms, t => ∀ rest, Comes (members fuel room (t ++ '\x7d' :: rest)) (ms, rest)

section Accepts

variable {fuel room : Nat}

theorem Accepts.string {us : List Nat} {t : List Char} (h : UnitsSpelling us t) :
    Accepts (fuel + 1) room (.value (.string ⟨join us⟩)) ('"' :: (t ++ ['"'])) := by
  intro rest _
  rw [List.cons_append, List.append_assoc, List.singleton_append]
  refine .found ?_
  change (Reader.string _).map _ = _
  rw [string_of_unitsSpelling h]
  rfl

theorem Accepts.emptyArray {b : List Char} (hb : Blank b) :
    Accepts (fuel + 1) room (.value (.array [])) ('[' :: (b ++ [']'])) := by
  intro rest hr
  cases room with
  | zero => exact .tooDeep rfl ⟨_, rfl⟩
  | succ room => exact .found (Reads.emptyArray hb rest hr)

theorem Accepts.emptyObject {b : List Char} (hb : Blank b) :
    Accepts (fuel + 1) room (.value (.object [])) ('\x7b' :: (b ++ ['\x7d'])) := by
  intro rest hr
  cases room with
  | zero => exact .tooDeep rfl ⟨_, rfl⟩
  | succ room => exact .found (Reads.emptyObject hb rest hr)

theorem Accepts.array {vs : List Value} {b t : List Char} (hb : Blank b)
    (h : Spelling (.items vs) t) (r : ∀ room, Accepts fuel room (.items vs) t) :
    Accepts (fuel + 1) room (.value (.array vs)) ('[' :: (b ++ (t ++ [']']))) := by
  intro rest _
  cases room with
  | zero => exact .tooDeep rfl ⟨_, rfl⟩
  | succ room =>
    have inside := skip_spelling h hb (']' :: rest)
    have read := (r room rest).map fun x => (Value.array x.1, x.2)
    obtain ⟨c, cs, rfl, hc⟩ := opens_spelling h
    rw [List.cons_append, List.append_assoc, List.append_assoc, List.singleton_append,
      value.eq_def]
    rw [List.cons_append] at inside read ⊢
    simpa [inside, hc.notBracket] using read

theorem Accepts.object {ms : Members} {b t : List Char} (hb : Blank b)
    (h : Spelling (.members ms) t) (r : ∀ room, Accepts fuel room (.members ms) t) :
    Accepts (fuel + 1) room (.value (.object (Members.ofList ms)))
      ('\x7b' :: (b ++ (t ++ ['\x7d']))) := by
  intro rest _
  cases room with
  | zero => exact .tooDeep rfl ⟨_, rfl⟩
  | succ room =>
    have inside := skip_spelling h hb ('\x7d' :: rest)
    have read := (r room rest).map fun x => (Value.object (Members.ofList x.1), x.2)
    obtain ⟨c, cs, rfl, hc⟩ := opens_spelling h
    rw [List.cons_append, List.append_assoc, List.append_assoc, List.singleton_append,
      value.eq_def]
    rw [List.cons_append] at inside read ⊢
    simpa [inside, hc.notBrace] using read

theorem Accepts.item {v : Value} {t b : List Char} (r : Accepts fuel room (.value v) t)
    (hb : Blank b) : Accepts (fuel + 1) room (.items [v]) (t ++ b) := by
  intro rest
  rw [List.append_assoc, items.eq_def]
  cases r _ (Delimited.blank hb (delimited_bracket rest)) with
  | found read => exact .found (by simp only [read, skip_blank_cons (c := ']') hb rfl])
  | tooDeep read hf => exact .tooDeep (by simp only [read]) hf

theorem Accepts.items {v : Value} {vs : List Value} {t b c u : List Char}
    (r : Accepts fuel room (.value v) t) (hb : Blank b) (hc : Blank c)
    (hs : Spelling (.items vs) u) (rs : Accepts fuel room (.items vs) u) :
    Accepts (fuel + 1) room (.items (v :: vs)) (t ++ (b ++ ',' :: (c ++ u))) := by
  intro rest
  simp only [List.append_assoc, List.cons_append]
  rw [items.eq_def]
  cases r _ (Delimited.blank hb (delimited_comma (c ++ (u ++ ']' :: rest)))) with
  | found read =>
    simp only [read, skip_blank_cons (c := ',') hb rfl, skip_spelling hs hc]
    exact (rs rest).map _
  | tooDeep read hf => exact .tooDeep (by simp only [read]) hf

theorem Accepts.member {us : List Nat} {v : Value} {s b c t d : List Char}
    (hn : UnitsSpelling us s) (hb : Blank b) (hc : Blank c) (h : Spelling (.value v) t)
    (r : Accepts fuel room (.value v) t) (hd : Blank d) :
    Accepts (fuel + 1) room (.members [(⟨join us⟩, v)])
      ('"' :: (s ++ '"' :: (b ++ ':' :: (c ++ (t ++ d))))) := by
  intro rest
  simp only [List.append_assoc, List.cons_append]
  rw [members.eq_def]
  simp only [string_of_unitsSpelling hn, skip_blank_cons (c := ':') hb rfl, skip_spelling h hc]
  cases r _ (Delimited.blank hd (delimited_brace rest)) with
  | found read => exact .found (by simp only [read, skip_blank_cons (c := '\x7d') hd rfl])
  | tooDeep read hf => exact .tooDeep (by simp only [read]) hf

theorem Accepts.members {us : List Nat} {v : Value} {ms : Members} {s b c t d e u : List Char}
    (hn : UnitsSpelling us s) (hb : Blank b) (hc : Blank c) (h : Spelling (.value v) t)
    (r : Accepts fuel room (.value v) t) (hd : Blank d) (he : Blank e)
    (hs : Spelling (.members ms) u) (rs : Accepts fuel room (.members ms) u) :
    Accepts (fuel + 1) room (.members ((⟨join us⟩, v) :: ms))
      ('"' :: (s ++ '"' :: (b ++ ':' :: (c ++ (t ++ (d ++ ',' :: (e ++ u))))))) := by
  intro rest
  simp only [List.append_assoc, List.cons_append]
  rw [members.eq_def]
  simp only [string_of_unitsSpelling hn, skip_blank_cons (c := ':') hb rfl, skip_spelling h hc]
  cases r _ (Delimited.blank hd (delimited_comma (e ++ (u ++ '\x7d' :: rest)))) with
  | found read =>
    simp only [read, skip_blank_cons (c := ',') hd rfl, skip_spelling hs he]
    exact (rs rest).map _
  | tooDeep read hf => exact .tooDeep (by simp only [read]) hf

end Accepts

/-- By induction on the spelling, as for renderings. -/
theorem accepts_spelling {p : Phrase} {t : List Char} (h : Spelling p t) :
    ∀ fuel room, enough p t ≤ fuel → Accepts fuel room p t := by
  induction h with
  | null | yes | no | nan | infinity | minusInfinity =>
    intro fuel room hf
    obtain ⟨fuel, rfl, -⟩ := spend hf
    exact fun rest _ => .found rfl
  | number h =>
    intro fuel room hf rest hr
    obtain ⟨c, ds, rfl, -⟩ := opensNumeral_of_numberText h
    obtain ⟨fuel, rfl, -⟩ := spend hf
    refine .found ?_
    rw [value_of_opensNumeral (opensNumeral_of_numberText h), number_of_numberText h hr]
  | string h =>
    intro fuel room hf
    obtain ⟨fuel, rfl, -⟩ := spend hf
    exact .string h
  | emptyArray hb =>
    intro fuel room hf
    obtain ⟨fuel, rfl, -⟩ := spend hf
    exact .emptyArray hb
  | emptyObject hb =>
    intro fuel room hf
    obtain ⟨fuel, rfl, -⟩ := spend hf
    exact .emptyObject hb
  | array hb h ih =>
    intro fuel room hf
    simp only [enough, List.length_cons, List.length_append] at hf ih
    obtain ⟨fuel, rfl, hf⟩ := spend hf
    exact .array hb h fun room => ih fuel room (by omega)
  | object hb h ih =>
    intro fuel room hf
    simp only [enough, List.length_cons, List.length_append] at hf ih
    obtain ⟨fuel, rfl, hf⟩ := spend hf
    exact .object hb h fun room => ih fuel room (by omega)
  | item h hb ih =>
    intro fuel room hf
    simp only [enough, List.length_append] at hf ih
    obtain ⟨fuel, rfl, hf⟩ := spend hf
    exact .item (ih fuel room (by omega)) hb
  | items h hb hc hs ih ihs =>
    intro fuel room hf
    simp only [enough, List.length_append, List.length_cons] at hf ih ihs
    obtain ⟨fuel, rfl, hf⟩ := spend hf
    exact .items (ih fuel room (by omega)) hb hc hs (ihs fuel room (by omega))
  | member hn hb hc h hd ih =>
    intro fuel room hf
    simp only [enough, List.length_append, List.length_cons] at hf ih
    obtain ⟨fuel, rfl, hf⟩ := spend hf
    exact .member hn hb hc h (ih fuel room (by omega)) hd
  | members hn hb hc h hd he hs ih ihs =>
    intro fuel room hf
    simp only [enough, List.length_append, List.length_cons] at hf ih ihs
    obtain ⟨fuel, rfl, hf⟩ := spend hf
    exact .members hn hb hc h (ih fuel room (by omega)) hd he hs (ihs fuel room (by omega))

theorem comes_of_written {v : Value} {text : List Char} (h : Written v text) (room : Nat) :
    Comes (document room text) v := by
  obtain @⟨b, t, c, hb, h, hc⟩ := h
  have after : Delimited c := by
    have := Delimited.blank hc (show Delimited [] from trivial)
    rwa [List.append_nil] at this
  have read := accepts_spelling h (2 * (b ++ (t ++ c)).length + 1) room
    (by simp only [enough, List.length_append]; omega) c after
  have done : skip c = [] := by
    rw [← List.append_nil c, skip_of_blank hc, skip_nil]
  rw [document.eq_def]
  split
  · rename_i he
    exact absurd he (not_marked hb (opens_spelling h) c _)
  · rw [skip_spelling h hb c]
    cases read with
    | found read => exact .found (by simp only [read, done])
    | tooDeep read hf => exact .tooDeep (by simp only [read]) hf

/-- Exactly the spellings of a value are read as this value, if they are not nested too deeply. -/
theorem document_eq_ok_iff {room : Nat} {text : List Char} {v : Value}
    (h : ∀ f, document room text = .error f → ¬ f.IsTooDeep) :
    document room text = .ok v ↔ Written v text := by
  refine ⟨written_of_document, fun hw => ?_⟩
  cases comes_of_written hw room with
  | found hv => exact hv
  | tooDeep hf hd => exact absurd hd (h _ hf)

/-! ## What is nested too deeply -/

theorem exists_of_map_error {α β : Type} {r : Except Fault α} {g : α → β} {f : Fault}
    (h : r.map g = .error f) : r = .error f := by
  cases r with
  | error f' =>
    cases h
    rfl
  | ok a => cases h

/-- Any other cause is none of depth. -/
theorem not_isTooDeep {cause : Cause} {rest : List Char} (h : ∀ c, cause ≠ .tooDeep c) :
    ¬ (Fault.mk cause rest).IsTooDeep := fun ⟨c, hc⟩ => h c hc

theorem length_skip_le (cs : List Char) : (skip cs).length ≤ cs.length :=
  (List.dropWhile_sublist _).length_le

theorem not_isTooDeep_of_units {quote cs : List Char} {f : Fault}
    (h : units quote cs = .error f) : ¬ f.IsTooDeep := by
  fun_induction units quote cs with
  | case2 => cases h
  | case4 a b d e n x more hn _ ih => exact ih (exists_of_map_error h)
  | case7 x more _ y hy _ ih => exact ih (exists_of_map_error h)
  | case10 x more hq hb hx ih => exact ih (exists_of_map_error h)
  | _ =>
    cases h
    exact not_isTooDeep (by simp)

theorem not_isTooDeep_of_string {cs : List Char} {f : Fault} (h : string cs = .error f) :
    ¬ f.IsTooDeep := not_isTooDeep_of_units (exists_of_map_error h)

theorem not_isTooDeep_of_number {cs : List Char} {f : Fault} (h : number cs = .error f) :
    ¬ f.IsTooDeep := by
  unfold number at h
  split at h
  · cases h
    exact not_isTooDeep (by simp)
  · split at h
    · cases h
    · split at h
      · cases h
        exact not_isTooDeep (by simp)
      · cases h

/-- What is nested in more arrays and objects than there is room for is longer than the room. -/
structure Deep (fuel : Nat) : Prop where
  value : ∀ room cs f, value fuel room cs = .error f → f.IsTooDeep → room < cs.length
  items : ∀ room cs f, items fuel room cs = .error f → f.IsTooDeep → room < cs.length
  members : ∀ room cs f, members fuel room cs = .error f → f.IsTooDeep → room < cs.length

section Deep

variable {fuel room : Nat} {cs : List Char} {f : Fault} (ih : Deep fuel) (hd : f.IsTooDeep)
include ih hd

theorem deep_value (h : value (fuel + 1) room cs = .error f) : room < cs.length := by
  rw [value.eq_def] at h
  simp only at h
  split at h
  · exact absurd hd (not_isTooDeep_of_string (exists_of_map_error h))
  · rename_i rest
    have shorter := length_skip_le rest
    split at h
    · simp
    · cases h
    · have inside := ih.members _ _ _ (exists_of_map_error h) hd
      simp only [List.length_cons]
      omega
  · rename_i rest
    have shorter := length_skip_le rest
    split at h
    · simp
    · cases h
    · have inside := ih.items _ _ _ (exists_of_map_error h) hd
      simp only [List.length_cons]
      omega
  all_goals first | cases h | exact absurd hd (not_isTooDeep_of_number h)

theorem deep_items (h : items (fuel + 1) room cs = .error f) : room < cs.length := by
  rw [items.eq_def] at h
  simp only at h
  split at h
  · rename_i hv
    cases h
    exact ih.value _ _ _ hv hd
  · rename_i v behind hv
    obtain ⟨t, rfl, -⟩ := (sound fuel).value _ _ _ _ hv
    have shorter := length_skip_le behind
    split at h
    · cases h
    · rename_i r hcomma
      have later := ih.items _ _ _ (exists_of_map_error h) hd
      have shorter' := length_skip_le r
      rw [hcomma, List.length_cons] at shorter
      rw [List.length_append]
      omega
    · cases h
      exact absurd hd (not_isTooDeep (by simp))

theorem deep_members (h : members (fuel + 1) room cs = .error f) : room < cs.length := by
  rw [members.eq_def] at h
  simp only at h
  split at h
  · split at h
    · rename_i hn
      cases h
      exact absurd hd (not_isTooDeep_of_string hn)
    · rename_i name behind hn
      obtain ⟨us, s, -, rfl, -⟩ := unitsSpelling_of_string hn
      have shorter := length_skip_le behind
      split at h
      · rename_i r hcolon
        have shorter' := length_skip_le r
        rw [hcolon, List.length_cons] at shorter
        simp only [List.length_append, List.length_cons]
        split at h
        · rename_i hv
          cases h
          have inside := ih.value _ _ _ hv hd
          omega
        · rename_i v more hv
          obtain ⟨t, ht, -⟩ := (sound fuel).value _ _ _ _ hv
          have shorter'' := length_skip_le more
          rw [ht, List.length_append] at shorter'
          split at h
          · cases h
          · rename_i r' hcomma
            have later := ih.members _ _ _ (exists_of_map_error h) hd
            have last := length_skip_le r'
            rw [hcomma, List.length_cons] at shorter''
            omega
          · cases h
            exact absurd hd (not_isTooDeep (by simp))
      · cases h
        exact absurd hd (not_isTooDeep (by simp))
  · cases h
    exact absurd hd (not_isTooDeep (by simp))

end Deep

theorem deep (fuel : Nat) : Deep fuel := by
  induction fuel with
  | zero =>
    constructor
    · intro room cs f h hd
      cases h
      exact absurd hd (not_isTooDeep (by simp))
    · intro room cs f h hd
      cases h
      exact absurd hd (not_isTooDeep (by simp))
    · intro room cs f h hd
      cases h
      exact absurd hd (not_isTooDeep (by simp))
  | succ fuel ih =>
    exact ⟨fun _ _ _ h hd => deep_value ih hd h, fun _ _ _ h hd => deep_items ih hd h,
      fun _ _ _ h hd => deep_members ih hd h⟩

/-- With room for as many values as a text has characters nothing is nested too deeply. -/
theorem not_isTooDeep_of_length {room : Nat} {text : List Char} (hr : text.length ≤ room)
    {f : Fault} (h : document room text = .error f) : ¬ f.IsTooDeep := by
  intro hd
  rw [document.eq_def] at h
  split at h
  · cases h
    exact absurd hd (not_isTooDeep (by simp))
  · split at h
    · rename_i hv
      cases h
      have long := (deep _).value _ _ _ hv hd
      have shorter := length_skip_le text
      omega
    · split at h
      · cases h
      · cases h
        exact absurd hd (not_isTooDeep (by simp))

end FlagPoll.Json.Reader
