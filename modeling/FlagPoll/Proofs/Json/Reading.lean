import FlagPoll.Proofs.Json.Rendering
import Mathlib.Data.List.Nodup

/-!
# FlagPoll.Proofs.Json.Reading

Every rendering of a value is read as this value.

* `units_of_charText`, `string_of_stringText` — escapes come back as the characters they stand for.
* `number_of_integerText`                     — digits come back as the integer.
* `Reads`                                     — what the reader of a phrase has to do on its text.
* `reads_rendering`                           — it does so on every rendering.
* `document_eq`                               — a whole text is read as the value it stands for.
-/

namespace FlagPoll.Json.Reader

open Decimal (isDigit_of_mem_toDigits natOfDigits_toDigits)

/-! ## Blanks -/

theorem skip_of_blank {b : List Char} (h : Blank b) (cs : List Char) : skip (b ++ cs) = skip cs := by
  rw [skip, skip, List.dropWhile_append_of_pos]
  intro c hc
  rcases h c hc with rfl | rfl | rfl | rfl <;> rfl

theorem skip_of_not_isSpace {c : Char} (h : isSpace c = false) (cs : List Char) :
    skip (c :: cs) = c :: cs := by
  simp [skip, h]

theorem skip_nil : skip [] = [] := rfl

/-! ## Strings -/

theorem hexValue?_of_hexDigit {n : Nat} {c : Char} (h : HexDigit n c) : hexValue? c = some n := by
  have small : ∀ n, n < 16 → hexValue? (Nat.digitChar n) = some n := by decide
  have capital : ∀ n, n < 16 → hexValue? (Nat.digitChar n).toUpper = some n := by decide
  cases h with
  | small h => exact small n h
  | capital h => exact capital n h

theorem units_quote (quote rest : List Char) : units quote ('"' :: rest) = .ok ([], rest) := by
  rw [units.eq_def]
  rfl

theorem units_raw {c : Char} (hc : 0x20 ≤ c.toNat) (hq : c ≠ '"') (hb : c ≠ '\\')
    (quote rest : List Char) :
    units quote (c :: rest) = (units quote rest).map fun (us, r) => (c.toNat :: us, r) := by
  rw [units.eq_def]
  simp [hq, hb, show ¬ c.toNat < 0x20 by omega]

theorem units_short {c e : Char} (h : (c, e) ∈ shortEscapes) (quote rest : List Char) :
    units quote ('\\' :: e :: rest) =
      (units quote rest).map fun (us, r) => (c.toNat :: us, r) := by
  simp only [shortEscapes, List.mem_cons, Prod.mk.injEq, List.not_mem_nil, or_false] at h
  rcases h with ⟨rfl, rfl⟩ | ⟨rfl, rfl⟩ | ⟨rfl, rfl⟩ | ⟨rfl, rfl⟩ | ⟨rfl, rfl⟩ | ⟨rfl, rfl⟩ |
    ⟨rfl, rfl⟩ | ⟨rfl, rfl⟩ <;> rfl

/-- The escape of a code unit, which something has to follow. -/
theorem units_of_unitText {n : Nat} {t : List Char} (h : UnitText n t) (quote : List Char)
    {rest : List Char} (hr : rest ≠ []) :
    units quote (t ++ rest) = (units quote rest).map fun (us, r) => (n :: us, r) := by
  obtain ⟨hp, hq, hr', hs⟩ := h
  obtain ⟨x, more, rfl⟩ := List.exists_cons_of_ne_nil hr
  simp [units, hex4?, hexValue?_of_hexDigit hp, hexValue?_of_hexDigit hq,
    hexValue?_of_hexDigit hr', hexValue?_of_hexDigit hs]

/-- Code units that are a character: in front of others they are joined to this character. -/
def Joins (us : List Nat) (c : Char) : Prop := ∀ vs, join (us ++ vs) = c.toNat :: join vs

theorem joins_single {n : Nat} {c : Char} (h : n = c.toNat) : Joins [n] c := by
  intro vs
  subst h
  cases vs with
  | nil => rfl
  | cons m vs =>
    have hc : CodePoints.isHighSurrogate c.toNat = false := by
      have := c.valid
      simp only [UInt32.isValidChar, Nat.isValidChar] at this
      have e : c.toNat = c.val.toNat := rfl
      simp only [CodePoints.isHighSurrogate, Bool.and_eq_false_iff, decide_eq_false_iff_not]
      omega
    simp [join, hc]

theorem joins_pair {high low : Nat} {c : Char} (hh : high < 0x400) (hl : low < 0x400)
    (hc : c.toNat = 0x10000 + 0x400 * high + low) : Joins [0xD800 + high, 0xDC00 + low] c := by
  intro vs
  have h1 : CodePoints.isHighSurrogate (0xD800 + high) = true := by
    simp [CodePoints.isHighSurrogate]; omega
  have h2 : CodePoints.isLowSurrogate (0xDC00 + low) = true := by
    simp [CodePoints.isLowSurrogate]; omega
  simp only [List.cons_append, List.nil_append, join, h1, h2, Bool.and_self, if_true, hc,
    List.cons.injEq, and_true]
  omega

/-- A character in a string is read as code units that are joined to it. -/
theorem units_of_charText {c : Char} {t : List Char} (h : CharText c t) :
    ∃ us, Joins us c ∧ ∀ (quote rest : List Char), rest ≠ [] →
      units quote (t ++ rest) = (units quote rest).map fun (vs, r) => (us ++ vs, r) := by
  cases h with
  | raw hc hq hb =>
    exact ⟨[c.toNat], joins_single rfl, fun quote rest _ => units_raw hc hq hb quote rest⟩
  | short h =>
    exact ⟨[c.toNat], joins_single rfl, fun quote rest _ => units_short h quote rest⟩
  | unit h =>
    exact ⟨[c.toNat], joins_single rfl, fun quote rest hr => units_of_unitText h quote hr⟩
  | pair ht hu hh hl hc =>
    rename_i t u high low
    refine ⟨[0xD800 + high, 0xDC00 + low], joins_pair hh hl hc, fun quote rest hr => ?_⟩
    rw [List.append_assoc, units_of_unitText ht quote (by simp [hr]), units_of_unitText hu quote hr]
    cases units quote rest <;> rfl

/-- A string up to its closing quote. -/
theorem units_of_stringText {cs t : List Char} (h : StringText cs t) (quote rest : List Char) :
    ∃ us, units quote (t ++ '"' :: rest) = .ok (us, rest) ∧ join us = cs.map Char.toNat := by
  induction h with
  | nil => exact ⟨[], units_quote quote rest, rfl⟩
  | cons hc _ ih =>
    obtain ⟨us, hj, hu⟩ := units_of_charText hc
    obtain ⟨vs, hv, he⟩ := ih
    refine ⟨us ++ vs, ?_, ?_⟩
    · rw [List.append_assoc, hu quote _ (by simp), hv]
      rfl
    · rw [hj vs, he, List.map_cons]

theorem string_of_stringText {s : String} {t : List Char} (h : StringText s.toList t)
    (rest : List Char) : string (t ++ '"' :: rest) = .ok (↑s, rest) := by
  obtain ⟨us, hu, hj⟩ := units_of_stringText h ('"' :: (t ++ '"' :: rest)) rest
  rw [string, hu]
  simp only [Except.map, hj]
  rfl

/-! ## Integers -/

/-- Only zero starts with the digit zero. -/
theorem toDigits_eq_zero_or (n : Nat) :
    Nat.toDigits 10 n = ['0'] ∨
      ∃ c ds, Nat.toDigits 10 n = c :: ds ∧ c ≠ '0' := by
  induction n using Nat.strongRecOn with
  | _ n ih =>
    by_cases h : n < 10
    · have few : ∀ n, n < 10 → Nat.digitChar n = '0' ∨ Nat.digitChar n ≠ '0' := by decide
      rw [Nat.toDigits_of_lt_base h]
      rcases few n h with hz | hz
      · exact .inl (by rw [hz])
      · exact .inr ⟨_, _, rfl, hz⟩
    · rw [Nat.toDigits_of_base_le (by decide) (by omega)]
      rcases ih (n / 10) (by omega) with hz | ⟨c, ds, he, hc⟩
      · have := natOfDigits_toDigits (n / 10)
        rw [hz] at this
        have : n / 10 = 0 := this.symm
        omega
      · exact .inr ⟨c, ds ++ [Nat.digitChar (n % 10)], by rw [he, List.cons_append], hc⟩

/-- What may stand behind a value: a blank, a comma, a closing bracket, or nothing. -/
def Delimited : List Char → Prop
  | [] => True
  | c :: _ => isSpace c = true ∨ c = ',' ∨ c = ']' ∨ c = '\x7d'

theorem delimited_comma (cs : List Char) : Delimited (',' :: cs) := .inr (.inl rfl)

theorem delimited_bracket (cs : List Char) : Delimited (']' :: cs) := .inr (.inr (.inl rfl))

theorem delimited_brace (cs : List Char) : Delimited ('\x7d' :: cs) := .inr (.inr (.inr rfl))

theorem Delimited.blank {b rest : List Char} (hb : Blank b) (h : Delimited rest) :
    Delimited (b ++ rest) := by
  cases b with
  | nil => exact h
  | cons c b =>
    rcases hb c List.mem_cons_self with rfl | rfl | rfl | rfl <;> exact .inl rfl

/-- Behind a delimiter no numeral goes on. -/
theorem Delimited.ends {rest : List Char} (h : Delimited rest) :
    Decimal.digits rest = [] ∧ Decimal.afterDigits rest = rest ∧
      Decimal.Numeral.readFraction rest = (none, rest) ∧
      Decimal.Numeral.readExponent rest = (none, rest) := by
  cases rest with
  | nil => exact ⟨rfl, rfl, rfl, rfl⟩
  | cons c rest =>
    have ends : Decimal.isDigit c = false ∧ c ≠ '.' ∧ c ≠ 'e' ∧ c ≠ 'E' := by
      rcases h with h | rfl | rfl | rfl
      · simp only [isSpace, Bool.or_eq_true, decide_eq_true_eq] at h
        rcases h with ((rfl | rfl) | rfl) | rfl <;> decide
      all_goals decide
    obtain ⟨hd, hp, he, hE⟩ := ends
    refine ⟨by simp [Decimal.digits, hd], by simp [Decimal.afterDigits, hd], ?_, ?_⟩
    · rw [Decimal.Numeral.readFraction.eq_def]
      split
      · exact absurd (List.cons.inj ‹_›).1 hp
      · rfl
    · simp [Decimal.Numeral.readExponent, he, hE]

/-- No digit stands at the front of a text. -/
def Stops (rest : List Char) : Prop :=
  Decimal.digits rest = [] ∧ Decimal.afterDigits rest = rest

theorem stops_cons {c : Char} (h : Decimal.isDigit c = false) (rest : List Char) :
    Stops (c :: rest) := by
  simp [Stops, Decimal.digits, Decimal.afterDigits, h]

theorem Delimited.stops {rest : List Char} (h : Delimited rest) : Stops rest :=
  ⟨h.ends.1, h.ends.2.1⟩

theorem digits_append {ds rest : List Char} (hd : ∀ c ∈ ds, Decimal.isDigit c = true)
    (h : Stops rest) :
    Decimal.digits (ds ++ rest) = ds ∧ Decimal.afterDigits (ds ++ rest) = rest := by
  constructor
  · rw [Decimal.digits, List.takeWhile_append_of_pos hd, ← Decimal.digits, h.1, List.append_nil]
  · rw [Decimal.afterDigits, List.dropWhile_append_of_pos hd, ← Decimal.afterDigits, h.2]

theorem readWhole_toDigits (n : Nat) {rest : List Char} (h : Delimited rest) :
    Decimal.Numeral.readWhole (Nat.toDigits 10 n ++ rest) = some (Nat.toDigits 10 n, rest) := by
  rcases toDigits_eq_zero_or n with hz | ⟨c, ds, he, hc⟩
  · rw [hz]
    rfl
  · have hd : ∀ d ∈ c :: ds, Decimal.isDigit d = true := fun d hd =>
      isDigit_of_mem_toDigits (n := n) (he ▸ hd)
    have split := digits_append hd h.stops
    rw [he]
    rw [List.cons_append] at split ⊢
    rw [Decimal.Numeral.readWhole, if_pos (hd c List.mem_cons_self), split.1, split.2]
    exact hc

theorem readUnsigned_toDigits (negative : Bool) (n : Nat) {rest : List Char} (h : Delimited rest) :
    Decimal.Numeral.readUnsigned negative (Nat.toDigits 10 n ++ rest) =
      some (⟨negative, Nat.toDigits 10 n, none, none⟩, rest) := by
  rw [Decimal.Numeral.readUnsigned, readWhole_toDigits n h]
  simp [h.ends.2.2.1, h.ends.2.2.2]

/-- A text starts with a digit, or with a minus and a digit. -/
def OpensNumeral (t : List Char) : Prop :=
  ∃ c ds, t = c :: ds ∧
    (Decimal.isDigit c = true ∨ c = '-' ∧ ∃ d es, ds = d :: es ∧ Decimal.isDigit d = true)

theorem integerText_cons {n : Int} {t : List Char} (h : IntegerText n t) : OpensNumeral t := by
  have digits : ∀ n, ∃ c ds, Nat.toDigits 10 n = c :: ds ∧ Decimal.isDigit c = true := by
    intro n
    obtain ⟨c, ds, he⟩ := List.exists_cons_of_ne_nil (@Nat.toDigits_ne_nil n 10)
    exact ⟨c, ds, he, isDigit_of_mem_toDigits (n := n) (he ▸ List.mem_cons_self)⟩
  cases h with
  | @natural n =>
    obtain ⟨c, ds, he, hd⟩ := digits n
    exact ⟨c, ds, he, .inl hd⟩
  | @negative n =>
    obtain ⟨c, ds, he, hd⟩ := digits n
    exact ⟨'-', _, rfl, .inr ⟨rfl, c, ds, he, hd⟩⟩

theorem read_toDigits (n : Nat) {rest : List Char} (h : Delimited rest) :
    Decimal.Numeral.read (Nat.toDigits 10 n ++ rest) =
      some (⟨false, Nat.toDigits 10 n, none, none⟩, rest) := by
  rw [← readUnsigned_toDigits false n h, Decimal.Numeral.read.eq_def]
  split
  · rename_i cs he
    obtain ⟨c, ds, hc⟩ := List.exists_cons_of_ne_nil (@Nat.toDigits_ne_nil n 10)
    have hd := isDigit_of_mem_toDigits (n := n) (hc ▸ List.mem_cons_self)
    rw [hc, List.cons_append, List.cons.injEq] at he
    rw [he.1] at hd
    exact absurd hd (by decide)
  · rfl

theorem number_of_integerText {n : Int} {t rest : List Char} (h : IntegerText n t)
    (hr : Delimited rest) : number (t ++ rest) = .ok (.int n, rest) := by
  cases h with
  | @natural n h =>
    have few : ¬ Decimal.mostDigits < (Nat.toDigits 10 n).length := Nat.not_lt.mpr h
    simp [number, read_toDigits n hr, Decimal.Numeral.isInteger, Decimal.Numeral.toInt, few,
      natOfDigits_toDigits]
  | @negative n h =>
    have few : ¬ Decimal.mostDigits < (Nat.toDigits 10 n).length := Nat.not_lt.mpr h
    simp [number, Decimal.Numeral.read, readUnsigned_toDigits true n hr, Decimal.Numeral.isInteger,
      Decimal.Numeral.toInt, few, natOfDigits_toDigits]

/-- No other value starts as a numeral does. -/
theorem value_of_opensNumeral {t : List Char} (h : OpensNumeral t) (fuel room : Nat)
    (rest : List Char) : value (fuel + 1) room (t ++ rest) = number (t ++ rest) := by
  obtain ⟨c, ds, rfl, hc⟩ := h
  have other : ∀ d, Decimal.isDigit d = false → d ≠ '-' → c ≠ d := by
    rintro d hd hm rfl
    rcases hc with hc | ⟨rfl, -⟩
    · rw [hd] at hc
      exact absurd hc (by decide)
    · exact hm rfl
  rw [List.cons_append, value.eq_def]
  simp only
  split
  case h_9 heq =>
    obtain ⟨rfl, he⟩ := List.cons.inj heq
    rcases hc with hc | ⟨-, d, es, rfl, hd⟩
    · exact absurd hc (by decide)
    · rw [List.cons_append, List.cons.injEq] at he
      rw [he.1] at hd
      exact absurd hd (by decide)
  case h_10 => rfl
  all_goals exact absurd (List.cons.inj ‹_›).1 (other _ (by decide) (by decide))

/-! ## Values -/

/-- The first character of a value or of what stands in an array or an object. -/
structure Opens (c : Char) : Prop where
  notSpace : isSpace c = false
  notBracket : c ≠ ']'
  notBrace : c ≠ '\x7d'
  notMark : c ≠ '\ufeff'

theorem opens_digit {c : Char} (hc : Decimal.isDigit c = true) : Opens c := by
  have other : ∀ d, Decimal.isDigit d = false → c ≠ d := by
    rintro d hd rfl
    rw [hd] at hc
    exact absurd hc (by decide)
  refine ⟨?_, other _ (by decide), other _ (by decide), other _ (by decide)⟩
  simp [isSpace, other ' ' (by decide), other '\t' (by decide), other '\n' (by decide),
    other '\r' (by decide)]

theorem OpensNumeral.opens {t : List Char} (h : OpensNumeral t) : ∃ c r, t = c :: r ∧ Opens c := by
  obtain ⟨c, ds, rfl, hc | ⟨rfl, -⟩⟩ := h
  · exact ⟨c, ds, rfl, opens_digit hc⟩
  · exact ⟨'-', ds, rfl, by constructor <;> decide⟩

theorem opens_rendering {p : Phrase} {t : List Char} (h : Rendering p t) :
    ∃ c r, t = c :: r ∧ Opens c := by
  induction h with
  | integer h => exact (integerText_cons h).opens
  | item _ _ ih | items _ _ _ _ ih _ =>
    obtain ⟨c, r, rfl, hc⟩ := ih
    exact ⟨c, _, rfl, hc⟩
  | _ => exact ⟨_, _, rfl, by constructor <;> decide⟩

theorem skip_of_opens {t : List Char} (h : ∃ c r, t = c :: r ∧ Opens c) {b : List Char}
    (hb : Blank b) (rest : List Char) : skip (b ++ (t ++ rest)) = t ++ rest := by
  obtain ⟨c, r, rfl, hc⟩ := h
  rw [skip_of_blank hb, List.cons_append, skip_of_not_isSpace hc.notSpace]

theorem skip_rendering {p : Phrase} {t : List Char} (h : Rendering p t) {b : List Char}
    (hb : Blank b) (rest : List Char) : skip (b ++ (t ++ rest)) = t ++ rest :=
  skip_of_opens (opens_rendering h) hb rest

theorem skip_blank_cons {b : List Char} (hb : Blank b) {c : Char} (hc : isSpace c = false)
    (rest : List Char) : skip (b ++ c :: rest) = c :: rest := by
  rw [skip_of_blank hb, skip_of_not_isSpace hc]

/-- What the reader of a phrase does on a text of it that stands in front of another text. -/
def Reads (fuel room : Nat) : Phrase → List Char → Prop
  | .value v, t => ∀ rest, Delimited rest → value fuel room (t ++ rest) = .ok (v, rest)
  | .items vs, t => ∀ rest, items fuel room (t ++ ']' :: rest) = .ok (vs, rest)
  | .members ms, t => ∀ rest, members fuel room (t ++ '\x7d' :: rest) = .ok (ms, rest)

/-- The fuel that is enough for a text of a phrase. -/
def enough : Phrase → List Char → Nat
  | .value _, t => 2 * t.length
  | .items _, t | .members _, t => 2 * t.length + 1

theorem Reads.string {s : String} {t : List Char} {fuel room : Nat}
    (h : StringText s.toList t) : Reads (fuel + 1) room (.value (.string s)) ('"' :: (t ++ ['"'])) := by
  intro rest _
  rw [List.cons_append, List.append_assoc, List.singleton_append]
  change (Reader.string _).map _ = _
  rw [string_of_stringText h]
  rfl

theorem Reads.emptyArray {b : List Char} {fuel room : Nat} (hb : Blank b) :
    Reads (fuel + 1) (room + 1) (.value (.array [])) ('[' :: (b ++ [']'])) := by
  intro rest _
  rw [List.cons_append, List.append_assoc, List.singleton_append, value.eq_def]
  simp only [skip_blank_cons (c := ']') hb rfl]

theorem Reads.emptyObject {b : List Char} {fuel room : Nat} (hb : Blank b) :
    Reads (fuel + 1) (room + 1) (.value (.object [])) ('\x7b' :: (b ++ ['\x7d'])) := by
  intro rest _
  rw [List.cons_append, List.append_assoc, List.singleton_append, value.eq_def]
  simp only [skip_blank_cons (c := '\x7d') hb rfl]

theorem Reads.array {vs : List Value} {b t : List Char} {fuel room : Nat} (hb : Blank b)
    (h : Rendering (.items vs) t) (r : Reads fuel room (.items vs) t) :
    Reads (fuel + 1) (room + 1) (.value (.array vs)) ('[' :: (b ++ (t ++ [']']))) := by
  intro rest _
  have inside := skip_rendering h hb (']' :: rest)
  have read := r rest
  obtain ⟨c, cs, rfl, hc⟩ := opens_rendering h
  rw [List.cons_append, List.append_assoc, List.append_assoc, List.singleton_append, value.eq_def]
  rw [List.cons_append] at inside read ⊢
  simp [inside, hc.notBracket, read, Except.map]

theorem Reads.object {ms : Members} {b t : List Char} {fuel room : Nat} (hb : Blank b)
    (hn : (ms.map Prod.fst).Nodup) (h : Rendering (.members ms) t)
    (r : Reads fuel room (.members ms) t) :
    Reads (fuel + 1) (room + 1) (.value (.object ms)) ('\x7b' :: (b ++ (t ++ ['\x7d']))) := by
  intro rest _
  have inside := skip_rendering h hb ('\x7d' :: rest)
  have read := r rest
  obtain ⟨c, cs, rfl, hc⟩ := opens_rendering h
  rw [List.cons_append, List.append_assoc, List.append_assoc, List.singleton_append, value.eq_def]
  rw [List.cons_append] at inside read ⊢
  simp [inside, hc.notBrace, read, Except.map, Members.ofList_of_nodup hn]

theorem Reads.item {v : Value} {t b : List Char} {fuel room : Nat}
    (r : Reads fuel room (.value v) t) (hb : Blank b) :
    Reads (fuel + 1) room (.items [v]) (t ++ b) := by
  intro rest
  have read := r _ (Delimited.blank hb (delimited_bracket rest))
  rw [List.append_assoc, items.eq_def]
  simp only [read, skip_blank_cons (c := ']') hb rfl]

theorem Reads.items {v : Value} {vs : List Value} {t b c u : List Char} {fuel room : Nat}
    (r : Reads fuel room (.value v) t) (hb : Blank b) (hc : Blank c)
    (hs : Rendering (.items vs) u) (rs : Reads fuel room (.items vs) u) :
    Reads (fuel + 1) room (.items (v :: vs)) (t ++ (b ++ ',' :: (c ++ u))) := by
  intro rest
  have read := r _ (Delimited.blank hb (delimited_comma (c ++ (u ++ ']' :: rest))))
  simp only [List.append_assoc, List.cons_append]
  rw [items.eq_def]
  simp only [read, skip_blank_cons (c := ',') hb rfl, skip_rendering hs hc, rs rest, Except.map]

theorem Reads.member {name : String} {v : Value} {s b c t d : List Char} {fuel room : Nat}
    (hn : StringText name.toList s) (hb : Blank b) (hc : Blank c) (h : Rendering (.value v) t)
    (r : Reads fuel room (.value v) t) (hd : Blank d) :
    Reads (fuel + 1) room (.members [(↑name, v)])
      ('"' :: (s ++ '"' :: (b ++ ':' :: (c ++ (t ++ d))))) := by
  intro rest
  have read := r _ (Delimited.blank hd (delimited_brace rest))
  simp only [List.append_assoc, List.cons_append]
  rw [members.eq_def]
  simp only [string_of_stringText hn, skip_blank_cons (c := ':') hb rfl, skip_rendering h hc, read,
    skip_blank_cons (c := '\x7d') hd rfl]

theorem Reads.members {name : String} {v : Value} {ms : Members} {s b c t d e u : List Char}
    {fuel room : Nat} (hn : StringText name.toList s) (hb : Blank b) (hc : Blank c)
    (h : Rendering (.value v) t) (r : Reads fuel room (.value v) t) (hd : Blank d) (he : Blank e)
    (hs : Rendering (.members ms) u) (rs : Reads fuel room (.members ms) u) :
    Reads (fuel + 1) room (.members ((↑name, v) :: ms))
      ('"' :: (s ++ '"' :: (b ++ ':' :: (c ++ (t ++ (d ++ ',' :: (e ++ u))))))) := by
  intro rest
  have read := r _ (Delimited.blank hd (delimited_comma (e ++ (u ++ '\x7d' :: rest))))
  simp only [List.append_assoc, List.cons_append]
  rw [members.eq_def]
  simp only [string_of_stringText hn, skip_blank_cons (c := ':') hb rfl, skip_rendering h hc, read,
    skip_blank_cons (c := ',') hd rfl, skip_rendering hs he, rs rest, Except.map]

theorem spend {k fuel : Nat} (h : k + 1 ≤ fuel) : ∃ f, fuel = f + 1 ∧ k ≤ f :=
  ⟨fuel - 1, by omega, by omega⟩

/-- By induction on the rendering. What is inside of a bracket is shorter than the text by more
than the fuel that the bracket takes. -/
theorem reads_rendering {p : Phrase} {t : List Char} (h : Rendering p t) :
    ∀ fuel room, enough p t ≤ fuel → p.depth ≤ room → Reads fuel room p t := by
  induction h with
  | null | yes | no =>
    intro fuel room hf _
    obtain ⟨fuel, rfl, -⟩ := spend hf
    exact fun rest _ => rfl
  | integer h =>
    intro fuel room hf _ rest hr
    obtain ⟨c, ds, rfl, -⟩ := integerText_cons h
    obtain ⟨fuel, rfl, -⟩ := spend hf
    rw [value_of_opensNumeral (integerText_cons h), number_of_integerText h hr]
  | string h =>
    intro fuel room hf _
    obtain ⟨fuel, rfl, -⟩ := spend hf
    exact .string h
  | emptyArray hb =>
    intro fuel room hf hd
    obtain ⟨fuel, rfl, -⟩ := spend hf
    obtain ⟨room, rfl, -⟩ := spend hd
    exact .emptyArray hb
  | emptyObject hb =>
    intro fuel room hf hd
    obtain ⟨fuel, rfl, -⟩ := spend hf
    obtain ⟨room, rfl, -⟩ := spend hd
    exact .emptyObject hb
  | array hb h ih =>
    intro fuel room hf hd
    simp only [enough, List.length_cons, List.length_append] at hf ih
    obtain ⟨fuel, rfl, hf⟩ := spend hf
    obtain ⟨room, rfl, inside⟩ := spend hd
    exact .array hb h (ih fuel room (by omega) inside)
  | object hb hn h ih =>
    intro fuel room hf hd
    simp only [enough, List.length_cons, List.length_append] at hf ih
    obtain ⟨fuel, rfl, hf⟩ := spend hf
    obtain ⟨room, rfl, inside⟩ := spend hd
    exact .object hb hn h (ih fuel room (by omega) inside)
  | item h hb ih =>
    intro fuel room hf hd
    simp only [enough, List.length_append] at hf ih
    obtain ⟨fuel, rfl, hf⟩ := spend hf
    exact .item (ih fuel room (by omega) (Nat.le_trans (Nat.le_max_left ..) hd)) hb
  | items h hb hc hs ih ihs =>
    intro fuel room hf hd
    simp only [enough, List.length_append, List.length_cons] at hf ih ihs
    obtain ⟨fuel, rfl, hf⟩ := spend hf
    exact .items (ih fuel room (by omega) (Nat.le_trans (Nat.le_max_left ..) hd)) hb hc hs
      (ihs fuel room (by omega) (Nat.le_trans (Nat.le_max_right ..) hd))
  | member hn hb hc h hd ih =>
    intro fuel room hf hr
    simp only [enough, List.length_append, List.length_cons] at hf ih
    obtain ⟨fuel, rfl, hf⟩ := spend hf
    exact .member hn hb hc h (ih fuel room (by omega) (Nat.le_trans (Nat.le_max_left ..) hr)) hd
  | members hn hb hc h hd he hs ih ihs =>
    intro fuel room hf hr
    simp only [enough, List.length_append, List.length_cons] at hf ih ihs
    obtain ⟨fuel, rfl, hf⟩ := spend hf
    exact .members hn hb hc h (ih fuel room (by omega) (Nat.le_trans (Nat.le_max_left ..) hr)) hd he
      hs (ihs fuel room (by omega) (Nat.le_trans (Nat.le_max_right ..) hr))

/-! ## Whole texts -/

theorem not_marked {b t : List Char} (hb : Blank b) (h : ∃ c r, t = c :: r ∧ Opens c)
    (c rest : List Char) : b ++ (t ++ c) ≠ '\ufeff' :: rest := by
  intro he
  cases b with
  | nil =>
    obtain ⟨d, r, rfl, hd⟩ := h
    exact hd.notMark (List.cons.inj he).1
  | cons d b =>
    have blank := hb d List.mem_cons_self
    rw [(List.cons.inj he).1] at blank
    exact absurd blank (by decide)

/-- A text that stands for a value is read as this value, wherever it may be nested so deeply. -/
theorem document_eq {v : Value} {text : List Char} (h : Document v text) {room : Nat}
    (hr : v.depth ≤ room) : document room text = .ok v := by
  obtain @⟨b, t, c, hb, h, hc⟩ := h
  have after : Delimited c := by
    have := Delimited.blank hc (show Delimited [] from trivial)
    rwa [List.append_nil] at this
  have read := reads_rendering h (2 * (b ++ (t ++ c)).length + 1) room
    (by simp only [enough, List.length_append]; omega) hr c after
  have done : skip c = [] := by
    rw [← List.append_nil c, skip_of_blank hc, skip_nil]
  rw [document.eq_def]
  split
  · rename_i he
    exact absurd he (not_marked hb (opens_rendering h) c _)
  · rw [skip_rendering h hb c, read]
    simp only [done]

end FlagPoll.Json.Reader
