import FlagPoll.Proofs.Json.Rendering

/-!
# FlagPoll.Proofs.Json.Spelling

The texts that are accepted as JSON, and the values that they stand for. Besides the renderings of
`Rendering` these are numerals with a fraction or an exponent, `NaN` and the infinities, escaped
surrogates without a partner, and objects in which names are repeated.

* `UnitsSpelling`              — what is inside of a string, by its code units.
* `NumeralText`, `NumberText`  — numerals, and the numbers they stand for.
* `Spelling`                   — the texts of a phrase.
* `Written`                    — a value between blanks.
-/

namespace FlagPoll.Json

/-! ## Strings -/

/-- The inside of a string, by its code units: characters are written raw unless they are control
characters, quotes or backslashes; some have an escape of their own, and any code unit may be
written by its number. -/
inductive UnitsSpelling : List Nat → List Char → Prop
  | nil : UnitsSpelling [] []
  | raw {c : Char} {us : List Nat} {t : List Char} (hc : 0x20 ≤ c.toNat) (hq : c ≠ '"')
      (hb : c ≠ '\\') (h : UnitsSpelling us t) : UnitsSpelling (c.toNat :: us) (c :: t)
  | short {c e : Char} {us : List Nat} {t : List Char} (he : (c, e) ∈ shortEscapes)
      (h : UnitsSpelling us t) : UnitsSpelling (c.toNat :: us) ('\\' :: e :: t)
  | unit {n : Nat} {us : List Nat} {u t : List Char} (hu : UnitText n u)
      (h : UnitsSpelling us t) : UnitsSpelling (n :: us) (u ++ t)

/-! ## Numbers -/

/-- At least one digit. -/
structure Digits (ds : List Char) : Prop where
  some : ds ≠ []
  all : ∀ c ∈ ds, Decimal.isDigit c = true

theorem Digits.exists_cons {ds : List Char} (h : Digits ds) :
    ∃ c cs, ds = c :: cs ∧ Decimal.isDigit c = true := by
  obtain ⟨c, cs, rfl⟩ := List.exists_cons_of_ne_nil h.some
  exact ⟨c, cs, rfl, h.all c List.mem_cons_self⟩

/-- The digits before the point: a lone zero, or digits that do not start with one. -/
structure WholeText (ds : List Char) : Prop where
  digits : Digits ds
  lean : ds = ['0'] ∨ ds.head? ≠ some '0'

inductive FractionText : Option (List Char) → List Char → Prop
  | none : FractionText none []
  | some {ds : List Char} (h : Digits ds) : FractionText (some ds) ('.' :: ds)

/-- The sign of an exponent, and whether it makes it negative. -/
inductive SignText : Bool → List Char → Prop
  | none : SignText false []
  | plus : SignText false ['+']
  | minus : SignText true ['-']

inductive ExponentText : Option (Bool × List Char) → List Char → Prop
  | none : ExponentText none []
  | some {e : Char} {negative : Bool} {s ds : List Char} (he : e = 'e' ∨ e = 'E')
      (hs : SignText negative s) (h : Digits ds) :
      ExponentText (some (negative, ds)) (e :: (s ++ ds))

inductive NumeralText : Decimal.Numeral → List Char → Prop
  | natural {whole f x : List Char} {fraction : Option (List Char)}
      {exponent : Option (Bool × List Char)} (hw : WholeText whole) (hf : FractionText fraction f)
      (hx : ExponentText exponent x) :
      NumeralText ⟨false, whole, fraction, exponent⟩ (whole ++ (f ++ x))
  | negative {whole f x : List Char} {fraction : Option (List Char)}
      {exponent : Option (Bool × List Char)} (hw : WholeText whole) (hf : FractionText fraction f)
      (hx : ExponentText exponent x) :
      NumeralText ⟨true, whole, fraction, exponent⟩ ('-' :: (whole ++ (f ++ x)))

/-- A numeral without fraction and exponent is an integer, of at most 4300 digits. -/
inductive NumberText : Value → List Char → Prop
  | integer {n : Decimal.Numeral} {t : List Char} (h : NumeralText n t) (hi : n.isInteger = true)
      (hd : n.whole.length ≤ Decimal.mostDigits) : NumberText (.int n.toInt) t
  | real {n : Decimal.Numeral} {t : List Char} (h : NumeralText n t) (hi : n.isInteger = false) :
      NumberText (.float (.ofNumeral n)) t

/-! ## Values -/

/-- The texts of a phrase. Items and members are at least one, and blanks may follow the last. Of
members of the same name the last one counts. -/
inductive Spelling : Phrase → List Char → Prop
  | null : Spelling (.value .null) ['n', 'u', 'l', 'l']
  | yes : Spelling (.value (.bool true)) ['t', 'r', 'u', 'e']
  | no : Spelling (.value (.bool false)) ['f', 'a', 'l', 's', 'e']
  | nan : Spelling (.value (.float .nan)) ['N', 'a', 'N']
  | infinity : Spelling (.value (.float (.infinite false)))
      ['I', 'n', 'f', 'i', 'n', 'i', 't', 'y']
  | minusInfinity : Spelling (.value (.float (.infinite true)))
      ['-', 'I', 'n', 'f', 'i', 'n', 'i', 't', 'y']
  | number {v : Value} {t : List Char} (h : NumberText v t) : Spelling (.value v) t
  | string {us : List Nat} {t : List Char} (h : UnitsSpelling us t) :
      Spelling (.value (.string ⟨Reader.join us⟩)) ('"' :: (t ++ ['"']))
  | emptyArray {b : List Char} (hb : Blank b) :
      Spelling (.value (.array [])) ('[' :: (b ++ [']']))
  | array {vs : List Value} {b t : List Char} (hb : Blank b) (h : Spelling (.items vs) t) :
      Spelling (.value (.array vs)) ('[' :: (b ++ (t ++ [']'])))
  | emptyObject {b : List Char} (hb : Blank b) :
      Spelling (.value (.object [])) ('\x7b' :: (b ++ ['\x7d']))
  | object {ms : Members} {b t : List Char} (hb : Blank b) (h : Spelling (.members ms) t) :
      Spelling (.value (.object (Members.ofList ms))) ('\x7b' :: (b ++ (t ++ ['\x7d'])))
  | item {v : Value} {t b : List Char} (h : Spelling (.value v) t) (hb : Blank b) :
      Spelling (.items [v]) (t ++ b)
  | items {v : Value} {vs : List Value} {t b c u : List Char} (h : Spelling (.value v) t)
      (hb : Blank b) (hc : Blank c) (hs : Spelling (.items vs) u) :
      Spelling (.items (v :: vs)) (t ++ (b ++ ',' :: (c ++ u)))
  | member {us : List Nat} {v : Value} {s b c t d : List Char} (hn : UnitsSpelling us s)
      (hb : Blank b) (hc : Blank c) (h : Spelling (.value v) t) (hd : Blank d) :
      Spelling (.members [(⟨Reader.join us⟩, v)])
        ('"' :: (s ++ '"' :: (b ++ ':' :: (c ++ (t ++ d)))))
  | members {us : List Nat} {v : Value} {ms : Members} {s b c t d e u : List Char}
      (hn : UnitsSpelling us s) (hb : Blank b) (hc : Blank c) (h : Spelling (.value v) t)
      (hd : Blank d) (he : Blank e) (hs : Spelling (.members ms) u) :
      Spelling (.members ((⟨Reader.join us⟩, v) :: ms))
        ('"' :: (s ++ '"' :: (b ++ ':' :: (c ++ (t ++ (d ++ ',' :: (e ++ u)))))))

/-- A whole text: a value between blanks. -/
inductive Written (v : Value) : List Char → Prop
  | mk {b t c : List Char} (hb : Blank b) (h : Spelling (.value v) t) (hc : Blank c) :
      Written v (b ++ (t ++ c))

end FlagPoll.Json
