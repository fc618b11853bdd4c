import FlagPoll.Json.Reader

/-!
# FlagPoll.Proofs.Json.Rendering

The texts that stand for a JSON value, whoever wrote them: any blanks between tokens, characters
raw or escaped, digits of escapes small or capital, and nothing that is not in the grammar.
Binary64 numbers are left out.

* `CharText`, `StringText`, `IntegerText` — a character in a string, its characters, an integer.
* `Phrase`                                — a value, or what stands in an array or an object.
* `Rendering`                             — the texts of a phrase; names in an object are distinct.
* `Document`                              — a value between blanks.
* `Value.depth`                           — how many arrays and objects are inside each other.
-/

namespace FlagPoll.Json

def Blank (b : List Char) : Prop := ∀ c ∈ b, c = ' ' ∨ c = '\t' ∨ c = '\n' ∨ c = '\r'

/-- A digit of base sixteen. -/
inductive HexDigit : Nat → Char → Prop
  | small {n : Nat} (h : n < 16) : HexDigit n (Nat.digitChar n)
  | capital {n : Nat} (h : n < 16) : HexDigit n (Nat.digitChar n).toUpper

/-- A code unit of sixteen bits, escaped by its number. -/
inductive UnitText : Nat → List Char → Prop
  | mk {p q r s : Nat} {a b c d : Char} (hp : HexDigit p a) (hq : HexDigit q b)
      (hr : HexDigit r c) (hs : HexDigit s d) :
      UnitText (4096 * p + 256 * q + 16 * r + s) ['\\', 'u', a, b, c, d]

/-- The letters that stand for a character behind a backslash. -/
def shortEscapes : List (Char × Char) :=
  [('"', '"'), ('\\', '\\'), ('/', '/'), ('\x08', 'b'), ('\x0c', 'f'), ('\n', 'n'), ('\r', 'r'),
    ('\t', 't')]

/-- A character inside a string. Control characters, quotes and backslashes are not written raw;
a character beyond the first 65536 is escaped by two surrogates. -/
inductive CharText : Char → List Char → Prop
  | raw {c : Char} (hc : 0x20 ≤ c.toNat) (hq : c ≠ '"') (hb : c ≠ '\\') : CharText c [c]
  | short {c e : Char} (h : (c, e) ∈ shortEscapes) : CharText c ['\\', e]
  | unit {c : Char} {t : List Char} (h : UnitText c.toNat t) : CharText c t
  | pair {c : Char} {t u : List Char} {high low : Nat} (ht : UnitText (0xD800 + high) t)
      (hu : UnitText (0xDC00 + low) u) (hh : high < 0x400) (hl : low < 0x400)
      (hc : c.toNat = 0x10000 + 0x400 * high + low) : CharText c (t ++ u)

/-- The characters of a string, one after the other. -/
inductive StringText : List Char → List Char → Prop
  | nil : StringText [] []
  | cons {c : Char} {cs t u : List Char} (h : CharText c t) (hs : StringText cs u) :
      StringText (c :: cs) (t ++ u)

theorem stringText_raw {cs : List Char}
    (h : ∀ c ∈ cs, 0x20 ≤ c.toNat ∧ c ≠ '"' ∧ c ≠ '\\') : StringText cs cs := by
  induction cs with
  | nil => exact .nil
  | cons c cs ih =>
    obtain ⟨hc, hq, hb⟩ := h c List.mem_cons_self
    exact .cons (.raw hc hq hb) (ih fun d hd => h d (List.mem_cons_of_mem _ hd))

theorem stringText_of_all {cs : List Char}
    (h : (cs.all fun c => 0x20 ≤ c.toNat && c != '"' && c != '\\') = true) : StringText cs cs := by
  refine stringText_raw fun c hc => ?_
  simpa [and_assoc] using List.all_eq_true.mp h c hc

/-- An integer of at most 4300 digits. -/
inductive IntegerText : Int → List Char → Prop
  | natural {n : Nat} (h : Decimal.digitCount n ≤ Decimal.mostDigits) :
      IntegerText n (Nat.toDigits 10 n)
  | negative {n : Nat} (h : Decimal.digitCount n ≤ Decimal.mostDigits) :
      IntegerText (-n) ('-' :: Nat.toDigits 10 n)

inductive Phrase where
  | value (v : Value)
  | items (vs : List Value)
  | members (ms : Members)

/-- The texts of a phrase. Items and members are at least one, and blanks may follow the last. -/
inductive Rendering : Phrase → List Char → Prop
  | null : Rendering (.value .null) ['n', 'u', 'l', 'l']
  | yes : Rendering (.value (.bool true)) ['t', 'r', 'u', 'e']
  | no : Rendering (.value (.bool false)) ['f', 'a', 'l', 's', 'e']
  | integer {n : Int} {t : List Char} (h : IntegerText n t) : Rendering (.value (.int n)) t
  | string {s : String} {t : List Char} (h : StringText s.toList t) :
      Rendering (.value (.string s)) ('"' :: (t ++ ['"']))
  | emptyArray {b : List Char} (hb : Blank b) :
      Rendering (.value (.array [])) ('[' :: (b ++ [']']))
  | array {vs : List Value} {b t : List Char} (hb : Blank b) (h : Rendering (.items vs) t) :
      Rendering (.value (.array vs)) ('[' :: (b ++ (t ++ [']'])))
  | emptyObject {b : List Char} (hb : Blank b) :
      Rendering (.value (.object [])) ('\x7b' :: (b ++ ['\x7d']))
  | object {ms : Members} {b t : List Char} (hb : Blank b) (hn : (ms.map Prod.fst).Nodup)
      (h : Rendering (.members ms) t) :
      Rendering (.value (.object ms)) ('\x7b' :: (b ++ (t ++ ['\x7d'])))
  | item {v : Value} {t b : List Char} (h : Rendering (.value v) t) (hb : Blank b) :
      Rendering (.items [v]) (t ++ b)
  | items {v : Value} {vs : List Value} {t b c u : List Char} (h : Rendering (.value v) t)
      (hb : Blank b) (hc : Blank c) (hs : Rendering (.items vs) u) :
      Rendering (.items (v :: vs)) (t ++ (b ++ ',' :: (c ++ u)))
  | member {name : String} {v : Value} {s b c t d : List Char} (hn : StringText name.toList s)
      (hb : Blank b) (hc : Blank c) (h : Rendering (.value v) t) (hd : Blank d) :
      Rendering (.members [(↑name, v)]) ('"' :: (s ++ '"' :: (b ++ ':' :: (c ++ (t ++ d)))))
  | members {name : String} {v : Value} {ms : Members} {s b c t d e u : List Char}
      (hn : StringText name.toList s) (hb : Blank b) (hc : Blank c) (h : Rendering (.value v) t)
      (hd : Blank d) (he : Blank e) (hs : Rendering (.members ms) u) :
      Rendering (.members ((↑name, v) :: ms))
        ('"' :: (s ++ '"' :: (b ++ ':' :: (c ++ (t ++ (d ++ ',' :: (e ++ u)))))))

/-- A whole text: a value between blanks. -/
inductive Document (v : Value) : List Char → Prop
  | mk {b t c : List Char} (hb : Blank b) (h : Rendering (.value v) t) (hc : Blank c) :
      Document v (b ++ (t ++ c))

mutual

/-- How many arrays and objects are inside each other. -/
def Value.depth : Value → Nat
  | .array vs => itemsDepth vs + 1
  | .object ms => membersDepth ms + 1
  | _ => 0

def Value.itemsDepth : List Value → Nat
  | [] => 0
  | v :: rest => max v.depth (itemsDepth rest)

def Value.membersDepth : List (CodePoints × Value) → Nat
  | [] => 0
  | (_, v) :: rest => max v.depth (membersDepth rest)

end

def Phrase.depth : Phrase → Nat
  | .value v => v.depth
  | .items vs => Value.itemsDepth vs
  | .members ms => Value.membersDepth ms

end FlagPoll.Json
