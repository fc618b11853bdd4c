/-!
# FlagPoll.Text.CodePoints

Texts by their code points. Unlike the characters of a string these may be surrogates that have
lost their partner, as the escapes of JSON can write them.

* `lt`                 — the first difference decides, or else the length.
* `toString_ofString`  — a text without surrogates is the string that it was made of.
-/

namespace FlagPoll

structure CodePoints where
  points : List Nat
  deriving DecidableEq, Repr, Inhabited

namespace CodePoints

def ofString (s : String) : CodePoints := ⟨s.toList.map Char.toNat⟩

instance coeString : Coe String CodePoints := ⟨ofString⟩

def isHighSurrogate (n : Nat) : Bool := 0xD800 ≤ n && n ≤ 0xDBFF

def isLowSurrogate (n : Nat) : Bool := 0xDC00 ≤ n && n ≤ 0xDFFF

/-- A code point as a character; a surrogate on its own has none and is shown as a substitute. -/
def scalar (n : Nat) : Char :=
  if isHighSurrogate n || isLowSurrogate n then '\ufffd' else Char.ofNat n

def toString (t : CodePoints) : String := String.ofList (t.points.map scalar)

def length (t : CodePoints) : Nat := t.points.length

/-- The code points of a text, each a text of its own. -/
def singletons (t : CodePoints) : List CodePoints := t.points.map fun n => ⟨[n]⟩

def lt (a b : CodePoints) : Bool := a.points < b.points

theorem scalar_toNat (c : Char) : scalar c.toNat = c := by
  have hc : (isHighSurrogate c.toNat || isLowSurrogate c.toNat) = false := by
    have h := c.valid
    simp only [UInt32.isValidChar, Nat.isValidChar] at h
    have e : c.toNat = c.val.toNat := rfl
    simp only [isHighSurrogate, isLowSurrogate, Bool.or_eq_false_iff, Bool.and_eq_false_iff,
      decide_eq_false_iff_not]
    omega
  rw [scalar, hc]
  exact Char.ofNat_toNat c

theorem toString_ofString (s : String) : (ofString s).toString = s := by
  have h : (s.toList.map Char.toNat).map scalar = s.toList := by
    rw [List.map_map]
    exact (List.map_congr_left fun c _ => scalar_toNat c).trans (List.map_id _)
  rw [toString, ofString, h, String.ofList_toList]

theorem ofString_inj {s t : String} : ofString s = ofString t ↔ s = t :=
  ⟨fun h => by rw [← toString_ofString s, h, toString_ofString], fun h => h ▸ rfl⟩

end CodePoints
end FlagPoll
