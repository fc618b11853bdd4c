/-!
# FlagPoll.Text.Split

Cutting texts at a character.

* `before`, `after?`         — around the first place of a character.
* `beforeLast?`, `afterLast` — around the last place.
* `fields`                   — the pieces between all places.
-/

namespace FlagPoll.Text

def before (c : Char) (cs : List Char) : List Char := cs.takeWhile (· ≠ c)

def after? (c : Char) (cs : List Char) : Option (List Char) :=
  match cs.dropWhile (· ≠ c) with
  | [] => none
  | _ :: rest => some rest

def beforeLast? (c : Char) (cs : List Char) : Option (List Char) :=
  (after? c cs.reverse).map List.reverse

def afterLast (c : Char) (cs : List Char) : List Char := (before c cs.reverse).reverse

/-- The pieces of a text between the places of a character. -/
def fields (c : Char) : List Char → List (List Char)
  | [] => [[]]
  | d :: rest =>
    if d = c then [] :: fields c rest
    else
      match fields c rest with
      | [] => [[d]]
      | f :: fs => (d :: f) :: fs

theorem fields_ne_nil (c : Char) (cs : List Char) : fields c cs ≠ [] := by
  cases cs with
  | nil => simp [fields]
  | cons d rest =>
    simp only [fields]
    split
    · simp
    · split <;> simp

theorem before_append_after {c : Char} {cs rest : List Char} (h : after? c cs = some rest) :
    before c cs ++ c :: rest = cs := by
  induction cs with
  | nil => simp [after?] at h
  | cons d ds ih =>
    by_cases hd : d = c
    · subst hd; simp_all [after?, before]
    · simp only [after?, before, List.dropWhile_cons, List.takeWhile_cons, hd, ne_eq,
        not_false_eq_true, decide_true, if_true] at h ih ⊢
      simpa using ih h

end FlagPoll.Text
