import FlagPoll.Agenda

/-!
# FlagPoll.Proofs.Agenda

The calls of an agenda: all that were given, in some order, and the one that is due is the first.
-/

namespace FlagPoll.Agenda

variable {τ ω : Type} [Time τ] {a rest : Agenda τ ω} {moment : τ} {e : τ × ω}

theorem due?_eq_some : a.due? moment = some (e, rest) ↔ a = e :: rest ∧ e.1 ≤ moment := by
  unfold due?
  grind

theorem eq_of_due (h : a.due? moment = some (e, rest)) : a = e :: rest := (due?_eq_some.mp h).1

theorem perm_insert (e : τ × ω) (a : Agenda τ ω) : (insert e a).Perm (e :: a) := by
  induction a with
  | nil => exact .refl _
  | cons f a ih =>
    simp only [insert]
    split
    · exact .refl _
    · exact (ih.cons f).trans (.swap e f a)

theorem perm_ofList (es : List (τ × ω)) : (ofList es).Perm es := by
  suffices h : ∀ a : Agenda τ ω, (es.foldl (fun a e => insert e a) a).Perm (a ++ es) from h []
  induction es with
  | nil => simp
  | cons e es ih =>
    intro a
    refine (ih _).trans ?_
    refine ((perm_insert e a).append_right es).trans ?_
    simpa using List.perm_middle.symm

theorem mem_ofList {es : List (τ × ω)} (h : e ∈ ofList es) : e ∈ es := (perm_ofList es).mem_iff.mp h

end FlagPoll.Agenda
