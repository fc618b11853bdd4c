import FlagPoll.Synchronizer.Basic

/-!
# FlagPoll.Proofs.Synchronizer.Change

When each change of a synchronizer is made, and all that it does.

A change of the status counts the sequence up and carries the new sequence and the new status.
-/

namespace FlagPoll.Synchronizer

variable {τ κ : Type} {s n : Synchronizer τ κ} {c : Change τ} {now : τ} {reason : ErrorInfo τ}

theorem enter_eq {state : Lifecycle} (h : s.state ≠ state) :
    s.enter state now =
      ({ s with state, since := now, sequence := s.sequence + 1 },
        ⟨s.sequence + 1, ⟨state, now, s.lastError⟩⟩) := by
  simp [enter, changed, status, h]

theorem begin?_eq_some : s.begin? now = some (n, c) ↔
    s.state = .notStarted ∧
      n = { s with state := .polling, since := now, sequence := s.sequence + 1 } ∧
      c = ⟨n.sequence, n.status⟩ := by
  unfold begin?
  split
  · rename_i h
    rw [enter_eq (by simp [h])]
    simp only [h, true_and, Option.some.injEq, Prod.mk.injEq]
    constructor <;> rintro ⟨rfl, rfl⟩ <;> exact ⟨rfl, rfl⟩
  · simp_all

theorem close?_eq_some : s.close? now = some (n, c) ↔
    s.state ≠ .closed ∧
      n = { s with state := .closed, since := now, stopped := true, sequence := s.sequence + 1 } ∧
      c = ⟨n.sequence, n.status⟩ := by
  unfold close?
  split
  · simp_all
  · rename_i h
    have hs : ({ s with stopped := true } : Synchronizer τ κ).state ≠ .closed := h
    rw [enter_eq hs]
    simp only [h, ne_eq, not_false_eq_true, true_and, Option.some.injEq, Prod.mk.injEq]
    constructor <;> rintro ⟨rfl, rfl⟩ <;> exact ⟨rfl, rfl⟩

theorem poll?_eq_some : s.poll? = some n ↔
    s.state.isActive = true ∧ n = { s with fetching := true } := by
  unfold poll?
  split
  · rename_i h
    simp only [h, true_and, Option.some.injEq]
    exact eq_comm
  · simp_all

theorem initialize?_eq_some : s.initialize? now = some (n, c) ↔
    s.state = .polling ∧
      n = { s with state := .initialized, since := now, sequence := s.sequence + 1 } ∧
      c = ⟨n.sequence, n.status⟩ := by
  unfold initialize?
  split
  · rename_i h
    rw [enter_eq (by simp [h])]
    simp only [h, true_and, Option.some.injEq, Prod.mk.injEq]
    constructor <;> rintro ⟨rfl, rfl⟩ <;> exact ⟨rfl, rfl⟩
  · simp_all

theorem recover?_eq_some : s.recover? reason = some (n, c) ↔
    s.state.isActive = true ∧
      n = { s with lastError := some reason, sequence := s.sequence + 1 } ∧
      c = ⟨n.sequence, n.status⟩ := by
  unfold recover?
  split
  · rename_i h
    simp only [h, changed, true_and, Option.some.injEq, Prod.mk.injEq]
    constructor <;> rintro ⟨rfl, rfl⟩ <;> exact ⟨rfl, rfl⟩
  · simp_all

theorem giveUp?_eq_some : s.giveUp? reason now = some (n, c) ↔
    s.state.isActive = true ∧
      n = { s with
        state := .permanentlyFailed, since := now, lastError := some reason, stopped := true,
        sequence := s.sequence + 1 } ∧
      c = ⟨n.sequence, n.status⟩ := by
  unfold giveUp?
  split
  · rename_i h
    have hs : ({ s with lastError := some reason, stopped := true } : Synchronizer τ κ).state ≠
        .permanentlyFailed := by
      intro hs
      simp_all [Lifecycle.isActive]
    rw [enter_eq hs]
    simp only [h, true_and, Option.some.injEq, Prod.mk.injEq]
    constructor <;> rintro ⟨rfl, rfl⟩ <;> exact ⟨rfl, rfl⟩
  · simp_all

theorem admit?_eq_some {number : Nat} : s.admit? number = some n ↔
    s.notified < number ∧ n = { s with notified := number } := by
  unfold admit?
  split
  · simp; omega
  · simp [eq_comm]; omega

end FlagPoll.Synchronizer
