import FlagPoll.Proofs.Synchronizer.Run

/-!
# FlagPoll.Proofs.Synchronizer.Calls

Which calls are made in a run, and where polls begin.

* `Op.Every`    — all calls within a call are of one kind.
* `World.Every` — callees make calls of that kind only.
* `Op.Outer`    — a call of that kind, or one poll that is made while nothing is in progress.
* `Calls`       — what follows for all that is still to be done: polls begin above the schedule.

Polls are made by the polling task. A call of a poll stands for one that is made in its place, so
callees make none, and neither do calls at given moments.
-/

namespace FlagPoll.Synchronizer

variable {τ κ : Type}

inductive Op.Every (p : Op τ κ → Prop) : Op τ κ → Prop where
  | within {ops : List (Op τ κ)} (h : ∀ op ∈ ops, Op.Every p op) : Op.Every p (.within ops)
  | other {op : Op τ κ} (hw : ∀ ops, op ≠ .within ops) (h : p op) : Op.Every p op

def Op.IsPoll (op : Op τ κ) : Prop := ∃ own, op = .poll own

theorem Op.not_isPoll_start : ¬ (Op.start : Op τ κ).IsPoll := by
  rintro ⟨own, h⟩
  cases h

theorem Op.not_isPoll_close : ¬ (Op.close : Op τ κ).IsPoll := by
  rintro ⟨own, h⟩
  cases h

/-- The calls during a response of a poll's own satisfy `p`, and `q` says which responses a poll may
have of its own. -/
def OwnEvery (p : Op τ κ → Prop) (q : Option (Response τ (Op τ κ)) → Prop)
    (own : Option (Response τ (Op τ κ))) : Prop :=
  q own ∧ ∀ r, own = some r → ∀ op ∈ r.during, op.Every p

/-- A call that satisfies a property, or a poll during which only such calls are made. -/
inductive Op.Outer (p : Op τ κ → Prop) (q : Option (Response τ (Op τ κ)) → Prop) :
    Op τ κ → Prop where
  | call {op : Op τ κ} (h : op.Every p) : Op.Outer p q op
  | poll {own : Option (Response τ (Op τ κ))} (h : OwnEvery p q own) : Op.Outer p q (.poll own)

structure World.Every (p : Op τ κ → Prop) (w : World τ κ) : Prop where
  during : ∀ n, ∀ op ∈ (w.response n).during, op.Every p
  before : ∀ n, ∀ op ∈ (w.write n).before, op.Every p
  after : ∀ n, ∀ op ∈ (w.write n).after, op.Every p
  closing : ∀ n, ∀ op ∈ (w.closing n).ops, op.Every p
  listener : ∀ n k s, ∀ op ∈ (w.listener n k s).ops, op.Every p
  callback : ∀ n k c, ∀ op ∈ (w.callback n k c).ops, op.Every p

/-- The calls that a task is yet to make satisfy a property. -/
def Task.Every (p : Op τ κ → Prop) (q : Option (Response τ (Op τ κ)) → Prop) : Task τ κ → Prop
  | .perform op => op.Outer p q
  | .gather ops _ | .collect ops _ => ∀ op ∈ ops, op.Every p
  | .poll own => OwnEvery p q own
  | .write _ _ script => ∀ op ∈ script.after, op.Every p
  | _ => True

/-- The tasks that lie above tasks of the schedule only. -/
def Task.isGrounded : Task τ κ → Bool
  | .poll _ | .perform (.poll _) => true
  | t => t.isBase

theorem Task.isGrounded_of_isBase {t : Task τ κ} (h : t.isBase = true) : t.isGrounded = true := by
  cases t <;> simp_all [Task.isGrounded, Task.isBase]

@[simp] theorem Task.isGrounded_clearItem (n : Nat) (kind : Kind) (key : CodePoints)
    (t : Task τ κ) : (t.clearItem n kind key).isGrounded = t.isGrounded := by
  cases t <;> rfl

variable {p : Op τ κ → Prop} {q : Option (Response τ (Op τ κ)) → Prop} {t u : Task τ κ}

theorem Task.Every.clearItem (h : t.Every p q) (n : Nat) (kind : Kind) (key : CodePoints) :
    (t.clearItem n kind key).Every p q := by
  cases t <;> exact h

theorem Task.every_of_isPlain (h : t.isPlain = true) : t.Every p q := by
  cases t <;> simp_all [Task.isPlain, Task.Every]

theorem Task.every_of_isBase (h : t.isBase = true) : t.Every p q := by
  cases t <;> simp_all [Task.isBase, Task.Every]

theorem Task.isGrounded_of_isPlain (h : t.isPlain = true) : t.isGrounded = false := by
  cases t <;> simp_all [Task.isPlain, Task.isGrounded, Task.isBase]

section Every

variable (hp : ∀ op, p op → ¬ op.IsPoll)
include hp

theorem Op.Every.isGrounded {op : Op τ κ} (h : op.Every p) :
    (Task.perform op).isGrounded = false := by
  cases h with
  | within => rfl
  | other hw h =>
    cases op with
    | poll own => exact absurd ⟨own, rfl⟩ (hp _ h)
    | _ => rfl

variable {w : World τ κ} (hw : w.Every p) (hc : p .close)
include hw hc

/-- What a task leads to makes calls of the same kind, and polls only where a poll is called. -/
theorem Leads.every {due : Agenda τ (Op τ κ)} (hd : ∀ e ∈ due, e.2.Every p) (ht : t.Every p q)
    (h : Leads w due t u) :
    u.Every p q ∧ (u.isGrounded = false ∨ ∃ own, t = .perform (.poll own)) := by
  have call {op : Op τ κ} (ho : op.Every p) :
      (Task.perform op).Every p q ∧
        ((Task.perform op).isGrounded = false ∨ ∃ own, t = .perform (.poll own)) :=
    ⟨.call ho, .inl (ho.isGrounded hp)⟩
  cases h with
  | deliver k => exact ⟨trivial, .inl rfl⟩
  | listener n h => exact call (hw.listener _ _ _ _ h)
  | callback n c h => exact call (hw.callback _ _ _ _ h)
  | closing n h => exact call (hw.closing _ _ h)
  | fetch => exact ⟨trivial, .inl rfl⟩
  | duringOwn h => exact call (ht.2 _ rfl _ h)
  | during n h => exact call (hw.during _ _ h)
  | before n h => exact call (hw.before _ _ h)
  | write n => exact ⟨hw.after n, .inl rfl⟩
  | after h => exact call (ht _ h)
  | due h => exact call (hd _ h)
  | within ops =>
    cases ht with
    | call ht =>
      cases ht with
      | within h => exact ⟨h, .inl rfl⟩
      | other hw => exact absurd rfl (hw ops)
  | gather => exact call (ht _ List.mem_cons_self)
  | gatherRest => exact ⟨fun op hop => ht op (List.mem_cons_of_mem _ hop), .inl rfl⟩
  | gatherClose => exact call (.other (fun _ h => by cases h) hc)
  | collect r => exact ⟨ht, .inl rfl⟩
  | poll own =>
    cases ht with
    | call ht =>
      cases ht with
      | other hw h => exact absurd ⟨own, rfl⟩ (hp _ h)
    | poll ht => exact ⟨ht, .inr ⟨own, rfl⟩⟩

end Every

namespace Machine

/-- All calls that are still to be made are of one kind, and polls begin above the schedule. -/
structure Calls (p : Op τ κ → Prop) (q : Option (Response τ (Op τ κ)) → Prop)
    (m : Machine τ κ) : Prop where
  due : ∀ e ∈ m.agenda, e.2.Every p
  every : ∀ t ∈ m.stack, t.Every p q
  grounded : Grounded Task.isGrounded m.stack

theorem Calls.isBase {m : Machine τ κ} {rest : List (Task τ κ)} (h : Calls p q m)
    (hm : m.stack = t :: rest) (ht : t.isGrounded = true) : ∀ u ∈ rest, u.isBase = true := by
  have hg := h.grounded
  rw [hm] at hg
  exact hg.isBase ht

variable [Time τ] [BEq κ] (hp : ∀ op, p op → ¬ op.IsPoll) {w : World τ κ} (hw : w.Every p)
  (hc : p .close) (hq : q none) {m n : Machine τ κ}
include hp hw hc hq

theorem calls_step (h : Calls p q m) (hs : m.step w = some n) : Calls p q n := by
  obtain ⟨task, rest, hm, rfl⟩ := step_eq_some.mp hs
  have hdue : ∀ e ∈ (execute w { m with stack := rest } task).agenda, e.2.Every p :=
    fun e he => h.due e ((execute_agenda w { m with stack := rest } task).subset he)
  obtain ⟨htask, hrest⟩ : task.Every p q ∧ ∀ t ∈ rest, t.Every p q := by
    simpa [hm] using h.every
  have hbelow : Grounded Task.isGrounded rest := by
    have hg := h.grounded
    rw [hm] at hg
    exact (List.pairwise_cons.mp hg).2
  cases hb : task.isBase with
  | true =>
    have hall := h.isBase hm (Task.isGrounded_of_isBase hb)
    rcases execute_base w { m with stack := rest } hb with hn | ⟨pushed, hn, hpush⟩
    · exact ⟨hdue, by simp [hn], by simp [hn, Grounded]⟩
    · refine ⟨hdue, ?_, ?_⟩
      · rw [hn]
        refine List.forall_mem_append.mpr ⟨?_, hrest⟩
        cases hpush with
        | base hbase => exact fun t ht => Task.every_of_isBase (hbase t ht)
        | wake next => simp [Task.Every, OwnEvery, hq]
        | call hd => simpa [Task.Every] using Op.Outer.call (q := q) (h.due _ hd)
      · rw [hn]
        exact hpush.grounded hall (fun e he => (h.due e he).isGrounded hp) fun _ => rfl
  | false =>
    obtain ⟨pushed, below, hn, he, hpush⟩ := execute_pushes w { m with stack := rest } hb
    refine ⟨hdue, ?_, ?_⟩
    · rw [hn]
      refine List.forall_mem_append.mpr ⟨?_, ?_⟩
      · intro t ht
        rcases hpush t ht with ht | ht
        · exact Task.every_of_isPlain ht
        · exact (ht.every hp hw hc h.due htask).1
      · cases he with
        | same => exact hrest
        | clear n kind key =>
          intro t ht
          obtain ⟨u, hu, rfl⟩ := List.mem_map.mp ht
          exact (hrest u hu).clearItem n kind key
    · by_cases hpoll : ∃ own, task = .perform (.poll own)
      · obtain ⟨own, rfl⟩ := hpoll
        have hall := h.isBase hm rfl
        simp only [execute, perform]
        split
        · exact grounded_of_isBase hall
        · exact List.pairwise_cons.mpr ⟨fun u hu _ => hall u hu, grounded_of_isBase hall⟩
      · rw [hn]
        refine (he.grounded Task.isGrounded_clearItem hbelow).append ?_
        intro t ht
        rcases hpush t ht with ht | ht
        · exact Task.isGrounded_of_isPlain ht
        · exact (ht.every hp hw hc h.due htask).2.resolve_right hpoll

theorem calls_of_run {r : Requester} {ms : List (Machine τ κ)}
    (h : Run w r (Op.Every p) (Op.Outer p q) ms) : ∀ m ∈ ms, Calls p q m := by
  refine Run.invariant ?_ ?_ ?_ ?_ h
  · exact ⟨by simp [create], by simp [create], by simp [create, Grounded]⟩
  · intro calls hcalls
    refine ⟨?_, by simp [Task.Every], by simp [Grounded]⟩
    intro e he
    exact hcalls e (Agenda.mem_ofList he)
  · intro m op h hs ho
    exact ⟨h.due, by simpa [Task.Every] using ho, by simp [Grounded]⟩
  · exact fun _ _ => calls_step hp hw hc hq

end Machine
end FlagPoll.Synchronizer
