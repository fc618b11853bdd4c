import FlagPoll.Lock
import Mathlib.Data.List.Nodup

/-!
# FlagPoll.Proofs.Lock.Step

What one move of one thread does to a lock and to the threads at it.

* `inside`, `waiting`  — the threads of a mode that are inside, and those that have looked in vain.
* `after`, `Reachable` — the lock after moves in any order.
* `Step`               — all that a move can do.
* `attempt_cases`      — a move is one of these steps, or it cannot be made and changes nothing.

Names tell threads apart: one that is at the lock does not ask for it again.
-/

namespace FlagPoll.Lock

variable {ν : Type}

/-- A thread in this phase may look whether it may enter. -/
def Phase.isAwake : Phase → Bool
  | .arriving | .woken => true
  | .sleeping | .inside => false

def Thread.isInside (mode : Mode) (t : Thread ν) : Bool := t.mode = mode && t.phase = .inside

/-- A thread that has looked in vain and has not entered since, asleep or woken. -/
def Thread.isWaiting (mode : Mode) (t : Thread ν) : Bool :=
  t.mode = mode && (t.phase = .sleeping || t.phase = .woken)

def inside (l : Lock ν) (mode : Mode) : List (Thread ν) := l.threads.filter (Thread.isInside mode)

/-- The threads that the lock has heard of and has not let in. One that is only arriving has not
looked yet, and nothing has been counted for it. -/
def waiting (l : Lock ν) (mode : Mode) : List (Thread ν) := l.threads.filter (Thread.isWaiting mode)

/-- How many writers wait together with one that looks: it is counted when it looks for the first
time. -/
def heard (l : Lock ν) (phase : Phase) : Nat :=
  if phase = .woken then l.writersWaiting else l.writersWaiting + 1

/-- All that a move can do. -/
inductive Step (l : Lock ν) : Move ν → Lock ν → Prop where
  | arrive {name : ν} {mode : Mode} (h : ∀ t ∈ l.threads, t.name ≠ name) :
      Step l (.ask name mode) { l with threads := l.threads ++ [⟨name, mode, .arriving⟩] }
  | readerEnters {before after : List (Thread ν)} {name : ν} {phase : Phase}
      (hl : l.threads = before ++ ⟨name, .read, phase⟩ :: after) (hp : phase.isAwake = true)
      (ha : l.writerActive = false) (hw : l.writersWaiting = 0) :
      Step l (.look name) { l with
        readers := l.readers + 1
        threads := before ++ ⟨name, .read, .inside⟩ :: after }
  | readerSleeps {before after : List (Thread ν)} {name : ν} {phase : Phase}
      (hl : l.threads = before ++ ⟨name, .read, phase⟩ :: after) (hp : phase.isAwake = true)
      (h : l.writerActive = true ∨ l.writersWaiting ≠ 0) :
      Step l (.look name) { l with threads := before ++ ⟨name, .read, .sleeping⟩ :: after }
  /-- A writer that enters is no longer counted as waiting. -/
  | writerEnters {before after : List (Thread ν)} {name : ν} {phase : Phase}
      (hl : l.threads = before ++ ⟨name, .write, phase⟩ :: after) (hp : phase.isAwake = true)
      (ha : l.writerActive = false) (hr : l.readers = 0) :
      Step l (.look name) { l with
        writerActive := true
        writersWaiting := l.heard phase - 1
        threads := before ++ ⟨name, .write, .inside⟩ :: after }
  | writerSleeps {before after : List (Thread ν)} {name : ν} {phase : Phase}
      (hl : l.threads = before ++ ⟨name, .write, phase⟩ :: after) (hp : phase.isAwake = true)
      (h : l.writerActive = true ∨ l.readers ≠ 0) :
      Step l (.look name) { l with
        writersWaiting := l.heard phase
        threads := before ++ ⟨name, .write, .sleeping⟩ :: after }
  | readerLeaves {before after : List (Thread ν)} {name : ν}
      (hl : l.threads = before ++ ⟨name, .read, .inside⟩ :: after) (hr : l.readers - 1 ≠ 0) :
      Step l (.leave name) { l with readers := l.readers - 1, threads := before ++ after }
  | lastReaderLeaves {before after : List (Thread ν)} {name : ν}
      (hl : l.threads = before ++ ⟨name, .read, .inside⟩ :: after) (hr : l.readers - 1 = 0) :
      Step l (.leave name)
        { l with readers := l.readers - 1, threads := before ++ after }.wakeAll
  | writerLeaves {before after : List (Thread ν)} {name : ν}
      (hl : l.threads = before ++ ⟨name, .write, .inside⟩ :: after) :
      Step l (.leave name) { l with writerActive := false, threads := before ++ after }.wakeAll

variable {l n : Lock ν}

/-- The threads but for one. -/
theorem sublist_of_split {before after : List (Thread ν)} {t : Thread ν}
    (hl : l.threads = before ++ t :: after) : (before ++ after).Sublist l.threads := by
  rw [hl]
  exact (List.sublist_cons_self t after).append_left before

variable [DecidableEq ν]

/-- The lock after moves, one after the other. A move that cannot be made changes nothing. -/
def after (l : Lock ν) (moves : List (Move ν)) : Lock ν := moves.foldl attempt l

/-- The lock after some moves by some threads in some order. -/
def Reachable (l : Lock ν) : Prop := ∃ moves, free.after moves = l

theorem after_append (moves more : List (Move ν)) :
    l.after (moves ++ more) = (l.after moves).after more := List.foldl_append

theorem Reachable.after (h : Reachable l) (moves : List (Move ν)) : Reachable (l.after moves) := by
  obtain ⟨earlier, rfl⟩ := h
  exact ⟨earlier ++ moves, after_append earlier moves⟩

/-! ## Threads by their names -/

def Distinct (l : Lock ν) : Prop := (l.threads.map (·.name)).Nodup

omit [DecidableEq ν] in
theorem Distinct.split {before after : List (Thread ν)} {t : Thread ν} (h : Distinct l)
    (hl : l.threads = before ++ t :: after) : ∀ u ∈ before ++ after, u.name ≠ t.name := by
  intro u hu heq
  rw [Distinct, hl, List.map_append, List.map_cons, List.nodup_middle] at h
  refine (List.nodup_cons.mp h).1 ?_
  rw [← List.map_append, ← heq]
  exact List.mem_map_of_mem hu

theorem split_of_find? {name : ν} {t : Thread ν} (h : l.find? name = some t) :
    t.name = name ∧ ∃ before after, l.threads = before ++ t :: after := by
  obtain ⟨hname, before, after, hl, -⟩ := List.find?_eq_some_iff_append.mp h
  exact ⟨by simpa using hname, before, after, hl⟩

theorem setPhase_eq {before after : List (Thread ν)} {t : Thread ν} (phase : Phase)
    (hd : Distinct l) (hl : l.threads = before ++ t :: after) :
    l.setPhase t.name phase = { l with threads := before ++ { t with phase } :: after } := by
  have hne := hd.split hl
  have keep (ts : List (Thread ν)) (h : ∀ u ∈ ts, u.name ≠ t.name) :
      ts.map (fun u => if u.name = t.name then { u with phase } else u) = ts :=
    (List.map_congr_left fun u hu => if_neg (h u hu)).trans (List.map_id' ts)
  rw [setPhase, hl, List.map_append, List.map_cons, if_pos rfl,
    keep before fun u hu => hne u (List.mem_append_left after hu),
    keep after fun u hu => hne u (List.mem_append_right before hu)]

theorem drop_eq {before after : List (Thread ν)} {t : Thread ν} (hd : Distinct l)
    (hl : l.threads = before ++ t :: after) :
    l.drop t.name = { l with threads := before ++ after } := by
  have hne := hd.split hl
  have keep (ts : List (Thread ν)) (h : ∀ u ∈ ts, u.name ≠ t.name) :
      ts.filter (fun u => decide (u.name ≠ t.name)) = ts :=
    List.filter_eq_self.mpr fun u hu => decide_eq_true (h u hu)
  rw [Lock.drop, hl, List.filter_append, List.filter_cons_of_neg (by simp),
    keep before fun u hu => hne u (List.mem_append_left after hu),
    keep after fun u hu => hne u (List.mem_append_right before hu)]

/-! ## Every move is a step -/

theorem step_lookReader {name : ν} {phase : Phase} (hd : Distinct l) (hp : phase.isAwake = true)
    (h : l.find? name = some ⟨name, .read, phase⟩) : Step l (.look name) (l.lookReader name) := by
  obtain ⟨-, before, after, hl⟩ := split_of_find? h
  unfold lookReader
  split
  · rename_i hadmit
    obtain ⟨ha, hw⟩ : l.writerActive = false ∧ l.writersWaiting = 0 := by
      simpa [admitsReader] using hadmit
    have hset := setPhase_eq (l := { l with readers := l.readers + 1 }) .inside hd hl
    rw [hset]
    exact .readerEnters hl hp ha hw
  · rename_i hadmit
    have hb : l.writerActive = true ∨ l.writersWaiting ≠ 0 := by
      cases ha : l.writerActive <;> simp_all [admitsReader]
    have hset := setPhase_eq .sleeping hd hl
    rw [hset]
    exact .readerSleeps hl hp hb

theorem step_lookWriter {name : ν} {phase : Phase} (hd : Distinct l) (hp : phase.isAwake = true)
    (h : l.find? name = some ⟨name, .write, phase⟩) :
    Step l (.look name) ({ l with writersWaiting := l.heard phase }.lookWriter name) := by
  obtain ⟨-, before, after, hl⟩ := split_of_find? h
  unfold lookWriter
  split
  · rename_i hadmit
    obtain ⟨ha, hr⟩ : l.writerActive = false ∧ l.readers = 0 := by
      simpa [admitsWriter] using hadmit
    have hset := setPhase_eq (l := { l with
      writersWaiting := l.heard phase - 1, writerActive := true }) .inside hd hl
    rw [hset]
    exact .writerEnters hl hp ha hr
  · rename_i hadmit
    have hb : l.writerActive = true ∨ l.readers ≠ 0 := by
      cases ha : l.writerActive <;> simp_all [admitsWriter]
    have hset := setPhase_eq (l := { l with writersWaiting := l.heard phase }) .sleeping hd hl
    rw [hset]
    exact .writerSleeps hl hp hb

theorem step_leave {name : ν} {mode : Mode} (hd : Distinct l)
    (h : l.find? name = some ⟨name, mode, .inside⟩) :
    Step l (.leave name) (l.leave name mode) := by
  obtain ⟨-, before, after, hl⟩ := split_of_find? h
  cases mode with
  | read =>
    have hdrop := drop_eq (l := { l with readers := l.readers - 1 }) hd hl
    simp only [leave, hdrop]
    split
    · rename_i hr
      exact .lastReaderLeaves hl hr
    · rename_i hr
      exact .readerLeaves hl hr
  | write =>
    have hdrop := drop_eq (l := { l with writerActive := false }) hd hl
    simp only [leave, hdrop]
    exact .writerLeaves hl

theorem step_of_next {m : Move ν} (hd : Distinct l) (h : l.next? m = some n) : Step l m n := by
  cases m with
  | ask name mode =>
    simp only [next?] at h
    split at h
    · contradiction
    · rename_i hfree
      obtain rfl := Option.some.inj h
      refine .arrive fun t ht heq => ?_
      simpa [heq] using List.find?_eq_none.mp hfree t ht
  | look name =>
    simp only [next?] at h
    split at h
    · rename_i hf
      obtain rfl := Option.some.inj h
      obtain ⟨rfl, -⟩ := split_of_find? hf
      exact step_lookReader hd rfl hf
    · rename_i hf
      obtain rfl := Option.some.inj h
      obtain ⟨rfl, -⟩ := split_of_find? hf
      exact step_lookReader hd rfl hf
    · rename_i hf
      obtain rfl := Option.some.inj h
      obtain ⟨rfl, -⟩ := split_of_find? hf
      exact step_lookWriter hd rfl hf
    · rename_i hf
      obtain rfl := Option.some.inj h
      obtain ⟨rfl, -⟩ := split_of_find? hf
      exact step_lookWriter hd rfl hf
    · contradiction
  | leave name =>
    simp only [next?] at h
    split at h
    · rename_i hf
      obtain rfl := Option.some.inj h
      obtain ⟨rfl, -⟩ := split_of_find? hf
      exact step_leave hd hf
    · contradiction

theorem attempt_cases (hd : Distinct l) (m : Move ν) :
    l.attempt m = l ∨ Step l m (l.attempt m) := by
  unfold attempt
  cases h : l.next? m with
  | none => exact .inl rfl
  | some n => exact .inr (step_of_next hd h)

end FlagPoll.Lock
