import FlagPoll.Number
import FlagPoll.Proofs.Synchronizer.Stack

/-!
# FlagPoll.Proofs.Synchronizer.Run

Whole runs of a synchronizer.

* `Run`            — machines that follow each other, the latest first.
* `head_induction` — induction over the latest machine, with the run that led to it at hand.
* `invariant`      — what holds at the beginning and is kept by calls and steps holds throughout.
* `Layered`        — calls lie above the tasks of the schedule, in every machine of a run.
* `Returns`        — a machine in which the tasks that lie above a depth are done.
-/

namespace FlagPoll.Synchronizer

variable {τ κ : Type}

/-- Below tasks of a sort there are only tasks of the schedule. -/
def Grounded (sort : Task τ κ → Bool) (ts : List (Task τ κ)) : Prop :=
  ts.Pairwise fun a b => sort a = true → b.isBase = true

/-- Below a task of the schedule there are only such tasks. -/
abbrev Layered (ts : List (Task τ κ)) : Prop := Grounded Task.isBase ts

@[simp] theorem Task.isBase_clearItem (n : Nat) (kind : Kind) (key : CodePoints) (t : Task τ κ) :
    (t.clearItem n kind key).isBase = t.isBase := by
  cases t <;> rfl

theorem Task.duty?_of_isBase {t : Task τ κ} (h : t.isBase = true) : t.duty? = none := by
  cases t <;> simp_all [Task.isBase, Task.duty?]

theorem dutiesOf_eq_nil {ts : List (Task τ κ)} (h : ∀ t ∈ ts, t.isBase = true) :
    dutiesOf ts = [] := by
  induction ts with
  | nil => rfl
  | cons t ts ih =>
    have ht := Task.duty?_of_isBase (h t List.mem_cons_self)
    simpa [ht] using ih fun u hu => h u (List.mem_cons_of_mem t hu)

section Grounded

variable {sort : Task τ κ → Bool} {t : Task τ κ} {ts us : List (Task τ κ)}

theorem grounded_of_isBase (h : ∀ t ∈ ts, t.isBase = true) : Grounded sort ts :=
  List.pairwise_of_forall_mem_list fun _ _ b hb _ => h b hb

theorem Grounded.cons (h : Grounded sort ts) (ht : sort t = false) : Grounded sort (t :: ts) :=
  List.pairwise_cons.mpr ⟨fun _ _ hb => by simp [ht] at hb, h⟩

theorem Grounded.append (h : Grounded sort ts) (hu : ∀ u ∈ us, sort u = false) :
    Grounded sort (us ++ ts) := by
  induction us with
  | nil => exact h
  | cons u us ih =>
    obtain ⟨hu, hus⟩ := List.forall_mem_cons.mp hu
    exact (ih hus).cons hu

theorem Grounded.isBase (h : Grounded sort (t :: ts)) (ht : sort t = true) :
    ∀ u ∈ ts, u.isBase = true := fun u hu => (List.pairwise_cons.mp h).1 u hu ht

theorem Emptied.grounded (he : Emptied t ts us)
    (hs : ∀ n kind key t, sort (t.clearItem n kind key) = sort t) (h : Grounded sort ts) :
    Grounded sort us := by
  cases he with
  | same => exact h
  | clear n kind key => simpa [Grounded, List.pairwise_map, hs] using h

/-- What the schedule pushes is a poll, or a call and what is left to do after it. -/
theorem BasePushes.grounded {due : Agenda τ (Op τ κ)} (h : BasePushes due us)
    (hts : ∀ t ∈ ts, t.isBase = true) (hcall : ∀ e ∈ due, sort (.perform e.2) = false)
    (hend : ∀ op, sort (.conclude op) = false) : Grounded sort (us ++ ts) := by
  cases h with
  | base hus => exact grounded_of_isBase (List.forall_mem_append.mpr ⟨hus, hts⟩)
  | wake next =>
    have hlow : ∀ u ∈ .ran :: .await next :: ts, u.isBase = true :=
      List.forall_mem_cons.mpr ⟨rfl, List.forall_mem_cons.mpr ⟨rfl, hts⟩⟩
    exact List.pairwise_cons.mpr ⟨fun u hu _ => hlow u hu, grounded_of_isBase hlow⟩
  | @call t target op span hd hs =>
    have hpass : (Task.pass target span : Task τ κ).isBase = true := by simp [Task.isBase, hs]
    have hlow : Grounded sort (.pass target span :: ts) :=
      grounded_of_isBase (List.forall_mem_cons.mpr ⟨hpass, hts⟩)
    exact (hlow.cons (hend op)).cons (hcall (t, op) hd)

end Grounded

/-- Below a task of the schedule nothing is left to be done towards callees. -/
theorem Layered.dutiesOf_eq_nil {t : Task τ κ} {ts : List (Task τ κ)} (h : Layered (t :: ts))
    (ht : t.isBase = true) : dutiesOf (t :: ts) = [] :=
  Synchronizer.dutiesOf_eq_nil (List.forall_mem_cons.mpr ⟨ht, h.isBase ht⟩)

namespace Machine

variable [Time τ] [BEq κ] {w : World τ κ} {r : Requester} {due free : Op τ κ → Prop}

/-- Machines that follow each other, the latest first. A run begins with calls one after the other
or with calls at given moments and the polling task. Calls at given moments satisfy `due`, and
calls that are made while nothing is in progress satisfy `free`. -/
inductive Run (w : World τ κ) (r : Requester) (due free : Op τ κ → Prop) :
    List (Machine τ κ) → Prop where
  | create : Run w r due free [create w r]
  | timeline {calls : List (τ × Op τ κ)} (h : ∀ e ∈ calls, due e.2) :
      Run w r due free [{ create w r with agenda := .ofList calls, stack := [.main] }]
  | call {m : Machine τ κ} {ms : List (Machine τ κ)} {op : Op τ κ}
      (h : Run w r due free (m :: ms)) (hs : m.stack = []) (ho : free op) :
      Run w r due free ({ m with stack := [.perform op], reading := .nothing } :: m :: ms)
  | step {m n : Machine τ κ} {ms : List (Machine τ κ)} (h : Run w r due free (m :: ms))
      (hs : m.step w = some n) : Run w r due free (n :: m :: ms)

/-- Induction over the latest machine of a run. -/
theorem Run.head_induction {motive : ∀ m ms, Run w r due free (m :: ms) → Prop}
    (create : motive _ _ .create)
    (timeline : ∀ (calls : List (τ × Op τ κ)) (hd : ∀ e ∈ calls, due e.2),
      motive _ _ (.timeline hd))
    (call : ∀ m ms op (h : Run w r due free (m :: ms)) (hs : m.stack = []) (ho : free op),
      motive m ms h → motive _ _ (.call h hs ho))
    (step : ∀ m n ms (h : Run w r due free (m :: ms)) (hs : m.step w = some n),
      motive m ms h → motive n (m :: ms) (.step h hs))
    {m : Machine τ κ} {ms : List (Machine τ κ)} (h : Run w r due free (m :: ms)) :
    motive m ms h := by
  suffices key : ∀ l (h : Run w r due free l) m ms (e : l = m :: ms), motive m ms (e ▸ h) from
    key _ h m ms rfl
  intro l h
  induction h with
  | create =>
    rintro m ms ⟨⟩
    exact create
  | timeline h =>
    rintro m ms ⟨⟩
    exact timeline _ h
  | call h hs ho ih =>
    rintro m ms ⟨⟩
    exact call _ _ _ h hs ho (ih _ _ rfl)
  | step h hs ih =>
    rintro m ms ⟨⟩
    exact step _ _ _ h hs (ih _ _ rfl)

theorem Run.invariant {P : Machine τ κ → Prop} (hc : P (Machine.create w r))
    (ht : ∀ calls : List (τ × Op τ κ), (∀ e ∈ calls, due e.2) →
      P { Machine.create w r with agenda := .ofList calls, stack := [.main] })
    (hf : ∀ m op, P m → m.stack = [] → free op →
      P { m with stack := [.perform op], reading := .nothing })
    (hs : ∀ m n, P m → m.step w = some n → P n)
    {ms : List (Machine τ κ)} (h : Run w r due free ms) : ∀ m ∈ ms, P m := by
  induction h with
  | create => simpa using hc
  | timeline h => simpa using ht _ h
  | call h hst ho ih =>
    intro x hx
    rcases List.mem_cons.mp hx with rfl | hx
    · exact hf _ _ (ih _ List.mem_cons_self) hst ho
    · exact ih x hx
  | step h hst ih =>
    intro x hx
    rcases List.mem_cons.mp hx with rfl | hx
    · exact hs _ _ (ih _ List.mem_cons_self) hst
    · exact ih x hx

theorem Run.mono {due' free' : Op τ κ → Prop} (hd : ∀ op, due op → due' op)
    (hf : ∀ op, free op → free' op) {ms : List (Machine τ κ)} (h : Run w r due free ms) :
    Run w r due' free' ms := by
  induction h with
  | create => exact .create
  | timeline h => exact .timeline fun e he => hd e.2 (h e he)
  | call h hs ho ih => exact .call ih hs (hf _ ho)
  | step h hs ih => exact .step ih hs

/-- Steps of a machine, added to a run. -/
def course (w : World τ κ) : Nat → List (Machine τ κ) → List (Machine τ κ)
  | 0, ms => ms
  | _ + 1, [] => []
  | fuel + 1, m :: ms =>
    match m.step w with
    | none => m :: ms
    | some n => course w fuel (n :: m :: ms)

theorem Run.course {ms : List (Machine τ κ)} (h : Run w r due free ms) (fuel : Nat) :
    Run w r due free (Machine.course w fuel ms) := by
  induction fuel generalizing ms with
  | zero => exact h
  | succ fuel ih =>
    cases ms with
    | nil => exact h
    | cons m ms =>
      simp only [Machine.course]
      split
      · exact h
      · rename_i n hn
        exact ih (.step h hn)

/-- Calls one after the other, added to a run; each one may take `fuel` steps. -/
def callAll (w : World τ κ) (fuel : Nat) : List (Op τ κ) → List (Machine τ κ) → List (Machine τ κ)
  | op :: ops, m :: ms =>
    if m.stack.isEmpty then
      callAll w fuel ops
        (course w fuel ({ m with stack := [.perform op], reading := .nothing } :: m :: ms))
    else m :: ms
  | _, ms => ms

theorem Run.callAll {ops : List (Op τ κ)} {ms : List (Machine τ κ)} (h : Run w r due free ms)
    (fuel : Nat) (ho : ∀ op ∈ ops, free op) : Run w r due free (Machine.callAll w fuel ops ms) := by
  induction ops generalizing ms with
  | nil => exact h
  | cons op ops ih =>
    obtain ⟨hop, hops⟩ := List.forall_mem_cons.mp ho
    cases ms with
    | nil => exact h
    | cons m ms =>
      simp only [Machine.callAll]
      split
      · rename_i hs
        exact ih (Run.course (.call h (List.isEmpty_iff.mp hs) hop) fuel) hops
      · exact h

def session (w : World τ κ) (r : Requester) (fuel : Nat) (ops : List (Op τ κ)) :
    List (Machine τ κ) :=
  callAll w fuel ops [create w r]

theorem run_session (w : World τ κ) (r : Requester) (due free : Op τ κ → Prop) (fuel : Nat)
    (ops : List (Op τ κ)) (ho : ∀ op ∈ ops, free op) :
    Run w r due free (session w r fuel ops) :=
  Run.create.callAll fuel ho

/-- Calls at given moments and the polling task, in `fuel` steps at most. -/
def watched (w : World τ κ) (r : Requester) (fuel : Nat) (calls : List (τ × Op τ κ)) :
    List (Machine τ κ) :=
  course w fuel [{ create w r with agenda := .ofList calls, stack := [.main] }]

theorem run_watched (w : World τ κ) (r : Requester) (due free : Op τ κ → Prop) (fuel : Nat)
    (calls : List (τ × Op τ κ)) (h : ∀ e ∈ calls, due e.2) :
    Run w r due free (watched w r fuel calls) :=
  Run.course (.timeline h) fuel

/-- A step of a call leaves the tasks below the call where they are. -/
theorem step_above {m n : Machine τ κ} {task : Task τ κ} {above below : List (Task τ κ)}
    (hm : m.stack = task :: above ++ below) (hb : ∀ t ∈ task :: above, t.isBase = false)
    (h : m.step w = some n) :
    ∃ above' below', n.stack = above' ++ below' ∧ (∀ t ∈ above', t.isBase = false) ∧
      Emptied task below below' := by
  obtain ⟨top, rest, hs, rfl⟩ := step_eq_some.mp h
  obtain ⟨rfl, rfl⟩ : top = task ∧ rest = above ++ below := by simpa [hm, eq_comm] using hs
  obtain ⟨htop, habove⟩ := List.forall_mem_cons.mp hb
  obtain ⟨pushed, kept, hn, he, hp⟩ := execute_pushes w { m with stack := above ++ below } htop
  have hflat : ∀ t ∈ pushed, t.isBase = false := fun t ht =>
    (hp t ht).elim Task.isBase_of_isPlain Leads.isBase
  cases he with
  | same =>
    refine ⟨pushed ++ above, below, by simpa using hn, ?_, .same⟩
    exact List.forall_mem_append.mpr ⟨hflat, habove⟩
  | clear n kind key hget =>
    refine ⟨pushed ++ above.map (·.clearItem n kind key), below.map (·.clearItem n kind key),
      by simpa using hn, ?_, .clear n kind key hget⟩
    refine List.forall_mem_append.mpr ⟨hflat, ?_⟩
    intro t ht
    obtain ⟨u, hu, rfl⟩ := List.mem_map.mp ht
    simpa using habove u hu

theorem layered_step {m n : Machine τ κ} (hl : Layered m.stack) (h : m.step w = some n) :
    Layered n.stack := by
  obtain ⟨task, rest, hm, he⟩ := step_eq_some.mp h
  rw [hm] at hl
  cases hb : task.isBase with
  | true =>
    subst he
    have hall := hl.isBase hb
    rcases execute_base w { m with stack := rest } hb with hn | ⟨pushed, hn, hp⟩
    · simp [hn, Grounded]
    · rw [hn]
      exact hp.grounded hall (fun _ _ => rfl) fun _ => rfl
  | false =>
    have hm : m.stack = task :: [] ++ rest := hm
    obtain ⟨above, below, hn, hflat, he⟩ := step_above hm (by simpa using hb) h
    rw [hn]
    exact (he.grounded Task.isBase_clearItem (List.pairwise_cons.mp hl).2).append hflat

theorem layered_of_run {ms : List (Machine τ κ)} (h : Run w r due free ms) :
    ∀ m ∈ ms, Layered m.stack := by
  refine Run.invariant ?_ ?_ ?_ ?_ h
  · simp [create, Grounded]
  · simp [Grounded]
  · simp [Grounded]
  · exact fun _ _ => layered_step

/-- A machine in which the tasks that lie above a depth of the stack are done. -/
inductive Returns (w : World τ κ) (depth : Nat) : Machine τ κ → Machine τ κ → Prop where
  | here {m : Machine τ κ} (h : m.stack.length = depth) : Returns w depth m m
  | step {m n x : Machine τ κ} (h : depth < m.stack.length) (hs : m.step w = some n)
      (hr : Returns w depth n x) : Returns w depth m x

end Machine

/-- Surroundings whose callees make no calls, with what the service delivers. -/
def World.still (delivery : Nat → Delivery) : World Number Nat where
  interval := 30
  epoch := 0
  horizon := 100
  response n := ⟨0, [], delivery n⟩
  write _ := ⟨[], none, []⟩
  closing _ := ⟨[], none⟩
  listener _ _ _ := ⟨[], none⟩
  callback _ _ _ := ⟨[], none⟩

end FlagPoll.Synchronizer

namespace FlagPoll.Snapshot

/-- A data set of one flag. -/
def oneFlag : Snapshot := ⟨[("a", .object [("key", .string "a"), ("version", .int 1)])], []⟩

def oneSegment : Snapshot := ⟨[], [("b", .object [("key", .string "b"), ("version", .int 2)])]⟩

end FlagPoll.Snapshot
