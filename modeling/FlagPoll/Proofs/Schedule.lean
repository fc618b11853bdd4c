import FlagPoll.Proofs.Agenda
import FlagPoll.Proofs.ExactTime
import Mathlib.Algebra.Order.Archimedean.Basic

/-!
# FlagPoll.Proofs.Schedule

When a scheduler begins the runs of its action, on a clock that is exact.

* `begins`  — the law: a run begins an interval after the last one, or when that one has ended.
* `Happens` — the runs that take place: no stop comes before they begin.
* `Comes`   — a machine comes to an end in which something holds, argued from the end backwards.
* `Passed`  — what calls do while time passes.
* `Kept`    — what is kept from run to run.
* `runs_on_schedule` — the scheduler comes to an end and has made these runs, at these moments.
-/

namespace FlagPoll

namespace Agenda

variable {ω : Type}

/-- The earliest call comes first. -/
def Sorted (a : Agenda Rat ω) : Prop := a.Pairwise fun e f => e.1 ≤ f.1

theorem Sorted.tail {e : Rat × ω} {a : Agenda Rat ω} (h : Sorted (e :: a)) : Sorted a :=
  (List.pairwise_cons.mp h).2

theorem sorted_insert {e : Rat × ω} {a : Agenda Rat ω} (h : Sorted a) : Sorted (insert e a) := by
  induction a with
  | nil => exact List.pairwise_singleton _ _
  | cons f a ih =>
    obtain ⟨hf, ha⟩ := List.pairwise_cons.mp h
    simp only [insert]
    split
    · rename_i hlt
      have hlt : e.1 < f.1 := hlt
      refine List.pairwise_cons.mpr ⟨?_, h⟩
      intro g hg
      rcases List.mem_cons.mp hg with rfl | hg
      · exact hlt.le
      · exact hlt.le.trans (hf g hg)
    · rename_i hle
      have hle : f.1 ≤ e.1 := not_lt.mp hle
      refine List.pairwise_cons.mpr ⟨?_, ih ha⟩
      intro g hg
      rcases List.mem_cons.mp ((perm_insert e a).mem_iff.mp hg) with rfl | hg
      · exact hle
      · exact hf g hg

theorem sorted_ofList (es : List (Rat × ω)) : Sorted (ofList es) := by
  suffices h : ∀ a : Agenda Rat ω, Sorted a → Sorted (es.foldl (fun a e => insert e a) a) from
    h [] .nil
  induction es with
  | nil => exact fun _ h => h
  | cons e es ih => exact fun a ha => ih _ (sorted_insert ha)

/-- Where no call is due any more, all calls are to come later. -/
theorem Sorted.lt_of_due {a : Agenda Rat ω} {moment : Rat} (h : Sorted a)
    (hd : a.due? moment = none) : ∀ e ∈ a, moment < e.1 := by
  cases a with
  | nil => simp
  | cons f a =>
    obtain ⟨hf, -⟩ := List.pairwise_cons.mp h
    have hlt : moment < f.1 := by
      simp only [due?] at hd
      split at hd
      · cases hd
      · rename_i hle
        exact not_le.mp hle
    intro e he
    rcases List.mem_cons.mp he with rfl | he
    · exact hlt
    · exact hlt.trans_le (hf e he)

end Agenda

namespace Span

theorem bound_le (span : Span) (target horizon : Rat) : span.bound target horizon ≤ target := by
  unfold Span.bound
  split
  · rename_i hx
    exact le_of_lt (by simpa [Span.exceeds] using (Bool.and_eq_true_iff.mp hx).2)
  · exact le_rfl

/-- A call that comes before the horizon comes within the time up to it. -/
theorem le_bound (span : Span) {t horizon : Rat} (now : Rat) (h : t ≤ horizon) :
    t ≤ span.bound (max now t) horizon := by
  unfold Span.bound
  split
  · exact h
  · exact le_max_right _ _

end Span

namespace Schedule

/-- The times of a schedule make sense. -/
structure Plan.Proper (p : Plan Rat) : Prop where
  interval : 0 < p.interval
  initialDelay : 0 ≤ p.initialDelay
  duration : ∀ n, 0 ≤ (p.runs n).duration

/-- When each run begins if the scheduler is started at `s`: the next one an interval after the last
one began, or as soon as that one has ended. -/
def begins (p : Plan Rat) (s : Rat) : Nat → Rat
  | 0 => s + p.initialDelay
  | n + 1 => max (begins p s n + p.interval) (begins p s n + (p.runs n).duration)

/-- A run takes place: neither a call nor a run before it has stopped the scheduler by the moment
at which it is to begin, and that moment is still watched. -/
structure Happens (p : Plan Rat) (calls : List (Rat × Op)) (s : Rat) (n : Nat) : Prop where
  inTime : begins p s n ≤ p.horizon
  called : ∀ t, (t, .stop) ∈ calls → begins p s n < t
  ran : ∀ i < n, (p.runs i).stops = false

/-- What a run shows: that it begins, and the exception that it raises. -/
def report (p : Plan Rat) (s : Rat) (n : Nat) : List (Event Rat) :=
  .ran (begins p s n) ::
    ((p.runs n).raises.map fun message => .logged (actionLog p.name message)).toList

/-- What the first runs show. -/
def reports (p : Plan Rat) (s : Rat) (n : Nat) : List (Event Rat) :=
  (List.range n).flatMap (report p s)

section Begins

variable {p : Plan Rat} {s : Rat}

theorem begins_add_interval_le (p : Plan Rat) (s : Rat) (n : Nat) :
    begins p s n + p.interval ≤ begins p s (n + 1) := le_max_left _ _

theorem Plan.Proper.begins_mono (hp : p.Proper) {i n : Nat} (h : i ≤ n) :
    begins p s i ≤ begins p s n := by
  induction n, h using Nat.le_induction with
  | base => exact le_rfl
  | succ n _ ih =>
    have := begins_add_interval_le p s n
    have := hp.interval
    linarith

/-- Runs are spaced by the interval at least, so that only finitely many are watched. -/
theorem Plan.Proper.le_begins (hp : p.Proper) (n : Nat) : s + n * p.interval ≤ begins p s n := by
  induction n with
  | zero =>
    have := hp.initialDelay
    simp only [begins, Nat.cast_zero, zero_mul]
    linarith
  | succ n ih =>
    have := begins_add_interval_le p s n
    push_cast
    linarith

theorem not_happens_of_not_happens (hp : p.Proper) {calls : List (Rat × Op)} {i n : Nat}
    (h : ¬ Happens p calls s i) (hle : i ≤ n) : ¬ Happens p calls s n := fun hn =>
  h ⟨(hp.begins_mono hle).trans hn.inTime,
    fun t ht => (hp.begins_mono hle).trans_lt (hn.called t ht),
    fun j hj => hn.ran j (hj.trans_le hle)⟩

end Begins

/-! ## Coming to an end -/

namespace Machine

variable {p : Plan Rat} {Q : Machine Rat → Prop} {m n : Machine Rat}

/-- The machine comes to an end, in which `Q` holds. -/
def Comes (p : Plan Rat) (Q : Machine Rat → Prop) (m : Machine Rat) : Prop :=
  ∃ fuel, (run p fuel m).stack = [] ∧ Q (run p fuel m)

theorem Comes.here (hm : m.stack = []) (h : Q m) : Comes p Q m := ⟨0, hm, h⟩

theorem Comes.step (hs : m.step p = some n) (h : Comes p Q n) : Comes p Q m := by
  obtain ⟨fuel, hstack, hQ⟩ := h
  refine ⟨fuel + 1, ?_, ?_⟩
  · simpa [run, hs] using hstack
  · simpa [run, hs] using hQ

/-- The runs and what the log tells of them, the first one first. -/
def shown (m : Machine Rat) : List (Event Rat) :=
  (m.journal.filter fun
    | .ran _ | .logged _ => true
    | _ => false).reverse

/-! ## Calls while time passes -/

/-- Calls come in, and nothing else happens. -/
structure Passed (moment : Rat) (m n : Machine Rat) : Prop where
  turns : n.turns = m.turns
  shown : n.shown = m.shown
  calls : ∃ d, m.agenda = d ++ n.agenda ∧ (∀ e ∈ d, e.1 ≤ moment) ∧
    (n.stopped = true ↔ m.stopped = true ∨ ∃ t, (t, .stop) ∈ d)

/-- No call comes in. -/
theorem Passed.still {moment : Rat} (ht : n.turns = m.turns) (hj : n.journal = m.journal)
    (ha : n.agenda = m.agenda) (hs : n.stopped = m.stopped) : Passed moment m n :=
  ⟨ht, by simp [Machine.shown, hj], [], ha.symm, by simp, by simp [hs]⟩

theorem Passed.mono {moment moment' : Rat} (h : Passed moment m n) (hle : moment ≤ moment') :
    Passed moment' m n := by
  obtain ⟨ht, hs, d, ha, hd, hst⟩ := h
  exact ⟨ht, hs, d, ha, fun e he => (hd e he).trans hle, hst⟩

theorem Passed.of_stack {moment : Rat} {ts : List (Task Rat)}
    (h : Passed moment { m with stack := ts } n) : Passed moment m n := ⟨h.turns, h.shown, h.calls⟩

theorem Passed.push {moment : Rat} (h : Passed moment m n) (ts : List (Task Rat)) :
    Passed moment m (n.push ts) := ⟨h.turns, h.shown, h.calls⟩

theorem Passed.trans {moment : Rat} {k : Machine Rat} (h : Passed moment m n)
    (h' : Passed moment n k) : Passed moment m k := by
  obtain ⟨ht, hs, d, hd, hle, hst⟩ := h
  obtain ⟨ht', hs', d', hd', hle', hst'⟩ := h'
  refine ⟨ht'.trans ht, hs'.trans hs, d ++ d', by simp [hd, hd'], ?_, ?_⟩
  · exact List.forall_mem_append.mpr ⟨hle, hle'⟩
  · rw [hst', hst]
    simp [exists_or, or_assoc]

section CallDue

variable (e : Rat × Op) (rest : Agenda Rat Op)

/-- A call that is due changes nothing but what it is for. -/
theorem callDue_eq : m.callDue e rest = { m with
    agenda := rest
    clock := max m.clock e.1
    launched := m.launched || e.2 = .start
    stopped := m.stopped || e.2 = .stop
    journal := (m.callDue e rest).journal } := by
  obtain ⟨t, op⟩ := e
  rw [← Time.latest_rat]
  cases op with
  | start =>
    cases hl : m.launched <;> simp [callDue, perform, record, setClock, hl]
  | _ => simp [callDue, perform, record, setClock]

@[simp] theorem callDue_stack : (m.callDue e rest).stack = m.stack := by rw [callDue_eq]

@[simp] theorem callDue_agenda : (m.callDue e rest).agenda = rest := by rw [callDue_eq]

@[simp] theorem callDue_turns : (m.callDue e rest).turns = m.turns := by rw [callDue_eq]

@[simp] theorem callDue_clock : (m.callDue e rest).clock = max m.clock e.1 := by rw [callDue_eq]

@[simp] theorem callDue_launched :
    (m.callDue e rest).launched = (m.launched || e.2 = .start) := by rw [callDue_eq]

@[simp] theorem callDue_stopped :
    (m.callDue e rest).stopped = (m.stopped || e.2 = .stop) := by rw [callDue_eq]

@[simp] theorem callDue_shown : (m.callDue e rest).shown = m.shown := by
  obtain ⟨t, op⟩ := e
  cases op with
  | start => simp only [callDue, perform]; split <;> rfl
  | _ => rfl

end CallDue

theorem exists_mem_singleton {e : Rat × Op} {op : Op} : (∃ t, (t, op) ∈ [e]) ↔ e.2 = op := by
  simp only [List.mem_singleton]
  exact ⟨fun ⟨t, h⟩ => by rw [← h], fun h => ⟨e.1, by rw [← h]⟩⟩

theorem passed_callDue {moment : Rat} {e : Rat × Op} {rest : Agenda Rat Op}
    (ha : m.agenda = e :: rest) (hle : e.1 ≤ moment) : Passed moment m (m.callDue e rest) := by
  refine ⟨by simp, by simp, [e], by simp [ha], by simpa using hle, ?_⟩
  rw [exists_mem_singleton]
  simp

theorem pass_of_due {target : Rat} {span : Span} {e : Rat × Op} {rest : Agenda Rat Op}
    (hs : m.endsEarly span = false) (ha : m.agenda = e :: rest)
    (hle : e.1 ≤ span.bound target p.horizon) :
    m.pass p target span = (m.callDue e rest).push [.pass target span] := by
  simp [pass, hs, Agenda.due?_eq_some.mpr ⟨ha, hle⟩]

/-- How a span of time ends: early, at its end, or beyond what is watched. -/
inductive Ended (p : Plan Rat) (target : Rat) (span : Span) (ts : List (Task Rat))
    (m n : Machine Rat) : Prop where
  | early (h : Passed (span.bound target p.horizon) m n) (hn : n.stack = ts)
      (hs : n.endsEarly span = true)
  | late (h : Passed target m n) (hn : n.stack = ts) (hs : n.endsEarly span = false)
      (hx : span.exceeds target p.horizon = false) (hc : n.clock = target)
      (ha : ∀ e ∈ n.agenda, target < e.1)
  | beyond (h : Passed p.horizon m n) (hn : n.stack = [])
      (hx : span.exceeds target p.horizon = true)

theorem Ended.of_passed {target : Rat} {span : Span} {ts : List (Task Rat)} {k : Machine Rat}
    (h : Passed (span.bound target p.horizon) m n) (hn : Ended p target span ts n k) :
    Ended p target span ts m k := by
  cases hn with
  | early h' hk hs => exact .early (h.trans h') hk hs
  | late h' hk hs hx hc ha =>
    rw [Span.bound, hx] at h
    exact .late (h.trans h') hk hs hx hc ha
  | beyond h' hk hx =>
    rw [Span.bound, hx] at h
    exact .beyond (h.trans h') hk hx

/-- Time passes, by induction on the calls that are to come. -/
theorem pass_comes {target : Rat} {span : Span} {ts : List (Task Rat)}
    (hm : m.stack = .pass target span :: ts) (hs : Agenda.Sorted m.agenda)
    (h : ∀ n, Ended p target span ts m n → Comes p Q n) : Comes p Q m := by
  induction hk : m.agenda.length using Nat.strong_induction_on generalizing m with
  | _ k ih =>
    refine Comes.step (n := pass p { m with stack := ts } target span) (by simp [step, hm]) ?_
    unfold pass
    split
    · rename_i hearly
      exact h _ (.early (.still rfl rfl rfl rfl) rfl hearly)
    · rename_i hnot
      have hnot : m.endsEarly span = false := Bool.eq_false_iff.mpr hnot
      split
      · rename_i e rest hdue
        obtain ⟨ha, hle⟩ := Agenda.due?_eq_some.mp hdue
        have ha : m.agenda = e :: rest := ha
        have hcall := passed_callDue (m := { m with stack := ts }) ha hle
        have hpass := hcall.of_stack.push [.pass target span]
        refine ih rest.length (by simp [← hk, ha]) (by simp [push]) ?_
          (fun n hn => h n (hn.of_passed hpass)) (by simp [push])
        rw [ha] at hs
        simpa [push] using hs.tail
      · rename_i hdue
        have hlate := hs.lt_of_due hdue
        split
        · rename_i hx
          exact h _ (.beyond (.still rfl rfl rfl rfl) rfl hx)
        · rename_i hx
          have hx := Bool.eq_false_iff.mpr hx
          rw [Span.bound, hx] at hlate
          exact h _ (.late (.still rfl rfl rfl rfl) rfl hnot hx rfl hlate)

/-- Once the scheduler has ended nothing is run any more. -/
theorem rest_comes (hm : m.stack = [.rest]) (hs : Agenda.Sorted m.agenda)
    (h : ∀ n, n.shown = m.shown → Q n) : Comes p Q m := by
  have hpass : (rest p { m with stack := [] }).stack =
      .pass (Time.latest m.clock p.horizon) .rest :: [] := rfl
  refine Comes.step (n := rest p { m with stack := [] }) (by simp [step, hm]) ?_
  refine pass_comes hpass (by simpa [rest, push] using hs) fun n hn => ?_
  cases hn with
  | early hp hn hs => exact .here hn (h n hp.shown)
  | late hp hn hs hx hc ha => exact .here hn (h n hp.shown)
  | beyond hp hn hx => exact .here hn (h n hp.shown)

/-! ## One run after the other -/

/-- All calls up to a moment have been made, and perhaps some at that moment. What they and the
first runs do decides whether the scheduler has been stopped. -/
structure Heard (p : Plan Rat) (calls : List (Rat × Op)) (limit : Rat) (turns : Nat)
    (m : Machine Rat) : Prop where
  sorted : Agenda.Sorted m.agenda
  calls : ∃ d, (d ++ m.agenda).Perm calls ∧ (∀ e ∈ d, e.1 ≤ limit) ∧
    (m.stopped = true ↔ (∃ t, (t, .stop) ∈ d) ∨ ∃ i < turns, (p.runs i).stops = true)

section Heard

variable {calls : List (Rat × Op)} {limit moment : Rat} {turns : Nat}

theorem Heard.still (h : Heard p calls limit turns m) (ha : n.agenda = m.agenda)
    (hs : n.stopped = m.stopped) : Heard p calls limit turns n := by
  obtain ⟨hsort, hcalls⟩ := h
  exact ⟨by rwa [ha], by rwa [ha, hs]⟩

theorem Heard.passed (h : Heard p calls limit turns m) (hp : Passed moment m n)
    (hle : limit ≤ moment) : Heard p calls moment turns n := by
  obtain ⟨hsort, d, hperm, hd, hst⟩ := h
  obtain ⟨-, -, d', ha, hd', hst'⟩ := hp
  refine ⟨?_, d ++ d', by simpa [ha] using hperm, ?_, ?_⟩
  · rw [ha] at hsort
    exact hsort.sublist (List.sublist_append_right _ _)
  · exact List.forall_mem_append.mpr ⟨fun e he => (hd e he).trans hle, hd'⟩
  · rw [hst', hst]
    simp only [List.mem_append, exists_or]
    exact or_right_comm

/-- Another run may stop the scheduler. -/
theorem Heard.run (h : Heard p calls limit turns m) (ha : n.agenda = m.agenda)
    (hs : n.stopped = (m.stopped || (p.runs turns).stops)) (hle : limit ≤ moment) :
    Heard p calls moment (turns + 1) n := by
  obtain ⟨hsort, d, hperm, hd, hst⟩ := h
  refine ⟨by rwa [ha], d, by rwa [ha], fun e he => (hd e he).trans hle, ?_⟩
  rw [hs, Bool.or_eq_true, hst, or_assoc]
  simp only [Nat.lt_succ_iff_lt_or_eq, or_and_right, exists_or, exists_eq_left]

end Heard

/-- What is kept from run to run: those that have been made took place, and all calls up to the
next one have been made. -/
structure Kept (p : Plan Rat) (calls : List (Rat × Op)) (s : Rat) (m : Machine Rat) : Prop where
  happened : ∀ i < m.turns, Happens p calls s i
  shown : m.shown = reports p s m.turns
  heard : Heard p calls (begins p s m.turns) m.turns m

/-- The runs that have been made are all that take place. -/
def Complete (p : Plan Rat) (calls : List (Rat × Op)) (s : Rat) (m : Machine Rat) : Prop :=
  ∃ n, m.shown = reports p s n ∧ ∀ i, i < n ↔ Happens p calls s i

section Kept

variable {calls : List (Rat × Op)} {s moment : Rat}

theorem Kept.passed (h : Kept p calls s m) (hp : Passed moment m n)
    (hle : moment ≤ begins p s m.turns) : Kept p calls s n := by
  have ht : n.turns = m.turns := hp.turns
  refine ⟨by rw [ht]; exact h.happened, by rw [hp.shown, ht, h.shown], ?_⟩
  rw [ht]
  exact h.heard.passed (hp.mono hle) le_rfl

theorem Kept.not_happens (h : Kept p calls s m) (hst : m.stopped = true) :
    ¬ Happens p calls s m.turns := by
  obtain ⟨-, d, hperm, hd, hst'⟩ := h.heard
  intro hhap
  rcases hst'.mp hst with ⟨t, ht⟩ | ⟨i, hi, hstop⟩
  · have hcall := hhap.called t (hperm.subset (List.mem_append_left _ ht))
    exact absurd (hd _ ht) (not_le.mpr hcall)
  · simp [hhap.ran i hi] at hstop

theorem Kept.happens (h : Kept p calls s m) (hst : m.stopped = false)
    (hx : begins p s m.turns ≤ p.horizon) (ha : ∀ e ∈ m.agenda, begins p s m.turns < e.1) :
    Happens p calls s m.turns := by
  obtain ⟨-, d, hperm, -, hst'⟩ := h.heard
  rw [hst] at hst'
  refine ⟨hx, ?_, ?_⟩
  · intro t ht
    rcases List.mem_append.mp (hperm.symm.subset ht) with hd | ht
    · exact absurd (hst'.mpr (.inl ⟨t, hd⟩)) (by simp)
    · exact ha _ ht
  · intro i hi
    refine Bool.eq_false_iff.mpr fun hstop => ?_
    exact absurd (hst'.mpr (.inr ⟨i, hi, hstop⟩)) (by simp)

theorem Kept.complete (hp : p.Proper) (h : Kept p calls s m) (hn : ¬ Happens p calls s m.turns)
    (hs : n.shown = m.shown) : Complete p calls s n := by
  refine ⟨m.turns, hs.trans h.shown, fun i => ⟨h.happened i, fun hi => ?_⟩⟩
  by_contra hlt
  exact not_happens_of_not_happens hp hn (not_lt.mp hlt) hi

/-- A scheduler that has been stopped runs nothing any more. -/
theorem Kept.stopped_comes (hp : p.Proper) (h : Kept p calls s m) (hst : m.stopped = true)
    (hm : (∃ next, m.stack = [.await next, .rest]) ∨ m.stack = [.wake, .rest]) :
    Comes p (Complete p calls s) m := by
  have hstep : m.step p = some { m with
      stack := [.rest], journal := .ended m.clock :: m.journal } := by
    rcases hm with ⟨next, hm⟩ | hm <;> simp [step, hm, await, wake, hst, record]
  refine Comes.step hstep (rest_comes rfl h.heard.sorted fun n hn => ?_)
  exact h.complete hp (h.not_happens hst) (by simpa [Machine.shown] using hn)

/-- The machine at the beginning of a run. -/
def running (p : Plan Rat) (m : Machine Rat) : Machine Rat :=
  ({ m with turns := m.turns + 1, stack := [.rest] }.record (.ran m.clock)).push
    [.pass (m.clock + (p.runs m.turns).duration) .work, .finish (p.runs m.turns),
      .await (following m.clock p.interval)]

theorem running_step (hm : m.stack = [.wake, .rest]) (hst : m.stopped = false) :
    m.step p = some (running p m) := by
  simp [step, hm, wake, hst, running]

theorem running_shown : (running p m).shown = m.shown ++ [.ran m.clock] := by
  simp [Machine.shown, running, record, push]

/-- The end of a run shows what it raises and may stop the scheduler, and changes nothing else. -/
theorem finish_eq (r : Run Rat) : ∃ j, m.finish p r = { m with
    stopped := m.stopped || r.stops, journal := j } ∧ (m.finish p r).shown = m.shown ++
      (r.raises.map fun message => .logged (actionLog p.name message)).toList := by
  unfold Machine.finish
  split <;> rename_i hr
  · exact ⟨m.journal, rfl, by simp [Machine.shown, hr]⟩
  · exact ⟨_, rfl, by simp [Machine.shown, record, hr]⟩

/-- A run that takes place and has come to its end. -/
theorem Kept.finish (hp : p.Proper) (h : Kept p calls s m) (hhap : Happens p calls s m.turns)
    (hc : m.clock = begins p s m.turns)
    (hpass : Passed (begins p s m.turns + (p.runs m.turns).duration) (running p m) n) :
    Kept p calls s (n.finish p (p.runs m.turns)) := by
  obtain ⟨j, hx, hshown⟩ := finish_eq (m := n) (p := p) (p.runs m.turns)
  have ht : (n.finish p (p.runs m.turns)).turns = m.turns + 1 := by
    rw [hx]
    exact hpass.turns
  have hwork : begins p s m.turns ≤ begins p s m.turns + (p.runs m.turns).duration := by
    linarith [hp.duration m.turns]
  have hheard : Heard p calls (begins p s m.turns) m.turns (running p m) := h.heard.still rfl rfl
  refine ⟨?_, ?_, ?_⟩
  · rw [ht]
    intro i hi
    rcases Nat.lt_succ_iff_lt_or_eq.mp hi with hi | rfl
    · exact h.happened i hi
    · exact hhap
  · rw [ht, hshown, hpass.shown, running_shown, h.shown, hc]
    simp [reports, List.range_succ, report]
  · rw [ht]
    refine (hheard.passed hpass hwork).run ?_ ?_ (le_max_right _ _)
    · rw [hx]
    · rw [hx]

/-- A run is made, and the next one is to follow. -/
theorem Kept.run_comes (hp : p.Proper) (h : Kept p calls s m) (hm : m.stack = [.wake, .rest])
    (hst : m.stopped = false) (hc : m.clock = begins p s m.turns)
    (hhap : Happens p calls s m.turns)
    (hnext : ∀ n next, Kept p calls s n → n.turns = m.turns + 1 → n.stack = [.await next, .rest] →
      max n.clock next = begins p s n.turns → Comes p Q n) : Comes p Q m := by
  have hwork : (running p m).stack = .pass (m.clock + (p.runs m.turns).duration) .work ::
      [.finish (p.runs m.turns), .await (following m.clock p.interval), .rest] := rfl
  refine Comes.step (running_step hm hst) (pass_comes hwork h.heard.sorted fun n hn => ?_)
  cases hn with
  | early hp hn hs => simp [endsEarly] at hs
  | beyond hp hn hx => simp [Span.exceeds] at hx
  | late hpass hn hs hx hclock ha =>
    rw [hc] at hpass hclock
    let ran : Machine Rat := { n with stack := [.await (following m.clock p.interval), .rest] }
    have hpass : Passed (begins p s m.turns + (p.runs m.turns).duration) (running p m) ran :=
      ⟨hpass.turns, hpass.shown, hpass.calls⟩
    have hstep : n.step p = some (ran.finish p (p.runs m.turns)) := by simp [step, hn, ran]
    obtain ⟨j, hx, -⟩ := finish_eq (m := ran) (p := p) (p.runs m.turns)
    have hkept := h.finish hp hhap hc hpass
    have hturns : (ran.finish p (p.runs m.turns)).turns = m.turns + 1 := by
      rw [hx]
      exact hpass.turns
    refine Comes.step hstep (hnext _ (following m.clock p.interval) hkept hturns ?_ ?_)
    · rw [hx]
    · have hrc : (ran.finish p (p.runs m.turns)).clock = n.clock := by rw [hx]
      rw [hrc, hclock, hturns, hc]
      exact max_comm _ _

/-- The wait for the next run: it is stopped, it leads beyond what is watched, or the run begins. -/
theorem Kept.await_step (hp : p.Proper) {next : Rat} (h : Kept p calls s m)
    (hm : m.stack = [.await next, .rest]) (hnext : max m.clock next = begins p s m.turns)
    (hrun : ∀ n, Kept p calls s n → n.turns = m.turns → n.stack = [.wake, .rest] →
      n.stopped = false → n.clock = begins p s m.turns → Happens p calls s m.turns →
      Comes p (Complete p calls s) n) :
    Comes p (Complete p calls s) m := by
  cases hst : m.stopped with
  | true => exact h.stopped_comes hp hst (.inl ⟨next, hm⟩)
  | false =>
    have htarget : m.clock + delay next m.clock = begins p s m.turns := by
      rw [Time.delay_exact, Time.latest_rat, hnext]
    let waiting : Machine Rat := ({ m with stack := [.rest] }.record
      (.wait (delay next m.clock))).push [.pass (begins p s m.turns) .wait, .wake]
    have hstep : m.step p = some waiting := by
      simp [step, hm, await, hst, htarget, waiting, record]
    have hwait : waiting.stack = .pass (begins p s m.turns) .wait :: [.wake, .rest] := rfl
    refine Comes.step hstep (pass_comes hwait h.heard.sorted fun n hn => ?_)
    have hshown : waiting.shown = m.shown := by simp [waiting, Machine.shown, record, push]
    have hkept : Kept p calls s waiting := ⟨h.happened, hshown.trans h.shown, h.heard.still rfl rfl⟩
    cases hn with
    | early hpass hn hs =>
      have hkn := hkept.passed hpass (Span.bound_le _ _ _)
      exact hkn.stopped_comes hp hs (.inr hn)
    | beyond hpass hn hx =>
      have hx : p.horizon < begins p s m.turns := by simpa [Span.exceeds] using hx
      have hkn := hkept.passed hpass hx.le
      refine .here hn (hkn.complete hp ?_ rfl)
      rw [hpass.turns]
      exact fun hhap => absurd hhap.inTime (not_le.mpr hx)
    | late hpass hn hs hx hc ha =>
      have hkn := hkept.passed hpass le_rfl
      have hturns : n.turns = m.turns := hpass.turns
      have hx : begins p s m.turns ≤ p.horizon := by simpa [Span.exceeds] using hx
      have hhap := hkn.happens hs (by rw [hturns]; exact hx) (by rw [hturns]; exact ha)
      rw [hturns] at hhap
      exact hrun n hkn hturns hn hs hc hhap

/-- From one run to the next, by induction on how many runs are still watched. -/
theorem Kept.await_comes (hp : p.Proper) {next : Rat} (h : Kept p calls s m)
    (hm : m.stack = [.await next, .rest]) (hnext : max m.clock next = begins p s m.turns) :
    Comes p (Complete p calls s) m := by
  obtain ⟨bound, hbound⟩ := exists_lt_nsmul hp.interval (p.horizon - s)
  rw [nsmul_eq_mul] at hbound
  have hwatched {i : Nat} (hi : Happens p calls s i) : i < bound := by
    by_contra hle
    have hle : (bound : Rat) ≤ i := by exact_mod_cast not_lt.mp hle
    have hlow := hp.le_begins (s := s) i
    have hmul := mul_le_mul_of_nonneg_right hle hp.interval.le
    have hin := hi.inTime
    linarith
  obtain ⟨k, hk⟩ : ∃ k, bound ≤ m.turns + k := ⟨bound, by omega⟩
  induction k generalizing m next with
  | zero =>
    refine h.await_step hp hm hnext fun n hkn ht hn hst hc hhap => ?_
    have := hwatched hhap
    omega
  | succ k ih =>
    refine h.await_step hp hm hnext fun n hkn ht hn hst hc hhap => ?_
    refine hkn.run_comes hp hn hst (by rw [hc, ht]) (by rwa [ht]) ?_
    intro x next' hkx hxt hx hnext'
    exact ih hkx hx hnext' (by omega)

end Kept

/-! ## Up to the start -/

/-- Calls come in and none has started the scheduler yet. -/
structure Leading (calls : List (Rat × Op)) (m : Machine Rat) : Prop where
  launched : m.launched = false
  turns : m.turns = 0
  shown : m.shown = []
  sorted : Agenda.Sorted m.agenda
  nonneg : 0 ≤ m.clock
  ahead : ∀ e ∈ m.agenda, m.clock ≤ max 0 e.1
  calls : ∃ d, (d ++ m.agenda).Perm calls ∧ (∀ e ∈ d, e.1 ≤ m.clock ∧ e.2 ≠ .start) ∧
    (m.stopped = true ↔ ∃ t, (t, .stop) ∈ d)

section Leading

variable {calls : List (Rat × Op)} {e : Rat × Op} {rest : Agenda Rat Op}

theorem Leading.mem_agenda (h : Leading calls m) {t : Rat} (ht : (t, .start) ∈ calls) :
    (t, .start) ∈ m.agenda := by
  obtain ⟨d, hperm, hd, -⟩ := h.calls
  rcases List.mem_append.mp (hperm.symm.subset ht) with ht | ht
  · exact absurd rfl (hd _ ht).2
  · exact ht

/-- The first call that starts the scheduler is the earliest one. -/
theorem Leading.earliest (h : Leading calls m) (ha : m.agenda = e :: rest) {t : Rat}
    (ht : (t, .start) ∈ calls) : e.1 ≤ t := by
  have hmem := h.mem_agenda ht
  have hsort := h.sorted
  rw [ha] at hmem hsort
  rcases List.mem_cons.mp hmem with rfl | hmem
  · exact le_rfl
  · exact (List.pairwise_cons.mp hsort).1 _ hmem

theorem Leading.withStack (h : Leading calls m) (ts : List (Task Rat)) :
    Leading calls { m with stack := ts } :=
  ⟨h.launched, h.turns, h.shown, h.sorted, h.nonneg, h.ahead, h.calls⟩

/-- A call that does not start the scheduler. -/
theorem Leading.call (h : Leading calls m) (ha : m.agenda = e :: rest) (he : e.2 ≠ .start) :
    Leading calls (m.callDue e rest) := by
  obtain ⟨hl, ht, hs, hsort, hpos, hahead, d, hperm, hd, hst⟩ := h
  rw [ha] at hsort hperm hahead
  obtain ⟨hlow, hsort⟩ := List.pairwise_cons.mp hsort
  refine ⟨by simp [hl, he], by simp [ht], by simp [hs], by rw [callDue_agenda]; exact hsort, ?_, ?_,
    d ++ [e], by simpa using hperm, ?_, ?_⟩
  · rw [callDue_clock]
    exact hpos.trans (le_max_left _ _)
  · rw [callDue_clock, callDue_agenda]
    intro f hf
    exact max_le (hahead f (List.mem_cons_of_mem e hf)) ((hlow f hf).trans (le_max_right _ _))
  · rw [callDue_clock]
    refine List.forall_mem_append.mpr ⟨fun f hf => ?_, by simpa using he⟩
    exact ⟨(hd f hf).1.trans (le_max_left _ _), (hd f hf).2⟩
  · simp only [List.mem_append, exists_or, exists_mem_singleton, ← hst]
    simp

/-- The call that starts the scheduler: its first run is to begin after the initial delay. -/
theorem Leading.start (hp : p.Proper) (h : Leading calls m) (ha : m.agenda = e :: rest) :
    (m.callDue e rest).clock = max 0 e.1 ∧ Kept p calls (max 0 e.1) (m.callDue e rest) := by
  obtain ⟨hl, ht, hs, hsort, hpos, hahead, d, hperm, hd, hst⟩ := h
  rw [ha] at hsort hperm hahead
  have hclock : max m.clock e.1 = max 0 e.1 :=
    le_antisymm (max_le (hahead e List.mem_cons_self) (le_max_right _ _)) (max_le_max hpos le_rfl)
  have hle : max 0 e.1 ≤ begins p (max 0 e.1) 0 := by
    have := hp.initialDelay
    simp only [begins]
    linarith
  refine ⟨by rw [callDue_clock, hclock], by simp [ht], by simp [hs, ht, reports],
    by simpa using hsort.tail, d ++ [e], by simpa using hperm, ?_, ?_⟩
  · rw [callDue_turns, ht]
    refine List.forall_mem_append.mpr ⟨fun f hf => ?_, ?_⟩
    · exact ((hd f hf).1.trans ((le_max_left _ _).trans hclock.le)).trans hle
    · simpa using (le_max_right _ _).trans hle
  · simp only [List.mem_append, exists_or, exists_mem_singleton, ← hst]
    simp [ht]

/-- Once the scheduler has been started it waits for its first run. -/
theorem launched_comes (hm : m.stack = [.pass target .lead, .main]) (hl : m.launched = true)
    (h : Comes p Q { m with begun := true, stack := [.await (m.clock + p.initialDelay), .rest] }) :
    Comes p Q m := by
  refine Comes.step (n := { m with stack := [.main] }) (by simp [step, hm, pass, endsEarly, hl]) ?_
  exact Comes.step (by simp [step, main, hl, push]) h

/-- What comes of a call that is due: the scheduler waits for its first run, or for more calls. -/
theorem Leading.due_comes (hp : p.Proper) (h : Leading calls m) (ha : m.agenda = e :: rest)
    (hm : m.stack = [.main])
    (hstart : ∀ n t, (t, .start) ∈ calls → (∀ t', (t', .start) ∈ calls → t ≤ t') →
      Kept p calls (max 0 t) n → n.turns = 0 → n.stack = [.await (max 0 t + p.initialDelay), .rest] →
      n.clock = max 0 t → Comes p Q n)
    (hcall : ∀ n, Leading calls n → n.stack = [.pass n.clock .lead, .main] → n.agenda = rest →
      Comes p Q n) : Comes p Q ((m.callDue e rest).push [.pass (max m.clock e.1) .lead]) := by
  by_cases he : e.2 = .start
  · obtain ⟨hclock, hkept⟩ := h.start hp ha
    have hmem : (e.1, .start) ∈ calls := by
      obtain ⟨d, hperm, -⟩ := h.calls
      refine hperm.subset (List.mem_append_right d ?_)
      rw [ha, ← he]
      exact List.mem_cons_self
    have hlead : ((m.callDue e rest).push [.pass (max m.clock e.1) .lead]).stack =
        [.pass (max m.clock e.1) .lead, .main] := by simp [push, hm]
    refine launched_comes hlead (by simp [push, he]) ?_
    refine hstart _ e.1 hmem (fun t ht => h.earliest ha ht)
      ⟨hkept.happened, hkept.shown, hkept.heard.still rfl rfl⟩ ?_ ?_ hclock
    · simp [push, h.turns]
    · change [Task.await ((m.callDue e rest).clock + p.initialDelay), .rest] = _
      rw [hclock]
  · refine hcall _ ((h.call ha he).withStack _) ?_ (by simp [push])
    simp [push, hm]

section Comes

variable (hp : p.Proper)
  (hend : ∀ n : Machine Rat, n.shown = [] → (∀ t, (t, .start) ∈ calls → p.horizon < max 0 t) → Q n)
  (hstart : ∀ n t, (t, .start) ∈ calls → (∀ t', (t', .start) ∈ calls → t ≤ t') →
    Kept p calls (max 0 t) n → n.turns = 0 → n.stack = [.await (max 0 t + p.initialDelay), .rest] →
    n.clock = max 0 t → Comes p Q n)
include hp hend hstart

theorem Leading.main_comes (h : Leading calls m) (hm : m.stack = [.main])
    (hcall : ∀ n, Leading calls n → n.stack = [.pass n.clock .lead, .main] →
      n.agenda.length < m.agenda.length → Comes p Q n) : Comes p Q m := by
  refine Comes.step (n := Machine.main p { m with stack := [] }) (by simp [step, hm]) ?_
  cases hd : m.agenda.due? p.horizon with
  | none =>
    have hlate := h.sorted.lt_of_due hd
    refine .here (by simp [Machine.main, h.launched, hd]) (hend _ ?_ fun t ht => ?_)
    · simpa [Machine.main, h.launched, hd, Machine.shown] using h.shown
    · exact (hlate _ (h.mem_agenda ht)).trans_le (le_max_right _ _)
  | some call =>
    obtain ⟨e, rest⟩ := call
    obtain ⟨ha, hle⟩ := Agenda.due?_eq_some.mp hd
    have hle : e.1 ≤ Span.bound .lead (max m.clock e.1) p.horizon := Span.le_bound _ _ hle
    have hlead : ({ m with stack := [.main] } : Machine Rat).endsEarly .lead = false := h.launched
    have hstep := pass_of_due hlead ha hle
    refine Comes.step (n := (({ m with stack := [.main] } : Machine Rat).callDue e rest).push
      [.pass (max m.clock e.1) .lead]) ?_
      ((h.withStack [.main]).due_comes hp ha rfl hstart fun n hn hs hlen => hcall n hn hs ?_)
    · rw [← hstep]
      simp [Machine.main, h.launched, hd, step, push, Time.latest_rat]
    · simp [hlen, ha]

/-- Calls come in until the scheduler is started, by induction on those that are to come. -/
theorem Leading.comes (h : Leading calls m)
    (hm : m.stack = [.main] ∨ m.stack = [.pass m.clock .lead, .main]) : Comes p Q m := by
  induction hk : m.agenda.length using Nat.strong_induction_on generalizing m with
  | _ k ih =>
    have hmain {x : Machine Rat} (hx : Leading calls x) (hxm : x.stack = [.main])
        (hlen : x.agenda.length = k) : Comes p Q x :=
      hx.main_comes hp hend hstart hxm fun n hn hs hlt => ih _ (hlen ▸ hlt) hn (.inr hs) rfl
    rcases hm with hm | hm
    · exact hmain h hm hk
    · refine Comes.step (n := pass p { m with stack := [.main] } m.clock .lead)
        (by simp [step, hm]) ?_
      cases hd : m.agenda.due? (Span.bound .lead m.clock p.horizon) with
      | some call =>
        obtain ⟨e, rest⟩ := call
        obtain ⟨ha, hle⟩ := Agenda.due?_eq_some.mp hd
        have hclock : max m.clock e.1 = m.clock := max_eq_left (hle.trans (Span.bound_le _ _ _))
        have hdue := (h.withStack [.main]).due_comes hp ha rfl hstart fun n hn hs hrest =>
          ih n.agenda.length (by simp [hrest, ← hk, ha]) hn (.inr hs) rfl
        have hlead : ({ m with stack := [.main] } : Machine Rat).endsEarly .lead = false :=
          h.launched
        rw [pass_of_due hlead ha hle]
        rwa [hclock] at hdue
      | none =>
        have hpass : pass p { m with stack := [.main] } m.clock .lead =
            if Span.exceeds .lead m.clock p.horizon then { m with stack := [] }
            else { m with stack := [.main] } := by
          simp [pass, endsEarly, h.launched, hd, setClock]
        rw [hpass]
        split
        · rename_i hx
          have hx : p.horizon < m.clock := by simpa [Span.exceeds] using hx
          have hlate : ∀ t, (t, .start) ∈ calls → p.horizon < max 0 t := fun t ht =>
            hx.trans_le (h.ahead (t, .start) (h.mem_agenda ht))
          have hend := hend { m with stack := [] } (h.withStack []).shown hlate
          exact .here rfl hend
        · exact hmain (h.withStack [.main]) rfl hk

end Comes

end Leading

/-- The scheduler comes to an end. Until it is started nothing is run. From then on each run begins
an interval after the one before it began, or at once when that one has taken longer, and whether
one raises an exception makes no difference. The runs that are made are those that begin before a
stop. -/
theorem runs_on_schedule (hp : p.Proper) (calls : List (Rat × Op)) : ∃ fuel,
    (run p fuel (start calls)).stack = [] ∧
    ((∀ t, (t, .start) ∉ calls) → (run p fuel (start calls)).shown = []) ∧
    ∀ t, (t, .start) ∈ calls → (∀ t', (t', .start) ∈ calls → t ≤ t') →
      Complete p calls (max 0 t) (run p fuel (start calls)) := by
  have hlead : Leading calls (start calls) := by
    refine ⟨rfl, rfl, rfl, Agenda.sorted_ofList calls, le_rfl, fun e _ => le_max_left _ _, [], ?_,
      by simp, by simp [start]⟩
    exact Agenda.perm_ofList calls
  refine Leading.comes (Q := fun n => ((∀ t, (t, .start) ∉ calls) → n.shown = []) ∧
    ∀ t, (t, .start) ∈ calls → (∀ t', (t', .start) ∈ calls → t ≤ t') →
      Complete p calls (max 0 t) n) hp ?_ ?_ hlead (.inl rfl)
  · intro n hn hlate
    refine ⟨fun _ => hn, fun t ht _ => ⟨0, hn, fun i => ⟨fun hi => absurd hi (Nat.not_lt_zero i), ?_⟩⟩⟩
    intro hi
    have hbegin := hp.le_begins (s := max 0 t) i
    have hspan := mul_nonneg (Nat.cast_nonneg (α := Rat) i) hp.interval.le
    have hin := hi.inTime
    have := hlate t ht
    linarith
  · intro n t ht hmin hkept hturns hn hclock
    have hnext : max n.clock (max 0 t + p.initialDelay) = begins p (max 0 t) n.turns := by
      rw [hclock, hturns]
      exact max_eq_right (by linarith [hp.initialDelay])
    obtain ⟨fuel, hend, hcomplete⟩ := hkept.await_comes hp hn hnext
    refine ⟨fuel, hend, fun hnone => absurd ht (hnone t), fun t' ht' hmin' => ?_⟩
    rwa [le_antisymm (hmin' t ht) (hmin t' ht')]

end Machine
end Schedule
end FlagPoll
