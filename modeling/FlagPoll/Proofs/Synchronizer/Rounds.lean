import FlagPoll.Proofs.Schedule
import FlagPoll.Proofs.Synchronizer.Pace
import Mathlib.Algebra.Order.Floor.Semiring
import Mathlib.Data.Prod.Lex
import Mathlib.Order.WithBot

/-!
# FlagPoll.Proofs.Synchronizer.Rounds

The polls of a synchronizer over a whole run.

* `OnSchedule`        — the law: a fetch begins an interval after the last one began, or as soon as
  that poll has ended.
* `onSchedule_of_run` — every run keeps to it.
* `complete_of_run`   — a run that has come to its end misses no fetch.
* `comes_to_end`      — a run comes to its end if all calls return.
-/

namespace FlagPoll.Synchronizer.Machine

open Time

variable {τ κ : Type}

/-- When fetches began, the earliest first. -/
def fetchStarts (m : Machine τ κ) : List τ := (fetchTimes m.journal).reverse

/-- When the polls ended that they belong to, the earliest first. -/
def pollEnds (ms : List (Machine τ κ)) : List τ := (returns ms).reverse

/-- The first fetch begins when polling is launched, and each of the others an interval after the
one before it began or, if that poll took longer, when it ended. -/
structure OnSchedule [Time τ] (interval : τ) (m : Machine τ κ) (ms : List (Machine τ κ)) : Prop where
  first : ∀ t, (fetchStarts m)[0]? = some t → launchTime (m :: ms) = some t
  next : ∀ i t, (fetchStarts m)[i + 1]? = some t → ∃ b e, (fetchStarts m)[i]? = some b ∧
    (pollEnds (m :: ms))[i]? = some e ∧ t = latest e (b + interval)

section Law

variable {m n : Machine τ κ} {ms : List (Machine τ κ)} {t : τ} {i : Nat}

theorem launchTime_cons (h : launchTime ms = some t) : launchTime (m :: ms) = some t := by
  simp [launchTime, h]

theorem pollEnds_cons (h : (pollEnds ms)[i]? = some t) : (pollEnds (m :: ms))[i]? = some t := by
  rw [pollEnds] at h ⊢
  rw [returns]
  split
  · obtain ⟨hlt, -⟩ := List.getElem?_eq_some_iff.mp h
    rw [List.reverse_cons, List.getElem?_append_left hlt]
    exact h
  · exact h

theorem getElem?_reverse_cons {a : τ} {as : List τ} (h : i = as.length) :
    (a :: as).reverse[i]? = some a := by
  subst h
  simp

variable [Time τ] {w : World τ κ}

theorem OnSchedule.keep (h : OnSchedule w.interval m ms)
    (hf : fetchTimes n.journal = fetchTimes m.journal) : OnSchedule w.interval n (m :: ms) := by
  have hs : fetchStarts n = fetchStarts m := by rw [fetchStarts, hf, fetchStarts]
  refine ⟨fun t ht => launchTime_cons (h.first t (hs ▸ ht)), fun i t ht => ?_⟩
  rw [hs] at ht ⊢
  obtain ⟨b, e, hb, he, rfl⟩ := h.next i t ht
  exact ⟨b, e, hb, pollEnds_cons he, rfl⟩

theorem OnSchedule.fetch (h : OnSchedule w.interval m ms) (hf : FetchBegins w m ms n) :
    OnSchedule w.interval n (m :: ms) := by
  obtain ⟨hs, hd, -, -, hj⟩ := hf
  have hstarts : fetchStarts n = fetchStarts m ++ [m.clock] := by simp [fetchStarts, hj]
  have hnew {i : Nat} {t : τ} (hi : ¬ i < (fetchStarts m).length)
      (ht : (fetchStarts n)[i]? = some t) : i = (fetchStarts m).length ∧ t = m.clock := by
    rw [hstarts, List.getElem?_append_right (not_lt.mp hi), List.getElem?_singleton] at ht
    split at ht
    · exact ⟨by omega, (Option.some.inj ht).symm⟩
    · cases ht
  have hold {i : Nat} (hi : i < (fetchStarts m).length) :
      (fetchStarts n)[i]? = (fetchStarts m)[i]? := by
    rw [hstarts, List.getElem?_append_left hi]
  rw [dueTime] at hd
  constructor
  · intro t ht
    by_cases hi : 0 < (fetchStarts m).length
    · rw [hold hi] at ht
      exact launchTime_cons (h.first t ht)
    · obtain ⟨hlen, rfl⟩ := hnew hi ht
      have hnone : fetchTimes m.journal = [] := by
        simpa [fetchStarts] using List.eq_nil_of_length_eq_zero hlen.symm
      rw [hnone] at hd
      exact launchTime_cons hd
  · intro i t ht
    by_cases hi : i + 1 < (fetchStarts m).length
    · rw [hold hi] at ht
      obtain ⟨b, e, hb, he, rfl⟩ := h.next i t ht
      exact ⟨b, e, by rw [hold (by omega), hb], pollEnds_cons he, rfl⟩
    · obtain ⟨hlen, rfl⟩ := hnew hi ht
      have hi : i < (fetchStarts m).length := by omega
      rw [hold hi]
      rw [Settled] at hs
      split at hd
      · rename_i hnone
        simp [fetchStarts, hnone] at hlen
      · rename_i b bs e es hb he
        rw [hb, he] at hs
        rw [fetchStarts, hb] at hlen
        simp only [List.length_cons, List.length_reverse] at hs hlen
        refine ⟨b, e, ?_, pollEnds_cons ?_, (Option.some.inj hd).symm⟩
        · rw [fetchStarts, hb]
          exact getElem?_reverse_cons (by omega)
        · rw [pollEnds, he]
          exact getElem?_reverse_cons (by omega)
      · cases hd

end Law

section Run

variable [Time τ] [BEq κ] {w : World τ κ} {r : Requester} {m : Machine τ κ}
  {ms : List (Machine τ κ)} (hw : w.Every fun op => ¬ op.IsPoll)
  (h : Run w r (Op.Every fun op => ¬ op.IsPoll) (fun _ => False) (m :: ms))
include hw h

theorem onSchedule_of_run (hx : Exact (m :: ms)) : OnSchedule w.interval m ms := by
  induction h using Run.head_induction with
  | create => exact ⟨by simp [fetchStarts, create, fetchTimes], by simp [fetchStarts, create, fetchTimes]⟩
  | timeline calls hd =>
    exact ⟨by simp [fetchStarts, create, fetchTimes], by simp [fetchStarts, create, fetchTimes]⟩
  | call x xs op h hs ho ih => exact ho.elim
  | step x y xs h hs ih =>
    rcases fetch_step hw h hx.tail hs with hf | hf
    · exact (ih hx.tail).keep hf
    · exact (ih hx.tail).fetch hf

/-- Once nothing is left to be done, polling is over or the next fetch lies beyond the horizon. -/
theorem complete_of_run (hx : Exact (m :: ms)) (hm : m.stack = []) (hl : m.sync.launched = true) :
    m.sync.stopped = true ∨ ∃ d, dueTime w.interval (m :: ms) = some d ∧ w.horizon < d := by
  obtain ⟨above, base, hstack, -, hstage⟩ := paced_of_run hw h hx
  obtain ⟨rfl, rfl⟩ : above = [] ∧ base = [] := by simpa [hm] using hstack
  cases hstage with
  | lead hb => simp at hb
  | never ha hf hl' => simp [hl] at hl'
  | await next hb => simp at hb
  | ended hb ha hl hs hd => exact hd

end Run

/-! ## Coming to an end -/

section Rank

variable {w : World Rat κ} {m n : Machine Rat κ} {ms : List (Machine Rat κ)}

/-- How many fetches are still to come at most; nothing is known before the first one. -/
def roundsLeft (w : World Rat κ) (m : Machine Rat κ) : WithTop Nat :=
  match fetchTimes m.journal with
  | [] => ⊤
  | t :: _ => (⌊(w.horizon - t) / w.interval⌋₊ : Nat)

/-- How far the schedule is from its next call or poll while nothing else is in progress. -/
def rank (w : World Rat κ) (m : Machine Rat κ) : Nat :=
  match m.stack with
  | [.pass _ .rest] => 1
  | [.rest] => 2
  | [.wake, .rest] => 3
  | [.pass _ .wait, .wake, .rest] => 4
  | [.await _, .rest] => 5
  | [.ran, .await _, .rest] => 6
  | [.main] => 8
  | [.pass t .lead, .main] =>
    if m.sync.launched || (m.agenda.due? (Span.bound .lead t w.horizon)).isNone then 9 else 7
  | _ => 0

theorem roundsLeft_keep (h : fetchTimes n.journal = fetchTimes m.journal) :
    roundsLeft w n = roundsLeft w m := by rw [roundsLeft, h, roundsLeft]

theorem roundsLeft_lt (hi : 0 < w.interval) (h : FetchBegins w m ms n) :
    roundsLeft w n < roundsLeft w m := by
  obtain ⟨-, hd, ht, -, hj⟩ := h
  rw [roundsLeft, hj]
  rw [dueTime] at hd
  rw [roundsLeft]
  split at hd
  · rename_i hnone
    rw [hnone]
    exact WithTop.coe_lt_top _
  · rename_i b bs e es hb he
    rw [hb]
    have hd : m.clock = max e (b + w.interval) := by
      rw [← latest_rat]
      exact (Option.some.inj hd).symm
    have hnext : b + w.interval ≤ m.clock := hd ▸ le_max_right _ _
    have hleft : 0 ≤ (w.horizon - m.clock) / w.interval :=
      div_nonneg (sub_nonneg.mpr (not_lt.mp ht)) hi.le
    have hstep : (w.horizon - m.clock) / w.interval + 1 ≤ (w.horizon - b) / w.interval := by
      rw [← sub_nonneg, ← sub_sub, ← sub_div, sub_nonneg, one_le_div hi]
      linarith
    refine WithTop.coe_lt_coe.mpr (Nat.lt_of_succ_le (Nat.le_floor ?_))
    push_cast
    linarith [Nat.floor_le hleft]
  · cases hd

end Rank

/-- Rational moments are kept as they are. -/
theorem exact_rat (ms : List (Machine Rat κ)) : Exact ms :=
  ⟨fun _ => rfl, fun m _ next => delay_exact m.clock next⟩

section Progress

variable [BEq κ] {w : World Rat κ} {r : Requester} {m n : Machine Rat κ} {ms : List (Machine Rat κ)}

/-- What becomes of a machine in which nothing is in progress but the schedule. -/
inductive Moves (w : World Rat κ) (m : Machine Rat κ) (ms : List (Machine Rat κ))
    (n : Machine Rat κ) : Prop where
  | ends (hn : n.stack = [])
  /-- The schedule goes on. -/
  | goes (hn : n.isIdle = true) (hf : fetchTimes n.journal = fetchTimes m.journal)
      (ha : n.agenda = m.agenda) (hr : rank w n < rank w m)
  /-- A call comes in. -/
  | call (hf : fetchTimes n.journal = fetchTimes m.journal)
      (ha : n.agenda.length < m.agenda.length)
  /-- A poll begins. -/
  | poll (k : Machine Rat κ) (hk : n.step w = some k) (hf : FetchBegins w n (m :: ms) k)

theorem moves_pass {target : Rat} {span : Span} {rest : List (Task Rat κ)}
    (hm : m.stack = .pass target span :: rest) (hb : ∀ t ∈ rest, t.isBase = true)
    (h : m.step w = some n)
    (hr : ∀ x : Machine Rat κ, x.sync = m.sync → x.agenda = m.agenda → x.stack = rest →
      m.endsEarly span = true ∨ m.agenda.due? (span.bound target w.horizon) = none →
      rank w x < rank w m) : Moves w m ms n := by
  cases passes_of_step hm h with
  | early hearly hn =>
    subst hn
    exact .goes (by simpa [isIdle] using hb) rfl rfl (hr _ rfl rfl rfl (.inl hearly))
  | call e due hnot hle hd ha hsync hj hn =>
    exact .call (by simp [hj, fetchTimes]) (by simp [ha, hd])
  | beyond hnot hx hn =>
    subst hn
    exact .ends rfl
  | late hnot hdue hx hn =>
    subst hn
    exact .goes (by simpa [isIdle] using hb) rfl rfl (hr _ rfl rfl rfl (.inr hdue))

theorem moves_main (hm : m.stack = [.main]) (h : m.step w = some n) : Moves w m ms n := by
  obtain rfl := eq_execute hm h
  simp only [execute, main]
  split
  · exact .goes rfl rfl rfl (by simp [rank, hm, push])
  · rename_i hnot
    have hnot : m.sync.launched = false := Bool.eq_false_iff.mpr hnot
    split
    · rename_i e due hdue
      obtain ⟨ha, hle⟩ := Agenda.due?_eq_some.mp hdue
      have ha : m.agenda = e :: due := ha
      have hle : e.1 ≤ Span.bound .lead (latest m.clock e.1) w.horizon := by
        rw [latest_rat]
        exact Span.le_bound .lead m.clock hle
      have hdue := Agenda.due?_eq_some.mpr ⟨ha, hle⟩
      exact .goes rfl rfl rfl (by simp [rank, hm, push, hnot, hdue])
    · exact .ends rfl

/-- The polling task goes on to poll unless it has been stopped, and the poll begins a fetch. -/
theorem moves_wake (hw : w.Every fun op => ¬ op.IsPoll)
    (h : Run w r (Op.Every fun op => ¬ op.IsPoll) (fun _ => False) (m :: ms))
    (hm : m.stack = [.wake, .rest]) (hl : m.sync.launched = true) (hset : Settled m ms)
    (hs : m.step w = some n) : Moves w m ms n := by
  have hn := eq_execute hm hs
  simp only [execute, wake] at hn
  split at hn
  · subst hn
    exact .goes rfl rfl rfl (by simp [rank, hm, record])
  · rename_i hst
    have hact := active_of_run h hl (Bool.eq_false_iff.mpr hst)
    have hstack : n.stack = .poll none :: .ran :: .await (m.clock + w.interval) :: [.rest] := by
      rw [hn]
      rfl
    have hsync : n.sync = m.sync := by rw [hn]; rfl
    have hclock : n.clock = m.clock := by rw [hn]; rfl
    have hf : fetchTimes n.journal = fetchTimes m.journal := by rw [hn]; rfl
    obtain ⟨k, hk⟩ : ∃ k, n.step w = some k := ⟨_, step_eq_some.mpr ⟨_, _, hstack, rfl⟩⟩
    obtain ⟨-, hbegins⟩ := paced_poll (by rw [hsync, hl]) (hset.keep hf) hw (by rw [hsync, hact])
      (by rw [hstack, hclock]) hk
    refine .poll k hk ((fetch_step hw (h.step hs) (exact_rat _) hk).resolve_left ?_)
    rw [hbegins]
    exact List.cons_ne_self _ _

theorem idle_step (hw : w.Every fun op => ¬ op.IsPoll)
    (h : Run w r (Op.Every fun op => ¬ op.IsPoll) (fun _ => False) (m :: ms))
    (hidle : m.isIdle = true) (hs : m.step w = some n) : Moves w m ms n := by
  obtain ⟨above, base, hm, ha, hstage⟩ := paced_of_run hw h (exact_rat _)
  obtain rfl : above = [] := by
    cases above with
    | nil => rfl
    | cons t above =>
      have hbusy := isIdle_eq_false hm (ha t List.mem_cons_self)
      simp [hidle] at hbusy
  rw [List.nil_append] at hm
  cases hstage with
  | never => simp [step, hm] at hs
  | lead hb hf hr hl =>
    rcases hb with rfl | ⟨t, rfl⟩
    · exact moves_main hm hs
    · -- without a call that is due idle time ends only once polling has been launched
      refine moves_pass hm (by simp [Task.isBase]) hs fun x hxs hxa hxst hor => ?_
      have hor : m.sync.launched = true ∨
        m.agenda.due? (Span.bound .lead t w.horizon) = none := hor
      rcases hor with hor | hor <;> simp [rank, hm, hxst, hor]
  | await next hb ha hl hset hd =>
    rcases hb with rfl | rfl
    · obtain rfl := eq_execute hm hs
      simp only [execute, await]
      split
      · exact .goes rfl rfl rfl (by simp [rank, hm, record])
      · exact .goes rfl rfl rfl (by simp [rank, hm, record, push])
    · obtain rfl := eq_execute hm hs
      simp only [execute, ran]
      split
      · exact .goes rfl rfl rfl (by simp [rank, hm, log, record])
      · exact .goes rfl rfl rfl (by simp [rank, hm])
  | wait target hl hset hd =>
    refine moves_pass hm (by simp [Task.isBase]) hs fun x hxs hxa hxst _ => ?_
    simp [rank, hm, hxst]
  | wake ha hl hset hd => exact moves_wake hw h hm hl hset hs
  | poll => simp [isIdle, hm, Task.isBase] at hidle
  | fetching t ts ha => exact absurd rfl ha
  | ended hb ha hl hset hd =>
    rcases hb with rfl | ⟨t, rfl⟩ | rfl
    · obtain rfl := eq_execute hm hs
      exact .goes rfl rfl rfl (by simp [rank, hm, execute, Machine.rest, push])
    · exact moves_pass hm (by simp) hs fun x _ _ hxst _ => by simp [rank, hm, hxst]
    · simp [step, hm] at hs

theorem run_step (hs : m.step w = some n) (fuel : Nat) : run w (fuel + 1) m = run w fuel n := by
  simp [run, hs]

theorem run_add (i j : Nat) (m : Machine Rat κ) : run w (i + j) m = run w j (run w i m) := by
  induction i generalizing m with
  | zero => simp [run]
  | succ i ih =>
    cases hs : m.step w with
    | none => cases j <;> simp [run, hs]
    | some n => rw [Nat.add_right_comm, run_step hs, run_step hs, ih]

/-- All calls return: again and again nothing is in progress but the schedule. -/
def Returning (w : World Rat κ) (m : Machine Rat κ) : Prop :=
  ∀ k, ∃ l, k ≤ l ∧ (run w l m).isIdle = true

theorem Returning.after (h : Returning w m) (i : Nat) : Returning w (run w i m) := by
  intro k
  obtain ⟨l, hl, hidle⟩ := h (i + k)
  obtain ⟨j, rfl⟩ := Nat.exists_eq_add_of_le hl
  refine ⟨k + j, by omega, ?_⟩
  rwa [← run_add, ← Nat.add_assoc]

/-- What falls from one moment at which nothing is in progress to the next. -/
def ahead (w : World Rat κ) (m : Machine Rat κ) : WithTop Nat ×ₗ Nat ×ₗ Nat :=
  toLex (roundsLeft w m, toLex (m.agenda.length, rank w m))

omit [BEq κ] in
theorem ahead_lt (hr : roundsLeft w n ≤ roundsLeft w m)
    (ha : roundsLeft w n < roundsLeft w m ∨ n.agenda.length < m.agenda.length) :
    ahead w n < ahead w m := by
  rw [ahead, ahead, Prod.Lex.toLex_lt_toLex]
  rcases hr.lt_or_eq with hr | hr
  · exact .inl hr
  · refine .inr ⟨hr, Prod.Lex.toLex_lt_toLex.mpr (.inl ?_)⟩
    exact ha.resolve_left (by simp [hr])

/-- Once polling is over no fetch begins any more. -/
theorem fetchTimes_of_stopped (hw : w.Every fun op => ¬ op.IsPoll)
    (h : Run w r (Op.Every fun op => ¬ op.IsPoll) (fun _ => False) (m :: ms))
    (hst : m.sync.stopped = true) (k : Nat) :
    fetchTimes (run w k m).journal = fetchTimes m.journal := by
  induction k generalizing m ms with
  | zero => rfl
  | succ k ih =>
    cases hs : m.step w with
    | none => simp [run, hs]
    | some n =>
      have hn := stopped_turn (pending_of_run h) hst (turn_of_step hs)
      rw [run_step hs, ih (h.step hs) hn]
      refine (fetch_step hw h (exact_rat _) hs).resolve_right fun hf => ?_
      simp [hf.polling] at hst

section Descent

variable (hi : 0 < w.interval) (hw : w.Every fun op => ¬ op.IsPoll)
  (h : Run w r (Op.Every fun op => ¬ op.IsPoll) (fun _ => False) (m :: ms))
include hi hw h

theorem step_le (hs : m.step w = some n) :
    roundsLeft w n ≤ roundsLeft w m ∧ n.agenda.length ≤ m.agenda.length := by
  constructor
  · rcases fetch_step hw h (exact_rat _) hs with hf | hf
    · exact (roundsLeft_keep hf).le
    · exact (roundsLeft_lt hi hf).le
  · obtain ⟨task, rest, -, rfl⟩ := step_eq_some.mp hs
    exact (execute_agenda w { m with stack := rest } task).length_le

theorem run_le (k : Nat) : (∃ xs, Run w r (Op.Every fun op => ¬ op.IsPoll) (fun _ => False)
      (run w k m :: xs)) ∧
    roundsLeft w (run w k m) ≤ roundsLeft w m ∧ (run w k m).agenda.length ≤ m.agenda.length := by
  induction k generalizing m ms with
  | zero => exact ⟨⟨ms, h⟩, le_rfl, le_rfl⟩
  | succ k ih =>
    cases hs : m.step w with
    | none =>
      rw [run, hs]
      exact ⟨⟨ms, h⟩, le_rfl, le_rfl⟩
    | some n =>
      rw [run_step hs]
      obtain ⟨hr, ha⟩ := step_le hi hw h hs
      obtain ⟨hrun, hr', ha'⟩ := ih (h.step hs)
      exact ⟨hrun, hr'.trans hr, ha'.trans ha⟩

/-- From one moment at which nothing is in progress to the next one, or to the end. -/
theorem descends (hret : Returning w m) (hidle : m.isIdle = true) : ∃ k,
    (run w k m).stack = [] ∨ (run w k m).isIdle = true ∧ ahead w (run w k m) < ahead w m := by
  cases hs : m.step w with
  | none =>
    refine ⟨0, .inl ?_⟩
    cases hm : m.stack with
    | nil => simp [run, hm]
    | cons task rest => simp [step, hm] at hs
  | some n =>
    cases idle_step hw h hidle hs with
    | ends hn => exact ⟨1, .inl (by rwa [run_step hs])⟩
    | goes hn hf ha hr =>
      refine ⟨1, .inr ?_⟩
      rw [run_step hs]
      refine ⟨hn, ?_⟩
      rw [ahead, ahead, Prod.Lex.toLex_lt_toLex, Prod.Lex.toLex_lt_toLex]
      exact .inr ⟨roundsLeft_keep hf, .inr ⟨congrArg List.length ha, hr⟩⟩
    | call hf ha =>
      obtain ⟨k, hk, hidle⟩ := hret 1
      obtain ⟨j, rfl⟩ := Nat.exists_eq_add_of_le' hk
      refine ⟨j + 1, .inr ⟨hidle, ?_⟩⟩
      rw [run_step hs]
      obtain ⟨-, hr, ha'⟩ := run_le hi hw (h.step hs) j
      exact ahead_lt (hr.trans (roundsLeft_keep hf).le) (.inr (ha'.trans_lt ha))
    | poll k hk hf =>
      obtain ⟨l, hl, hidle⟩ := hret 2
      obtain ⟨j, rfl⟩ := Nat.exists_eq_add_of_le' hl
      refine ⟨j + 2, .inr ⟨hidle, ?_⟩⟩
      rw [run_step hs, run_step hk]
      obtain ⟨-, hr, -⟩ := run_le hi hw ((h.step hs).step hk) j
      obtain ⟨hr', -⟩ := step_le hi hw h hs
      have hlt := (hr.trans_lt (roundsLeft_lt hi hf)).trans_le hr'
      exact ahead_lt hlt.le (.inl hlt)

/-- A run comes to its end if all calls return: only so many fetches begin before the horizon, and
only so many calls are due. -/
theorem comes_to_end (hret : Returning w m) : ∃ fuel, (run w fuel m).stack = [] := by
  obtain ⟨k, -, hidle⟩ := hret 0
  obtain ⟨⟨xs, hrun⟩, -⟩ := run_le hi hw h k
  suffices key : ∀ x (m : Machine Rat κ) ms, ahead w m = x →
      Run w r (Op.Every fun op => ¬ op.IsPoll) (fun _ => False) (m :: ms) → Returning w m →
      m.isIdle = true → ∃ fuel, (run w fuel m).stack = [] by
    obtain ⟨fuel, hend⟩ := key _ _ xs rfl hrun (hret.after k) hidle
    exact ⟨k + fuel, by rwa [run_add]⟩
  -- by induction on the fetches, the calls and the steps of the schedule that are still ahead
  intro x
  induction x using WellFoundedLT.induction with
  | ind x ih =>
    rintro m ms rfl h hret hidle
    obtain ⟨k, hend | ⟨hnext, hlt⟩⟩ := descends hi hw h hret hidle
    · exact ⟨k, hend⟩
    · obtain ⟨⟨xs, hrun⟩, -⟩ := run_le hi hw h k
      obtain ⟨fuel, hend⟩ := ih _ hlt _ xs rfl hrun (hret.after k) hnext
      exact ⟨k + fuel, by rwa [run_add]⟩

end Descent

end Progress

/-! ## The schedule -/

/-- A scheduler that is started makes exactly the runs that begin before it is stopped: the first one
after the initial delay, and each of the others an interval after the one before it began or, if
that one took longer, when it ended. The fetches of a synchronizer keep to this from the moment at
which polling is launched until it is closed or fails for good, whatever the polls come to. A run
misses no fetch, and comes to its end if all calls return. -/
theorem polls_on_schedule [BEq κ] :
    (∀ p : Schedule.Plan Rat, p.Proper → ∀ calls, ∃ fuel,
      (Schedule.Machine.run p fuel (.start calls)).stack = [] ∧
      ((∀ t, (t, .start) ∉ calls) → (Schedule.Machine.run p fuel (.start calls)).shown = []) ∧
      ∀ t, (t, .start) ∈ calls → (∀ t', (t', .start) ∈ calls → t ≤ t') →
        (Schedule.Machine.run p fuel (.start calls)).Complete p calls (max 0 t)) ∧
    ∀ (w : World Rat κ) (r : Requester) (m : Machine Rat κ) (ms : List (Machine Rat κ)),
      w.Every (fun op => ¬ op.IsPoll) →
      Run w r (Op.Every fun op => ¬ op.IsPoll) (fun _ => False) (m :: ms) →
      (∀ t, (fetchStarts m)[0]? = some t → launchTime (m :: ms) = some t) ∧
      (∀ i t, (fetchStarts m)[i + 1]? = some t → ∃ b e, (fetchStarts m)[i]? = some b ∧
        (pollEnds (m :: ms))[i]? = some e ∧ t = max (b + w.interval) e) ∧
      (m.sync.state = .closed ∨ m.sync.state = .permanentlyFailed →
        ∀ k, fetchStarts (run w k m) = fetchStarts m) ∧
      (m.stack = [] → m.sync.launched = true →
        m.sync.state = .closed ∨ m.sync.state = .permanentlyFailed ∨
          ∃ d, dueTime w.interval (m :: ms) = some d ∧ w.horizon < d) ∧
      (0 < w.interval → Returning w m → ∃ fuel, (run w fuel m).stack = []) := by
  refine ⟨fun p hp => Schedule.Machine.runs_on_schedule hp, fun w r m ms hw h => ?_⟩
  have hschedule := onSchedule_of_run hw h (exact_rat _)
  have hsteady := steady_of_run h
  refine ⟨hschedule.first, ?_, ?_, ?_, fun hi => comes_to_end hi hw h⟩
  · intro i t ht
    obtain ⟨b, e, hb, he, rfl⟩ := hschedule.next i t ht
    exact ⟨b, e, hb, he, (latest_rat _ _).trans (max_comm _ _)⟩
  · intro hover k
    rw [fetchStarts, fetchTimes_of_stopped hw h (hsteady.mpr hover) k, fetchStarts]
  · intro hm hl
    rcases complete_of_run hw h (exact_rat _) hm hl with hst | hd
    · exact or_assoc.mp (.inl (hsteady.mp hst))
    · exact .inr (.inr hd)

/-- The first response takes longer than the interval, the second one is a failure, and the store
refuses what the third one delivers. -/
def tardy : World Rat Nat where
  interval := 30
  epoch := 0
  horizon := 100
  response n := ⟨if n = 0 then 40 else 0, [],
    .fetched (if n = 1 then .error (.status 503) else .ok .empty)⟩
  write n := ⟨[], if n = 4 then some "full" else none, []⟩
  closing _ := ⟨[], none⟩
  listener _ _ _ := ⟨[], none⟩
  callback _ _ _ := ⟨[], none⟩

/-- It is started and stopped once; the first run takes longer than the interval, and the second one
raises. -/
def tardyPlan : Schedule.Plan Rat where
  name := "task"
  interval := 30
  initialDelay := 5
  runs n := ⟨if n = 0 then 40 else 10, false, if n = 1 then some "boom" else none⟩
  horizon := 200

theorem polls_on_schedule_tardy :
    (∃ fuel, (Schedule.Machine.run tardyPlan fuel
        (.start [(2, .start), (100, .stop)])).shown =
      [.ran 7, .ran 47, .logged (Schedule.actionLog "task" "boom"), .ran 77]) ∧
    ∃ m ms, Run tardy .own (Op.Every fun op => ¬ op.IsPoll) (fun _ => False) (m :: ms) ∧
      fetchStarts m = [5, 45, 75] ∧ pollEnds (m :: ms) = [45, 45, 75] ∧
      (∃ b e, (fetchStarts m)[1]? = some b ∧ (pollEnds (m :: ms))[1]? = some e ∧
        75 = max (b + tardy.interval) e) ∧
      ∃ d, dueTime tardy.interval (m :: ms) = some d ∧ tardy.horizon < d := by
  obtain ⟨hplan, hsync⟩ := @polls_on_schedule Nat _
  constructor
  · have hp : tardyPlan.Proper := by
      refine ⟨by decide +kernel, by decide +kernel, fun n => ?_⟩
      simp only [tardyPlan]
      split <;> decide +kernel
    obtain ⟨fuel, -, -, hstart⟩ := hplan tardyPlan hp [(2, .start), (100, .stop)]
    obtain ⟨n, hshown, hn⟩ := hstart 2 (by simp) (by simp)
    have h2 : Schedule.Happens tardyPlan [(2, .start), (100, .stop)] (max 0 2) 2 :=
      ⟨by decide +kernel, by simp; decide +kernel, fun _ _ => rfl⟩
    have h3 : ¬ Schedule.Happens tardyPlan [(2, .start), (100, .stop)] (max 0 2) 3 := fun h =>
      absurd (h.called 100 (by simp)) (by decide +kernel)
    have hlow := (hn 2).mpr h2
    have hhigh := mt (hn 3).mp h3
    obtain rfl : n = 3 := by omega
    refine ⟨fuel, hshown.trans ?_⟩
    norm_num [Schedule.reports, Schedule.report, Schedule.begins, tardyPlan, List.range_succ]
  · have hw : tardy.Every fun op => ¬ op.IsPoll := by constructor <;> simp [tardy]
    have hrun : Run tardy .own (Op.Every fun op => ¬ op.IsPoll) (fun _ => False)
        (watched tardy .own 80 [(5, .start)]) :=
      run_watched _ _ _ _ _ _ (by simpa using .other (by simp) Op.not_isPoll_start)
    have hends : pollEnds (watched tardy .own 80 [(5, .start)]) = [45, 45, 75] := by decide +kernel
    have hlast : (watched tardy .own 80 [(5, .start)]).head?.map (fun m =>
        (m.stack.isEmpty, m.sync.launched, m.sync.state, fetchStarts m)) =
        some (true, true, .initialized, [5, 45, 75]) := by decide +kernel
    obtain ⟨m, hm, hlast⟩ := Option.map_eq_some_iff.mp hlast
    obtain ⟨ms, hms⟩ := List.head?_eq_some_iff.mp hm
    rw [hms] at hrun hends
    obtain ⟨hstack, hlaunched, hst, hstarts⟩ : m.stack = [] ∧ m.sync.launched = true ∧
      m.sync.state = .initialized ∧ fetchStarts m = [5, 45, 75] := by simpa using hlast
    obtain ⟨-, hnext, -, hover, -⟩ := hsync tardy .own m ms hw hrun
    refine ⟨m, ms, hrun, hstarts, hends, hnext 1 75 (by rw [hstarts]; rfl), ?_⟩
    simpa [hst] using hover hstack hlaunched

end FlagPoll.Synchronizer.Machine
