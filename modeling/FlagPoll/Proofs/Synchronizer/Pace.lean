import FlagPoll.Proofs.Synchronizer.Calls
import FlagPoll.Proofs.Synchronizer.Launch

/-!
# FlagPoll.Proofs.Synchronizer.Pace

When fetches begin, by the clock.

* `fetchTimes`, `returns`, `launchTime` — when fetches began, when the polls that they belong to
  ended, and when polling was launched.
* `dueTime`      — when the next fetch is to begin: an interval after the last one began, or as soon
  as that poll has ended.
* `Exact`        — nothing is lost on a clock.
* `Stage`        — what the tasks of the schedule say of the next fetch.
* `paced_of_run` — they are at one of these stages throughout a run.
* `fetch_step`   — a fetch begins at the moment at which it is due, and not while another is under
  way.
-/

namespace FlagPoll.Synchronizer

open Time

variable {τ κ : Type}

/-- When fetches began, the latest first. -/
def fetchTimes : List (Event τ κ) → List τ
  | [] => []
  | .fetch t _ :: j => t :: fetchTimes j
  | _ :: j => fetchTimes j

theorem fetchTimes_filter (j : List (Event τ κ)) :
    fetchTimes (j.filter Event.isNotable) = fetchTimes j := by
  induction j with
  | nil => rfl
  | cons e j ih => cases e <;> simp_all [fetchTimes, Event.isNotable, List.filter_cons]

theorem Task.clearItem_of_isBase {t : Task τ κ} (h : t.isBase = true) (n : Nat) (kind : Kind)
    (key : CodePoints) : t.clearItem n kind key = t := by
  cases t <;> simp_all [Task.isBase, Task.clearItem]

/-- Tasks of the schedule stay as they are when an item is emptied. -/
theorem Emptied.base {task : Task τ κ} {above base below : List (Task τ κ)}
    (h : Emptied task (above ++ base) below) (hb : ∀ t ∈ base, t.isBase = true)
    (ha : ∀ t ∈ above, t.isGrounded = false) :
    ∃ above', below = above' ++ base ∧ ∀ t ∈ above', t.isGrounded = false := by
  cases h with
  | same => exact ⟨above, rfl, ha⟩
  | clear n kind key =>
    refine ⟨above.map (·.clearItem n kind key), ?_, ?_⟩
    · have hbase : base.map (·.clearItem n kind key) = base := by
        rw [List.map_congr_left fun t ht => Task.clearItem_of_isBase (hb t ht) n kind key]
        exact List.map_id' base
      rw [List.map_append, hbase]
    · intro t ht
      obtain ⟨u, hu, rfl⟩ := List.mem_map.mp ht
      simpa using ha u hu

namespace Machine

/-- A fetch begins only where a poll does. -/
theorem fetchTimes_turn [Time τ] {w : World τ κ} {m n : Machine τ κ}
    (hp : m.sync.state = .polling → m.sync.handle.resolution = none)
    (hm : ∀ own rest, m.stack ≠ .poll own :: rest) (ht : Turn w m n) :
    fetchTimes n.journal = fetchTimes m.journal := by
  suffices h : fetchTimes n.history = fetchTimes m.history by
    rwa [history, history, fetchTimes_filter, fetchTimes_filter] at h
  cases ht with
  | fetch own rest q hm' => exact absurd hm' (hm own rest)
  | twice hs hr => exact absurd (hp hs) hr
  | _ => simp_all [fetchTimes]

/-- Nothing is in progress but the schedule. -/
def isIdle (m : Machine τ κ) : Bool := m.stack.all Task.isBase

/-- When the polls ended that fetches belong to, the latest first. -/
def returns : List (Machine τ κ) → List τ
  | [] => []
  | m :: ms =>
    if m.isIdle = true ∧ (returns ms).length < (fetchTimes m.journal).length then
      m.clock :: returns ms
    else returns ms

/-- When the polling task was launched, and the call that did so has returned. -/
def launchTime : List (Machine τ κ) → Option τ
  | [] => none
  | m :: ms => (launchTime ms).or (if m.isIdle && m.sync.launched then some m.clock else none)

/-- Every fetch that has begun belongs to a poll that has ended. -/
def Settled (m : Machine τ κ) (ms : List (Machine τ κ)) : Prop :=
  (returns (m :: ms)).length = (fetchTimes m.journal).length

section Settled

variable {m n : Machine τ κ} {ms : List (Machine τ κ)}

theorem returns_of_settled (h : Settled m ms) (hf : fetchTimes n.journal = fetchTimes m.journal) :
    returns (n :: m :: ms) = returns (m :: ms) := by
  rw [returns, if_neg]
  rintro ⟨-, hlt⟩
  rw [hf, ← h] at hlt
  exact hlt.ne rfl

theorem Settled.keep (h : Settled m ms) (hf : fetchTimes n.journal = fetchTimes m.journal) :
    Settled n (m :: ms) := by
  rw [Settled, returns_of_settled h hf, hf]
  exact h

theorem returns_of_busy (h : n.isIdle = false) : returns (n :: ms) = returns ms := by
  simp [returns, h]

variable [Time τ]

/-- When the next fetch is to begin; never while one is under way. -/
def dueTime (interval : τ) : List (Machine τ κ) → Option τ
  | [] => none
  | m :: ms =>
    match fetchTimes m.journal, returns (m :: ms) with
    | [], _ => launchTime (m :: ms)
    | t :: _, e :: _ => some (latest e (t + interval))
    | _ :: _, [] => none

theorem dueTime_keep {interval d : τ} (h : Settled m ms)
    (hf : fetchTimes n.journal = fetchTimes m.journal) (hd : dueTime interval (m :: ms) = some d) :
    dueTime interval (n :: m :: ms) = some d := by
  rw [dueTime, returns_of_settled h hf, hf]
  rw [dueTime] at hd
  split at hd
  · rename_i hnone
    simp [launchTime] at hd ⊢
    simp [hd]
  · exact hd
  · cases hd

end Settled

/-! ## The stages of the schedule -/

/-- Nothing is lost on a clock: it is set to any moment, and whoever waits for a moment goes on at
that moment or, if it has come, at once. -/
structure Exact [Time τ] (ms : List (Machine τ κ)) : Prop where
  kept : ∀ t : τ, kept t = t
  delay : ∀ m ∈ ms, ∀ next : τ, m.clock + Schedule.delay next m.clock = latest m.clock next

/-- What the tasks of the schedule that lie below all calls say of the next fetch. -/
inductive Stage [Time τ] (w : World τ κ) (m : Machine τ κ) (ms : List (Machine τ κ))
    (above : List (Task τ κ)) : List (Task τ κ) → Prop where
  /-- The polling task has not been launched, or is about to begin. -/
  | lead {base : List (Task τ κ)} (hb : base = [.main] ∨ ∃ t, base = [.pass t .lead, .main])
      (hf : fetchTimes m.journal = []) (hr : returns (m :: ms) = [])
      (hl : launchTime (m :: ms) =
        if m.isIdle && m.sync.launched then some m.clock else none) : Stage w m ms above base
  /-- The polling task has never been launched. -/
  | never (ha : above = []) (hf : fetchTimes m.journal = []) (hl : m.sync.launched = false) :
      Stage w m ms above []
  | await {base : List (Task τ κ)} (next : τ)
      (hb : base = [.await next, .rest] ∨ base = [.ran, .await next, .rest]) (ha : above = [])
      (hl : m.sync.launched = true) (hs : Settled m ms)
      (hd : dueTime w.interval (m :: ms) = some (latest m.clock next)) : Stage w m ms above base
  | wait (target : τ) (hl : m.sync.launched = true) (hs : Settled m ms)
      (hd : dueTime w.interval (m :: ms) = some target) :
      Stage w m ms above [.pass target .wait, .wake, .rest]
  | wake (ha : above = []) (hl : m.sync.launched = true) (hs : Settled m ms)
      (hd : m.sync.stopped = true ∨
        dueTime w.interval (m :: ms) = some m.clock ∧ ¬ w.horizon < m.clock) :
      Stage w m ms above [.wake, .rest]
  | poll (ha : above = []) (hl : m.sync.launched = true) (hst : m.sync.stopped = false)
      (hs : Settled m ms) (hd : dueTime w.interval (m :: ms) = some m.clock)
      (ht : ¬ w.horizon < m.clock) :
      Stage w m ms above [.poll none, .ran, .await (m.clock + w.interval), .rest]
  /-- A poll is under way. -/
  | fetching (t : τ) (ts : List τ) (ha : above ≠ []) (hl : m.sync.launched = true)
      (hf : fetchTimes m.journal = t :: ts) (hr : (returns (m :: ms)).length = ts.length) :
      Stage w m ms above [.ran, .await (t + w.interval), .rest]
  /-- No poll follows any more. -/
  | ended {base : List (Task τ κ)}
      (hb : base = [.rest] ∨ (∃ t, base = [.pass t .rest]) ∨ base = []) (ha : base = [] → above = [])
      (hl : m.sync.launched = true) (hs : Settled m ms)
      (hd : m.sync.stopped = true ∨
        ∃ d, dueTime w.interval (m :: ms) = some d ∧ w.horizon < d) : Stage w m ms above base

/-- Calls lie above the tasks of the schedule, which are at one of its stages. -/
def Paced [Time τ] (w : World τ κ) (m : Machine τ κ) (ms : List (Machine τ κ)) : Prop :=
  ∃ above base, m.stack = above ++ base ∧ (∀ t ∈ above, t.isGrounded = false) ∧
    Stage w m ms above base

section Stage

variable [Time τ] {w : World τ κ} {m n : Machine τ κ} {ms : List (Machine τ κ)} {task : Task τ κ}
  {rest above above' base : List (Task τ κ)}

omit [Time τ] in
theorem isIdle_eq_false (hm : m.stack = task :: rest) (ht : task.isGrounded = false) :
    m.isIdle = false := by
  have hb : task.isBase = false := by
    by_contra h
    simp [Task.isGrounded_of_isBase (Bool.of_not_eq_false h)] at ht
  simp [isIdle, hm, hb]

theorem Stage.isBase (h : Stage w m ms above base) (ha : above ≠ []) :
    ∀ t ∈ base, t.isBase = true := by
  cases h with
  | lead hb => rcases hb with rfl | ⟨t, rfl⟩ <;> simp [Task.isBase]
  | never ha' | await next hb ha' | wake ha' | poll ha' => exact absurd ha' ha
  | wait | fetching => simp [Task.isBase]
  | ended hb => rcases hb with rfl | ⟨t, rfl⟩ | rfl <;> simp [Task.isBase]

/-- Once the polling task has been launched and nothing else is in progress, the clock stands still
until it begins. -/
theorem Stage.next_lead (hb : base = [.main] ∨ ∃ t, base = [.pass t .lead, .main])
    (hfm : fetchTimes m.journal = []) (hr : returns (m :: ms) = [])
    (hl : launchTime (m :: ms) = if m.isIdle && m.sync.launched then some m.clock else none)
    (hf : fetchTimes n.journal = fetchTimes m.journal)
    (h : m.isIdle = true → m.sync.launched = true →
      n.isIdle = true ∧ n.sync.launched = true ∧ n.clock = m.clock) :
    Stage w n (m :: ms) above base := by
  have hs : Settled m ms := by simp [Settled, hr, hfm]
  refine .lead hb (hf.trans hfm) (by rw [returns_of_settled hs hf, hr]) ?_
  rw [launchTime, hl]
  cases hi : m.isIdle <;> cases hlaunched : m.sync.launched <;> simp_all

/-- A call in progress brings the schedule no further, but a poll may end. -/
theorem Stage.call (h : Stage w m ms (task :: above) base) (hm : m.stack = task :: above ++ base)
    (ht : task.isGrounded = false) (hn : n.stack = above' ++ base)
    (ha : ∀ t ∈ above', t.isGrounded = false) (hf : fetchTimes n.journal = fetchTimes m.journal)
    (hl : m.sync.launched = true → n.sync.launched = true)
    (hst : m.sync.stopped = true → n.sync.stopped = true) : Stage w n (m :: ms) above' base := by
  have hbusy : m.isIdle = false := isIdle_eq_false hm ht
  cases h with
  | never ha' | await next hb ha' | wake ha' | poll ha' => cases ha'
  | lead hb hf' hr hl' => exact .next_lead hb hf' hr hl' hf (by simp [hbusy])
  | wait target hl' hs hd => exact .wait target (hl hl') (hs.keep hf) (dueTime_keep hs hf hd)
  | ended hb ha' hl' hs hd =>
    refine .ended hb (fun hb => absurd (ha' hb) (by simp)) (hl hl') (hs.keep hf) ?_
    exact hd.imp hst fun ⟨d, hd, hx⟩ => ⟨d, dueTime_keep hs hf hd, hx⟩
  | fetching t ts ha' hl' hf' hr =>
    cases above' with
    | nil =>
      have hidle : n.isIdle = true := by simp [isIdle, hn, Task.isBase]
      have hret : returns (n :: m :: ms) = n.clock :: returns (m :: ms) := by
        rw [returns, if_pos ⟨hidle, by simp [hr, hf, hf']⟩]
      refine .await (t + w.interval) (.inr rfl) rfl (hl hl') ?_ ?_
      · simp [Settled, hret, hf, hf', hr]
      · rw [dueTime, hret, hf, hf']
    | cons u us =>
      refine .fetching t ts (by simp) (hl hl') (hf.trans hf') ?_
      rw [returns_of_busy (isIdle_eq_false hn (ha u List.mem_cons_self)), hr]

end Stage

/-! ## Steps of the schedule -/

/-- What becomes of a span of time: it ends early, a call comes in, the horizon is reached, or it
passes. -/
inductive Passes [Time τ] (w : World τ κ) (m : Machine τ κ) (target : τ) (span : Span)
    (rest : List (Task τ κ)) (n : Machine τ κ) : Prop where
  | early (h : m.endsEarly span = true) (hn : n = { m with stack := rest })
  | call (e : τ × Op τ κ) (due : Agenda τ (Op τ κ)) (h : m.endsEarly span = false)
      (hle : e.1 ≤ span.bound target w.horizon) (hd : m.agenda = e :: due) (ha : n.agenda = due)
      (hs : n.sync = m.sync) (hj : n.journal = .called n.clock e.2 :: m.journal)
      (hn : n.stack = [.perform e.2, .conclude e.2] ++ .pass target span :: rest)
  | beyond (h : m.endsEarly span = false) (hx : span.exceeds target w.horizon = true)
      (hn : n = { m with stack := [] })
  | late (h : m.endsEarly span = false)
      (hd : m.agenda.due? (span.bound target w.horizon) = none)
      (hx : span.exceeds target w.horizon = false)
      (hn : n = { m with stack := rest, clock := kept target })

section Steps

variable [Time τ] [BEq κ] {w : World τ κ} {m n : Machine τ κ} {ms : List (Machine τ κ)}
  {rest base : List (Task τ κ)}

theorem eq_execute {task : Task τ κ} (hm : m.stack = task :: rest) (h : m.step w = some n) :
    n = execute w { m with stack := rest } task := by
  obtain ⟨task', rest', hs, rfl⟩ := step_eq_some.mp h
  obtain ⟨rfl, rfl⟩ := List.cons.inj (hm.symm.trans hs)
  rfl

theorem passes_of_step {target : τ} {span : Span} (hm : m.stack = .pass target span :: rest)
    (h : m.step w = some n) : Passes w m target span rest n := by
  obtain rfl := eq_execute hm h
  simp only [execute, pass]
  split
  · rename_i hearly
    exact .early hearly rfl
  · rename_i hnot
    have hnot : m.endsEarly span = false := Bool.eq_false_iff.mpr hnot
    split
    · rename_i e due hdue
      obtain ⟨ha, hle⟩ := Agenda.due?_eq_some.mp hdue
      exact .call e due hnot hle ha rfl rfl rfl rfl
    · rename_i hdue
      split
      · rename_i hx
        exact .beyond hnot hx rfl
      · rename_i hx
        exact .late hnot hdue (Bool.eq_false_iff.mpr hx) rfl

omit [BEq κ] in
/-- A call that is due lies above the schedule. -/
theorem paced_due {target : τ} {span : Span} {op : Op τ κ}
    (hcall : (Task.perform op).isGrounded = false)
    (hn : n.stack = [.perform op, .conclude op] ++ .pass target span :: rest)
    (h : n.isIdle = false → Stage w n ms [.perform op, .conclude op] (.pass target span :: rest)) :
    Paced w n ms := by
  refine ⟨[.perform op, .conclude op], _, hn, ?_, h (isIdle_eq_false hn hcall)⟩
  simpa [Task.isGrounded, show (Task.conclude op).isBase = false from rfl] using hcall

omit [BEq κ] in
/-- No call is in progress. -/
theorem paced_of_stage (h : Stage w n ms [] n.stack) : Paced w n ms := ⟨[], _, rfl, by simp, h⟩

section Lead

variable (hf : fetchTimes m.journal = []) (hr : returns (m :: ms) = [])
  (hl : launchTime (m :: ms) = if m.isIdle && m.sync.launched then some m.clock else none)
include hf hr hl

theorem paced_lead_pass {t : τ} (hm : m.stack = [.pass t .lead, .main]) (h : m.step w = some n)
    (hcall : ∀ e ∈ m.agenda, (Task.perform e.2).isGrounded = false) : Paced w n (m :: ms) := by
  cases passes_of_step hm h with
  | early hlaunched hn =>
    subst hn
    refine paced_of_stage (.next_lead (.inl rfl) hf hr hl rfl fun _ hlaunched => ?_)
    exact ⟨rfl, hlaunched, rfl⟩
  | call e due hnot hle hd ha hsync hj hn =>
    have hnot : m.sync.launched = false := hnot
    refine paced_due (hcall e (by simp [hd])) hn fun hbusy => ?_
    exact .next_lead (.inr ⟨t, rfl⟩) hf hr hl (by simp [hj, fetchTimes]) (by simp [hnot])
  | beyond hnot hx hn =>
    subst hn
    exact paced_of_stage (.never rfl hf hnot)
  | late hnot hdue hx hn =>
    have hnot : m.sync.launched = false := hnot
    subst hn
    exact paced_of_stage (.next_lead (.inl rfl) hf hr hl rfl (by simp [hnot]))

theorem paced_main (hm : m.stack = [.main]) (h : m.step w = some n) : Paced w n (m :: ms) := by
  have hidle : m.isIdle = true := by simp [isIdle, hm, Task.isBase]
  obtain rfl := eq_execute hm h
  simp only [execute, main]
  split
  · rename_i hlaunched
    have hlaunched : m.sync.launched = true := hlaunched
    have hs : Settled m ms := by simp [Settled, hf, hr]
    refine paced_of_stage (.await m.clock (.inl rfl) rfl hlaunched (hs.keep rfl) ?_)
    refine dueTime_keep hs rfl ?_
    rw [dueTime, hf]
    simp [hl, hidle, hlaunched, latest, push]
  · rename_i hnot
    have hnot : m.sync.launched = false := Bool.eq_false_iff.mpr hnot
    split
    · exact paced_of_stage (.next_lead (.inr ⟨_, rfl⟩) hf hr hl rfl (by simp [hnot]))
    · exact paced_of_stage (.never rfl hf hnot)

end Lead

section Launched

variable (hl : m.sync.launched = true) (hs : Settled m ms)
include hl hs

theorem paced_ran {next : τ} (hm : m.stack = [.ran, .await next, .rest]) (h : m.step w = some n)
    (hd : dueTime w.interval (m :: ms) = some (latest m.clock next)) : Paced w n (m :: ms) := by
  obtain rfl := eq_execute hm h
  have stay {x : Machine τ κ} (hx : x.stack = [.await next, .rest])
      (hf : fetchTimes x.journal = fetchTimes m.journal) (hxs : x.sync = m.sync)
      (hc : x.clock = m.clock) : Paced w x (m :: ms) := by
    refine paced_of_stage (.await next (.inl hx) rfl (by rw [hxs, hl]) (hs.keep hf) ?_)
    rw [hc]
    exact dueTime_keep hs hf hd
  simp only [execute, ran]
  split
  · exact stay rfl rfl rfl rfl
  · exact stay rfl rfl rfl rfl

theorem paced_await (hx : Exact (m :: ms)) {next : τ} (hm : m.stack = [.await next, .rest])
    (h : m.step w = some n) (hd : dueTime w.interval (m :: ms) = some (latest m.clock next)) :
    Paced w n (m :: ms) := by
  obtain rfl := eq_execute hm h
  simp only [execute, await]
  split
  · rename_i hst
    exact paced_of_stage (.ended (.inl rfl) (by simp) hl (hs.keep rfl) (.inl hst))
  · refine paced_of_stage (.wait _ hl (hs.keep rfl) (dueTime_keep hs rfl ?_))
    rw [hd, ← hx.delay m List.mem_cons_self next]

theorem paced_wait (hx : Exact (m :: ms)) {target : τ}
    (hm : m.stack = [.pass target .wait, .wake, .rest]) (h : m.step w = some n)
    (hcall : ∀ e ∈ m.agenda, (Task.perform e.2).isGrounded = false)
    (hd : dueTime w.interval (m :: ms) = some target) : Paced w n (m :: ms) := by
  cases passes_of_step hm h with
  | early hst hn =>
    subst hn
    exact paced_of_stage (.wake rfl hl (hs.keep rfl) (.inl hst))
  | call e due hnot hle hd' ha hsync hj hn =>
    have hf : fetchTimes n.journal = fetchTimes m.journal := by simp [hj, fetchTimes]
    refine paced_due (hcall e (by simp [hd'])) hn fun _ => ?_
    exact .wait target (by rw [hsync, hl]) (hs.keep hf) (dueTime_keep hs hf hd)
  | beyond hnot hexceeds hn =>
    have hlate : w.horizon < target := by simpa [Span.exceeds] using hexceeds
    subst hn
    refine paced_of_stage (.ended (.inr (.inr rfl)) (fun _ => rfl) hl (hs.keep rfl) (.inr ?_))
    exact ⟨target, dueTime_keep hs rfl hd, hlate⟩
  | late hnot hdue hexceeds hn =>
    have htime : ¬ w.horizon < target := by simpa [Span.exceeds] using hexceeds
    subst hn
    refine paced_of_stage (.wake rfl hl (hs.keep rfl) (.inr ?_))
    rw [hx.kept]
    exact ⟨dueTime_keep hs rfl hd, htime⟩

theorem paced_wake (hm : m.stack = [.wake, .rest]) (h : m.step w = some n)
    (hd : m.sync.stopped = true ∨
      dueTime w.interval (m :: ms) = some m.clock ∧ ¬ w.horizon < m.clock) :
    Paced w n (m :: ms) := by
  obtain rfl := eq_execute hm h
  simp only [execute, wake]
  split
  · rename_i hst
    exact paced_of_stage (.ended (.inl rfl) (by simp) hl (hs.keep rfl) (.inl hst))
  · rename_i hst
    have hst : m.sync.stopped = false := Bool.eq_false_iff.mpr hst
    obtain ⟨hd, ht⟩ := hd.resolve_left (by simp [hst])
    exact paced_of_stage (.poll rfl hl hst (hs.keep rfl) (dueTime_keep hs rfl hd) ht)

/-- A poll whose turn it is begins a fetch. -/
theorem paced_poll (hw : w.Every fun op => ¬ op.IsPoll) (hact : m.sync.state.isActive = true)
    (hm : m.stack = [.poll none, .ran, .await (m.clock + w.interval), .rest])
    (h : m.step w = some n) :
    Paced w n (m :: ms) ∧ fetchTimes n.journal = m.clock :: fetchTimes m.journal := by
  obtain ⟨sync, hp⟩ : ∃ s, m.sync.poll? = some s := ⟨_, poll?_eq_some.mpr ⟨hact, rfl⟩⟩
  have hsync : sync.launched = true := by rw [(poll?_eq_some.mp hp).2, hl]
  obtain rfl := eq_execute hm h
  simp only [execute, poll, hp, respond]
  let above : List (Task τ κ) := .pass (m.clock + (w.response m.responses).duration) .work ::
    callTasks (w.response m.responses).during ++
      [.leave .fetch, .receive (w.response m.responses).delivery m.requester.cached]
  have habove : ∀ t ∈ above, t.isGrounded = false := by
    intro t ht
    simp only [above, List.cons_append, List.mem_cons, List.mem_append, List.not_mem_nil,
      or_false] at ht
    rcases ht with rfl | ht | rfl | rfl
    · rfl
    · rcases mem_callTasks ht with ht | ⟨op, hop, rfl⟩
      · exact Task.isGrounded_of_isPlain ht
      · exact (hw.during _ op hop).isGrounded fun _ h => h
    · rfl
    · rfl
  refine ⟨⟨above, _, rfl, habove, ?_⟩, rfl⟩
  refine .fetching m.clock (fetchTimes m.journal) (by simp [above]) hsync rfl ?_
  rw [returns_of_busy rfl, hs]

theorem paced_rest {base : List (Task τ κ)} (hb : base = [.rest] ∨ ∃ t, base = [.pass t .rest])
    (hm : m.stack = base) (h : m.step w = some n)
    (hcall : ∀ e ∈ m.agenda, (Task.perform e.2).isGrounded = false)
    (hd : m.sync.stopped = true ∨ ∃ d, dueTime w.interval (m :: ms) = some d ∧ w.horizon < d) :
    Paced w n (m :: ms) := by
  have stay {x : Machine τ κ} {above base : List (Task τ κ)} (hxs : x.sync = m.sync)
      (hf : fetchTimes x.journal = fetchTimes m.journal)
      (hb : base = [.rest] ∨ (∃ t, base = [.pass t .rest]) ∨ base = []) (ha : base = [] → above = []) :
      Stage w x (m :: ms) above base := by
    refine .ended hb ha (by rw [hxs, hl]) (hs.keep hf) ?_
    rw [hxs]
    exact hd.imp id fun ⟨d, hd, hx⟩ => ⟨d, dueTime_keep hs hf hd, hx⟩
  rcases hb with rfl | ⟨t, rfl⟩
  · obtain rfl := eq_execute hm h
    exact paced_of_stage (stay rfl rfl (.inr (.inl ⟨_, rfl⟩)) fun _ => rfl)
  · cases passes_of_step hm h with
    | early hnot => simp [endsEarly] at hnot
    | call e due hnot hle hd' ha hsync hj hn =>
      refine paced_due (hcall e (by simp [hd'])) hn fun _ => ?_
      exact stay hsync (by simp [hj, fetchTimes]) (.inr (.inl ⟨t, rfl⟩)) (by simp)
    | beyond hnot hx hn =>
      subst hn
      exact paced_of_stage (stay rfl rfl (.inr (.inr rfl)) fun _ => rfl)
    | late hnot hdue hx hn =>
      subst hn
      exact paced_of_stage (stay rfl rfl (.inr (.inr rfl)) fun _ => rfl)

end Launched

/-- A call in progress stays above the schedule. -/
theorem call_above {q : Option (Response τ (Op τ κ)) → Prop} (hw : w.Every fun op => ¬ op.IsPoll)
    (hc : Calls (fun op => ¬ op.IsPoll) q m) {task : Task τ κ} {above : List (Task τ κ)}
    (hm : m.stack = task :: above ++ base) (ht : task.isGrounded = false)
    (ha : ∀ t ∈ above, t.isGrounded = false) (hb : ∀ t ∈ base, t.isBase = true)
    (h : m.step w = some n) :
    ∃ above', n.stack = above' ++ base ∧ ∀ t ∈ above', t.isGrounded = false := by
  have hbase : task.isBase = false := by
    by_contra hbase
    simp [Task.isGrounded_of_isBase (Bool.of_not_eq_false hbase)] at ht
  have htask : task.Every (fun op => ¬ op.IsPoll) q := hc.every task (by simp [hm])
  obtain rfl := eq_execute hm h
  obtain ⟨pushed, below, hn, he, hp⟩ := execute_pushes w { m with stack := above ++ base } hbase
  obtain ⟨above', rfl, ha'⟩ := he.base hb ha
  refine ⟨pushed ++ above', by simpa using hn, List.forall_mem_append.mpr ⟨?_, ha'⟩⟩
  intro t htp
  rcases hp t htp with hplain | hleads
  · exact Task.isGrounded_of_isPlain hplain
  · refine (hleads.every (fun _ h => h) hw Op.not_isPoll_close hc.due htask).2.resolve_right ?_
    rintro ⟨own, rfl⟩
    simp [Task.isGrounded] at ht

end Steps

/-! ## Runs -/

section Run

variable [Time τ] [BEq κ] {w : World τ κ} {r : Requester} {due free : Op τ κ → Prop}
  {m n : Machine τ κ} {ms : List (Machine τ κ)}

/-- A fetch begins when it is due, while none is under way and polling is not over. -/
structure FetchBegins (w : World τ κ) (m : Machine τ κ) (ms : List (Machine τ κ))
    (n : Machine τ κ) : Prop where
  settled : Settled m ms
  due : dueTime w.interval (m :: ms) = some m.clock
  inTime : ¬ w.horizon < m.clock
  polling : m.sync.stopped = false
  begins : fetchTimes n.journal = m.clock :: fetchTimes m.journal

theorem paced_step {q : Option (Response τ (Op τ κ)) → Prop} (hw : w.Every fun op => ¬ op.IsPoll)
    (hrun : Run w r due free (m :: ms)) (hc : Calls (fun op => ¬ op.IsPoll) q m)
    (hx : Exact (m :: ms)) (hp : Paced w m ms) (h : m.step w = some n) :
    Paced w n (m :: ms) ∧
      (fetchTimes n.journal = fetchTimes m.journal ∨ FetchBegins w m ms n) := by
  have hpending := pending_of_run hrun
  have hturn := turn_of_step h
  have hstill (hm : ∀ own rest, m.stack ≠ .poll own :: rest) :
      fetchTimes n.journal = fetchTimes m.journal :=
    fetchTimes_turn hpending hm hturn
  have hcall : ∀ e ∈ m.agenda, (Task.perform e.2).isGrounded = false :=
    fun e he => (hc.due e he).isGrounded fun _ h => h
  obtain ⟨above, base, hm, ha, hstage⟩ := hp
  -- either a call in progress goes on, or the schedule itself does
  cases above with
  | cons task above =>
    obtain ⟨ht, ha⟩ := List.forall_mem_cons.mp ha
    have hf : fetchTimes n.journal = fetchTimes m.journal := by
      refine hstill fun own rest hpoll => ?_
      rw [hm, List.cons_append] at hpoll
      obtain ⟨rfl, -⟩ := List.cons.inj hpoll
      simp [Task.isGrounded] at ht
    obtain ⟨above', hn, ha'⟩ := call_above hw hc hm ht ha (hstage.isBase (by simp)) h
    refine ⟨⟨above', base, hn, ha', hstage.call hm ht hn ha' hf ?_ ?_⟩, .inl hf⟩
    · exact launched_step h
    · exact fun hst => stopped_turn hpending hst hturn
  | nil =>
    rw [List.nil_append] at hm
    cases hstage with
    | never => simp [step, hm] at h
    | lead hb hf hr hl =>
      rcases hb with rfl | ⟨t, rfl⟩
      · exact ⟨paced_main hf hr hl hm h, .inl (hstill (by simp [hm]))⟩
      · exact ⟨paced_lead_pass hf hr hl hm h hcall, .inl (hstill (by simp [hm]))⟩
    | await next hb ha hl hs hd =>
      rcases hb with rfl | rfl
      · exact ⟨paced_await hl hs hx hm h hd, .inl (hstill (by simp [hm]))⟩
      · exact ⟨paced_ran hl hs hm h hd, .inl (hstill (by simp [hm]))⟩
    | wait target hl hs hd =>
      exact ⟨paced_wait hl hs hx hm h hcall hd, .inl (hstill (by simp [hm]))⟩
    | wake ha hl hs hd => exact ⟨paced_wake hl hs hm h hd, .inl (hstill (by simp [hm]))⟩
    | poll ha hl hst hs hd ht =>
      obtain ⟨hpaced, hbegins⟩ := paced_poll hl hs hw (active_of_run hrun hl hst) hm h
      exact ⟨hpaced, .inr ⟨hs, hd, ht, hst, hbegins⟩⟩
    | fetching t ts ha => exact absurd rfl ha
    | ended hb ha hl hs hd =>
      rcases hb with hb | ⟨t, hb⟩ | rfl
      · exact ⟨paced_rest hl hs (.inl hb) hm h hcall hd, .inl (hstill (by simp [hm, hb]))⟩
      · exact ⟨paced_rest hl hs (.inr ⟨t, hb⟩) hm h hcall hd, .inl (hstill (by simp [hm, hb]))⟩
      · simp [step, hm] at h

omit [BEq κ] in
theorem Exact.tail (h : Exact (m :: ms)) : Exact ms :=
  ⟨h.kept, fun x hx => h.delay x (List.mem_cons_of_mem m hx)⟩

section Unpolled

variable (hw : w.Every fun op => ¬ op.IsPoll)
  (h : Run w r (Op.Every fun op => ¬ op.IsPoll) (fun _ => False) (m :: ms))
include hw h

theorem calls_of_unpolled : Calls (fun op => ¬ op.IsPoll) (fun _ => True) m := by
  exact calls_of_run (fun _ h => h) hw Op.not_isPoll_close trivial
    (h.mono (fun _ ho => ho) fun _ ho => ho.elim) m List.mem_cons_self

/-- The schedule is at one of its stages in every run in which nobody polls in its place. -/
theorem paced_of_run (hx : Exact (m :: ms)) : Paced w m ms := by
  induction h using Run.head_induction with
  | create => exact ⟨[], [], rfl, by simp, .never rfl rfl rfl⟩
  | timeline calls hd =>
    refine ⟨[], [.main], rfl, by simp, .lead (.inl rfl) rfl ?_ ?_⟩
    · simp [returns, create, fetchTimes]
    · simp [launchTime, create, Synchronizer.create]
  | call x xs op h hs ho ih => exact ho.elim
  | step x y xs h hs ih =>
    exact (paced_step hw h (calls_of_unpolled hw h) hx.tail (ih hx.tail) hs).1

/-- A fetch begins at the moment at which it is due, and not while another is under way. -/
theorem fetch_step (hx : Exact (m :: ms)) (hs : m.step w = some n) :
    fetchTimes n.journal = fetchTimes m.journal ∨ FetchBegins w m ms n :=
  (paced_step hw h (calls_of_unpolled hw h) hx (paced_of_run hw h hx) hs).2

end Unpolled

end Run

end Machine
end FlagPoll.Synchronizer
