import FlagPoll.Proofs.Synchronizer.Delivery

/-!
# FlagPoll.Proofs.Synchronizer.Notification

Which changes listeners are told of.

* `changes`, `deliveries`, `tellings` — what the journal tells of notifications, the latest first.
* `attempts`, `pending` — the notifications that have been tried, and those that are yet to be.
* `Alters`      — whether a step makes a change, and why.
* `Counted`     — changes are numbered one after the other, and the latest has the current status.
* `noted_of_run` — each change is tried once.
* `Delivered`   — deliveries are in order and reach each listener once for each registration.
* `every_change_is_notified` — in every run a change is delivered unless a later one has been.
-/

namespace FlagPoll.Synchronizer

variable {τ κ : Type}

/-! ## What the journal tells of notifications -/

def Event.change? : Event τ κ → Option (Change τ)
  | .changed _ c => some c
  | _ => none

/-- A fetch that fails. -/
def Event.failure? : Event τ κ → Option Failure
  | .fetched _ (.error f) => some f
  | _ => none

def Event.delivery? : Event τ κ → Option (Change τ × List κ)
  | .delivering c ls => some (c, ls)
  | _ => none

def Event.telling? : Event τ κ → Option (κ × Change τ)
  | .toldListener k c => some (k, c)
  | _ => none

def changes (j : List (Event τ κ)) : List (Change τ) := j.filterMap Event.change?

def failures (j : List (Event τ κ)) : List Failure := j.filterMap Event.failure?

/-- The changes that have begun to be delivered, and to which listeners. -/
def deliveries (j : List (Event τ κ)) : List (Change τ × List κ) := j.filterMap Event.delivery?

def tellings (j : List (Event τ κ)) : List (κ × Change τ) := j.filterMap Event.telling?

/-- All that deliveries have to tell, one telling for each registration. -/
def owed (ds : List (Change τ × List κ)) : List (κ × Change τ) :=
  ds.flatMap fun d => d.2.map (·, d.1)

def Task.change? : Task τ κ → Option (Change τ)
  | .notify c => some c
  | _ => none

def Task.telling? : Task τ κ → Option (κ × Change τ)
  | .tell k c => some (k, c)
  | _ => none

/-- The change that is to be notified of. -/
def Duty.change? : Duty τ κ → Option (Change τ)
  | .notify c => some c
  | _ => none

def Duty.telling? : Duty τ κ → Option (κ × Change τ)
  | .tell k c => some (k, c)
  | _ => none

theorem filterMap_filter_of {α β : Type} {p : α → Bool} {f : α → Option β}
    (h : ∀ a, p a = false → f a = none) (l : List α) : (l.filter p).filterMap f = l.filterMap f := by
  rw [List.filterMap_filter]
  refine List.filterMap_congr fun a _ => ?_
  cases hp : p a with
  | false => simp [h a hp]
  | true => simp

section News

variable (j : List (Event τ κ))

theorem changes_isNotable : changes (j.filter Event.isNotable) = changes j :=
  filterMap_filter_of (fun e he => by cases e <;> simp_all [Event.isNotable, Event.change?]) j

theorem failures_isNotable : failures (j.filter Event.isNotable) = failures j :=
  filterMap_filter_of (fun e he => by cases e <;> simp_all [Event.isNotable, Event.failure?]) j

theorem changes_isNews : changes (j.filter Event.isNews) = changes j :=
  filterMap_filter_of (fun e he => by cases e <;> simp_all [Event.isNews, Event.change?]) j

theorem deliveries_isNews : deliveries (j.filter Event.isNews) = deliveries j :=
  filterMap_filter_of (fun e he => by cases e <;> simp_all [Event.isNews, Event.delivery?]) j

theorem tellings_isNews : tellings (j.filter Event.isNews) = tellings j :=
  filterMap_filter_of (fun e he => by cases e <;> simp_all [Event.isNews, Event.telling?]) j

end News

theorem change?_map_clearItem (n : Nat) (kind : Kind) (key : CodePoints) (ts : List (Task τ κ)) :
    (ts.map (·.clearItem n kind key)).filterMap Task.change? = ts.filterMap Task.change? := by
  rw [List.filterMap_map]
  refine List.filterMap_congr fun t _ => ?_
  cases t <;> rfl

namespace Machine

/-- The notification that is tried next. -/
def attempt? (m : Machine τ κ) : Option (Change τ) := m.stack.head?.bind Task.change?

/-- The notifications that have been tried, the latest first. -/
def attempts (ms : List (Machine τ κ)) : List (Change τ) := ms.filterMap attempt?

/-- The notifications that are yet to be tried. -/
def pending (m : Machine τ κ) : List (Change τ) := m.stack.filterMap Task.change?

/-- What listeners are yet to be told by deliveries that have begun. -/
def waiting (m : Machine τ κ) : List (κ × Change τ) := m.stack.filterMap Task.telling?

/-! ## Which steps make a change -/

/-- Whether a step makes a change: it does if a new state is entered, or if a fetch fails while
polls have an effect. -/
inductive Alters (m n : Machine τ κ) : Prop where
  | change (hc : changes n.journal = ⟨n.sync.sequence, n.sync.status⟩ :: changes m.journal)
      (hq : n.sync.sequence = m.sync.sequence + 1)
      (why : n.sync.state ≠ m.sync.state ∨
        m.sync.state.isActive = true ∧ ∃ f, failures n.journal = f :: failures m.journal)
  | keep (hc : changes n.journal = changes m.journal) (hq : n.sync.sequence = m.sync.sequence)
      (hs : n.sync.status = m.sync.status)
      (hf : m.sync.state.isActive = true → failures n.journal = failures m.journal)

section Turn

variable [Time τ] {w : World τ κ} {m n : Machine τ κ}

theorem alters_of_turn (hp : m.sync.state = .polling → m.sync.handle.resolution = none)
    (h : Turn w m n) : Alters m n := by
  have hcm : changes m.journal = changes m.history := (changes_isNotable m.journal).symm
  have hcn : changes n.journal = changes n.history := (changes_isNotable n.journal).symm
  have hfm : failures m.journal = failures m.history := (failures_isNotable m.journal).symm
  have hfn : failures n.journal = failures n.history := (failures_isNotable n.journal).symm
  cases h with
  | start c hs hd hh =>
    obtain ⟨hst, hn, rfl⟩ := begin?_eq_some.mp hs
    refine .change ?_ (by rw [hn]) (.inl ?_)
    · rw [hcm, hcn, hh]
      rfl
    · simp [hn, hst]
  | close c hs hd hh =>
    obtain ⟨hst, hn, rfl⟩ := close?_eq_some.mp hs
    refine .change ?_ (by rw [hn]) (.inl ?_)
    · rw [hcm, hcn, hh]
      rfl
    · simp [hn, hst.symm]
  | recover f c rest hf hs hd hd' hh =>
    obtain ⟨ha, hn, rfl⟩ := recover?_eq_some.mp hs
    refine .change ?_ (by rw [hn]; rfl) (.inr ⟨ha, f, ?_⟩)
    · rw [hcm, hcn, hh]
      rfl
    · rw [hfm, hfn, hh]
      rfl
  | giveUp f s c rest hf hg hs hd hd' hh =>
    obtain ⟨ha, rfl, rfl⟩ := giveUp?_eq_some.mp hg
    refine .change ?_ (by rw [hs]; rfl) (.inr ⟨ha, f, ?_⟩)
    · rw [hcm, hcn, hh, hs]
      rfl
    · rw [hfm, hfn, hh]
      rfl
  | succeed s c rest hi hs hd hd' hh =>
    obtain ⟨hst, rfl, rfl⟩ := initialize?_eq_some.mp hi
    refine .change ?_ (by rw [hs]) (.inl ?_)
    · rw [hcm, hcn, hh, hs]
      rfl
    · simp [hs, hst]
  | deliver c rest below hs hm hd hd' hh =>
    obtain ⟨-, hn⟩ := admit?_eq_some.mp hs
    refine .keep ?_ (by rw [hn]) (by rw [hn]; rfl) fun _ => ?_
    · rw [hcm, hcn, hh]
      rfl
    · rw [hfm, hfn, hh]
      rfl
  | fetch own rest q hm hs hd hh =>
    obtain ⟨-, hn⟩ := poll?_eq_some.mp hs
    refine .keep ?_ (by rw [hn]) (by rw [hn]; rfl) fun _ => ?_
    · rw [hcm, hcn, hh]
      rfl
    · rw [hfm, hfn, hh]
      rfl
  | discard o rest hc hs hd hd' hh =>
    refine .keep ?_ (by rw [hs]; rfl) (by rw [hs]; rfl) fun ha => ?_
    · rw [hcm, hcn, hh]
      rfl
    · simp [hc, Lifecycle.isActive] at ha
  | ignore o hc ha' hs hd hh =>
    refine .keep ?_ (by rw [hs]; rfl) (by rw [hs]; rfl) fun ha => ?_
    · rw [hcm, hcn, hh]
      rfl
    · simp [ha'] at ha
  | store s rest ha hs hd hd' hh =>
    refine .keep ?_ (by rw [hs]; rfl) (by rw [hs]; rfl) fun _ => ?_
    · rw [hcm, hcn, hh]
      rfl
    · rw [hfm, hfn, hh]
      rfl
  | twice hs hr => exact absurd (hp hs) hr
  | quiet ls ks b hs hd hh =>
    exact .keep (by rw [hcm, hcn, hh]) (by rw [hs]) (by rw [hs]; rfl) fun _ => by rw [hfm, hfn, hh]
  | drop c hc hs hd hh | refuse hs hd hh | put rest hs hd hd' hh | keep hc hs hd hh
  | stop target span rest hm hw hs hd hh =>
    exact .keep (by rw [hcm, hcn, hh]) (by rw [hs]) (by rw [hs]) fun _ => by rw [hfm, hfn, hh]
  | tell k c hs hd hh | closeRequester hs hd hh =>
    exact .keep (by rw [hcm, hcn, hh]; rfl) (by rw [hs]) (by rw [hs]) fun _ => by
      rw [hfm, hfn, hh]; rfl

end Turn

/-- Calls and results that make no change. -/
inductive Silent (m : Machine τ κ) : Prop where
  /-- A call of `start` is refused. -/
  | start (ts : List (Task τ κ)) (hm : m.stack = .perform .start :: ts)
      (hs : m.sync.state ≠ .notStarted)
  | close (ts : List (Task τ κ)) (hm : m.stack = .perform .close :: ts)
      (hs : m.sync.state = .closed)
  /-- What a fetch brings is discarded. -/
  | discard (d : Delivery) (asked : Option CacheEntry) (ts : List (Task τ κ))
      (hm : m.stack = .receive d asked :: ts) (hs : m.sync.state.isActive = false)
  /-- A fetch brings a snapshot, which is yet to be applied. -/
  | fetched (d : Delivery) (asked : Option CacheEntry) (s : Snapshot) (ts : List (Task τ κ))
      (hm : m.stack = .receive d asked :: ts) (ho : (m.requester.receive asked d).2.1 = .ok s)
  /-- The store is written, or refuses. -/
  | write (s : Snapshot) (cached : Option Nat) (script : WriteScript (Op τ κ))
      (ts : List (Task τ κ)) (hm : m.stack = .write s cached script :: ts)
  /-- A snapshot has been applied that is not the first one. -/
  | keep (ts : List (Task τ κ)) (hm : m.stack = .written :: ts) (hs : m.sync.state ≠ .polling)

section Silent

attribute [local simp] pending give push log record calledOut leave

variable [Time τ] {w : World τ κ} {m n : Machine τ κ}

omit [Time τ] in
theorem pending_cons {t : Task τ κ} {ts : List (Task τ κ)} (hm : m.stack = t :: ts) :
    m.pending = t.change?.toList ++ ts.filterMap Task.change? := by
  rw [pending, hm, List.filterMap_cons]
  cases t.change? <;> rfl

omit [Time τ] in
theorem change?_callTasks (ops : List (Op τ κ)) :
    (callTasks ops).filterMap Task.change? = [] := by
  simp [callTasks, List.filterMap_flatMap, Task.change?]

theorem silent_receive {d : Delivery} {asked : Option CacheEntry}
    (h : m.sync.state.isActive = false ∨ ∃ s, (m.requester.receive asked d).2.1 = .ok s) :
    changes (receive w m d asked).journal = changes m.journal ∧
      (receive w m d asked).pending = m.pending := by
  simp only [receive]
  generalize hr : m.requester.receive asked d = r at h ⊢
  obtain ⟨requester, outcome, rs⟩ := r
  generalize hx : record (logAll _ rs) _ = x
  have hst : x.sync.state = m.sync.state := by simp [← hx, returned]
  have hj : changes x.journal = changes m.journal := by
    rw [← changes_isNotable x.journal, ← changes_isNotable m.journal]
    simp [← hx, List.filter_cons, Event.isNotable, changes, Event.change?, List.filterMap_cons]
  have hstack : x.stack = m.stack := by simp [← hx]
  have hidle (e : Event τ κ) (he : e.change? = none) :
      changes (e :: x.journal) = changes m.journal := by
    rw [← hj]
    simp [changes, he]
  split
  · exact ⟨hidle _ rfl, by simp [hstack, List.filterMap_cons, Task.change?]⟩
  · cases outcome with
    | ok s =>
      simp only [apply]
      split
      · refine ⟨hidle _ rfl, ?_⟩
        simp [hstack, change?_callTasks, List.filterMap_cons, Task.change?]
      · exact ⟨hidle _ rfl, by simp [hstack]⟩
    | error f =>
      have hs : x.sync.state.isActive = false := by simpa [hst] using h
      simp only
      split
      · simp only [giveUp, giveUp?, hs, Bool.false_eq_true, ↓reduceIte]
        exact ⟨hj, by simp [hstack]⟩
      · simp only [recover, recover?, hs, Bool.false_eq_true, ↓reduceIte]
        exact ⟨hj, by simp [hstack]⟩

omit [Time τ] in
theorem silent_write (s : Snapshot) (cached : Option Nat) (script : WriteScript (Op τ κ)) :
    changes (m.write s cached script).journal = changes m.journal ∧
      (m.write s cached script).pending = m.pending := by
  unfold write
  split
  · exact ⟨rfl, rfl⟩
  · refine ⟨?_, by simp [change?_callTasks, List.filterMap_cons, Task.change?]⟩
    rw [← changes_isNotable, ← changes_isNotable m.journal]
    simp

theorem silent_step [BEq κ] (h : Silent m) (hs : m.step w = some n) :
    changes n.journal = changes m.journal ∧ n.pending = m.pending := by
  obtain ⟨task, below, hstack, rfl⟩ := step_eq_some.mp hs
  have top {t : Task τ κ} {ts : List (Task τ κ)} (hm : m.stack = t :: ts) : task = t := by
    simp_all
  have hp := pending_cons hstack
  cases h with
  | start ts hm hst =>
    obtain rfl := top hm
    rw [hp]
    simp [execute, perform, Machine.start, begin?, hst, Task.change?]
  | close ts hm hst =>
    obtain rfl := top hm
    rw [hp]
    simp [execute, perform, Machine.close, close?, hst, Task.change?]
  | discard d asked ts hm hst =>
    obtain rfl := top hm
    rw [hp]
    exact silent_receive (m := { m with stack := below }) (.inl hst)
  | fetched d asked s ts hm ho =>
    obtain rfl := top hm
    rw [hp]
    exact silent_receive (m := { m with stack := below }) (.inr ⟨s, ho⟩)
  | write s cached script ts hm =>
    obtain rfl := top hm
    rw [hp]
    exact silent_write (m := { m with stack := below }) s cached script
  | keep ts hm hst =>
    obtain rfl := top hm
    rw [hp]
    simp [execute, written, initialize?, hst, Task.change?]

end Silent

/-! ## What becomes of a notification -/

/-- What a step does to notifications, and which of them it tries. -/
inductive Dispatch (m n : Machine τ κ) : Prop where
  | still (ha : m.attempt? = none) (hf : n.sync.notified = m.sync.notified)
      (hc : changes n.journal = changes m.journal)
      (hd : deliveries n.journal = deliveries m.journal)
      (ht : tellings n.journal = tellings m.journal)
      (hp : n.pending = m.pending) (hw : n.waiting = m.waiting)
  | change (c : Change τ) (ha : m.attempt? = none) (hf : n.sync.notified = m.sync.notified)
      (hc : changes n.journal = c :: changes m.journal)
      (hd : deliveries n.journal = deliveries m.journal)
      (ht : tellings n.journal = tellings m.journal)
      (hp : n.pending = c :: m.pending) (hw : n.waiting = m.waiting)
  | tell (k : κ) (c : Change τ) (ha : m.attempt? = none) (hf : n.sync.notified = m.sync.notified)
      (hc : changes n.journal = changes m.journal)
      (hd : deliveries n.journal = deliveries m.journal)
      (ht : tellings n.journal = (k, c) :: tellings m.journal)
      (hp : n.pending = m.pending) (hw : m.waiting = (k, c) :: n.waiting)
  | drop (c : Change τ) (ha : m.attempt? = some c) (hle : c.number ≤ m.sync.notified)
      (hf : n.sync.notified = m.sync.notified)
      (hc : changes n.journal = changes m.journal)
      (hd : deliveries n.journal = deliveries m.journal)
      (ht : tellings n.journal = tellings m.journal)
      (hp : m.pending = c :: n.pending) (hw : n.waiting = m.waiting)
  | deliver (c : Change τ) (ha : m.attempt? = some c) (hlt : m.sync.notified < c.number)
      (hf : n.sync.notified = c.number)
      (hc : changes n.journal = changes m.journal)
      (hd : deliveries n.journal = (c, m.sync.listeners) :: deliveries m.journal)
      (ht : tellings n.journal = tellings m.journal)
      (hp : m.pending = c :: n.pending) (hw : n.waiting = m.sync.listeners.map (·, c) ++ m.waiting)

theorem pending_eq (m : Machine τ κ) : m.pending = m.notices.filterMap Duty.change? := by
  rw [notices, filterMap_filter_of fun d hd => by cases d <;> simp_all [Duty.isNotice, Duty.change?]]
  rw [duties, dutiesOf, List.filterMap_filterMap]
  exact List.filterMap_congr fun t _ => by cases t <;> rfl

theorem waiting_eq (m : Machine τ κ) : m.waiting = m.notices.filterMap Duty.telling? := by
  rw [notices,
    filterMap_filter_of fun d hd => by cases d <;> simp_all [Duty.isNotice, Duty.telling?]]
  rw [duties, dutiesOf, List.filterMap_filterMap]
  exact List.filterMap_congr fun t _ => by cases t <;> rfl

section Dispatch

variable [Time τ] [BEq κ] {w : World τ κ} {m n : Machine τ κ}

/-- A notification that is tried either goes out or is dropped. -/
theorem notify_step {c : Change τ} {ts : List (Task τ κ)} (hm : m.stack = .notify c :: ts)
    (hs : m.step w = some n) :
    n.pending = ts.filterMap Task.change? ∧
      ((c.number ≤ m.sync.notified ∧ n.journal = .logged (supersededLog c.status.state) :: m.journal ∧
          n.stack = ts ∧ n.sync = m.sync) ∨
        (m.sync.notified < c.number ∧ n.journal = .delivering c m.sync.listeners :: m.journal ∧
          n.stack = m.sync.listeners.map (.tell · c) ++ ts ∧
          n.sync = { m.sync with notified := c.number })) := by
  obtain ⟨task, below, hstack, rfl⟩ := step_eq_some.mp hs
  obtain ⟨rfl, rfl⟩ : task = .notify c ∧ below = ts := by simpa [hm, eq_comm] using hstack
  simp only [execute, notify]
  split
  · rename_i h
    have hle : c.number ≤ m.sync.notified := by simpa [admit?] using h
    exact ⟨rfl, .inl ⟨hle, rfl, rfl, rfl⟩⟩
  · rename_i s h
    obtain ⟨hlt, rfl⟩ := admit?_eq_some.mp h
    refine ⟨?_, .inr ⟨hlt, rfl, rfl, rfl⟩⟩
    simp [pending, push, record, List.filterMap_append, List.filterMap_map, Function.comp_def,
      Task.change?]

theorem pending_of_attempt {c : Change τ} (ha : m.attempt? = some c) (hs : m.step w = some n) :
    m.pending = c :: n.pending := by
  obtain ⟨t, ht, hc⟩ := Option.bind_eq_some_iff.mp ha
  obtain ⟨ts, hm⟩ := List.head?_eq_some_iff.mp ht
  cases t <;> simp only [Task.change?, reduceCtorEq, Option.some.injEq] at hc
  subst hc
  rw [pending_cons hm, (notify_step hm hs).1]
  rfl

/-- A notification that is pending stays so until it is tried. -/
theorem pending_of_no_attempt (hl : Layered m.stack) (ha : m.attempt? = none)
    (hs : m.step w = some n) : m.pending <:+ n.pending := by
  obtain ⟨task, rest, hm, rfl⟩ := step_eq_some.mp hs
  have hnone : task.change? = none := by simpa [attempt?, hm] using ha
  have hmp : m.pending = rest.filterMap Task.change? := by rw [pending_cons hm, hnone]; rfl
  rw [hmp]
  cases hb : task.isBase with
  | true =>
    rw [hm] at hl
    have hnil : rest.filterMap Task.change? = [] := by
      refine List.filterMap_eq_nil_iff.mpr fun t ht => ?_
      have := hl.isBase hb t ht
      cases t <;> simp_all [Task.isBase, Task.change?]
    rw [hnil]
    exact List.nil_suffix
  | false =>
    obtain ⟨pushed, below, hn, he, -⟩ := execute_pushes w { m with stack := rest } hb
    have hbelow : below.filterMap Task.change? = rest.filterMap Task.change? := by
      cases he with
      | same => rfl
      | clear number kind key => exact change?_map_clearItem number kind key rest
    rw [pending, hn, List.filterMap_append, hbelow]
    exact List.suffix_append _ _

theorem dispatch_of_notice (hl : Layered m.stack) (hs : m.step w = some n) (h : Notice m n) :
    Dispatch m n := by
  have attempt {c : Change τ} (hp : m.pending = c :: n.pending) : m.attempt? = some c := by
    cases ha : m.attempt? with
    | none =>
      have hlen := (pending_of_no_attempt hl ha hs).length_le
      rw [hp, List.length_cons] at hlen
      omega
    | some d =>
      have hd := pending_of_attempt ha hs
      simp_all
  have no_attempt (hp : m.pending.length ≤ n.pending.length) : m.attempt? = none := by
    refine Option.eq_none_iff_forall_not_mem.mpr fun c ha => ?_
    rw [pending_of_attempt ha hs, List.length_cons] at hp
    omega
  have hcm : changes m.journal = changes m.news := by rw [news_eq, changes_isNews]
  have hcn : changes n.journal = changes n.news := by rw [news_eq, changes_isNews]
  have hdm : deliveries m.journal = deliveries m.news := by rw [news_eq, deliveries_isNews]
  have hdn : deliveries n.journal = deliveries n.news := by rw [news_eq, deliveries_isNews]
  have htm : tellings m.journal = tellings m.news := by rw [news_eq, tellings_isNews]
  have htn : tellings n.journal = tellings n.news := by rw [news_eq, tellings_isNews]
  have hpm := pending_eq m
  have hpn := pending_eq n
  have hwm := waiting_eq m
  have hwn := waiting_eq n
  cases h with
  | still hq hf hst hd hh =>
    rw [hd, ← hpm] at hpn
    rw [hd, ← hwm] at hwn
    rw [hh] at hcn hdn htn
    exact .still (no_attempt (by rw [hpn])) hf (hcn.trans hcm.symm) (hdn.trans hdm.symm)
      (htn.trans htm.symm) hpn hwn
  | change c hc hq hf hst hd hh =>
    replace hpn : n.pending = c :: m.pending := by rw [hpn, hd, hpm]; rfl
    refine .change c (no_attempt (by simp [hpn])) hf ?_ ?_ ?_ hpn ?_
    · rw [hcn, hcm, hh]; rfl
    · rw [hdn, hdm, hh]; rfl
    · rw [htn, htm, hh]; rfl
    · rw [hwn, hwm, hd]; rfl
  | drop c hc hsync hd hh =>
    have hp : m.pending = c :: n.pending := by rw [hpn, hpm, hd]; rfl
    rw [hh] at hcn hdn htn
    refine .drop c (attempt hp) hc (by rw [hsync]) (hcn.trans hcm.symm) (hdn.trans hdm.symm)
      (htn.trans htm.symm) hp ?_
    rw [hwn, hwm, hd]; rfl
  | deliver c rest below hc hsync hm hd hd' hh =>
    have hp : m.pending = c :: n.pending := by
      rw [hpn, hpm, hd, hd']
      simp [List.filterMap_append, List.filterMap_map, Function.comp_def, Duty.change?]
    refine .deliver c (attempt hp) hc (by rw [hsync]) ?_ ?_ ?_ hp ?_
    · rw [hcn, hcm, hh]; rfl
    · rw [hdn, hdm, hh]; rfl
    · rw [htn, htm, hh]; rfl
    · rw [hwn, hwm, hd, hd']
      simp [List.filterMap_append, List.filterMap_map, Function.comp_def, Duty.telling?]
      rfl
  | tell k c hsync hd hh =>
    replace hpn : n.pending = m.pending := by rw [hpn, hpm, hd]; rfl
    refine .tell k c (no_attempt (by rw [hpn])) (by rw [hsync]) ?_ ?_ ?_ hpn ?_
    · rw [hcn, hcm, hh]; rfl
    · rw [hdn, hdm, hh]; rfl
    · rw [htn, htm, hh]; rfl
    · rw [hwn, hwm, hd]; rfl

end Dispatch

/-! ## Runs -/

/-- Changes are numbered one after the other, and the latest has led to the current status. -/
structure Counted (m : Machine τ κ) : Prop where
  positive : ∀ c ∈ changes m.journal, 0 < c.number
  le_sequence : ∀ c ∈ changes m.journal, c.number ≤ m.sync.sequence
  order : (changes m.journal).Pairwise fun a b => b.number < a.number
  latest : ∀ c, (changes m.journal).head? = some c → c = ⟨m.sync.sequence, m.sync.status⟩

theorem Counted.alters {m n : Machine τ κ} (h : Counted m) (ha : Alters m n) : Counted n := by
  obtain ⟨hpos, hle, hord, hlat⟩ := h
  cases ha with
  | keep hc hq hs hf => exact ⟨hc ▸ hpos, by rwa [hc, hq], hc ▸ hord, by rwa [hc, hq, hs]⟩
  | change hc hq why =>
    have hlt : ∀ c ∈ changes m.journal, c.number < n.sync.sequence := fun c hm => by
      have := hle c hm
      omega
    refine ⟨?_, ?_, ?_, ?_⟩ <;> rw [hc]
    · exact List.forall_mem_cons.mpr ⟨hq ▸ Nat.succ_pos _, hpos⟩
    · exact List.forall_mem_cons.mpr ⟨Nat.le_refl _, fun c hm => (hlt c hm).le⟩
    · exact List.pairwise_cons.mpr ⟨hlt, hord⟩
    · rintro c ⟨⟩
      rfl

theorem Counted.nodup {m : Machine τ κ} (h : Counted m) : (changes m.journal).Nodup :=
  h.order.imp fun hlt he => by simp [he] at hlt

/-- The number tells changes apart. -/
theorem Counted.eq_of_number {m : Machine τ κ} (h : Counted m) {c d : Change τ}
    (hc : c ∈ changes m.journal) (hd : d ∈ changes m.journal) (hn : c.number = d.number) :
    c = d := by
  have hnodup : ((changes m.journal).map Change.number).Nodup :=
    List.pairwise_map.mpr (h.order.imp fun hlt => hlt.ne')
  exact List.inj_on_of_nodup_map hnodup hc hd hn

/-- The deliveries of a run, and what they have told listeners. -/
structure Delivered (ms : List (Machine τ κ)) (m : Machine τ κ) : Prop where
  attempted : ∀ d ∈ deliveries m.journal, d.1 ∈ attempts ms
  le_notified : ∀ d ∈ deliveries m.journal, d.1.number ≤ m.sync.notified
  order : (deliveries m.journal).Pairwise fun a b => b.1.number < a.1.number
  latest : m.sync.notified ≠ 0 →
    ∃ d, (deliveries m.journal).head? = some d ∧ d.1.number = m.sync.notified
  told : (owed (deliveries m.journal)).Perm (tellings m.journal ++ m.waiting)

section Run

variable [Time τ] [BEq κ] {w : World τ κ} {r : Requester} {due free : Op τ κ → Prop}
  {m n : Machine τ κ} {ms : List (Machine τ κ)}

theorem alters_of_run (h : Run w r due free (m :: ms)) (hs : m.step w = some n) : Alters m n :=
  alters_of_turn (pending_of_run h) (turn_of_step hs)

theorem dispatch_of_run (h : Run w r due free (m :: ms)) (hs : m.step w = some n) :
    Dispatch m n :=
  dispatch_of_notice (layered_of_run h m List.mem_cons_self) hs (notice_of_run h hs)

theorem counted_of_run (h : Run w r due free (m :: ms)) : Counted m := by
  induction h using Run.head_induction with
  | create | timeline calls hd =>
    exact ⟨by simp [Machine.create, changes], by simp [Machine.create, changes],
      by simp [Machine.create, changes], by simp [Machine.create, changes]⟩
  | call x xs op h hs ho ih => exact ih.alters (.keep rfl rfl rfl fun _ => rfl)
  | step x y xs h hs ih => exact ih.alters (alters_of_run h hs)

/-- Each change is tried to be notified of once. -/
theorem noted_of_run (h : Run w r due free (m :: ms)) :
    (changes m.journal).Perm (attempts ms ++ m.pending) := by
  induction h using Run.head_induction with
  | create | timeline calls hd => exact .refl _
  | call x xs op h hs ho ih =>
    simpa [attempts, attempt?, pending, hs, List.filterMap_cons, Task.change?] using ih
  | step x y xs h hs ih =>
    cases dispatch_of_run h hs with
    | still ha hf hc hd ht hp hw => simpa [attempts, ha, hc, hp] using ih
    | change c ha hf hc hd ht hp hw =>
      rw [hc, hp]
      simpa [attempts, ha] using (ih.cons c).trans List.perm_middle.symm
    | tell k c ha hf hc hd ht hp hw => simpa [attempts, ha, hc, hp] using ih
    | drop c ha hle hf hc hd ht hp hw =>
      rw [hc]
      rw [hp] at ih
      simpa [attempts, ha] using ih.trans List.perm_middle
    | deliver c ha hlt hf hc hd ht hp hw =>
      rw [hc]
      rw [hp] at ih
      simpa [attempts, ha] using ih.trans List.perm_middle

theorem delivered_of_run (h : Run w r due free (m :: ms)) : Delivered ms m := by
  induction h using Run.head_induction with
  | create => exact ⟨by simp [Machine.create, deliveries], by simp [Machine.create, deliveries],
      by simp [Machine.create, deliveries], by simp [Machine.create, Synchronizer.create], .refl _⟩
  | timeline calls hd => exact ⟨by simp [Machine.create, deliveries],
      by simp [Machine.create, deliveries], by simp [Machine.create, deliveries],
      by simp [Machine.create, Synchronizer.create], .refl _⟩
  | call x xs op h hs ho ih =>
    obtain ⟨hat, hle, hord, hlat, htold⟩ := ih
    refine ⟨?_, hle, hord, hlat, ?_⟩
    · simpa [attempts, attempt?, hs] using hat
    · simpa [waiting, hs, List.filterMap_cons, Task.telling?] using htold
  | step x y xs h hs ih =>
    obtain ⟨hat, hle, hord, hlat, htold⟩ := ih
    have hat : ∀ d ∈ deliveries x.journal, d.1 ∈ attempts (x :: xs) := by
      intro d hd
      have := hat d hd
      cases ha : x.attempt? <;> simp [attempts, ha] at this ⊢ <;> simp [this]
    cases dispatch_of_run h hs with
    | still ha hf hc hd ht hp hw =>
      exact ⟨by rwa [hd], by rwa [hd, hf], by rwa [hd], by rwa [hd, hf], by rwa [hd, ht, hw]⟩
    | change c ha hf hc hd ht hp hw =>
      exact ⟨by rwa [hd], by rwa [hd, hf], by rwa [hd], by rwa [hd, hf], by rwa [hd, ht, hw]⟩
    | drop c ha hle' hf hc hd ht hp hw =>
      exact ⟨by rwa [hd], by rwa [hd, hf], by rwa [hd], by rwa [hd, hf], by rwa [hd, ht, hw]⟩
    | tell k c ha hf hc hd ht hp hw =>
      refine ⟨by rwa [hd], by rwa [hd, hf], by rwa [hd], by rwa [hd, hf], ?_⟩
      rw [hd, ht]
      rw [hw] at htold
      exact htold.trans List.perm_middle
    | deliver c ha hlt hf hc hd ht hp hw =>
      refine ⟨?_, ?_, ?_, ?_, ?_⟩ <;> rw [hd]
      · exact List.forall_mem_cons.mpr ⟨by simp [attempts, ha], hat⟩
      · rw [hf]
        exact List.forall_mem_cons.mpr ⟨Nat.le_refl _, fun d hm => (hle d hm).trans hlt.le⟩
      · exact List.pairwise_cons.mpr ⟨fun d hm => Nat.lt_of_le_of_lt (hle d hm) hlt, hord⟩
      · exact fun _ => ⟨_, rfl, hf.symm⟩
      · rw [ht, hw]
        have hone : owed ((c, x.sync.listeners) :: deliveries x.journal) =
            x.sync.listeners.map (·, c) ++ owed (deliveries x.journal) := rfl
        rw [hone]
        refine (htold.append_left _).trans ?_
        rw [← List.append_assoc, ← List.append_assoc]
        exact List.perm_append_comm.append_right _

/-- What becomes of a notification that is tried: it is dropped if a later one has begun to go
out, and else goes out to each registration of a listener. -/
inductive Attempted (c : Change τ) (m n : Machine τ κ) : Prop where
  | dropped (d : Change τ × List κ) (hd : d ∈ deliveries m.journal) (hlt : c.number < d.1.number)
      (hm : m.stack = .notify c :: n.stack)
      (hj : n.journal = .logged (supersededLog c.status.state) :: m.journal)
  | delivered (below : List (Task τ κ)) (hm : m.stack = .notify c :: below)
      (hj : n.journal = .delivering c m.sync.listeners :: m.journal)
      (hn : n.stack = m.sync.listeners.map (.tell · c) ++ below)

/-- Only a later notification supersedes one. -/
theorem attempted_of_run (h : Run w r due free (m :: ms)) {c : Change τ}
    (ha : m.attempt? = some c) : ∃ n, m.step w = some n ∧ Attempted c m n := by
  obtain ⟨t, ht, hc⟩ := Option.bind_eq_some_iff.mp ha
  obtain ⟨below, hm⟩ := List.head?_eq_some_iff.mp ht
  obtain rfl : t = .notify c := by cases t <;> simp_all [Task.change?]
  have hs : m.step w = some (execute w { m with stack := below } (.notify c)) :=
    step_eq_some.mpr ⟨_, _, hm, rfl⟩
  refine ⟨_, hs, ?_⟩
  have hcount := counted_of_run h
  have hnoted := noted_of_run h
  have hdel := delivered_of_run h
  have hpend : c ∈ m.pending := by simp [pending_cons hm, Task.change?]
  have hmem : c ∈ changes m.journal := hnoted.mem_iff.mpr (List.mem_append_right _ hpend)
  obtain ⟨-, ⟨hle, hj, hn, -⟩ | ⟨-, hj, hn, -⟩⟩ := notify_step hm hs
  · have hpos := hcount.positive c hmem
    obtain ⟨d, hhead, hnum⟩ := hdel.latest (by omega)
    have hd := List.mem_of_head? hhead
    refine .dropped d hd (Nat.lt_of_le_of_ne (hnum ▸ hle) fun heq => ?_) (by rw [hm, hn]) hj
    -- a change that has been delivered has been tried, and is not tried again
    have htried := hdel.attempted d hd
    have hsame := hcount.eq_of_number hmem
      (hnoted.mem_iff.mpr (List.mem_append_left _ htried)) heq
    have hnodup := hnoted.nodup_iff.mp hcount.nodup
    exact List.disjoint_of_nodup_append hnodup (hsame ▸ htried) hpend
  · exact .delivered below hm hj hn

/-- Once no call is in progress the latest change has been delivered. -/
theorem latest_delivered (h : Run w r due free (m :: ms)) (hrest : ∀ t ∈ m.stack, t.isBase = true) :
    m.pending = [] ∧ m.waiting = [] ∧ ∀ c, (changes m.journal).head? = some c →
      c.status = m.sync.status ∧ ∃ ls, (deliveries m.journal).head? = some (c, ls) := by
  have hnil : m.notices = [] := by simp [notices, duties, dutiesOf_eq_nil hrest]
  have hp : m.pending = [] := by rw [pending_eq, hnil]; rfl
  refine ⟨hp, by rw [waiting_eq, hnil]; rfl, fun c hc => ?_⟩
  have hcount := counted_of_run h
  have hdel := delivered_of_run h
  have hnum := numbered_of_run h
  have hmem := List.mem_of_head? hc
  have hcur := hcount.latest c hc
  have hseq : m.sync.notified = m.sync.sequence := by
    refine Nat.le_antisymm hnum.notified_le ?_
    simpa [hnil] using hnum.latest
  have hpos := hcount.positive c hmem
  obtain ⟨d, hhead, hd⟩ := hdel.latest (by rw [hseq]; rw [hcur] at hpos; exact hpos.ne')
  have htried := hdel.attempted d (List.mem_of_head? hhead)
  have hdm := (noted_of_run h).mem_iff.mpr (List.mem_append_left _ htried)
  have hdc : d.1 = c := hcount.eq_of_number hdm hmem (by rw [hd, hseq, hcur])
  exact ⟨by rw [hcur], d.2, by rw [hhead, ← hdc]⟩

/-- Each change of the status, and each failure of a fetch while polls have an effect, is tried to
be notified of once. It is delivered to all who are registered then unless a later one has been,
deliveries go out in the order of the changes, and each tells each registration of a listener once.
The latest change is delivered before all calls have returned. Nothing else is notified of. -/
theorem every_change_is_notified (h : Run w r due free (m :: ms)) :
    (∀ n, m.step w = some n → Alters m n ∧
      (Silent m → changes n.journal = changes m.journal ∧ n.pending = m.pending)) ∧
    (changes m.journal).Pairwise (fun a b => b.number < a.number) ∧
    (changes m.journal).Perm (attempts ms ++ m.pending) ∧
    (∀ c, m.attempt? = some c → ∃ n, m.step w = some n ∧ Attempted c m n) ∧
    (deliveries m.journal).Pairwise (fun a b => b.1.number < a.1.number) ∧
    (owed (deliveries m.journal)).Perm (tellings m.journal ++ m.waiting) ∧
    ((∀ t ∈ m.stack, t.isBase = true) →
      m.pending = [] ∧ m.waiting = [] ∧ ∀ c, (changes m.journal).head? = some c →
        c.status = m.sync.status ∧ ∃ ls, (deliveries m.journal).head? = some (c, ls)) :=
  ⟨fun _ hs => ⟨alters_of_run h hs, fun hq => silent_step hq hs⟩, (counted_of_run h).order,
    noted_of_run h, fun _ ha => attempted_of_run h ha, (delivered_of_run h).order,
    (delivered_of_run h).told, latest_delivered h⟩

end Run

/-! ## A callback that closes the synchronizer -/

/-- Whoever waits for the first snapshot closes the synchronizer once it has been applied. -/
def satisfied : World Number Nat :=
  { World.still fun _ => .fetched (.ok .empty) with callback := fun _ _ _ => ⟨[.close], none⟩ }

/-- The listener is told of the end, and then no more of the first snapshot. -/
theorem every_change_is_notified_superseded : ∃ m ms,
    Run satisfied .own (fun _ => False) (fun _ => True) (m :: ms) ∧ m.stack = [] ∧
      (changes m.journal).map (·.status.state) = [.closed, .initialized, .polling] ∧
      (deliveries m.journal).map (fun d => (d.1.status.state, d.2)) =
        [(.closed, [0]), (.polling, [0])] ∧
      (changes m.journal).Perm (attempts ms) ∧
      (owed (deliveries m.journal)).Perm (tellings m.journal) := by
  have h := run_session satisfied .own (fun _ => False) (fun _ => True) 40
    [.addListener 0, .addCallback 7, .start, .poll none] (by simp)
  have hm : ∃ m ms, session satisfied .own 40
      [.addListener 0, .addCallback 7, .start, .poll none] = m :: ms ∧ m.stack.isEmpty = true ∧
        (changes m.journal).map (·.status.state) = [.closed, .initialized, .polling] ∧
        (deliveries m.journal).map (fun d => (d.1.status.state, d.2)) =
          [(.closed, [0]), (.polling, [0])] :=
    ⟨_, _, rfl, rfl, by decide, by decide⟩
  obtain ⟨m, ms, hms, hs, hc, hd⟩ := hm
  rw [hms] at h
  have hs := List.isEmpty_iff.mp hs
  obtain ⟨-, -, hperm, -, -, htold, hrest⟩ := every_change_is_notified h
  obtain ⟨hp, hw, -⟩ := hrest (by simp [hs])
  rw [hp, List.append_nil] at hperm
  rw [hw, List.append_nil] at htold
  exact ⟨m, ms, h, hs, hc, hd, hperm, htold⟩

end Machine
end FlagPoll.Synchronizer
