import FlagPoll.Proofs.Synchronizer.Lifecycle

/-!
# FlagPoll.Proofs.Synchronizer.Delivery

In which order a status listener is told of the changes.

* `received`    — the changes that a listener has been told of, in order.
* `waits`       — the changes that it is still to be told of by deliveries that have begun.
* `Interrupted` — the status has changed while the listener waited.
* `Overtaken`   — a delivery has begun while the listener waited for an earlier one.
* `Notice`      — what a step does to notifications.
* `told_in_order_iff` — a listener sees the changes in order exactly if it is never interrupted.
* `not_interrupted_of_first` — the listener that was registered first never is.

The number of a notification is looked at when its delivery begins. A delivery that begins inside
another one, because a listener has changed the status, reaches those who are still to be told of
the older change first.
-/

namespace FlagPoll.Synchronizer

variable {τ κ : Type}

/-! ## What the journal tells of a listener -/

def Event.isNews : Event τ κ → Bool
  | .changed .. | .delivering .. | .toldListener .. => true
  | _ => false

section Journal

variable [DecidableEq κ] (k : κ)

/-- The changes that a listener has been told of, the first one first. -/
def received : List (Event τ κ) → List (Change τ)
  | [] => []
  | .toldListener l c :: j => if l = k then received j ++ [c] else received j
  | _ :: j => received j

/-- The changes that a listener is still to be told of by deliveries that have begun, the next one
first. -/
def waits : List (Event τ κ) → List (Change τ)
  | [] => []
  | .delivering c ls :: j => List.replicate (ls.count k) c ++ waits j
  | .toldListener l _ :: j => if l = k then (waits j).tail else waits j
  | _ :: j => waits j

/-- The status has changed while a listener waited to be told of an earlier change. -/
def Interrupted : List (Event τ κ) → Prop
  | [] => False
  | .changed .. :: j => waits k j ≠ [] ∨ Interrupted j
  | _ :: j => Interrupted j

/-- A delivery has begun while a listener that it reaches waited for an earlier one. -/
def Overtaken : List (Event τ κ) → Prop
  | [] => False
  | .delivering _ ls :: j => (k ∈ ls ∧ waits k j ≠ []) ∨ Overtaken j
  | _ :: j => Overtaken j

/-- All that a listener has been or is still to be told of. -/
def line (j : List (Event τ κ)) : List (Change τ) := received k j ++ waits k j

variable {k} {c : Change τ} {ls : List κ} {j : List (Event τ κ)}

theorem filter_isNews (k : κ) (j : List (Event τ κ)) :
    received k (j.filter Event.isNews) = received k j ∧
      waits k (j.filter Event.isNews) = waits k j ∧
      (Interrupted k (j.filter Event.isNews) ↔ Interrupted k j) := by
  induction j with
  | nil => exact ⟨rfl, rfl, Iff.rfl⟩
  | cons e j ih =>
    obtain ⟨hr, hw, hi⟩ := ih
    cases he : e.isNews with
    | false =>
      rw [List.filter_cons_of_neg (by simp [he]), hr, hw, hi]
      cases e <;> simp_all [received, waits, Interrupted, Event.isNews]
    | true =>
      rw [List.filter_cons_of_pos he]
      cases e <;> simp_all [received, waits, Interrupted, Event.isNews]

theorem line_delivering :
    line k (.delivering c ls :: j) = received k j ++ (List.replicate (ls.count k) c ++ waits k j) :=
  rfl

/-- Whoever is told of what it waits for comes no further and falls no further back. -/
theorem line_toldListener {l : κ} (h : l = k → (waits k j).head? = some c) :
    line k (.toldListener l c :: j) = line k j := by
  unfold line
  by_cases hl : l = k
  · obtain ⟨rest, hr⟩ := List.head?_eq_some_iff.mp (h hl)
    simp [received, waits, hl, hr]
  · simp [received, waits, hl]

end Journal

/-! ## Changes in order -/

def Ordered (cs : List (Change τ)) : Prop := cs.Pairwise fun a b => a.number ≤ b.number

instance (cs : List (Change τ)) : Decidable (Ordered cs) :=
  inferInstanceAs (Decidable (cs.Pairwise fun a b => a.number ≤ b.number))

/-- A change newer than all others keeps the order exactly if nothing comes after it. -/
theorem ordered_insert {before after : List (Change τ)} {c : Change τ} {n : Nat}
    (h : ∀ d ∈ before ++ after, d.number < c.number) :
    Ordered (before ++ (List.replicate n c ++ after)) ↔
      Ordered (before ++ after) ∧ ¬ (n ≠ 0 ∧ after ≠ []) := by
  unfold Ordered
  constructor
  · intro ho
    refine ⟨ho.sublist ?_, ?_⟩
    · exact (List.sublist_append_right _ after).append_left before
    · rintro ⟨hn, ha⟩
      obtain ⟨d, hd⟩ := List.exists_mem_of_ne_nil after ha
      have hle := (List.pairwise_append.mp (List.pairwise_append.mp ho).2.1).2.2 c
        (List.mem_replicate.mpr ⟨hn, rfl⟩) d hd
      have hlt := h d (List.mem_append_right before hd)
      omega
  · rintro ⟨ho, hne⟩
    by_cases hn : n = 0
    · simpa [hn] using ho
    · obtain rfl : after = [] := by
        by_contra ha
        exact hne ⟨hn, ha⟩
      rw [List.append_nil] at ho h ⊢
      refine List.pairwise_append.mpr ⟨ho, ?_, ?_⟩
      · exact List.pairwise_replicate.mpr (.inr (Nat.le_refl _))
      · intro a ha b hb
        rw [List.eq_of_mem_replicate hb]
        exact Nat.le_of_lt (h a ha)

theorem Ordered.le_getLast {cs : List (Change τ)} {c d : Change τ} (h : Ordered cs)
    (hl : cs.getLast? = some d) (hc : c ∈ cs) : c.number ≤ d.number := by
  obtain ⟨before, rfl⟩ := List.getLast?_eq_some_iff.mp hl
  rcases List.mem_append.mp hc with hc | hc
  · exact (List.pairwise_append.mp h).2.2 c hc d (by simp)
  · simp_all

/-! ## What a step does to notifications -/

def Duty.isNotice : Duty τ κ → Bool
  | .notify _ | .tell .. => true
  | _ => false

section Tells

variable [DecidableEq κ] (k : κ)

/-- The change that a listener is told of next by this. -/
def Duty.tells? : Duty τ κ → Option (Change τ)
  | .tell l c => if l = k then some c else none
  | _ => none

theorem filterMap_tells (ls : List κ) (c : Change τ) :
    (ls.map (Duty.tell · c)).filterMap (Duty.tells? k) = List.replicate (ls.count k) c := by
  induction ls with
  | nil => rfl
  | cons l ls ih =>
    by_cases h : l = k
    · simp [Duty.tells?, h, ih, List.replicate_succ]
    · simp [Duty.tells?, h, ih]

end Tells

namespace Machine

/-- The notifications that are pending or under way. -/
def notices (m : Machine τ κ) : List (Duty τ κ) := m.duties.filter Duty.isNotice

/-- The events of notifications, the latest one first. -/
def news (m : Machine τ κ) : List (Event τ κ) := m.history.filter Event.isNews

theorem news_eq (m : Machine τ κ) : m.news = m.journal.filter Event.isNews := by
  simp only [news, history, List.filter_filter]
  apply List.filter_congr
  intro e _
  cases e <;> rfl

/-- What a step can do to the notifications. -/
inductive Notice (m n : Machine τ κ) : Prop where
  | still (hq : n.sync.sequence = m.sync.sequence) (hf : n.sync.notified = m.sync.notified)
      (hs : n.sync.status = m.sync.status) (hd : n.notices = m.notices) (hh : n.news = m.news)
  | change (c : Change τ) (hc : c = ⟨n.sync.sequence, n.sync.status⟩)
      (hq : n.sync.sequence = m.sync.sequence + 1) (hf : n.sync.notified = m.sync.notified)
      (hs : n.sync.state ≠ .notStarted) (hd : n.notices = .notify c :: m.notices)
      (hh : n.news = .changed m.clock c :: m.news)
  | drop (c : Change τ) (hc : c.number ≤ m.sync.notified) (hs : n.sync = m.sync)
      (hd : m.notices = .notify c :: n.notices) (hh : n.news = m.news)
  | deliver (c : Change τ) (rest : List (Duty τ κ)) (below : List (Task τ κ))
      (hc : m.sync.notified < c.number) (hs : n.sync = { m.sync with notified := c.number })
      (hm : n.stack = m.sync.listeners.map (.tell · c) ++ below) (hd : m.notices = .notify c :: rest)
      (hd' : n.notices = m.sync.listeners.map (.tell · c) ++ rest)
      (hh : n.news = .delivering c m.sync.listeners :: m.news)
  | tell (k : κ) (c : Change τ) (hs : n.sync = m.sync) (hd : m.notices = .tell k c :: n.notices)
      (hh : n.news = .toldListener k c :: m.news)

section Notice

attribute [local simp] notices news Duty.isNotice Event.isNews List.filter_cons

variable [Time τ] {w : World τ κ} {m n : Machine τ κ}

/-- Nothing is pending where the schedule goes on, and the handle is not resolved twice. -/
theorem notice_of_turn (hl : Layered m.stack)
    (hp : m.sync.state = .polling → m.sync.handle.resolution = none) (h : Turn w m n) :
    Notice m n := by
  have still {c : Synchronizer τ κ} (hs : n.sync = c) (hq : c.sequence = m.sync.sequence)
      (hf : c.notified = m.sync.notified) (ht : c.status = m.sync.status)
      (hd : n.notices = m.notices) (hh : n.news = m.news) : Notice m n :=
    .still (hs ▸ hq) (hs ▸ hf) (hs ▸ ht) hd hh
  cases h with
  | quiet ls ks b hs hd hh =>
    exact still hs rfl rfl rfl (by simp [hd]) (by simp [hh])
  | start c hs hd hh =>
    obtain ⟨-, hn, hc⟩ := begin?_eq_some.mp hs
    exact .change c hc (by rw [hn]) (by rw [hn]) (by simp [hn]) (by simp [hd]) (by simp [hh])
  | close c hs hd hh =>
    obtain ⟨-, hn, hc⟩ := close?_eq_some.mp hs
    refine .change c hc (by rw [hn]) (by rw [hn]) (by simp [hn]) ?_ (by simp [hh])
    rw [notices, hd]
    split <;> simp
  | drop c hc hs hd hh =>
    exact .drop c hc hs (by simp [hd]) (by simp [hh])
  | deliver c rest below hs hm hd hd' hh =>
    obtain ⟨hc, hn⟩ := admit?_eq_some.mp hs
    have htell : (m.sync.listeners.map (Duty.tell (τ := τ) · c)).filter Duty.isNotice =
        m.sync.listeners.map (.tell · c) := by
      simp [List.filter_map, Function.comp_def]
    exact .deliver c (rest.filter Duty.isNotice) below hc hn hm (by simp [hd])
      (by simp [hd', htell]) (by simp [hh])
  | tell k c hs hd hh =>
    exact .tell k c hs (by simp [hd]) (by simp [hh])
  | closeRequester hs hd hh =>
    exact still hs rfl rfl rfl (by simp [hd]) (by simp [hh])
  | fetch own rest q hm hs hd hh =>
    obtain ⟨-, hn⟩ := poll?_eq_some.mp hs
    exact still hn rfl rfl rfl (by simp [hd]) (by simp [hh])
  | discard o rest hc hs hd hd' hh =>
    exact still hs rfl rfl rfl (by simp [hd, hd']) (by simp [hh])
  | ignore o hc ha hs hd hh =>
    exact still hs rfl rfl rfl (by simp [hd]) (by simp [hh])
  | store s rest ha hs hd hd' hh =>
    exact still hs rfl rfl rfl (by simp [hd, hd']) (by simp [hh])
  | recover f c rest hf hs hd hd' hh =>
    obtain ⟨ha, hn, hc⟩ := recover?_eq_some.mp hs
    refine .change c hc (by rw [hn]; rfl) (by rw [hn]; rfl) ?_ (by simp [hd, hd']) (by simp [hh])
    have hst : n.sync.state = m.sync.state := by rw [hn]; rfl
    intro hns
    simp [returned, ← hst, hns, Lifecycle.isActive] at ha
  | giveUp f s c rest hf hg hs hd hd' hh =>
    obtain ⟨-, rfl, hc⟩ := giveUp?_eq_some.mp hg
    exact .change c (by rw [hc, hs]; rfl) (by rw [hs]; rfl) (by rw [hs]; rfl) (by simp [hs])
      (by simp [hd, hd']) (by simp [hh])
  | refuse hs hd hh =>
    exact still hs rfl rfl rfl (by simp [hd]) (by simp [hh])
  | put rest hs hd hd' hh =>
    exact still hs rfl rfl rfl (by simp [hd, hd']) (by simp [hh])
  | keep hc hs hd hh =>
    exact still hs rfl rfl rfl (by simp [hd]) (by simp [hh])
  | succeed s c rest hi hs hd hd' hh =>
    obtain ⟨-, rfl, hc⟩ := initialize?_eq_some.mp hi
    exact .change c (by rw [hc, hs]; rfl) (by rw [hs]) (by rw [hs]) (by simp [hs])
      (by simp [hd, hd']) (by simp [hh])
  | twice hs hr => exact absurd (hp hs) hr
  | stop target span rest hm hw hs hd hh =>
    have hb : (Task.pass target span : Task τ κ).isBase = true := by simp [Task.isBase, hw]
    have hnil : m.duties = [] := by
      rw [hm] at hl
      simpa [duties, hm] using hl.dutiesOf_eq_nil hb
    exact still hs rfl rfl rfl (by simp [hd, hnil]) (by simp [hh])

end Notice

/-! ## Numbers -/

/-- The numbers of the changes, and of the notifications that are pending. -/
structure Numbered (m : Machine τ κ) : Prop where
  started : m.sync.sequence = 0 ↔ m.sync.state = .notStarted
  notified_le : m.sync.notified ≤ m.sync.sequence
  pending_le : ∀ c, .notify c ∈ m.notices → c.number ≤ m.sync.sequence
  current : ∀ c, .notify c ∈ m.notices → c.number = m.sync.sequence → c.status = m.sync.status
  /-- The latest change is pending unless its notification has gone out. -/
  latest : m.sync.sequence ≤ m.sync.notified ∨
    ∃ c, .notify c ∈ m.notices ∧ c.number = m.sync.sequence

theorem state_eq_of_status_eq {s t : Synchronizer τ κ} (h : s.status = t.status) :
    s.state = t.state :=
  congrArg Status.state h

theorem Numbered.notice {m n : Machine τ κ} (h : Numbered m) (hn : Notice m n) : Numbered n := by
  obtain ⟨hst, hle, hpl, hcur, hlat⟩ := h
  cases hn with
  | still hq hf hs hd =>
    refine ⟨?_, ?_, ?_, ?_, ?_⟩
    · rw [hq, state_eq_of_status_eq hs]; exact hst
    · rw [hq, hf]; exact hle
    · rw [hq, hd]; exact hpl
    · rw [hq, hd, hs]; exact hcur
    · rw [hq, hf, hd]; exact hlat
  | change c hc hq hf hs hd =>
    have hnum : c.number = n.sync.sequence := by rw [hc]
    refine ⟨by simp [hq, hs], by omega, ?_, ?_, .inr ⟨c, ?_, hnum⟩⟩
    · intro d hm
      rw [hd] at hm
      rcases List.mem_cons.mp hm with hm | hm
      · cases hm
        omega
      · have := hpl d hm
        omega
    · intro d hm hnd
      rw [hd] at hm
      rcases List.mem_cons.mp hm with hm | hm
      · cases hm
        rw [hc]
      · have := hpl d hm
        omega
    · simp [hd]
  | drop c hc hs hd =>
    have mem {d : Change τ} (hm : .notify d ∈ n.notices) : .notify d ∈ m.notices := by simp [hd, hm]
    refine ⟨by rw [hs]; exact hst, by rw [hs]; exact hle, ?_, ?_, ?_⟩
    · rw [hs]
      exact fun d hm => hpl d (mem hm)
    · rw [hs]
      exact fun d hm => hcur d (mem hm)
    · rw [hs]
      rcases hlat with hlat | ⟨d, hm, hnum⟩
      · exact .inl hlat
      · rw [hd] at hm
        rcases List.mem_cons.mp hm with hm | hm
        · cases hm
          exact .inl (by omega)
        · exact .inr ⟨d, hm, hnum⟩
  | deliver c rest below hc hs hm hd hd' =>
    have mem {d : Change τ} (hm : .notify d ∈ n.notices) : .notify d ∈ rest := by
      simpa [hd'] using hm
    have mem' {d : Change τ} (hm : .notify d ∈ n.notices) : .notify d ∈ m.notices := by
      simp [hd, mem hm]
    have hcle : c.number ≤ m.sync.sequence := hpl c (by simp [hd])
    refine ⟨by rw [hs]; exact hst, by rw [hs]; exact hcle, ?_, ?_, ?_⟩
    · rw [hs]
      exact fun d hm => hpl d (mem' hm)
    · rw [hs]
      exact fun d hm => hcur d (mem' hm)
    · rw [hs]
      rcases hlat with hlat | ⟨d, hm, hnum⟩
      · exact .inl (by simp only; omega)
      · rw [hd] at hm
        rcases List.mem_cons.mp hm with hm | hm
        · cases hm
          exact .inl (Nat.le_of_eq hnum.symm)
        · exact .inr ⟨d, by simp [hd', hm], hnum⟩
  | tell l c hs hd =>
    have mem {d : Change τ} : .notify d ∈ n.notices ↔ .notify d ∈ m.notices := by simp [hd]
    refine ⟨by rw [hs]; exact hst, by rw [hs]; exact hle, ?_, ?_, ?_⟩
    · rw [hs]
      exact fun d hm => hpl d (mem.mp hm)
    · rw [hs]
      exact fun d hm => hcur d (mem.mp hm)
    · rw [hs]
      simpa only [mem] using hlat

theorem Numbered.started_of_pending {m : Machine τ κ} {c : Change τ} (h : Numbered m)
    (hc : .notify c ∈ m.notices) (hlt : m.sync.notified < c.number) :
    m.sync.state ≠ .notStarted := by
  intro hns
  have := h.started.mpr hns
  have := h.pending_le c hc
  omega

theorem numbered_new {m : Machine τ κ} {now : τ} (hs : m.sync = .create now)
    (hd : m.notices = []) : Numbered m :=
  ⟨by simp [hs, Synchronizer.create], by simp [hs, Synchronizer.create], by simp [hd],
    by simp [hd], by simp [hs, Synchronizer.create]⟩

section Run

variable [Time τ] [BEq κ] {w : World τ κ} {r : Requester} {due free : Op τ κ → Prop}
  {m n : Machine τ κ} {ms : List (Machine τ κ)}

omit [Time τ] [BEq κ] in
theorem notice_of_call (op : Op τ κ) (hs : m.stack = []) :
    Notice m { m with stack := [.perform op], reading := .nothing } :=
  .still rfl rfl rfl (by simp [notices, duties, hs, Task.duty?]) rfl

theorem notice_of_run (h : Run w r due free (m :: ms)) (hs : m.step w = some n) : Notice m n :=
  notice_of_turn (layered_of_run h m List.mem_cons_self) (pending_of_run h) (turn_of_step hs)

theorem numbered_of_run (h : Run w r due free (m :: ms)) : Numbered m := by
  induction h using Run.head_induction with
  | create => exact numbered_new rfl rfl
  | timeline calls hd => exact numbered_new rfl rfl
  | call x xs op h hs ho ih => exact ih.notice (notice_of_call op hs)
  | step x y xs h hs ih => exact ih.notice (notice_of_run h hs)

theorem news_tell {k : κ} {c : Change τ} {below : List (Task τ κ)}
    (hm : m.stack = .tell k c :: below) (h : m.step w = some n) :
    n.news = .toldListener k c :: m.news := by
  obtain ⟨task, rest, hstack, rfl⟩ := step_eq_some.mp h
  obtain ⟨rfl, rfl⟩ : task = .tell k c ∧ rest = below := by simpa [hm, eq_comm] using hstack
  rfl

end Run

/-! ## What reaches a listener -/

variable [DecidableEq κ] {k : κ}

/-- What a listener has been or is still to be told of, as long as it is registered. -/
structure Reaches (k : κ) (m : Machine τ κ) : Prop where
  waiting : m.notices.filterMap (Duty.tells? k) = waits k m.news
  le_notified : ∀ c ∈ line k m.news, c.number ≤ m.sync.notified
  current : ∀ c ∈ line k m.news, c.number = m.sync.sequence → c.status = m.sync.status
  reached : m.sync.notified ≠ 0 → ∃ c ∈ line k m.news, c.number = m.sync.notified
  order : Ordered (line k m.news) ↔ ¬ Overtaken k m.news

section Reaches

variable {m n : Machine τ κ} {c : Change τ}

/-- A delivery begins: the listener is to be told of its change before all that it waits for. -/
theorem Reaches.deliver (h : Reaches k m) (hm : Numbered m) (hk : k ∈ m.sync.listeners)
    {rest : List (Duty τ κ)} (hc : m.sync.notified < c.number)
    (hs : n.sync = { m.sync with notified := c.number }) (hd : m.notices = .notify c :: rest)
    (hd' : n.notices = m.sync.listeners.map (.tell · c) ++ rest)
    (hh : n.news = .delivering c m.sync.listeners :: m.news) : Reaches k n := by
  obtain ⟨hwait, hle, hcur, hreach, hord⟩ := h
  have hcount : m.sync.listeners.count k ≠ 0 := (List.count_pos_iff.mpr hk).ne'
  have hold : ∀ d ∈ line k m.news, d.number < c.number := fun d hd =>
    Nat.lt_of_le_of_lt (hle d hd) hc
  have hmem {d : Change τ} : d ∈ line k n.news ↔ d = c ∨ d ∈ line k m.news := by
    rw [hh, line_delivering]
    simp only [line, List.mem_append, List.mem_replicate, ne_eq, hcount, not_false_eq_true,
      true_and, or_left_comm]
  refine ⟨?_, ?_, ?_, ?_, ?_⟩
  · rw [hd', hh, List.filterMap_append, filterMap_tells, waits, ← hwait, hd]
    rfl
  · intro d hd
    rw [hs]
    rcases hmem.mp hd with rfl | hd
    · exact Nat.le_refl _
    · exact Nat.le_of_lt (hold d hd)
  · intro d hd' hnum
    rw [hs] at hnum ⊢
    rcases hmem.mp hd' with rfl | hd'
    · exact hm.current d (by simp [hd]) hnum
    · have := hold d hd'
      have := hm.pending_le c (by simp [hd])
      simp only at hnum
      omega
  · intro _
    exact ⟨c, hmem.mpr (.inl rfl), by rw [hs]⟩
  · rw [hh, line_delivering, ordered_insert hold]
    simp only [Overtaken, hk, true_and, not_or, hcount, ne_eq, not_false_eq_true]
    rw [and_comm, ← hord]
    rfl

theorem Reaches.tell (h : Reaches k m) {l : κ} (hs : n.sync = m.sync)
    (hd : m.notices = .tell l c :: n.notices) (hh : n.news = .toldListener l c :: m.news) :
    Reaches k n := by
  obtain ⟨hwait, hle, hcur, hreach, hord⟩ := h
  have hhead : l = k → (waits k m.news).head? = some c := by
    rintro rfl
    rw [← hwait, hd]
    simp [Duty.tells?]
  have hline : line k n.news = line k m.news := by
    rw [hh]
    exact line_toldListener hhead
  have hover : Overtaken k n.news ↔ Overtaken k m.news := by
    rw [hh]
    rfl
  rw [← hline, ← hover] at hord
  rw [← hline] at hle hcur hreach
  refine ⟨?_, by rw [hs]; exact hle, by rw [hs]; exact hcur, by rw [hs]; exact hreach, hord⟩
  rw [hh, waits, ← hwait, hd]
  by_cases hl : l = k <;> simp [Duty.tells?, hl]

theorem Reaches.notice (h : Reaches k m) (hm : Numbered m)
    (hk : m.sync.state ≠ .notStarted → k ∈ m.sync.listeners) (hn : Notice m n) : Reaches k n := by
  cases hn with
  | still hq hf hs hd hh =>
    obtain ⟨hwait, hle, hcur, hreach, hord⟩ := h
    rw [← hh] at hwait hle hcur hreach hord
    exact ⟨by rw [hd]; exact hwait, by rw [hf]; exact hle, by rw [hq, hs]; exact hcur,
      by rw [hf]; exact hreach, hord⟩
  | change c hc hq hf hs hd hh =>
    obtain ⟨hwait, hle, hcur, hreach, hord⟩ := h
    have hline : line k n.news = line k m.news := by
      rw [hh]
      rfl
    have hover : Overtaken k n.news ↔ Overtaken k m.news := by
      rw [hh]
      rfl
    rw [← hline, ← hover] at hord
    rw [← hline] at hle hreach
    refine ⟨?_, by rw [hf]; exact hle, ?_, by rw [hf]; exact hreach, hord⟩
    · rw [hd, hh]
      exact hwait
    · intro d hd hnum
      have := hle d hd
      have := hm.notified_le
      omega
  | drop c hc hs hd hh =>
    obtain ⟨hwait, hle, hcur, hreach, hord⟩ := h
    rw [← hh] at hwait hle hcur hreach hord
    refine ⟨?_, by rw [hs]; exact hle, by rw [hs]; exact hcur, by rw [hs]; exact hreach, hord⟩
    rw [← hwait, hd]
    rfl
  | deliver c rest below hc hs hstack hd hd' hh =>
    have hst := hm.started_of_pending (by simp [hd]) hc
    exact h.deliver hm (hk hst) hc hs hd hd' hh
  | tell l c hs hd hh => exact h.tell hs hd hh

end Reaches

/-! ## Changes between a change and what the listener is told of it -/

section Nested

variable {m n : Machine τ κ} {c : Change τ}

theorem Reaches.waits_ne_nil (h : Reaches k m) :
    waits k m.news ≠ [] ↔ ∃ d, .tell k d ∈ m.notices := by
  rw [← h.waiting, ne_eq, List.filterMap_eq_nil_iff]
  constructor
  · intro hne
    by_contra hno
    apply hne
    intro x hx
    cases x with
    | tell l d =>
      have hl : l ≠ k := by
        rintro rfl
        exact hno ⟨d, hx⟩
      simp [Duty.tells?, hl]
    | _ => rfl
  · rintro ⟨d, hd⟩ hall
    simpa [Duty.tells?] using hall _ hd

/-- Changes that come while a listener waits, against deliveries that begin then. -/
structure Nested (k : κ) (m : Machine τ κ) : Prop where
  /-- The latest change is the one to be notified of first. -/
  newest : m.notices.Pairwise fun a b => ∀ c d, a = .notify c → b = .notify d → d.number < c.number
  interrupted : ∀ c, .notify c ∈ m.notices → m.sync.notified < c.number → waits k m.news ≠ [] →
    Interrupted k m.news
  of_overtaken : Overtaken k m.news → Interrupted k m.news
  /-- A change that has come between is going to overtake what the listener waits for. -/
  overtaking : Interrupted k m.news → Overtaken k m.news ∨ ∃ c d above below,
    m.notices = above ++ .notify c :: below ∧ .tell k d ∈ below ∧ m.sync.notified < c.number

/-- A change that comes while the listener waits lies above what it waits for. -/
theorem Nested.change (h : Nested k m) (hm : Numbered m) (hr : Reaches k m)
    (hnum : c.number = m.sync.sequence + 1) (hf : n.sync.notified = m.sync.notified)
    (hd : n.notices = .notify c :: m.notices) (hh : n.news = .changed m.clock c :: m.news) :
    Nested k n := by
  obtain ⟨hnew, hint, hof, hover⟩ := h
  have hle := hm.notified_le
  refine ⟨?_, ?_, ?_, ?_⟩
  · rw [hd]
    refine List.pairwise_cons.mpr ⟨?_, hnew⟩
    intro b hb x d hx hbd
    cases hx
    subst hbd
    have := hm.pending_le d hb
    omega
  · intro d _ _ hne
    rw [hh] at hne ⊢
    exact .inl hne
  · intro ho
    rw [hh] at ho ⊢
    exact .inr (hof ho)
  · intro hi
    rw [hh] at hi ⊢
    rw [hf, hd]
    rcases hi with hne | hi
    · obtain ⟨d, hd⟩ := hr.waits_ne_nil.mp hne
      exact .inr ⟨c, d, [], m.notices, rfl, hd, by omega⟩
    · refine (hover hi).imp_right ?_
      rintro ⟨x, d, above, below, hx, hrest⟩
      exact ⟨x, d, .notify c :: above, below, by simp [hx], hrest⟩

theorem Nested.drop (h : Nested k m) (hc : c.number ≤ m.sync.notified) (hs : n.sync = m.sync)
    (hd : m.notices = .notify c :: n.notices) (hh : n.news = m.news) : Nested k n := by
  obtain ⟨hnew, hint, hof, hover⟩ := h
  rw [← hh] at hint hof hover
  rw [hd] at hnew
  refine ⟨(List.pairwise_cons.mp hnew).2, ?_, hof, ?_⟩
  · intro d hmem hlt
    rw [hs] at hlt
    exact hint d (by simp [hd, hmem]) hlt
  · intro hi
    refine (hover hi).imp_right ?_
    rintro ⟨x, d, above, below, hx, hmem, hlt⟩
    rw [hd] at hx
    rcases List.cons_eq_append_iff.mp hx with ⟨-, hx⟩ | ⟨above, -, hx⟩
    · -- what is going to overtake is not superseded itself
      cases hx
      omega
    · exact ⟨x, d, above, below, hx, hmem, by rw [hs]; exact hlt⟩

/-- The delivery that begins is that of the latest change, and all others are dropped later. -/
theorem Nested.deliver (h : Nested k m) (hr : Reaches k m) (hk : k ∈ m.sync.listeners)
    {rest : List (Duty τ κ)} (hc : m.sync.notified < c.number)
    (hs : n.sync = { m.sync with notified := c.number }) (hd : m.notices = .notify c :: rest)
    (hd' : n.notices = m.sync.listeners.map (.tell · c) ++ rest)
    (hh : n.news = .delivering c m.sync.listeners :: m.news) : Nested k n := by
  obtain ⟨hnew, hint, hof, hover⟩ := h
  rw [hd] at hnew
  obtain ⟨hold, hrest⟩ := List.pairwise_cons.mp hnew
  refine ⟨?_, ?_, ?_, ?_⟩
  · rw [hd']
    refine List.pairwise_append.mpr ⟨?_, hrest, ?_⟩
    · exact List.pairwise_map.mpr (List.pairwise_of_forall fun _ _ _ _ h => by cases h)
    · intro a ha b hb x d hx
      obtain ⟨l, -, rfl⟩ := List.mem_map.mp ha
      cases hx
  · intro d hmem hlt hne
    have hdr : .notify d ∈ rest := by simpa [hd'] using hmem
    have := hold _ hdr c d rfl rfl
    simp only [hs] at hlt
    omega
  · intro ho
    rw [hh] at ho ⊢
    rcases ho with ⟨-, hne⟩ | ho
    · exact hint c (by simp [hd]) hc hne
    · exact hof ho
  · intro hi
    rw [hh] at hi ⊢
    rcases hover hi with ho | ⟨x, d, above, below, hx, hmem, -⟩
    · exact .inl (.inr ho)
    · exact .inl (.inl ⟨hk, hr.waits_ne_nil.mpr ⟨d, by simp [hx, hmem]⟩⟩)

theorem Nested.tell (h : Nested k m) {l : κ} (hs : n.sync = m.sync)
    (hd : m.notices = .tell l c :: n.notices) (hh : n.news = .toldListener l c :: m.news) :
    Nested k n := by
  obtain ⟨hnew, hint, hof, hover⟩ := h
  have hwait : waits k n.news ≠ [] → waits k m.news ≠ [] := by
    rw [hh, waits]
    split <;> intro hne hnil <;> simp [hnil] at hne
  rw [hd] at hnew
  refine ⟨(List.pairwise_cons.mp hnew).2, ?_, ?_, ?_⟩
  · intro d hmem hlt hne
    rw [hs] at hlt
    have hi := hint d (by simp [hd, hmem]) hlt (hwait hne)
    rw [hh]
    exact hi
  · intro ho
    rw [hh] at ho ⊢
    exact hof ho
  · intro hi
    rw [hh] at hi ⊢
    rw [hs]
    refine (hover hi).imp_right ?_
    rintro ⟨x, d, above, below, hx, hrest⟩
    rw [hd] at hx
    rcases List.cons_eq_append_iff.mp hx with ⟨-, hx⟩ | ⟨above, -, hx⟩
    · cases hx
    · exact ⟨x, d, above, below, hx, hrest⟩

theorem Nested.notice (h : Nested k m) (hm : Numbered m) (hr : Reaches k m)
    (hk : m.sync.state ≠ .notStarted → k ∈ m.sync.listeners) (hn : Notice m n) : Nested k n := by
  cases hn with
  | still hq hf hs hd hh =>
    obtain ⟨hnew, hint, hof, hover⟩ := h
    rw [← hh] at hint hof hover
    exact ⟨by rw [hd]; exact hnew, by rw [hd, hf]; exact hint, hof, by rw [hd, hf]; exact hover⟩
  | change c hc hq hf hs hd hh => exact h.change hm hr (by rw [hc, hq]) hf hd hh
  | drop c hc hs hd hh => exact h.drop hc hs hd hh
  | deliver c rest below hc hs hstack hd hd' hh =>
    have hst := hm.started_of_pending (by simp [hd]) hc
    exact h.deliver hr (hk hst) hc hs hd hd' hh
  | tell l c hs hd hh => exact h.tell hs hd hh

end Nested

/-! ## Runs -/

theorem reaches_new {m : Machine τ κ} {now : τ} (hs : m.sync = .create now)
    (hd : m.notices = []) (hh : m.news = []) : Reaches k m ∧ Nested k m :=
  ⟨⟨by simp [hd, hh, waits], by simp [hh, line, received, waits],
      by simp [hh, line, received, waits], by simp [hs, Synchronizer.create],
      by simp [hh, line, received, waits, Ordered, Overtaken]⟩,
    ⟨by simp [hd], by simp [hd], by simp [hh, Overtaken], by simp [hh, Interrupted]⟩⟩

/-- Once no notification is under way, the last change that a listener has been told of is the
latest one, if it has been told of them in order. -/
theorem Reaches.getLast {m : Machine τ κ} (h : Reaches k m) (hm : Numbered m) (hd : m.notices = [])
    (ho : Ordered (received k m.news)) (hst : m.sync.state ≠ .notStarted) :
    ∃ c, (received k m.news).getLast? = some c ∧ c.status = m.sync.status := by
  have hline : line k m.news = received k m.news := by
    simp [line, ← h.waiting, hd]
  have heq : m.sync.notified = m.sync.sequence := by
    refine Nat.le_antisymm hm.notified_le ?_
    simpa [hd] using hm.latest
  have hne : m.sync.sequence ≠ 0 := fun h0 => hst (hm.started.mp h0)
  obtain ⟨c, hc, hnum⟩ := h.reached (by omega)
  rw [hline] at hc
  cases hlast : (received k m.news).getLast? with
  | none => simp [List.getLast?_eq_none_iff.mp hlast] at hc
  | some d =>
    have hd : d ∈ line k m.news := hline ▸ List.mem_of_getLast? hlast
    have hle := ho.le_getLast hlast hc
    have hle' := h.le_notified d hd
    exact ⟨d, rfl, h.current d hd (by omega)⟩

section Run

variable [Time τ] {w : World τ κ} {r : Requester} {due free : Op τ κ → Prop} {m : Machine τ κ}
  {ms : List (Machine τ κ)}

theorem reaches_of_run (h : Run w r due free (m :: ms))
    (hk : ∀ x ∈ m :: ms, x.sync.state ≠ .notStarted → k ∈ x.sync.listeners) :
    Reaches k m ∧ Nested k m := by
  induction h using Run.head_induction with
  | create => exact reaches_new rfl rfl rfl
  | timeline calls hd => exact reaches_new rfl rfl rfl
  | call x xs op h hs ho ih =>
    obtain ⟨-, hk⟩ := List.forall_mem_cons.mp hk
    obtain ⟨hr, hnest⟩ := ih hk
    have hn := numbered_of_run h
    have hkx := hk x List.mem_cons_self
    exact ⟨hr.notice hn hkx (notice_of_call op hs), hnest.notice hn hr hkx (notice_of_call op hs)⟩
  | step x y xs h hs ih =>
    obtain ⟨-, hk⟩ := List.forall_mem_cons.mp hk
    obtain ⟨hr, hnest⟩ := ih hk
    have hn := numbered_of_run h
    have hkx := hk x List.mem_cons_self
    exact ⟨hr.notice hn hkx (notice_of_run h hs), hnest.notice hn hr hkx (notice_of_run h hs)⟩

/-- A listener that is registered from the start on is told of the changes in order as long as the
status does not change while it is still to be told of an earlier change. Whenever no call is in
progress the converse holds too, and then the last change that it has been told of has led to the
current status. -/
theorem told_in_order_iff (h : Run w r due free (m :: ms))
    (hk : ∀ x ∈ m :: ms, x.sync.state ≠ .notStarted → k ∈ x.sync.listeners) :
    (¬ Interrupted k m.journal → Ordered (received k m.journal)) ∧
    ((∀ t ∈ m.stack, t.isBase = true) →
      (Ordered (received k m.journal) ↔ ¬ Interrupted k m.journal) ∧
      (¬ Interrupted k m.journal → m.sync.state ≠ .notStarted →
        ∃ c, (received k m.journal).getLast? = some c ∧ c.status = m.sync.status)) := by
  have hn := numbered_of_run h
  obtain ⟨hr, hnest⟩ := reaches_of_run h hk
  obtain ⟨hrec, -, hint⟩ := filter_isNews k m.journal
  rw [← news_eq] at hrec hint
  rw [← hrec, ← hint]
  have hord : ¬ Interrupted k m.news → Ordered (received k m.news) := by
    intro hi
    have hline : Ordered (line k m.news) := hr.order.mpr fun ho => hi (hnest.of_overtaken ho)
    exact hline.sublist (List.sublist_append_left _ _)
  refine ⟨hord, ?_⟩
  intro hrest
  have hd : m.notices = [] := by simp [notices, duties, dutiesOf_eq_nil hrest]
  have hline : line k m.news = received k m.news := by
    simp [line, ← hr.waiting, hd]
  refine ⟨⟨?_, hord⟩, ?_⟩
  · intro ho hi
    have hover : Overtaken k m.news := by simpa [hd] using hnest.overtaking hi
    rw [← hline] at ho
    exact hr.order.mp ho hover
  · intro hi hst
    exact hr.getLast hn hd (hord hi) hst

end Run

/-! ## A listener that closes the synchronizer -/

/-- The first listener closes the synchronizer as soon as polling begins. -/
def hasty : World Number Nat :=
  { World.still fun _ => .fetched (.ok .empty) with
    listener := fun _ l s => ⟨if l = 0 ∧ s.state = .polling then [.close] else [], none⟩ }

def hastySession : List (Machine Number Nat) :=
  session hasty .own 30 [.addListener 0, .addListener 1, .start]

theorem run_hastySession (due : Op Number Nat → Prop) :
    Run hasty .own due (fun _ => True) hastySession :=
  run_session hasty .own due _ 30 _ (by simp)

/-- The second listener is told of the beginning after it has been told of the end. -/
theorem told_out_of_order : ∃ m ms,
    Run hasty .own (fun _ => False) (fun _ => True) (m :: ms) ∧
      (∀ x ∈ m :: ms, x.sync.state ≠ .notStarted → 1 ∈ x.sync.listeners) ∧ m.stack = [] ∧
      m.sync.state = .closed ∧
      (received 1 m.journal).map (·.status.state) = [.closed, .polling] ∧
      ¬ Ordered (received 1 m.journal) := by
  have h := run_hastySession fun _ => False
  have hl : ∀ x ∈ hastySession, x.sync.state ≠ .notStarted → 1 ∈ x.sync.listeners := by decide
  have hm : ∃ m ms, hastySession = m :: ms ∧ m.stack.isEmpty = true ∧ m.sync.state = .closed ∧
      (received 1 m.journal).map (·.status.state) = [.closed, .polling] ∧
      ¬ Ordered (received 1 m.journal) :=
    ⟨_, _, rfl, rfl, rfl, rfl, by decide⟩
  obtain ⟨m, ms, hms, hs, hrest⟩ := hm
  rw [hms] at h hl
  exact ⟨m, ms, h, hl, List.isEmpty_iff.mp hs, hrest⟩

theorem told_in_order_first : ∃ m ms,
    Run hasty .own (fun _ => False) (fun _ => True) (m :: ms) ∧ ¬ Interrupted 0 m.journal ∧
      ∃ c, (received 0 m.journal).getLast? = some c ∧ c.status = m.sync.status := by
  have h := run_hastySession fun _ => False
  have hl : ∀ x ∈ hastySession, x.sync.state ≠ .notStarted → 0 ∈ x.sync.listeners := by decide
  have hm : ∃ m ms, hastySession = m :: ms ∧ m.stack.isEmpty = true ∧ m.sync.state = .closed ∧
      Ordered (received 0 m.journal) :=
    ⟨_, _, rfl, rfl, rfl, by decide⟩
  obtain ⟨m, ms, hms, hs, hst, ho⟩ := hm
  rw [hms] at h hl
  obtain ⟨hiff, hlast⟩ := (told_in_order_iff h hl).2 (by simp [List.isEmpty_iff.mp hs])
  have hnot := hiff.mp ho
  exact ⟨m, ms, h, hnot, hlast hnot (by simp [hst])⟩

/-! ## The first listener -/

/-- The first listener has been told before anything else can happen: whenever it waits, it is told
next. -/
structure Ahead (k : κ) (m : Machine τ κ) : Prop where
  calm : ¬ Interrupted k m.news
  next : waits k m.news = [] ∨ ∃ c below, m.stack = .tell k c :: below ∧ waits k m.news = [c]

section Ahead

variable {m n : Machine τ κ}

theorem ahead_of_notice (h : ¬ Interrupted k m.news) (hw : waits k m.news = [])
    (hk : m.sync.state ≠ .notStarted → ∃ ls, m.sync.listeners = k :: ls ∧ k ∉ ls)
    (hm : Numbered m) (hn : Notice m n) : Ahead k n := by
  cases hn with
  | still hq hf hs hd hh =>
    rw [← hh] at h hw
    exact ⟨h, .inl hw⟩
  | change c hc hq hf hs hd hh =>
    refine ⟨?_, ?_⟩
    · rw [hh]
      exact not_or.mpr ⟨fun hne => hne hw, h⟩
    · rw [hh]
      exact .inl hw
  | drop c hc hs hd hh =>
    rw [← hh] at h hw
    exact ⟨h, .inl hw⟩
  | deliver c rest below hc hs hstack hd hd' hh =>
    obtain ⟨ls, hls, hnot⟩ := hk (hm.started_of_pending (by simp [hd]) hc)
    refine ⟨?_, ?_⟩
    · rw [hh]
      exact h
    · have hone : (k :: ls).count k = 1 := by
        rw [List.count_cons_self, List.count_eq_zero.mpr hnot]
      refine .inr ⟨c, ls.map (.tell · c) ++ below, by simp [hstack, hls], ?_⟩
      rw [hh, waits, hls, hone, hw]
      rfl
  | tell l c hs hd hh =>
    refine ⟨?_, ?_⟩
    · rw [hh]
      exact h
    · rw [hh, waits, hw]
      simp

end Ahead

section Run

variable [Time τ] {w : World τ κ} {r : Requester} {due free : Op τ κ → Prop} {m : Machine τ κ}
  {ms : List (Machine τ κ)}

/-- The status never changes while the listener waits that comes first in the order of
registration, if it is registered once. -/
theorem not_interrupted_of_first (h : Run w r due free (m :: ms))
    (hk : ∀ x ∈ m :: ms, x.sync.state ≠ .notStarted → ∃ ls, x.sync.listeners = k :: ls ∧ k ∉ ls) :
    ¬ Interrupted k m.journal := by
  suffices hahead : Ahead k m by
    rw [← (filter_isNews k m.journal).2.2, ← news_eq]
    exact hahead.calm
  induction h using Run.head_induction with
  | create => exact ⟨id, .inl rfl⟩
  | timeline calls hd => exact ⟨id, .inl rfl⟩
  | call x xs op h hs ho ih =>
    obtain ⟨-, hk⟩ := List.forall_mem_cons.mp hk
    obtain ⟨hcalm, hnext⟩ := ih hk
    refine ⟨hcalm, .inl ?_⟩
    rcases hnext with hw | ⟨c, below, hstack, -⟩
    · exact hw
    · simp [hs] at hstack
  | step x y xs h hs ih =>
    obtain ⟨-, hk⟩ := List.forall_mem_cons.mp hk
    obtain ⟨hcalm, hw | ⟨c, below, hstack, hw⟩⟩ := ih hk
    · have hkx := hk x List.mem_cons_self
      exact ahead_of_notice hcalm hw hkx (numbered_of_run h) (notice_of_run h hs)
    · have hh := news_tell hstack hs
      refine ⟨?_, .inl ?_⟩
      · rw [hh]
        exact hcalm
      · simp [hh, waits, hw]

end Run

end Machine
end FlagPoll.Synchronizer
