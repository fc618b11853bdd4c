import FlagPoll.Proofs.Synchronizer.Calls
import FlagPoll.Proofs.Synchronizer.Lifecycle

/-!
# FlagPoll.Proofs.Synchronizer.Fetching

Fetches, and when the requester is closed.

* `flying`, `closings` — fetches under way and how often the requester has been closed.
* `Apart`              — the requester is closed once, and no fetch is made then or later.
* `Requests`           — who is to close the requester: `close`, or the fetch that is under way.
* `requester_closed_once` — every run with polls one after the other keeps to it.
-/

namespace FlagPoll.Synchronizer

variable {τ κ : Type}

/-! ## What the journal tells of the requester -/

/-- How many fetches are under way. -/
def flying : List (Event τ κ) → Nat
  | [] => 0
  | .fetch .. :: j => flying j + 1
  | .fetched .. :: j => flying j - 1
  | _ :: j => flying j

/-- How often the requester has been closed. -/
def closings : List (Event τ κ) → Nat
  | [] => 0
  | .closeRequester :: j => closings j + 1
  | _ :: j => closings j

/-- Whether a state has been entered in which no poll has an effect any more. -/
def isOver : List (Event τ κ) → Bool
  | [] => false
  | .changed _ c :: j => c.status.state = .permanentlyFailed || c.status.state = .closed || isOver j
  | _ :: j => isOver j

/-- The requester is closed while no fetch is under way, and no fetch begins after that or once
polling is over. -/
def Apart : List (Event τ κ) → Prop
  | [] => True
  | .closeRequester :: j => flying j = 0 ∧ closings j = 0 ∧ Apart j
  | .fetch .. :: j => closings j = 0 ∧ isOver j = false ∧ Apart j
  | _ :: j => Apart j

theorem filter_isNotable (j : List (Event τ κ)) :
    flying (j.filter Event.isNotable) = flying j ∧
      closings (j.filter Event.isNotable) = closings j ∧
      isOver (j.filter Event.isNotable) = isOver j ∧
      (Apart (j.filter Event.isNotable) ↔ Apart j) := by
  induction j with
  | nil => exact ⟨rfl, rfl, rfl, Iff.rfl⟩
  | cons e j ih =>
    obtain ⟨hf, hc, ho, ha⟩ := ih
    cases he : e.isNotable with
    | false =>
      rw [List.filter_cons_of_neg (by simp [he]), hf, hc, ho, ha]
      cases e <;> simp_all [flying, closings, isOver, Apart, Event.isNotable]
    | true =>
      rw [List.filter_cons_of_pos he]
      cases e <;> simp_all [flying, closings, isOver, Apart, Event.isNotable]

def Duty.isReceive : Duty τ κ → Bool
  | .receive => true
  | _ => false

def Duty.isClosing : Duty τ κ → Bool
  | .closeRequester => true
  | _ => false

theorem countP_tells {p : Duty τ κ → Bool} (hp : ∀ k c, p (.tell k c) = false) (ls : List κ)
    (c : Change τ) : (ls.map (Duty.tell · c)).countP p = 0 := by
  induction ls with
  | nil => rfl
  | cons l ls ih => simp [ih, hp]

namespace Machine

/-- How many of the fetches are yet to return. -/
def receives (m : Machine τ κ) : Nat := m.duties.countP Duty.isReceive

/-- How often the requester is yet to be closed by what is on the stack. -/
def closes (m : Machine τ κ) : Nat := m.duties.countP Duty.isClosing

/-- What a step can do to fetches and to the closing of the requester. -/
inductive Traffic (m n : Machine τ κ) : Prop where
  | still (hs : n.sync.state = m.sync.state) (hf : n.sync.fetching = m.sync.fetching)
      (hr : n.receives = m.receives) (hc : n.closes = m.closes)
      (hfly : flying n.history = flying m.history) (hcl : closings n.history = closings m.history)
      (ho : isOver n.history = isOver m.history) (ha : Apart n.history ↔ Apart m.history)
  | close (hs : m.sync.state ≠ .closed) (hs' : n.sync.state = .closed)
      (hf : n.sync.fetching = m.sync.fetching) (hr : n.receives = m.receives)
      (hc : n.closes = m.closes + (!m.sync.fetching).toNat)
      (hfly : flying n.history = flying m.history) (hcl : closings n.history = closings m.history)
      (ha : Apart n.history ↔ Apart m.history)
  /-- A state other than the last one is entered. -/
  | enter (hs : m.sync.state ≠ .closed) (hs' : n.sync.state ≠ .closed)
      (hf : n.sync.fetching = m.sync.fetching) (hr : n.receives = m.receives)
      (hc : n.closes = m.closes) (hfly : flying n.history = flying m.history)
      (hcl : closings n.history = closings m.history)
      (hfail : m.sync.state ≠ .permanentlyFailed) (ho : isOver n.history = isOver m.history)
      (ha : Apart n.history ↔ Apart m.history)
  | fetch (hs : m.sync.state.isActive = true) (hs' : n.sync.state = m.sync.state)
      (hf : n.sync.fetching = true) (hr : m.receives = 0) (hr' : n.receives = 1)
      (hc : n.closes = m.closes) (hfly : flying n.history = flying m.history + 1)
      (hcl : closings n.history = closings m.history) (ho : isOver n.history = isOver m.history)
      (ha : Apart n.history ↔
        closings m.history = 0 ∧ isOver m.history = false ∧ Apart m.history)
  /-- A fetch returns and the synchronizer has not been closed; polling may be over with it. -/
  | land (hs : m.sync.state ≠ .closed) (hs' : n.sync.state ≠ .closed)
      (hf : n.sync.fetching = false) (hr : m.receives = n.receives + 1) (hc : n.closes = m.closes)
      (hfly : flying n.history = flying m.history - 1)
      (hcl : closings n.history = closings m.history)
      (ho : n.sync.state = .permanentlyFailed ∨
        n.sync.state = m.sync.state ∧ isOver n.history = isOver m.history)
      (ha : Apart n.history ↔ Apart m.history)
  /-- A fetch returns that the synchronizer has been closed under. -/
  | discard (hs : m.sync.state = .closed) (hs' : n.sync.state = .closed)
      (hf : n.sync.fetching = false) (hr : m.receives = n.receives + 1)
      (hc : n.closes = m.closes + 1) (hfly : flying n.history = flying m.history - 1)
      (hcl : closings n.history = closings m.history) (ho : isOver n.history = isOver m.history)
      (ha : Apart n.history ↔ Apart m.history)
  | closeRequester (hs : n.sync.state = m.sync.state) (hf : n.sync.fetching = m.sync.fetching)
      (hr : n.receives = m.receives) (hc : m.closes = n.closes + 1)
      (hfly : flying n.history = flying m.history)
      (hcl : closings n.history = closings m.history + 1)
      (ho : isOver n.history = isOver m.history)
      (ha : Apart n.history ↔ flying m.history = 0 ∧ closings m.history = 0 ∧ Apart m.history)

section Turn

attribute [local simp] Duty.isReceive Duty.isClosing receives closes List.countP_cons
attribute [local simp] flying closings isOver Apart status

variable [Time τ] {w : World τ κ} {m n : Machine τ κ}

/-- Nothing lies below a poll that begins but the schedule. -/
theorem traffic_of_turn (hl : Layered m.stack)
    (hg : ∀ own rest, m.stack = .poll own :: rest → dutiesOf rest = [])
    (hp : m.sync.state = .polling → m.sync.handle.resolution = none) (h : Turn w m n) :
    Traffic m n := by
  cases h with
  | quiet ls ks b hs hd hh =>
    apply Traffic.still <;> simp [hs, hd, hh]
  | start c hs hd hh =>
    obtain ⟨hst, hn, rfl⟩ := begin?_eq_some.mp hs
    apply Traffic.enter <;> simp [hn, hd, hh, hst]
  | close c hs hd hh =>
    obtain ⟨hst, hn, rfl⟩ := close?_eq_some.mp hs
    apply Traffic.close <;> cases hf : m.sync.fetching <;> simp [hn, hd, hh, hst, hf]
  | drop c hc hs hd hh =>
    apply Traffic.still <;> simp [hs, hd, hh]
  | deliver c rest below hs hm hd hd' hh =>
    obtain ⟨-, hn⟩ := admit?_eq_some.mp hs
    have hrec := countP_tells (p := Duty.isReceive) (fun _ _ => rfl) m.sync.listeners c
    have hclo := countP_tells (p := Duty.isClosing) (fun _ _ => rfl) m.sync.listeners c
    apply Traffic.still <;> simp [hn, hd, hd', hh, hrec, hclo]
  | tell k c hs hd hh =>
    apply Traffic.still <;> simp [hs, hd, hh]
  | closeRequester hs hd hh =>
    apply Traffic.closeRequester <;> simp [hs, hd, hh]
  | fetch own rest q hm hs hd hh =>
    obtain ⟨hst, hn⟩ := poll?_eq_some.mp hs
    have hdm : m.duties = [] := by simp [duties, hm, hg own rest hm, Task.duty?]
    apply Traffic.fetch <;> simp [hn, hd, hh, hst, hdm]
  | discard o rest hc hs hd hd' hh =>
    apply Traffic.discard <;> simp [hs, hd, hd', hh, hc, returned]
  | ignore o hc ha hs hd hh =>
    apply Traffic.land <;> simp [hs, hd, hh, hc, returned]
  | store s rest ha hs hd hd' hh =>
    have hc : m.sync.state ≠ .closed := fun hc => by simp [hc, Lifecycle.isActive] at ha
    apply Traffic.land <;> simp [hs, hd, hd', hh, hc, returned]
  | recover f c rest hf hs hd hd' hh =>
    obtain ⟨ha, hn, rfl⟩ := recover?_eq_some.mp hs
    have ha : m.sync.state.isActive = true := ha
    have hc : m.sync.state ≠ .closed := fun hc => by simp [hc, Lifecycle.isActive] at ha
    have hfail : m.sync.state ≠ .permanentlyFailed := fun hc => by
      simp [hc, Lifecycle.isActive] at ha
    apply Traffic.land <;> simp [hn, hd, hd', hh, hc, hfail, returned]
  | giveUp f s c rest hf hg hs hd hd' hh =>
    obtain ⟨ha, rfl, rfl⟩ := giveUp?_eq_some.mp hg
    have ha : m.sync.state.isActive = true := ha
    have hc : m.sync.state ≠ .closed := fun hc => by simp [hc, Lifecycle.isActive] at ha
    apply Traffic.land <;> simp [hs, hd, hd', hh, hc, returned]
  | refuse hs hd hh =>
    apply Traffic.still <;> simp [hs, hd, hh]
  | put rest hs hd hd' hh =>
    apply Traffic.still <;> simp [hs, hd, hd', hh]
  | keep hc hs hd hh =>
    apply Traffic.still <;> simp [hs, hd, hh]
  | succeed s c rest hi hs hd hd' hh =>
    obtain ⟨hst, rfl, rfl⟩ := initialize?_eq_some.mp hi
    apply Traffic.enter <;> simp [hs, hd, hd', hh, hst]
  | twice hs hr => exact absurd (hp hs) hr
  | stop target span rest hm hw hs hd hh =>
    have hb : (Task.pass target span : Task τ κ).isBase = true := by simp [Task.isBase, hw]
    have hnil : m.duties = [] := by
      rw [hm] at hl
      simpa [duties, hm] using hl.dutiesOf_eq_nil hb
    apply Traffic.still <;> simp [hs, hd, hh, hnil]

end Turn

/-- Once the synchronizer is closed, the requester has been closed, or it is about to be, or the
fetch that is under way will see to it. -/
structure Requests (m : Machine τ κ) : Prop where
  flying : flying m.history = m.receives
  fetching : m.receives = m.sync.fetching.toNat
  opened (h : m.sync.state ≠ .closed) : closings m.history + m.closes = 0
  closed (h : m.sync.state = .closed) : closings m.history + m.closes + m.receives = 1
  ended (h : isOver m.history = true) : m.sync.state = .permanentlyFailed ∨ m.sync.state = .closed
  apart : Apart m.history

theorem Requests.traffic {m n : Machine τ κ} (h : Requests m) (ht : Traffic m n) : Requests n := by
  obtain ⟨hfly, hfetch, hopen, hclosed, hover, hapart⟩ := h
  cases ht with
  | still hs hf hr hc hfly' hcl ho ha =>
    refine ⟨by omega, by rw [hr, hf]; exact hfetch, ?_, ?_, ?_, ha.mpr hapart⟩
    · rw [hs, hcl, hc]; exact hopen
    · rw [hs, hcl, hc, hr]; exact hclosed
    · rw [ho, hs]; exact hover
  | close hs hs' hf hr hc hfly' hcl ha =>
    refine ⟨by omega, by rw [hr, hf]; exact hfetch, fun h => absurd hs' h, ?_,
      fun _ => .inr hs', ha.mpr hapart⟩
    intro _
    have hnone := hopen hs
    cases hfc : m.sync.fetching <;> simp only [hfc, Bool.not_false, Bool.not_true, Bool.toNat_true,
      Bool.toNat_false] at hfetch hc <;> omega
  | enter hs hs' hf hr hc hfly' hcl hfail ho ha =>
    refine ⟨by omega, by rw [hr, hf]; exact hfetch, ?_, fun h => absurd h hs', ?_, ha.mpr hapart⟩
    · intro _
      have hnone := hopen hs
      omega
    · intro h
      exact absurd (hover (ho ▸ h)) (not_or.mpr ⟨hfail, hs⟩)
  | fetch hs hs' hf hr hr' hc hfly' hcl ho ha =>
    have hne : m.sync.state ≠ .permanentlyFailed ∧ m.sync.state ≠ .closed := by
      constructor <;> intro hst <;> simp [hst, Lifecycle.isActive] at hs
    have hnone := hopen hne.2
    have hover' : isOver m.history = false := by
      rw [Bool.eq_false_iff]
      exact fun h => absurd (hover h) (not_or.mpr hne)
    refine ⟨by omega, by rw [hr', hf]; rfl, fun _ => by omega, fun h => absurd (hs' ▸ h) hne.2,
      ?_, ha.mpr ⟨by omega, hover', hapart⟩⟩
    intro h
    rw [ho, hover'] at h
    contradiction
  | land hs hs' hf hr hc hfly' hcl ho ha =>
    have hle := Bool.toNat_le m.sync.fetching
    refine ⟨by omega, by rw [hf]; simp only [Bool.toNat_false]; omega, ?_,
      fun h => absurd h hs', ?_, ha.mpr hapart⟩
    · intro _
      have hnone := hopen hs
      omega
    · intro h
      rcases ho with ho | ⟨hst, ho⟩
      · exact .inl ho
      · rw [hst]
        exact hover (ho ▸ h)
  | discard hs hs' hf hr hc hfly' hcl ho ha =>
    have hle := Bool.toNat_le m.sync.fetching
    have hone := hclosed hs
    exact ⟨by omega, by rw [hf]; simp only [Bool.toNat_false]; omega, fun h => absurd hs' h,
      fun _ => by omega, fun _ => .inr hs', ha.mpr hapart⟩
  | closeRequester hs hf hr hc hfly' hcl ho ha =>
    have hcl' : m.sync.state = .closed := by
      by_contra h
      have hnone := hopen h
      omega
    have hone := hclosed hcl'
    refine ⟨by omega, by rw [hr, hf]; exact hfetch, fun h => absurd (hs.trans hcl') h,
      fun _ => by omega, fun _ => .inr (hs.trans hcl'), ha.mpr ⟨by omega, by omega, hapart⟩⟩

/-! ## Runs -/

theorem requests_new {m : Machine τ κ} {now : τ} (hs : m.sync = .create now) (hd : m.duties = [])
    (hh : m.history = []) : Requests m := by
  constructor <;> simp [receives, closes, hs, hd, hh, Synchronizer.create, Synchronizer.flying,
    closings, isOver, Apart]

section Run

variable [Time τ] [BEq κ] {w : World τ κ} {r : Requester} {m : Machine τ κ}
  {ms : List (Machine τ κ)}

theorem traffic_of_run (hw : w.Every fun op => ¬ op.IsPoll)
    (h : Run w r (Op.Every fun op => ¬ op.IsPoll) (Op.Outer (fun op => ¬ op.IsPoll) fun _ => True)
      (m :: ms))
    {n : Machine τ κ} (hs : m.step w = some n) : Traffic m n := by
  have hcalls := calls_of_run (fun _ => id) hw Op.not_isPoll_close trivial h m List.mem_cons_self
  exact traffic_of_turn (layered_of_run h m List.mem_cons_self)
    (fun own rest hm => dutiesOf_eq_nil (hcalls.isBase hm rfl)) (pending_of_run h)
    (turn_of_step hs)

theorem requests_of_run (hw : w.Every fun op => ¬ op.IsPoll)
    (h : Run w r (Op.Every fun op => ¬ op.IsPoll) (Op.Outer (fun op => ¬ op.IsPoll) fun _ => True)
      (m :: ms)) :
    Requests m := by
  induction h using Run.head_induction with
  | create => exact requests_new rfl rfl rfl
  | timeline calls hd => exact requests_new rfl rfl rfl
  | call x xs op h hs ho ih =>
    have hd : x.duties = [] := by simp [duties, hs]
    refine ih.traffic (.still rfl rfl ?_ ?_ rfl rfl rfl Iff.rfl)
    · rw [receives, receives, hd]; rfl
    · rw [closes, closes, hd]; rfl
  | step x y xs h hs ih => exact ih.traffic (traffic_of_run hw h hs)

/-- However often the synchronizer is closed and from wherever, the requester is closed once: not
while a fetch is under way, and no fetch is made after it or once polling is over. Whenever neither
a call nor a fetch is in progress, it has been closed exactly if the synchronizer has. -/
theorem requester_closed_once (hw : w.Every fun op => ¬ op.IsPoll)
    (h : Run w r (Op.Every fun op => ¬ op.IsPoll) (Op.Outer (fun op => ¬ op.IsPoll) fun _ => True)
      (m :: ms)) :
    closings m.journal ≤ 1 ∧ Apart m.journal ∧
    (∀ n, m.step w = some n → flying m.journal < flying n.journal →
      m.sync.state ≠ .closed ∧ m.sync.state ≠ .permanentlyFailed) ∧
    ((∀ t ∈ m.stack, t.isBase = true) →
      closings m.journal = if m.sync.state = .closed then 1 else 0) := by
  obtain ⟨hfly, hfetch, hopen, hclosed, hover, hapart⟩ := requests_of_run hw h
  obtain ⟨-, hcl, -, ha⟩ := filter_isNotable m.journal
  have hcl : closings m.history = closings m.journal := hcl
  rw [hcl] at hopen hclosed
  refine ⟨?_, ha.mp hapart, ?_, ?_⟩
  · by_cases hst : m.sync.state = .closed
    · have := hclosed hst
      omega
    · have := hopen hst
      omega
  · intro n hn hlt
    have hm : flying m.history = flying m.journal := (filter_isNotable m.journal).1
    have hn' : flying n.history = flying n.journal := (filter_isNotable n.journal).1
    cases traffic_of_run hw h hn with
    | fetch hs =>
      constructor <;> intro hst <;> simp [hst, Lifecycle.isActive] at hs
    | _ => omega
  · intro hrest
    have hd : m.duties = [] := dutiesOf_eq_nil hrest
    have hr : m.receives = 0 := by simp [receives, hd]
    have hc : m.closes = 0 := by simp [closes, hd]
    split
    · rename_i hst
      have := hclosed hst
      omega
    · rename_i hst
      have := hopen hst
      omega

end Run

/-- A fetch during which the synchronizer is closed twice, the second time while the requester is
closed. -/
def shutting : World Number Nat :=
  { World.still fun _ => .fetched (.ok .empty) with
    response := fun _ => ⟨0, [.close], .fetched (.ok .empty)⟩
    closing := fun _ => ⟨[.close], none⟩ }

theorem requester_closed_once_in_fetch : ∃ m ms,
    Run shutting .own (Op.Every fun op => ¬ op.IsPoll)
        (Op.Outer (fun op => ¬ op.IsPoll) fun _ => True) (m :: ms) ∧
      m.stack = [] ∧ m.sync.state = .closed ∧ Apart m.journal ∧ closings m.journal = 1 := by
  have hclose : (Op.close : Op Number Nat).Every fun op => ¬ op.IsPoll :=
    .other (by simp) Op.not_isPoll_close
  have hstart : (Op.start : Op Number Nat).Every fun op => ¬ op.IsPoll :=
    .other (by simp) Op.not_isPoll_start
  have hw : shutting.Every fun op => ¬ op.IsPoll := by
    constructor <;> simp [shutting, World.still, hclose]
  have hops : ∀ op ∈ [.start, .poll none],
      Op.Outer (fun op : Op Number Nat => ¬ op.IsPoll) (fun _ => True) op := by
    simp only [List.forall_mem_cons, List.not_mem_nil, false_implies, implies_true, and_true]
    exact ⟨.call hstart, .poll ⟨trivial, by simp⟩⟩
  have h := run_session shutting .own (Op.Every fun op => ¬ op.IsPoll) _ 40 _ hops
  have hm : ∃ m ms, session shutting .own 40 [.start, .poll none] = m :: ms ∧
      m.stack.isEmpty = true ∧ m.sync.state = .closed :=
    ⟨_, _, rfl, rfl, rfl⟩
  obtain ⟨m, ms, hms, hs, hst⟩ := hm
  rw [hms] at h
  have hs := List.isEmpty_iff.mp hs
  obtain ⟨-, hapart, -, hclosed⟩ := requester_closed_once hw h
  exact ⟨m, ms, h, hs, hst, hapart, by simpa [hs, hst] using hclosed⟩

end Machine
end FlagPoll.Synchronizer
