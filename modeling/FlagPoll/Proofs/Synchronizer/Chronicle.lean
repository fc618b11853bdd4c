import FlagPoll.Proofs.Synchronizer.Failing
import FlagPoll.Proofs.Synchronizer.Notification

/-!
# FlagPoll.Proofs.Synchronizer.Chronicle

What the status tells of a run.

* `enteredAt`, `reasonOf`, `statusOf` — the status as the journal tells it.
* `FailedAt`   — a fetch that failed in a state in which polls have an effect; the reason is the
  record of the latest one.
* `NeverBack`  — a clock that never shows less than before.
* `Tenure`     — what a step does to the state and the moment since when it has lasted.
* `made_of_change` — each change has been made by a step, and carries the status after it.
* `status_tells_history` — the status tells of the latest change of state and of the latest failure.
-/

namespace FlagPoll.Synchronizer

variable {τ κ : Type}

/-! ## The status in the journal -/

section Journal

/-- A fetch that failed in a state in which polls have an effect, and what came before it. -/
def FailedAt (j : List (Event τ κ)) (clock : τ) (f : Failure) (before : List (Event τ κ)) : Prop :=
  .fetched clock (.error f) :: before <:+ j ∧ (stateOf before).isActive = true

theorem failedAt_cons {e : Event τ κ} {j before : List (Event τ κ)} {clock : τ} {f : Failure} :
    FailedAt (e :: j) clock f before ↔
      (e = .fetched clock (.error f) ∧ j = before ∧ (stateOf j).isActive = true) ∨
        FailedAt j clock f before := by
  simp only [FailedAt, List.suffix_cons_iff, List.cons.injEq]
  constructor
  · rintro ⟨⟨rfl, rfl⟩ | hs, ha⟩
    · exact .inl ⟨rfl, rfl, ha⟩
    · exact .inr ⟨hs, ha⟩
  · rintro (⟨rfl, rfl, ha⟩ | ⟨hs, ha⟩)
    · exact ⟨.inl ⟨rfl, rfl⟩, ha⟩
    · exact ⟨.inr hs, ha⟩

theorem FailedAt.length_lt {j before : List (Event τ κ)} {clock : τ} {f : Failure}
    (h : FailedAt j clock f before) : before.length < j.length :=
  h.1.length_le

variable [Time τ] (w : World τ κ)

/-- The moment of the latest change that entered another state, or else the beginning. -/
def enteredAt : List (Event τ κ) → τ
  | [] => w.epoch + 0
  | .changed clock c :: j => if c.status.state = stateOf j then enteredAt j else w.epoch + clock
  | _ :: j => enteredAt j

/-- The reason of the latest fetch that failed in a state in which polls have an effect. -/
def reasonOf : List (Event τ κ) → Option (ErrorInfo τ)
  | [] => none
  | .fetched clock (.error f) :: j =>
    if (stateOf j).isActive then some (f.info (w.epoch + clock)) else reasonOf j
  | _ :: j => reasonOf j

def statusOf (j : List (Event τ κ)) : Status τ := ⟨stateOf j, enteredAt w j, reasonOf w j⟩

/-- The reason is the record of the latest such failure, made at its moment. -/
theorem reasonOf_eq_some_iff {j : List (Event τ κ)} {e : ErrorInfo τ} :
    reasonOf w j = some e ↔ ∃ clock f before, FailedAt j clock f before ∧
      (∀ c g b, FailedAt j c g b → b.length ≤ before.length) ∧ f.Recorded (w.epoch + clock) e := by
  induction j with
  | nil => simp [reasonOf, FailedAt]
  | cons x j ih =>
    by_cases hx : ∃ clock f, x = .fetched clock (.error f) ∧ (stateOf j).isActive = true
    · obtain ⟨clock, f, rfl, ha⟩ := hx
      have hnew : FailedAt (.fetched clock (.error f) :: j) clock f j :=
        failedAt_cons.mpr (.inl ⟨rfl, rfl, ha⟩)
      rw [reasonOf, if_pos ha, Option.some.injEq]
      constructor
      · rintro rfl
        refine ⟨clock, f, j, hnew, fun c g b hb => ?_, Failure.recorded_iff.mpr rfl⟩
        exact Nat.lt_succ_iff.mp hb.length_lt
      · rintro ⟨c, g, b, hb, hlast, hrec⟩
        rcases failedAt_cons.mp hb with ⟨he, -, -⟩ | hb
        · cases he
          exact (Failure.recorded_iff.mp hrec).symm
        · exact absurd hb.length_lt (Nat.not_lt.mpr (hlast _ _ _ hnew))
    · have hold : reasonOf w (x :: j) = reasonOf w j := by
        cases x with
        | fetched clock o =>
          cases o with
          | ok s => rfl
          | error f => rw [reasonOf, if_neg fun ha => hx ⟨clock, f, rfl, ha⟩]
        | _ => rfl
      have hsame (c : τ) (g : Failure) (b : List (Event τ κ)) :
          FailedAt (x :: j) c g b ↔ FailedAt j c g b := by
        rw [failedAt_cons, or_iff_right fun h => hx ⟨c, g, h.1, h.2.2⟩]
      simp only [hold, hsame]
      exact ih

theorem enteredAt_filter (j : List (Event τ κ)) :
    enteredAt w (j.filter Event.isNotable) = enteredAt w j := by
  induction j with
  | nil => rfl
  | cons e j ih =>
    cases e with
    | changed clock c =>
      rw [List.filter_cons_of_pos rfl]
      simp only [enteredAt, ih, Machine.stateOf_filter]
    | _ => simp_all [enteredAt, Event.isNotable, List.filter_cons]

theorem reasonOf_filter (j : List (Event τ κ)) :
    reasonOf w (j.filter Event.isNotable) = reasonOf w j := by
  induction j with
  | nil => rfl
  | cons e j ih =>
    cases e with
    | fetched clock o =>
      rw [List.filter_cons_of_pos rfl]
      cases o <;> simp only [reasonOf, ih, Machine.stateOf_filter]
    | _ => simp_all [reasonOf, Event.isNotable, List.filter_cons]

theorem statusOf_filter (j : List (Event τ κ)) :
    statusOf w (j.filter Event.isNotable) = statusOf w j := by
  rw [statusOf, statusOf, Machine.stateOf_filter, enteredAt_filter, reasonOf_filter]

end Journal

namespace Machine

section Turn

variable [Time τ] {w : World τ κ} {m n : Machine τ κ}

theorem statusOf_turn (h : statusOf w m.history = m.sync.status)
    (hp : m.sync.state = .polling → m.sync.handle.resolution = none) (ht : Turn w m n) :
    statusOf w n.history = n.sync.status := by
  obtain ⟨hstate, hsince, hreason⟩ : stateOf m.history = m.sync.state ∧
      enteredAt w m.history = m.sync.since ∧ reasonOf w m.history = m.sync.lastError := by
    simpa [statusOf, status] using h
  cases ht with
  | start c hs hd hh =>
    obtain ⟨hst, hn, rfl⟩ := begin?_eq_some.mp hs
    have hne : (.polling : Lifecycle) ≠ stateOf m.history := by simp [hstate, hst]
    simp [hh, statusOf, stateOf, enteredAt, reasonOf, status, hn, hne, hreason, wallClock]
  | close c hs hd hh =>
    obtain ⟨hst, hn, rfl⟩ := close?_eq_some.mp hs
    have hne : (.closed : Lifecycle) ≠ stateOf m.history := by simpa [hstate] using hst.symm
    simp [hh, statusOf, stateOf, enteredAt, reasonOf, status, hn, hne, hreason, wallClock]
  | recover f c rest hf hs hd hd' hh =>
    obtain ⟨ha, hn, rfl⟩ := recover?_eq_some.mp hs
    have ha : m.sync.state.isActive = true := ha
    simp [hh, statusOf, stateOf, enteredAt, reasonOf, status, hn, hstate, hsince, ha, returned,
      wallClock]
  | giveUp f s c rest hf hg hs hd hd' hh =>
    obtain ⟨ha, rfl, rfl⟩ := giveUp?_eq_some.mp hg
    have ha : m.sync.state.isActive = true := ha
    have hne : (.permanentlyFailed : Lifecycle) ≠ m.sync.state := by
      intro he
      simp [← he, Lifecycle.isActive] at ha
    simp [hh, hs, statusOf, stateOf, enteredAt, reasonOf, status, hstate, hne, ha, wallClock]
  | succeed s c rest hi hs hd hd' hh =>
    obtain ⟨hst, rfl, rfl⟩ := initialize?_eq_some.mp hi
    have hne : (.initialized : Lifecycle) ≠ stateOf m.history := by simp [hstate, hst]
    simp [hh, hs, statusOf, stateOf, enteredAt, reasonOf, status, hne, hreason, wallClock]
  | deliver c rest below hs hm hd hd' hh =>
    obtain ⟨-, hn⟩ := admit?_eq_some.mp hs
    simp [hh, statusOf, stateOf, enteredAt, reasonOf, status, hn, hstate, hsince, hreason]
  | fetch own rest q hm hs hd hh =>
    obtain ⟨-, hn⟩ := poll?_eq_some.mp hs
    simp [hh, statusOf, stateOf, enteredAt, reasonOf, status, hn, hstate, hsince, hreason]
  | discard o rest hc hs hd hd' hh =>
    have ha : m.sync.state.isActive = false := by rw [hc]; rfl
    cases o <;> simp [hh, statusOf, stateOf, enteredAt, reasonOf, status, hs, hstate, hsince,
      hreason, returned, ha]
  | ignore o hc ha hs hd hh =>
    cases o <;> simp [hh, statusOf, stateOf, enteredAt, reasonOf, status, hs, hstate, hsince,
      hreason, returned, ha]
  | store s rest ha hs hd hd' hh =>
    simp [hh, statusOf, stateOf, enteredAt, reasonOf, status, hs, hstate, hsince, hreason, returned]
  | twice hs hr => exact absurd (hp hs) hr
  | quiet ls ks b hs hd hh => rw [hh, h, hs]; rfl
  | drop c hc hs hd hh | refuse hs hd hh | put rest hs hd hd' hh | keep hc hs hd hh
  | stop target span rest hm hw hs hd hh => rw [hh, h, hs]
  | tell k c hs hd hh | closeRequester hs hd hh =>
    simp [hh, statusOf, stateOf, enteredAt, reasonOf, status, hs, hstate, hsince, hreason]

/-- What a step does to the state and the moment since when it has lasted: this moment is that of
the step if another state is entered, and else it is left alone. -/
inductive Tenure (w : World τ κ) (m n : Machine τ κ) : Prop where
  | stays (hs : n.sync.state = m.sync.state) (ht : n.sync.since = m.sync.since)
  | enters (hs : n.sync.state ≠ m.sync.state) (ht : n.sync.since = m.wallClock w)

theorem tenure_turn (hp : m.sync.state = .polling → m.sync.handle.resolution = none)
    (ht : Turn w m n) : Tenure w m n := by
  cases ht with
  | start c hs =>
    obtain ⟨hst, hn, -⟩ := begin?_eq_some.mp hs
    exact .enters (by simp [hn, hst]) (by rw [hn])
  | close c hs =>
    obtain ⟨hst, hn, -⟩ := close?_eq_some.mp hs
    exact .enters (by simp [hn, hst.symm]) (by rw [hn])
  | recover f c rest hf hs =>
    obtain ⟨-, hn, -⟩ := recover?_eq_some.mp hs
    exact .stays (by rw [hn]; rfl) (by rw [hn]; rfl)
  | giveUp f s c rest hf hg hs =>
    obtain ⟨ha, hn, -⟩ := giveUp?_eq_some.mp hg
    have ha : m.sync.state.isActive = true := ha
    refine .enters (fun he => ?_) (by rw [hs, hn])
    have hst : (.permanentlyFailed : Lifecycle) = m.sync.state := by simpa [hs, hn] using he
    simp [← hst, Lifecycle.isActive] at ha
  | succeed s c rest hi hs =>
    obtain ⟨hst, hn, -⟩ := initialize?_eq_some.mp hi
    exact .enters (by simp [hs, hn, hst]) (by rw [hs, hn])
  | deliver c rest below hs =>
    obtain ⟨-, hn⟩ := admit?_eq_some.mp hs
    exact .stays (by rw [hn]) (by rw [hn])
  | fetch own rest q hm hs =>
    obtain ⟨-, hn⟩ := poll?_eq_some.mp hs
    exact .stays (by rw [hn]) (by rw [hn])
  | discard o rest hc hs | ignore o hc ha hs | store s rest ha hs =>
    exact .stays (by rw [hs]; rfl) (by rw [hs]; rfl)
  | twice hs hr => exact absurd (hp hs) hr
  | _ => exact .stays (by simp_all) (by simp_all)

end Turn

/-! ## Runs -/

section Run

variable [Time τ] [BEq κ] {w : World τ κ} {r : Requester} {due free : Op τ κ → Prop}
  {m n : Machine τ κ} {ms : List (Machine τ κ)}

theorem statusOf_of_run (h : Run w r due free (m :: ms)) :
    m.sync.status = statusOf w m.journal := by
  suffices hh : statusOf w m.history = m.sync.status by
    rwa [history, statusOf_filter, eq_comm] at hh
  induction h using Run.head_induction with
  | create | timeline calls hd => rfl
  | call x xs op h hs ho ih => exact ih
  | step x y xs h hs ih => exact statusOf_turn ih (pending_of_run h) (turn_of_step hs)

theorem tenure_of_run (h : Run w r due free (n :: m :: ms)) : Tenure w m n := by
  cases h with
  | call h hs ho => exact .stays rfl rfl
  | step h hs => exact tenure_turn (pending_of_run h) (turn_of_step hs)

/-- No machine of a run shows an earlier time on its clock than one before it. -/
def NeverBack (w : World τ κ) (ms : List (Machine τ κ)) : Prop :=
  ∀ x xs y ys, x :: xs <:+ ms → y :: ys <:+ x :: xs → y.wallClock w ≤ x.wallClock w

/-- The moment since when the state has lasted was on the clock in the run. -/
theorem since_of_run (h : Run w r due free (m :: ms)) :
    ∃ x xs, x :: xs <:+ m :: ms ∧ m.sync.since = x.wallClock w := by
  induction h using Run.head_induction with
  | create | timeline calls hd => exact ⟨_, _, List.suffix_refl _, rfl⟩
  | call x xs op h hs ho ih =>
    obtain ⟨y, ys, hsuf, hy⟩ := ih
    exact ⟨y, ys, hsuf.trans (List.suffix_cons _ _), hy⟩
  | step x y xs h hs ih =>
    cases tenure_of_run (.step h hs) with
    | enters _ ht => exact ⟨x, xs, List.suffix_cons _ _, ht⟩
    | stays _ ht =>
      obtain ⟨z, zs, hsuf, hz⟩ := ih
      exact ⟨z, zs, hsuf.trans (List.suffix_cons _ _), ht.trans hz⟩

omit [BEq κ] in
theorem NeverBack.tail (h : NeverBack w (m :: ms)) : NeverBack w ms :=
  fun x xs y ys hx hy => h x xs y ys (hx.trans (List.suffix_cons _ _)) hy

theorem since_le_of_run (h : Run w r due free (m :: ms)) (hb : NeverBack w (m :: ms)) :
    ∀ x xs, x :: xs <:+ m :: ms → x.sync.since ≤ m.sync.since := by
  -- a moment can be compared with itself only because it was on the clock
  have here {n : Machine τ κ} {ns : List (Machine τ κ)} (hn : Run w r due free (n :: ns))
      (hb : NeverBack w (n :: ns)) : n.sync.since ≤ n.sync.since := by
    obtain ⟨y, ys, hsuf, hy⟩ := since_of_run hn
    rw [hy]
    exact hb y ys y ys hsuf (List.suffix_refl _)
  have whole {n : Machine τ κ} {ns : List (Machine τ κ)} (hn : Run w r due free (n :: ns))
      (hb : NeverBack w (n :: ns))
      (before : ∀ x xs, x :: xs <:+ ns → x.sync.since ≤ n.sync.since) (x : Machine τ κ)
      (xs : List (Machine τ κ)) (hx : x :: xs <:+ n :: ns) : x.sync.since ≤ n.sync.since := by
    rcases List.suffix_cons_iff.mp hx with he | hx
    · obtain ⟨rfl, rfl⟩ := List.cons.inj he
      exact here hn hb
    · exact before x xs hx
  induction h using Run.head_induction with
  | create => exact whole .create hb (by simp)
  | timeline calls hd => exact whole (.timeline hd) hb (by simp)
  | call y ys op h hs ho ih => exact whole (.call h hs ho) hb (ih hb.tail)
  | step y n ys h hs ih =>
    refine whole (.step h hs) hb fun x xs hx => ?_
    cases tenure_of_run (.step h hs) with
    | stays _ ht =>
      rw [ht]
      exact ih hb.tail x xs hx
    | enters _ ht =>
      obtain ⟨z, zs, hsuf, hz⟩ := since_of_run (h.of_suffix hx)
      rw [ht, hz]
      exact hb.tail y ys z zs (List.suffix_refl _) (hsuf.trans hx)

/-- Each change has been made by a step of the run, and carries the status after this step. -/
theorem made_of_change (h : Run w r due free (m :: ms)) : ∀ c ∈ changes m.journal,
    ∃ x y ys, x :: y :: ys <:+ m :: ms ∧ y.step w = some x ∧
      changes x.journal = c :: changes y.journal ∧ c.status = x.sync.status := by
  induction h using Run.head_induction with
  | create | timeline calls hd => simp [Machine.create, changes]
  | call x xs op h hs ho ih =>
    intro c hc
    obtain ⟨y, z, zs, hsuf, hmade⟩ := ih c hc
    exact ⟨y, z, zs, hsuf.trans (List.suffix_cons _ _), hmade⟩
  | step x y xs h hs ih =>
    intro c hc
    have before (hc : c ∈ changes x.journal) : ∃ u v vs, u :: v :: vs <:+ y :: x :: xs ∧
        v.step w = some u ∧ changes u.journal = c :: changes v.journal ∧
          c.status = u.sync.status := by
      obtain ⟨u, v, vs, hsuf, hmade⟩ := ih c hc
      exact ⟨u, v, vs, hsuf.trans (List.suffix_cons _ _), hmade⟩
    cases alters_of_run h hs with
    | keep hk hq hst hf => exact before (hk ▸ hc)
    | change hk hq why =>
      rw [hk] at hc
      rcases List.mem_cons.mp hc with rfl | hc
      · exact ⟨y, x, xs, List.suffix_refl _, hs, hk, rfl⟩
      · exact before hc

/-- What listeners have been told are changes that were made before. -/
theorem change_of_telling (h : Run w r due free (m :: ms)) {k : κ} {c : Change τ}
    (ht : (k, c) ∈ tellings m.journal) : c ∈ changes m.journal := by
  have hdel := delivered_of_run h
  have hmem : (k, c) ∈ owed (deliveries m.journal) :=
    hdel.told.mem_iff.mpr (List.mem_append_left _ ht)
  obtain ⟨d, hd, hk⟩ := List.mem_flatMap.mp hmem
  obtain ⟨listener, -, he⟩ := List.mem_map.mp hk
  obtain rfl : d.1 = c := (Prod.mk.inj he).2
  exact (noted_of_run h).mem_iff.mpr (List.mem_append_left _ (hdel.attempted d hd))

/-- Calls that are refused, repeated or come too late, and data sets after the first one, leave the
status alone. -/
theorem status_of_silent (h : Run w r due free (m :: ms)) (hq : Silent m)
    (hs : m.step w = some n) : n.sync.status = m.sync.status := by
  cases alters_of_run h hs with
  | keep hc hq hst hf => exact hst
  | change hc hq' why =>
    have hlen := congrArg List.length hc
    rw [(silent_step hq hs).1, List.length_cons] at hlen
    omega

/-- A failure that may go away leaves the state alone, and the moment since when it has lasted. -/
theorem stays_of_failure {f : Failure} {rest : List (Task τ κ)} (hn : Fails w m f rest n)
    (hf : ¬ f.EndsPolling) : n.sync.state = m.sync.state ∧ n.sync.since = m.sync.since := by
  by_cases ha : m.sync.state.isActive = true
  · obtain ⟨⟨hunmoved, -⟩, -⟩ := endures hn ha hf
    exact ⟨hunmoved.state, hunmoved.since⟩
  · obtain ⟨⟨d, asked, hm, ho⟩, hs⟩ := hn
    obtain ⟨hsync, -⟩ := inactive_of_failure hm ho hs (by simpa using ha)
    rw [hsync]
    exact ⟨rfl, rfl⟩

/-- Whoever asks is given the current status. -/
theorem reading_of_status {rest : List (Task τ κ)} (hm : m.stack = .perform .status :: rest)
    (hs : m.step w = some n) : n.reading = .status m.sync.status ∧ n.sync = m.sync := by
  obtain rfl := eq_execute hm hs
  exact ⟨rfl, rfl⟩

theorem reading_of_state {rest : List (Task τ κ)} (hm : m.stack = .perform .state :: rest)
    (hs : m.step w = some n) :
    n.reading = .state m.sync.state m.sync.initialized m.store.initialized := by
  obtain rfl := eq_execute hm hs
  rfl

/-- Throughout a run the status tells of its past: the state that the latest change entered, the
moment of the latest change of state, and the reason of the latest failure of a fetch that polls had
an effect for, with its kind, its code, its text and its moment. Whoever asks is told this, and
listeners are told what it was right after each change. -/
theorem status_tells_history (h : Run w r due free (m :: ms)) :
    m.sync.status = statusOf w m.journal ∧
      (∀ e, m.sync.status.error = some e ↔ ∃ clock f before, FailedAt m.journal clock f before ∧
        (∀ c g b, FailedAt m.journal c g b → b.length ≤ before.length) ∧
        f.Recorded (w.epoch + clock) e) ∧
      (∀ n rest, m.stack = .perform .status :: rest → m.step w = some n →
        n.reading = .status (statusOf w m.journal)) ∧
      (∀ n rest, m.stack = .perform .state :: rest → m.step w = some n →
        ∃ i j, n.reading = .state (stateOf m.journal) i j) ∧
      (∀ x y ys, x :: y :: ys <:+ m :: ms → Tenure w y x) ∧
      (∀ n, Silent m → m.step w = some n → n.sync.status = m.sync.status) ∧
      (∀ n f rest, Fails w m f rest n → ¬ f.EndsPolling →
        n.sync.state = m.sync.state ∧ n.sync.since = m.sync.since) ∧
      (NeverBack w (m :: ms) → ∀ x xs, x :: xs <:+ m :: ms → x.sync.since ≤ m.sync.since) ∧
      ∀ k c, (k, c) ∈ tellings m.journal → ∃ x y ys, x :: y :: ys <:+ m :: ms ∧
        y.step w = some x ∧ changes x.journal = c :: changes y.journal ∧
          c.status = x.sync.status := by
  have hstatus := statusOf_of_run h
  refine ⟨hstatus, fun e => ?_, fun n rest hm hs => ?_, fun n rest hm hs => ?_,
    fun x y ys hsuf => ?_, fun n hq hs => status_of_silent h hq hs,
    fun n f rest hn hf => stays_of_failure hn hf, since_le_of_run h,
    fun k c ht => made_of_change h c (change_of_telling h ht)⟩
  · rw [hstatus]
    exact reasonOf_eq_some_iff w
  · rw [(reading_of_status hm hs).1, hstatus]
  · rw [reading_of_state hm hs, stateOf_of_run h]
    exact ⟨_, _, rfl⟩
  · exact tenure_of_run (h.of_suffix hsuf)

omit [BEq κ] in
theorem neverBack_of_pairwise (hr : ∀ t : τ, t ≤ t)
    (h : ms.Pairwise fun n m => m.wallClock w ≤ n.wallClock w) : NeverBack w ms := by
  intro x xs y ys hx hy
  have later := List.pairwise_cons.mp (h.sublist hx.sublist)
  rcases List.suffix_cons_iff.mp hy with he | hy
  · obtain ⟨rfl, rfl⟩ := List.cons.inj he
    exact hr _
  · exact later.1 y (hy.subset List.mem_cons_self)

end Run

/-- A failure that goes away and one that does not, as a listener sees them: it is told of the start
without an error, and of each failure with what it was and when. -/
theorem status_tells_history_unknown : ∃ m ms,
    Run unknown .own (Op.Every fun op => ¬ op.IsPoll) (fun _ => False) (m :: ms) ∧
      NeverBack unknown (m :: ms) ∧
      m.sync.status =
        ⟨.permanentlyFailed, 35, some ⟨.errorResponse, 404, 35, some "HTTP error 404"⟩⟩ ∧
      (tellings m.journal).map (fun t => (t.1, t.2.status)) =
        [(0, ⟨.permanentlyFailed, 35, some ⟨.errorResponse, 404, 35, some "HTTP error 404"⟩⟩),
          (0, ⟨.polling, 5, some ⟨.errorResponse, 503, 5, some "HTTP error 503"⟩⟩),
          (0, ⟨.polling, 5, none⟩)] ∧
      m.sync.status = statusOf unknown m.journal ∧
      (∃ clock f before, FailedAt m.journal clock f before ∧
        f.Recorded (0 + clock) ⟨.errorResponse, 404, 35, some "HTTP error 404"⟩) ∧
      (∀ x xs, x :: xs <:+ m :: ms → x.sync.since ≤ m.sync.since) ∧
      ∀ k c, (k, c) ∈ tellings m.journal → ∃ x y ys, x :: y :: ys <:+ m :: ms ∧
        changes x.journal = c :: changes y.journal ∧ c.status = x.sync.status := by
  have hrun : Run unknown .own (Op.Every fun op => ¬ op.IsPoll) (fun _ => False)
      (watched unknown .own 120 [(1, .addListener 0), (5, .start)]) :=
    run_watched _ _ _ _ _ _ (by
      simpa using ⟨.other (by simp) (by simp [Op.IsPoll]), .other (by simp) Op.not_isPoll_start⟩)
  have hpairwise : (watched unknown .own 120 [(1, .addListener 0), (5, .start)]).Pairwise
      fun n m => m.wallClock unknown ≤ n.wallClock unknown := by decide +kernel
  obtain ⟨m, hm, hlast⟩ := Option.map_eq_some_iff.mp (show
    (watched unknown .own 120 [(1, .addListener 0), (5, .start)]).head?.map (fun m =>
      (m.sync.status, (tellings m.journal).map fun t => (t.1, t.2.status))) =
      some (⟨.permanentlyFailed, 35, some ⟨.errorResponse, 404, 35, some "HTTP error 404"⟩⟩,
        [(0, ⟨.permanentlyFailed, 35, some ⟨.errorResponse, 404, 35, some "HTTP error 404"⟩⟩),
          (0, ⟨.polling, 5, some ⟨.errorResponse, 503, 5, some "HTTP error 503"⟩⟩),
          (0, ⟨.polling, 5, none⟩)]) by decide +kernel)
  obtain ⟨ms, hms⟩ := List.head?_eq_some_iff.mp hm
  rw [hms] at hrun hpairwise
  obtain ⟨hstatus, htold⟩ := Prod.mk.inj hlast
  have hback := neverBack_of_pairwise (fun t : Rat => le_refl t) hpairwise
  obtain ⟨hnow, herror, -, -, -, -, -, hle, htellings⟩ := status_tells_history hrun
  obtain ⟨clock, f, before, hfailed, -, hrecorded⟩ := (herror _).mp (by rw [hstatus])
  refine ⟨m, ms, hrun, hback, hstatus, htold, hnow, ⟨clock, f, before, hfailed, hrecorded⟩,
    hle hback, fun k c ht => ?_⟩
  obtain ⟨x, y, ys, hsuf, -, hmade⟩ := htellings k c ht
  exact ⟨x, y, ys, hsuf, hmade⟩

end Machine
end FlagPoll.Synchronizer
