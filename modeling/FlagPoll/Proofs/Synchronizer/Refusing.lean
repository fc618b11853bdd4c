import FlagPoll.Proofs.Synchronizer.Aftermath

/-!
# FlagPoll.Proofs.Synchronizer.Refusing

Writes that the store refuses.

* `Refuses`   — a fetch brings a data set that the store is going to refuse.
* `Refusing`  — calls are still made in the write, or the store has refused it.
* `Untouched` — a poll that ends in a refusal does nothing but what the calls in the write do.
* `Accepted`  — what a write comes to that the store does not refuse.
* `refused_write_changes_nothing` — all this, and polling goes on by the schedule.
-/

namespace FlagPoll.Synchronizer

variable {τ κ : Type}

/-- What is left to be done after a call. -/
def Task.isTrailing : Task τ κ → Bool
  | .report _ | .leave _ => true
  | _ => false

/-- A write that the store refuses. -/
def Task.IsRefused (message : String) (t : Task τ κ) : Prop :=
  ∃ s cached script, t = .write s cached script ∧ script.raises = some message

theorem Task.IsRefused.clear {message : String} {t : Task τ κ} (n : Nat) (kind : Kind)
    (key : CodePoints) (h : Task.IsRefused message t) :
    Task.IsRefused message (t.clearItem n kind key) := by
  obtain ⟨s, cached, script, rfl, hr⟩ := h
  exact ⟨_, cached, script, rfl, hr⟩

namespace Machine

/-- The synchronizer and the store are the same, and nothing of note has happened. -/
structure Still (m n : Machine τ κ) : Prop where
  sync : n.sync = m.sync
  store : n.store = m.store
  history : n.history = m.history

variable [Time τ] [BEq κ] {w : World τ κ} {r : Requester} {due free : Op τ κ → Prop}
  {m n x y : Machine τ κ} {ms : List (Machine τ κ)} {s : Snapshot} {message : String}
  {rest below : List (Task τ κ)} {depth : Nat}

theorem confines_trailing : Confines w (Task.isTrailing (τ := τ) (κ := κ)) where
  clear n kind key t := by cases t <;> rfl
  pushes m t ht := by
    cases t with
    | report | leave => exact ⟨[], rfl, trivial⟩
    | _ => cases ht

theorem trailing_still {t : Task τ κ} (hx : x.stack = t :: rest) (ht : t.isTrailing = true)
    (hs : x.step w = some y) : Still x y := by
  obtain rfl := eq_execute hx hs
  cases t with
  | report op => exact ⟨rfl, rfl, rfl⟩
  | leave callee => exact ⟨rfl, rfl, rfl⟩
  | _ => cases ht

/-! ## The refusal -/

/-- A fetch returns with a data set while polls have an effect, and the store is going to refuse
it. -/
structure Refuses (w : World τ κ) (m : Machine τ κ) (s : Snapshot) (message : String)
    (rest : List (Task τ κ)) (n : Machine τ κ) : Prop where
  returns : ∃ d asked,
    m.stack = .receive d asked :: rest ∧ (m.requester.receive asked d).2.1 = .ok s
  active : m.sync.state.isActive = true
  raises : (w.write m.callouts).raises = some message
  step : m.step w = some n

/-- Calls are still made in a write that the store is going to refuse, or it has refused it and the
exception leaves the poll. -/
inductive Refusing (message : String) (depth : Nat) (x : Machine τ κ) : Prop where
  | calling (h : Awaits Task.isTrailing (Task.IsRefused message) depth x)
  | refused (hd : x.stack.length = depth) (hr : x.reading = .refused (.storeRefused message))

theorem refusing_step (h : Refusing message depth x) (hd : depth < x.stack.length)
    (hs : x.step w = some y) : Refusing message depth y ∧ (InCall depth x ∨ Still x y) := by
  cases h with
  | refused hlen => exact absurd hlen hd.ne'
  | calling h =>
    rcases h.deep.eq_or_lt with hlast | hdeep
    -- the calls in the write are done, and it raises
    · obtain ⟨t, below, hx, ⟨s, cached, script, rfl, hr⟩, hb⟩ := h.next hlast.symm
      obtain rfl := eq_execute hx hs
      simp only [execute, write, hr]
      exact ⟨.refused hb rfl, .inr ⟨rfl, rfl, rfl⟩⟩
    · obtain ⟨hy, htop⟩ :=
        awaits_step (fun n k key _ => Task.IsRefused.clear n k key) confines_trailing h hdeep hs
      refine ⟨.calling hy, htop.imp_right ?_⟩
      rintro ⟨task, rest, hx, hown⟩
      exact trailing_still hx hown hs

theorem refusing_within (h : Refusing message depth n) (hx : Within w depth n x) :
    Refusing message depth x := by
  induction hx with
  | here => exact h
  | step _ hd hs ih => exact (refusing_step ih hd hs).1

/-- The poll has changed nothing when the write begins, and nothing but the calls that are made in
the write changes anything until the poll has ended. -/
structure Untouched (w : World τ κ) (m : Machine τ κ) (s : Snapshot) (message : String)
    (rest : List (Task τ κ)) (n : Machine τ κ) : Prop where
  sync : n.sync = m.sync.returned
  store : n.store = m.store
  history : n.history = .write s :: .fetched m.clock (.ok s) :: m.history
  inside : ∀ x y, Within w rest.length n x → rest.length < x.stack.length → x.step w = some y →
    InCall rest.length x ∨ Still x y
  raised : ∀ x, Within w rest.length n x → x.stack.length = rest.length →
    x.reading = .refused (.storeRefused message)

theorem step_of_delivery {d : Delivery} {asked : Option CacheEntry}
    (hm : m.stack = .receive d asked :: rest) (ho : (m.requester.receive asked d).2.1 = .ok s)
    (ha : m.sync.state.isActive = true) (hs : m.step w = some n) :
    n.sync = m.sync.returned ∧ n.store = m.store ∧
      n.history = .write s :: .fetched m.clock (.ok s) :: m.history ∧
      ∃ cached, n.stack = callTasks (w.write m.callouts).before ++
        .write s cached (w.write m.callouts) :: rest := by
  have hc : m.sync.state ≠ .closed := fun hc => by simp [hc, Lifecycle.isActive] at ha
  obtain rfl := eq_execute hm hs
  simp only [execute, receive]
  generalize m.requester.receive asked d = received at ho
  obtain ⟨requester, outcome, rs⟩ := received
  obtain rfl : outcome = .ok s := ho
  have hc : m.sync.returned.state ≠ .closed := hc
  have ha : m.sync.returned.state.isActive = true := ha
  simp only [logAll_eq, record, if_neg hc, apply, if_pos ha]
  refine ⟨rfl, rfl, ?_, m.requester.numberOf asked d, by simp [push, calledOut]⟩
  simp [history, push, calledOut, List.filter_cons, Event.isNotable]

theorem untouched_of_refuses (h : Refuses w m s message rest n) :
    Untouched w m s message rest n := by
  obtain ⟨⟨d, asked, hm, ho⟩, ha, hr, hs⟩ := h
  obtain ⟨hsync, hstore, hhistory, cached, hn⟩ := step_of_delivery hm ho ha hs
  have hbegin : Refusing message rest.length n :=
    .calling ⟨_, _, rest, hn, remains_callTasks (fun _ => rfl) _, ⟨s, cached, _, rfl, hr⟩, rfl⟩
  refine ⟨hsync, hstore, hhistory, fun x y hx hd hy => ?_, fun x hx hd => ?_⟩
  · exact (refusing_step (refusing_within hbegin hx) hd hy).2
  · cases refusing_within hbegin hx with
    | refused hlen hreading => exact hreading
    | calling h =>
      have := h.deep
      omega

/-! ## What comes after it -/

/-- A write has returned while no other one had before: polling is initialized, the handle is
resolved, and its callbacks and the listeners are told. -/
structure Completes (w : World τ κ) (y : Machine τ κ) (below : List (Task τ κ)) (z : Machine τ κ) :
    Prop where
  step : y.step w = some z
  pending : y.sync.handle.resolution = none
  sync : z.sync = { y.sync with
    state := .initialized, since := y.wallClock w, sequence := y.sync.sequence + 1,
    handle := ⟨some .succeeded, []⟩ }
  stack : z.stack = y.sync.handle.callbacks.map .invoke ++
    [.notify ⟨z.sync.sequence, z.sync.status⟩, .give .nothing] ++ below

theorem completes (hp : y.sync.handle.resolution = none) (hs : y.sync.state = .polling)
    (hy : y.stack = .written :: below) : ∃ z, Completes w y below z := by
  obtain ⟨t, c, hi⟩ : ∃ t c,
      y.sync.initialize? (wallClock w { y with stack := below }) = some (t, c) :=
    ⟨_, _, initialize?_eq_some.mpr ⟨hs, rfl, rfl⟩⟩
  obtain ⟨-, rfl, rfl⟩ := initialize?_eq_some.mp hi
  refine ⟨_, by rw [step, hy], hp, ?_, ?_⟩ <;>
    simp only [execute, written, hi, resolve, Completion.resolve, log, record, hp] <;> rfl

/-- The store takes a write, and once the calls in it are done the write has returned. -/
structure Accepted (w : World τ κ) (x : Machine τ κ) (s : Snapshot) (depth : Nat)
    (y : Machine τ κ) : Prop where
  step : x.step w = some y
  store : y.store = x.store.init s.allData
  returns : ∀ z, Within w (depth + 1) y z → z.stack.length = depth + 1 → z.sync.state = .polling →
    ∃ below z', z.stack = .written :: below ∧ below.length = depth ∧ Completes w z below z'

theorem accepted_of_write {cached : Option Nat} {script : WriteScript (Op τ κ)}
    (h : Run w r due free (x :: ms)) (hx : x.stack = .write s cached script :: below)
    (hr : script.raises = none) : ∃ y, Accepted w x s below.length y := by
  have hs : x.step w = some (write { x with stack := below } s cached script) := by
    simp only [step, hx, execute]
  have hbegin : Awaits Task.isTrailing (· = .written) below.length
      (write { x with stack := below } s cached script) := by
    refine ⟨callTasks script.after ++ [.leave .write], .written, below, ?_, ?_, rfl, rfl⟩
    · simp [write, hr, logAll_eq, push]
    · exact (remains_callTasks (fun _ => rfl) _).append ⟨.inl rfl, rfl, trivial⟩
  have hkeep (n : Nat) (k : Kind) (key : CodePoints) (t : Task τ κ) (ht : t = .written) :
      t.clearItem n k key = .written := by
    rw [ht]
    rfl
  refine ⟨_, hs, by simp [write, hr, logAll_eq, push], fun z hz hd hpolling => ?_⟩
  obtain ⟨t, below', hstack, rfl, hlen⟩ :=
    (awaits_within hkeep confines_trailing hbegin hz).next hd
  obtain ⟨xs, hrun⟩ := (h.step hs).within hz
  obtain ⟨z', hz'⟩ := completes (w := w) (pending_of_run hrun hpolling) hpolling hstack
  exact ⟨below', z', hstack, hlen, hz'⟩

omit [Time τ] [BEq κ] in
/-- The requester is closed once at most, and once nothing is in progress exactly if the
synchronizer is. -/
theorem Requests.closings_journal (h : Requests m) : closings m.journal ≤ 1 ∧
    ((∀ t ∈ m.stack, t.isBase = true) →
      closings m.journal = if m.sync.state = .closed then 1 else 0) := by
  have hcl : closings m.history = closings m.journal :=
    (filter_isNotable m.journal).2.1
  have hopen := h.opened
  have hclosed := h.closed
  rw [hcl] at hopen hclosed
  constructor
  · by_cases hst : m.sync.state = .closed
    · have := hclosed hst
      omega
    · have := hopen hst
      omega
  · intro hrest
    have hd : m.duties = [] := dutiesOf_eq_nil hrest
    have hreceives : m.receives = 0 := by simp [receives, hd]
    have hcloses : m.closes = 0 := by simp [closes, hd]
    split
    · rename_i hst
      have := hclosed hst
      omega
    · rename_i hst
      have := hopen hst
      omega

theorem Refuses.unfailed (h : Refuses w m s message rest n) :
    n.sync.state ≠ .permanentlyFailed := by
  intro hf
  have ha := h.active
  rw [(untouched_of_refuses h).sync] at hf
  have hf : m.sync.state = .permanentlyFailed := hf
  simp [hf, Lifecycle.isActive] at ha

/-- A write that the store refuses changes nothing but what the calls in it do. The next fetch
begins by the schedule, the first write that returns later counts as the first one, and the
requester is closed once whenever the synchronizer is closed. -/
theorem refused_write_changes_nothing :
    (∀ {τ : Type} [Time τ] (w : World τ κ) (r : Requester) (due free : Op τ κ → Prop)
      (m n : Machine τ κ) (ms : List (Machine τ κ)) (s : Snapshot) (message : String)
      (rest : List (Task τ κ)),
      Run w r due free (m :: ms) → Refuses w m s message rest n →
      Untouched w m s message rest n ∧
      ∀ x xs s' cached script below, Run w r due free (x :: xs) → n :: m :: ms <:+ x :: xs →
        x.stack = .write s' cached script :: below → script.raises = none →
        ∃ y, Accepted w x s' below.length y) ∧
    (∀ {τ : Type} [Time τ] (w : World τ κ) (r : Requester) (m n x : Machine τ κ)
      (ms xs : List (Machine τ κ)) (s : Snapshot) (message : String) (rest : List (Task τ κ)),
      w.Every (fun op => ¬ op.IsPoll) → Refuses w m s message rest n →
      Run w r (Op.Every fun op => ¬ op.IsPoll) (Op.Outer (fun op => ¬ op.IsPoll) fun _ => True)
        (x :: xs) → n :: m :: ms <:+ x :: xs →
      closings x.journal ≤ 1 ∧ ((∀ t ∈ x.stack, t.isBase = true) →
        closings x.journal = if x.sync.state = .closed then 1 else 0)) ∧
    (∀ {τ : Type} [Time τ] (w : World τ κ) (r : Requester) (m n x : Machine τ κ)
      (ms xs : List (Machine τ κ)) (s : Snapshot) (message : String) (rest : List (Task τ κ)),
      w.Every (fun op => ¬ op.IsPoll) → Refuses w m s message rest n →
      Run w r (Op.Every fun op => ¬ op.IsPoll) (fun _ => False) (x :: xs) →
      n :: m :: ms <:+ x :: xs → Exact (x :: xs) → x.stack = [] → Resumes w n x xs) ∧
    ∀ (w : World Rat κ) (r : Requester) (m n : Machine Rat κ) (ms : List (Machine Rat κ))
      (s : Snapshot) (message : String) (rest : List (Task Rat κ)),
      w.Every (fun op => ¬ op.IsPoll) → Refuses w m s message rest n →
      Run w r (Op.Every fun op => ¬ op.IsPoll) (fun _ => False) (m :: ms) →
      0 < w.interval → Returning w n →
      ∃ x xs, Run w r (Op.Every fun op => ¬ op.IsPoll) (fun _ => False) (x :: xs) ∧
        n :: m :: ms <:+ x :: xs ∧ x.stack = [] ∧ Resumes w n x xs := by
  refine ⟨?_, ?_, ?_, ?_⟩
  · intro τ _ w r due free m n ms s message rest h hn
    exact ⟨untouched_of_refuses hn,
      fun x xs s' cached script below hrun hsuf hx hr => accepted_of_write hrun hx hr⟩
  · intro τ _ w r m n x ms xs s message rest hw hn h hsuf
    exact (requests_of_run hw h).closings_journal
  · intro τ _ w r m n x ms xs s message rest hw hn h hsuf hx hend
    obtain ⟨d, asked, hm, -⟩ := hn.returns
    exact resumes_of_receive hw hm hn.step hn.unfailed h hsuf hx hend
  · intro w r m n ms s message rest hw hn h hi hret
    obtain ⟨d, asked, hm, -⟩ := hn.returns
    exact comes_to_resume hi hw h hm hn.step hn.unfailed hret

/-- A fetch of a requester of the caller's own is about to return with a data set. -/
def isBringing (m : Machine τ κ) : Bool :=
  match m.stack with
  | .receive (.fetched (.ok _)) _ :: _ => true
  | _ => false

/-- What comes of a write that gets under way: perhaps an exception. -/
def writing? (m : Machine τ κ) : Option (Option String) :=
  match m.stack with
  | .write _ _ script :: _ => some script.raises
  | _ => none

theorem refuses_of_bringing {l : List (Machine τ κ)} {i : Nat} {a : String}
    (h : Run w r due (fun _ => False) l)
    (hl : l[i + 1]?.map (fun m => (m.isBringing, m.sync.state.isActive,
      (w.write m.callouts).raises)) = some (true, true, some a)) :
    ∃ m n ms s rest, n :: m :: ms = l.drop i ∧ l[i]? = some n ∧
      Run w r due (fun _ => False) (m :: ms) ∧ Refuses w m s a rest n := by
  obtain ⟨m, hm, hf⟩ := Option.map_eq_some_iff.mp hl
  obtain ⟨n, ms, hdrop, hn, hrun, hstep⟩ := h.drop hm
  simp only [Prod.mk.injEq, isBringing] at hf
  obtain ⟨hb, ha, hr⟩ := hf
  split at hb
  · rename_i s asked rest hstack
    exact ⟨m, n, ms, s, rest, hdrop, hn, hrun,
      ⟨_, asked, hstack, by cases m.requester <;> rfl⟩, ha, hr, hstep⟩
  · cases hb

omit [Time τ] [BEq κ] in
theorem writing?_eq_some {raises : Option String} (h : m.writing? = some raises) :
    ∃ s cached script below, m.stack = .write s cached script :: below ∧
      script.raises = raises := by
  unfold writing? at h
  split at h
  · rename_i s cached script below hm
    exact ⟨s, cached, script, below, hm, Option.some.inj h⟩
  · cases h

/-- The store refuses the first write. In each write a call is made. -/
def crammed : World Rat Nat where
  interval := 30
  epoch := 0
  horizon := 100
  response _ := ⟨0, [], .fetched (.ok .empty)⟩
  write n := ⟨[.status], if n = 1 then some "full" else none, []⟩
  closing _ := ⟨[], none⟩
  listener _ _ _ := ⟨[], none⟩
  callback _ _ _ := ⟨[], none⟩

/-- The second fetch begins on time, its write returns, and the synchronizer is closed later. -/
theorem refused_write_changes_nothing_crammed : ∃ x xs,
    Run crammed .own (Op.Every fun op => ¬ op.IsPoll) (fun _ => False) (x :: xs) ∧
      fetchStarts x = [5, 35] ∧ x.sync.state = .closed ∧ closings x.journal = 1 ∧
      ∃ m n ms s rest, n :: m :: ms <:+ x :: xs ∧ Refuses crammed m s "full" rest n ∧
        Untouched crammed m s "full" rest n ∧ Resumes crammed n x xs ∧
        (∃ y ys, y.stack = [] ∧ n :: m :: ms <:+ y :: ys ∧ Resumes crammed n y ys) ∧
        ∃ y z ys s' depth, n :: m :: ms <:+ y :: ys ∧ Accepted crammed y s' depth z := by
  have hstatus : (Op.status : Op Rat Nat).Every fun op => ¬ op.IsPoll :=
    .other (by simp) (by rintro ⟨own, h⟩; cases h)
  have hw : crammed.Every fun op => ¬ op.IsPoll := by constructor <;> simp [crammed, hstatus]
  have hcalls : ∀ e ∈ [((5 : Rat), (.start : Op Rat Nat)), (50, .close)],
      e.2.Every fun op => ¬ op.IsPoll := by
    simp only [List.forall_mem_cons, List.not_mem_nil, false_implies, implies_true, and_true]
    exact ⟨.other (by simp) Op.not_isPoll_start, .other (by simp) Op.not_isPoll_close⟩
  have hrun : Run crammed .own (Op.Every fun op => ¬ op.IsPoll) (fun _ => False)
      (watched crammed .own 80 [(5, .start), (50, .close)]) := run_watched _ _ _ _ _ _ hcalls
  obtain ⟨x, hx, hlast⟩ := Option.map_eq_some_iff.mp (show
    (watched crammed .own 80 [(5, .start), (50, .close)]).head?.map (fun x =>
      (x.stack.isEmpty, fetchStarts x, x.sync.state)) = some (true, [5, 35], .closed) by
        decide +kernel)
  obtain ⟨xs, hxs⟩ := List.head?_eq_some_iff.mp hx
  obtain ⟨hstack, hstarts, hclosed⟩ : x.stack = [] ∧ fetchStarts x = [5, 35] ∧
    x.sync.state = .closed := by simpa using hlast
  obtain ⟨m, n, ms, s, rest, hdrop, hn, hbefore, hrefuses⟩ :=
    refuses_of_bringing (i := 31) (a := "full") hrun (by decide +kernel)
  obtain ⟨n', hn', hend⟩ := Option.map_eq_some_iff.mp (show
    (watched crammed .own 80 [(5, .start), (50, .close)])[31]?.map (fun n =>
      (run crammed 60 n).stack.isEmpty) = some true by decide +kernel)
  obtain rfl := Option.some.inj (hn'.symm.trans hn)
  obtain ⟨y, hy, hwriting⟩ := Option.bind_eq_some_iff.mp (show
    (watched crammed .own 80 [(5, .start), (50, .close)])[18]?.bind writing? = some none by
      decide +kernel)
  obtain ⟨s', cached, script, below, hwrite, hr⟩ := writing?_eq_some hwriting
  obtain ⟨ys, hys⟩ := List.head?_eq_some_iff.mp (List.head?_drop.trans hy)
  have hlater : n' :: m :: ms <:+ y :: ys := by
    rw [hdrop, ← hys]
    exact List.drop_suffix_drop_left _ (by decide)
  have hyrun := hrun.of_suffix (hys ▸ List.drop_suffix _ _)
  rw [hxs] at hrun hdrop
  have hsuf : n' :: m :: ms <:+ x :: xs := hdrop ▸ List.drop_suffix 31 (x :: xs)
  obtain ⟨hall, hclosings, hresumes, hexact⟩ := @refused_write_changes_nothing Nat _
  obtain ⟨huntouched, haccepted⟩ := hall _ _ _ _ _ _ _ _ _ _ hbefore hrefuses
  obtain ⟨z, hz⟩ := haccepted y ys s' cached script below hyrun hlater hwrite hr
  obtain ⟨e, es, -, hesuf, heend, he⟩ := hexact _ _ _ _ _ _ _ _ hw hrefuses hbefore
    (by decide +kernel) (returning_of_end (List.isEmpty_iff.mp hend))
  obtain ⟨-, hclosed'⟩ := hclosings _ _ _ _ _ _ _ _ _ _ hw hrefuses
    (hrun.mono (fun _ ho => ho) fun _ ho => ho.elim) hsuf
  exact ⟨x, xs, hrun, hstarts, hclosed, by simpa [hstack, hclosed] using hclosed',
    m, n', ms, s, rest, hsuf, hrefuses, huntouched,
    hresumes _ _ _ _ _ _ _ _ _ _ hw hrefuses hrun hsuf (exact_rat _) hstack,
    ⟨e, es, heend, hesuf, he⟩, y, z, ys, s', below.length, hlater, hz⟩

end Machine
end FlagPoll.Synchronizer
