import FlagPoll.Proofs.Synchronizer.Fetching
import FlagPoll.Proofs.Synchronizer.Supply

/-!
# FlagPoll.Proofs.Synchronizer.Landing

Which data sets the store is handed over a whole run.

* `writes`, `landed` — what the store has been called with, and what the fetches brought that
  returned while polls had an effect.
* `Stocked`          — what the store holds while a fetch or its write is under way.
* `store_receives_landed` — in every run the store is called with what has landed; nothing comes
  once polling is over, and a failure that ends it leaves the store as it is.
-/

namespace FlagPoll.Synchronizer

variable {τ κ : Type}

/-! ## What the journal tells of the store -/

/-- What the store has been called with, the latest first. -/
def writes : List (Event τ κ) → List (List (Kind × Items))
  | [] => []
  | .write s :: j => s.allData :: writes j
  | _ :: j => writes j

/-- What the fetches brought that returned with a data set in a state in which polls have an
effect, the latest first. -/
def landed : List (Event τ κ) → List (List (Kind × Items))
  | [] => []
  | .fetched _ (.ok s) :: j =>
    if stateOf j = .polling ∨ stateOf j = .initialized then s.allData :: landed j else landed j
  | _ :: j => landed j

theorem filter_isNotable_landed (j : List (Event τ κ)) :
    writes (j.filter Event.isNotable) = writes j ∧ landed (j.filter Event.isNotable) = landed j := by
  induction j with
  | nil => exact ⟨rfl, rfl⟩
  | cons e j ih =>
    obtain ⟨hw, hl⟩ := ih
    cases e with
    | fetched clock o =>
      rw [List.filter_cons_of_pos rfl]
      cases o <;> simp [writes, landed, hw, hl, Machine.stateOf_filter]
    | _ => simp_all [writes, landed, Event.isNotable, List.filter_cons]

theorem isActive_iff {s : Lifecycle} : s.isActive = true ↔ s = .polling ∨ s = .initialized := by
  cases s <;> simp [Lifecycle.isActive]

namespace Machine

section Turn

variable [Time τ] {w : World τ κ} {m n : Machine τ κ}

/-- The store is called as soon as a fetch lands, and at no other time. -/
theorem landed_turn (h : writes m.history = landed m.history)
    (hst : stateOf m.history = m.sync.state)
    (hp : m.sync.state = .polling → m.sync.handle.resolution = none) (ht : Turn w m n) :
    writes n.history = landed n.history := by
  cases ht with
  | discard o rest hc hs hd hd' hh =>
    rw [hh]
    cases o <;> simp [writes, landed, h, hst, hc]
  | ignore o hc ha hs hd hh =>
    have hno : ¬ (m.sync.state = .polling ∨ m.sync.state = .initialized) := by
      rw [← isActive_iff]
      simp [ha]
    rw [hh]
    cases o <;> simp [writes, landed, h, hst, hno]
  | store s rest ha hs hd hd' hh =>
    rw [hh]
    simp [writes, landed, h, hst, isActive_iff.mp ha]
  | twice hs hr => exact absurd (hp hs) hr
  | _ => simp_all [writes, landed]

/-- Once polling is over it stays so, and the store is not called any more. -/
theorem over_turn (h : m.sync.state = .closed ∨ m.sync.state = .permanentlyFailed)
    (ht : Turn w m n) : (n.sync.state = .closed ∨ n.sync.state = .permanentlyFailed) ∧
      writes n.history = writes m.history := by
  have hidle : m.sync.state.isActive = false := by
    rcases h with h | h <;> rw [h] <;> rfl
  cases ht with
  | start c hs =>
    have hst := (begin?_eq_some.mp hs).1
    simp [hst] at h
  | close c hs hd hh =>
    obtain ⟨-, hn, -⟩ := close?_eq_some.mp hs
    exact ⟨.inl (by rw [hn]), by rw [hh]; rfl⟩
  | deliver c rest below hs hm hd hd' hh =>
    obtain ⟨-, hn⟩ := admit?_eq_some.mp hs
    exact ⟨by rwa [hn], by rw [hh]; rfl⟩
  | fetch own rest q hm hs =>
    have ha := (poll?_eq_some.mp hs).1
    simp [hidle] at ha
  | store s rest ha => simp [hidle] at ha
  | recover f c rest hf hs =>
    have ha : m.sync.state.isActive = true := (recover?_eq_some.mp hs).1
    simp [hidle] at ha
  | giveUp f s c rest hf hg =>
    have ha : m.sync.state.isActive = true := (giveUp?_eq_some.mp hg).1
    simp [hidle] at ha
  | succeed s c rest hi =>
    have hst := (initialize?_eq_some.mp hi).1
    simp [hst] at h
  | twice hs => simp [hs] at h
  | _ => simp_all [writes, returned]

/-- Polling ends with a failure only when a fetch returns, and the store is not called then. -/
theorem failed_turn (hn : n.sync.state = .permanentlyFailed)
    (hp : m.sync.state = .polling → m.sync.handle.resolution = none) (ht : Turn w m n) :
    (m.sync.state = .permanentlyFailed ∨ .receive ∈ m.duties) ∧
      (.write ∈ n.duties → .write ∈ m.duties) := by
  cases ht with
  | start c hs =>
    obtain ⟨-, he, -⟩ := begin?_eq_some.mp hs
    simp [he] at hn
  | close c hs =>
    obtain ⟨-, he, -⟩ := close?_eq_some.mp hs
    simp [he] at hn
  | deliver c rest below hs hm hd hd' =>
    obtain ⟨-, he⟩ := admit?_eq_some.mp hs
    rw [he] at hn
    exact ⟨.inl hn, by simp [hd, hd']⟩
  | fetch own rest q hm hs hd =>
    obtain ⟨-, he⟩ := poll?_eq_some.mp hs
    rw [he] at hn
    exact ⟨.inl hn, by simp [hd]⟩
  | store s rest ha hs hd hd' =>
    have hst : m.sync.state = .permanentlyFailed := by
      rw [hs] at hn
      exact hn
    simp [hst, Lifecycle.isActive] at ha
  | succeed s c rest hi hs =>
    obtain ⟨-, rfl, -⟩ := initialize?_eq_some.mp hi
    simp [hs] at hn
  | recover f c rest hf hs hd hd' => exact ⟨.inr (by simp [hd]), by simp [hd, hd']⟩
  | giveUp f s c rest hf hg hs hd hd' => exact ⟨.inr (by simp [hd]), by simp [hd, hd']⟩
  | twice hs hr => exact absurd (hp hs) hr
  | _ => simp_all [returned]

end Turn

/-! ## What the store holds -/

theorem calloutsOf_append_logged (log : List Log.Record) (j : List (Event τ κ)) :
    calloutsOf (log.map .logged ++ j) = calloutsOf j := by
  induction log with
  | nil => rfl
  | cons r log ih => exact ih

/-- What is going to bring a data set or to hand it on, and what the store holds meanwhile. -/
inductive Stock (w : World τ κ) (m : Machine τ κ) : Prop where
  | idle (hs : m.supplies = []) (hst : m.store.contents = contentsOf (applied w m.journal))
  | fetching (d : Delivery) (asked : Option CacheEntry) (hs : m.supplies = [.receive d asked])
      (hst : m.store.contents = contentsOf (applied w m.journal))
  /-- The store is going to refuse what it is handed. -/
  | refusing (s : Snapshot) (cached : Option Nat) (script : WriteScript (Op τ κ))
      (hs : m.supplies = [.write s cached script]) (hr : script.raises ≠ none)
      (hst : m.store.contents = contentsOf (applied w m.journal))
  | taking (i : Nat) (s : Snapshot) (cached : Option Nat) (script : WriteScript (Op τ κ))
      (hs : m.supplies = [.write s cached script]) (hr : script.raises = none)
      (ha : applied w m.journal = some (i, s))

structure Stocked (w : World τ κ) (m : Machine τ κ) : Prop where
  callouts : m.callouts = calloutsOf m.journal
  stock : Stock w m

section Stocked

variable {w : World τ κ} {m n : Machine τ κ}

theorem Stocked.keep (h : Stocked w m) (hk : Keeps m n) (hs : n.supplies = m.supplies) :
    Stocked w n := by
  obtain ⟨-, hst, -, es, hj, hes, hc⟩ := hk
  have happ : applied w n.journal = applied w m.journal := by
    rw [hj]
    exact applied_append hes m.journal
  refine ⟨?_, ?_⟩
  · rw [hc, hj, calloutsOf_append, h.callouts]
    omega
  · cases h.stock with
    | idle hs' hst' => exact .idle (by rw [hs, hs']) (by rw [hst, happ, hst'])
    | fetching d asked hs' hst' =>
      exact .fetching d asked (by rw [hs, hs']) (by rw [hst, happ, hst'])
    | refusing s cached script hs' hr hst' =>
      exact .refusing s cached script (by rw [hs, hs']) hr (by rw [hst, happ, hst'])
    | taking i s cached script hs' hr ha =>
      exact .taking i s cached script (by rw [hs, hs']) hr (by rw [happ, ha])

theorem Stocked.fetch (h : Stocked w m) (d : Delivery) (asked : Option CacheEntry)
    {request : Option Request} (hs : m.supplies = []) (hs' : n.supplies = [.receive d asked])
    (hst : n.store = m.store) (hj : n.journal = .fetch m.clock request :: m.journal)
    (hc : n.callouts = m.callouts + 1) : Stocked w n := by
  refine ⟨by rw [hc, hj, h.callouts]; rfl, ?_⟩
  cases h.stock with
  | idle _ hst' => exact .fetching d asked hs' (by rw [hst, hst', hj]; rfl)
  | _ => simp_all

/-- A fetch has returned, and the store is to take what it brings if polls still have an effect. -/
theorem Stocked.receive (h : Stocked w m) (hst : stateOf m.journal = m.sync.state)
    {d : Delivery} {asked : Option CacheEntry} {rest : List (Task τ κ)}
    {o : Except Failure Snapshot} {log : List Log.Record}
    (hs : m.supplies = .receive d asked :: rest) (hstore : n.store = m.store)
    (hj : n.journal = .fetched m.clock o :: (log.map .logged ++ m.journal))
    (hc : n.callouts = m.callouts)
    (hs' : (n.supplies = rest ∧ ∀ s, o = .ok s → m.sync.state.isActive = false) ∨
      ∃ s cached, o = .ok s ∧ m.sync.state.isActive = true ∧
        n.supplies = .write s cached (w.write m.callouts) :: rest) : Stocked w n := by
  obtain ⟨rfl, hcontents⟩ : rest = [] ∧ m.store.contents = contentsOf (applied w m.journal) := by
    cases h.stock with
    | fetching d' asked' hs'' hst' =>
      rw [hs] at hs''
      exact ⟨(List.cons.inj hs'').2, hst'⟩
    | _ => simp_all
  have hlog : ∀ e ∈ log.map (Event.logged (τ := τ) (κ := κ)), e.isTransfer = false := by
    simp [Event.isTransfer]
  have happ : applied w (log.map .logged ++ m.journal) = applied w m.journal :=
    applied_append hlog m.journal
  have hcalls : calloutsOf (log.map .logged ++ m.journal) = m.callouts := by
    rw [calloutsOf_append_logged, h.callouts]
  have hstate : stateOf (log.map .logged ++ m.journal) = m.sync.state := by
    rw [stateOf_logged, hst]
  refine ⟨by rw [hc, hj]; exact hcalls.symm, ?_⟩
  rcases hs' with ⟨hs', hidle⟩ | ⟨s, cached, rfl, hactive, hs'⟩
  · have happn : applied w n.journal = applied w m.journal := by
      rw [hj]
      cases o with
      | error f => exact happ
      | ok s => simp [applied, hstate, hidle s rfl, happ]
    exact .idle hs' (by rw [hstore, hcontents, happn])
  · by_cases hraise : (w.write m.callouts).raises = none
    · refine .taking (fetches (log.map .logged ++ m.journal) - 1) s cached _ hs' hraise ?_
      simp [hj, applied, hstate, hactive, hcalls, hraise]
    · refine .refusing s cached _ hs' hraise ?_
      simp [hj, applied, hcalls, hraise, hstore, hcontents, happ]

theorem Stocked.write (h : Stocked w m) {s : Snapshot} {cached : Option Nat}
    {script : WriteScript (Op τ κ)} {rest : List (Task τ κ)} {log : List Log.Record}
    (hs : m.supplies = .write s cached script :: rest) (hs' : n.supplies = rest)
    (hj : n.journal = log.map .logged ++ m.journal) (hc : n.callouts = m.callouts)
    (hst : n.store = if script.raises = none then m.store.init s.allData else m.store) :
    Stocked w n := by
  have hlog : ∀ e ∈ log.map (Event.logged (τ := τ) (κ := κ)), e.isTransfer = false := by
    simp [Event.isTransfer]
  have happ : applied w n.journal = applied w m.journal := by
    rw [hj]
    exact applied_append hlog m.journal
  refine ⟨by rw [hc, hj, calloutsOf_append_logged, h.callouts], ?_⟩
  cases h.stock with
  | refusing t cached' script' hsup hraise hcontents =>
    obtain ⟨⟨rfl, rfl, rfl⟩, rfl⟩ : (s = t ∧ cached = cached' ∧ script = script') ∧ rest = [] := by
      simpa [hs] using hsup
    exact .idle hs' (by rw [hst, if_neg hraise, happ, hcontents])
  | taking i t cached' script' hsup hraise ha =>
    obtain ⟨⟨rfl, rfl, rfl⟩, rfl⟩ : (s = t ∧ cached = cached' ∧ script = script') ∧ rest = [] := by
      simpa [hs] using hsup
    refine .idle hs' ?_
    rw [hst, if_pos hraise, happ, ha]
    rfl
  | _ => simp_all

theorem Stocked.move (h : Stocked w m) (hst : stateOf m.journal = m.sync.state)
    (hmove : Move w m n) : Stocked w n := by
  cases hmove with
  | keep hk hs => exact h.keep hk hs
  | fetch hs hs' hr hstore hn hj hc => exact h.fetch _ _ hs hs' hstore hj hc
  | write s cached script rest hs hs' hr hn hj hc hstore =>
    obtain ⟨log, hj⟩ := hj
    exact h.write hs hs' hj hc hstore
  | receive d asked rest x log hs hr hstore hn hj hc hk hs' =>
    have hx : Stocked w { x with stack := n.stack } := h.receive hst hs hstore hj hc hs'
    exact hx.keep ⟨hk.requester, hk.store, hk.responses, hk.journal⟩ rfl

theorem receive_of_duty {t : Task τ κ} (h : t.duty? = some .receive) :
    ∃ d asked, t = .receive d asked := by
  cases t <;> simp_all [Task.duty?]

theorem write_of_duty {t : Task τ κ} (h : t.duty? = some .write) :
    ∃ s cached script, t = .write s cached script := by
  cases t <;> simp_all [Task.duty?]

/-- A fetch is not under way together with a write. -/
theorem Stock.apart (h : Stock w m) (hr : .receive ∈ m.duties) : .write ∉ m.duties := by
  intro hw
  obtain ⟨t, ht, hd⟩ := List.mem_filterMap.mp hr
  obtain ⟨d, asked, rfl⟩ := receive_of_duty hd
  obtain ⟨u, hu, hd⟩ := List.mem_filterMap.mp hw
  obtain ⟨s, cached, script, rfl⟩ := write_of_duty hd
  have hmem : .receive d asked ∈ m.supplies := List.mem_filter.mpr ⟨ht, rfl⟩
  have hmem' : .write s cached script ∈ m.supplies := List.mem_filter.mpr ⟨hu, rfl⟩
  cases h <;> simp_all

theorem write_mem_duties {s : Snapshot} {cached : Option Nat} {script : WriteScript (Op τ κ)}
    (h : .write s cached script ∈ m.stack) : .write ∈ m.duties :=
  List.mem_filterMap.mpr ⟨_, h, rfl⟩

variable [Time τ]

theorem stocked_poll {own : Option (Response τ (Op τ κ))} {rest : List (Task τ κ)}
    (h : Stocked w m) (hm : m.stack = .poll own :: rest) (hall : ∀ t ∈ rest, t.isBase = true) :
    Stocked w (poll w { m with stack := rest } own) := by
  have hnone : rest.filter Task.isSupply = [] := filter_isSupply_of_isBase hall
  have hs : m.supplies = [] := by
    rw [supplies, hm, List.filter_cons_of_neg (by simp [Task.isSupply]), hnone]
  have hcalls (ops : List (Op τ κ)) : (callTasks ops).filter Task.isSupply = [] :=
    filter_isSupply_callTasks ops
  simp only [poll]
  split
  · exact h.keep (.same rfl rfl rfl rfl rfl) (by rw [hs]; exact hnone)
  · cases own with
    | none =>
      refine h.fetch (w.response m.responses).delivery m.requester.cached hs ?_ rfl rfl rfl
      simp [respond, push, calledOut, record, supplies, List.filter_cons, Task.isSupply, hcalls,
        hnone]
    | some r =>
      refine h.fetch r.delivery m.requester.cached hs ?_ rfl rfl rfl
      simp [respond, push, calledOut, record, supplies, List.filter_cons, Task.isSupply, hcalls,
        hnone]

theorem stocked_step [BEq κ] {q : Option (Response τ (Op τ κ)) → Prop} (h : Stocked w m)
    (hst : stateOf m.journal = m.sync.state) (hcalls : Calls Op.IsGentle q m)
    (hs : m.step w = some n) : Stocked w n := by
  obtain ⟨task, rest, hm, rfl⟩ := step_eq_some.mp hs
  by_cases hp : ∃ own, task = .poll own
  · obtain ⟨own, rfl⟩ := hp
    exact stocked_poll h hm (hcalls.isBase hm rfl)
  · exact h.move hst (move_of_not_poll hcalls hm fun own ht => hp ⟨own, ht⟩)

end Stocked

/-! ## Runs -/

/-- Callees make calls of one kind only, and so do calls at given moments and calls from outside,
besides polls from there. -/
structure Confined (p : Op τ κ → Prop) (w : World τ κ) (due free : Op τ κ → Prop) : Prop where
  callees : w.Every p
  due : ∀ op, due op → op.Every p
  free : ∀ op, free op → op.Outer p fun _ => True

section Run

variable [Time τ] [BEq κ] {w : World τ κ} {r : Requester} {due free : Op τ κ → Prop}
  {m : Machine τ κ} {ms : List (Machine τ κ)}

theorem landed_of_run (h : Run w r due free (m :: ms)) : writes m.journal = landed m.journal := by
  suffices hh : writes m.history = landed m.history by
    rwa [history, (filter_isNotable_landed _).1, (filter_isNotable_landed _).2] at hh
  induction h using Run.head_induction with
  | create => rfl
  | timeline calls hd => rfl
  | call x xs op h hs ho ih => exact ih
  | step x y xs h hs ih =>
    have hst : stateOf x.history = x.sync.state := by
      rw [history, stateOf_filter, stateOf_of_run h]
    exact landed_turn ih hst (pending_of_run h) (turn_of_step hs)

theorem over_of_run (h : Run w r due free (m :: ms)) : ∀ x ∈ ms,
    x.sync.state = .closed ∨ x.sync.state = .permanentlyFailed →
      (m.sync.state = .closed ∨ m.sync.state = .permanentlyFailed) ∧
        writes m.journal = writes x.journal := by
  induction h using Run.head_induction with
  | create => simp
  | timeline calls hd => simp
  | call y ys op h hs ho ih =>
    intro x hx hover
    rcases List.mem_cons.mp hx with rfl | hx
    · exact ⟨hover, rfl⟩
    · exact ih x hx hover
  | step y n ys h hs ih =>
    intro x hx hover
    have hy : (y.sync.state = .closed ∨ y.sync.state = .permanentlyFailed) ∧
        writes y.journal = writes x.journal := by
      rcases List.mem_cons.mp hx with rfl | hx
      · exact ⟨hover, rfl⟩
      · exact ih x hx hover
    obtain ⟨hn, hw⟩ := over_turn hy.1 (turn_of_step hs)
    rw [history, history, (filter_isNotable_landed _).1, (filter_isNotable_landed _).1] at hw
    exact ⟨hn, hw.trans hy.2⟩

section Gentle

variable (hw : w.Every Op.IsGentle)
include hw

theorem calls_of_gentle
    (h : Run w r (Op.Every Op.IsGentle) (Op.Outer Op.IsGentle fun _ => True) (m :: ms)) :
    Calls Op.IsGentle (fun _ => True) m := by
  exact calls_of_run (fun _ hop => hop.1) hw Op.isGentle_close trivial h m List.mem_cons_self

theorem stocked_of_run
    (h : Run w r (Op.Every Op.IsGentle) (Op.Outer Op.IsGentle fun _ => True) (m :: ms)) :
    Stocked w m := by
  induction h using Run.head_induction with
  | create => exact ⟨rfl, .idle rfl rfl⟩
  | timeline calls hd => exact ⟨rfl, .idle rfl rfl⟩
  | call x xs op h hs ho ih =>
    refine ih.keep (.same rfl rfl rfl rfl rfl) ?_
    simp [supplies, hs, Task.isSupply]
  | step x y xs h hs ih => exact stocked_step ih (stateOf_of_run h) (calls_of_gentle hw h) hs

/-- No write is under way once a failure has ended polling. -/
theorem state_ne_of_write
    (h : Run w r (Op.Every Op.IsGentle) (Op.Outer Op.IsGentle fun _ => True) (m :: ms)) :
    .write ∈ m.duties → m.sync.state ≠ .permanentlyFailed := by
  induction h using Run.head_induction with
  | create => simp [create, duties]
  | timeline calls hd => simp [duties, Task.duty?]
  | call x xs op h hs ho ih => simp [duties, Task.duty?]
  | step x y xs h hs ih =>
    intro hwrite hfail
    obtain ⟨hx, hold⟩ := failed_turn hfail (pending_of_run h)
      (turn_of_step hs)
    rcases hx with hx | hx
    · exact ih (hold hwrite) hx
    · exact (stocked_of_run hw h).stock.apart hx (hold hwrite)

/-- A failure that ends polling leaves the store as it is, and so does all that comes after it. -/
theorem store_of_failed
    (h : Run w r (Op.Every Op.IsGentle) (Op.Outer Op.IsGentle fun _ => True) (m :: ms))
    {n : Machine τ κ} (hs : m.step w = some n) (hn : n.sync.state = .permanentlyFailed) :
    n.store = m.store := by
  obtain ⟨hm, -⟩ := failed_turn hn (pending_of_run h) (turn_of_step hs)
  have hno : .write ∉ m.duties := by
    rcases hm with hm | hm
    · exact fun hwrite => state_ne_of_write hw h hwrite hm
    · exact (stocked_of_run hw h).stock.apart hm
  obtain ⟨task, rest, hstack, rfl⟩ := step_eq_some.mp hs
  by_cases hp : ∃ own, task = .poll own
  · obtain ⟨own, rfl⟩ := hp
    simp only [execute, poll]
    split
    · rfl
    · cases own <;> rfl
  · cases move_of_not_poll (calls_of_gentle hw h) hstack fun own ht => hp ⟨own, ht⟩ with
    | keep hk => exact hk.store
    | fetch hs hs' hr hst => exact hst
    | receive d asked rest x log hs hr hst hn hj hc hk => exact hk.store.trans hst
    | write s cached script below hs =>
      have hmem : .write s cached script ∈ m.supplies := by simp [hs]
      exact absurd (write_mem_duties (List.mem_filter.mp hmem).1) hno

end Gentle

/-- Whatever fetches bring and whoever makes calls meanwhile: the store is called exactly with the
data sets of the fetches that return while polls have an effect, in order and once each, and no more
once polling is over. Where callees make no polls, fetches do not overlap; where they do not empty
items that they are handed either, the store holds the latest one of these data sets that it has not
refused, and a failure that ends polling leaves it so. -/
theorem store_receives_landed (h : Run w r due free (m :: ms)) :
    (stateOf m.journal = m.sync.state ∧ writes m.journal = landed m.journal) ∧
    (∀ x ∈ ms, x.sync.state = .closed ∨ x.sync.state = .permanentlyFailed →
      writes m.journal = writes x.journal) ∧
    (Confined (fun op => ¬ op.IsPoll) w due free → flying m.journal ≤ 1) ∧
    (Confined Op.IsGentle w due free →
      ((∀ s cached script, .write s cached script ∉ m.stack) ∨
          m.sync.state = .permanentlyFailed →
        m.store.contents = contentsOf (applied w m.journal) ∧
        ∀ kind, m.store.items kind = (applied w m.journal).elim [] fun a => a.2.items kind) ∧
      ∀ n, m.step w = some n → n.sync.state = .permanentlyFailed → n.store = m.store) := by
  refine ⟨⟨stateOf_of_run h, landed_of_run h⟩, fun x hx hover => (over_of_run h x hx hover).2,
    ?_, ?_⟩
  · intro hc
    have hreq := requests_of_run hc.callees (h.mono hc.due hc.free)
    have hfly := hreq.flying
    rw [history, (filter_isNotable _).1, hreq.fetching] at hfly
    rw [hfly]
    exact Bool.toNat_le _
  · intro hc
    have hrun := h.mono hc.due hc.free
    refine ⟨fun hdone => ?_, fun n hs => store_of_failed hc.callees hrun hs⟩
    have hst : m.store.contents = contentsOf (applied w m.journal) := by
      cases (stocked_of_run hc.callees hrun).stock with
      | idle hs hst => exact hst
      | fetching d asked hs hst => exact hst
      | refusing s cached script hs hr hst => exact hst
      | taking i s cached script hs hr ha =>
        have hsup : .write s cached script ∈ m.supplies := by simp [hs]
        have hmem := (List.mem_filter.mp hsup).1
        rcases hdone with hnone | hfail
        · exact absurd hmem (hnone s cached script)
        · exact absurd hfail (state_ne_of_write hc.callees hrun (write_mem_duties hmem))
    exact ⟨hst, items_of_contents hst⟩

end Run

/-- Two fetches bring a data set each, and the key is refused from then on. -/
def revoking : World Number Nat :=
  World.still fun n => .fetched (
    if n = 0 then .ok .oneFlag else if n = 1 then .ok .oneSegment else .error (.status 401))

/-- The failure ends polling, and the store goes on holding what the second poll brought. -/
theorem store_receives_landed_revoked : ∃ m ms,
    Run revoking .own (Op.Every Op.IsGentle) (Op.Outer Op.IsGentle fun _ => True) (m :: ms) ∧
      m.stack = [] ∧ m.sync.state = .permanentlyFailed ∧
      writes m.journal = [Snapshot.oneSegment.allData, Snapshot.oneFlag.allData] ∧
      landed m.journal = [Snapshot.oneSegment.allData, Snapshot.oneFlag.allData] ∧
      m.store.contents = Snapshot.oneSegment.allData ∧
      ∀ kind, m.store.items kind = Snapshot.oneSegment.items kind := by
  have hstart : (Op.start : Op Number Nat).Every Op.IsGentle :=
    .other (by simp) Op.isGentle_start
  have hops : ∀ op ∈ [.start, .poll none, .poll none, .poll none, .poll none],
      Op.Outer (Op.IsGentle : Op Number Nat → Prop) (fun _ => True) op := by
    simp only [List.forall_mem_cons, List.not_mem_nil, false_implies, implies_true, and_true]
    have hpoll : Op.Outer (Op.IsGentle : Op Number Nat → Prop) (fun _ => True) (.poll none) :=
      .poll ⟨trivial, by simp⟩
    exact ⟨.call hstart, hpoll, hpoll, hpoll, hpoll⟩
  have hc : Confined Op.IsGentle revoking (Op.Every Op.IsGentle)
      (Op.Outer Op.IsGentle fun _ => True) :=
    ⟨by constructor <;> simp [revoking, World.still], fun _ => id, fun _ => id⟩
  have h := run_session revoking .own (Op.Every Op.IsGentle) _ 40 _ hops
  obtain ⟨m, ms, hms, hs, hst, hwritten, ha⟩ : ∃ m ms,
      session revoking .own 40 [.start, .poll none, .poll none, .poll none, .poll none] =
        m :: ms ∧ m.stack.isEmpty = true ∧ m.sync.state = .permanentlyFailed ∧
        writes m.journal = [Snapshot.oneSegment.allData, Snapshot.oneFlag.allData] ∧
        applied revoking m.journal = some (1, .oneSegment) :=
    ⟨_, _, rfl, rfl, rfl, rfl, rfl⟩
  rw [hms] at h
  have hs := List.isEmpty_iff.mp hs
  obtain ⟨⟨-, hlanded⟩, -, -, hgentle⟩ := store_receives_landed h
  obtain ⟨hcontents, hitems⟩ := (hgentle hc).1 (.inr hst)
  rw [ha] at hcontents hitems
  exact ⟨m, ms, h, hs, hst, hwritten, hlanded ▸ hwritten, hcontents, hitems⟩

end Machine
end FlagPoll.Synchronizer
