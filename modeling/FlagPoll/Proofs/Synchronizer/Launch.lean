import FlagPoll.Proofs.Synchronizer.Lifecycle

/-!
# FlagPoll.Proofs.Synchronizer.Launch

The polling task of a synchronizer and the state.

* `Steady`        — the task is stopped exactly if polling is over.
* `execute_launch`, `execute_launched` — only a call of `start` that takes effect launches it.
* `active_of_run` — polls have an effect from when it has been launched until it is stopped.
-/

namespace FlagPoll.Synchronizer

variable {τ κ : Type}

theorem clearItem_eq_launch {n : Nat} {kind : Kind} {key : CodePoints} {t : Task τ κ} :
    t.clearItem n kind key = .launch ↔ t = .launch := by
  cases t <;> simp [Task.clearItem]

theorem not_launch_callTasks (ops : List (Op τ κ)) : Task.launch ∉ callTasks ops := by
  simp [callTasks]

theorem not_launch_scriptTasks (script : Script (Op τ κ)) (raised : String → Task τ κ)
    (h : ∀ message, raised message ≠ .launch) : Task.launch ∉ scriptTasks script raised := by
  simp [scriptTasks, not_launch_callTasks, h]

namespace Machine

/-! ## Whether polling is over -/

/-- The polling task is stopped exactly if polling is over. -/
def Steady (s : Synchronizer τ κ) : Prop :=
  s.stopped = true ↔ s.state = .closed ∨ s.state = .permanentlyFailed

section Turn

variable [Time τ] {w : World τ κ} {m n : Machine τ κ}

theorem steady_turn (hp : m.sync.state = .polling → m.sync.handle.resolution = none)
    (h : Steady m.sync) (ht : Turn w m n) : Steady n.sync := by
  have keep (hst : n.sync.stopped = m.sync.stopped) (hs : n.sync.state = m.sync.state) :
      Steady n.sync := by rwa [Steady, hst, hs]
  cases ht with
  | start c hs =>
    obtain ⟨hst, hn, -⟩ := begin?_eq_some.mp hs
    simp_all [Steady]
  | close c hs =>
    obtain ⟨-, hn, -⟩ := close?_eq_some.mp hs
    simp [Steady, hn]
  | deliver c rest below hs =>
    obtain ⟨-, hn⟩ := admit?_eq_some.mp hs
    exact keep (by rw [hn]) (by rw [hn])
  | fetch own rest q hm hs =>
    obtain ⟨-, hn⟩ := poll?_eq_some.mp hs
    exact keep (by rw [hn]) (by rw [hn])
  | recover f c rest hf hs =>
    obtain ⟨-, hn, -⟩ := recover?_eq_some.mp hs
    exact keep (by rw [hn]; rfl) (by rw [hn]; rfl)
  | giveUp f s c rest hf hg hs =>
    obtain ⟨-, rfl, -⟩ := giveUp?_eq_some.mp hg
    simp [Steady, hs]
  | succeed s c rest hi hs =>
    obtain ⟨hst, rfl, -⟩ := initialize?_eq_some.mp hi
    simp_all [Steady]
  | twice hs hr => exact absurd (hp hs) hr
  | discard o rest hc hs | ignore o hc ha hs | store s rest ha hs =>
    exact keep (by rw [hs]; rfl) (by rw [hs]; rfl)
  | quiet ls ks b hs | drop c hc hs | tell k c hs | closeRequester hs | refuse hs | put rest hs
  | keep hc hs | stop target span rest hm hw hs => exact keep (by rw [hs]) (by rw [hs])

theorem stopped_turn (hp : m.sync.state = .polling → m.sync.handle.resolution = none)
    (h : m.sync.stopped = true) (ht : Turn w m n) : n.sync.stopped = true := by
  cases ht with
  | start c hs => rw [(begin?_eq_some.mp hs).2.1]; exact h
  | close c hs => rw [(close?_eq_some.mp hs).2.1]
  | deliver c rest below hs => rw [(admit?_eq_some.mp hs).2]; exact h
  | fetch own rest q hm hs => rw [(poll?_eq_some.mp hs).2]; exact h
  | recover f c rest hf hs => rw [(recover?_eq_some.mp hs).2.1]; exact h
  | giveUp f s c rest hf hg hs =>
    obtain ⟨-, rfl, -⟩ := giveUp?_eq_some.mp hg
    rw [hs]
  | succeed s c rest hi hs =>
    obtain ⟨-, rfl, -⟩ := initialize?_eq_some.mp hi
    rw [hs]
    exact h
  | twice hs hr => exact absurd (hp hs) hr
  | quiet ls ks b hs | drop c hc hs | tell k c hs | closeRequester hs | refuse hs | put rest hs
  | keep hc hs | stop target span rest hm hw hs | discard o rest hc hs | ignore o hc ha hs
  | store s rest ha hs => rw [hs]; exact h

theorem started_turn (hp : m.sync.state = .polling → m.sync.handle.resolution = none)
    (h : m.sync.state ≠ .notStarted) (ht : Turn w m n) : n.sync.state ≠ .notStarted := by
  cases ht with
  | start c hs => simp [(begin?_eq_some.mp hs).2.1]
  | close c hs => simp [(close?_eq_some.mp hs).2.1]
  | deliver c rest below hs => rw [(admit?_eq_some.mp hs).2]; exact h
  | fetch own rest q hm hs => rw [(poll?_eq_some.mp hs).2]; exact h
  | recover f c rest hf hs => rw [(recover?_eq_some.mp hs).2.1]; exact h
  | giveUp f s c rest hf hg hs =>
    obtain ⟨-, rfl, -⟩ := giveUp?_eq_some.mp hg
    simp [hs]
  | succeed s c rest hi hs =>
    obtain ⟨-, rfl, -⟩ := initialize?_eq_some.mp hi
    simp [hs]
  | twice hs hr => exact absurd (hp hs) hr
  | quiet ls ks b hs | drop c hc hs | tell k c hs | closeRequester hs | refuse hs | put rest hs
  | keep hc hs | stop target span rest hm hw hs | discard o rest hc hs | ignore o hc ha hs
  | store s rest ha hs => rw [hs]; exact h

end Turn

/-! ## Who launches the polling task -/

section Launch

variable [Time τ] {w : World τ κ} {m : Machine τ κ}

attribute [local simp] push record log give calledOut leave setClock

omit [Time τ] in
theorem launch_resolve {x : Machine τ κ} {r : Resolution τ} {rest : List (Task τ κ)}
    (hr : Task.launch ∉ rest) (h : Task.launch ∈ (x.resolve r rest).stack) : .launch ∈ x.stack := by
  simp only [resolve] at h
  split at h <;> simp_all

theorem launch_receive {d : Delivery} {asked : Option CacheEntry}
    (h : Task.launch ∈ (m.receive w d asked).stack) : .launch ∈ m.stack := by
  simp only [receive] at h
  generalize m.requester.receive asked d = r at h
  obtain ⟨requester, outcome, rs⟩ := r
  generalize hx : record (logAll _ rs) _ = x at h
  have hs : x.stack = m.stack := by simp [← hx]
  simp only at h
  split at h
  · simp_all
  · split at h
    · simp only [apply] at h
      split at h <;> simp_all [not_launch_callTasks]
    · split at h
      · simp only [giveUp] at h
        split at h
        · simp_all
        · split at h
          · simp_all
          · simpa [hs] using launch_resolve (by simp) h
      · simp only [recover] at h
        split at h <;> simp_all

theorem execute_launch [BEq κ] {task : Task τ κ} (h : .launch ∈ (m.execute w task).stack) :
    .launch ∈ m.stack ∨ (m.execute w task).sync.state ≠ .notStarted := by
  by_contra hno
  cases task with
  | perform op =>
    cases op with
    | start =>
      simp only [execute, perform, start] at h hno
      split at h
      · simp_all
      · rename_i s c hb
        obtain ⟨-, hs, -⟩ := begin?_eq_some.mp hb
        exact hno (.inr (by simp [hb, hs]))
    | close =>
      simp only [execute, perform, close] at h hno
      split at h
      · simp_all
      · split at h <;> simp_all
    | addCallback k => simp_all [execute, perform, addCallback]
    | get kind key reader =>
      simp only [execute, perform, get] at h hno
      split at h
      · simp only [clearShared] at h
        split at h <;> simp_all [clearItem_eq_launch]
      · simp_all
    | poll own =>
      simp only [execute, perform] at h hno
      split at h <;> simp_all
    | _ => simp_all [execute, perform]
  | receive d asked => exact hno (.inl (launch_receive h))
  | gather ops done => cases ops <;> simp_all [execute, gather]
  | notify c =>
    simp only [execute, notify] at h hno
    split at h <;> simp_all
  | tell k c => simp_all [execute, Machine.tell, not_launch_scriptTasks]
  | closeRequester => simp_all [execute, Machine.closeRequester, not_launch_scriptTasks]
  | invoke k => simp_all [execute, invoke, not_launch_scriptTasks]
  | poll own =>
    simp only [execute, poll] at h hno
    cases own <;> split at h <;> simp_all [respond, not_launch_callTasks]
  | write s cached script =>
    simp only [execute, write] at h hno
    split at h <;> simp_all [not_launch_callTasks]
  | written =>
    simp only [execute, written] at h hno
    split at h
    · simp_all
    · exact hno (.inl (by simpa using launch_resolve (by simp) h))
  | pass target span =>
    simp only [execute, pass] at h hno
    split at h
    · simp_all
    · split at h
      · simp_all [callDue]
      · split at h <;> simp_all
  | main =>
    simp only [execute, main] at h hno
    split at h
    · simp_all
    · split at h <;> simp_all
  | await next =>
    simp only [execute, await] at h hno
    split at h <;> simp_all
  | wake =>
    simp only [execute, wake] at h hno
    split at h <;> simp_all
  | ran =>
    simp only [execute, ran] at h hno
    split at h <;> simp_all
  | _ => simp_all [execute, Machine.rest, Machine.leave]

omit [Time τ] in
theorem launched_resolve {x : Machine τ κ} {r : Resolution τ} {rest : List (Task τ κ)} :
    (x.resolve r rest).sync.launched = x.sync.launched := by
  unfold resolve; split <;> rfl

theorem launched_receive {d : Delivery} {asked : Option CacheEntry} :
    (m.receive w d asked).sync.launched = m.sync.launched := by
  simp only [receive]
  generalize m.requester.receive asked d = r
  obtain ⟨requester, outcome, rs⟩ := r
  generalize hx : record (logAll _ rs) _ = x
  have hs : x.sync.launched = m.sync.launched := by simp [← hx, Synchronizer.returned]
  simp only
  split
  · exact hs
  · split
    · unfold apply
      split <;> exact hs
    · split
      · simp only [giveUp]
        split
        · exact hs
        · rename_i s c hg
          have hsl : s.launched = x.sync.launched := by rw [(giveUp?_eq_some.mp hg).2.1]
          split
          · exact hsl.trans hs
          · rw [launched_resolve]
            exact hsl.trans hs
      · simp only [recover]
        split
        · exact hs
        · rename_i s c hr
          have hsl : s.launched = x.sync.launched := by rw [(recover?_eq_some.mp hr).2.1]
          exact hsl.trans hs

theorem execute_launched [BEq κ] {task : Task τ κ} (h : task ≠ .launch) :
    (m.execute w task).sync.launched = m.sync.launched := by
  cases task with
  | launch => exact absurd rfl h
  | perform op =>
    cases op with
    | start =>
      simp only [execute, perform, start]
      split
      · rfl
      · rename_i s c hb
        simp [(begin?_eq_some.mp hb).2.1]
    | close =>
      simp only [execute, perform, close]
      split
      · rfl
      · rename_i s c hb
        simp [(close?_eq_some.mp hb).2.1]
    | get kind key reader => simp only [execute, perform, get]; split <;> simp
    | poll own => simp only [execute, perform]; split <;> rfl
    | _ => rfl
  | receive d asked => exact launched_receive
  | gather ops done => cases ops <;> rfl
  | notify c =>
    simp only [execute, notify]
    split
    · rfl
    · rename_i s ha
      simp [(admit?_eq_some.mp ha).2]
  | poll own =>
    simp only [execute, poll]
    split
    · rfl
    · rename_i s hp
      cases own <;> simp [respond, (poll?_eq_some.mp hp).2]
  | write s cached script => simp only [execute, write]; split <;> simp
  | written =>
    simp only [execute, written]
    split
    · rfl
    · rename_i s c hi
      rw [launched_resolve]
      simp [(initialize?_eq_some.mp hi).2.1]
  | pass target span =>
    simp only [execute, pass]
    split
    · rfl
    · split
      · rfl
      · split <;> rfl
  | main => simp only [execute, main]; split <;> [rfl; (split <;> rfl)]
  | await next => simp only [execute, await]; split <;> rfl
  | wake => simp only [execute, wake]; split <;> rfl
  | ran => simp only [execute, ran]; split <;> rfl
  | _ => rfl

theorem launched_step [BEq κ] {n : Machine τ κ} (h : m.step w = some n)
    (hl : m.sync.launched = true) : n.sync.launched = true := by
  obtain ⟨task, rest, -, rfl⟩ := step_eq_some.mp h
  by_cases htask : task = .launch
  · rw [htask]
    rfl
  · rw [execute_launched htask]
    exact hl

end Launch

/-! ## Runs -/

section Run

variable [Time τ] [BEq κ] {w : World τ κ} {r : Requester} {due free : Op τ κ → Prop}
  {m : Machine τ κ} {ms : List (Machine τ κ)}

theorem steady_of_run (h : Run w r due free (m :: ms)) : Steady m.sync := by
  induction h using Run.head_induction with
  | create => simp [Steady, Machine.create, Synchronizer.create]
  | timeline calls hd => simp [Steady, Machine.create, Synchronizer.create]
  | call x xs op h hs ho ih => exact ih
  | step x y xs h hs ih =>
    exact steady_turn (pending_of_run h) ih (turn_of_step hs)

/-- The polling task is launched by `start` only. -/
theorem started_of_run (h : Run w r due free (m :: ms))
    (hl : .launch ∈ m.stack ∨ m.sync.launched = true) : m.sync.state ≠ .notStarted := by
  induction h using Run.head_induction with
  | create => simp [Machine.create, Synchronizer.create] at hl
  | timeline calls hd => simp [Machine.create, Synchronizer.create] at hl
  | call x xs op h hs ho ih => exact ih (.inr (by simpa using hl))
  | step x y xs h hs ih =>
    have hst (hx : .launch ∈ x.stack ∨ x.sync.launched = true) : y.sync.state ≠ .notStarted :=
      started_turn (pending_of_run h) (ih hx) (turn_of_step hs)
    obtain ⟨task, rest, hm, rfl⟩ := step_eq_some.mp hs
    rcases hl with hl | hl
    · rcases execute_launch hl with hl | hl
      · exact hst (.inl (by simp only [hm]; exact List.mem_cons_of_mem task hl))
      · exact hl
    · by_cases htask : task = .launch
      · exact hst (.inl (by simp [hm, htask]))
      · rw [execute_launched htask] at hl
        exact hst (.inr hl)

/-- Once the polling task has been launched, polls have an effect until it is stopped. -/
theorem active_of_run (h : Run w r due free (m :: ms)) (hl : m.sync.launched = true)
    (hs : m.sync.stopped = false) : m.sync.state.isActive = true := by
  have hstart := started_of_run h (.inr hl)
  have hover := steady_of_run h
  rw [Steady, hs] at hover
  cases hst : m.sync.state <;> simp_all [Lifecycle.isActive]

end Run

end Machine
end FlagPoll.Synchronizer
