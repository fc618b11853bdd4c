import FlagPoll.Proofs.Synchronizer.Turn

/-!
# FlagPoll.Proofs.Synchronizer.Hush

A synchronizer whose observers raise exceptions, seen as one whose observers do not.

* `World.hushed`   — listeners, callbacks and the closing of the requester do the same, but raise
  nothing.
* `isSwallowed`    — a record of the log that tells of an exception out of one of these.
* `Machine.hushed` — a machine without such records and without exceptions yet to be told of.
* `execute_hushed` — a task does the same to both machines, unless it tells of an exception.
* `execute_raised` — a task that does is not seen.
-/

namespace FlagPoll

def Script.hushed {ω : Type} (s : Script ω) : Script ω := { s with raises := none }

namespace Synchronizer

variable {τ κ : Type}

/-- The same surroundings with observers that raise nothing. What fetches bring and what the store
refuses stays as it is. -/
def World.hushed (w : World τ κ) : World τ κ :=
  { w with
    closing := fun n => (w.closing n).hushed
    listener := fun n k s => (w.listener n k s).hushed
    callback := fun n k c => (w.callback n k c).hushed }

/-! ## What tells of an exception -/

def Task.isRaised : Task τ κ → Bool
  | .listenerRaised _ | .callbackRaised _ | .closingRaised _ => true
  | _ => false

/-- What the log tells of exceptions out of observers, up to the message of the exception. -/
def raisedLogs : List Log.Record :=
  [Listeners.raisedLog listenersName "", Completion.raisedLog "", closingLog ""]

/-- A record of an exception out of an observer: one of these, with a message. -/
def isSwallowed (r : Log.Record) : Bool :=
  raisedLogs.any fun s => r.level = s.level && s.message.toList.isPrefixOf r.message.toList

def Event.isSwallowed : Event τ κ → Bool
  | .logged r => Synchronizer.isSwallowed r
  | _ => false

theorem isSwallowed_raisedLog (message : String) :
    isSwallowed (Listeners.raisedLog listenersName message) = true ∧
      isSwallowed (Completion.raisedLog message) = true ∧
      isSwallowed (closingLog message) = true := by
  simp [isSwallowed, raisedLogs, Listeners.raisedLog, listenersName, Completion.raisedLog,
    closingLog]

/-- Only errors are such records. -/
theorem isSwallowed_of_level {r : Log.Record} (h : r.level ≠ .error) : isSwallowed r = false := by
  simp [isSwallowed, raisedLogs, Listeners.raisedLog, Completion.raisedLog, closingLog, h]

/-- A record that begins in a way of its own is none of them. -/
theorem isSwallowed_of_opening (opening : String) {r : Log.Record}
    (hr : opening.toList <+: r.message.toList)
    (h : ∀ s ∈ raisedLogs, ¬ opening.toList <+: s.message.toList ∧
      ¬ s.message.toList <+: opening.toList) : isSwallowed r = false := by
  rw [isSwallowed, List.any_eq_false]
  intro s hs hmatch
  obtain ⟨-, hp⟩ := Bool.and_eq_true_iff.mp hmatch
  have hp : s.message.toList <+: r.message.toList := List.isPrefixOf_iff_prefix.mp hp
  rcases List.prefix_or_prefix_of_prefix hr hp with hp | hp
  · exact (h s hs).1 hp
  · exact (h s hs).2 hp

/-- An exception out of a poll is none out of an observer. -/
theorem isSwallowed_actionLog (message : String) :
    isSwallowed (Schedule.actionLog taskName message) = false := by
  refine isSwallowed_of_opening "Unexpected error in flagsync.polling: " ?_ (by decide +kernel)
  simp [Schedule.actionLog, taskName]

theorem statusText_opening (code : Int) (context : String) :
    "Received HTTP error ".toList <+: (Failure.statusText code context).toList := by
  unfold Failure.statusText
  extract_lets key outcome
  clear_value key outcome
  simp only [String.toList_append, List.append_assoc]
  exact List.prefix_append _ _

theorem isSwallowed_report (f : Failure) : isSwallowed f.report = false := by
  cases f with
  | status code =>
    exact isSwallowed_of_opening "Received HTTP error " (statusText_opening code _)
      (by decide +kernel)
  | payload message => exact isSwallowed_of_level (by simp [Failure.report])
  | other cause message => exact isSwallowed_of_level (by simp [Failure.report])

theorem isSwallowed_accept {c : Client} {reply : Reply} {r : Log.Record}
    (h : r ∈ (c.accept reply).2.2) : isSwallowed r = false := by
  unfold Client.accept at h
  split at h
  · cases h
  · obtain rfl := List.mem_singleton.mp h
    exact isSwallowed_of_level (by simp [Client.receivedLog])

theorem isSwallowed_receive (requester : Requester) (asked : Option CacheEntry) (d : Delivery) :
    ∀ r ∈ (requester.receive asked d).2.2, isSwallowed r = false := by
  intro r hr
  cases d with
  | fetched outcome => cases requester <;> cases hr
  | http a =>
    cases requester with
    | own => cases hr
    | client c =>
      simp only [Requester.receive, Client.receive] at hr
      split at hr
      · cases hr
      · split at hr
        · cases hr
        · split at hr
          · exact isSwallowed_accept hr
          · split at hr
            · obtain rfl := List.mem_singleton.mp hr
              exact isSwallowed_of_level (by simp [Client.unchangedLog])
            · exact isSwallowed_accept hr

namespace Machine

/-- The machine as it is if observers raise nothing: without the exceptions that are yet to be told
of, and without those that the log has told of. -/
def hushed (m : Machine τ κ) : Machine τ κ :=
  { m with
    stack := m.stack.filter (!·.isRaised)
    journal := m.journal.filter (!·.isSwallowed) }

section Hushed

variable (m : Machine τ κ)

@[simp] theorem sync_hushed : m.hushed.sync = m.sync := rfl

@[simp] theorem shared_hushed : m.hushed.shared = m.shared := rfl

@[simp] theorem agenda_hushed : m.hushed.agenda = m.agenda := rfl

@[simp] theorem reading_hushed : m.hushed.reading = m.reading := rfl

@[simp] theorem wallClock_hushed [Time τ] (w : World τ κ) :
    m.hushed.wallClock w.hushed = m.wallClock w := rfl

@[simp] theorem endsEarly_hushed (span : Span) : m.hushed.endsEarly span = m.endsEarly span := by
  cases span <;> rfl

/-! ## Records and tasks -/

theorem hushed_record {e : Event τ κ} (h : e.isSwallowed = false) :
    (m.record e).hushed = m.hushed.record e := by
  simp [hushed, record, h]

theorem hushed_log {r : Log.Record} (h : isSwallowed r = false) :
    (m.log r).hushed = m.hushed.log r :=
  hushed_record m h

theorem hushed_logAll {rs : List Log.Record} (h : ∀ r ∈ rs, isSwallowed r = false) :
    (m.logAll rs).hushed = m.hushed.logAll rs := by
  induction rs generalizing m with
  | nil => rfl
  | cons r rs ih =>
    obtain ⟨hr, hrs⟩ := List.forall_mem_cons.mp h
    show ((m.log r).logAll rs).hushed = (m.hushed.log r).logAll rs
    rw [ih (m.log r) hrs, hushed_log m hr]

theorem hushed_give (reading : Reading τ κ) : (m.give reading).hushed = m.hushed.give reading := rfl

theorem hushed_push {ts : List (Task τ κ)} (h : ∀ t ∈ ts, t.isRaised = false) :
    (m.push ts).hushed = m.hushed.push ts := by
  have hts : ts.filter (!·.isRaised) = ts := List.filter_eq_self.mpr fun t ht => by simp [h t ht]
  simp [hushed, push, hts]

theorem callTasks_not_raised (ops : List (Op τ κ)) : ∀ t ∈ callTasks ops, t.isRaised = false := by
  intro t ht
  obtain ⟨op, -, hop⟩ := List.mem_flatMap.mp ht
  obtain rfl | rfl : t = .perform op ∨ t = .report op := by simpa using hop
  · rfl
  · rfl

/-- Of what a callee does, only its exception is not seen. -/
theorem hushed_script {script : Script (Op τ κ)} {raised : String → Task τ κ} (callee : Callee)
    (h : ∀ message, (raised message).isRaised = true) :
    (m.push (scriptTasks script raised ++ [.leave callee])).hushed =
      m.hushed.push (scriptTasks script.hushed raised ++ [.leave callee]) := by
  have hcalls : (callTasks script.ops).filter (!·.isRaised) = callTasks script.ops :=
    List.filter_eq_self.mpr fun t ht => by simp [callTasks_not_raised script.ops t ht]
  have hleave : (Task.leave callee : Task τ κ).isRaised = false := rfl
  cases hr : script.raises <;>
    simp [hushed, push, scriptTasks, Script.hushed, hcalls, hr, h, hleave]

theorem hushed_resolve (r : Resolution τ) {rest : List (Task τ κ)}
    (h : ∀ t ∈ rest, t.isRaised = false) :
    (m.resolve r rest).hushed = m.hushed.resolve r rest := by
  simp only [resolve, sync_hushed]
  split
  · rfl
  · refine hushed_push _ (List.forall_mem_append.mpr ⟨?_, h⟩)
    simp [Task.isRaised]

theorem hushed_clearShared (kind : Kind) (key : CodePoints) :
    (m.clearShared kind key).hushed = m.hushed.clearShared kind key := by
  have hclear (n : Nat) (t : Task τ κ) : (t.clearItem n kind key).isRaised = t.isRaised := by
    cases t <;> rfl
  simp only [clearShared, shared_hushed]
  split
  · rfl
  · simp [hushed, List.filter_map, Function.comp_def, hclear]

/-! ## Tasks -/

variable (w : World τ κ)

theorem hushed_get (kind : Kind) (key : CodePoints) (reader : Store.Reader) :
    (m.get kind key reader).hushed = m.hushed.get kind key reader := by
  have hlog : ∀ r ∈ (m.store.get kind key reader).2.2, isSwallowed r = false := by
    unfold Store.get
    split
    · intro r hr
      obtain rfl := List.mem_singleton.mp hr
      exact isSwallowed_of_level (by simp [Store.missingLog])
    · simp
  simp only [get]
  by_cases hr : reader = .clear
  · rw [if_pos hr, if_pos hr, hushed_give, hushed_logAll _ hlog, ← hushed_clearShared]
    rfl
  · rw [if_neg hr, if_neg hr, hushed_give, hushed_logAll _ hlog]
    rfl

theorem hushed_notify (c : Change τ) : (m.notify c).hushed = m.hushed.notify c := by
  simp only [notify, sync_hushed]
  split
  · exact hushed_log m (isSwallowed_of_level (by simp [supersededLog]))
  · exact hushed_push _ (by simp [Task.isRaised])

theorem hushed_recover (f : Failure) (reason : ErrorInfo τ) :
    (m.recover f reason).hushed = m.hushed.recover f reason := by
  simp only [recover, sync_hushed]
  split
  · rfl
  · rw [hushed_push _ (by simp [Task.isRaised]), hushed_log _ (isSwallowed_report f)]
    rfl

theorem hushed_apply (s : Snapshot) (cached : Option Nat) :
    (m.apply w s cached).hushed = m.hushed.apply w.hushed s cached := by
  have hstate : m.hushed.sync.state = m.sync.state := rfl
  simp only [apply, hstate]
  split
  · refine hushed_push _ (List.forall_mem_append.mpr ⟨callTasks_not_raised _, ?_⟩)
    simp [Task.isRaised]
  · rw [hushed_give, hushed_log _ (isSwallowed_of_level (by simp [discardLog]))]

theorem hushed_write (s : Snapshot) (cached : Option Nat) (script : WriteScript (Op τ κ)) :
    (m.write s cached script).hushed = m.hushed.write s cached script := by
  have hlog : ∀ r ∈ Store.initLog s.allData, isSwallowed r = false := by
    intro r hr
    obtain ⟨p, -, rfl⟩ := List.mem_map.mp hr
    exact isSwallowed_of_level (by simp)
  simp only [write]
  split
  · rfl
  · rw [hushed_push _ (List.forall_mem_append.mpr ⟨callTasks_not_raised _, by simp [Task.isRaised]⟩),
      hushed_logAll _ hlog]
    rfl

variable [Time τ]

theorem hushed_start : (m.start w).hushed = m.hushed.start w.hushed := by
  simp only [start, sync_hushed, wallClock_hushed]
  split
  · rfl
  · rw [hushed_push _ (by simp [Task.isRaised]),
      hushed_log _ (isSwallowed_of_level (by simp [startLog]))]
    rfl

theorem hushed_close : (m.close w).hushed = m.hushed.close w.hushed := by
  simp only [close, sync_hushed, wallClock_hushed]
  split
  · rfl
  · rename_i s c _
    have hnext : ∀ t ∈ (if s.fetching then [] else [Task.closeRequester]) ++
        [Task.notify c, Task.give .nothing], (t : Task τ κ).isRaised = false := by
      split <;> simp [Task.isRaised]
    rw [hushed_push _ hnext, hushed_log _ (isSwallowed_of_level (by simp [stopLog]))]
    rfl

theorem hushed_perform [BEq κ] (op : Op τ κ) :
    (m.perform w op).hushed = m.hushed.perform w.hushed op := by
  cases op with
  | start => exact hushed_start m w
  | close => exact hushed_close m w
  | addCallback k =>
    refine hushed_push _ (List.forall_mem_append.mpr ⟨?_, ?_⟩) <;> simp [Task.isRaised]
  | get kind key reader => exact hushed_get m kind key reader
  | poll own =>
    have hload : m.hushed.load = m.load := rfl
    simp only [perform, hload]
    split <;> rfl
  | _ => rfl

theorem hushed_poll (own : Option (Response τ (Op τ κ))) :
    (m.poll w own).hushed = m.hushed.poll w.hushed own := by
  have hcalls (r : Response τ (Op τ κ)) (rest : List (Task τ κ))
      (h : ∀ t ∈ rest, t.isRaised = false) :
      ∀ t ∈ .pass (m.clock + r.duration) .work :: callTasks r.during ++ rest,
        t.isRaised = false :=
    List.forall_mem_append.mpr ⟨List.forall_mem_cons.mpr ⟨rfl, callTasks_not_raised _⟩, h⟩
  simp only [poll, sync_hushed]
  split
  · rfl
  · cases own with
    | none => exact hushed_push _ (hcalls _ _ (by simp [Task.isRaised]))
    | some r => exact hushed_push _ (hcalls _ _ (by simp [Task.isRaised]))

theorem hushed_giveUp (f : Failure) (reason : ErrorInfo τ) :
    (m.giveUp w f reason).hushed = m.hushed.giveUp w.hushed f reason := by
  have hstate : m.hushed.sync.state = m.sync.state := rfl
  simp only [giveUp, hstate]
  split
  · rename_i hg
    have hg' : m.hushed.sync.giveUp? reason (m.hushed.wallClock w.hushed) = none := hg
    simp only [hg']
    rfl
  · rename_i hg
    have hg' : m.hushed.sync.giveUp? reason (m.hushed.wallClock w.hushed) = some (_, _) := hg
    simp only [hg']
    split
    · rw [hushed_push _ (by simp [Task.isRaised]), hushed_log _ (isSwallowed_report f)]
      rfl
    · rw [hushed_resolve _ _ (by simp [Task.isRaised]), hushed_log _ (isSwallowed_report f)]
      rfl

theorem hushed_receive (d : Delivery) (asked : Option CacheEntry) :
    (m.receive w d asked).hushed = m.hushed.receive w.hushed d asked := by
  have hreq : m.hushed.requester = m.requester := rfl
  have hlog := isSwallowed_receive m.requester asked d
  simp only [receive, hreq]
  generalize m.requester.receive asked d = r at hlog
  obtain ⟨requester, outcome, rs⟩ := r
  generalize hx : record (logAll { m with requester, sync := m.sync.returned } rs) _ = x
  generalize hy : record (logAll { m.hushed with requester, sync := _ } rs) _ = y
  obtain rfl : y = x.hushed := by
    rw [← hx, ← hy, hushed_record _ rfl, hushed_logAll _ hlog]
    rfl
  have hstate : x.hushed.sync.state = x.sync.state := rfl
  simp only [hstate, wallClock_hushed]
  split
  · rw [hushed_push _ (by simp [Task.isRaised]),
      hushed_log _ (isSwallowed_of_level (by simp [discardAfterCloseLog]))]
  · cases outcome with
    | ok s => exact hushed_apply x w s _
    | error f =>
      simp only
      split
      · exact hushed_giveUp x w f _
      · exact hushed_recover x f _

theorem hushed_written : (m.written w).hushed = m.hushed.written w.hushed := by
  simp only [written, sync_hushed, wallClock_hushed]
  split
  · rfl
  · rw [hushed_resolve _ _ (by simp [Task.isRaised]),
      hushed_log _ (isSwallowed_of_level (by simp [initializedLog]))]
    rfl

theorem hushed_pass (target : τ) (span : Span) :
    (m.pass w target span).hushed = m.hushed.pass w.hushed target span := by
  have hhorizon : w.hushed.horizon = w.horizon := rfl
  simp only [pass, endsEarly_hushed, agenda_hushed, hhorizon]
  split
  · rfl
  · split
    · rfl
    · split <;> rfl

theorem hushed_main : (m.main w).hushed = m.hushed.main w.hushed := by
  have hhorizon : w.hushed.horizon = w.horizon := rfl
  simp only [main, sync_hushed, agenda_hushed, hhorizon]
  split
  · rfl
  · split <;> rfl

theorem hushed_await (next : τ) : (m.await next).hushed = m.hushed.await next := by
  have hstopped : m.hushed.sync.stopped = m.sync.stopped := rfl
  simp only [await, hstopped]
  split <;> rfl

theorem hushed_wake : (m.wake w).hushed = m.hushed.wake w.hushed := by
  have hstopped : m.hushed.sync.stopped = m.sync.stopped := rfl
  simp only [wake, hstopped]
  split <;> rfl

theorem hushed_ran : m.ran.hushed = m.hushed.ran := by
  simp only [ran, reading_hushed]
  split
  · exact hushed_log m (isSwallowed_actionLog _)
  · rfl

/-- A task does the same to both machines unless it tells of an exception. -/
theorem execute_hushed [BEq κ] {task : Task τ κ} (h : task.isRaised = false) :
    (m.execute w task).hushed = m.hushed.execute w.hushed task := by
  cases task with
  | perform op => exact hushed_perform m w op
  | gather ops done => cases ops <;> rfl
  | notify c => exact hushed_notify m c
  | tell k c => exact hushed_script _ _ fun _ => rfl
  | invoke k => exact hushed_script _ _ fun _ => rfl
  | closeRequester => exact hushed_script _ _ fun _ => rfl
  | listenerRaised message | callbackRaised message | closingRaised message =>
    simp [Task.isRaised] at h
  | poll own => exact hushed_poll m w own
  | receive d asked => exact hushed_receive m w d asked
  | write s cached script => exact hushed_write m s cached script
  | written => exact hushed_written m w
  | pass target span => exact hushed_pass m w target span
  | main => exact hushed_main m w
  | await next => exact hushed_await m next
  | wake => exact hushed_wake m w
  | ran => exact hushed_ran m
  | _ => rfl

/-- A task that tells of an exception adds a record to the log, and it is not seen. -/
theorem execute_raised [BEq κ] {task : Task τ κ} (h : task.isRaised = true) :
    (m.execute w task).hushed = m.hushed ∧ (m.execute w task).stack = m.stack := by
  have swallowed {r : Log.Record} (hr : isSwallowed r = true) : (m.log r).hushed = m.hushed := by
    simp [hushed, log, record, Event.isSwallowed, hr]
  cases task with
  | listenerRaised message => exact ⟨swallowed (isSwallowed_raisedLog message).1, rfl⟩
  | callbackRaised message => exact ⟨swallowed (isSwallowed_raisedLog message).2.1, rfl⟩
  | closingRaised message => exact ⟨swallowed (isSwallowed_raisedLog message).2.2, rfl⟩
  | _ => simp [Task.isRaised] at h

end Hushed

/-! ## Steps -/

section Step

variable {m n : Machine τ κ}

/-- Whether the next thing is to tell of an exception. -/
def isRaising (m : Machine τ κ) : Bool := m.stack.head?.any Task.isRaised

theorem stack_hushed (h : m.isRaising = false) : m.hushed.stack = [] ↔ m.stack = [] := by
  cases hm : m.stack with
  | nil => simp [hushed, hm]
  | cons task rest =>
    have hr : task.isRaised = false := by simpa [isRaising, hm] using h
    simp [hushed, hm, hr]

variable [Time τ] [BEq κ] {w : World τ κ}

theorem step_raising (h : m.isRaising = true) (hs : m.step w = some n) :
    n.hushed = m.hushed ∧ n.stack.length < m.stack.length := by
  obtain ⟨task, rest, hm, rfl⟩ := step_eq_some.mp hs
  have hr : task.isRaised = true := by simpa [isRaising, hm] using h
  obtain ⟨hn, hstack⟩ := execute_raised { m with stack := rest } w hr
  refine ⟨?_, by simp [hstack, hm]⟩
  rw [hn]
  simp [hushed, hm, hr]

/-- A step that is seen is one of the hushed machine too, and the other way round. -/
theorem step_hushed (h : m.isRaising = false) :
    m.hushed.step w.hushed = (m.step w).map hushed := by
  cases hm : m.stack with
  | nil => simp [step, hushed, hm]
  | cons task rest =>
    have hr : task.isRaised = false := by simpa [isRaising, hm] using h
    have hh : m.hushed.stack = task :: rest.filter (!·.isRaised) := by simp [hushed, hm, hr]
    simp only [step, hm, hh, Option.map_some]
    rw [execute_hushed _ w hr]
    rfl

end Step
end Machine
end Synchronizer
end FlagPoll
