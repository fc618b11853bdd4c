import FlagPoll.Synchronizer.Step
import Mathlib.Data.List.Basic

/-!
# FlagPoll.Proofs.Synchronizer.Turn

What one step of a machine can do, seen from outside.

* `duties`       — what is still to be done towards callees and the store.
* `history`      — the events that tell of changes, deliveries and fetches.
* `Turn`         — all that a step can do to the synchronizer, the duties and the history.
* `turn_of_step` — every step is one of these.

Calls that change nothing of this, the passing of time and the log all come under `Turn.quiet`.
Later proofs go by cases on `Turn` and do not open the step function.
-/

namespace FlagPoll.Synchronizer

variable {τ κ : Type}

/-- What is still to be done towards callees and the store. -/
inductive Duty (τ κ : Type) where
  | notify (c : Change τ)
  | tell (listener : κ) (c : Change τ)
  | closeRequester
  /-- A fetch is under way. -/
  | receive
  /-- The store has been called and has not written yet. -/
  | write
  | written

def Task.duty? : Task τ κ → Option (Duty τ κ)
  | .notify c => some (.notify c)
  | .tell k c => some (.tell k c)
  | .closeRequester => some .closeRequester
  | .receive .. => some .receive
  | .write .. => some .write
  | .written => some .written
  | _ => none

def dutiesOf (ts : List (Task τ κ)) : List (Duty τ κ) := ts.filterMap Task.duty?

def Event.isNotable : Event τ κ → Bool
  | .changed .. | .delivering .. | .toldListener .. => true
  | .fetch .. | .fetched .. | .write _ | .closeRequester => true
  | _ => false

@[simp] theorem dutiesOf_nil : dutiesOf ([] : List (Task τ κ)) = [] := rfl

@[simp] theorem dutiesOf_append (a b : List (Task τ κ)) :
    dutiesOf (a ++ b) = dutiesOf a ++ dutiesOf b := List.filterMap_append

@[simp] theorem dutiesOf_cons (t : Task τ κ) (ts : List (Task τ κ)) :
    dutiesOf (t :: ts) = t.duty?.toList ++ dutiesOf ts := by
  cases h : t.duty? <;> simp [dutiesOf, h]

@[simp] theorem Task.duty?_clearItem (n : Nat) (kind : Kind) (key : CodePoints) (t : Task τ κ) :
    (t.clearItem n kind key).duty? = t.duty? := by
  cases t <;> rfl

@[simp] theorem dutiesOf_map_clearItem (n : Nat) (kind : Kind) (key : CodePoints)
    (ts : List (Task τ κ)) : dutiesOf (ts.map (·.clearItem n kind key)) = dutiesOf ts := by
  induction ts with
  | nil => rfl
  | cons t ts ih => simp [ih]

@[simp] theorem dutiesOf_callTasks (ops : List (Op τ κ)) : dutiesOf (callTasks ops) = [] := by
  induction ops with
  | nil => rfl
  | cons op ops ih => simpa [callTasks, Task.duty?] using ih

@[simp] theorem dutiesOf_map_invoke (ks : List κ) :
    dutiesOf (ks.map (Task.invoke (τ := τ))) = [] := by
  induction ks with
  | nil => rfl
  | cons k ks ih => simp [ih, Task.duty?]

@[simp] theorem dutiesOf_map_tell (ks : List κ) (c : Change τ) :
    dutiesOf (ks.map (Task.tell · c)) = ks.map (Duty.tell · c) := by
  induction ks with
  | nil => rfl
  | cons k ks ih => simp [ih, Task.duty?]

theorem dutiesOf_scriptTasks (script : Script (Op τ κ)) (raised : String → Task τ κ)
    (h : ∀ message, (raised message).duty? = none) : dutiesOf (scriptTasks script raised) = [] := by
  cases hr : script.raises <;> simp [scriptTasks, hr, h]

namespace Machine

def duties (m : Machine τ κ) : List (Duty τ κ) := dutiesOf m.stack

/-- The latest event comes first. -/
def history (m : Machine τ κ) : List (Event τ κ) := m.journal.filter Event.isNotable

/-- What a step can do to the synchronizer, the duties and the history. -/
inductive Turn [Time τ] (w : World τ κ) (m n : Machine τ κ) : Prop where
  /-- Nothing of note happens. -/
  | quiet (ls : Listeners κ) (ks : List κ) (b : Bool)
      (hs : n.sync = { m.sync with
        listeners := ls, handle := { m.sync.handle with callbacks := ks }, launched := b })
      (hd : n.duties = m.duties) (hh : n.history = m.history)
  | start (c : Change τ) (hs : m.sync.begin? (m.wallClock w) = some (n.sync, c))
      (hd : n.duties = .notify c :: m.duties) (hh : n.history = .changed m.clock c :: m.history)
  | close (c : Change τ) (hs : m.sync.close? (m.wallClock w) = some (n.sync, c))
      (hd : n.duties = (if m.sync.fetching then [] else [.closeRequester]) ++ .notify c :: m.duties)
      (hh : n.history = .changed m.clock c :: m.history)
  /-- A notification is superseded. -/
  | drop (c : Change τ) (hc : c.number ≤ m.sync.notified) (hs : n.sync = m.sync)
      (hd : m.duties = .notify c :: n.duties) (hh : n.history = m.history)
  /-- Those who are to be told come next. -/
  | deliver (c : Change τ) (rest : List (Duty τ κ)) (below : List (Task τ κ))
      (hs : m.sync.admit? c.number = some n.sync)
      (hm : n.stack = m.sync.listeners.map (.tell · c) ++ below)
      (hd : m.duties = .notify c :: rest)
      (hd' : n.duties = m.sync.listeners.map (.tell · c) ++ rest)
      (hh : n.history = .delivering c m.sync.listeners :: m.history)
  | tell (k : κ) (c : Change τ) (hs : n.sync = m.sync) (hd : m.duties = .tell k c :: n.duties)
      (hh : n.history = .toldListener k c :: m.history)
  | closeRequester (hs : n.sync = m.sync) (hd : m.duties = .closeRequester :: n.duties)
      (hh : n.history = .closeRequester :: m.history)
  | fetch (own : Option (Response τ (Op τ κ))) (rest : List (Task τ κ)) (q : Option Request)
      (hm : m.stack = .poll own :: rest) (hs : m.sync.poll? = some n.sync)
      (hd : n.duties = .receive :: m.duties) (hh : n.history = .fetch m.clock q :: m.history)
  /-- A fetch returns after the synchronizer has been closed. -/
  | discard (o : Except Failure Snapshot) (rest : List (Duty τ κ)) (hc : m.sync.state = .closed)
      (hs : n.sync = m.sync.returned) (hd : m.duties = .receive :: rest)
      (hd' : n.duties = .closeRequester :: rest) (hh : n.history = .fetched m.clock o :: m.history)
  /-- A fetch returns while polls have no effect. -/
  | ignore (o : Except Failure Snapshot) (hc : m.sync.state ≠ .closed)
      (ha : m.sync.state.isActive = false) (hs : n.sync = m.sync.returned)
      (hd : m.duties = .receive :: n.duties) (hh : n.history = .fetched m.clock o :: m.history)
  | store (s : Snapshot) (rest : List (Duty τ κ)) (ha : m.sync.state.isActive = true)
      (hs : n.sync = m.sync.returned) (hd : m.duties = .receive :: rest)
      (hd' : n.duties = .write :: rest)
      (hh : n.history = .write s :: .fetched m.clock (.ok s) :: m.history)
  | recover (f : Failure) (c : Change τ) (rest : List (Duty τ κ)) (hf : f.isFatal = false)
      (hs : m.sync.returned.recover? (f.info (m.wallClock w)) = some (n.sync, c))
      (hd : m.duties = .receive :: rest) (hd' : n.duties = .notify c :: rest)
      (hh : n.history = .changed m.clock c :: .fetched m.clock (.error f) :: m.history)
  | giveUp (f : Failure) (s : Synchronizer τ κ) (c : Change τ) (rest : List (Duty τ κ))
      (hf : f.isFatal = true)
      (hg : m.sync.returned.giveUp? (f.info (m.wallClock w)) (m.wallClock w) = some (s, c))
      (hs : n.sync = { s with
        handle := if m.sync.state = .initialized then m.sync.handle
          else ⟨some (.failed (f.info (m.wallClock w))), []⟩ })
      (hd : m.duties = .receive :: rest) (hd' : n.duties = .notify c :: rest)
      (hh : n.history = .changed m.clock c :: .fetched m.clock (.error f) :: m.history)
  | refuse (hs : n.sync = m.sync) (hd : m.duties = .write :: n.duties) (hh : n.history = m.history)
  | put (rest : List (Duty τ κ)) (hs : n.sync = m.sync) (hd : m.duties = .write :: rest)
      (hd' : n.duties = .written :: rest) (hh : n.history = m.history)
  /-- A snapshot has been applied that is not the first one, or comes too late to be. -/
  | keep (hc : m.sync.state ≠ .polling) (hs : n.sync = m.sync)
      (hd : m.duties = .written :: n.duties) (hh : n.history = m.history)
  | succeed (s : Synchronizer τ κ) (c : Change τ) (rest : List (Duty τ κ))
      (hi : m.sync.initialize? (m.wallClock w) = some (s, c))
      (hs : n.sync = { s with handle := ⟨some .succeeded, []⟩ })
      (hd : m.duties = .written :: rest) (hd' : n.duties = .notify c :: rest)
      (hh : n.history = .changed m.clock c :: m.history)
  /-- The handle is resolved too early, which `Lived.pending` rules out. -/
  | twice (hp : m.sync.state = .polling) (hr : m.sync.handle.resolution ≠ none)
  /-- The horizon has been reached. -/
  | stop (target : τ) (span : Span) (rest : List (Task τ κ))
      (hm : m.stack = .pass target span :: rest) (hw : span ≠ .work) (hs : n.sync = m.sync)
      (hd : n.duties = []) (hh : n.history = m.history)

theorem step_eq_some [Time τ] [BEq κ] {w : World τ κ} {m n : Machine τ κ} : m.step w = some n ↔
    ∃ task rest, m.stack = task :: rest ∧ n = execute w { m with stack := rest } task := by
  unfold step
  split
  · simp_all
  · rename_i task rest h
    simp [h, eq_comm]

/-! ## Records of the log and emptied items -/

attribute [local simp] record log push give calledOut leave setClock duties history Task.duty?

theorem logAll_eq (m : Machine τ κ) (rs : List Log.Record) :
    m.logAll rs = { m with journal := (rs.map .logged).reverse ++ m.journal } := by
  induction rs generalizing m with
  | nil => rfl
  | cons r rs ih =>
    change (m.log r).logAll rs = _
    simp [ih]

@[simp] theorem logAll_sync (m : Machine τ κ) (rs : List Log.Record) :
    (m.logAll rs).sync = m.sync := by rw [logAll_eq]

@[simp] theorem logAll_stack (m : Machine τ κ) (rs : List Log.Record) :
    (m.logAll rs).stack = m.stack := by rw [logAll_eq]

@[simp] theorem logAll_clock (m : Machine τ κ) (rs : List Log.Record) :
    (m.logAll rs).clock = m.clock := by rw [logAll_eq]

@[simp] theorem logAll_notable (m : Machine τ κ) (rs : List Log.Record) :
    (m.logAll rs).journal.filter Event.isNotable = m.journal.filter Event.isNotable := by
  have hr : (rs.map (Event.logged (τ := τ) (κ := κ))).reverse.filter Event.isNotable = [] := by
    simp [Event.isNotable]
  simp [logAll_eq, hr]

@[simp] theorem clearShared_sync (m : Machine τ κ) (kind : Kind) (key : CodePoints) :
    (m.clearShared kind key).sync = m.sync := by
  unfold clearShared; split <;> rfl

@[simp] theorem clearShared_journal (m : Machine τ κ) (kind : Kind) (key : CodePoints) :
    (m.clearShared kind key).journal = m.journal := by
  unfold clearShared; split <;> rfl

@[simp] theorem clearShared_duties (m : Machine τ κ) (kind : Kind) (key : CodePoints) :
    dutiesOf (m.clearShared kind key).stack = dutiesOf m.stack := by
  unfold clearShared; split <;> simp

/-! ## Every step is a turn -/

variable [Time τ] {w : World τ κ} {m x : Machine τ κ} {rest : List (Task τ κ)}

theorem Turn.same {n : Machine τ κ} (hs : n.sync = m.sync) (hd : n.duties = m.duties)
    (hh : n.history = m.history) : Turn w m n :=
  .quiet m.sync.listeners m.sync.handle.callbacks m.sync.launched hs hd hh

theorem turn_notify (c : Change τ) (hm : m.stack = .notify c :: rest) :
    Turn w m (notify { m with stack := rest } c) := by
  simp only [notify]
  split
  · rename_i h
    have hc : c.number ≤ m.sync.notified := by simpa [Synchronizer.admit?] using h
    exact .drop c hc rfl (by simp [hm]) rfl
  · rename_i s h
    have hl : s.listeners = m.sync.listeners := by
      simp only [Synchronizer.admit?] at h
      grind
    refine .deliver c (dutiesOf rest) rest h (by simp [hl]) (by simp [hm]) (by simp [hl]) ?_
    rw [← hl]; rfl

theorem turn_poll (own : Option (Response τ (Op τ κ))) (hm : m.stack = .poll own :: rest) :
    Turn w m (poll w { m with stack := rest } own) := by
  simp only [poll]
  split
  · exact .same rfl (by simp [hm]) rfl
  · rename_i s h
    cases own with
    | none => exact .fetch none rest _ hm h (by simp [respond, hm]) rfl
    | some r => exact .fetch (some r) rest _ hm h (by simp [respond, hm]) rfl

section Returned

variable (hd : m.duties = .receive :: dutiesOf x.stack) (hs : x.sync = m.sync.returned)
  (hc : x.clock = m.clock) (hcl : m.sync.state ≠ .closed)
include hd hs hcl

theorem turn_apply {s : Snapshot} (cached : Option Nat)
    (hh : x.history = .fetched m.clock (.ok s) :: m.history) : Turn w m (x.apply w s cached) := by
  have hst : x.sync.state = m.sync.state := by rw [hs]; rfl
  simp only [apply, hst]
  split
  · rename_i ha
    refine .store s _ ha hs hd (by simp) ?_
    rw [← hh]; rfl
  · rename_i ha
    exact .ignore (.ok s) hcl (by simpa using ha) hs hd hh

include hc

theorem turn_recover {f : Failure} (hf : f.isFatal = false)
    (hh : x.history = .fetched m.clock (.error f) :: m.history) :
    Turn w m (x.recover f (f.info (m.wallClock w))) := by
  simp only [recover, hs, hc]
  split
  · rename_i hr
    have ha : m.sync.state.isActive = false := by
      simp only [Synchronizer.recover?, Synchronizer.returned] at hr
      grind
    exact .ignore (.error f) hcl ha hs hd hh
  · rename_i s c hr
    refine .recover f c _ hf hr hd (by simp) ?_
    rw [← hh]; rfl

theorem turn_giveUp {f : Failure} (hf : f.isFatal = true)
    (hh : x.history = .fetched m.clock (.error f) :: m.history) :
    Turn w m (x.giveUp w f (f.info (m.wallClock w))) := by
  have hw : x.wallClock w = m.wallClock w := by simp [wallClock, hc]
  simp only [giveUp, hs, hw, hc]
  split
  · rename_i hg
    have ha : m.sync.state.isActive = false := by
      simp only [Synchronizer.giveUp?, Synchronizer.returned] at hg
      grind
    exact .ignore (.error f) hcl ha hs hd hh
  · rename_i s c hg
    have hsh : s.handle = m.sync.handle := by
      simp only [Synchronizer.giveUp?, Synchronizer.enter, Synchronizer.changed,
        Synchronizer.returned] at hg
      grind
    split
    · rename_i hi
      have hi : m.sync.state = .initialized := hi
      refine .giveUp f s c _ hf hg (by simp [hi, ← hsh]) hd (by simp) ?_
      rw [← hh]; rfl
    · rename_i hi
      have hp : m.sync.state = .polling := by
        have hi : m.sync.state ≠ .initialized := hi
        cases hst : m.sync.state <;>
          simp_all [Synchronizer.giveUp?, Synchronizer.returned, Lifecycle.isActive]
      cases hres : m.sync.handle.resolution with
      | some r => exact .twice hp (by simp [hres])
      | none =>
        simp only [resolve, Completion.resolve, record, log, push, hsh, hres]
        refine .giveUp f s c _ hf hg (by simp [hp]) hd (by simp) ?_
        rw [← hh]; rfl

end Returned

theorem turn_receive (d : Delivery) (asked : Option CacheEntry)
    (hm : m.stack = .receive d asked :: rest) :
    Turn w m (receive w { m with stack := rest } d asked) := by
  simp only [receive]
  generalize m.requester.receive asked d = r
  obtain ⟨requester, outcome, rs⟩ := r
  generalize hx : record (logAll _ rs) _ = x
  have hs : x.sync = m.sync.returned := by simp [← hx]
  have hd : m.duties = .receive :: dutiesOf x.stack := by simp [hm, ← hx]
  have hc : x.clock = m.clock := by simp [← hx]
  have hh : x.history = .fetched m.clock outcome :: m.history := by
    simp [← hx, List.filter_cons, Event.isNotable]
  have hst : x.sync.state = m.sync.state := by rw [hs]; rfl
  have hw : x.wallClock w = m.wallClock w := by simp [wallClock, hc]
  simp only [hst, hw]
  split
  · rename_i hcl
    exact .discard outcome _ hcl hs hd (by simp) hh
  · rename_i hcl
    cases outcome with
    | ok s => exact turn_apply hd hs hcl _ hh
    | error f =>
      simp only
      split
      · rename_i hf
        exact turn_giveUp hd hs hc hcl hf hh
      · rename_i hf
        exact turn_recover hd hs hc hcl (by simpa using hf) hh

theorem turn_write (s : Snapshot) (cached : Option Nat) (script : WriteScript (Op τ κ))
    (hm : m.stack = .write s cached script :: rest) :
    Turn w m (write { m with stack := rest } s cached script) := by
  simp only [write]
  split
  · exact .refuse rfl (by simp [hm]) rfl
  · exact .put (dutiesOf rest) (by simp) (by simp [hm]) (by simp) (by simp)

theorem turn_written (hm : m.stack = .written :: rest) :
    Turn w m (written w { m with stack := rest }) := by
  have hd : m.duties = .written :: dutiesOf rest := by simp [hm]
  simp only [written]
  split
  · rename_i hi
    have hp : m.sync.state ≠ .polling := by simpa [Synchronizer.initialize?] using hi
    exact .keep hp rfl hd rfl
  · rename_i s c hi
    have hp : m.sync.state = .polling := by
      by_contra hp
      simp [Synchronizer.initialize?, hp] at hi
    have hsh : s.handle = m.sync.handle := by
      simp only [Synchronizer.initialize?, Synchronizer.enter, Synchronizer.changed] at hi
      grind
    cases hres : m.sync.handle.resolution with
    | some r => exact .twice hp (by simp [hres])
    | none =>
      simp only [resolve, Completion.resolve, record, log, push, hsh, hres]
      exact .succeed s c _ hi (by simp) hd (by simp) rfl

theorem turn_pass (target : τ) (span : Span) (hm : m.stack = .pass target span :: rest) :
    Turn w m (pass w { m with stack := rest } target span) := by
  simp only [pass]
  split
  · exact .same rfl (by simp [hm]) rfl
  · split
    · exact .same rfl (by simp [callDue, hm]) rfl
    · split
      · rename_i h
        have hw : span ≠ .work := by
          rintro rfl
          simp [Span.exceeds] at h
        exact .stop target span rest hm hw rfl rfl rfl
      · exact .same rfl (by simp [hm]) rfl

variable [BEq κ]

theorem turn_perform (op : Op τ κ) (hm : m.stack = .perform op :: rest) :
    Turn w m (perform w { m with stack := rest } op) := by
  cases op with
  | start =>
    simp only [perform, start]
    split
    · exact .same rfl (by simp [hm]) rfl
    · rename_i s c h
      exact .start c h (by simp [hm]) rfl
  | close =>
    simp only [perform, close]
    split
    · exact .same rfl (by simp [hm]) rfl
    · rename_i s c h
      have hf : s.fetching = m.sync.fetching := by
        simp only [Synchronizer.close?, Synchronizer.enter, Synchronizer.changed] at h
        grind
      refine .close c h ?_ rfl
      simp only [push, log, record, hf]
      split <;> simp [hm]
  | addListener k =>
    exact .quiet (m.sync.listeners.add k) m.sync.handle.callbacks m.sync.launched rfl
      (by simp [perform, hm]) rfl
  | removeListener k =>
    exact .quiet (m.sync.listeners.remove k) m.sync.handle.callbacks m.sync.launched rfl
      (by simp [perform, hm]) rfl
  | addCallback k =>
    have hr : (m.sync.handle.addCallback k).1.resolution = m.sync.handle.resolution := by
      unfold Completion.addCallback; split <;> rfl
    refine .quiet m.sync.listeners (m.sync.handle.addCallback k).1.callbacks m.sync.launched ?_
      (by simp [perform, addCallback, hm]) rfl
    simp [perform, addCallback, ← hr]
  | get kind key reader =>
    simp only [perform, get]
    split
    · exact .same (by simp) (by simp [hm]) (by simp)
    · exact .same (by simp) (by simp [hm]) (by simp)
  | poll own =>
    simp only [perform]
    split
    · exact .same rfl (by simp [hm]) rfl
    · exact .same rfl (by simp [hm]) rfl
  | _ => exact .same rfl (by simp [perform, hm]) rfl

theorem turn_of_step {n : Machine τ κ} (h : m.step w = some n) : Turn w m n := by
  obtain ⟨task, rest, hm, rfl⟩ := step_eq_some.mp h
  cases task with
  | perform op => exact turn_perform op hm
  | notify c => exact turn_notify c hm
  | poll own => exact turn_poll own hm
  | receive d asked => exact turn_receive d asked hm
  | write s cached script => exact turn_write s cached script hm
  | written => exact turn_written hm
  | pass target span => exact turn_pass target span hm
  | tell k c =>
    refine .tell k c rfl ?_ rfl
    simp [execute, Machine.tell, hm, dutiesOf_scriptTasks _ Task.listenerRaised fun _ => rfl]
  | closeRequester =>
    refine .closeRequester rfl ?_ rfl
    simp [execute, Machine.closeRequester, hm,
      dutiesOf_scriptTasks _ Task.closingRaised fun _ => rfl]
  | invoke k =>
    refine .same rfl ?_ rfl
    simp [execute, invoke, hm, dutiesOf_scriptTasks _ Task.callbackRaised fun _ => rfl]
  | launch =>
    exact .quiet m.sync.listeners m.sync.handle.callbacks true rfl (by simp [execute, hm]) rfl
  | gather ops done =>
    cases ops with
    | nil => exact .same rfl (by simp [execute, gather, hm]) rfl
    | cons op ops => exact .same rfl (by simp [execute, gather, hm]) rfl
  | main =>
    simp only [execute, main]
    split
    · exact .same rfl (by simp [hm]) rfl
    · split <;> exact .same rfl (by simp [hm]) rfl
  | await next =>
    simp only [execute, await]
    split <;> exact .same rfl (by simp [hm]) rfl
  | wake =>
    simp only [execute, wake]
    split <;> exact .same rfl (by simp [hm]) rfl
  | ran =>
    simp only [execute, ran]
    split <;> exact .same rfl (by simp [hm]) rfl
  | _ => exact .same rfl (by simp [execute, Machine.rest, hm]) rfl

end Machine
end FlagPoll.Synchronizer
