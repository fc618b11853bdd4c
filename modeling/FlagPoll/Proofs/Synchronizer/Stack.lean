import FlagPoll.Proofs.Agenda
import FlagPoll.Proofs.Synchronizer.Turn

/-!
# FlagPoll.Proofs.Synchronizer.Stack

What a step does to the stack.

* `isBase`          — the tasks of the schedule and of idle time, which lie below all calls.
* `Leads`           — how a task leads to calls of callees, polls and writes.
* `execute_pushes`  — a call leaves the tasks below it alone and pushes no task of the schedule.
* `execute_base`    — what the tasks of the schedule push.
* `Layered`         — below a task of the schedule there are only such tasks.
-/

namespace FlagPoll

namespace Synchronizer

variable {τ κ : Type}

/-- The tasks of the schedule and of idle time. -/
def Task.isBase : Task τ κ → Bool
  | .main | .rest | .await _ | .wake | .ran => true
  | .pass _ span => span ≠ .work
  | _ => false

/-- The tasks that lead to no call of their own: what is left of a call, and callees that are yet
to be called. Listeners and fetches are left out, as only deliveries and polls lead to
them. -/
def Task.isPlain : Task τ κ → Bool
  | .give _ | .report _ | .conclude _ | .launch | .giveHandle => true
  | .notify _ | .invoke _ | .closeRequester => true
  | .listenerRaised _ | .callbackRaised _ | .closingRaised _ | .leave _ => true
  | .written => true
  | .pass _ span => span = .work
  | _ => false

/-- The tasks below one that has been done. An item of a cached data set may have been emptied in
them, by a call that is handed the item. -/
inductive Emptied (task : Task τ κ) (ts : List (Task τ κ)) : List (Task τ κ) → Prop where
  | same : Emptied task ts ts
  | clear (n : Nat) (kind : Kind) (key : CodePoints)
      (h : task = .perform (.get kind key .clear)) :
      Emptied task ts (ts.map (·.clearItem n kind key))

/-- How a task leads to another one that performs a call, polls, fetches, writes or tells a
listener. -/
inductive Leads (w : World τ κ) (due : Agenda τ (Op τ κ)) : Task τ κ → Task τ κ → Prop where
  | deliver {c : Change τ} (k : κ) : Leads w due (.notify c) (.tell k c)
  | listener {k : κ} {c : Change τ} {op : Op τ κ} (n : Nat)
      (h : op ∈ (w.listener n k c.status).ops) : Leads w due (.tell k c) (.perform op)
  | callback {k : κ} {op : Op τ κ} (n : Nat) (c : Completion τ κ)
      (h : op ∈ (w.callback n k c).ops) : Leads w due (.invoke k) (.perform op)
  | closing {op : Op τ κ} (n : Nat) (h : op ∈ (w.closing n).ops) :
      Leads w due .closeRequester (.perform op)
  | fetch {own : Option (Response τ (Op τ κ))} (d : Delivery) (asked : Option CacheEntry) :
      Leads w due (.poll own) (.receive d asked)
  | duringOwn {r : Response τ (Op τ κ)} {op : Op τ κ} (h : op ∈ r.during) :
      Leads w due (.poll (some r)) (.perform op)
  | during {op : Op τ κ} (n : Nat) (h : op ∈ (w.response n).during) :
      Leads w due (.poll none) (.perform op)
  | before {d : Delivery} {asked : Option CacheEntry} {op : Op τ κ} (n : Nat)
      (h : op ∈ (w.write n).before) : Leads w due (.receive d asked) (.perform op)
  | write {d : Delivery} {asked : Option CacheEntry} (n : Nat) (s : Snapshot)
      (cached : Option Nat) : Leads w due (.receive d asked) (.write s cached (w.write n))
  | after {s : Snapshot} {cached : Option Nat} {script : WriteScript (Op τ κ)} {op : Op τ κ}
      (h : op ∈ script.after) : Leads w due (.write s cached script) (.perform op)
  | due {target t : τ} {span : Span} {op : Op τ κ} (h : (t, op) ∈ due) :
      Leads w due (.pass target span) (.perform op)
  | within (ops : List (Op τ κ)) : Leads w due (.perform (.within ops)) (.gather ops [])
  | gather {op : Op τ κ} {ops : List (Op τ κ)} {done : List (Reading τ κ)} :
      Leads w due (.gather (op :: ops) done) (.perform op)
  | gatherRest {op : Op τ κ} {ops : List (Op τ κ)} {done : List (Reading τ κ)} :
      Leads w due (.gather (op :: ops) done) (.collect ops done)
  | gatherClose {done : List (Reading τ κ)} : Leads w due (.gather [] done) (.perform .close)
  | collect {ops : List (Op τ κ)} {done : List (Reading τ κ)} (r : Reading τ κ) :
      Leads w due (.collect ops done) (.gather ops (done ++ [r]))
  | poll (own : Option (Response τ (Op τ κ))) :
      Leads w due (.perform (.poll own)) (.poll own)

inductive BasePushes (due : Agenda τ (Op τ κ)) : List (Task τ κ) → Prop where
  | base {pushed : List (Task τ κ)} (h : ∀ t ∈ pushed, t.isBase = true) : BasePushes due pushed
  | wake (next : τ) : BasePushes due [.poll none, .ran, .await next]
  | call {t target : τ} {op : Op τ κ} {span : Span} (h : (t, op) ∈ due) (hs : span ≠ .work) :
      BasePushes due [.perform op, .conclude op, .pass target span]

theorem Leads.isBase {w : World τ κ} {due : Agenda τ (Op τ κ)} {t u : Task τ κ}
    (h : Leads w due t u) : u.isBase = false := by
  cases h <;> rfl

theorem Task.isBase_of_isPlain {t : Task τ κ} (h : t.isPlain = true) : t.isBase = false := by
  cases t <;> simp_all [Task.isPlain, Task.isBase]

theorem mem_callTasks {ops : List (Op τ κ)} {t : Task τ κ} (h : t ∈ callTasks ops) :
    t.isPlain = true ∨ ∃ op ∈ ops, t = .perform op := by
  simp only [callTasks, List.mem_flatMap, List.mem_cons, List.not_mem_nil, or_false] at h
  obtain ⟨op, hop, rfl | rfl⟩ := h
  · exact .inr ⟨op, hop, rfl⟩
  · exact .inl rfl

theorem mem_scriptTasks {script : Script (Op τ κ)} {raised : String → Task τ κ}
    (hr : ∀ message, (raised message).isPlain = true) {t : Task τ κ}
    (h : t ∈ scriptTasks script raised) :
    t.isPlain = true ∨ ∃ op ∈ script.ops, t = .perform op := by
  simp only [scriptTasks, List.mem_append, Option.mem_toList, Option.map_eq_some_iff] at h
  rcases h with h | ⟨message, -, rfl⟩
  · exact mem_callTasks h
  · exact .inl (hr message)

namespace Machine

attribute [local simp] record log push give calledOut leave setClock

/-- A stack after a task that was on top of `m`: what it pushes lies above what was below. -/
def Pushes (w : World τ κ) (m : Machine τ κ) (task : Task τ κ) (stack : List (Task τ κ)) : Prop :=
  ∃ pushed below, stack = pushed ++ below ∧ Emptied task m.stack below ∧
    ∀ t ∈ pushed, t.isPlain = true ∨ Leads w m.agenda task t

section Pushes

variable {w : World τ κ} {m : Machine τ κ} {task : Task τ κ}

theorem Pushes.of_plain (pushed : List (Task τ κ)) (h : ∀ t ∈ pushed, t.isPlain = true) :
    Pushes w m task (pushed ++ m.stack) :=
  ⟨pushed, m.stack, rfl, .same, fun t ht => .inl (h t ht)⟩

theorem Pushes.nothing : Pushes w m task m.stack := .of_plain [] (by simp)

theorem Pushes.of_leads {t : Task τ κ} (h : Leads w m.agenda task t) :
    Pushes w m task (t :: m.stack) :=
  ⟨[t], m.stack, rfl, .same, by simp [h]⟩

/-- The calls of a callee, and what is left to do after them. -/
theorem Pushes.of_calls {ops : List (Op τ κ)} (pushed : List (Task τ κ))
    (h : ∀ op ∈ ops, Leads w m.agenda task (.perform op))
    (hp : ∀ t ∈ pushed, t.isPlain = true ∨ Leads w m.agenda task t) :
    Pushes w m task (callTasks ops ++ (pushed ++ m.stack)) := by
  refine ⟨callTasks ops ++ pushed, m.stack, by simp, .same, ?_⟩
  intro t ht
  rcases List.mem_append.mp ht with ht | ht
  · rcases mem_callTasks ht with ht | ⟨op, hop, rfl⟩
    · exact .inl ht
    · exact .inr (h op hop)
  · exact hp t ht

theorem Pushes.of_script {script : Script (Op τ κ)} {raised : String → Task τ κ} (callee : Callee)
    (hr : ∀ message, (raised message).isPlain = true)
    (h : ∀ op ∈ script.ops, Leads w m.agenda task (.perform op)) :
    Pushes w m task (scriptTasks script raised ++ (.leave callee :: m.stack)) := by
  refine ⟨scriptTasks script raised ++ [.leave callee], m.stack, by simp, .same, ?_⟩
  intro t ht
  rcases List.mem_append.mp ht with ht | ht
  · rcases mem_scriptTasks hr ht with ht | ⟨op, hop, rfl⟩
    · exact .inl ht
    · exact .inr (h op hop)
  · obtain rfl := List.mem_singleton.mp ht
    exact .inl rfl

theorem Pushes.of_poll {own : Option (Response τ (Op τ κ))} {r : Response τ (Op τ κ)} {target : τ}
    {asked : Option CacheEntry} (h : ∀ op ∈ r.during, Leads w m.agenda (.poll own) (.perform op)) :
    Pushes w m (.poll own) (.pass target .work :: callTasks r.during
      ++ ([.leave .fetch, .receive r.delivery asked] ++ m.stack)) := by
  obtain ⟨pushed, below, hs, he, hp⟩ := Pushes.of_calls (w := w) (m := m)
    [.leave .fetch, .receive r.delivery asked] h (by simp [Task.isPlain, Leads.fetch])
  refine ⟨.pass target .work :: pushed, below, by simpa using hs, he, ?_⟩
  intro t ht
  rcases List.mem_cons.mp ht with rfl | ht
  · exact .inl rfl
  · exact hp t ht

theorem Pushes.of_resolve {x : Machine τ κ} {r : Resolution τ} {rest : List (Task τ κ)}
    (hx : x.stack = m.stack) (h : ∀ t ∈ rest, t.isPlain = true) :
    Pushes w m task (x.resolve r rest).stack := by
  simp only [resolve]
  split
  · simpa [hx] using Pushes.nothing
  · rename_i handle callbacks _
    have hp : Pushes w m task (callbacks.map Task.invoke ++ rest ++ m.stack) :=
      .of_plain _ fun t ht => by
        simp only [List.mem_append, List.mem_map] at ht
        rcases ht with ⟨k, -, rfl⟩ | ht
        · rfl
        · exact h t ht
    simpa [hx] using hp

end Pushes

@[simp] theorem logAll_agenda (x : Machine τ κ) (rs : List Log.Record) :
    (x.logAll rs).agenda = x.agenda := by rw [logAll_eq]

@[simp] theorem clearShared_agenda (x : Machine τ κ) (kind : Kind) (key : CodePoints) :
    (x.clearShared kind key).agenda = x.agenda := by
  unfold clearShared; split <;> rfl

@[simp] theorem resolve_agenda (x : Machine τ κ) (r : Resolution τ) (rest : List (Task τ κ)) :
    (x.resolve r rest).agenda = x.agenda := by
  unfold resolve; split <;> rfl

variable [Time τ] (w : World τ κ) (m : Machine τ κ)

theorem perform_pushes [BEq κ] (op : Op τ κ) :
    Pushes w m (.perform op) (m.perform w op).stack := by
  cases op with
  | start =>
    simp only [perform, start]
    split
    · exact .nothing
    · exact .of_plain [_, _, _] (by simp [Task.isPlain])
  | close =>
    simp only [perform, close]
    split
    · exact .nothing
    · split
      · exact .of_plain [_, _] (by simp [Task.isPlain])
      · exact .of_plain [_, _, _] (by simp [Task.isPlain])
  | within ops => exact .of_leads (.within ops)
  | addCallback k =>
    have hp : Pushes w m (.perform (.addCallback k))
        ((m.sync.handle.addCallback k).2.map Task.invoke ++ [.give .nothing] ++ m.stack) :=
      .of_plain _ fun t ht => by
        simp only [List.mem_append, List.mem_map, List.mem_singleton] at ht
        rcases ht with ⟨k, -, rfl⟩ | rfl <;> rfl
    simpa [perform, addCallback] using hp
  | get kind key reader =>
    simp only [perform, get]
    split
    · simp only [give, logAll_stack]
      unfold clearShared
      split
      · exact .nothing
      · rename_i hr _ _ _
        exact ⟨[], _, rfl, .clear _ _ _ (by rw [hr]), by simp⟩
    · simpa using Pushes.nothing
  | poll own =>
    simp only [perform]
    split
    · exact .nothing
    · exact .of_leads (.poll own)
  | _ => exact .nothing

theorem receive_pushes (d : Delivery) (asked : Option CacheEntry) :
    Pushes w m (.receive d asked) (m.receive w d asked).stack := by
  simp only [receive]
  generalize m.requester.receive asked d = r
  obtain ⟨requester, outcome, rs⟩ := r
  generalize hx : record (logAll _ rs) _ = x
  have hs : x.stack = m.stack := by simp [← hx]
  simp only
  split
  · rw [push, log, record, hs]
    exact .of_plain [_, _] (by simp [Task.isPlain])
  · split
    · rename_i s
      simp only [apply]
      split
      · have hp : Pushes w m (.receive d asked) (callTasks (w.write x.callouts).before ++
            ([.write s (m.requester.numberOf asked d) (w.write x.callouts)] ++ m.stack)) :=
          .of_calls _ (fun op hop => .before x.callouts hop)
            (by simpa using .inr (.write x.callouts _ _))
        simpa [hs] using hp
      · simpa [hs] using Pushes.nothing
    · split
      · simp only [giveUp]
        split
        · simpa [hs] using Pushes.nothing
        · split
          · simpa [hs] using Pushes.of_plain [_, _] (by simp [Task.isPlain])
          · exact .of_resolve hs (by simp [Task.isPlain])
      · simp only [recover]
        split
        · simpa [hs] using Pushes.nothing
        · simpa [hs] using Pushes.of_plain [_, _] (by simp [Task.isPlain])

theorem execute_pushes [BEq κ] {task : Task τ κ} (h : task.isBase = false) :
    Pushes w m task (m.execute w task).stack := by
  cases task with
  | perform op => exact perform_pushes w m op
  | receive d asked => exact receive_pushes w m d asked
  | gather ops done =>
    cases ops with
    | nil =>
      refine ⟨[.perform .close, _], m.stack, rfl, .same, ?_⟩
      simp [Task.isPlain, Leads.gatherClose]
    | cons op ops =>
      refine ⟨[.perform op, .collect ops done], m.stack, rfl, .same, ?_⟩
      simp [Leads.gather, Leads.gatherRest]
  | collect ops done => exact .of_leads (.collect m.reading)
  | notify c =>
    simp only [execute, notify]
    split
    · exact .nothing
    · refine ⟨_, m.stack, rfl, .same, fun t ht => .inr ?_⟩
      obtain ⟨k, -, rfl⟩ := List.mem_map.mp ht
      exact .deliver k
  | tell k c =>
    simpa [execute, tell] using Pushes.of_script .listener (fun _ => rfl)
      (fun op hop => .listener m.callouts hop)
  | invoke k =>
    simpa [execute, invoke] using Pushes.of_script .callback (fun _ => rfl)
      (fun op hop => .callback m.callouts m.sync.handle hop)
  | closeRequester =>
    simpa [execute, closeRequester] using Pushes.of_script .closing (fun _ => rfl)
      (fun op hop => .closing m.callouts hop)
  | poll own =>
    simp only [execute, poll]
    split
    · exact .nothing
    · cases own with
      | none =>
        simpa [respond] using Pushes.of_poll (m := m) fun op hop => .during m.responses hop
      | some r => simpa [respond] using Pushes.of_poll (m := m) fun op hop => .duringOwn hop
  | write s cached script =>
    simp only [execute, write]
    split
    · exact .nothing
    · simpa using Pushes.of_calls [_, _] (fun op hop => .after hop)
        (by simp [Task.isPlain])
  | written =>
    simp only [execute, written]
    split
    · exact .nothing
    · exact .of_resolve rfl (by simp [Task.isPlain])
  | pass target span =>
    simp only [execute, pass]
    split
    · exact .nothing
    · split
      · rename_i e due hdue
        refine ⟨[.perform e.2, .conclude e.2, .pass target span], m.stack, rfl, .same, ?_⟩
        have hd : (e.1, e.2) ∈ m.agenda := by simp [Agenda.eq_of_due hdue]
        simp_all [Task.isPlain, Task.isBase, Leads.due hd]
      · have hs : span = .work := by simpa [Task.isBase] using h
        simpa [Span.exceeds, hs] using Pushes.nothing
  | main | rest | await next | wake | ran => simp [Task.isBase] at h
  | _ => exact .nothing

theorem execute_base [BEq κ] {task : Task τ κ} (h : task.isBase = true) :
    (m.execute w task).stack = [] ∨
      ∃ pushed, (m.execute w task).stack = pushed ++ m.stack ∧ BasePushes m.agenda pushed := by
  have nothing : BasePushes m.agenda [] := .base (by simp)
  cases task with
  | main =>
    right
    simp only [execute, main]
    split
    · exact ⟨[_, _], rfl, .base (by simp [Task.isBase])⟩
    · split
      · exact ⟨[_, _], rfl, .base (by simp [Task.isBase])⟩
      · exact ⟨[], rfl, nothing⟩
  | rest => exact .inr ⟨[_], rfl, .base (by simp [Task.isBase])⟩
  | await next =>
    right
    simp only [execute, await]
    split
    · exact ⟨[], rfl, nothing⟩
    · exact ⟨[_, _], rfl, .base (by simp [Task.isBase])⟩
  | wake =>
    right
    simp only [execute, wake]
    split
    · exact ⟨[], rfl, nothing⟩
    · exact ⟨[_, _, _], rfl, .wake _⟩
  | ran =>
    right
    simp only [execute, ran]
    split <;> exact ⟨[], rfl, nothing⟩
  | pass target span =>
    have hs : span ≠ .work := by simpa [Task.isBase] using h
    simp only [execute, pass]
    split
    · exact .inr ⟨[], rfl, nothing⟩
    · split
      · rename_i e due hdue
        have hd : (e.1, e.2) ∈ m.agenda := by simp [Agenda.eq_of_due hdue]
        exact .inr ⟨[_, _, _], rfl, .call hd hs⟩
      · split
        · exact .inl rfl
        · exact .inr ⟨[], rfl, nothing⟩
  | _ => simp [Task.isBase] at h

/-! ## Calls that are due -/

theorem receive_agenda (d : Delivery) (asked : Option CacheEntry) :
    (m.receive w d asked).agenda = m.agenda := by
  simp only [receive]
  generalize m.requester.receive asked d = r
  obtain ⟨requester, outcome, rs⟩ := r
  generalize hx : record (logAll _ rs) _ = x
  have hs : x.agenda = m.agenda := by simp [← hx]
  simp only
  split
  · exact hs
  · split
    · unfold apply
      split <;> exact hs
    · split
      · unfold giveUp
        split
        · exact hs
        · split
          · exact hs
          · simpa using hs
      · unfold recover
        split <;> exact hs

/-- Calls that are due are made in order, and none is added. -/
theorem execute_agenda [BEq κ] (task : Task τ κ) : (m.execute w task).agenda <:+ m.agenda := by
  cases task with
  | perform op =>
    cases op with
    | start => simp only [execute, perform, start]; split <;> exact List.suffix_rfl
    | close => simp only [execute, perform, close]; split <;> exact List.suffix_rfl
    | get kind key reader =>
      simp only [execute, perform, get]
      split <;> simp
    | poll own => simp only [execute, perform]; split <;> exact List.suffix_rfl
    | _ => exact List.suffix_rfl
  | gather ops done => cases ops <;> exact List.suffix_rfl
  | notify c => simp only [execute, notify]; split <;> exact List.suffix_rfl
  | poll own =>
    simp only [execute, poll]
    split
    · exact List.suffix_rfl
    · cases own <;> exact List.suffix_rfl
  | receive d asked => simp [execute, receive_agenda]
  | write s cached script =>
    simp only [execute, write]
    split <;> simp
  | written =>
    simp only [execute, written]
    split <;> simp
  | pass target span =>
    simp only [execute, pass]
    split
    · exact List.suffix_rfl
    · split
      · rename_i e due hdue
        rw [Agenda.eq_of_due hdue]
        exact List.suffix_cons e due
      · split <;> exact List.suffix_rfl
  | main =>
    simp only [execute, main]
    split
    · exact List.suffix_rfl
    · split <;> exact List.suffix_rfl
  | await next => simp only [execute, await]; split <;> exact List.suffix_rfl
  | wake => simp only [execute, wake]; split <;> exact List.suffix_rfl
  | ran => simp only [execute, ran]; split <;> exact List.suffix_rfl
  | _ => exact List.suffix_rfl

end Machine
end Synchronizer
end FlagPoll
