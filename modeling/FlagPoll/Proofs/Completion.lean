import FlagPoll.Completion.Session
import FlagPoll.Number
import Mathlib.Data.List.TakeWhile

/-!
# FlagPoll.Proofs.Completion

Sessions of calls on a completion handle, with callbacks that make such calls themselves.

* `Run`       — sessions that follow each other, the latest first.
* `performed` — the calls that have been made, those of callbacks included.
* `told`, `due` — the callbacks that have been called, and those that are about to be.
* `Turn`      — what a step does to the handle and its callbacks.
* `Answers`   — what a call comes to.
* `handle_resolves_once` — the first call that resolves the handle decides it for good, and each
  registration leads to one call.
-/

namespace FlagPoll.Completion

variable {τ κ : Type}

/-- What a call resolves the handle to, if it is such a call. -/
def Op.resolution? : Op τ κ → Option (Resolution τ)
  | .succeed => some .succeeded
  | .fail reason => some (.failed reason)
  | _ => none

def Op.callback? : Op τ κ → Option κ
  | .addCallback k => some k
  | _ => none

def Task.callback? : Task τ κ → Option κ
  | .invoke k => some k
  | _ => none

/-- A callback that is called, and the handle as it shows itself to it. -/
def Event.call? : Event τ κ → Option (κ × Completion τ κ)
  | .called k c => some (k, c)
  | _ => none

/-- The callbacks that some calls register, in order. -/
def registered (ops : List (Op τ κ)) : List κ := ops.filterMap Op.callback?

/-- Those of them that are registered before the handle is resolved. -/
def early (ops : List (Op τ κ)) : List κ := registered (ops.takeWhile (·.resolution?.isNone))

section Calls

variable {ops : List (Op τ κ)} {op : Op τ κ}

theorem isNone_of_findSome? (h : ops.findSome? Op.resolution? = none) :
    ∀ op ∈ ops, op.resolution?.isNone = true := by
  intro op hop
  rw [List.findSome?_eq_none_iff.mp h op hop]
  rfl

theorem early_resolving (h : ops.findSome? Op.resolution? = none) (hop : op.resolution? ≠ none) :
    early (ops ++ [op]) = registered ops := by
  have hop : op.resolution?.isNone = false := by
    cases hr : op.resolution? with
    | none => exact absurd hr hop
    | some r => rfl
  rw [early, List.takeWhile_append_of_pos (isNone_of_findSome? h)]
  simp [hop]

/-- No callback is early any more once the handle is resolved. -/
theorem early_resolved (h : ops.findSome? Op.resolution? ≠ none) :
    early (ops ++ [op]) = early ops := by
  have hlen : (ops.takeWhile (·.resolution?.isNone)).length ≠ ops.length := by
    intro hlen
    apply h
    have hall := List.takeWhile_eq_self_iff.mp
      ((List.takeWhile_sublist _).eq_of_length hlen)
    exact List.findSome?_eq_none_iff.mpr fun op hop => Option.isNone_iff_eq_none.mp (hall op hop)
  rw [early, List.takeWhile_append, if_neg hlen]
  rfl

end Calls

@[simp] theorem callback?_scriptTasks (script : Script (Op τ κ)) :
    (scriptTasks script).filterMap Task.callback? = [] := by
  rw [List.filterMap_eq_nil_iff]
  intro t ht
  simp only [scriptTasks, List.mem_append, List.mem_flatMap, List.mem_cons, List.not_mem_nil,
    or_false, Option.mem_toList, Option.map_eq_some_iff] at ht
  rcases ht with ⟨op, -, rfl | rfl⟩ | ⟨message, -, rfl⟩ <;> rfl

theorem callback?_map_invoke (ks : List κ) :
    (ks.map (Task.invoke (τ := τ))).filterMap Task.callback? = ks := by
  induction ks with
  | nil => rfl
  | cons k ks ih => simpa [Task.callback?] using ih

namespace Session

variable {callees : κ → Script (Op τ κ)} {s t : Session τ κ} {ss : List (Session τ κ)}

/-- Sessions that follow each other, the latest first. -/
inductive Run (callees : κ → Script (Op τ κ)) : List (Session τ κ) → Prop where
  | start : Run callees [start]
  | call {s : Session τ κ} {ss : List (Session τ κ)} (op : Op τ κ) (h : Run callees (s :: ss))
      (hs : s.stack = []) :
      Run callees ({ s with stack := [.perform op], reading := .nothing } :: s :: ss)
  | step {s t : Session τ κ} {ss : List (Session τ κ)} (h : Run callees (s :: ss))
      (ht : s.step callees = some t) : Run callees (t :: s :: ss)

/-- The call that is about to be made. -/
def next? (s : Session τ κ) : Option (Op τ κ) :=
  match s.stack with
  | .perform op :: _ => some op
  | _ => none

/-- The calls that have been made, those of callbacks included, the first one first. -/
def performed (ss : List (Session τ κ)) : List (Op τ κ) := (ss.filterMap next?).reverse

/-- The calls of callbacks, the latest first. -/
def tellings (s : Session τ κ) : List (κ × Completion τ κ) := s.journal.filterMap Event.call?

/-- The callbacks that have been called, the first one first. -/
def told (s : Session τ κ) : List κ := (s.tellings.map Prod.fst).reverse

/-- The callbacks that are about to be called, the next one first. -/
def due (s : Session τ κ) : List κ := s.stack.filterMap Task.callback?

/-! ## What a step does -/

/-- What a step can do to the handle and its callbacks. -/
inductive Turn (s t : Session τ κ) : Prop where
  /-- No call is made, or one that leaves the handle as it is. -/
  | quiet (hn : ∀ op, s.next? = some op → op.callback? = none ∧
        (op.resolution? = none ∨ s.handle.resolution ≠ none))
      (hh : t.handle = s.handle) (ht : t.tellings = s.tellings) (hd : t.due = s.due)
  | resolve (op : Op τ κ) (r : Resolution τ) (hn : s.next? = some op) (hr : op.resolution? = some r)
      (hs : s.handle.resolution = none) (hh : t.handle = ⟨some r, []⟩)
      (ht : t.tellings = s.tellings) (hd : t.due = s.handle.callbacks ++ s.due)
  | register (k : κ) (hn : s.next? = some (.addCallback k)) (hs : s.handle.resolution = none)
      (hh : t.handle = ⟨none, s.handle.callbacks ++ [k]⟩) (ht : t.tellings = s.tellings)
      (hd : t.due = s.due)
  /-- A callback is registered too late to wait. -/
  | late (k : κ) (hn : s.next? = some (.addCallback k)) (hs : s.handle.resolution ≠ none)
      (hh : t.handle = s.handle) (ht : t.tellings = s.tellings) (hd : t.due = k :: s.due)
  | tell (k : κ) (hn : s.next? = none) (hh : t.handle = s.handle)
      (ht : t.tellings = (k, s.handle) :: s.tellings) (hd : s.due = k :: t.due)

section Step

variable {rest : List (Task τ κ)}

attribute [local simp] next? tellings due push record Task.callback? Event.call? Op.callback?
attribute [local simp] Op.resolution? List.filterMap_cons

theorem step_perform {op : Op τ κ} (h : s.stack = .perform op :: rest) :
    s.step callees = some ({ s with stack := rest }.perform op) := by
  simp [step, h]

theorem turn_resolve {op : Op τ κ} {r : Resolution τ} (h : s.stack = .perform op :: rest)
    (hr : op.resolution? = some r) : Turn s ({ s with stack := rest }.resolve r) := by
  have hn : s.next? = some op := by simp [h]
  have hd : s.due = rest.filterMap Task.callback? := by simp [h]
  cases hs : s.handle.resolution with
  | none =>
    simp only [Session.resolve, Completion.resolve, hs]
    refine .resolve op r hn hr hs rfl rfl ?_
    simp only [due, push, List.filterMap_append, callback?_map_invoke, List.append_assoc]
    simp [h]
  | some q =>
    simp only [Session.resolve, Completion.resolve, hs]
    refine .quiet ?_ rfl rfl hd.symm
    intro op' hop'
    obtain rfl : op = op' := Option.some.inj (hn.symm.trans hop')
    cases op <;> simp_all

theorem turn_addCallback {k : κ} (h : s.stack = .perform (.addCallback k) :: rest) :
    Turn s ({ s with stack := rest }.perform (.addCallback k)) := by
  have hn : s.next? = some (.addCallback k) := by simp [h]
  cases hs : s.handle.resolution with
  | none =>
    refine .register k hn hs ?_ rfl ?_
    · simp [perform, addCallback, hs]
    · simp [perform, addCallback, hs, h]
  | some r =>
    refine .late k hn (by simp [hs]) ?_ rfl ?_
    · simp [perform, addCallback, hs]
    · simp [perform, addCallback, hs, h]

theorem turn_of_step (h : s.step callees = some t) : Turn s t := by
  cases hm : s.stack with
  | nil => simp [step, hm] at h
  | cons task rest =>
    cases task with
    | perform op =>
      obtain rfl : { s with stack := rest }.perform op = t := by simpa [step_perform hm] using h
      cases op with
      | succeed => exact turn_resolve hm rfl
      | fail reason => exact turn_resolve hm rfl
      | addCallback k => exact turn_addCallback hm
      | look | wait timeout | result timeout =>
        exact .quiet (by simp [hm]) rfl rfl (by simp [perform, hm])
    | invoke k =>
      obtain rfl : _ = t := by simpa [step, hm] using h
      exact .tell k (by simp [hm]) rfl (by simp) (by simp [hm])
    | give reading | report op | caught message =>
      obtain rfl : _ = t := by simpa [step, hm] using h
      exact .quiet (by simp [hm]) rfl (by simp) (by simp [hm])

end Step

/-! ## Callbacks over a run -/

/-- Where the callbacks are that some calls have registered: as long as the handle is pending they
wait in it, and then they are called one after the other. -/
structure Kept (ops : List (Op τ κ)) (s : Session τ κ) : Prop where
  resolution : s.handle.resolution = ops.findSome? Op.resolution?
  pending (h : s.handle.resolution = none) :
    s.handle.callbacks = registered ops ∧ s.told = [] ∧ s.due = []
  resolved (h : s.handle.resolution ≠ none) :
    s.handle.callbacks = [] ∧ (s.told ++ s.due).Perm (registered ops) ∧
      (early ops).Sublist (s.told ++ s.due)
  shown : ∀ e ∈ s.tellings, e.2 = s.handle

theorem performed_cons (s : Session τ κ) (ss : List (Session τ κ)) :
    performed (s :: ss) = performed ss ++ s.next?.toList := by
  cases h : s.next? <;> simp [performed, h]

variable {ops : List (Op τ κ)}

theorem Kept.quiet (h : Kept ops s) {more : List (Op τ κ)}
    (hn : ∀ op ∈ more, op.callback? = none ∧ (op.resolution? = none ∨ s.handle.resolution ≠ none))
    (hlen : more.length ≤ 1) (hh : t.handle = s.handle) (ht : t.tellings = s.tellings)
    (hd : t.due = s.due) : Kept (ops ++ more) t := by
  have htold : t.told = s.told := by rw [told, told, ht]
  have hreg : registered (ops ++ more) = registered ops := by
    have hmore : registered more = [] := List.filterMap_eq_nil_iff.mpr fun op hop => (hn op hop).1
    rw [registered, List.filterMap_append]
    simpa [registered] using hmore
  refine ⟨?_, ?_, ?_, ?_⟩
  · rw [hh, h.resolution, List.findSome?_append]
    cases hf : ops.findSome? Op.resolution? with
    | some r => rfl
    | none =>
      rw [Option.none_or]
      refine (List.findSome?_eq_none_iff.mpr fun op hop => ?_).symm
      exact (hn op hop).2.resolve_right fun hne => hne (h.resolution.trans hf)
  · rw [hh, hreg, htold, hd]
    exact h.pending
  · rw [hh, hreg, htold, hd]
    intro hr
    have hearly : early (ops ++ more) = early ops := by
      match more, hlen with
      | [], _ => simp
      | [op], _ => exact early_resolved (h.resolution ▸ hr)
    rw [hearly]
    exact h.resolved hr
  · rw [hh, ht]
    exact h.shown

theorem Kept.turn (h : Kept ops s) (ht : Turn s t) : Kept (ops ++ s.next?.toList) t := by
  cases ht with
  | quiet hn hh ht hd =>
    refine h.quiet (fun op hop => hn op (by simpa using hop)) ?_ hh ht hd
    cases s.next? <;> simp
  | resolve op r hn hr hs hh ht hd =>
    obtain ⟨hcallbacks, htold, hdue⟩ := h.pending hs
    have hf : ops.findSome? Op.resolution? = none := h.resolution ▸ hs
    have hop : op.callback? = none := by cases op <;> simp_all [Op.resolution?, Op.callback?]
    have hreg : registered (ops ++ [op]) = registered ops := by simp [registered, hop]
    have htold : t.told = [] := by rw [told, ht]; exact htold
    have hnone : s.tellings = [] := by simpa [told, ht] using htold
    rw [hdue, List.append_nil, hcallbacks] at hd
    rw [hn, Option.toList_some]
    refine ⟨?_, ?_, fun _ => ⟨by rw [hh], ?_, ?_⟩, ?_⟩
    · rw [hh, List.findSome?_append, hf]
      simp [hr]
    · simp [hh]
    · rw [htold, hd, hreg]
      exact List.Perm.refl _
    · rw [htold, hd, early_resolving hf (by simp [hr])]
      exact List.Sublist.refl _
    · simp [ht, hnone]
  | register k hn hs hh ht hd =>
    obtain ⟨hcallbacks, htold, hdue⟩ := h.pending hs
    have hf : ops.findSome? Op.resolution? = none := h.resolution ▸ hs
    have hnone : s.tellings = [] := by simpa [told] using htold
    rw [hn, Option.toList_some]
    refine ⟨?_, fun _ => ⟨?_, ?_, ?_⟩, ?_, ?_⟩
    · rw [hh, List.findSome?_append, hf]
      rfl
    · simp [hh, hcallbacks, registered, Op.callback?]
    · rw [told, ht]
      exact htold
    · rw [hd, hdue]
    · simp [hh]
    · simp [ht, hnone]
  | late k hn hs hh ht hd =>
    obtain ⟨hcallbacks, hperm, hsub⟩ := h.resolved hs
    have hf : ops.findSome? Op.resolution? ≠ none := h.resolution ▸ hs
    have htold : t.told = s.told := by rw [told, told, ht]
    rw [hn, Option.toList_some]
    refine ⟨?_, fun hr => absurd (hh ▸ hr) hs, fun _ => ⟨hh ▸ hcallbacks, ?_, ?_⟩, ?_⟩
    · rw [hh, h.resolution, List.findSome?_append]
      cases hq : ops.findSome? Op.resolution? with
      | none => exact absurd hq hf
      | some r => rfl
    · have hreg : registered (ops ++ [.addCallback k]) = registered ops ++ [k] := by
        simp [registered, Op.callback?]
      rw [htold, hd, hreg]
      refine List.perm_middle.trans ?_
      exact (hperm.cons k).trans (List.perm_append_singleton k _).symm
    · rw [htold, hd, early_resolved hf]
      exact hsub.trans ((List.sublist_cons_self k _).append_left s.told)
    · rw [ht, hh]
      exact h.shown
  | tell k hn hh ht hd =>
    have hs : s.handle.resolution ≠ none := fun hs => by simp [(h.pending hs).2.2] at hd
    obtain ⟨hcallbacks, hperm, hsub⟩ := h.resolved hs
    have hall : t.told ++ t.due = s.told ++ s.due := by simp [told, ht, hd]
    rw [hn, Option.toList_none, List.append_nil]
    refine ⟨hh ▸ h.resolution, fun hr => absurd (hh ▸ hr) hs, fun _ => ⟨hh ▸ hcallbacks, ?_, ?_⟩, ?_⟩
    · rwa [hall]
    · rwa [hall]
    · rw [ht, hh]
      exact List.forall_mem_cons.mpr ⟨rfl, h.shown⟩

theorem kept_of_run (h : Run callees (s :: ss)) : Kept (performed ss) s := by
  suffices hall : ∀ l, Run callees l → ∀ s ss, l = s :: ss → Kept (performed ss) s from
    hall _ h s ss rfl
  intro l h
  induction h with
  | start =>
    rintro s ss ⟨⟩
    exact ⟨rfl, fun _ => ⟨rfl, rfl, rfl⟩, fun h => absurd rfl h, by simp [start, tellings]⟩
  | @call s ss op h hs ih =>
    rintro t ts ⟨⟩
    have hk := ih s ss rfl
    have hn : s.next? = none := by simp [next?, hs]
    rw [performed_cons, hn, Option.toList_none]
    exact hk.quiet (by simp) (by simp) rfl rfl (by simp [due, hs, Task.callback?])
  | @step s t ss h ht ih =>
    rintro u us ⟨⟩
    rw [performed_cons]
    exact (ih s ss rfl).turn (turn_of_step ht)

/-! ## What calls come to -/

/-- What a call comes to that is made next, and all that it changes. -/
structure Answers (callees : κ → Script (Op τ κ)) (s : Session τ κ) (op : Op τ κ)
    (rest : List (Task τ κ)) : Prop where
  resolve (r : Resolution τ) (hr : op.resolution? = some r) (hs : s.handle.resolution = none) :
    s.step callees = some { s with
      handle := ⟨some r, []⟩, stack := s.handle.callbacks.map .invoke ++ .give .nothing :: rest }
  refuse (r : Resolution τ) (hr : op.resolution? = some r) (hs : s.handle.resolution ≠ none) :
    s.step callees = some { s with
      stack := rest, reading := .refused (.alreadyResolved s.handle.progress) }
  register (k : κ) (hk : op = .addCallback k) (hs : s.handle.resolution = none) :
    s.step callees = some { s with
      handle := ⟨none, s.handle.callbacks ++ [k]⟩, stack := .give .nothing :: rest }
  /-- A callback that comes too late to wait is called at once, and the call that registers it
  returns only after it. -/
  late (k : κ) (hk : op = .addCallback k) (hs : s.handle.resolution ≠ none) :
    ∃ t, s.step callees = some t ∧ t.step callees = some { s with
      stack := scriptTasks (callees k) ++ .give .nothing :: rest,
      journal := .called k s.handle :: s.journal }
  wait (timeout : Option τ) (hw : op = .wait timeout) :
    s.step callees = some { s with
      stack := rest
      reading := if s.handle.done then .flag true else if timeout.isSome then .flag false
        else .endless }
  timeout (t : τ) (ht : op = .result (some t)) (hs : s.handle.resolution = none) :
    s.step callees = some { s with stack := rest, reading := .refused (.notCompleted t) }
  result (timeout : Option τ) (ht : op = .result timeout) (hs : s.handle.resolution ≠ none) :
    ∃ o : Outcome τ, s.step callees = some { s with stack := rest, reading := .outcome o } ∧
      o.isSuccess = s.handle.succeeded ∧
      ∀ reason, s.handle.resolution = some (.failed reason) →
        o.trouble = some (.initialization reason) ∧
        o.error = if reason.message.getD "" = "" then some reason.kind.name else reason.message

theorem ErrorInfo.text_eq (e : ErrorInfo τ) :
    some e.text = if e.message.getD "" = "" then some e.kind.name else e.message := by
  unfold FlagPoll.ErrorInfo.text
  cases e.message with
  | none => simp
  | some m => by_cases hm : m = "" <;> simp [hm]

theorem answers {op : Op τ κ} {rest : List (Task τ κ)} (h : s.stack = .perform op :: rest) :
    Answers callees s op rest := by
  have hstep : s.step callees = some ({ s with stack := rest }.perform op) := step_perform h
  have hresolve (r : Resolution τ) (hr : op.resolution? = some r) :
      s.step callees = some ({ s with stack := rest }.resolve r) := by
    rw [hstep]
    cases op <;> simp_all [Op.resolution?, perform]
  refine ⟨?_, ?_, ?_, ?_, ?_, ?_, ?_⟩
  · intro r hr hs
    rw [hresolve r hr]
    simp [Session.resolve, Completion.resolve, hs, push]
  · intro r hr hs
    rw [hresolve r hr]
    simp only [Session.resolve, resolve_resolved hs]
  · rintro k rfl hs
    rw [hstep]
    simp [perform, addCallback, hs, push]
  · rintro k rfl hs
    refine ⟨_, hstep, ?_⟩
    obtain ⟨r, hr⟩ := Option.ne_none_iff_exists'.mp hs
    simp [perform, addCallback, hr, push, step, record]
  · rintro timeout rfl
    rw [hstep]
    cases hr : s.handle.resolution <;> cases timeout <;>
      simp [perform, Completion.wait, Completion.done, hr]
  · rintro t rfl hs
    rw [hstep]
    simp [perform, Completion.result, hs]
  · rintro timeout rfl hs
    obtain ⟨r, hr⟩ := Option.ne_none_iff_exists'.mp hs
    refine ⟨outcomeOf r, ?_, ?_, ?_⟩
    · rw [hstep]
      simp [perform, Completion.result, hr]
    · cases r <;> simp [outcomeOf, Outcome.isSuccess, Outcome.success, Outcome.fail,
        Completion.succeeded, Completion.progress, hr]
    · intro reason hreason
      obtain rfl : r = .failed reason := by simpa [hr] using hreason
      exact ⟨rfl, ErrorInfo.text_eq reason⟩

/-- Whatever calls are made on a handle, and whatever its callbacks do: the first call that resolves
it decides it for good, its error with it, and later ones are refused. As long as it is pending no
callback is called; then each registration leads to one call of its callback, which sees the handle
as it stays. Those that have waited are called in order, and those that come later at once. -/
theorem handle_resolves_once (h : Run callees (s :: ss)) :
    (s.handle.resolution = (performed ss).findSome? Op.resolution? ∧
      (s.handle.done = true ↔ ∃ r, s.handle.resolution = some r) ∧
      (s.handle.succeeded = true ↔ (performed ss).findSome? Op.resolution? = some .succeeded) ∧
      ∀ reason, s.handle.error = some reason ↔
        (performed ss).findSome? Op.resolution? = some (.failed reason)) ∧
    (s.handle.resolution = none → s.told = []) ∧
    (s.handle.resolution ≠ none →
      (s.told ++ s.due).Perm (registered (performed ss)) ∧
      (early (performed ss)).Sublist (s.told ++ s.due) ∧
      (s.stack = [] → s.told.Perm (registered (performed ss)))) ∧
    (∀ k c, .called k c ∈ s.journal → c = s.handle) ∧
    (∀ op rest, s.stack = .perform op :: rest → Answers callees s op rest) := by
  obtain ⟨hres, hpend, hresd, hshown⟩ := kept_of_run h
  refine ⟨⟨hres, Option.isSome_iff_exists, ?_, fun reason => ?_⟩, fun hs => (hpend hs).2.1, ?_, ?_,
    fun op rest hm => answers hm⟩
  · rw [← hres]
    exact succeeded_iff
  · rw [← hres]
    exact error_eq_some_iff
  · intro hs
    obtain ⟨-, hperm, hsub⟩ := hresd hs
    refine ⟨hperm, hsub, fun hrest => ?_⟩
    simpa [due, hrest] using hperm
  · intro k c hc
    exact hshown (k, c) (List.mem_filterMap.mpr ⟨_, hc, rfl⟩)

/-! ## A callback that registers another one -/

theorem Run.run (h : Run callees (s :: ss)) (fuel : Nat) :
    ∃ ts, Run callees (Session.run callees fuel s :: ts) := by
  induction fuel generalizing s ss with
  | zero => exact ⟨ss, h⟩
  | succ fuel ih =>
    simp only [Session.run]
    split
    · exact ⟨ss, h⟩
    · rename_i t ht
      exact ih (.step h ht)

theorem Run.calls (h : Run callees (s :: ss)) (op : Op τ κ) (fuel : Nat) (hs : s.stack = []) :
    ∃ ts, Run callees (s.call callees fuel op :: ts) :=
  Run.run (.call op h hs) fuel

/-- The first callback registers another one and tries to fail the handle before it raises. -/
def meddling (k : Nat) : Script (Op Number Nat) :=
  if k = 0 then ⟨[.addCallback 2, .fail ⟨.unknown, 0, 0, none⟩], some "done"⟩ else .quiet

/-- The reason that comes first stays the error, whatever is tried afterwards. -/
theorem handle_resolves_once_meddling : ∃ s ss, Run meddling (s :: ss) ∧ s.stack = [] ∧
    s.reading = .refused (.alreadyResolved .failed) ∧ s.told = [0, 2, 1] ∧
    s.handle.error = some ⟨.networkError, 0, 5, some "down"⟩ ∧
    s.told.Perm (registered (performed ss)) := by
  have h : Run meddling [.start] := .start
  obtain ⟨_, h⟩ := h.calls (.addCallback 0) 2 rfl
  obtain ⟨_, h⟩ := h.calls (.addCallback 1) 2 rfl
  obtain ⟨_, h⟩ := h.calls (.fail ⟨.networkError, 0, 5, some "down"⟩) 20 rfl
  obtain ⟨ss, h⟩ := h.calls .succeed 2 rfl
  obtain ⟨⟨hres, -, -, herror⟩, -, hcalled, -⟩ := handle_resolves_once h
  obtain ⟨-, -, hrest⟩ := hcalled (by decide)
  exact ⟨_, ss, h, rfl, rfl, rfl, (herror _).mpr (hres ▸ rfl), hrest rfl⟩

end Session
end FlagPoll.Completion
