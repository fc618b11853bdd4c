import FlagPoll.Listeners.Session

/-!
# FlagPoll.Proofs.Listeners

Sessions of calls on one set of listeners, with listeners that make such calls themselves.

* `Registered`  — the registrations that some calls lead to.
* `Finds`       — the notifications among some calls, and whom each of them finds registered.
* `Run`         — sessions that follow each other, the latest first.
* `performed`   — the calls that have been made, those of listeners included.
* `told`, `due` — whom a notification has called, and whom it is still to call.
* `Turn`        — what a step does to registrations and notifications.
* `notifies_whom_it_found` — every notification calls those who were registered when it began.
-/

namespace FlagPoll.Listeners

variable {κ ν : Type}

/-- The registrations that some calls lead to, in order. -/
inductive Registered [BEq κ] : List (Op κ ν) → List κ → Prop where
  | nobody : Registered [] []
  | add {ops : List (Op κ ν)} {ls : List κ} (k : κ) (h : Registered ops ls) :
      Registered (ops ++ [.add k]) (ls ++ [k])
  /-- The first registration of a listener is taken away, and the others stay. -/
  | remove {ops : List (Op κ ν)} {before after : List κ} {l : κ} (k : κ)
      (h : Registered ops (before ++ l :: after)) (hl : (l == k) = true)
      (hb : ∀ x ∈ before, (x == k) = false) : Registered (ops ++ [.remove k]) (before ++ after)
  | unknown {ops : List (Op κ ν)} {ls : List κ} (k : κ) (h : Registered ops ls)
      (hk : ∀ x ∈ ls, (x == k) = false) : Registered (ops ++ [.remove k]) ls
  | notify {ops : List (Op κ ν)} {ls : List κ} (value : ν) (h : Registered ops ls) :
      Registered (ops ++ [.notify value]) ls

def Op.isNotify : Op κ ν → Bool
  | .notify _ => true
  | _ => false

/-- The notifications among some calls, each with its number and the listeners that the calls
before it have left registered. -/
def Finds [BEq κ] (ops : List (Op κ ν)) (n : Nat) (ls : List κ) (value : ν) : Prop :=
  ∃ before after, ops = before ++ .notify value :: after ∧ n = before.countP Op.isNotify ∧
    Registered before ls

/-- What one call does to the registrations. -/
def after [BEq κ] (ls : Listeners κ) : Op κ ν → Listeners κ
  | .add k => ls.add k
  | .remove k => ls.remove k
  | .notify _ => ls

section Calls

variable [BEq κ] {ops : List (Op κ ν)} {ls : List κ} {op : Op κ ν} {n : Nat} {value : ν}

/-- A listener is found at its first place among some listeners, or nowhere. -/
theorem found_or_unknown (ls : List κ) (k : κ) :
    (∃ before l rest, ls = before ++ l :: rest ∧ (l == k) = true ∧
      ∀ x ∈ before, (x == k) = false) ∨ ∀ x ∈ ls, (x == k) = false := by
  induction ls with
  | nil => exact .inr (by simp)
  | cons x ls ih =>
    cases hx : x == k with
    | true => exact .inl ⟨[], x, ls, rfl, hx, by simp⟩
    | false =>
      rcases ih with ⟨before, l, rest, rfl, hl, hb⟩ | hk
      · exact .inl ⟨x :: before, l, rest, rfl, hl, List.forall_mem_cons.mpr ⟨hx, hb⟩⟩
      · exact .inr (List.forall_mem_cons.mpr ⟨hx, hk⟩)

theorem remove_cons_of_ne {x k : κ} (hx : (x == k) = false) (ls : List κ) :
    Listeners.remove (x :: ls) k = x :: Listeners.remove ls k := by
  simp [remove, List.erase, hx]

theorem remove_append_cons {before : List κ} {l k : κ} (hl : (l == k) = true)
    (hb : ∀ x ∈ before, (x == k) = false) (rest : List κ) :
    Listeners.remove (before ++ l :: rest) k = before ++ rest := by
  induction before with
  | nil => simp [remove, List.erase, hl]
  | cons x before ih =>
    obtain ⟨hx, hb⟩ := List.forall_mem_cons.mp hb
    rw [List.cons_append, remove_cons_of_ne hx, ih hb, List.cons_append]

theorem remove_of_unknown {k : κ} (hk : ∀ x ∈ ls, (x == k) = false) :
    Listeners.remove ls k = ls := by
  induction ls with
  | nil => rfl
  | cons x ls ih =>
    obtain ⟨hx, hk⟩ := List.forall_mem_cons.mp hk
    rw [remove_cons_of_ne hx, ih hk]

theorem Registered.concat (h : Registered ops ls) (op : Op κ ν) :
    Registered (ops ++ [op]) (after ls op) := by
  cases op with
  | add k => exact .add k h
  | notify value => exact .notify value h
  | remove k =>
    rcases found_or_unknown ls k with ⟨before, l, rest, rfl, hl, hb⟩ | hk
    · simpa only [after, remove_append_cons hl hb] using Registered.remove k h hl hb
    · simpa only [after, remove_of_unknown hk] using Registered.unknown k h hk

/-- Calls lead to one list of registrations only. -/
theorem Registered.eq_foldl (h : Registered ops ls) : ls = ops.foldl after [] := by
  induction h with
  | nobody => rfl
  | add k h ih => simp [after, Listeners.add, ← ih]
  | remove k h hl hb ih => simp [after, ← ih, remove_append_cons hl hb]
  | unknown k h hk ih => simp [after, ← ih, remove_of_unknown hk]
  | notify value h ih => simp [after, ← ih]

theorem finds_concat : Finds (ops ++ [op]) n ls value ↔
    Finds ops n ls value ∨
      (op = .notify value ∧ n = ops.countP Op.isNotify ∧ Registered ops ls) := by
  constructor
  · rintro ⟨before, rest, hops, hn, hr⟩
    rcases List.eq_nil_or_concat rest with rfl | ⟨rest, last, rfl⟩
    · obtain ⟨rfl, hop⟩ := List.append_inj' hops rfl
      exact .inr ⟨by simpa using hop, hn, hr⟩
    · have hops : ops ++ [op] = (before ++ .notify value :: rest) ++ [last] := by simpa using hops
      exact .inl ⟨before, rest, (List.append_inj' hops rfl).1, hn, hr⟩
  · rintro (⟨before, rest, rfl, hn, hr⟩ | ⟨rfl, hn, hr⟩)
    · exact ⟨before, rest ++ [op], by simp, hn, hr⟩
    · exact ⟨ops, [], rfl, hn, hr⟩

theorem Finds.lt (h : Finds ops n ls value) : n < ops.countP Op.isNotify := by
  obtain ⟨before, rest, rfl, rfl, -⟩ := h
  rw [List.countP_append, List.countP_cons_of_pos rfl]
  omega

end Calls

/-- A listener that is called or is about to be, by which notification and with which value. -/
def Task.call? : Task κ ν → Option (Nat × κ × ν)
  | .deliver n k value => some (n, k, value)
  | _ => none

def Event.call? : Event κ ν → Option (Nat × κ × ν)
  | .called n k value => some (n, k, value)
  | _ => none

/-- A notification that begins. -/
def Event.notice? : Event κ ν → Option (Nat × List κ × ν)
  | .notifying n ls value => some (n, ls, value)
  | _ => none

/-- Those among some calls that a notification makes. -/
def callsOf (n : Nat) (calls : List (Nat × κ × ν)) : List (κ × ν) :=
  (calls.filter (·.1 = n)).map Prod.snd

theorem callsOf_append (n : Nat) (cs ds : List (Nat × κ × ν)) :
    callsOf n (cs ++ ds) = callsOf n cs ++ callsOf n ds := by simp [callsOf]

theorem callsOf_self (n : Nat) (ls : List κ) (value : ν) :
    callsOf n (ls.map fun k => (n, k, value)) = ls.map fun k => (k, value) := by
  rw [callsOf, List.filter_eq_self.mpr (by simp), List.map_map]
  rfl

theorem callsOf_eq_nil {n : Nat} {cs : List (Nat × κ × ν)} (h : ∀ c ∈ cs, c.1 ≠ n) :
    callsOf n cs = [] := by simpa [callsOf] using h

theorem call?_scriptTasks (script : Script (Op κ ν)) :
    (scriptTasks script).filterMap Task.call? = [] := by
  rw [List.filterMap_eq_nil_iff]
  intro t ht
  simp only [scriptTasks, List.mem_append, List.mem_flatMap, List.mem_cons, List.not_mem_nil,
    or_false, Option.mem_toList, Option.map_eq_some_iff] at ht
  rcases ht with ⟨op, -, rfl | rfl⟩ | ⟨message, -, rfl⟩ <;> rfl

namespace Session

variable {callees : Nat → κ → ν → Script (Op κ ν)}
variable {s t u : Session κ ν} {ss us : List (Session κ ν)}

/-- Sessions that follow each other, the latest first. -/
inductive Run [BEq κ] (description : String) (callees : Nat → κ → ν → Script (Op κ ν)) :
    List (Session κ ν) → Prop where
  | start : Run description callees [start description]
  | call {s : Session κ ν} {ss : List (Session κ ν)} (op : Op κ ν)
      (h : Run description callees (s :: ss)) (hs : s.stack = []) :
      Run description callees ({ s with stack := [.perform op] } :: s :: ss)
  | step {s t : Session κ ν} {ss : List (Session κ ν)} (h : Run description callees (s :: ss))
      (ht : s.step callees = some t) : Run description callees (t :: s :: ss)

/-- The call that is about to be made. -/
def next? (s : Session κ ν) : Option (Op κ ν) :=
  match s.stack with
  | .perform op :: _ => some op
  | _ => none

/-- The calls that have been made, those of listeners included, the first one first. -/
def performed (ss : List (Session κ ν)) : List (Op κ ν) := (ss.filterMap next?).reverse

theorem performed_append (us ss : List (Session κ ν)) :
    performed (us ++ ss) = performed ss ++ performed us := by simp [performed]

theorem performed_cons (s : Session κ ν) (ss : List (Session κ ν)) :
    performed (s :: ss) = performed ss ++ s.next?.toList := by
  cases h : s.next? <;> simp [performed, h]

/-- The notifications that have begun, the latest first. -/
def begun (s : Session κ ν) : List (Nat × List κ × ν) := s.journal.filterMap Event.notice?

/-- The calls to listeners, the first one first. -/
def tellings (s : Session κ ν) : List (Nat × κ × ν) := (s.journal.filterMap Event.call?).reverse

/-- The calls to listeners that are still to be made, the next one first. -/
def dues (s : Session κ ν) : List (Nat × κ × ν) := s.stack.filterMap Task.call?

/-- Whom a notification has called and with which value, in order. -/
def told (s : Session κ ν) (n : Nat) : List (κ × ν) := callsOf n s.tellings

/-- Whom a notification is still to call. -/
def due (s : Session κ ν) (n : Nat) : List (κ × ν) := callsOf n s.dues

/-! ## What a step does -/

/-- Nothing of the notifications changes. -/
structure Silent (s t : Session κ ν) : Prop where
  notifications : t.notifications = s.notifications
  begun : t.begun = s.begun
  tellings : t.tellings = s.tellings
  dues : t.dues = s.dues

/-- What a step can do to registrations and notifications. -/
inductive Turn [BEq κ] (s t : Session κ ν) : Prop where
  | quiet (hn : s.next? = none) (hl : t.listeners = s.listeners) (h : Silent s t)
  | change (op : Op κ ν) (hn : s.next? = some op) (hop : op.isNotify = false)
      (hl : t.listeners = after s.listeners op) (h : Silent s t)
  | notify (value : ν) (hn : s.next? = some (.notify value)) (hl : t.listeners = s.listeners)
      (hc : t.notifications = s.notifications + 1)
      (hb : t.begun = (s.notifications, s.listeners, value) :: s.begun)
      (ht : t.tellings = s.tellings)
      (hd : t.dues = s.listeners.map (fun k => (s.notifications, k, value)) ++ s.dues)
  | tell (n : Nat) (k : κ) (value : ν) (hn : s.next? = none) (hl : t.listeners = s.listeners)
      (hc : t.notifications = s.notifications) (hb : t.begun = s.begun)
      (ht : t.tellings = s.tellings ++ [(n, k, value)]) (hd : s.dues = (n, k, value) :: t.dues)

section Step

attribute [local simp] next? begun tellings dues push record Task.call? Event.call?
attribute [local simp] Event.notice? List.filterMap_cons

theorem turn_perform [BEq κ] {op : Op κ ν} {rest : List (Task κ ν)}
    (h : s.stack = .perform op :: rest) :
    Turn s ({ s with stack := rest }.perform op) := by
  cases op with
  | add k => exact .change (.add k) (by simp [h]) rfl rfl ⟨rfl, rfl, rfl, by simp [perform, h]⟩
  | remove k => exact .change (.remove k) (by simp [h]) rfl rfl ⟨rfl, rfl, rfl, by simp [perform, h]⟩
  | notify value =>
    refine .notify value (by simp [h]) rfl rfl rfl (by simp [perform]) ?_
    simp [perform, h, Function.comp_def, List.filterMap_map]

theorem turn_of_step [BEq κ] (h : s.step callees = some t) : Turn s t := by
  cases hm : s.stack with
  | nil => simp [step, hm] at h
  | cons task rest =>
    cases task with
    | perform op =>
      obtain rfl : { s with stack := rest }.perform op = t := by simpa [step, hm] using h
      exact turn_perform hm
    | deliver n k value =>
      obtain rfl : _ = t := by simpa [step, hm] using h
      exact .tell n k value (by simp [hm]) rfl rfl (by simp) (by simp)
        (by simp [hm, call?_scriptTasks])
    | report op | caught message =>
      obtain rfl : _ = t := by simpa [step, hm] using h
      exact .quiet (by simp [hm]) rfl ⟨rfl, by simp, by simp, by simp [hm]⟩

end Step

/-! ## Notifications over a run -/

variable [BEq κ]

/-- How registrations and notifications stand after some calls: each notification that has begun
has called, and is still to call, those whom it found registered, and nobody else is called. -/
structure Kept (ops : List (Op κ ν)) (s : Session κ ν) : Prop where
  registered : Registered ops s.listeners
  count : s.notifications = ops.countP Op.isNotify
  begun : ∀ n ls value, (n, ls, value) ∈ s.begun ↔ Finds ops n ls value
  whole : ∀ n ls value, (n, ls, value) ∈ s.begun →
    s.told n ++ s.due n = ls.map fun k => (k, value)
  called : ∀ c ∈ s.tellings ++ s.dues, ∃ ls, (c.1, ls, c.2.2) ∈ s.begun

variable {ops : List (Op κ ν)}

/-- The number of the next notification is a new one. -/
theorem Kept.lt (h : Kept ops s) {c : Nat × κ × ν} (hc : c ∈ s.tellings ++ s.dues) :
    c.1 < s.notifications := by
  obtain ⟨ls, hls⟩ := h.called c hc
  rw [h.count]
  exact ((h.begun _ _ _).mp hls).lt

theorem Kept.due_next (h : Kept ops s) : s.due s.notifications = [] :=
  callsOf_eq_nil fun _ hc => Nat.ne_of_lt (h.lt (List.mem_append_right _ hc))

theorem Kept.told_next (h : Kept ops s) : s.told s.notifications = [] :=
  callsOf_eq_nil fun _ hc => Nat.ne_of_lt (h.lt (List.mem_append_left _ hc))

theorem Kept.silent (h : Kept ops s) (ht : Silent s t) {more : List (Op κ ν)}
    (hr : Registered (ops ++ more) t.listeners) (hn : ∀ op ∈ more, op.isNotify = false)
    (hlen : more.length ≤ 1) : Kept (ops ++ more) t := by
  have hfinds (n ls value) : Finds (ops ++ more) n ls value ↔ Finds ops n ls value := by
    match more, hlen with
    | [], _ => simp
    | [op], _ =>
      rw [finds_concat, or_iff_left]
      rintro ⟨rfl, -⟩
      simpa [Op.isNotify] using hn _ (List.mem_singleton_self _)
  have hcount : more.countP Op.isNotify = 0 :=
    List.countP_eq_zero.mpr fun op hop => by simp [hn op hop]
  refine ⟨hr, ?_, ?_, ?_, ?_⟩
  · rw [ht.notifications, h.count, List.countP_append, hcount, Nat.add_zero]
  · intro n ls value
    rw [ht.begun, hfinds]
    exact h.begun n ls value
  · intro n ls value hmem
    rw [told, due, ht.tellings, ht.dues]
    exact h.whole n ls value (ht.begun ▸ hmem)
  · rw [ht.begun, ht.tellings, ht.dues]
    exact h.called

/-- A notification begins with the listeners that are registered, all of them yet to be called. -/
theorem Kept.notify (h : Kept ops s) {value : ν} (hl : t.listeners = s.listeners)
    (hc : t.notifications = s.notifications + 1)
    (hb : t.begun = (s.notifications, s.listeners, value) :: s.begun)
    (ht : t.tellings = s.tellings)
    (hd : t.dues = s.listeners.map (fun k => (s.notifications, k, value)) ++ s.dues) :
    Kept (ops ++ [.notify value]) t := by
  refine ⟨hl ▸ h.registered.concat (.notify value), ?_, ?_, ?_, ?_⟩
  · simp [hc, h.count, Op.isNotify]
  · intro n ls w
    rw [hb, List.mem_cons, finds_concat, h.begun, or_comm, ← h.count]
    refine or_congr Iff.rfl ⟨?_, ?_⟩
    · rintro ⟨rfl, rfl, rfl⟩
      exact ⟨rfl, rfl, h.registered⟩
    · rintro ⟨⟨rfl⟩, rfl, hr⟩
      rw [hr.eq_foldl, h.registered.eq_foldl]
  · intro n ls w hmem
    rw [told, due, ht, hd, callsOf_append]
    rcases List.mem_cons.mp (hb ▸ hmem) with ⟨rfl, rfl, rfl⟩ | hmem
    · rw [callsOf_self, ← told, ← due, h.told_next, h.due_next, List.append_nil]
      rfl
    · have hlt : n < s.notifications := h.count ▸ ((h.begun _ _ _).mp hmem).lt
      have hnone : callsOf n (s.listeners.map fun k => (s.notifications, k, value)) = [] :=
        callsOf_eq_nil fun c hc => by
          obtain ⟨k, -, rfl⟩ := List.mem_map.mp hc
          exact Nat.ne_of_gt hlt
      rw [hnone, List.nil_append]
      exact h.whole n ls w hmem
  · intro c hc
    rw [ht, hd] at hc
    simp only [List.mem_append, List.mem_map] at hc
    rw [hb]
    rcases hc with hc | ⟨k, -, rfl⟩ | hc
    · exact (h.called c (List.mem_append_left _ hc)).imp fun ls => List.mem_cons_of_mem _
    · exact ⟨s.listeners, List.mem_cons_self⟩
    · exact (h.called c (List.mem_append_right _ hc)).imp fun ls => List.mem_cons_of_mem _

/-- The listener that is called is the next one due, so that the order of all calls stays. -/
theorem Kept.tell (h : Kept ops s) {n : Nat} {k : κ} {value : ν} (hl : t.listeners = s.listeners)
    (hc : t.notifications = s.notifications) (hb : t.begun = s.begun)
    (ht : t.tellings = s.tellings ++ [(n, k, value)]) (hd : s.dues = (n, k, value) :: t.dues) :
    Kept ops t := by
  have hall : t.tellings ++ t.dues = s.tellings ++ s.dues := by simp [ht, hd]
  refine ⟨hl ▸ h.registered, hc ▸ h.count, hb ▸ h.begun, ?_, ?_⟩
  · intro m ls w hmem
    rw [told, due, ← callsOf_append, hall, callsOf_append]
    exact h.whole m ls w (hb ▸ hmem)
  · rw [hall, hb]
    exact h.called

theorem Kept.turn (h : Kept ops s) (ht : Turn s t) : Kept (ops ++ s.next?.toList) t := by
  cases ht with
  | quiet hn hl ht =>
    exact h.silent ht (by simpa [hn, hl] using h.registered) (by simp [hn]) (by simp [hn])
  | change op hn hop hl ht =>
    refine h.silent ht ?_ (by simpa [hn] using hop) (by simp [hn])
    rw [hn, hl]
    exact h.registered.concat op
  | notify value hn hl hc hb ht hd =>
    rw [hn, Option.toList_some]
    exact h.notify hl hc hb ht hd
  | tell n k value hn hl hc hb ht hd =>
    rw [hn, Option.toList_none, List.append_nil]
    exact h.tell hl hc hb ht hd

variable {description : String}

theorem kept_of_run (h : Run description callees (s :: ss)) : Kept (performed ss) s := by
  suffices hall : ∀ l, Run description callees l → ∀ s ss, l = s :: ss → Kept (performed ss) s from
    hall _ h s ss rfl
  intro l h
  induction h with
  | start =>
    rintro s ss ⟨⟩
    refine ⟨.nobody, rfl, fun n ls value => ?_, ?_, ?_⟩
    · simp [start, Session.begun, performed, Finds]
    · simp [start, Session.begun]
    · simp [start, tellings, dues]
  | @call s ss op h hs ih =>
    rintro t ts ⟨⟩
    have hn : s.next? = none := by simp [next?, hs]
    have hk := ih s ss rfl
    rw [performed_cons, hn, Option.toList_none]
    have hsilent : Silent s { s with stack := [.perform op] } :=
      ⟨rfl, rfl, rfl, by simp [dues, hs, Task.call?]⟩
    have hnone : Registered (performed ss ++ []) s.listeners := by
      simpa using hk.registered
    simpa using hk.silent hsilent hnone (by simp) (by simp)
  | @step s t ss h ht ih =>
    rintro u us ⟨⟩
    rw [performed_cons]
    exact (ih s ss rfl).turn (turn_of_step ht)

theorem Run.of_suffix {l : List (Session κ ν)} (h : Run description callees l)
    (hu : (u :: us) <:+ l) : Run description callees (u :: us) := by
  induction h with
  | start => simp_all [List.suffix_cons_iff, Run.start]
  | call op h hs ih =>
    rcases List.suffix_cons_iff.mp hu with heq | hu
    · exact heq ▸ .call op h hs
    · exact ih hu
  | step h ht ih =>
    rcases List.suffix_cons_iff.mp hu with heq | hu
    · exact heq ▸ .step h ht
    · exact ih hu

omit [BEq κ] in
theorem mem_begun {n : Nat} {ls : List κ} {value : ν} :
    (n, ls, value) ∈ s.begun ↔ .notifying n ls value ∈ s.journal := by
  rw [begun, List.mem_filterMap]
  refine ⟨?_, fun h => ⟨_, h, rfl⟩⟩
  rintro ⟨e, he, hv⟩
  cases e <;> simp_all [Event.notice?]

/-- A notification that was about to begin has begun by the time another session follows. -/
theorem begun_of_suffix (h : Run description callees (s :: ss)) (hu : (u :: us) <:+ ss) {value : ν}
    {rest : List (Task κ ν)} (hm : u.stack = .perform (.notify value) :: rest) :
    (u.notifications, u.listeners, value) ∈ s.begun := by
  have hk := kept_of_run (h.of_suffix (hu.trans (List.suffix_cons s ss)))
  obtain ⟨front, rfl⟩ := hu
  refine ((kept_of_run h).begun _ _ _).mpr
    ⟨performed us, performed front, ?_, hk.count, hk.registered⟩
  have hn : u.next? = some (.notify value) := by simp [next?, hm]
  rw [performed_append, performed_cons, hn, List.append_assoc]
  rfl

/-- A notification that has returned has nobody left to call. -/
theorem due_of_returned (h : Run description callees (u :: us)) {op : Op κ ν}
    {rest : List (Task κ ν)} (hm : u.stack = .perform op :: rest) (hs : s.stack = rest) :
    s.due u.notifications = [] := by
  have hdues : u.dues = s.dues := by simp [dues, hm, hs, Task.call?, List.filterMap_cons]
  rw [due, ← hdues]
  exact (kept_of_run h).due_next

/-- Whatever calls are made on a set of listeners, and whatever calls the listeners make themselves
or raise. The registrations are those that the calls made so far lead to: additions go to the end,
a removal takes the first registration away or, of an unknown listener, nothing. Each notification,
outer or nested, begins with the listeners that the calls before it have left registered, and it is
these that it calls, in order, once for each registration and with its own value: so far some of
them, all of them once the call that began it has returned, and nobody else. -/
theorem notifies_whom_it_found (h : Run description callees (s :: ss)) :
    Registered (performed ss) s.listeners ∧
    (∀ n ls value, .notifying n ls value ∈ s.journal ↔ Finds (performed ss) n ls value) ∧
    (∀ n ls value, .notifying n ls value ∈ s.journal →
      s.told n ++ s.due n = ls.map (fun k => (k, value)) ∧
      (s.stack = [] → s.told n = ls.map fun k => (k, value))) ∧
    (∀ n k value, .called n k value ∈ s.journal →
      ∃ ls, .notifying n ls value ∈ s.journal ∧ k ∈ ls) ∧
    (∀ u us value rest, (u :: us) <:+ ss → u.stack = .perform (.notify value) :: rest →
      s.stack = rest → s.told u.notifications = u.listeners.map fun k => (k, value)) := by
  have hk := kept_of_run h
  have whole (n : Nat) (ls : List κ) (value : ν) (hn : .notifying n ls value ∈ s.journal) :
      s.told n ++ s.due n = ls.map fun k => (k, value) := hk.whole n ls value (mem_begun.mpr hn)
  refine ⟨hk.registered, fun n ls value => mem_begun.symm.trans (hk.begun n ls value), ?_, ?_, ?_⟩
  · intro n ls value hn
    refine ⟨whole n ls value hn, fun hs => ?_⟩
    simpa [due, dues, hs, callsOf] using whole n ls value hn
  · intro n k value hc
    have hmem : (n, k, value) ∈ s.tellings :=
      List.mem_reverse.mpr (List.mem_filterMap.mpr ⟨_, hc, rfl⟩)
    obtain ⟨ls, hls⟩ := hk.called _ (List.mem_append_left _ hmem)
    have htold : (k, value) ∈ s.told n :=
      List.mem_map.mpr ⟨_, List.mem_filter.mpr ⟨hmem, by simp⟩, rfl⟩
    have hwhole := hk.whole n ls value hls
    have hin := hwhole ▸ List.mem_append_left (s.due n) htold
    exact ⟨ls, mem_begun.mp hls, by simpa using hin⟩
  · intro u us value rest hu hm hs
    have hbegun := begun_of_suffix h hu hm
    have hdue := due_of_returned (h.of_suffix (hu.trans (List.suffix_cons s ss))) hm hs
    simpa [hdue] using hk.whole _ _ _ hbegun

/-! ## A listener that changes the registrations while it is called -/

theorem Run.run (h : Run description callees (s :: ss)) (fuel : Nat) :
    ∃ ts, Run description callees (Session.run callees fuel s :: ts) := by
  induction fuel generalizing s ss with
  | zero => exact ⟨ss, h⟩
  | succ fuel ih =>
    simp only [Session.run]
    split
    · exact ⟨ss, h⟩
    · rename_i t ht
      exact ih (.step h ht)

theorem Run.calls (h : Run description callees (s :: ss)) (op : Op κ ν) (fuel : Nat)
    (hs : s.stack = []) : ∃ ts, Run description callees (s.call callees fuel op :: ts) :=
  Run.run (.call op h hs) fuel

/-- When it is called first, the listener takes its own registration and that of the next one away,
adds another one, notifies all of them of something else, and raises. -/
def unruly (call k : Nat) (_ : Nat) : Script (Op Nat Nat) :=
  if call = 0 then ⟨[.remove k, .remove (k + 1), .add 7, .notify 20], some "done"⟩ else .quiet

def unrulySession : Session Nat Nat :=
  [.add 0, .add 1, .add 0, .notify 10].foldl (call unruly 30) (start "test")

theorem notifies_whom_it_found_unruly : ∃ ss, Run "test" unruly (unrulySession :: ss) ∧
    Registered (performed ss) [0, 7] ∧
    .notifying 0 [0, 1, 0] 10 ∈ unrulySession.journal ∧
    .notifying 1 [0, 7] 20 ∈ unrulySession.journal ∧
    unrulySession.told 0 = [(0, 10), (1, 10), (0, 10)] ∧
    unrulySession.told 1 = [(0, 20), (7, 20)] := by
  have h : Run "test" unruly [start "test"] := .start
  obtain ⟨_, h⟩ := h.calls (.add 0) 30 rfl
  obtain ⟨_, h⟩ := h.calls (.add 1) 30 rfl
  obtain ⟨_, h⟩ := h.calls (.add 0) 30 rfl
  obtain ⟨ss, h⟩ := h.calls (.notify 10) 30 rfl
  have outer := mem_begun.mp (show (0, [0, 1, 0], 10) ∈ unrulySession.begun by decide)
  have nested := mem_begun.mp (show (1, [0, 7], 20) ∈ unrulySession.begun by decide)
  obtain ⟨hr, -, hall, -⟩ := notifies_whom_it_found (s := unrulySession) h
  exact ⟨ss, h, hr, outer, nested, (hall 0 _ 10 outer).2 rfl, (hall 1 _ 20 nested).2 rfl⟩

end Session
end FlagPoll.Listeners
