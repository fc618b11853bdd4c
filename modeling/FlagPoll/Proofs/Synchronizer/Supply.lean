import FlagPoll.Proofs.Caching
import FlagPoll.Proofs.Synchronizer.Calls
import FlagPoll.Proofs.Synchronizer.Lifecycle

/-!
# FlagPoll.Proofs.Synchronizer.Supply

What a synchronizer that fetches with a client hands to the store.

* `requests` — the requests in a journal.
* `Serves`   — the service keeps to the rules of tags in all that it answers.
* `Faithful` — every fetch gives the data set that was held at its request.
* `applied`  — the latest data set that the store has taken.
* `Keeps`    — a step that has nothing to do with the client or the store.
* `Supplied` — what a fetch under way, or the store's write, is going to bring.
-/

namespace FlagPoll.Synchronizer

variable {τ κ : Type}

/-! ## What the journal tells of the data sets -/

def fetches : List (Event τ κ) → Nat
  | [] => 0
  | .fetch .. :: j => fetches j + 1
  | _ :: j => fetches j

def Event.request? : Event τ κ → Option (Option Request)
  | .fetch _ q => some q
  | _ => none

/-- The requests in a journal, the latest first; nothing is known of those of a caller's own
requester. -/
def requests (j : List (Event τ κ)) : List (Option Request) := j.filterMap Event.request?

/-- The tags that these requests have asked about. -/
def tagsAsked (j : List (Event τ κ)) : List (Option String) :=
  (requests j).map (·.bind Request.tag?)

def calloutsOf : List (Event τ κ) → Nat
  | [] => 0
  | .fetch .. :: j | .write _ :: j | .closeRequester :: j => calloutsOf j + 1
  | .toldListener .. :: j | .toldCallback .. :: j => calloutsOf j + 1
  | _ :: j => calloutsOf j

/-- The state as the latest change shows it. -/
def stateOf : List (Event τ κ) → Lifecycle
  | [] => .notStarted
  | .changed _ c :: _ => c.status.state
  | _ :: j => stateOf j

section Service

variable {δ : Type} (svc : Service δ) (w : World τ κ)

/-- The service answers each request by the rules of tags. -/
def Serves : List (Event τ κ) → Prop
  | [] => True
  | .fetch _ q :: j =>
    (∃ a, (w.response (fetches j)).delivery = .http a ∧
      svc.MayAnswer (fetches j) (q.bind Request.tag?) a) ∧ Serves j
  | _ :: j => Serves j

/-- Every fetch that has returned gives what the service holds, as if it had no cache. -/
def Faithful : List (Event τ κ) → Prop
  | [] => True
  | .fetched _ o :: j =>
    (∃ a, (w.response (fetches j - 1)).delivery = .http a ∧ svc.Gives (fetches j - 1) a o) ∧
      Faithful j
  | _ :: j => Faithful j

/-- The latest data set that has been fetched while polls had an effect and that the store has not
refused, with the number of its request. -/
def applied : List (Event τ κ) → Option (Nat × Snapshot)
  | [] => none
  | .fetched _ (.ok s) :: j =>
    if (stateOf j).isActive ∧ (w.write (calloutsOf j)).raises = none then some (fetches j - 1, s)
    else applied j
  | _ :: j => applied j

end Service

def contentsOf : Option (Nat × Snapshot) → List (Kind × Items)
  | none => []
  | some (_, s) => s.allData

/-- A store with these contents shows the items of the data set, kind by kind. -/
theorem items_of_contents {store : Store} {a : Option (Nat × Snapshot)}
    (h : store.contents = contentsOf a) (kind : Kind) :
    store.items kind = a.elim [] fun a => a.2.items kind := by
  rw [Store.items, h]
  cases a with
  | none => rfl
  | some a => exact congrArg (Option.getD · []) (Snapshot.lookup_allData a.2 kind)

def Event.isTransfer : Event τ κ → Bool
  | .fetch .. | .fetched .. => true
  | _ => false

theorem calloutsOf_append (es j : List (Event τ κ)) :
    calloutsOf (es ++ j) = calloutsOf es + calloutsOf j := by
  induction es with
  | nil => simp [calloutsOf]
  | cons e es ih => cases e <;> simp [calloutsOf, ih] <;> omega

section Service

variable {δ : Type} {svc : Service δ} {w : World τ κ}

theorem applied_append {es : List (Event τ κ)} (h : ∀ e ∈ es, e.isTransfer = false)
    (j : List (Event τ κ)) : applied w (es ++ j) = applied w j := by
  induction es with
  | nil => rfl
  | cons e es ih =>
    obtain ⟨he, hes⟩ := List.forall_mem_cons.mp h
    cases e <;> first | exact ih hes | simp [Event.isTransfer] at he

theorem append_of_not_isTransfer (svc : Service δ) (w : World τ κ) {es : List (Event τ κ)}
    (h : ∀ e ∈ es, e.isTransfer = false) (j : List (Event τ κ)) :
    fetches (es ++ j) = fetches j ∧ (Serves svc w (es ++ j) ↔ Serves svc w j) ∧
      (Faithful svc w (es ++ j) ↔ Faithful svc w j) ∧ applied w (es ++ j) = applied w j := by
  have hrest : fetches (es ++ j) = fetches j ∧ (Serves svc w (es ++ j) ↔ Serves svc w j) ∧
      (Faithful svc w (es ++ j) ↔ Faithful svc w j) := by
    induction es with
    | nil => exact ⟨rfl, Iff.rfl, Iff.rfl⟩
    | cons e es ih =>
      obtain ⟨he, hes⟩ := List.forall_mem_cons.mp h
      cases e <;> first | exact ih hes | simp [Event.isTransfer] at he
  exact ⟨hrest.1, hrest.2.1, hrest.2.2, applied_append h j⟩

theorem length_tagsAsked (j : List (Event τ κ)) : (tagsAsked j).length = fetches j := by
  induction j with
  | nil => rfl
  | cons e j ih =>
    cases e with
    | fetch clock q => exact congrArg (· + 1) ih
    | _ => exact ih

/-- The rules of tags are kept if they are kept at each request, given how many came before. -/
theorem serves_of_tagsAsked {j : List (Event τ κ)}
    (h : ∀ tag earlier, tag :: earlier <:+ tagsAsked j →
      ∃ a, (w.response earlier.length).delivery = .http a ∧ svc.MayAnswer earlier.length tag a) :
    Serves svc w j := by
  induction j with
  | nil => trivial
  | cons e j ih =>
    cases e with
    | fetch clock q =>
      refine ⟨?_, ih fun tag earlier hs => h tag earlier (hs.trans (List.suffix_cons _ _))⟩
      rw [← length_tagsAsked]
      exact h _ _ (List.suffix_refl _)
    | _ => exact ih h

/-- What the store takes is what the service held. -/
theorem Faithful.view_applied {j : List (Event τ κ)} {n : Nat} {s : Snapshot} (h : Faithful svc w j)
    (ha : applied w j = some (n, s)) : svc.view s = svc.held n := by
  induction j with
  | nil => simp [applied] at ha
  | cons e j ih =>
    cases e with
    | fetched clock o =>
      obtain ⟨⟨a, -, hgives⟩, hj⟩ := h
      cases o with
      | error f => exact ih hj ha
      | ok t =>
        simp only [applied] at ha
        split at ha
        · obtain ⟨rfl, rfl⟩ := Prod.mk.inj (Option.some.inj ha)
          exact hgives.1 t rfl
        · exact ih hj ha
    | _ => exact ih h ha

end Service

/-! ## Steps that have nothing to do with the client or the store -/

/-- The tasks that bring a data set or hand it on. -/
def Task.isSupply : Task τ κ → Bool
  | .receive .. | .write .. => true
  | _ => false

theorem Task.isSupply_of_isBase {t : Task τ κ} (h : t.isBase = true) : t.isSupply = false := by
  cases t <;> simp_all [Task.isBase, Task.isSupply]

theorem Task.isSupply_of_isPlain {t : Task τ κ} (h : t.isPlain = true) : t.isSupply = false := by
  cases t <;> simp_all [Task.isPlain, Task.isSupply]

theorem Leads.isSupply {w : World τ κ} {due : Agenda τ (Op τ κ)} {t u : Task τ κ}
    (h : Leads w due t u) (ht : t.isSupply = false) (hp : ∀ own, t ≠ .poll own) :
    u.isSupply = false := by
  cases h with
  | fetch => exact absurd rfl (hp _)
  | write => simp [Task.isSupply] at ht
  | _ => rfl

theorem filter_isSupply_of_isBase {ts : List (Task τ κ)} (h : ∀ t ∈ ts, t.isBase = true) :
    ts.filter Task.isSupply = [] :=
  List.filter_eq_nil_iff.mpr fun t ht => by simp [Task.isSupply_of_isBase (h t ht)]

/-- A call that neither polls nor empties an item that it is handed. -/
def Op.IsGentle (op : Op τ κ) : Prop := ¬ op.IsPoll ∧ ∀ kind key, op ≠ .get kind key .clear

theorem Op.isGentle_start : (Op.start : Op τ κ).IsGentle :=
  ⟨Op.not_isPoll_start, fun _ _ h => by cases h⟩

theorem Op.isGentle_close : (Op.close : Op τ κ).IsGentle :=
  ⟨Op.not_isPoll_close, fun _ _ h => by cases h⟩

namespace Machine

/-- What is going to bring a data set or to hand it on. -/
def supplies (m : Machine τ κ) : List (Task τ κ) := m.stack.filter Task.isSupply

/-- What stays as it is, and what the journal may show. -/
structure Keeps (m n : Machine τ κ) : Prop where
  requester : n.requester = m.requester
  store : n.store = m.store
  responses : n.responses = m.responses
  journal : ∃ es, n.journal = es ++ m.journal ∧ (∀ e ∈ es, e.isTransfer = false) ∧
    n.callouts = m.callouts + calloutsOf es

section Keeps

variable {m n : Machine τ κ}

attribute [local simp] record log push give calledOut leave setClock

theorem Keeps.same (hr : n.requester = m.requester) (hst : n.store = m.store)
    (hn : n.responses = m.responses) (hj : n.journal = m.journal)
    (hc : n.callouts = m.callouts) : Keeps m n :=
  ⟨hr, hst, hn, [], hj, by simp, hc⟩

theorem Keeps.event {e : Event τ κ} (hr : n.requester = m.requester) (hst : n.store = m.store)
    (hn : n.responses = m.responses) (hj : n.journal = e :: m.journal) (he : e.isTransfer = false)
    (hc : n.callouts = m.callouts + calloutsOf [e]) : Keeps m n :=
  ⟨hr, hst, hn, [e], hj, by simpa using he, hc⟩

theorem Keeps.change {clock : τ} {c : Change τ} {r : Log.Record} (hr : n.requester = m.requester)
    (hst : n.store = m.store) (hn : n.responses = m.responses)
    (hj : n.journal = .logged r :: .changed clock c :: m.journal)
    (hc : n.callouts = m.callouts) : Keeps m n :=
  ⟨hr, hst, hn, [.logged r, .changed clock c], hj, by simp [Event.isTransfer], hc⟩

theorem calloutsOf_logged (rs : List Log.Record) :
    calloutsOf (rs.map (Event.logged (τ := τ) (κ := κ))).reverse = 0 := by
  induction rs with
  | nil => rfl
  | cons r rs ih => simp [calloutsOf_append, ih, calloutsOf]

theorem keeps_logAll (rs : List Log.Record) : Keeps m (m.logAll rs) := by
  rw [logAll_eq]
  exact ⟨rfl, rfl, rfl, _, rfl, by simp [Event.isTransfer], by simp [calloutsOf_logged]⟩

theorem Keeps.resolve {x : Machine τ κ} (h : Keeps m x) (r : Resolution τ)
    (rest : List (Task τ κ)) : Keeps m (x.resolve r rest) := by
  unfold Machine.resolve
  split
  · exact ⟨h.requester, h.store, h.responses, h.journal⟩
  · exact ⟨h.requester, h.store, h.responses, h.journal⟩

variable (m)

theorem keeps_notify (c : Change τ) : Keeps m (m.notify c) := by
  unfold notify
  split
  · exact .event rfl rfl rfl rfl rfl rfl
  · exact .event rfl rfl rfl rfl rfl rfl

variable [Time τ] (w : World τ κ)

theorem keeps_written : Keeps m (m.written w) := by
  unfold written
  split
  · exact .same rfl rfl rfl rfl rfl
  · refine Keeps.resolve ?_ _ _
    exact .change rfl rfl rfl rfl rfl

theorem keeps_pass (target : τ) (span : Span) : Keeps m (m.pass w target span) := by
  unfold pass
  split
  · exact .same rfl rfl rfl rfl rfl
  · split
    · exact .event rfl rfl rfl rfl rfl rfl
    · split
      · exact .same rfl rfl rfl rfl rfl
      · exact .same rfl rfl rfl rfl rfl

variable [BEq κ]

theorem keeps_perform (op : Op τ κ) (h : ∀ kind key, op ≠ .get kind key .clear) :
    Keeps m (m.perform w op) := by
  cases op with
  | start =>
    simp only [perform, start]
    split
    · exact .same rfl rfl rfl rfl rfl
    · exact .change rfl rfl rfl rfl rfl
  | close =>
    simp only [perform, close]
    split
    · exact .same rfl rfl rfl rfl rfl
    · exact .change rfl rfl rfl rfl rfl
  | get kind key reader =>
    have hr : reader ≠ .clear := fun hr => h kind key (by rw [hr])
    have hstore : (m.store.get kind key reader).1 = m.store := by
      unfold Store.get
      split <;> simp [hr]
    simp only [perform, get, hr, if_false, hstore]
    obtain ⟨h1, h2, h3, h4⟩ := keeps_logAll (m := m) (m.store.get kind key reader).2.2
    exact ⟨h1, h2, h3, h4⟩
  | poll own =>
    simp only [perform]
    split
    · exact .same rfl rfl rfl rfl rfl
    · exact .same rfl rfl rfl rfl rfl
  | _ => exact .same rfl rfl rfl rfl rfl

/-- Only polls, fetches that return and the store's write have to do with data sets, besides a call
that is handed an item to be emptied. -/
theorem keeps_execute {task : Task τ κ} (hs : task.isSupply = false)
    (hp : ∀ own, task ≠ .poll own) (hc : ∀ kind key, task ≠ .perform (.get kind key .clear)) :
    Keeps m (m.execute w task) := by
  cases task with
  | perform op => exact keeps_perform m w op fun kind key h => hc kind key (by rw [h])
  | gather ops done => cases ops <;> exact .same rfl rfl rfl rfl rfl
  | notify c => exact keeps_notify m c
  | written => exact keeps_written m w
  | pass target span => exact keeps_pass m w target span
  | report op | conclude op => exact .event rfl rfl rfl rfl rfl rfl
  | closeRequester | tell k c | invoke k => exact .event rfl rfl rfl rfl rfl rfl
  | listenerRaised message | callbackRaised message | closingRaised message =>
    exact .event rfl rfl rfl rfl rfl rfl
  | poll own => exact absurd rfl (hp own)
  | receive d asked | write s cached script => simp [Task.isSupply] at hs
  | main =>
    simp only [execute, main]
    split
    · exact .same rfl rfl rfl rfl rfl
    · split <;> exact .same rfl rfl rfl rfl rfl
  | await next =>
    simp only [execute, await]
    split
    · exact .event rfl rfl rfl rfl rfl rfl
    · exact .event rfl rfl rfl rfl rfl rfl
  | wake =>
    simp only [execute, wake]
    split
    · exact .event rfl rfl rfl rfl rfl rfl
    · exact .same rfl rfl rfl rfl rfl
  | ran =>
    simp only [execute, ran]
    split
    · exact .event rfl rfl rfl rfl rfl rfl
    · exact .same rfl rfl rfl rfl rfl
  | _ => exact .same rfl rfl rfl rfl rfl

end Keeps
/-! ## What a step does for the store -/

section Move

variable {m n : Machine τ κ}

inductive Move (w : World τ κ) (m n : Machine τ κ) : Prop where
  | keep (h : Keeps m n) (hs : n.supplies = m.supplies)
  | fetch (hs : m.supplies = [])
      (hs' : n.supplies = [.receive (w.response m.responses).delivery m.requester.cached])
      (hr : n.requester = m.requester) (hst : n.store = m.store)
      (hn : n.responses = m.responses + 1) (hj : n.journal = .fetch m.clock m.request? :: m.journal)
      (hc : n.callouts = m.callouts + 1)
  /-- A fetch returns, up to a machine `x`; then it may be handed to the store. -/
  | receive (d : Delivery) (asked : Option CacheEntry) (rest : List (Task τ κ)) (x : Machine τ κ)
      (log : List Log.Record) (hs : m.supplies = .receive d asked :: rest)
      (hr : x.requester = (m.requester.receive asked d).1) (hst : x.store = m.store)
      (hn : x.responses = m.responses)
      (hj : x.journal = .fetched m.clock (m.requester.receive asked d).2.1 ::
        (log.map .logged ++ m.journal))
      (hc : x.callouts = m.callouts) (hk : Keeps x n)
      (hs' : (n.supplies = rest ∧ ∀ s, (m.requester.receive asked d).2.1 = .ok s →
          m.sync.state.isActive = false) ∨
        ∃ s cached, (m.requester.receive asked d).2.1 = .ok s ∧ m.sync.state.isActive = true ∧
          n.supplies = .write s cached (w.write m.callouts) :: rest)
  | write (s : Snapshot) (cached : Option Nat) (script : WriteScript (Op τ κ))
      (rest : List (Task τ κ)) (hs : m.supplies = .write s cached script :: rest)
      (hs' : n.supplies = rest) (hr : n.requester = m.requester) (hn : n.responses = m.responses)
      (hj : ∃ log : List Log.Record, n.journal = log.map .logged ++ m.journal)
      (hc : n.callouts = m.callouts)
      (hst : n.store = if script.raises = none then m.store.init s.allData else m.store)

theorem filter_isSupply_of_pushes {w : World τ κ} {task : Task τ κ} {stack : List (Task τ κ)}
    (h : Pushes w m task stack) (hs : task.isSupply = false) (hp : ∀ own, task ≠ .poll own)
    (hc : ∀ kind key, task ≠ .perform (.get kind key .clear)) :
    stack.filter Task.isSupply = m.stack.filter Task.isSupply := by
  obtain ⟨pushed, below, rfl, he, hpush⟩ := h
  have hnone : pushed.filter Task.isSupply = [] := by
    apply List.filter_eq_nil_iff.mpr
    intro t ht
    rcases hpush t ht with ht | ht
    · simp [Task.isSupply_of_isPlain ht]
    · simp [ht.isSupply hs hp]
  cases he with
  | same => simp [hnone]
  | clear n kind key hget => exact absurd hget (hc kind key)

variable [Time τ] [BEq κ] {w : World τ κ}

theorem filter_isSupply_of_base {task : Task τ κ} (h : task.isBase = true)
    (hall : ∀ t ∈ m.stack, t.isBase = true) :
    (m.execute w task).stack.filter Task.isSupply = [] := by
  rcases execute_base w m h with hn | ⟨pushed, hn, hp⟩
  · simp [hn]
  · rw [hn, List.filter_append, filter_isSupply_of_isBase hall, List.append_nil]
    cases hp with
    | base hp => exact filter_isSupply_of_isBase hp
    | wake next => rfl
    | call => rfl

omit [Time τ] [BEq κ] in
theorem filter_isSupply_callTasks (ops : List (Op τ κ)) :
    (callTasks ops).filter Task.isSupply = [] := by
  apply List.filter_eq_nil_iff.mpr
  intro t ht
  rcases mem_callTasks ht with ht | ⟨op, -, rfl⟩
  · simp [Task.isSupply_of_isPlain ht]
  · simp [Task.isSupply]

attribute [local simp] record log push give calledOut leave supplies Task.isSupply List.filter_cons

omit [BEq κ] in
theorem move_poll {rest : List (Task τ κ)} (hm : m.stack = .poll none :: rest)
    (hall : ∀ t ∈ rest, t.isBase = true) : Move w m (poll w { m with stack := rest } none) := by
  simp only [poll]
  split
  · exact .keep (.same rfl rfl rfl rfl rfl) (by simp [hm])
  · refine .fetch ?_ ?_ rfl rfl rfl rfl rfl
    · simp [hm, filter_isSupply_of_isBase hall]
    · simp [respond, filter_isSupply_callTasks, filter_isSupply_of_isBase hall]

omit [BEq κ] in
theorem move_receive {rest : List (Task τ κ)} (d : Delivery) (asked : Option CacheEntry)
    (hm : m.stack = .receive d asked :: rest) :
    Move w m (receive w { m with stack := rest } d asked) := by
  simp only [receive]
  generalize hr : m.requester.receive asked d = r
  obtain ⟨requester, outcome, rs⟩ := r
  generalize hx : record (logAll _ rs) _ = x
  have hst : x.sync.state = m.sync.state := by rw [← hx, logAll_eq]; rfl
  have hstack : x.stack = rest := by rw [← hx, logAll_eq]; rfl
  have hcall : x.callouts = m.callouts := by rw [← hx, logAll_eq]; rfl
  have hs : m.supplies = .receive d asked :: rest.filter Task.isSupply := by simp [hm]
  have move {n : Machine τ κ} (hk : Keeps x n) (hs' : (n.supplies = rest.filter Task.isSupply ∧
      ∀ s, outcome = .ok s → m.sync.state.isActive = false) ∨ ∃ s cached, outcome = .ok s ∧
        m.sync.state.isActive = true ∧
        n.supplies = .write s cached (w.write m.callouts) :: rest.filter Task.isSupply) :
      Move w m n :=
    .receive d asked _ x rs.reverse hs (by rw [← hx, logAll_eq, hr]; rfl)
      (by rw [← hx, logAll_eq]; rfl) (by rw [← hx, logAll_eq]; rfl)
      (by rw [← hx, logAll_eq, hr, List.map_reverse]; rfl) hcall hk (by rwa [hr])
  simp only [hst]
  split
  · rename_i hcl
    have ha : m.sync.state.isActive = false := by rw [hcl]; rfl
    refine move (.event rfl rfl rfl rfl rfl rfl) (.inl ⟨?_, fun _ _ => ha⟩)
    simp [hstack]
  · cases outcome with
    | ok s =>
      simp only [apply, hst]
      split
      · rename_i ha
        refine move (.event rfl rfl rfl rfl rfl rfl)
          (.inr ⟨s, m.requester.numberOf asked d, rfl, ha, ?_⟩)
        simp [hstack, hcall, filter_isSupply_callTasks]
      · rename_i ha
        refine move (.event rfl rfl rfl rfl rfl rfl) (.inl ⟨?_, fun _ _ => by simpa using ha⟩)
        simp [hstack]
    | error f =>
      have none (s : Snapshot) (h : (.error f : Except Failure Snapshot) = .ok s) :
          m.sync.state.isActive = false := by cases h
      simp only
      split
      · simp only [giveUp]
        split
        · refine move (.same rfl rfl rfl rfl rfl) (.inl ⟨?_, none⟩)
          simp [hstack]
        · split
          · refine move (.change rfl rfl rfl rfl rfl) (.inl ⟨?_, none⟩)
            simp [hstack]
          · refine move (Keeps.resolve ?_ _ _) (.inl ⟨?_, none⟩)
            · exact .change rfl rfl rfl rfl rfl
            · simp only [resolve]
              split <;> simp [hstack]
      · simp only [recover]
        split
        · refine move (.same rfl rfl rfl rfl rfl) (.inl ⟨?_, none⟩)
          simp [hstack]
        · refine move (.change rfl rfl rfl rfl rfl) (.inl ⟨?_, none⟩)
          simp [hstack]

omit [Time τ] [BEq κ] in
theorem move_write {rest : List (Task τ κ)} (s : Snapshot) (cached : Option Nat)
    (script : WriteScript (Op τ κ)) (hm : m.stack = .write s cached script :: rest) :
    Move w m (write { m with stack := rest } s cached script) := by
  have hs : m.supplies = .write s cached script :: rest.filter Task.isSupply := by simp [hm]
  simp only [write]
  split
  · rename_i message hr
    exact .write s cached script _ hs rfl rfl rfl ⟨[], rfl⟩ rfl (by simp [hr])
  · rename_i hr
    refine .write s cached script _ hs ?_ ?_ ?_ ⟨(Store.initLog s.allData).reverse, ?_⟩ ?_ ?_
    · simp [filter_isSupply_callTasks]
    · simp [logAll_eq]
    · simp [logAll_eq]
    · simp [logAll_eq]
    · simp [logAll_eq]
    · simp [logAll_eq, hr]

end Move

section Step

variable [Time τ] [BEq κ] {w : World τ κ} {m n : Machine τ κ}
  {q : Option (Response τ (Op τ κ)) → Prop}

theorem move_of_not_poll {task : Task τ κ} {rest : List (Task τ κ)} (h : Calls Op.IsGentle q m)
    (hm : m.stack = task :: rest) (hp : ∀ own, task ≠ .poll own) :
    Move w m (execute w { m with stack := rest } task) := by
  have htask : task.Every Op.IsGentle q := h.every task (by simp [hm])
  cases hsup : task.isSupply with
  | true =>
    cases task with
    | receive d asked => exact move_receive d asked hm
    | write s cached script => exact move_write s cached script hm
    | _ => simp [Task.isSupply] at hsup
  | false =>
    have hclear : ∀ kind key, task ≠ .perform (.get kind key .clear) := by
      rintro kind key rfl
      cases htask with
      | call hev =>
        cases hev with
        | other _ hg => exact hg.2 kind key rfl
    obtain ⟨hr, hst, hn, hj⟩ := keeps_execute { m with stack := rest } w hsup hp hclear
    refine .keep ⟨hr, hst, hn, hj⟩ ?_
    have hrest : m.supplies = rest.filter Task.isSupply := by
      rw [Machine.supplies, hm, List.filter_cons_of_neg (by simp [hsup])]
    rw [hrest]
    cases hb : task.isBase with
    | true =>
      have hall := h.isBase hm (Task.isGrounded_of_isBase hb)
      rw [filter_isSupply_of_isBase hall]
      exact filter_isSupply_of_base hb hall
    | false => exact filter_isSupply_of_pushes (execute_pushes w _ hb) hsup hp hclear

theorem move_of_step (h : Calls Op.IsGentle (· = none) m) (hs : m.step w = some n) :
    Move w m n := by
  obtain ⟨task, rest, hm, rfl⟩ := step_eq_some.mp hs
  by_cases hp : ∃ own, task = .poll own
  · obtain ⟨own, rfl⟩ := hp
    have hown : (Task.poll own).Every Op.IsGentle (· = none) := h.every _ (by simp [hm])
    obtain rfl : own = none := hown.1
    exact move_poll hm (h.isBase hm rfl)
  · exact move_of_not_poll h hm fun own ht => hp ⟨own, ht⟩

end Step

/-! ## The state in the journal -/

section State

theorem stateOf_filter (j : List (Event τ κ)) : stateOf (j.filter Event.isNotable) = stateOf j := by
  induction j with
  | nil => rfl
  | cons e j ih => cases e <;> simp_all [stateOf, Event.isNotable, List.filter_cons]

theorem stateOf_logged (log : List Log.Record) (j : List (Event τ κ)) :
    stateOf (log.map .logged ++ j) = stateOf j := by
  induction log with
  | nil => rfl
  | cons r log ih => exact ih

variable [Time τ] {w : World τ κ} {m n : Machine τ κ}

theorem stateOf_turn (h : stateOf m.history = m.sync.state)
    (hp : m.sync.state = .polling → m.sync.handle.resolution = none) (ht : Turn w m n) :
    stateOf n.history = n.sync.state := by
  cases ht with
  | start c hs hd hh =>
    obtain ⟨-, -, rfl⟩ := begin?_eq_some.mp hs
    simp [hh, stateOf, status]
  | close c hs hd hh =>
    obtain ⟨-, -, rfl⟩ := close?_eq_some.mp hs
    simp [hh, stateOf, status]
  | deliver c rest below hs hm hd hd' hh =>
    obtain ⟨-, hn⟩ := admit?_eq_some.mp hs
    simp [hh, stateOf, h, hn]
  | fetch own rest q hm hs hd hh =>
    obtain ⟨-, hn⟩ := poll?_eq_some.mp hs
    simp [hh, stateOf, h, hn]
  | recover f c rest hf hs hd hd' hh =>
    obtain ⟨-, -, rfl⟩ := recover?_eq_some.mp hs
    simp [hh, stateOf, status]
  | giveUp f s c rest hf hg hs hd hd' hh =>
    obtain ⟨-, rfl, rfl⟩ := giveUp?_eq_some.mp hg
    simp [hh, hs, stateOf, status]
  | succeed s c rest hi hs hd hd' hh =>
    obtain ⟨-, rfl, rfl⟩ := initialize?_eq_some.mp hi
    simp [hh, hs, stateOf, status]
  | twice hs hr => exact absurd (hp hs) hr
  | _ => simp_all [stateOf, returned]

variable [BEq κ] {r : Requester} {due free : Op τ κ → Prop} {ms : List (Machine τ κ)}

theorem stateOf_of_run (h : Run w r due free (m :: ms)) : stateOf m.journal = m.sync.state := by
  suffices hh : stateOf m.history = m.sync.state by rwa [history, stateOf_filter] at hh
  induction h using Run.head_induction with
  | create => rfl
  | timeline calls hd => rfl
  | call m ms op h hs ho ih => exact ih
  | step m n ms h hs ih =>
    exact stateOf_turn ih (pending_of_run h) (turn_of_step hs)

end State
end Machine
end FlagPoll.Synchronizer
