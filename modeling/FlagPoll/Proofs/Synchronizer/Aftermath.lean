import FlagPoll.Proofs.Synchronizer.Landing
import FlagPoll.Proofs.Synchronizer.Observers
import FlagPoll.Proofs.Synchronizer.Rounds

/-!
# FlagPoll.Proofs.Synchronizer.Aftermath

What follows once the fetch of a poll has returned.

* `Remains`      — tasks of a poll's own, and the calls that callees make above them.
* `Within`       — the machines up to the end of what lies above a depth.
* `InCall`       — a call that a callee makes is under way, which may do anything.
* `own_or_inCall` — everything else is done by the poll's own tasks.
* `Awaits`       — what remains is done above a task, which stays there meanwhile.
* `Run.later`    — what holds somewhere in a run and is kept holds later.
* `Resumes`      — the next fetch begins by the schedule unless the synchronizer has been closed.
* `resumes_of_receive`, `comes_to_resume` — whatever a fetch has come to, unless polling has failed
  for good.
-/

namespace FlagPoll.Synchronizer

open Time

variable {τ κ : Type}

/-- Tasks of a sort, and tasks of calls that callees make: those have the end of the call below
them. -/
def Remains (own : Task τ κ → Bool) : List (Task τ κ) → Prop
  | [] => True
  | t :: ts => (own t = true ∨ ∃ op, .report op ∈ ts) ∧ t.isBase = false ∧ Remains own ts

section Remains

variable {own : Task τ κ → Bool} {ts us : List (Task τ κ)}

theorem Remains.append (ht : Remains own ts) (hu : Remains own us) : Remains own (ts ++ us) := by
  induction ts with
  | nil => exact hu
  | cons t ts ih =>
    obtain ⟨htop, hbase, hts⟩ := ht
    refine ⟨htop.imp_right ?_, hbase, ih hts⟩
    rintro ⟨op, hop⟩
    exact ⟨op, List.mem_append_left us hop⟩

/-- Whatever lies above the end of a call belongs to that call. -/
theorem Remains.above {op : Op τ κ} (ht : Remains own ts) (hop : .report op ∈ ts)
    (hu : ∀ u ∈ us, u.isBase = false) : Remains own (us ++ ts) := by
  induction us with
  | nil => exact ht
  | cons u us ih =>
    obtain ⟨hbase, hus⟩ := List.forall_mem_cons.mp hu
    exact ⟨.inr ⟨op, List.mem_append_right us hop⟩, hbase, ih hus⟩

theorem Remains.clear (hc : ∀ n kind key t, own (t.clearItem n kind key) = own t)
    (ht : Remains own ts) (n : Nat) (kind : Kind) (key : CodePoints) :
    Remains own (ts.map (·.clearItem n kind key)) := by
  induction ts with
  | nil => trivial
  | cons t ts ih =>
    obtain ⟨htop, hbase, hts⟩ := ht
    refine ⟨?_, by rwa [Task.isBase_clearItem], ih hts⟩
    rw [hc]
    refine htop.imp_right ?_
    rintro ⟨op, hop⟩
    exact ⟨op, List.mem_map.mpr ⟨_, hop, rfl⟩⟩

/-- The calls of a callee. -/
theorem remains_callTasks (hr : ∀ op, own (.report op) = true) (ops : List (Op τ κ)) :
    Remains own (callTasks ops) := by
  induction ops with
  | nil => trivial
  | cons op ops ih =>
    exact ⟨.inr ⟨op, List.mem_cons_self⟩, rfl, .inl (hr op), rfl, ih⟩

end Remains

/-- Tasks of a sort push no others but calls of callees. -/
structure Confines [Time τ] [BEq κ] (w : World τ κ) (own : Task τ κ → Bool) : Prop where
  clear : ∀ n kind key t, own (t.clearItem n kind key) = own t
  pushes : ∀ (m : Machine τ κ) t, own t = true →
    ∃ pushed, (m.execute w t).stack = pushed ++ m.stack ∧ Remains own pushed

theorem Emptied.append {task : Task τ κ} {as bs cs : List (Task τ κ)}
    (h : Emptied task (as ++ bs) cs) :
    ∃ as' bs', cs = as' ++ bs' ∧ Emptied task as as' ∧ Emptied task bs bs' := by
  cases h with
  | same => exact ⟨as, bs, rfl, .same, .same⟩
  | clear n kind key h =>
    exact ⟨_, _, List.map_append, .clear n kind key h, .clear n kind key h⟩

theorem Emptied.length {task : Task τ κ} {as bs : List (Task τ κ)} (h : Emptied task as bs) :
    bs.length = as.length := by
  cases h <;> simp

namespace Machine

/-- A call that a callee makes is under way above a depth of the stack: its end lies below the task
on top. -/
def InCall (depth : Nat) (m : Machine τ κ) : Prop :=
  ∃ task above op below, m.stack = task :: (above ++ .report op :: below) ∧ depth ≤ below.length

theorem InCall.mono {m : Machine τ κ} {c d : Nat} (h : InCall d m) (hd : c ≤ d) : InCall c m := by
  obtain ⟨task, above, op, below, hm, hle⟩ := h
  exact ⟨task, above, op, below, hm, hd.trans hle⟩

section Steps

variable [Time τ] [BEq κ] {w : World τ κ} {own : Task τ κ → Bool} {m n x y : Machine τ κ}
  {task : Task τ κ} {ts below : List (Task τ κ)}

/-- A step is made by a task of the sort or within a call of a callee, and leaves such tasks above
the same ones. -/
theorem remains_step (ho : Confines w own) (hm : m.stack = task :: (ts ++ below))
    (hr : Remains own (task :: ts)) (h : m.step w = some n) :
    (own task = true ∨ InCall below.length m) ∧ ∃ ts' below', n.stack = ts' ++ below' ∧
      Remains own ts' ∧ Emptied task below below' := by
  obtain ⟨htop, hbase, hts⟩ := hr
  obtain rfl := eq_execute hm h
  rcases htop with htop | ⟨op, hop⟩
  · obtain ⟨pushed, hn, hp⟩ := ho.pushes { m with stack := ts ++ below } task htop
    exact ⟨.inl htop, pushed ++ ts, below, by rw [hn, List.append_assoc], hp.append hts, .same⟩
  · have hcall : InCall below.length m := by
      obtain ⟨before, after, rfl⟩ := List.append_of_mem hop
      exact ⟨task, before, op, after ++ below, by simp [hm], by simp⟩
    refine ⟨.inr hcall, ?_⟩
    obtain ⟨pushed, rest, hn, he, hp⟩ :=
      execute_pushes w { m with stack := ts ++ below } hbase
    have hflat : ∀ t ∈ pushed, t.isBase = false := fun t ht =>
      (hp t ht).elim Task.isBase_of_isPlain Leads.isBase
    obtain ⟨ts', below', rfl, hts', hbelow⟩ := he.append
    refine ⟨pushed ++ ts', below', by rw [hn, List.append_assoc], ?_, hbelow⟩
    cases hts' with
    | same => exact hts.above hop hflat
    | clear n kind key =>
      exact (hts.clear ho.clear n kind key).above (List.mem_map.mpr ⟨_, hop, rfl⟩) hflat

/-- The machines that follow a machine until what lies above a depth of the stack is done. -/
inductive Within (w : World τ κ) (depth : Nat) (m : Machine τ κ) : Machine τ κ → Prop where
  | here : Within w depth m m
  | step {x y : Machine τ κ} (h : Within w depth m x) (hd : depth < x.stack.length)
      (hs : x.step w = some y) : Within w depth m y

theorem remains_within (ho : Confines w own) (hm : m.stack = ts ++ below) (hr : Remains own ts)
    (h : Within w below.length m x) : ∃ ts' below', x.stack = ts' ++ below' ∧
      below'.length = below.length ∧ Remains own ts' := by
  induction h with
  | here => exact ⟨ts, below, hm, rfl, hr⟩
  | step h hd hs ih =>
    obtain ⟨ts', below', hx, hlen, hr'⟩ := ih
    cases ts' with
    | nil =>
      rw [hx, List.nil_append, hlen] at hd
      exact absurd hd (lt_irrefl _)
    | cons task ts' =>
      obtain ⟨-, ts'', below'', hy, hr'', he⟩ := remains_step ho hx hr' hs
      exact ⟨ts'', below'', hy, he.length.trans hlen, hr''⟩

/-- Until the tasks of the sort are done, each step is made by one of them or within a call that a
callee makes. -/
theorem own_or_inCall (ho : Confines w own) (hm : m.stack = ts ++ below) (hr : Remains own ts)
    (h : Within w below.length m x) (hd : below.length < x.stack.length) (hs : x.step w = some y) :
    InCall below.length x ∨ ∃ task rest, x.stack = task :: rest ∧ own task = true := by
  obtain ⟨ts', below', hx, hlen, hr'⟩ := remains_within ho hm hr h
  cases ts' with
  | nil =>
    rw [hx, List.nil_append, hlen] at hd
    exact absurd hd (lt_irrefl _)
  | cons task ts' =>
    obtain ⟨htop, -⟩ := remains_step ho hx hr' hs
    rw [← hlen]
    exact htop.symm.imp_right fun htop => ⟨task, _, hx, htop⟩

/-- What remains is done above a task of a kind, which is next after it. -/
def Awaits (own : Task τ κ → Bool) (kind : Task τ κ → Prop) (depth : Nat) (m : Machine τ κ) :
    Prop :=
  ∃ above t below, m.stack = above ++ t :: below ∧ Remains own above ∧ kind t ∧ below.length = depth

variable {kind : Task τ κ → Prop} {depth : Nat}
  (hk : ∀ n k key t, kind t → kind (t.clearItem n k key))
include hk

theorem awaits_step (ho : Confines w own) (h : Awaits own kind depth m)
    (hd : depth + 1 < m.stack.length) (hs : m.step w = some n) :
    Awaits own kind depth n ∧
      (InCall depth m ∨ ∃ task rest, m.stack = task :: rest ∧ own task = true) := by
  obtain ⟨above, t, below, hm, ha, ht, rfl⟩ := h
  cases above with
  | nil => simp [hm] at hd
  | cons task above =>
    obtain ⟨htop, above', rest, hn, ha', he⟩ := remains_step ho hm ha hs
    refine ⟨?_, htop.symm.imp (fun hcall => hcall.mono (by simp)) fun hown => ⟨task, _, hm, hown⟩⟩
    cases he with
    | same => exact ⟨above', t, below, hn, ha', ht, rfl⟩
    | clear n k key => exact ⟨above', _, _, hn, ha', hk n k key t ht, by simp⟩

theorem awaits_within (ho : Confines w own) (h : Awaits own kind depth m)
    (hx : Within w (depth + 1) m x) : Awaits own kind depth x := by
  induction hx with
  | here => exact h
  | step _ hd hs ih => exact (awaits_step hk ho ih hd hs).1

omit [Time τ] [BEq κ] hk

theorem Awaits.deep (h : Awaits own kind depth m) : depth + 1 ≤ m.stack.length := by
  obtain ⟨above, t, below, hm, -, -, rfl⟩ := h
  simp only [hm, List.length_append, List.length_cons]
  omega

theorem Awaits.next (h : Awaits own kind depth m) (hm : m.stack.length = depth + 1) :
    ∃ t below, m.stack = t :: below ∧ kind t ∧ below.length = depth := by
  obtain ⟨above, t, below, hstack, -, ht, hb⟩ := h
  obtain rfl : above = [] := by
    rw [hstack, List.length_append, List.length_cons, hb] at hm
    exact List.length_eq_zero_iff.mp (by omega)
  exact ⟨t, below, hstack, ht, hb⟩

end Steps

/-! ## Later machines of a run -/

section Later

variable [Time τ] [BEq κ] {w : World τ κ} {r : Requester} {due free : Op τ κ → Prop}
  {m n x : Machine τ κ} {ms ns xs : List (Machine τ κ)}

theorem Run.later {P : Machine τ κ → Prop} (h : Run w r due free (x :: xs))
    (hs : m :: ms <:+ x :: xs) (hm : P m)
    (hcall : ∀ y op, P y → y.stack = [] →
      P { y with stack := [.perform op], reading := .nothing })
    (hstep : ∀ y z ys, Run w r due free (y :: ys) → P y → y.step w = some z → P z) : P x := by
  have last {y : Machine τ κ} (hs : m :: ms <:+ [y]) : P y := by
    rcases List.suffix_cons_iff.mp hs with heq | hs
    · rwa [← (List.cons.inj heq).1]
    · simp at hs
  induction h using Run.head_induction with
  | create => exact last hs
  | timeline calls hd => exact last hs
  | call y ys op h hst ho ih =>
    rcases List.suffix_cons_iff.mp hs with heq | hs
    · rwa [← (List.cons.inj heq).1]
    · exact hcall y op (ih hs) hst
  | step y z ys h hst ih =>
    rcases List.suffix_cons_iff.mp hs with heq | hs
    · rwa [← (List.cons.inj heq).1]
    · exact hstep y z ys h (ih hs) hst

/-- Where calls are made at given moments only, each machine of a run comes from the one before by a
step. -/
theorem Run.drop {l : List (Machine τ κ)} {i : Nat} (h : Run w r due (fun _ => False) l)
    (hm : l[i + 1]? = some m) : ∃ n ms, n :: m :: ms = l.drop i ∧ l[i]? = some n ∧
      Run w r due (fun _ => False) (m :: ms) ∧ m.step w = some n := by
  obtain ⟨hi, rfl⟩ := List.getElem?_eq_some_iff.mp hm
  have hdrop : l[i] :: l[i + 1] :: l.drop (i + 2) = l.drop i := by
    rw [List.getElem_cons_drop, List.getElem_cons_drop]
  obtain ⟨hrun, hstep⟩ := (h.of_suffix (hdrop ▸ List.drop_suffix i l)).inv
  exact ⟨_, _, hdrop, List.getElem?_eq_getElem _, hrun, hstep.resolve_left (by simp)⟩

omit [BEq κ] in
theorem fetchTimes_of_inactive (hp : m.sync.state = .polling → m.sync.handle.resolution = none)
    (ha : m.sync.state.isActive = false) (ht : Turn w m n) :
    fetchTimes n.journal = fetchTimes m.journal := by
  suffices h : fetchTimes n.history = fetchTimes m.history by
    rwa [history, history, fetchTimes_filter, fetchTimes_filter] at h
  cases ht with
  | fetch own rest q hm hs => simp [(poll?_eq_some.mp hs).1] at ha
  | twice hs hr => exact absurd (hp hs) hr
  | _ => simp_all [fetchTimes]

/-- Once polling is over no fetch begins any more. -/
theorem fetchTimes_of_over (h : Run w r due free (x :: xs)) (hs : m :: ms <:+ x :: xs)
    (hm : m.sync.state = .closed ∨ m.sync.state = .permanentlyFailed) :
    fetchTimes x.journal = fetchTimes m.journal := by
  refine (Run.later (P := fun y => (y.sync.state = .closed ∨ y.sync.state = .permanentlyFailed) ∧
    fetchTimes y.journal = fetchTimes m.journal) h hs ⟨hm, rfl⟩ (fun y op hy _ => hy) ?_).2
  rintro y z ys hrun ⟨hover, hf⟩ hstep
  have ha : y.sync.state.isActive = false := by
    rcases hover with hover | hover <;> rw [hover] <;> rfl
  have ht := turn_of_step hstep
  exact ⟨(over_turn hover ht).1, (fetchTimes_of_inactive (pending_of_run hrun) ha ht).trans hf⟩

omit [BEq κ] in
/-- A fetch is under way only if it was so before or begins now. -/
theorem receive_turn (hp : m.sync.state = .polling → m.sync.handle.resolution = none)
    (ht : Turn w m n) :
    (fetchTimes n.journal = fetchTimes m.journal ∧ (.receive ∈ n.duties → .receive ∈ m.duties)) ∨
      fetchTimes n.journal = m.clock :: fetchTimes m.journal := by
  suffices h : (fetchTimes n.history = fetchTimes m.history ∧
      (.receive ∈ n.duties → .receive ∈ m.duties)) ∨
      fetchTimes n.history = m.clock :: fetchTimes m.history by
    rwa [history, history, fetchTimes_filter, fetchTimes_filter] at h
  cases ht with
  | fetch own rest q hm hs hd hh => exact .inr (by rw [hh]; rfl)
  | twice hs hr => exact absurd (hp hs) hr
  | close c hs hd hh =>
    refine .inl ⟨by rw [hh]; rfl, fun hr => ?_⟩
    rw [hd] at hr
    split at hr <;> simpa using hr
  | _ => simp_all [fetchTimes]

/-- While no further fetch begins, a failure does not end polling. -/
theorem unfailed_of_run (h : Run w r due free (x :: xs)) (hs : m :: ms <:+ x :: xs)
    (hr : .receive ∉ m.duties) (hf : m.sync.state ≠ .permanentlyFailed) :
    fetchTimes m.journal <:+ fetchTimes x.journal ∧
      (fetchTimes x.journal = fetchTimes m.journal → x.sync.state ≠ .permanentlyFailed) := by
  have key := Run.later (P := fun y => fetchTimes m.journal <:+ fetchTimes y.journal ∧
    (fetchTimes y.journal = fetchTimes m.journal →
      .receive ∉ y.duties ∧ y.sync.state ≠ .permanentlyFailed)) h hs
    ⟨List.suffix_rfl, fun _ => ⟨hr, hf⟩⟩ ?_ ?_
  · exact ⟨key.1, fun heq => (key.2 heq).2⟩
  · rintro y op ⟨hsuf, hy⟩ hst
    exact ⟨hsuf, fun heq => ⟨by simp [duties, Task.duty?], (hy heq).2⟩⟩
  · rintro y z ys hrun ⟨hsuf, hy⟩ hstep
    have ht := turn_of_step hstep
    rcases receive_turn (pending_of_run hrun) ht with ⟨hsame, hreceive⟩ | hbegins
    · rw [hsame]
      refine ⟨hsuf, fun heq => ?_⟩
      obtain ⟨hnone, hstate⟩ := hy heq
      refine ⟨fun hmem => hnone (hreceive hmem), fun hfail => ?_⟩
      exact (failed_turn hfail (pending_of_run hrun) ht).1.elim hstate hnone
    · rw [hbegins]
      refine ⟨hsuf.trans (List.suffix_cons _ _), fun heq => ?_⟩
      have := hsuf.length_le
      rw [← heq, List.length_cons] at this
      omega

end Later

/-- What follows the latest fetch of `n` in a run that has come to its end: the next fetch begins an
interval after that one began or, if its poll took longer, when it ended; or there is none, because
the synchronizer has been closed or the next fetch is due beyond the horizon. -/
def Resumes [Time τ] (w : World τ κ) (n x : Machine τ κ) (xs : List (Machine τ κ)) : Prop :=
  ∃ began earlier, fetchTimes n.journal = began :: earlier ∧
    ((∃ ended, (pollEnds (x :: xs))[earlier.length]? = some ended ∧
        (fetchStarts x)[earlier.length + 1]? = some (latest ended (began + w.interval))) ∨
      fetchTimes x.journal = fetchTimes n.journal ∧ (x.sync.state = .closed ∨
        ∃ d, dueTime w.interval (x :: xs) = some d ∧ w.horizon < d))

theorem flying_le (j : List (Event τ κ)) : flying j ≤ (fetchTimes j).length := by
  induction j with
  | nil => exact Nat.zero_le _
  | cons e j ih =>
    cases e <;> simp only [flying, fetchTimes, List.length_cons] <;> omega

section Resumes

variable [Time τ] [BEq κ] {w : World τ κ} {r : Requester} {n x : Machine τ κ}
  {ns xs : List (Machine τ κ)}

theorem launched_of_fetch (hw : w.Every fun op => ¬ op.IsPoll)
    (h : Run w r (Op.Every fun op => ¬ op.IsPoll) (fun _ => False) (x :: xs))
    (hx : Exact (x :: xs)) (hf : fetchTimes x.journal ≠ []) : x.sync.launched = true := by
  obtain ⟨above, base, -, -, hstage⟩ := paced_of_run hw h hx
  cases hstage with
  | lead hb hf' => exact absurd hf' hf
  | never ha hf' => exact absurd hf' hf
  | await next hb ha hl | wait target hl | wake ha hl | poll ha hl | fetching t ts ha hl
  | ended hb ha hl => exact hl

theorem resumes_of_run (hw : w.Every fun op => ¬ op.IsPoll)
    (h : Run w r (Op.Every fun op => ¬ op.IsPoll) (fun _ => False) (x :: xs))
    (hx : Exact (x :: xs)) (hs : n :: ns <:+ x :: xs) (hend : x.stack = [])
    (hb : fetchTimes n.journal ≠ []) (hr : .receive ∉ n.duties)
    (hf : n.sync.state ≠ .permanentlyFailed) : Resumes w n x xs := by
  obtain ⟨began, earlier, hn⟩ := List.exists_cons_of_ne_nil hb
  obtain ⟨⟨later, hlater⟩, hunfailed⟩ := unfailed_of_run h hs hr hf
  refine ⟨began, earlier, hn, ?_⟩
  -- either no fetch has begun since, or the schedule says when the next one did
  rcases List.eq_nil_or_concat later with rfl | ⟨later, next, rfl⟩
  · have hsame : fetchTimes x.journal = fetchTimes n.journal := hlater.symm
    refine .inr ⟨hsame, ?_⟩
    have hl := launched_of_fetch hw h hx (hsame ▸ hb)
    refine (complete_of_run hw h hx hend hl).imp_left fun hst => ?_
    exact ((steady_of_run h).mp hst).resolve_right (hunfailed hsame)
  · have hstarts : fetchStarts x = earlier.reverse ++ began :: next :: later.reverse := by
      simp [fetchStarts, ← hlater, hn]
    have hfirst : (fetchStarts x)[earlier.length]? = some began := by simp [hstarts]
    have hsecond : (fetchStarts x)[earlier.length + 1]? = some next := by simp [hstarts]
    obtain ⟨b, e, hb, he, rfl⟩ := (onSchedule_of_run hw h hx).next _ _ hsecond
    obtain rfl := Option.some.inj (hfirst.symm.trans hb)
    exact .inl ⟨e, he, hsecond⟩

/-- Polls come one after the other: below a fetch that returns there is no other one. -/
theorem alone_of_receive {d : Delivery} {asked : Option CacheEntry} {rest : List (Task τ κ)}
    (hw : w.Every fun op => ¬ op.IsPoll)
    (h : Run w r (Op.Every fun op => ¬ op.IsPoll) (Op.Outer (fun op => ¬ op.IsPoll) fun _ => True)
      (n :: ns))
    (hn : n.stack = .receive d asked :: rest) :
    .receive ∉ dutiesOf rest ∧ fetchTimes n.journal ≠ [] := by
  obtain ⟨hfly, hfetch, -⟩ := requests_of_run hw h
  have hcount : n.receives = (dutiesOf rest).countP Duty.isReceive + 1 := by
    simp [receives, duties, hn, Task.duty?, Duty.isReceive, List.countP_cons]
  have hle := Bool.toNat_le n.sync.fetching
  constructor
  · intro hmem
    have hpos : 0 < (dutiesOf rest).countP Duty.isReceive := List.countP_pos_iff.mpr ⟨_, hmem, rfl⟩
    omega
  · have hlen := flying_le n.journal
    rw [history, (filter_isNotable _).1] at hfly
    intro hnone
    rw [hnone, List.length_nil] at hlen
    omega

/-- Whatever a fetch has come to, polling goes on by the schedule if it has not failed for good. -/
theorem resumes_of_receive {d : Delivery} {asked : Option CacheEntry} {rest : List (Task τ κ)}
    {m : Machine τ κ} {ms : List (Machine τ κ)} (hw : w.Every fun op => ¬ op.IsPoll)
    (hm : m.stack = .receive d asked :: rest) (hs : m.step w = some n)
    (hf : n.sync.state ≠ .permanentlyFailed)
    (h : Run w r (Op.Every fun op => ¬ op.IsPoll) (fun _ => False) (x :: xs))
    (hsuf : n :: m :: ms <:+ x :: xs) (hx : Exact (x :: xs)) (hend : x.stack = []) :
    Resumes w n x xs := by
  have hrun : Run w r (Op.Every fun op => ¬ op.IsPoll) (fun _ => False) (m :: ms) :=
    h.of_suffix ((List.suffix_cons n _).trans hsuf)
  obtain ⟨halone, hb⟩ := alone_of_receive hw (hrun.mono (fun _ ho => ho) fun _ ho => ho.elim) hm
  have hsame : fetchTimes n.journal = fetchTimes m.journal :=
    fetchTimes_turn (pending_of_run hrun) (by simp [hm]) (turn_of_step hs)
  refine resumes_of_run hw h hx hsuf hend (hsame ▸ hb) ?_ hf
  obtain rfl := eq_execute hm hs
  obtain ⟨pushed, below, hn, he, hp⟩ := receive_pushes w { m with stack := rest } d asked
  have hnone : .receive ∉ dutiesOf pushed := by
    intro hmem
    obtain ⟨t, ht, hd⟩ := List.mem_filterMap.mp hmem
    obtain ⟨d', asked', rfl⟩ := receive_of_duty hd
    rcases hp _ ht with hplain | hleads
    · cases hplain
    · cases hleads
  have hbelow : dutiesOf below = dutiesOf rest := by
    cases he with
    | same => rfl
    | clear n kind key h => cases h
  change .receive ∉ dutiesOf (receive w { m with stack := rest } d asked).stack
  rw [hn, dutiesOf_append, hbelow]
  exact fun hmem => (List.mem_append.mp hmem).elim hnone halone

theorem Run.within {due free : Op τ κ → Prop} {depth : Nat} (h : Run w r due free (n :: ns))
    (hx : Within w depth n x) : ∃ xs, Run w r due free (x :: xs) := by
  induction hx with
  | here => exact ⟨ns, h⟩
  | step _ hd hs ih =>
    obtain ⟨xs, hrun⟩ := ih
    exact ⟨_, hrun.step hs⟩

theorem Run.ahead {due free : Op τ κ → Prop} (h : Run w r due free (n :: ns)) (k : Nat) :
    ∃ xs, Run w r due free (run w k n :: xs) ∧ n :: ns <:+ run w k n :: xs := by
  induction k generalizing n ns with
  | zero => exact ⟨ns, h, List.suffix_rfl⟩
  | succ k ih =>
    rw [run]
    split
    · exact ⟨ns, h, List.suffix_rfl⟩
    · rename_i m hm
      obtain ⟨xs, hrun, hsuf⟩ := ih (h.step hm)
      exact ⟨xs, hrun, (List.suffix_cons m _).trans hsuf⟩

end Resumes

/-- All calls return in a run that has an end. -/
theorem returning_of_end [BEq κ] {w : World Rat κ} {m : Machine Rat κ} {fuel : Nat}
    (h : (run w fuel m).stack = []) : Returning w m := by
  intro k
  refine ⟨fuel + k, by omega, ?_⟩
  have hk : run w k (run w fuel m) = run w fuel m := by
    cases k <;> simp [run, step, h]
  rw [run_add, hk, isIdle, h]
  rfl

/-- A run in which all calls return comes to its end, and the next fetch has begun by then if it is
due before the horizon. -/
theorem comes_to_resume [BEq κ] {w : World Rat κ} {r : Requester} {m n : Machine Rat κ}
    {ms : List (Machine Rat κ)} {d : Delivery} {asked : Option CacheEntry}
    {rest : List (Task Rat κ)} (hi : 0 < w.interval) (hw : w.Every fun op => ¬ op.IsPoll)
    (h : Run w r (Op.Every fun op => ¬ op.IsPoll) (fun _ => False) (m :: ms))
    (hm : m.stack = .receive d asked :: rest) (hs : m.step w = some n)
    (hf : n.sync.state ≠ .permanentlyFailed) (hret : Returning w n) :
    ∃ x xs, Run w r (Op.Every fun op => ¬ op.IsPoll) (fun _ => False) (x :: xs) ∧
      n :: m :: ms <:+ x :: xs ∧ x.stack = [] ∧ Resumes w n x xs := by
  obtain ⟨fuel, hend⟩ := comes_to_end hi hw (h.step hs) hret
  obtain ⟨xs, hrun, hsuf⟩ := (h.step hs).ahead fuel
  exact ⟨_, xs, hrun, hsuf, hend, resumes_of_receive hw hm hs hf hrun hsuf (exact_rat _) hend⟩

end Machine
end FlagPoll.Synchronizer
