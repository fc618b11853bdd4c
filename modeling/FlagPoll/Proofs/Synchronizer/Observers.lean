import FlagPoll.Proofs.Synchronizer.Hush
import FlagPoll.Proofs.Synchronizer.Run

/-!
# FlagPoll.Proofs.Synchronizer.Observers

Runs that differ only in which observers raise exceptions.

* `shown`          — the machines of a run, hushed, without those that only tell of an exception.
* `asked`          — the calls of a run that were made while nothing was in progress.
* `Run.shown`      — what a run shows is a run with observers that raise nothing.
* `Run.comparable` — the calls decide a run.
* `Run.follow`     — whatever the hushed machine goes on to do, the machine itself does too.
* `exceptions_do_not_matter` — runs with the same calls show the same.
-/

namespace FlagPoll.Synchronizer.Machine

variable {τ κ : Type}

/-- The machines of a run as they are without exceptions, the latest first. -/
def shown : List (Machine τ κ) → List (Machine τ κ)
  | [] => []
  | [m] => [m.hushed]
  | n :: m :: ms => if m.isRaising then shown (m :: ms) else n.hushed :: shown (m :: ms)

/-- The calls that were made while nothing was in progress, the latest first. -/
def asked : List (Machine τ κ) → List (Op τ κ)
  | n :: m :: ms =>
    match m.stack, n.stack with
    | [], .perform op :: _ => op :: asked (m :: ms)
    | _, _ => asked (m :: ms)
  | _ => []

section Lists

variable {m n : Machine τ κ} {ms xs ys : List (Machine τ κ)}

theorem shown_raising (h : m.isRaising = true) : shown (n :: m :: ms) = shown (m :: ms) := by
  simp [shown, h]

theorem shown_cons (h : m.isRaising = false) :
    shown (n :: m :: ms) = n.hushed :: shown (m :: ms) := by
  simp [shown, h]

theorem asked_call {op : Op τ κ} {reading : Reading τ κ} (h : m.stack = []) :
    asked ({ m with stack := [.perform op], reading } :: m :: ms) = op :: asked (m :: ms) := by
  simp [asked, h]

theorem asked_step (h : m.stack ≠ []) : asked (n :: m :: ms) = asked (m :: ms) := by
  cases hm : m.stack with
  | nil => exact absurd hm h
  | cons task rest => simp [asked, hm]

theorem asked_suffix (h : xs <:+ ys) : asked xs <:+ asked ys := by
  induction ys with
  | nil =>
    obtain rfl := List.suffix_nil.mp h
    exact List.suffix_rfl
  | cons y ys ih =>
    rcases List.suffix_cons_iff.mp h with rfl | h
    · exact List.suffix_rfl
    · refine (ih h).trans ?_
      cases ys with
      | nil => exact List.nil_suffix
      | cons z zs =>
        rw [asked]
        split
        · exact List.suffix_cons _ _
        · exact List.suffix_rfl

theorem shown_ne_nil (m : Machine τ κ) (ms : List (Machine τ κ)) : shown (m :: ms) ≠ [] := by
  induction ms generalizing m with
  | nil => simp [shown]
  | cons x xs ih =>
    cases hx : x.isRaising with
    | true =>
      rw [shown_raising hx]
      exact ih x
    | false => simp [shown_cons hx]

theorem getLast?_shown (m : Machine τ κ) (ms : List (Machine τ κ)) :
    (shown (m :: ms)).getLast? = (m :: ms).getLast?.map hushed := by
  induction ms generalizing m with
  | nil => rfl
  | cons x xs ih =>
    cases hx : x.isRaising with
    | true => rw [shown_raising hx, ih, List.getLast?_cons_cons]
    | false =>
      rw [shown_cons hx, List.getLast?_cons_cons, ← ih x,
        List.getLast?_cons_of_ne_nil (shown_ne_nil x xs)]

/-- A list that ends another one is that one, or there is an element before it. -/
theorem eq_or_cons_of_suffix {α : Type} {as bs : List α} (h : as <:+ bs) :
    as = bs ∨ ∃ b, b :: as <:+ bs := by
  obtain ⟨before, rfl⟩ := h
  rcases List.eq_nil_or_concat before with rfl | ⟨earlier, b, rfl⟩
  · exact .inl rfl
  · exact .inr ⟨b, earlier, by simp⟩

end Lists

section Run

variable [Time τ] [BEq κ] {w : World τ κ} {r : Requester} {due free : Op τ κ → Prop}
  {m n : Machine τ κ} {ms ns : List (Machine τ κ)}

theorem stack_ne_nil_of_step (h : m.step w = some n) : m.stack ≠ [] := by
  obtain ⟨task, rest, hm, -⟩ := step_eq_some.mp h
  simp [hm]

/-- What a run shows is a run of the hushed machine, with the same calls. -/
theorem Run.shown (h : Run w r due free (m :: ms)) : ∃ qs, shown (m :: ms) = m.hushed :: qs ∧
    Run w.hushed r due free (m.hushed :: qs) ∧ asked (m.hushed :: qs) = asked (m :: ms) := by
  induction h using Run.head_induction with
  | create => exact ⟨[], rfl, .create, rfl⟩
  | timeline calls hd => exact ⟨[], rfl, .timeline hd, rfl⟩
  | call x xs op h hs ho ih =>
    obtain ⟨qs, hshown, hrun, hasked⟩ := ih
    have hx : x.isRaising = false := by simp [isRaising, hs]
    have hs' : x.hushed.stack = [] := by simp [hushed, hs]
    refine ⟨x.hushed :: qs, by rw [shown_cons hx, hshown], .call hrun hs' ho, ?_⟩
    rw [asked_call hs, ← hasked]
    exact asked_call hs'
  | step x y xs h hs ih =>
    obtain ⟨qs, hshown, hrun, hasked⟩ := ih
    rw [asked_step (stack_ne_nil_of_step hs)]
    cases hx : x.isRaising with
    | true =>
      rw [shown_raising hx, (step_raising hx hs).1]
      exact ⟨qs, hshown, hrun, hasked⟩
    | false =>
      have hstep : x.hushed.step w.hushed = some y.hushed := by rw [step_hushed hx, hs]; rfl
      refine ⟨x.hushed :: qs, by rw [shown_cons hx, hshown], .step hrun hstep, ?_⟩
      rw [asked_step (stack_ne_nil_of_step hstep), hasked]

/-! ## The calls decide a run -/

theorem Run.inv (h : Run w r due free (n :: m :: ms)) : Run w r due free (m :: ms) ∧
    ((m.stack = [] ∧
        ∃ op, free op ∧ n = { m with stack := [.perform op], reading := .nothing }) ∨
      m.step w = some n) := by
  cases h with
  | call h hs ho => exact ⟨h, .inl ⟨hs, _, ho, rfl⟩⟩
  | step h hs => exact ⟨h, .inr hs⟩

theorem Run.of_suffix (h : Run w r due free ns) (hs : m :: ms <:+ ns) :
    Run w r due free (m :: ms) := by
  have whole {xs : List (Machine τ κ)} {x : Machine τ κ} (hx : Run w r due free (x :: xs))
      (ih : m :: ms <:+ xs → Run w r due free (m :: ms)) (hs : m :: ms <:+ x :: xs) :
      Run w r due free (m :: ms) := by
    rcases List.suffix_cons_iff.mp hs with heq | hs
    · rwa [heq]
    · exact ih hs
  have none (hs : m :: ms <:+ []) : Run w r due free (m :: ms) := by
    simp at hs
  induction h with
  | create => exact whole .create none hs
  | timeline h => exact whole (.timeline h) none hs
  | call h hst ho ih => exact whole (.call h hst ho) ih hs
  | step h hst ih => exact whole (.step h hst) ih hs

theorem head_eq_of_comparable {α : Type} {a b : α} {as bs : List α} (h : b :: as <:+ bs)
    (hc : a :: as <:+ bs ∨ bs <:+ a :: as) : a = b := by
  have hs : b :: as <:+ a :: as := by
    rcases hc with hc | hc
    · exact List.suffix_of_suffix_length_le h hc (by simp)
    · exact h.trans hc
  exact (List.cons.inj (hs.eq_of_length (by simp))).1.symm

/-- Of two runs that begin in the same way and in which the same calls are made, one is the
beginning of the other. -/
theorem Run.comparable (h : Run w r due free ms) (h' : Run w r due free ns)
    (hfirst : ms.getLast? = ns.getLast?) (hasked : asked ms <:+ asked ns ∨ asked ns <:+ asked ms) :
    ms <:+ ns ∨ ns <:+ ms := by
  have first {x : Machine τ κ} (hx : ns.getLast? = some x) : [x] <:+ ns := by
    obtain ⟨later, rfl⟩ := List.getLast?_eq_some_iff.mp hx
    exact List.suffix_append later [x]
  induction h with
  | create => exact .inl (first hfirst.symm)
  | timeline h => exact .inl (first hfirst.symm)
  | @call m ms op h hs ho ih =>
    rw [asked_call hs] at hasked
    have hearlier : asked (m :: ms) <:+ asked ns ∨ asked ns <:+ asked (m :: ms) := by
      rcases hasked with hle | hle
      · exact .inl ((List.suffix_cons op _).trans hle)
      · exact List.suffix_or_suffix_of_suffix (List.suffix_cons op _) hle
    rcases ih (by simpa using hfirst) hearlier with hsuf | hsuf
    · rcases eq_or_cons_of_suffix hsuf with rfl | ⟨n, hn⟩
      · exact .inr (List.suffix_cons _ _)
      · rcases (h'.of_suffix hn).inv with ⟨-, ⟨-, op', -, rfl⟩ | hstep⟩
        · have hlater := asked_suffix hn
          rw [asked_call hs] at hlater
          obtain rfl := head_eq_of_comparable hlater hasked
          exact .inl hn
        · exact absurd hs (stack_ne_nil_of_step hstep)
    · exact .inr (hsuf.trans (List.suffix_cons _ _))
  | @step m n ms h hs ih =>
    have hne := stack_ne_nil_of_step hs
    rw [asked_step hne] at hasked
    rcases ih (by simpa using hfirst) hasked with hsuf | hsuf
    · rcases eq_or_cons_of_suffix hsuf with rfl | ⟨n', hn⟩
      · exact .inr (List.suffix_cons _ _)
      · rcases (h'.of_suffix hn).inv with ⟨-, ⟨hs', -⟩ | hstep⟩
        · exact absurd hs' hne
        · obtain rfl := Option.some.inj (hs.symm.trans hstep)
          exact .inl hn
    · exact .inr (hsuf.trans (List.suffix_cons _ _))

/-- A run that has come to rest is decided by its calls as a whole. -/
theorem Run.eq_of_rest (h : Run w r due free ns) (hs : m.stack = []) (hsuf : m :: ms <:+ ns)
    (hasked : asked ns = asked (m :: ms)) : m :: ms = ns := by
  rcases eq_or_cons_of_suffix hsuf with heq | ⟨n, hn⟩
  · exact heq
  · rcases (h.of_suffix hn).inv with ⟨-, ⟨-, op, -, rfl⟩ | hstep⟩
    · have hlen := (asked_suffix hn).length_le
      rw [asked_call hs, hasked, List.length_cons] at hlen
      omega
    · exact absurd hs (stack_ne_nil_of_step hstep)

/-! ## What the hushed machine goes on to do -/

/-- All exceptions that come next are told of, until something is done that is seen. -/
theorem Run.settle (h : Run w r due free (m :: ms)) : ∃ n ns, Run w r due free (n :: ns) ∧
    m :: ms <:+ n :: ns ∧ Machine.shown (n :: ns) = Machine.shown (m :: ms) ∧
      n.isRaising = false := by
  induction hk : m.stack.length using Nat.strongRecOn generalizing m ms with
  | ind k ih =>
    cases hm : m.isRaising with
    | false => exact ⟨m, ms, h, List.suffix_rfl, rfl, hm⟩
    | true =>
      obtain ⟨n, hn⟩ : ∃ n, m.step w = some n := by
        cases hs : m.stack with
        | nil => simp [isRaising, hs] at hm
        | cons task rest => exact ⟨_, step_eq_some.mpr ⟨task, rest, hs, rfl⟩⟩
      have hlt := (step_raising hm hn).2
      obtain ⟨x, xs, hrun, hsuf, hshown, hx⟩ := ih n.stack.length (hk ▸ hlt) (.step h hn) rfl
      exact ⟨x, xs, hrun, (List.suffix_cons n _).trans hsuf, by rw [hshown, shown_raising hm], hx⟩

theorem Run.follow {q : Machine τ κ} (h : Run w r due free (m :: ms))
    (hq : Run w.hushed r due free (q :: Machine.shown (m :: ms))) : ∃ n ns,
    Run w r due free (n :: ns) ∧ m :: ms <:+ n :: ns ∧
      Machine.shown (n :: ns) = q :: Machine.shown (m :: ms) := by
  obtain ⟨n, ns, hrun, hsuf, hshown, hn⟩ := h.settle
  obtain ⟨qs, hqs, -, -⟩ := hrun.shown
  rw [← hshown, hqs] at hq
  rcases hq.inv with ⟨-, ⟨hs, op, ho, rfl⟩ | hstep⟩
  · have hs' : n.stack = [] := (stack_hushed hn).mp hs
    refine ⟨_, _, .call hrun hs' ho, hsuf.trans (List.suffix_cons _ _), ?_⟩
    rw [shown_cons hn, hshown]
    rfl
  · rw [step_hushed hn] at hstep
    obtain ⟨x, hx, rfl⟩ := Option.map_eq_some_iff.mp hstep
    refine ⟨x, _, .step hrun hx, hsuf.trans (List.suffix_cons _ _), ?_⟩
    rw [shown_cons hn, hshown]

/-- Whatever the hushed machine goes on to do, the machine itself does too. -/
theorem Run.follow_all {qs : List (Machine τ κ)} (h : Run w r due free (m :: ms))
    (hqs : Run w.hushed r due free (qs ++ Machine.shown (m :: ms))) : ∃ n ns,
    Run w r due free (n :: ns) ∧ m :: ms <:+ n :: ns ∧
      Machine.shown (n :: ns) = qs ++ Machine.shown (m :: ms) := by
  induction qs with
  | nil => exact ⟨m, ms, h, List.suffix_rfl, rfl⟩
  | cons q qs ih =>
    obtain ⟨x, xs, hx⟩ : ∃ x xs, qs ++ Machine.shown (m :: ms) = x :: xs :=
      List.exists_cons_of_ne_nil (by simp [shown_ne_nil])
    have hearlier : Run w.hushed r due free (qs ++ Machine.shown (m :: ms)) := by
      rw [hx]
      rw [List.cons_append, hx] at hqs
      exact hqs.inv.1
    obtain ⟨n, ns, hrun, hsuf, hshown⟩ := ih hearlier
    rw [List.cons_append, ← hshown] at hqs
    obtain ⟨n', ns', hrun', hsuf', hshown'⟩ := hrun.follow hqs
    exact ⟨n', ns', hrun', hsuf.trans hsuf', by rw [hshown', hshown, List.cons_append]⟩

/-- Two runs that begin in the same way, in which the same calls are made, and whose surroundings
differ only in which listeners, callbacks and closings of the requester raise exceptions after what
they do. But for the records of these exceptions the second one goes on to show all that the first
one has shown, and once both have come to rest they have shown the same machines, one after the
other: the same events at the same moments, the same states and the same readings. -/
theorem exceptions_do_not_matter {w' : World τ κ} {m' : Machine τ κ} {ms' : List (Machine τ κ)}
    (hw : w.hushed = w'.hushed) (h : Run w r due free (m :: ms))
    (h' : Run w' r due free (m' :: ms')) (hfirst : (m :: ms).getLast? = (m' :: ms').getLast?)
    (hasked : asked (m :: ms) = asked (m' :: ms')) :
    (∃ n ns, Run w' r due free (n :: ns) ∧ m' :: ms' <:+ n :: ns ∧
      shown (m :: ms) <:+ shown (n :: ns)) ∧
    (m.stack = [] → m'.stack = [] → shown (m :: ms) = shown (m' :: ms') ∧
      m.hushed = m'.hushed) := by
  obtain ⟨qs, hqs, hrun, hcalls⟩ := h.shown
  obtain ⟨qs', hqs', hrun', hcalls'⟩ := h'.shown
  have hfirst' : (m.hushed :: qs).getLast? = (m'.hushed :: qs').getLast? := by
    rw [← hqs, ← hqs', getLast?_shown, getLast?_shown, hfirst]
  have hsame : asked (m.hushed :: qs) = asked (m'.hushed :: qs') := by
    rw [hcalls, hcalls', hasked]
  rw [hw] at hrun
  have hcomp := hrun.comparable hrun' hfirst' (.inl (hsame ▸ List.suffix_rfl))
  rw [hqs, hqs']
  constructor
  · rcases hcomp with hsuf | ⟨later, hlater⟩
    · exact ⟨m', ms', h', List.suffix_rfl, by rwa [hqs']⟩
    · rw [← hlater, ← hqs'] at hrun
      obtain ⟨n, ns, hn, hsuf, hshown⟩ := h'.follow_all hrun
      have heq : m.hushed :: qs = shown (n :: ns) := by rw [hshown, hqs', hlater]
      exact ⟨n, ns, hn, hsuf, heq ▸ List.suffix_rfl⟩
  · intro hs hs'
    have hs : m.hushed.stack = [] := by simp [hushed, hs]
    have hs' : m'.hushed.stack = [] := by simp [hushed, hs']
    have heq : m.hushed :: qs = m'.hushed :: qs' := by
      rcases hcomp with hsuf | hsuf
      · exact hrun'.eq_of_rest hs hsuf hsame.symm
      · exact (hrun.eq_of_rest hs' hsuf hsame).symm
    exact ⟨heq, (List.cons.inj heq).1⟩

end Run

/-- Every listener, every callback and every closing of the requester raises an exception after a
call of its own. -/
def noisy : World Number Nat :=
  { World.still fun _ => .fetched (.ok .empty) with
    closing := fun _ => ⟨[.close], some "closed twice"⟩
    listener := fun _ _ _ => ⟨[.status], some "no listener"⟩
    callback := fun _ _ _ => ⟨[.handle], some "no callback"⟩ }

/-- A listener and a callback are registered, and the synchronizer is started, polls once and is
closed. -/
def observed : List (Op Number Nat) :=
  [.addListener 1, .addCallback 2, .start, .poll none, .close]

theorem session_observed (w : World Number Nat) (hw : w = noisy ∨ w = noisy.hushed) : ∃ m ms,
    session w .own 60 observed = m :: ms ∧ m.stack.isEmpty = true ∧
      asked (m :: ms) = observed.reverse ∧ (m :: ms).getLast? = some (create noisy .own) := by
  rcases hw with rfl | rfl
  · exact ⟨_, _, rfl, rfl, rfl, rfl⟩
  · exact ⟨_, _, rfl, rfl, rfl, rfl⟩

/-- The exceptions leave no trace but five records in the log. -/
theorem exceptions_do_not_matter_noisy : ∃ m ms m' ms',
    Run noisy .own (fun _ => True) (fun _ => True) (m :: ms) ∧
      Run noisy.hushed .own (fun _ => True) (fun _ => True) (m' :: ms') ∧
      m.stack = [] ∧ m'.stack = [] ∧ m.hushed = m'.hushed := by
  have h := run_session noisy .own (fun _ => True) (fun _ => True) 60 observed fun _ _ => trivial
  have h' := run_session noisy.hushed .own (fun _ => True) (fun _ => True) 60 observed
    fun _ _ => trivial
  obtain ⟨m, ms, hms, hs, hasked, hfirst⟩ := session_observed noisy (.inl rfl)
  obtain ⟨m', ms', hms', hs', hasked', hfirst'⟩ := session_observed noisy.hushed (.inr rfl)
  rw [hms] at h
  rw [hms'] at h'
  have hs := List.isEmpty_iff.mp hs
  have hs' := List.isEmpty_iff.mp hs'
  have hw : noisy.hushed = noisy.hushed.hushed := rfl
  have hsame := exceptions_do_not_matter hw h h' (hfirst.trans hfirst'.symm)
    (hasked.trans hasked'.symm)
  exact ⟨m, ms, m', ms', h, h', hs, hs', (hsame.2 hs hs').2⟩

end FlagPoll.Synchronizer.Machine
