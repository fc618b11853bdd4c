import FlagPoll.Proofs.Synchronizer.Change
import FlagPoll.Proofs.Synchronizer.Run
import Mathlib.Data.List.Destutter

/-!
# FlagPoll.Proofs.Synchronizer.Lifecycle

The states of a synchronizer over a whole run, and what they say of its handle.

* `Follows`            — which state may come after which.
* `path`               — the states of a run without repetitions, in order.
* `Lived`              — the handle and the last error as the path determines them.
* `Starts`             — what a call of `start` comes to.
* `lifecycle_of_run`   — every run keeps to all of this.
-/

namespace FlagPoll

namespace Lifecycle

inductive Follows : Lifecycle → Lifecycle → Prop where
  | start : Follows .notStarted .polling
  | succeed : Follows .polling .initialized
  | fail : Follows .polling .permanentlyFailed
  | failLater : Follows .initialized .permanentlyFailed
  | close {s : Lifecycle} (h : s ≠ .closed) : Follows s .closed

def rank : Lifecycle → Nat
  | .notStarted => 0
  | .polling => 1
  | .initialized => 2
  | .permanentlyFailed => 3
  | .closed => 4

theorem Follows.rank_lt {s t : Lifecycle} (h : s.Follows t) : s.rank < t.rank := by
  cases h with
  | close h => cases s <;> simp_all [rank]
  | _ => decide

variable {p : List Lifecycle} {s t : Lifecycle}

theorem pairwise_rank (h : p.IsChain Follows) : p.Pairwise fun s t => s.rank < t.rank := by
  have : Trans (fun s t : Lifecycle => s.rank < t.rank) (fun s t : Lifecycle => s.rank < t.rank)
      (fun s t : Lifecycle => s.rank < t.rank) := ⟨Nat.lt_trans⟩
  exact List.isChain_iff_pairwise.mp (h.imp fun _ _ => Follows.rank_lt)

theorem nodup_of_follows (h : p.IsChain Follows) : p.Nodup :=
  (pairwise_rank h).imp fun hlt heq => by simp [heq] at hlt

theorem rank_le_last (h : p.IsChain Follows) (hl : p.getLast? = some s) (ht : t ∈ p) :
    t.rank ≤ s.rank := by
  obtain ⟨before, rfl⟩ := List.getLast?_eq_some_iff.mp hl
  rcases List.mem_append.mp ht with ht | ht
  · have hlt := (List.pairwise_append.mp (pairwise_rank h)).2.2 t ht s (by simp)
    exact Nat.le_of_lt hlt
  · simp_all

end Lifecycle

namespace Synchronizer

variable {τ κ : Type}

/-- What the states gone through so far say of a synchronizer. -/
structure Lived (s : Synchronizer τ κ) (path : List Lifecycle) : Prop where
  begins : path.head? = some .notStarted
  ends : path.getLast? = some s.state
  chain : path.IsChain Lifecycle.Follows
  succeeded : .initialized ∈ path → s.handle.resolution = some .succeeded
  /-- The handle fails with the failure that ends polling before a snapshot has been applied. -/
  failed : .initialized ∉ path → .permanentlyFailed ∈ path →
    ∃ reason, s.lastError = some reason ∧ s.handle.resolution = some (.failed reason)
  undecided : .initialized ∉ path → .permanentlyFailed ∉ path → s.handle.resolution = none

namespace Lived

variable {s t : Synchronizer τ κ} {p : List Lifecycle}

theorem not_mem (h : Lived s p) {state : Lifecycle} (hr : s.state.rank < state.rank) :
    state ∉ p := fun hm => by
  have := Lifecycle.rank_le_last h.chain h.ends hm
  omega

theorem pending (h : Lived s p) (hs : s.state = .notStarted ∨ s.state = .polling) :
    s.handle.resolution = none := by
  have hlow : s.state.rank ≤ 1 := by rcases hs with hs | hs <;> simp [hs, Lifecycle.rank]
  exact h.undecided (h.not_mem (Nat.lt_of_le_of_lt hlow (by decide)))
    (h.not_mem (Nat.lt_of_le_of_lt hlow (by decide)))

theorem done_iff (h : Lived s p) :
    s.handle.done = true ↔ .initialized ∈ p ∨ .permanentlyFailed ∈ p := by
  unfold Completion.done
  by_cases hi : .initialized ∈ p
  · simp [h.succeeded hi, hi]
  · by_cases hf : .permanentlyFailed ∈ p
    · obtain ⟨reason, -, hr⟩ := h.failed hi hf
      simp [hr, hf]
    · simp [h.undecided hi hf, hi, hf]

theorem chain_append (h : Lived s p) {state : Lifecycle} (hf : s.state.Follows state) :
    (p ++ [state]).IsChain Lifecycle.Follows := by
  refine h.chain.append (.singleton _) ?_
  intro x hx y hy
  obtain rfl : s.state = x := by simpa [h.ends] using hx
  obtain rfl : state = y := by simpa using hy
  exact hf

theorem stay (h : Lived s p) (hs : t.state = s.state)
    (hr : t.handle.resolution = s.handle.resolution) (he : t.lastError = s.lastError) :
    Lived t p where
  begins := h.begins
  ends := by rw [hs]; exact h.ends
  chain := h.chain
  succeeded := by rw [hr]; exact h.succeeded
  failed := by rw [hr, he]; exact h.failed
  undecided := by rw [hr]; exact h.undecided

/-- A state is entered that does not decide the handle. -/
theorem enter (h : Lived s p) (hf : s.state.Follows t.state)
    (hr : t.handle.resolution = s.handle.resolution) (he : t.lastError = s.lastError)
    (hi : t.state ≠ .initialized) (hp : t.state ≠ .permanentlyFailed) :
    Lived t (p ++ [t.state]) where
  begins := by simp [h.begins]
  ends := by simp
  chain := h.chain_append hf
  succeeded := by simpa [hr, hi.symm] using h.succeeded
  failed := by simpa [hr, he, hi.symm, hp.symm] using h.failed
  undecided := by simpa [hr, hi.symm, hp.symm] using h.undecided

/-- A state is entered in which the handle is decided. -/
theorem decide (h : Lived s p) (hf : s.state.Follows t.state)
    (hi : t.state = .initialized ∨ .initialized ∈ p → t.handle.resolution = some .succeeded)
    (hp : t.state = .permanentlyFailed → .initialized ∉ p →
      ∃ reason, t.lastError = some reason ∧ t.handle.resolution = some (.failed reason))
    (hd : t.state = .initialized ∨ t.state = .permanentlyFailed) :
    Lived t (p ++ [t.state]) where
  begins := by simp [h.begins]
  ends := by simp
  chain := h.chain_append hf
  succeeded hm := hi (by simpa [or_comm, eq_comm] using hm)
  failed := by
    rcases hd with hd | hd <;> simp_all
  undecided := by
    rcases hd with hd | hd <;> simp_all

end Lived
end Synchronizer

namespace Synchronizer.Machine

variable {τ κ : Type}

/-- The states of a run without repetitions, the earliest first. -/
def path (ms : List (Machine τ κ)) : List Lifecycle :=
  ((ms.map (·.sync.state)).destutter (· ≠ ·)).reverse

theorem path_cons (m n : Machine τ κ) (ms : List (Machine τ κ)) :
    path (n :: m :: ms) =
      if n.sync.state = m.sync.state then path (m :: ms)
      else path (m :: ms) ++ [n.sync.state] := by
  unfold path
  simp only [List.map_cons, List.destutter_cons_cons]
  split
  · simp_all [List.destutter_cons']
  · rename_i h
    have h : n.sync.state = m.sync.state := by simpa using h
    simp [h, List.destutter_cons']

theorem starting_of_emptied {task : Task τ κ} {rest below : List (Task τ κ)}
    (h : Emptied task (.launch :: .giveHandle :: rest) below) :
    ∃ rest', below = .launch :: .giveHandle :: rest' ∧ rest'.length = rest.length := by
  cases h with
  | same => exact ⟨rest, rfl, rfl⟩
  | clear n kind key => exact ⟨rest.map (·.clearItem n kind key), rfl, by simp⟩

variable [Time τ] {w : World τ κ} {m n : Machine τ κ} {p : List Lifecycle}

/-- A turn enters at most one state, and keeps to the path with it. -/
theorem lived_turn (h : Lived m.sync p) (ht : Turn w m n) :
    Lived n.sync (if n.sync.state = m.sync.state then p else p ++ [n.sync.state]) := by
  have stay (hs : n.sync.state = m.sync.state)
      (hr : n.sync.handle.resolution = m.sync.handle.resolution)
      (he : n.sync.lastError = m.sync.lastError) :
      Lived n.sync (if n.sync.state = m.sync.state then p else p ++ [n.sync.state]) := by
    rw [if_pos hs]
    exact h.stay hs hr he
  have enter (hf : m.sync.state.Follows n.sync.state) (hl : Lived n.sync (p ++ [n.sync.state])) :
      Lived n.sync (if n.sync.state = m.sync.state then p else p ++ [n.sync.state]) := by
    have hne : n.sync.state ≠ m.sync.state := fun he => by
      have := hf.rank_lt
      simp [he] at this
    rwa [if_neg hne]
  cases ht with
  | quiet ls ks b hs => exact stay (by rw [hs]) (by rw [hs]) (by rw [hs])
  | start c hs =>
    obtain ⟨hst, hn, -⟩ := begin?_eq_some.mp hs
    have hf : m.sync.state.Follows n.sync.state := by rw [hst, hn]; exact .start
    exact enter hf (h.enter hf (by rw [hn]) (by rw [hn]) (by simp [hn]) (by simp [hn]))
  | close c hs =>
    obtain ⟨hst, hn, -⟩ := close?_eq_some.mp hs
    have hf : m.sync.state.Follows n.sync.state := by rw [hn]; exact .close hst
    exact enter hf (h.enter hf (by rw [hn]) (by rw [hn]) (by simp [hn]) (by simp [hn]))
  | deliver c rest below hs =>
    obtain ⟨-, hn⟩ := admit?_eq_some.mp hs
    exact stay (by rw [hn]) (by rw [hn]) (by rw [hn])
  | fetch own rest q hm hs =>
    obtain ⟨-, hn⟩ := poll?_eq_some.mp hs
    exact stay (by rw [hn]) (by rw [hn]) (by rw [hn])
  | recover f c rest hf hs =>
    obtain ⟨hst, hn, -⟩ := recover?_eq_some.mp hs
    have hst : m.sync.state.isActive = true := hst
    have hlow : m.sync.state.rank < Lifecycle.permanentlyFailed.rank := by
      cases hms : m.sync.state <;> simp_all [Lifecycle.isActive, Lifecycle.rank]
    have hstate : n.sync.state = m.sync.state := by rw [hn]; rfl
    have hr : n.sync.handle.resolution = m.sync.handle.resolution := by rw [hn]; rfl
    rw [if_pos hstate]
    exact ⟨h.begins, by rw [hstate]; exact h.ends, h.chain, by rw [hr]; exact h.succeeded,
      fun _ hm => absurd hm (h.not_mem hlow), by rw [hr]; exact h.undecided⟩
  | giveUp f s c rest hf hg hs =>
    obtain ⟨hst, rfl, -⟩ := giveUp?_eq_some.mp hg
    have hst : m.sync.state.isActive = true := hst
    have hms : m.sync.state = .polling ∨ m.sync.state = .initialized := by
      cases hms : m.sync.state <;> simp_all [Lifecycle.isActive]
    rcases hms with hms | hms
    · have hi : .initialized ∉ p := h.not_mem (by simp [hms, Lifecycle.rank])
      have hf : m.sync.state.Follows n.sync.state := by rw [hms, hs]; exact .fail
      exact enter hf (h.decide hf (by simp [hs, hi]) (by simp [hs, hms]) (by simp [hs]))
    · have hi : .initialized ∈ p := hms ▸ List.mem_of_getLast? h.ends
      have hr := h.succeeded hi
      have hf : m.sync.state.Follows n.sync.state := by rw [hms, hs]; exact .failLater
      exact enter hf (h.decide hf (by simp [hs, hms, hr]) (by simp [hi]) (by simp [hs]))
  | succeed s c rest hi hs =>
    obtain ⟨hst, rfl, -⟩ := initialize?_eq_some.mp hi
    have hf : m.sync.state.Follows n.sync.state := by rw [hst, hs]; exact .succeed
    exact enter hf (h.decide hf (by simp [hs]) (by simp [hs]) (by simp [hs]))
  | twice hp hr => exact absurd (h.pending (.inr hp)) hr
  | discard o rest hc hs => exact stay (by rw [hs]; rfl) (by rw [hs]; rfl) (by rw [hs]; rfl)
  | ignore o hc ha hs => exact stay (by rw [hs]; rfl) (by rw [hs]; rfl) (by rw [hs]; rfl)
  | store s rest ha hs => exact stay (by rw [hs]; rfl) (by rw [hs]; rfl) (by rw [hs]; rfl)
  | drop c hc hs | tell k c hs | closeRequester hs | refuse hs | put rest hs | keep hc hs
  | stop target span rest hm hw hs => exact stay (by rw [hs]) (by rw [hs]) (by rw [hs])

section Start

variable [BEq κ] {rest : List (Task τ κ)}

/-- What a call of `start` comes to: it is refused and changes nothing, or it takes effect and
returns the handle once its notification has gone out. -/
structure Starts (w : World τ κ) (m : Machine τ κ) (rest : List (Task τ κ)) : Prop where
  refused (h : m.sync.state ≠ .notStarted) :
    m.step w = some { m with stack := rest, reading := .refused (.cannotStart m.sync.state) }
  begun (h : m.sync.state = .notStarted) :
    ∃ n, m.step w = some n ∧ n.sync.state = .polling ∧
      (∀ x, Returns w rest.length n x →
        x.reading = .started x.sync.handle ∧ x.sync.launched = true) ∧
      ∀ y, Returns w (rest.length + 2) n y → ∃ x, Returns w rest.length n x

/-- The end of `start`, below all that its notification leads to. -/
def Starting (m : Machine τ κ) (depth : Nat) : Prop :=
  ∃ above rest, m.stack = above ++ .launch :: .giveHandle :: rest ∧
    (∀ t ∈ above, t.isBase = false) ∧ rest.length = depth

theorem starting_step {depth : Nat} (hs : Starting m depth) (h : m.step w = some n) :
    Starting n depth ∨ ∃ rest, n.stack = .giveHandle :: rest ∧ rest.length = depth ∧
      n.sync.launched = true := by
  obtain ⟨above, rest, hm, hb, hd⟩ := hs
  cases above with
  | nil =>
    obtain ⟨task, below, hstack, rfl⟩ := step_eq_some.mp h
    obtain ⟨rfl, rfl⟩ : task = .launch ∧ below = .giveHandle :: rest := by
      simpa [hm, eq_comm] using hstack
    exact .inr ⟨rest, rfl, hd, rfl⟩
  | cons t above =>
    obtain ⟨above', below, hn, hb', he⟩ := step_above hm hb h
    obtain ⟨rest', rfl, hlen⟩ := starting_of_emptied he
    exact .inl ⟨above', rest', hn, hb', hlen.trans hd⟩

theorem giveHandle_step (hm : m.stack = .giveHandle :: rest) :
    m.step w = some { m with stack := rest, reading := .started m.sync.handle } := by
  simp only [step, hm]
  rfl

/-- Once its notification has gone out, `start` launches the polling task and returns. -/
theorem Starting.reading {depth : Nat} {x : Machine τ κ} (hs : Starting m depth)
    (h : Returns w depth m x) : x.reading = .started x.sync.handle ∧ x.sync.launched = true := by
  induction h with
  | here h =>
    obtain ⟨above, rest, hm, -, hd⟩ := hs
    simp [hm] at h
    omega
  | step _ hstep hr ih =>
    rcases starting_step hs hstep with hn | ⟨rest, hn, hd, hl⟩
    · exact ih hn
    · cases hr with
      | here h =>
        simp [hn] at h
        omega
      | step _ hstep hr =>
        rw [giveHandle_step hn, Option.some.injEq] at hstep
        subst hstep
        cases hr with
        | here => exact ⟨rfl, hl⟩
        | step h => simp [hd] at h

theorem Starting.returns {depth : Nat} {y : Machine τ κ} (hs : Starting m depth)
    (h : Returns w (depth + 2) m y) : ∃ x, Returns w depth m x := by
  induction h with
  | @here m h =>
    obtain ⟨above, rest, hm, -, hd⟩ := hs
    obtain rfl : above = [] := by
      rw [← List.length_eq_zero_iff]
      simp [hm] at h
      omega
    refine ⟨_, .step (by omega) (n := { m with
      stack := .giveHandle :: rest, sync := { m.sync with launched := true } }) ?_
      (.step ?_ (giveHandle_step rfl) (.here hd))⟩
    · simp only [step, hm]
      rfl
    · simp [hd]
  | step hlt hstep hr ih =>
    rcases starting_step hs hstep with hn | ⟨rest, hn, hd, -⟩
    · obtain ⟨x, hx⟩ := ih hn
      exact ⟨x, .step (by omega) hstep hx⟩
    · cases hr with
      | here h => simp [hn, hd] at h
      | step h => simp [hn, hd] at h

theorem starts (hm : m.stack = .perform .start :: rest) : Starts w m rest where
  refused h := by
    simp [step, hm, execute, perform, start, begin?, h, give]
  begun h := by
    have hstep : ∃ n c, m.step w = some n ∧ n.sync.state = .polling ∧
        n.stack = .notify c :: .launch :: .giveHandle :: rest := by
      obtain ⟨s, c, hb⟩ : ∃ s c,
          m.sync.begin? (wallClock w { m with stack := rest }) = some (s, c) :=
        ⟨_, _, begin?_eq_some.mpr ⟨h, rfl, rfl⟩⟩
      have hs : s.state = .polling := by rw [(begin?_eq_some.mp hb).2.1]
      simp only [step, hm, execute, perform, start, hb]
      exact ⟨_, c, rfl, hs, rfl⟩
    obtain ⟨n, c, hn, hst, hstack⟩ := hstep
    have hs : Starting n rest.length :=
      ⟨[.notify c], rest, hstack, by simp [Task.isBase], rfl⟩
    exact ⟨n, hn, hst, fun x => hs.reading, fun y => hs.returns⟩

end Start

variable [BEq κ] {r : Requester} {due free : Op τ κ → Prop} {ms : List (Machine τ κ)}

theorem lived_of_run (h : Run w r due free (m :: ms)) : Lived m.sync (path (m :: ms)) := by
  have hnew (s : Synchronizer τ κ) (hs : s = .create (w.epoch + 0)) : Lived s [.notStarted] :=
    ⟨rfl, by simp [hs, Synchronizer.create], .singleton _, by simp, by simp,
      fun _ _ => by simp [hs, Synchronizer.create, Completion.pending]⟩
  induction h using Run.head_induction with
  | create => exact hnew _ rfl
  | timeline calls hd => exact hnew _ rfl
  | call m ms op h hs ho ih =>
    rw [path_cons, if_pos rfl]
    exact ih
  | step m n ms h hs ih =>
    rw [path_cons]
    exact lived_turn ih (turn_of_step hs)

/-- The handle is pending as long as no snapshot has been applied and no failure has ended polling. -/
theorem pending_of_run (h : Run w r due free (m :: ms)) (hs : m.sync.state = .polling) :
    m.sync.handle.resolution = none := (lived_of_run h).pending (.inr hs)

/-- Every run goes through the states in order and none of them twice, `start` takes effect exactly
where nothing has been started, and the handle agrees with the state: it is pending until the first
snapshot has been applied or polling has failed, and decided by whichever comes first. -/
theorem lifecycle_of_run (h : Run w r due free (m :: ms)) :
    ((path (m :: ms)).head? = some .notStarted ∧ (path (m :: ms)).getLast? = some m.sync.state ∧
      (path (m :: ms)).IsChain Lifecycle.Follows ∧ (path (m :: ms)).Nodup) ∧
    (∀ rest, m.stack = .perform .start :: rest → Starts w m rest) ∧
    (m.sync.state = .notStarted ∨ m.sync.state = .polling → m.sync.handle.resolution = none) ∧
    (m.sync.state = .initialized → m.sync.handle.resolution = some .succeeded) ∧
    (m.sync.state = .permanentlyFailed → .initialized ∈ path (m :: ms) →
      m.sync.handle.resolution = some .succeeded) ∧
    (m.sync.state = .permanentlyFailed → .initialized ∉ path (m :: ms) →
      ∃ reason, m.sync.lastError = some reason ∧
        m.sync.handle.resolution = some (.failed reason)) ∧
    (m.sync.handle.done = true ↔
      .initialized ∈ path (m :: ms) ∨ .permanentlyFailed ∈ path (m :: ms)) := by
  have hl := lived_of_run h
  refine ⟨⟨hl.begins, hl.ends, hl.chain, Lifecycle.nodup_of_follows hl.chain⟩,
    fun rest => starts, hl.pending, ?_, fun _ => hl.succeeded, ?_, hl.done_iff⟩
  · intro hs
    exact hl.succeeded (hs ▸ List.mem_of_getLast? hl.ends)
  · intro hs hi
    exact hl.failed hi (hs ▸ List.mem_of_getLast? hl.ends)

/-- A run that is started, applies a snapshot and is closed. -/
theorem lifecycle_of_closed_session : ∃ m ms,
    Run (.still fun _ => .fetched (.ok .empty)) .own (fun _ => True) (fun _ => True) (m :: ms) ∧
      path (m :: ms) = [.notStarted, .polling, .initialized, .closed] ∧
      (path (m :: ms)).IsChain Lifecycle.Follows ∧ m.sync.handle.done = true := by
  let w : World Number Nat := .still fun _ => .fetched (.ok .empty)
  have h : Run w .own (fun _ => True) (fun _ => True)
      (session w .own 20 [.start, .poll none, .close]) := run_session w .own _ _ 20 _ (by simp)
  have hp : path (session w .own 20 [.start, .poll none, .close]) =
      [.notStarted, .polling, .initialized, .closed] := by
    decide
  generalize session w .own 20 _ = l at h hp
  cases l with
  | nil => simp [path] at hp
  | cons m ms =>
    obtain ⟨⟨-, -, hchain, -⟩, -, -, -, -, -, hdone⟩ := lifecycle_of_run h
    exact ⟨m, ms, h, hp, hchain, hdone.mpr (by simp [hp])⟩

end Synchronizer.Machine
end FlagPoll
