import FlagPoll.Proofs.Lock.Step

/-!
# FlagPoll.Proofs.Lock.Exclusion

Who is inside a lock, and who is kept out.

* `Sound` — the counters count the threads, and a writer inside is alone.
* `Shut`  — no thread of a mode enters by any of some moves.
* `exclusion_and_precedence` — every reachable lock is sound, and while a writer waits no reader
  enters before a writer does.
-/

namespace FlagPoll.Lock

variable {ν : Type} {l n : Lock ν}

/-! ## Sleepers that are woken -/

@[simp] theorem inside_wakeAll (mode : Mode) : l.wakeAll.inside mode = l.inside mode := by
  unfold inside wakeAll
  induction l.threads with
  | nil => rfl
  | cons t ts ih =>
    simp only [List.map_cons, List.filter_cons, ih]
    split <;> simp_all [Thread.isInside]

@[simp] theorem length_waiting_wakeAll (mode : Mode) :
    (l.wakeAll.waiting mode).length = (l.waiting mode).length := by
  unfold waiting wakeAll
  induction l.threads with
  | nil => rfl
  | cons t ts ih =>
    have ht : (if t.phase = .sleeping then { t with phase := .woken } else t).isWaiting mode =
        t.isWaiting mode := by
      split <;> simp_all [Thread.isWaiting]
    simp only [List.map_cons, List.filter_cons, ht]
    split <;> simp [ih]

theorem Distinct.wakeAll (h : Distinct l) : Distinct l.wakeAll := by
  have hmap : l.wakeAll.threads.map (·.name) = l.threads.map (·.name) := by
    unfold Lock.wakeAll
    rw [List.map_map]
    refine List.map_congr_left fun t _ => ?_
    simp only [Function.comp]
    split <;> rfl
  rwa [Distinct, hmap]

/-! ## The counters -/

/-- The counters count the threads, and a writer inside is alone. -/
structure Sound (l : Lock ν) : Prop where
  distinct : Distinct l
  readers : l.readers = (l.inside .read).length
  writer : l.writerActive.toNat = (l.inside .write).length
  waiting : l.writersWaiting = (l.waiting .write).length
  alone : l.writerActive = true → l.readers = 0

theorem sound_free : Sound (free : Lock ν) := by
  constructor <;> simp [free, Distinct, inside, Lock.waiting]

theorem sound_wakeAll (h : Sound l) : Sound l.wakeAll := by
  refine ⟨h.distinct.wakeAll, ?_, ?_, ?_, h.alone⟩
  · rw [inside_wakeAll]
    exact h.readers
  · rw [inside_wakeAll]
    exact h.writer
  · rw [length_waiting_wakeAll]
    exact h.waiting

section Step

variable {before after : List (Thread ν)} {t u : Thread ν}

theorem Distinct.swap (h : Distinct l) (hl : l.threads = before ++ t :: after)
    (hn : n.threads = before ++ u :: after) (hu : u.name = t.name) : Distinct n := by
  rw [Distinct, hl] at h
  rw [Distinct, hn]
  simpa [hu] using h

theorem Distinct.drop (h : Distinct l) (hl : l.threads = before ++ t :: after)
    (hn : n.threads = before ++ after) : Distinct n := by
  rw [Distinct, hn]
  exact List.Nodup.sublist ((sublist_of_split hl).map _) h

theorem Distinct.arrive (h : Distinct l) {name : ν} {mode : Mode}
    (hf : ∀ t ∈ l.threads, t.name ≠ name)
    (hn : n.threads = l.threads ++ [⟨name, mode, .arriving⟩]) : Distinct n := by
  rw [Distinct, hn, List.map_append, List.nodup_append]
  refine ⟨h, by simp, ?_⟩
  intro x hx y hy
  obtain ⟨t, ht, rfl⟩ := List.mem_map.mp hx
  obtain rfl : y = name := by simpa using hy
  exact hf t ht

theorem length_filter_replace (us : List (Thread ν)) (p : Thread ν → Bool)
    (hl : l.threads = before ++ t :: after)
    (hn : n.threads = before ++ us ++ after) :
    (n.threads.filter p).length + (p t).toNat = (l.threads.filter p).length + us.countP p := by
  simp only [hl, hn, List.filter_append, List.filter_cons, List.length_append,
    List.countP_eq_length_filter]
  cases p t <;>
    simp only [if_true, Bool.false_eq_true, if_false, List.length_cons, Bool.toNat_true,
      Bool.toNat_false] <;> omega

/-- A thread makes way for others, perhaps for itself in another phase, and the counters follow. -/
theorem Sound.replace (h : Sound l) (us : List (Thread ν))
    (hl : l.threads = before ++ t :: after)
    (hn : n.threads = before ++ us ++ after) (hd : Distinct n)
    (hr : n.readers + (t.isInside .read).toNat = l.readers + us.countP (Thread.isInside .read))
    (ha : n.writerActive.toNat + (t.isInside .write).toNat =
      l.writerActive.toNat + us.countP (Thread.isInside .write))
    (hw : n.writersWaiting + (t.isWaiting .write).toNat =
      l.writersWaiting + us.countP (Thread.isWaiting .write))
    (halone : n.writerActive = true → n.readers = 0) : Sound n := by
  have hir := length_filter_replace us (Thread.isInside .read) hl hn
  have hiw := length_filter_replace us (Thread.isInside .write) hl hn
  have hww := length_filter_replace us (Thread.isWaiting .write) hl hn
  have hr' : l.readers = (l.threads.filter (Thread.isInside .read)).length := h.readers
  have ha' : l.writerActive.toNat = (l.threads.filter (Thread.isInside .write)).length := h.writer
  have hw' : l.writersWaiting = (l.threads.filter (Thread.isWaiting .write)).length := h.waiting
  refine ⟨hd, ?_, ?_, ?_, halone⟩
  · unfold inside
    omega
  · unfold inside
    omega
  · unfold Lock.waiting
    omega

theorem Sound.readers_pos (h : Sound l) (ht : t ∈ l.threads) (hi : t.isInside .read = true) :
    0 < l.readers := by
  rw [h.readers]
  exact List.length_pos_of_mem (List.mem_filter.mpr ⟨ht, hi⟩)

theorem Sound.active (h : Sound l) (ht : t ∈ l.threads) (hi : t.isInside .write = true) :
    l.writerActive = true := by
  have hpos := List.length_pos_of_mem (List.mem_filter.mpr ⟨ht, hi⟩)
  have hw : l.writerActive.toNat = (l.threads.filter (Thread.isInside .write)).length := h.writer
  cases ha : l.writerActive
  · rw [ha] at hw
    simp only [Bool.toNat_false] at hw
    omega
  · rfl

theorem Sound.waiting_pos (h : Sound l) (ht : t ∈ l.threads) (hw : t.isWaiting .write = true) :
    0 < l.writersWaiting := by
  rw [h.waiting]
  exact List.length_pos_of_mem (List.mem_filter.mpr ⟨ht, hw⟩)

attribute [local simp] Thread.isInside Thread.isWaiting Phase.isAwake heard List.countP_cons

/-- Whatever thread moves, and whichever way it leaves, the counters stay right. -/
theorem sound_step {m : Move ν} (h : Sound l) (hs : Step l m n) : Sound n := by
  cases hs with
  | arrive hf =>
    refine ⟨h.distinct.arrive hf rfl, ?_, ?_, ?_, h.alone⟩
    · simpa [inside, List.filter_append] using h.readers
    · simpa [inside, List.filter_append] using h.writer
    · simpa [Lock.waiting, List.filter_append] using h.waiting
  | @readerEnters before after name phase hl hp ha hz =>
    refine h.replace [⟨name, .read, .inside⟩] hl (by simp) (h.distinct.swap hl rfl rfl)
      ?_ ?_ ?_ (by simp [ha]) <;> cases phase <;> simp_all
  | @readerSleeps before after name phase hl hp hb =>
    refine h.replace [⟨name, .read, .sleeping⟩] hl (by simp) (h.distinct.swap hl rfl rfl)
      ?_ ?_ ?_ h.alone <;> cases phase <;> simp_all
  | @writerEnters before after name phase hl hp ha hz =>
    refine h.replace [⟨name, .write, .inside⟩] hl (by simp) (h.distinct.swap hl rfl rfl)
      ?_ ?_ ?_ (fun _ => hz)
    · cases phase <;> simp_all
    · cases phase <;> simp_all
    · cases phase with
      | woken =>
        have hpos := h.waiting_pos (t := ⟨name, .write, .woken⟩) (by simp [hl]) rfl
        simp
        omega
      | arriving => simp
      | sleeping | inside => simp at hp
  | @writerSleeps before after name phase hl hp hb =>
    refine h.replace [⟨name, .write, .sleeping⟩] hl (by simp) (h.distinct.swap hl rfl rfl)
      ?_ ?_ ?_ h.alone <;> cases phase <;> simp_all
  | @readerLeaves before after name hl hz =>
    have hpos := h.readers_pos (t := ⟨name, .read, .inside⟩) (by simp [hl]) rfl
    refine h.replace [] hl (by simp) (h.distinct.drop hl rfl) ?_ (by simp) (by simp)
      fun ha => ?_
    · simp
      omega
    · have := h.alone ha
      omega
  | @lastReaderLeaves before after name hl hz =>
    have hpos := h.readers_pos (t := ⟨name, .read, .inside⟩) (by simp [hl]) rfl
    refine sound_wakeAll (h.replace [] hl (by simp) (h.distinct.drop hl rfl) ?_ (by simp)
      (by simp) fun _ => hz)
    simp
    omega
  | @writerLeaves before after name hl =>
    have ha := h.active (t := ⟨name, .write, .inside⟩) (by simp [hl]) rfl
    refine sound_wakeAll (h.replace [] hl (by simp) (h.distinct.drop hl rfl) (by simp) ?_
      (by simp) fun hf => by simp at hf)
    simp [ha]

end Step

section Reachable

variable [DecidableEq ν]

theorem sound_attempt (h : Sound l) (m : Move ν) : Sound (l.attempt m) := by
  rcases attempt_cases h.distinct m with heq | hs
  · rwa [heq]
  · exact sound_step h hs

theorem sound_after (h : Sound l) (moves : List (Move ν)) : Sound (l.after moves) := by
  induction moves generalizing l with
  | nil => exact h
  | cons m moves ih => exact ih (sound_attempt h m)

theorem sound_of_reachable (h : Reachable l) : Sound l := by
  obtain ⟨moves, rfl⟩ := h
  exact sound_after sound_free moves

end Reachable

/-! ## Precedence of writers -/

section Precedence

variable {before after : List (Thread ν)} {t : Thread ν}

/-- A thread makes way for others, none of which is inside. -/
theorem inside_sublist {mode : Mode} (us : List (Thread ν)) (hl : l.threads = before ++ t :: after)
    (hn : n.threads = before ++ us ++ after) (hu : ∀ u ∈ us, u.isInside mode = false) :
    (n.inside mode).Sublist (l.inside mode) := by
  have hnone : us.filter (Thread.isInside mode) = [] :=
    List.filter_eq_nil_iff.mpr fun u hmem => by simp [hu u hmem]
  have heq : n.inside mode = (before ++ after).filter (Thread.isInside mode) := by
    simp [inside, hn, hnone]
  rw [heq]
  exact (sublist_of_split hl).filter _

/-- While a writer waits, a step lets no reader in, and the writer keeps waiting unless a writer
enters. -/
theorem precedence_step {m : Move ν} (h : Sound l) (hs : Step l m n) (hw : l.writersWaiting ≠ 0)
    (hin : n.inside .write ⊆ l.inside .write) :
    (n.inside .read).Sublist (l.inside .read) ∧ n.writersWaiting ≠ 0 := by
  cases hs with
  | arrive hf => exact ⟨by simp [inside, List.filter_append, Thread.isInside], hw⟩
  | readerEnters hl hp ha hz => exact absurd hz hw
  | @readerSleeps before after name phase hl hp hb =>
    exact ⟨inside_sublist [⟨name, .read, .sleeping⟩] hl (by simp) (by simp [Thread.isInside]), hw⟩
  | @writerEnters before after name phase hl hp ha hz =>
    have hnew : ⟨name, .write, .inside⟩ ∈ l.inside .write :=
      hin (List.mem_filter.mpr ⟨by simp, rfl⟩)
    have hold : ⟨name, .write, .inside⟩ ∈ before ++ ⟨name, .write, phase⟩ :: after :=
      hl ▸ (List.mem_filter.mp hnew).1
    have hother : ∀ u ∈ before ++ after, u.name ≠ name := h.distinct.split hl
    rcases List.mem_append.mp hold with hmem | hmem
    · exact absurd rfl (hother _ (List.mem_append_left after hmem))
    · rcases List.mem_cons.mp hmem with heq | hmem
      · cases heq
        simp [Phase.isAwake] at hp
      · exact absurd rfl (hother _ (List.mem_append_right before hmem))
  | @writerSleeps before after name phase hl hp hb =>
    refine ⟨inside_sublist [⟨name, .write, .sleeping⟩] hl (by simp) (by simp [Thread.isInside]), ?_⟩
    simp only [heard]
    split
    · exact hw
    · simp
  | readerLeaves hl hz => exact ⟨inside_sublist [] hl (by simp) (by simp), hw⟩
  | lastReaderLeaves hl hz =>
    rw [inside_wakeAll]
    exact ⟨inside_sublist [] hl (by simp) (by simp), hw⟩
  | writerLeaves hl =>
    rw [inside_wakeAll]
    exact ⟨inside_sublist [] hl (by simp) (by simp), hw⟩

variable [DecidableEq ν]

/-- No thread of a mode enters by any of these moves. -/
def Shut (mode : Mode) (l : Lock ν) : List (Move ν) → Prop
  | [] => True
  | m :: moves =>
    (l.attempt m).inside mode ⊆ l.inside mode ∧ Shut mode (l.attempt m) moves

theorem shut_readers (h : Sound l) (hw : l.writersWaiting ≠ 0) {moves : List (Move ν)}
    (hs : Shut .write l moves) :
    Shut .read l moves ∧ ((l.after moves).inside .read).Sublist (l.inside .read) := by
  induction moves generalizing l with
  | nil => exact ⟨trivial, .refl _⟩
  | cons m moves ih =>
    obtain ⟨hin, hs⟩ := hs
    have hstep : ((l.attempt m).inside .read).Sublist (l.inside .read) ∧
        (l.attempt m).writersWaiting ≠ 0 := by
      rcases attempt_cases h.distinct m with heq | hstep
      · rw [heq]
        exact ⟨.refl _, hw⟩
      · exact precedence_step h hstep hw hin
    obtain ⟨hshut, hsub⟩ := ih (sound_attempt h m) hstep.2 hs
    exact ⟨⟨hstep.1.subset, hshut⟩, hsub.trans hstep.1⟩

/-- Whatever threads ask for the lock, look, sleep, are woken and leave, in whatever order: there is
at most one writer inside, and no reader with it, the counters count the threads, and from the
moment a writer waits no reader enters before a writer does. -/
theorem exclusion_and_precedence (h : Reachable l) :
    ((l.inside .write).length ≤ 1 ∧ (l.inside .write ≠ [] → l.inside .read = [])) ∧
    (l.readers = (l.inside .read).length ∧ (l.writerActive = true ↔ l.inside .write ≠ []) ∧
      l.writersWaiting = (l.waiting .write).length) ∧
    (l.waiting .write ≠ [] → ∀ moves, Shut .write l moves →
      Shut .read l moves ∧ ((l.after moves).inside .read).Sublist (l.inside .read)) := by
  have hl := sound_of_reachable h
  have hactive : l.writerActive = true ↔ l.inside .write ≠ [] := by
    rw [← List.length_pos_iff, ← hl.writer]
    cases l.writerActive <;> simp
  refine ⟨⟨?_, ?_⟩, ⟨hl.readers, hactive, hl.waiting⟩, ?_⟩
  · rw [← hl.writer]
    exact Bool.toNat_le _
  · intro hw
    rw [← List.length_eq_zero_iff, ← hl.readers]
    exact hl.alone (hactive.mpr hw)
  · intro hw moves hs
    refine shut_readers hl ?_ hs
    rw [hl.waiting]
    exact Nat.ne_of_gt (List.length_pos_iff.mpr hw)

end Precedence

/-- A reader is inside, a writer waits for it, and another reader has been sent to sleep behind the
writer. -/
def crowded : Lock Nat :=
  free.after [.ask 1 .read, .look 1, .ask 2 .write, .look 2, .ask 3 .read, .look 3]

/-- The reader leaves, and the other one looks before the writer does. -/
theorem exclusion_and_precedence_crowded :
    Reachable crowded ∧ crowded.waiting .write ≠ [] ∧
      Shut .write crowded [.leave 1, .look 3] ∧ Shut .read crowded [.leave 1, .look 3] ∧
      crowded.readers = 1 ∧ crowded.writersWaiting = 1 := by
  have hr : Reachable crowded := ⟨_, rfl⟩
  have hw : crowded.waiting .write ≠ [] := by decide
  have hs : Shut .write crowded [.leave 1, .look 3] := by
    refine ⟨?_, ?_, trivial⟩ <;> decide
  obtain ⟨-, ⟨hreaders, -, hwaiting⟩, hprec⟩ := exclusion_and_precedence hr
  exact ⟨hr, hw, hs, (hprec hw _ hs).1, by rw [hreaders]; decide, by rw [hwaiting]; decide⟩

end FlagPoll.Lock
