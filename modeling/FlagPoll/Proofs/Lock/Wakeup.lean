import FlagPoll.Proofs.Lock.Exclusion

/-!
# FlagPoll.Proofs.Lock.Wakeup

Why a thread sleeps at a lock, and that it is woken in time.

* `held_ne_nil_iff`   — somebody is inside exactly if the counters say so.
* `Justified`         — a sleeping writer has somebody to wait for, a sleeping reader a writer.
* `woken_after`       — as long as nobody is inside, whoever is woken stays so until it looks.
* `no_wakeup_is_lost` — in every reachable lock nobody sleeps for nothing, and once nobody is inside
  one of those that wait gets in.
-/

namespace FlagPoll.Lock

variable {ν : Type} {l n : Lock ν}

theorem mem_held {t : Thread ν} : t ∈ l.held ↔ t ∈ l.threads ∧ t.phase = .inside := by
  simp [held]

theorem held_ne_nil_iff (h : Sound l) :
    l.held ≠ [] ↔ l.writerActive = true ∨ l.readers ≠ 0 := by
  constructor
  · intro hne
    obtain ⟨t, ht⟩ := List.exists_mem_of_ne_nil _ hne
    obtain ⟨hmem, hp⟩ := mem_held.mp ht
    cases hm : t.mode with
    | read => exact .inr (Nat.ne_of_gt (h.readers_pos hmem (by simp [Thread.isInside, hm, hp])))
    | write => exact .inl (h.active hmem (by simp [Thread.isInside, hm, hp]))
  · intro hc
    have mem (mode : Mode) (hpos : 0 < (l.inside mode).length) : l.held ≠ [] := by
      obtain ⟨t, ht⟩ := List.exists_mem_of_length_pos hpos
      obtain ⟨hmem, hi⟩ := List.mem_filter.mp ht
      have hp : t.mode = mode ∧ t.phase = .inside := by simpa [Thread.isInside] using hi
      exact List.ne_nil_of_mem (mem_held.mpr ⟨hmem, hp.2⟩)
    rcases hc with ha | hr
    · have hw := h.writer
      rw [ha, Bool.toNat_true] at hw
      exact mem .write (by omega)
    · have hreaders := h.readers
      exact mem .read (by omega)

theorem waiting_ne_nil_iff {mode : Mode} : l.waiting mode ≠ [] ↔
    ∃ t ∈ l.threads, t.mode = mode ∧ (t.phase = .sleeping ∨ t.phase = .woken) := by
  constructor
  · intro hne
    obtain ⟨t, ht⟩ := List.exists_mem_of_ne_nil _ hne
    obtain ⟨hmem, hw⟩ := List.mem_filter.mp ht
    exact ⟨t, hmem, by simpa [Thread.isWaiting] using hw⟩
  · rintro ⟨t, hmem, hw⟩
    exact List.ne_nil_of_mem (List.mem_filter.mpr ⟨hmem, by simpa [Thread.isWaiting] using hw⟩)

/-! ## Nobody sleeps for nothing -/

/-- Whoever sleeps would look in vain now. -/
structure Justified (l : Lock ν) : Prop where
  writer : ∀ t ∈ l.threads, t.phase = .sleeping → t.mode = .write →
    l.writerActive = true ∨ l.readers ≠ 0
  reader : ∀ t ∈ l.threads, t.phase = .sleeping → t.mode = .read →
    l.writerActive = true ∨ l.writersWaiting ≠ 0

theorem justified_wakeAll : Justified l.wakeAll := by
  have awake : ∀ t ∈ l.wakeAll.threads, t.phase ≠ .sleeping := by
    intro t ht
    obtain ⟨u, -, rfl⟩ := List.mem_map.mp ht
    split
    · simp
    · assumption
  exact ⟨fun t ht hs => absurd hs (awake t ht), fun t ht hs => absurd hs (awake t ht)⟩

theorem mem_of_swap {before after : List (Thread ν)} {t u v : Thread ν}
    (hl : l.threads = before ++ t :: after) (hv : v ∈ before ++ u :: after) :
    v = u ∨ v ∈ l.threads := by
  simp only [hl, List.mem_append, List.mem_cons] at hv ⊢
  tauto

/-- A thread goes to sleep only where it looks in vain, and what it waits for lasts until the
sleepers are woken. -/
theorem justified_step {m : Move ν} (h : Justified l) (hs : Step l m n) : Justified n := by
  obtain ⟨hw, hr⟩ := h
  cases hs with
  | @arrive name mode hf =>
    have old : ∀ t ∈ l.threads ++ [⟨name, mode, .arriving⟩], t.phase = .sleeping →
        t ∈ l.threads := by
      intro t ht hsleep
      rcases List.mem_append.mp ht with ht | ht
      · exact ht
      · obtain rfl := List.mem_singleton.mp ht
        cases hsleep
    exact ⟨fun t ht hsleep => hw t (old t ht hsleep) hsleep,
      fun t ht hsleep => hr t (old t ht hsleep) hsleep⟩
  | readerEnters hl hp ha hz =>
    refine ⟨fun _ _ _ _ => .inr (by simp), fun t ht hsleep hm => ?_⟩
    rcases mem_of_swap hl ht with rfl | ht
    · cases hsleep
    · exact hr t ht hsleep hm
  | readerSleeps hl hp hb =>
    refine ⟨fun t ht hsleep hm => ?_, fun _ _ _ _ => hb⟩
    rcases mem_of_swap hl ht with rfl | ht
    · cases hm
    · exact hw t ht hsleep hm
  | writerEnters hl hp ha hz => exact ⟨fun _ _ _ _ => .inl rfl, fun _ _ _ _ => .inl rfl⟩
  | writerSleeps hl hp hb =>
    refine ⟨fun _ _ _ _ => hb, fun t ht hsleep hm => ?_⟩
    rcases mem_of_swap hl ht with rfl | ht
    · cases hm
    · refine (hr t ht hsleep hm).imp_right fun hne => ?_
      simp only [heard]
      split
      · exact hne
      · simp
  | readerLeaves hl hz =>
    refine ⟨fun _ _ _ _ => .inr hz, fun t ht hsleep hm => ?_⟩
    exact hr t ((sublist_of_split hl).subset ht) hsleep hm
  | lastReaderLeaves hl hz => exact justified_wakeAll
  | writerLeaves hl => exact justified_wakeAll

/-- Where nobody is left to look, a writer waits for somebody inside, and a reader for a writer that
is inside or waits. -/
theorem settled (h : Sound l) (hj : Justified l) (hs : ∀ t ∈ l.threads, t.phase ≠ .woken) :
    (l.waiting .write ≠ [] → l.held ≠ []) ∧
    (l.waiting .read ≠ [] → l.inside .write ≠ [] ∨ l.waiting .write ≠ []) := by
  have sleeps {mode : Mode} (hw : l.waiting mode ≠ []) :
      ∃ t ∈ l.threads, t.mode = mode ∧ t.phase = .sleeping := by
    obtain ⟨t, ht, hm, hp⟩ := waiting_ne_nil_iff.mp hw
    exact ⟨t, ht, hm, hp.resolve_right (hs t ht)⟩
  constructor
  · intro hw
    obtain ⟨t, ht, hm, hp⟩ := sleeps hw
    exact (held_ne_nil_iff h).mpr (hj.writer t ht hp hm)
  · intro hw
    obtain ⟨t, ht, hm, hp⟩ := sleeps hw
    refine (hj.reader t ht hp hm).imp ?_ ?_
    · intro ha
      rw [← List.length_pos_iff, ← h.writer, ha]
      decide
    · intro hne
      rw [← List.length_pos_iff, ← h.waiting]
      exact Nat.pos_of_ne_zero hne

/-- Where nobody is left to look, those that wait have somebody to wait for. -/
theorem held_of_settled (h : Sound l) (hj : Justified l) (hs : ∀ t ∈ l.threads, t.phase ≠ .woken)
    (hw : ∃ mode, l.waiting mode ≠ []) : l.held ≠ [] := by
  obtain ⟨hwriter, hreader⟩ := settled h hj hs
  obtain ⟨mode, hw⟩ := hw
  cases mode with
  | write => exact hwriter hw
  | read =>
    rcases hreader hw with hin | hwait
    · obtain ⟨t, ht⟩ := List.exists_mem_of_ne_nil _ hin
      obtain ⟨hmem, hi⟩ := List.mem_filter.mp ht
      have hp : t.mode = .write ∧ t.phase = .inside := by simpa [Thread.isInside] using hi
      exact List.ne_nil_of_mem (mem_held.mpr ⟨hmem, hp.2⟩)
    · exact hwriter hwait

/-! ## Nobody is inside -/

/-- As long as nobody gets in, a woken thread stays woken until it looks, and whoever waits goes on
waiting. -/
theorem idle_step {m : Move ν} (h : Sound l) (hs : Step l m n) (hl : l.held = [])
    (hn : n.held = []) :
    (∀ t ∈ n.threads, t.phase = .woken → t ∈ l.threads ∧ m ≠ .look t.name) ∧
      ((∃ mode, l.waiting mode ≠ []) → ∃ mode, n.waiting mode ≠ []) := by
  have nobody {x : Lock ν} (hx : x.held = []) {t : Thread ν} (ht : t ∈ x.threads) :
      t.phase ≠ .inside := fun hp => by
    have hmem := mem_held.mpr ⟨ht, hp⟩
    simp [hx] at hmem
  have sleeps {before after : List (Thread ν)} {name : ν} {mode : Mode} {phase : Phase}
      (hsplit : l.threads = before ++ ⟨name, mode, phase⟩ :: after)
      (hnew : n.threads = before ++ ⟨name, mode, .sleeping⟩ :: after) :
      (∀ t ∈ n.threads, t.phase = .woken → t ∈ l.threads ∧ (.look name : Move ν) ≠ .look t.name) ∧
        ((∃ mode, l.waiting mode ≠ []) → ∃ mode, n.waiting mode ≠ []) := by
    refine ⟨fun t ht hwoken => ?_, fun _ => ⟨mode, waiting_ne_nil_iff.mpr
      ⟨⟨name, mode, .sleeping⟩, by simp [hnew], rfl, .inl rfl⟩⟩⟩
    have hmem : t ∈ before ++ after := by
      rw [hnew] at ht
      rcases List.mem_append.mp ht with ht | ht
      · exact List.mem_append_left after ht
      · rcases List.mem_cons.mp ht with rfl | ht
        · cases hwoken
        · exact List.mem_append_right before ht
    have hne : t.name ≠ name := h.distinct.split hsplit t hmem
    exact ⟨(sublist_of_split hsplit).subset hmem, fun heq => hne (Move.look.inj heq).symm⟩
  cases hs with
  | @arrive name mode hf =>
    refine ⟨fun t ht hwoken => ?_, fun ⟨mode, hw⟩ => ⟨mode, ?_⟩⟩
    · rcases List.mem_append.mp ht with ht | ht
      · exact ⟨ht, by simp⟩
      · obtain rfl := List.mem_singleton.mp ht
        cases hwoken
    · obtain ⟨t, ht, hw⟩ := waiting_ne_nil_iff.mp hw
      exact waiting_ne_nil_iff.mpr ⟨t, List.mem_append_left _ ht, hw⟩
  | @readerEnters before after name phase hl hp ha hz =>
    exact absurd rfl (nobody hn (t := ⟨name, .read, .inside⟩) (by simp))
  | readerSleeps hsplit hp hb => exact sleeps hsplit rfl
  | @writerEnters before after name phase hl hp ha hz =>
    exact absurd rfl (nobody hn (t := ⟨name, .write, .inside⟩) (by simp))
  | writerSleeps hsplit hp hb => exact sleeps hsplit rfl
  | @readerLeaves before after name hsplit hz =>
    exact absurd rfl (nobody hl (t := ⟨name, .read, .inside⟩) (by simp [hsplit]))
  | @lastReaderLeaves before after name hsplit hz =>
    exact absurd rfl (nobody hl (t := ⟨name, .read, .inside⟩) (by simp [hsplit]))
  | @writerLeaves before after name hsplit =>
    exact absurd rfl (nobody hl (t := ⟨name, .write, .inside⟩) (by simp [hsplit]))

theorem held_step {m : Move ν} (hs : Step l m n) {t : Thread ν} (ht : t ∈ n.held) :
    t ∈ l.held ∨ m = .look t.name := by
  obtain ⟨hmem, hp⟩ := mem_held.mp ht
  have swap {before after : List (Thread ν)} {name : ν} {mode : Mode} {phase phase' : Phase}
      (hl : l.threads = before ++ ⟨name, mode, phase⟩ :: after)
      (hn : n.threads = before ++ ⟨name, mode, phase'⟩ :: after) :
      t ∈ l.held ∨ (.look name : Move ν) = .look t.name := by
    rcases mem_of_swap hl (hn ▸ hmem) with rfl | hmem
    · exact .inr rfl
    · exact .inl (mem_held.mpr ⟨hmem, hp⟩)
  have dropped {before after : List (Thread ν)} {u : Thread ν}
      (hl : l.threads = before ++ u :: after) (hmem : t ∈ before ++ after) : t ∈ l.held :=
    mem_held.mpr ⟨(sublist_of_split hl).subset hmem, hp⟩
  have woken {x : Lock ν} (hx : t ∈ x.wakeAll.threads) : t ∈ x.threads := by
    obtain ⟨u, hu, rfl⟩ := List.mem_map.mp hx
    split at hp
    · cases hp
    · rename_i hns
      rwa [if_neg hns]
  cases hs with
  | arrive hf =>
    rcases List.mem_append.mp hmem with hmem | hmem
    · exact .inl (mem_held.mpr ⟨hmem, hp⟩)
    · obtain rfl := List.mem_singleton.mp hmem
      cases hp
  | readerEnters hl => exact swap hl rfl
  | readerSleeps hl => exact swap hl rfl
  | writerEnters hl => exact swap hl rfl
  | writerSleeps hl => exact swap hl rfl
  | readerLeaves hl => exact .inl (dropped hl hmem)
  | lastReaderLeaves hl => exact .inl (dropped hl (woken hmem))
  | writerLeaves hl => exact .inl (dropped hl (woken hmem))

/-! ## Moves in any order -/

section Moves

variable [DecidableEq ν]

theorem justified_after (h : Sound l) (hj : Justified l) (moves : List (Move ν)) :
    Justified (l.after moves) := by
  induction moves generalizing l with
  | nil => exact hj
  | cons m moves ih =>
    refine ih (sound_attempt h m) ?_
    rcases attempt_cases h.distinct m with heq | hs
    · rwa [heq]
    · exact justified_step hj hs

theorem justified_of_reachable (h : Reachable l) : Justified l := by
  obtain ⟨moves, rfl⟩ := h
  exact justified_after sound_free ⟨by simp [free], by simp [free]⟩ moves

/-- A woken thread can look. -/
theorem step_of_woken (hd : Distinct l) {t : Thread ν} (ht : t ∈ l.threads)
    (hp : t.phase = .woken) : Step l (.look t.name) (l.attempt (.look t.name)) := by
  obtain ⟨name, mode, phase⟩ := t
  obtain rfl : phase = .woken := hp
  obtain ⟨before, after, hl⟩ := List.append_of_mem ht
  have hnone : before.find? (fun u => decide (u.name = name)) = none := by
    refine List.find?_eq_none.mpr fun u hu => ?_
    simpa using hd.split hl u (List.mem_append_left after hu)
  have hf : l.find? name = some ⟨name, mode, .woken⟩ := by simp [find?, hl, hnone]
  cases mode with
  | read =>
    have hnext : l.next? (.look name) = some (l.lookReader name) := by simp [next?, hf]
    have hs := step_of_next hd hnext
    rwa [attempt, hnext]
  | write =>
    have hnext : l.next? (.look name) = some (l.lookWriter name) := by simp [next?, hf]
    have hs := step_of_next hd hnext
    rwa [attempt, hnext]

/-- As long as nobody gets in, whoever is woken has been so from the beginning and has not looked,
and somebody goes on waiting. -/
theorem woken_after (h : Sound l) {moves : List (Move ν)}
    (hn : ∀ earlier, earlier <+: moves → (l.after earlier).held = []) :
    (∀ t ∈ (l.after moves).threads, t.phase = .woken → t ∈ l.threads ∧ .look t.name ∉ moves) ∧
      ((∃ mode, l.waiting mode ≠ []) → ∃ mode, (l.after moves).waiting mode ≠ []) := by
  induction moves generalizing l with
  | nil => exact ⟨fun t ht _ => ⟨ht, List.not_mem_nil⟩, id⟩
  | cons m moves ih =>
    have hl : l.held = [] := hn [] List.nil_prefix
    have hnext : (l.attempt m).held = [] := hn [m] (List.prefix_append [m] moves)
    have hstep : (∀ t ∈ (l.attempt m).threads, t.phase = .woken →
          t ∈ l.threads ∧ m ≠ .look t.name) ∧
        ((∃ mode, l.waiting mode ≠ []) → ∃ mode, (l.attempt m).waiting mode ≠ []) := by
      rcases attempt_cases h.distinct m with heq | hs
      · refine ⟨fun t ht hp => ?_, by rw [heq]; exact id⟩
        have hmem : t ∈ l.threads := by rwa [heq] at ht
        refine ⟨hmem, ?_⟩
        rintro rfl
        -- it can look, and once it has looked it is not woken any more
        exact ((idle_step h (step_of_woken h.distinct hmem hp) hl hnext).1 t ht hp).2 rfl
      · exact idle_step h hs hl hnext
    obtain ⟨hwoken, hwait⟩ := ih (sound_attempt h m) fun earlier he =>
      hn (m :: earlier) ((List.prefix_cons_inj m).mpr he)
    refine ⟨fun t ht hp => ?_, fun hw => hwait (hstep.2 hw)⟩
    obtain ⟨hmem, hlook⟩ := hwoken t ht hp
    obtain ⟨hmem, hne⟩ := hstep.1 t hmem hp
    refine ⟨hmem, fun hin => ?_⟩
    rcases List.mem_cons.mp hin with heq | hin
    · exact hne heq.symm
    · exact hlook hin

/-- Whoever is inside has been there from the beginning or has looked. -/
theorem looked_of_held (h : Sound l) {moves : List (Move ν)} {t : Thread ν}
    (ht : t ∈ (l.after moves).held) : t ∈ l.held ∨ .look t.name ∈ moves := by
  induction moves generalizing l with
  | nil => exact .inl ht
  | cons m moves ih =>
    rcases ih (sound_attempt h m) ht with ht | hlook
    · rcases attempt_cases h.distinct m with heq | hs
      · exact .inl (heq ▸ ht)
      · refine (held_step hs ht).imp_right fun hm => ?_
        rw [hm]
        exact List.mem_cons_self
    · exact .inr (List.mem_cons_of_mem m hlook)

/-- In every reachable lock: where no woken thread has still to look, a writer waits only for
somebody inside, a reader only for a writer that is inside or waits, and so somebody is inside if
anybody waits. Where nobody is inside and somebody waits, as after the last one has left, somebody
gets in before all that are woken have looked, and it is one of those that wait if nobody else
looks. -/
theorem no_wakeup_is_lost (h : Reachable l) :
    ((∀ t ∈ l.threads, t.phase ≠ .woken) →
      (l.waiting .write ≠ [] → l.held ≠ []) ∧
      (l.waiting .read ≠ [] → l.inside .write ≠ [] ∨ l.waiting .write ≠ []) ∧
      ((∃ mode, l.waiting mode ≠ []) → l.held ≠ [])) ∧
    (l.held = [] → (∃ mode, l.waiting mode ≠ []) →
      ∀ moves, (∀ t ∈ l.threads, t.phase = .woken → .look t.name ∈ moves) →
        (∃ earlier, earlier <+: moves ∧ (l.after earlier).held ≠ []) ∧
        ((∀ name, .look name ∈ moves → ∃ mode, ∃ t ∈ l.waiting mode, t.name = name) →
          ∃ earlier, earlier <+: moves ∧
            ∃ mode, ∃ t ∈ l.waiting mode, ∃ u ∈ (l.after earlier).held, u.name = t.name)) := by
  have hl := sound_of_reachable h
  have hj := justified_of_reachable h
  refine ⟨fun hs => ⟨(settled hl hj hs).1, (settled hl hj hs).2, held_of_settled hl hj hs⟩, ?_⟩
  intro hfree hw moves hlook
  have henter : ∃ earlier, earlier <+: moves ∧ (l.after earlier).held ≠ [] := by
    by_contra hnone
    have hn : ∀ earlier, earlier <+: moves → (l.after earlier).held = [] := fun earlier he =>
      not_ne_iff.mp fun hne => hnone ⟨earlier, he, hne⟩
    obtain ⟨hwoken, hwait⟩ := woken_after hl hn
    have hs : ∀ t ∈ (l.after moves).threads, t.phase ≠ .woken := fun t ht hp =>
      (hwoken t ht hp).2 (hlook t (hwoken t ht hp).1 hp)
    exact held_of_settled (sound_after hl moves) (justified_after hl hj moves) hs (hwait hw)
      (hn moves List.prefix_rfl)
  refine ⟨henter, fun honly => ?_⟩
  obtain ⟨earlier, he, hne⟩ := henter
  obtain ⟨u, hu⟩ := List.exists_mem_of_ne_nil _ hne
  rcases looked_of_held hl hu with hu' | hlooked
  · simp [hfree] at hu'
  · obtain ⟨mode, t, ht, hname⟩ := honly u.name (he.subset hlooked)
    exact ⟨earlier, he, mode, t, ht, u, hu, hname.symm⟩

end Moves

/-- The reader inside leaves; the other reader looks in vain, and the writer gets in. -/
theorem no_wakeup_is_lost_crowded :
    Reachable (crowded.after [.leave 1]) ∧ (crowded.after [.leave 1]).held = [] ∧
      (crowded.after [.leave 1]).waiting .read ≠ [] ∧
      (∃ earlier, earlier <+: [.look 3, .look 2] ∧
        ((crowded.after [.leave 1]).after earlier).held ≠ []) := by
  have hr : Reachable (crowded.after [.leave 1]) := Reachable.after ⟨_, rfl⟩ _
  have hfree : (crowded.after [.leave 1]).held = [] := by decide
  have hw : (crowded.after [.leave 1]).waiting .read ≠ [] := by decide
  have hlook : ∀ t ∈ (crowded.after [.leave 1]).threads, t.phase = .woken →
      .look t.name ∈ [Move.look 3, Move.look 2] := by decide
  exact ⟨hr, hfree, hw, ((no_wakeup_is_lost hr).2 hfree ⟨.read, hw⟩ _ hlook).1⟩

end FlagPoll.Lock
