import FlagPoll.Config
import FlagPoll.Proofs.Synchronizer.Rounds

/-!
# FlagPoll.Proofs.Synchronizer.Floor

How close to each other the fetches of a configured synchronizer may begin.

* `pollInterval_cases` — a configuration polls at an interval of thirty seconds or more, perhaps
  without end, or at an undefined one.
* `Spaced`             — fetches that follow each other begin thirty seconds apart.
* `fetches_apart_iff`  — they do exactly if the interval that was given is defined.
-/

namespace FlagPoll

open Time

namespace Config

theorem leastInterval_value : leastInterval.value = .finite 30 := by decide +kernel

theorem latest_value (x y : Number) :
    (latest x y).value = if x.value.lt y.value then y.value else x.value := by
  simp only [latest, Number.lt_iff]
  split <;> rfl

/-- Whatever is given, only what is undefined escapes the least interval. -/
theorem pollInterval_cases (a : Arguments) :
    (a.pollInterval.value = .undefined ∧ (make a).1.pollInterval.value = .undefined) ∨
      (a.pollInterval.value ≠ .undefined ∧ ((make a).1.pollInterval.value = .infinite false ∨
        ∃ q : Rat, 30 ≤ q ∧ (make a).1.pollInterval.value = .finite q)) := by
  have hmake : (make a).1.pollInterval = latest a.pollInterval leastInterval := rfl
  rw [hmake, latest_value, leastInterval_value]
  cases a.pollInterval.value with
  | undefined => exact .inl ⟨rfl, rfl⟩
  | infinite negative =>
    cases negative with
    | true => exact .inr ⟨by simp, .inr ⟨30, le_rfl, rfl⟩⟩
    | false => exact .inr ⟨by simp, .inl rfl⟩
  | finite q =>
    refine .inr ⟨by simp, .inr ?_⟩
    by_cases hq : q < 30
    · exact ⟨30, le_rfl, by simp [ExtendedRat.lt, hq]⟩
    · exact ⟨q, not_lt.mp hq, by simp [ExtendedRat.lt, hq]⟩

end Config

namespace Synchronizer.Machine

variable {τ κ : Type}

/-- A configured interval is never refused. -/
theorem checkInterval_config (a : Config.Arguments) :
    checkInterval (some (Config.make a).1.pollInterval) = .ok (Config.make a).1.pollInterval := by
  have hpos : ¬ (Config.make a).1.pollInterval ≤ 0 := by
    rw [Number.le_iff]
    rcases Config.pollInterval_cases a with ⟨-, h⟩ | ⟨-, h | ⟨q, hq, h⟩⟩
    · rw [h]
      decide
    · rw [h]
      decide
    · have hzero : (0 : Number).value = .finite 0 := rfl
      have hq : ¬ q < 0 ∧ q ≠ 0 := ⟨by linarith, by rintro rfl; linarith⟩
      simp [h, hzero, ExtendedRat.le, ExtendedRat.lt, ExtendedRat.same, hq]
  simp [checkInterval, hpos]

/-! ## Moments of a run -/

theorem clock_of_return {e : τ} {ms : List (Machine τ κ)} (h : e ∈ returns ms) :
    ∃ x ∈ ms, x.clock = e := by
  induction ms with
  | nil => simp [returns] at h
  | cons m ms ih =>
    rw [returns] at h
    split at h
    · rcases List.mem_cons.mp h with rfl | h
      · exact ⟨m, List.mem_cons_self, rfl⟩
      · obtain ⟨x, hx, rfl⟩ := ih h
        exact ⟨x, List.mem_cons_of_mem m hx, rfl⟩
    · obtain ⟨x, hx, rfl⟩ := ih h
      exact ⟨x, List.mem_cons_of_mem m hx, rfl⟩

theorem clock_of_fetch [Time τ] [BEq κ] {w : World τ κ} {r : Requester} {m : Machine τ κ}
    {ms : List (Machine τ κ)} (hw : w.Every fun op => ¬ op.IsPoll)
    (h : Run w r (Op.Every fun op => ¬ op.IsPoll) (fun _ => False) (m :: ms)) (hx : Exact (m :: ms))
    {t : τ} (ht : t ∈ fetchTimes m.journal) : ∃ x ∈ m :: ms, x.clock = t := by
  induction h using Run.head_induction with
  | create => simp [create, fetchTimes] at ht
  | timeline calls hd => simp [create, fetchTimes] at ht
  | call x xs op h hs ho ih => exact ho.elim
  | step x y xs h hs ih =>
    have earlier (ht : t ∈ fetchTimes x.journal) : ∃ z ∈ y :: x :: xs, z.clock = t := by
      obtain ⟨z, hz, rfl⟩ := ih hx.tail ht
      exact ⟨z, List.mem_cons_of_mem y hz, rfl⟩
    rcases fetch_step hw h hx.tail hs with hf | hf
    · exact earlier (hf ▸ ht)
    · rw [hf.begins] at ht
      rcases List.mem_cons.mp ht with rfl | ht
      · exact ⟨x, by simp, rfl⟩
      · exact earlier ht

/-! ## Fetches apart -/

/-- The clock shows finite moments. -/
def FiniteClocks (ms : List (Machine ExtendedRat κ)) : Prop :=
  ∀ m ∈ ms, ∃ q : Rat, m.clock = .finite q

theorem FiniteClocks.exact {ms : List (Machine ExtendedRat κ)} (h : FiniteClocks ms) : Exact ms := by
  refine ⟨fun _ => rfl, fun m hm next => ?_⟩
  obtain ⟨q, hq⟩ := h m hm
  rw [hq]
  exact ExtendedRat.delay_exact q next

/-- Fetches that follow each other begin thirty seconds apart at least. -/
def Spaced (m : Machine ExtendedRat κ) : Prop :=
  ∀ i b t, (fetchStarts m)[i]? = some b → (fetchStarts m)[i + 1]? = some t → b + .finite 30 ≤ t

theorem thirty_le {interval : ExtendedRat} {b e t : Rat}
    (hi : interval = .infinite false ∨ ∃ q : Rat, 30 ≤ q ∧ interval = .finite q)
    (h : .finite t = latest (.finite e) (.finite b + interval)) : b + 30 ≤ t := by
  rw [ExtendedRat.latest_eq] at h
  rcases hi with rfl | ⟨q, hq, rfl⟩
  · rw [ExtendedRat.finite_add_infinite] at h
    simp [ExtendedRat.lt] at h
  · rw [ExtendedRat.finite_add] at h
    by_cases hlt : e < b + q
    · have ht : t = b + q := by simpa [ExtendedRat.lt, hlt] using h
      linarith
    · have ht : t = e := by simpa [ExtendedRat.lt, hlt] using h
      linarith

theorem spaced_of_run [BEq κ] {w : World ExtendedRat κ} {r : Requester} {m : Machine ExtendedRat κ}
    {ms : List (Machine ExtendedRat κ)}
    (hi : w.interval = .infinite false ∨ ∃ q : Rat, 30 ≤ q ∧ w.interval = .finite q)
    (hw : w.Every fun op => ¬ op.IsPoll)
    (h : Run w r (Op.Every fun op => ¬ op.IsPoll) (fun _ => False) (m :: ms))
    (hc : FiniteClocks (m :: ms)) : Spaced m := by
  have hfetch {t : ExtendedRat} {i : Nat} (ht : (fetchStarts m)[i]? = some t) :
      ∃ q : Rat, t = .finite q := by
    have hmem : t ∈ fetchTimes m.journal := List.mem_reverse.mp (List.mem_of_getElem? ht)
    obtain ⟨x, hx, rfl⟩ := clock_of_fetch hw h hc.exact hmem
    exact hc x hx
  intro i b t hb ht
  obtain ⟨b', e, hb', he, hnext⟩ := (onSchedule_of_run hw h hc.exact).next i t ht
  obtain rfl : b = b' := Option.some.inj (hb.symm.trans hb')
  obtain ⟨x, hx, hxe⟩ := clock_of_return (List.mem_reverse.mp (List.mem_of_getElem? he))
  obtain ⟨ended, hended⟩ := hc x hx
  obtain ⟨first, rfl⟩ := hfetch hb
  obtain ⟨second, rfl⟩ := hfetch ht
  rw [← hxe, hended] at hnext
  rw [ExtendedRat.finite_add, ExtendedRat.finite_le]
  exact thirty_le hi hnext

/-! ## A service that takes its time -/

section Even

variable [Time τ]

/-- All responses take the same time, and nobody makes calls of their own. -/
def even (interval duration horizon : τ) : World τ Nat where
  interval := interval
  epoch := 0
  horizon := horizon
  response _ := ⟨duration, [], .fetched (.ok .empty)⟩
  write _ := ⟨[], none, []⟩
  closing _ := ⟨[], none⟩
  listener _ _ _ := ⟨[], none⟩
  callback _ _ _ := ⟨[], none⟩

/-- Polling is started at once and goes on up to the horizon. -/
def evenRun (interval duration horizon : τ) : List (Machine τ Nat) :=
  watched (even interval duration horizon) .own 80 [(0, .start)]

variable {interval duration horizon : τ}

theorem every_even : (even interval duration horizon).Every fun op => ¬ op.IsPoll := by
  constructor <;> simp [even]

theorem run_even {starts : List τ}
    (h : (evenRun interval duration horizon).head?.map fetchStarts = some starts) : ∃ m ms,
    evenRun interval duration horizon = m :: ms ∧ fetchStarts m = starts ∧
      Run (even interval duration horizon) .own (Op.Every fun op => ¬ op.IsPoll) (fun _ => False)
        (m :: ms) := by
  obtain ⟨m, hm, hstarts⟩ := Option.map_eq_some_iff.mp h
  obtain ⟨ms, hms⟩ := List.head?_eq_some_iff.mp hm
  refine ⟨m, ms, hms, hstarts, ?_⟩
  rw [← hms]
  exact run_watched _ _ _ _ _ _ (by simpa using .other (by simp) Op.not_isPoll_start)

end Even

theorem FiniteClocks.of_mem {ms : List (Machine ExtendedRat κ)} {qs : List Rat}
    (h : ∀ m ∈ ms, m.clock ∈ qs.map .finite) : FiniteClocks ms := fun m hm => by
  obtain ⟨q, -, hq⟩ := List.mem_map.mp (h m hm)
  exact ⟨q, hq.symm⟩

/-- At an undefined interval the next fetch begins as soon as the last poll has ended. -/
theorem not_spaced_of_undefined : ∃ m ms, Run (even ExtendedRat.undefined (.finite 10) (.finite 25))
    .own (Op.Every fun op => ¬ op.IsPoll) (fun _ => False) (m :: ms) ∧ FiniteClocks (m :: ms) ∧
      ¬ Spaced m := by
  have hclocks : ∀ m ∈ evenRun ExtendedRat.undefined (.finite 10) (.finite 25),
      m.clock ∈ [0, 10, 20, 30].map ExtendedRat.finite := by decide +kernel
  have hhead : (evenRun ExtendedRat.undefined (.finite 10) (.finite 25)).head?.map fetchStarts =
      some [.finite 0, .finite 10, .finite 20] := by decide +kernel
  obtain ⟨m, ms, hms, hstarts, hrun⟩ := run_even hhead
  rw [hms] at hclocks
  refine ⟨m, ms, hrun, .of_mem hclocks, fun h => ?_⟩
  have hnext := h 0 (.finite 0) (.finite 10) (by rw [hstarts]; rfl) (by rw [hstarts]; rfl)
  rw [ExtendedRat.finite_add, ExtendedRat.finite_le] at hnext
  norm_num at hnext

/-! ## The floor -/

/-- A configured interval is never refused, and a synchronizer that polls at it begins its fetches
thirty seconds apart, whatever it polls and however long that takes, exactly if the interval that
was given is defined. -/
theorem fetches_apart_iff (a : Config.Arguments) :
    checkInterval (some (Config.make a).1.pollInterval) = .ok (Config.make a).1.pollInterval ∧
      ((∀ (κ : Type) [BEq κ] (w : World ExtendedRat κ) (r : Requester) (m : Machine ExtendedRat κ)
          (ms : List (Machine ExtendedRat κ)),
          w.interval = (Config.make a).1.pollInterval.value → w.Every (fun op => ¬ op.IsPoll) →
          Run w r (Op.Every fun op => ¬ op.IsPoll) (fun _ => False) (m :: ms) →
          FiniteClocks (m :: ms) → Spaced m) ↔
        a.pollInterval.value ≠ .undefined) := by
  refine ⟨checkInterval_config a, fun h hundefined => ?_, fun hdefined κ _ w r m ms hi hw h hc => ?_⟩
  · obtain ⟨m, ms, hrun, hc, hnot⟩ := not_spaced_of_undefined
    rcases Config.pollInterval_cases a with ⟨-, hi⟩ | ⟨hdefined, -⟩
    · exact hnot (h Nat _ .own m ms hi.symm every_even hrun hc)
    · exact hdefined hundefined
  · rcases Config.pollInterval_cases a with ⟨hundefined, -⟩ | ⟨-, hcases⟩
    · exact absurd hundefined hdefined
    · exact spaced_of_run (hi ▸ hcases) hw h hc

theorem fetches_apart_default : ∃ m ms,
    Run (even (Config.make { sdkKey := none }).1.pollInterval.value (.finite 10) (.finite 100)) .own
      (Op.Every fun op => ¬ op.IsPoll) (fun _ => False) (m :: ms) ∧
    fetchStarts m = [.finite 0, .finite 30, .finite 60, .finite 90] ∧ Spaced m := by
  have hinterval : (Config.make { sdkKey := none }).1.pollInterval.value = .finite 30 := by
    decide +kernel
  have hclocks : ∀ m ∈ evenRun (.finite 30) (.finite 10) (.finite 100),
      m.clock ∈ [0, 10, 30, 40, 60, 70, 90, 100].map ExtendedRat.finite := by decide +kernel
  have hhead : (evenRun (.finite 30) (.finite 10) (.finite 100)).head?.map fetchStarts =
      some (([0, 30, 60, 90] : List Rat).map ExtendedRat.finite) := by decide +kernel
  obtain ⟨m, ms, hms, hstarts, hrun⟩ := run_even hhead
  rw [hms] at hclocks
  obtain ⟨-, hapart⟩ := fetches_apart_iff { sdkKey := none }
  rw [hinterval] at hapart ⊢
  have hdefined : ({ sdkKey := none } : Config.Arguments).pollInterval.value ≠ .undefined := by
    decide +kernel
  refine ⟨m, ms, hrun, hstarts, ?_⟩
  exact hapart.mpr hdefined Nat _ .own m ms rfl every_even hrun (.of_mem hclocks)

/-- Fetches follow each other at once if the interval that was given is undefined. -/
theorem undefined_interval_hurries : ∃ m ms,
    checkInterval (some (Config.make { sdkKey := "k", pollInterval := .float .nan }).1.pollInterval) =
      .ok (.float .nan) ∧
    Run (even (Config.make { sdkKey := "k", pollInterval := .float .nan }).1.pollInterval 10 25) .own
      (Op.Every fun op => ¬ op.IsPoll) (fun _ => False) (m :: ms) ∧
    ∃ b t : Number, (fetchStarts m)[0]? = some b ∧ (fetchStarts m)[1]? = some t ∧ ¬ b + 30 ≤ t := by
  have hinterval : (Config.make { sdkKey := "k", pollInterval := .float .nan }).1.pollInterval =
      .float .nan := by decide +kernel
  rw [hinterval]
  have hhead : (evenRun (.float .nan) 10 25).head?.map fetchStarts =
      some [(0 : Number), 10, 20] := by decide +kernel
  obtain ⟨m, ms, -, hstarts, hrun⟩ := run_even hhead
  refine ⟨m, ms, rfl, hrun, 0, 10, ?_, ?_, by decide⟩
  · rw [hstarts]
    rfl
  · rw [hstarts]
    rfl

end Synchronizer.Machine
end FlagPoll
