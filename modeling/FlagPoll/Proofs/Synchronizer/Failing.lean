import FlagPoll.Proofs.Synchronizer.Aftermath

/-!
# FlagPoll.Proofs.Synchronizer.Failing

Fetches that fail.

* `EndsPolling` — the failures that will not go away by trying again.
* `Recorded`    — a failure as a status shows it.
* `report_announces` — the log tells which failures end polling.
* `isTelling`   — what a poll has left to do after a failure: its listeners are told.
* `GivesUp`, `Endures`, `Tells` — polling ends, or nothing moves; the status and the log tell of it.
* `failures_end_polling_or_pass` — which failures do which, and what comes after them.
-/

namespace FlagPoll

/-- The message of a record contains a phrase. -/
def Log.Record.Announces (phrase : String) (r : Log.Record) : Prop :=
  ∃ before after, r.message = before ++ phrase ++ after

namespace Failure

/-- A client error that will not go away by trying again. -/
def EndsPolling (f : Failure) : Prop :=
  ∃ code, f = .status code ∧ (400 ≤ code ∧ code ≤ 499) ∧ code ≠ 400 ∧ code ≠ 408 ∧ code ≠ 429

theorem isFatal_iff (f : Failure) : f.isFatal = true ↔ f.EndsPolling := by
  cases f <;> simp [isFatal, isFatalStatus_iff, EndsPolling]

/-- What a status shows of a failure at a moment. The kind goes with the sort of the failure, and
only an error status has a code. -/
inductive Recorded {τ : Type} (now : τ) : Failure → ErrorInfo τ → Prop
  | status (code : Int) :
    Recorded now (.status code) ⟨.errorResponse, code, now, some s!"HTTP error {code}"⟩
  | payload (message : String) :
    Recorded now (.payload message) ⟨.invalidData, 0, now, some message⟩
  | other (cause : Cause) (message : String) :
    Recorded now (.other cause message) ⟨.networkError, 0, now, some message⟩

theorem recorded_iff {τ : Type} {f : Failure} {now : τ} {e : ErrorInfo τ} :
    f.Recorded now e ↔ e = f.info now := by
  constructor
  · intro h
    cases h <;> rfl
  · rintro rfl
    cases f with
    | status code => exact .status code
    | payload message => exact .payload message
    | other cause message => exact .other cause message

theorem statusText_eq (code : Int) (context : String) : ∃ before, statusText code context =
    before ++ (if isFatalStatus code then "giving up permanently" else "will retry") := ⟨_, rfl⟩

/-- The level of the record and what it announces agree with whether polling ends. -/
theorem report_announces (f : Failure) :
    (f.EndsPolling → f.report.level = .error ∧ f.report.Announces "giving up permanently") ∧
      (¬ f.EndsPolling → f.report.level = .warning ∧ f.report.Announces "will retry") := by
  rw [← isFatal_iff]
  have retry (message : String) : Log.Record.Announces "will retry" ⟨.warning,
      "Error: Exception encountered when polling for flag data, will retry. " ++ message⟩ :=
    ⟨"Error: Exception encountered when polling for flag data, ", ". " ++ message, by
      rw [← String.append_assoc]
      rfl⟩
  cases f with
  | status code =>
    obtain ⟨before, hmessage⟩ := statusText_eq code "polling request"
    cases hf : isFatalStatus code <;> rw [hf] at hmessage
    · refine ⟨by simp [isFatal, hf], fun _ => ⟨by simp [report, hf], before, "", ?_⟩⟩
      rw [String.append_empty]
      exact hmessage
    · refine ⟨fun _ => ⟨by simp [report, hf], before, "", ?_⟩, by simp [isFatal, hf]⟩
      rw [String.append_empty]
      exact hmessage
  | payload message => exact ⟨by simp [isFatal], fun _ => ⟨rfl, retry message⟩⟩
  | other cause message => exact ⟨by simp [isFatal], fun _ => ⟨rfl, retry message⟩⟩

end Failure

namespace Synchronizer

variable {τ κ : Type}

/-- What is left of a poll after a failure: listeners are told, and their exceptions are logged. -/
def Task.isTelling : Task τ κ → Bool
  | .notify _ | .tell .. | .listenerRaised _ | .leave _ | .report _ | .give _ => true
  | _ => false

/-- A requester that fails stays as it is and logs nothing. -/
theorem Requester.receive_of_error {r : Requester} {asked : Option CacheEntry} {d : Delivery}
    {f : Failure} (h : (r.receive asked d).2.1 = .error f) :
    r.receive asked d = (r, .error f, []) := by
  cases d with
  | fetched o =>
    obtain rfl : o = .error f := by cases r <;> exact h
    cases r <;> rfl
  | http a =>
    cases r with
    | own =>
      have h : a.outcome = .error f := h
      simp [receive, h]
    | client c =>
      suffices hc : c.receive asked a = (c, .error f, []) by simp [receive, hc]
      have h : (c.receive asked a).2.1 = .error f := h
      revert h
      cases a with
      | error g => simp [Client.receive]
      | ok reply =>
        have accept : (c.accept reply).2.1 = .error f → c.accept reply = (c, .error f, []) := by
          unfold Client.accept
          split <;> simp
        simp only [Client.receive]
        split
        · simp
        · split
          · exact accept
          · split
            · simp
            · exact accept

namespace Machine

variable [Time τ] {w : World τ κ}

theorem confines_telling [BEq κ] : Confines w (Task.isTelling (τ := τ) (κ := κ)) where
  clear n kind key t := by cases t <;> rfl
  pushes m t ht := by
    cases t with
    | notify c =>
      simp only [execute, notify]
      split
      · exact ⟨[], rfl, trivial⟩
      · rename_i s _
        refine ⟨_, rfl, ?_⟩
        induction s.listeners with
        | nil => trivial
        | cons k ks ih => exact ⟨.inl rfl, rfl, ih⟩
    | tell k c =>
      refine ⟨_, rfl, .append (.append (remains_callTasks (fun _ => rfl) _) ?_) ?_⟩
      · cases (w.listener m.callouts k c.status).raises with
        | none => trivial
        | some message => exact ⟨.inl rfl, rfl, trivial⟩
      · exact ⟨.inl rfl, rfl, trivial⟩
    | listenerRaised | leave | report | give => exact ⟨[], rfl, trivial⟩
    | _ => cases ht

/-- Telling listeners counts as that, and changes nothing else about the synchronizer. -/
theorem telling_keeps [BEq κ] {m : Machine τ κ} {t : Task τ κ} (ht : t.isTelling = true) :
    (∃ k, (m.execute w t).sync = { m.sync with notified := k }) ∧
      (m.execute w t).store = m.store := by
  cases t with
  | notify c =>
    simp only [execute, notify]
    split
    · exact ⟨⟨_, rfl⟩, rfl⟩
    · rename_i s hs
      exact ⟨⟨_, (admit?_eq_some.mp hs).2⟩, rfl⟩
  | tell | listenerRaised | leave | report | give => exact ⟨⟨_, rfl⟩, rfl⟩
  | _ => cases ht

/-! ## What a failed fetch comes to -/

/-- A fetch has failed, and nothing has been made of it yet. -/
def failed (m : Machine τ κ) (f : Failure) (rest : List (Task τ κ)) : Machine τ κ :=
  { m with
    stack := rest, sync := m.sync.returned, journal := .fetched m.clock (.error f) :: m.journal }

section Step

variable [BEq κ] {m n : Machine τ κ} {d : Delivery} {asked : Option CacheEntry}
  {rest : List (Task τ κ)} {f : Failure} (hm : m.stack = .receive d asked :: rest)
  (ho : (m.requester.receive asked d).2.1 = .error f) (hs : m.step w = some n)
include hm ho hs

theorem step_of_failure : n =
    if m.sync.state = .closed then
      ((m.failed f rest).log discardAfterCloseLog).push [.closeRequester, .give .nothing]
    else if f.isFatal then (m.failed f rest).giveUp w f (f.info (m.wallClock w))
    else (m.failed f rest).recover f (f.info (m.wallClock w)) := by
  obtain rfl := eq_execute hm hs
  simp only [execute, receive, Requester.receive_of_error ho, logAll, List.foldl_nil, record]
  rfl

/-- Where polls have no effect a failure has none either. -/
theorem inactive_of_failure (ha : m.sync.state.isActive = false) :
    n.sync = m.sync.returned ∧ n.store = m.store ∧
      n.journal = (if m.sync.state = .closed then [.logged discardAfterCloseLog] else []) ++
        .fetched m.clock (.error f) :: m.journal := by
  rw [step_of_failure hm ho hs]
  have ha : m.sync.returned.state.isActive = false := ha
  split
  · exact ⟨rfl, rfl, rfl⟩
  · split
    · simp [giveUp, Synchronizer.giveUp?, failed, ha, give]
    · simp [recover, Synchronizer.recover?, failed, ha, give]

/-- A failure that may go away is noted. -/
theorem recover_of_failure (ha : m.sync.state.isActive = true) (hf : f.isFatal = false) :
    ∃ c, n.sync = { m.sync.returned with
        lastError := some (f.info (m.wallClock w)), sequence := m.sync.sequence + 1 } ∧
      n.store = m.store ∧
      n.journal =
        .logged f.report :: .changed m.clock c :: .fetched m.clock (.error f) :: m.journal ∧
      n.stack = [.notify c, .give .nothing] ++ rest := by
  have hc : m.sync.state ≠ .closed := fun hc => by simp [hc, Lifecycle.isActive] at ha
  obtain ⟨s, c, hr⟩ : ∃ s c,
      (m.failed f rest).sync.recover? (f.info (m.wallClock w)) = some (s, c) :=
    ⟨_, _, recover?_eq_some.mpr ⟨ha, rfl, rfl⟩⟩
  rw [step_of_failure hm ho hs, if_neg hc, if_neg (by simp [hf]), recover, hr]
  exact ⟨c, (recover?_eq_some.mp hr).2.1, rfl, rfl, rfl⟩

/-- A failure that will not go away ends polling. -/
theorem giveUp_of_failure (hp : m.sync.state = .polling → m.sync.handle.resolution = none)
    (ha : m.sync.state.isActive = true) (hf : f.isFatal = true) :
    ∃ c, n.sync.state = .permanentlyFailed ∧
      n.sync.lastError = some (f.info (m.wallClock w)) ∧
      n.journal =
        .logged f.report :: .changed m.clock c :: .fetched m.clock (.error f) :: m.journal := by
  have hc : m.sync.state ≠ .closed := fun hc => by simp [hc, Lifecycle.isActive] at ha
  obtain ⟨s, c, hg⟩ : ∃ s c, (m.failed f rest).sync.giveUp? (f.info (m.wallClock w))
      (wallClock w (m.failed f rest)) = some (s, c) :=
    ⟨_, _, giveUp?_eq_some.mpr ⟨ha, rfl, rfl⟩⟩
  obtain ⟨-, hsync, -⟩ := giveUp?_eq_some.mp hg
  rw [step_of_failure hm ho hs, if_neg hc, if_pos hf, giveUp, hg]
  have hstate : s.state = .permanentlyFailed := by rw [hsync]
  have herror : s.lastError = some (f.info (m.wallClock w)) := by rw [hsync]
  by_cases hi : (m.failed f rest).sync.state = .initialized
  · simp only [hi, if_true]
    exact ⟨c, hstate, herror, rfl⟩
  · have hpolling : m.sync.state = .polling := by
      change ¬ m.sync.state = .initialized at hi
      cases hms : m.sync.state <;> simp_all [Lifecycle.isActive]
    have hpending : s.handle.resolution = none := by
      rw [hsync]
      exact hp hpolling
    simp only [hi, if_false, resolve, Completion.resolve, log, record, hpending]
    exact ⟨c, hstate, herror, rfl⟩

end Step

/-! ## Which failures end polling -/

/-- A fetch returns with a failure. -/
structure Fails [BEq κ] (w : World τ κ) (m : Machine τ κ) (f : Failure) (rest : List (Task τ κ))
    (n : Machine τ κ) : Prop where
  returns : ∃ d asked,
    m.stack = .receive d asked :: rest ∧ (m.requester.receive asked d).2.1 = .error f
  step : m.step w = some n

/-- The state, since when it has lasted, the handle and the store are the same. -/
structure Unmoved (m n : Machine τ κ) : Prop where
  state : n.sync.state = m.sync.state
  since : n.sync.since = m.sync.since
  handle : n.sync.handle = m.sync.handle
  store : n.store = m.store

/-- Polling has failed for good, and no fetch begins any more. -/
structure GivesUp [BEq κ] (w : World τ κ) (r : Requester) (due free : Op τ κ → Prop)
    (n : Machine τ κ) (ns : List (Machine τ κ)) : Prop where
  failed : n.sync.state = .permanentlyFailed
  last : ∀ x xs, Run w r due free (x :: xs) → n :: ns <:+ x :: xs →
    fetchTimes x.journal = fetchTimes n.journal

/-- The synchronizer stays where it is, and so it does until the poll ends but for the calls that
the callees make. -/
structure Endures [BEq κ] (w : World τ κ) (m : Machine τ κ) (rest : List (Task τ κ))
    (n : Machine τ κ) : Prop where
  unmoved : Unmoved m n
  after : ∀ x y, Within w rest.length n x → rest.length < x.stack.length → x.step w = some y →
    InCall rest.length x ∨ Unmoved x y

/-- The status shows the failure, and one record of the log tells of it and of what comes of it. -/
structure Tells (w : World τ κ) (m : Machine τ κ) (f : Failure) (n : Machine τ κ) : Prop where
  error : n.sync.lastError = some (f.info (m.wallClock w))
  recorded : f.Recorded (m.wallClock w) (f.info (m.wallClock w))
  code : ∀ c, f = .status c → (f.info (m.wallClock w)).statusCode = c
  noCode : (∀ c, f ≠ .status c) → (f.info (m.wallClock w)).statusCode = 0
  log : ∃ c record, n.journal =
      .logged record :: .changed m.clock c :: .fetched m.clock (.error f) :: m.journal ∧
    (record.level = .error ∧ record.Announces "giving up permanently" ↔ f.EndsPolling) ∧
    (record.level = .warning ∧ record.Announces "will retry" ↔ ¬ f.EndsPolling)

section Outcomes

variable [BEq κ] {r : Requester} {due free : Op τ κ → Prop} {m n : Machine τ κ}
  {ms : List (Machine τ κ)} {f : Failure} {rest : List (Task τ κ)}

omit [BEq κ] in
theorem tells_of_journal {c : Change τ} (he : n.sync.lastError = some (f.info (m.wallClock w)))
    (hj : n.journal =
      .logged f.report :: .changed m.clock c :: .fetched m.clock (.error f) :: m.journal) :
    Tells w m f n where
  error := he
  recorded := Failure.recorded_iff.mpr rfl
  code := by
    rintro code rfl
    rfl
  noCode hno := by
    cases f with
    | status code => exact absurd rfl (hno code)
    | payload message => rfl
    | other cause message => rfl
  log := by
    refine ⟨c, f.report, hj, ?_⟩
    obtain ⟨hends, hpasses⟩ := f.report_announces
    by_cases h : f.EndsPolling
    · simp [h, hends h]
    · simp [h, hpasses h]

theorem gives_up (h : Run w r due free (m :: ms)) (hn : Fails w m f rest n)
    (ha : m.sync.state.isActive = true) (he : f.EndsPolling) :
    GivesUp w r due free n (m :: ms) ∧ Tells w m f n := by
  obtain ⟨⟨d, asked, hm, ho⟩, hs⟩ := hn
  obtain ⟨c, hstate, herror, hjournal⟩ :=
    giveUp_of_failure hm ho hs (pending_of_run h) ha (f.isFatal_iff.mpr he)
  exact ⟨⟨hstate, fun x xs hrun hsuf => fetchTimes_of_over hrun hsuf (.inr hstate)⟩,
    tells_of_journal herror hjournal⟩

/-- After a failure that may go away all that is left of the poll is that listeners are told. -/
theorem telling_of_fails {x y : Machine τ κ} (hn : Fails w m f rest n)
    (ha : m.sync.state.isActive = true) (he : ¬ f.EndsPolling) (hx : Within w rest.length n x)
    (hd : rest.length < x.stack.length) (hy : x.step w = some y) :
    InCall rest.length x ∨ ∃ task below, x.stack = task :: below ∧ task.isTelling = true ∧
      y = execute w { x with stack := below } task := by
  obtain ⟨⟨d, asked, hm, ho⟩, hs⟩ := hn
  have hf : f.isFatal = false := by simpa using mt f.isFatal_iff.mp he
  obtain ⟨c, -, -, -, hstack⟩ := recover_of_failure hm ho hs ha hf
  have htelling : Remains Task.isTelling [.notify c, (.give .nothing : Task τ κ)] :=
    ⟨.inl rfl, rfl, .inl rfl, rfl, trivial⟩
  refine (own_or_inCall confines_telling hstack htelling hx hd hy).imp_right ?_
  rintro ⟨task, below, hstack, hown⟩
  exact ⟨task, below, hstack, hown, eq_execute hstack hy⟩

theorem endures (hn : Fails w m f rest n) (ha : m.sync.state.isActive = true)
    (he : ¬ f.EndsPolling) : Endures w m rest n ∧ Tells w m f n := by
  have ⟨⟨d, asked, hm, ho⟩, hs⟩ := hn
  have hf : f.isFatal = false := by simpa using mt f.isFatal_iff.mp he
  obtain ⟨c, hsync, hstore, hjournal, -⟩ := recover_of_failure hm ho hs ha hf
  have here : Unmoved m n := ⟨by rw [hsync]; rfl, by rw [hsync]; rfl, by rw [hsync]; rfl, hstore⟩
  refine ⟨⟨here, fun x y hx hd hy => ?_⟩, tells_of_journal (by rw [hsync]) hjournal⟩
  refine (telling_of_fails hn ha he hx hd hy).imp_right ?_
  rintro ⟨task, below, -, hown, rfl⟩
  obtain ⟨⟨k, hsync⟩, hstore⟩ := telling_keeps (w := w) (m := { x with stack := below }) hown
  exact ⟨by rw [hsync], by rw [hsync], by rw [hsync], hstore⟩

theorem Endures.unfailed (h : Endures w m rest n) (ha : m.sync.state.isActive = true) :
    n.sync.state ≠ .permanentlyFailed := by
  rw [h.unmoved.state]
  intro hf
  simp [hf, Lifecycle.isActive] at ha

/-- A failure ends polling exactly if it is a client error that will not go away by trying again.
Any other one leaves the synchronizer where it is, and the next fetch begins by the schedule. In
both cases the status shows the failure, and the log tells which case it is; where polls have no
effect, failures have none either. -/
theorem failures_end_polling_or_pass :
    (∀ {τ : Type} [Time τ] (w : World τ κ) (r : Requester) (due free : Op τ κ → Prop)
      (m n : Machine τ κ) (ms : List (Machine τ κ)) (f : Failure) (rest : List (Task τ κ)),
      Run w r due free (m :: ms) → Fails w m f rest n →
      (m.sync.state.isActive = true →
        (GivesUp w r due free n (m :: ms) ↔ f.EndsPolling) ∧
        (¬ f.EndsPolling → Endures w m rest n) ∧ Tells w m f n) ∧
      (m.sync.state.isActive = false → n.sync = m.sync.returned ∧ n.store = m.store ∧
        n.journal = (if m.sync.state = .closed then [.logged discardAfterCloseLog] else []) ++
          .fetched m.clock (.error f) :: m.journal)) ∧
    (∀ {τ : Type} [Time τ] (w : World τ κ) (r : Requester) (m n x : Machine τ κ)
      (ms xs : List (Machine τ κ)) (f : Failure) (rest : List (Task τ κ)),
      w.Every (fun op => ¬ op.IsPoll) → Fails w m f rest n → m.sync.state.isActive = true →
      ¬ f.EndsPolling → Run w r (Op.Every fun op => ¬ op.IsPoll) (fun _ => False) (x :: xs) →
      n :: m :: ms <:+ x :: xs → Exact (x :: xs) → x.stack = [] → Resumes w n x xs) ∧
    ∀ (w : World Rat κ) (r : Requester) (m n : Machine Rat κ) (ms : List (Machine Rat κ))
      (f : Failure) (rest : List (Task Rat κ)),
      w.Every (fun op => ¬ op.IsPoll) → Fails w m f rest n → m.sync.state.isActive = true →
      ¬ f.EndsPolling → Run w r (Op.Every fun op => ¬ op.IsPoll) (fun _ => False) (m :: ms) →
      0 < w.interval → Returning w n →
      ∃ x xs, Run w r (Op.Every fun op => ¬ op.IsPoll) (fun _ => False) (x :: xs) ∧
        n :: m :: ms <:+ x :: xs ∧ x.stack = [] ∧ Resumes w n x xs := by
  refine ⟨?_, ?_, ?_⟩
  · intro τ _ w r due free m n ms f rest h hn
    refine ⟨fun ha => ?_, fun ha => ?_⟩
    · by_cases he : f.EndsPolling
      · obtain ⟨hends, htells⟩ := gives_up h hn ha he
        exact ⟨iff_of_true hends he, absurd he, htells⟩
      · obtain ⟨hendures, htells⟩ := endures hn ha he
        refine ⟨iff_of_false (fun hends => ?_) he, fun _ => hendures, htells⟩
        rw [← hendures.unmoved.state, hends.failed] at ha
        cases ha
    · obtain ⟨⟨d, asked, hm, ho⟩, hs⟩ := hn
      exact inactive_of_failure hm ho hs ha
  · intro τ _ w r m n x ms xs f rest hw hn ha he h hsuf hx hend
    have ⟨⟨d, asked, hm, ho⟩, hs⟩ := hn
    exact resumes_of_receive hw hm hs ((endures hn ha he).1.unfailed ha) h hsuf hx hend
  · intro w r m n ms f rest hw hn ha he h hi hret
    have ⟨⟨d, asked, hm, ho⟩, hs⟩ := hn
    exact comes_to_resume hi hw h hm hs ((endures hn ha he).1.unfailed ha) hret

end Outcomes

/-- The failure with which a fetch of a requester of the caller's own is about to return. -/
def failing? (m : Machine τ κ) : Option Failure :=
  match m.stack with
  | .receive (.fetched (.error f)) _ :: _ => some f
  | _ => none

theorem fails_of_failing [BEq κ] {r : Requester} {due : Op τ κ → Prop} {f : Failure}
    {s : Lifecycle} {l : List (Machine τ κ)} {i : Nat} (h : Run w r due (fun _ => False) l)
    (hl : l[i + 1]?.map (fun m => (m.failing?, m.sync.state)) = some (some f, s)) :
    ∃ m n ms rest, n :: m :: ms = l.drop i ∧ l[i]? = some n ∧
      Run w r due (fun _ => False) (m :: ms) ∧ m.sync.state = s ∧ Fails w m f rest n := by
  obtain ⟨m, hm, hf⟩ := Option.map_eq_some_iff.mp hl
  obtain ⟨n, ms, hdrop, hn, hrun, hstep⟩ := h.drop hm
  simp only [Prod.mk.injEq, failing?] at hf
  obtain ⟨hf, hstate⟩ := hf
  split at hf
  · rename_i g asked rest hstack
    obtain rfl := Option.some.inj hf
    exact ⟨m, n, ms, rest, hdrop, hn, hrun, hstate,
      ⟨_, asked, hstack, by cases m.requester <;> rfl⟩, hstep⟩
  · cases hf

/-- The service is not available at first, and then it does not know the key. -/
def unknown : World Rat Nat where
  interval := 30
  epoch := 0
  horizon := 100
  response n := ⟨0, [], .fetched (.error (.status (if n = 0 then 503 else 404)))⟩
  write _ := ⟨[], none, []⟩
  closing _ := ⟨[], none⟩
  listener _ _ _ := ⟨[], none⟩
  callback _ _ _ := ⟨[], none⟩

theorem failures_end_polling_or_pass_unknown : ∃ x xs,
    Run unknown .own (Op.Every fun op => ¬ op.IsPoll) (fun _ => False) (x :: xs) ∧
      fetchStarts x = [5, 35] ∧
      (∃ m n ms rest, n :: m :: ms <:+ x :: xs ∧ Fails unknown m (.status 503) rest n ∧
        Endures unknown m rest n ∧ Tells unknown m (.status 503) n ∧ Resumes unknown n x xs ∧
        ∃ y ys, y.stack = [] ∧ n :: m :: ms <:+ y :: ys ∧ Resumes unknown n y ys) ∧
      ∃ m n ms rest, n :: m :: ms <:+ x :: xs ∧ Fails unknown m (.status 404) rest n ∧
        GivesUp unknown .own (Op.Every fun op => ¬ op.IsPoll) (fun _ => False) n (m :: ms) ∧
        Tells unknown m (.status 404) n := by
  have hw : unknown.Every fun op => ¬ op.IsPoll := by constructor <;> simp [unknown]
  have hrun : Run unknown .own (Op.Every fun op => ¬ op.IsPoll) (fun _ => False)
      (watched unknown .own 80 [(5, .start)]) :=
    run_watched _ _ _ _ _ _ (by simpa using .other (by simp) Op.not_isPoll_start)
  obtain ⟨x, hx, hlast⟩ := Option.map_eq_some_iff.mp (show
    (watched unknown .own 80 [(5, .start)]).head?.map (fun x =>
      (x.stack.isEmpty, fetchStarts x)) = some (true, [5, 35]) by decide +kernel)
  obtain ⟨xs, hxs⟩ := List.head?_eq_some_iff.mp hx
  obtain ⟨hstack, hstarts⟩ : x.stack = [] ∧ fetchStarts x = [5, 35] := by simpa using hlast
  obtain ⟨m, n, ms, rest, hdrop, hn, hbefore, hstate, hfails⟩ :=
    fails_of_failing (i := 16) (f := .status 503) (s := .polling) hrun (by decide +kernel)
  obtain ⟨m', n', ms', rest', hdrop', -, hbefore', hstate', hfails'⟩ :=
    fails_of_failing (i := 6) (f := .status 404) (s := .polling) hrun (by decide +kernel)
  obtain ⟨y, hy, hend⟩ := Option.map_eq_some_iff.mp (show
    (watched unknown .own 80 [(5, .start)])[16]?.map (fun n => (run unknown 40 n).stack.isEmpty) =
      some true by decide +kernel)
  obtain rfl := Option.some.inj (hy.symm.trans hn)
  rw [hxs] at hrun hdrop hdrop'
  have hsuf : y :: m :: ms <:+ x :: xs := hdrop ▸ List.drop_suffix 16 (x :: xs)
  have hsuf' : n' :: m' :: ms' <:+ x :: xs := hdrop' ▸ List.drop_suffix 6 (x :: xs)
  have ha : m.sync.state.isActive = true := by rw [hstate]; rfl
  have ha' : m'.sync.state.isActive = true := by rw [hstate']; rfl
  have hpasses : ¬ (Failure.status 503).EndsPolling := by simp [Failure.EndsPolling]
  have hgives : (Failure.status 404).EndsPolling := ⟨404, rfl, by decide⟩
  obtain ⟨hall, hresumes, hexact⟩ := @failures_end_polling_or_pass Nat _
  obtain ⟨-, hendures, htells⟩ := (hall _ _ _ _ _ _ _ _ _ hbefore hfails).1 ha
  obtain ⟨hover, -, htells'⟩ := (hall _ _ _ _ _ _ _ _ _ hbefore' hfails').1 ha'
  obtain ⟨z, zs, -, hzs, hzend, hz⟩ := hexact _ _ _ _ _ _ _ hw hfails ha hpasses hbefore
    (by decide +kernel) (returning_of_end (List.isEmpty_iff.mp hend))
  exact ⟨x, xs, hrun, hstarts,
    ⟨m, y, ms, rest, hsuf, hfails, hendures hpasses, htells,
      hresumes _ _ _ _ _ _ _ _ _ hw hfails ha hpasses hrun hsuf (exact_rat _) hstack,
      z, zs, hzend, hzs, hz⟩,
    m', n', ms', rest', hsuf', hfails', hover.mpr hgives, htells'⟩

end Machine
end Synchronizer
end FlagPoll
