import FlagPoll.Proofs.Payload
import FlagPoll.Proofs.Synchronizer.Supply

/-!
# FlagPoll.Proofs.Synchronizer.Storing

A synchronizer that fetches with a client from a service that keeps to the rules of tags.

* `Supply`   — the fetch under way or the data set on its way to the store, if there is one.
* `Supplied` — what the client knows, what it has given, and what the store holds.
* `caching_is_invisible` — the cache is never seen: not in what fetches give, not in the store.
-/

namespace FlagPoll.Synchronizer.Machine

variable {τ κ δ : Type}

/-- What is on its way to the store, if anything is. Fetches are made one after the other, so this
is about the latest one. -/
inductive Supply (svc : Service δ) (w : World τ κ) (m : Machine τ κ) : Prop where
  | idle (hs : m.supplies = []) (hst : m.store.contents = contentsOf (applied w m.journal))
  | fetching (a : Answer) (asked : Option CacheEntry) (hs : m.supplies = [.receive (.http a) asked])
      (hd : (w.response (fetches m.journal - 1)).delivery = .http a) (hk : svc.Knows asked)
      (ha : svc.MayAnswer (fetches m.journal - 1) (asked.map (·.etag)) a)
      (hst : m.store.contents = contentsOf (applied w m.journal))
  | refusing (s : Snapshot) (cached : Option Nat) (script : WriteScript (Op τ κ))
      (hs : m.supplies = [.write s cached script]) (hr : script.raises ≠ none)
      (hst : m.store.contents = contentsOf (applied w m.journal))
  | taking (n : Nat) (s : Snapshot) (cached : Option Nat) (script : WriteScript (Op τ κ))
      (hs : m.supplies = [.write s cached script]) (hr : script.raises = none)
      (ha : applied w m.journal = some (n, s))

structure Supplied (svc : Service δ) (w : World τ κ) (m : Machine τ κ) : Prop where
  client : ∃ c, m.requester = .client c ∧ c.Plain ∧ svc.Knows c.cached
  responses : m.responses = fetches m.journal
  callouts : m.callouts = calloutsOf m.journal
  faithful : Faithful svc w m.journal
  supply : Supply svc w m

section Supplied

variable {svc : Service δ} {w : World τ κ} {m n : Machine τ κ}

theorem not_isTransfer_logged (log : List Log.Record) :
    ∀ e ∈ log.map (Event.logged (τ := τ) (κ := κ)), e.isTransfer = false := by
  simp [Event.isTransfer]

theorem Supplied.keep (h : Supplied svc w m) (hk : Keeps m n) (hs : n.supplies = m.supplies) :
    Supplied svc w n := by
  obtain ⟨hr, hst, hn, es, hj, hes, hc⟩ := hk
  obtain ⟨hf, -, hfaith, happ⟩ := append_of_not_isTransfer svc w hes m.journal
  rw [← hj] at hf hfaith happ
  refine ⟨by rw [hr]; exact h.client, by rw [hn, hf]; exact h.responses, ?_,
    hfaith.mpr h.faithful, ?_⟩
  · rw [hc, hj, calloutsOf_append, h.callouts]
    omega
  · cases h.supply with
    | idle hs' hst' => exact .idle (by rw [hs, hs']) (by rw [hst, happ, hst'])
    | fetching a asked hs' hd hk ha hst' =>
      exact .fetching a asked (by rw [hs, hs']) (by rw [hf]; exact hd) hk (by rw [hf]; exact ha)
        (by rw [hst, happ, hst'])
    | refusing s cached script hs' hr hst' =>
      exact .refusing s cached script (by rw [hs, hs']) hr (by rw [hst, happ, hst'])
    | taking i s cached script hs' hr ha =>
      exact .taking i s cached script (by rw [hs, hs']) hr (by rw [happ, ha])

/-- A fetch begins, and its request asks about the tag of the cached data set. -/
theorem Supplied.fetch (h : Supplied svc w m) (hs : m.supplies = [])
    (hs' : n.supplies = [.receive (w.response m.responses).delivery m.requester.cached])
    (hr : n.requester = m.requester) (hst : n.store = m.store)
    (hn : n.responses = m.responses + 1) (hj : n.journal = .fetch m.clock m.request? :: m.journal)
    (hc : n.callouts = m.callouts + 1) (hserve : Serves svc w n.journal) : Supplied svc w n := by
  obtain ⟨c, hclient, hplain, hknows⟩ := h.client
  have hstore : m.store.contents = contentsOf (applied w m.journal) := by
    cases h.supply with
    | idle _ hst => exact hst
    | _ => simp_all
  rw [hj] at hserve
  obtain ⟨⟨a, hd, ha⟩, -⟩ := hserve
  have hreq : (m.request?).bind Request.tag? = m.requester.cached.map (·.etag) := by
    simp [request?, Requester.cached, hclient, Client.tag?_request hplain]
  rw [hreq] at ha
  refine ⟨⟨c, by rw [hr, hclient], hplain, hknows⟩, ?_, ?_, ?_, ?_⟩
  · rw [hn, hj, h.responses]
    rfl
  · rw [hc, hj, h.callouts]
    rfl
  · rw [hj]
    exact h.faithful
  · refine .fetching a m.requester.cached ?_ ?_ ?_ ?_ ?_
    · rw [hs', h.responses, hd]
    · rw [hj]
      exact hd
    · simpa [Requester.cached, hclient] using hknows
    · rw [hj]
      exact ha
    · rw [hst, hstore, hj]
      rfl

/-- A fetch has returned: what it gives is right, and the store is to take it if polls still have
an effect. -/
theorem Supplied.receive (h : Supplied svc w m) (hst : stateOf m.journal = m.sync.state)
    {d : Delivery} {asked : Option CacheEntry} {rest : List (Task τ κ)} {log : List Log.Record}
    (hs : m.supplies = .receive d asked :: rest)
    (hr : n.requester = (m.requester.receive asked d).1) (hstore : n.store = m.store)
    (hn : n.responses = m.responses)
    (hj : n.journal = .fetched m.clock (m.requester.receive asked d).2.1 ::
      (log.map .logged ++ m.journal))
    (hc : n.callouts = m.callouts)
    (hs' : (n.supplies = rest ∧ ∀ s, (m.requester.receive asked d).2.1 = .ok s →
        m.sync.state.isActive = false) ∨
      ∃ s cached, (m.requester.receive asked d).2.1 = .ok s ∧ m.sync.state.isActive = true ∧
        n.supplies = .write s cached (w.write m.callouts) :: rest) : Supplied svc w n := by
  obtain ⟨c, hclient, hplain, hknows⟩ := h.client
  obtain ⟨a, rfl, rfl, hd, hk, ha, hcontents⟩ : ∃ a, d = .http a ∧ rest = [] ∧
      (w.response (fetches m.journal - 1)).delivery = .http a ∧ svc.Knows asked ∧
      svc.MayAnswer (fetches m.journal - 1) (asked.map (·.etag)) a ∧
      m.store.contents = contentsOf (applied w m.journal) := by
    cases h.supply with
    | fetching a asked hs' hd hk ha hst =>
      obtain ⟨⟨rfl, rfl⟩, rfl⟩ : (d = .http a ∧ _ = asked) ∧ rest = [] := by simpa [hs] using hs'
      exact ⟨a, rfl, rfl, hd, hk, ha, hst⟩
    | _ => simp_all
  have hreceive : m.requester.receive asked (.http a) =
      (.client (c.receive asked a).1, (c.receive asked a).2) := by
    rw [hclient]
    rfl
  simp only [hreceive] at hr hj hs'
  obtain ⟨hheaders, hknows', hgives⟩ := Client.receive_gives hknows hk ha
  obtain ⟨hf, -, hfaith, happ⟩ :=
    append_of_not_isTransfer svc w (not_isTransfer_logged log) m.journal
  have hcalls : calloutsOf (log.map .logged ++ m.journal) = m.callouts := by
    rw [calloutsOf_append, h.callouts, ← List.reverse_reverse log, List.map_reverse,
      calloutsOf_logged]
    omega
  have hplain' : (c.receive asked a).1.Plain := by
    rw [Client.Plain, hheaders]
    exact hplain
  refine ⟨⟨_, hr, hplain', hknows'⟩, ?_, ?_, ?_, ?_⟩
  · rw [hn, h.responses, hj]
    exact hf.symm
  · rw [hc, hj]
    exact hcalls.symm
  · rw [hj]
    exact ⟨⟨a, by rw [hf]; exact hd, by rw [hf]; exact hgives⟩, hfaith.mpr h.faithful⟩
  · have hstate : stateOf (log.map .logged ++ m.journal) = m.sync.state := by
      rw [stateOf_logged, hst]
    rcases hs' with ⟨hs', hinactive⟩ | ⟨s, cached, ho, hactive, hs'⟩
    · have happn : applied w n.journal = applied w m.journal := by
        rw [hj, ← happ]
        cases ho : (c.receive asked a).2.1 with
        | error f => simp [applied]
        | ok s => simp [applied, hstate, hinactive s ho]
      exact .idle hs' (by rw [hstore, hcontents, happn])
    · have happn : applied w n.journal = if (w.write m.callouts).raises = none then
          some (fetches m.journal - 1, s) else applied w m.journal := by
        rw [hj, ← happ]
        simp [applied, ho, hstate, hactive, hcalls, hf]
      by_cases hraise : (w.write m.callouts).raises = none
      · exact .taking _ s cached _ hs' hraise (by rw [happn, if_pos hraise])
      · exact .refusing s cached _ hs' hraise (by rw [hstore, hcontents, happn, if_neg hraise])

theorem Supplied.write (h : Supplied svc w m) {s : Snapshot} {cached : Option Nat}
    {script : WriteScript (Op τ κ)} {rest : List (Task τ κ)}
    (hs : m.supplies = .write s cached script :: rest) (hs' : n.supplies = rest)
    (hr : n.requester = m.requester) (hn : n.responses = m.responses) {log : List Log.Record}
    (hj : n.journal = log.map .logged ++ m.journal) (hc : n.callouts = m.callouts)
    (hst : n.store = if script.raises = none then m.store.init s.allData else m.store) :
    Supplied svc w n := by
  obtain ⟨hf, -, hfaith, happ⟩ :=
    append_of_not_isTransfer svc w (not_isTransfer_logged log) m.journal
  rw [← hj] at hf hfaith happ
  refine ⟨by rw [hr]; exact h.client, by rw [hn, hf]; exact h.responses, ?_,
    hfaith.mpr h.faithful, ?_⟩
  · rw [hc, hj, calloutsOf_append, h.callouts, ← List.reverse_reverse log, List.map_reverse,
      calloutsOf_logged]
    omega
  · cases h.supply with
    | refusing t cached' script' hsup hraise hcontents =>
      obtain ⟨⟨rfl, rfl, rfl⟩, rfl⟩ :
          (s = t ∧ cached = cached' ∧ script = script') ∧ rest = [] := by
        simpa [hs] using hsup
      exact .idle hs' (by rw [hst, if_neg hraise, happ, hcontents])
    | taking i t cached' script' hsup hraise ha =>
      obtain ⟨⟨rfl, rfl, rfl⟩, rfl⟩ :
          (s = t ∧ cached = cached' ∧ script = script') ∧ rest = [] := by
        simpa [hs] using hsup
      refine .idle hs' ?_
      rw [hst, if_pos hraise, happ, ha]
      rfl
    | _ => simp_all

theorem Supplied.step (h : Supplied svc w m) (hst : stateOf m.journal = m.sync.state)
    (hmove : Move w m n) (hserve : Serves svc w n.journal) : Supplied svc w n := by
  cases hmove with
  | keep hk hs => exact h.keep hk hs
  | fetch hs hs' hr hstore hn hj hc => exact h.fetch hs hs' hr hstore hn hj hc hserve
  | write s cached script rest hs hs' hr hn hj hc hstore =>
    obtain ⟨log, hj⟩ := hj
    exact h.write hs hs' hr hn hj hc hstore
  | receive d asked rest x log hs hr hstore hn hj hc hk hs' =>
    have hx : Supplied svc w { x with stack := n.stack } :=
      h.receive hst hs hr hstore hn hj hc hs'
    exact hx.keep ⟨hk.requester, hk.store, hk.responses, hk.journal⟩ rfl

/-- A service that has kept to the rules had done so before. -/
theorem serves_of_move (hmove : Move w m n) (h : Serves svc w n.journal) :
    Serves svc w m.journal := by
  have keep {x y : Machine τ κ} (hk : Keeps x y) (hy : Serves svc w y.journal) :
      Serves svc w x.journal := by
    obtain ⟨es, hj, hes, -⟩ := hk.journal
    rw [hj] at hy
    exact (append_of_not_isTransfer svc w hes x.journal).2.1.mp hy
  have logged (log : List Log.Record) (hy : Serves svc w (log.map .logged ++ m.journal)) :
      Serves svc w m.journal :=
    (append_of_not_isTransfer svc w (not_isTransfer_logged log) m.journal).2.1.mp hy
  cases hmove with
  | keep hk => exact keep hk h
  | fetch hs hs' hr hst hn hj =>
    rw [hj] at h
    exact h.2
  | receive d asked rest x log hs hr hst hn hj hc hk =>
    have hx := keep hk h
    rw [hj] at hx
    exact logged log hx
  | write s cached script rest hs hs' hr hn hj =>
    obtain ⟨log, hj⟩ := hj
    rw [hj] at h
    exact logged log h

end Supplied

section Run

variable {svc : Service δ} {w : World τ κ} {config : Config} {c : Client} {m : Machine τ κ}
  {ms : List (Machine τ κ)}

theorem supplied_new (hc : Client.ofConfig config = .ok c) (hr : m.requester = .client c)
    (hn : m.responses = 0) (hj : m.journal = []) (hs : m.supplies = []) (hst : m.store = .empty)
    (hca : m.callouts = 0) : Supplied svc w m := by
  obtain ⟨hplain, hnone⟩ := Client.plain_of_ofConfig hc
  refine ⟨⟨c, hr, hplain, fun e he => by simp [hnone] at he⟩, ?_, ?_, ?_, .idle hs ?_⟩
  · simp [hn, hj, fetches]
  · simp [hca, hj, calloutsOf]
  · simp [hj, Faithful]
  · simp [hst, hj, applied, contentsOf, Store.empty]

variable [Time τ] [BEq κ]

theorem supplied_of_run (hc : Client.ofConfig config = .ok c) (hw : w.Every Op.IsGentle)
    (h : Run w (.client c) (Op.Every Op.IsGentle) (Op.Outer Op.IsGentle (· = none)) (m :: ms))
    (hserve : Serves svc w m.journal) : Supplied svc w m := by
  induction h using Run.head_induction with
  | create => exact supplied_new hc rfl rfl rfl rfl rfl rfl
  | timeline calls hd => exact supplied_new hc rfl rfl rfl rfl rfl rfl
  | call x xs op h hs ho ih =>
    refine (ih hserve).keep (.same rfl rfl rfl rfl rfl) ?_
    simp [supplies, hs, Task.isSupply]
  | step x y xs h hs ih =>
    have hpoll (op : Op τ κ) (hop : op.IsGentle) : ¬ op.IsPoll := hop.1
    have hcalls :=
      calls_of_run (q := (· = none)) hpoll hw Op.isGentle_close rfl h x List.mem_cons_self
    have hmove := move_of_step hcalls hs
    exact (ih (serves_of_move hmove hserve)).step (stateOf_of_run h) hmove hserve

/-- Whatever the service answers by the rules of tags, and whenever the store refuses a data set:
every fetch gives the data set that the service held at its request, as a fetch without a cache
would. Once no write is under way the store holds, kind by kind, the items of the latest data set
that was fetched while polls had an effect and was not refused, which is the one that the service
held at that request; before there is one it holds nothing. -/
theorem caching_is_invisible (hc : Client.ofConfig config = .ok c) (hw : w.Every Op.IsGentle)
    (h : Run w (.client c) (Op.Every Op.IsGentle) (Op.Outer Op.IsGentle (· = none)) (m :: ms))
    (hserve : Serves svc w m.journal) :
    Faithful svc w m.journal ∧
    ((∀ s cached script, .write s cached script ∉ m.stack) →
      m.store.contents = contentsOf (applied w m.journal) ∧
      (applied w m.journal = none → ∀ kind, m.store.items kind = []) ∧
      ∀ n s, applied w m.journal = some (n, s) →
        (∀ kind, m.store.items kind = s.items kind) ∧
        svc.view ⟨m.store.items .flags, m.store.items .segments⟩ = svc.held n) ∧
    ∀ n s, applied w m.journal = some (n, s) → svc.view s = svc.held n := by
  have hsup := supplied_of_run hc hw h hserve
  refine ⟨hsup.faithful, ?_, ?_⟩
  · intro hnone
    have hst : m.store.contents = contentsOf (applied w m.journal) := by
      cases hsup.supply with
      | idle hs hst => exact hst
      | fetching a asked hs hd hk ha hst => exact hst
      | refusing s cached script hs hr hst => exact hst
      | taking n s cached script hs hr ha =>
        have hmem : .write s cached script ∈ m.supplies := by simp [hs]
        exact absurd (List.mem_filter.mp hmem).1 (hnone s cached script)
    refine ⟨hst, ?_, ?_⟩
    · intro ha kind
      rw [items_of_contents hst, ha, Option.elim_none]
    · intro n s ha
      have hitems (kind : Kind) : m.store.items kind = s.items kind := by
        rw [items_of_contents hst, ha, Option.elim_some]
      refine ⟨hitems, ?_⟩
      rw [hitems, hitems]
      exact hsup.faithful.view_applied ha
  · intro n s ha
    exact hsup.faithful.view_applied ha

end Run

/-- The text of a body with one item, whose collection has a name. -/
def oneItemText (name key : String) (version : Nat) : List Char :=
  '\x7b' :: '"' :: (name.toList ++ '"' :: ':' :: '\x7b' :: '"' :: (key.toList ++ '"' :: ':' ::
    '\x7b' :: '"' :: ("key".toList ++ '"' :: ':' :: '"' :: (key.toList ++ '"' :: ',' ::
      '"' :: ("version".toList ++ '"' :: ':' :: (Nat.toDigits 10 version ++
        ['\x7d', '\x7d', '\x7d']))))))

theorem document_oneItem {name key : String} {version : Nat}
    (hname : (name.toList.all fun c => 0x20 ≤ c.toNat && c != '"' && c != '\\') = true)
    (hkey : (key.toList.all fun c => 0x20 ≤ c.toNat && c != '"' && c != '\\') = true)
    (hversion : Decimal.digitCount version ≤ Decimal.mostDigits) :
    Json.Document (.object [(name, .object [(key,
      .object [("key", .string key), ("version", .int version)])])])
      (oneItemText name key version) := by
  have blank : Json.Blank [] := by simp [Json.Blank]
  have hk : Json.StringText "key".toList "key".toList := Json.stringText_of_all (by decide)
  have hv : Json.StringText "version".toList "version".toList :=
    Json.stringText_of_all (by decide)
  have hne : CodePoints.ofString "key" ≠ CodePoints.ofString "version" := by decide
  have item := Json.Rendering.object blank (by simpa using hne)
    (.members hk blank blank (.string (Json.stringText_of_all hkey)) blank blank
      (.member hv blank blank (.integer (.natural hversion)) blank))
  have items := Json.Rendering.object blank (by simp)
    (.member (Json.stringText_of_all hkey) blank blank item blank)
  have body := Json.Rendering.object blank (by simp)
    (.member (Json.stringText_of_all hname) blank blank items blank)
  simpa [oneItemText] using Json.Document.mk blank body blank

theorem read_oneFlag : Payload.read (Utf8.encode (oneItemText "flags" "a" 1)) = .ok .oneFlag := by
  have hd : Json.Document (.object [("flags", .object Snapshot.oneFlag.flags)])
      (oneItemText "flags" "a" 1) := document_oneItem (by decide) (by decide) (by decide)
  rw [Payload.read, Payload.readWithin_document hd (by decide)]
  rfl

theorem read_oneSegment :
    Payload.read (Utf8.encode (oneItemText "segments" "b" 2)) = .ok .oneSegment := by
  have hd : Json.Document (.object [("segments", .object Snapshot.oneSegment.segments)])
      (oneItemText "segments" "b" 2) := document_oneItem (by decide) (by decide) (by decide)
  rw [Payload.read, Payload.readWithin_document hd (by decide)]
  rfl

/-- The data set changes after the first request, and its tag with it. -/
def changing : Service Snapshot where
  view := id
  held n := if n = 0 then .oneFlag else .oneSegment
  tag? n := some (if n = 0 then "v1" else "v2")
  tag_determines {n m tag} hn hm := by
    have htags := Option.some.inj (hn.trans hm.symm)
    by_cases hfirst : n = 0 <;> by_cases hfirst' : m = 0 <;> simp [hfirst, hfirst'] at htags ⊢

/-- The service answers in full twice and says "unchanged" from then on; the store refuses the
second data set the first time. -/
def stubborn : World Number Nat :=
  { World.still fun n => .http (.ok (
      if n = 0 then ⟨200, [("ETag", "v1")], Utf8.encode (oneItemText "flags" "a" 1)⟩
      else if n = 1 then ⟨200, [("ETag", "v2")], Utf8.encode (oneItemText "segments" "b" 2)⟩
      else ⟨304, [], []⟩)) with
    write := fun n => ⟨[], if n = 3 then some "full" else none, []⟩ }

def settings : Config where
  sdkKey := some "key"
  baseUri := "http://localhost"
  pollInterval := 30
  http := {}
  ownRequester := false
  wrapperName := .null
  wrapperVersion := .null
  tags := ⟨"", ""⟩
  filterKey := none

def frugal : Client where
  url := requestUrl settings
  headers := Headers.base settings ++ [("Accept-Encoding", "gzip")]
  timeouts := ⟨settings.http.connectTimeout, settings.http.readTimeout⟩
  cached := none

/-- A number of polls, one after the other. -/
def polled (count : Nat) : List (Machine Number Nat) :=
  session stubborn (.client frugal) 40 (.start :: List.replicate count (.poll none))

theorem run_polled (count : Nat) : Run stubborn (.client frugal) (Op.Every Op.IsGentle)
    (Op.Outer Op.IsGentle (· = none)) (polled count) := by
  have hstart : (Op.start : Op Number Nat).Every Op.IsGentle :=
    .other (by simp) Op.isGentle_start
  refine run_session stubborn (.client frugal) _ _ 40 _ ?_
  refine List.forall_mem_cons.mpr ⟨.call hstart, ?_⟩
  intro op hop
  obtain rfl := List.eq_of_mem_replicate hop
  exact .poll ⟨rfl, by simp⟩

/-- What the service answers to requests that have asked about these tags. -/
theorem mayAnswer_stubborn {tag : Option String} {earlier : List (Option String)}
    (h : tag :: earlier <:+ [some "v2", some "v1", none]) :
    ∃ a, (stubborn.response earlier.length).delivery = .http a ∧
      changing.MayAnswer earlier.length tag a := by
  rcases List.suffix_cons_iff.mp h with he | h
  · obtain ⟨rfl, rfl⟩ := List.cons.inj he
    exact ⟨_, rfl, .notModified rfl rfl rfl⟩
  rcases List.suffix_cons_iff.mp h with he | h
  · obtain ⟨rfl, rfl⟩ := List.cons.inj he
    exact ⟨_, rfl, .full rfl read_oneSegment rfl (.inr rfl)⟩
  rcases List.suffix_cons_iff.mp h with he | h
  · obtain ⟨rfl, rfl⟩ := List.cons.inj he
    exact ⟨_, rfl, .full rfl read_oneFlag rfl (.inr rfl)⟩
  · exact absurd (List.suffix_nil.mp h) (List.cons_ne_nil _ _)

/-- After two polls the store still holds the first data set, as it has refused the second one, and
after three it holds the second one, although the service has not sent it again. -/
theorem caching_is_invisible_to_stubborn :
    (∃ m ms, Run stubborn (.client frugal) (Op.Every Op.IsGentle)
        (Op.Outer Op.IsGentle (· = none)) (m :: ms) ∧
      m.stack = [] ∧ Faithful changing stubborn m.journal ∧
      tagsAsked m.journal = [some "v1", none] ∧
      ∀ kind, m.store.items kind = Snapshot.oneFlag.items kind) ∧
    ∃ m ms, Run stubborn (.client frugal) (Op.Every Op.IsGentle)
        (Op.Outer Op.IsGentle (· = none)) (m :: ms) ∧
      m.stack = [] ∧ Faithful changing stubborn m.journal ∧
      tagsAsked m.journal = [some "v2", some "v1", none] ∧
      ∀ kind, m.store.items kind = Snapshot.oneSegment.items kind := by
  have hw : stubborn.Every Op.IsGentle := by
    constructor <;> simp [stubborn, World.still]
  have shows (count i : Nat) (tags : List (Option String))
      (htags : tags <:+ [some "v2", some "v1", none])
      (hlast : (polled count).head?.map (fun m => (m.stack.isEmpty, tagsAsked m.journal,
        (applied stubborn m.journal).map Prod.fst)) = some (true, tags, some i)) :
      ∃ m ms, Run stubborn (.client frugal) (Op.Every Op.IsGentle)
          (Op.Outer Op.IsGentle (· = none)) (m :: ms) ∧
        m.stack = [] ∧ Faithful changing stubborn m.journal ∧ tagsAsked m.journal = tags ∧
        ∀ kind, m.store.items kind = (changing.held i).items kind := by
    obtain ⟨m, hm, hend⟩ := Option.map_eq_some_iff.mp hlast
    obtain ⟨ms, hms⟩ := List.head?_eq_some_iff.mp hm
    obtain ⟨hstack, hasked, happlied⟩ : m.stack = [] ∧ tagsAsked m.journal = tags ∧
        (applied stubborn m.journal).map Prod.fst = some i := by simpa using hend
    obtain ⟨⟨n, s⟩, ha, rfl⟩ := Option.map_eq_some_iff.mp happlied
    have hserve : Serves changing stubborn m.journal :=
      serves_of_tagsAsked fun tag earlier hs => mayAnswer_stubborn (hs.trans (hasked ▸ htags))
    have h := run_polled count
    rw [hms] at h
    obtain ⟨hfaithful, hstore, hheld⟩ :=
      caching_is_invisible (rfl : Client.ofConfig settings = .ok frugal) hw h hserve
    obtain ⟨-, -, hitems⟩ := hstore (by simp [hstack])
    obtain rfl : s = changing.held n := hheld n s ha
    exact ⟨m, ms, h, hstack, hfaithful, hasked, (hitems n _ ha).1⟩
  exact ⟨shows 2 0 _ (List.suffix_cons _ _) (by decide +kernel),
    shows 3 2 _ (List.suffix_refl _) (by decide +kernel)⟩

end FlagPoll.Synchronizer.Machine
