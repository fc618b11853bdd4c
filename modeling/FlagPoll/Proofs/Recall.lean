import FlagPoll.Proofs.Caching
import Mathlib.Data.List.Induction

/-!
# FlagPoll.Proofs.Recall

What a client remembers of the answers to its requests, whatever these are.

* `after`           — the client after a row of requests, each answered before the next one is sent.
* `Comes`           — all that a request can come to; `comes_fetch` says that there is nothing else.
* `Brings`          — an answer brings a data set with a tag, and it is looked at.
* `recalls_latest`  — the latest of these is the cached one; requests ask about it and failures
  leave it alone.
-/

namespace FlagPoll.Client

/-- The client after requests that have been answered one after the other. -/
def after (c : Client) (answers : List Answer) : Client :=
  answers.foldl (fun c a => (c.fetch a).1) c

@[simp] theorem after_nil (c : Client) : c.after [] = c := rfl

theorem after_concat (c : Client) (answers : List Answer) (a : Answer) :
    c.after (answers ++ [a]) = ((c.after answers).fetch a).1 := by
  simp [after]

/-- A response is read unless it is an error or says "unchanged" about the cached data set. -/
structure Looked (c : Client) (r : Reply) : Prop where
  status : r.status < 400
  asked : r.status = 304 → c.cached = none

/-- What a request comes to: the client after it, and the outcome. -/
inductive Comes (c : Client) : Answer → Client → Except Failure Snapshot → Prop where
  | transport (f : Failure) : Comes c (.error f) c (.error f)
  | failure {r : Reply} (h : 400 ≤ r.status) : Comes c (.ok r) c (.error (.status r.status))
  | unchanged {r : Reply} {entry : CacheEntry} (h : r.status = 304) (hc : c.cached = some entry) :
      Comes c (.ok r) c (.ok entry.snapshot)
  | unreadable {r : Reply} {f : Payload.Fault} (h : c.Looked r)
      (hb : Payload.read r.body = .error f) : Comes c (.ok r) c (.error f.failure)
  | untagged {r : Reply} {s : Snapshot} (h : c.Looked r) (hb : Payload.read r.body = .ok s)
      (ht : r.etag? = none) : Comes c (.ok r) c (.ok s)
  | tagged {r : Reply} {s : Snapshot} {tag : String} (h : c.Looked r)
      (hb : Payload.read r.body = .ok s) (ht : r.etag? = some tag) :
      Comes c (.ok r) { c with cached := some ⟨s, tag, c.lastNumber + 1⟩ } (.ok s)

theorem comes_accept {c : Client} {r : Reply} (h : c.Looked r) :
    Comes c (.ok r) (c.accept r).1 (c.accept r).2.1 := by
  unfold accept
  cases hb : Payload.read r.body with
  | error f => exact .unreadable h hb
  | ok s =>
    cases ht : r.etag? with
    | none => exact .untagged h hb ht
    | some tag => exact .tagged h hb ht

theorem comes_fetch (c : Client) (a : Answer) : Comes c a (c.fetch a).1 (c.fetch a).2.1 := by
  cases a with
  | error f => exact .transport f
  | ok r =>
    by_cases hst : 400 ≤ r.status
    · have hf : Failure.ofStatus? r.status = some (.status r.status) := by
        simp [Failure.ofStatus?, hst]
      simp only [fetch, receive, hf]
      exact .failure hst
    · have hf : Failure.ofStatus? r.status = none := by simp [Failure.ofStatus?, hst]
      simp only [fetch, receive, hf]
      split
      · rename_i hc
        exact comes_accept ⟨by omega, fun _ => hc⟩
      · rename_i entry hc
        split
        · rename_i h304
          exact .unchanged h304 hc
        · rename_i h304
          exact comes_accept ⟨by omega, fun h => absurd h h304⟩

theorem accept_constant (c : Client) (r : Reply) :
    (c.accept r).1 = { c with cached := (c.accept r).1.cached } := by
  unfold accept
  split <;> rfl

/-- Only the cache of a client changes, whatever was cached when the request was sent. -/
theorem receive_constant (c : Client) (asked : Option CacheEntry) (a : Answer) :
    (c.receive asked a).1 = { c with cached := (c.receive asked a).1.cached } := by
  cases a with
  | error f => rfl
  | ok r =>
    simp only [receive]
    split
    · rfl
    · split
      · exact c.accept_constant r
      · split
        · rfl
        · exact c.accept_constant r

theorem fetch_constant (c : Client) (a : Answer) :
    (c.fetch a).1 = { c with cached := (c.fetch a).1.cached } :=
  c.receive_constant c.cached a

theorem after_constant (c : Client) (answers : List Answer) :
    c.after answers = { c with cached := (c.after answers).cached } := by
  induction answers using List.reverseRecOn with
  | nil => rfl
  | append_singleton answers a ih => rw [after_concat, fetch_constant, ih]

/-- The i-th answer brings a data set with a tag, and the client looks at it. -/
def Brings (c : Client) (answers : List Answer) (i : Nat) (s : Snapshot) (tag : String) : Prop :=
  ∃ r, answers[i]? = some (.ok r) ∧ (c.after (answers.take i)).Looked r ∧
    Payload.read r.body = .ok s ∧ r.etag? = some tag

/-- No later answer brings another data set. -/
def BringsLast (c : Client) (answers : List Answer) (i : Nat) (s : Snapshot) (tag : String) : Prop :=
  c.Brings answers i s tag ∧ ∀ j t other, i < j → ¬ c.Brings answers j t other

section Brings

variable {c : Client} {answers : List Answer} {i j : Nat} {s t : Snapshot} {tag other : String}
  {a : Answer}

theorem Brings.lt (h : c.Brings answers i s tag) : i < answers.length := by
  obtain ⟨r, hr, -⟩ := h
  exact (List.getElem?_eq_some_iff.mp hr).1

theorem Brings.unique (h : c.Brings answers i s tag) (h' : c.Brings answers i t other) :
    s = t ∧ tag = other := by
  obtain ⟨r, hr, -, hb, ht⟩ := h
  obtain ⟨r', hr', -, hb', ht'⟩ := h'
  obtain rfl : r = r' := by simpa [hr] using hr'
  exact ⟨by simpa [hb] using hb', by simpa [ht] using ht'⟩

theorem BringsLast.unique (h : c.BringsLast answers i s tag) (h' : c.BringsLast answers j t other) :
    s = t ∧ tag = other := by
  rcases Nat.lt_trichotomy i j with hlt | rfl | hlt
  · exact absurd h'.1 (h.2 j t other hlt)
  · exact h.1.unique h'.1
  · exact absurd h.1 (h'.2 i s tag hlt)

/-- Whether an answer is looked at is decided by those before it. -/
theorem brings_concat_of_lt (hi : i < answers.length) :
    c.Brings (answers ++ [a]) i s tag ↔ c.Brings answers i s tag := by
  unfold Brings
  rw [List.getElem?_append_left hi, List.take_append_of_le_length (Nat.le_of_lt hi)]

theorem brings_concat_length : c.Brings (answers ++ [a]) answers.length s tag ↔
    ∃ r, a = .ok r ∧ (c.after answers).Looked r ∧ Payload.read r.body = .ok s ∧
      r.etag? = some tag := by
  unfold Brings
  rw [List.getElem?_concat_length, List.take_left]
  simp

theorem Brings.concat_cases (h : c.Brings (answers ++ [a]) i s tag) :
    c.Brings answers i s tag ∨ i = answers.length := by
  have hlt := h.lt
  rw [List.length_append, List.length_singleton] at hlt
  rcases Nat.lt_succ_iff_lt_or_eq.mp hlt with hi | hi
  · exact .inl ((brings_concat_of_lt hi).mp h)
  · exact .inr hi

/-- A request that caches nothing leaves the latest data set the latest. -/
theorem BringsLast.concat (h : c.BringsLast answers i s tag)
    (hno : ∀ t other, ¬ c.Brings (answers ++ [a]) answers.length t other) :
    c.BringsLast (answers ++ [a]) i s tag := by
  refine ⟨(brings_concat_of_lt h.1.lt).mpr h.1, fun j t other hij hj => ?_⟩
  rcases hj.concat_cases with hj | rfl
  · exact h.2 j t other hij hj
  · exact hno t other hj

end Brings

/-- What is cached is what the latest answer has brought that brought anything. -/
theorem cached_after {c : Client} (hc : c.cached = none) (answers : List Answer) :
    (∀ entry, (c.after answers).cached = some entry →
      ∃ i, c.BringsLast answers i entry.snapshot entry.etag) ∧
    ((c.after answers).cached = none → ∀ i s tag, ¬ c.Brings answers i s tag) := by
  induction answers using List.reverseRecOn with
  | nil =>
    refine ⟨fun entry h => ?_, fun _ i s tag h => absurd h.lt (by simp)⟩
    simp [hc] at h
  | append_singleton answers a ih =>
    obtain ⟨ihsome, ihnone⟩ := ih
    -- a request that caches nothing is one whose answer brings nothing
    have keep (hno : ∀ t other, ¬ c.Brings (answers ++ [a]) answers.length t other)
        (hk : (c.after (answers ++ [a])).cached = (c.after answers).cached) :
        (∀ entry, (c.after (answers ++ [a])).cached = some entry →
          ∃ i, c.BringsLast (answers ++ [a]) i entry.snapshot entry.etag) ∧
        ((c.after (answers ++ [a])).cached = none →
          ∀ i s tag, ¬ c.Brings (answers ++ [a]) i s tag) := by
      rw [hk]
      refine ⟨fun entry h => ?_, fun h i s tag hb => ?_⟩
      · obtain ⟨i, hi⟩ := ihsome entry h
        exact ⟨i, hi.concat hno⟩
      · rcases hb.concat_cases with hb | rfl
        · exact ihnone h i s tag hb
        · exact hno s tag hb
    have hcomes := comes_fetch (c.after answers) a
    rw [← after_concat] at hcomes
    generalize (c.after (answers ++ [a])) = d at hcomes keep ⊢
    generalize ((c.after answers).fetch a).2.1 = o at hcomes
    cases hcomes with
    | transport f => exact keep (by simp [brings_concat_length]) rfl
    | failure h =>
      refine keep (fun t other hb => ?_) rfl
      obtain ⟨r, hr, hl, -⟩ := brings_concat_length.mp hb
      cases hr
      exact absurd hl.status (Int.not_lt.mpr h)
    | unchanged h hentry =>
      refine keep (fun t other hb => ?_) rfl
      obtain ⟨r, hr, hl, -⟩ := brings_concat_length.mp hb
      cases hr
      simp [hl.asked h] at hentry
    | unreadable hl hbody =>
      refine keep (fun t other hb => ?_) rfl
      obtain ⟨r, hr, -, hread, -⟩ := brings_concat_length.mp hb
      cases hr
      simp [hbody] at hread
    | untagged hl hbody htag =>
      refine keep (fun t other hb => ?_) rfl
      obtain ⟨r, hr, -, -, hsome⟩ := brings_concat_length.mp hb
      cases hr
      simp [htag] at hsome
    | tagged hl hbody htag =>
      refine ⟨fun entry h => ?_, fun h => by cases h⟩
      obtain rfl := Option.some.inj h
      refine ⟨answers.length, brings_concat_length.mpr ⟨_, rfl, hl, hbody, htag⟩, ?_⟩
      intro j t other hlt hb
      have := hb.lt
      rw [List.length_append, List.length_singleton] at this
      omega

/-- When a request fails, and with which failure. -/
theorem fetch_error_iff (c : Client) (a : Answer) (f : Failure) :
    (c.fetch a).2.1 = .error f ↔ a = .error f ∨ ∃ r, a = .ok r ∧
      (400 ≤ r.status ∧ f = .status r.status ∨
        c.Looked r ∧ ∃ fault, Payload.read r.body = .error fault ∧ f = fault.failure) := by
  have hcomes := comes_fetch c a
  generalize (c.fetch a).1 = d at hcomes
  generalize (c.fetch a).2.1 = o at hcomes ⊢
  cases hcomes with
  | transport g => simp
  | @failure r h =>
    have hno : ¬ c.Looked r := fun hl => by have := hl.status; omega
    simp [h, hno, eq_comm]
  | @unchanged r entry h hentry =>
    have hno : ¬ c.Looked r := fun hl => by simp [hl.asked h] at hentry
    simp [h, hno]
  | @unreadable r fault hl hbody =>
    have hst : ¬ 400 ≤ r.status := Int.not_le.mpr hl.status
    simp [hst, hl, hbody, eq_comm]
  | @untagged r s hl hbody =>
    have hst : ¬ 400 ≤ r.status := Int.not_le.mpr hl.status
    simp [hst, hbody]
  | @tagged r s tag hl hbody =>
    have hst : ¬ 400 ≤ r.status := Int.not_le.mpr hl.status
    simp [hst, hbody]

theorem fetch_of_error {c : Client} {a : Answer} {f : Failure} (h : (c.fetch a).2.1 = .error f) :
    (c.fetch a).1 = c := by
  have hcomes := comes_fetch c a
  rw [h] at hcomes
  generalize (c.fetch a).1 = d at hcomes ⊢
  cases hcomes <;> rfl

theorem fetch_unchanged {c : Client} {entry : CacheEntry} {r : Reply} (hc : c.cached = some entry)
    (hr : r.status = 304) : c.fetch (.ok r) = (c, .ok entry.snapshot, [c.unchangedLog entry]) := by
  have hst : Failure.ofStatus? 304 = none := by decide
  simp [fetch, receive, hc, hr, hst]

/-- The headers of a client's own, and the tag of the cached data set if there is one. -/
theorem request_after {config : Config} {c : Client} (h : ofConfig config = .ok c)
    (answers : List Answer) : (c.after answers).request =
      { url := requestUrl config
        headers := Headers.base config ++ [("Accept-Encoding", "gzip")] ++
          Headers.optional "If-None-Match" ((c.after answers).cached.map (·.etag))
        timeouts := c.timeouts } := by
  rw [after_constant]
  unfold ofConfig at h
  cases ht : Timeouts.ofSettings config.http with
  | error f => simp [ht, Except.map] at h
  | ok t =>
    obtain rfl : _ = c := by simpa [ht, Except.map] using h
    cases hd : (Client.after _ answers).cached <;> simp [request, Headers.optional]

/-- An empty body is none that can be read. -/
theorem read_nil : Payload.read [] = .error (.text [] ⟨.value, []⟩) := rfl

theorem failure_read_nil : (Payload.Fault.text [] ⟨.value, []⟩).failure =
    .payload "polling response was not valid JSON: Expecting value: line 1 column 1 (char 0)" := by
  decide +kernel

/-- Whatever the answers to the requests are: the cached data set is that of the latest answer that
brought one with a tag and was looked at, and nothing is cached if there was none. Each request goes
to the same address with the same headers, and asks about the cached tag exactly if there is one.
"Unchanged" gives the cached data set, whatever the body; a request that fails leaves the cache
alone, and it fails exactly if there is no response, the response is an error, or its body is looked
at and cannot be read. -/
theorem recalls_latest {config : Config} {c : Client} (h : ofConfig config = .ok c)
    (answers : List Answer) :
    (∀ s tag, (∃ number, (c.after answers).cached = some ⟨s, tag, number⟩) ↔
      ∃ i, c.BringsLast answers i s tag) ∧
    ((c.after answers).cached = none ↔ ∀ i s tag, ¬ c.Brings answers i s tag) ∧
    (c.after answers).request =
      { url := requestUrl config
        headers := Headers.base config ++ [("Accept-Encoding", "gzip")] ++
          Headers.optional "If-None-Match" ((c.after answers).cached.map (·.etag))
        timeouts := c.timeouts } ∧
    (∀ entry r, (c.after answers).cached = some entry → r.status = 304 →
      ((c.after answers).fetch (.ok r)).2.1 = .ok entry.snapshot) ∧
    (∀ a f, ((c.after answers).fetch a).2.1 = .error f →
      c.after (answers ++ [a]) = c.after answers) ∧
    (∀ a f, ((c.after answers).fetch a).2.1 = .error f ↔ a = .error f ∨ ∃ r, a = .ok r ∧
      (400 ≤ r.status ∧ f = .status r.status ∨ (c.after answers).Looked r ∧
        ∃ fault, Payload.read r.body = .error fault ∧ f = fault.failure)) ∧
    ∀ r, (c.after answers).cached = none → r.status = 304 → r.body = [] →
      ((c.after answers).fetch (.ok r)).2.1 = .error (.payload
        "polling response was not valid JSON: Expecting value: line 1 column 1 (char 0)") := by
  have hnew : c.cached = none := (plain_of_ofConfig h).2
  obtain ⟨hsome, hnone⟩ := cached_after hnew answers
  refine ⟨fun s tag => ⟨?_, ?_⟩, ⟨hnone, ?_⟩, request_after h answers, ?_, ?_,
    fetch_error_iff _, ?_⟩
  · rintro ⟨number, hd⟩
    exact hsome _ hd
  · rintro ⟨i, hi⟩
    cases hd : (c.after answers).cached with
    | none => exact absurd hi.1 (hnone hd i s tag)
    | some entry =>
      obtain ⟨j, hj⟩ := hsome entry hd
      obtain ⟨rfl, rfl⟩ := hi.unique hj
      exact ⟨entry.number, rfl⟩
  · intro hno
    cases hd : (c.after answers).cached with
    | none => rfl
    | some entry =>
      obtain ⟨i, hi⟩ := hsome entry hd
      exact absurd hi.1 (hno i _ _)
  · intro entry r hd hr
    rw [fetch_unchanged hd hr]
  · intro a f hf
    rw [after_concat, fetch_of_error hf]
  · intro r hd hr hb
    have hlook : (c.after answers).Looked r := ⟨by omega, fun _ => hd⟩
    exact (fetch_error_iff _ _ _).mpr
      (.inr ⟨r, rfl, .inr ⟨hlook, _, hb ▸ read_nil, failure_read_nil.symm⟩⟩)

/-- The first answer says "unchanged" before anything is cached, the second one has an empty tag,
and none of the others brings a data set with a tag that is looked at. -/
def mixed : List Answer :=
  [.ok ⟨304, [("ETag", "v0")], [0x7b, 0x7d]⟩, .ok ⟨200, [("etag", "")], [0x7b, 0x7d]⟩,
    .ok ⟨304, [("ETag", "v2")], [0x7b, 0x7d]⟩, .ok ⟨503, [("ETag", "v3")], [0x7b, 0x7d]⟩,
    .ok ⟨200, [("ETag", "v4")], [0x7b]⟩, .ok ⟨200, [], [0x7b, 0x7d]⟩, .error (.other .os "reset")]

/-- The empty tag is still asked about. -/
theorem recalls_latest_mixed : ∃ c, ofConfig (Config.make { sdkKey := some "key" }).1 = .ok c ∧
    (∃ i, c.BringsLast mixed i .empty "") ∧ (c.after mixed).request.headers =
      [("Authorization", "key"), ("User-Agent", "FlagSyncPython/1.0.0"),
        ("Accept-Encoding", "gzip"), ("If-None-Match", "")] := by
  obtain ⟨c, hc, hcached⟩ : ∃ c, ofConfig (Config.make { sdkKey := some "key" }).1 = .ok c ∧
      (c.after mixed).cached = some ⟨.empty, "", 2⟩ := ⟨_, rfl, rfl⟩
  obtain ⟨hlatest, -, hrequest, -⟩ := recalls_latest hc mixed
  refine ⟨c, hc, (hlatest .empty "").mp ⟨2, hcached⟩, ?_⟩
  rw [hrequest, hcached]
  rfl

end FlagPoll.Client
