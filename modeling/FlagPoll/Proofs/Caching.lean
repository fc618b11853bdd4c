import FlagPoll.Client
import FlagPoll.Proofs.Headers
import Mathlib.Data.List.Basic

/-!
# FlagPoll.Proofs.Caching

A client with a cache against a service that keeps to the rules of tags.

* `Service`          — the data set that is held at each request, and its tag.
* `MayAnswer`        — the answers that the service may give.
* `InFull`           — the answer that it would give to someone without a cache.
* `Gives`            — an outcome shows the data set that is held, as the answer in full does.
* `Reply.IsRead`      — a response whose body is looked at.
* `receive_gives`    — so does every outcome of a client, and its cache stays true.
-/

namespace FlagPoll

/-- A service that holds one data set at each request. Equal tags stand for equal data sets. -/
structure Service (δ : Type) where
  /-- The data set that a snapshot shows, whatever else there is to its form. -/
  view : Snapshot → δ
  /-- The data set that is held at the n-th request. -/
  held : Nat → δ
  /-- Its tag, if it has one. -/
  tag? : Nat → Option String
  tag_determines : ∀ {n m : Nat} {tag : String}, tag? n = some tag → tag? m = some tag →
    held n = held m

def Request.tag? (q : Request) : Option String := q.headers.lookup "If-None-Match"

namespace Service

variable {δ : Type} (svc : Service δ)

/-- What the service may answer to the n-th request, which asked about a tag or about none. -/
inductive MayAnswer (n : Nat) (asked : Option String) : Answer → Prop where
  | transport (f : Failure) : MayAnswer n asked (.error f)
  | failure {r : Reply} (h : 400 ≤ r.status) : MayAnswer n asked (.ok r)
  | notModified {r : Reply} {tag : String} (h : r.status = 304) (ht : svc.tag? n = some tag)
      (ha : asked = some tag) : MayAnswer n asked (.ok r)
  | full {r : Reply} {s : Snapshot} (h : r.status = 200) (hb : Payload.read r.body = .ok s)
      (hs : svc.view s = svc.held n) (ht : r.etag? = none ∨ r.etag? = svc.tag? n) :
      MayAnswer n asked (.ok r)
  | unreadable {r : Reply} {f : Payload.Fault} (h : r.status = 200)
      (hb : Payload.read r.body = .error f) : MayAnswer n asked (.ok r)

/-- What the service answers to the n-th request if it answers in full: the data set that it holds
in place of "unchanged", and everything else as it is. -/
inductive InFull (n : Nat) : Answer → Answer → Prop where
  | transport (f : Failure) : InFull n (.error f) (.error f)
  | same {r : Reply} (h : r.status ≠ 304) : InFull n (.ok r) (.ok r)
  | notModified {r full : Reply} {s : Snapshot} (h : r.status = 304) (hf : full.status = 200)
      (hb : Payload.read full.body = .ok s) (hs : svc.view s = svc.held n) :
      InFull n (.ok r) (.ok full)

def Agree : Except Failure Snapshot → Except Failure Snapshot → Prop
  | .ok s, .ok t => svc.view s = svc.view t
  | .error f, .error g => f = g
  | _, _ => False

/-- The outcome of a request shows the data set that is held if it shows one, and it is what
someone without a cache gets from the answer in full. -/
def Gives (n : Nat) (a : Answer) (o : Except Failure Snapshot) : Prop :=
  (∀ s, o = .ok s → svc.view s = svc.held n) ∧
    ∀ full, svc.InFull n a full → svc.Agree o full.outcome

/-- What is cached is a data set that the service has held, with the tag that it had. -/
def Knows (cached : Option CacheEntry) : Prop :=
  ∀ entry, cached = some entry →
    ∃ n, svc.tag? n = some entry.etag ∧ svc.view entry.snapshot = svc.held n

variable {svc} {n : Nat} {a : Answer} {r : Reply} {s : Snapshot}

theorem agree_refl (o : Except Failure Snapshot) : svc.Agree o o := by
  cases o <;> rfl

/-- An answer that means to the client what it means to everyone. -/
theorem gives_outcome {o : Except Failure Snapshot} (ho : a.outcome = o)
    (hs : ∀ s, o = .ok s → svc.view s = svc.held n) (ha : ∀ r, a = .ok r → r.status ≠ 304) :
    svc.Gives n a o := by
  refine ⟨hs, ?_⟩
  intro full hf
  cases hf with
  | transport | same => rw [ho]; exact agree_refl o
  | notModified h => exact absurd h (ha _ rfl)

theorem gives_cached (hr : r.status = 304) (hs : svc.view s = svc.held n) :
    svc.Gives n (.ok r) (.ok s) := by
  refine ⟨?_, ?_⟩
  · intro t ht
    cases ht
    exact hs
  · intro full hf
    cases hf with
    | same h => exact absurd hr h
    | notModified h hf hb ht =>
      have hst : Failure.ofStatus? 200 = none := by decide
      simp only [Agree, Answer.outcome, hf, hst, hb, Except.mapError]
      rw [hs, ht]

end Service

theorem outcome_of_status {r : Reply} (h : r.status = 200) :
    Answer.outcome (.ok r) = (Payload.read r.body).mapError (·.failure) := by
  have hst : Failure.ofStatus? 200 = none := by decide
  simp [Answer.outcome, h, hst]

namespace Headers

theorem lookup_base (config : Config) : (base config).lookup "If-None-Match" = none := by
  have htags : ("If-None-Match" == "X-FlagSync-Tags") = false := rfl
  have hwrapper : ("If-None-Match" == "X-FlagSync-Wrapper") = false := rfl
  simp only [base, List.lookup_append, lookup_optional htags, lookup_optional hwrapper,
    Option.or_none]
  rfl

end Headers

/-- A response is read unless it is an error or says "unchanged" about the data set that its
request asked about. -/
structure Reply.IsRead (r : Reply) (asked : Option CacheEntry) : Prop where
  status : r.status < 400
  asked : r.status = 304 → asked = none

theorem Reply.IsRead.of_ok {r : Reply} {asked : Option CacheEntry} (h : r.status = 200) :
    r.IsRead asked where
  status := by omega
  asked h304 := by omega

namespace Client

/-- No header of the client's own asks about a tag. -/
def Plain (c : Client) : Prop := c.headers.lookup "If-None-Match" = none

theorem plain_of_ofConfig {config : Config} {c : Client} (h : ofConfig config = .ok c) :
    c.Plain ∧ c.cached = none := by
  unfold ofConfig at h
  cases ht : Timeouts.ofSettings config.http with
  | error f => simp [ht, Except.map] at h
  | ok t =>
    obtain rfl : _ = c := by simpa [ht, Except.map] using h
    refine ⟨?_, rfl⟩
    rw [Plain, List.lookup_append, Headers.lookup_base]
    rfl

theorem tag?_request {c : Client} (h : c.Plain) : c.request.tag? = c.cached.map (·.etag) := by
  unfold Plain at h
  cases hc : c.cached <;> simp [request, Request.tag?, hc, h, List.lookup_append]

theorem accept_headers (c : Client) (r : Reply) : (c.accept r).1.headers = c.headers := by
  unfold accept; split <;> rfl

theorem accept_outcome (c : Client) (r : Reply) :
    (c.accept r).2.1 = (Payload.read r.body).mapError (·.failure) := by
  unfold accept; split <;> simp_all [Except.mapError]

theorem accept_error {c : Client} {r : Reply} {f : Payload.Fault}
    (h : Payload.read r.body = .error f) : (c.accept r).1 = c := by
  simp [accept, h]

variable {δ : Type} {svc : Service δ} {n : Nat} {a : Answer} {asked : Option CacheEntry}

/-- A tag that comes with a data set is remembered with that one. -/
theorem knows_accept {c : Client} {r : Reply} {s : Snapshot} (hc : svc.Knows c.cached)
    (hb : Payload.read r.body = .ok s) (hs : svc.view s = svc.held n)
    (ht : r.etag? = none ∨ r.etag? = svc.tag? n) : svc.Knows (c.accept r).1.cached := by
  simp only [accept, hb]
  cases he : r.etag? with
  | none => exact hc
  | some tag =>
    have hn : svc.tag? n = some tag := by simpa [he, eq_comm] using ht
    intro entry hentry
    obtain rfl := Option.some.inj hentry
    exact ⟨n, hn, hs⟩

/-- An answer that is read as it comes. -/
theorem receive_accept {c : Client} {r : Reply} (h : r.IsRead asked) :
    c.receive asked (.ok r) = c.accept r := by
  have hst : Failure.ofStatus? r.status = none := by
    rw [Failure.ofStatus?, if_neg (Int.not_le.mpr h.status)]
  simp only [receive, hst]
  cases asked with
  | none => rfl
  | some entry =>
    have hne : r.status ≠ 304 := fun h304 => nomatch h.asked h304
    exact if_neg hne

/-- The outcome of a request is right, and so is the cache after it. -/
theorem receive_gives {c : Client} (hc : svc.Knows c.cached) (hk : svc.Knows asked)
    (ha : svc.MayAnswer n (asked.map (·.etag)) a) :
    (c.receive asked a).1.headers = c.headers ∧ svc.Knows (c.receive asked a).1.cached ∧
      svc.Gives n a (c.receive asked a).2.1 := by
  cases ha with
  | transport f =>
    exact ⟨rfl, hc, Service.gives_outcome rfl (fun _ h => by cases h) (fun _ h => by cases h)⟩
  | @failure r h =>
    have hst : Failure.ofStatus? r.status = some (.status r.status) := by
      simp [Failure.ofStatus?, h]
    have hne : r.status ≠ 304 := by omega
    have ho : Answer.outcome (.ok r) = .error (.status r.status) := by simp [Answer.outcome, hst]
    simp only [receive, hst]
    exact ⟨trivial, hc, Service.gives_outcome ho (fun _ h => by cases h)
      (fun _ h => by cases h; exact hne)⟩
  | @notModified r tag h ht ha =>
    obtain ⟨entry, rfl, hetag⟩ := Option.map_eq_some_iff.mp ha
    obtain ⟨i, hi, hview⟩ := hk entry rfl
    have hst : Failure.ofStatus? 304 = none := by decide
    have hheld : svc.held i = svc.held n := svc.tag_determines (hetag ▸ hi) ht
    simp only [receive, h, hst, if_true]
    exact ⟨trivial, hc, Service.gives_cached h (hview.trans hheld)⟩
  | @full r s h hb hs ht =>
    have ho : Answer.outcome (.ok r) = .ok s := by simp [outcome_of_status h, hb, Except.mapError]
    rw [receive_accept (.of_ok h), accept_outcome, hb]
    refine ⟨accept_headers c r, knows_accept hc hb hs ht, ?_⟩
    refine Service.gives_outcome ho ?_ ?_
    · intro t ht
      cases ht
      exact hs
    · intro _ hr
      cases hr
      omega
  | @unreadable r f h hb =>
    have ho : Answer.outcome (.ok r) = .error f.failure := by
      simp [outcome_of_status h, hb, Except.mapError]
    rw [receive_accept (.of_ok h), accept_outcome, hb, accept_error hb]
    refine ⟨rfl, hc, Service.gives_outcome ho (fun _ ht => by cases ht) ?_⟩
    intro _ hr
    cases hr
    omega

end Client
end FlagPoll
