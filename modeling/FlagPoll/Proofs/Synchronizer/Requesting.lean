import FlagPoll.Proofs.Config
import FlagPoll.Proofs.Recall
import FlagPoll.Proofs.RequestUrl
import FlagPoll.Proofs.Synchronizer.Supply

/-!
# FlagPoll.Proofs.Synchronizer.Requesting

The requests of a synchronizer that fetches with a client.

* `Posts`         — what a step does for the requester, and what it requests.
* `client_of_run` — a synchronizer that begins with a client has one throughout, and all its
  requests go to the address of this one.
* `filter_key_survives` — the addresses of requests convey the settings, whatever stands in them.
-/

namespace FlagPoll.Synchronizer

variable {τ κ : Type}

theorem Event.request?_of_not_isTransfer {e : Event τ κ} (h : e.isTransfer = false) :
    e.request? = none := by
  cases e with
  | fetch clock q => cases h
  | _ => rfl

theorem requests_of_not_isTransfer {es : List (Event τ κ)} (h : ∀ e ∈ es, e.isTransfer = false)
    (j : List (Event τ κ)) : requests (es ++ j) = requests j := by
  have hnone : es.filterMap Event.request? = [] :=
    List.filterMap_eq_nil_iff.mpr fun e he => Event.request?_of_not_isTransfer (h e he)
  rw [requests, List.filterMap_append, hnone, List.nil_append, requests]

theorem requests_logged (log : List Log.Record) (j : List (Event τ κ)) :
    requests (log.map .logged ++ j) = requests j :=
  requests_of_not_isTransfer (by simp [Event.isTransfer]) j

namespace Machine

variable {w : World τ κ} {m n : Machine τ κ}

theorem Keeps.requests_eq (h : Keeps m n) : requests n.journal = requests m.journal := by
  obtain ⟨es, hj, hes, -⟩ := h.journal
  rw [hj, requests_of_not_isTransfer hes]

/-! ## What a step does for the requester -/

/-- What a step does for the requester, and what it requests. -/
inductive Posts (m n : Machine τ κ) : Prop where
  | keep (hr : n.requester = m.requester) (hq : requests n.journal = requests m.journal)
  | send (hr : n.requester = m.requester)
      (hq : requests n.journal = m.request? :: requests m.journal)
  | receive (d : Delivery) (asked : Option CacheEntry)
      (hr : n.requester = (m.requester.receive asked d).1)
      (hq : requests n.journal = requests m.journal)
  | clear (number : Nat) (kind : Kind) (key : CodePoints)
      (hr : n.requester = m.requester.clearItem number kind key)
      (hq : requests n.journal = requests m.journal)

section Posts

variable [Time τ] {d : Delivery} {asked : Option CacheEntry} {rest : List (Task τ κ)}

theorem posts_poll (own : Option (Response τ (Op τ κ))) :
    Posts m (poll w { m with stack := rest } own) := by
  unfold poll
  split
  · exact .keep rfl rfl
  · cases own with
    | none => exact .send rfl rfl
    | some r => exact .send rfl rfl

/-- A fetch that returns leaves the requester as it is, or as the requester says. It requests
nothing. -/
theorem requester_of_receive (hm : m.stack = .receive d asked :: rest) :
    ((receive w { m with stack := rest } d asked).requester = m.requester ∨
      (receive w { m with stack := rest } d asked).requester =
        (m.requester.receive asked d).1) ∧
    requests (receive w { m with stack := rest } d asked).journal = requests m.journal := by
  have hsupplies : m.supplies = .receive d asked :: rest.filter Task.isSupply := by
    rw [supplies, hm, List.filter_cons_of_pos rfl]
  cases move_receive (w := w) d asked hm with
  | keep hk => exact ⟨.inl hk.requester, hk.requests_eq⟩
  | fetch hs => cases hsupplies.symm.trans hs
  | write s cached script below hs => cases hsupplies.symm.trans hs
  | receive d' asked' below x log hs hr hst hn hj hc hk =>
    obtain ⟨htop, -⟩ := List.cons.inj (hsupplies.symm.trans hs)
    obtain ⟨rfl, rfl⟩ := Task.receive.inj htop
    refine ⟨.inr (hk.requester.trans hr), ?_⟩
    rw [hk.requests_eq, hj]
    exact requests_logged log m.journal

theorem posts_receive (hm : m.stack = .receive d asked :: rest) :
    Posts m (receive w { m with stack := rest } d asked) := by
  obtain ⟨hkeep | hreceive, hrequests⟩ := requester_of_receive (w := w) hm
  · exact .keep hkeep hrequests
  · exact .receive d asked hreceive hrequests

omit [Time τ] in
theorem posts_write (s : Snapshot) (cached : Option Nat) (script : WriteScript (Op τ κ)) :
    Posts m (write { m with stack := rest } s cached script) := by
  unfold write
  split
  · exact .keep rfl rfl
  · exact .keep (keeps_logAll _).requester (keeps_logAll _).requests_eq

omit [Time τ] in
/-- An item that is handed out to be emptied may be one that the client has cached. -/
theorem posts_clear (kind : Kind) (key : CodePoints) :
    Posts m (get { m with stack := rest } kind key .clear) := by
  have hrequester : (get { m with stack := rest } kind key .clear).requester =
      (clearShared { m with stack := rest } kind key).requester := (keeps_logAll _).requester
  have hrequests : requests (get { m with stack := rest } kind key .clear).journal =
      requests m.journal :=
    (keeps_logAll _).requests_eq.trans (congrArg requests (clearShared_journal _ kind key))
  rw [clearShared] at hrequester
  split at hrequester
  · exact .keep hrequester hrequests
  · exact .clear _ kind key hrequester hrequests

theorem posts_of_step [BEq κ] (hs : m.step w = some n) : Posts m n := by
  obtain ⟨task, rest, hm, rfl⟩ := step_eq_some.mp hs
  cases hsup : task.isSupply with
  | true =>
    cases task with
    | receive d asked => exact posts_receive hm
    | write s cached script => exact posts_write s cached script
    | _ => cases hsup
  | false =>
    by_cases hpoll : ∃ own, task = .poll own
    · obtain ⟨own, rfl⟩ := hpoll
      exact posts_poll own
    · by_cases hclear : ∃ kind key, task = .perform (.get kind key .clear)
      · obtain ⟨kind, key, rfl⟩ := hclear
        exact posts_clear kind key
      · have hkeeps := keeps_execute { m with stack := rest } w hsup
          (fun own h => hpoll ⟨own, h⟩) fun kind key h => hclear ⟨kind, key, h⟩
        exact .keep hkeeps.requester hkeeps.requests_eq

end Posts

/-! ## The client of a synchronizer -/

section Client

variable {c : Client}

/-- Responses and emptied items change the cache of a client, and nothing else about it. -/
theorem client_of_posts (h : Posts m n) (hc : m.requester = .client c) :
    ∃ c', n.requester = .client c' ∧ c'.url = c.url := by
  cases h with
  | keep hr => exact ⟨c, hr.trans hc, rfl⟩
  | send hr => exact ⟨c, hr.trans hc, rfl⟩
  | receive d asked hr =>
    rw [hc] at hr
    cases d with
    | fetched outcome => exact ⟨c, hr, rfl⟩
    | http a =>
      refine ⟨(c.receive asked a).1, hr, ?_⟩
      rw [c.receive_constant]
  | clear number kind key hr =>
    rw [hc] at hr
    exact ⟨_, hr, rfl⟩

/-- There is a client at any time of a run, and the requests so far have gone to its address. -/
theorem client_of_run [Time τ] [BEq κ] {due free : Op τ κ → Prop} {ms : List (Machine τ κ)}
    (h : Run w (.client c) due free (m :: ms)) :
    (∃ c', m.requester = .client c' ∧ c'.url = c.url) ∧
      ∀ q ∈ requests m.journal, ∃ request, q = some request ∧ request.url = c.url := by
  induction h using Run.head_induction with
  | create => exact ⟨⟨c, rfl, rfl⟩, fun q hq => nomatch hq⟩
  | timeline calls hd => exact ⟨⟨c, rfl, rfl⟩, fun q hq => nomatch hq⟩
  | call x xs op h hs ho ih => exact ih
  | step x y xs h hs ih =>
    obtain ⟨⟨c', hc', hurl⟩, hsent⟩ := ih
    have hposts := posts_of_step hs
    refine ⟨?_, ?_⟩
    · obtain ⟨c'', hc'', hurl'⟩ := client_of_posts hposts hc'
      exact ⟨c'', hc'', hurl'.trans hurl⟩
    · cases hposts with
      | send hr hq =>
        rw [hq]
        refine List.forall_mem_cons.mpr ⟨⟨c'.request, ?_, hurl⟩, hsent⟩
        simp only [request?, hc']
      | keep hr hq | receive d asked hr hq | clear number kind key hr hq => rwa [hq]

end Client

/-- Whatever the base and the key of a filter are: every request goes to the base without the
slashes at its end, followed by the path of the data set and, if there is a key, by a parameter
that it is read back from. Other keys make other addresses, and nothing in a key begins another
parameter, a fragment or a segment of the path. -/
theorem filter_key_survives (a : Config.Arguments) {c : Client}
    (hc : Client.ofConfig (Config.make a).1 = .ok c) :
    ∃ base slashes, a.baseUri.toList = base ++ slashes ∧ (∀ s ∈ slashes, s = '/') ∧
      base.getLast? ≠ some '/' ∧
      (∀ answers : List Answer,
        RequestUrl.Conveys base a.filterKey (c.after answers).request.url.toList) ∧
      (∀ {τ κ : Type} [Time τ] [BEq κ] (w : World τ κ) (due free : Op τ κ → Prop)
        (m : Machine τ κ) (ms : List (Machine τ κ)), Run w (.client c) due free (m :: ms) →
        ∀ q ∈ requests m.journal, ∃ request, q = some request ∧
          RequestUrl.Conveys base a.filterKey request.url.toList) ∧
      ∀ (a' : Config.Arguments) (c' : Client), Client.ofConfig (Config.make a').1 = .ok c' →
        a'.filterKey ≠ a.filterKey → c'.request.url ≠ c.request.url := by
  have url_eq {config : Config} {d : Client} (hd : Client.ofConfig config = .ok d) :
      d.url = requestUrl config := congrArg Request.url (Client.request_after hd [])
  obtain ⟨slashes, hparts, hslashes, hlast⟩ := Config.exists_slashes a.baseUri
  have hconveys := (RequestUrl.spells_requestUrl (Config.make a).1).conveys
  refine ⟨_, slashes, hparts, hslashes, hlast, ?_, ?_, ?_⟩
  · intro answers
    rw [Client.request_after hc]
    exact hconveys
  · intro τ κ _ _ w due free m ms h q hq
    obtain ⟨request, hq, hurl⟩ := (client_of_run h).2 q hq
    refine ⟨request, hq, ?_⟩
    rw [hurl, url_eq hc]
    exact hconveys
  · intro a' c' hc' hne hurl
    have hsame : requestUrl (Config.make a').1 = requestUrl (Config.make a).1 :=
      (url_eq hc').symm.trans (hurl.trans (url_eq hc))
    have hspells := RequestUrl.spells_requestUrl (Config.make a').1
    rw [hsame] at hspells
    exact hne (hconveys.unique hspells).2

/-- Blanks, separators, line ends, and a letter of two octets. -/
def awkward : Config.Arguments where
  sdkKey := some "key"
  baseUri := "http://localhost//"
  filterKey := some "a b&c=é/#?%+\r\n"

def inquiring : Client where
  url := requestUrl (Config.make awkward).1
  headers := Headers.base (Config.make awkward).1 ++ [("Accept-Encoding", "gzip")]
  timeouts := ⟨some 10, some 15⟩
  cached := none

def inquired : List (Machine Number Nat) :=
  session (World.still fun _ => .http (.ok ⟨200, [], [0x7b, 0x7d]⟩)) (.client inquiring) 40
    [.start, .poll none]

theorem filter_key_survives_awkward : ∃ m ms request,
    inquired = m :: ms ∧ some request ∈ requests m.journal ∧
      RequestUrl.Conveys "http://localhost".toList awkward.filterKey request.url.toList ∧
      request.url =
        "http://localhost/sdk/latest-all?filter=a+b%26c%3D%C3%A9%2F%23%3F%25%2B%0D%0A" := by
  have hc : Client.ofConfig (Config.make awkward).1 = .ok inquiring := rfl
  have hbase : (Config.make awkward).1.baseUri.toList = "http://localhost".toList := by decide
  obtain ⟨m, hm, hsent⟩ := Option.map_eq_some_iff.mp (show
    inquired.head?.map (fun m => requests m.journal) = some [some inquiring.request] by
      decide +kernel)
  obtain ⟨ms, hms⟩ := List.head?_eq_some_iff.mp hm
  have hmem : some inquiring.request ∈ requests m.journal := by
    rw [hsent]
    exact List.mem_singleton_self _
  have hrun : Run _ (.client inquiring) (fun _ => False) (fun _ => True) inquired :=
    run_session _ _ _ _ 40 _ fun _ _ => trivial
  rw [hms] at hrun
  obtain ⟨base, slashes, -, -, -, -, hconveys, -⟩ := filter_key_survives awkward hc
  obtain ⟨request, hrequest, hkey⟩ := hconveys _ _ _ m ms hrun _ hmem
  obtain rfl := Option.some.inj hrequest
  have hspells := RequestUrl.spells_requestUrl (Config.make awkward).1
  obtain ⟨hsame, -⟩ := hkey.unique hspells
  rw [← hsame, hbase] at hkey
  exact ⟨m, ms, inquiring.request, hms, hmem, hkey, by decide +kernel⟩

end Machine
end FlagPoll.Synchronizer
