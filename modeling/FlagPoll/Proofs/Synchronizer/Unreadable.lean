import FlagPoll.Proofs.Body
import FlagPoll.Proofs.Synchronizer.Failing
import FlagPoll.Proofs.Synchronizer.Requesting

/-!
# FlagPoll.Proofs.Synchronizer.Unreadable

Responses over HTTP whose bodies cannot be read.

* `Garbles`  — a fetch returns with a response that is read, and its body is no snapshot.
* `Weathers` — the status tells what is wrong with the body, and nothing else moves.
* `unreadable_bodies_pass` — what is made of each body, and that polling goes on after any of them.
* `discarded_body_leaves_no_error` — a body that comes after `close` leaves nothing behind.
-/

namespace FlagPoll.Synchronizer.Machine

variable {τ κ : Type} [Time τ] [BEq κ] {w : World τ κ} {m n : Machine τ κ}

/-- A fetch returns with a response that is read, and its body is no snapshot. -/
structure Garbles (w : World τ κ) (m : Machine τ κ) (reply : Reply) (f : Payload.Fault)
    (rest : List (Task τ κ)) (n : Machine τ κ) : Prop where
  returns : ∃ asked, m.stack = .receive (.http (.ok reply)) asked :: rest ∧ reply.IsRead asked
  shallow : Payload.Shallow Json.Reader.mostNested reply.body
  body : Payload.read reply.body = .error f
  step : m.step w = some n

/-- The status tells what is wrong with a body. The synchronizer stays where it is, with what it has
cached, and so it does until the poll ends but for the calls that the callees make. -/
structure Weathers (w : World τ κ) (m : Machine τ κ) (f : Payload.Fault) (rest : List (Task τ κ))
    (n : Machine τ κ) : Prop extends Endures w m rest n where
  error : n.sync.lastError = some ⟨.invalidData, 0, m.wallClock w, some f.message⟩
  requester : n.requester = m.requester
  lasts : ∀ x y, Within w rest.length n x → rest.length < x.stack.length → x.step w = some y →
    InCall rest.length x ∨ y.sync.lastError = x.sync.lastError ∧ y.requester = x.requester

section Garbles

variable {c : Client} {due free : Op τ κ → Prop} {ms : List (Machine τ κ)} {reply : Reply}
  {f : Payload.Fault} {rest : List (Task τ κ)}

theorem fails_of_garbles (h : Run w (.client c) due free (m :: ms))
    (hn : Garbles w m reply f rest n) : Fails w m (.payload f.message) rest n := by
  obtain ⟨asked, hm, hread⟩ := hn.returns
  obtain ⟨⟨c', hc', -⟩, -⟩ := client_of_run h
  have hf : f.failure = .payload f.message := by
    rcases (Payload.judged_of_shallow hn.shallow).outcome with ⟨s, hs⟩ | ⟨g, hg, hp⟩
    · exact nomatch hs.symm.trans hn.body
    · obtain rfl := Except.error.inj (hg.symm.trans hn.body)
      exact hp
  refine ⟨⟨_, asked, hm, ?_⟩, hn.step⟩
  rw [hc']
  change (c'.receive asked (.ok reply)).2.1 = _
  rw [c'.receive_of_isRead hread, hn.body, ← hf]
  rfl

theorem not_endsPolling_payload (message : String) : ¬ (Failure.payload message).EndsPolling := by
  rintro ⟨code, h, -⟩
  cases h

theorem requester_of_fails {f : Failure} (hn : Fails w m f rest n) :
    n.requester = m.requester := by
  obtain ⟨⟨d, asked, hm, ho⟩, hs⟩ := hn
  obtain rfl := eq_execute hm hs
  obtain ⟨hr | hr, -⟩ := requester_of_receive (w := w) hm
  · exact hr
  · rw [Requester.receive_of_error ho] at hr
    exact hr

/-- What is left of a poll after a failure has nothing to do with the requester. -/
theorem requester_of_telling {t : Task τ κ} (ht : t.isTelling = true) :
    (m.execute w t).requester = m.requester := by
  refine (keeps_execute m w ?_ ?_ ?_).requester
  · cases t with
    | receive d asked | write s cached script => cases ht
    | _ => rfl
  · rintro own rfl
    cases ht
  · rintro kind key rfl
    cases ht

theorem weathers (h : Run w (.client c) due free (m :: ms)) (hn : Garbles w m reply f rest n)
    (ha : m.sync.state.isActive = true) : Weathers w m f rest n := by
  have hfails := fails_of_garbles h hn
  have hpasses := not_endsPolling_payload f.message
  obtain ⟨hendures, htells⟩ := endures hfails ha hpasses
  refine ⟨hendures, htells.error, requester_of_fails hfails, fun x y hx hd hy => ?_⟩
  refine (telling_of_fails hfails ha hpasses hx hd hy).imp_right ?_
  rintro ⟨task, below, -, hown, rfl⟩
  obtain ⟨⟨k, hsync⟩, -⟩ := telling_keeps (w := w) (m := { x with stack := below }) hown
  exact ⟨by rw [hsync], requester_of_telling hown⟩

end Garbles

/-- Every body is read as a snapshot or refused as an invalid payload, and the message tells whether
it is no valid JSON or what is wrong with its shape. A synchronizer that fetches with a client shows
this in its status while polls have an effect, stays as it is otherwise, and begins the next fetch
by the schedule; where polls have no effect the body has none either. -/
theorem unreadable_bodies_pass :
    (∀ (room : Nat) (body : List UInt8),
      (Payload.Shallow room body → Payload.Judged room body) ∧
        (body.length ≤ room → Payload.Shallow room body)) ∧
    (∀ (c : Client) (asked : Option CacheEntry) (reply : Reply), reply.IsRead asked →
      (c.receive asked (.ok reply)).2.1 = (Payload.read reply.body).mapError (·.failure)) ∧
    (∀ {τ : Type} [Time τ] (w : World τ κ) (c : Client) (due free : Op τ κ → Prop)
      (m n : Machine τ κ) (ms : List (Machine τ κ)) (reply : Reply) (f : Payload.Fault)
      (rest : List (Task τ κ)),
      Run w (.client c) due free (m :: ms) → Garbles w m reply f rest n →
      (m.sync.state.isActive = true → Weathers w m f rest n) ∧
      (m.sync.state.isActive = false →
        n.sync = m.sync.returned ∧ n.store = m.store ∧ n.requester = m.requester)) ∧
    (∀ {τ : Type} [Time τ] (w : World τ κ) (c : Client) (m n x : Machine τ κ)
      (ms xs : List (Machine τ κ)) (reply : Reply) (f : Payload.Fault) (rest : List (Task τ κ)),
      w.Every (fun op => ¬ op.IsPoll) → Garbles w m reply f rest n →
      m.sync.state.isActive = true →
      Run w (.client c) (Op.Every fun op => ¬ op.IsPoll) (fun _ => False) (x :: xs) →
      n :: m :: ms <:+ x :: xs → Exact (x :: xs) → x.stack = [] → Resumes w n x xs) ∧
    ∀ (w : World Rat κ) (c : Client) (m n : Machine Rat κ) (ms : List (Machine Rat κ))
      (reply : Reply) (f : Payload.Fault) (rest : List (Task Rat κ)),
      w.Every (fun op => ¬ op.IsPoll) → Garbles w m reply f rest n →
      m.sync.state.isActive = true →
      Run w (.client c) (Op.Every fun op => ¬ op.IsPoll) (fun _ => False) (m :: ms) →
      0 < w.interval → Returning w n →
      ∃ x xs, Run w (.client c) (Op.Every fun op => ¬ op.IsPoll) (fun _ => False) (x :: xs) ∧
        n :: m :: ms <:+ x :: xs ∧ x.stack = [] ∧ Resumes w n x xs := by
  refine ⟨fun room body => ⟨Payload.judged_of_shallow, Payload.shallow_of_length⟩,
    fun c asked reply => c.receive_of_isRead, ?_, ?_, ?_⟩
  · intro τ _ w c due free m n ms reply f rest h hn
    refine ⟨fun ha => weathers h hn ha, fun ha => ?_⟩
    have hfails := fails_of_garbles h hn
    have ⟨⟨d, asked, hm, ho⟩, hs⟩ := hfails
    obtain ⟨hsync, hstore, -⟩ := inactive_of_failure hm ho hs ha
    exact ⟨hsync, hstore, requester_of_fails hfails⟩
  · intro τ _ w c m n x ms xs reply f rest hw hn ha h hsuf hx hend
    have hrun : Run w (.client c) (Op.Every fun op => ¬ op.IsPoll) (fun _ => False) (m :: ms) :=
      h.of_suffix ((List.suffix_cons n _).trans hsuf)
    obtain ⟨asked, hm, -⟩ := hn.returns
    exact resumes_of_receive hw hm hn.step ((weathers hrun hn ha).unfailed ha) h hsuf hx hend
  · intro w c m n ms reply f rest hw hn ha h hi hret
    obtain ⟨asked, hm, -⟩ := hn.returns
    exact comes_to_resume hi hw h hm hn.step ((weathers h hn ha).unfailed ha) hret

/-- What is wrong with the body with which a fetch is about to return, if its request asked about
no cached data set. -/
def garbling? (m : Machine τ κ) : Option Payload.Fault :=
  match m.stack with
  | .receive (.http (.ok reply)) none :: _ =>
    if reply.status < 400 ∧ reply.body.length ≤ Json.Reader.mostNested then
      match Payload.read reply.body with
      | .error f => some f
      | .ok _ => none
    else none
  | _ => none

theorem garbles_of_garbling {r : Requester} {due : Op τ κ → Prop} {f : Payload.Fault}
    {s : Lifecycle} {l : List (Machine τ κ)} {i : Nat} (h : Run w r due (fun _ => False) l)
    (hl : l[i + 1]?.map (fun m => (m.garbling?, m.sync.state)) = some (some f, s)) :
    ∃ m n ms reply rest, n :: m :: ms = l.drop i ∧ l[i]? = some n ∧
      Run w r due (fun _ => False) (m :: ms) ∧ m.sync.state = s ∧ Garbles w m reply f rest n := by
  obtain ⟨m, hm, hf⟩ := Option.map_eq_some_iff.mp hl
  obtain ⟨n, ms, hdrop, hn, hrun, hstep⟩ := h.drop hm
  simp only [Prod.mk.injEq, garbling?] at hf
  obtain ⟨hf, hstate⟩ := hf
  split at hf
  · rename_i reply rest hstack
    split at hf
    · rename_i hreply
      split at hf
      · rename_i g hg
        obtain rfl := Option.some.inj hf
        exact ⟨m, n, ms, reply, rest, hdrop, hn, hrun, hstate,
          ⟨none, hstack, hreply.1, fun _ => rfl⟩, Payload.shallow_of_length hreply.2, hg, hstep⟩
      · cases hf
    · cases hf
  · cases hf

def plain : Client := ⟨"http://localhost", [], ⟨none, none⟩, none⟩

/-- The text `nope` instead of a data set. -/
def nope : Reply := ⟨200, [], [0x6e, 0x6f, 0x70, 0x65]⟩

def gibberish : Payload.Fault := .text "nope".toList ⟨.value, "nope".toList⟩

/-- Each response is such a text, and takes ten seconds to come. -/
def babbling : World Rat Nat where
  interval := 30
  epoch := 0
  horizon := 100
  response _ := ⟨10, [], .http (.ok nope)⟩
  write _ := ⟨[], none, []⟩
  closing _ := ⟨[], none⟩
  listener _ _ _ := ⟨[], none⟩
  callback _ _ _ := ⟨[], none⟩

theorem run_babbling (start close : Rat) :
    Run babbling (.client plain) (Op.Every fun op => ¬ op.IsPoll) (fun _ => False)
      (watched babbling (.client plain) 80 [(start, .start), (close, .close)]) := by
  refine run_watched _ _ _ _ _ _ ?_
  simp only [List.forall_mem_cons, List.not_mem_nil, false_implies, implies_true, and_true]
  exact ⟨.other (by simp) Op.not_isPoll_start, .other (by simp) Op.not_isPoll_close⟩

/-- The second fetch begins on time. It is under way when the synchronizer is closed. -/
theorem unreadable_bodies_pass_nope : ∃ x xs,
    Run babbling (.client plain) (Op.Every fun op => ¬ op.IsPoll) (fun _ => False) (x :: xs) ∧
      fetchStarts x = [5, 35] ∧
      Payload.Judged Json.Reader.mostNested nope.body ∧
      (plain.receive none (.ok nope)).2.1 = .error (.payload gibberish.message) ∧
      (∃ m n ms reply rest, n :: m :: ms <:+ x :: xs ∧ Garbles babbling m reply gibberish rest n ∧
        Weathers babbling m gibberish rest n ∧ Resumes babbling n x xs ∧
        ∃ y ys, y.stack = [] ∧ n :: m :: ms <:+ y :: ys ∧ Resumes babbling n y ys) ∧
      ∃ m n ms reply rest, n :: m :: ms <:+ x :: xs ∧ Garbles babbling m reply gibberish rest n ∧
        n.sync = m.sync.returned ∧ n.store = m.store ∧ n.requester = m.requester := by
  have hw : babbling.Every fun op => ¬ op.IsPoll := by constructor <;> simp [babbling]
  have hrun := run_babbling 5 40
  obtain ⟨x, hx, hlast⟩ := Option.map_eq_some_iff.mp (show
    (watched babbling (.client plain) 80 [(5, .start), (40, .close)]).head?.map (fun x =>
      (x.stack.isEmpty, fetchStarts x)) = some (true, [5, 35]) by decide +kernel)
  obtain ⟨xs, hxs⟩ := List.head?_eq_some_iff.mp hx
  obtain ⟨hstack, hstarts⟩ : x.stack = [] ∧ fetchStarts x = [5, 35] := by simpa using hlast
  obtain ⟨m, n, ms, reply, rest, hdrop, hn, hbefore, hstate, hgarbles⟩ :=
    garbles_of_garbling (i := 22) (f := gibberish) (s := .polling) hrun (by decide +kernel)
  obtain ⟨m', n', ms', reply', rest', hdrop', -, hbefore', hstate', hgarbles'⟩ :=
    garbles_of_garbling (i := 7) (f := gibberish) (s := .closed) hrun (by decide +kernel)
  obtain ⟨y, hy, hend⟩ := Option.map_eq_some_iff.mp (show
    (watched babbling (.client plain) 80 [(5, .start), (40, .close)])[22]?.map (fun n =>
      (run babbling 40 n).stack.isEmpty) = some true by decide +kernel)
  obtain rfl := Option.some.inj (hy.symm.trans hn)
  rw [hxs] at hrun hdrop hdrop'
  have hsuf : y :: m :: ms <:+ x :: xs := hdrop ▸ List.drop_suffix 22 (x :: xs)
  have hsuf' : n' :: m' :: ms' <:+ x :: xs := hdrop' ▸ List.drop_suffix 7 (x :: xs)
  have ha : m.sync.state.isActive = true := by rw [hstate]; rfl
  have ha' : m'.sync.state.isActive = false := by rw [hstate']; rfl
  have hread : Payload.read nope.body = .error gibberish := rfl
  obtain ⟨hbody, hresponse, hall, hresumes, hexact⟩ := @unreadable_bodies_pass Nat _
  have hreceive := hresponse plain none nope ⟨by decide, fun _ => rfl⟩
  rw [hread] at hreceive
  obtain ⟨hjudged, hshallow⟩ := hbody Json.Reader.mostNested nope.body
  obtain ⟨z, zs, -, hzs, hzend, hz⟩ := hexact _ _ _ _ _ _ _ _ hw hgarbles ha hbefore
    (by decide +kernel) (returning_of_end (List.isEmpty_iff.mp hend))
  exact ⟨x, xs, hrun, hstarts, hjudged (hshallow (by decide)), hreceive,
    ⟨m, y, ms, reply, rest, hsuf, hgarbles, (hall _ _ _ _ _ _ _ _ _ _ hbefore hgarbles).1 ha,
      hresumes _ _ _ _ _ _ _ _ _ _ hw hgarbles ha hrun hsuf (exact_rat _) hstack,
      z, zs, hzend, hzs, hz⟩,
    m', n', ms', reply', rest', hsuf', hgarbles',
    (hall _ _ _ _ _ _ _ _ _ _ hbefore' hgarbles').2 ha'⟩

/-- A body that comes after the synchronizer has been closed is discarded with the response: no
status ever tells of it, and no further fetch begins. -/
theorem discarded_body_leaves_no_error : ∃ x xs,
    Run babbling (.client plain) (Op.Every fun op => ¬ op.IsPoll) (fun _ => False) (x :: xs) ∧
      x.stack = [] ∧ fetchStarts x = [0] ∧ (∀ y ∈ x :: xs, y.sync.lastError = none) ∧
      ∃ m n ms reply rest, n :: m :: ms <:+ x :: xs ∧ m.sync.state = .closed ∧
        Garbles babbling m reply gibberish rest n := by
  have hrun := run_babbling 0 5
  have hnone : (watched babbling (.client plain) 80 [(0, .start), (5, .close)]).all
      (fun y => y.sync.lastError.isNone) = true := by decide +kernel
  obtain ⟨x, hx, hlast⟩ := Option.map_eq_some_iff.mp (show
    (watched babbling (.client plain) 80 [(0, .start), (5, .close)]).head?.map (fun x =>
      (x.stack.isEmpty, fetchStarts x)) = some (true, [0]) by decide +kernel)
  obtain ⟨xs, hxs⟩ := List.head?_eq_some_iff.mp hx
  obtain ⟨hstack, hstarts⟩ : x.stack = [] ∧ fetchStarts x = [0] := by simpa using hlast
  obtain ⟨m, n, ms, reply, rest, hdrop, -, -, hstate, hgarbles⟩ :=
    garbles_of_garbling (i := 7) (f := gibberish) (s := .closed) hrun (by decide +kernel)
  rw [hxs] at hrun hdrop hnone
  refine ⟨x, xs, hrun, hstack, hstarts, fun y hy => ?_, m, n, ms, reply, rest,
    hdrop ▸ List.drop_suffix 7 (x :: xs), hstate, hgarbles⟩
  exact Option.isNone_iff_eq_none.mp (List.all_eq_true.mp hnone y hy)

end FlagPoll.Synchronizer.Machine
