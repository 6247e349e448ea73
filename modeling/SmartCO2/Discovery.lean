import SmartCO2.CycleRuns
import SmartCO2.Services

/-!
# The Search for the Server

Whether the connection thread ends with a CoAP client.

`_app.done` is the answer to a browse and at the same time the reason not to search again. A
restart of the thread does not reset it, so a restart with the flag set skips the search and
with it the start of the CoAP client. `Search` says from the history alone what has become of
the search: it is pending, the client was found, or the client is lost for good.

## Main results

* `searchOf_eq_lost_iff`: the client is lost exactly when the search was disturbed.
* `coap_found_iff`: where the connection thread has ended, and at every post, there is a CoAP
  client exactly if the search was not disturbed.
-/

namespace SmartCO2

variable {p : Platform} {inp : PassInput} {w w' : World}

/-! ### The search in a history -/

/-- What goes wrong in a search: a browse is not launched, an answer carries an error or comes
while the thread is not past its test of `_app.done`, or `coap_init` fails. -/
def Obs.disturbs : Obs → Bool
  | .browse answer => decide (answer ≠ .none)
  | .browseDone past error => !past || decide (error ≠ .none)
  | .coapInit ok => !ok
  | _ => false

/-- Nothing goes wrong in the search, or the client is there already. -/
def Undisturbed (o : Obs) (earlier : List Obs) : Prop :=
  .coapInit true ∈ earlier ∨ o.disturbs = false

instance (o : Obs) (earlier : List Obs) : Decidable (Undisturbed o earlier) :=
  inferInstanceAs (Decidable (_ ∨ _))

/-- What has become of the search. -/
inductive Search
  | pending | found | lost
  deriving DecidableEq

/-- The search after one more observation. -/
def Search.after (s : Search) (o : Obs) : Search :=
  match s with
  | .pending => if o = .coapInit true then .found else if o.disturbs then .lost else .pending
  | .found => .found
  | .lost => .lost

/-- What has become of the search in a history. -/
def searchOf : List Obs → Search
  | [] => .pending
  | o :: earlier => (searchOf earlier).after o

/-- What the three say of a history. -/
def Search.Says (s : Search) (l : List Obs) : Prop :=
  match s with
  | .pending => .coapInit true ∉ l ∧ Always Undisturbed l
  | .found => .coapInit true ∈ l ∧ Always Undisturbed l
  | .lost => ¬ Always Undisturbed l

/-- The search is what the history says of it. -/
theorem searchOf_says (l : List Obs) : (searchOf l).Says l := by
  induction l with
  | nil => exact ⟨List.not_mem_nil, trivial⟩
  | cons o l ih =>
      rw [searchOf]
      cases hs : searchOf l with
      | pending =>
          rw [hs] at ih
          obtain ⟨hnot, halways⟩ := ih
          rw [Search.after]
          split
          · next ho => exact ⟨List.mem_cons.mpr (Or.inl ho.symm), Or.inr (by rw [ho]; rfl), halways⟩
          · next ho =>
              split
              · next hd =>
                  rintro ⟨hfound | hfine, -⟩
                  · exact hnot hfound
                  · exact absurd (hd.symm.trans hfine) (by simp)
              · next hd =>
                  refine ⟨fun hmem => ?_, Or.inr (Bool.not_eq_true _ ▸ hd), halways⟩
                  rcases List.mem_cons.mp hmem with heq | hmem
                  · exact ho heq.symm
                  · exact hnot hmem
      | found =>
          rw [hs] at ih
          exact ⟨List.mem_cons_of_mem o ih.1, Or.inl ih.1, ih.2⟩
      | lost =>
          rw [hs] at ih
          exact fun h => ih h.2

/-- **The client is lost** exactly when the search was disturbed. -/
theorem searchOf_eq_lost_iff {l : List Obs} : searchOf l = .lost ↔ ¬ Always Undisturbed l := by
  have hsays := searchOf_says l
  constructor
  · intro hlost
    rw [hlost] at hsays
    exact hsays
  · intro hdisturbed
    cases hs : searchOf l with
    | pending | found =>
        rw [hs] at hsays
        exact absurd hsays.2 hdisturbed
    | lost => rfl

/-- An observation that settles a pending search. -/
def Obs.settles : Obs → Bool
  | .coapInit _ => true
  | o => o.disturbs

/-- Another observation does not change it. -/
theorem searchOf_cons {o : Obs} (h : o.settles = false) (l : List Obs) :
    searchOf (o :: l) = searchOf l := by
  have hfine : o.disturbs = false := by
    cases o <;> first | exact h | cases h
  have hnot : o ≠ .coapInit true := by
    rintro rfl
    cases h
  rw [searchOf]
  cases searchOf l with
  | pending => simp [Search.after, hnot, hfine]
  | found | lost => rfl

/-- What goes wrong loses the client, unless it is there. -/
theorem searchOf_cons_of_disturbs {o : Obs} (h : o.disturbs = true) {l : List Obs}
    (hl : searchOf l ≠ .found) : searchOf (o :: l) = .lost := by
  have hnot : o ≠ .coapInit true := by
    rintro rfl
    cases h
  rw [searchOf]
  cases hs : searchOf l with
  | pending => simp [Search.after, hnot, h]
  | found => exact absurd hs hl
  | lost => rfl

/-- Other observations do not change it. -/
theorem searchOf_append {new : List Obs} (h : ∀ o ∈ new, o.settles = false) (l : List Obs) :
    searchOf (new ++ l) = searchOf l := by
  induction new with
  | nil => rfl
  | cons o new ih =>
      rw [List.cons_append, searchOf_cons (h o List.mem_cons_self),
        ih fun a ha => h a (List.mem_cons_of_mem o ha)]

/-- A server that was found stays found. -/
theorem searchOf_append_of_found {l : List Obs} (h : searchOf l = .found) (new : List Obs) :
    searchOf (new ++ l) = .found := by
  induction new with
  | nil => exact h
  | cons o new ih =>
      rw [List.cons_append, searchOf, ih]
      rfl

/-! ### The search in the firmware -/

/-- How the firmware stands to its search, the connection thread being suspended at the given
continuation: the client is there; or it is not, and `_app.done` tells of a good answer that
is about to be used; or it is not, and `_app.done` will keep the thread from searching. -/
inductive Prospect (node : Option NodeWait) (w : World) : Prop
  | found (search : searchOf w.log = .found) (coap : w.app.coap = .client)
  | pending (search : searchOf w.log = .pending) (coap : w.app.coap = .null)
      (unended : w.app.pThreadDone1 = false)
      (unanswered : node.any NodeWait.pastTest = false → w.appDone = false)
      (good : w.appDone = true → w.appError = .none)
      (answered : node = some .resultSleep → w.appDone = true)
  | lost (search : searchOf w.log = .lost) (coap : w.app.coap = .null) (done : w.appDone = true)
      (bad : node.any NodeWait.pastTest = true → w.appError ≠ .none ∧ w.dns.outstanding = [])

/-- The search, its result variables and the CoAP client are left alone. -/
structure LeavesSearch (w w' : World) : Prop where
  coap : w'.app.coap = w.app.coap
  ended : w'.app.pThreadDone1 = true → w.app.pThreadDone1 = true
  done : w'.appDone = w.appDone
  error : w'.appError = w.appError
  outstanding : w'.dns.outstanding = w.dns.outstanding
  log : Continues (fun o => o.settles = false) w.log w'.log

namespace LeavesSearch

/-- Nothing has happened. -/
theorem refl (w : World) : LeavesSearch w w :=
  ⟨rfl, id, rfl, rfl, rfl, [], rfl, by simp⟩

/-- One after the other. -/
theorem trans {w₁ w₂ w₃ : World} (h : LeavesSearch w₁ w₂) (h' : LeavesSearch w₂ w₃) :
    LeavesSearch w₁ w₃ :=
  ⟨h'.coap.trans h.coap, fun he => h.ended (h'.ended he), h'.done.trans h.done,
    h'.error.trans h.error, h'.outstanding.trans h.outstanding, h.log.trans h'.log⟩

/-- What the history says of the search stays the same. -/
theorem searchOf_eq (h : LeavesSearch w w') : searchOf w'.log = searchOf w.log := by
  obtain ⟨new, heq, hnew⟩ := h.log
  rw [heq, searchOf_append hnew]

/-- The clock and the timer go on, and threads 2 and 4 are done. -/
theorem idle (w : World) (clock : Clock) (run armed done2 done4 : Bool) :
    LeavesSearch w
      { w with clock := clock, run := run, timerArmed := armed, app.pThreadDone2 := done2,
               app.pThreadDone4 := done4 } :=
  ⟨rfl, id, rfl, rfl, rfl, [], rfl, by simp⟩

/-- An autostart callback. -/
theorem autostart (sock : Option SockAddr) (w : World) :
    LeavesSearch w { w with dns := w.dns.autostart sock } :=
  ⟨rfl, id, rfl, rfl, rfl, [], rfl, by simp⟩

/-- A role change leaves the search and thread 1 alone. -/
theorem role (changed : Bool) (role : DeviceRole) (w : World) :
    (handleNetifStateChanged changed role w).app.pThread1 = w.app.pThread1 ∧
      LeavesSearch w (handleNetifStateChanged changed role w) := by
  have hset : ∀ b, LeavesSearch w (({ w with app.connected := b }).note (.role b)) :=
    fun b => ⟨rfl, id, rfl, rfl, rfl, [.role b], rfl, by simp [Obs.settles, Obs.disturbs]⟩
  rw [handleNetifStateChanged.eq_def]
  split
  · cases role <;> exact ⟨rfl, hset _⟩
  · exact ⟨rfl, refl w⟩

/-- A call of thread 3 leaves the search and thread 1 alone. -/
theorem runSensor (hrun : runSensor inp w = some w') :
    w'.app.pThread1 = w.app.pThread1 ∧ LeavesSearch w w' := by
  rcases runSensor_cases hrun with ⟨-, rfl⟩ | ⟨-, w₁, j, hresume, rfl⟩
  · exact ⟨rfl, refl _⟩
  · obtain ⟨_, _, _, _, _, _, _, new, rfl, hnew⟩ := scd41UpdateValueThread_frame hresume
    refine ⟨rfl, rfl, id, rfl, rfl, rfl, new, rfl, fun o ho => ?_⟩
    have hsensor := hnew o ho
    cases o <;> first | rfl | exact absurd hsensor Bool.false_ne_true

/-- The callback of a request writes the result variables of the sending process only. -/
theorem requestCallback (hs : Services w) {i : ℕ} {r : Request}
    (hr : w.coap.outstanding[i]? = some r) (error : OtError) (response : Bool) :
    LeavesSearch w (requestCallback w i r error response) := by
  obtain ⟨svc, -, -, -, heq⟩ := hs.requestCallback_eq hr error response
  rw [heq]
  refine ⟨rfl, id, ?_, ?_, rfl, [.callback _ _], rfl, by simp [Obs.settles, Obs.disturbs]⟩
  · simp [World.note, World.appDone]
  · simp [World.note, World.appError]

end LeavesSearch

/-- The firmware stands to its search as before. -/
theorem Prospect.leaves {node : Option NodeWait} (h : Prospect node w)
    (hleaves : LeavesSearch w w') : Prospect node w' := by
  have hsearch := hleaves.searchOf_eq
  cases h with
  | found search coap => exact .found (hsearch.trans search) (hleaves.coap.trans coap)
  | pending search coap unended unanswered good answered =>
      refine .pending (hsearch.trans search) (hleaves.coap.trans coap) ?_ ?_ ?_ ?_
      · cases hend : w'.app.pThreadDone1 with
        | false => rfl
        | true => exact absurd (unended.symm.trans (hleaves.ended hend)) Bool.false_ne_true
      · exact fun hpast => hleaves.done.trans (unanswered hpast)
      · exact fun hdone => hleaves.error.trans (good (hleaves.done.symm.trans hdone))
      · exact fun hresult => hleaves.done.trans (answered hresult)
  | lost search coap done bad =>
      refine .lost (hsearch.trans search) (hleaves.coap.trans coap) (hleaves.done.trans done) ?_
      intro hpast
      rw [hleaves.error, hleaves.outstanding]
      exact bad hpast

/-- While the search is pending there is no client, and the thread has not ended. -/
theorem Prospect.of_pending {node : Option NodeWait} (h : Prospect node w)
    (hsearch : searchOf w.log = .pending) : w.app.coap = .null ∧ w.app.pThreadDone1 = false ∧
      (node.any NodeWait.pastTest = false → w.appDone = false) := by
  cases h with
  | found search => exact absurd (search.symm.trans hsearch) (by simp)
  | pending search coap unended unanswered => exact ⟨coap, unended, unanswered⟩
  | lost search => exact absurd (search.symm.trans hsearch) (by simp)

/-- There is a CoAP client exactly if the server has been found. -/
theorem Prospect.coap_eq_client_iff {node : Option NodeWait} (h : Prospect node w) :
    w.app.coap = .client ↔ searchOf w.log = .found := by
  cases h with
  | found search coap => exact ⟨fun _ => search, fun _ => coap⟩
  | pending search coap | lost search coap => simp [search, coap]

/-- When something goes wrong, the client is there or lost. -/
theorem Prospect.disturbed {node node' : Option NodeWait} {o : Obs} (h : Prospect node w)
    (ho : o.disturbs = true) (hlog : w'.log = o :: w.log) (hcoap : w'.app.coap = w.app.coap)
    (hdone : w'.appDone = true) (hbad : node'.any NodeWait.pastTest = true →
      w'.appError ≠ .none ∧ w'.dns.outstanding = []) : Prospect node' w' := by
  have hlost : searchOf w.log ≠ .found → searchOf w'.log = .lost := by
    rw [hlog]
    exact searchOf_cons_of_disturbs ho
  cases h with
  | found search coap =>
      refine .found ?_ (hcoap.trans coap)
      rw [hlog, searchOf, search]
      rfl
  | pending search coap =>
      exact .lost (hlost (by simp [search])) (hcoap.trans coap) hdone hbad
  | lost search coap =>
      exact .lost (hlost (by simp [search])) (hcoap.trans coap) hdone hbad

/-- An answer is good and in time, and keeps the search pending until it is used; or else it
disturbs the search. -/
theorem Prospect.answer {node : Option NodeWait} (h : Prospect node w) {i : ℕ}
    (hi : i < w.dns.outstanding.length)
    (hlog : w'.log = .browseDone (node.any NodeWait.pastTest) w'.appError :: w.log)
    (hcoap : w'.app.coap = w.app.coap) (hend : w'.app.pThreadDone1 = w.app.pThreadDone1)
    (hdone : w'.appDone = true) (hout : w'.dns.outstanding = []) : Prospect node w' := by
  by_cases hgood : node.any NodeWait.pastTest = true ∧ w'.appError = .none
  · obtain ⟨hpast, herror⟩ := hgood
    have hsearch : searchOf w'.log = searchOf w.log := by
      rw [hlog]
      exact searchOf_cons (by simp [Obs.settles, Obs.disturbs, hpast, herror]) w.log
    cases h with
    | found search coap => exact .found (hsearch.trans search) (hcoap.trans coap)
    | pending search coap unended =>
        exact .pending (hsearch.trans search) (hcoap.trans coap) (hend.trans unended)
          (fun hearly => absurd (hpast.symm.trans hearly) (by simp)) (fun _ => herror)
          fun _ => hdone
    | lost search coap done bad =>
        rw [(bad hpast).2] at hi
        exact absurd hi (Nat.not_lt_zero i)
  · refine h.disturbed ?_ hlog hcoap hdone fun hpast => ⟨fun herror => ?_, hout⟩
    · rw [not_and_or] at hgood
      simpa [Obs.disturbs] using hgood
    · exact hgood ⟨hpast, herror⟩

/-! ### The connection thread -/

/-- A thread before its test of `_app.done` may be at any other wait before it, or rewound. -/
theorem Prospect.early {node node' : Option NodeWait} (h : Prospect node w)
    (hnode : node.any NodeWait.pastTest = false) (hnode' : node'.any NodeWait.pastTest = false) :
    Prospect node' w := by
  have hnot : node' ≠ some .resultSleep := by
    rintro rfl
    cases hnode'
  cases h with
  | found search coap => exact .found search coap
  | pending search coap unended unanswered good answered =>
      exact .pending search coap unended (fun _ => unanswered hnode) good
        fun hresult => absurd hresult hnot
  | lost search coap done bad =>
      exact .lost search coap done fun hpast => absurd (hnode'.symm.trans hpast) Bool.false_ne_true

/-- A thread past its test may be at any other wait past it. -/
theorem Prospect.late {l : NodeWait} {node : Option NodeWait} (h : Prospect node w)
    (hnode : node.any NodeWait.pastTest = true) (hl : l.pastTest = true)
    (hresult : l = .resultSleep → w.appDone = true) : Prospect (some l) w := by
  cases h with
  | found search coap => exact .found search coap
  | pending search coap unended unanswered good answered =>
      exact .pending search coap unended (fun hearly => absurd (hl.symm.trans hearly) (by simp))
        good fun heq => hresult (Option.some.inj heq)
  | lost search coap done bad => exact .lost search coap done fun _ => bad hnode

/-- A thread is rewound after a time-out, when there is no answer. -/
theorem Prospect.timedOut {node : Option NodeWait} (h : Prospect node w)
    (hdone : w.appDone = false) : Prospect none w := by
  cases h with
  | found search coap => exact .found search coap
  | pending search coap unended unanswered good answered =>
      exact .pending search coap unended (fun _ => hdone) good fun hnone => absurd hnone (by simp)
  | lost search coap done bad => exact absurd (hdone.symm.trans done) Bool.false_ne_true

/-- A thread is rewound after an answer with an error: the client is there, or lost. -/
theorem Prospect.failed {node : Option NodeWait} (h : Prospect node w)
    (hnode : node = some .resultSleep) (herror : w.appError ≠ .none) : Prospect none w := by
  cases h with
  | found search coap => exact .found search coap
  | pending search coap unended unanswered good answered =>
      exact absurd (good (answered hnode)) herror
  | lost search coap done bad => exact .lost search coap done fun hpast => absurd hpast (by simp)

/-- A thread that ends has its client, or has lost it. -/
theorem Prospect.ends {node : Option NodeWait} (h : Prospect node w)
    (hsettled : searchOf w.log ≠ .pending) : Prospect none (nodeEnd w).1 := by
  have hsearch : searchOf (nodeEnd w).1.log = searchOf w.log := searchOf_cons rfl w.log
  cases h with
  | found search coap => exact .found (hsearch.trans search) coap
  | pending search => exact absurd search hsettled
  | lost search coap done bad =>
      exact .lost (hsearch.trans search) coap done fun hpast => absurd hpast (by simp)

/-- The assertion at a jump of the connection thread. -/
def NodeProspect (j : Jump NodeWait) (w : World) : Prop :=
  Services w ∧ Prospect j.continuation w

/-- The connection test leaves the search alone. -/
theorem nodeWaitConnected_leaves (p : Platform) (inp : PassInput) (w : World) :
    LeavesSearch w (nodeWaitConnected p inp w).1 := by
  rw [nodeWaitConnected]
  split
  · rw [nodeInitMdns]
    split
    · exact ⟨rfl, id, rfl, rfl, rfl, [.seenConnected], rfl, by simp [Obs.settles, Obs.disturbs]⟩
    · obtain ⟨hout, -, -⟩ := mdnsInit_results w.dns p.serviceName inp.autostarts
      exact ⟨rfl, id, rfl, rfl, hout, [.seenConnected], rfl, by simp [Obs.settles, Obs.disturbs]⟩
  · exact .refl w

/-- The connection test leads to a wait before the test of `_app.done`. -/
theorem nodeWaitConnected_early (p : Platform) (inp : PassInput) (w : World) :
    (nodeWaitConnected p inp w).2.continuation.any NodeWait.pastTest = false := by
  rw [nodeWaitConnected]
  split
  · rw [nodeInitMdns]
    split
    · rfl
    · simp only
      split <;> rfl
  · rfl

/-- The connection test. -/
theorem nodeWaitConnected_prospect {node : Option NodeWait} (hs : Services w)
    (h : Prospect node w) (hnode : node.any NodeWait.pastTest = false) :
    NodeProspect (nodeWaitConnected p inp w).2 (nodeWaitConnected p inp w).1 :=
  ⟨hs.nodeWaitConnected,
    (h.early hnode (nodeWaitConnected_early p inp w)).leaves (nodeWaitConnected_leaves p inp w)⟩

/-- A new search clears `_app.done`. -/
theorem Prospect.cleared {node node' : Option NodeWait} (h : Prospect node w)
    (hdone : w.appDone = false) (hnode' : node' ≠ some .resultSleep)
    (hsearch : searchOf w'.log = searchOf w.log) (hcoap : w'.app.coap = w.app.coap)
    (hend : w'.app.pThreadDone1 = w.app.pThreadDone1) (hclear : w'.appDone = false) :
    Prospect node' w' := by
  cases h with
  | found search coap => exact .found (hsearch.trans search) (hcoap.trans coap)
  | pending search coap unended unanswered good answered =>
      exact .pending (hsearch.trans search) (hcoap.trans coap) (hend.trans unended)
        (fun _ => hclear) (fun hd => absurd (hclear.symm.trans hd) Bool.false_ne_true)
        fun hresult => absurd hresult hnode'
  | lost search coap done bad => exact absurd (hdone.symm.trans done) Bool.false_ne_true

/-- The search: it is skipped by a thread that has its client or has lost it, and lost when
the browse is not launched. -/
theorem nodeSearch_prospect {node : Option NodeWait} (hs : Services w) (h : Prospect node w)
    (hnode : node.any NodeWait.pastTest = false) :
    NodeProspect (nodeSearch inp w).2 (nodeSearch inp w).1 := by
  refine ⟨hs.nodeSearch, ?_⟩
  rw [nodeSearch]
  cases hdone : w.appDone with
  | true =>
      rw [if_pos rfl]
      refine h.ends fun hpending => ?_
      obtain ⟨-, -, hunanswered⟩ := h.of_pending hpending
      exact absurd (hdone.symm.trans (hunanswered hnode)) (by simp)
  | false =>
      obtain ⟨clock, htick⟩ := World.tick_eq
        { w with mem := (w.mem.setBool .app false).setError .app .none }
      simp only [Bool.false_eq_true, if_false, World.now, htick]
      split
      · exact h.cleared hdone (by simp [Jump.continuation]) rfl rfl rfl (by simp [World.appDone])
      · cases href : w.dns.client.refuses with
        | true =>
            simp only [mdnsScheduleSearch_of_refuses href, if_true]
            exact h.cleared hdone (by simp [Jump.continuation]) rfl rfl rfl
              (by simp [World.appDone])
        | false =>
            have hidle : w.dns.client.busy = false := by
              rw [MDnsClient.refuses, Bool.or_eq_false_iff] at href
              exact href.1
            have hout : w.dns.outstanding = [] := hs.browse.outstanding_eq_nil hidle
            by_cases hlaunched : inp.browse = .none
            · simp only [mdnsScheduleSearch, href, hlaunched, Bool.false_eq_true, if_false,
                ne_eq, not_true_eq_false]
              exact h.cleared hdone (by simp [Jump.continuation]) (searchOf_cons rfl _) rfl rfl
                (by simp [World.note, World.appDone])
            · simp only [mdnsScheduleSearch, href, hlaunched, Bool.false_eq_true, if_false,
                ne_eq, not_false_eq_true, if_true]
              refine h.disturbed (o := .browse inp.browse) (decide_eq_true hlaunched) rfl rfl ?_ ?_
              · simp [World.note, World.appDone]
              · exact fun _ => ⟨by simp [World.note, World.appError], hout⟩

/-- The start of the CoAP client: the client is found, or lost when it fails. -/
theorem nodeInitCoap_prospect (hs : Services w) (h : Prospect (some .resultSleep) w)
    (herror : w.appError = .none) :
    NodeProspect (nodeInitCoap p inp w).2 (nodeInitCoap p inp w).1 := by
  refine ⟨hs.nodeInitCoap, ?_⟩
  rw [nodeInitCoap]
  split
  · next hclient =>
      refine h.ends fun hpending => ?_
      obtain ⟨hnull, -, -⟩ := h.of_pending hpending
      exact absurd (hclient.symm.trans hnull) (by simp)
  · next hnull =>
      simp only
      cases h with
      | found search coap => exact absurd (hnull.symm.trans coap) (by simp)
      | lost search coap done bad => exact absurd herror (bad rfl).1
      | pending search coap unended unanswered good answered =>
          split
          · next hfailed =>
              refine .lost ?_ hfailed (answered rfl) (by simp [Jump.continuation])
              exact searchOf_cons_of_disturbs (by simp [Obs.disturbs, hfailed]) (by simp [search])
          · next hclient =>
              refine .found ?_ hclient
              simp [nodeEnd, World.note, searchOf, search, Search.after, hclient]

/-- The tests leave the search alone. -/
theorem nodeGuard_leaves (l : NodeWait) (w : World) : LeavesSearch w (nodeGuard l w).1 := by
  obtain ⟨clock, notes, heq, hnotes⟩ := nodeGuard_eq l w
  rw [heq]
  refine ⟨rfl, id, rfl, rfl, rfl, notes, rfl, fun o ho => ?_⟩
  obtain ⟨time, passed, rfl⟩ := hnotes o ho
  rfl

/-- Only the test for the readiness of a `NULL` client is undefined. -/
theorem nodeGuard_none {l : NodeWait} (h : nodeGuard l w = (w', none)) : l = .mdnsReady := by
  have hnone := congrArg Prod.snd h
  cases l with
  | mdnsReady => rfl
  | answer =>
      simp only [nodeGuard] at hnone
      split at hnone <;> exact absurd hnone (by simp)
  | _ => exact absurd hnone (by simp [nodeGuard, nodeSleep])

/-- The blocks of the connection thread. -/
theorem nodeBody_prospect {l : NodeWait} (h : NodeProspect (.wait l) w) :
    NodeProspect (nodeBody p inp l w).2 (nodeBody p inp l w).1 := by
  obtain ⟨hs, h⟩ := h
  cases l with
  | connectSleep =>
      obtain ⟨clock, htick⟩ := w.tick_eq
      simp only [nodeBody, World.now, htick]
      refine nodeWaitConnected_prospect { hs with } (h.leaves ?_) rfl
      exact ⟨rfl, id, rfl, rfl, rfl, [], rfl, by simp⟩
  | mdnsRetrySleep | mdnsInitSleep | mdnsReady => exact ⟨hs, h.early rfl rfl⟩
  | searchSleep => exact nodeSearch_prospect hs h rfl
  | launchSleep | answer => exact ⟨hs, h.late rfl rfl (by simp)⟩
  | answerSleep =>
      refine ⟨hs, ?_⟩
      simp only [nodeBody]
      split
      · next hdone => exact h.late rfl rfl fun _ => hdone
      · next hdone => exact h.timedOut (Bool.not_eq_true _ ▸ hdone)
  | resultSleep =>
      rw [nodeBody]
      split
      · next herror => exact ⟨hs, h.failed rfl herror⟩
      · next herror => exact nodeInitCoap_prospect hs h (not_not.mp herror)

/-! ### Posts -/

/-- A post has a client exactly if the search was not disturbed before. -/
def FoundAtPost (o : Obs) (earlier : List Obs) : Prop :=
  ∀ r, o = .post r → (r.client = .client ↔ Always Undisturbed earlier)

/-- What the runs keep. -/
structure SearchInvariant (w : World) : Prop where
  services : Services w
  prospect : Prospect w.app.pThread1 w
  posts : Always FoundAtPost w.log

/-- The firmware has a client where the thread has ended, exactly if the search was not
disturbed. -/
theorem Prospect.coap_iff {node : Option NodeWait} (h : Prospect node w)
    (hend : w.app.pThreadDone1 = true) :
    w.app.coap = .client ↔ Always Undisturbed w.log := by
  have hlost := searchOf_eq_lost_iff (l := w.log)
  cases h with
  | found search coap =>
      rw [search] at hlost
      have halways : Always Undisturbed w.log := by
        by_contra hdisturbed
        exact absurd (hlost.mpr hdisturbed) (by simp)
      exact ⟨fun _ => halways, fun _ => coap⟩
  | pending search coap unended => exact absurd (unended.symm.trans hend) Bool.false_ne_true
  | lost search coap =>
      have hdisturbed : ¬ Always Undisturbed w.log := hlost.mp search
      constructor
      · intro hclient
        exact absurd (coap.symm.trans hclient) (by simp)
      · intro halways
        exact absurd halways hdisturbed

/-- Only posts are posted. -/
theorem foundAtPost_of_isPost {o : Obs} (h : o.isPost = false) (earlier : List Obs) :
    FoundAtPost o earlier := by
  rintro r rfl
  cases h

/-- What leaves the sending process alone logs no posts. -/
theorem always_foundAtPost (h : Always FoundAtPost w.log) (hleaves : LeavesSender w w') :
    Always FoundAtPost w'.log := by
  obtain ⟨new, hlog, hnew⟩ := hleaves.log
  rw [hlog]
  exact h.append fun o ho => foundAtPost_of_isPost (isPost_of_ofSender (hnew o ho))

/-- A post leaves the search alone. -/
theorem coapSendingProcess_entry_search (p : Platform) (inp : PassInput) (w : World) :
    ((coapSendingProcess p inp).entry w).1.app.pThread1 = w.app.pThread1 ∧
      LeavesSearch w ((coapSendingProcess p inp).entry w).1 := by
  obtain ⟨clock, hbuild⟩ := senderBuild_eq p w
  simp only [coapSendingProcess, senderPost, hbuild]
  split
  · refine ⟨rfl, rfl, id, ?_, ?_, rfl, [.post _], rfl, by simp [Obs.settles, Obs.disturbs]⟩
    · simp [World.note, World.appDone]
    · simp [World.note, World.appError]
  · obtain ⟨hdone, herror⟩ := coapSchedulePost_memory w.coap
      ((w.mem.setBool .sender false).setError .sender .none)
      (buildMessage p w.app.message w.app.co2 w.app.rh w.app.temp).2
      (UInt16.ofInt (buildMessage p w.app.message w.app.co2 w.app.rh w.app.temp).1)
      .sender .sender inp.post
    refine ⟨rfl, rfl, id, ?_, ?_, rfl, [.post _], rfl, by simp [Obs.settles, Obs.disturbs]⟩
    · simp [World.note, World.appDone, hdone .app (by simp)]
    · simp [World.note, World.appError, herror .app (by simp)]

/-- The sending process leaves the search alone, and posts to the client in `_app`. -/
theorem coapSendingProcess_search (h : SearchInvariant w) (hend : w.app.pThreadDone1 = true)
    {fuel : ℕ} {lc : Option SenderWait} {j : Jump SenderWait}
    (hresume : (coapSendingProcess p inp).resume fuel lc w = some (w', j)) :
    w'.app.pThread1 = w.app.pThread1 ∧ LeavesSearch w w' ∧ Always FoundAtPost w'.log := by
  have hkeeps : (coapSendingProcess p inp).Keeps fun _ s =>
      s.app.pThread1 = w.app.pThread1 ∧ LeavesSearch w s ∧ Always FoundAtPost s.log := by
    refine Protothread.Keeps.of_tests ?_ ?_ (fun _ _ _ _ hs => hs)
    · rintro l s ⟨hnode, hleaves, hposts⟩
      obtain ⟨clock, notes, heq, hnotes⟩ := senderGuard_eq l s
      simp only [coapSendingProcess, heq]
      refine ⟨hnode, hleaves.trans ⟨rfl, id, rfl, rfl, rfl, notes, rfl, ?_⟩, hposts.append ?_⟩
      · intro o ho
        obtain ⟨_, _, _, _, rfl⟩ := hnotes o ho
        rfl
      · intro o ho
        obtain ⟨_, _, _, _, rfl⟩ := hnotes o ho
        exact foundAtPost_of_isPost rfl
    · rintro l s ⟨hnode, hleaves, hposts⟩
      obtain ⟨reports, heq, hreports⟩ := senderReport_eq s
      simp only [coapSendingProcess, senderBody, heq]
      refine ⟨hnode, hleaves.trans ⟨rfl, fun hend => absurd hend Bool.false_ne_true, rfl, rfl, rfl,
        .cycleEnded :: reports, rfl, ?_⟩, always_cons.mpr ⟨foundAtPost_of_isPost rfl _, ?_⟩⟩
      · intro o ho
        rcases List.mem_cons.mp ho with rfl | ho
        · rfl
        · rcases hreports o ho with rfl | rfl <;> rfl
      · refine hposts.append fun o ho => foundAtPost_of_isPost ?_
        rcases hreports o ho with rfl | rfl <;> rfl
  refine hkeeps.resume (fun _ => ?_) (fun _ _ => ⟨rfl, .refl w, h.posts⟩) hresume
  obtain ⟨r, hlog, hclient, -⟩ := coapSendingProcess_entry p inp w
  have hposts : Always FoundAtPost (.post r :: w.log) := by
    refine always_cons.mpr ⟨fun r' hr => ?_, h.posts⟩
    obtain rfl := Obs.post.inj hr
    rw [hclient]
    exact h.prospect.coap_iff hend
  obtain ⟨hnode, hleaves⟩ := coapSendingProcess_entry_search p inp w
  exact ⟨hnode, hleaves, hlog ▸ hposts⟩

/-! ### Runs -/

namespace SearchInvariant

/-- A call of thread 1. -/
theorem runNode (h : SearchInvariant w) (hrun : runNode p inp w = some w') :
    SearchInvariant w' := by
  have hposts := always_foundAtPost h.posts (.runNode hrun)
  have hservices := h.services.runNode hrun
  rcases runNode_cases hrun with ⟨-, rfl⟩ | ⟨-, w₁, j, hresume, rfl⟩
  · exact h
  · have hkeeps : (nodeConnectThread p inp).Keeps NodeProspect := by
      refine Protothread.Keeps.of_tests ?_ (fun _ _ hj => nodeBody_prospect hj) ?_
      · exact fun l s hj => ⟨hj.1.nodeGuard l, hj.2.leaves (nodeGuard_leaves l s)⟩
      · intro l s s' hnone hj
        obtain rfl := nodeGuard_none hnone
        exact ⟨hj.1, hj.2.early rfl rfl⟩
    have hj : NodeProspect j w₁ := by
      have hprospect := h.prospect
      refine hkeeps.resume (fun hnone => ?_) (fun l hl => ?_) hresume
      · rw [hnone] at hprospect
        exact nodeWaitConnected_prospect h.services hprospect rfl
      · rw [hl] at hprospect
        exact ⟨h.services, hprospect⟩
    refine ⟨hservices, hj.2.leaves ?_, hposts⟩
    exact ⟨rfl, id, rfl, rfl, rfl, [], rfl, by simp⟩

/-- What leaves the search and the sending process alone keeps the invariant. -/
theorem leaves (h : SearchInvariant w) (hservices : Services w')
    (hnode : w'.app.pThread1 = w.app.pThread1) (hsearch : LeavesSearch w w')
    (hsender : LeavesSender w w') : SearchInvariant w' :=
  ⟨hservices, hnode ▸ h.prospect.leaves hsearch, always_foundAtPost h.posts hsender⟩

/-- A call of thread 3. -/
theorem runSensor (h : SearchInvariant w) (hrun : runSensor inp w = some w') :
    SearchInvariant w' := by
  obtain ⟨hnode, hsearch⟩ := LeavesSearch.runSensor hrun
  exact h.leaves (h.services.runSensor hrun) hnode hsearch (.runSensor hrun)

/-- A call of the sending process. -/
theorem runSender (h : SearchInvariant w) (hrun : runSender p inp w = some w') :
    SearchInvariant w' := by
  have hservices := h.services.runSender hrun
  rcases runSender_cases hrun with ⟨-, rfl⟩ | ⟨hend, -, w₁, j, hresume, rfl⟩
  · exact h
  · obtain ⟨hnode, hleaves, hposts⟩ := coapSendingProcess_search h hend hresume
    refine ⟨hservices, ?_, hposts⟩
    have hprospect := h.prospect.leaves hleaves
    rw [← hnode] at hprospect
    exact hprospect.leaves ⟨rfl, id, rfl, rfl, rfl, [], rfl, by simp⟩

/-- A role change. -/
theorem role (h : SearchInvariant w) (changed : Bool) (role : DeviceRole)
    (hservices : Services (handleNetifStateChanged changed role w)) :
    SearchInvariant (handleNetifStateChanged changed role w) := by
  obtain ⟨hnode, hsearch⟩ := LeavesSearch.role changed role w
  exact h.leaves hservices hnode hsearch (.role changed role w)

/-- The browse callback: it brings a good answer in time, or disturbs the search. -/
theorem browseCallback (h : SearchInvariant w) {i : ℕ} (hi : i < w.dns.outstanding.length)
    (error : OtError) (response : BrowseResponse) (stack : List UInt8) :
    SearchInvariant (browseCallback p w i error response stack) := by
  refine ⟨h.services.browseCallback hi error response stack, ?_,
    always_foundAtPost h.posts (.browseCallback h.services error response stack)⟩
  rw [SmartCO2.browseCallback]
  split
  · next dns mem hres =>
      obtain ⟨_, done, err, e, _, -, hdone, herr, -, hdns, rfl⟩ := DnsService.result_inv hres
      have hout : dns.outstanding = [] :=
        (h.services.browse.result hi hres).outstanding_eq_nil (by rw [hdns])
      obtain rfl := h.services.browseDone done hdone
      obtain rfl := h.services.browseError err herr
      exact h.prospect.answer hi rfl rfl rfl (by simp [World.note, World.appDone]) hout
  · exact h.prospect.leaves ⟨rfl, id, rfl, rfl, rfl, [], rfl, by simp⟩

end SearchInvariant

/-- **The search in runs.** -/
theorem searchInvariant_runRule (p : Platform) :
    RunRule p (fun _ _ => True) SearchInvariant where
  idle clock run armed done2 done4 h :=
    h.leaves { h.services with } rfl (.idle _ clock run armed done2 done4)
      (.idle _ clock run armed done2 done4)
  node _ h hrun := h.runNode hrun
  sensor _ h hrun := h.runSensor hrun
  sender _ h hrun := h.runSender hrun
  role changed role hfault h :=
    h.role changed role ((services_runRule p).role changed role hfault h.services)
  autostart sock hfault h :=
    h.leaves ((services_runRule p).autostart sock hfault h.services) rfl (.autostart sock _)
      (.autostart sock _)
  browse error response stack _ hi h := h.browseCallback hi error response stack
  request error response _ _ hr h := by
    have hservices := h.services.requestCallback hr error response
    have hsearch := LeavesSearch.requestCallback h.services hr error response
    obtain ⟨svc, -, -, -, heq⟩ := h.services.requestCallback_eq hr error response
    rw [heq] at hservices hsearch ⊢
    exact ⟨hservices, h.prospect.leaves hsearch,
      always_cons.mpr ⟨foundAtPost_of_isPost rfl _, h.posts⟩⟩

/-- The firmware boots into the invariant. -/
theorem boot_searchInvariant (now : UInt32) : SearchInvariant (boot now) :=
  ⟨boot_services now,
    .pending rfl rfl rfl (fun _ => rfl) (fun _ => rfl) (fun h => absurd h (by simp [boot])),
    trivial⟩

/-- **The server is found** exactly if nothing goes wrong before the CoAP client is there: in
every run, where the connection thread has ended there is a CoAP client if and only if every
browse so far was launched, every answer came in time and without an error, and no start of
the client failed, until there was one. The same holds at every post. -/
theorem coap_found_iff (p : Platform) (now : UInt32) (es : List Event) {w : World}
    (hrun : (firmware p).run (boot now) es = some w) :
    (w.app.pThreadDone1 = true → (w.app.coap = .client ↔ Always Undisturbed w.log)) ∧
      Always FoundAtPost w.log := by
  have h : SearchInvariant w :=
    (searchInvariant_runRule p).run_all (boot_searchInvariant now) hrun
  exact ⟨fun hend => h.prospect.coap_iff hend, h.posts⟩

/-- The first cycle. -/
theorem first_coap_found_iff : ∃ w,
    (firmware (.configured parseLoopback)).run (boot 0) firstCycle = some w ∧
      (w.app.pThreadDone1 = true → (w.app.coap = .client ↔ Always Undisturbed w.log)) ∧
      Always FoundAtPost w.log :=
  ⟨_, rfl, coap_found_iff (.configured parseLoopback) 0 firstCycle rfl⟩

/-- The browse fails, and the thread restarts with `_app.done` set: it ends without a CoAP
client, and the message is posted to `NULL`. -/
theorem post_to_null : ∃ w,
    (firmware (.configured parseLoopback)).run (boot 0)
        (searching 0 measuring ++ [.browseResult 0 .failed loopbackResponse [], .clock 3000,
          .pass measuring, .pass measuring]) = some w ∧
      w.app.pThreadDone1 = true ∧ w.app.coap = .null ∧
      (posts w.log).map PostRecord.client = [.null] :=
  ⟨_, rfl, rfl, rfl, rfl⟩

end SmartCO2
