import SmartCO2.Discovery
import SmartCO2.Library.Execution

/-!
# The Report of a Failed Post

`coap_sending_process` has an `error` of its own, which its post and the callback of its
request write, but after its wait it tests `_app.error`, which only the search writes. So it
reports what the search has left there; and a post needs a CoAP client, which there is only
after a search that has left no error.

## Main results

* `branch_right_iff`: what the branch depends on, whatever `_app.error` holds.
* `coapError_iff`: in the firmware the branch is never taken. It is right about the post of its
  cycle exactly if that post has not failed.
-/

namespace SmartCO2

variable {p : Platform} {inp : PassInput} {w w' : World}

/-! ### The branch -/

/-- The last post has failed: `coap_schedule_post` returned an error, or the callback of its
request brought one. -/
def PostFailed (l : List Obs) : Prop :=
  ∃ r, (posts l).head? = some r ∧ (r.accepted = none ∨
    ∃ id error, r.accepted = some id ∧ error ≠ .none ∧ .callback id error ∈ since Obs.isPost l)

/-- The branch of the CoAP error was taken after the last post. -/
def ReportsError (l : List Obs) : Prop := .coapError ∈ since Obs.isPost l

/-- Between the calls of the sending process anything may happen, callbacks and searches with
any results, but a post or a report of the process itself. -/
def BetweenCalls (w w' : World) : Prop :=
  Continues (fun o => o.isPost = false ∧ o ≠ .coapError) w.log w'.log

/-- What is not a report leaves the reports as they are. -/
theorem not_reportsError_append {new l : List Obs} (h : ¬ ReportsError l)
    (hnew : ∀ o ∈ new, o.isPost = false ∧ o ≠ .coapError) : ¬ ReportsError (new ++ l) := by
  rw [ReportsError, since_append fun o ho => (hnew o ho).1, List.mem_append, not_or]
  exact ⟨fun hmem => (hnew .coapError hmem).2 rfl, h⟩

/-- A post starts anew. -/
theorem not_reportsError_post (r : PostRecord) (l : List Obs) : ¬ ReportsError (.post r :: l) := by
  rw [ReportsError, since_cons_pos rfl]
  exact List.not_mem_nil

/-- A test of the wait is no report. -/
theorem senderGuard_betweenCalls (l : SenderWait) (w : World) :
    BetweenCalls w (senderGuard l w).1 := by
  obtain ⟨clock, notes, heq, hnotes⟩ := senderGuard_eq l w
  rw [heq]
  refine ⟨notes, rfl, fun o ho => ?_⟩
  obtain ⟨time, done, error, left, rfl⟩ := hnotes o ho
  exact ⟨rfl, by simp⟩

/-- While the process waits, it has not reported anything since its post. -/
theorem not_reportsError_of_execution {w₀ : World} {bs : List (Option SenderWait × PassInput)}
    {j : Jump SenderWait} (h : Execution (coapSendingProcess p) BetweenCalls w₀ bs j w) :
    ∀ l, j = .wait l → ¬ ReportsError w.log := by
  induction h with
  | enter i =>
      intro l _
      obtain ⟨r, hlog, -, -⟩ := coapSendingProcess_entry p i w₀
      rw [hlog]
      exact not_reportsError_post r w₀.log
  | @blocked bs l s s' i _ hguard ih =>
      rintro _ -
      obtain ⟨new, hlog, hnew⟩ := senderGuard_betweenCalls l s
      obtain rfl : (senderGuard l s).1 = s' := congrArg Prod.fst hguard
      rw [hlog]
      exact not_reportsError_append (ih l rfl) hnew
  | passed i _ _ _ => exact fun l hl => absurd hl (by simp [coapSendingProcess, senderBody])
  | undefined i _ _ _ => exact fun l hl => absurd hl (by simp)
  | elsewhere _ henv ih =>
      intro l hl
      obtain ⟨new, hlog, hnew⟩ := henv
      rw [hlog]
      exact not_reportsError_append (ih l hl) hnew

/-- The end of the cycle: what is logged after the wait. -/
theorem senderBody_log (l : SenderWait) (w : World) :
    (senderBody l w).1.log =
      (.cycleEnded :: if w.appError ≠ .none then [.coapError] else []) ++
        ((if w.sendDone then [] else [.timedOut]) ++ w.log) := by
  cases hdone : w.sendDone with
  | true =>
      simp only [senderBody, senderReport, hdone, if_true]
      split <;> rfl
  | false =>
      have hsame : (w.note .timedOut).appError = w.appError := rfl
      simp only [senderBody, senderReport, hdone, Bool.false_eq_true, if_false, hsame]
      split <;> rfl

/-- The end of the cycle is neither a post nor an answer to one. -/
theorem postFailed_senderBody_iff (l : SenderWait) (w : World) :
    PostFailed (senderBody l w).1.log ↔ PostFailed w.log := by
  have hlog : ∃ new, (senderBody l w).1.log = new ++ w.log ∧
      ∀ o ∈ new, o.isPost = false ∧ ∀ id error, o ≠ .callback id error := by
    rw [senderBody_log, ← List.append_assoc]
    refine ⟨_, rfl, ?_⟩
    split <;> split <;> simp [Obs.isPost]
  obtain ⟨new, heq, hnew⟩ := hlog
  have hposts := posts_append (fun o ho => (hnew o ho).1) w.log
  have hsince := since_append (p := Obs.isPost) (fun o ho => (hnew o ho).1) w.log
  have hcallback : ∀ id error, .callback id error ∈ since Obs.isPost (new ++ w.log) ↔
      .callback id error ∈ since Obs.isPost w.log := by
    intro id error
    rw [hsince, List.mem_append]
    exact ⟨fun h => h.resolve_left fun hmem => (hnew _ hmem).2 id error rfl, Or.inr⟩
  simp only [PostFailed, heq, hposts, hcallback]

/-- **What the branch depends on.** -/
theorem reportsError_senderBody_iff (l : SenderWait) (h : ¬ ReportsError w.log) :
    ReportsError (senderBody l w).1.log ↔ w.appError ≠ .none := by
  have htimeout : ¬ ReportsError ((if w.sendDone then [] else [.timedOut]) ++ w.log) := by
    refine not_reportsError_append h fun o ho => ?_
    split at ho
    · exact absurd ho List.not_mem_nil
    · rw [List.mem_singleton.mp ho]
      exact ⟨rfl, by simp⟩
  rw [senderBody_log]
  by_cases herror : w.appError = .none
  · rw [if_neg (not_not.mpr herror)]
    refine ⟨fun hreports => absurd hreports ?_, fun hnot => absurd herror hnot⟩
    exact not_reportsError_append htimeout (by simp [Obs.isPost])
  · refine ⟨fun _ => herror, fun _ => ?_⟩
    rw [ReportsError, since_append (by simp [herror, Obs.isPost]), List.mem_append]
    exact Or.inl (by simp [herror])

/-- **Any content of `_app.error`.** Whatever it holds at the end of the wait, the branch is right
about the post of its cycle exactly if `_app.error` is. -/
theorem branch_right_iff {w₀ : World} {bs : List (Option SenderWait × PassInput)} {l : SenderWait}
    (hexec : Execution (coapSendingProcess p) BetweenCalls w₀ bs (.wait l) w)
    (hguard : (coapSendingProcess p inp).guard l w = (w', some true)) :
    (ReportsError ((coapSendingProcess p inp).body l w').1.log ↔
        PostFailed ((coapSendingProcess p inp).body l w').1.log) ↔
      (w'.appError ≠ .none ↔ PostFailed w'.log) := by
  have hsilent : ¬ ReportsError w'.log := by
    obtain ⟨new, hlog, hnew⟩ := senderGuard_betweenCalls l w
    obtain rfl : (senderGuard l w).1 = w' := congrArg Prod.fst hguard
    rw [hlog]
    exact not_reportsError_append (not_reportsError_of_execution hexec l rfl) hnew
  have hbranch := reportsError_senderBody_iff l hsilent
  have hfailed := postFailed_senderBody_iff l w'
  simp only [coapSendingProcess, hbranch, hfailed]

/-! ### What the search leaves in `_app.error` -/

/-- How the result variables of the search stand, the connection thread being suspended at the
given continuation: an answer ends the search, and a CoAP client needs a good answer. -/
structure Settled (node : Option NodeWait) (w : World) : Prop where
  ended : w.appDone = true → w.dns.outstanding = []
  answered : node = some .resultSleep → w.appDone = true
  client : w.app.coap = .client → w.appDone = true ∧ w.appError = .none

/-- They stand as before. -/
theorem Settled.leaves {node : Option NodeWait} (h : Settled node w)
    (hleaves : LeavesSearch w w') : Settled node w' where
  ended hdone := hleaves.outstanding.trans (h.ended (hleaves.done.symm.trans hdone))
  answered hnode := hleaves.done.trans (h.answered hnode)
  client hclient := by
    obtain ⟨hdone, herror⟩ := h.client (hleaves.coap.symm.trans hclient)
    exact ⟨hleaves.done.trans hdone, hleaves.error.trans herror⟩

/-- They stand as before in a pass that leaves the thread alone. -/
theorem Settled.leaves_thread (h : Settled w.app.pThread1 w)
    (hnode : w'.app.pThread1 = w.app.pThread1) (hleaves : LeavesSearch w w') :
    Settled w'.app.pThread1 w' := by
  rw [hnode]
  exact h.leaves hleaves

/-- The thread goes on, but not to the wait before the use of an answer. -/
theorem Settled.moves {node node' : Option NodeWait} (h : Settled node w)
    (hnode : node' ≠ some .resultSleep) : Settled node' w :=
  { h with answered := fun hresult => absurd hresult hnode }

/-- While there is no answer and no client, there is nothing to show. -/
theorem Settled.of_unanswered {node : Option NodeWait} (hdone : w.appDone = false)
    (hnode : node ≠ some .resultSleep) (hnull : w.app.coap ≠ .client) : Settled node w where
  ended hd := absurd (hdone.symm.trans hd) Bool.false_ne_true
  answered hresult := absurd hresult hnode
  client hclient := absurd hclient hnull

/-- The assertion at a jump of the connection thread. -/
def NodeSettled (j : Jump NodeWait) (w : World) : Prop :=
  Services w ∧ Settled j.continuation w

/-- The connection test. -/
theorem nodeWaitConnected_settled {node : Option NodeWait} (hs : Services w)
    (h : Settled node w) :
    NodeSettled (nodeWaitConnected p inp w).2 (nodeWaitConnected p inp w).1 := by
  have hearly := nodeWaitConnected_early p inp w
  refine ⟨hs.nodeWaitConnected, (h.leaves (nodeWaitConnected_leaves p inp w)).moves ?_⟩
  intro hresult
  rw [hresult] at hearly
  exact absurd hearly (by simp [NodeWait.pastTest])

/-- The end of the thread. -/
theorem Settled.ends {node : Option NodeWait} (h : Settled node w) :
    Settled none (nodeEnd w).1 :=
  ⟨h.ended, fun hnone => absurd hnone (by simp), h.client⟩

/-- The search: a browse that is not launched is answered at once, with an error, and there is
no CoAP client then. -/
theorem nodeSearch_settled {node : Option NodeWait} (hs : Services w) (h : Settled node w) :
    NodeSettled (nodeSearch inp w).2 (nodeSearch inp w).1 := by
  refine ⟨hs.nodeSearch, ?_⟩
  rw [nodeSearch]
  cases hdone : w.appDone with
  | true =>
      rw [if_pos rfl]
      exact h.ends
  | false =>
      have hnull : w.app.coap ≠ .client := by
        intro hclient
        exact absurd (hdone.symm.trans (h.client hclient).1) Bool.false_ne_true
      have hlaunch : (Jump.wait NodeWait.launchSleep).continuation ≠ some .resultSleep := by
        simp [Jump.continuation]
      obtain ⟨clock, htick⟩ := World.tick_eq
        { w with mem := (w.mem.setBool .app false).setError .app .none }
      simp only [Bool.false_eq_true, if_false, World.now, htick]
      split
      · exact .of_unanswered (by simp [World.appDone]) (by simp [Jump.continuation]) hnull
      · cases href : w.dns.client.refuses with
        | true =>
            simp only [mdnsScheduleSearch_of_refuses href, if_true]
            exact .of_unanswered (by simp [World.appDone]) hlaunch hnull
        | false =>
            have hidle : w.dns.client.busy = false := by
              rw [MDnsClient.refuses, Bool.or_eq_false_iff] at href
              exact href.1
            have hout : w.dns.outstanding = [] := hs.browse.outstanding_eq_nil hidle
            by_cases hlaunched : inp.browse = .none
            · simp only [mdnsScheduleSearch, href, hlaunched, Bool.false_eq_true, if_false,
                ne_eq, not_true_eq_false]
              exact .of_unanswered (by simp [World.note, World.appDone]) hlaunch hnull
            · simp only [mdnsScheduleSearch, href, hlaunched, Bool.false_eq_true, if_false,
                ne_eq, not_false_eq_true, if_true]
              exact ⟨fun _ => hout, fun hresult => absurd hresult hlaunch,
                fun hclient => absurd hclient hnull⟩

/-- The start of the CoAP client, with a good answer. -/
theorem nodeInitCoap_settled (hs : Services w) (h : Settled (some .resultSleep) w)
    (herror : w.appError = .none) :
    NodeSettled (nodeInitCoap p inp w).2 (nodeInitCoap p inp w).1 := by
  have hdone := h.answered rfl
  refine ⟨hs.nodeInitCoap, ?_⟩
  rw [nodeInitCoap]
  split
  · exact h.ends
  · simp only
    split <;> exact ⟨h.ended, fun hnone => absurd hnone (by simp [nodeEnd, Jump.continuation]),
      fun _ => ⟨hdone, herror⟩⟩

/-- The blocks of the connection thread. -/
theorem nodeBody_settled {l : NodeWait} (h : NodeSettled (.wait l) w) :
    NodeSettled (nodeBody p inp l w).2 (nodeBody p inp l w).1 := by
  obtain ⟨hs, h⟩ := h
  cases l with
  | connectSleep =>
      obtain ⟨clock, htick⟩ := w.tick_eq
      simp only [nodeBody, World.now, htick]
      refine nodeWaitConnected_settled { hs with } (h.leaves ?_)
      exact ⟨rfl, id, rfl, rfl, rfl, [], rfl, by simp⟩
  | mdnsRetrySleep | mdnsInitSleep | mdnsReady | launchSleep | answer =>
      exact ⟨hs, h.moves (by simp [nodeBody, Jump.continuation])⟩
  | searchSleep => exact nodeSearch_settled hs h
  | answerSleep =>
      refine ⟨hs, ?_⟩
      simp only [nodeBody]
      split
      · next hdone => exact { h with answered := fun _ => hdone }
      · exact h.moves (by simp [Jump.continuation])
  | resultSleep =>
      rw [nodeBody]
      split
      · exact ⟨hs, h.moves (by simp [Jump.continuation])⟩
      · next herror => exact nodeInitCoap_settled hs h (not_not.mp herror)

/-- A call of thread 1. -/
theorem Settled.runNode (hs : Services w) (h : Settled w.app.pThread1 w)
    (hrun : runNode p inp w = some w') : Settled w'.app.pThread1 w' := by
  rcases runNode_cases hrun with ⟨-, rfl⟩ | ⟨-, w₁, j, hresume, rfl⟩
  · exact h
  · have hkeeps : (nodeConnectThread p inp).Keeps NodeSettled := by
      refine Protothread.Keeps.of_tests ?_ (fun _ _ hj => nodeBody_settled hj) ?_
      · exact fun l s hj => ⟨hj.1.nodeGuard l, hj.2.leaves (nodeGuard_leaves l s)⟩
      · exact fun l s s' _ hj => ⟨hj.1, hj.2.moves (by simp [Jump.continuation])⟩
    have hj : NodeSettled j w₁ := by
      refine hkeeps.resume (fun _ => nodeWaitConnected_settled hs h) (fun l hl => ?_) hresume
      rw [hl] at h
      exact ⟨hs, h⟩
    refine hj.2.leaves ?_
    exact ⟨rfl, id, rfl, rfl, rfl, [], rfl, by simp⟩

/-- The callback of a browse comes while there is no answer yet, and so no client. -/
theorem Settled.browseCallback (hs : Services w) (h : Settled w.app.pThread1 w) {i : ℕ}
    (hi : i < w.dns.outstanding.length) (error : OtError) (response : BrowseResponse)
    (stack : List UInt8) :
    Settled (browseCallback p w i error response stack).app.pThread1
      (browseCallback p w i error response stack) := by
  have hunanswered : w.appDone ≠ true := by
    intro hdone
    rw [h.ended hdone] at hi
    exact absurd hi (Nat.not_lt_zero i)
  rw [SmartCO2.browseCallback]
  split
  · next dns mem hres =>
      obtain ⟨_, done, _, _, _, -, hdone, -, -, hdns, rfl⟩ := DnsService.result_inv hres
      have hout : dns.outstanding = [] :=
        (hs.browse.result hi hres).outstanding_eq_nil (by rw [hdns])
      obtain rfl := hs.browseDone done hdone
      exact
        { ended := fun _ => hout
          answered := fun _ => by simp [World.note, World.appDone]
          client := fun hclient => absurd (h.client hclient).1 hunanswered }
  · exact h.leaves ⟨rfl, id, rfl, rfl, rfl, [], rfl, by simp⟩

/-! ### Runs -/

/-- What the runs keep: while the sending process waits the server has been found, and the
branch of the CoAP error has not been taken. -/
structure ReportInvariant (w : World) : Prop where
  search : SearchInvariant w
  settled : Settled w.app.pThread1 w
  found : w.app.sendingProcessPt = some .ack → searchOf w.log = .found
  unreported : .coapError ∉ w.log

/-- What leaves the sending process alone keeps the invariant. -/
theorem ReportInvariant.leaves (h : ReportInvariant w) (hsearch : SearchInvariant w')
    (hsettled : Settled w'.app.pThread1 w') (hleaves : LeavesSender w w') :
    ReportInvariant w' := by
  obtain ⟨new, hlog, hnew⟩ := hleaves.log
  refine ⟨hsearch, hsettled, fun hack => ?_, ?_⟩
  · rw [hlog]
    exact searchOf_append_of_found (h.found (hleaves.suspended.symm.trans hack)) new
  · rw [hlog, List.mem_append, not_or]
    exact ⟨fun hmem => absurd (hnew _ hmem) (by simp [Obs.ofSender]), h.unreported⟩

/-- The sending process waits only after a post to a client. -/
theorem senderPost_wait {l : SenderWait} (h : (senderPost inp w).2 = .wait l) :
    w.app.coap = .client := by
  rw [senderPost] at h
  split at h
  · exact absurd h (by simp)
  · next hclient => exact hclient

/-- The assertion at a jump of the sending process: where it waits, the server has been found
and `_app.error` tells of no error. -/
def SenderSilent (j : Jump SenderWait) (w : World) : Prop :=
  .coapError ∉ w.log ∧ ∀ l, j = .wait l → searchOf w.log = .found ∧ w.appError = .none

/-- A post. -/
theorem coapSendingProcess_entry_silent (h : ReportInvariant w) :
    SenderSilent ((coapSendingProcess p inp).entry w).2 ((coapSendingProcess p inp).entry w).1 := by
  obtain ⟨r, hlog, -, -⟩ := coapSendingProcess_entry p inp w
  obtain ⟨-, hleaves⟩ := coapSendingProcess_entry_search p inp w
  refine ⟨?_, fun l hl => ?_⟩
  · rw [hlog, List.mem_cons, not_or]
    exact ⟨by simp, h.unreported⟩
  · obtain ⟨clock, hbuild⟩ := senderBuild_eq p w
    have hclient : w.app.coap = .client := by
      have hposted := senderPost_wait hl
      rw [hbuild] at hposted
      exact hposted
    exact ⟨hleaves.searchOf_eq.trans (h.search.prospect.coap_eq_client_iff.mp hclient),
      hleaves.error.trans (h.settled.client hclient).2⟩

/-- The test of the wait. -/
theorem senderGuard_silent {l : SenderWait} (h : SenderSilent (.wait l) w) :
    SenderSilent (.wait l) (senderGuard l w).1 := by
  obtain ⟨hunreported, hwait⟩ := h
  obtain ⟨hfound, herror⟩ := hwait l rfl
  obtain ⟨clock, notes, heq, hnotes⟩ := senderGuard_eq l w
  rw [heq]
  refine ⟨?_, fun _ _ => ⟨searchOf_append_of_found hfound notes, herror⟩⟩
  rw [List.mem_append, not_or]
  refine ⟨fun hmem => ?_, hunreported⟩
  obtain ⟨time, done, error, left, htested⟩ := hnotes _ hmem
  cases htested

/-- The end of the cycle: the branch is not taken. -/
theorem senderBody_silent {l : SenderWait} (h : SenderSilent (.wait l) w) :
    SenderSilent (senderBody l w).2 (senderBody l w).1 := by
  obtain ⟨hunreported, hwait⟩ := h
  obtain ⟨-, herror⟩ := hwait l rfl
  refine ⟨?_, fun l hl => absurd hl (by simp [senderBody])⟩
  rw [senderBody_log, if_neg (not_not.mpr herror)]
  split <;> simp [hunreported]

namespace ReportInvariant

/-- A call of the sending process. -/
theorem runSender (h : ReportInvariant w) (hrun : runSender p inp w = some w') :
    ReportInvariant w' := by
  have hsearch := h.search.runSender hrun
  rcases runSender_cases hrun with ⟨-, rfl⟩ | ⟨hend, -, w₁, j, hresume, rfl⟩
  · exact h
  · obtain ⟨hnode, hleaves, -⟩ := coapSendingProcess_search h.search hend hresume
    have hkeeps : (coapSendingProcess p inp).Keeps SenderSilent :=
      Protothread.Keeps.of_tests (fun _ _ hs => senderGuard_silent hs)
        (fun _ _ hs => senderBody_silent hs)
        (fun _ _ _ _ hs => ⟨hs.1, fun _ hl => absurd hl (by simp)⟩)
    have hj : SenderSilent j w₁ := by
      refine hkeeps.resume (fun _ => coapSendingProcess_entry_silent h) (fun l hl => ?_) hresume
      have hfound := h.found hl
      have hclient := h.search.prospect.coap_eq_client_iff.mpr hfound
      exact ⟨h.unreported, fun _ _ => ⟨hfound, (h.settled.client hclient).2⟩⟩
    refine ⟨hsearch, ?_, fun hack => ?_, hj.1⟩
    · have hsettled := h.settled.leaves_thread hnode hleaves
      exact hsettled.leaves ⟨rfl, id, rfl, rfl, rfl, [], rfl, by simp⟩
    · cases j with
      | wait l => exact (hj.2 l rfl).1
      | _ => exact absurd hack (by simp [Jump.continuation])

end ReportInvariant

/-- **The report in runs.** -/
theorem reportInvariant_runRule (p : Platform) :
    RunRule p (fun _ _ => True) ReportInvariant where
  idle clock run armed done2 done4 h :=
    h.leaves ((searchInvariant_runRule p).idle clock run armed done2 done4 h.search)
      (h.settled.leaves (.idle _ clock run armed done2 done4))
      (.idle _ clock run armed done2 done4)
  node _ h hrun :=
    h.leaves (h.search.runNode hrun) (h.settled.runNode h.search.services hrun) (.runNode hrun)
  sensor _ h hrun := by
    obtain ⟨hnode, hleaves⟩ := LeavesSearch.runSensor hrun
    exact h.leaves (h.search.runSensor hrun) (h.settled.leaves_thread hnode hleaves)
      (.runSensor hrun)
  sender _ h hrun := h.runSender hrun
  role {w} changed role hfault h := by
    obtain ⟨hnode, hleaves⟩ := LeavesSearch.role changed role w
    exact h.leaves ((searchInvariant_runRule p).role changed role hfault h.search)
      (h.settled.leaves_thread hnode hleaves) (.role changed role w)
  autostart sock hfault h :=
    h.leaves ((searchInvariant_runRule p).autostart sock hfault h.search)
      (h.settled.leaves (.autostart sock _)) (.autostart sock _)
  browse error response stack _ hi h :=
    h.leaves (h.search.browseCallback hi error response stack)
      (h.settled.browseCallback h.search.services hi error response stack)
      (.browseCallback h.search.services error response stack)
  request {w i r} error response hfault _ hr h := by
    have hsearch := (searchInvariant_runRule p).request error response hfault trivial hr h.search
    have hleaves := LeavesSearch.requestCallback h.search.services hr error response
    obtain ⟨svc, -, -, -, heq⟩ := h.search.services.requestCallback_eq hr error response
    rw [heq] at hsearch hleaves ⊢
    refine ⟨hsearch, h.settled.leaves hleaves, fun hack => ?_, ?_⟩
    · exact searchOf_append_of_found (h.found hack) [_]
    · rw [World.note, List.mem_cons, not_or]
      exact ⟨by simp, h.unreported⟩

/-- The firmware boots into the invariant. -/
theorem boot_reportInvariant (now : UInt32) : ReportInvariant (boot now) :=
  ⟨boot_searchInvariant now,
    ⟨fun hdone => absurd hdone Bool.false_ne_true, fun hnone => absurd hnone (by simp [boot]),
      fun hclient => absurd hclient (by simp [boot])⟩,
    fun hack => absurd hack (by simp [boot]), List.not_mem_nil⟩

/-- At the end of a cycle: the branch of the CoAP error was taken exactly if the post of the
cycle has failed. -/
def ReportsFailure (o : Obs) (earlier : List Obs) : Prop :=
  o = .cycleEnded → (ReportsError earlier ↔ PostFailed earlier)

/-- At the end of a cycle: the branch is right exactly if the post of the cycle has not
failed. -/
def RightUnlessFailed (o : Obs) (earlier : List Obs) : Prop :=
  o = .cycleEnded → ((ReportsError earlier ↔ PostFailed earlier) ↔ ¬ PostFailed earlier)

/-- **The branch of the CoAP error.** In every run of the firmware, whatever its searches have
brought, the branch is right at the end of a cycle exactly if the post of the cycle has not failed:
`_app.error` holds no error whenever there is a client to post with, so it is never taken. -/
theorem coapError_iff (p : Platform) (now : UInt32) (es : List Event)
    (hrun : (firmware p).run (boot now) es = some w) : Always RightUnlessFailed w.log := by
  have h : ReportInvariant w :=
    (reportInvariant_runRule p).run_all (boot_reportInvariant now) hrun
  have hsilent : Always (fun _ earlier => ¬ ReportsError earlier) w.log :=
    (always_not_mem h.unreported).imp fun _ _ hnot hreports => hnot (mem_of_mem_since hreports)
  refine hsilent.imp ?_
  intro o earlier hnot _
  constructor
  · exact fun hright hfailed => hnot (hright.mpr hfailed)
  · intro hfine
    exact ⟨fun hreports => absurd hreports hnot, fun hfailed => absurd hfailed hfine⟩

/-- A pass in which `otCoapNewMessage` has no buffer left. -/
def noBufs : PassInput := { measuring with post := ⟨false, .none, .none, .none, .none⟩ }

/-- A first cycle whose post fails. -/
theorem failed_post_coapError_iff : ∃ w,
    (firmware (.configured parseLoopback)).run (boot 0)
        (connecting 0 measuring ++ [.pass noBufs]) = some w ∧
      Always RightUnlessFailed w.log :=
  ⟨_, rfl, coapError_iff (.configured parseLoopback) 0
    (connecting 0 measuring ++ [.pass noBufs]) rfl⟩

/-- The post of a first cycle fails, and the cycle ends without the branch. -/
theorem failed_post_unreported : ∃ w,
    (firmware (.configured parseLoopback)).run (boot 0)
        (connecting 0 measuring ++ [.pass noBufs]) = some w ∧
      ¬ Always ReportsFailure w.log := by
  refine ⟨_, rfl, fun h => ?_⟩
  have hfailed := (h.1 rfl).mpr ⟨_, rfl, Or.inl rfl⟩
  exact absurd (mem_of_mem_since hfailed) (by decide)

end SmartCO2
