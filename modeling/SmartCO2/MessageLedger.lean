import SmartCO2.Library.History
import SmartCO2.CoapRuns

/-!
# Who Owns a Message

The ledger of `CoapService` lists what happened to each message. A message that the application
has allocated is its own until `otCoapSendRequest` takes it or `otMessageFree` frees it; the
response that a callback gets belongs to OpenThread.

## Main results

* `wellOwned_iff`: every message that is freed is owned, and every allocated one is handed over
  or freed exactly once, exactly as long as no post gets no message, and no callback has both
  an error and a response.
-/

namespace SmartCO2

variable {Loc : Type*}

/-! ### Ownership -/

/-- The application owns the message: it has been allocated, and neither handed over nor
freed. -/
def Owns (ledger : List LedgerEntry) (message : ℕ) : Prop :=
  .alloc message ∈ ledger ∧ .sent message ∉ ledger ∧ .free (some message) ∉ ledger

/-- Only messages are freed that the application owns; the response of a request is not. -/
def FreesOwned : LedgerEntry → List LedgerEntry → Prop
  | .free message, earlier => ∃ m, message = some m ∧ Owns earlier m
  | .freeResponse, _ => False
  | .alloc _, _ | .sent _, _ => True

/-- How often a message was handed over or freed. -/
def disposals (message : ℕ) (ledger : List LedgerEntry) : ℕ :=
  ledger.count (.sent message) + ledger.count (.free (some message))

/-- The ledger is in order: only owned messages are freed, and every allocated message was
handed over or freed exactly once. -/
structure WellOwned (ledger : List LedgerEntry) : Prop where
  frees : Always FreesOwned ledger
  disposed : ∀ message, .alloc message ∈ ledger → disposals message ledger = 1

/-- A message without a disposal is neither handed over nor freed. -/
theorem disposals_eq_zero_iff {message : ℕ} {ledger : List LedgerEntry} :
    disposals message ledger = 0 ↔
      .sent message ∉ ledger ∧ .free (some message) ∉ ledger := by
  rw [disposals, Nat.add_eq_zero_iff, List.count_eq_zero, List.count_eq_zero]

/-- The ledger holds nothing about messages to be allocated yet. -/
def FreshFrom (allocated : ℕ) (ledger : List LedgerEntry) : Prop :=
  ∀ message, allocated ≤ message →
    .alloc message ∉ ledger ∧ disposals message ledger = 0

/-- A new message that is handed over or freed at once keeps the ledger in order. -/
theorem WellOwned.dispose {ledger : List LedgerEntry} {message : ℕ} (h : WellOwned ledger)
    (hfresh : FreshFrom message ledger) {entry : LedgerEntry}
    (hentry : entry = .sent message ∨ entry = .free (some message)) :
    WellOwned (entry :: .alloc message :: ledger) ∧
      FreshFrom (message + 1) (entry :: .alloc message :: ledger) := by
  obtain ⟨hnew, hzero⟩ := hfresh message le_rfl
  obtain ⟨hsent, hfree⟩ := disposals_eq_zero_iff.mp hzero
  have hother : ∀ m, m ≠ message →
      disposals m (entry :: .alloc message :: ledger) = disposals m ledger := by
    intro m hm
    rcases hentry with rfl | rfl <;> simp [disposals, Ne.symm hm]
  refine ⟨⟨?_, ?_⟩, ?_⟩
  · refine always_cons.mpr ⟨?_, always_cons.mpr ⟨trivial, h.frees⟩⟩
    rcases hentry with rfl | rfl
    · trivial
    · exact ⟨message, rfl, by simp, by simpa using hsent, by simpa using hfree⟩
  · intro m hm
    by_cases heq : m = message
    · subst heq
      rw [disposals] at hzero
      rcases hentry with rfl | rfl <;> simp [disposals] <;> omega
    · rw [hother m heq]
      refine h.disposed m ?_
      rcases hentry with rfl | rfl <;> simpa [heq] using hm
  · intro m hm
    have hne : m ≠ message := by omega
    obtain ⟨hnot, hdisposals⟩ := hfresh m (by omega)
    rw [hother m hne]
    refine ⟨?_, hdisposals⟩
    rcases hentry with rfl | rfl <;> simpa [hne] using hnot

/-! ### Posts and callbacks -/

/-- A post reaches its OpenThread calls: the client is idle and the message not too long. -/
def ReachesCalls (client : CoapClient Loc) (size : UInt16) : Prop :=
  client.busy = false ∧ size.toNat < msgMaxLen

section

variable [DecidableEq Loc] (svc : CoapService Loc) (mem : Memory Loc) (message : List UInt8)
  {size : UInt16} (done errorOut : Loc) (out : PostOutcome)

/-- A post that does not reach its calls leaves the messages alone. -/
theorem post_refused (h : ¬ ReachesCalls svc.client size) :
    (coapSchedulePost svc mem message size done errorOut out).2.1 = svc := by
  cases hbusy : svc.client.busy with
  | true => rw [coapSchedulePost_of_busy hbusy]
  | false =>
      have hsize : msgMaxLen ≤ size.toNat := by
        by_contra hlt
        exact h ⟨hbusy, by omega⟩
      rw [coapSchedulePost_of_long hbusy hsize]

/-- A post that gets no message frees `NULL`. -/
theorem post_without_message (h : ReachesCalls svc.client size) (hout : out.newMessage = false) :
    (coapSchedulePost svc mem message size done errorOut out).2.1.ledger =
      .free none :: svc.ledger := by
  rw [coapSchedulePost_of_noMessage h.1 h.2 hout]
  rfl

/-- A post that gets a message hands it over or frees it. -/
theorem post_with_message (h : ReachesCalls svc.client size) (hout : out.newMessage = true) :
    (coapSchedulePost svc mem message size done errorOut out).2.1.allocated =
        svc.allocated + 1 ∧
      ∃ entry, (entry = .sent svc.allocated ∨ entry = .free (some svc.allocated)) ∧
        (coapSchedulePost svc mem message size done errorOut out).2.1.ledger =
          entry :: .alloc svc.allocated :: svc.ledger := by
  by_cases hok : out = .success
  · rw [hok, coapSchedulePost_of_success h.1 h.2]
    exact ⟨rfl, _, Or.inl rfl, rfl⟩
  · obtain ⟨error, -, hpost⟩ :=
      coapSchedulePost_of_failedCall h.1 h.2 hout hok mem message done errorOut
    rw [hpost]
    exact ⟨rfl, _, Or.inr rfl, rfl⟩

end

/-- `coap_init` does not touch any message. -/
theorem coapInit_ledger (svc : CoapService Loc) (target : Ip6Address) (token : List UInt8)
    (start : OtError) : (coapInit svc target token start).2.ledger = svc.ledger := by
  rw [coapInit]
  simp only
  split
  · rfl
  · split <;> rfl

/-- The callback of a request frees the response exactly if it has one with an error. -/
theorem callback_ledger [DecidableEq Loc] {svc svc' : CoapService Loc} {mem mem' : Memory Loc}
    {i : ℕ} {error : OtError} {response : Bool}
    (h : svc.callback mem i error response = some (svc', mem')) :
    svc'.allocated = svc.allocated ∧ svc'.ledger =
      if error ≠ .none ∧ response = true then .freeResponse :: svc.ledger else svc.ledger := by
  rw [CoapService.callback, coapRequestCallback] at h
  split at h
  · obtain ⟨rfl, -⟩ := Prod.mk.inj (Option.some.inj h)
    split <;> exact ⟨rfl, rfl⟩
  · exact absurd h (by simp)

/-! ### Runs -/

/-- A step that frees no message but its own: a post that reaches its calls gets a message, and
a callback does not have both an error and a response. -/
def FreesItsOwn (s : CoapState Loc) : CoapEvent Loc → Prop
  | .post _ size _ _ out => ReachesCalls s.service.client size → out.newMessage = true
  | .callback _ error response => ¬ (error ≠ .none ∧ response = true)

/-- What the steps with an ordered ledger keep. -/
structure LedgerInvariant (s : CoapState Loc) : Prop where
  owned : WellOwned s.service.ledger
  fresh : FreshFrom s.service.allocated s.service.ledger

/-- A message that is not one cannot be freed. -/
theorem not_wellOwned_free_none (ledger : List LedgerEntry) :
    ¬ WellOwned (.free none :: ledger) := by
  intro h
  obtain ⟨m, hm, -⟩ := (always_cons.mp h.frees).1
  exact absurd hm (by simp)

/-- The response of a request cannot be freed. -/
theorem not_wellOwned_freeResponse (ledger : List LedgerEntry) :
    ¬ WellOwned (.freeResponse :: ledger) := fun h => (always_cons.mp h.frees).1

variable [DecidableEq Loc]

/-- **One step** leaves the ledger in order exactly if it frees no message but its own, and then
the new messages are still unused. -/
theorem LedgerInvariant.step {s s' : CoapState Loc} {e : CoapEvent Loc} (h : LedgerInvariant s)
    (hstep : (coapSystem Loc).step s e = some s') :
    (WellOwned s'.service.ledger ↔ FreesItsOwn s e) ∧
      (WellOwned s'.service.ledger → LedgerInvariant s') := by
  cases e with
  | post message size done errorOut out =>
      obtain rfl := Option.some.inj hstep
      by_cases hreach : ReachesCalls s.service.client size
      · cases hout : out.newMessage with
        | false =>
            have hledger := post_without_message s.service s.memory message done errorOut out
              hreach hout
            simp only [hledger, not_wellOwned_free_none, FreesItsOwn, hout, hreach]
            simp
        | true =>
            obtain ⟨halloc, entry, hentry, hledger⟩ := post_with_message s.service s.memory
              message done errorOut out hreach hout
            obtain ⟨howned, hfresh⟩ := h.owned.dispose h.fresh hentry
            simp only [hledger]
            refine ⟨⟨fun _ _ => hout, fun _ => howned⟩, fun _ => ⟨?_, ?_⟩⟩
            · rw [hledger]
              exact howned
            · rw [hledger, halloc]
              exact hfresh
      · have hsame := post_refused s.service s.memory message done errorOut out hreach
        simp only [hsame]
        exact ⟨⟨fun _ hr => absurd hr hreach, fun _ => h.owned⟩,
          fun _ => ⟨hsame ▸ h.owned, hsame ▸ h.fresh⟩⟩
  | callback i error response =>
      simp only [coapSystem, coapStep] at hstep
      split at hstep
      · obtain ⟨⟨svc', mem'⟩, hcallback, rfl⟩ := Option.map_eq_some_iff.mp hstep
        obtain ⟨halloc, hledger⟩ := callback_ledger hcallback
        by_cases hfrees : error ≠ .none ∧ response = true
        · rw [if_pos hfrees] at hledger
          simp only [hledger, FreesItsOwn, not_not.mpr hfrees, iff_false]
          exact ⟨not_wellOwned_freeResponse _,
            fun howned => absurd howned (not_wellOwned_freeResponse _)⟩
        · rw [if_neg hfrees] at hledger
          simp only [hledger]
          refine ⟨⟨fun _ => hfrees, fun _ => h.owned⟩, fun _ => ⟨?_, ?_⟩⟩
          · rw [hledger]
            exact h.owned
          · rw [hledger, halloc]
            exact h.fresh
      · exact absurd hstep (by simp)

/-- **The ownership of messages.** After `coap_init`, every step of a run of posts and callbacks
leaves the ledger in order, if and only if every post that reaches its OpenThread calls gets a
message, and no callback comes with an error and a response. -/
theorem wellOwned_iff (memory : Memory Loc) (target : Ip6Address) (token : List UInt8)
    (start : OtError) (es : List (CoapEvent Loc)) :
    (coapSystem Loc).EachStep (fun _ _ s' => WellOwned s'.service.ledger)
        (coapStart memory target token start) es ↔
      (coapSystem Loc).EachStep (fun s e _ => FreesItsOwn s e)
        (coapStart memory target token start) es := by
  refine StepSystem.eachStep_iff (I := LedgerInvariant) (fun s e s' h hstep => (h.step hstep).1)
    (fun s e s' h hstep howned => (h.step hstep).2 howned) ?_
  have hempty : (coapStart memory target token start).service.ledger = [] :=
    coapInit_ledger .zero target token start
  refine ⟨?_, ?_⟩ <;> rw [hempty]
  · exact ⟨trivial, by simp⟩
  · exact fun message _ => ⟨by simp, rfl⟩

/-- `otCoapNewMessage` has no buffer left, and `otMessageFree` is called on `NULL`. -/
theorem free_null_after_noBufs :
    ¬ (coapSystem ℕ).EachStep (fun _ _ s' => WellOwned s'.service.ledger)
        (coapStart .zero 1 appToken .none)
        [.post (ascii "x") 1 0 0 ⟨false, .none, .none, .none, .none⟩] := by
  intro h
  obtain ⟨howned, -⟩ := (StepSystem.eachStep_cons rfl).mp h
  exact not_wellOwned_free_none [] howned

end SmartCO2
