import SmartCO2.Library.StepSystem
import SmartCO2.Config
import SmartCO2.Dns

/-!
# Runs of the Service Discovery Client

`dnsSystem` lets searches, autostart callbacks and browse callbacks follow each other in any
order after `mdns_init`, with any result locations and any outcomes of OpenThread. A browse
callback needs an accepted browse without a callback, and takes it off the list, so each
accepted browse gets at most one.

## Main results

* `OneBrowse.search`, `OneBrowse.result`: the busy flag says whether a browse is outstanding,
  there is never a second one, and the client points at the locations of its search.
* `delivery_iff`: every step of a run routes its results as it should exactly when no
  callback overflows `ip`.
* `ready_iff`: `mdns_is_ready` reports the SRP client truly, and no browse is launched while
  it is stopped, exactly when it never stops.
-/

namespace SmartCO2

variable {Loc : Type*}

/-! ### The busy flag -/

/-- At most one browse is outstanding; the client is busy exactly when there is one, and
points at the result locations of its search. -/
def OneBrowse (svc : DnsService Loc) : Prop :=
  (svc.client.busy = false ∧ svc.outstanding = []) ∨
    ∃ b, svc.client.busy = true ∧ svc.outstanding = [b] ∧ svc.client.address = some b.address ∧
      svc.client.done = some b.done ∧ svc.client.error = some b.error

/-- The busy flag and the length of the list say the same. -/
theorem OneBrowse.busy_iff {svc : DnsService Loc} (h : OneBrowse svc) :
    (svc.client.busy = true ↔ svc.outstanding.length = 1) ∧ svc.outstanding.length ≤ 1 := by
  rcases h with ⟨hbusy, hout⟩ | ⟨b, hbusy, hout, -, -, -⟩ <;> simp [hbusy, hout]

/-- An idle client has no browse outstanding. -/
theorem OneBrowse.outstanding_eq_nil {svc : DnsService Loc} (h : OneBrowse svc)
    (hidle : svc.client.busy = false) : svc.outstanding = [] := by
  rcases h with ⟨-, hout⟩ | ⟨b, hbusy, -⟩
  · exact hout
  · rw [hidle] at hbusy
    exact absurd hbusy Bool.false_ne_true

/-- An autostart callback leaves the browses and the result locations alone. -/
theorem OneBrowse.autostart {svc : DnsService Loc} (h : OneBrowse svc)
    (sock : Option SockAddr) : OneBrowse (svc.autostart sock) := by
  cases sock <;> exact h

/-- After `mdns_init` no browse is outstanding, if none was before. -/
theorem OneBrowse.init {svc : DnsService Loc} (hout : svc.outstanding = [])
    (serviceName : List UInt8) (autostarts : List (Option SockAddr)) :
    OneBrowse (mdnsInit svc serviceName autostarts).2 := by
  rw [mdnsInit]
  split
  · exact Or.inl ⟨rfl, hout⟩
  · have hfold : ∀ (l : List (Option SockAddr)) (svc : DnsService Loc), OneBrowse svc →
        OneBrowse (l.foldl DnsService.autostart svc) := by
      intro l
      induction l with
      | nil => exact fun _ h => h
      | cons sock l ih => exact fun svc h => ih _ (h.autostart sock)
    exact hfold _ _ (Or.inl ⟨rfl, hout⟩)

section Search

variable [DecidableEq Loc]

/-- A refused search changes nothing. -/
theorem mdnsScheduleSearch_of_refuses {svc : DnsService Loc} (h : svc.client.refuses = true)
    (mem : Memory Loc) (address done error : Loc) (browse : OtError) :
    mdnsScheduleSearch svc mem address done error browse = (.busy, svc, mem) := by
  rw [mdnsScheduleSearch, if_pos h]

/-- **A search keeps the busy flag true.** -/
theorem OneBrowse.search {svc : DnsService Loc} (h : OneBrowse svc) (mem : Memory Loc)
    (address done error : Loc) (browse : OtError) :
    OneBrowse (mdnsScheduleSearch svc mem address done error browse).2.1 := by
  cases href : svc.client.refuses with
  | true =>
      rw [mdnsScheduleSearch_of_refuses href]
      exact h
  | false =>
      have hidle : svc.client.busy = false := by
        rw [MDnsClient.refuses, Bool.or_eq_false_iff] at href
        exact href.1
      have hout : svc.outstanding = [] := h.outstanding_eq_nil hidle
      rw [mdnsScheduleSearch, if_neg (by rw [href]; exact Bool.false_ne_true)]
      by_cases hb : browse = .none
      · refine Or.inr ⟨⟨address, done, error⟩, ?_⟩
        simp [hb, hout]
      · refine Or.inl ?_
        simp [hb, hout]

/-- **A callback keeps the busy flag true**: the one outstanding browse is answered. -/
theorem OneBrowse.result {ip6FromString : List UInt8 → Ip6Address → OtError × Ip6Address}
    {svc svc' : DnsService Loc} {mem mem' : Memory Loc} {i : ℕ} {error : OtError}
    {response : BrowseResponse} {stack : List UInt8} (h : OneBrowse svc)
    (hi : i < svc.outstanding.length)
    (hres : svc.result ip6FromString mem i error response stack = some (svc', mem')) :
    OneBrowse svc' := by
  rcases h with ⟨-, hout⟩ | ⟨b, -, hout, -, -, -⟩
  · rw [hout] at hi
    exact absurd hi (Nat.not_lt_zero i)
  · obtain rfl : i = 0 := by
      rw [hout, List.length_singleton] at hi
      omega
    obtain ⟨_, _, _, _, _, -, -, -, -, rfl, -⟩ := DnsService.result_inv hres
    refine Or.inl ⟨rfl, ?_⟩
    rw [hout]
    rfl

end Search

/-! ### The system -/

/-- What can happen to the client after `mdns_init`: a search with its result locations and
the answer of `otDnsClientBrowse`, an autostart callback, or the callback of an accepted
browse. -/
inductive DnsEvent (Loc : Type*)
  | search (address done error : Loc) (browse : OtError)
  | autostart (sock : Option SockAddr)
  | result (i : ℕ) (error : OtError) (response : BrowseResponse) (stack : List UInt8)

/-- The client with the result variables of its callers. No event follows one without a
defined behaviour. -/
structure DnsState (Loc : Type*) where
  service : DnsService Loc
  memory : Memory Loc
  undefined : Bool

variable [DecidableEq Loc]
variable (ip6FromString : List UInt8 → Ip6Address → OtError × Ip6Address)

/-- One event. -/
def dnsStep (s : DnsState Loc) (e : DnsEvent Loc) : Option (DnsState Loc) :=
  if s.undefined then
    none
  else
    match e with
    | .search address done error browse =>
        let r := mdnsScheduleSearch s.service s.memory address done error browse
        some ⟨r.2.1, r.2.2, false⟩
    | .autostart sock => some { s with service := s.service.autostart sock }
    | .result i error response stack =>
        if i < s.service.outstanding.length then
          match s.service.result ip6FromString s.memory i error response stack with
          | some (svc, mem) => some ⟨svc, mem, false⟩
          | none => some { s with undefined := true }
        else none

/-- The client with searches and callbacks in any order. -/
def dnsSystem : StepSystem (DnsState Loc) (DnsEvent Loc) := ⟨dnsStep ip6FromString⟩

/-- The state in which a first `mdns_init` returns. -/
def dnsStart (memory : Memory Loc) (serviceName : List UInt8)
    (autostarts : List (Option SockAddr)) : DnsState Loc :=
  ⟨(mdnsInit .zero serviceName autostarts).2, memory, false⟩

/-! ### Delivery -/

/-- What one step has to do for its caller. The busy flag is exact and at most one browse is
outstanding. A refused search returns `OT_ERROR_BUSY` and changes nothing; a launch failure
leaves the client idle with `done` and `OT_ERROR_ABORT` stored. A callback returns, and
stores into the three locations of its own search and into no others. -/
def Delivers (s : DnsState Loc) (e : DnsEvent Loc) (s' : DnsState Loc) : Prop :=
  ((s'.service.client.busy = true ↔ s'.service.outstanding.length = 1) ∧
    s'.service.outstanding.length ≤ 1) ∧
  match e with
  | .search address done error browse =>
      if s.service.client.refuses then
        (mdnsScheduleSearch s.service s.memory address done error browse).1 = .busy ∧ s' = s
      else if browse ≠ .none then
        s'.service.client.busy = false ∧ s'.memory.bool done = true ∧
          s'.memory.error error = .abort
      else s'.service.outstanding = s.service.outstanding ++ [⟨address, done, error⟩]
  | .autostart _ => s'.memory = s.memory
  | .result i error response stack =>
      s'.undefined = false ∧
      ∃ b, s.service.outstanding[i]? = some b ∧
        s'.service.outstanding = s.service.outstanding.eraseIdx i ∧
        s'.memory.bool b.done = true ∧
        some (s'.memory.error b.error, s'.memory.address b.address) =
          browseResult ip6FromString error response stack (s.memory.address b.address) ∧
        (∀ l, l ≠ b.done → s'.memory.bool l = s.memory.bool l) ∧
        (∀ l, l ≠ b.error → s'.memory.error l = s.memory.error l) ∧
        (∀ l, l ≠ b.address → s'.memory.address l = s.memory.address l)

/-- The event is no callback that overflows `ip`. -/
def FitsIp : DnsEvent Loc → Prop
  | .result _ error response _ => ¬ OverflowsIp error response
  | _ => True

variable {ip6FromString}

/-! ### What a step can do -/

/-- A search takes place in a defined state. -/
theorem dnsStep_search {s s' : DnsState Loc} {address done error : Loc} {browse : OtError}
    (hstep : dnsStep ip6FromString s (.search address done error browse) = some s') :
    s.undefined = false ∧
      s' = ⟨(mdnsScheduleSearch s.service s.memory address done error browse).2.1,
        (mdnsScheduleSearch s.service s.memory address done error browse).2.2, false⟩ := by
  unfold dnsStep at hstep
  cases hdef : s.undefined with
  | true => simp [hdef] at hstep
  | false =>
      rw [hdef] at hstep
      exact ⟨rfl, (Option.some.inj hstep).symm⟩

/-- An autostart callback changes the service only. -/
theorem dnsStep_autostart {s s' : DnsState Loc} {sock : Option SockAddr}
    (hstep : dnsStep ip6FromString s (.autostart sock) = some s') :
    s' = { s with service := s.service.autostart sock } := by
  unfold dnsStep at hstep
  cases hdef : s.undefined with
  | true => simp [hdef] at hstep
  | false =>
      rw [hdef] at hstep
      exact (Option.some.inj hstep).symm

/-- A browse callback answers an outstanding browse, or has no defined behaviour. -/
theorem dnsStep_result {s s' : DnsState Loc} {i : ℕ} {error : OtError}
    {response : BrowseResponse} {stack : List UInt8}
    (hstep : dnsStep ip6FromString s (.result i error response stack) = some s') :
    i < s.service.outstanding.length ∧
      ((∃ svc mem, s.service.result ip6FromString s.memory i error response stack =
          some (svc, mem) ∧ s' = ⟨svc, mem, false⟩) ∨
        s.service.result ip6FromString s.memory i error response stack = none ∧
          s' = { s with undefined := true }) := by
  unfold dnsStep at hstep
  cases hdef : s.undefined with
  | true => simp [hdef] at hstep
  | false =>
      simp only [hdef, Bool.false_eq_true, if_false] at hstep
      split at hstep
      · next hi =>
          refine ⟨hi, ?_⟩
          split at hstep
          · next svc mem hres => exact Or.inl ⟨svc, mem, hres, (Option.some.inj hstep).symm⟩
          · next hres => exact Or.inr ⟨hres, (Option.some.inj hstep).symm⟩
      · exact absurd hstep (by simp)

/-- Every step keeps the busy flag exact. -/
theorem oneBrowse_step {s s' : DnsState Loc} {e : DnsEvent Loc} (hI : OneBrowse s.service)
    (hstep : dnsStep ip6FromString s e = some s') : OneBrowse s'.service := by
  cases e with
  | search address done error browse =>
      obtain ⟨-, rfl⟩ := dnsStep_search hstep
      exact hI.search s.memory address done error browse
  | autostart sock =>
      obtain rfl := dnsStep_autostart hstep
      exact hI.autostart sock
  | result i error response stack =>
      obtain ⟨hi, ⟨svc, mem, hres, rfl⟩ | ⟨-, rfl⟩⟩ := dnsStep_result hstep
      · exact hI.result hi hres
      · exact hI

/-- A search does for its caller what it has to. -/
theorem delivers_search {s s' : DnsState Loc} {address done error : Loc} {browse : OtError}
    (hI : OneBrowse s.service)
    (hstep : dnsStep ip6FromString s (.search address done error browse) = some s') :
    Delivers ip6FromString s (.search address done error browse) s' := by
  obtain ⟨hdef, rfl⟩ := dnsStep_search hstep
  refine ⟨(hI.search s.memory address done error browse).busy_iff, ?_⟩
  cases href : s.service.client.refuses with
  | true =>
      simp only [if_true, mdnsScheduleSearch_of_refuses href, true_and]
      rw [← hdef]
  | false =>
      by_cases hb : browse = .none <;> simp [mdnsScheduleSearch, href, hb]

/-- The callback of the outstanding browse has a result exactly when it fits `ip`, and the
result is stored at the locations of its search. -/
theorem result_eq_some {svc : DnsService Loc} {mem : Memory Loc} {b : Browse Loc}
    {error : OtError} {response : BrowseResponse} {stack : List UInt8} {r : OtError × Ip6Address}
    (haddr : svc.client.address = some b.address) (hdone : svc.client.done = some b.done)
    (herr : svc.client.error = some b.error)
    (hr : browseResult ip6FromString error response stack (mem.address b.address) = some r)
    (i : ℕ) :
    svc.result ip6FromString mem i error response stack =
      some ({ svc with client := { svc.client with busy := false },
                       outstanding := svc.outstanding.eraseIdx i },
        ((mem.setAddress b.address r.2).setBool b.done true).setError b.error r.1) := by
  simp [DnsService.result, dnsResultCallback, haddr, hdone, herr, hr]

/-- A callback that does not overflow `ip` does for its search what it has to. -/
theorem delivers_result {s s' : DnsState Loc} {i : ℕ} {error : OtError}
    {response : BrowseResponse} {stack : List UInt8} (hI : OneBrowse s.service)
    (hfits : ¬ OverflowsIp error response)
    (hstep : dnsStep ip6FromString s (.result i error response stack) = some s') :
    Delivers ip6FromString s (.result i error response stack) s' := by
  have hpost := oneBrowse_step hI hstep
  obtain ⟨hi, hres⟩ := dnsStep_result hstep
  rcases hI with ⟨-, hout⟩ | ⟨b, -, hout, haddr, hdone, herr⟩
  · rw [hout] at hi
    exact absurd hi (Nat.not_lt_zero i)
  · obtain rfl : i = 0 := by
      rw [hout, List.length_singleton] at hi
      omega
    obtain ⟨r, hr⟩ : ∃ r, browseResult ip6FromString error response stack
        (s.memory.address b.address) = some r :=
      Option.ne_none_iff_exists'.mp fun h => hfits (browseResult_eq_none_iff.mp h)
    rw [result_eq_some haddr hdone herr hr] at hres
    rcases hres with ⟨svc, mem, heq, rfl⟩ | ⟨hnone, -⟩
    · obtain ⟨rfl, rfl⟩ := Prod.mk.inj (Option.some.inj heq)
      refine ⟨hpost.busy_iff, rfl, b, by rw [hout]; rfl, rfl, by simp, by simp [hr], ?_⟩
      exact ⟨fun l hl => by simp [hl], fun l hl => by simp [hl], fun l hl => by simp [hl]⟩
    · exact absurd hnone (by simp)

/-- A callback that overflows `ip` does not even return. -/
theorem not_delivers_of_overflows {s s' : DnsState Loc} {i : ℕ} {error : OtError}
    {response : BrowseResponse} {stack : List UInt8} (hover : OverflowsIp error response)
    (hstep : dnsStep ip6FromString s (.result i error response stack) = some s') :
    ¬ Delivers ip6FromString s (.result i error response stack) s' := by
  rintro ⟨-, hdef, -⟩
  obtain ⟨-, ⟨svc, mem, hres, -⟩ | ⟨-, rfl⟩⟩ := dnsStep_result hstep
  · obtain ⟨_, _, _, _, _, -, -, -, hsome, -⟩ := DnsService.result_inv hres
    rw [browseResult_eq_none_iff.mpr hover] at hsome
    exact absurd hsome (by simp)
  · exact absurd hdef (by simp)

/-- From a state with an exact busy flag, a step delivers exactly when it fits `ip`. -/
theorem delivers_iff {s s' : DnsState Loc} {e : DnsEvent Loc} (hI : OneBrowse s.service)
    (hstep : dnsStep ip6FromString s e = some s') :
    Delivers ip6FromString s e s' ↔ FitsIp e := by
  cases e with
  | search address done error browse =>
      have hdelivers := delivers_search hI hstep
      exact ⟨fun _ => trivial, fun _ => hdelivers⟩
  | autostart sock =>
      obtain rfl := dnsStep_autostart hstep
      have hbusy := (hI.autostart sock).busy_iff
      exact ⟨fun _ => trivial, fun _ => ⟨hbusy, rfl⟩⟩
  | result i error response stack =>
      constructor
      · intro hdelivers hover
        exact not_delivers_of_overflows hover hstep hdelivers
      · intro hfits
        exact delivers_result hI hfits hstep

/-- **Delivery.** After a successful `mdns_init`, every step of a run of searches and
callbacks delivers as it has to exactly when no callback of the run overflows `ip`. -/
theorem delivery_iff (memory : Memory Loc) (serviceName : List UInt8)
    (autostarts : List (Option SockAddr)) (es : List (DnsEvent Loc)) :
    (dnsSystem ip6FromString).EachStep (Delivers ip6FromString)
        (dnsStart memory serviceName autostarts) es ↔
      (dnsSystem ip6FromString).EachStep (fun _ e _ => FitsIp e)
        (dnsStart memory serviceName autostarts) es := by
  refine StepSystem.eachStep_iff (I := fun s => OneBrowse s.service) ?_ ?_ ?_
  · exact fun s e s' hI hstep => delivers_iff hI hstep
  · exact fun s e s' hI hstep _ => oneBrowse_step hI hstep
  · exact OneBrowse.init rfl serviceName autostarts

/-- The callback of a browse whose `addr` value has 65 bytes stores nothing. -/
theorem long_addr_not_delivered :
    ¬ (dnsSystem fun _ stored => (.other 6, stored)).EachStep
        (Delivers fun _ stored => (.other 6, stored))
        (dnsStart (.zero : Memory ℕ) appServiceName [])
        [.autostart (some ⟨0, 53⟩), .search 0 0 0 .none,
          .result 0 .none ⟨.none, .none, .none, [⟨some (ascii "addr"), List.replicate 65 97⟩]⟩
            []] := by
  intro h
  obtain ⟨-, h⟩ := (StepSystem.eachStep_cons rfl).mp h
  obtain ⟨-, h⟩ := (StepSystem.eachStep_cons rfl).mp h
  obtain ⟨⟨-, hdef, -⟩, -⟩ := (StepSystem.eachStep_cons rfl).mp h
  exact absurd hdef (by decide)

/-! ### Readiness -/

/-- The SRP client runs, as the most recent autostart callback has reported it. -/
def SrpStarted (svc : DnsService Loc) : Prop :=
  ∃ sock, svc.autostarts.head? = some (some sock)

/-- `mdns_is_ready` reports the SRP client truly. -/
def ReportsSrp (svc : DnsService Loc) : Prop :=
  mdnsIsReady svc.client = true ↔ SrpStarted svc

/-- What one step has to do about the SRP client: `mdns_is_ready` is true after it, and
`otDnsClientBrowse` is called only while the client runs. -/
def HeedsSrp (s s' : DnsState Loc) : Prop :=
  ReportsSrp s'.service ∧
    (s'.service.browses ≠ s.service.browses → SrpStarted s.service)

omit [DecidableEq Loc] in
/-- A callback with an address leaves a true report. -/
theorem reportsSrp_autostart_some (svc : DnsService Loc) (sock : SockAddr) :
    ReportsSrp (svc.autostart (some sock)) :=
  ⟨fun _ => ⟨sock, rfl⟩, fun _ => rfl⟩

omit [DecidableEq Loc] in
/-- A callback with `NULL` leaves a false one: the client is reported ready. -/
theorem not_reportsSrp_autostart_none (svc : DnsService Loc) :
    ¬ ReportsSrp (svc.autostart none) := by
  intro h
  obtain ⟨sock, hsock⟩ := h.mp rfl
  exact absurd hsock (by simp [DnsService.autostart])

/-- A search leaves the report and the callbacks alone, and launches only when ready. -/
theorem heedsSrp_search {svc : DnsService Loc} (h : ReportsSrp svc) (mem : Memory Loc)
    (address done error : Loc) (browse : OtError) :
    ReportsSrp (mdnsScheduleSearch svc mem address done error browse).2.1 ∧
      ((mdnsScheduleSearch svc mem address done error browse).2.1.browses ≠ svc.browses →
        SrpStarted svc) := by
  cases href : svc.client.refuses with
  | true =>
      rw [mdnsScheduleSearch_of_refuses href]
      exact ⟨h, fun hne => absurd rfl hne⟩
  | false =>
      have hready : svc.client.ready = true := by
        rw [MDnsClient.refuses, Bool.or_eq_false_iff, Bool.not_eq_false'] at href
        exact href.2
      refine ⟨?_, fun _ => h.mp hready⟩
      rw [mdnsScheduleSearch, href]
      by_cases hb : browse = .none
      · rw [if_neg Bool.false_ne_true, if_neg (not_not.mpr hb)]
        exact h
      · rw [if_neg Bool.false_ne_true, if_pos hb]
        exact h

/-- A browse callback leaves the report, the callbacks and the launches alone. -/
theorem heedsSrp_result {svc svc' : DnsService Loc} {mem mem' : Memory Loc} {i : ℕ}
    {error : OtError} {response : BrowseResponse} {stack : List UInt8} (h : ReportsSrp svc)
    (hres : svc.result ip6FromString mem i error response stack = some (svc', mem')) :
    ReportsSrp svc' ∧ svc'.browses = svc.browses := by
  obtain ⟨_, _, _, _, _, -, -, -, -, rfl, -⟩ := DnsService.result_inv hres
  exact ⟨h, rfl⟩

/-- From a state with a true report, a step heeds the SRP client exactly when it does not
report a stop. -/
theorem heedsSrp_iff {s s' : DnsState Loc} {e : DnsEvent Loc} (hI : ReportsSrp s.service)
    (hstep : dnsStep ip6FromString s e = some s') : HeedsSrp s s' ↔ e ≠ .autostart none := by
  cases e with
  | search address done error browse =>
      obtain ⟨-, rfl⟩ := dnsStep_search hstep
      have hheeds := heedsSrp_search hI s.memory address done error browse
      exact ⟨fun _ => by simp, fun _ => hheeds⟩
  | autostart sock =>
      obtain rfl := dnsStep_autostart hstep
      cases sock with
      | none =>
          constructor
          · rintro ⟨hreports, -⟩
            exact absurd hreports (not_reportsSrp_autostart_none s.service)
          · intro hne
            exact absurd rfl hne
      | some a =>
          have hreports := reportsSrp_autostart_some s.service a
          exact ⟨fun _ => by simp, fun _ => ⟨hreports, fun hne => absurd rfl hne⟩⟩
  | result i error response stack =>
      refine ⟨fun _ => by simp, fun _ => ?_⟩
      obtain ⟨-, ⟨svc, mem, hres, rfl⟩ | ⟨-, rfl⟩⟩ := dnsStep_result hstep
      · obtain ⟨hrep, hbrowses⟩ := heedsSrp_result hI hres
        exact ⟨hrep, fun hne => absurd hbrowses hne⟩
      · exact ⟨hI, fun hne => absurd rfl hne⟩

omit [DecidableEq Loc] in
/-- A successful `mdns_init` leaves a true report unless its last callback reported a stop. -/
theorem reportsSrp_start_iff (memory : Memory Loc) {serviceName : List UInt8}
    (hname : serviceName.length < serviceMaxLen) (autostarts : List (Option SockAddr)) :
    ReportsSrp (dnsStart memory serviceName autostarts).service ↔
      autostarts.getLast? ≠ some none := by
  have hinit : (dnsStart memory serviceName autostarts).service =
      autostarts.foldl DnsService.autostart
        { DnsService.zero with
          client := ⟨false, false, serviceName, none, none, none⟩
          registered := true } := by
    rw [dnsStart, mdnsInit, if_neg (not_le.mpr hname)]
    rfl
  rw [hinit]
  rcases List.eq_nil_or_concat autostarts with rfl | ⟨l, sock, rfl⟩
  · simp [ReportsSrp, SrpStarted, mdnsIsReady, DnsService.zero]
  · rw [List.concat_eq_append, List.foldl_append, List.foldl_cons, List.foldl_nil,
      List.getLast?_concat]
    cases sock with
    | none =>
        constructor
        · intro hreports
          exact absurd hreports (not_reportsSrp_autostart_none _)
        · intro hne
          exact absurd rfl hne
    | some a =>
        constructor
        · intro _
          simp
        · intro _
          exact reportsSrp_autostart_some _ a

/-- **Readiness.** After a successful `mdns_init`, `mdns_is_ready` is true in every state of
a run exactly while the most recent autostart callback carried an address, and no browse is
launched otherwise, if and only if no callback carries `NULL` (of those made by `mdns_init`
itself, the last one counts). -/
theorem ready_iff (memory : Memory Loc) {serviceName : List UInt8}
    (hname : serviceName.length < serviceMaxLen) (autostarts : List (Option SockAddr))
    (es : List (DnsEvent Loc)) :
    (ReportsSrp (dnsStart memory serviceName autostarts).service ∧
      (dnsSystem ip6FromString).EachStep (fun s _ s' => HeedsSrp s s')
        (dnsStart memory serviceName autostarts) es) ↔
      autostarts.getLast? ≠ some none ∧
        (dnsSystem ip6FromString).EachStep (fun _ e _ => e ≠ .autostart none)
          (dnsStart memory serviceName autostarts) es := by
  rw [← reportsSrp_start_iff memory hname autostarts]
  refine and_congr_right fun hstart => ?_
  refine StepSystem.eachStep_iff (I := fun s => ReportsSrp s.service) ?_ ?_ hstart
  · exact fun s e s' hI hstep => heedsSrp_iff hI hstep
  · exact fun s e s' _ _ h => h.1

/-- The condition of `ready_iff` at a run in which the SRP client starts and a search is
launched. -/
theorem ready_started :
    (ReportsSrp (dnsStart (.zero : Memory ℕ) appServiceName []).service ∧
      (dnsSystem fun _ stored => (.other 6, stored)).EachStep (fun s _ s' => HeedsSrp s s')
        (dnsStart (.zero : Memory ℕ) appServiceName [])
        [.autostart (some ⟨0, 53⟩), .search 0 0 0 .none]) ↔
      ([] : List (Option SockAddr)).getLast? ≠ some none ∧
        (dnsSystem fun _ stored => (.other 6, stored)).EachStep
          (fun _ e _ => e ≠ .autostart none) (dnsStart (.zero : Memory ℕ) appServiceName [])
          [.autostart (some ⟨0, 53⟩), .search 0 0 0 .none] :=
  ready_iff .zero (by decide) [] _

/-- The SRP client starts and stops; `mdns_is_ready` is still true. -/
theorem ready_after_stop :
    ¬ (dnsSystem fun _ stored => (.other 6, stored)).EachStep (fun s _ s' => HeedsSrp s s')
        (dnsStart (.zero : Memory ℕ) appServiceName [])
        [.autostart (some ⟨0, 53⟩), .autostart none] := by
  intro h
  obtain ⟨-, h⟩ := (StepSystem.eachStep_cons rfl).mp h
  obtain ⟨⟨hrep, -⟩, -⟩ := (StepSystem.eachStep_cons rfl).mp h
  exact not_reportsSrp_autostart_none _ hrep

end SmartCO2
