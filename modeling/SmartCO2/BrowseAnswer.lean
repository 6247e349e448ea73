import SmartCO2.App

/-!
# The Answer of a Browse

What `dns_result_callback` makes of a browse response: when the address it stores is the one
that the response announces, and what reaches `otIp6AddressFromString` of the value it copies.

The value of the `addr` entry is copied with its own length into the local array `ip`, which is
not cleared before. A value in a TXT record has no terminator, so the string in `ip` goes on
with what stood there, and on the stack behind, before the call.

## Main results

* `answer_announced_iff`: when success is only reported with the announced address.
* `copies_value_iff`: the copy is safe, terminated and independent of the earlier content of
  `ip` exactly for the values that hold a NUL and fit.
-/

namespace SmartCO2

variable {Loc : Type*} {ip6FromString : List UInt8 → Ip6Address → OtError × Ip6Address}
  {error : OtError} {response : BrowseResponse} {stack : List UInt8} {stored : Ip6Address}

/-- All accessors of the response succeed. -/
def BrowseResponse.Accessible (response : BrowseResponse) : Prop :=
  response.getServiceName = .none ∧ response.getServiceInstance = .none ∧
    response.getServiceInfo = .none

instance (response : BrowseResponse) : Decidable response.Accessible :=
  inferInstanceAs (Decidable (_ ∧ _ ∧ _))

/-! ### The loop over the entries -/

/-- **What the loop computes**: the entries before the first `addr` are skipped, whatever their
keys are, and the value of that entry is parsed; without one nothing is. -/
theorem txtLoop_eq (txt : List TxtEntry) :
    txtLoop ip6FromString stack stored txt =
      match addrValue txt with
      | none => some (.none, stored)
      | some value =>
          if ipSize < value.length then none
          else some (ip6FromString (copiedString value stack) stored) := by
  induction txt with
  | nil => rfl
  | cons entry rest ih =>
      by_cases hkey : entry.key = some (ascii "addr")
      · simp [txtLoop, addrValue, hkey]
      · have hskip : addrValue (entry :: rest) = addrValue rest := by simp [addrValue, hkey]
        rw [txtLoop, if_neg hkey, ih, hskip]

/-- A response whose accessors fail, or that comes with an error, is not successful. -/
theorem browseResult_of_failed (h : error ≠ .none ∨ ¬ response.Accessible) :
    ∃ e, e ≠ .none ∧ browseResult ip6FromString error response stack stored = some (e, stored) := by
  rw [browseResult]
  split
  · next h₁ => exact ⟨_, h₁, rfl⟩
  · next h₁ =>
      split
      · next h₂ => exact ⟨_, h₂, rfl⟩
      · next h₂ =>
          split
          · next h₃ => exact ⟨_, h₃, rfl⟩
          · next h₃ =>
              split
              · next h₄ => exact ⟨_, h₄, rfl⟩
              · next h₄ =>
                  rcases h with h | h
                  · exact absurd h h₁
                  · exact absurd ⟨not_not.mp h₂, not_not.mp h₃, not_not.mp h₄⟩ h

/-- A response whose accessors succeed is decided by its entries. -/
theorem browseResult_of_accessible (h : response.Accessible) :
    browseResult ip6FromString .none response stack stored =
      txtLoop ip6FromString stack stored response.txt := by
  obtain ⟨h₁, h₂, h₃⟩ := h
  simp [browseResult, h₁, h₂, h₃]

/-- The callback stores what the response amounts to where the client points. -/
theorem dnsResultCallback_eq [DecidableEq Loc] {client : MDnsClient Loc} {address done err : Loc}
    (haddress : client.address = some address) (hdone : client.done = some done)
    (herr : client.error = some err) (mem : Memory Loc) :
    dnsResultCallback ip6FromString client mem error response stack =
      (browseResult ip6FromString error response stack (mem.address address)).map fun r =>
        ({ client with busy := false },
          ((mem.setAddress address r.2).setBool done true).setError err r.1) := by
  cases hres : browseResult ip6FromString error response stack (mem.address address) <;>
    simp [dnsResultCallback, haddress, hdone, herr, hres]

/-! ### The announced address -/

/-- The response announces the address `a`: its accessors succeed, and the value of its first
entry `addr` parses as `a`. -/
def Announces (ip6FromString : List UInt8 → Ip6Address → OtError × Ip6Address)
    (response : BrowseResponse) (stored a : Ip6Address) : Prop :=
  response.Accessible ∧
    ∃ value ∈ addrValue response.txt, ip6FromString (cString value) stored = (.none, a)

/-- A response that comes without an error and is accessible has an `addr` value, and what is
copied of it does not parse, or parses as the value itself. -/
def ParsesAsAnnounced (ip6FromString : List UInt8 → Ip6Address → OtError × Ip6Address)
    (error : OtError) (response : BrowseResponse) (stack : List UInt8) (stored : Ip6Address) :
    Prop :=
  error = .none → response.Accessible → ∃ value ∈ addrValue response.txt,
    (ip6FromString (copiedString value stack) stored).1 = .none →
      ip6FromString (copiedString value stack) stored = ip6FromString (cString value) stored

/-- What a response amounts to is announced, if it is a success, exactly if what is copied
parses as announced. -/
theorem browseResult_announced_iff (hfits : ¬ OverflowsIp error response) :
    (∀ a, browseResult ip6FromString error response stack stored = some (.none, a) →
      error = .none ∧ Announces ip6FromString response stored a) ↔
    ParsesAsAnnounced ip6FromString error response stack stored := by
  by_cases hok : error = .none ∧ response.Accessible
  · obtain ⟨rfl, hacc⟩ := hok
    rw [browseResult_of_accessible hacc, txtLoop_eq]
    cases hvalue : addrValue response.txt with
    | none => simp [ParsesAsAnnounced, Announces, hacc, hvalue]
    | some value =>
        have hlen : ¬ ipSize < value.length := by
          intro hlt
          exact hfits ⟨rfl, hacc.1, hacc.2.1, hacc.2.2, value, hvalue, hlt⟩
        simp only [if_neg hlen, Option.some.injEq]
        constructor
        · intro hannounced _ _
          refine ⟨value, hvalue, fun hparsed => ?_⟩
          have heq : ip6FromString (copiedString value stack) stored = (.none, _) :=
            Prod.ext hparsed rfl
          obtain ⟨-, -, value', hvalue', hparse⟩ := hannounced _ heq
          obtain rfl : value = value' := Option.some.inj (hvalue.symm.trans hvalue')
          rw [heq, hparse]
        · intro hparses a heq
          obtain ⟨value', hvalue', hsame⟩ := hparses rfl hacc
          obtain rfl : value = value' := Option.some.inj (hvalue.symm.trans hvalue')
          refine ⟨trivial, hacc, value, hvalue, ?_⟩
          rw [← hsame (congrArg Prod.fst heq), heq]
  · have hfailed : error ≠ .none ∨ ¬ response.Accessible := not_and_or.mp hok
    have hexists : ∃ e, e ≠ .none ∧
        browseResult ip6FromString error response stack stored = some (e, stored) :=
      browseResult_of_failed hfailed
    obtain ⟨e, he, hres⟩ := hexists
    rw [hres]
    constructor
    · intro _ herror hacc
      exact absurd ⟨herror, hacc⟩ hok
    · intro _ a heq
      exact absurd (congrArg Prod.fst (Option.some.inj heq)) he

/-- **Success is reported for the announced address.** The callback of a client with result
variables is defined, and stores `OT_ERROR_NONE` only together with the address that the
response announces, if and only if the first `addr` value does not overflow `ip`, and a
response without an error has such a value whose copy does not parse, or parses as the value
itself. -/
theorem answer_announced_iff [DecidableEq Loc]
    (ip6FromString : List UInt8 → Ip6Address → OtError × Ip6Address) {client : MDnsClient Loc}
    {address done err : Loc} (haddress : client.address = some address)
    (hdone : client.done = some done) (herr : client.error = some err) (mem : Memory Loc)
    (error : OtError) (response : BrowseResponse) (stack : List UInt8) :
    (∃ client' mem',
      dnsResultCallback ip6FromString client mem error response stack = some (client', mem') ∧
      (mem'.error err = .none → error = .none ∧
        Announces ip6FromString response (mem.address address) (mem'.address address))) ↔
    ¬ OverflowsIp error response ∧
      ParsesAsAnnounced ip6FromString error response stack (mem.address address) := by
  rw [dnsResultCallback_eq haddress hdone herr]
  by_cases hfits : OverflowsIp error response
  · rw [browseResult_eq_none_iff.mpr hfits]
    simp [hfits]
  · rw [← browseResult_announced_iff hfits]
    have hdefined : browseResult ip6FromString error response stack (mem.address address) ≠ none :=
      fun hnone => hfits (browseResult_eq_none_iff.mp hnone)
    obtain ⟨⟨e, a⟩, hres⟩ := Option.ne_none_iff_exists'.mp hdefined
    rw [hres]
    constructor
    · rintro ⟨client', mem', heq, hannounced⟩
      obtain ⟨-, rfl⟩ := Prod.mk.inj (Option.some.inj heq)
      refine ⟨hfits, fun a' ha' => ?_⟩
      obtain ⟨rfl, rfl⟩ := Prod.mk.inj (Option.some.inj ha')
      simpa using hannounced
    · rintro ⟨-, hannounced⟩
      refine ⟨_, _, rfl, fun he => ?_⟩
      have he : e = .none := by simpa using he
      subst he
      simpa using hannounced a rfl

/-- A client whose results go to the location `0`. -/
def searchingClient : MDnsClient ℕ := ⟨true, true, [], some 0, some 0, some 0⟩

/-- The answer with the address `::1`, in front of a cleared stack. -/
theorem loopback_announced_iff :
    (∃ client' mem',
      dnsResultCallback parseLoopback searchingClient .zero .none loopbackResponse
          (List.replicate ipSize 0) = some (client', mem') ∧
      (mem'.error 0 = .none → OtError.none = .none ∧
        Announces parseLoopback loopbackResponse 0 (mem'.address 0))) ↔
    ¬ OverflowsIp .none loopbackResponse ∧
      ParsesAsAnnounced parseLoopback .none loopbackResponse (List.replicate ipSize 0) 0 :=
  answer_announced_iff parseLoopback rfl rfl rfl .zero .none loopbackResponse _

/-- A response without an `addr` entry is a success, with the address as it was. -/
theorem no_addr_not_announced :
    ¬ ∃ client' mem',
      dnsResultCallback parseLoopback searchingClient .zero .none
          { loopbackResponse with txt := [⟨some (ascii "name"), ascii "server"⟩] } [] =
        some (client', mem') ∧
      (mem'.error 0 = .none → OtError.none = .none ∧
        Announces parseLoopback
          { loopbackResponse with txt := [⟨some (ascii "name"), ascii "server"⟩] } 0
          (mem'.address 0)) := by
  rintro ⟨client', mem', heq, hannounced⟩
  obtain ⟨-, rfl⟩ := Prod.mk.inj (Option.some.inj heq)
  obtain ⟨-, -, value, hvalue, -⟩ := hannounced rfl
  have hnone : addrValue [⟨some (ascii "name"), ascii "server"⟩] = none := by decide
  exact absurd (hnone.symm.trans hvalue) (by simp)

/-! ### The copy of the value -/

/-- The string that is parsed is that of `ip`, or goes on behind it. -/
theorem copiedString_eq {value ip : List UInt8} (hip : ip.length = ipSize)
    (hfits : value.length ≤ ipSize) (rest : List UInt8) :
    copiedString value (ip ++ rest) = cString (ipAfterCopy ip value ++ rest) := by
  rw [copiedString, ipAfterCopy, ipAfterCopy, List.drop_append_of_le_length (by omega),
    List.append_assoc]

/-- What is asked of the copy of a value into `ip`, with the bytes `rest` behind it: it stays
inside `ip` or an error is stored, the string in `ip` is terminated, what is parsed is the
string of the value, and with any other content of `ip` before, the results are the same. -/
structure CopiesValue [DecidableEq Loc]
    (ip6FromString : List UInt8 → Ip6Address → OtError × Ip6Address) (client : MDnsClient Loc)
    (err : Loc) (mem : Memory Loc) (response : BrowseResponse) (value ip rest : List UInt8) :
    Prop where
  inside : value.length ≤ ipSize ∨ ∃ client' mem',
    dnsResultCallback ip6FromString client mem .none response (ip ++ rest) =
      some (client', mem') ∧ mem'.error err ≠ .none
  terminated : 0 ∈ ipAfterCopy ip value
  parsed : copiedString value (ip ++ rest) = cString value
  independent : ∀ ip', ip'.length = ipSize →
    dnsResultCallback ip6FromString client mem .none response (ip' ++ rest) =
      dnsResultCallback ip6FromString client mem .none response (ip ++ rest)

/-- **The copy is safe exactly for values with a NUL that fit.** For a response whose first
`addr` entry has the value, the copy is what it should be for every earlier content of `ip` if
and only if the value has at most 64 bytes and one of them is NUL. -/
theorem copies_value_iff [DecidableEq Loc]
    (ip6FromString : List UInt8 → Ip6Address → OtError × Ip6Address) {client : MDnsClient Loc}
    {address done err : Loc} (haddress : client.address = some address)
    (hdone : client.done = some done) (herr : client.error = some err) (mem : Memory Loc)
    {response : BrowseResponse} (hacc : response.Accessible) {value : List UInt8}
    (hvalue : addrValue response.txt = some value) :
    (∀ ip rest, ip.length = ipSize →
      CopiesValue ip6FromString client err mem response value ip rest) ↔
    value.length ≤ ipSize ∧ 0 ∈ value := by
  have hcallback : ∀ stack, dnsResultCallback ip6FromString client mem .none response stack =
      (if ipSize < value.length then none
        else some (ip6FromString (copiedString value stack) (mem.address address))).map fun r =>
          ({ client with busy := false },
            ((mem.setAddress address r.2).setBool done true).setError err r.1) := by
    intro stack
    rw [dnsResultCallback_eq haddress hdone herr, browseResult_of_accessible hacc, txtLoop_eq,
      hvalue]
  constructor
  · intro hcopies
    have h := hcopies (List.replicate ipSize 1) [] (List.length_replicate ..)
    constructor
    · rcases h.inside with hfits | ⟨client', mem', hsome, -⟩
      · exact hfits
      · by_contra hlong
        rw [hcallback, if_pos (by omega)] at hsome
        exact absurd hsome (by simp)
    · by_contra hnot
      rcases List.mem_append.mp h.terminated with hmem | hmem
      · rw [strncpy_of_not_mem hnot] at hmem
        exact hnot hmem
      · have hone := List.eq_of_mem_replicate (List.mem_of_mem_drop hmem)
        exact absurd hone (by decide)
  · rintro ⟨hfits, hnul⟩ ip rest hip
    obtain ⟨hterminated, hstring⟩ := strncpy_of_mem hnul
    have hparsed : ∀ ip : List UInt8, ip.length = ipSize →
        copiedString value (ip ++ rest) = cString value := by
      intro ip hip
      rw [copiedString_eq hip hfits, ipAfterCopy, List.append_assoc, cString_append hterminated,
        hstring]
    refine ⟨Or.inl hfits, List.mem_append_left _ hterminated, hparsed ip hip, fun ip' hip' => ?_⟩
    rw [hcallback, hcallback, hparsed ip hip, hparsed ip' hip']

/-- The value `::1` with a terminator. -/
theorem terminated_copied_iff :
    (∀ ip rest, ip.length = ipSize →
      CopiesValue parseLoopback searchingClient 0 .zero
        { loopbackResponse with txt := [⟨some (ascii "addr"), ascii "::1" ++ [0]⟩] }
        (ascii "::1" ++ [0]) ip rest) ↔
    (ascii "::1" ++ [0]).length ≤ ipSize ∧ 0 ∈ ascii "::1" ++ [0] :=
  copies_value_iff parseLoopback rfl rfl rfl .zero ⟨rfl, rfl, rfl⟩ rfl

/-- The value `::1` as a TXT record holds it: it is parsed where `ip` was clear, and rejected
where `ip` was full of ones. -/
theorem unterminated_not_copied :
    ¬ ∀ ip rest, ip.length = ipSize →
      CopiesValue parseLoopback searchingClient 0 .zero loopbackResponse (ascii "::1") ip rest := by
  intro h
  have hsame := (h (List.replicate ipSize 0) [] (by decide)).independent
    (List.replicate ipSize 49) (by decide)
  have herror := congrArg (Option.map fun r => r.2.error 0) hsame
  exact absurd herror (by decide)

end SmartCO2
