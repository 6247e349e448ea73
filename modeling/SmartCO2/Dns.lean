import SmartCO2.Library.CString
import SmartCO2.OpenThread

/-!
# The Service Discovery Client

The model of `dns.c`. The module owns one static `MDnsClient`: `mdns_init` resets it and
registers the SRP autostart callback, `mdns_schedule_search` launches a browse and records
where its results go, and `dns_result_callback` stores them there.

`DnsService` puts beside the static client what OpenThread knows of it: the autostart
callbacks it has made, the calls of `otDnsClientBrowse` it has seen, and the accepted browses
whose callback has not run yet. Each of these carries the locations that were passed with its
own search; the code does not, which is what makes delivery a matter of proof.

The outcomes of the OpenThread functions are parameters. `otIp6AddressFromString` is a
parameter as well: from the string and the address stored so far it gives the error and the
address stored afterwards.

## Undefined behaviour

`dns_result_callback` copies the value of a TXT entry with the length of the value into the
64 bytes of `ip`. A longer value is written past the end of the array, and a call without a
recorded result location writes through `NULL`; both are `none` here.
-/

namespace SmartCO2

/-- The IPv6 socket address that an autostart callback carries. -/
structure SockAddr where
  address : Ip6Address
  port : UInt16
  deriving DecidableEq

/-- `SERVICE_MAX_LEN` -/
def serviceMaxLen : ℕ := 128

/-- `struct MDnsClient`: whether the client is ready to search and whether it is busy, the
service to look for, and where the results of the current search go. -/
structure MDnsClient (Loc : Type*) where
  ready : Bool
  busy : Bool
  serviceName : List UInt8
  done : Option Loc
  error : Option Loc
  address : Option Loc

/-- A browse that OpenThread has accepted, with the result locations of its search. -/
structure Browse (Loc : Type*) where
  address : Loc
  done : Loc
  error : Loc
  deriving DecidableEq

/-- The static client of `dns.c` and OpenThread's side of it: whether the autostart callback
is registered, what the autostart callbacks since `mdns_init` carried (newest first), the
number of calls of `otDnsClientBrowse`, and the accepted browses without a callback yet. -/
structure DnsService (Loc : Type*) where
  client : MDnsClient Loc
  registered : Bool
  autostarts : List (Option SockAddr)
  browses : ℕ
  outstanding : List (Browse Loc)

variable {Loc : Type*}

/-- The static client before `mdns_init`, with nothing registered. -/
def DnsService.zero : DnsService Loc where
  client := ⟨false, false, [], none, none, none⟩
  registered := false
  autostarts := []
  browses := 0
  outstanding := []

/-! ### The autostart callback -/

/-- `srp_client_autostart_callback` -/
def srpClientAutostartCallback (client : MDnsClient Loc) (sock : Option SockAddr) :
    MDnsClient Loc :=
  let client :=
    if sock.isNone then
      -- "Srp client has stopped": the branch does not return
      { client with ready := false }
    else client
  { client with ready := true }

/-- OpenThread makes an autostart callback. -/
def DnsService.autostart (svc : DnsService Loc) (sock : Option SockAddr) : DnsService Loc :=
  { svc with
    client := srpClientAutostartCallback svc.client sock
    autostarts := sock :: svc.autostarts }

/-! ### Initialization and search -/

/-- `mdns_init`. Enabling the autostart mode may already make the callbacks `autostarts`
before it returns. -/
def mdnsInit (svc : DnsService Loc) (serviceName : List UInt8)
    (autostarts : List (Option SockAddr)) : ClientPtr × DnsService Loc :=
  let client := { svc.client with ready := false, busy := false }
  if serviceName.length ≥ serviceMaxLen then
    (.null, { svc with client := client })
  else
    let client :=
      { client with serviceName := serviceName, done := none, error := none, address := none }
    let svc := { svc with client := client, registered := true, autostarts := [] }
    (.client, autostarts.foldl DnsService.autostart svc)

/-- `mdns_is_ready` -/
def mdnsIsReady (client : MDnsClient Loc) : Bool :=
  client.ready

/-- The sanity check of `mdns_schedule_search`: a client that is busy or not ready refuses
the search. -/
def MDnsClient.refuses (client : MDnsClient Loc) : Bool :=
  client.busy || !client.ready

variable [DecidableEq Loc]

/-- `mdns_schedule_search`, where `otDnsClientBrowse` returns `browse`. -/
def mdnsScheduleSearch (svc : DnsService Loc) (mem : Memory Loc) (address done error : Loc)
    (browse : OtError) : OtError × DnsService Loc × Memory Loc :=
  if svc.client.refuses then
    (.busy, svc, mem)
  else
    let mem := mem.setBool done false
    let client :=
      { svc.client with busy := true, address := some address, done := some done,
                        error := some error }
    let svc := { svc with client := client, browses := svc.browses + 1 }
    if browse ≠ .none then
      (browse, { svc with client := { client with busy := false } },
        (mem.setError error .abort).setBool done true)
    else
      (.none, { svc with outstanding := svc.outstanding ++ [⟨address, done, error⟩] }, mem)

/-! ### The browse callback -/

/-- `otDnsTxtEntry`: the key, `none` when `mKey` is `NULL`, and the value with its length. -/
structure TxtEntry where
  key : Option (List UInt8)
  value : List UInt8
  deriving DecidableEq

/-- What the accessors `otDnsBrowseResponseGetServiceName`, `...GetServiceInstance` and
`...GetServiceInfo` return for a response, and the entries of its TXT data. -/
structure BrowseResponse where
  getServiceName : OtError
  getServiceInstance : OtError
  getServiceInfo : OtError
  txt : List TxtEntry
  deriving DecidableEq

/-- The size of the local array `ip`. -/
def ipSize : ℕ := 64

/-- The bytes of `ip`, and of the stack behind it if they are given too, after the copy of a
value: `strncpy(ip, entry.mValue, entry.mValueLength)`. -/
def ipAfterCopy (ip value : List UInt8) : List UInt8 :=
  strncpy value value.length ++ ip.drop value.length

/-- The string that `otIp6AddressFromString` is given for a value, when `stack` are the bytes
of `ip` and of the stack behind it before the copy. -/
def copiedString (value stack : List UInt8) : List UInt8 :=
  cString (ipAfterCopy stack value)

section Callback

variable (ip6FromString : List UInt8 → Ip6Address → OtError × Ip6Address)

/-- The loop over the TXT entries, entered with `error` equal to `OT_ERROR_NONE`. The bytes
`stack` are those of `ip` and of the stack behind it before the call. -/
def txtLoop (stack : List UInt8) (stored : Ip6Address) :
    List TxtEntry → Option (OtError × Ip6Address)
  | [] => some (.none, stored)
  | entry :: rest =>
      if entry.key = some (ascii "addr") then
        if ipSize < entry.value.length then
          none
        else
          some (ip6FromString (copiedString entry.value stack) stored)
      else txtLoop stack stored rest

/-- The value of `error` at the label `cleanup` of `dns_result_callback`, and the address
stored until then; `stored` is the content of `*client->address` before. -/
def browseResult (error : OtError) (response : BrowseResponse) (stack : List UInt8)
    (stored : Ip6Address) : Option (OtError × Ip6Address) :=
  if error ≠ .none then
    some (error, stored)
  else if response.getServiceName ≠ .none then
    some (response.getServiceName, stored)
  else if response.getServiceInstance ≠ .none then
    some (response.getServiceInstance, stored)
  else if response.getServiceInfo ≠ .none then
    some (response.getServiceInfo, stored)
  else txtLoop ip6FromString stack stored response.txt

/-- `dns_result_callback` -/
def dnsResultCallback (client : MDnsClient Loc) (mem : Memory Loc) (error : OtError)
    (response : BrowseResponse) (stack : List UInt8) : Option (MDnsClient Loc × Memory Loc) :=
  match client.address, client.done, client.error with
  | some address, some done, some err =>
      match browseResult ip6FromString error response stack (mem.address address) with
      | some (e, a) =>
          some ({ client with busy := false },
            ((mem.setAddress address a).setBool done true).setError err e)
      | none => none
  | _, _, _ => none

/-- OpenThread makes the callback of the `i`-th outstanding browse. -/
def DnsService.result (svc : DnsService Loc) (mem : Memory Loc) (i : ℕ) (error : OtError)
    (response : BrowseResponse) (stack : List UInt8) : Option (DnsService Loc × Memory Loc) :=
  match dnsResultCallback ip6FromString svc.client mem error response stack with
  | some (client, mem) =>
      some ({ svc with client := client, outstanding := svc.outstanding.eraseIdx i }, mem)
  | none => none

/-! ### When the callback is defined -/

/-- The value that the loop over the TXT entries copies: that of the first entry `addr`. -/
def addrValue (txt : List TxtEntry) : Option (List UInt8) :=
  (txt.find? fun entry => entry.key = some (ascii "addr")).map TxtEntry.value

/-- The callback reaches the copy into `ip`, and the value does not fit. -/
def OverflowsIp (error : OtError) (response : BrowseResponse) : Prop :=
  error = .none ∧ response.getServiceName = .none ∧ response.getServiceInstance = .none ∧
    response.getServiceInfo = .none ∧ ∃ value ∈ addrValue response.txt, ipSize < value.length

instance (error : OtError) (response : BrowseResponse) :
    Decidable (OverflowsIp error response) :=
  inferInstanceAs (Decidable (_ ∧ _ ∧ _ ∧ _ ∧ _))

variable {ip6FromString}

/-- The loop has no defined result exactly when the first `addr` value does not fit. -/
theorem txtLoop_eq_none_iff {stack : List UInt8} {stored : Ip6Address} {txt : List TxtEntry} :
    txtLoop ip6FromString stack stored txt = none ↔
      ∃ value ∈ addrValue txt, ipSize < value.length := by
  induction txt with
  | nil => simp [txtLoop, addrValue]
  | cons entry rest ih =>
      rw [txtLoop]
      by_cases hkey : entry.key = some (ascii "addr")
      · by_cases hlen : ipSize < entry.value.length <;> simp [addrValue, hkey, hlen]
      · rw [if_neg hkey, ih]
        simp [addrValue, hkey]

/-- The callback's result is undefined exactly when it overflows `ip`. -/
theorem browseResult_eq_none_iff {error : OtError} {response : BrowseResponse}
    {stack : List UInt8} {stored : Ip6Address} :
    browseResult ip6FromString error response stack stored = none ↔
      OverflowsIp error response := by
  rw [browseResult, OverflowsIp]
  split
  · next h => simp [h]
  · next h₁ =>
      split
      · next h => simp [h]
      · next h₂ =>
          split
          · next h => simp [h]
          · next h₃ =>
              split
              · next h => simp [h]
              · next h₄ =>
                  rw [txtLoop_eq_none_iff]
                  simp [not_not.mp h₁, not_not.mp h₂, not_not.mp h₃, not_not.mp h₄]

/-- **What a browse callback does**: it ends the browse and stores its result where the client
points. -/
theorem DnsService.result_inv {svc svc' : DnsService Loc} {mem mem' : Memory Loc} {i : ℕ}
    {error : OtError} {response : BrowseResponse} {stack : List UInt8}
    (h : svc.result ip6FromString mem i error response stack = some (svc', mem')) :
    ∃ address done err e a, svc.client.address = some address ∧ svc.client.done = some done ∧
      svc.client.error = some err ∧
      browseResult ip6FromString error response stack (mem.address address) = some (e, a) ∧
      svc' = { svc with client := { svc.client with busy := false },
                        outstanding := svc.outstanding.eraseIdx i } ∧
      mem' = ((mem.setAddress address a).setBool done true).setError err e := by
  rw [DnsService.result, dnsResultCallback] at h
  split at h
  · next client mem₁ hcb =>
      obtain ⟨rfl, rfl⟩ := Prod.mk.inj (Option.some.inj h)
      split at hcb
      · next address done err haddr hdone herr =>
          split at hcb
          · next e a hres =>
              obtain ⟨rfl, rfl⟩ := Prod.mk.inj (Option.some.inj hcb)
              exact ⟨address, done, err, e, a, haddr, hdone, herr, hres, rfl, rfl⟩
          · exact absurd hcb (by simp)
      · exact absurd hcb (by simp)
  · exact absurd h (by simp)

end Callback

end SmartCO2
