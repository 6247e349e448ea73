import SmartCO2.Coap
import SmartCO2.Dns

/-!
# The State of the Firmware

`World` is everything that `app.c` and the sensor thread keep between two main-loop passes:
`AppData`, the static variables, the two clients and OpenThread's side of them, the main
loop's `run` flag and timer, and the millisecond clock.

Beside this state a world has its **log**: what happened, newest first. No function of the
code reads it. The properties of whole runs are stated about it.

## The clock

`NOW()` may give a new value at every reading. A pass is given the readings it will make
(`Clock.ahead`); once they are used up, the clock stands still until the pass is over. Every
pass that ends makes finitely many readings, so nothing is lost.
-/

namespace SmartCO2

/-! ### Continuations -/

/-- The waits of `nodeConnectThread`, in their order in the source. -/
inductive NodeWait
  | connectSleep    -- `PT_SLEEP(10000)` while the node is not connected
  | mdnsRetrySleep  -- after a failed `mdns_init`
  | mdnsInitSleep   -- after a successful `mdns_init`
  | mdnsReady       -- until `mdns_is_ready`
  | searchSleep     -- before the test of `_app.done`
  | launchSleep     -- after `mdns_schedule_search`
  | answer          -- until `_app.done`, or for 15 s
  | answerSleep     -- before the test for the time-out
  | resultSleep     -- before the test of `_app.error`
  deriving DecidableEq, Repr

/-- The waits of `SCD41UpdateValueThread`. -/
inductive SensorWait
  | readySleep  -- after the data-ready command
  | measSleep   -- after the read-measurement command
  deriving DecidableEq, Repr

/-- The wait of `coap_sending_process`. -/
inductive SenderWait
  | ack
  deriving DecidableEq, Repr

/-! ### Observations -/

/-- A measurement: `float` values, all of them whole numbers below `2 ^ 24`, which a `float`
holds exactly. -/
structure Triple where
  co2 : ℤ
  rh : ℤ
  temp : ℤ
  deriving DecidableEq, Repr

/-- A call of `coap_schedule_post`: its client and the message with its size, the time, the
connection at that moment, and the message that OpenThread accepted in it, if any. -/
structure PostRecord where
  client : ClientPtr
  text : List UInt8
  size : UInt16
  time : UInt32
  connected : Bool
  accepted : Option ℕ
  deriving DecidableEq, Repr

/-- What is logged. -/
inductive Obs
  -- `handleNetifStateChanged` sets `_app.connected`
  | role (connected : Bool)
  -- `nodeConnectThread`: `_app.connected` is seen true, a `PT_SLEEP` is tested,
  -- `otDnsClientBrowse` is called, `coap_init` returns, the thread ends
  | seenConnected
  | sleep (wait : NodeWait) (time : UInt32) (passed : Bool)
  | browse (answer : OtError)
  | coapInit (ok : Bool)
  | nodeEnded
  -- a browse callback stores its error, the thread being past its test of `_app.done` or not
  | browseDone (past : Bool) (error : OtError)
  -- `SCD41UpdateValueThread` stores a measurement, and ends with or without one
  | decoded (t : Triple)
  | sensorEnded (ready : Bool)
  -- `coap_sending_process`: the post, a test of the wait, the two messages, the end
  | post (r : PostRecord)
  | tested (time : UInt32) (done : Bool) (error : OtError) (left : Bool)
  | timedOut
  | coapError
  | cycleEnded
  -- the callback of a request
  | callback (message : ℕ) (error : OtError)
  deriving DecidableEq, Repr

/-! ### State -/

/-- The result variables: `_app.done`, `_app.error` and `_app.address` are those of `app`;
the static variables `done` and `error` of `coap_sending_process` are those of `sender`. -/
inductive Var
  | app | sender
  deriving DecidableEq, Repr

/-- `struct AppData`, less the result variables and what nothing here reads. The field
`then` is `thenTime`. -/
structure AppData where
  pThread1 : Option NodeWait
  pThread3 : Option SensorWait
  pThreadDone1 : Bool
  pThreadDone2 : Bool
  pThreadDone3 : Bool
  pThreadDone4 : Bool
  coap : ClientPtr
  mdns : ClientPtr
  connected : Bool
  thenTime : UInt64
  co2 : ℤ
  temp : ℤ
  rh : ℤ
  message : List UInt8
  sendingProcessPt : Option SenderWait

/-- The millisecond clock: its value, and the readings of the current pass to come. -/
structure Clock where
  now : UInt32
  ahead : List UInt32

/-- The size of `i2c_rxBuffer_scd41`. -/
abbrev scd41RxBufferSize : ℕ := 10

/-- The state of the firmware. `timeLog` and `rxBuffer` are the static variables of
`SCD41.c`, `messageSize` and `senderThen` those of `coap_sending_process`. After a `fault`,
an operation without a defined behaviour, nothing happens any more. -/
structure World where
  app : AppData
  mem : Memory Var
  dns : DnsService Var
  coap : CoapService Var
  timeLog : UInt64
  rxBuffer : Fin scd41RxBufferSize → UInt8
  messageSize : ℤ
  senderThen : UInt64
  run : Bool
  timerArmed : Bool
  clock : Clock
  fault : Bool
  log : List Obs

namespace World

/-- `_app.done` -/
abbrev appDone (w : World) : Bool := w.mem.bool .app

/-- `_app.error` -/
abbrev appError (w : World) : OtError := w.mem.error .app

/-- The static variable `done` of `coap_sending_process`. -/
abbrev sendDone (w : World) : Bool := w.mem.bool .sender

/-- The static variable `error` of `coap_sending_process`. -/
abbrev sendError (w : World) : OtError := w.mem.error .sender

/-- The measurement in `_app`. -/
def triple (w : World) : Triple := ⟨w.app.co2, w.app.rh, w.app.temp⟩

/-- Log an observation. -/
def note (w : World) (o : Obs) : World := { w with log := o :: w.log }

/-- Time goes on to the next reading of the pass. -/
def tick (w : World) : World :=
  match w.clock.ahead with
  | [] => w
  | t :: ahead => { w with clock := ⟨t, ahead⟩ }

/-- `NOW()`, together with the state in which the value was read. -/
def now (w : World) : UInt32 × World := (w.tick.clock.now, w.tick)

/-- Only the clock goes on. -/
theorem tick_eq (w : World) : ∃ clock, w.tick = { w with clock := clock } := by
  rw [tick]
  split
  · exact ⟨w.clock, rfl⟩
  · exact ⟨_, rfl⟩

/-- Each reading is made once. -/
theorem tick_ahead_length (w : World) :
    w.tick.clock.ahead.length = w.clock.ahead.length - 1 := by
  rw [tick]
  split
  · next h => rw [h]; rfl
  · next h => rw [h]; rfl

/-- Without readings to come the clock stands still. -/
theorem tick_of_ahead_nil {w : World} (h : w.clock.ahead = []) : w.tick = w := by
  rw [tick, h]

end World

/-! ### The environment of the code -/

/-- What the code takes from its platform and its configuration: the name of the service,
the access token, the rendering of `APP_MESSAGE_TEMPLATE` with `co2`, `rh` and `temp` (none
on an encoding error), and `otIp6AddressFromString`. -/
structure Platform where
  serviceName : List UInt8
  token : List UInt8
  format : ℤ → ℤ → ℤ → Option (List UInt8)
  ip6FromString : List UInt8 → Ip6Address → OtError × Ip6Address

/-- The platform as `config_.h` and `config_.c` configure it. -/
def Platform.configured (ip6FromString : List UInt8 → Ip6Address → OtError × Ip6Address) :
    Platform where
  serviceName := appServiceName
  token := appToken
  format co2 rh temp := some (appMessageTemplate co2 rh temp)
  ip6FromString := ip6FromString

/-- The final status of an I2C transfer, `I2C_TransferReturn_TypeDef`. -/
inductive I2cReturn
  | done | nack | busErr | arbLost | usageFault | swFault
  deriving DecidableEq, Repr

/-- How an I2C transfer ends: its status, and the bytes that arrived. -/
structure I2cOutcome where
  result : I2cReturn
  data : List UInt8
  deriving DecidableEq

/-- What a main-loop pass meets: the readings of the clock, the answers of OpenThread to the
calls that the pass may make, the four transfers of the sensor, and whether the timer fires
inside `app_process_action`, after it, or just before the timer is restarted. -/
structure PassInput where
  clock : List UInt32
  autostarts : List (Option SockAddr)
  browse : OtError
  coapStart : OtError
  post : PostOutcome
  readyCmd : I2cOutcome
  readyRead : I2cOutcome
  measCmd : I2cOutcome
  measRead : I2cOutcome
  irqInside : Bool
  irqAfter : Bool
  irqBeforeRestart : Bool

/-- A pass in which every call succeeds, the clock stands still and the sensor answers with
the given ready word and measurement. -/
def PassInput.calm (ready measurement : List UInt8) : PassInput where
  clock := []
  autostarts := []
  browse := .none
  coapStart := .none
  post := .success
  readyCmd := ⟨.done, []⟩
  readyRead := ⟨.done, ready⟩
  measCmd := ⟨.done, []⟩
  measRead := ⟨.done, measurement⟩
  irqInside := false
  irqAfter := false
  irqBeforeRestart := false

end SmartCO2
