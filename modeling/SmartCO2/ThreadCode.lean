import SmartCO2.I2c
import SmartCO2.Node
import SmartCO2.Pt
import SmartCO2.Sender

/-!
# The Threads as They Are Written

The threads of the firmware, statement by statement with the macros of `pt.h`, over a `Board`: the
state of the firmware and the traffic on its I2C bus.

## Main results

* `nodeThread_maps`, `sensorThread_maps`, `senderThread_maps`: the blocks of `Node`, `Scd41` and
  `Sender` are what these texts read as.
-/

namespace SmartCO2

/-! ### State -/

/-- What happens on the bus and around it: a transfer, with the clock at that moment, and the
assignment `timeLog = NOW()`. -/
inductive BusObs
  | transfer (t : BusTransfer) (now : UInt32)
  | timeLog (now : UInt32)
  deriving DecidableEq, Repr

/-- The firmware and the traffic on its bus, newest first. -/
structure Board where
  world : World
  bus : List BusObs

namespace Board

/-- A statement that does not use the bus. -/
def does (f : World → World) : Expression Board Unit :=
  .does fun b => { b with world := f b.world }

/-- A condition that only reads the state. -/
def reads (f : World → Bool) : Expression Board Bool := .reads fun b => f b.world

/-- A condition that may read the clock. -/
def tests (f : World → World × Option Bool) : Expression Board Bool :=
  fun b => ({ b with world := (f b.world).1 }, (f b.world).2)

/-- Transfers on the bus. -/
def transfers (ts : List BusTransfer) (b : Board) : Board :=
  { b with bus := ts.reverse.map (.transfer · b.world.clock.now) ++ b.bus }

end Board

/-! ### Statements -/

open PtCode

/-! ### The connection thread -/

section Node

variable (p : Platform) (inp : PassInput)

/-- `PT_SLEEP` of `app.c` -/
def ptSleepNode (l : NodeWait) (x : UInt64) : PtCode NodeWait Board :=
  .waitUntil l (Board.tests (nodeSleep l x))

/-- `(NOW() - _app.then) >= x` -/
def sinceThen (x : UInt64) (w : World) : World × Option Bool :=
  let (t, w) := w.now
  (w, some (decide (x ≤ t.toUInt64 - w.app.thenTime)))

/-- `_app.then = NOW()` -/
def setThen (w : World) : World :=
  let (t, w) := w.now
  { w with app.thenTime := t.toUInt64 }

/-- `mdns_is_ready(_app.mdns)` -/
def appMdnsIsReady (w : World) : World × Option Bool :=
  match w.app.mdns with
  | .null => (w, none)
  | .client => (w, some (mdnsIsReady w.dns.client))

/-- `_app.mdns = mdns_init(_app.sInstance, APP_SERVICE_NAME)` -/
def appMdnsInit (w : World) : World :=
  let r := mdnsInit w.dns p.serviceName inp.autostarts
  { w with dns := r.2, app.mdns := r.1 }

/-- `mdns_schedule_search(_app.mdns, &(_app.address), &(_app.done), &(_app.error))` -/
def appScheduleSearch : Expression Board Unit := fun b =>
  let w := b.world
  match w.app.mdns with
  | .null => (b, none)
  | .client =>
      let refused := w.dns.client.refuses
      let r := mdnsScheduleSearch w.dns w.mem .app .app .app inp.browse
      let w := { w with dns := r.2.1, mem := r.2.2 }
      ({ b with world := if refused then w else w.note (.browse inp.browse) }, some ())

/-- `_app.coap = coap_init(_app.sInstance, &(_app.address))` -/
def appCoapInit (w : World) : World :=
  let r := coapInit w.coap (w.mem.address .app) p.token inp.coapStart
  ({ w with coap := r.2, app.coap := r.1 }).note (.coapInit (decide (r.1 = ClientPtr.client)))

/-- The body of `nodeConnectThread`. What is logged stands where it happens. -/
def nodeConnectThreadCode : PtCode NodeWait Board :=
  block [
    -- 0. Wait for the node to be connected.
    .loop (block [
      when (Board.reads fun w => w.app.connected) [
        .exec (Board.does (World.note · .seenConnected)),
        .brk],
      ptSleepNode .connectSleep 10000,
      .exec (Board.does setThen)]),
    -- 1. initialize the mdns client.
    when (Board.reads fun w => w.app.mdns = .null) [
      .exec (Board.does (appMdnsInit p inp)),
      when (Board.reads fun w => w.app.mdns = .null) [
        ptSleepNode .mdnsRetrySleep 1000,
        .restart],
      ptSleepNode .mdnsInitSleep 1000,
      -- 2. Wait for the mdns client to be ready.
      .waitUntil .mdnsReady (Board.tests appMdnsIsReady)],
    ptSleepNode .searchSleep 1000,
    -- 3. Search for the thinsgboard service.
    when (Board.reads fun w => !w.appDone) [
      .exec (Board.does fun w => { w with mem := w.mem.setBool .app false }),
      .exec (Board.does fun w => { w with mem := w.mem.setError .app .none }),
      .exec (Board.does setThen),
      .exec (appScheduleSearch inp),
      ptSleepNode .launchSleep 1000,
      -- 4. Waiting for the mdns answer.
      .waitUntil .answer (.or (Board.reads World.appDone) (Board.tests (sinceThen 15000))),
      ptSleepNode .answerSleep 1000,
      -- 4.1 MDNS Timeout
      when (Board.reads fun w => !w.appDone) [.restart],
      ptSleepNode .resultSleep 1000,
      -- 4.2 MDNS Error
      when (Board.reads fun w => w.appError ≠ .none) [.restart],
      when (Board.reads fun w => w.app.coap = .null) [
        -- 5. Initialize the coap client
        .exec (Board.does (appCoapInit p inp)),
        when (Board.reads fun w => w.app.coap = .null) [.restart]]],
    .exec (Board.does fun w => ({ w with app.pThreadDone1 := true }).note .nodeEnded)]

end Node

/-! ### The sensor thread -/

section Sensor

variable (inp : PassInput)

/-- `SCD41_ADDRESS` -/
def scd41Address : UInt8 := 0x62

/-- `SCD41_START_LP_PERIODIC_MEAS` -/
def scd41StartLpPeriodicMeas : List UInt8 := [0x21, 0xAC]

/-- `I2C_WriteCmd(SCD41_ADDRESS, cmd, 2)` -/
def scd41WriteCmd (cmd : List UInt8) : Expression Board Unit :=
  .does (Board.transfers [writeCmdTransfer scd41Address cmd 2])

/-- `I2C_Read(SCD41_ADDRESS, i2c_rxBuffer_scd41, numBytes)` -/
def scd41Read (numBytes : ℕ) (transfer : I2cOutcome) : Expression Board Unit :=
  .does fun b =>
    let b := b.transfers [readTransfer scd41Address numBytes]
    { b with world.rxBuffer := i2cRead b.world.rxBuffer numBytes transfer }

/-- `timeLog = NOW()` -/
def setTimeLog : Expression Board Unit := .does fun b =>
  let (t, w) := b.world.now
  { world := { w with timeLog := t.toUInt64 }, bus := .timeLog t :: b.bus }

/-- `PT_SLEEP(2)` of `SCD41.c` -/
def ptSleepSensor (l : SensorWait) : PtCode SensorWait Board :=
  .waitUntil l (Board.tests (sensorGuard l))

/-- `LEDUpdateValue(color)`; `stack` is what its arrays are before they are written. -/
def ledUpdate (color : UInt8) (stack : ℕ → UInt8) : Expression Board Unit := fun b =>
  match ledUpdateValue color stack with
  | some ts => (b.transfers ts, some ())
  | none => (b, none)

/-- `*pThreadDone = true` -/
def setThreadDone3 (ready : Bool) : Expression Board Unit :=
  Board.does fun w => ({ w with app.pThreadDone3 := true }).note (.sensorEnded ready)

/-- The body of `SCD41UpdateValueThread`. -/
def scd41UpdateValueThreadCode (stack : ℕ → UInt8) : PtCode SensorWait Board :=
  block [
    .exec (scd41WriteCmd scd41GetDataRdy),
    .exec setTimeLog,
    ptSleepSensor .readySleep,
    .exec (scd41Read 3 inp.readyRead),
    .cond (Board.reads fun w => rdyValue w.rxBuffer = 0)
      (block [.exec (setThreadDone3 false), .exit])
      (block [
        .exec (ledUpdate 1 stack),
        .exec (scd41WriteCmd scd41ReadMeas),
        .exec setTimeLog,
        ptSleepSensor .measSleep,
        .exec (scd41Read 9 inp.measRead),
        .exec (Board.does fun w =>
          let t := decode w.rxBuffer
          ({ w with app.co2 := t.co2, app.temp := t.temp, app.rh := t.rh }).note (.decoded t))]),
    .exec (setThreadDone3 true)]

end Sensor

/-! ### The sending process -/

section Sender

variable (p : Platform) (inp : PassInput)

/-- `coap_schedule_post(app->coap, app->message, message_size, &done, &error)`, and what is logged
of it. The time that is logged is the clock at the call. -/
def appSchedulePost : Expression Board Unit := fun b =>
  let w := b.world.tick
  let size := UInt16.ofInt w.messageSize
  let record := PostRecord.mk w.app.coap w.app.message size w.clock.now w.app.connected
  match w.app.coap with
  | .null => ({ b with world := w.note (.post (record none)) }, none)
  | .client =>
      let r := coapSchedulePost w.coap w.mem w.app.message size .sender .sender inp.post
      let accepted := if r.1 = .none then some w.coap.allocated else none
      let w := { w with coap := r.2.1, mem := r.2.2.setError .sender r.1 }
      ({ b with world := w.note (.post (record accepted)) }, some ())

/-- The body of `coap_sending_process`. -/
def coapSendingProcessCode : PtCode SenderWait Board :=
  block [
    .exec (Board.does fun w =>
      let r := buildMessage p w.app.message w.app.co2 w.app.rh w.app.temp
      { w with messageSize := r.1, app.message := r.2 }),
    .exec (Board.does fun w => { w with mem := w.mem.setBool .sender false }),
    .exec (Board.does fun w => { w with mem := w.mem.setError .sender .none }),
    .exec (appSchedulePost inp),
    -- Waiting for the coap ack.
    .waitUntil .ack (Board.tests (senderGuard .ack)),
    -- Coap time out
    when (Board.reads fun w => !w.sendDone) [.exec (Board.does (World.note · .timedOut))],
    -- Coap error
    when (Board.reads fun w => w.appError ≠ .none) [.exec (Board.does (World.note · .coapError))],
    .exec (Board.does fun w => { w with app.pThreadDone1 := false }),
    .exec (Board.does fun w => { w with app.pThreadDone2 := false }),
    .exec (Board.does fun w => { w with app.pThreadDone3 := false }),
    .exec (Board.does fun w => { w with app.pThreadDone4 := false }),
    -- Setting run to false to allow sleeping
    .exec (Board.does fun w => { w with run := false }),
    .exec (Board.does (World.note · .cycleEnded))]

end Sender

/-! ### What the texts read as -/

/-- The connection thread, as the macros can handle it. -/
def nodeThread (p : Platform) (inp : PassInput) : PtThread NodeWait Board where
  code := nodeConnectThreadCode p inp
  guarded := by
    simp [nodeConnectThreadCode, block, when, ptSleepNode, PtCode.Guarded, PtCode.quick]
  distinct := by
    simp [nodeConnectThreadCode, block, when, ptSleepNode, PtCode.waits]

/-- The sensor thread, as the macros can handle it. -/
def sensorThread (inp : PassInput) (stack : ℕ → UInt8) : PtThread SensorWait Board where
  code := scd41UpdateValueThreadCode inp stack
  guarded := by simp [scd41UpdateValueThreadCode, block, PtCode.Guarded, ptSleepSensor]
  distinct := by simp [scd41UpdateValueThreadCode, block, PtCode.waits, ptSleepSensor]

/-- The sending process, as the macros can handle it. -/
def senderThread (p : Platform) (inp : PassInput) : PtThread SenderWait Board where
  code := coapSendingProcessCode p inp
  guarded := by simp [coapSendingProcessCode, block, when, PtCode.Guarded]
  distinct := by simp [coapSendingProcessCode, block, when, PtCode.waits]

section Reading

variable {p : Platform} {inp : PassInput} {stack : ℕ → UInt8}

attribute [local simp] PtThread.blocking toProtothread toJump PtCode.find PtRest.toJump
  PtRest.toJumps PtRest.breakToJump block when Board.does Board.reads Expression.does
  Expression.reads

/-- What the text of the connection thread reads as at its beginning, and in each turn of its
first loop. -/
theorem nodeThread_entry (b : Board) :
    nodeWaitConnected p inp b.world =
      (((nodeThread p inp).blocking.entry b).1.world, ((nodeThread p inp).blocking.entry b).2) := by
  cases hconn : b.world.app.connected with
  | false => simp [nodeThread, nodeConnectThreadCode, ptSleepNode, nodeWaitConnected, hconn]
  | true =>
      cases hmdns : b.world.app.mdns with
      | client =>
          simp [nodeThread, nodeConnectThreadCode, ptSleepNode, nodeWaitConnected, nodeInitMdns,
            World.note, hconn, hmdns]
      | null =>
          cases hinit : (mdnsInit b.world.dns p.serviceName inp.autostarts).1 <;>
            simp [nodeThread, nodeConnectThreadCode, ptSleepNode, nodeWaitConnected, nodeInitMdns,
              appMdnsInit, World.note, hconn, hmdns, hinit]

/-- What it reads as from the test of `_app.done` on. -/
theorem nodeThread_search (b : Board) :
    nodeSearch inp b.world =
      (((nodeThread p inp).blocking.body .searchSleep b).1.world,
        ((nodeThread p inp).blocking.body .searchSleep b).2) := by
  cases hdone : b.world.appDone with
  | true =>
      simp [nodeThread, nodeConnectThreadCode, ptSleepNode, nodeSearch, nodeEnd, hdone]
  | false =>
      obtain ⟨clock, htick⟩ := World.tick_eq
        { b.world with mem := (b.world.mem.setBool .app false).setError .app .none }
      cases hmdns : b.world.app.mdns with
      | null =>
          simp [nodeThread, nodeConnectThreadCode, ptSleepNode, nodeSearch, setThen,
            appScheduleSearch, World.now, htick, hdone, hmdns]
      | client =>
          simp [nodeThread, nodeConnectThreadCode, ptSleepNode, nodeSearch, setThen,
            appScheduleSearch, World.now, htick, hdone, hmdns]

/-- **What the connection thread reads as.** -/
theorem nodeThread_maps :
    (nodeThread p inp).blocking.Maps (nodeConnectThread p inp) Board.world where
  entry := nodeThread_entry
  guard l b := by
    cases l with
    | mdnsReady =>
        have hguard : (nodeThread p inp).blocking.guard .mdnsReady =
            Board.tests appMdnsIsReady := rfl
        rw [hguard]
        cases hmdns : b.world.app.mdns <;>
          simp [nodeConnectThread, nodeGuard, Board.tests, appMdnsIsReady, hmdns]
    | answer =>
        have hguard : (nodeThread p inp).blocking.guard .answer =
            Expression.or (Board.reads World.appDone) (Board.tests (sinceThen 15000)) := rfl
        rw [hguard]
        cases hdone : b.world.appDone <;>
          simp [nodeConnectThread, nodeGuard, Board.tests, Expression.or, sinceThen, hdone]
    | _ => rfl
  body l b := by
    cases l with
    | mdnsInitSleep | mdnsReady | launchSleep | answer | mdnsRetrySleep => rfl
    | connectSleep => exact nodeThread_entry { b with world := setThen b.world }
    | searchSleep => exact nodeThread_search b
    | answerSleep =>
        cases hdone : b.world.appDone <;>
          simp [nodeThread, nodeConnectThreadCode, ptSleepNode, nodeConnectThread, nodeBody, hdone]
    | resultSleep =>
        by_cases herror : b.world.appError = .none
        · cases hcoap : b.world.app.coap with
          | client =>
              simp [nodeThread, nodeConnectThreadCode, ptSleepNode, nodeConnectThread, nodeBody,
                nodeInitCoap, nodeEnd, herror, hcoap]
          | null =>
              cases hinit : (coapInit b.world.coap (b.world.mem.address .app) p.token
                  inp.coapStart).1 <;>
                simp [nodeThread, nodeConnectThreadCode, ptSleepNode, nodeConnectThread, nodeBody,
                  nodeInitCoap, nodeEnd, appCoapInit, World.note, herror, hcoap, hinit]
        · simp [nodeThread, nodeConnectThreadCode, ptSleepNode, nodeConnectThread, nodeBody, herror]

/-- **What the sensor thread reads as.** -/
theorem sensorThread_maps :
    (sensorThread inp stack).blocking.Maps (scd41UpdateValueThread inp) Board.world where
  entry b := by
    obtain ⟨clock, htick⟩ := b.world.tick_eq
    simp [sensorThread, scd41UpdateValueThreadCode, ptSleepSensor, scd41WriteCmd, setTimeLog,
      Board.transfers, scd41UpdateValueThread, sensorEntry, sensorCommand, World.now, htick]
  guard l b := by cases l <;> rfl
  body l b := by
    cases l with
    | readySleep =>
        obtain ⟨clock, htick⟩ := World.tick_eq
          { b.world with rxBuffer := i2cRead b.world.rxBuffer 3 inp.readyRead }
        by_cases hready : rdyValue (i2cRead b.world.rxBuffer 3 inp.readyRead) = 0
        · simp [sensorThread, scd41UpdateValueThreadCode, ptSleepSensor, scd41Read,
            setThreadDone3, Board.transfers, scd41UpdateValueThread, sensorBody, hready]
        · simp [sensorThread, scd41UpdateValueThreadCode, ptSleepSensor, scd41Read,
            scd41WriteCmd, setTimeLog, ledUpdate, ledUpdateValue_eq, Board.transfers,
            scd41UpdateValueThread, sensorBody, sensorCommand, World.now, htick, hready]
    | measSleep =>
        simp [sensorThread, scd41UpdateValueThreadCode, ptSleepSensor, scd41Read, setThreadDone3,
          Board.transfers, scd41UpdateValueThread, sensorBody, World.note]

/-- What the post reads as, with the wait behind it. -/
theorem appSchedulePost_reads (inp : PassInput) (b : Board)
    (out : Board → Board × Jump SenderWait) :
    senderPost inp b.world.tick =
      (((PtCode.exec (appSchedulePost inp)).toJump (fun b => (b, .wait .ack)) out b).1.world,
        ((PtCode.exec (appSchedulePost inp)).toJump (fun b => (b, .wait .ack)) out b).2) := by
  cases hcoap : b.world.tick.app.coap <;> simp [appSchedulePost, senderPost, hcoap]

/-- **What the sending process reads as.** -/
theorem senderThread_maps :
    (senderThread p inp).blocking.Maps (coapSendingProcess p inp) Board.world where
  entry b := by
    obtain ⟨r, hr⟩ : ∃ r, buildMessage p b.world.app.message b.world.app.co2 b.world.app.rh
      b.world.app.temp = r := ⟨_, rfl⟩
    have hpost := appSchedulePost_reads inp
      { b with
        world.messageSize := r.1
        world.app.message := r.2
        world.mem := (b.world.mem.setBool .sender false).setError .sender .none }
      PtRest.stop.breakToJump
    subst hr
    exact hpost
  guard l b := by cases l; rfl
  body l b := by
    cases l
    cases hdone : b.world.mem.bool .sender <;> by_cases herror : b.world.mem.error .app = .none <;>
      simp [senderThread, coapSendingProcessCode, coapSendingProcess, senderBody, senderReport,
        World.note, World.sendDone, World.appError, hdone, herror]

end Reading

end SmartCO2
