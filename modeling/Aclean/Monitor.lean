import Aclean.Control

/-!
# The main board's periodic passes

One round each of the endless loops that run beside the command switch: the
automatic control pass, the power monitor with its switch-off timer, fault
sampling, and the storing of one sensor's readings.
-/

namespace Aclean

/-! ## Readings -/

/-- `sw16`: the operands are `short`, so the right shift is arithmetic. -/
def sw16 (x : UInt16) : UInt16 :=
  let xs := x.toBitVec.signExtend 32
  .ofBitVec ((((xs &&& 0x00ff#32) <<< 8) ||| ((xs &&& 0xffffff00#32).sshiftRight 8)).setWidth 16)

/-- `byte_2_to_short`, read back into a `u16`. -/
def byte2ToShort (x y : UInt8) : UInt16 := (x.toUInt16 <<< 8) ||| y.toUInt16

/-- The PM2.5 and CO2 values of room `i` as the control pass forms them. -/
def houseReading (i : Nat) : Code (UInt16 × UInt16) := do
  let b0 ← load (work (Field.houseDataStart + i * 4))
  let b1 ← load (work (Field.houseDataStart + i * 4 + 1))
  let b2 ← load (work (Field.houseDataStart + i * 4 + 2))
  let b3 ← load (work (Field.houseDataStart + i * 4 + 3))
  pure (byte2ToShort b0 b1, byte2ToShort b2 b3)

/-! ## The control pass -/

/-- One of the four scans of the automatic mode: is there a room that
reports and whose readings satisfy `p`? The source leaves the loop at the
first such room. -/
def scanRooms (p : UInt16 → UInt16 → Bool) : Code Bool :=
  Prog.foldUpTo (fun i found =>
    if found then pure true
    else do
      let (pm25, co2) ← houseReading i
      pure ((co2 != 0 || pm25 != 0) && p pm25 co2)) 5 false

/-- What the automatic mode does with its choice. -/
def driveAuto (on speed : UInt8) : Code Unit := do
  acEsdSet on
  acPhtSet on
  aircleanMotorSet speed
  store (.deviceWorkDataAuto Field.highPressurState) on
  store (.deviceWorkDataAuto Field.phtWorkState) on
  store (.deviceWorkDataAuto Field.windSpeedState) speed

def autoHandle : Code Unit := do
  let level3 ← scanRooms fun pm25 co2 => pm25 > 134 || co2 > 2500
  if level3 then driveAuto 1 3
  else do
    let level2 ← scanRooms fun pm25 co2 => pm25 > 96 || co2 > 1300
    if level2 then driveAuto 1 2
    else do
      let clean ← scanRooms fun pm25 co2 => pm25 < 55 && co2 < 730
      if clean then driveAuto 0 0
      else do
        let level1 ← scanRooms fun pm25 co2 => pm25 < 91 && co2 < 1290
        if level1 then driveAuto 1 1 else driveAuto 0 0

/-- The manual branch; `device_work_data_pre` is a local of the pass, so the
hand-over from automatic mode it was meant for is never seen. -/
def manualHandle (deviceWorkDataPre : UInt8) : Code Unit := do
  if deviceWorkDataPre = 0 then
    acEsdSet 1
    acPhtSet 1
    aircleanMotorSet 1
  else
    let hp ← load (work Field.highPressurState)
    acEsdSet hp
    let pht ← load (work Field.phtWorkState)
    acPhtSet pht
    let w ← load (work Field.windSpeedState)
    Prog.when (w = 0) (aircleanMotorSet 1)
    let w ← load (work Field.windSpeedState)
    aircleanMotorSet w

def aircleanWorkAutoHandle : Code Unit := do
  let deviceWorkDataPre : UInt8 := 0xff
  let power ← load (work Field.devicePowerState)
  if power ≠ 0 then
    let mode ← load (work Field.deviceMode)
    if mode = 1 then autoHandle
    else do
      let mode ← load (work Field.deviceMode)
      if mode = 2 then manualHandle deviceWorkDataPre else pure ()
  else pure ()

/-! ## The power monitor -/

section Requests

variable (request : Nat → Code eMBMasterReqErrCode)

/-- The head of a power-monitor round: restart the count when a timer value
appears or changes, remember the value, count one round. -/
def powerMonitorCount : Code Unit := do
  let pre ← load .powerStatePre
  (if pre = 0xff then do
      let tm ← load (work Field.timingState)
      Prog.when (tm ≠ 0) do
        setPowerTimCnt 0
        let tm ← load (work Field.timingState)
        store .powerStatePre tm
    else do
      let tm ← load (work Field.timingState)
      Prog.when (tm ≠ 0) do
        let tm ← load (work Field.timingState)
        Prog.when (tm ≠ pre) do
          setPowerTimCnt 0
          let tm ← load (work Field.timingState)
          store .powerStatePre tm)
  let tm ← load (work Field.timingState)
  store .powerStatePre tm
  let cnt ← getPowerTimCnt
  Prog.when (cnt < 0xFFFFFFFF) ((setPowerTimCnt (cnt + 1)))

/-- One round of `thread_entry_power_monitor`. `0.01*60*60` is 36, and so is
its product with a timer value taken to be exact. The `type` argument of the
frame to the display, `D_CMD_POWER`, is ignored by the builder. -/
def threadEntryPowerMonitor (dCmdPower : UInt8) : Code Unit := do
  powerMonitorCount
  let cnt ← getPowerTimCnt
  let pre ← load .powerStatePre
  Prog.when (cnt = 36 ∧ pre ≠ 0) do
    let tm ← load (work Field.timingState)
    store (work Field.timingState) (tm - 1)
  let cnt ← getPowerTimCnt
  let tm ← load (work Field.timingState)
  if cnt.toNat > tm.toNat * 36 ∧ pre ≠ 0 then
    store (work Field.devicePowerState) 0
    store (work Field.timingState) 0
    setPowerTimCnt 0
    store .powerStatePre 0xff
    setDispboardFunctionMode request dCmdPower 0
    aircleanPowerOnoff 0
  else aircleanWorkAutoHandle

/-! ## Fault sampling -/

/-- `pht_state_get`, `motor_state_get` and the others: a low pin is a fault. -/
def stateGet (p : InPin) : Code UInt8 := do
  let high ← gpioRead p
  pure (if high then 0 else 1)

def sampleFault (b : FaultBit) (p : InPin) : Code Unit := do
  let v ← stateGet p
  faultSetBit b v

/-- One round of `rt_check_ex_device_thread_entry`. -/
def rtCheckExDevice : Code Unit := do
  let power ← load (work Field.devicePowerState)
  if power = 1 then
    let pht ← load (work Field.phtWorkState)
    Prog.when (pht ≠ 0) (sampleFault .pht .pb2)
    sampleFault .motor .pb11
    sampleFault .esd .pc5
    sampleFault .run .pc4
    sampleFault .clean .pb0
    let pre ← load .faultStatePre
    let f ← load (work Field.faultState)
    if pre = 0xff ∨ pre ≠ f then
      let f ← load (work Field.faultState)
      Prog.when (f ≠ 0) (setDisplayBoardData request)
      let f ← load (work Field.faultState)
      store .faultStatePre f
  else store (work Field.faultState) 0

end Requests

/-! ## Sensor readings -/

/-- A 16-bit field is stored low byte first. -/
def storeField16 (off : Nat) (v : UInt16) : Code Unit := do
  store (work off) v.toUInt8
  store (work (off + 1)) (v >>> 8).toUInt8

/-- One sensor of the loop in `thread_entry_SysMonitor`, slave `11 + i`:
register 0 is its CO2 value, register 1 its PM2.5 value. -/
def sensorRead (requestHold : Nat → Code eMBMasterReqErrCode) (i : Nat) : Code Unit := do
  mutexTake .modbus
  let errorCode ← requestHold (11 + i)
  Prog.when (errorCode = .noErr) do
    let co2 ← loadHoldBuf (10 + i) 0
    storeField16 (Field.houseDataStart + 4 * i + 2) (sw16 co2)
    let pm25 ← loadHoldBuf (10 + i) 1
    storeField16 (Field.houseDataStart + 4 * i) (sw16 pm25)
  mutexRelease .modbus

end Aclean
