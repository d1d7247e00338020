import Aclean.Board

/-!
# The main board's control code

`application.c` and the settings part of `wifi_mod_uart.c`: output drivers,
motor frames, the persisted settings, the command switch, the exchanges with
the display board, the automatic control pass, fault sampling and the power
monitor. Each function is the source's, one atomic operation per access to
shared data.

The functions that talk over RS485 take the raw request
(`eMBMasterReqRead_not_rtu_datas` on `rs485_send_buf_not_modbus`) as a
parameter: `exchange` where a request and its reply count as one step, the
Modbus master's own code where its inside matters.

Functions whose result is a constant that no caller reads return `Unit`.
-/

namespace Aclean

/-- The byte of `device_work_data` at offset `i`. -/
abbrev work (i : Nat) : Addr := .deviceWorkData i

/-- `FAULT_*_BIT` of the main board. -/
inductive FaultBit where
  | esd
  | motor
  | pht
  | clean
  | run
  | wind
  | resetWifi
  deriving DecidableEq, Repr

def FaultBit.pos : FaultBit → UInt8
  | .esd => 0
  | .motor => 1
  | .pht => 2
  | .clean => 3
  | .run => 4
  | .wind => 5
  | .resetWifi => 6

def FaultBit.mask (b : FaultBit) : UInt8 := 1 <<< b.pos

def faultSetBit (b : FaultBit) (val : UInt8) : Code Unit := do
  let f ← load (work Field.faultState)
  if val ≠ 0 then store (work Field.faultState) (f ||| b.mask)
  else store (work Field.faultState) (f &&& ~~~b.mask)

/-! ## Outputs -/

def acEsdSet (mode : UInt8) : Code Unit :=
  gpioWrite .pb1 (mode != 0)

def acAcMotorSet (mode : UInt8) : Code Unit := do
  if mode = 1 then
    gpioWrite .pb14 true
    gpioWrite .pb12 false
    gpioWrite .pb13 false
  else if mode = 3 then
    gpioWrite .pb14 false
    gpioWrite .pb12 true
    gpioWrite .pb13 false
  else if mode = 2 then
    gpioWrite .pb14 false
    gpioWrite .pb12 false
    gpioWrite .pb13 true
  else
    gpioWrite .pb14 false
    gpioWrite .pb12 false
    gpioWrite .pb13 false

def acPhtSet (mode : UInt8) : Code Unit :=
  gpioWrite .pb15 ((if mode > 1 then 1 else mode) != 0)

def setDcMotorSpeed (speed : UInt8) : Code Unit := do
  store (.rs485SendBufNotModbus 0) 0xBC
  store (.rs485SendBufNotModbus 1) 0x07
  store (.rs485SendBufNotModbus 2) 0x01
  store (.rs485SendBufNotModbus 3) (if speed > 3 then 3 else speed)
  let b0 ← load (.rs485SendBufNotModbus 0)
  let b1 ← load (.rs485SendBufNotModbus 1)
  let b2 ← load (.rs485SendBufNotModbus 2)
  let b3 ← load (.rs485SendBufNotModbus 3)
  store (.rs485SendBufNotModbus 4) (b0 + b1 + b2 + b3)

def aircleanMotorSet (mode : UInt8) : Code Unit := do
  mutexTake .motor
  store (work Field.windSpeedState) mode
  let w ← load (work Field.windSpeedState)
  acAcMotorSet w
  mutexTake .modbus
  let w ← load (work Field.windSpeedState)
  setDcMotorSpeed w
  mutexRelease .modbus
  mutexRelease .motor

/-! ## Persisted settings -/

abbrev sysParaFlagAddr : Nat := 2
abbrev sysParaStartAddr : Nat := 10

def deviceSysParaGet : Code Unit := do
  let sysParaFlag ← flashRead sysParaFlagAddr
  Prog.when (sysParaFlag = 0x86) <| Prog.forUpTo 6 fun i => do
    let b ← flashRead (sysParaStartAddr + i)
    store (work i) b
  store (work Field.faultState) 0

/-- `SPI_FLASH_BufferWrite(device_work_data.device_data, .., 6)` clocks the
six bytes out of RAM one by one; the page is programmed at the end. -/
def deviceSysParaSave : Code Unit := do
  flashWrite sysParaFlagAddr [0x86]
  let data ← Prog.foldUpTo (fun i data => do
    let b ← load (work i)
    pure (data ++ [b])) 6 []
  flashWrite sysParaStartAddr data

def aircleanPowerOnoff (mode : UInt8) : Code Unit := do
  if mode > 1 then pure ()
  else if mode ≠ 0 then
    deviceSysParaGet
    let hp ← load (work Field.highPressurState)
    acEsdSet hp
    let pht ← load (work Field.phtWorkState)
    acPhtSet pht
    let w ← load (work Field.windSpeedState)
    acAcMotorSet w
    store (work Field.devicePowerState) 1
  else
    deviceSysParaSave
    acEsdSet 0
    acPhtSet 0
    acAcMotorSet 0
    store (work Field.devicePowerState) 0

/-- `device_state_init`; between clearing the bytes and switching on it repeats
the body of `device_sys_para_get`. -/
def deviceStateInit : Code Unit := do
  Prog.forUpTo paraTypeSize fun i => store (work i) 0
  deviceSysParaGet
  aircleanPowerOnoff 1

/-- `airclean_out_pin_init`, behind the set-up of the pins. -/
def aircleanOutPinInit : Code Unit := do
  acEsdSet 1
  acPhtSet 1
  acAcMotorSet 1

/-- The branch of `rt_main_thread_entry` for settings without a mode. -/
def defaultSettings : Code Unit := do
  store (work Field.deviceMode) 2
  store (work Field.highPressurState) 1
  store (work Field.phtWorkState) 1
  acEsdSet 1
  acPhtSet 1
  acAcMotorSet 1

/-- `rt_main_thread_entry` before it starts the other threads; of the set-up of pins
and peripherals only the outputs concern the board. -/
def rtMainThreadEntry : Code Unit := do
  aircleanOutPinInit
  deviceStateInit
  let mode ← load (work Field.deviceMode)
  Prog.when (mode = 0) defaultSettings

/-- `device_work_data_bak = device_work_data`, byte by byte. -/
def backupWorkData : Code Unit :=
  Prog.forUpTo paraTypeSize fun i => do
    let b ← load (work i)
    store (.deviceWorkDataBak i) b

/-- The closing loop of the two settings writers: at the first of the six
setting bytes that differs from its backup, save and leave. -/
def saveIfChanged : Code Unit := do
  let changed ← Prog.foldUpTo (fun i changed =>
    if changed then pure true
    else do
      let old ← load (.deviceWorkDataBak i)
      let new ← load (work i)
      pure (old != new)) 6 false
  if changed then deviceSysParaSave else pure ()

/-! ## Frames for the display board -/

/-- `send_packet_data`; `chk` is never initialised. -/
def sendPacketData (buftmp : List UInt8) : Code Unit := do
  let chk ← undef
  store (.rs485SendBufNotModbus 0) 0xF1
  store (.rs485SendBufNotModbus 1) 0xF1
  let chk ← Prog.foldUpTo (fun i chk => do
    store (.rs485SendBufNotModbus (i + 2)) (buftmp.getD i 0)
    pure (chk + buftmp.getD i 0)) buftmp.length chk
  store (.rs485SendBufNotModbus (buftmp.length + 2)) chk
  store (.rs485SendBufNotModbus (buftmp.length + 3)) 0x7E

/-- `disp_board_packet_data`; `chk` and the last six bytes of its 35-byte
local buffer are never initialised. -/
def dispBoardPacketData (len : Nat) : Code Unit := do
  let data ← Prog.foldUpTo (fun i data => do
    let b ← load (work i)
    pure (data ++ [b])) 27 []
  let rest ← Prog.foldUpTo (fun _ rest => do
    let b ← undef
    pure (rest ++ [b])) 6 []
  let buftmp := (0x01 :: 0x1b :: data) ++ rest
  let chk ← undef
  store (.rs485SendBufNotModbus 0) 0xF2
  store (.rs485SendBufNotModbus 1) 0xF2
  let chk ← Prog.foldUpTo (fun i chk => do
    store (.rs485SendBufNotModbus (i + 2)) (buftmp.getD i 0)
    pure (chk + buftmp.getD i 0)) len chk
  store (.rs485SendBufNotModbus (len + 2)) chk
  store (.rs485SendBufNotModbus (len + 3)) 0x7E

/-- `buf[0] == b && buf[1] == b && buf[e] == 0x7e` on the receive buffer. -/
def replyFramed (b : UInt8) (e : Nat) : Code Bool := do
  let b0 ← load (.ucMasterRTURcvBuf 0)
  if b0 = b then
    let b1 ← load (.ucMasterRTURcvBuf 1)
    if b1 = b then
      let be ← load (.ucMasterRTURcvBuf e)
      pure (be == 0x7E)
    else pure false
  else pure false

/-- What the two functions that send settings and commands do with a reply:
nothing, but they look at it. -/
def ignoreReply (errorCode : eMBMasterReqErrCode) : Code Unit :=
  Prog.when (errorCode = .revData) do
    let _ ← replyFramed 0xF2 32
    pure ()

section Requests

variable (request : Nat → Code eMBMasterReqErrCode)

/-- `tmpbuf[0]` is assigned three times, `tmpbuf[1]` and `tmpbuf[2]` never. -/
def setDispboardFunctionMode (_type mode : UInt8) : Code Unit := do
  let tmpbuf1 ← undef
  let tmpbuf2 ← undef
  mutexTake .modbus
  sendPacketData [mode, tmpbuf1, tmpbuf2]
  store (.ucMasterRTURcvBuf 0) 0
  let errorCode ← request 7
  ignoreReply errorCode
  mutexRelease .modbus

def setDisplayBoardData : Code Unit := do
  mutexTake .modbus
  dispBoardPacketData 29
  store (.ucMasterRTURcvBuf 0) 0
  let errorCode ← request 33
  ignoreReply errorCode
  mutexRelease .modbus

def setDcMotor : Code Unit := do
  let power ← load (work Field.devicePowerState)
  (if power = 0 then setDcMotorSpeed 0
    else do
      let w ← load (work Field.windSpeedState)
      setDcMotorSpeed w)
  store (.ucMasterRTURcvBuf 0) 0
  let errorCode ← request 5
  if errorCode = .revData then
    let b0 ← load (.ucMasterRTURcvBuf 0)
    if b0 = 0xBC then
      let b1 ← load (.ucMasterRTURcvBuf 1)
      if b1 = 0x07 then
        let tmp ← load (.ucMasterRTURcvBuf 3)
        if tmp &&& 0x03 ≠ 0 then faultSetBit .motor 1 else faultSetBit .motor 0

/-! ## The command switch -/

/-- The switch of `set_device_work_mode`; `false` is its default case. -/
def commandSwitch (type data : UInt8) : Code Bool := do
  if type = 0x02 then
    (if data ≠ 0 then do
        store (work Field.devicePowerState) 1
        aircleanPowerOnoff 1
      else do
        store (work Field.devicePowerState) 0
        aircleanPowerOnoff 0)
    pure true
  else if type = 0x03 then
    Prog.when (data = 1 ∨ data = 2) (store (work Field.deviceMode) data)
    pure true
  else if type = 0x04 then
    store (work Field.highPressurState) (if data ≠ 0 then 1 else 0)
    pure true
  else if type = 0x05 then
    store (work Field.phtWorkState) (if data ≠ 0 then 1 else 0)
    acPhtSet data
    pure true
  else if type = 0x06 then
    store (work Field.timingState) (if data ≤ 0x0c then data else 0)
    pure true
  else if type = 0x07 then
    Prog.when (data ≤ 3) (store (work Field.windSpeedState) data)
    setDcMotorSpeed data
    acAcMotorSet data
    pure true
  else pure false

/-- The part of `set_device_work_mode` behind its guard: the backup, the
switch, and for a known type the forwarding and the save. -/
def applyCommand (type data signalCh : UInt8) : Code Unit := do
  backupWorkData
  let known ← commandSwitch type data
  if known then
    Prog.when (signalCh = 1) (setDispboardFunctionMode request type data)
    saveIfChanged

def setDeviceWorkMode (type data signalCh : UInt8) : Code Unit := do
  note (.setDeviceWorkMode type data signalCh)
  if type ≠ 0x02 ∧ type ≠ 0x03 then
    let mode ← load (work Field.deviceMode)
    if mode = 1 then pure ()
    else do
      let power ← load (work Field.devicePowerState)
      if power = 0 then pure ()
      else applyCommand request type data signalCh
  else applyCommand request type data signalCh

/-! ## Polling the display board -/

/-- The F2 branch of `get_display_board_data`. -/
def takeDisplaySettings : Code Unit := do
  backupWorkData
  let m ← load (.ucMasterRTURcvBuf 5)
  store (work Field.deviceMode) m
  let m ← load (work Field.deviceMode)
  Prog.when (m ≠ 1) do
    let w ← load (.ucMasterRTURcvBuf 6)
    store (work Field.windSpeedState) w
    let hp ← load (.ucMasterRTURcvBuf 7)
    store (work Field.highPressurState) hp
    let pht ← load (.ucMasterRTURcvBuf 8)
    store (work Field.phtWorkState) pht
  let tm ← load (.ucMasterRTURcvBuf 9)
  store (work Field.timingState) tm
  let f ← load (.ucMasterRTURcvBuf 30)
  Prog.when (f &&& FaultBit.resetWifi.mask ≠ 0) (note .wifiFactorySet)
  saveIfChanged

/-- The F1 branch of `get_display_board_data`. The buffer is `volatile`:
every mention of an element is a load. -/
def takeDisplayKey : Code Unit := do
  let b ← load (.ucMasterRTURcvBuf 2)
  if b ≤ 7 then
    let b ← load (.ucMasterRTURcvBuf 2)
    if b > 1 then
      let type ← load (.ucMasterRTURcvBuf 2)
      let data ← load (.ucMasterRTURcvBuf 4)
      setDeviceWorkMode request type data 0

/-- What `get_display_board_data` does with a reply. -/
def handleDisplayReply : Code Unit := do
  let f2 ← replyFramed 0xF2 32
  if f2 then takeDisplaySettings
  else do
    let f1 ← replyFramed 0xF1 6
    if f1 then takeDisplayKey request else pure ()

def getDisplayBoardData : Code Unit := do
  mutexTake .modbus
  store (.rs485SendBufNotModbus 0) 0xF1
  store (.rs485SendBufNotModbus 1) 0xF1
  store (.rs485SendBufNotModbus 2) 0x01
  store (.rs485SendBufNotModbus 3) 0x01
  store (.rs485SendBufNotModbus 4) 0x00
  store (.rs485SendBufNotModbus 5) 0x02
  store (.rs485SendBufNotModbus 6) 0x7E
  store (.ucMasterRTURcvBuf 0) 0
  let errorCode ← request 7
  Prog.when (errorCode = .revData) (handleDisplayReply request)
  mutexRelease .modbus

end Requests

end Aclean
