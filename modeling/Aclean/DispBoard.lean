import Mathlib.Logic.Function.Basic

/-!
# The display board

`main.c` and `bsp_led.c` of the display board: the serial receiver and
transmitter of its RS485 link, the command check that answers each frame,
the passes that bring settings and screen into line, and the keys. The
board runs one loop, so its functions are functions on its state. What only
goes out to the LCD driver and the backlight is left out; nothing reads it
back.

The parts of the state that different functions own are records of their
own, so that what a function leaves alone is visible in its definition.
-/

namespace Aclean

/-! ## State -/

/-- The setting bytes of the display's own `device_work_data`. -/
structure Settings where
  devicePowerState : UInt8
  deviceMode : UInt8
  windSpeedState : UInt8
  highPressurState : UInt8
  phtWorkState : UInt8
  timingState : UInt8
  deriving DecidableEq, Repr

def Settings.toList (w : Settings) : List UInt8 :=
  [w.devicePowerState, w.deviceMode, w.windSpeedState, w.highPressurState, w.phtWorkState,
    w.timingState]

/-- The values that the commands and keys can give the setting bytes. -/
structure Settings.InRange (w : Settings) : Prop where
  power : w.devicePowerState ≤ 1
  mode : w.deviceMode ≤ 2
  wind : w.windSpeedState ≤ 3
  highPressur : w.highPressurState ≤ 1
  pht : w.phtWorkState ≤ 1
  timing : w.timingState ≤ 12

theorem byte_le_one {v : UInt8} (h : v ≤ 1) : v = 0 ∨ v = 1 := by
  rw [UInt8.le_iff_toNat_le] at h
  rw [← UInt8.toNat_inj, ← UInt8.toNat_inj]
  simp at h ⊢
  omega

theorem byte_le_three {v : UInt8} (h : v ≤ 3) : v = 0 ∨ v = 1 ∨ v = 2 ∨ v = 3 := by
  have hv := UInt8.le_iff_toNat_le.mp h
  simp only [← UInt8.toNat_inj]
  simp at hv ⊢
  omega

namespace Settings.InRange

variable {w : Settings}

theorem power_cases (h : w.InRange) : w.devicePowerState = 0 ∨ w.devicePowerState = 1 :=
  byte_le_one h.power

theorem highPressur_cases (h : w.InRange) : w.highPressurState = 0 ∨ w.highPressurState = 1 :=
  byte_le_one h.highPressur

theorem pht_cases (h : w.InRange) : w.phtWorkState = 0 ∨ w.phtWorkState = 1 :=
  byte_le_one h.pht

theorem wind_cases (h : w.InRange) : w.windSpeedState = 0 ∨ w.windSpeedState = 1 ∨
    w.windSpeedState = 2 ∨ w.windSpeedState = 3 :=
  byte_le_three h.wind

end Settings.InRange

/-- Icons (`Ht1621Tab2`), digits (`Ht1621Tab3`) and the timer being set. -/
structure Screen where
  ht1621Tab2 : Nat → UInt8
  ht1621Tab3 : Nat → UInt8
  count2 : UInt8
  count3 : UInt8

/-- The key events not yet reported, `0xff` for none. -/
structure Keys where
  powerKeyState : UInt8
  modeKeyState : UInt8
  phtKeyState : UInt8
  workspeedKeyState : UInt8
  esdKeyState : UInt8
  deriving DecidableEq, Repr

structure SerialRx where
  isrJ : UInt8
  isrCom : UInt8
  recDataNum : UInt8
  rxd1Buffer : Nat → UInt8
  inComBuff : Nat → UInt8
  rxd1BuffCFlag : UInt8

structure SerialTx where
  wifiSendPacketBufPub : Nat → UInt8
  cmdSendLenth : UInt8
  counterSend : UInt8
  txeEnabled : Bool

structure Disp where
  work : Settings
  /-- PM2.5 and CO2 of rooms 1 to 5, as they are declared. -/
  house : Nat → UInt16
  faultState : UInt8
  screen : Screen
  /-- 0 while the timer is being set, else 1. -/
  key4 : UInt8
  keys : Keys
  rx : SerialRx
  tx : SerialTx
  timeTickCnt1 : UInt32
  /-- Ghost: the calls of `return_device_power_state_change` so far. -/
  log : List (UInt8 × UInt8)

/-- The display after `device_state_init`, nothing sent or received yet. -/
def Disp.reset : Disp where
  work := ⟨1, 0, 0, 0, 0, 0⟩
  house := fun _ => 0
  faultState := 0
  screen := ⟨fun _ => 0, fun _ => 0, 0, 0⟩
  key4 := 1
  keys := ⟨0xff, 0xff, 0xff, 0xff, 0xff⟩
  rx := ⟨0, 0, 0, fun _ => 0, fun _ => 0, 0⟩
  tx := ⟨fun _ => 0, 0, 0, false⟩
  timeTickCnt1 := 700
  log := []

/-! ## Screen -/

/-- The icon bits of which two lines of the LCD are put together. -/
def recombine (tab : Nat → UInt8) : Nat → UInt8 :=
  let tab := Function.update tab 12 (tab 18 ||| tab 17)
  Function.update tab 0 (tab 13 ||| tab 14 ||| tab 15 ||| tab 16)

/-- Where icon `f` lives: entry and bit. -/
def iconPlace (f : Nat) : Nat × UInt8 :=
  if f ≤ 11 then (f, 0x01)
  else if f = 12 then (17, 0x01)
  else if f = 13 then (18, 0x08)
  else if f = 14 then (18, 0x04)
  else if f = 15 then (18, 0x02)
  else if f = 16 then (16, 0x08)
  else if f = 17 then (15, 0x04)
  else if f = 18 then (14, 0x02)
  else (13, 0x01)

/-- Only the statement right after each `if` is guarded: the combined lines
are recomputed for every icon. -/
def Screen.ht1621OffDisp (f : Nat) (sc : Screen) : Screen :=
  let (i, bit) := iconPlace f
  { sc with ht1621Tab2 :=
      recombine (Function.update sc.ht1621Tab2 i (sc.ht1621Tab2 i &&& ~~~bit)) }

/-- Switching an icon on assigns its entry, other bits included. -/
def Screen.ht1621OnDisp (f : Nat) (sc : Screen) : Screen :=
  let (i, bit) := iconPlace f
  { sc with ht1621Tab2 := recombine (Function.update sc.ht1621Tab2 i bit) }

/-- `Ht1621Tab3[5]=count3; Ht1621Tab3[6]=count2; count3=..; count2=..` -/
def Screen.showTimer (hi lo : UInt8) (sc : Screen) : Screen :=
  { sc with
    ht1621Tab3 := Function.update (Function.update sc.ht1621Tab3 5 sc.count3) 6 sc.count2
    count3 := hi
    count2 := lo }

def Screen.pin0Scan (sc : Screen) : Screen := (sc.ht1621OnDisp 18).ht1621OnDisp 19

def Screen.pin1Scan (sc : Screen) : Screen := sc.ht1621OnDisp 4

def Screen.pin6Scan (timingState : UInt8) (sc : Screen) : Screen :=
  if timingState ≠ 0 ∨ sc.count2.toNat + sc.count3.toNat ≠ 0 then
    ((sc.ht1621OnDisp 5).ht1621OnDisp 6).ht1621OnDisp 7
  else ((sc.ht1621OffDisp 5).ht1621OffDisp 6).ht1621OffDisp 7

def Screen.ht1621Display (timingState : UInt8) (sc : Screen) : Screen :=
  (sc.ht1621OnDisp 6).pin6Scan timingState

namespace Disp

/-! ## Settings and screen in line -/

def onoffDeviceSet (mode : UInt8) (d : Disp) : Disp :=
  if mode = 1 then
    { d with
      screen := (d.screen.pin0Scan.pin1Scan).ht1621Display d.work.timingState
      work := { d.work with devicePowerState := 1 } }
  else
    { d with
      screen := d.screen.showTimer 0 0
      work :=
        { d.work with
          windSpeedState := 0
          highPressurState := 0
          phtWorkState := 0
          timingState := d.screen.count3 * 10 + d.screen.count2
          devicePowerState := 0 } }

/-- The six switches of `device_work_mode_check`, each on the value its field
had when the pass began. -/
def checkPower (tmp5 : UInt8) (d : Disp) : Disp :=
  if tmp5 = 0x00 then d.onoffDeviceSet 0
  else if tmp5 = 0x01 then d.onoffDeviceSet 1
  else d

def checkMode (tmp : UInt8) (d : Disp) : Disp :=
  if tmp = 0x01 ∧ d.key4 ≠ 0 then
    { d with
      screen := ((d.screen.ht1621OffDisp 2).ht1621OnDisp 3).ht1621OffDisp 1
      work := { d.work with deviceMode := 1 } }
  else if tmp = 0x02 ∧ d.key4 ≠ 0 then
    { d with
      screen := ((d.screen.ht1621OffDisp 3).ht1621OffDisp 1).ht1621OnDisp 2
      work := { d.work with deviceMode := 2 } }
  else d

def checkWind (tmp1 : UInt8) (d : Disp) : Disp :=
  if tmp1 = 0x00 then
    { d with
      screen := ((d.screen.ht1621OffDisp 13).ht1621OffDisp 14).ht1621OffDisp 15
      work := { d.work with windSpeedState := 0 } }
  else if tmp1 = 0x01 then
    { d with
      screen := d.screen.ht1621OnDisp 13
      work := { d.work with windSpeedState := 1 } }
  else if tmp1 = 0x02 then
    { d with
      screen := d.screen.ht1621OnDisp 14
      work := { d.work with windSpeedState := 2 } }
  else if tmp1 = 0x03 then
    { d with
      screen := d.screen.ht1621OnDisp 15
      work := { d.work with windSpeedState := 3 } }
  else d

def checkHighPressur (tmp2 : UInt8) (d : Disp) : Disp :=
  if tmp2 = 0x00 then
    { d with
      screen := d.screen.ht1621OffDisp 16
      work := { d.work with highPressurState := 0 } }
  else if tmp2 = 0x01 then
    { d with
      screen := d.screen.ht1621OnDisp 16
      work := { d.work with highPressurState := 1 } }
  else d

def checkPht (tmp3 : UInt8) (d : Disp) : Disp :=
  if tmp3 = 0x00 then
    { d with
      screen := d.screen.ht1621OffDisp 17
      work := { d.work with phtWorkState := 0 } }
  else if tmp3 = 0x01 then
    { d with
      screen := d.screen.ht1621OnDisp 17
      work := { d.work with phtWorkState := 1 } }
  else d

/-- The thirteen cases of the timer differ in the hour and its two digits. -/
def checkTiming (tmp4 : UInt8) (d : Disp) : Disp :=
  if d.key4 ≠ 0 ∧ tmp4 ≤ 0x0C then
    { d with
      screen := d.screen.showTimer (tmp4 / 10) (tmp4 % 10)
      work := { d.work with timingState := tmp4 } }
  else d

def deviceWorkModeCheck (d : Disp) : Disp :=
  ((((((d.checkPower d.work.devicePowerState).checkMode d.work.deviceMode).checkWind
    d.work.windSpeedState).checkHighPressur d.work.highPressurState).checkPht
    d.work.phtWorkState).checkTiming d.work.timingState)

/-- One round of the loop in `fault_check`, for bit `i` shown by icon `icon`. -/
def faultIcon (i : UInt8) (icon : Nat) (d : Disp) : Disp :=
  if d.faultState &&& (1 <<< i) ≠ 0 then
    { d with screen := (d.screen.ht1621OnDisp icon).ht1621Display d.work.timingState }
  else { d with screen := d.screen.ht1621OffDisp icon }

def faultCheck (d : Disp) : Disp :=
  let d :=
    if d.faultState &&& 1 ≠ 0 then { d with screen := d.screen.ht1621OnDisp 11 }
    else { d with screen := d.screen.ht1621OffDisp 11 }
  let d := (((d.faultIcon 1 10).faultIcon 2 9).faultIcon 3 12).faultIcon 4 8
  -- bit 5 has no icon, but its case refreshes the screen as well
  if d.faultState &&& (0x20 : UInt8) ≠ 0 then
    { d with screen := d.screen.ht1621Display d.work.timingState }
  else d

end Disp

/-! ## The serial link -/

/-- `serial_int1_receive`. -/
def SerialRx.serialInt1Receive (udr1 : UInt8) (r : SerialRx) : SerialRx :=
  if r.isrJ = 0 then
    if udr1 ≠ 0xF1 ∧ udr1 ≠ 0xF2 then { r with isrCom := 0, isrJ := 0 }
    else
      { r with
        recDataNum := if udr1 = 0xF1 then 7 else 33
        rxd1Buffer := Function.update r.rxd1Buffer 0 udr1
        isrCom := 1
        isrJ := 1 }
  else if r.isrCom = 1 ∧
      (udr1 ≠ 0xF1 ∧ r.rxd1Buffer 0 = 0xF1 ∨ udr1 ≠ 0xF2 ∧ r.rxd1Buffer 0 = 0xF2) then
    { r with isrCom := 0, isrJ := 0 }
  else
    let buffer := Function.update r.rxd1Buffer r.isrCom.toNat udr1
    if r.isrCom + 1 ≥ r.recDataNum then
      { r with
        rxd1Buffer := buffer
        isrCom := 0
        isrJ := 0
        rxd1BuffCFlag := 1
        inComBuff := fun i => if i < r.recDataNum.toNat then buffer i else r.inComBuff i }
    else { r with rxd1Buffer := buffer, isrCom := r.isrCom + 1 }

def SerialRx.feed (bs : List UInt8) (r : SerialRx) : SerialRx :=
  bs.foldl (fun r b => r.serialInt1Receive b) r

/-- The frame is copied out, the flag and the buffer are cleared. -/
def SerialRx.takeFrame (r : SerialRx) : SerialRx :=
  { r with
    rxd1BuffCFlag := 0
    inComBuff := fun i => if i < 40 then 0 else r.inComBuff i }

/-- `serial_int1_send`: the byte put on the wire by one transmit interrupt.
The test is `<=`, and its `else` sends a byte too, so a frame is followed by
the two bytes behind it. -/
def SerialTx.serialInt1Send (x : SerialTx) : UInt8 × SerialTx :=
  let byte := x.wifiSendPacketBufPub x.counterSend.toNat
  let x :=
    if x.counterSend ≤ x.cmdSendLenth then { x with counterSend := x.counterSend + 1 }
    else { x with counterSend := 0, txeEnabled := false }
  (byte, if x.counterSend > 40 then { x with counterSend := 0 } else x)

/-- Transmit interrupts until they are disabled, `fuel` at most. -/
def SerialTx.drain : Nat → SerialTx → List UInt8 × SerialTx
  | 0, x => ([], x)
  | fuel + 1, x =>
      if x.txeEnabled then
        let (byte, x) := x.serialInt1Send
        let (bytes, x) := drain fuel x
        (byte :: bytes, x)
      else ([], x)

/-- The packet builders' loop on the transmit buffer, from a checksum that
starts at `chk`. -/
def packBuffer (head : UInt8) (buf : List UInt8) (chk : UInt8) (pub : Nat → UInt8) : Nat → UInt8 :=
  let pub := Function.update (Function.update pub 0 head) 1 head
  let (pub, chk) := (List.range buf.length).foldl (fun (pub, chk) i =>
    (Function.update pub (i + 2) (buf.getD i 0), chk + buf.getD i 0)) (pub, chk)
  Function.update (Function.update pub (buf.length + 2) chk) (buf.length + 3) 0x7E

namespace Disp

/-- `com_send_packet_data_f1`. -/
def comSendPacketDataF1 (buf : List UInt8) (d : Disp) : Disp :=
  { d with
    tx :=
      { d.tx with
        wifiSendPacketBufPub := packBuffer 0xF1 buf 0 d.tx.wifiSendPacketBufPub
        cmdSendLenth := UInt8.ofNat (buf.length + 4)
        txeEnabled := true }
    rx := { d.rx with rxd1BuffCFlag := 0 } }

/-- `wifi_send_packet_data` of the display; `chk` is never initialised, so
what it starts from is an argument. -/
def wifiSendPacketData (chk : UInt8) (buf : List UInt8) (d : Disp) : Disp :=
  { d with
    tx :=
      { d.tx with
        wifiSendPacketBufPub := packBuffer 0xF2 buf chk d.tx.wifiSendPacketBufPub
        cmdSendLenth := UInt8.ofNat (buf.length + 4)
        txeEnabled := true }
    rx := { d.rx with rxd1BuffCFlag := 0 } }

/-- `com_send_packet_data_f1` on the three bytes that `Function` and `mode`
make, and `txd1_buffer_send`, which also clears the receive flag. -/
def returnDevicePowerStateChange (function mode : UInt8) (d : Disp) : Disp :=
  let buf := d.tx.wifiSendPacketBufPub
  let buf := Function.update (Function.update buf 0 0xF1) 1 0xF1
  let buf := Function.update (Function.update (Function.update buf 2 function) 3 0x01) 4 mode
  let buf := Function.update (Function.update buf 5 (0 + function + 0x01 + mode)) 6 0x7E
  { d with
    tx := { d.tx with wifiSendPacketBufPub := buf, cmdSendLenth := 3 + 4, txeEnabled := true }
    rx := { d.rx with rxd1BuffCFlag := 0 }
    log := d.log ++ [(function, mode)] }

theorem returnDevicePowerStateChange_eq (function mode : UInt8) (d : Disp) :
    d.returnDevicePowerStateChange function mode =
      { d.comSendPacketDataF1 [function, 0x01, mode] with log := d.log ++ [(function, mode)] } := rfl

/-! ## Commands -/

/-- The switch of `cmd_uart_check` on the command of an F1 frame. -/
def f1Switch (type data : UInt8) (w : Settings) : Settings :=
  if type = 0x02 then { w with devicePowerState := if data ≠ 0 then 1 else 0 }
  else if type = 0x03 then if data = 1 ∨ data = 2 then { w with deviceMode := data } else w
  else if type = 0x04 then { w with highPressurState := if data ≠ 0 then 1 else 0 }
  else if type = 0x05 then { w with phtWorkState := if data ≠ 0 then 1 else 0 }
  else if type = 0x06 then
    { w with timingState := if data ≤ 0x0c ∧ data ≠ 0 then data else 0 }
  else if type = 0x07 then if data ≤ 3 then { w with windSpeedState := data } else w
  else w

/-- One branch of the key reports: the event is cleared by `keys` and sent. -/
def report (keys : Keys) (function mode : UInt8) (d : Disp) : Disp :=
  { ({ d with keys := keys }).returnDevicePowerStateChange function mode with
    timeTickCnt1 := 0 }

/-- A branch of the key reports: its condition, the key states with the event
cleared, and the arguments of `return_device_power_state_change`. -/
structure KeyReport where
  due : Bool
  cleared : Keys
  function : UInt8
  mode : UInt8

/-- The `else if` chain of the key reports, in order. -/
def keyReports (k : Keys) : List KeyReport :=
  [⟨k.powerKeyState == 0x01, { k with powerKeyState := 0xff }, 2, 1⟩,
    ⟨k.powerKeyState == 0x00, { k with powerKeyState := 0xff }, 2, 0⟩,
    ⟨k.modeKeyState == 0x01, { k with modeKeyState := 0xff }, 3, 1⟩,
    ⟨k.modeKeyState == 0x02, { k with modeKeyState := 0xff }, 3, 2⟩,
    ⟨k.phtKeyState == 0x01, { k with phtKeyState := 0xff }, 5, 1⟩,
    ⟨k.phtKeyState == 0x00, { k with phtKeyState := 0xff }, 5, 0⟩,
    ⟨k.workspeedKeyState == 0x01, { k with workspeedKeyState := 0xff }, 7, 1⟩,
    ⟨k.workspeedKeyState == 0x02, { k with workspeedKeyState := 0xff }, 7, 2⟩,
    ⟨k.workspeedKeyState == 0x03, { k with workspeedKeyState := 0xff }, 7, 3⟩,
    ⟨k.esdKeyState == 0x01, { k with esdKeyState := 0xff }, 4, 1⟩,
    ⟨k.esdKeyState == 0x00, { k with esdKeyState := 0xff }, 4, 0⟩]

/-- The key event that the next answer reports. -/
def pending (d : Disp) : Option KeyReport := (keyReports d.keys).find? KeyReport.due

/-- The answer to an F1 frame (`rx_buff_f1` is never set): the first pending
key event, else a sign of life every 700 ms. -/
def answerF1 (d : Disp) : Disp :=
  match d.pending with
  | some r => d.report r.cleared r.function r.mode
  | none => if d.timeTickCnt1 > 700 then d.report d.keys 1 0 else d

/-- The settings, readings and faults of an F2 frame. -/
def takeF2 (rx : Nat → UInt8) (d : Disp) : Disp :=
  { d with
    house := fun i =>
      if i < 10 then ((rx (10 + 2 * i)).toUInt16 <<< 8) + (rx (11 + 2 * i)).toUInt16
      else d.house i
    faultState := rx 30
    work :=
      { d.work with
        devicePowerState := rx 4
        deviceMode := rx 5
        windSpeedState := rx 6
        highPressurState := rx 7
        phtWorkState := rx 8 } }

def cmdUartCheck (d : Disp) : Disp :=
  if d.rx.rxd1BuffCFlag = 0 then d
  else
    let rx := d.rx.inComBuff
    let d := { d with rx := d.rx.takeFrame }
    let d :=
      if rx 0 = 0xF1 ∧ rx 1 = 0xF1 then
        ({ d with work := f1Switch (rx 2) (rx 4) d.work }).deviceWorkModeCheck.answerF1
      else d
    if rx 0 = 0xF2 ∧ rx 1 = 0xF2 then ((d.takeF2 rx).deviceWorkModeCheck).faultCheck else d

/-! ## Keys -/

/-- A short press of the power key. -/
def powerKey (d : Disp) : Disp :=
  { d with keys :=
      { d.keys with powerKeyState := if d.work.devicePowerState = 0 then 0x01 else 0x00 } }

/-- A short press of the mode key leaves the timer setting, else asks for the
other mode. -/
def mainSwitchKey (d : Disp) : Disp :=
  if d.work.devicePowerState ≠ 1 then d
  else if d.key4 = 0 then { d with key4 := 1 }
  else if d.work.deviceMode = 1 then { d with keys := { d.keys with modeKeyState := 0x02 } }
  else if d.work.deviceMode = 2 then { d with keys := { d.keys with modeKeyState := 0x01 } }
  else d

/-- A long press of the mode key enters the timer setting. -/
def mainSwitchKeyLong (d : Disp) : Disp :=
  if d.work.devicePowerState ≠ 1 then d
  else
    { d with
      key4 := 0
      screen := ((d.screen.ht1621OffDisp 2).ht1621OffDisp 3).ht1621OnDisp 1 }

/-- The ESD key; while the timer is set it counts the hours up. -/
def esdKey (d : Disp) : Disp :=
  if d.work.devicePowerState ≠ 1 then d
  else if d.key4 = 0 then
    let (hi, lo) :=
      if d.screen.count2 + 1 = 10 then ((1 : UInt8), (0 : UInt8))
      else (d.screen.count3, d.screen.count2 + 1)
    let (hi, lo) := if hi = 1 ∧ lo ≥ 3 then ((1 : UInt8), (2 : UInt8)) else (hi, lo)
    { d with screen :=
        { d.screen with
          count2 := lo
          count3 := hi
          ht1621Tab3 := Function.update (Function.update d.screen.ht1621Tab3 5 hi) 6 lo } }
  else if d.work.deviceMode = 2 then
    { d with keys :=
        { d.keys with esdKeyState := if d.work.highPressurState = 0 then 0x01 else 0x00 } }
  else d

/-- The PHT key; while the timer is set it counts the hours down. -/
def phtKey (d : Disp) : Disp :=
  if d.work.devicePowerState ≠ 1 then d
  else if d.key4 = 0 then
    let (hi, lo) :=
      if d.screen.count3 = 1 ∧ d.screen.count2 = 0 then ((0 : UInt8), (10 : UInt8))
      else (d.screen.count3, d.screen.count2)
    let lo := if lo ≠ 0 then lo - 1 else 0
    { d with screen :=
        { d.screen with
          count2 := lo
          count3 := hi
          ht1621Tab3 := Function.update (Function.update d.screen.ht1621Tab3 5 hi) 6 lo } }
  else if d.work.deviceMode = 2 then
    { d with keys :=
        { d.keys with phtKeyState := if d.work.phtWorkState = 0 then 0x01 else 0x00 } }
  else d

/-- The wind key; a speed out of range sets an event that is never reported. -/
def windKey (d : Disp) : Disp :=
  if d.work.devicePowerState ≠ 1 ∨ d.key4 = 0 then d
  else
    { d with keys :=
        { d.keys with workspeedKeyState :=
            if d.work.windSpeedState = 0 then 0x01
            else if d.work.windSpeedState = 1 then 0x02
            else if d.work.windSpeedState = 2 then 0x03
            else if d.work.windSpeedState = 3 then 0x01
            else 0x00 } }

end Disp

end Aclean
