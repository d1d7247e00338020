import Aclean.ResetKey
import Aclean.SharedCell

/-!
# The debounced keys

The power key and the mode key are read by two copies of one debouncer. Each
has its step and its counters to itself, but the state of the key that is down
is in one global variable, `KeyState`, for both. `Key_Scan` calls one after the
other in every round of the main loop.
-/

namespace Aclean

open SharedCell

inductive KEYSTATE where
  | keyDown
  | keyUp
  | keyShort
  | keyLong
  deriving DecidableEq, Repr

/-- The statics of a key function. -/
structure KeyStatics where
  keyStep : UInt8
  keyDownTimes : UInt16
  keyDoubleTimes : UInt16
  deriving DecidableEq, Repr

inductive Press where
  | short
  | long
  deriving DecidableEq, Repr

/-- The body of `power_Key` and of `MainSwitch_Key` on the level of its pin; a
pressed key is low. What is done for a press is left to the caller. -/
def debounce (high : Bool) (k : KeyStatics) (keyState : KEYSTATE) :
    Effect KeyStatics KEYSTATE Press :=
  if k.keyStep = 0 then
    if high = false then
      ⟨{ k with keyStep := if k.keyDoubleTimes > 0 then 4 else 2 }, some .keyDown, none⟩
    else if k.keyDoubleTimes > 0 then
      let k := { k with keyDoubleTimes := k.keyDoubleTimes - 1 }
      if k.keyDoubleTimes = 0 ∧ keyState = .keyShort then ⟨k, some .keyUp, some .short⟩
      else ⟨k, none, none⟩
    else ⟨k, none, none⟩
  else if k.keyStep = 1 then
    if high = false then
      let k := { k with keyDownTimes := k.keyDownTimes + 1 }
      if k.keyDownTimes < 400 then ⟨k, some .keyShort, none⟩
      else if keyState ≠ .keyLong then ⟨k, some .keyLong, some .long⟩
      else if k.keyDownTimes ≥ 400 then ⟨{ k with keyDownTimes := 400 }, none, none⟩
      else ⟨k, none, none⟩
    else ⟨{ k with keyStep := 2 }, none, none⟩
  else if k.keyStep = 2 then
    ⟨{ k with keyStep := if high then 3 else 1 }, none, none⟩
  else if k.keyStep = 3 then
    if high then
      ⟨{ keyStep := 0
         keyDownTimes := 0
         keyDoubleTimes := if k.keyDownTimes < 400 then 10 else k.keyDoubleTimes }, none, none⟩
    else ⟨{ k with keyStep := 2 }, none, none⟩
  else if k.keyStep = 4 then
    if high then ⟨{ k with keyStep := 0 }, some .keyUp, none⟩ else ⟨k, none, none⟩
  else ⟨{ k with keyStep := 0 }, none, none⟩

/-- How the call's test of `KeyState` comes out: for a short press when the
wait for a second one is over, for a long one from 400 low samples on. -/
def keyStateTest (high : Bool) (k : KeyStatics) (keyState : KEYSTATE) : Bool :=
  if k.keyStep = 0 ∧ high = true ∧ k.keyDoubleTimes > 0 ∧ k.keyDoubleTimes - 1 = 0 then
    keyState == .keyShort
  else if k.keyStep = 1 ∧ high = false ∧ ¬ k.keyDownTimes + 1 < 400 then
    keyState != .keyLong
  else false

/-! ## One call -/

section Debounce

variable {k : KeyStatics} {c : KEYSTATE}

theorem debounce_down (h : k.keyStep = 0) :
    debounce false k c =
      ⟨{ k with keyStep := if k.keyDoubleTimes > 0 then 4 else 2 }, some .keyDown, none⟩ := by
  rw [debounce, if_pos h, if_pos rfl]

theorem debounce_wait (h : k.keyStep = 0) (hdouble : k.keyDoubleTimes > 0) :
    debounce true k c =
      if k.keyDoubleTimes - 1 = 0 ∧ c = .keyShort then
        ⟨{ k with keyDoubleTimes := k.keyDoubleTimes - 1 }, some .keyUp, some .short⟩
      else ⟨{ k with keyDoubleTimes := k.keyDoubleTimes - 1 }, none, none⟩ := by
  rw [debounce, if_pos h, if_neg (by decide), if_pos hdouble]

theorem debounce_idle (h : k.keyStep = 0) (hdouble : ¬ k.keyDoubleTimes > 0) :
    debounce true k c = ⟨k, none, none⟩ := by
  rw [debounce, if_pos h, if_neg (by decide), if_neg hdouble]

theorem debounce_count (h : k.keyStep = 1) :
    debounce false k c =
      if k.keyDownTimes + 1 < 400 then
        ⟨{ k with keyDownTimes := k.keyDownTimes + 1 }, some .keyShort, none⟩
      else if c ≠ .keyLong then
        ⟨{ k with keyDownTimes := k.keyDownTimes + 1 }, some .keyLong, some .long⟩
      else ⟨{ k with keyDownTimes := 400 }, none, none⟩ := by
  rw [debounce, if_neg (by rw [h]; decide), if_pos h, if_pos rfl]
  dsimp only
  split
  · rfl
  · next hcount => rw [if_pos (UInt16.not_lt.mp hcount)]

theorem debounce_bounce (h : k.keyStep = 1) :
    debounce true k c = ⟨{ k with keyStep := 2 }, none, none⟩ := by
  rw [debounce, if_neg (by rw [h]; decide), if_pos h, if_neg (by decide)]

theorem debounce_between (h : k.keyStep = 2) (high : Bool) :
    debounce high k c =
      ⟨{ k with keyStep := if high then 3 else 1 }, none, none⟩ := by
  rw [debounce, if_neg (by rw [h]; decide), if_neg (by rw [h]; decide), if_pos h]

theorem debounce_release (h : k.keyStep = 3) :
    debounce true k c =
      ⟨⟨0, 0, if k.keyDownTimes < 400 then 10 else k.keyDoubleTimes⟩, none, none⟩ := by
  rw [debounce, if_neg (by rw [h]; decide), if_neg (by rw [h]; decide),
    if_neg (by rw [h]; decide), if_pos h, if_pos rfl]

theorem debounce_again (h : k.keyStep = 3) :
    debounce false k c = ⟨{ k with keyStep := 2 }, none, none⟩ := by
  rw [debounce, if_neg (by rw [h]; decide), if_neg (by rw [h]; decide),
    if_neg (by rw [h]; decide), if_pos h, if_neg (by decide)]

theorem debounce_second (h : k.keyStep = 4) (high : Bool) :
    debounce high k c =
      if high then ⟨{ k with keyStep := 0 }, some .keyUp, none⟩ else ⟨k, none, none⟩ := by
  rw [debounce, if_neg (by rw [h]; decide), if_neg (by rw [h]; decide),
    if_neg (by rw [h]; decide), if_neg (by rw [h]; decide), if_pos h]

end Debounce

theorem keyStateTest_short {k : KeyStatics} (h : k.keyStep = 0) (hdouble : k.keyDoubleTimes > 0)
    (hlast : k.keyDoubleTimes - 1 = 0) (keyState : KEYSTATE) :
    keyStateTest true k keyState = (keyState == .keyShort) := by
  rw [keyStateTest, if_pos ⟨h, rfl, hdouble, hlast⟩]

theorem keyStateTest_long {k : KeyStatics} (h : k.keyStep = 1)
    (hcount : ¬ k.keyDownTimes + 1 < 400) (keyState : KEYSTATE) :
    keyStateTest false k keyState = (keyState != .keyLong) := by
  rw [keyStateTest, if_neg (by rw [h]; exact fun hc => absurd hc.1 (by decide)),
    if_pos ⟨h, rfl, hcount⟩]

/-- A call depends on `KeyState` through its test only. -/
theorem debounce_congr {high : Bool} {k : KeyStatics} {c c' : KEYSTATE}
    (h : keyStateTest high k c = keyStateTest high k c') :
    debounce high k c = debounce high k c' := by
  by_cases h0 : k.keyStep = 0
  · cases high with
    | false => rw [debounce_down h0, debounce_down h0]
    | true =>
      by_cases hdouble : k.keyDoubleTimes > 0
      · rw [debounce_wait h0 hdouble, debounce_wait h0 hdouble]
        by_cases hlast : k.keyDoubleTimes - 1 = 0
        · rw [keyStateTest_short h0 hdouble hlast, keyStateTest_short h0 hdouble hlast,
            Bool.eq_iff_iff, beq_iff_eq, beq_iff_eq] at h
          simp only [h]
        · rw [if_neg fun hc => hlast hc.1, if_neg fun hc => hlast hc.1]
      · rw [debounce_idle h0 hdouble, debounce_idle h0 hdouble]
  by_cases h1 : k.keyStep = 1
  · cases high with
    | false =>
      rw [debounce_count h1, debounce_count h1]
      by_cases hcount : k.keyDownTimes + 1 < 400
      · rw [if_pos hcount, if_pos hcount]
      · rw [keyStateTest_long h1 hcount, keyStateTest_long h1 hcount, Bool.eq_iff_iff,
          bne_iff_ne, bne_iff_ne] at h
        simp only [h]
    | true => rw [debounce_bounce h1, debounce_bounce h1]
  rw [debounce, debounce, if_neg h0, if_neg h0, if_neg h1, if_neg h1]

/-! ## The two keys -/

/-- Levels of the pins; a key other than the first two counts as low when both
of its reads are. -/
structure KeyPins where
  power : Bool
  mode : Bool
  esd : Bool
  pht : Bool
  wind : Bool
  deriving DecidableEq, Repr

/-- What the power key does for a press. -/
def Panel.powerPress : Press → Panel → Panel
  | .short, p => { p with disp := p.disp.powerKey }
  | .long, p => p.powerKeyLong

/-- What the mode key does for a press. -/
def Panel.modePress : Press → Panel → Panel
  | .short, p => { p with disp := p.disp.mainSwitchKey }
  | .long, p => { p with disp := p.disp.mainSwitchKeyLong }

theorem powerPress_work (press : Press) (p : Panel) :
    (p.powerPress press).disp.work = p.disp.work := by
  cases press with
  | short => rfl
  | long =>
    rw [Panel.powerPress, Panel.powerKeyLong]
    split
    · rfl
    · rfl

/-- `MainSwitch_Key` reads its pin while the device is on. -/
def mainSwitchEffect (power : UInt8) (high : Bool) (k : KeyStatics) (keyState : KEYSTATE) :
    Effect KeyStatics KEYSTATE Press :=
  if power = 1 then debounce high k keyState else ⟨k, none, none⟩

/-- The display with the variables of its keys. -/
structure KeyBoard where
  keyState : KEYSTATE
  power : KeyStatics
  mode : KeyStatics
  panel : Panel

namespace KeyBoard

/-- The variables of the keys as they start. -/
def reset (p : Panel) : KeyBoard := ⟨.keyDown, ⟨0, 0, 0⟩, ⟨0, 0, 0⟩, p⟩

def devicePower (b : KeyBoard) : UInt8 := b.panel.disp.work.devicePowerState

/-- `power_Key` -/
def powerKey (high : Bool) (b : KeyBoard) : KeyBoard :=
  let e := debounce high b.power b.keyState
  { keyState := e.wrote.getD b.keyState
    power := e.next
    mode := b.mode
    panel := e.raised.elim b.panel fun press => b.panel.powerPress press }

/-- `MainSwitch_Key` -/
def mainSwitchKey (high : Bool) (b : KeyBoard) : KeyBoard :=
  let e := mainSwitchEffect b.devicePower high b.mode b.keyState
  { keyState := e.wrote.getD b.keyState
    power := b.power
    mode := e.next
    panel := e.raised.elim b.panel fun press => b.panel.modePress press }

/-- One of the other three keys. -/
def otherKey (high : Bool) (key : Disp → Disp) (b : KeyBoard) : KeyBoard :=
  if high then b else { b with panel := { b.panel with disp := key b.panel.disp } }

/-- `Key_Scan` -/
def keyScan (pins : KeyPins) (b : KeyBoard) : KeyBoard :=
  let b := b.powerKey pins.power
  let b := b.mainSwitchKey pins.mode
  let b := b.otherKey pins.esd Disp.esdKey
  let b := b.otherKey pins.pht Disp.phtKey
  b.otherKey pins.wind Disp.windKey

end KeyBoard

inductive PowerEvent where
  | shortPress
  | wifiReset
  deriving DecidableEq, Repr

/-- A long press resets the WiFi while the device is on. -/
def powerEvent (power : UInt8) : Press → Option PowerEvent
  | .short => some .shortPress
  | .long => if power = 1 then some .wifiReset else none

/-- What the panel sees of an event of the power key. -/
def PowerEvent.perform : PowerEvent → Panel → Panel
  | shortPress, p => { p with disp := p.disp.powerKey }
  | wifiReset, p => p.resetWifi

namespace KeyBoard

/-- The event that `power_Key` raises. -/
def powerRaised (high : Bool) (b : KeyBoard) : Option PowerEvent :=
  (debounce high b.power b.keyState).raised.bind (powerEvent b.devicePower)

/-- The press that `MainSwitch_Key` handles. -/
def modeRaised (high : Bool) (b : KeyBoard) : Option Press :=
  (mainSwitchEffect b.devicePower high b.mode b.keyState).raised

/-- An event is all that `power_Key` does to the panel. -/
theorem powerKey_panel (high : Bool) (b : KeyBoard) :
    (b.powerKey high).panel = (b.powerRaised high).elim b.panel fun e => e.perform b.panel := by
  rw [powerKey, powerRaised]
  cases (debounce high b.power b.keyState).raised with
  | none => rfl
  | some press =>
    cases press with
    | short => rfl
    | long =>
      show b.panel.powerKeyLong = (powerEvent b.devicePower .long).elim _ _
      rw [Panel.powerKeyLong, powerEvent, devicePower]
      split
      · rfl
      · rfl

theorem powerKey_devicePower (high : Bool) (b : KeyBoard) :
    (b.powerKey high).devicePower = b.devicePower := by
  rw [powerKey, devicePower, devicePower]
  cases (debounce high b.power b.keyState).raised with
  | none => rfl
  | some press =>
    show (b.panel.powerPress press).disp.work.devicePowerState = _
    rw [powerPress_work]

/-- The other keys leave the variables of the two alone. -/
theorem otherKey_vars (high : Bool) (key : Disp → Disp) (b : KeyBoard) :
    (b.otherKey high key).keyState = b.keyState ∧ (b.otherKey high key).power = b.power ∧
      (b.otherKey high key).mode = b.mode := by
  unfold otherKey
  split
  · exact ⟨rfl, rfl, rfl⟩
  · exact ⟨rfl, rfl, rfl⟩

theorem keyScan_vars (pins : KeyPins) (b : KeyBoard) :
    (b.keyScan pins).keyState = ((b.powerKey pins.power).mainSwitchKey pins.mode).keyState ∧
      (b.keyScan pins).power = (b.powerKey pins.power).power ∧
      (b.keyScan pins).mode = ((b.powerKey pins.power).mainSwitchKey pins.mode).mode := by
  obtain ⟨hstate₁, hpower₁, hmode₁⟩ :=
    otherKey_vars pins.esd Disp.esdKey ((b.powerKey pins.power).mainSwitchKey pins.mode)
  obtain ⟨hstate₂, hpower₂, hmode₂⟩ := otherKey_vars pins.pht Disp.phtKey
    (((b.powerKey pins.power).mainSwitchKey pins.mode).otherKey pins.esd Disp.esdKey)
  obtain ⟨hstate₃, hpower₃, hmode₃⟩ := otherKey_vars pins.wind Disp.windKey
    ((((b.powerKey pins.power).mainSwitchKey pins.mode).otherKey pins.esd Disp.esdKey).otherKey
      pins.pht Disp.phtKey)
  rw [keyScan, hstate₃, hpower₃, hmode₃, hstate₂, hpower₂, hmode₂, hstate₁, hpower₁, hmode₁]
  exact ⟨rfl, rfl, rfl⟩

end KeyBoard

/-! ## Runs -/

/-- A scan: the levels of the pins, and the panel as the rest of the main loop
has left it. -/
structure Scan where
  pins : KeyPins
  panel : Panel

/-- The board before scan `n` of a run that starts with the keys of `b`. -/
def KeyBoard.before (b : KeyBoard) (x : Nat → Scan) : Nat → KeyBoard
  | 0 => { b with panel := (x 0).panel }
  | n + 1 => { (b.before x n).keyScan (x n).pins with panel := (x (n + 1)).panel }

/-- What steps `i` to `n - 1` have raised. -/
def raisedIn {ε : Type} (raised : Nat → Option ε) (i n : Nat) : List ε :=
  (List.range' i (n - i)).filterMap raised

namespace KeyBoard

variable (b : KeyBoard) (x : Nat → Scan)

/-- The event of the power key in scan `n`. -/
def powerEventAt (n : Nat) : Option PowerEvent :=
  (b.before x n).powerRaised (x n).pins.power

/-- The board of scan `n` between `power_Key` and `MainSwitch_Key`. -/
def between (n : Nat) : KeyBoard := (b.before x n).powerKey (x n).pins.power

/-- The press of the mode key in scan `n`. -/
def modePressAt (n : Nat) : Option Press := (b.between x n).modeRaised (x n).pins.mode

theorem before_panel (n : Nat) : (b.before x n).panel = (x n).panel := by
  cases n with
  | zero => rfl
  | succ n => rfl

theorem before_devicePower (n : Nat) :
    (b.before x n).devicePower = (x n).panel.disp.work.devicePowerState := by
  rw [devicePower, before_panel]

theorem between_devicePower (n : Nat) :
    (b.between x n).devicePower = (x n).panel.disp.work.devicePowerState := by
  rw [between, powerKey_devicePower, before_devicePower]

theorem before_succ_power (n : Nat) :
    (b.before x (n + 1)).power =
      (debounce (x n).pins.power (b.before x n).power (b.before x n).keyState).next :=
  (keyScan_vars (x n).pins (b.before x n)).2.1

theorem before_succ_mode (n : Nat) :
    (b.before x (n + 1)).mode =
      (mainSwitchEffect (b.between x n).devicePower (x n).pins.mode (b.before x n).mode
        (b.between x n).keyState).next :=
  (keyScan_vars (x n).pins (b.before x n)).2.2

theorem before_succ_keyState (n : Nat) :
    (b.before x (n + 1)).keyState =
      (mainSwitchEffect (b.between x n).devicePower (x n).pins.mode (b.before x n).mode
        (b.between x n).keyState).wrote.getD (b.between x n).keyState :=
  (keyScan_vars (x n).pins (b.before x n)).1

end KeyBoard

/-- A display that is on and manual, none of its keys pressed. -/
def Scan.idle : Scan where
  pins := ⟨true, true, true, true, true⟩
  panel := ⟨{ Disp.reset with work := ⟨1, 2, 0, 0, 0, 0⟩ }, fun _ => 0⟩

/-- The power key is pressed for three scans. -/
def tapPower (n : Nat) : Scan :=
  { Scan.idle with pins := { Scan.idle.pins with power := decide (3 ≤ n) } }

end Aclean
