import Aclean.KeyScan

/-!
# Two keys and one `KeyState`

Each key function is a client of `KeyState`, and sees it through its test
only. Runs that agree in all but the other key's pin raise the same events as
long as the tests come out as on what the function itself has written last. A
sample of the other key at the wrong moment is enough to lose an event.
-/

namespace Aclean

open SharedCell

/-! ## The key functions as clients -/

def powerClient : Client Bool KeyStatics KEYSTATE Press where
  step := debounce
  test := keyStateTest
  step_congr := debounce_congr

/-- What `MainSwitch_Key` sees besides the variables of the keys. -/
structure ModeInput where
  devicePower : UInt8
  high : Bool

def modeClient : Client ModeInput KeyStatics KEYSTATE Press where
  step := fun i => mainSwitchEffect i.devicePower i.high
  test := fun i k keyState => i.devicePower == 1 && keyStateTest i.high k keyState
  step_congr := by
    intro i k c c' h
    rw [mainSwitchEffect, mainSwitchEffect]
    by_cases hpower : i.devicePower = 1
    · rw [if_pos hpower, if_pos hpower]
      rw [hpower] at h
      exact debounce_congr h
    · rw [if_neg hpower, if_neg hpower]

namespace KeyBoard

variable (b : KeyBoard) (x : Nat → Scan)

/-! ### The power key -/

/-- The levels of its pin. -/
def powerLevels (x : Nat → Scan) (n : Nat) : Bool := (x n).pins.power

/-- `KeyState` as `power_Key` finds it in scan `n`. -/
def powerSees (n : Nat) : KEYSTATE := (b.before x n).keyState

/-- In scan `n` the test of `power_Key` comes out as on what `power_Key` has
written last. -/
def PowerAlone (n : Nat) : Prop :=
  powerClient.Undisturbed b.power b.keyState (powerLevels x) (b.powerSees x) n

instance (n : Nat) : Decidable (b.PowerAlone x n) := inferInstanceAs (Decidable (_ = _))

theorem powerClient_state (n : Nat) :
    powerClient.state b.power (powerLevels x) (b.powerSees x) n = (b.before x n).power := by
  induction n with
  | zero => rfl
  | succ n ih =>
    rw [Client.state, ih, before_succ_power]
    rfl

/-- While the mode key writes nothing, the power key finds what it has written. -/
theorem powerSees_eq_own {n : Nat} (hquiet : ∀ k < n, (mainSwitchEffect
    (b.between x k).devicePower (x k).pins.mode (b.before x k).mode
      (b.between x k).keyState).wrote = none) :
    b.powerSees x n = powerClient.own b.power b.keyState (powerLevels x) (b.powerSees x) n := by
  induction n with
  | zero => rfl
  | succ n ih =>
    rw [Client.own, ← ih fun k hk => hquiet k (Nat.lt_succ_of_lt hk), powerClient_state, powerSees,
      before_succ_keyState, hquiet n (Nat.lt_succ_self n)]
    rfl

theorem powerAlone_of_quiet {n : Nat} (hquiet : ∀ k < n, (mainSwitchEffect
    (b.between x k).devicePower (x k).pins.mode (b.before x k).mode
      (b.between x k).keyState).wrote = none) : b.PowerAlone x n := by
  rw [PowerAlone, Client.Undisturbed, ← powerSees_eq_own b x hquiet]

theorem powerEventAt_eq (n : Nat) :
    b.powerEventAt x n = (powerClient.event b.power (powerLevels x) (b.powerSees x) n).bind
      (powerEvent (x n).panel.disp.work.devicePowerState) := by
  rw [Client.event, powerClient_state, powerEventAt, powerRaised, before_devicePower]
  rfl

/-! ### The mode key -/

def modeInputs (x : Nat → Scan) (n : Nat) : ModeInput :=
  ⟨(x n).panel.disp.work.devicePowerState, (x n).pins.mode⟩

/-- `KeyState` as `MainSwitch_Key` finds it in scan `n`, after `power_Key`. -/
def modeSees (n : Nat) : KEYSTATE := (b.between x n).keyState

/-- In scan `n` the test of `MainSwitch_Key` comes out as on what
`MainSwitch_Key` has written last. -/
def ModeAlone (n : Nat) : Prop :=
  modeClient.Undisturbed b.mode b.keyState (modeInputs x) (b.modeSees x) n

instance (n : Nat) : Decidable (b.ModeAlone x n) := inferInstanceAs (Decidable (_ = _))

theorem modeClient_state (n : Nat) :
    modeClient.state b.mode (modeInputs x) (b.modeSees x) n = (b.before x n).mode := by
  induction n with
  | zero => rfl
  | succ n ih =>
    rw [Client.state, ih, before_succ_mode, between_devicePower]
    rfl

theorem modePressAt_eq (n : Nat) :
    b.modePressAt x n = modeClient.event b.mode (modeInputs x) (b.modeSees x) n := by
  rw [Client.event, modeClient_state, modePressAt, modeRaised, between_devicePower]
  rfl

end KeyBoard

/-! ## Two runs -/

/-- Two runs find the device in the same state at each scan. -/
def SameDevice (x y : Nat → Scan) : Prop :=
  ∀ n, (x n).panel.disp.work = (y n).panel.disp.work

section Runs

variable {b : KeyBoard} {x y : Nat → Scan}

theorem power_event_same (hdevice : SameDevice x y)
    (hpower : ∀ n, (x n).pins.power = (y n).pins.power) {n : Nat}
    (hx : ∀ k ≤ n, b.PowerAlone x k) (hy : ∀ k ≤ n, b.PowerAlone y k) :
    b.powerEventAt x n = b.powerEventAt y n := by
  have hlevels : KeyBoard.powerLevels x = KeyBoard.powerLevels y := funext hpower
  have hevent : powerClient.event b.power (KeyBoard.powerLevels x) (b.powerSees x) n =
      powerClient.event b.power (KeyBoard.powerLevels x) (b.powerSees y) n := by
    refine Client.event_same hx fun k hk => ?_
    rw [hlevels]
    exact hy k hk
  rw [KeyBoard.powerEventAt_eq, KeyBoard.powerEventAt_eq, hevent, hlevels, hdevice n]

theorem mode_press_same (hdevice : SameDevice x y)
    (hmode : ∀ n, (x n).pins.mode = (y n).pins.mode) {n : Nat}
    (hx : ∀ k ≤ n, b.ModeAlone x k) (hy : ∀ k ≤ n, b.ModeAlone y k) :
    b.modePressAt x n = b.modePressAt y n := by
  have hinputs : KeyBoard.modeInputs x = KeyBoard.modeInputs y := by
    funext n
    rw [KeyBoard.modeInputs, KeyBoard.modeInputs, hdevice n, hmode n]
  have hevent : modeClient.event b.mode (KeyBoard.modeInputs x) (b.modeSees x) n =
      modeClient.event b.mode (KeyBoard.modeInputs x) (b.modeSees y) n := by
    refine Client.event_same hx fun k hk => ?_
    rw [hinputs]
    exact hy k hk
  rw [KeyBoard.modePressAt_eq, KeyBoard.modePressAt_eq, hevent, hinputs]

theorem raisedIn_congr {ε : Type} {f g : Nat → Option ε} {n : Nat} (h : ∀ k < n, f k = g k) :
    raisedIn f 0 n = raisedIn g 0 n := by
  refine List.filterMap_congr fun k hk => h k ?_
  rw [List.mem_range'_1] at hk
  omega

/-- The events of each key up to scan `n` are the same in two runs in which its
own tests are not disturbed. -/
theorem keys_apart (hdevice : SameDevice x y) (n : Nat) :
    ((∀ n, (x n).pins.power = (y n).pins.power) →
      (∀ k < n, b.PowerAlone x k) → (∀ k < n, b.PowerAlone y k) →
      raisedIn (b.powerEventAt x) 0 n = raisedIn (b.powerEventAt y) 0 n) ∧
    ((∀ n, (x n).pins.mode = (y n).pins.mode) →
      (∀ k < n, b.ModeAlone x k) → (∀ k < n, b.ModeAlone y k) →
      raisedIn (b.modePressAt x) 0 n = raisedIn (b.modePressAt y) 0 n) := by
  constructor
  · intro hpower hx hy
    exact raisedIn_congr fun k hk => power_event_same hdevice hpower
      (fun j hj => hx j (by omega)) fun j hj => hy j (by omega)
  · intro hmode hx hy
    exact raisedIn_congr fun k hk => mode_press_same hdevice hmode
      (fun j hj => hx j (by omega)) fun j hj => hy j (by omega)

end Runs

/-! ## Two short presses -/

/-- The power key is pressed for three scans, the mode key for three from scan
`m` on. -/
def tapBoth (m n : Nat) : Scan :=
  { tapPower n with pins := { (tapPower n).pins with mode := decide (n < m ∨ m + 3 ≤ n) } }

/-- The same without the power key. -/
def tapMode (m n : Nat) : Scan :=
  { tapBoth m n with pins := { (tapBoth m n).pins with power := true } }

def startKeys : KeyBoard := KeyBoard.reset Scan.idle.panel

example : raisedIn (startKeys.powerEventAt (tapBoth 16)) 0 16 = [.shortPress] ∧
    raisedIn (startKeys.modePressAt (tapBoth 16)) 0 32 = [.short] := by decide +kernel

theorem keys_apart_taps :
    raisedIn (startKeys.powerEventAt tapPower) 0 32 =
        raisedIn (startKeys.powerEventAt (tapBoth 16)) 0 32 ∧
      raisedIn (startKeys.modePressAt (tapMode 16)) 0 32 =
        raisedIn (startKeys.modePressAt (tapBoth 16)) 0 32 :=
  ⟨(keys_apart (fun _ => rfl) 32).1 (fun _ => rfl) (by decide +kernel) (by decide +kernel),
    (keys_apart (fun _ => rfl) 32).2 (fun _ => rfl) (by decide +kernel) (by decide +kernel)⟩

/-- The other three keys are idle. -/
def OthersIdle (x : Nat → Scan) : Prop :=
  ∀ n, (x n).pins.esd = true ∧ (x n).pins.pht = true ∧ (x n).pins.wind = true

/-- A press of the mode key that begins while a short press of the power key
waits takes the event away. -/
theorem keys_apart_counterexample :
    SameDevice tapPower (tapBoth 13) ∧ (∀ n, (tapPower n).pins.power = (tapBoth 13 n).pins.power) ∧
      OthersIdle tapPower ∧ OthersIdle (tapBoth 13) ∧
      raisedIn (startKeys.powerEventAt tapPower) 0 40 = [.shortPress] ∧
      raisedIn (startKeys.powerEventAt (tapBoth 13)) 0 40 = [] :=
  ⟨fun _ => rfl, fun _ => rfl, fun _ => ⟨rfl, rfl, rfl⟩, fun _ => ⟨rfl, rfl, rfl⟩,
    by decide +kernel, by decide +kernel⟩

end Aclean
