import Aclean.AutoTable
import Aclean.StatePush

/-!
# The control pass, as its table says

One run of `airclean_work_auto_handle` in terms of the stored settings and the
rooms' readings: what it drives, what it stores, and what it leaves alone. In
automatic mode it follows `autoSpeed` on the readings; in manual mode it drives
the stored settings, a fan that is off as one at the lowest speed. The results
on passes and runs of passes use these three facts only.
-/

namespace Aclean

open Board

/-- The readings in memory, room by room. -/
def Board.rooms (s : Board) : Rooms := fun i => ⟨s.room (2 * i), s.room (2 * i + 1)⟩

/-! ## Outputs -/

/-- The output pins for settings of filter, heater and fan. -/
def outputs (hp pht wind : UInt8) : Pin → Bool
  | .pb1 => hp != 0
  | .pb15 => pht != 0
  | .pb14 => wind == 1
  | .pb12 => wind == 3
  | .pb13 => wind == 2

/-- The speed in the motor's frame. -/
def frameSpeed (wind : UInt8) : UInt8 := if wind > 3 then 3 else wind

/-- Pins and motor frame are those of these settings. -/
structure Board.Driven (s : Board) (hp pht wind : UInt8) : Prop where
  pins : s.gpio = outputs hp pht wind
  speed : s.mem (.rs485SendBufNotModbus 3) = frameSpeed wind

/-- The pins once the relays are those of a speed. -/
def relaysSet (wind : UInt8) (g : Pin → Bool) : Pin → Bool
  | .pb1 => g .pb1
  | .pb15 => g .pb15
  | p => outputs 0 0 wind p

theorem run_acAcMotorSet (mode : UInt8) (t : Nat) (s : Board) :
    ((acAcMotorSet mode).run machine t s).2 = { s with gpio := relaysSet mode s.gpio } := by
  have hpins : ∀ on14 on12 on13 : Bool,
      Function.update (Function.update (Function.update s.gpio .pb14 on14) .pb12 on12) .pb13 on13 =
        fun
          | .pb1 => s.gpio .pb1
          | .pb15 => s.gpio .pb15
          | .pb14 => on14
          | .pb12 => on12
          | .pb13 => on13 := by
    intro on14 on12 on13
    funext p
    cases p <;> simp
  have hrelays : relaysSet mode s.gpio = fun
      | .pb1 => s.gpio .pb1
      | .pb15 => s.gpio .pb15
      | .pb14 => mode == 1
      | .pb12 => mode == 3
      | .pb13 => mode == 2 := by
    funext p
    cases p <;> rfl
  rw [hrelays]
  by_cases h1 : mode = 1
  · simp [acAcMotorSet, h1, hpins]
  · by_cases h3 : mode = 3
    · simp [acAcMotorSet, h3, hpins]
    · by_cases h2 : mode = 2
      · simp [acAcMotorSet, h2, hpins]
      · rw [beq_false_of_ne h1, beq_false_of_ne h2, beq_false_of_ne h3]
        simp [acAcMotorSet, h1, h2, h3, hpins]

theorem pht_clamped (v : UInt8) : ((if v > 1 then 1 else v) != 0) = (v != 0) := by
  split
  · next h =>
      have hne : v ≠ 0 := by
        rintro rfl
        exact absurd h (by decide)
      simp [hne]
  · rfl

/-- Filter, heater and relays set one after the other. -/
theorem relaysSet_update (hp pht wind : UInt8) (g : Pin → Bool) :
    relaysSet wind (Function.update (Function.update g .pb1 (hp != 0)) .pb15
      ((if pht > 1 then 1 else pht) != 0)) = outputs hp pht wind := by
  rw [pht_clamped]
  funext p
  cases p <;> simp [relaysSet, outputs]

/-- The motor's frame in its buffer. -/
def Board.motorFrame (s : Board) (wind : UInt8) : Board :=
  ((((s.set (.rs485SendBufNotModbus 0) 0xBC).set (.rs485SendBufNotModbus 1) 0x07).set
    (.rs485SendBufNotModbus 2) 0x01).set (.rs485SendBufNotModbus 3) (frameSpeed wind)).set
    (.rs485SendBufNotModbus 4) (0xBC + 0x07 + 0x01 + frameSpeed wind)

theorem run_setDcMotorSpeed (speed : UInt8) (t : Nat) (s : Board) :
    ((setDcMotorSpeed speed).run machine t s).2 = s.motorFrame speed := by
  simp [setDcMotorSpeed, Board.motorFrame, frameSpeed]

@[simp] theorem motorFrame_speed (s : Board) (wind : UInt8) :
    (s.motorFrame wind).mem (.rs485SendBufNotModbus 3) = frameSpeed wind := by
  simp [Board.motorFrame]

@[simp] theorem motorFrame_gpio (s : Board) (wind : UInt8) : (s.motorFrame wind).gpio = s.gpio := rfl

theorem motorFrame_mem (s : Board) (wind : UInt8) {a : Addr}
    (h : ∀ i, a ≠ .rs485SendBufNotModbus i) : (s.motorFrame wind).mem a = s.mem a := by
  simp [Board.motorFrame, h]

@[simp] theorem motorFrame_work (s : Board) (wind : UInt8) (i : Nat) :
    (s.motorFrame wind).mem (work i) = s.mem (work i) :=
  motorFrame_mem s wind (by rintro j ⟨⟩)

@[simp] theorem motorFrame_auto (s : Board) (wind : UInt8) (i : Nat) :
    (s.motorFrame wind).mem (.deviceWorkDataAuto i) = s.mem (.deviceWorkDataAuto i) :=
  motorFrame_mem s wind (by rintro j ⟨⟩)

/-- `airclean_motor_set` stores its argument, and drives what it stored. -/
theorem run_aircleanMotorSet (mode : UInt8) (t : Nat) (s : Board) :
    ∃ m, ((aircleanMotorSet mode).run machine t s).2 =
      { (s.set (work Field.windSpeedState) mode).motorFrame mode with
        gpio := relaysSet mode s.gpio
        mutex := m } := by
  simp only [aircleanMotorSet, mutexTake, store, load, mutexRelease, Prog.op_bind, Prog.ret_bind,
    Prog.run_op, Prog.run_bind, run_acAcMotorSet, run_setDcMotorSpeed, set_mem, if_true]
  exact ⟨_, rfl⟩

/-- Filter, heater and fan in one go. -/
theorem run_driveAll (hp pht wind : UInt8) (t : Nat) (s : Board) :
    ∃ m, (((do acEsdSet hp; acPhtSet pht; aircleanMotorSet wind) : Code Unit).run machine t s).2 =
      { (s.set (work Field.windSpeedState) wind).motorFrame wind with
        gpio := outputs hp pht wind
        mutex := m } := by
  simp only [acEsdSet, acPhtSet, gpioWrite, Prog.op_bind, Prog.ret_bind, Prog.run_op]
  obtain ⟨m, hm⟩ := run_aircleanMotorSet wind t { s with
    gpio := Function.update (Function.update s.gpio .pb1 (hp != 0)) .pb15
      ((if pht > 1 then 1 else pht) != 0) }
  refine ⟨m, hm.trans ?_⟩
  rw [relaysSet_update]
  rfl

/-! ## The scans -/

/-- What the pass reads of room `i`. -/
theorem run_houseReading (t : Nat) (s : Board) (i : Nat) :
    ∃ r : UInt16 × UInt16, (houseReading i).run machine t s = (r, s) ∧
      r.1.toNat = s.room (2 * i) ∧ r.2.toNat = s.room (2 * i + 1) := by
  have heven := controlReading_eq t s (2 * i)
  have hodd := controlReading_eq t s (2 * i + 1)
  rw [controlReading, if_pos (by omega), show 2 * i / 2 = i by omega] at heven
  rw [controlReading, if_neg (by omega), show (2 * i + 1) / 2 = i by omega] at hodd
  exact ⟨((houseReading i).run machine t s).1, rfl, heven, hodd⟩

/-- A scan asks one question about the rooms and changes nothing. -/
theorem run_scanRooms {p : UInt16 → UInt16 → Bool} {q : Reading → Prop} [DecidablePred q]
    (hpq : ∀ pm25 co2, p pm25 co2 = decide (q ⟨pm25.toNat, co2.toNat⟩)) (t : Nat) (s : Board) :
    (scanRooms p).run machine t s = (decide (SomeRoom q s.rooms), s) := by
  have htest : ∀ i, (houseReading i >>= fun r =>
      pure ((r.2 != 0 || r.1 != 0) && p r.1 r.2)).run machine t s =
        (decide (Reading.Active ⟨s.room (2 * i), s.room (2 * i + 1)⟩ ∧
          q ⟨s.room (2 * i), s.room (2 * i + 1)⟩), s) := by
    intro i
    obtain ⟨⟨pm25, co2⟩, hrun, hpm25, hco2⟩ := run_houseReading t s i
    have hzero : ∀ v : UInt16, (v != 0) = decide (v.toNat ≠ 0) := by
      intro v
      rw [Bool.eq_iff_iff, bne_iff_ne, decide_eq_true_iff, ne_eq, ne_eq, ← UInt16.toNat_inj]
      rfl
    rw [Prog.run_bind, hrun]
    show ((co2 != 0 || pm25 != 0) && p pm25 co2, s) = _
    rw [hpq, hzero, hzero, Bool.or_comm, ← hpm25, ← hco2]
    rw [Prod.mk.injEq, Bool.eq_iff_iff, decide_eq_true_iff]
    simp [Reading.Active]
  have hany : (scanRooms p).run machine t s = _ := Prog.run_anyUpTo machine t htest 5
  rw [hany, Prod.mk.injEq]
  refine ⟨?_, rfl⟩
  rw [Bool.eq_iff_iff, List.any_eq_true, decide_eq_true_iff]
  constructor
  · rintro ⟨i, hi, h⟩
    exact ⟨⟨i, List.mem_range.mp hi⟩, of_decide_eq_true h⟩
  · rintro ⟨i, h⟩
    exact ⟨i, List.mem_range.mpr i.isLt, decide_eq_true h⟩

/-! ## The pass -/

/-- The automatic choice on record. -/
structure Board.AutoRecorded (s : Board) (on speed : UInt8) : Prop where
  highPressur : s.mem (.deviceWorkDataAuto Field.highPressurState) = on
  pht : s.mem (.deviceWorkDataAuto Field.phtWorkState) = on
  wind : s.mem (.deviceWorkDataAuto Field.windSpeedState) = speed

/-- What a pass leaves behind that drives `speed`. -/
structure Board.Chosen (s : Board) (on speed : UInt8) : Prop where
  driven : s.Driven on on speed
  recorded : s.AutoRecorded on speed
  stored : s.mem (work Field.windSpeedState) = speed

theorem run_driveAuto (on speed : UInt8) (t : Nat) (s : Board) :
    ((driveAuto on speed).run machine t s).2.Chosen on speed := by
  obtain ⟨m, hm⟩ := run_driveAll on on speed t s
  have hsplit : driveAuto on speed = ((do acEsdSet on; acPhtSet on; aircleanMotorSet speed) >>= fun _ => do
      store (.deviceWorkDataAuto Field.highPressurState) on
      store (.deviceWorkDataAuto Field.phtWorkState) on
      store (.deviceWorkDataAuto Field.windSpeedState) speed) := by
    simp only [bind_assoc]
    rfl
  rw [hsplit, Prog.run_bind, hm]
  refine ⟨⟨rfl, ?_⟩, ⟨?_, ?_, ?_⟩, ?_⟩
  all_goals simp

/-- In automatic mode. -/
theorem run_autoHandle (t : Nat) (s : Board) :
    (autoHandle.run machine t s).2.Chosen (autoOn s.rooms) (autoSpeed s.rooms) := by
  have above : ∀ (m n : UInt16) t s,
      (scanRooms fun pm25 co2 => pm25 > m || co2 > n).run machine t s =
        (decide (SomeRoom (Reading.Exceeds m.toNat n.toNat) s.rooms), s) := fun m n =>
    run_scanRooms fun pm25 co2 => by
      rw [Bool.eq_iff_iff, decide_eq_true_iff]
      simp [Reading.Exceeds, UInt16.lt_iff_toNat_lt]
  have below : ∀ (m n : UInt16) t s,
      (scanRooms fun pm25 co2 => pm25 < m && co2 < n).run machine t s =
        (decide (SomeRoom (Reading.Below m.toNat n.toNat) s.rooms), s) := fun m n =>
    run_scanRooms fun pm25 co2 => by
      rw [Bool.eq_iff_iff, decide_eq_true_iff]
      simp [Reading.Below, UInt16.lt_iff_toNat_lt]
  simp only [autoHandle, Prog.run_bind, above, below, Prog.run_ite, autoOn, autoSpeed,
    UInt16.reduceToNat, decide_eq_true_eq]
  by_cases h3 : SomeRoom (Reading.Exceeds 134 2500) s.rooms
  · simpa [h3] using run_driveAuto 1 3 t s
  · by_cases h2 : SomeRoom (Reading.Exceeds 96 1300) s.rooms
    · simpa [h3, h2] using run_driveAuto 1 2 t s
    · by_cases h0 : SomeRoom (Reading.Below 55 730) s.rooms
      · simpa [h3, h2, h0] using run_driveAuto 0 0 t s
      · by_cases h1 : SomeRoom (Reading.Below 91 1290) s.rooms
        · simpa [h3, h2, h0, h1] using run_driveAuto 1 1 t s
        · simpa [h3, h2, h0, h1] using run_driveAuto 0 0 t s

/-- The speed that a manual pass drives and stores. -/
def manualSpeed (wind : UInt8) : UInt8 := if wind = 0 then 1 else wind

/-- Behind filter and heater, the fan completes the outputs. -/
theorem run_aircleanMotorSet_driven {hp pht : UInt8} (wind : UInt8) (t : Nat) {b : Board}
    (hpb1 : b.gpio .pb1 = (hp != 0)) (hpb15 : b.gpio .pb15 = (pht != 0)) :
    ((aircleanMotorSet wind).run machine t b).2.Driven hp pht wind ∧
      ((aircleanMotorSet wind).run machine t b).2.mem (work Field.windSpeedState) = wind := by
  obtain ⟨m, hm⟩ := run_aircleanMotorSet wind t b
  rw [hm]
  refine ⟨⟨?_, by simp⟩, by simp⟩
  funext p
  cases p
  · exact hpb1
  · rfl
  · rfl
  · rfl
  · exact hpb15

/-- The fan in a manual pass: a speed of 0 is replaced in the store first. -/
def driveFan : Code Unit := do
  let w ← load (work Field.windSpeedState)
  Prog.when (w = 0) (aircleanMotorSet 1)
  let w ← load (work Field.windSpeedState)
  aircleanMotorSet w

theorem run_driveFan {hp pht : UInt8} (t : Nat) {b : Board} (hpb1 : b.gpio .pb1 = (hp != 0))
    (hpb15 : b.gpio .pb15 = (pht != 0)) :
    (driveFan.run machine t b).2.Driven hp pht (manualSpeed (b.mem (work Field.windSpeedState))) ∧
      (driveFan.run machine t b).2.mem (work Field.windSpeedState) =
        manualSpeed (b.mem (work Field.windSpeedState)) := by
  simp only [driveFan, load, Prog.op_bind, Prog.ret_bind, Prog.run_op, Prog.run_bind, Prog.run_when]
  unfold manualSpeed
  by_cases h : b.mem (work Field.windSpeedState) = 0
  · obtain ⟨hfirst, hstored⟩ := run_aircleanMotorSet_driven 1 t hpb1 hpb15
    rw [if_pos h, if_pos h, hstored]
    exact run_aircleanMotorSet_driven 1 t (congrFun hfirst.pins .pb1) (congrFun hfirst.pins .pb15)
  · rw [if_neg h, if_neg h]
    exact run_aircleanMotorSet_driven _ t hpb1 hpb15

theorem manualHandle_eq : manualHandle 0xff = (do
    let hp ← load (work Field.highPressurState)
    acEsdSet hp
    let pht ← load (work Field.phtWorkState)
    acPhtSet pht
    driveFan) := rfl

/-- In manual mode. -/
theorem run_manualHandle (t : Nat) (s : Board) :
    ((manualHandle 0xff).run machine t s).2.Driven (s.mem (work Field.highPressurState))
        (s.mem (work Field.phtWorkState)) (manualSpeed (s.mem (work Field.windSpeedState))) ∧
      ((manualHandle 0xff).run machine t s).2.mem (work Field.windSpeedState) =
        manualSpeed (s.mem (work Field.windSpeedState)) := by
  rw [manualHandle_eq]
  simp only [load, acEsdSet, acPhtSet, gpioWrite, Prog.op_bind, Prog.ret_bind, Prog.run_op]
  refine run_driveFan t ?_ ?_
  · simp
  · simp [pht_clamped]

/-! ### The three cases of a pass -/

/-- The board after a pass. -/
def Board.passed (t : Nat) (s : Board) : Board := (aircleanWorkAutoHandle.run machine t s).2

theorem passed_auto (t : Nat) {s : Board} (hpower : s.mem (work Field.devicePowerState) ≠ 0)
    (hmode : s.mem (work Field.deviceMode) = 1) :
    (s.passed t).Chosen (autoOn s.rooms) (autoSpeed s.rooms) := by
  have hrun := run_autoHandle t s
  simpa [Board.passed, aircleanWorkAutoHandle, hpower, hmode] using hrun

theorem passed_manual (t : Nat) {s : Board} (hpower : s.mem (work Field.devicePowerState) ≠ 0)
    (hmode : s.mem (work Field.deviceMode) = 2) :
    (s.passed t).Driven (s.mem (work Field.highPressurState)) (s.mem (work Field.phtWorkState))
        (manualSpeed (s.mem (work Field.windSpeedState))) ∧
      (s.passed t).mem (work Field.windSpeedState) =
        manualSpeed (s.mem (work Field.windSpeedState)) := by
  have hrun := run_manualHandle t s
  simpa [Board.passed, aircleanWorkAutoHandle, hpower, hmode] using hrun

theorem passed_idle (t : Nat) {s : Board} (h : s.mem (work Field.devicePowerState) = 0 ∨
    s.mem (work Field.deviceMode) ≠ 1 ∧ s.mem (work Field.deviceMode) ≠ 2) : s.passed t = s := by
  by_cases hpower : s.mem (work Field.devicePowerState) = 0
  · simp [Board.passed, aircleanWorkAutoHandle, hpower]
  · obtain ⟨h1, h2⟩ := h.resolve_left hpower
    simp [Board.passed, aircleanWorkAutoHandle, hpower, h1, h2]

/-! ### What a pass leaves alone -/

/-- From `s` to `s'` nothing changes but the stored fan speed, the automatic
record, the motor's frame, the pins, and the holders of the mutexes. -/
structure Confined (s s' : Board) : Prop where
  mem : ∀ a, a ≠ work Field.windSpeedState → (∀ i, a ≠ .deviceWorkDataAuto i) →
    (∀ i, a ≠ .rs485SendBufNotModbus i) → s'.mem a = s.mem a
  powerTimCnt : s'.powerTimCnt = s.powerTimCnt
  usMRegHoldBuf : s'.usMRegHoldBuf = s.usMRegHoldBuf
  inputs : s'.inputs = s.inputs
  flash : s'.flash = s.flash
  wifiUartSem : s'.wifiUartSem = s.wifiUartSem
  stack : s'.stack = s.stack
  replies : s'.replies = s.replies
  log : s'.log = s.log

theorem Confined.refl (s : Board) : Confined s s :=
  ⟨fun _ _ _ _ => rfl, rfl, rfl, rfl, rfl, rfl, rfl, rfl, rfl⟩

theorem Confined.trans {s s' s'' : Board} (h : Confined s s') (h' : Confined s' s'') : Confined s s'' where
  mem a hwind hauto hframe := (h'.mem a hwind hauto hframe).trans (h.mem a hwind hauto hframe)
  powerTimCnt := h'.powerTimCnt.trans h.powerTimCnt
  usMRegHoldBuf := h'.usMRegHoldBuf.trans h.usMRegHoldBuf
  inputs := h'.inputs.trans h.inputs
  flash := h'.flash.trans h.flash
  wifiUartSem := h'.wifiUartSem.trans h.wifiUartSem
  stack := h'.stack.trans h.stack
  replies := h'.replies.trans h.replies
  log := h'.log.trans h.log

theorem exec_confined {o : Op} (h : o.Drives) (t : Nat) (s : Board) : Confined s (Board.exec t o s).2 := by
  cases o with
  | store b v =>
      refine ⟨fun a hwind hauto hframe => ?_, rfl, rfl, rfl, rfl, rfl, rfl, rfl, rfl⟩
      rw [Board.exec, set_mem, if_neg]
      rintro rfl
      cases a with
      | deviceWorkData i => exact hwind (congrArg work h)
      | deviceWorkDataAuto i => exact hauto i rfl
      | rs485SendBufNotModbus i => exact hframe i rfl
      | _ => exact h
  | load a => exact .refl s
  | gpioWrite p on => exact ⟨fun _ _ _ _ => rfl, rfl, rfl, rfl, rfl, rfl, rfl, rfl, rfl⟩
  | mutexTake m => exact ⟨fun _ _ _ _ => rfl, rfl, rfl, rfl, rfl, rfl, rfl, rfl, rfl⟩
  | mutexRelease m => exact ⟨fun _ _ _ _ => rfl, rfl, rfl, rfl, rfl, rfl, rfl, rfl, rfl⟩
  | _ => exact absurd h id

theorem run_confined {α : Type} {p : Code α} (h : p.Only Op.Drives) (t : Nat) (s : Board) :
    Confined s (p.run machine t s).2 := by
  induction h generalizing s with
  | ret a => exact .refl s
  | op ho _ ih => exact (exec_confined ho t s).trans (ih _ _)

theorem passed_confined (t : Nat) (s : Board) : Confined s (s.passed t) :=
  run_confined aircleanWorkAutoHandle_drives t s

theorem passed_work (t : Nat) (s : Board) {i : Nat} (h : i ≠ Field.windSpeedState) :
    (s.passed t).mem (work i) = s.mem (work i) := by
  refine (passed_confined t s).mem _ ?_ ?_ ?_
  · intro heq
    exact h (Addr.deviceWorkData.inj heq)
  · rintro j ⟨⟩
  · rintro j ⟨⟩

/-! ## Dirtier air -/

/-- On, and in automatic mode. -/
structure Board.Automatic (s : Board) : Prop where
  power : s.mem (work Field.devicePowerState) ≠ 0
  mode : s.mem (work Field.deviceMode) = 1

theorem Board.Automatic.passed {s : Board} (h : s.Automatic) (t : Nat) :
    (s.passed t).Chosen (autoOn s.rooms) (autoSpeed s.rooms) :=
  passed_auto t h.power h.mode

/-- The choice behind `s'` does not fall short of the one behind `s`. -/
structure NotLess (s s' : Board) : Prop where
  speed : s.mem (.deviceWorkDataAuto Field.windSpeedState) ≤
    s'.mem (.deviceWorkDataAuto Field.windSpeedState)
  esd : s.gpio .pb1 = true → s'.gpio .pb1 = true
  pht : s.gpio .pb15 = true → s'.gpio .pb15 = true

theorem outputs_autoOn (r : Rooms) :
    (outputs (autoOn r) (autoOn r) (autoSpeed r) .pb1 = true ↔ NeedsAir r) ∧
      (outputs (autoOn r) (autoOn r) (autoSpeed r) .pb15 = true ↔ NeedsAir r) := by
  rw [autoOn_eq]
  by_cases h : NeedsAir r
  · simp [outputs, h]
  · simp [outputs, h]

/-- **When dirtier air never slows the fan.** -/
theorem dirtier_air_iff (t t' : Nat) {s s' : Board} (h : s.Automatic) (h' : s'.Automatic)
    (hsame : SameActive s.rooms s'.rooms) (hle : s.rooms ≤ s'.rooms) :
    NotLess (s.passed t) (s'.passed t') ↔ ¬ (Light s.rooms ∧ InGap s'.rooms) := by
  have hchosen := h.passed t
  have hchosen' := h'.passed t'
  have hair := needsAir_of_dirtier_iff hsame hle
  constructor
  · intro hless
    have hspeed := hless.speed
    rw [hchosen.recorded.wind, hchosen'.recorded.wind] at hspeed
    exact (autoSpeed_le_iff hsame hle).mp hspeed
  · intro hgap
    refine ⟨?_, ?_, ?_⟩
    · rw [hchosen.recorded.wind, hchosen'.recorded.wind]
      exact (autoSpeed_le_iff hsame hle).mpr hgap
    · rw [hchosen.driven.pins, hchosen'.driven.pins, (outputs_autoOn _).1, (outputs_autoOn _).1]
      exact hair.mpr hgap
    · rw [hchosen.driven.pins, hchosen'.driven.pins, (outputs_autoOn _).2, (outputs_autoOn _).2]
      exact hair.mpr hgap

/-- In automatic mode, with these values in the first room. -/
def Board.automatic (pm25 co2 : UInt8) : Board :=
  (((Board.reset.set (work 0) 1).set (work 1) 1).set (work 7) pm25).set (work 9) co2

theorem dirtier_air_iff_clean :
    NotLess ((Board.automatic 40 200).passed 0) ((Board.automatic 120 250).passed 0) ↔
      ¬ (Light (Board.automatic 40 200).rooms ∧ InGap (Board.automatic 120 250).rooms) :=
  dirtier_air_iff 0 0 ⟨by decide, by decide⟩ ⟨by decide, by decide⟩ (by decide) (by decide)

/-- PM2.5 rises from 90 to 93, and the fan stops. -/
theorem dirtier_air_counterexample :
    SameActive (Board.automatic 90 200).rooms (Board.automatic 93 200).rooms ∧
      (Board.automatic 90 200).rooms ≤ (Board.automatic 93 200).rooms ∧
      ¬ NotLess ((Board.automatic 90 200).passed 0) ((Board.automatic 93 200).passed 0) := by
  refine ⟨by decide, by decide, fun h => ?_⟩
  exact absurd h.speed (by decide +kernel)

/-! ## From the sensors to the choice -/

/-- The sensor loop of `thread_entry_SysMonitor`, once around. -/
def sensorLoop : Code Unit := Prog.forUpTo 5 (sensorRead exchangeHold)

/-- What the five sensors answer, whatever bytes come with it. -/
def Board.Answered (s : Board) (pm25 co2 : Nat → UInt16) : Prop :=
  ∀ i < 5, ∃ bytes, s.replies[i]? = some ⟨.noErr, bytes, [co2 i, pm25 i]⟩

/-- The sensors' values, room by room. -/
def sensorRooms (pm25 co2 : Nat → UInt16) : Rooms := fun i => ⟨(pm25 i).toNat, (co2 i).toNat⟩

theorem sensorRead_replies (t : Nat) (s : Board) (i : Nat) :
    (afterSensor t s i).replies = s.replies.tail := by
  simp [afterSensor, sensorRead, storeField16, apply_ite Prod.snd, apply_ite Board.replies]

/-- Of the settings and readings, a sensor's answer changes its room's only. -/
theorem afterSensor_work (t : Nat) (s : Board) {i j : Nat} (h : j < 6 + 4 * i ∨ 6 + 4 * i + 3 < j) :
    (afterSensor t s i).mem (work j) = s.mem (work j) := by
  have hne : ∀ k, k ≤ 3 → j ≠ 6 + 4 * i + k := by omega
  have h0 : j ≠ 6 + 4 * i := hne 0 (by decide)
  have h1 : j ≠ 6 + 4 * i + 1 := hne 1 (by decide)
  have h2 : j ≠ 6 + 4 * i + 2 := hne 2 (by decide)
  have h3 : j ≠ 6 + 4 * i + 2 + 1 := hne 3 (by decide)
  simp [afterSensor, sensorRead, storeField16, apply_ite Prod.snd, apply_ite Board.mem, h0, h1, h2, h3,
    ite_apply]

theorem afterSensor_room_ne (t : Nat) (s : Board) {i j : Nat} (h : j ≠ 2 * i) (h' : j ≠ 2 * i + 1) :
    (afterSensor t s i).room j = s.room j := by
  simp only [Board.room, Field.houseDataStart]
  rw [afterSensor_work t s (by omega), afterSensor_work t s (by omega)]

/-- The board when `n` sensors have been read. -/
def sensorsRead (t : Nat) (s : Board) (n : Nat) : Board :=
  ((Prog.forUpTo n (sensorRead exchangeHold)).run machine t s).2

theorem sensorsRead_succ (t : Nat) (s : Board) (n : Nat) :
    sensorsRead t s (n + 1) = afterSensor t (sensorsRead t s n) n := by
  rw [sensorsRead, Prog.run_forUpTo_succ]
  rfl

theorem sensorsRead_replies (t : Nat) (s : Board) (n : Nat) :
    (sensorsRead t s n).replies = s.replies.drop n := by
  induction n with
  | zero => rfl
  | succ n ih => rw [sensorsRead_succ, sensorRead_replies, ih, List.tail_drop]

theorem sensorsRead_work (t : Nat) (s : Board) (n : Nat) {j : Nat} (h : j < 6) :
    (sensorsRead t s n).mem (work j) = s.mem (work j) := by
  induction n with
  | zero => rfl
  | succ n ih => rw [sensorsRead_succ, afterSensor_work _ _ (by omega), ih]

theorem sensorsRead_rooms (t : Nat) {s : Board} {pm25 co2 : Nat → UInt16} (h : s.Answered pm25 co2)
    {n : Nat} (hn : n ≤ 5) : ∀ i < n, (sensorsRead t s n).room (2 * i) = storedNumber (pm25 i) ∧
      (sensorsRead t s n).room (2 * i + 1) = storedNumber (co2 i) := by
  induction n with
  | zero => exact fun i hi => absurd hi (Nat.not_lt_zero i)
  | succ n ih =>
      intro i hi
      rw [sensorsRead_succ]
      rcases Nat.lt_succ_iff_lt_or_eq.mp hi with hlt | rfl
      · rw [afterSensor_room_ne _ _ (by omega) (by omega), afterSensor_room_ne _ _ (by omega) (by omega)]
        exact ih (by omega) i hlt
      · obtain ⟨bytes, hreply⟩ := h i (by omega)
        have hr : (sensorsRead t s i).reply = ⟨.noErr, bytes, [co2 i, pm25 i]⟩ := by
          rw [Board.reply, sensorsRead_replies, List.headD_eq_head?_getD, List.head?_drop, hreply]
          rfl
        exact afterSensor_room t (sensorsRead t s i) i hr

/-! ### Values that the swap changes -/

/-- The same number, or both beyond all thresholds. -/
def Alike (m n : Nat) : Prop := m = n ∨ 0x8000 ≤ m ∧ 0x8000 ≤ n

/-- What the swap does to a negative `short` no threshold sees. -/
theorem storedNumber_alike (v : UInt16) : Alike (storedNumber v) v.toNat := by
  by_cases h : v < 0x8000
  · exact .inl ((storedNumber_iff v).mpr (.inl h))
  · have hv : 0x8000 ≤ v.toNat := by
      rw [UInt16.lt_iff_toNat_lt] at h
      exact Nat.le_of_not_lt h
    refine .inr ⟨?_, hv⟩
    have hhigh : (v >>> 8).toUInt8.toNat = v.toNat / 256 := by
      have hlt := v.toNat_lt
      simp [UInt16.toNat_shiftRight, Nat.shiftRight_eq_div_pow]
      omega
    rw [storedNumber, bigEndian, sw16_low, hhigh]
    omega

theorem Alike.lt_iff {m n k : Nat} (h : Alike m n) (hk : k < 0x8000) : k < m ↔ k < n := by
  unfold Alike at h
  omega

theorem Alike.gt_iff {m n k : Nat} (h : Alike m n) (hk : k < 0x8000) : m < k ↔ n < k := by
  unfold Alike at h
  omega

theorem Alike.ne_zero_iff {m n : Nat} (h : Alike m n) : m ≠ 0 ↔ n ≠ 0 := by
  unfold Alike at h
  omega

/-- The table cannot tell rooms with such readings apart. -/
theorem autoSpeed_alike {r s : Rooms}
    (h : ∀ i, Alike (r i).pm25 (s i).pm25 ∧ Alike (r i).co2 (s i).co2) : autoSpeed r = autoSpeed s := by
  have hactive : ∀ i, (r i).Active ↔ (s i).Active := fun i =>
    or_congr (h i).1.ne_zero_iff (h i).2.ne_zero_iff
  have habove : ∀ pm25 co2, pm25 < 0x8000 → co2 < 0x8000 →
      (SomeRoom (Reading.Exceeds pm25 co2) r ↔ SomeRoom (Reading.Exceeds pm25 co2) s) := by
    intro pm25 co2 hpm25 hco2
    exact exists_congr fun i => and_congr (hactive i)
      (or_congr ((h i).1.lt_iff hpm25) ((h i).2.lt_iff hco2))
  have hbelow : ∀ pm25 co2, pm25 < 0x8000 → co2 < 0x8000 →
      (SomeRoom (Reading.Below pm25 co2) r ↔ SomeRoom (Reading.Below pm25 co2) s) := by
    intro pm25 co2 hpm25 hco2
    exact exists_congr fun i => and_congr (hactive i)
      (and_congr ((h i).1.gt_iff hpm25) ((h i).2.gt_iff hco2))
  simp only [autoSpeed, habove 134 2500 (by decide) (by decide), habove 96 1300 (by decide) (by decide),
    hbelow 55 730 (by decide) (by decide), hbelow 91 1290 (by decide) (by decide)]

/-- **The automatic choice is the table's, on the sensors' values.** -/
theorem auto_choice_eq_table (t : Nat) {s : Board} (hauto : s.Automatic) {pm25 co2 : Nat → UInt16}
    (h : s.Answered pm25 co2) :
    ((sensorLoop.run machine t s).2.passed t).Chosen (autoOn (sensorRooms pm25 co2))
        (autoSpeed (sensorRooms pm25 co2)) ∧
      ∀ e : Equiv.Perm (Fin 5), autoSpeed (sensorRooms pm25 co2 ∘ e) = autoSpeed (sensorRooms pm25 co2) := by
  refine ⟨?_, fun e => autoSpeed_perm e _⟩
  have hloop : (sensorLoop.run machine t s).2 = sensorsRead t s 5 := rfl
  have hread : autoSpeed (sensorsRead t s 5).rooms = autoSpeed (sensorRooms pm25 co2) := by
    refine autoSpeed_alike fun i => ?_
    obtain ⟨hpm25, hco2⟩ := sensorsRead_rooms t h (Nat.le_refl 5) i i.isLt
    have hpm25' := storedNumber_alike (pm25 i)
    have hco2' := storedNumber_alike (co2 i)
    rw [← hpm25] at hpm25'
    rw [← hco2] at hco2'
    exact ⟨hpm25', hco2'⟩
  have hauto' : (sensorsRead t s 5).Automatic := by
    refine ⟨?_, ?_⟩
    · rw [sensorsRead_work t s 5 (by decide)]
      exact hauto.power
    · rw [sensorsRead_work t s 5 (by decide)]
      exact hauto.mode
  have hchosen := hauto'.passed t
  rw [hloop]
  unfold autoOn at hchosen ⊢
  rwa [hread] at hchosen

/-- Five sensors with CO2 400 and a PM2.5 value of the room's number. -/
def Board.fiveAnswers : Board :=
  { Board.automatic 0 0 with
    replies := (List.range 5).map fun i => ⟨.noErr, [], [400, .ofNat i]⟩ }

theorem auto_choice_eq_table_five :
    ((sensorLoop.run machine 0 Board.fiveAnswers).2.passed 0).Chosen
        (autoOn (sensorRooms UInt16.ofNat fun _ => 400)) (autoSpeed (sensorRooms UInt16.ofNat fun _ => 400)) ∧
      ∀ e : Equiv.Perm (Fin 5), autoSpeed (sensorRooms UInt16.ofNat (fun _ => 400) ∘ e) =
        autoSpeed (sensorRooms UInt16.ofNat fun _ => 400) := by
  refine auto_choice_eq_table 0 ⟨by decide, by decide⟩ fun i hi => ⟨[], ?_⟩
  simp [Board.fiveAnswers, hi]

end Aclean
