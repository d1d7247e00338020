import Aclean.Packets
import Aclean.KeyLink

/-!
# The state push

`disp_board_packet_data` copies the main board's `device_work_data` as it
lies in memory; `cmd_uart_check` takes it apart field by field. What the
display makes of the frame is stated once, in terms of the main board's
bytes, and read off for the settings and for the sensor readings. The same
bytes go into the WiFi status frame.
-/

namespace Aclean

open Board

/-- The frame of a state push. -/
def pushed (t : Nat) (s : Board) : List UInt8 :=
  ((dispBoardPacketData 29).run machine t s).2.frame .rs485SendBufNotModbus 33

theorem pushed_eq (t : Nat) (s : Board) :
    pushed t s = packed 0xF2 (0x01 :: 0x1b :: s.frame work 27) (s.stack 6) := by
  have hinj : Function.Injective Addr.rs485SendBufNotModbus := fun i j => Addr.rs485SendBufNotModbus.inj
  have htake : s.dispBuftmp.take 29 = 0x01 :: 0x1b :: s.frame work 27 := by
    rw [Board.dispBuftmp]
    exact List.take_left' (by simp [Board.frame])
  have hrun := run_packFrame hinj 0xF2 (s.dispBuftmp.take 29) (s.stack 6) t (s.dropStack 7)
  rw [← run_dispBoardPacketData (by decide)] at hrun
  have hlen : (0x01 :: 0x1b :: s.frame work 27).length = 29 := by simp [Board.frame]
  rw [htake, hlen] at hrun
  exact hrun

/-- Behind its header and two constants the frame is the memory image. -/
theorem pushed_getD {i : Nat} (hi : i < 27) (t : Nat) (s : Board) :
    (pushed t s).getD (4 + i) 0 = s.mem (work i) := by
  rw [pushed_eq, packed, Nat.add_comm]
  simp [Board.frame, List.getElem?_append, hi]

/-- What the display makes of it. -/
theorem handle_pushed (t : Nat) (s : Board) {d : Disp} (h : d.rx.isrJ = 0) :
    ∃ r rx, (∀ i < 27, rx (4 + i) = s.mem (work i)) ∧
      d.handle (pushed t s) =
        (Disp.takeF2 rx { d with rx := r }).deviceWorkModeCheck.faultCheck := by
  have hbytes := fun i hi => pushed_getD (i := i) hi t s
  rw [pushed_eq, packed] at hbytes ⊢
  have hlen : ((0x01 :: 0x1b :: s.frame work 27) ++
      [s.stack 6 + (0x01 :: 0x1b :: s.frame work 27).sum, 0x7E]).length = 31 := by
    simp [Board.frame]
  obtain ⟨r, rx, -, hrx, hhandle⟩ := Disp.handle_f2 h hlen
  refine ⟨r, rx, ?_, hhandle⟩
  intro i hi
  rw [hrx (4 + i) (by omega)]
  exact hbytes i hi

/-! ## Settings -/

theorem faultCheck_work (d : Disp) : d.faultCheck.work = d.work := by
  have hicon : ∀ (i : UInt8) (icon : Nat) (d : Disp), (d.faultIcon i icon).work = d.work := by
    intro i icon d
    unfold Disp.faultIcon
    split <;> rfl
  unfold Disp.faultCheck
  simp only [apply_ite Disp.work, hicon, ite_self]

/-- What the pass makes of settings in range, whatever the timer: the power
switch clears some of them, and the checks behind it put them back. -/
theorem deviceWorkModeCheck_inRange {d : Disp} {w : Settings} (h : w.InRange) {timing : UInt8}
    (hd : d.work = { w with timingState := timing }) :
    ∃ timing', d.deviceWorkModeCheck.work = { w with timingState := timing' } := by
  obtain ⟨hwind, hhp, hpht⟩ := And.intro h.wind_cases (And.intro h.highPressur_cases h.pht_cases)
  have hpower : ∃ timing' wind hp pht, (d.checkPower w.devicePowerState).work =
      { w with
        windSpeedState := wind
        highPressurState := hp
        phtWorkState := pht
        timingState := timing' } := by
    rcases h.power_cases with h0 | h1
    · refine ⟨d.screen.count3 * 10 + d.screen.count2, 0, 0, 0, ?_⟩
      simp [Disp.checkPower, Disp.onoffDeviceSet, h0, hd]
    · refine ⟨timing, w.windSpeedState, w.highPressurState, w.phtWorkState, ?_⟩
      simp [Disp.checkPower, Disp.onoffDeviceSet, h1, hd]
  obtain ⟨timing', wind, hp, pht, hpower⟩ := hpower
  rw [Disp.deviceWorkModeCheck, hd, Disp.checkTiming_work, Disp.checkPht_work,
    Disp.checkHighPressur_work, Disp.checkWind_work, Disp.checkMode_work, hpower]
  simp only [if_pos hwind, if_pos hhp, if_pos hpht]
  -- rewritten or not, the mode is the one taken over, and the timer may be either
  split
  · split
    · exact ⟨timing, rfl⟩
    · exact ⟨timing, rfl⟩
  · split
    · exact ⟨timing', rfl⟩
    · exact ⟨timing', rfl⟩

/-- The two bytes as a big-endian number. -/
def bigEndian (hi lo : UInt8) : Nat := 256 * hi.toNat + lo.toNat

/-- Number `j` of the ten readings: PM2.5 and CO2 of room 1, of room 2, and so on. -/
def Board.room (s : Board) (j : Nat) : Nat :=
  bigEndian (s.mem (work (Field.houseDataStart + 2 * j)))
    (s.mem (work (Field.houseDataStart + 2 * j + 1)))

/-- What the display takes for a reading is a big-endian number. -/
theorem takeF2_house (rx : Nat → UInt8) (d : Disp) {j : Nat} (hj : j < 10) :
    ((Disp.takeF2 rx d).house j).toNat = bigEndian (rx (10 + 2 * j)) (rx (11 + 2 * j)) := by
  have hhi := (rx (10 + 2 * j)).toNat_lt
  have hlo := (rx (11 + 2 * j)).toNat_lt
  rw [Disp.takeF2, bigEndian]
  simp only [if_pos hj, UInt16.toNat_add, UInt16.toNat_shiftLeft, UInt8.toNat_toUInt16]
  rw [Nat.shiftLeft_eq, show UInt16.toNat 8 % 16 = 8 from rfl]
  omega

theorem house_pushed (t : Nat) (s : Board) {d : Disp} (h : d.rx.isrJ = 0) {j : Nat} (hj : j < 10) :
    ((d.handle (pushed t s)).house j).toNat = s.room j := by
  obtain ⟨r, rx, hrx, hhandle⟩ := handle_pushed t s h
  obtain ⟨w, sc, hredrawn⟩ :=
    (redrawn_deviceWorkModeCheck (Disp.takeF2 rx { d with rx := r })).trans (redrawn_faultCheck _)
  have hhi : rx (10 + 2 * j) = s.mem (work (6 + 2 * j)) := by
    rw [show 10 + 2 * j = 4 + (6 + 2 * j) by omega, hrx _ (by omega)]
  have hlo : rx (11 + 2 * j) = s.mem (work (6 + 2 * j + 1)) := by
    rw [show 11 + 2 * j = 4 + (6 + 2 * j + 1) by omega, hrx _ (by omega)]
  rw [hhandle, hredrawn]
  show ((Disp.takeF2 rx { d with rx := r }).house j).toNat = _
  rw [takeF2_house rx _ hj, hhi, hlo, Board.room]

/-- **The state push carries the state.** Settings in range, the fault byte and
all readings arrive on an idle display, whatever its own state; the timer is
the display's own affair. -/
theorem push_carries_state (t : Nat) (s : Board) (d : Disp) (hrange : s.settings.InRange)
    (hidle : d.rx.isrJ = 0) :
    (∃ timing, (d.handle (pushed t s)).work = { s.settings with timingState := timing }) ∧
      (d.handle (pushed t s)).faultState = s.mem (work Field.faultState) ∧
      ∀ j < 10, ((d.handle (pushed t s)).house j).toNat = s.room j := by
  have hhouse := fun j hj => house_pushed t s hidle (j := j) hj
  obtain ⟨r, rx, hrx, hhandle⟩ := handle_pushed t s hidle
  have htaken : (Disp.takeF2 rx { d with rx := r }).work =
      { s.settings with timingState := d.work.timingState } := by
    rw [Disp.takeF2, Board.settings, ← hrx 0 (by decide), ← hrx 1 (by decide), ← hrx 2 (by decide),
      ← hrx 3 (by decide), ← hrx 4 (by decide)]
  obtain ⟨timing, hwork⟩ := deviceWorkModeCheck_inRange hrange htaken
  obtain ⟨w, sc, hredrawn⟩ :=
    (redrawn_deviceWorkModeCheck (Disp.takeF2 rx { d with rx := r })).trans (redrawn_faultCheck _)
  refine ⟨⟨timing, ?_⟩, ?_, hhouse⟩
  · rw [hhandle, faultCheck_work, hwork]
  · rw [hhandle, hredrawn]
    exact hrx 26 (by decide)

theorem push_carries_state_manual :
    (∃ timing, (Disp.reset.handle (pushed 0 Board.manual)).work =
        { Board.manual.settings with timingState := timing }) ∧
      (Disp.reset.handle (pushed 0 Board.manual)).faultState = Board.manual.mem (work Field.faultState) ∧
      ∀ j < 10, ((Disp.reset.handle (pushed 0 Board.manual)).house j).toNat = Board.manual.room j :=
  push_carries_state 0 Board.manual Disp.reset (by constructor <;> decide) rfl

/-! ## Sensor readings -/

theorem bit_cases {i : Nat} (hi : i < 8) :
    i = 0 ∨ i = 1 ∨ i = 2 ∨ i = 3 ∨ i = 4 ∨ i = 5 ∨ i = 6 ∨ i = 7 := by
  omega

theorem sw16_low (x : UInt16) : (sw16 x).toUInt8 = (x >>> 8).toUInt8 := by
  apply UInt8.toBitVec_inj.mp
  simp [sw16]
  ext i hi
  rcases bit_cases hi with rfl | rfl | rfl | rfl | rfl | rfl | rfl | rfl <;>
    simp [BitVec.getElem_signExtend, BitVec.getElem_sshiftRight]
  
theorem sw16_high (x : UInt16) : ((sw16 x) >>> 8).toUInt8 = if x < 0x8000 then x.toUInt8 else 0xFF := by
  have hmsb : (x < 0x8000) ↔ x.toBitVec.msb = false := by
    rw [UInt16.lt_iff_toNat_lt, BitVec.msb_eq_decide]
    simp
  apply UInt8.toBitVec_inj.mp
  by_cases h : x < 0x8000
  · have h' := hmsb.mp h
    rw [if_pos h]
    simp [sw16]
    ext i hi
    rcases bit_cases hi with rfl | rfl | rfl | rfl | rfl | rfl | rfl | rfl <;>
      simp [BitVec.getElem_signExtend, BitVec.getElem_sshiftRight, h']
  · have h' : x.toBitVec.msb = true := by
      simpa using mt hmsb.mpr h
    rw [if_neg h]
    simp [sw16]
    ext i hi
    rcases bit_cases hi with rfl | rfl | rfl | rfl | rfl | rfl | rfl | rfl <;>
      simp [BitVec.getElem_signExtend, BitVec.getElem_sshiftRight, h']

/-- The number that a reader sees behind a register value stored through `sw16`. -/
def storedNumber (v : UInt16) : Nat := bigEndian (sw16 v).toUInt8 (sw16 v >>> 8).toUInt8

/-- `sw16` swaps the bytes of `v` and does no more. -/
def SwapExact (v : UInt16) : Prop := v < 0x8000 ∨ v.toUInt8 = 0xFF

/-- Behind a negative `short` the sign fills what should be the low byte. -/
theorem storedNumber_iff (v : UInt16) : storedNumber v = v.toNat ↔ SwapExact v := by
  have hhigh : (v >>> 8).toUInt8.toNat = v.toNat / 256 := by
    have hlt := v.toNat_lt
    simp [UInt16.toNat_shiftRight, Nat.shiftRight_eq_div_pow]
    omega
  have hlow : v.toUInt8.toNat = v.toNat % 256 := by simp
  rw [storedNumber, bigEndian, sw16_low, sw16_high, hhigh, SwapExact, ← UInt8.toNat_inj, hlow]
  by_cases h : v < 0x8000
  · rw [if_pos h, hlow]
    simp only [h, true_or, iff_true]
    omega
  · rw [if_neg h]
    simp only [h, false_or]
    rw [show (0xFF : UInt8).toNat = 255 from rfl]
    omega

theorem byte2ToShort_toNat (x y : UInt8) : (byte2ToShort x y).toNat = bigEndian x y := by
  have hx := x.toNat_lt
  have hy : y.toNat < 2 ^ 8 := y.toNat_lt
  have hshift : (x.toUInt16 <<< 8).toNat = x.toNat <<< 8 := by
    rw [UInt16.toNat_shiftLeft, UInt8.toNat_toUInt16, Nat.shiftLeft_eq, Nat.shiftLeft_eq,
      show UInt16.toNat 8 % 16 = 8 from rfl]
    omega
  rw [byte2ToShort, UInt16.toNat_or, hshift, UInt8.toNat_toUInt16,
    ← Nat.shiftLeft_add_eq_or_of_lt hy, Nat.shiftLeft_eq, bigEndian]
  omega

/-- Reading `j` as the control pass forms it. -/
def controlReading (t : Nat) (b : Board) (j : Nat) : Nat :=
  let r := ((houseReading (j / 2)).run machine t b).1
  if j % 2 = 0 then r.1.toNat else r.2.toNat

theorem controlReading_eq (t : Nat) (b : Board) (j : Nat) : controlReading t b j = b.room j := by
  have hrun : ((houseReading (j / 2)).run machine t b).1 =
      (byte2ToShort (b.mem (work (6 + j / 2 * 4))) (b.mem (work (6 + j / 2 * 4 + 1))),
        byte2ToShort (b.mem (work (6 + j / 2 * 4 + 2))) (b.mem (work (6 + j / 2 * 4 + 3)))) := rfl
  rw [controlReading, hrun, Board.room]
  by_cases hj : j % 2 = 0
  · have hidx : 6 + j / 2 * 4 = 6 + 2 * j := by omega
    rw [if_pos hj, byte2ToShort_toNat, hidx]
  · have hidx : 6 + j / 2 * 4 + 2 = 6 + 2 * j := by omega
    rw [if_neg hj, byte2ToShort_toNat, hidx, show 6 + j / 2 * 4 + 3 = 6 + 2 * j + 1 by omega]

/-- The WiFi status frame. -/
def statusFrame (t : Nat) (b : Board) : List UInt8 :=
  (returnCurrentDeviceState.run machine t b).2.frame .wifiSendPacketBufPub 33

/-- A frame of 27 bytes of memory behind two constants, of which the first `k`
may be replaced. -/
theorem packed_getD (pre : List UInt8) {k i : Nat} (hpre : pre.length = k + 2) (hk : k ≤ i)
    (hi : i < 27) (head chk : UInt8) (b : Board) :
    (packed head (pre ++ (b.frame work 27).drop k) chk).getD (4 + i) 0 = b.mem (work i) := by
  have hget : (pre ++ (b.frame work 27).drop k)[2 + i]? = some (b.mem (work i)) := by
    rw [List.getElem?_append_right (by omega), List.getElem?_drop, hpre,
      show k + (2 + i - (k + 2)) = i by omega]
    simp [Board.frame, hi]
  have hlen : 2 + i < (pre ++ (b.frame work 27).drop k).length := by
    rw [List.length_append, List.length_drop, hpre, Board.frame, List.length_map, List.length_range]
    omega
  rw [packed, List.getD_eq_getElem?_getD, show 4 + i = 2 + i + 1 + 1 by omega,
    List.getElem?_cons_succ, List.getElem?_cons_succ, List.getElem?_append_left hlen, hget,
    Option.getD_some]

/-- `buftmp` of `return_current_device_state`. -/
def Board.statusBuftmp (b : Board) : List UInt8 :=
  if b.mem (work Field.devicePowerState) = 0 then
    0x01 :: 0x1b :: b.mem (work 0) :: 2 :: 0 :: 0 :: 0 :: 0 :: (b.frame work 27).drop 6
  else if b.mem (work Field.deviceMode) = 1 then
    0x01 :: 0x1b :: b.mem (work 0) :: b.mem (work 1) ::
      b.mem (.deviceWorkDataAuto Field.windSpeedState) ::
      b.mem (.deviceWorkDataAuto Field.highPressurState) ::
      b.mem (.deviceWorkDataAuto Field.phtWorkState) :: (b.frame work 27).drop 5
  else 0x01 :: 0x1b :: b.frame work 27

theorem statusFrame_eq (t : Nat) (b : Board) :
    statusFrame t b = packed 0xF2 b.statusBuftmp (b.stack 0) := by
  have hinj : Function.Injective Addr.wifiSendPacketBufPub := fun i j => Addr.wifiSendPacketBufPub.inj
  have hsend : ∀ buf : List UInt8, buf.length = 29 →
      ((wifiSendPacketData buf).run machine t b).2.frame .wifiSendPacketBufPub 33 =
        packed 0xF2 buf (b.stack 0) := by
    intro buf hlen
    have hrun := run_packFrame hinj 0xF2 buf (b.stack 0) t (b.dropStack 1)
    rw [hlen] at hrun
    rw [wifiSendPacketData_eq, Prog.run_bind, Prog.run_bind]
    exact hrun
  have hlen : (b.frame work 27).length = 27 := by simp [Board.frame]
  rw [statusFrame, returnCurrentDeviceState, Prog.run_bind, run_loadLoop]
  simp only [load, Prog.op_bind, Prog.ret_bind, Prog.run_op, Prog.run_ite, Board.statusBuftmp]
  -- off, automatic and manual mode
  split
  · exact hsend _ (by simp [hlen])
  · split
    · exact hsend _ (by simp [hlen])
    · exact hsend _ (by simp [hlen])

/-- Whatever it reports of the settings, the readings are the bytes in memory. -/
theorem statusFrame_getD {i : Nat} (h6 : 6 ≤ i) (hi : i < 27) (t : Nat) (b : Board) :
    (statusFrame t b).getD (4 + i) 0 = b.mem (work i) := by
  rw [statusFrame_eq, Board.statusBuftmp]
  split
  · exact packed_getD [0x01, 0x1b, _, 2, 0, 0, 0, 0] rfl h6 hi 0xF2 (b.stack 0) b
  · split
    · exact packed_getD [0x01, 0x1b, _, _, _, _, _] (k := 5) rfl (by omega) hi 0xF2 (b.stack 0) b
    · exact packed_getD [0x01, 0x1b] (k := 0) rfl (by omega) hi 0xF2 (b.stack 0) b

/-- Reading `j` in the WiFi status frame. -/
def statusReading (t : Nat) (b : Board) (j : Nat) : Nat :=
  bigEndian ((statusFrame t b).getD (10 + 2 * j) 0) ((statusFrame t b).getD (11 + 2 * j) 0)

theorem statusReading_eq (t : Nat) (b : Board) {j : Nat} (hj : j < 10) :
    statusReading t b j = b.room j := by
  rw [statusReading, show 10 + 2 * j = 4 + (6 + 2 * j) by omega,
    show 11 + 2 * j = 4 + (6 + 2 * j + 1) by omega, statusFrame_getD (by omega) (by omega),
    statusFrame_getD (by omega) (by omega), Board.room]

/-! ### From the sensor to its readers -/

/-- The three readers see `v` in reading `j`. -/
def SeenAs (v : UInt16) (t : Nat) (b : Board) (d : Disp) (j : Nat) : Prop :=
  controlReading t b j = v.toNat ∧ ((d.handle (pushed t b)).house j).toNat = v.toNat ∧
    statusReading t b j = v.toNat

theorem seenAs_iff (v : UInt16) (t : Nat) (b : Board) {d : Disp} (h : d.rx.isrJ = 0) {j : Nat}
    (hj : j < 10) : SeenAs v t b d j ↔ b.room j = v.toNat := by
  rw [SeenAs, controlReading_eq, house_pushed t b h hj, statusReading_eq t b hj, and_self, and_self]

/-- The board after the reading of sensor `i`. -/
def afterSensor (t : Nat) (s : Board) (i : Nat) : Board :=
  ((sensorRead exchangeHold i).run machine t s).2

theorem afterSensor_room (t : Nat) (s : Board) (i : Nat) {bytes : List UInt8} {co2 pm25 : UInt16}
    (h : s.reply = ⟨.noErr, bytes, [co2, pm25]⟩) :
    (afterSensor t s i).room (2 * i) = storedNumber pm25 ∧
      (afterSensor t s i).room (2 * i + 1) = storedNumber co2 := by
  have hreply : ∀ m, Board.reply { s with mutex := m } = ⟨.noErr, bytes, [co2, pm25]⟩ := fun _ => h
  have hslave : 11 + i - 1 = 10 + i := by omega
  have hmem : (afterSensor t s i).mem = ((((s.set (work (6 + 4 * i + 2)) (sw16 co2).toUInt8).set
      (work (6 + 4 * i + 3)) (sw16 co2 >>> 8).toUInt8).set (work (6 + 4 * i)) (sw16 pm25).toUInt8).set
      (work (6 + 4 * i + 1)) (sw16 pm25 >>> 8).toUInt8).mem := by
    simp [afterSensor, sensorRead, storeField16, hreply, hslave, Board.set]
  rw [Board.room, Board.room, hmem, show 6 + 2 * (2 * i) = 6 + 4 * i by omega,
    show 6 + 2 * (2 * i + 1) = 6 + 4 * i + 2 by omega]
  have hne : 6 + 4 * i + 2 + 1 ≠ 6 + 4 * i := by omega
  simp [storedNumber, hne]

/-- **When a sensor value is the same number everywhere.** -/
theorem sensor_seen_iff (t : Nat) (s : Board) (d : Disp) {i : Nat} (hi : i < 5)
    {bytes : List UInt8} {co2 pm25 : UInt16} (h : s.reply = ⟨.noErr, bytes, [co2, pm25]⟩)
    (hidle : d.rx.isrJ = 0) :
    (SeenAs pm25 t (afterSensor t s i) d (2 * i) ∧ SeenAs co2 t (afterSensor t s i) d (2 * i + 1)) ↔
      SwapExact pm25 ∧ SwapExact co2 := by
  obtain ⟨hpm25, hco2⟩ := afterSensor_room t s i h
  rw [seenAs_iff pm25 t _ hidle (by omega), seenAs_iff co2 t _ hidle (by omega), hpm25, hco2,
    storedNumber_iff, storedNumber_iff]

/-- The main board after reset, with one sensor answer on its way. -/
def Board.answered (co2 pm25 : UInt16) : Board :=
  { Board.reset with replies := [⟨.noErr, [], [co2, pm25]⟩] }

theorem sensor_seen_iff_reset :
    (SeenAs 40 0 (afterSensor 0 (Board.answered 600 40) 0) Disp.reset (2 * 0) ∧
        SeenAs 600 0 (afterSensor 0 (Board.answered 600 40) 0) Disp.reset (2 * 0 + 1)) ↔
      SwapExact 40 ∧ SwapExact 600 :=
  sensor_seen_iff 0 (Board.answered 600 40) Disp.reset (by decide) rfl rfl

/-- A CO2 value of 0x8001 is read back as 0x80ff. -/
theorem sensor_seen_counterexample :
    ¬ (SeenAs 40 0 (afterSensor 0 (Board.answered 0x8001 40) 0) Disp.reset 0 ∧
        SeenAs 0x8001 0 (afterSensor 0 (Board.answered 0x8001 40) 0) Disp.reset 1) := by
  intro h
  have hread : controlReading 0 (afterSensor 0 (Board.answered 0x8001 40) 0) 1 = 0x80ff := by
    decide +kernel
  have hseen : controlReading 0 (afterSensor 0 (Board.answered 0x8001 40) 0) 1 = 0x8001 := h.2.1
  rw [hread] at hseen
  exact absurd hseen (by decide)

end Aclean
