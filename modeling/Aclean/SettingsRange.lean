import Aclean.Packets
import Aclean.Countdown

/-!
# Settings in range

Six setting bytes are written by commands, by the display's replies, by the
control pass and the timer, and by the record in flash that every power-on
reloads. `Board.InRange` says that bytes and record are in range; every
operation keeps it, whatever it is given, but for the settings that a reply of
the display carries: those are stored as they come.
-/

namespace Aclean

open Board Prog

/-! ## The invariant -/

/-- The largest value of the setting byte at offset `i`. -/
def settingMax : Nat → UInt8
  | 0 => 1
  | 1 => 2
  | 2 => 3
  | 3 => 1
  | 4 => 1
  | 5 => 12
  | _ => 255

/-- The settings record in flash. -/
def Board.record (s : Board) : Settings where
  devicePowerState := s.flash sysParaStartAddr
  deviceMode := s.flash (sysParaStartAddr + 1)
  windSpeedState := s.flash (sysParaStartAddr + 2)
  highPressurState := s.flash (sysParaStartAddr + 3)
  phtWorkState := s.flash (sysParaStartAddr + 4)
  timingState := s.flash (sysParaStartAddr + 5)

/-- Flash has no record of settings, or one in range. -/
def Board.RecordOk (s : Board) : Prop := s.flash sysParaFlagAddr = 0x86 → s.record.InRange

structure Board.InRange (s : Board) : Prop where
  bytes : ∀ i, s.mem (work i) ≤ settingMax i
  record : s.flash sysParaFlagAddr = 0x86 → ∀ i, i < 6 → s.flash (sysParaStartAddr + i) ≤ settingMax i

theorem settings_inRange_iff (s : Board) :
    s.settings.InRange ↔ ∀ i, s.mem (work i) ≤ settingMax i := by
  constructor
  · intro h i
    match i with
    | 0 => exact h.power
    | 1 => exact h.mode
    | 2 => exact h.wind
    | 3 => exact h.highPressur
    | 4 => exact h.pht
    | 5 => exact h.timing
    | i + 6 => exact UInt8.le_iff_toNat_le.mpr (Nat.le_of_lt_succ (UInt8.toNat_lt _))
  · intro h
    exact ⟨h 0, h 1, h 2, h 3, h 4, h 5⟩

theorem recordOk_iff (s : Board) : s.RecordOk ↔
    (s.flash sysParaFlagAddr = 0x86 → ∀ i, i < 6 → s.flash (sysParaStartAddr + i) ≤ settingMax i) := by
  refine imp_congr_right fun _ => ⟨fun h i hi => ?_, fun h => ?_⟩
  · match i with
    | 0 => exact h.power
    | 1 => exact h.mode
    | 2 => exact h.wind
    | 3 => exact h.highPressur
    | 4 => exact h.pht
    | 5 => exact h.timing
    | i + 6 => omega
  · exact ⟨h 0 (by decide), h 1 (by decide), h 2 (by decide), h 3 (by decide), h 4 (by decide),
      h 5 (by decide)⟩

/-! ## Operations -/

/-- Operations that keep bytes and record in range. -/
def Op.KeepsRange : Op → Prop
  | .store (.deviceWorkData i) v => v ≤ settingMax i
  | .flashWrite _ _ => False
  | _ => True

theorem exec_inRange {o : Op} (h : o.KeepsRange) (t : Nat) {s : Board} (hs : s.InRange) :
    (Board.exec t o s).2.InRange := by
  cases o with
  | store a v =>
      refine ⟨fun i => ?_, hs.record⟩
      rw [Board.exec, Board.set_mem]
      split
      · next ha => subst ha; exact h
      · exact hs.bytes i
  | flashWrite a data => exact absurd h id
  | exchange len => exact ⟨hs.bytes, hs.record⟩
  | _ => exact ⟨hs.bytes, hs.record⟩

/-- Local code saves nothing. -/
theorem run_local_flash {α : Type} {p : Code α} (h : p.Only Op.Local) (t : Nat) (s : Board) :
    (p.run machine t s).2.flash = s.flash := by
  induction h generalizing s with
  | ret x => rfl
  | @op o _ ho _ ih =>
      refine (ih _ _).trans ?_
      cases o with
      | flashWrite a data => exact absurd rfl (ho.2.1 a data)
      | _ => rfl

theorem Op.Local.keepsRange {o : Op} (h : o.Local) : o.KeepsRange := by
  cases o with
  | store a v =>
      cases a with
      | deviceWorkData i => exact absurd h.1 id
      | _ => trivial
  | flashWrite a data => exact absurd rfl (h.2.1 a data)
  | _ => trivial

/-- The program keeps bytes and record in range, and `Q` holds of its result. -/
abbrev KeepsRange {α : Type} (p : Code α) (Q : α → Prop) : Prop := p.Keeps machine Board.InRange Q

theorem keepsRange_of_only {α : Type} {p : Code α} (h : p.Only Op.KeepsRange) :
    KeepsRange p fun _ => True := .of_only h fun _ ho t _ hs => exec_inRange ho t hs

theorem keepsRange_of_local {α : Type} {p : Code α} (h : p.Only Op.Local) :
    KeepsRange p fun _ => True := keepsRange_of_only (h.mono fun _ => Op.Local.keepsRange)

theorem keepsRange_load (i : Nat) : KeepsRange (load (work i)) fun v => v ≤ settingMax i :=
  .op (fun _ _ hs => ⟨hs, hs.bytes i⟩) fun _ => .ret

theorem keepsRange_store {i : Nat} {v : UInt8} (h : v ≤ settingMax i) :
    KeepsRange (store (work i) v) fun _ => True := keepsRange_of_only (.op h fun _ => .ret ())

/-! ## The record -/

theorem run_deviceSysParaSave (t : Nat) (s : Board) : (deviceSysParaSave.run machine t s).2.mem = s.mem ∧
    (deviceSysParaSave.run machine t s).2.flash sysParaFlagAddr = 0x86 ∧
    ∀ i, i < 6 → (deviceSysParaSave.run machine t s).2.flash (sysParaStartAddr + i) = s.mem (work i) := by
  simp only [deviceSysParaSave, flashWrite, op_bind, ret_bind, run_op, run_bind, run_loadLoop, run_ret]
  refine ⟨trivial, ?_, fun i hi => ?_⟩
  · simp [Board.frame, sysParaStartAddr, sysParaFlagAddr]
  · simp [Board.frame, hi]

theorem deviceSysParaSave_keepsRange : KeepsRange deviceSysParaSave fun _ => True := by
  intro t s hs
  obtain ⟨hmem, -, hrecord⟩ := run_deviceSysParaSave t s
  refine ⟨⟨?_, fun _ i hi => ?_⟩, trivial⟩
  · rw [hmem]
    exact hs.bytes
  · rw [hrecord i hi]
    exact hs.bytes i

theorem saveIfChanged_keepsRange : KeepsRange saveIfChanged fun _ => True := by
  refine .bind (R := fun _ => True) (keepsRange_of_only ?_) fun changed _ =>
    .ite (fun _ => deviceSysParaSave_keepsRange) fun _ => .ret trivial
  exact .foldUpTo fun i changed _ => by simp [Op.KeepsRange]

/-- Reloading: what the record holds is in range if the flag says that there is
one. -/
theorem deviceSysParaGet_keepsRange : KeepsRange deviceSysParaGet fun _ => True := by
  have hloop : Prog.Keeps machine (fun s => s.InRange ∧ s.flash sysParaFlagAddr = 0x86)
      (Prog.forUpTo 6 fun i => do
        let b ← flashRead (sysParaStartAddr + i)
        store (work i) b) fun _ => True := by
    refine .foldUpTo (J := fun _ _ => True) trivial fun i _ hi _ => ?_
    refine .op (R := fun b => b ≤ settingMax i) (fun t s hs => ⟨hs, hs.1.record hs.2 i hi⟩) fun b hb => ?_
    exact .op (R := fun _ => True) (fun t s hs => ⟨⟨exec_inRange (o := .store (work i) b) hb t hs.1, hs.2⟩, trivial⟩)
      fun _ _ => .ret trivial
  intro t s hs
  refine ⟨?_, trivial⟩
  simp only [deviceSysParaGet, flashRead, store, op_bind, ret_bind, run_op, run_bind, run_when]
  refine exec_inRange (o := .store (work Field.faultState) 0) ?_ t ?_
  · exact UInt8.le_iff_toNat_le.mpr (Nat.zero_le _)
  · split
    · next hflag => exact (hloop t s ⟨hs, hflag⟩).1.1
    · exact hs

theorem acAcMotorSet_keepsRange (mode : UInt8) : (acAcMotorSet mode).Only Op.KeepsRange := by
  simp [acAcMotorSet, Op.KeepsRange]

theorem zero_le_settingMax (i : Nat) : 0 ≤ settingMax i := UInt8.le_iff_toNat_le.mpr (Nat.zero_le _)

theorem aircleanPowerOnoff_keepsRange (mode : UInt8) :
    KeepsRange (aircleanPowerOnoff mode) fun _ => True := by
  refine .ite (fun _ => .ret trivial) fun _ => .ite (fun _ => ?_) fun _ => ?_
  · refine .bind deviceSysParaGet_keepsRange fun _ _ => keepsRange_of_only ?_
    exact .bind (by simp [Op.KeepsRange]) fun hp => .bind (by simp [acEsdSet, Op.KeepsRange]) fun _ =>
      .bind (by simp [Op.KeepsRange]) fun pht => .bind (by simp [acPhtSet, Op.KeepsRange]) fun _ =>
      .bind (by simp [Op.KeepsRange]) fun w => .bind (acAcMotorSet_keepsRange w) fun _ =>
      .op (by decide : (1 : UInt8) ≤ 1) fun _ => .ret ()
  · refine .bind deviceSysParaSave_keepsRange fun _ _ => keepsRange_of_only ?_
    exact .bind (by simp [acEsdSet, Op.KeepsRange]) fun _ => .bind (by simp [acPhtSet, Op.KeepsRange]) fun _ =>
      .bind (acAcMotorSet_keepsRange 0) fun _ => .op (by decide : (0 : UInt8) ≤ 1) fun _ => .ret ()

theorem deviceStateInit_keepsRange : KeepsRange deviceStateInit fun _ => True := by
  refine .bind (R := fun _ => True) (keepsRange_of_only ?_) fun _ _ =>
    .bind deviceSysParaGet_keepsRange fun _ _ => aircleanPowerOnoff_keepsRange 1
  exact .forUpTo fun i _ => .op (zero_le_settingMax i) fun _ => .ret ()

theorem rtMainThreadEntry_keepsRange : KeepsRange rtMainThreadEntry fun _ => True := by
  have hesd : (acEsdSet 1).Only Op.KeepsRange := by simp [acEsdSet, Op.KeepsRange]
  have hpht : (acPhtSet 1).Only Op.KeepsRange := by simp [acPhtSet, Op.KeepsRange]
  have houtputs := Prog.Only.bind hesd fun _ => .bind hpht fun _ => acAcMotorSet_keepsRange 1
  refine .bind (keepsRange_of_only houtputs) fun _ _ =>
    .bind deviceStateInit_keepsRange fun _ _ => .bind (keepsRange_load _) fun mode _ =>
    .ite (fun _ => ?_) fun _ => .ret trivial
  exact .bind (keepsRange_store (by decide)) fun _ _ =>
    .bind (keepsRange_store (by decide)) fun _ _ =>
    .bind (keepsRange_store (by decide)) fun _ _ => keepsRange_of_only houtputs

/-! ## Commands -/

theorem commandSwitch_keepsRange (type data : UInt8) :
    KeepsRange (commandSwitch type data) fun _ => True := by
  have hstore : ∀ {i : Nat} {v : UInt8} {known : Bool}, v ≤ settingMax i →
      KeepsRange (store (work i) v >>= fun _ => pure known) fun _ => True :=
    fun h => .bind (keepsRange_store h) fun _ _ => .ret trivial
  unfold commandSwitch
  refine .ite (fun _ => ?_) fun _ => .ite (fun _ => ?_) fun _ => .ite (fun _ => ?_) fun _ =>
    .ite (fun _ => ?_) fun _ => .ite (fun _ => ?_) fun _ => .ite (fun _ => ?_) fun _ => .ret trivial
  · refine .bind (R := fun _ => True) (.ite (fun _ => ?_) fun _ => ?_) fun _ _ => .ret trivial
    · exact .bind (keepsRange_store (by decide)) fun _ _ => aircleanPowerOnoff_keepsRange 1
    · exact .bind (keepsRange_store (by decide)) fun _ _ => aircleanPowerOnoff_keepsRange 0
  · refine .bind (R := fun _ => True) (.ite (fun hd => keepsRange_store ?_) fun _ => .ret trivial)
      fun _ _ => .ret trivial
    rcases hd with rfl | rfl
    · decide
    · decide
  · exact hstore (by split <;> decide)
  · refine .bind (keepsRange_store (by split <;> decide)) fun _ _ =>
      .bind (keepsRange_of_only (by simp [acPhtSet, Op.KeepsRange])) fun _ _ => .ret trivial
  · refine hstore ?_
    split
    · next hd => exact hd
    · decide
  · refine .bind (R := fun _ => True) (.ite (fun hd => keepsRange_store hd) fun _ => .ret trivial) fun _ _ =>
      .bind (keepsRange_of_local (setDcMotorSpeed_local data)) fun _ _ =>
      .bind (keepsRange_of_only (acAcMotorSet_keepsRange data)) fun _ _ => .ret trivial

theorem setDispboardFunctionMode_keepsRange (type mode : UInt8) :
    KeepsRange (setDispboardFunctionMode exchange type mode) fun _ => True :=
  keepsRange_of_only (setDispboardFunctionMode_only (fun _ _ => .op trivial fun _ => .ret _)
    (fun _ => Op.Local.keepsRange) type mode)

theorem applyCommand_keepsRange (type data signalCh : UInt8) :
    KeepsRange (applyCommand exchange type data signalCh) fun _ => True := by
  refine .bind (keepsRange_of_local backupWorkData_local) fun _ _ =>
    .bind (commandSwitch_keepsRange type data) fun known _ => .ite (fun _ => ?_) fun _ => .ret trivial
  exact .bind (R := fun _ => True) (.ite (fun _ => setDispboardFunctionMode_keepsRange type data) fun _ => .ret trivial)
    fun _ _ => saveIfChanged_keepsRange

theorem setDeviceWorkMode_keepsRange (type data signalCh : UInt8) :
    KeepsRange (setDeviceWorkMode exchange type data signalCh) fun _ => True := by
  have happly := applyCommand_keepsRange type data signalCh
  refine .bind (keepsRange_of_only (.op trivial fun _ => .ret _)) fun _ _ => .ite (fun _ => ?_) fun _ => happly
  refine .bind (keepsRange_load _) fun mode _ => .ite (fun _ => .ret trivial) fun _ => ?_
  exact .bind (keepsRange_load _) fun power _ => .ite (fun _ => .ret trivial) fun _ => happly

/-- A frame over WiFi, whatever is in the receive buffer. -/
theorem wifiDecodeFrame_keepsRange : KeepsRange (wifiDecodeFrame exchange) fun _ => True := by
  have hbyte : ∀ a, KeepsRange (load a) fun _ => True :=
    fun a => keepsRange_of_only (.op trivial fun _ => .ret _)
  have hcheck : ∀ len, KeepsRange (wifiReceiveDataCheck len) fun _ => True :=
    fun len => keepsRange_of_only ((wifiReceiveDataCheck_loads len).mono fun _ ⟨_, ho⟩ => ho ▸ trivial)
  have hdecode : KeepsRange (wifiReceiveDataDecode exchange) fun _ => True := by
    have hstate := keepsRange_of_local returnCurrentDeviceState_local
    refine .bind (hbyte _) fun cmd _ => .ite (fun _ => hstate) fun _ => .ite (fun _ => ?_) fun _ =>
      .ite (fun _ => keepsRange_of_local (wifiSendPacketData_local _)) fun _ => .ret trivial
    exact .bind (hbyte _) fun type _ => .bind (hbyte _) fun data _ =>
      .bind (setDeviceWorkMode_keepsRange type data 1) fun _ _ => hstate
  exact .bind (hbyte _) fun len _ => .bind (hcheck len) fun ok _ => .ite (fun _ =>
    .bind (hbyte _) fun _ _ => hdecode) fun _ => .ret trivial

/-! ## The control pass and the timer -/

theorem aircleanMotorSet_keepsRange {mode : UInt8} (h : mode ≤ 3) :
    KeepsRange (aircleanMotorSet mode) fun _ => True := by
  have hmutex : ∀ m, KeepsRange (mutexTake m) fun _ => True :=
    fun m => keepsRange_of_only (.op trivial fun _ => .ret _)
  refine .bind (hmutex _) fun _ _ => .bind (keepsRange_store h) fun _ _ =>
    .bind (keepsRange_load _) fun w _ => .bind (keepsRange_of_only (acAcMotorSet_keepsRange w)) fun _ _ =>
    .bind (hmutex _) fun _ _ => .bind (keepsRange_load _) fun w _ =>
    .bind (keepsRange_of_local (setDcMotorSpeed_local w)) fun _ _ => keepsRange_of_only ?_
  simp [Op.KeepsRange]

theorem aircleanWorkAutoHandle_keepsRange : KeepsRange aircleanWorkAutoHandle fun _ => True := by
  have hscan : ∀ p, KeepsRange (scanRooms p) fun _ => True := by
    intro p
    refine keepsRange_of_only (.foldUpTo fun i found _ => ?_)
    simp [houseReading, Op.KeepsRange]
  have hdrive : ∀ on {speed : UInt8}, speed ≤ 3 → KeepsRange (driveAuto on speed) fun _ => True := by
    intro on speed h
    refine .bind (keepsRange_of_only (by simp [acEsdSet, Op.KeepsRange])) fun _ _ =>
      .bind (keepsRange_of_only (by simp [acPhtSet, Op.KeepsRange])) fun _ _ =>
      .bind (aircleanMotorSet_keepsRange h) fun _ _ => keepsRange_of_only ?_
    simp [Op.KeepsRange]
  have hauto : KeepsRange autoHandle fun _ => True := by
    refine .bind (hscan _) fun _ _ => .ite (fun _ => hdrive 1 (by decide)) fun _ => ?_
    refine .bind (hscan _) fun _ _ => .ite (fun _ => hdrive 1 (by decide)) fun _ => ?_
    refine .bind (hscan _) fun _ _ => .ite (fun _ => hdrive 0 (by decide)) fun _ => ?_
    exact .bind (hscan _) fun _ _ => .ite (fun _ => hdrive 1 (by decide)) fun _ => hdrive 0 (by decide)
  have hmanual : KeepsRange (manualHandle 0xff) fun _ => True := by
    refine .ite (fun h => absurd h (by decide)) fun _ => ?_
    refine .bind (keepsRange_load _) fun hp _ =>
      .bind (keepsRange_of_only (by simp [acEsdSet, Op.KeepsRange])) fun _ _ =>
      .bind (keepsRange_load _) fun pht _ =>
      .bind (keepsRange_of_only (by simp [acPhtSet, Op.KeepsRange])) fun _ _ =>
      .bind (keepsRange_load _) fun w _ => .bind (R := fun _ => True)
        (.ite (fun _ => aircleanMotorSet_keepsRange (by decide)) fun _ => .ret trivial) fun _ _ => ?_
    exact .bind (keepsRange_load _) fun w hw => aircleanMotorSet_keepsRange hw
  refine .bind (keepsRange_load _) fun power _ => .ite (fun _ => ?_) fun _ => .ret trivial
  refine .bind (keepsRange_load _) fun mode _ => .ite (fun _ => hauto) fun _ => ?_
  exact .bind (keepsRange_load _) fun mode _ => .ite (fun _ => hmanual) fun _ => .ret trivial

/-- The hour is taken off a timer that has one. -/
theorem afterHour_inRange {s : Board} (hs : s.InRange) : (afterHour s).InRange := by
  have hcount : (afterCount s).InRange := by
    refine ⟨fun i => ?_, hs.record⟩
    simp only [afterCount, set_mem]
    exact hs.bytes i
  unfold afterHour
  split
  · next h =>
      refine exec_inRange (o := .store (work Field.timingState) _) ?_ 0 hcount
      have hne : (s.mem (work Field.timingState)).toNat ≠ 0 := h.2
      have hle := UInt8.le_iff_toNat_le.mp (hs.bytes Field.timingState)
      have hlt := (s.mem (work Field.timingState)).toNat_lt
      refine UInt8.le_iff_toNat_le.mpr (Nat.le_trans ?_ hle)
      rw [UInt8.toNat_sub]
      show (256 - 1 + _) % 256 ≤ _
      omega
  · exact hcount

theorem threadEntryPowerMonitor_keepsRange (dCmdPower : UInt8) :
    KeepsRange (threadEntryPowerMonitor exchange dCmdPower) fun _ => True := by
  have htimeUp : KeepsRange (timeUp dCmdPower) fun _ => True := by
    refine .bind (keepsRange_store (by decide)) fun _ _ => .bind (keepsRange_store (by decide)) fun _ _ =>
      .bind (keepsRange_of_only (.op trivial fun _ => .ret _)) fun _ _ =>
      .bind (keepsRange_of_only (.op trivial fun _ => .ret _)) fun _ _ =>
      .bind (setDispboardFunctionMode_keepsRange _ _) fun _ _ => aircleanPowerOnoff_keepsRange 0
  intro t s hs
  rw [run_threadEntryPowerMonitor]
  refine ⟨?_, trivial⟩
  split
  · exact (htimeUp t _ (afterHour_inRange hs)).1
  · exact (aircleanWorkAutoHandle_keepsRange t _ (afterHour_inRange hs)).1

/-! ## Replies of the display -/

/-- The first half of `get_display_board_data`: the request. -/
def pollDisplay : Code eMBMasterReqErrCode := do
  mutexTake .modbus
  store (.rs485SendBufNotModbus 0) 0xF1
  store (.rs485SendBufNotModbus 1) 0xF1
  store (.rs485SendBufNotModbus 2) 0x01
  store (.rs485SendBufNotModbus 3) 0x01
  store (.rs485SendBufNotModbus 4) 0x00
  store (.rs485SendBufNotModbus 5) 0x02
  store (.rs485SendBufNotModbus 6) 0x7E
  store (.ucMasterRTURcvBuf 0) 0
  exchange 7

theorem getDisplayBoardData_eq : getDisplayBoardData exchange = (do
    let errorCode ← pollDisplay
    Prog.when (errorCode = .revData) (handleDisplayReply exchange)
    mutexRelease .modbus) := rfl

/-- The receive buffer as the poll leaves it: the reply over what was there,
the first byte cleared. -/
def Board.replyBuffer (s : Board) (i : Nat) : UInt8 :=
  s.reply.bytes.getD i (if i = 0 then 0 else s.mem (.ucMasterRTURcvBuf i))

theorem run_pollDisplay (t : Nat) (s : Board) :
    (pollDisplay.run machine t s).1 = s.reply.code ∧
      (∀ i, (pollDisplay.run machine t s).2.mem (.ucMasterRTURcvBuf i) = s.replyBuffer i) ∧
      (∀ i, (pollDisplay.run machine t s).2.mem (work i) = s.mem (work i)) ∧
      (pollDisplay.run machine t s).2.flash = s.flash := by
  simp [pollDisplay, Board.replyBuffer, Board.reply, receive]

/-- An F2 reply: header and end byte. -/
def FramedF2 (rcv : Nat → UInt8) : Prop := rcv 0 = 0xF2 ∧ rcv 1 = 0xF2 ∧ rcv 32 = 0x7E

instance (rcv : Nat → UInt8) : Decidable (FramedF2 rcv) := inferInstanceAs (Decidable (_ ∧ _))

/-- The settings with those of an F2 reply taken over. -/
def takenSettings (rcv : Nat → UInt8) (w : Settings) : Settings :=
  if rcv 5 = 1 then { w with deviceMode := rcv 5, timingState := rcv 9 }
  else { w with
    deviceMode := rcv 5
    windSpeedState := rcv 6
    highPressurState := rcv 7
    phtWorkState := rcv 8
    timingState := rcv 9 }

/-- The bytes of an F2 reply that become settings are in range. -/
structure SettingsBytesOk (rcv : Nat → UInt8) : Prop where
  mode : rcv 5 ≤ 2
  manual : rcv 5 ≠ 1 → rcv 6 ≤ 3 ∧ rcv 7 ≤ 1 ∧ rcv 8 ≤ 1
  timing : rcv 9 ≤ 12

theorem takenSettings_inRange_iff (rcv : Nat → UInt8) {w : Settings} (hw : w.InRange) :
    (takenSettings rcv w).InRange ↔ SettingsBytesOk rcv := by
  unfold takenSettings
  by_cases hauto : rcv 5 = 1
  · rw [if_pos hauto]
    constructor
    · intro h
      exact ⟨h.mode, fun hne => absurd hauto hne, h.timing⟩
    · intro h
      exact ⟨hw.power, h.mode, hw.wind, hw.highPressur, hw.pht, h.timing⟩
  · rw [if_neg hauto]
    constructor
    · intro h
      exact ⟨h.mode, fun _ => ⟨h.wind, h.highPressur, h.pht⟩, h.timing⟩
    · intro h
      obtain ⟨hwind, hhp, hpht⟩ := h.manual hauto
      exact ⟨hw.power, h.mode, hwind, hhp, hpht, h.timing⟩

/-- The F2 branch up to its closing loop. -/
def takeReplyBytes : Code Unit := do
  backupWorkData
  let m ← load (.ucMasterRTURcvBuf 5)
  store (work Field.deviceMode) m
  let m ← load (work Field.deviceMode)
  Prog.when (m ≠ 1) do
    let w ← load (.ucMasterRTURcvBuf 6)
    store (work Field.windSpeedState) w
    let hp ← load (.ucMasterRTURcvBuf 7)
    store (work Field.highPressurState) hp
    let pht ← load (.ucMasterRTURcvBuf 8)
    store (work Field.phtWorkState) pht
  let tm ← load (.ucMasterRTURcvBuf 9)
  store (work Field.timingState) tm
  let f ← load (.ucMasterRTURcvBuf 30)
  Prog.when (f &&& FaultBit.resetWifi.mask ≠ 0) (note .wifiFactorySet)

theorem takeDisplaySettings_eq :
    takeDisplaySettings = takeReplyBytes >>= fun _ => saveIfChanged := by
  simp only [takeReplyBytes, bind_assoc]
  rfl

/-- The backup is all that the backup changes. -/
theorem run_backupWorkData_mem (t : Nat) (s : Board) {a : Addr} (h : ∀ i, a ≠ .deviceWorkDataBak i) :
    (backupWorkData.run machine t s).2.mem a = s.mem a := by
  refine run_leaves ?_ t s
  unfold backupWorkData
  exact .forUpTo fun i _ => by simp [Op.Leaves, (h i).symm]

theorem run_takeReplyBytes (t : Nat) (s : Board) :
    (takeReplyBytes.run machine t s).2.settings =
        takenSettings (fun i => s.mem (.ucMasterRTURcvBuf i)) s.settings ∧
      (takeReplyBytes.run machine t s).2.flash = s.flash := by
  have hrcv : ∀ i, (backupWorkData.run machine t s).2.mem (.ucMasterRTURcvBuf i) =
      s.mem (.ucMasterRTURcvBuf i) := fun i => run_backupWorkData_mem t s (by rintro j ⟨⟩)
  have hwork : ∀ i, (backupWorkData.run machine t s).2.mem (work i) = s.mem (work i) :=
    fun i => run_backupWorkData_mem t s (by rintro j ⟨⟩)
  have hflash := run_local_flash backupWorkData_local t s
  simp only [takeReplyBytes, run_bind]
  generalize (backupWorkData.run machine t s).2 = s₁ at hrcv hwork hflash
  unfold takenSettings
  by_cases hauto : s.mem (.ucMasterRTURcvBuf 5) = 1
  · by_cases hreset : s.mem (.ucMasterRTURcvBuf 30) &&& FaultBit.resetWifi.mask = 0
    · simp [Board.settings, hrcv, hwork, hflash, hauto, hreset]
    · simp [Board.settings, hrcv, hwork, hflash, hauto, hreset]
  · by_cases hreset : s.mem (.ucMasterRTURcvBuf 30) &&& FaultBit.resetWifi.mask = 0
    · simp [Board.settings, hrcv, hwork, hflash, hauto, hreset]
    · simp [Board.settings, hrcv, hwork, hflash, hauto, hreset]

theorem run_replyFramed (b : UInt8) (e t : Nat) (s : Board) : (replyFramed b e).run machine t s =
    (decide (s.mem (.ucMasterRTURcvBuf 0) = b ∧ s.mem (.ucMasterRTURcvBuf 1) = b ∧
      s.mem (.ucMasterRTURcvBuf e) = 0x7E), s) := by
  by_cases h0 : s.mem (.ucMasterRTURcvBuf 0) = b
  · by_cases h1 : s.mem (.ucMasterRTURcvBuf 1) = b
    · simp [replyFramed, h0, h1]
      rfl
    · simp [replyFramed, h0, h1]
  · simp [replyFramed, h0]

/-- An accepted F2 reply that is in range. -/
def DisplayReplyOk (s : Board) : Prop :=
  s.reply.code = .revData → FramedF2 s.replyBuffer → SettingsBytesOk s.replyBuffer

theorem takeDisplayKey_keepsRange : KeepsRange (takeDisplayKey exchange) fun _ => True := by
  have hbyte : ∀ a, KeepsRange (load a) fun _ => True :=
    fun a => keepsRange_of_only (.op trivial fun _ => .ret _)
  refine .bind (hbyte _) fun b _ => .ite (fun _ => ?_) fun _ => .ret trivial
  refine .bind (hbyte _) fun b _ => .ite (fun _ => ?_) fun _ => .ret trivial
  exact .bind (hbyte _) fun type _ => .bind (hbyte _) fun data _ => setDeviceWorkMode_keepsRange type data 0

/-- An F2 reply is taken over. -/
theorem handleDisplayReply_f2 (t : Nat) {s : Board}
    (h : FramedF2 fun i => s.mem (.ucMasterRTURcvBuf i)) :
    ((handleDisplayReply exchange).run machine t s).2 = (takeDisplaySettings.run machine t s).2 ∧
      ((handleDisplayReply exchange).run machine t s).2.settings =
        takenSettings (fun i => s.mem (.ucMasterRTURcvBuf i)) s.settings := by
  obtain ⟨h0, h1, h32⟩ := h
  have hrun : (handleDisplayReply exchange).run machine t s = takeDisplaySettings.run machine t s := by
    rw [handleDisplayReply, run_bind, run_replyFramed, run_ite, if_pos (by simp [h0, h1, h32])]
  rw [hrun]
  refine ⟨rfl, ?_⟩
  rw [takeDisplaySettings_eq, run_bind]
  exact (run_plain_settings saveIfChanged_plain t _).trans (run_takeReplyBytes t s).1

theorem takeDisplaySettings_inRange (t : Nat) {s : Board} (hs : s.InRange)
    (hok : SettingsBytesOk fun i => s.mem (.ucMasterRTURcvBuf i)) :
    (takeDisplaySettings.run machine t s).2.InRange := by
  obtain ⟨hsettings, hflash⟩ := run_takeReplyBytes t s
  rw [takeDisplaySettings_eq, run_bind]
  generalize (takeReplyBytes.run machine t s).2 = s₁ at hsettings hflash
  have hs₁ : s₁.settings.InRange := by
    rw [hsettings]
    exact (takenSettings_inRange_iff _ ((settings_inRange_iff s).mpr hs.bytes)).mpr hok
  have hrecord : s₁.flash sysParaFlagAddr = 0x86 →
      ∀ i, i < 6 → s₁.flash (sysParaStartAddr + i) ≤ settingMax i := by
    rw [hflash]
    exact hs.record
  exact (saveIfChanged_keepsRange t s₁ ⟨(settings_inRange_iff s₁).mp hs₁, hrecord⟩).1

/-- Any other reply. -/
theorem handleDisplayReply_keepsRange (t : Nat) {s : Board} (hs : s.InRange)
    (hf2 : ¬ FramedF2 fun i => s.mem (.ucMasterRTURcvBuf i)) :
    ((handleDisplayReply exchange).run machine t s).2.InRange := by
  rw [handleDisplayReply, run_bind, run_replyFramed, run_ite, if_neg (by simpa [FramedF2] using hf2), run_bind,
    run_replyFramed, run_ite]
  split
  · exact (takeDisplayKey_keepsRange t s hs).1
  · exact hs

/-- **A reply of the display leaves the settings in range if and only if it is in
range where it is taken over.** -/
theorem getDisplayBoardData_inRange (t : Nat) {s : Board} (hs : s.InRange) :
    (((getDisplayBoardData exchange).run machine t s).2.settings.InRange ↔ DisplayReplyOk s) ∧
      (DisplayReplyOk s → ((getDisplayBoardData exchange).run machine t s).2.InRange) := by
  obtain ⟨hcode, hrcv, hwork, hflash⟩ := run_pollDisplay t s
  have hs₁ : (pollDisplay.run machine t s).2.InRange :=
    ⟨fun i => by rw [hwork]; exact hs.bytes i, by rw [hflash]; exact hs.record⟩
  have hsettings : (pollDisplay.run machine t s).2.settings = s.settings := by
    simp only [Board.settings, hwork]
  rw [getDisplayBoardData_eq, run_bind, run_bind, run_when, hcode]
  generalize (pollDisplay.run machine t s).2 = s₁ at hrcv hs₁ hsettings
  have hrelease : ∀ s' : Board, ((mutexRelease .modbus).run machine t s').2.settings = s'.settings ∧
      (s'.InRange → ((mutexRelease .modbus).run machine t s').2.InRange) :=
    fun s' => ⟨rfl, fun h => ⟨h.bytes, h.record⟩⟩
  have hgood : ∀ {s'}, s'.InRange →
      (((mutexRelease .modbus).run machine t s').2.settings.InRange ↔ True) ∧
        ((mutexRelease .modbus).run machine t s').2.InRange :=
    fun h => ⟨iff_true_intro ((settings_inRange_iff _).mpr h.bytes), (hrelease _).2 h⟩
  by_cases hrev : s.reply.code = .revData
  · rw [if_pos hrev]
    have hbuffer : (fun i => s₁.mem (.ucMasterRTURcvBuf i)) = s.replyBuffer := funext hrcv
    by_cases hf2 : FramedF2 s.replyBuffer
    · have hok : DisplayReplyOk s ↔ SettingsBytesOk s.replyBuffer :=
        ⟨fun h => h hrev hf2, fun h _ _ => h⟩
      obtain ⟨htaken, htake⟩ := handleDisplayReply_f2 t (s := s₁) (hbuffer ▸ hf2)
      rw [hok]
      refine ⟨?_, fun h => (hrelease _).2 ?_⟩
      · rw [(hrelease _).1, htake, hsettings, hbuffer]
        exact takenSettings_inRange_iff _ ((settings_inRange_iff s).mpr hs.bytes)
      · rw [htaken]
        exact takeDisplaySettings_inRange t hs₁ (hbuffer ▸ h)
    · have hok : DisplayReplyOk s ↔ True := iff_true_intro fun _ h => absurd h hf2
      have hkeeps := hgood (handleDisplayReply_keepsRange t hs₁ (hbuffer ▸ hf2))
      rw [hok]
      exact ⟨hkeeps.1, fun _ => hkeeps.2⟩
  · have hok : DisplayReplyOk s ↔ True := iff_true_intro fun h => absurd h hrev
    rw [if_neg hrev, hok]
    exact ⟨(hgood hs₁).1, fun _ => (hgood hs₁).2⟩

/-! ## Runs -/

/-- The board after `device_state_init`, when flash is all that is left. -/
def rebooted (t : Nat) (s : Board) : Board :=
  (deviceStateInit.run machine t { Board.reset with flash := s.flash }).2

/-- The board after a power cut and a whole restart: flash is all that is left. -/
def restarted (t : Nat) (s : Board) : Board :=
  (rtMainThreadEntry.run machine t { Board.reset with flash := s.flash }).2

/-- The boards that runs of whole operations reach, `ok` before each of the
display's replies. Between two operations anything may change but the settings and
flash: what came in over WiFi, what the display replies next. -/
inductive SettingsRun (ok : Board → Prop) : Board → Prop where
  | start {s : Board} (t : Nat) (h : s.RecordOk) : SettingsRun ok (rebooted t s)
  | wifi {s : Board} (t : Nat) (h : SettingsRun ok s) :
      SettingsRun ok ((wifiDecodeFrame exchange).run machine t s).2
  | display {s : Board} (t : Nat) (h : SettingsRun ok s) (hok : ok s) :
      SettingsRun ok ((getDisplayBoardData exchange).run machine t s).2
  | pass {s : Board} (dCmdPower : UInt8) (t : Nat) (h : SettingsRun ok s) :
      SettingsRun ok ((threadEntryPowerMonitor exchange dCmdPower).run machine t s).2
  | power {s : Board} (mode : UInt8) (t : Nat) (h : SettingsRun ok s) :
      SettingsRun ok ((aircleanPowerOnoff mode).run machine t s).2
  | reboot {s : Board} (t : Nat) (h : SettingsRun ok s) : SettingsRun ok (rebooted t s)
  | restart {s : Board} (t : Nat) (h : SettingsRun ok s) : SettingsRun ok (restarted t s)
  | others {s s' : Board} (h : SettingsRun ok s) (hsettings : s'.settings = s.settings)
      (hflash : s'.flash = s.flash) : SettingsRun ok s'

theorem reset_inRange {s : Board} (h : s.RecordOk) :
    ({ Board.reset with flash := s.flash } : Board).InRange :=
  ⟨fun i => zero_le_settingMax i, (recordOk_iff s).mp h⟩

theorem rebooted_inRange (t : Nat) {s : Board} (h : s.RecordOk) : (rebooted t s).InRange :=
  (deviceStateInit_keepsRange t _ (reset_inRange h)).1

theorem SettingsRun.inRange {s : Board} (h : SettingsRun DisplayReplyOk s) : s.InRange := by
  induction h with
  | start t h => exact rebooted_inRange t h
  | wifi t _ ih => exact (wifiDecodeFrame_keepsRange t _ ih).1
  | display t _ hok ih => exact (getDisplayBoardData_inRange t ih).2 hok
  | pass dCmdPower t _ ih => exact (threadEntryPowerMonitor_keepsRange dCmdPower t _ ih).1
  | power mode t _ ih => exact (aircleanPowerOnoff_keepsRange mode t _ ih).1
  | @reboot s t _ ih => exact rebooted_inRange t ((recordOk_iff s).mpr ih.record)
  | @restart s t _ ih =>
      exact (rtMainThreadEntry_keepsRange t _ (reset_inRange ((recordOk_iff s).mpr ih.record))).1
  | @others s s' _ hsettings hflash ih =>
      refine ⟨(settings_inRange_iff s').mp ?_, by rw [hflash]; exact ih.record⟩
      rw [hsettings]
      exact (settings_inRange_iff s).mpr ih.bytes

/-- **Settings stay in range as long as the display's replies are.** In every run
in which each F2 reply that is accepted carries settings in range, the settings
are in range in every state; and the next reply keeps them there if and only if
it does too. -/
theorem settings_inRange_run {s : Board} (h : SettingsRun DisplayReplyOk s) (t : Nat) :
    s.settings.InRange ∧
      (((getDisplayBoardData exchange).run machine t s).2.settings.InRange ↔ DisplayReplyOk s) :=
  ⟨(settings_inRange_iff s).mpr h.inRange.bytes, (getDisplayBoardData_inRange t h.inRange).1⟩

theorem recordOk_reset : Board.reset.RecordOk := fun h => absurd h (by decide)

theorem settings_inRange_run_boot : (rebooted 0 Board.reset).settings.InRange :=
  (settings_inRange_run (.start 0 recordOk_reset) 0).1

/-- An F2 reply with 7 as its mode. -/
def badModeReply : List UInt8 :=
  [0xF2, 0xF2, 0x01, 0x1b, 1, 7, 1, 0, 0, 0] ++ List.replicate 22 0 ++ [0x7E]

/-- The mode of a reply becomes the device's. -/
theorem settings_out_of_range :
    ∃ s, SettingsRun (fun _ => True) s ∧ s.settings.deviceMode = 7 := by
  have hpolled : SettingsRun (fun _ => True)
      { rebooted 0 Board.reset with replies := [⟨.revData, badModeReply, []⟩] } :=
    .others (.start 0 recordOk_reset) rfl rfl
  refine ⟨_, .display 0 hpolled trivial, ?_⟩
  decide

end Aclean
