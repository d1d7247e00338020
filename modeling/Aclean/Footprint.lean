import Aclean.Wifi

/-!
# What the control code does not do

The control code neither reads nor writes what the WiFi receiver and the
frame check share, writes nothing of the Modbus master's, puts nothing on the
RS485 line but through its requests, and does not call the command switch
again. Most of it (copies, checksums,
saving, frame building) is plain: it writes no setting and drives no output
either. One lemma per function, so that later results need not look inside
the functions they are not about.
-/

namespace Aclean

/-- The data of the WiFi receive path. -/
def Addr.Rx : Addr → Prop
  | .wifiRecvPacketBufPub _ => True
  | .wifiDataBufferRecvTmp _ => True
  | .wifiRecieveDataLength => True
  | .waitLen => True
  | .waitLenCnt => True
  | .recievedLen => True
  | _ => False

/-- What the Modbus master keeps for itself: its send buffer, the flag that tells
a raw request, and the length of its frame. -/
def Addr.Master : Addr → Prop
  | .ucMasterRTUSndBuf _ => True
  | .mbSwitchFlag => True
  | .mbNotRtuDataLen => True
  | _ => False

/-- The operations of the control code proper. -/
def Op.Control : Op → Prop
  | .load a => ¬ a.Rx
  | .store a _ => ¬ a.Rx ∧ ¬ a.Master
  | .semTake => False
  | .semRelease => False
  | .exchange _ => False
  | .exchangeHold _ => False
  | .note (.setDeviceWorkMode _ _ _) => False
  | _ => True

/-- Those that write no setting, leave the switch-off timer alone and drive no
output. -/
def Op.Plain : Op → Prop
  | .semTake => False
  | .semRelease => False
  | .load a => ¬ a.Rx
  | .store (.deviceWorkData _) _ => False
  | .store .powerStatePre _ => False
  | .store a _ => ¬ a.Rx ∧ ¬ a.Master
  | .setPowerTimCnt _ => False
  | .gpioWrite _ _ => False
  | .exchange _ => False
  | .exchangeHold _ => False
  | .note _ => False
  | _ => True

/-- Plain, saving nothing and not looking at the backup of the settings. -/
def Op.Local (o : Op) : Prop :=
  o.Plain ∧ (∀ addr data, o ≠ .flashWrite addr data) ∧ ∀ i, o ≠ .load (.deviceWorkDataBak i)

theorem Op.Plain.control {o : Op} (h : o.Plain) : o.Control := by
  cases o with
  | store a v =>
      cases a with
      | deviceWorkData i => exact absurd h id
      | powerStatePre => exact absurd h id
      | _ => exact h
  | setPowerTimCnt n => exact absurd h id
  | note e => exact absurd h id
  | gpioWrite p on => trivial
  | _ => exact h

/-- Neither takes nor gives back a mutex. -/
def Op.Lockless : Op → Prop
  | .mutexTake _ => False
  | .mutexRelease _ => False
  | _ => True

/-- Operations of the control code that record no call and need no mutex. -/
def Op.Bare (o : Op) : Prop := o.Control ∧ o.Lockless ∧ ∀ e, o ≠ .note e

theorem Op.Plain.not_note {o : Op} (h : o.Plain) (e : Event) : o ≠ .note e := by
  rintro rfl
  exact h

theorem Op.Plain.bare {o : Op} (h : o.Plain) (hl : o.Lockless) : o.Bare := ⟨h.control, hl, h.not_note⟩

/-- Operations that leave the byte at `a` as it is. -/
def Op.Leaves (a : Addr) : Op → Prop
  | .store b _ => b ≠ a
  | .exchange _ => ∀ i, a ≠ .ucMasterRTURcvBuf i
  | _ => True

theorem exec_leaves {a : Addr} {o : Op} (h : o.Leaves a) (t : Nat) (s : Board) :
    (Board.exec t o s).2.mem a = s.mem a := by
  cases o with
  | store b v => rw [Board.exec, Board.set_mem, if_neg (Ne.symm h)]
  | exchange len =>
      cases a with
      | ucMasterRTURcvBuf i => exact absurd rfl (h i)
      | _ => rfl
  | _ => rfl

theorem run_leaves {a : Addr} {α : Type} {p : Code α} (h : p.Only (Op.Leaves a)) (t : Nat)
    (s : Board) : (p.run Board.machine t s).2.mem a = s.mem a := by
  induction h generalizing s with
  | ret x => rfl
  | op ho _ ih => exact (ih _ _).trans (exec_leaves ho t s)

theorem exec_log (t : Nat) (o : Op) (s : Board) : s.log <+: (Board.exec t o s).2.log := by
  cases o with
  | exchange len => exact List.prefix_append _ _
  | uartWrite len => exact List.prefix_append _ _
  | note e => exact List.prefix_append _ _
  | _ => exact List.prefix_rfl

/-- No code takes an event back. -/
theorem run_log {α : Type} (p : Code α) (t : Nat) (s : Board) :
    s.log <+: (p.run Board.machine t s).2.log := by
  induction p generalizing s with
  | ret a => exact List.prefix_rfl
  | op o k ih => exact (exec_log t o s).trans (ih _ _)

open Prog

attribute [local simp] Addr.Rx Addr.Master Op.Control Op.Plain Op.Local
  Op.Lockless Op.Bare

/-! ## Plain code -/

theorem setDcMotorSpeed_solo (speed : UInt8) :
    (setDcMotorSpeed speed).Only fun o => o.Local ∧ o.Lockless := by
  simp [setDcMotorSpeed]

theorem backupWorkData_solo : backupWorkData.Only fun o => o.Local ∧ o.Lockless := by
  unfold backupWorkData
  exact .forUpTo fun i _ => by simp

theorem replyFramed_solo (b : UInt8) (e : Nat) :
    (replyFramed b e).Only fun o => o.Local ∧ o.Lockless := by
  simp [replyFramed]

theorem ignoreReply_solo (errorCode : eMBMasterReqErrCode) :
    (ignoreReply errorCode).Only fun o => o.Local ∧ o.Lockless := by
  unfold ignoreReply
  rw [only_when]
  exact fun _ => .bind (replyFramed_solo _ _) fun _ => .ret _

theorem sendPacketData_solo (buftmp : List UInt8) :
    (sendPacketData buftmp).Only fun o => o.Local ∧ o.Lockless := by
  simp only [sendPacketData, undef, store, op_bind, ret_bind, only_op]
  refine ⟨by simp, fun _ => ⟨by simp, fun _ =>
    ⟨by simp, fun _ => .bind (.foldUpTo fun i chk _ => ?_) fun _ => ?_⟩⟩⟩
  all_goals simp

theorem dispBoardPacketData_solo (len : Nat) :
    (dispBoardPacketData len).Only fun o => o.Local ∧ o.Lockless := by
  unfold dispBoardPacketData
  refine .bind (.foldUpTo fun i data _ => by simp) fun data =>
    .bind (.foldUpTo fun i rest _ => by simp) fun rest => ?_
  simp only [undef, store, op_bind, ret_bind, only_op]
  refine ⟨by simp, fun _ => ⟨by simp, fun _ =>
    ⟨by simp, fun _ => .bind (.foldUpTo fun i chk _ => ?_) fun _ => ?_⟩⟩⟩
  all_goals simp

theorem deviceSysParaSave_solo : deviceSysParaSave.Only fun o => o.Plain ∧ o.Lockless := by
  unfold deviceSysParaSave
  refine .bind (by simp) fun _ => .bind ?_ fun data => ?_
  · exact .foldUpTo fun i data _ => by simp
  · simp

theorem saveIfChanged_solo : saveIfChanged.Only fun o => o.Plain ∧ o.Lockless := by
  unfold saveIfChanged
  refine .bind (.foldUpTo fun i changed _ => ?_) fun changed => ?_
  · simp
  · rw [only_ite]
    exact ⟨fun _ => deviceSysParaSave_solo, fun _ => .ret _⟩

theorem wifiSendPacketData_local (buf : List UInt8) : (wifiSendPacketData buf).Only Op.Local := by
  simp only [wifiSendPacketData, wifiSendData, undef, store, op_bind, ret_bind, only_op]
  refine ⟨by simp, fun _ => ⟨by simp, fun _ =>
    ⟨by simp, fun _ => .bind (.foldUpTo fun i chk _ => ?_) fun _ => ?_⟩⟩⟩
  all_goals simp

theorem returnCurrentDeviceState_local : returnCurrentDeviceState.Only Op.Local := by
  unfold returnCurrentDeviceState
  refine .bind (.foldUpTo fun i data _ => ?_) fun data => ?_
  · simp
  · simp [wifiSendPacketData_local]

section Plain

variable {α : Type} {p : Code α}

theorem local_plain (h : p.Only Op.Local) : p.Only Op.Plain := h.mono fun _ ho => ho.1

theorem solo_local (h : p.Only fun o => o.Local ∧ o.Lockless) : p.Only Op.Local :=
  h.mono fun _ => And.left

theorem setDcMotorSpeed_local (speed : UInt8) : (setDcMotorSpeed speed).Only Op.Local :=
  solo_local (setDcMotorSpeed_solo speed)

theorem backupWorkData_local : backupWorkData.Only Op.Local := solo_local backupWorkData_solo

theorem replyFramed_local (b : UInt8) (e : Nat) : (replyFramed b e).Only Op.Local :=
  solo_local (replyFramed_solo b e)

theorem ignoreReply_local (errorCode : eMBMasterReqErrCode) :
    (ignoreReply errorCode).Only Op.Local := solo_local (ignoreReply_solo errorCode)

theorem sendPacketData_local (buftmp : List UInt8) : (sendPacketData buftmp).Only Op.Local :=
  solo_local (sendPacketData_solo buftmp)

theorem dispBoardPacketData_local (len : Nat) : (dispBoardPacketData len).Only Op.Local :=
  solo_local (dispBoardPacketData_solo len)

theorem deviceSysParaSave_plain : deviceSysParaSave.Only Op.Plain :=
  deviceSysParaSave_solo.mono fun _ => And.left

theorem saveIfChanged_plain : saveIfChanged.Only Op.Plain :=
  saveIfChanged_solo.mono fun _ => And.left

theorem setDcMotorSpeed_plain (speed : UInt8) : (setDcMotorSpeed speed).Only Op.Plain :=
  local_plain (setDcMotorSpeed_local speed)

theorem backupWorkData_plain : backupWorkData.Only Op.Plain := local_plain backupWorkData_local

theorem ignoreReply_plain (errorCode : eMBMasterReqErrCode) :
    (ignoreReply errorCode).Only Op.Plain := local_plain (ignoreReply_local errorCode)

theorem sendPacketData_plain (buftmp : List UInt8) : (sendPacketData buftmp).Only Op.Plain :=
  local_plain (sendPacketData_local buftmp)

theorem dispBoardPacketData_plain (len : Nat) : (dispBoardPacketData len).Only Op.Plain :=
  local_plain (dispBoardPacketData_local len)

theorem replyFramed_plain (b : UInt8) (e : Nat) : (replyFramed b e).Only Op.Plain :=
  local_plain (replyFramed_local b e)

theorem wifiSendPacketData_plain (buf : List UInt8) : (wifiSendPacketData buf).Only Op.Plain :=
  local_plain (wifiSendPacketData_local buf)

theorem returnCurrentDeviceState_plain : returnCurrentDeviceState.Only Op.Plain :=
  local_plain returnCurrentDeviceState_local

end Plain

/-- The frame check only looks. -/
theorem wifiReceiveDataCheck_loads (len : UInt8) :
    (wifiReceiveDataCheck len).Only fun o => ∃ a, o = .load a := by
  have hsum : (checksumRecv (len.toNat - 4)).Only fun o => ∃ a, o = .load a :=
    .foldUpTo fun i chk _ => by simp
  unfold wifiReceiveDataCheck
  refine .bind (by simp) fun chkSrc => .bind (by simp) fun endCode =>
    .bind (by simp) fun b0 => (only_ite ..).mpr ⟨fun _ => ?_, fun _ => .ret _⟩
  refine .bind (by simp) fun b1 => (only_ite ..).mpr ⟨fun _ => ?_, fun _ => .ret _⟩
  exact .bind hsum fun chk => .ret _

/-! ## Settings and outputs -/

theorem acAcMotorSet_bare (mode : UInt8) : (acAcMotorSet mode).Only Op.Bare := by
  simp [acAcMotorSet]

theorem deviceSysParaGet_bare : deviceSysParaGet.Only Op.Bare := by
  unfold deviceSysParaGet
  refine .bind (by simp) fun flag => .bind ?_ fun _ => ?_
  · rw [only_when]
    exact fun _ => .forUpTo fun i _ => by simp
  · simp

theorem aircleanPowerOnoff_bare (mode : UInt8) :
    (aircleanPowerOnoff mode).Only Op.Bare := by
  unfold aircleanPowerOnoff
  rw [only_ite, only_ite]
  refine ⟨fun _ => .ret _, fun _ => ⟨fun _ => ?_, fun _ => ?_⟩⟩
  · refine .bind deviceSysParaGet_bare fun _ => ?_
    simp only [load, acEsdSet, acPhtSet, gpioWrite, op_bind, ret_bind, only_op]
    refine ⟨by simp, fun _ => ⟨by simp, fun _ => ?_⟩⟩
    refine ⟨by simp, fun _ => ⟨by simp, fun _ => ?_⟩⟩
    refine ⟨by simp, fun w => .bind (acAcMotorSet_bare w) fun _ => ?_⟩
    simp
  · refine .bind (deviceSysParaSave_solo.mono fun _ h => h.1.bare h.2) fun _ => ?_
    simp [acEsdSet, acPhtSet, acAcMotorSet]

theorem commandSwitch_bare (type data : UInt8) :
    (commandSwitch type data).Only Op.Bare := by
  unfold commandSwitch
  simp only [only_ite]
  refine ⟨fun _ => .bind ?_ fun _ => .ret _, fun _ => ⟨fun _ => ?_, fun _ => ⟨fun _ => ?_,
    fun _ => ⟨fun _ => ?_, fun _ => ⟨fun _ => ?_, fun _ => ⟨fun _ => ?_, fun _ => .ret _⟩⟩⟩⟩⟩⟩
  · have hstore : ∀ v, (Op.store (work 0) v).Bare := by simp
    exact (only_ite ..).mpr ⟨fun _ => .op (hstore _) fun _ => aircleanPowerOnoff_bare 1,
      fun _ => .op (hstore _) fun _ => aircleanPowerOnoff_bare 0⟩
  · exact .bind (by simp) fun _ => .ret _
  · simp
  · simp [acPhtSet]
  · simp
  · refine .bind (by simp) fun _ =>
      .bind ((setDcMotorSpeed_solo _).mono fun _ h => h.1.1.bare h.2) fun _ =>
      .bind (acAcMotorSet_bare _) fun _ => .ret _

theorem commandSwitch_control (type data : UInt8) : (commandSwitch type data).Only Op.Control :=
  (commandSwitch_bare type data).mono fun _ => And.left

theorem aircleanPowerOnoff_control (mode : UInt8) : (aircleanPowerOnoff mode).Only Op.Control :=
  (aircleanPowerOnoff_bare mode).mono fun _ => And.left

theorem takeDisplaySettings_control : takeDisplaySettings.Only Op.Control := by
  have hload : ∀ i, (Op.load (.ucMasterRTURcvBuf i)).Control := by simp
  have hstore : ∀ i v, (Op.store (work i) v).Control := by simp
  unfold takeDisplaySettings
  refine .bind (backupWorkData_plain.mono fun _ => Op.Plain.control) fun _ => ?_
  simp only [load, store, op_bind, ret_bind, only_op]
  refine ⟨hload 5, fun _ => ⟨hstore _ _, fun _ => ⟨by simp, fun m => .bind (by simp) fun _ => ?_⟩⟩⟩
  simp only [only_op]
  refine ⟨hload 9, fun _ => ⟨hstore _ _, fun _ => ⟨hload 30, fun f => .bind (by simp) fun _ => ?_⟩⟩⟩
  exact saveIfChanged_plain.mono fun _ => Op.Plain.control

/-! ## The control pass -/

/-- What the control pass does: it drives outputs and the motor's frame, and of
the settings it writes the wind speed only. -/
def Op.Drives : Op → Prop
  | .load a => ¬ a.Rx
  | .store (.deviceWorkData i) _ => i = Field.windSpeedState
  | .store (.deviceWorkDataAuto _) _ => True
  | .store (.rs485SendBufNotModbus _) _ => True
  | .gpioWrite _ _ => True
  | .mutexTake _ => True
  | .mutexRelease _ => True
  | _ => False

theorem Op.Drives.control {o : Op} (h : o.Drives) : o.Control := by
  cases o with
  | store a v => cases a <;> first | exact absurd h id | simp
  | load a => exact h
  | gpioWrite p on => trivial
  | mutexTake m => trivial
  | mutexRelease m => trivial
  | _ => exact absurd h id

attribute [local simp] Op.Drives

theorem setDcMotorSpeed_drives (speed : UInt8) : (setDcMotorSpeed speed).Only Op.Drives := by
  simp [setDcMotorSpeed]

theorem acAcMotorSet_drives (mode : UInt8) : (acAcMotorSet mode).Only Op.Drives := by
  simp [acAcMotorSet]

theorem aircleanMotorSet_drives (mode : UInt8) : (aircleanMotorSet mode).Only Op.Drives := by
  unfold aircleanMotorSet
  refine .bind (by simp) fun _ => .bind (by simp) fun _ =>
    .bind (by simp) fun w => .bind (acAcMotorSet_drives w) fun _ =>
    .bind (by simp) fun _ => .bind (by simp) fun w =>
    .bind (setDcMotorSpeed_drives w) fun _ => by simp

theorem driveAuto_drives (on speed : UInt8) : (driveAuto on speed).Only Op.Drives := by
  unfold driveAuto
  refine .bind (by simp [acEsdSet]) fun _ =>
    .bind (by simp [acPhtSet]) fun _ => .bind (aircleanMotorSet_drives speed) fun _ => ?_
  simp

theorem scanRooms_drives (p : UInt16 → UInt16 → Bool) : (scanRooms p).Only Op.Drives := by
  unfold scanRooms
  refine .foldUpTo fun i found _ => ?_
  simp [houseReading]

theorem autoHandle_drives : autoHandle.Only Op.Drives := by
  unfold autoHandle
  refine .bind (scanRooms_drives _) fun _ => (only_ite ..).mpr ⟨fun _ => driveAuto_drives 1 3, fun _ => ?_⟩
  refine .bind (scanRooms_drives _) fun _ => (only_ite ..).mpr ⟨fun _ => driveAuto_drives 1 2, fun _ => ?_⟩
  refine .bind (scanRooms_drives _) fun _ => (only_ite ..).mpr ⟨fun _ => driveAuto_drives 0 0, fun _ => ?_⟩
  exact .bind (scanRooms_drives _) fun _ =>
    (only_ite ..).mpr ⟨fun _ => driveAuto_drives 1 1, fun _ => driveAuto_drives 0 0⟩

theorem manualHandle_drives (pre : UInt8) : (manualHandle pre).Only Op.Drives := by
  have hmotor := aircleanMotorSet_drives
  unfold manualHandle
  refine (only_ite ..).mpr ⟨fun _ => ?_, fun _ => ?_⟩
  · exact .bind (by simp [acEsdSet]) fun _ =>
      .bind (by simp [acPhtSet]) fun _ => hmotor 1
  · refine .bind (by simp) fun hp => .bind (by simp [acEsdSet]) fun _ =>
      .bind (by simp) fun pht => .bind (by simp [acPhtSet]) fun _ =>
      .bind (by simp) fun w => .bind ((only_when ..).mpr fun _ => hmotor 1) fun _ =>
      .bind (by simp) fun w => hmotor w

theorem aircleanWorkAutoHandle_drives : aircleanWorkAutoHandle.Only Op.Drives := by
  unfold aircleanWorkAutoHandle
  refine .bind (by simp) fun power =>
    (only_ite ..).mpr ⟨fun _ => ?_, fun _ => .ret _⟩
  refine .bind (by simp) fun mode =>
    (only_ite ..).mpr ⟨fun _ => autoHandle_drives, fun _ => ?_⟩
  exact .bind (by simp) fun mode =>
    (only_ite ..).mpr ⟨fun _ => manualHandle_drives _, fun _ => .ret _⟩

/-! ## The monitor and the fault checks -/

theorem powerMonitorCount_bare : powerMonitorCount.Only Op.Bare := by
  unfold powerMonitorCount
  refine .bind (by simp) fun pre => .bind ?_ fun _ => by simp
  simp

theorem powerMonitorCount_control : powerMonitorCount.Only Op.Control :=
  powerMonitorCount_bare.mono fun _ => And.left

theorem sampleFault_bare (b : FaultBit) (p : InPin) : (sampleFault b p).Only Op.Bare := by
  simp [sampleFault, stateGet, faultSetBit]

theorem sampleFault_control (b : FaultBit) (p : InPin) : (sampleFault b p).Only Op.Control :=
  (sampleFault_bare b p).mono fun _ => And.left

/-! ## Requests and commands -/

/-- The command switch without forwarding. -/
theorem applyCommand_bare (request : Nat → Code eMBMasterReqErrCode) (type data : UInt8) :
    (applyCommand request type data 0).Only Op.Bare := by
  unfold applyCommand
  refine .bind (backupWorkData_solo.mono fun _ h => h.1.1.bare h.2) fun _ =>
    .bind (commandSwitch_bare _ _) fun known => (only_ite ..).mpr ⟨fun _ => ?_, fun _ => .ret _⟩
  exact .bind (.ret _) fun _ => saveIfChanged_solo.mono fun _ h => h.1.bare h.2

theorem applyCommand_control (request : Nat → Code eMBMasterReqErrCode) (type data : UInt8) :
    (applyCommand request type data 0).Only Op.Control :=
  (applyCommand_bare request type data).mono fun _ => And.left

section Requests

variable {P : Op → Prop} {request : Nat → Code eMBMasterReqErrCode}
  (hreq : ∀ n, n ≤ 33 → (request n).Only P)
include hreq

/-- No frame is longer than 33 bytes. Forwarding a command is local but for its request. -/
theorem setDispboardFunctionMode_only (hP : ∀ o, o.Local → P o) (type mode : UInt8) :
    (setDispboardFunctionMode request type mode).Only P := by
  have hlocal : ∀ {α : Type} {p : Code α}, p.Only Op.Local → p.Only P := fun h => h.mono hP
  unfold setDispboardFunctionMode
  refine .bind (hlocal (by simp)) fun t1 =>
    .bind (hlocal (by simp)) fun t2 =>
    .bind (hlocal (by simp)) fun _ => .bind (hlocal (sendPacketData_local _)) fun _ =>
    .bind (hlocal (by simp)) fun _ => .bind (hreq 7 (by decide)) fun code =>
    .bind (hlocal (ignoreReply_local code)) fun _ => hlocal (by simp)

/-- So is sending the settings. -/
theorem setDisplayBoardData_only (hP : ∀ o, o.Local → P o) :
    (setDisplayBoardData request).Only P := by
  have hlocal : ∀ {α : Type} {p : Code α}, p.Only Op.Local → p.Only P := fun h => h.mono hP
  unfold setDisplayBoardData
  refine .bind (hlocal (by simp)) fun _ =>
    .bind (hlocal (dispBoardPacketData_local 29)) fun _ =>
    .bind (hlocal (by simp)) fun _ => .bind (hreq 33 (by decide)) fun code =>
    .bind (hlocal (ignoreReply_local code)) fun _ => hlocal (by simp)

theorem applyCommand_only (hP : ∀ o, o.Control → P o) (type data signalCh : UInt8) :
    (applyCommand request type data signalCh).Only P := by
  have hplain : ∀ o, o.Plain → P o := fun o h => hP o h.control
  unfold applyCommand
  refine .bind (backupWorkData_plain.mono hplain) fun _ =>
    .bind ((commandSwitch_control _ _).mono hP) fun known => ?_
  rw [only_ite]
  refine ⟨fun _ => .bind ?_ fun _ => saveIfChanged_plain.mono hplain, fun _ => .ret _⟩
  rw [only_when]
  exact fun _ => setDispboardFunctionMode_only hreq (fun o h => hplain o h.1) _ _

theorem setDeviceWorkMode_only (hP : ∀ o, o.Control → P o) (type data signalCh : UInt8)
    (hnote : P (.note (.setDeviceWorkMode type data signalCh))) :
    (setDeviceWorkMode request type data signalCh).Only P := by
  have happly := applyCommand_only hreq hP type data signalCh
  have hload : ∀ i, P (.load (work i)) := fun i => hP _ (by simp)
  unfold setDeviceWorkMode
  simp [hnote, hload, happly]

theorem handleDisplayReply_only (hP : ∀ o, o.Control → P o)
    (hnote : ∀ type data, P (.note (.setDeviceWorkMode type data 0))) :
    (handleDisplayReply request).Only P := by
  have hframed : ∀ b e, (replyFramed b e).Only P := fun b e =>
    (replyFramed_plain b e).mono fun _ h => hP _ h.control
  have hwork := fun type data => setDeviceWorkMode_only hreq hP type data 0 (hnote type data)
  have hload : ∀ i, P (.load (.ucMasterRTURcvBuf i)) := fun i => hP _ (by simp)
  unfold handleDisplayReply
  refine .bind (hframed _ _) fun f2 =>
    (only_ite ..).mpr ⟨fun _ => takeDisplaySettings_control.mono hP, fun _ => ?_⟩
  refine .bind (hframed _ _) fun f1 => (only_ite ..).mpr ⟨fun _ => ?_, fun _ => .ret _⟩
  simp [takeDisplayKey, hwork, hload]

theorem getDisplayBoardData_only (hP : ∀ o, o.Control → P o)
    (hnote : ∀ type data, P (.note (.setDeviceWorkMode type data 0))) :
    (getDisplayBoardData request).Only P := by
  have hcontrol : ∀ {α : Type} {p : Code α}, p.Only Op.Control → p.Only P := fun h => h.mono hP
  have hhandle := handleDisplayReply_only hreq hP hnote
  have hrelease : P (.mutexRelease .modbus) := hP _ trivial
  unfold getDisplayBoardData
  refine .bind (hcontrol (by simp)) fun _ => .bind (hcontrol (by simp)) fun _ =>
    .bind (hcontrol (by simp)) fun _ => .bind (hcontrol (by simp)) fun _ =>
    .bind (hcontrol (by simp)) fun _ => .bind (hcontrol (by simp)) fun _ =>
    .bind (hcontrol (by simp)) fun _ => .bind (hcontrol (by simp)) fun _ =>
    .bind (hcontrol (by simp)) fun _ => .bind (hreq 7 (by decide)) fun code => ?_
  exact .bind ((only_when ..).mpr fun _ => hhandle) fun _ => by simp [hrelease]

theorem setDcMotor_only (hP : ∀ o, o.Control → P o) : (setDcMotor request).Only P := by
  have hcontrol : ∀ {α : Type} {p : Code α}, p.Only Op.Control → p.Only P := fun h => h.mono hP
  have hspeed : ∀ speed, (setDcMotorSpeed speed).Only P := fun speed =>
    (setDcMotorSpeed_plain speed).mono fun _ h => hP _ h.control
  have hload : ∀ i, P (.load (work i)) := fun i => hP _ (by simp)
  unfold setDcMotor
  refine .bind (by simp [hload]) fun power => .bind ?_ fun _ =>
    .bind (hcontrol (by simp)) fun _ => .bind (hreq 5 (by decide)) fun code => hcontrol ?_
  · simp [hload, hspeed]
  · simp [faultSetBit]

theorem threadEntryPowerMonitor_only (hP : ∀ o, o.Control → P o) (dCmdPower : UInt8) :
    (threadEntryPowerMonitor request dCmdPower).Only P := by
  have hcontrol : ∀ {α : Type} {p : Code α}, p.Only Op.Control → p.Only P := fun h => h.mono hP
  have hmode := setDispboardFunctionMode_only hreq (fun o h => hP o h.1.control) dCmdPower 0
  unfold threadEntryPowerMonitor
  refine .bind (hcontrol powerMonitorCount_control) fun _ => .bind (hcontrol (by simp)) fun cnt =>
    .bind (hcontrol (by simp)) fun pre => .bind (hcontrol (by simp)) fun _ =>
    .bind (hcontrol (by simp)) fun cnt => .bind (hcontrol (by simp)) fun tm =>
    (only_ite ..).mpr ⟨fun _ => ?_, fun _ => ?_⟩
  · refine .bind (hcontrol (by simp)) fun _ => .bind (hcontrol (by simp)) fun _ =>
      .bind (hcontrol (by simp)) fun _ => .bind (hcontrol (by simp)) fun _ => ?_
    exact .bind hmode fun _ => hcontrol (aircleanPowerOnoff_control 0)
  · exact aircleanWorkAutoHandle_drives.mono fun o h => hP o h.control

theorem rtCheckExDevice_only (hP : ∀ o, o.Control → P o) : (rtCheckExDevice request).Only P := by
  have hcontrol : ∀ {α : Type} {p : Code α}, p.Only Op.Control → p.Only P := fun h => h.mono hP
  have hsample : ∀ b p, (sampleFault b p).Only P := fun b p => hcontrol (sampleFault_control b p)
  have hdisplay := setDisplayBoardData_only hreq fun o h => hP o h.1.control
  unfold rtCheckExDevice
  refine .bind (hcontrol (by simp)) fun power =>
    (only_ite ..).mpr ⟨fun _ => ?_, fun _ => hcontrol (by simp)⟩
  refine .bind (hcontrol (by simp)) fun pht => .bind ((only_when ..).mpr fun _ => hsample _ _) fun _ =>
    .bind (hsample _ _) fun _ => .bind (hsample _ _) fun _ => .bind (hsample _ _) fun _ =>
    .bind (hsample _ _) fun _ => .bind (hcontrol (by simp)) fun pre =>
    .bind (hcontrol (by simp)) fun f => (only_ite ..).mpr ⟨fun _ => ?_, fun _ => .ret _⟩
  exact .bind (hcontrol (by simp)) fun f => .bind ((only_when ..).mpr fun _ => hdisplay) fun _ =>
    hcontrol (by simp)

omit hreq in
theorem sensorRead_only (hask : ∀ k, (request k).Only P) (hP : ∀ o, o.Control → P o) (i : Nat) :
    (sensorRead request i).Only P := by
  have hcontrol : ∀ {α : Type} {p : Code α}, p.Only Op.Control → p.Only P := fun h => h.mono hP
  unfold sensorRead
  refine .bind (hcontrol (by simp)) fun _ => .bind (hask _) fun code =>
    .bind (hcontrol ?_) fun _ => hcontrol (by simp)
  simp [storeField16]

end Requests

end Aclean
