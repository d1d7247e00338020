import Aclean.MasterStage

/-!
# Whose answer is in the receive buffer

From clearing the master's receive buffer to the last byte it looks at a
requester is busy with the buffer. The display board's functions and the sensor
loop are so with `modbus_mutex` in hand, `set_dc_motor` without it. Where a
thread is in this is told by its own operations; the walks show that the control
code looks at the buffer only behind its own request, and only at places that
the receiver fills.
-/

namespace Aclean

open Prog

/-! ## Places -/

/-- Where a thread is with the receive buffer; `bus` tells whether it has
`modbus_mutex`. -/
inductive Ask where
  /-- The poll thread and the transmit thread. -/
  | serving
  | away
  | holding
  | cleared (bus : Bool)
  | waiting (bus : Bool)
  | reading
  /-- `set_dc_motor`, about to look at byte `i`. -/
  | readingMotor (i : Nat)
  deriving DecidableEq, Repr

namespace Ask

/-- With `modbus_mutex`. -/
def Locked : Ask → Prop
  | holding | cleared true | waiting true | reading => True
  | _ => False

/-- Between clearing the buffer and the last byte looked at. -/
def Busy : Ask → Prop
  | cleared _ | waiting _ | reading | readingMotor _ => True
  | _ => False

/-- The answer, as far as it has come in, is this thread's. -/
def Hears : Ask → Prop
  | waiting _ | reading | readingMotor _ => True
  | _ => False

instance : DecidablePred Locked := fun l => by unfold Locked; split <;> infer_instance

instance : DecidablePred Busy := fun l => by unfold Busy; split <;> infer_instance

/-- `set_dc_motor` looks at the first two bytes, and if they are right at the fourth. -/
def motorNext (i : Nat) (v : UInt8) : Ask :=
  if i = 0 ∧ v = 0xBC then readingMotor 1 else if i = 1 ∧ v = 0x07 then readingMotor 3 else away

/-- The request has ended; `set_dc_motor` goes on only after `MB_MRE_REV_DATA`. -/
def told (bus : Bool) (errorCode : eMBMasterReqErrCode) : Ask :=
  if bus then reading else if errorCode = .revData then readingMotor 0 else away

def okOp (l : Ask) : Op → Prop
  | .mutexTake .modbus => l = away
  | .mutexRelease .modbus => l = holding ∨ l = reading
  | .store (.ucMasterRTURcvBuf _) _ => l = away ∨ l = holding
  | .load (.ucMasterRTURcvBuf i) => l = serving ∨ (l = reading ∨ l = readingMotor i) ∧ i < 256
  | .exchange _ => ∃ bus, l = cleared bus
  | .exchangeHold _ => l = holding
  | _ => True

def nextOp (l : Ask) : (o : Op) → Ar o → Ask
  | .mutexTake .modbus, _ => holding
  | .mutexRelease .modbus, _ => away
  | .store (.ucMasterRTURcvBuf _) _, _ => cleared (l == holding)
  | .load (.ucMasterRTURcvBuf i), v =>
      match l with
      | readingMotor _ => motorNext i v
      | _ => l
  | .exchange _, errorCode =>
      match l with
      | cleared bus => told bus errorCode
      | _ => l
  | .exchangeHold _, errorCode => if errorCode = .illArg then l else reading
  | _, _ => l

def ok (l : Ask) : BusOp → Prop
  | .board (.exchange _) => False
  | .board (.exchangeHold _) => False
  | .board o => l.okOp o
  | .runResTake => l = holding ∨ ∃ bus, l = cleared bus
  | .eventRecv set => set = finishEvents → ∃ bus, l = waiting bus
  | _ => True

def next (l : Ask) : (o : BusOp) → BusAr o → Ask
  | .board o, a => l.nextOp o a
  | .runResTake, _ =>
      match l with
      | cleared bus => waiting bus
      | _ => waiting true
  | .eventRecv set, es =>
      match l with
      | waiting bus => if set = finishEvents then told bus (finishCode es) else l
      | _ => l
  | _, _ => l

end Ask

theorem Ask.next_told (bus : Bool) (es : List MasterEvent) :
    (Ask.waiting bus).next (.eventRecv finishEvents) es = Ask.told bus (finishCode es) := by
  simp only [Ask.next, if_true]

def askBoard : Discipline Op Ar Ask where
  ok := Ask.okOp
  answers _ _ _ := True
  next := Ask.nextOp

def askBus : Discipline BusOp BusAr Ask where
  ok := Ask.ok
  answers _ _ _ := True
  next := Ask.next

/-! ## Operations that have nothing to do with it -/

/-- Neither `modbus_mutex` nor the receive buffer, and no request. -/
def Op.Aside : Op → Prop
  | .mutexTake m => m ≠ .modbus
  | .mutexRelease m => m ≠ .modbus
  | .load (.ucMasterRTURcvBuf _) => False
  | .store (.ucMasterRTURcvBuf _) _ => False
  | .exchange _ => False
  | .exchangeHold _ => False
  | _ => True

theorem Op.Aside.keeps {o : Op} (h : o.Aside) (l : Ask) :
    l.okOp o ∧ ∀ a, l.nextOp o a = l := by
  cases o with
  | mutexTake m =>
      cases m with
      | modbus => exact absurd rfl h
      | _ => exact ⟨trivial, fun _ => rfl⟩
  | mutexRelease m =>
      cases m with
      | modbus => exact absurd rfl h
      | _ => exact ⟨trivial, fun _ => rfl⟩
  | load a =>
      cases a with
      | ucMasterRTURcvBuf i => exact absurd h id
      | _ => exact ⟨trivial, fun _ => rfl⟩
  | store a v =>
      cases a with
      | ucMasterRTURcvBuf i => exact absurd h id
      | _ => exact ⟨trivial, fun _ => rfl⟩
  | exchange len => exact absurd h id
  | exchangeHold k => exact absurd h id
  | _ => exact ⟨trivial, fun _ => rfl⟩

section Aside

variable {l : Ask}

theorem aside_keeps {α : Type} {p : Code α} (h : p.Only Op.Aside) : askBoard.Keeps p l :=
  .of_only h fun _ ho => ⟨(ho.keeps l).1, fun a _ => (ho.keeps l).2 a⟩

attribute [local simp] Op.Aside

theorem setDcMotorSpeed_aside (speed : UInt8) : (setDcMotorSpeed speed).Only Op.Aside := by
  simp [setDcMotorSpeed]

theorem faultSetBit_aside (b : FaultBit) (v : UInt8) : (faultSetBit b v).Only Op.Aside := by
  simp [faultSetBit]

theorem acAcMotorSet_aside (mode : UInt8) : (acAcMotorSet mode).Only Op.Aside := by
  simp [acAcMotorSet]

theorem backupWorkData_aside : backupWorkData.Only Op.Aside := by
  unfold backupWorkData
  exact .forUpTo fun i _ => by simp

theorem deviceSysParaGet_aside : deviceSysParaGet.Only Op.Aside := by
  unfold deviceSysParaGet
  refine .bind (by simp) fun flag =>
    .bind ((only_when ..).mpr fun _ => .forUpTo fun i _ => ?_) fun _ => ?_
  · simp
  · simp

theorem deviceSysParaSave_aside : deviceSysParaSave.Only Op.Aside := by
  unfold deviceSysParaSave
  refine .bind (by simp) fun _ => .bind (.foldUpTo fun i data _ => ?_) fun data => ?_
  · simp
  · simp

theorem saveIfChanged_aside : saveIfChanged.Only Op.Aside := by
  unfold saveIfChanged
  refine .bind (.foldUpTo fun i changed _ => ?_) fun changed => ?_
  · simp
  · exact (only_ite ..).mpr ⟨fun _ => deviceSysParaSave_aside, fun _ => .ret _⟩

theorem aircleanPowerOnoff_aside (mode : UInt8) : (aircleanPowerOnoff mode).Only Op.Aside := by
  unfold aircleanPowerOnoff
  refine (only_ite ..).mpr ⟨fun _ => .ret _, fun _ => (only_ite ..).mpr ⟨fun _ => ?_, fun _ => ?_⟩⟩
  · refine .bind deviceSysParaGet_aside fun _ => .act trivial fun hp => .act trivial fun _ =>
      .act trivial fun pht => .act trivial fun _ => .act trivial fun w => ?_
    exact .bind (acAcMotorSet_aside w) fun _ => .op trivial fun _ => .ret _
  · refine .bind deviceSysParaSave_aside fun _ => ?_
    simp [acEsdSet, acPhtSet, acAcMotorSet]

theorem commandSwitch_aside (type data : UInt8) : (commandSwitch type data).Only Op.Aside := by
  unfold commandSwitch
  simp only [only_ite]
  refine ⟨fun _ => .bind ?_ fun _ => .ret _, fun _ => ⟨fun _ => ?_, fun _ => ⟨fun _ => ?_,
    fun _ => ⟨fun _ => ?_, fun _ => ⟨fun _ => ?_, fun _ => ⟨fun _ => ?_, fun _ => .ret _⟩⟩⟩⟩⟩⟩
  · exact (only_ite ..).mpr ⟨fun _ => .op trivial fun _ => aircleanPowerOnoff_aside 1,
      fun _ => .op trivial fun _ => aircleanPowerOnoff_aside 0⟩
  · exact .bind (by simp) fun _ => .ret _
  · simp
  · simp [acPhtSet]
  · simp
  · exact .bind (by simp) fun _ => .bind (setDcMotorSpeed_aside _) fun _ =>
      .bind (acAcMotorSet_aside _) fun _ => .ret _

theorem sendPacketData_aside (buftmp : List UInt8) : (sendPacketData buftmp).Only Op.Aside := by
  unfold sendPacketData
  refine .act trivial fun _ => .act trivial fun _ => .act trivial fun _ =>
    .bind (.foldUpTo fun i chk _ => ?_) fun chk => ?_
  · simp
  · simp

theorem dispBoardPacketData_aside (len : Nat) : (dispBoardPacketData len).Only Op.Aside := by
  unfold dispBoardPacketData
  refine .bind (.foldUpTo fun i data _ => by simp) fun data =>
    .bind (.foldUpTo fun i rest _ => by simp) fun rest => ?_
  refine .act trivial fun _ => .act trivial fun _ => .act trivial fun _ =>
    .bind (.foldUpTo fun i chk _ => ?_) fun chk => ?_
  · simp
  · simp

theorem powerMonitorCount_aside : powerMonitorCount.Only Op.Aside := by
  unfold powerMonitorCount
  refine .bind (by simp) fun pre => .bind ?_ fun _ => by simp
  simp

theorem sampleFault_aside (b : FaultBit) (p : InPin) : (sampleFault b p).Only Op.Aside := by
  simp [sampleFault, stateGet, faultSetBit]

theorem scanRooms_aside (p : UInt16 → UInt16 → Bool) : (scanRooms p).Only Op.Aside := by
  refine .foldUpTo fun i found _ => ?_
  simp [houseReading]

/-! ## The control code's requests -/

theorem replyFramed_reading (b : UInt8) {e : Nat} (he : e < 256) :
    askBoard.Keeps (replyFramed b e) .reading := by
  have hload : ∀ i, i < 256 → Ask.okOp .reading (.load (.ucMasterRTURcvBuf i)) :=
    fun i hi => .inr ⟨.inl rfl, hi⟩
  unfold replyFramed
  refine .act (hload 0 (by decide)) fun b0 _ => .ite (fun _ => ?_) fun _ => .ret rfl
  refine .act (hload 1 (by decide)) fun b1 _ => .ite (fun _ => ?_) fun _ => .ret rfl
  exact .act (hload e he) fun be _ => .ret rfl

theorem ignoreReply_reading (errorCode : eMBMasterReqErrCode) :
    askBoard.Keeps (ignoreReply errorCode) .reading :=
  .when fun _ => (replyFramed_reading 0xF2 (by decide)).andThen fun _ => .ret rfl

theorem setDispboardFunctionMode_asks (type mode : UInt8) :
    askBoard.Keeps (setDispboardFunctionMode exchange type mode) .away := by
  unfold setDispboardFunctionMode
  refine .act trivial fun t1 _ => .act trivial fun t2 _ => .act rfl fun _ _ => ?_
  refine (aside_keeps (sendPacketData_aside _)).andThen fun _ => .act (.inr rfl) fun _ _ =>
    .act ⟨true, rfl⟩ fun errorCode _ => ?_
  exact (ignoreReply_reading errorCode).andThen fun _ => .op (.inr rfl) fun _ _ => .ret rfl

theorem setDisplayBoardData_asks : askBoard.Keeps (setDisplayBoardData exchange) .away := by
  unfold setDisplayBoardData
  refine .act rfl fun _ _ => (aside_keeps (dispBoardPacketData_aside 29)).andThen fun _ =>
    .act (.inr rfl) fun _ _ => .act ⟨true, rfl⟩ fun errorCode _ => ?_
  exact (ignoreReply_reading errorCode).andThen fun _ => .op (.inr rfl) fun _ _ => .ret rfl

/-- The one request without `modbus_mutex`. -/
theorem setDcMotor_asks : askBoard.Keeps (setDcMotor exchange) .away := by
  have hspeed : ∀ speed, askBoard.Keeps (setDcMotorSpeed speed) .away := fun speed =>
    aside_keeps (setDcMotorSpeed_aside speed)
  have hfault : ∀ v, askBoard.Keeps (faultSetBit .motor v) .away := fun v =>
    aside_keeps (faultSetBit_aside .motor v)
  unfold setDcMotor
  refine .act trivial fun power _ => Discipline.Keeps.andThen (.ite (fun _ => hspeed 0) fun _ => ?_)
    fun _ => .act (.inl rfl) fun _ _ => .act ⟨false, rfl⟩ fun errorCode _ => ?_
  · exact .act trivial fun w _ => hspeed w
  · show askBoard.Follows _ _ (if errorCode = .revData then Ask.readingMotor 0 else .away)
    by_cases hrev : errorCode = .revData
    · rw [if_pos hrev, if_pos hrev]
      refine .act (.inr ⟨.inr rfl, by decide⟩) fun b0 _ => ?_
      show askBoard.Follows _ _ (Ask.motorNext 0 b0)
      by_cases h0 : b0 = 0xBC
      · rw [if_pos h0, h0]
        refine .act (.inr ⟨.inr rfl, by decide⟩) fun b1 _ => ?_
        show askBoard.Follows _ _ (Ask.motorNext 1 b1)
        by_cases h1 : b1 = 0x07
        · rw [if_pos h1, h1]
          refine .act (.inr ⟨.inr rfl, by decide⟩) fun tmp _ => ?_
          exact Discipline.Keeps.ite (fun _ => hfault 1) fun _ => hfault 0
        · rw [if_neg h1]
          exact .ret (by simp [Ask.motorNext, h1])
      · rw [if_neg h0]
        exact .ret (by simp [Ask.motorNext, h0])
    · rw [if_neg hrev, if_neg hrev]
      exact .ret rfl

theorem sensorRead_asks (i : Nat) : askBoard.Keeps (sensorRead exchangeHold i) .away := by
  have hstored : ∀ errorCode : eMBMasterReqErrCode, (Prog.when (errorCode = .noErr) do
      let co2 ← loadHoldBuf (10 + i) 0
      storeField16 (Field.houseDataStart + 4 * i + 2) (sw16 co2)
      let pm25 ← loadHoldBuf (10 + i) 1
      storeField16 (Field.houseDataStart + 4 * i) (sw16 pm25)).Only Op.Aside := by
    intro errorCode
    simp [storeField16, Op.Aside]
  unfold sensorRead
  refine .act rfl fun _ _ => .act rfl fun errorCode _ => ?_
  show askBoard.Follows _ _ (if errorCode = .illArg then Ask.holding else .reading)
  by_cases hill : errorCode = .illArg
  · rw [if_pos hill]
    exact (aside_keeps (hstored errorCode)).andThen fun _ => .op (.inl rfl) fun _ _ => .ret rfl
  · rw [if_neg hill]
    exact (aside_keeps (hstored errorCode)).andThen fun _ => .op (.inr rfl) fun _ _ => .ret rfl

/-- A command is forwarded only if it came from WiFi. -/
theorem setDeviceWorkMode_asks (type data signalCh : UInt8) (hl : signalCh = 1 → l = .away) :
    askBoard.Keeps (setDeviceWorkMode exchange type data signalCh) l := by
  have happly : askBoard.Keeps (applyCommand exchange type data signalCh) l := by
    have hforward : askBoard.Keeps
        (Prog.when (signalCh = 1) (setDispboardFunctionMode exchange type data)) l :=
      .when fun h => by
        rw [hl h]
        exact setDispboardFunctionMode_asks type data
    unfold applyCommand
    refine (aside_keeps backupWorkData_aside).bind fun _ =>
      (aside_keeps (commandSwitch_aside _ _)).bind fun known => .ite (fun _ => ?_) fun _ => .ret rfl
    exact hforward.bind fun _ => aside_keeps saveIfChanged_aside
  unfold setDeviceWorkMode
  refine .act trivial fun _ _ => .ite (fun _ => ?_) fun _ => happly
  refine .act trivial fun mode _ => .ite (fun _ => .ret rfl) fun _ => ?_
  exact .act trivial fun power _ => .ite (fun _ => .ret rfl) fun _ => happly

theorem takeDisplaySettings_reading : askBoard.Keeps takeDisplaySettings .reading := by
  have hload : ∀ i, i < 256 → Ask.okOp .reading (.load (.ucMasterRTURcvBuf i)) :=
    fun i hi => .inr ⟨.inl rfl, hi⟩
  unfold takeDisplaySettings
  refine (aside_keeps backupWorkData_aside).andThen fun _ => .act (hload 5 (by decide)) fun m _ =>
    .act trivial fun _ _ => .act trivial fun m _ =>
      Discipline.Keeps.andThen (.when fun _ => ?_) fun _ => ?_
  · refine .act (hload 6 (by decide)) fun w _ => .act trivial fun _ _ => ?_
    refine .act (hload 7 (by decide)) fun hp _ => .act trivial fun _ _ => ?_
    exact .act (hload 8 (by decide)) fun pht _ => .op trivial fun _ _ => .ret rfl
  · refine .act (hload 9 (by decide)) fun tm _ => .act trivial fun _ _ =>
      .act (hload 30 (by decide)) fun f _ =>
        Discipline.Keeps.andThen (.when fun _ => ?_) fun _ => ?_
    · exact .op trivial fun _ _ => .ret rfl
    · exact aside_keeps saveIfChanged_aside

theorem takeDisplayKey_reading : askBoard.Keeps (takeDisplayKey exchange) .reading := by
  have hload : ∀ i, i < 256 → Ask.okOp .reading (.load (.ucMasterRTURcvBuf i)) :=
    fun i hi => .inr ⟨.inl rfl, hi⟩
  unfold takeDisplayKey
  refine .act (hload 2 (by decide)) fun b _ => .ite (fun _ => ?_) fun _ => .ret rfl
  refine .act (hload 2 (by decide)) fun b _ => .ite (fun _ => ?_) fun _ => .ret rfl
  exact .act (hload 2 (by decide)) fun type _ => .act (hload 4 (by decide)) fun data _ =>
    setDeviceWorkMode_asks type data 0 fun h => absurd h (by decide)

theorem getDisplayBoardData_asks : askBoard.Keeps (getDisplayBoardData exchange) .away := by
  have hreply : askBoard.Keeps (handleDisplayReply exchange) .reading := by
    unfold handleDisplayReply
    refine (replyFramed_reading _ (by decide)).bind fun f2 =>
      .ite (fun _ => takeDisplaySettings_reading) fun _ => ?_
    exact (replyFramed_reading _ (by decide)).bind fun f1 =>
      .ite (fun _ => takeDisplayKey_reading) fun _ => .ret rfl
  unfold getDisplayBoardData
  refine .act rfl fun _ _ => .act trivial fun _ _ => .act trivial fun _ _ => .act trivial fun _ _ =>
    .act trivial fun _ _ => .act trivial fun _ _ => .act trivial fun _ _ =>
      .act trivial fun _ _ => ?_
  refine .act (.inr rfl) fun _ _ => .act ⟨true, rfl⟩ fun errorCode _ => ?_
  exact Discipline.Keeps.andThen (.when fun _ => hreply) fun _ => .op (.inr rfl) fun _ _ => .ret rfl

/-! ## The periodic passes -/

theorem aircleanMotorSet_asks (mode : UInt8) : askBoard.Keeps (aircleanMotorSet mode) .away := by
  unfold aircleanMotorSet
  refine .act trivial fun _ _ => .act trivial fun _ _ => .act trivial fun w _ =>
    (aside_keeps (acAcMotorSet_aside w)).andThen fun _ => .act rfl fun _ _ =>
    .act trivial fun w _ => (aside_keeps (setDcMotorSpeed_aside w)).andThen fun _ => ?_
  exact .act (.inl rfl) fun _ _ => .op trivial fun _ _ => .ret rfl

theorem driveAuto_asks (on speed : UInt8) : askBoard.Keeps (driveAuto on speed) .away := by
  unfold driveAuto
  refine .act trivial fun _ _ => .act trivial fun _ _ =>
    (aircleanMotorSet_asks speed).andThen fun _ => ?_
  exact .act trivial fun _ _ => .act trivial fun _ _ => .op trivial fun _ _ => .ret rfl

theorem autoHandle_asks : askBoard.Keeps autoHandle .away := by
  have hscan : ∀ p, askBoard.Keeps (scanRooms p) .away := fun p => aside_keeps (scanRooms_aside p)
  unfold autoHandle
  refine (hscan _).bind fun _ => .ite (fun _ => driveAuto_asks 1 3) fun _ => ?_
  refine (hscan _).bind fun _ => .ite (fun _ => driveAuto_asks 1 2) fun _ => ?_
  refine (hscan _).bind fun _ => .ite (fun _ => driveAuto_asks 0 0) fun _ => ?_
  exact (hscan _).bind fun _ => .ite (fun _ => driveAuto_asks 1 1) fun _ => driveAuto_asks 0 0

theorem manualHandle_asks (pre : UInt8) : askBoard.Keeps (manualHandle pre) .away := by
  unfold manualHandle
  refine .ite (fun _ => ?_) fun _ => ?_
  · exact .act trivial fun _ _ => .act trivial fun _ _ => aircleanMotorSet_asks 1
  · refine .act trivial fun hp _ => .act trivial fun _ _ => .act trivial fun pht _ =>
      .act trivial fun _ _ => .act trivial fun w _ =>
      Discipline.Keeps.andThen (.when fun _ => aircleanMotorSet_asks 1) fun _ => ?_
    exact .act trivial fun w _ => aircleanMotorSet_asks w

theorem aircleanWorkAutoHandle_asks : askBoard.Keeps aircleanWorkAutoHandle .away := by
  unfold aircleanWorkAutoHandle
  refine .act trivial fun power _ => .ite (fun _ => ?_) fun _ => .ret rfl
  refine .act trivial fun mode _ => .ite (fun _ => autoHandle_asks) fun _ => ?_
  exact .act trivial fun mode _ => .ite (fun _ => manualHandle_asks _) fun _ => .ret rfl

theorem threadEntryPowerMonitor_asks (dCmdPower : UInt8) :
    askBoard.Keeps (threadEntryPowerMonitor exchange dCmdPower) .away := by
  unfold threadEntryPowerMonitor
  refine (aside_keeps powerMonitorCount_aside).andThen fun _ => .act trivial fun cnt _ =>
    .act trivial fun pre _ => Discipline.Keeps.andThen (.when fun _ => ?_) fun _ => ?_
  · exact .act trivial fun tm _ => .op trivial fun _ _ => .ret rfl
  · refine .act trivial fun cnt _ => .act trivial fun tm _ => .ite (fun _ => ?_) fun _ => ?_
    · refine .act trivial fun _ _ => .act trivial fun _ _ => .act trivial fun _ _ =>
        .act trivial fun _ _ => (setDispboardFunctionMode_asks dCmdPower 0).andThen fun _ => ?_
      exact aside_keeps (aircleanPowerOnoff_aside 0)
    · exact aircleanWorkAutoHandle_asks

theorem rtCheckExDevice_asks : askBoard.Keeps (rtCheckExDevice exchange) .away := by
  have hsample : ∀ b p, askBoard.Keeps (sampleFault b p) .away := fun b p =>
    aside_keeps (sampleFault_aside b p)
  unfold rtCheckExDevice
  refine .act trivial fun power _ => .ite (fun _ => ?_) fun _ => .op trivial fun _ _ => .ret rfl
  refine .act trivial fun pht _ => Discipline.Keeps.andThen (.when fun _ => hsample _ _) fun _ => ?_
  refine (hsample .motor .pb11).andThen fun _ => (hsample .esd .pc5).andThen fun _ =>
    (hsample .run .pc4).andThen fun _ => (hsample .clean .pb0).andThen fun _ => ?_
  refine .act trivial fun pre _ => .act trivial fun f _ => .ite (fun _ => ?_) fun _ => .ret rfl
  refine .act trivial fun f _ => Discipline.Keeps.andThen (.when fun _ => setDisplayBoardData_asks)
    fun _ => ?_
  exact .act trivial fun f _ => .op trivial fun _ _ => .ret rfl

theorem controlOf_asks (c : Call) : askBoard.Keeps (controlOf c) .away := by
  cases c with
  | setDcMotor => exact setDcMotor_asks
  | getDisplayBoardData => exact getDisplayBoardData_asks
  | setDisplayBoardData => exact setDisplayBoardData_asks
  | setDispboardFunctionMode type mode => exact setDispboardFunctionMode_asks type mode
  | sensorRead i => exact sensorRead_asks i
  | setDeviceWorkMode type data ch => exact setDeviceWorkMode_asks type data ch fun _ => rfl
  | aircleanMotorSet mode => exact aircleanMotorSet_asks mode
  | threadEntryPowerMonitor p => exact threadEntryPowerMonitor_asks p
  | rtCheckExDevice => exact rtCheckExDevice_asks

end Aside

/-! ## On the bus -/

theorem finishCode_ne_illArg (es : List MasterEvent) : finishCode es ≠ .illArg := by
  unfold finishCode
  split <;> decide

theorem rawRequest_asks (len : Nat) (bus : Bool) :
    askBus.Follows (eMBMasterReqReadNotRtuDatas .rs485SendBufNotModbus len)
      (fun errorCode l => l = Ask.told bus errorCode) (.cleared bus) := by
  have hcopy : askBus.Keeps (Prog.forUpTo len fun i => do
      let b ← busLoad (.rs485SendBufNotModbus i)
      busStore (.ucMasterRTUSndBuf i) b) (.waiting bus) := by
    refine Discipline.Follows.forUpTo (J := fun _ l => l = Ask.waiting bus) rfl ?_
    rintro i l - rfl
    exact .op trivial fun _ _ => .op trivial fun _ _ => .ret rfl
  have hwait : askBus.Follows eMBMasterWaitRequestFinish
      (fun errorCode l => l = Ask.told bus errorCode) (.waiting bus) :=
    (Discipline.follows_map ..).mpr
      (.op (fun _ => ⟨bus, rfl⟩) fun es _ => .ret (Ask.next_told bus es))
  unfold eMBMasterReqReadNotRtuDatas
  refine .act (.inr ⟨bus, rfl⟩) fun _ _ => .act trivial fun _ _ => hcopy.andThen fun _ => ?_
  refine .act trivial fun _ _ => .act trivial fun _ _ => .act trivial fun _ _ =>
    .act trivial fun _ _ => ?_
  refine hwait.bind ?_
  rintro errorCode l rfl
  exact .act trivial fun _ _ => .ret rfl

theorem holdRequest_asks (a : UInt8) (reg n : UInt16) :
    askBus.Follows (eMBMasterReqReadHoldingRegister a reg n)
      (fun errorCode l => l = if errorCode = .illArg then Ask.holding else .reading) .holding := by
  have hwait : askBus.Follows eMBMasterWaitRequestFinish
      (fun errorCode l => l = if errorCode = .illArg then Ask.holding else .reading)
      (.waiting true) := by
    refine (Discipline.follows_map ..).mpr (.op (fun _ => ⟨true, rfl⟩) fun es _ => .ret ?_)
    rw [if_neg (finishCode_ne_illArg es)]
    exact Ask.next_told true es
  refine .ite (fun _ => .ret rfl) fun _ => ?_
  refine .act (.inl rfl) fun _ _ => .act trivial fun _ _ => .act trivial fun _ _ => ?_
  refine .act trivial fun _ _ => .act trivial fun _ _ => .act trivial fun _ _ =>
    .act trivial fun _ _ => .act trivial fun _ _ => ?_
  exact .act trivial fun _ _ => .act trivial fun _ _ => hwait

theorem onBus_asks {l : Ask} (o : Op) (h : askBoard.ok l o) :
    askBus.Follows (onBus o) (fun a l' => askBoard.answers l o a ∧ l' = askBoard.next l o a) l := by
  cases o with
  | exchange len =>
      obtain ⟨bus, rfl⟩ := h
      exact (rawRequest_asks len bus).mono fun _ _ hl => ⟨trivial, hl⟩
  | exchangeHold k =>
      obtain rfl : l = .holding := h
      exact (holdRequest_asks _ 0 2).mono fun _ _ hl => ⟨trivial, hl⟩
  | _ => exact .op h fun _ _ => .ret ⟨trivial, rfl⟩

theorem call_asks (c : Call) : askBus.Keeps c.code .away :=
  Discipline.Follows.expands (fun _ => onBus_asks) (controlOf_asks c)

theorem serves_keeps {α : Type} {p : BusCode α} (h : p.Only BusOp.Serves) :
    askBus.Keeps p .serving := by
  refine .of_only h fun o ho => ?_
  cases o with
  | board o =>
      cases o with
      | load a =>
          cases a with
          | ucMasterRTURcvBuf i => exact ⟨.inl rfl, fun _ _ => rfl⟩
          | _ => exact ⟨trivial, fun _ _ => rfl⟩
      | loadHoldBuf k r => exact ⟨trivial, fun _ _ => rfl⟩
      | undef => exact ⟨trivial, fun _ _ => rfl⟩
      | _ => exact absurd ho id
  | runResTake => exact absurd ho id
  | eventRecv set => exact ⟨fun h => absurd h ho, fun _ _ => rfl⟩
  | _ => exact ⟨trivial, fun _ _ => rfl⟩

/-- Where a thread begins. -/
def askStart (t : Nat) : Ask := if t = pollThread ∨ t = transThread then .serving else .away

theorem busThreads_ask {other : UInt8 → Option FunctionHandler}
    (hother : ∀ code h, other code = some h → ∀ frame len, (h frame len).Only BusOp.Handles)
    (polls transmits : Nat) (calls : Nat → List Call) (t : Nat) :
    askBus.Keeps (busThreads other polls transmits calls t) (askStart t) := by
  unfold busThreads askStart
  by_cases hpoll : t = pollThread
  · rw [if_pos hpoll, if_pos (.inl hpoll)]
    exact serves_keeps (pollRounds_serves hother polls)
  · rw [if_neg hpoll]
    by_cases htrans : t = transThread
    · rw [if_pos htrans, if_pos (.inr htrans)]
      refine .calls fun p hp => ?_
      rw [List.eq_of_mem_replicate hp]
      exact serves_keeps transmit_serves
    · rw [if_neg htrans, if_neg (not_or.mpr ⟨hpoll, htrans⟩)]
      refine .calls fun p hp => ?_
      obtain ⟨c, -, rfl⟩ := List.mem_map.mp hp
      exact call_asks c

end Aclean
