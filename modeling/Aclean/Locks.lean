import Aclean.FactoryDialogue
import Aclean.LockOrder
import Aclean.MasterStage

/-!
# The main board's locks

Three mutexes and the run resource of the Modbus master, on the bus with all
its threads. The motor comes before the bus, the bus before the run resource
and before the WiFi link; every function keeps to that order and ends with the
locks it began with, also where one function runs with and without the bus.

The run resource is taken by the requester and released by the poll thread,
which announces the end of a request first and releases the resource after.
So a requester can be back from its request, and ask for the resource again,
while the poll thread has yet to release it.
-/

namespace Aclean

open Prog
open LockSpec (follows_free follows_borrow follows_take follows_give keeps_of_free)

/-! ## The WiFi module's factory reset -/

/-- `wifi_send_data` on other bytes than the packet buffer's. -/
def wifiSendBytes (data : List UInt8) : BusCode Unit := do
  busOp (.board (.mutexTake .wifiSend))
  busOp (.board (.note (.wifiSend data)))
  busOp (.board (.mutexRelease .wifiSend))

/-- A thread that nobody wakes. -/
def waitForever : BusCode Unit := do
  let _ ← busOp (.eventRecv [])
  pure ()

/-- The dialogue on the bus: what it sends goes through `wifi_send_data`, the rest is the
thread's own. -/
def overBus {α : Type} : Factory.LineCode α → Factory.Line → BusCode α
  | .ret a, _ => pure a
  | .op o k, s => do
      match o with
      | .send data => wifiSendBytes data
      | _ => pure ()
      overBus (k (Factory.Line.exec o s).1) (Factory.Line.exec o s).2

/-- `wifi_factory_set`, without the WiFi receive thread that it deletes and
creates again. `rounds` is what the module sends while each wait lasts; a loop
that has then not been left still waits. -/
def wifiFactorySet (rounds : List (List UInt8)) : BusCode Unit := do
  let returned ← overBus (Factory.wifiFactorySet rounds.length) ⟨rounds, fun _ => 0⟩
  if returned then pure () else waitForever

/-! ## What the threads do -/

/-- The board's operations on the bus, the factory reset written out. -/
def onLine (rounds : List (List UInt8)) : (o : Op) → BusCode (Ar o)
  | .note .wifiFactorySet => do
      busOp (.board (.note .wifiFactorySet))
      wifiFactorySet rounds
  | o => onBus o

/-- One round of a thread: a call of the control code with what the WiFi module
answers meanwhile, a frame from WiFi decoded, or a byte from WiFi received. -/
inductive Job where
  | call (c : Call) (rounds : List (List UInt8))
  | wifiDecode
  | wifiReceive (ch : UInt8)
  deriving DecidableEq, Repr

def Job.control : Job → Code Unit
  | .wifiDecode => do
      semTake
      wifiDecodeFrame exchange
  | .wifiReceive ch => wifiRxIsr ch
  | .call c _ => controlOf c

def Job.rounds : Job → List (List UInt8)
  | .call _ rounds => rounds
  | _ => []

def Job.code (j : Job) : BusCode Unit := j.control.expand (onLine j.rounds)

/-- The poll thread and the transmit thread for so many rounds, and every
other thread with its jobs. -/
def jobThreads (other : UInt8 → Option FunctionHandler) (polls transmits : Nat)
    (jobs : Nat → List Job) (t : Nat) : BusCode Unit :=
  if t = pollThread then pollRounds (xMasterFuncHandlers other) polls
  else if t = transThread then Prog.calls (List.replicate transmits serialSoftTransIrq)
  else Prog.calls ((jobs t).map Job.code)

/-! ## The locks and their order -/

inductive Lock where
  | runRes
  | mutex (m : Mutex)
  deriving DecidableEq, Repr

def Lock.rank : Lock → Nat
  | .mutex .motor => 0
  | .mutex .modbus => 1
  | .runRes => 2
  | .mutex .wifiSend => 3

/-- What the operations of the bus do to the locks: a requester has the run
resource until it is told that its request has ended. -/
def busLocks : LockSpec BusOp Lock Nat where
  use
    | .board (.mutexTake m) => .take (.mutex m)
    | .board (.mutexRelease m) => .give (.mutex m)
    | .runResTake => .take .runRes
    | .eventRecv set => if set = finishEvents then .give .runRes else .free
    | _ => .free
  rank := Lock.rank

/-- And those of the control code: a request borrows the run resource, the
factory reset the WiFi link. -/
def boardLocks : LockSpec Op Lock Nat where
  use
    | .mutexTake m => .take (.mutex m)
    | .mutexRelease m => .give (.mutex m)
    | .exchange _ => .borrow .runRes
    | .exchangeHold _ => .borrow .runRes
    | .note .wifiFactorySet => .borrow (.mutex .wifiSend)
    | _ => .free
  rank := Lock.rank

abbrev busDiscipline : Discipline BusOp BusAr (Finset Lock) := busLocks.discipline

abbrev boardDiscipline : Discipline Op Ar (Finset Lock) := boardLocks.discipline

/-! ## The control code keeps to the order -/

section Keeps

variable {l : Finset Lock}

theorem Op.Bare.free {o : Op} (h : o.Bare) : boardLocks.use o = .free := by
  obtain ⟨hcontrol, hlockless, hnote⟩ := h
  cases o with
  | mutexTake m => exact absurd hlockless id
  | mutexRelease m => exact absurd hlockless id
  | exchange n => exact absurd hcontrol id
  | exchangeHold k => exact absurd hcontrol id
  | note e => exact absurd rfl (hnote e)
  | _ => rfl

theorem keeps_bare {α : Type} {p : Code α} (h : p.Only Op.Bare) : boardLocks.Keeps p l :=
  keeps_of_free (h.mono fun _ => Op.Bare.free)

theorem keeps_solo {α : Type} {p : Code α} (h : p.Only fun o => o.Local ∧ o.Lockless) :
    boardLocks.Keeps p l :=
  keeps_bare (h.mono fun _ ho => ho.1.1.bare ho.2)

theorem saveIfChanged_keeps : boardLocks.Keeps saveIfChanged l :=
  keeps_bare (saveIfChanged_solo.mono fun _ h => h.1.bare h.2)

theorem setDcMotor_keeps (hl : boardLocks.Below l .runRes) :
    boardLocks.Keeps (setDcMotor exchange) l := by
  unfold setDcMotor
  refine follows_free rfl fun power => ?_
  refine (Discipline.Keeps.ite (fun _ => keeps_solo (setDcMotorSpeed_solo _)) fun _ => ?_).andThen
    fun _ => ?_
  · exact follows_free rfl fun w => keeps_solo (setDcMotorSpeed_solo w)
  · refine follows_free rfl fun _ => follows_borrow rfl hl fun code => keeps_bare ?_
    simp [faultSetBit, Op.Bare, Op.Control, Op.Lockless, Addr.Rx, Addr.Master]

/-- Taking the bus for one request. -/
theorem setDispboardFunctionMode_keeps (type mode : UInt8)
    (hl : boardLocks.Below l (.mutex .modbus)) :
    boardLocks.Keeps (setDispboardFunctionMode exchange type mode) l := by
  have hrun : boardLocks.Below (insert (.mutex .modbus) l) .runRes := hl.cons (by decide)
  unfold setDispboardFunctionMode
  refine follows_free rfl fun t1 => follows_free rfl fun t2 =>
    follows_take rfl hl fun _ => ?_
  refine (keeps_solo (sendPacketData_solo _)).andThen fun _ => follows_free rfl fun _ =>
    follows_borrow rfl hrun fun code => ?_
  exact (keeps_solo (ignoreReply_solo code)).andThen fun _ =>
    follows_give rfl hl fun _ => .ret rfl

theorem setDisplayBoardData_keeps (hl : boardLocks.Below l (.mutex .modbus)) :
    boardLocks.Keeps (setDisplayBoardData exchange) l := by
  have hrun : boardLocks.Below (insert (.mutex .modbus) l) .runRes := hl.cons (by decide)
  unfold setDisplayBoardData
  refine follows_take rfl hl fun _ => (keeps_solo (dispBoardPacketData_solo 29)).andThen fun _ =>
    follows_free rfl fun _ => follows_borrow rfl hrun fun code => ?_
  exact (keeps_solo (ignoreReply_solo code)).andThen fun _ =>
    follows_give rfl hl fun _ => .ret rfl

theorem sensorRead_keeps (i : Nat) (hl : boardLocks.Below l (.mutex .modbus)) :
    boardLocks.Keeps (sensorRead exchangeHold i) l := by
  have hrun : boardLocks.Below (insert (.mutex .modbus) l) .runRes := hl.cons (by decide)
  unfold sensorRead
  refine follows_take rfl hl fun _ => follows_borrow rfl hrun fun code => ?_
  refine (Discipline.Keeps.when fun _ => keeps_bare ?_).andThen fun _ =>
    follows_give rfl hl fun _ => .ret rfl
  simp [storeField16, Op.Bare, Op.Control, Op.Lockless, Addr.Rx, Addr.Master]

/-- The settings function runs with the bus too: it takes the bus only to
forward a command from WiFi. -/
theorem setDeviceWorkMode_keeps (type data signalCh : UInt8)
    (hl : signalCh = 1 → boardLocks.Below l (.mutex .modbus)) :
    boardLocks.Keeps (setDeviceWorkMode exchange type data signalCh) l := by
  have happly : boardLocks.Keeps (applyCommand exchange type data signalCh) l := by
    unfold applyCommand
    refine (keeps_solo backupWorkData_solo).bind fun _ =>
      (keeps_bare (commandSwitch_bare _ _)).bind fun known => .ite (fun _ => ?_) fun _ => .ret rfl
    have hforward : boardLocks.Keeps
        (Prog.when (signalCh = 1) (setDispboardFunctionMode exchange type data)) l :=
      .when fun h => setDispboardFunctionMode_keeps type data (hl h)
    exact hforward.bind fun _ => saveIfChanged_keeps
  unfold setDeviceWorkMode
  refine follows_free rfl fun _ => Discipline.Keeps.ite (fun _ => ?_) fun _ => happly
  refine follows_free rfl fun mode => Discipline.Keeps.ite (fun _ => .ret rfl) fun _ => ?_
  exact follows_free rfl fun power => Discipline.Keeps.ite (fun _ => .ret rfl) fun _ => happly

theorem takeDisplaySettings_keeps (hl : boardLocks.Below l (.mutex .wifiSend)) :
    boardLocks.Keeps takeDisplaySettings l := by
  have hreset : boardLocks.Keeps (note .wifiFactorySet) l :=
    follows_borrow rfl hl fun _ => .ret rfl
  unfold takeDisplaySettings
  refine (keeps_solo backupWorkData_solo).andThen fun _ => follows_free rfl fun m =>
    follows_free rfl fun _ => follows_free rfl fun m => ?_
  refine (Discipline.Keeps.when fun _ => keeps_bare ?_).andThen fun _ => ?_
  · simp [Op.Bare, Op.Control, Op.Lockless, Addr.Rx, Addr.Master]
  · refine follows_free rfl fun tm => follows_free rfl fun _ =>
      follows_free rfl fun f => ?_
    exact (Discipline.Keeps.when fun _ => hreset).andThen fun _ => saveIfChanged_keeps

/-- A key never forwards a command. -/
theorem takeDisplayKey_keeps : boardLocks.Keeps (takeDisplayKey exchange) l := by
  unfold takeDisplayKey
  refine follows_free rfl fun b => Discipline.Keeps.ite (fun _ => ?_) fun _ => .ret rfl
  refine follows_free rfl fun b => Discipline.Keeps.ite (fun _ => ?_) fun _ => .ret rfl
  exact follows_free rfl fun type => follows_free rfl fun data =>
    setDeviceWorkMode_keeps type data 0 fun h => absurd h (by decide)

theorem getDisplayBoardData_keeps (hl : boardLocks.Below l (.mutex .modbus)) :
    boardLocks.Keeps (getDisplayBoardData exchange) l := by
  have hrun : boardLocks.Below (insert (.mutex .modbus) l) .runRes := hl.cons (by decide)
  have hwifi : boardLocks.Below (insert (.mutex .modbus) l) (.mutex .wifiSend) :=
    hl.cons (by decide)
  have hreply : boardLocks.Keeps (handleDisplayReply exchange) (insert (.mutex .modbus) l) := by
    unfold handleDisplayReply
    refine (keeps_solo (replyFramed_solo _ _)).bind fun f2 =>
      .ite (fun _ => takeDisplaySettings_keeps hwifi) fun _ => ?_
    exact (keeps_solo (replyFramed_solo _ _)).bind fun f1 =>
      .ite (fun _ => takeDisplayKey_keeps) fun _ => .ret rfl
  unfold getDisplayBoardData
  refine follows_take rfl hl fun _ => ?_
  refine follows_free rfl fun _ => follows_free rfl fun _ =>
    follows_free rfl fun _ => follows_free rfl fun _ =>
    follows_free rfl fun _ => follows_free rfl fun _ =>
    follows_free rfl fun _ => follows_free rfl fun _ => ?_
  refine follows_borrow rfl hrun fun code => ?_
  exact (Discipline.Keeps.when fun _ => hreply).andThen fun _ => follows_give rfl hl fun _ => .ret rfl

/-- The motor is taken before the bus. -/
theorem aircleanMotorSet_keeps (mode : UInt8) (hl : boardLocks.Below l (.mutex .motor)) :
    boardLocks.Keeps (aircleanMotorSet mode) l := by
  have hbus : boardLocks.Below (insert (.mutex .motor) l) (.mutex .modbus) := hl.cons (by decide)
  unfold aircleanMotorSet
  refine follows_take rfl hl fun _ => follows_free rfl fun _ =>
    follows_free rfl fun w => (keeps_bare (acAcMotorSet_bare w)).andThen fun _ => ?_
  refine follows_take rfl hbus fun _ => follows_free rfl fun w =>
    (keeps_solo (setDcMotorSpeed_solo w)).andThen fun _ => follows_give rfl hbus fun _ => ?_
  exact follows_give rfl hl fun _ => .ret rfl

theorem driveAuto_keeps (on speed : UInt8) (hl : boardLocks.Below l (.mutex .motor)) :
    boardLocks.Keeps (driveAuto on speed) l := by
  unfold driveAuto
  refine follows_free rfl fun _ => follows_free rfl fun _ =>
    (aircleanMotorSet_keeps speed hl).andThen fun _ => ?_
  exact follows_free rfl fun _ => follows_free rfl fun _ =>
    follows_free rfl fun _ => .ret rfl

theorem scanRooms_keeps (p : UInt16 → UInt16 → Bool) : boardLocks.Keeps (scanRooms p) l := by
  refine keeps_bare (.foldUpTo fun i found _ => ?_)
  simp [houseReading, Op.Bare, Op.Control, Op.Lockless, Addr.Rx]

theorem autoHandle_keeps (hl : boardLocks.Below l (.mutex .motor)) :
    boardLocks.Keeps autoHandle l := by
  have hdrive := fun on speed => driveAuto_keeps on speed hl
  unfold autoHandle
  refine (scanRooms_keeps _).bind fun _ => .ite (fun _ => hdrive 1 3) fun _ => ?_
  refine (scanRooms_keeps _).bind fun _ => .ite (fun _ => hdrive 1 2) fun _ => ?_
  refine (scanRooms_keeps _).bind fun _ => .ite (fun _ => hdrive 0 0) fun _ => ?_
  exact (scanRooms_keeps _).bind fun _ => .ite (fun _ => hdrive 1 1) fun _ => hdrive 0 0

theorem manualHandle_keeps (pre : UInt8) (hl : boardLocks.Below l (.mutex .motor)) :
    boardLocks.Keeps (manualHandle pre) l := by
  have hmotor := fun mode => aircleanMotorSet_keeps mode hl
  unfold manualHandle
  refine Discipline.Keeps.ite (fun _ => ?_) fun _ => ?_
  · exact follows_free rfl fun _ => follows_free rfl fun _ => hmotor 1
  · refine follows_free rfl fun hp => follows_free rfl fun _ =>
      follows_free rfl fun pht => follows_free rfl fun _ =>
      follows_free rfl fun w => (Discipline.Keeps.when fun _ => hmotor 1).andThen fun _ => ?_
    exact follows_free rfl fun w => hmotor w

theorem aircleanWorkAutoHandle_keeps (hl : boardLocks.Below l (.mutex .motor)) :
    boardLocks.Keeps aircleanWorkAutoHandle l := by
  unfold aircleanWorkAutoHandle
  refine follows_free rfl fun power => Discipline.Keeps.ite (fun _ => ?_) fun _ => .ret rfl
  refine follows_free rfl fun mode => Discipline.Keeps.ite (fun _ => autoHandle_keeps hl) fun _ => ?_
  exact follows_free rfl fun mode =>
    Discipline.Keeps.ite (fun _ => manualHandle_keeps _ hl) fun _ => .ret rfl

theorem threadEntryPowerMonitor_keeps (dCmdPower : UInt8)
    (hl : boardLocks.Below l (.mutex .motor)) :
    boardLocks.Keeps (threadEntryPowerMonitor exchange dCmdPower) l := by
  unfold threadEntryPowerMonitor
  refine (keeps_bare powerMonitorCount_bare).andThen fun _ => follows_free rfl fun cnt =>
    follows_free rfl fun pre => ?_
  refine (Discipline.Keeps.when fun _ => keeps_bare ?_).andThen fun _ => ?_
  · simp [Op.Bare, Op.Control, Op.Lockless, Addr.Rx, Addr.Master]
  · refine follows_free rfl fun cnt => follows_free rfl fun tm =>
      Discipline.Keeps.ite (fun _ => ?_) fun _ => aircleanWorkAutoHandle_keeps hl
    refine follows_free rfl fun _ => follows_free rfl fun _ =>
      follows_free rfl fun _ => follows_free rfl fun _ => ?_
    exact (setDispboardFunctionMode_keeps dCmdPower 0 (hl.mono (by decide))).andThen fun _ =>
      keeps_bare (aircleanPowerOnoff_bare 0)

theorem rtCheckExDevice_keeps (hl : boardLocks.Below l (.mutex .modbus)) :
    boardLocks.Keeps (rtCheckExDevice exchange) l := by
  have hsample : ∀ b p, boardLocks.Keeps (sampleFault b p) l := fun b p =>
    keeps_bare (sampleFault_bare b p)
  unfold rtCheckExDevice
  refine follows_free rfl fun power => Discipline.Keeps.ite (fun _ => ?_) fun _ => ?_
  · refine follows_free rfl fun pht =>
      (Discipline.Keeps.when fun _ => hsample _ _).andThen fun _ => ?_
    refine (hsample .motor .pb11).andThen fun _ => (hsample .esd .pc5).andThen fun _ =>
      (hsample .run .pc4).andThen fun _ => (hsample .clean .pb0).andThen fun _ => ?_
    refine follows_free rfl fun pre => follows_free rfl fun f =>
      Discipline.Keeps.ite (fun _ => ?_) fun _ => .ret rfl
    refine follows_free rfl fun f =>
      (Discipline.Keeps.when fun _ => setDisplayBoardData_keeps hl).andThen fun _ => ?_
    exact follows_free rfl fun f => follows_free rfl fun _ => .ret rfl
  · exact follows_free rfl fun _ => .ret rfl

/-! ### WiFi -/

theorem wifiSendPacketData_keeps (buf : List UInt8) (hl : boardLocks.Below l (.mutex .wifiSend)) :
    boardLocks.Keeps (wifiSendPacketData buf) l := by
  unfold wifiSendPacketData
  refine follows_free rfl fun chk => follows_free rfl fun _ =>
    follows_free rfl fun _ => ?_
  refine Discipline.Keeps.andThen (keeps_bare (.foldUpTo fun i chk _ => ?_)) fun chk => ?_
  · simp [Op.Bare, Op.Control, Op.Lockless, Addr.Rx, Addr.Master]
  · refine follows_free rfl fun _ => follows_free rfl fun _ => ?_
    exact follows_take rfl hl fun _ => follows_free rfl fun _ =>
      follows_give rfl hl fun _ => .ret rfl

theorem returnCurrentDeviceState_keeps (hl : boardLocks.Below l (.mutex .wifiSend)) :
    boardLocks.Keeps returnCurrentDeviceState l := by
  have hsend := fun buf => wifiSendPacketData_keeps buf hl
  unfold returnCurrentDeviceState
  refine Discipline.Keeps.andThen (keeps_bare (.foldUpTo fun i data _ => ?_)) fun data => ?_
  · simp [Op.Bare, Op.Control, Op.Lockless, Addr.Rx]
  · refine follows_free rfl fun power => Discipline.Keeps.ite (fun _ => hsend _) fun _ => ?_
    refine follows_free rfl fun mode => Discipline.Keeps.ite (fun _ => ?_) fun _ => hsend _
    exact follows_free rfl fun w => follows_free rfl fun hp =>
      follows_free rfl fun pht => hsend _

theorem wifiDecodeFrame_keeps (hbus : boardLocks.Below l (.mutex .modbus)) :
    boardLocks.Keeps (wifiDecodeFrame exchange) l := by
  have hwifi : boardLocks.Below l (.mutex .wifiSend) := hbus.mono (by decide)
  have hstate := returnCurrentDeviceState_keeps hwifi
  have hcheck : ∀ len, boardLocks.Keeps (wifiReceiveDataCheck len) l := by
    refine fun len => keeps_of_free ((wifiReceiveDataCheck_loads len).mono ?_)
    rintro o ⟨a, rfl⟩
    rfl
  have hdecode : boardLocks.Keeps (wifiReceiveDataDecode exchange) l := by
    unfold wifiReceiveDataDecode
    refine follows_free rfl fun cmd => Discipline.Keeps.ite (fun _ => hstate) fun _ =>
      Discipline.Keeps.ite (fun _ => ?_) fun _ =>
      Discipline.Keeps.ite (fun _ => wifiSendPacketData_keeps _ hwifi) fun _ => .ret rfl
    exact follows_free rfl fun type => follows_free rfl fun data =>
      (setDeviceWorkMode_keeps type data 1 fun _ => hbus).andThen fun _ => hstate
  unfold wifiDecodeFrame
  refine follows_free rfl fun len => (hcheck len).andThen fun ok => Discipline.Keeps.when fun _ => ?_
  exact follows_free rfl fun _ => hdecode

theorem wifiRxIsr_keeps (udr0 : UInt8) : boardLocks.Keeps (wifiRxIsr udr0) l := by
  have hload : ∀ a, boardLocks.use (.load a) = .free := fun _ => rfl
  have hstore : ∀ a v, boardLocks.use (.store a v) = .free := fun _ _ => rfl
  have hcopy : ∀ n, (copyToPub n).Only fun o => boardLocks.use o = .free :=
    fun n => .forUpTo fun i _ => by simp [hload, hstore]
  have hpublish : ∀ n, (publishFrame udr0 n).Only fun o => boardLocks.use o = .free := by
    intro n
    simp only [publishFrame, store, semRelease, op_bind, ret_bind, only_op]
    refine ⟨rfl, fun _ => ⟨rfl, fun _ => ⟨rfl, fun _ => .bind (hcopy _) fun _ => ?_⟩⟩⟩
    exact .op rfl fun _ => .op rfl fun _ => .op rfl fun _ => .op rfl fun _ => .ret _
  refine keeps_of_free ?_
  simp [wifiRxIsr, hpublish, hload, hstore]

/-- Every round begins and ends without a lock. -/
theorem Job.control_keeps (j : Job) : boardLocks.Keeps j.control ∅ := by
  have hbelow : ∀ k, boardLocks.Below ∅ k := LockSpec.below_empty
  cases j with
  | wifiDecode => exact follows_free rfl fun _ => wifiDecodeFrame_keeps (hbelow _)
  | wifiReceive ch => exact wifiRxIsr_keeps ch
  | call c rounds =>
      cases c with
      | setDcMotor => exact setDcMotor_keeps (hbelow _)
      | getDisplayBoardData => exact getDisplayBoardData_keeps (hbelow _)
      | setDisplayBoardData => exact setDisplayBoardData_keeps (hbelow _)
      | setDispboardFunctionMode type mode =>
          exact setDispboardFunctionMode_keeps type mode (hbelow _)
      | sensorRead i => exact sensorRead_keeps i (hbelow _)
      | setDeviceWorkMode type data ch =>
          exact setDeviceWorkMode_keeps type data ch fun _ => hbelow _
      | aircleanMotorSet mode => exact aircleanMotorSet_keeps mode (hbelow _)
      | threadEntryPowerMonitor p => exact threadEntryPowerMonitor_keeps p (hbelow _)
      | rtCheckExDevice => exact rtCheckExDevice_keeps (hbelow _)

/-! ### On the bus -/

theorem wifiSendBytes_keeps (data : List UInt8) (hl : busLocks.Below l (.mutex .wifiSend)) :
    busLocks.Keeps (wifiSendBytes data) l :=
  follows_take rfl hl fun _ => follows_free rfl fun _ =>
    follows_give rfl hl fun _ => .ret rfl

theorem waitForever_keeps : busLocks.Keeps waitForever l :=
  follows_free rfl fun _ => .ret rfl

theorem overBus_keeps {α : Type} (p : Factory.LineCode α)
    (hl : busLocks.Below l (.mutex .wifiSend)) :
    ∀ s : Factory.Line, busLocks.Keeps (overBus p s) l := by
  induction p with
  | ret a => exact fun s => .ret rfl
  | op o k ih =>
      intro s
      unfold overBus
      cases o with
      | send data => exact (wifiSendBytes_keeps data hl).andThen fun _ => ih _ _
      | _ => exact ih _ _

theorem wifiFactorySet_keeps (rounds : List (List UInt8))
    (hl : busLocks.Below l (.mutex .wifiSend)) : busLocks.Keeps (wifiFactorySet rounds) l := by
  unfold wifiFactorySet
  refine (overBus_keeps _ hl _).andThen fun returned => ?_
  exact Discipline.Keeps.ite (fun _ => .ret rfl) fun _ => waitForever_keeps

/-- The requester is told, and has the run resource no longer. -/
theorem waitRequestFinish_follows (hl : busLocks.Below l .runRes) :
    busDiscipline.Follows eMBMasterWaitRequestFinish (fun _ l' => l' = l) (insert .runRes l) :=
  (Discipline.follows_map ..).mpr (follows_give rfl hl fun _ => .ret rfl)

theorem rawRequest_keeps (len : Nat) (hl : busLocks.Below l .runRes) :
    busLocks.Keeps (eMBMasterReqReadNotRtuDatas .rs485SendBufNotModbus len) l := by
  have hcopy : busLocks.Keeps (Prog.forUpTo len fun i => do
      let b ← busLoad (.rs485SendBufNotModbus i)
      busStore (.ucMasterRTUSndBuf i) b) (insert .runRes l) :=
    keeps_of_free (.forUpTo fun i _ => .op rfl fun _ => .op rfl fun _ => .ret _)
  unfold eMBMasterReqReadNotRtuDatas
  refine follows_take rfl hl fun _ => follows_free rfl fun _ => hcopy.andThen fun _ => ?_
  refine follows_free rfl fun _ => follows_free rfl fun _ =>
    follows_free rfl fun _ => follows_free rfl fun _ => ?_
  refine (waitRequestFinish_follows hl).bind ?_
  rintro code l' rfl
  exact follows_free rfl fun _ => .ret rfl

theorem holdRequest_keeps (a : UInt8) (reg n : UInt16) (hl : busLocks.Below l .runRes) :
    busLocks.Keeps (eMBMasterReqReadHoldingRegister a reg n) l := by
  unfold eMBMasterReqReadHoldingRegister
  refine Discipline.Keeps.ite (fun _ => .ret rfl) fun _ => ?_
  refine follows_take rfl hl fun _ => follows_free rfl fun _ =>
    follows_free rfl fun _ => ?_
  refine follows_free rfl fun _ => follows_free rfl fun _ =>
    follows_free rfl fun _ => follows_free rfl fun _ =>
    follows_free rfl fun _ => ?_
  exact follows_free rfl fun _ => follows_free rfl fun _ => waitRequestFinish_follows hl

/-- On the bus an operation does to the locks what it does on the board. -/
theorem onLine_follows (rounds : List (List UInt8)) (o : Op) (h : boardDiscipline.ok l o) :
    busDiscipline.Follows (onLine rounds o)
      (fun a l' => boardDiscipline.answers l o a ∧ l' = boardDiscipline.next l o a) l := by
  cases o with
  | exchange len => exact (rawRequest_keeps len h).mono fun _ _ hl => ⟨trivial, hl⟩
  | exchangeHold slave => exact (holdRequest_keeps _ 0 2 h).mono fun _ _ hl => ⟨trivial, hl⟩
  | mutexTake m => exact .op h fun _ _ => .ret ⟨trivial, rfl⟩
  | mutexRelease m => exact .op h fun _ _ => .ret ⟨trivial, rfl⟩
  | note e =>
      cases e with
      | wifiFactorySet =>
          refine follows_free rfl fun _ => ?_
          exact (wifiFactorySet_keeps rounds h).mono fun _ _ hl => ⟨trivial, hl⟩
      | _ => exact .op trivial fun _ _ => .ret ⟨trivial, rfl⟩
  | _ => exact .op trivial fun _ _ => .ret ⟨trivial, rfl⟩

theorem Job.keeps (j : Job) : busLocks.Keeps j.code ∅ :=
  Discipline.Follows.expands (fun _ o h => onLine_follows j.rounds o h) j.control_keeps

end Keeps

/-! ### All threads -/

/-- Neither takes a lock, nor is it told the end of a request. -/
theorem BusOp.Serves.free {o : BusOp} (h : o.Serves) : busLocks.use o = .free := by
  cases o with
  | board o =>
      cases o with
      | load a => rfl
      | loadHoldBuf k r => rfl
      | undef => rfl
      | _ => exact absurd h id
  | runResTake => exact absurd h id
  | eventRecv set => exact if_neg h
  | _ => rfl

section Threads

variable {other : UInt8 → Option FunctionHandler}
  (hother : ∀ code h, other code = some h → ∀ frame len, (h frame len).Only BusOp.Handles)
include hother

/-- Every thread begins and ends without a lock. -/
theorem jobThreads_keep (polls transmits : Nat) (jobs : Nat → List Job) (t : Nat) :
    busLocks.Keeps (jobThreads other polls transmits jobs t) ∅ := by
  unfold jobThreads
  by_cases hpoll : t = pollThread
  · rw [if_pos hpoll]
    exact keeps_of_free ((pollRounds_serves hother polls).mono fun _ => BusOp.Serves.free)
  · rw [if_neg hpoll]
    by_cases htrans : t = transThread
    · rw [if_pos htrans]
      refine Discipline.Keeps.calls fun p hp => ?_
      rw [List.eq_of_mem_replicate hp]
      exact keeps_of_free (transmit_serves.mono fun _ => BusOp.Serves.free)
    · rw [if_neg htrans]
      refine Discipline.Keeps.calls fun p hp => ?_
      obtain ⟨j, -, rfl⟩ := List.mem_map.mp hp
      exact j.keeps

end Threads

/-! ## Runs -/

/-- A board with its master enabled and all threads at their start. -/
def jobStart (other : UInt8 → Option FunctionHandler) (polls transmits : Nat)
    (jobs : Nat → List Job) (b : Board) : Config BusOp BusAr Bus :=
  ⟨⟨b, .enabled⟩, jobThreads other polls transmits jobs⟩

/-- No thread waits in a circle, and a thread between two jobs holds nothing.
(The poll thread has no jobs; what it releases it was handed.) -/
structure LocksSafe (holds : Lock → Nat → Prop) (c : Config BusOp BusAr Bus) : Prop where
  noCycle (t : Nat) :
    ¬ Relation.TransGen (WaitsFor (busLocks.Wants Bus.system c) holds) t t
  returned (t : Nat) (jobs : List Job) : t ≠ pollThread →
    c.threads t = Prog.calls (jobs.map Job.code) → ∀ k, ¬ holds k t

/-- Who holds a lock: a mutex its owner; the run resource, while it is taken,
the poll thread, which is to release it, and the requester that has yet to be
told that its request has ended. -/
def HoldsLock (tr : List (Label BusOp BusAr BusEv)) (s : Bus) : Lock → Nat → Prop
  | .mutex m, t => ∃ n, s.board.mutex m = some (t, n)
  | .runRes, t => s.master.runRes = 0 ∧
      (t = pollThread ∨ Lock.runRes ∈ busDiscipline.locals (fun _ => ∅) tr t)

/-- The requester that took the run resource, until it is released. -/
def runResTaker (tr : List (Label BusOp BusAr BusEv)) : Option Nat :=
  tr.foldl (fun taker l =>
    match l with
    | .op t .runResTake _ => some t
    | .op _ .runResRelease _ => none
    | _ => taker) none

/-- The same with the run resource in the hands of whoever took it. -/
def HeldUntilReleased (tr : List (Label BusOp BusAr BusEv)) (s : Bus) : Lock → Nat → Prop
  | .mutex m, t => ∃ n, s.board.mutex m = some (t, n)
  | .runRes, t => runResTaker tr = some t

/-- An owned mutex is owned once, by a thread that has taken it. -/
def Owned (ls : Nat → Finset Lock) (b : Board) : Prop :=
  ∀ m t n, b.mutex m = some (t, n) → n = 1 ∧ Lock.mutex m ∈ ls t

section Owned

variable {ls : Nat → Finset Lock} {s : Bus} {t : Nat} {o : BusOp}

theorem exec_board_mutex (htake : ∀ m, o ≠ .board (.mutexTake m))
    (hgive : ∀ m, o ≠ .board (.mutexRelease m)) :
    (Bus.exec t o s).2.board.mutex = s.board.mutex := by
  cases o with
  | board o =>
      cases o with
      | mutexTake m => exact absurd rfl (htake m)
      | mutexRelease m => exact absurd rfl (hgive m)
      | _ => rfl
  | sendNotDatas n => rw [Bus.exec]; split <;> rfl
  | rtuSend a n => rw [Bus.exec]; split <;> rfl
  | _ => rfl

theorem use_take_mutex {m : Mutex} (h : busLocks.use o = .take (.mutex m)) :
    o = .board (.mutexTake m) := by
  cases o with
  | board o =>
      cases o with
      | mutexTake j => cases h; rfl
      | _ => cases h
  | eventRecv set => simp only [busLocks] at h; split at h <;> cases h
  | _ => cases h

theorem use_give_mutex {m : Mutex} (h : busLocks.use o = .give (.mutex m)) :
    o = .board (.mutexRelease m) := by
  cases o with
  | board o =>
      cases o with
      | mutexRelease j => cases h; rfl
      | _ => cases h
  | eventRecv set => simp only [busLocks] at h; split at h <;> cases h
  | _ => cases h

theorem Owned.take {m : Mutex} (h : Owned ls s.board)
    (hok : busDiscipline.ok (ls t) (.board (.mutexTake m)))
    (hen : Bus.enabled t (.board (.mutexTake m)) s = true) :
    Owned (Function.update ls t (insert (.mutex m) (ls t)))
      (Bus.exec t (.board (.mutexTake m)) s).2.board := by
  intro j u n hown
  by_cases hj : j = m
  · subst hj
    have hfree : s.board.mutex j = none := by
      rcases howner : s.board.mutex j with _ | ⟨v, c⟩
      · rfl
      · -- the owner would be this thread, which has it not
        have hmem := (h j v c howner).2
        rw [Bus.owner_takes hen howner] at hmem
        exact absurd hmem (LockSpec.Below.notMem hok)
    simp only [Function.update_self, hfree, Board.take, Option.some.injEq, Prod.mk.injEq] at hown
    obtain ⟨rfl, rfl⟩ := hown
    exact ⟨rfl, by simp⟩
  · simp only [Function.update_of_ne hj] at hown
    obtain ⟨hn, hmem⟩ := h j u n hown
    refine ⟨hn, ?_⟩
    by_cases hu : u = t
    · subst hu
      simp [hmem]
    · rwa [Function.update_of_ne hu]

theorem Owned.give {m : Mutex} (h : Owned ls s.board) :
    Owned (Function.update ls t ((ls t).erase (.mutex m)))
      (Bus.exec t (.board (.mutexRelease m)) s).2.board := by
  intro j u n hown
  have hbefore : s.board.mutex j = some (u, n) ∧ (j = m → u ≠ t) := by
    by_cases hj : j = m
    · subst hj
      simp only [Function.update_self] at hown
      rcases howner : s.board.mutex j with _ | ⟨v, c⟩
      · rw [howner] at hown
        cases hown
      · obtain ⟨rfl, -⟩ := h j v c howner
        rw [howner] at hown
        by_cases hv : v = t
        · simp [Board.release, hv] at hown
        · simp only [Board.release, if_neg hv, Option.some.injEq, Prod.mk.injEq] at hown
          obtain ⟨rfl, rfl⟩ := hown
          exact ⟨rfl, fun _ => hv⟩
    · simp only [Function.update_of_ne hj] at hown
      exact ⟨hown, fun h => absurd h hj⟩
  obtain ⟨hn, hmem⟩ := h j u n hbefore.1
  refine ⟨hn, ?_⟩
  by_cases hu : u = t
  · subst hu
    have hj : j ≠ m := fun hj => hbefore.2 hj rfl
    simp [hmem, hj]
  · rwa [Function.update_of_ne hu]

/-- One operation of any thread. -/
theorem Owned.step (h : Owned ls s.board) (hok : busDiscipline.ok (ls t) o)
    (hen : Bus.enabled t o s = true) :
    Owned (Function.update ls t (busDiscipline.next (ls t) o (Bus.exec t o s).1))
      (Bus.exec t o s).2.board := by
  by_cases htake : ∃ m, o = .board (.mutexTake m)
  · obtain ⟨m, rfl⟩ := htake
    exact h.take hok hen
  by_cases hgive : ∃ m, o = .board (.mutexRelease m)
  · obtain ⟨m, rfl⟩ := hgive
    exact h.give
  intro m u n hown
  rw [exec_board_mutex (fun m hm => htake ⟨m, hm⟩) fun m hm => hgive ⟨m, hm⟩] at hown
  obtain ⟨hn, hmem⟩ := h m u n hown
  refine ⟨hn, ?_⟩
  by_cases hu : u = t
  · subst hu
    rw [Function.update_self]
    refine (LockSpec.mem_next _ ?_ ?_ _).mpr hmem
    · exact fun huse => htake ⟨m, use_take_mutex huse⟩
    · exact fun huse => hgive ⟨m, use_give_mutex huse⟩
  · rwa [Function.update_of_ne hu]

end Owned

section Runs

variable {other : UInt8 → Option FunctionHandler}
  (hother : ∀ code h, other code = some h → ∀ frame len, (h frame len).Only BusOp.Handles)
include hother

/-- In every run the threads have what they took, and what is left of each
program takes its locks in order and gives all of them back. -/
theorem jobs_keep_order (polls transmits : Nat) (jobs : Nat → List Job) {b : Board}
    (hfree : ∀ m, b.mutex m = none) {tr : List (Label BusOp BusAr BusEv)}
    {c' : Config BusOp BusAr Bus}
    (hrun : Run Bus.system anyStep (jobStart other polls transmits jobs b) tr c') :
    Owned (busDiscipline.locals (fun _ => ∅) tr) c'.state.board ∧
      ∀ t, busLocks.discipline.Follows (c'.threads t) (fun _ l => l = ∅)
        (busDiscipline.locals (fun _ => ∅) tr t) := by
  refine Run.keeps (c := jobStart other polls transmits jobs b) busDiscipline
    (I := fun tr s => Owned (busDiscipline.locals (fun _ => ∅) tr) s.board)
    (Q := fun _ l => l = ∅) (jobThreads_keep hother polls transmits jobs) ?_ ?_ ?_ hrun
  · intro m t n hown
    rw [jobStart, hfree m] at hown
    cases hown
  · intro tr s t o howned hen _ hok
    rw [Discipline.locals_snoc_op]
    exact ⟨trivial, howned.step hok hen⟩
  · intro tr s e howned _ _
    rw [Discipline.locals_snoc_env]
    cases e with
    | timerExpired => exact howned
    | rxByte v =>
        intro m t n hown
        rw [(receiveFSM_same v s).1] at hown
        exact howned m t n hown

/-- **The locks never deadlock.** In any interleaving of any numbers of jobs,
and between any of its steps, no threads wait for each other in a circle, and
whoever has come to the end of a job holds no lock. -/
theorem locks_never_deadlock (polls transmits : Nat) (jobs : Nat → List Job) {b : Board}
    (hfree : ∀ m, b.mutex m = none) {tr : List (Label BusOp BusAr BusEv)}
    {c' : Config BusOp BusAr Bus}
    (hrun : Run Bus.system anyStep (jobStart other polls transmits jobs b) tr c') :
    LocksSafe (HoldsLock tr c'.state) c' := by
  obtain ⟨howned, hfollows⟩ := jobs_keep_order hother polls transmits jobs hfree hrun
  have hpoll : (c'.threads pollThread).Only BusOp.Serves := by
    refine hrun.only (t := pollThread) ?_
    exact pollRounds_serves hother polls
  refine ⟨LockSpec.no_cycle (Q := fun _ _ l => l = ∅) hfollows ?_, ?_⟩
  · intro k t hk
    cases k with
    | mutex m =>
        obtain ⟨n, hown⟩ := hk
        exact .inl (howned m t n hown).2
    | runRes =>
        obtain ⟨-, rfl | hmem⟩ := hk
        · -- the poll thread takes no lock
          refine .inr fun j hwants => ?_
          obtain ⟨o, r, hnext, huse, -⟩ := hwants
          rw [hnext, only_op] at hpoll
          rw [hpoll.1.free] at huse
          cases huse
        · exact .inl hmem
  · intro t rest ht hrest k hk
    have hnone : busDiscipline.locals (fun _ => ∅) tr t = ∅ := by
      have hkeeps : busLocks.Keeps (Prog.calls (rest.map Job.code)) ∅ := by
        refine Discipline.Keeps.calls fun p hp => ?_
        obtain ⟨j, -, rfl⟩ := List.mem_map.mp hp
        exact j.keeps
      have hleft := hfollows t
      rw [hrest] at hleft
      exact LockSpec.begins_unique (fun o => ⟨(Bus.exec t o c'.state).1⟩) hleft hkeeps
    cases k with
    | mutex m =>
        obtain ⟨n, hown⟩ := hk
        have hmem := (howned m t n hown).2
        rw [hnone] at hmem
        exact absurd hmem (Finset.notMem_empty _)
    | runRes =>
        obtain ⟨-, hpoll | hmem⟩ := hk
        · exact ht hpoll
        · rw [hnone] at hmem
          exact absurd hmem (Finset.notMem_empty _)

end Runs

/-- Thread 2 sets the motor and then sends the settings to the display,
thread 3 reads a sensor. -/
def motorDisplaySensor (t : Nat) : List Job :=
  if t = 2 then [.call .setDcMotor [], .call .setDisplayBoardData []]
  else if t = 3 then [.call (.sensorRead 0) []]
  else []

/-- The thread has to wait at operation `o`. -/
def waitsAt (c : Config BusOp BusAr Bus) (t : Nat) (o : BusOp) : Bool :=
  match c.threads t with
  | .op o' _ => decide (o' = o) && !Bus.enabled t o' c.state
  | .ret _ => false

theorem wants_of_waitsAt {c : Config BusOp BusAr Bus} {t : Nat} {o : BusOp} {k : Lock}
    (huse : busLocks.use o = .take k) (h : waitsAt c t o = true) :
    busLocks.Wants Bus.system c t k := by
  rcases hnext : c.threads t with _ | ⟨o', r⟩
  · simp [waitsAt, hnext] at h
  · simp only [waitsAt, hnext, Bool.and_eq_true, decide_eq_true_eq, Bool.not_eq_true'] at h
    obtain ⟨rfl, hen⟩ := h
    exact ⟨o', r, hnext, huse, hen⟩

/-- The motor's request is over for thread 2, while the poll thread has yet to
release the run resource. -/
def motorAnswered : List (Act BusEv) :=
  List.replicate 27 (.thread 2) ++ List.replicate 6 (.thread 0) ++ List.replicate 39 (.thread 1) ++
    [.env .timerExpired] ++ List.replicate 5 (.thread 0) ++ List.replicate 2 (.thread 2)

theorem locks_never_deadlock_waiting : ∃ tr c,
    Run Bus.system anyStep (jobStart (fun _ => none) 2 15 motorDisplaySensor Board.reset) tr c ∧
      busLocks.Wants Bus.system c 2 (.mutex .modbus) ∧ busLocks.Wants Bus.system c 3 .runRes ∧
      LocksSafe (HoldsLock tr c.state) c := by
  obtain ⟨tr, c, hrun, hend⟩ := exists_run_of_endsWith Bus.system (fun _ _ _ => true)
    (motorAnswered ++ [.thread 3])
    (jobStart (fun _ => none) 2 15 motorDisplaySensor Board.reset)
    (fun _ c => waitsAt c 2 (.board (.mutexTake .modbus)) && waitsAt c 3 .runResTake)
    (by decide +kernel)
  rw [Bool.and_eq_true] at hend
  exact ⟨tr, c, hrun.any, wants_of_waitsAt rfl hend.1, wants_of_waitsAt rfl hend.2,
    locks_never_deadlock (fun _ _ h => absurd h (by simp)) 2 15 motorDisplaySensor (fun _ => rfl)
      hrun.any⟩

/-- With the run resource in the hands of whoever took it: a call returns and has
not got rid of it; and its thread waits for the bus, whose owner waits for the
run resource. -/
theorem locks_never_deadlock_counterexample :
    (∃ jobs tr c, Run Bus.system anyStep (jobStart (fun _ => none) 2 15 jobs Board.reset) tr c ∧
      c.threads 2 = Prog.calls ([].map Job.code) ∧ HeldUntilReleased tr c.state .runRes 2) ∧
    ∃ jobs tr c, Run Bus.system anyStep (jobStart (fun _ => none) 2 15 jobs Board.reset) tr c ∧
      Relation.TransGen
        (WaitsFor (busLocks.Wants Bus.system c) (HeldUntilReleased tr c.state)) 2 2 := by
  constructor
  · obtain ⟨tr, c, hrun, hend⟩ := exists_run_of_endsWith Bus.system (fun _ _ _ => true)
      motorAnswered
      (jobStart (fun _ => none) 2 15
        (fun t => if t = 2 then [.call .setDcMotor []] else []) Board.reset)
      (fun tr c => (c.threads 2).finished && decide (runResTaker tr = some 2))
      (by decide +kernel)
    simp only [Bool.and_eq_true, decide_eq_true_eq] at hend
    obtain ⟨hdone, htaker⟩ := hend
    exact ⟨_, tr, c, hrun.any, eq_ret_of_finished hdone, htaker⟩
  · obtain ⟨tr, c, hrun, hend⟩ := exists_run_of_endsWith Bus.system (fun _ _ _ => true)
      (motorAnswered ++ [.thread 3])
      (jobStart (fun _ => none) 2 15 motorDisplaySensor Board.reset)
      (fun tr c => (waitsAt c 2 (.board (.mutexTake .modbus)) && waitsAt c 3 .runResTake) &&
        (decide (c.state.board.mutex .modbus = some (3, 1)) && decide (runResTaker tr = some 2)))
      (by decide +kernel)
    simp only [Bool.and_eq_true, decide_eq_true_eq] at hend
    obtain ⟨⟨hbus, hrunRes⟩, howner, htaker⟩ := hend
    refine ⟨_, tr, c, hrun.any,
      .tail (.single ⟨.mutex .modbus, ?_, 1, howner⟩) ⟨.runRes, ?_, htaker⟩⟩
    · exact wants_of_waitsAt rfl hbus
    · exact wants_of_waitsAt rfl hrunRes

end Aclean
