import Aclean.Footprint
import Aclean.Modbus

/-!
# Where the bus threads are

For each thread of the bus the places of its code where the Modbus master is
concerned, and what it may do in each: the caller from taking the run resource
to posting its frame, the poll thread from an event to the next one, the
transmit thread from one wait to the next. The walks at the end show that all
of them keep to it, whatever the others do.
-/

namespace Aclean

/-! ## Places -/

/-- Function code, register address and number of a read request. -/
def readHoldingPDU (usRegAddr usNRegs : UInt16) : List UInt8 :=
  [0x03, (usRegAddr >>> 8).toUInt8, usRegAddr.toUInt8, (usNRegs >>> 8).toUInt8, usNRegs.toUInt8]

/-- Where a thread is in the code that works on the master. -/
inductive Stage where
  | callerIdle
  | taken
  | copying (len : Nat)
  | flagged (len : Nat)
  | lengthSet (len : Nat)
  | addressing (ucSndAddr : UInt8) (usRegAddr usNRegs : UInt16)
  | filling (ucSndAddr : UInt8) (usRegAddr usNRegs : UInt16) (k : Nat)
  | prepared (r : Request)
  | pollIdle
  | sending
  | sendingTo (dest : UInt8)
  | sendingFrame (dest : UInt8) (len : Nat)
  | sendingRTU (dest : UInt8) (len : Nat)
  | sendingRaw
  | sendingRawOf (len : Nat)
  | polling
  | releasing
  | transIdle
  | entered
  | counting
  | putting
  | advancing
  | decrementing
  | ending
  | judging (broadcast : Bool)
  | stopping (broadcast : Bool)
  | stopped (broadcast : Bool)
  | waiting (broadcast : Bool)
  | timing (broadcast : Bool)
  deriving DecidableEq, Repr

namespace Stage

/-- The place of the same thread when the master is in another hand. -/
def home : Stage → Stage
  | callerIdle | taken | copying _ | flagged _ | lengthSet _ | addressing .. | filling ..
  | prepared _ => callerIdle
  | pollIdle | sending | sendingTo _ | sendingFrame .. | sendingRTU .. | sendingRaw
  | sendingRawOf _ | polling | releasing => pollIdle
  | _ => transIdle

/-- The transmit thread with `EVENT_SERIAL_TRANS_START` still up. -/
def transmits : Stage → Bool
  | entered | counting | putting | advancing | decrementing | ending | judging _ | stopping _ =>
      true
  | _ => false

end Stage

/-- What a function handler does: it reads the frames and fills in registers. -/
def BusOp.Handles : BusOp → Prop
  | .board (.load _) => True
  | .board (.loadHoldBuf _ _) => True
  | .storeHoldBuf _ _ _ => True
  | .getDestAddress => True
  | .requestIsBroadcast => True
  | .getPDUSndLength => True
  | _ => False

/-- What the poll thread does on the way from an event to the next one. -/
def BusOp.Polls : BusOp → Prop
  | .setDestAddress a => a ≤ masterTotalSlaveNum
  | .getErrorType => True
  | .setErrorType _ => True
  | .rtuReceive => True
  | o => o.Handles

/-- The control code's own operations: none of the master's data, no request. -/
def Op.OffMaster : Op → Prop
  | .store a _ => ¬ a.Master
  | .exchange _ => False
  | .exchangeHold _ => False
  | _ => True

/-- What a thread may do in each place. -/
inductive Stage.Allows : Stage → BusOp → Prop where
  | control {o : Op} (h : o.OffMaster) : Allows .callerIdle (.board o)
  | clear : Allows .callerIdle (.board (.store .mbSwitchFlag 0))
  | finish : Allows .callerIdle (.eventRecv finishEvents)
  | take : Allows .callerIdle .runResTake
  | issueRaw {len : Nat} (h : len < 256) : Allows .taken (.issue (.notRtuDatas len))
  | issueHold {a : UInt8} {reg n : UInt16} (h : a ≤ masterTotalSlaveNum) :
      Allows .taken (.issue (.readHoldingRegister a reg n))
  | copyLoad {len i : Nat} : Allows (.copying len) (.board (.load (.rs485SendBufNotModbus i)))
  | copyStore {len i : Nat} {v : UInt8} :
      Allows (.copying len) (.board (.store (.ucMasterRTUSndBuf i) v))
  | flag {len : Nat} : Allows (.copying len) (.board (.store .mbSwitchFlag 1))
  | length {len : Nat} :
      Allows (.flagged len) (.board (.store .mbNotRtuDataLen (UInt8.ofNat len)))
  | rawPDU {len : Nat} : Allows (.lengthSet len) (.setPDUSndLength len)
  | address {a : UInt8} {reg n : UInt16} : Allows (.addressing a reg n) (.setDestAddress a)
  | fill {a : UInt8} {reg n : UInt16} {k : Nat} {v : UInt8} (h : (readHoldingPDU reg n)[k]? = some v) :
      Allows (.filling a reg n k) (.board (.store (.ucMasterRTUSndBuf (k + 1)) v))
  | holdPDU {a : UInt8} {reg n : UInt16} : Allows (.filling a reg n 5) (.setPDUSndLength 5)
  | post {r : Request} : Allows (.prepared r) (.eventPost .frameSent)
  | poll : Allows .pollIdle (.eventRecv pollEvents)
  | getDest : Allows .sending .getDestAddress
  | getLength {d : UInt8} : Allows (.sendingTo d) .getPDUSndLength
  | readFlag {d : UInt8} {n : Nat} : Allows (.sendingFrame d n) (.board (.load .mbSwitchFlag))
  | sendRTU {d : UInt8} {n : Nat} : Allows (.sendingRTU d n) (.rtuSend d n)
  | readLength : Allows .sendingRaw (.board (.load .mbNotRtuDataLen))
  | sendRaw {n : Nat} : Allows (.sendingRawOf n) (.sendNotDatas n)
  | handle {o : BusOp} (h : o.Polls) : Allows .polling o
  | pass {e : MasterEvent} (h : e = .execute ∨ e = .errorProcess) : Allows .polling (.eventPost e)
  | complete {e : MasterEvent} (h : e ∈ finishEvents) : Allows .polling (.eventPost e)
  | release : Allows .releasing .runResRelease
  | enter : Allows .transIdle .transStartWait
  | sndState : Allows .entered .getSndState
  | count : Allows .counting .getSndBufferCount
  | put : Allows .putting .serialPutByte
  | advance : Allows .advancing .incSndBufferCur
  | decrement : Allows .decrementing .decSndBufferCount
  | judge : Allows .ending (.board (.load (.ucMasterRTUSndBuf 0)))
  | setBroadcast {b : Bool} : Allows (.judging b) (.setFrameIsBroadcast b)
  | stop {b : Bool} : Allows (.stopping b) .serialEnableRx
  | xfwr {b : Bool} : Allows (.stopped b) (.setSndState .xfwr)
  | isBroadcast {b : Bool} : Allows (.waiting b) .requestIsBroadcast
  | convertDelay : Allows (.timing true) .timersConvertDelayEnable
  | respondTimeout : Allows (.timing false) .timersRespondTimeoutEnable

/-- The place after the operation. -/
def Stage.next (l : Stage) (o : BusOp) (x : BusAr o) : Stage :=
  match l with
  | .callerIdle =>
      match o with
      | .runResTake => .taken
      | _ => l
  | .taken =>
      match o with
      | .issue (.notRtuDatas len) => .copying len
      | .issue (.readHoldingRegister a reg n) => .addressing a reg n
      | _ => l
  | .copying len =>
      match o with
      | .board (.store .mbSwitchFlag _) => .flagged len
      | _ => l
  | .flagged len => .lengthSet len
  | .lengthSet len => .prepared (.notRtuDatas len)
  | .addressing a reg n => .filling a reg n 0
  | .filling a reg n k =>
      match o with
      | .setPDUSndLength _ => .prepared (.readHoldingRegister a reg n)
      | _ => .filling a reg n (k + 1)
  | .prepared _ => .callerIdle
  | .pollIdle =>
      match o, x with
      | .eventRecv _, es => if es = [.frameSent] then .sending else .polling
      | _, _ => l
  | .sending =>
      match o, x with
      | .getDestAddress, d => .sendingTo d
      | _, _ => l
  | .sendingTo d =>
      match o, x with
      | .getPDUSndLength, n => .sendingFrame d n
      | _, _ => l
  | .sendingFrame d n =>
      match o, x with
      | .board (.load _), flag => if flag ≠ 0 then .sendingRaw else .sendingRTU d n
      | _, _ => l
  | .sendingRaw =>
      match o, x with
      | .board (.load _), len => .sendingRawOf len.toNat
      | _, _ => l
  | .sendingRTU _ _ | .sendingRawOf _ | .releasing => .pollIdle
  | .polling =>
      match o with
      | .eventPost e => if e ∈ finishEvents then .releasing else .pollIdle
      | _ => l
  | .transIdle => .entered
  | .entered => .counting
  | .counting =>
      match o, x with
      | .getSndBufferCount, n => if n ≠ 0 then .putting else .ending
      | _, _ => l
  | .putting => .advancing
  | .advancing => .decrementing
  | .decrementing | .timing _ => .transIdle
  | .ending =>
      match o, x with
      | .board (.load _), v => .judging (v == 0)
      | _, _ => l
  | .judging b => .stopping b
  | .stopping b => .stopped b
  | .stopped b => .waiting b
  | .waiting b => .timing b

/-- What the thread may count on. -/
def Stage.Answers (l : Stage) (o : BusOp) (a : BusAr o) : Prop :=
  match l with
  | .pollIdle =>
      match o, a with
      | .eventRecv _, es =>
          ∃ e, e ∈ [MasterEvent.frameReceived, .execute, .frameSent, .errorProcess] ∧ es = [e]
      | _, _ => True
  | .sending =>
      match o, a with
      | .getDestAddress, d => d ≤ masterTotalSlaveNum
      | _, _ => True
  | .entered =>
      match o, a with
      | .getSndState, x => x = .xmit
      | _, _ => True
  | .waiting b =>
      match o, a with
      | .requestIsBroadcast, b' => b' = b
      | _, _ => True
  | _ => True

def masterDiscipline : Discipline BusOp BusAr Stage where
  ok := Stage.Allows
  answers := Stage.Answers
  next := Stage.next

/-! ## Every thread keeps to its place -/

/-- What the control code does, its requests included. -/
def Op.Calls : Op → Prop
  | .store a _ => ¬ a.Master
  | .exchange len => len < 256
  | _ => True

theorem Op.Control.calls {o : Op} (h : o.Control) : o.Calls := by
  cases o with
  | store a v => exact h.2
  | exchange len => exact absurd h id
  | _ => trivial

theorem controlOf_calls (c : Call) : (controlOf c).Only Op.Calls := by
  have hcontrol : ∀ o : Op, o.Control → o.Calls := fun _ => Op.Control.calls
  have hlocal : ∀ o : Op, o.Local → o.Calls := fun _ h => h.1.control.calls
  have hask : ∀ len, len ≤ 33 → (exchange len).Only Op.Calls := fun len h =>
    .op (Nat.lt_of_le_of_lt h (by decide)) fun _ => .ret _
  have hhold : ∀ k, (exchangeHold k).Only Op.Calls := fun k =>
    .op (show (Op.exchangeHold k).Calls from trivial) fun _ => .ret _
  cases c with
  | setDcMotor => exact setDcMotor_only hask hcontrol
  | getDisplayBoardData => exact getDisplayBoardData_only hask hcontrol fun _ _ => trivial
  | setDisplayBoardData => exact setDisplayBoardData_only hask hlocal
  | setDispboardFunctionMode type mode =>
      exact setDispboardFunctionMode_only hask hlocal type mode
  | sensorRead i => exact sensorRead_only hhold hcontrol i
  | setDeviceWorkMode type data signalCh =>
      exact setDeviceWorkMode_only hask hcontrol type data signalCh trivial
  | aircleanMotorSet mode =>
      exact (aircleanMotorSet_drives mode).mono fun _ h => h.control.calls
  | threadEntryPowerMonitor dCmdPower => exact threadEntryPowerMonitor_only hask hcontrol dCmdPower
  | rtCheckExDevice => exact rtCheckExDevice_only hask hcontrol

/-- A request leaves its caller where it found it. -/
theorem rawRequest_follows {len : Nat} (h : len < 256) :
    masterDiscipline.Follows (eMBMasterReqReadNotRtuDatas .rs485SendBufNotModbus len)
      (fun _ l => l = .callerIdle) .callerIdle := by
  have hround : ∀ i, masterDiscipline.Follows (do
      let b ← busLoad (.rs485SendBufNotModbus i)
      busStore (.ucMasterRTUSndBuf i) b) (fun _ l => l = Stage.copying len) (Stage.copying len) :=
    fun i => .op .copyLoad fun _ _ => .op .copyStore fun _ _ => .ret rfl
  have hcopy := Discipline.Follows.forUpTo (D := masterDiscipline) (n := len)
    (J := fun _ l => l = Stage.copying len) rfl fun i l _ hl => by
      subst hl
      exact hround i
  refine .op .take fun _ _ => .op (.issueRaw h) fun _ _ => hcopy.bind ?_
  rintro _ l rfl
  refine .op .flag fun _ _ => .op .length fun _ _ => .op .rawPDU fun _ _ => .op .post fun _ _ => ?_
  exact .op .finish fun _ _ => .op .clear fun _ _ => .ret rfl

theorem holdRequest_follows (a : UInt8) (reg n : UInt16) :
    masterDiscipline.Follows (eMBMasterReqReadHoldingRegister a reg n)
      (fun _ l => l = .callerIdle) .callerIdle := by
  refine .ite (fun _ => .ret rfl) fun h => ?_
  refine .op .take fun _ _ => .op (.issueHold (UInt8.not_lt.mp h)) fun _ _ => .op .address fun _ _ => ?_
  refine .op (.fill rfl) fun _ _ => .op (.fill rfl) fun _ _ => .op (.fill rfl) fun _ _ =>
    .op (.fill rfl) fun _ _ => .op (.fill rfl) fun _ _ => ?_
  exact .op .holdPDU fun _ _ => .op .post fun _ _ => .op .finish fun _ _ => .ret rfl

theorem onBus_follows {o : Op} (h : o.Calls) :
    masterDiscipline.Follows (onBus o) (fun _ l => l = .callerIdle) .callerIdle := by
  cases o with
  | exchange len => exact rawRequest_follows h
  | exchangeHold k => exact holdRequest_follows _ _ _
  | store a v => exact .op (.control h) fun _ _ => .ret rfl
  | _ => exact .op (.control trivial) fun _ _ => .ret rfl

theorem call_follows (c : Call) :
    masterDiscipline.Follows c.code (fun _ l => l = .callerIdle) .callerIdle := by
  refine .expand (J := fun l => l = Stage.callerIdle) (controlOf_calls c) (fun o ho l hl => ?_) rfl
  subst hl
  exact onBus_follows ho

theorem transmit_follows :
    masterDiscipline.Follows serialSoftTransIrq (fun _ l => l = .transIdle) .transIdle := by
  refine .op .enter fun _ _ => .op .sndState fun x hx => ?_
  obtain rfl : x = .xmit := hx
  refine .op .count fun n _ => ?_
  show masterDiscipline.Follows (if n ≠ 0 then _ else transmitEnd) _
    (if n ≠ 0 then Stage.putting else .ending)
  by_cases hn : n = 0
  · rw [if_neg (not_not.mpr hn), if_neg (not_not.mpr hn)]
    refine .op .judge fun b _ => .op .setBroadcast fun _ _ => .op .stop fun _ _ =>
      .op .xfwr fun _ _ => .op .isBroadcast fun b' hb => ?_
    obtain rfl : b' = (b == 0) := hb
    show masterDiscipline.Follows (if (b == 0) = true then _ else _) _ (.timing (b == 0))
    cases b == 0
    · exact .op .respondTimeout fun _ _ => .ret rfl
    · exact .op .convertDelay fun _ _ => .ret rfl
  · rw [if_pos hn, if_pos hn]
    exact .op .put fun _ _ => .op .advance fun _ _ => .op .decrement fun _ _ => .ret rfl

section Poll

variable {other : UInt8 → Option FunctionHandler}
  (hother : ∀ code h, other code = some h → ∀ frame len, (h frame len).Only BusOp.Handles)

theorem BusOp.Handles.polls {o : BusOp} (h : o.Handles) : o.Polls := by
  cases o with
  | setDestAddress a => exact absurd h id
  | getErrorType => trivial
  | setErrorType e => trivial
  | rtuReceive => trivial
  | _ => exact h

theorem eMBMasterFuncReadHoldingRegister_handles (frame : Nat → Addr) (len : Nat) :
    (eMBMasterFuncReadHoldingRegister frame len).Only BusOp.Handles := by
  have hvalues : ∀ f a n, (eMBMasterRegHoldingCB f a n).Only BusOp.Handles := by
    intro f a n
    simp only [eMBMasterRegHoldingCB, busOp, Prog.op_bind, Prog.ret_bind, Prog.only_op, Prog.only_ite]
    refine ⟨trivial, fun _ => ⟨fun _ => .bind (.forUpTo fun i _ => ?_) fun _ => .ret _, fun _ => .ret _⟩⟩
    simp [BusOp.Handles]
  simp [eMBMasterFuncReadHoldingRegister, BusOp.Handles, hvalues, Prog.Only.map]

include hother

theorem xMasterFuncHandlers_handles {code : UInt8} {h : FunctionHandler}
    (hcode : xMasterFuncHandlers other code = some h) (frame : Nat → Addr) (len : Nat) :
    (h frame len).Only BusOp.Handles := by
  unfold xMasterFuncHandlers at hcode
  split at hcode
  · cases hcode
    exact eMBMasterFuncReadHoldingRegister_handles frame len
  · exact hother code h hcode frame len

omit hother in
theorem polls_follows {α : Type} {p : BusCode α} (hp : p.Only BusOp.Polls) :
    masterDiscipline.Follows p (fun _ l => l = .polling) .polling := by
  refine .of_only hp (fun l o hl ho => ?_) rfl
  subst hl
  refine ⟨.handle ho, fun x _ => ?_⟩
  cases o with
  | eventPost e => exact absurd ho id
  | _ => rfl

theorem runHandler_polls (st : PollStatics) (code : UInt8) :
    (runHandler (xMasterFuncHandlers other) st code).Only BusOp.Polls := by
  unfold runHandler
  cases hcode : xMasterFuncHandlers other code with
  | none => exact .ret _
  | some h =>
      have hrun : ∀ frame len, (h frame len).Only BusOp.Polls := fun frame len =>
        (xMasterFuncHandlers_handles hother hcode frame len).mono fun _ => BusOp.Handles.polls
      have hround : ∀ n j, j < masterTotalSlaveNum.toNat → (do
          busOp (.setDestAddress (UInt8.ofNat (j + 1)))
          h st.ucMBFrame n : BusCode UInt8).Only BusOp.Polls := by
        intro n j hj
        have hslaves : j < 16 := hj
        have hdest : UInt8.ofNat (j + 1) ≤ masterTotalSlaveNum := by
          rw [UInt8.le_iff_toNat_le, UInt8.toNat_ofNat', Nat.mod_eq_of_lt (by omega)]
          exact hslaves
        exact .op hdest fun _ => hrun _ _
      refine .bind (.op trivial fun _ => .ret _) fun broadcast =>
        (Prog.only_ite ..).mpr ⟨fun _ => ?_, fun _ => .bind (hrun _ _) fun _ => .ret _⟩
      exact .bind (.op trivial fun _ => .ret _) fun n =>
        .bind (.foldUpTo fun j _ hj => hround n j hj) fun _ => .ret _

omit hother in
theorem processError_follows (e : MasterErrorEvent) :
    masterDiscipline.Follows (processError e) (fun _ l => l = .pollIdle) .polling :=
  .act (.handle trivial) fun _ _ => .op (.pass (.inr rfl)) fun _ _ => .ret rfl

omit hother in
theorem pollFrameReceived_follows (st : PollStatics) :
    masterDiscipline.Follows (pollFrameReceived st) (fun _ l => l = .pollIdle) .polling := by
  refine .act (.handle trivial) fun received _ => ?_
  cases received with
  | none => exact (processError_follows _).bind fun _ _ hl => .ret hl
  | some r =>
      refine .act (.handle trivial) fun dest _ => .bind (R := fun _ l => l = .pollIdle)
        (.ite (fun _ => ?_) fun _ => processError_follows _) fun _ _ hl => .ret hl
      exact .op (.pass (.inl rfl)) fun _ _ => .ret rfl

theorem pollExecute_follows (st : PollStatics) :
    masterDiscipline.Follows (pollExecute (xMasterFuncHandlers other) st)
      (fun _ l => l = .pollIdle) .polling := by
  have hhandled : ∀ code : UInt8, ((if code >>> 7 ≠ 0 then do
      let b ← busLoad (st.ucMBFrame 1)
      pure (b, st)
    else runHandler (xMasterFuncHandlers other) st code) : BusCode _).Only BusOp.Polls :=
    fun code => (Prog.only_ite ..).mpr
      ⟨fun _ => .op trivial fun _ => .ret _, fun _ => runHandler_polls hother st code⟩
  refine .act (.handle trivial) fun code _ => (polls_follows (hhandled code)).bind ?_
  rintro ⟨eException, st'⟩ l rfl
  refine .bind (R := fun _ l => l = .pollIdle) (.ite (fun _ => processError_follows _) fun _ => ?_)
    fun _ _ hl => .ret hl
  exact .act (.complete (by decide)) fun _ _ => .op .release fun _ _ => .ret rfl

omit hother in
theorem pollFrameSent_follows (st : PollStatics) :
    masterDiscipline.Follows (pollFrameSent st) (fun _ l => l = .pollIdle) .sending := by
  have hsend : ∀ d n, d ≤ masterTotalSlaveNum → masterDiscipline.Follows (eMBMasterRTUSend d n)
      (fun _ l => l = .pollIdle) (.sendingFrame d n) := by
    intro d n hd
    refine .act .readFlag fun flag _ => .ite (fun hflag => ?_) fun hflag => ?_
    · show masterDiscipline.Follows _ _ (if flag ≠ 0 then Stage.sendingRaw else .sendingRTU d n)
      rw [if_pos hflag]
      exact .act .readLength fun len _ => .op .sendRaw fun _ _ => .ret rfl
    · show masterDiscipline.Follows _ _ (if flag ≠ 0 then Stage.sendingRaw else .sendingRTU d n)
      rw [if_neg hflag]
      exact .ite (fun h => absurd h (UInt8.not_lt.mpr hd)) fun _ => .op .sendRTU fun _ _ => .ret rfl
  exact .act .getDest fun d hd => .act .getLength fun n _ => (hsend d n hd).bind fun _ _ hl => .ret hl

omit hother in
theorem pollErrorProcess_follows (st : PollStatics) :
    masterDiscipline.Follows (pollErrorProcess st) (fun _ l => l = .pollIdle) .polling := by
  have hfinish : ∀ e : MasterErrorEvent, e.callback ∈ finishEvents := by
    intro e
    cases e <;> decide
  refine .act (.handle trivial) fun e _ => .act (.handle trivial) fun d _ =>
    .act (.handle trivial) fun n _ => .act (.complete (hfinish e)) fun _ _ => ?_
  show masterDiscipline.Follows _ _ (if e.callback ∈ finishEvents then Stage.releasing else .pollIdle)
  rw [if_pos (hfinish e)]
  exact .act .release fun _ _ => .ret rfl

theorem eMBMasterPoll_follows (st : PollStatics) :
    masterDiscipline.Follows (eMBMasterPoll (xMasterFuncHandlers other) st)
      (fun _ l => l = .pollIdle) .pollIdle := by
  refine .op .poll fun es hes => ?_
  obtain ⟨e, he, rfl⟩ := hes
  simp only [List.mem_cons, List.not_mem_nil, or_false] at he
  rcases he with rfl | rfl | rfl | rfl
  · exact pollFrameReceived_follows st
  · exact pollExecute_follows hother st
  · exact pollFrameSent_follows st
  · exact pollErrorProcess_follows st

theorem pollRounds_follows (n : Nat) :
    masterDiscipline.Follows (pollRounds (xMasterFuncHandlers other) n)
      (fun _ l => l = .pollIdle) .pollIdle := by
  refine .bind (.foldUpTo (J := fun _ _ l => l = Stage.pollIdle) rfl fun _ st l _ hl => ?_)
    fun _ _ hl => .ret hl
  subst hl
  exact eMBMasterPoll_follows hother st

/-- The place of a thread whose turn it is not. -/
def idleStage (t : Nat) : Stage :=
  if t = pollThread then .pollIdle else if t = transThread then .transIdle else .callerIdle

theorem busThreads_follows (polls transmits : Nat) (calls : Nat → List Call) (t : Nat) :
    masterDiscipline.Follows (busThreads other polls transmits calls t)
      (fun _ l => l = idleStage t) (idleStage t) := by
  unfold busThreads idleStage
  by_cases hpoll : t = pollThread
  · rw [if_pos hpoll, if_pos hpoll]
    exact pollRounds_follows hother polls
  · rw [if_neg hpoll, if_neg hpoll]
    by_cases htrans : t = transThread
    · rw [if_pos htrans, if_pos htrans]
      refine .calls (J := fun l => l = Stage.transIdle) rfl fun p hp l hl => ?_
      rw [List.eq_of_mem_replicate hp, hl]
      exact transmit_follows
    · rw [if_neg htrans, if_neg htrans]
      refine .calls (J := fun l => l = Stage.callerIdle) rfl fun p hp l hl => ?_
      obtain ⟨c, -, rfl⟩ := List.mem_map.mp hp
      rw [hl]
      exact call_follows c

end Poll

/-! ## What the poll thread and the transmit thread do -/

/-- They write no memory of the board but its registers, put no request and are
not told the end of one. -/
def BusOp.Serves : BusOp → Prop
  | .board (.load _) => True
  | .board (.loadHoldBuf _ _) => True
  | .board .undef => True
  | .board _ => False
  | .runResTake => False
  | .eventRecv set => set ≠ finishEvents
  | _ => True

theorem BusOp.Polls.serves {o : BusOp} (h : o.Polls) : o.Serves := by
  cases o with
  | board o =>
      cases o with
      | load a => trivial
      | loadHoldBuf k r => trivial
      | _ => exact absurd h id
  | runResTake => exact absurd h id
  | eventRecv set => exact absurd h id
  | _ => trivial

theorem transmit_serves : serialSoftTransIrq.Only BusOp.Serves := by
  refine .op trivial fun _ => .op trivial fun x => ?_
  cases x with
  | idle => exact .op trivial fun _ => .ret _
  | xfwr => exact .ret _
  | xmit =>
      refine .op trivial fun n => (Prog.only_ite ..).mpr ⟨fun _ => ?_, fun _ => ?_⟩
      · exact .op trivial fun _ => .op trivial fun _ => .op trivial fun _ => .ret _
      · refine .op trivial fun b => .op trivial fun _ => .op trivial fun _ => .op trivial fun _ =>
          .op trivial fun b' => ?_
        exact (Prog.only_ite ..).mpr
          ⟨fun _ => .op trivial fun _ => .ret _, fun _ => .op trivial fun _ => .ret _⟩

theorem xMBMasterPortEventGet_serves : xMBMasterPortEventGet.Only BusOp.Serves := by
  refine .op (show pollEvents ≠ finishEvents by decide) fun es => ?_
  rcases es with _ | ⟨e, _ | ⟨e', es⟩⟩
  · exact .op trivial fun _ => .ret _
  · exact .ret _
  · exact .op trivial fun _ => .ret _

theorem processError_serves (e : MasterErrorEvent) : (processError e).Only BusOp.Serves :=
  .op trivial fun _ => .op trivial fun _ => .ret _

theorem pollFrameReceived_serves (st : PollStatics) : (pollFrameReceived st).Only BusOp.Serves := by
  refine .act trivial fun received => ?_
  cases received with
  | none => exact .bind (processError_serves _) fun _ => .ret _
  | some r =>
      have hpost : (busOp (.eventPost .execute)).Only BusOp.Serves := .op trivial fun _ => .ret _
      refine .act trivial fun dest => .bind ((Prog.only_ite ..).mpr ⟨fun _ => hpost, fun _ => ?_⟩)
        fun _ => .ret _
      exact processError_serves _

theorem pollFrameSent_serves (st : PollStatics) : (pollFrameSent st).Only BusOp.Serves := by
  refine .act trivial fun dest => .act trivial fun n =>
    .bind (.act trivial fun flag => (Prog.only_ite ..).mpr ⟨fun _ => ?_, fun _ => ?_⟩) fun _ => .ret _
  · exact .op trivial fun len => .op trivial fun _ => .ret _
  · exact (Prog.only_ite ..).mpr ⟨fun _ => .ret _, fun _ => .op trivial fun _ => .ret _⟩

theorem pollErrorProcess_serves (st : PollStatics) : (pollErrorProcess st).Only BusOp.Serves :=
  .op trivial fun _ => .op trivial fun _ => .op trivial fun _ =>
    .op trivial fun _ => .op trivial fun _ => .ret _

section Serves

variable {other : UInt8 → Option FunctionHandler}
  (hother : ∀ code h, other code = some h → ∀ frame len, (h frame len).Only BusOp.Handles)
include hother

theorem pollExecute_serves (st : PollStatics) :
    (pollExecute (xMasterFuncHandlers other) st).Only BusOp.Serves := by
  have hrun : ∀ code, (runHandler (xMasterFuncHandlers other) st code).Only BusOp.Serves := fun code =>
    (runHandler_polls hother st code).mono fun _ => BusOp.Polls.serves
  refine .act trivial fun code =>
    .bind ((Prog.only_ite ..).mpr ⟨fun _ => ?_, fun _ => hrun code⟩) fun r => ?_
  · exact .op trivial fun _ => .ret _
  · refine .bind ((Prog.only_ite ..).mpr ⟨fun _ => processError_serves _, fun _ => ?_⟩) fun _ => .ret _
    exact .op trivial fun _ => .op trivial fun _ => .ret _

theorem eMBMasterPoll_serves (st : PollStatics) :
    (eMBMasterPoll (xMasterFuncHandlers other) st).Only BusOp.Serves := by
  refine .bind xMBMasterPortEventGet_serves fun e => ?_
  rcases e with _ | e
  · exact .ret _
  · cases e with
    | frameReceived => exact pollFrameReceived_serves st
    | execute => exact pollExecute_serves hother st
    | frameSent => exact pollFrameSent_serves st
    | errorProcess => exact pollErrorProcess_serves st
    | _ => exact .ret _

theorem pollRounds_serves (n : Nat) : (pollRounds (xMasterFuncHandlers other) n).Only BusOp.Serves :=
  .bind (.foldUpTo fun _ st _ => eMBMasterPoll_serves hother st) fun _ => .ret _

end Serves

end Aclean
