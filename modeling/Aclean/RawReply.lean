import Aclean.Damaged
import Aclean.MasterStage

/-!
# A raw reply on the Modbus master

The display board and the motor are asked by raw requests, and what they
answer comes in through the same receiver as a Modbus response, sets off the
same event and is judged by the same poll. Its first byte is a header, which is
no address this program asks. So the poll takes the reply for a frame of another
slave, or for a damaged one, and ends the request as an error: it is the raw
bytes in the receive buffer that the caller looks at.

Here one raw request runs from its start to its end with nobody else on the
master: the requester up to its wait, a round of the poll thread that sends, the
transmit thread, the reply and the silence behind it, two more rounds of the poll
thread, and the requester again.
-/

namespace Aclean

/-- The addresses that requests of this program set; 0 before the first one. -/
def destAddresses : List UInt8 := [0, 11, 12, 13, 14, 15]

abbrev busMachine : Machine BusOp BusAr Bus := Bus.system.toMachine

/-! ## The two halves of a raw request -/

/-- `eMBMasterReqRead_not_rtu_datas` behind the run resource, up to the event. -/
def rawPrepare (ucMBFrame : Nat → Addr) (usLength : Nat) : BusCode Unit := do
  busOp (.issue (.notRtuDatas usLength))
  Prog.forUpTo usLength fun i => do
    let b ← busLoad (ucMBFrame i)
    busStore (.ucMasterRTUSndBuf i) b
  busStore .mbSwitchFlag 1
  busStore .mbNotRtuDataLen (UInt8.ofNat usLength)
  busOp (.setPDUSndLength usLength)

/-- What it does before it waits. -/
def rawAsk (ucMBFrame : Nat → Addr) (usLength : Nat) : BusCode Unit := do
  busOp .runResTake
  rawPrepare ucMBFrame usLength
  busOp (.eventPost .frameSent)

/-- The wait and what is left behind it. -/
def rawAwait : BusCode eMBMasterReqErrCode := do
  let eErrStatus ← eMBMasterWaitRequestFinish
  busStore .mbSwitchFlag 0
  pure eErrStatus

theorem eMBMasterReqReadNotRtuDatas_eq (ucMBFrame : Nat → Addr) (usLength : Nat) :
    eMBMasterReqReadNotRtuDatas ucMBFrame usLength = (do
      rawAsk ucMBFrame usLength
      rawAwait) := by
  simp only [eMBMasterReqReadNotRtuDatas, rawAsk, rawPrepare, rawAwait, bind_assoc]

/-! ## Asking and sending -/

/-- The two agree in what decides how a reply is judged, and in all memory that is
not the master's. -/
structure Bus.Aside (s s' : Bus) : Prop where
  runRes : s'.master.runRes = s.master.runRes
  event : s'.master.event = s.master.event
  listening : s'.master.eRcvState = s.master.eRcvState
  dest : s'.master.ucMBMasterDestAddress = s.master.ucMBMasterDestAddress
  registers : s'.board.usMRegHoldBuf = s.board.usMRegHoldBuf
  memory : ∀ a, ¬ a.Master → s'.mem a = s.mem a

theorem Bus.Aside.refl (s : Bus) : s.Aside s := ⟨rfl, rfl, rfl, rfl, rfl, fun _ _ => rfl⟩

theorem Bus.Aside.trans {s s' s'' : Bus} (h : s.Aside s') (h' : s'.Aside s'') : s.Aside s'' where
  runRes := h'.runRes.trans h.runRes
  event := h'.event.trans h.event
  listening := h'.listening.trans h.listening
  dest := h'.dest.trans h.dest
  registers := h'.registers.trans h.registers
  memory := fun a ha => (h'.memory a ha).trans (h.memory a ha)

/-- What is done to prepare a frame and to put it on the line. -/
def BusOp.Sends : BusOp → Prop
  | .board (.load _) => True
  | .board (.store a _) => a.Master
  | .issue _ | .getDestAddress | .getPDUSndLength | .setPDUSndLength _ => True
  | .sendNotDatas _ | .rtuSend _ _ => True
  | .transStartWait | .getSndState | .setSndState _ => True
  | .getSndBufferCount | .decSndBufferCount => True
  | .serialPutByte | .incSndBufferCur | .setFrameIsBroadcast _ | .requestIsBroadcast => True
  | .serialEnableRx | .timersConvertDelayEnable | .timersRespondTimeoutEnable => True
  | _ => False

theorem set_off {a b : Addr} (ha : a.Master) (hb : ¬ b.Master) (v : UInt8) (s : Bus) :
    (s.set a v).mem b = s.mem b := by
  have hne : b ≠ a := by
    rintro rfl
    exact hb ha
  exact (Board.set_mem ..).trans (if_neg hne)

theorem BusOp.Sends.aside {o : BusOp} (h : o.Sends) (t : Nat) (s : Bus) :
    s.Aside (Bus.exec t o s).2 := by
  cases o with
  | board o =>
      cases o with
      | load a => exact .refl s
      | store a v => exact ⟨rfl, rfl, rfl, rfl, rfl, fun _ hb => set_off h hb v s⟩
      | _ => exact absurd h id
  | sendNotDatas n =>
      rw [Bus.exec]
      split
      · exact ⟨rfl, rfl, rfl, rfl, rfl, fun _ _ => rfl⟩
      · exact .refl s
  | rtuSend d n =>
      rw [Bus.exec]
      split
      · refine ⟨rfl, rfl, rfl, rfl, rfl, fun a ha => ?_⟩
        have hbuf : ∀ i, (Addr.ucMasterRTUSndBuf i).Master := fun _ => trivial
        refine (set_off (hbuf _) ha _ _).trans ?_
        exact (set_off (hbuf _) ha _ _).trans (set_off (hbuf _) ha _ _)
      · exact .refl s
  | runResTake => exact absurd h id
  | runResRelease => exact absurd h id
  | eventPost e => exact absurd h id
  | eventRecv set => exact absurd h id
  | setDestAddress a => exact absurd h id
  | getErrorType => exact absurd h id
  | setErrorType e => exact absurd h id
  | storeHoldBuf k r v => exact absurd h id
  | rtuReceive => exact absurd h id
  | _ => exact ⟨rfl, rfl, rfl, rfl, rfl, fun _ _ => rfl⟩

theorem sends_run {α : Type} {p : BusCode α} (hp : p.Only BusOp.Sends) (t : Nat) (s : Bus) :
    s.Aside (p.run busMachine t s).2 := by
  have hkeeps : Prog.Keeps busMachine (fun s' => s.Aside s') p fun _ => True :=
    .of_only hp fun o ho t s' h => h.trans (ho.aside t s')
  exact (hkeeps t s (.refl s)).1

theorem rawPrepare_sends (ucMBFrame : Nat → Addr) (usLength : Nat) :
    (rawPrepare ucMBFrame usLength).Only BusOp.Sends := by
  have hcopy : (Prog.forUpTo usLength fun i => do
      let b ← busLoad (ucMBFrame i)
      busStore (.ucMasterRTUSndBuf i) b).Only BusOp.Sends :=
    .forUpTo fun i _ => .op trivial fun b => .op trivial fun _ => .ret _
  refine .act trivial fun _ => hcopy.bind fun _ => ?_
  exact .act trivial fun _ => .act trivial fun _ => .op trivial fun _ => .ret _

theorem pollFrameSent_sends (st : PollStatics) : (pollFrameSent st).Only BusOp.Sends := by
  have hsend : ∀ d n, (eMBMasterRTUSend d n).Only BusOp.Sends := by
    intro d n
    refine .act trivial fun flag => (Prog.only_ite ..).mpr ⟨fun _ => ?_, fun _ => ?_⟩
    · exact .act trivial fun len => .op trivial fun _ => .ret _
    · exact (Prog.only_ite ..).mpr ⟨fun _ => .ret _, fun _ => .op trivial fun _ => .ret _⟩
  exact .act trivial fun d => .act trivial fun n => (hsend d n).bind fun _ => .ret _

theorem transmitEnd_sends : transmitEnd.Only BusOp.Sends := by
  refine .act trivial fun b => .act trivial fun _ => .act trivial fun _ => .act trivial fun _ =>
    .act trivial fun b' => (Prog.only_ite ..).mpr ⟨fun _ => ?_, fun _ => ?_⟩
  · exact .op trivial fun _ => .ret _
  · exact .op trivial fun _ => .ret _

theorem serialSoftTransIrq_sends : serialSoftTransIrq.Only BusOp.Sends := by
  refine .act trivial fun _ => .act trivial fun x => ?_
  cases x with
  | idle => exact .op trivial fun _ => .ret _
  | xfwr => exact .ret _
  | xmit =>
      refine .act trivial fun n => (Prog.only_ite ..).mpr ⟨fun _ => ?_, fun _ => transmitEnd_sends⟩
      exact .act trivial fun _ => .act trivial fun _ => .op trivial fun _ => .ret _

theorem transmits_sends (k : Nat) :
    (Prog.calls (List.replicate k serialSoftTransIrq)).Only BusOp.Sends := by
  induction k with
  | zero => exact .ret _
  | succ k ih => exact serialSoftTransIrq_sends.bind fun _ => ih

/-! ## The reply comes in -/

/-- The bytes of a reply, and the silence that ends a frame. -/
def Bus.hear (bytes : List UInt8) (s : Bus) : Bus :=
  { s.feed bytes with master := (s.feed bytes).master.timerExpired }

theorem receive_congr {bytes : List UInt8} {mem mem' : Addr → UInt8} {a : Addr}
    (h : mem a = mem' a) :
    Board.receive bytes mem a = Board.receive bytes mem' a := by
  cases a with
  | ucMasterRTURcvBuf i => exact congrArg (bytes.getD i) h
  | _ => exact h

/-- The receiver behind the bytes of a frame. -/
theorem feed_eq {s : Bus} (hidle : s.master.eRcvState = .idle) {bytes : List UInt8}
    (hne : bytes ≠ []) (hlen : bytes.length ≤ serPDUSizeMax) :
    s.feed bytes = {
      board := { s.board with mem := Board.receive bytes s.board.mem }
      master := { s.master with
        eSndState := .idle, eRcvState := .rcv, usMasterRcvBufferPos := bytes.length,
        eMasterCurTimerMode := .t35, timer := true } } := by
  induction bytes using List.reverseRecOn with
  | nil => exact absurd rfl hne
  | append_singleton bytes b ih =>
      rw [Bus.feed, List.foldl_append, List.foldl_cons, List.foldl_nil, receive_snoc]
      by_cases hnil : bytes = []
      · subst hnil
        rw [receive_nil, List.foldl_nil, xMBMasterRTUReceiveFSM, hidle]
        rfl
      · rw [List.length_append, List.length_singleton] at hlen
        have hfed := ih hnil (Nat.le_of_succ_le hlen)
        rw [Bus.feed] at hfed
        rw [hfed, List.length_append, List.length_singleton]
        exact if_pos hlen

/-- The frame is there, and its event is up. -/
theorem hear_eq {s : Bus} (hidle : s.master.eRcvState = .idle) {bytes : List UInt8}
    (hne : bytes ≠ []) (hlen : bytes.length ≤ serPDUSizeMax) :
    s.hear bytes = {
      board := { s.board with mem := Board.receive bytes s.board.mem }
      master := { s.master with
        event := Function.update s.master.event .frameReceived true
        eSndState := .idle, eRcvState := .idle, usMasterRcvBufferPos := bytes.length,
        eMasterCurTimerMode := .t35, timer := false } } := by
  rw [Bus.hear, feed_eq hidle hne hlen]
  rfl

/-! ## The poll thread judges it -/

/-- One round of the poll thread. -/
def pollRound (handlers : UInt8 → Option FunctionHandler) (p : PollStatics × Bus) :
    PollStatics × Bus :=
  (eMBMasterPoll handlers p.1).run busMachine pollThread p.2

/-- What it does in that round. -/
def pollTrace (handlers : UInt8 → Option FunctionHandler) (p : PollStatics × Bus) : List BusOp :=
  (eMBMasterPoll handlers p.1).trace busMachine pollThread p.2

/-- The error path for a received frame; the address is looked at if length and
CRC are right. -/
def frameRefused (checks : Bool) : List BusOp :=
  [.eventRecv pollEvents, .rtuReceive] ++ (if checks then [.getDestAddress] else []) ++
    [.setErrorType .receiveData, .eventPost .errorProcess]

/-- The end of a request that the line has garbled. -/
def errorTold : List BusOp :=
  [.eventRecv pollEvents, .getErrorType, .getDestAddress, .getPDUSndLength,
    .eventPost .errorReceiveData, .runResRelease]

section Poll

variable {handlers : UInt8 → Option FunctionHandler} {s : Bus}

theorem pollEvents_up {m : Master} {e : MasterEvent} (he : e ∈ pollEvents)
    (hevent : m.event = Function.update (fun _ => false) e true) : m.eventsUp pollEvents = [e] := by
  rw [Master.eventsUp, hevent]
  revert he
  cases e <;> decide

theorem pollEvents_take {m : Master} {e : MasterEvent} (he : e ∈ pollEvents)
    (hevent : m.event = Function.update (fun _ => false) e true) :
    m.eventsTake pollEvents = { m with event := fun _ => false } := by
  have hnone : (fun e' => m.event e' && !pollEvents.contains e') = fun _ => false := by
    funext e'
    rw [hevent, Function.update_apply]
    by_cases heq : e' = e
    · subst heq
      simpa using he
    · rw [if_neg heq, Bool.false_and]
  rw [Master.eventsTake, hnone]

/-- The one event that is up is got and taken. -/
theorem portEventGet_run {e : MasterEvent} (he : e ∈ pollEvents)
    (hevent : s.master.event = Function.update (fun _ => false) e true) :
    xMBMasterPortEventGet.run busMachine pollThread s =
      (some e, { s with master := { s.master with event := fun _ => false } }) ∧
    xMBMasterPortEventGet.trace busMachine pollThread s = [.eventRecv pollEvents] := by
  have hup := pollEvents_up he hevent
  have htake := pollEvents_take he hevent
  constructor
  · simp only [xMBMasterPortEventGet, Prog.run_bind, Prog.run_op, Prog.run_ret, hup, htake]
    rfl
  · simp only [xMBMasterPortEventGet, Prog.trace_bind, Prog.run_op, Prog.run_ret, Prog.trace_op,
      Prog.trace_ret, hup]
    rfl

/-- A frame that does not come from the address asked is passed on as an error. -/
theorem frameReceived_refused (st : PollStatics)
    (hother : ∀ a n, (Bus.exec pollThread .rtuReceive s).1 = some (a, n) →
      a ≠ s.master.ucMBMasterDestAddress) :
    ((pollFrameReceived st).run busMachine pollThread s).2 =
        { s with master :=
          { s.master with eMBMasterCurErrorType := .receiveData }.eventPost .errorProcess } ∧
      .eventRecv pollEvents :: (pollFrameReceived st).trace busMachine pollThread s =
        frameRefused (Bus.exec pollThread .rtuReceive s).1.isSome := by
  by_cases hchecks : 4 ≤ s.master.usMasterRcvBufferPos ∧
      usMBCRC16 (s.rcvFrame s.master.usMasterRcvBufferPos) = 0
  · have hreceived : (busOp .rtuReceive).run busMachine pollThread s =
        (some (s.mem (.ucMasterRTURcvBuf 0), s.master.usMasterRcvBufferPos - 3), s) :=
      Prod.ext (if_pos hchecks) rfl
    have hdest : s.mem (.ucMasterRTURcvBuf 0) ≠
        ((busOp .getDestAddress).run busMachine pollThread s).1 := hother _ _ (if_pos hchecks)
    rw [pollFrameReceived, Prog.run_bind, Prog.trace_bind, hreceived]
    dsimp only
    rw [Prog.run_bind, Prog.trace_bind, if_neg hdest, if_pos hchecks]
    exact ⟨rfl, rfl⟩
  · have hexec : (Bus.exec pollThread .rtuReceive s).1 = none := if_neg hchecks
    have hreceived : (busOp .rtuReceive).run busMachine pollThread s = (none, s) :=
      Prod.ext hexec rfl
    rw [pollFrameReceived, Prog.run_bind, Prog.trace_bind, hreceived, hexec]
    exact ⟨rfl, rfl⟩

theorem pollRound_refused {p : PollStatics × Bus}
    (hevent : p.2.master.event = Function.update (fun _ => false) .frameReceived true)
    (hother : ∀ a n, (Bus.exec pollThread .rtuReceive p.2).1 = some (a, n) →
      a ≠ p.2.master.ucMBMasterDestAddress) :
    (pollRound handlers p).2 =
        { p.2 with master := { p.2.master with
          eMBMasterCurErrorType := .receiveData
          event := Function.update (fun _ => false) .errorProcess true } } ∧
      pollTrace handlers p = frameRefused (Bus.exec pollThread .rtuReceive p.2).1.isSome := by
  obtain ⟨hrun, htrace⟩ := portEventGet_run (by decide) hevent
  obtain ⟨hjudged, hpath⟩ : _ ∧ _ := frameReceived_refused p.1
    (s := { p.2 with master := { p.2.master with event := fun _ => false } }) hother
  constructor
  · rw [pollRound, eMBMasterPoll, Prog.run_bind, hrun]
    exact hjudged
  · rw [pollTrace, eMBMasterPoll, Prog.trace_bind, hrun, htrace]
    exact hpath

/-- The round behind it tells the requester and releases the run resource. -/
theorem pollRound_told {p : PollStatics × Bus}
    (hevent : p.2.master.event = Function.update (fun _ => false) .errorProcess true)
    (herror : p.2.master.eMBMasterCurErrorType = .receiveData) :
    (pollRound handlers p).2 =
        { p.2 with master := { p.2.master with
          runRes := p.2.master.runRes + 1
          event := Function.update (fun _ => false) .errorReceiveData true } } ∧
      pollTrace handlers p = errorTold := by
  obtain ⟨hrun, htrace⟩ := portEventGet_run (by decide) hevent
  constructor
  · rw [pollRound, eMBMasterPoll, Prog.run_bind, hrun]
    simp only [pollErrorProcess, Prog.run_bind, Prog.run_op, Prog.run_ret, herror]
    rfl
  · rw [pollTrace, eMBMasterPoll, Prog.trace_bind, hrun, htrace]
    simp only [pollErrorProcess, Prog.run_op, Prog.run_ret, Prog.trace_bind, Prog.trace_op, herror]
    rfl

/-- Both rounds on a frame that is refused. -/
theorem pollRounds_refused {p : PollStatics × Bus}
    (hevent : p.2.master.event = Function.update (fun _ => false) .frameReceived true)
    (hother : ∀ a n, (Bus.exec pollThread .rtuReceive p.2).1 = some (a, n) →
      a ≠ p.2.master.ucMBMasterDestAddress) :
    (pollRound handlers (pollRound handlers p)).2 =
        { p.2 with master := { p.2.master with
          eMBMasterCurErrorType := .receiveData
          runRes := p.2.master.runRes + 1
          event := Function.update (fun _ => false) .errorReceiveData true } } ∧
      pollTrace handlers p = frameRefused (Bus.exec pollThread .rtuReceive p.2).1.isSome ∧
      pollTrace handlers (pollRound handlers p) = errorTold := by
  obtain ⟨hjudged, hpath⟩ : _ ∧ pollTrace handlers p = _ := pollRound_refused hevent hother
  have hup : (pollRound handlers p).2.master.event =
      Function.update (fun _ => false) .errorProcess true := by rw [hjudged]
  have herror : (pollRound handlers p).2.master.eMBMasterCurErrorType = .receiveData := by
    rw [hjudged]
  obtain ⟨htold, hend⟩ : _ ∧ pollTrace handlers (pollRound handlers p) = _ :=
    pollRound_told hup herror
  refine ⟨?_, hpath, hend⟩
  rw [htold, hjudged]

/-- The round in which the frame goes out. -/
theorem pollRound_sent {p : PollStatics × Bus}
    (hevent : p.2.master.event = Function.update (fun _ => false) .frameSent true) :
    Bus.Aside { p.2 with master := { p.2.master with event := fun _ => false } }
      (pollRound handlers p).2 := by
  obtain ⟨hrun, -⟩ := portEventGet_run (by decide) hevent
  rw [pollRound, eMBMasterPoll, Prog.run_bind, hrun]
  exact sends_run (pollFrameSent_sends p.1) _ _

end Poll

/-- The requester finds the error; nothing of it is left. -/
theorem rawAwait_run {s : Bus} (t : Nat)
    (hevent : s.master.event = Function.update (fun _ => false) .errorReceiveData true) :
    rawAwait.run busMachine t s = (.revData, { s.set .mbSwitchFlag 0 with
      master := { s.master with event := fun _ => false } }) := by
  have hup : s.master.eventsUp finishEvents = [.errorReceiveData] := by
    rw [Master.eventsUp, hevent]
    decide
  have htake : s.master.eventsTake finishEvents = { s.master with event := fun _ => false } := by
    rw [Master.eventsTake, hevent]
    congr 1
    funext e
    cases e <;> rfl
  simp only [rawAwait, eMBMasterWaitRequestFinish, Prog.run_bind, Prog.run_map, Prog.run_op,
    Prog.run_ret, Prog.run_pure, hup, htake]
  rfl

/-! ## One raw request -/

section Exchange

variable (handlers : UInt8 → Option FunctionHandler) (st : PollStatics) (ucMBFrame : Nat → Addr)
  (usLength t k : Nat) (reply : List UInt8) (s : Bus)

/-- The request is sent, by so many rounds of the transmit thread, and waits. -/
def rawWaiting : PollStatics × Bus :=
  let asked := ((rawAsk ucMBFrame usLength).run busMachine t s).2
  let sent := pollRound handlers (st, asked)
  (sent.1, ((Prog.calls (List.replicate k serialSoftTransIrq)).run busMachine transThread sent.2).2)

/-- The reply is in the receive buffer, and its event up. -/
def rawHeard : PollStatics × Bus :=
  let waiting := rawWaiting handlers st ucMBFrame usLength t k s
  (waiting.1, waiting.2.hear reply)

/-- What the requester is told, and the state it goes on in. -/
def rawExchange : eMBMasterReqErrCode × Bus :=
  let heard := rawHeard handlers st ucMBFrame usLength t k reply s
  rawAwait.run busMachine t (pollRound handlers (pollRound handlers heard)).2

variable {handlers st ucMBFrame usLength t k reply s}

/-- Of what counts, the requester that waits has changed the run resource only. -/
theorem rawWaiting_aside (hevent : ∀ e, s.master.event e = false) :
    (Bus.exec t .runResTake s).2.Aside (rawWaiting handlers st ucMBFrame usLength t k s).2 := by
  let prepared := ((rawPrepare ucMBFrame usLength).run busMachine t (Bus.exec t .runResTake s).2).2
  have hprepared : (Bus.exec t .runResTake s).2.Aside prepared :=
    sends_run (rawPrepare_sends ucMBFrame usLength) t _
  have hnone : prepared.master.event = fun _ => false := hprepared.event.trans (funext hevent)
  have hasked : ((rawAsk ucMBFrame usLength).run busMachine t s).2 =
      { prepared with master := prepared.master.eventPost .frameSent } := by
    rw [rawAsk, Prog.run_bind, Prog.run_bind]
    rfl
  let p : PollStatics × Bus :=
    (st, { prepared with master := prepared.master.eventPost .frameSent })
  have htaken : prepared.Aside
      { p.2 with master := { p.2.master with event := fun _ => false } } :=
    ⟨rfl, hnone.symm, rfl, rfl, rfl, fun _ _ => rfl⟩
  have hposted : p.2.master.event = Function.update (fun _ => false) .frameSent true := by
    show Function.update prepared.master.event .frameSent true = _
    rw [hnone]
  have hsent : Bus.Aside _ (pollRound handlers p).2 := pollRound_sent hposted
  have hline := sends_run (transmits_sends k) transThread (pollRound handlers p).2
  rw [rawWaiting, hasked]
  exact hprepared.trans (htaken.trans (hsent.trans hline))

theorem header_ne_dest {head dest : UInt8} (hhead : head ∈ [0xF1, 0xF2, 0xBC])
    (hdest : dest ∈ destAddresses) : head ≠ dest := by
  simp only [destAddresses, List.mem_cons, List.not_mem_nil, or_false] at hhead hdest
  rcases hhead with rfl | rfl | rfl
  · rcases hdest with rfl | rfl | rfl | rfl | rfl | rfl <;> decide
  · rcases hdest with rfl | rfl | rfl | rfl | rfl | rfl <;> decide
  · rcases hdest with rfl | rfl | rfl | rfl | rfl | rfl <;> decide

variable {head : UInt8} {rest : List UInt8}

/-- The whole request, from what is there while it waits. -/
theorem rawExchange_run (hevent : ∀ e, s.master.event e = false)
    (hidle : s.master.eRcvState = .idle) (hdest : s.master.ucMBMasterDestAddress ∈ destAddresses)
    (hhead : head ∈ [0xF1, 0xF2, 0xBC]) (hlen : rest.length ≤ 254) :
    let waiting := (rawWaiting handlers st ucMBFrame usLength t k s).2
    let heard := rawHeard handlers st ucMBFrame usLength t k (head :: rest) s
    (∃ checks, pollTrace handlers heard = frameRefused checks) ∧
      pollTrace handlers (pollRound handlers heard) = errorTold ∧
      ∃ m : Master, m.runRes = waiting.master.runRes + 1 ∧
        rawExchange handlers st ucMBFrame usLength t k (head :: rest) s =
          (.revData, ⟨{ waiting.board with
            mem := Board.receive (head :: rest) waiting.board.mem }.set .mbSwitchFlag 0, m⟩) := by
  intro waiting heard
  have hwaiting : (Bus.exec t .runResTake s).2.Aside waiting := rawWaiting_aside hevent
  have hnone : waiting.master.event = fun _ => false := hwaiting.event.trans (funext hevent)
  have hlen' : (head :: rest).length ≤ serPDUSizeMax := Nat.le_succ_of_le (Nat.succ_le_succ hlen)
  have hheard : heard.2 = _ := hear_eq (hwaiting.listening.trans hidle) (List.cons_ne_nil _ _) hlen'
  have hup : heard.2.master.event = Function.update (fun _ => false) .frameReceived true := by
    rw [hheard, ← hnone]
  have hother : ∀ a n, (Bus.exec pollThread .rtuReceive heard.2).1 = some (a, n) →
      a ≠ heard.2.master.ucMBMasterDestAddress := by
    intro a n hreceived
    obtain ⟨rfl, -⟩ : heard.2.mem (.ucMasterRTURcvBuf 0) = a ∧ _ :=
      Prod.mk.inj (Option.some.inj ((Option.ite_none_right_eq_some.mp hreceived).2))
    rw [hheard]
    exact header_ne_dest hhead (hwaiting.dest ▸ hdest)
  obtain ⟨htold, hpath, hend⟩ : _ ∧ pollTrace handlers heard = _ ∧ _ :=
    pollRounds_refused hup hother
  have hback := rawAwait_run t (s := (pollRound handlers (pollRound handlers heard)).2)
    (by rw [htold])
  refine ⟨⟨_, hpath⟩, hend, { heard.2.master with
    eMBMasterCurErrorType := .receiveData
    runRes := heard.2.master.runRes + 1
    event := fun _ => false }, by rw [hheard], hback.trans ?_⟩
  rw [htold, hheard]
  rfl

/-- **A raw reply is never executed.** Whatever the handlers are, the poll thread
only takes the two events, looks at the frame, sets the error, tells the requester
and releases the run resource. -/
theorem raw_reply_refused (hrun : 0 < s.master.runRes) (hevent : ∀ e, s.master.event e = false)
    (hidle : s.master.eRcvState = .idle) (hdest : s.master.ucMBMasterDestAddress ∈ destAddresses)
    (hhead : head ∈ [0xF1, 0xF2, 0xBC]) (hlen : rest.length ≤ 254) :
    let heard := rawHeard handlers st ucMBFrame usLength t k (head :: rest) s
    let exchange := rawExchange handlers st ucMBFrame usLength t k (head :: rest) s
    (∃ checks, pollTrace handlers heard = frameRefused checks) ∧
      pollTrace handlers (pollRound handlers heard) = errorTold ∧
      exchange.1 = .revData ∧
      exchange.2.board.usMRegHoldBuf = s.board.usMRegHoldBuf ∧
      exchange.2.master.runRes = s.master.runRes := by
  intro heard exchange
  have hwaiting : (Bus.exec t .runResTake s).2.Aside
      (rawWaiting handlers st ucMBFrame usLength t k s).2 := rawWaiting_aside hevent
  obtain ⟨hpath, hend, m, hm, hback⟩ : _ ∧ _ ∧ ∃ m : Master, _ ∧ exchange = _ :=
    rawExchange_run hevent hidle hdest hhead hlen
  refine ⟨hpath, hend, by rw [hback], ?_, ?_⟩
  · rw [hback]
    exact hwaiting.registers
  · have htaken : (rawWaiting handlers st ucMBFrame usLength t k s).2.master.runRes =
        s.master.runRes - 1 := hwaiting.runRes
    rw [hback]
    show m.runRes = s.master.runRes
    omega

/-- A reply of the display board that is a valid Modbus frame from address `0xF1`. -/
theorem raw_reply_refused_crc :
    (rawExchange (fun _ => none) ⟨pduSndBuf, 0⟩ .rs485SendBufNotModbus 7 2 8
      [0xF1, 0xF1, 0x05, 0xA5, 0xA0] ⟨Board.reset, Master.enabled⟩).1 = .revData :=
  (raw_reply_refused (by decide) (fun _ => rfl) rfl (by decide) (by decide) (by decide)).2.2.1

/-- Apart from what the master keeps for itself, the request does what `exchange`
stands for where the master is not looked into. -/
theorem rawExchange_exchange (hevent : ∀ e, s.master.event e = false)
    (hidle : s.master.eRcvState = .idle) (hdest : s.master.ucMBMasterDestAddress ∈ destAddresses)
    (hhead : head ∈ [0xF1, 0xF2, 0xBC]) (hlen : rest.length ≤ 254) (n : Nat) :
    let exchange := rawExchange handlers st ucMBFrame usLength t k (head :: rest) s
    let scripted := Board.exec t (.exchange n)
      { s.board with replies := [⟨.revData, head :: rest, []⟩] }
    exchange.1 = scripted.1 ∧ ∀ a, ¬ a.Master → exchange.2.mem a = scripted.2.mem a := by
  intro exchange scripted
  have hwaiting : (Bus.exec t .runResTake s).2.Aside
      (rawWaiting handlers st ucMBFrame usLength t k s).2 := rawWaiting_aside hevent
  obtain ⟨-, -, m, -, hback⟩ : _ ∧ _ ∧ ∃ m : Master, _ ∧ exchange = _ :=
    rawExchange_run hevent hidle hdest hhead hlen
  refine ⟨by rw [hback]; rfl, fun a ha => ?_⟩
  have hflag : a ≠ .mbSwitchFlag := by
    rintro rfl
    exact ha trivial
  rw [hback]
  exact (Board.set_mem ..).trans ((if_neg hflag).trans (receive_congr (hwaiting.memory a ha)))

end Exchange

end Aclean
