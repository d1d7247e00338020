import Aclean.Monitor

/-!
# The Modbus master on the RS485 line

FreeModbus' master as the main board runs it: the two request functions with
the run resource, the poll thread, the thread that stands in for the
transmit interrupt, and the receive and timer interrupts. Beside the Modbus
requests there is a raw one for the display board and the motor
(`eMBMasterReqRead_not_rtu_datas`), which tells the poll thread its kind by
a global flag and whose bytes the poll thread takes from
`rs485_send_buf_not_modbus`, not from the frame it was given.

The bus has a signature of its own over that of the board. A critical
section and a kernel call are one operation, and so is each access to a
global outside of them; the interrupts are events of the environment. The
control code runs on the bus by expansion: its requests become the master's
code. A thread that waits takes the semaphore, or its bits of the event
set, in the step in which it goes on; the kernel may hand them over
earlier, which only rules out some of these interleavings.

The model starts where the master is enabled and the receiver idle.
-/

namespace Aclean

/-! ## CRC -/

def aucCRCHi : List UInt8 := [
    0x00, 0xC1, 0x81, 0x40, 0x01, 0xC0, 0x80, 0x41, 0x01, 0xC0, 0x80, 0x41, 0x00, 0xC1, 0x81, 0x40,
    0x01, 0xC0, 0x80, 0x41, 0x00, 0xC1, 0x81, 0x40, 0x00, 0xC1, 0x81, 0x40, 0x01, 0xC0, 0x80, 0x41,
    0x01, 0xC0, 0x80, 0x41, 0x00, 0xC1, 0x81, 0x40, 0x00, 0xC1, 0x81, 0x40, 0x01, 0xC0, 0x80, 0x41,
    0x00, 0xC1, 0x81, 0x40, 0x01, 0xC0, 0x80, 0x41, 0x01, 0xC0, 0x80, 0x41, 0x00, 0xC1, 0x81, 0x40,
    0x01, 0xC0, 0x80, 0x41, 0x00, 0xC1, 0x81, 0x40, 0x00, 0xC1, 0x81, 0x40, 0x01, 0xC0, 0x80, 0x41,
    0x00, 0xC1, 0x81, 0x40, 0x01, 0xC0, 0x80, 0x41, 0x01, 0xC0, 0x80, 0x41, 0x00, 0xC1, 0x81, 0x40,
    0x00, 0xC1, 0x81, 0x40, 0x01, 0xC0, 0x80, 0x41, 0x01, 0xC0, 0x80, 0x41, 0x00, 0xC1, 0x81, 0x40,
    0x01, 0xC0, 0x80, 0x41, 0x00, 0xC1, 0x81, 0x40, 0x00, 0xC1, 0x81, 0x40, 0x01, 0xC0, 0x80, 0x41,
    0x01, 0xC0, 0x80, 0x41, 0x00, 0xC1, 0x81, 0x40, 0x00, 0xC1, 0x81, 0x40, 0x01, 0xC0, 0x80, 0x41,
    0x00, 0xC1, 0x81, 0x40, 0x01, 0xC0, 0x80, 0x41, 0x01, 0xC0, 0x80, 0x41, 0x00, 0xC1, 0x81, 0x40,
    0x00, 0xC1, 0x81, 0x40, 0x01, 0xC0, 0x80, 0x41, 0x01, 0xC0, 0x80, 0x41, 0x00, 0xC1, 0x81, 0x40,
    0x01, 0xC0, 0x80, 0x41, 0x00, 0xC1, 0x81, 0x40, 0x00, 0xC1, 0x81, 0x40, 0x01, 0xC0, 0x80, 0x41,
    0x00, 0xC1, 0x81, 0x40, 0x01, 0xC0, 0x80, 0x41, 0x01, 0xC0, 0x80, 0x41, 0x00, 0xC1, 0x81, 0x40,
    0x01, 0xC0, 0x80, 0x41, 0x00, 0xC1, 0x81, 0x40, 0x00, 0xC1, 0x81, 0x40, 0x01, 0xC0, 0x80, 0x41,
    0x01, 0xC0, 0x80, 0x41, 0x00, 0xC1, 0x81, 0x40, 0x00, 0xC1, 0x81, 0x40, 0x01, 0xC0, 0x80, 0x41,
    0x00, 0xC1, 0x81, 0x40, 0x01, 0xC0, 0x80, 0x41, 0x01, 0xC0, 0x80, 0x41, 0x00, 0xC1, 0x81, 0x40]

def aucCRCLo : List UInt8 := [
    0x00, 0xC0, 0xC1, 0x01, 0xC3, 0x03, 0x02, 0xC2, 0xC6, 0x06, 0x07, 0xC7, 0x05, 0xC5, 0xC4, 0x04,
    0xCC, 0x0C, 0x0D, 0xCD, 0x0F, 0xCF, 0xCE, 0x0E, 0x0A, 0xCA, 0xCB, 0x0B, 0xC9, 0x09, 0x08, 0xC8,
    0xD8, 0x18, 0x19, 0xD9, 0x1B, 0xDB, 0xDA, 0x1A, 0x1E, 0xDE, 0xDF, 0x1F, 0xDD, 0x1D, 0x1C, 0xDC,
    0x14, 0xD4, 0xD5, 0x15, 0xD7, 0x17, 0x16, 0xD6, 0xD2, 0x12, 0x13, 0xD3, 0x11, 0xD1, 0xD0, 0x10,
    0xF0, 0x30, 0x31, 0xF1, 0x33, 0xF3, 0xF2, 0x32, 0x36, 0xF6, 0xF7, 0x37, 0xF5, 0x35, 0x34, 0xF4,
    0x3C, 0xFC, 0xFD, 0x3D, 0xFF, 0x3F, 0x3E, 0xFE, 0xFA, 0x3A, 0x3B, 0xFB, 0x39, 0xF9, 0xF8, 0x38,
    0x28, 0xE8, 0xE9, 0x29, 0xEB, 0x2B, 0x2A, 0xEA, 0xEE, 0x2E, 0x2F, 0xEF, 0x2D, 0xED, 0xEC, 0x2C,
    0xE4, 0x24, 0x25, 0xE5, 0x27, 0xE7, 0xE6, 0x26, 0x22, 0xE2, 0xE3, 0x23, 0xE1, 0x21, 0x20, 0xE0,
    0xA0, 0x60, 0x61, 0xA1, 0x63, 0xA3, 0xA2, 0x62, 0x66, 0xA6, 0xA7, 0x67, 0xA5, 0x65, 0x64, 0xA4,
    0x6C, 0xAC, 0xAD, 0x6D, 0xAF, 0x6F, 0x6E, 0xAE, 0xAA, 0x6A, 0x6B, 0xAB, 0x69, 0xA9, 0xA8, 0x68,
    0x78, 0xB8, 0xB9, 0x79, 0xBB, 0x7B, 0x7A, 0xBA, 0xBE, 0x7E, 0x7F, 0xBF, 0x7D, 0xBD, 0xBC, 0x7C,
    0xB4, 0x74, 0x75, 0xB5, 0x77, 0xB7, 0xB6, 0x76, 0x72, 0xB2, 0xB3, 0x73, 0xB1, 0x71, 0x70, 0xB0,
    0x50, 0x90, 0x91, 0x51, 0x93, 0x53, 0x52, 0x92, 0x96, 0x56, 0x57, 0x97, 0x55, 0x95, 0x94, 0x54,
    0x9C, 0x5C, 0x5D, 0x9D, 0x5F, 0x9F, 0x9E, 0x5E, 0x5A, 0x9A, 0x9B, 0x5B, 0x99, 0x59, 0x58, 0x98,
    0x88, 0x48, 0x49, 0x89, 0x4B, 0x8B, 0x8A, 0x4A, 0x4E, 0x8E, 0x8F, 0x4F, 0x8D, 0x4D, 0x4C, 0x8C,
    0x44, 0x84, 0x85, 0x45, 0x87, 0x47, 0x46, 0x86, 0x82, 0x42, 0x43, 0x83, 0x41, 0x81, 0x80, 0x40]

/-- The loop of `usMBCRC16`, from the values of `ucCRCHi` and `ucCRCLo`. -/
def crcLoop : List UInt8 → UInt8 → UInt8 → UInt16
  | [], ucCRCHi, ucCRCLo => (ucCRCHi.toUInt16 <<< 8) ||| ucCRCLo.toUInt16
  | b :: bs, ucCRCHi, ucCRCLo =>
      let iIndex := (ucCRCLo ^^^ b).toNat
      crcLoop bs (aucCRCLo.getD iIndex 0) (ucCRCHi ^^^ aucCRCHi.getD iIndex 0)

def usMBCRC16 (frame : List UInt8) : UInt16 := crcLoop frame 0xFF 0xFF

/-- A frame with its CRC behind it, low byte first. -/
def withCRC (frame : List UInt8) : List UInt8 :=
  frame ++ [(usMBCRC16 frame &&& 0xFF).toUInt8, (usMBCRC16 frame >>> 8).toUInt8]

/-! ## State -/

/-- `EV_MASTER_*`. -/
inductive MasterEvent where
  | ready
  | frameReceived
  | execute
  | frameSent
  | errorProcess
  | processSucess
  | errorRespondTimeout
  | errorReceiveData
  | errorExecuteFunction
  deriving DecidableEq, Repr

/-- `EV_ERROR_*`. -/
inductive MasterErrorEvent where
  | respondTimeout
  | receiveData
  | executeFunction
  deriving DecidableEq, Repr

/-- `STATE_M_TX_*`. -/
inductive SndState where
  | idle
  | xmit
  | xfwr
  deriving DecidableEq, Repr

/-- `STATE_M_RX_*`. -/
inductive RcvState where
  | init
  | idle
  | rcv
  | error
  deriving DecidableEq, Repr

/-- `MB_TMODE_*`. -/
inductive TimerMode where
  | t35
  | respondTimeout
  | convertDelay
  deriving DecidableEq, Repr

/-- The two arrays a frame is sent from. -/
inductive SndBuf where
  | masterRTU
  | notModbus
  deriving DecidableEq, Repr

def SndBuf.addr : SndBuf → Nat → Addr
  | .masterRTU, i => .ucMasterRTUSndBuf i
  | .notModbus, i => .rs485SendBufNotModbus i

/-- The master's globals (its buffers and the mode flag are bytes of the
board's memory). Lengths and positions are `Nat`: they stay below 300. -/
structure Master where
  /-- `xMasterRunRes`, a semaphore. -/
  runRes : Nat
  /-- `xMasterOsEvent`, a set of bits. -/
  event : MasterEvent → Bool
  ucMBMasterDestAddress : UInt8
  eMBMasterCurErrorType : MasterErrorEvent
  usMasterSendPDULength : Nat
  eSndState : SndState
  eRcvState : RcvState
  /-- `pucMasterSndBufferCur`: the array it points into, and where. -/
  sndBuf : SndBuf
  sndPos : Nat
  usMasterSndBufferCount : Nat
  usMasterRcvBufferPos : Nat
  xFrameIsBroadcast : Bool
  eMasterCurTimerMode : TimerMode
  /-- The one-shot timer runs. -/
  timer : Bool
  /-- `EVENT_SERIAL_TRANS_START`. -/
  transStart : Bool

structure Bus where
  board : Board
  master : Master

/-- After `eMBMasterEnable` and the first expiry of the timer. -/
def Master.enabled : Master where
  runRes := 1
  event := fun _ => false
  ucMBMasterDestAddress := 0
  eMBMasterCurErrorType := .respondTimeout
  usMasterSendPDULength := 0
  eSndState := .idle
  eRcvState := .idle
  sndBuf := .masterRTU
  sndPos := 0
  usMasterSndBufferCount := 0
  usMasterRcvBufferPos := 0
  xFrameIsBroadcast := false
  eMasterCurTimerMode := .t35
  timer := false
  transStart := false

namespace Master

def timersT35Enable (m : Master) : Master :=
  { m with eMasterCurTimerMode := .t35, timer := true }

def timersConvertDelayEnable (m : Master) : Master :=
  { m with eMasterCurTimerMode := .convertDelay, timer := true }

def timersRespondTimeoutEnable (m : Master) : Master :=
  { m with eMasterCurTimerMode := .respondTimeout, timer := true }

def timersDisable (m : Master) : Master := { m with timer := false }

def eventPost (e : MasterEvent) (m : Master) : Master :=
  { m with event := Function.update m.event e true }

/-- `RT_EVENT_FLAG_OR | RT_EVENT_FLAG_CLEAR`: those bits of `set` that are up. -/
def eventsUp (set : List MasterEvent) (m : Master) : List MasterEvent := set.filter m.event

def eventsTake (set : List MasterEvent) (m : Master) : Master :=
  { m with event := fun e => m.event e && !set.contains e }

end Master

/-! ## Interrupts -/

def Bus.mem (s : Bus) (a : Addr) : UInt8 := s.board.mem a

def Bus.set (s : Bus) (a : Addr) (v : UInt8) : Bus := { s with board := s.board.set a v }

/-- `MB_SER_PDU_SIZE_MAX`. -/
abbrev serPDUSizeMax : Nat := 256

/-- `xMBMasterRTUReceiveFSM`. -/
def xMBMasterRTUReceiveFSM (ucByte : UInt8) (s : Bus) : Bus :=
  match s.master.eRcvState with
  | .init => { s with master := s.master.timersT35Enable }
  | .error => { s with master := s.master.timersT35Enable }
  | .idle =>
      { s.set (.ucMasterRTURcvBuf 0) ucByte with
        master := { s.master.timersDisable with
          eSndState := .idle, usMasterRcvBufferPos := 1, eRcvState := .rcv }.timersT35Enable }
  | .rcv =>
      if s.master.usMasterRcvBufferPos < serPDUSizeMax then
        { s.set (.ucMasterRTURcvBuf s.master.usMasterRcvBufferPos) ucByte with
          master := { s.master with
            usMasterRcvBufferPos := s.master.usMasterRcvBufferPos + 1 }.timersT35Enable }
      else { s with master := { s.master with eRcvState := .error }.timersT35Enable }

/-- A byte touches no mutex and posts no event. -/
theorem receiveFSM_same (ucByte : UInt8) (s : Bus) :
    (xMBMasterRTUReceiveFSM ucByte s).board.mutex = s.board.mutex ∧
      (xMBMasterRTUReceiveFSM ucByte s).master.event = s.master.event := by
  unfold xMBMasterRTUReceiveFSM
  split
  · exact ⟨rfl, rfl⟩
  · exact ⟨rfl, rfl⟩
  · exact ⟨rfl, rfl⟩
  · split <;> exact ⟨rfl, rfl⟩

/-- The first switch of `xMBMasterRTUTimerExpired`, on the receiver's state. -/
def Master.rcvExpired (m : Master) : Master :=
  match m.eRcvState with
  | .init => m.eventPost .ready
  | .rcv => m.eventPost .frameReceived
  | .error => { m with eMBMasterCurErrorType := .receiveData }.eventPost .errorProcess
  | .idle => m

/-- The second, on the transmitter's. -/
def Master.sndExpired (m : Master) : Master :=
  if m.eSndState = .xfwr ∧ m.xFrameIsBroadcast = false then
    { m with eMBMasterCurErrorType := .respondTimeout }.eventPost .errorProcess
  else m

/-- `xMBMasterRTUTimerExpired`. -/
def Master.timerExpired (m : Master) : Master :=
  let m := { m.rcvExpired with eRcvState := .idle }
  let m := { m.sndExpired with eSndState := .idle }.timersDisable
  if m.eMasterCurTimerMode = .convertDelay then m.eventPost .execute else m

inductive BusEv where
  | rxByte (ucByte : UInt8)
  | timerExpired
  deriving DecidableEq, Repr

/-! ## Operations -/

/-- What a requester asks for. -/
inductive Request where
  /-- A raw frame of that many bytes. -/
  | notRtuDatas (usLength : Nat)
  | readHoldingRegister (ucSndAddr : UInt8) (usRegAddr usNRegs : UInt16)
  deriving DecidableEq, Repr

inductive BusOp where
  | board (o : Op)
  | runResTake
  | runResRelease
  | eventPost (e : MasterEvent)
  | eventRecv (set : List MasterEvent)
  /-- The requester that has got the run resource goes on with this request;
  no code reads it back. -/
  | issue (r : Request)
  | getDestAddress
  | setDestAddress (address : UInt8)
  | getPDUSndLength
  | setPDUSndLength (n : Nat)
  | getErrorType
  | setErrorType (e : MasterErrorEvent)
  | requestIsBroadcast
  | storeHoldBuf (slave reg : Nat) (v : UInt16)
  /-- The critical section of `eMBMasterRTUReceive`. -/
  | rtuReceive
  /-- That of `eMBMaster_Send_not_datas`. -/
  | sendNotDatas (usLength : Nat)
  /-- That of `eMBMasterRTUSend`. -/
  | rtuSend (ucSlaveAddress : UInt8) (usLength : Nat)
  | transStartWait
  | getSndState
  | setSndState (x : SndState)
  | getSndBufferCount
  | decSndBufferCount
  /-- A byte is loaded from where the send pointer points and put on the line. -/
  | serialPutByte
  | incSndBufferCur
  | setFrameIsBroadcast (b : Bool)
  /-- `vMBMasterPortSerialEnable(TRUE, FALSE)`. -/
  | serialEnableRx
  | timersConvertDelayEnable
  | timersRespondTimeoutEnable
  deriving DecidableEq, Repr

@[reducible] def BusAr : BusOp → Type
  | .board o => Ar o
  | .eventRecv _ => List MasterEvent
  | .getDestAddress => UInt8
  | .getPDUSndLength => Nat
  | .getErrorType => MasterErrorEvent
  | .requestIsBroadcast => Bool
  | .rtuReceive => Option (UInt8 × Nat)
  | .sendNotDatas _ => Bool
  | .rtuSend _ _ => Bool
  | .getSndState => SndState
  | .getSndBufferCount => Nat
  | .serialPutByte => UInt8
  | _ => Unit

namespace Bus

/-- The first `n` bytes of the receive or of the send buffer. -/
def rcvFrame (s : Bus) (n : Nat) : List UInt8 := s.board.frame .ucMasterRTURcvBuf n

def sndFrame (s : Bus) (n : Nat) : List UInt8 := s.board.frame .ucMasterRTUSndBuf n

/-- Activate the transmitter on `count` bytes of `buf`. -/
def activate (s : Bus) (buf : SndBuf) (count : Nat) : Bus :=
  { s with master := { s.master with
      sndBuf := buf, sndPos := 0, usMasterSndBufferCount := count, eSndState := .xmit,
      transStart := true } }

/-- The send buffer once slave address and CRC are put around the PDU. -/
def framed (s : Bus) (ucSlaveAddress : UInt8) (usLength : Nat) : Bus :=
  let s := s.set (.ucMasterRTUSndBuf 0) ucSlaveAddress
  let usCRC16 := usMBCRC16 (s.sndFrame (usLength + 1))
  (s.set (.ucMasterRTUSndBuf (usLength + 1)) (usCRC16 &&& 0xFF).toUInt8).set
    (.ucMasterRTUSndBuf (usLength + 2)) (usCRC16 >>> 8).toUInt8

@[reducible] def exec (t : Nat) : (o : BusOp) → Bus → BusAr o × Bus
  | .board o, s => ((Board.exec t o s.board).1, { s with board := (Board.exec t o s.board).2 })
  | .runResTake, s => ((), { s with master := { s.master with runRes := s.master.runRes - 1 } })
  | .runResRelease, s => ((), { s with master := { s.master with runRes := s.master.runRes + 1 } })
  | .eventPost e, s => ((), { s with master := s.master.eventPost e })
  | .eventRecv set, s => (s.master.eventsUp set, { s with master := s.master.eventsTake set })
  | .issue _, s => ((), s)
  | .getDestAddress, s => (s.master.ucMBMasterDestAddress, s)
  | .setDestAddress a, s => ((), { s with master := { s.master with ucMBMasterDestAddress := a } })
  | .getPDUSndLength, s => (s.master.usMasterSendPDULength, s)
  | .setPDUSndLength n, s =>
      ((), { s with master := { s.master with usMasterSendPDULength := n } })
  | .getErrorType, s => (s.master.eMBMasterCurErrorType, s)
  | .setErrorType e, s => ((), { s with master := { s.master with eMBMasterCurErrorType := e } })
  | .requestIsBroadcast, s => (s.master.xFrameIsBroadcast, s)
  | .storeHoldBuf k r v, s =>
      ((), { s with board := { s.board with
        usMRegHoldBuf := Function.update s.board.usMRegHoldBuf k
          (Function.update (s.board.usMRegHoldBuf k) r v) } })
  | .rtuReceive, s =>
      (if 4 ≤ s.master.usMasterRcvBufferPos ∧
          usMBCRC16 (s.rcvFrame s.master.usMasterRcvBufferPos) = 0 then
        some (s.mem (.ucMasterRTURcvBuf 0), s.master.usMasterRcvBufferPos - 3) else none, s)
  | .sendNotDatas n, s =>
      if s.master.eRcvState = .idle then (true, s.activate .notModbus n) else (false, s)
  | .rtuSend a n, s =>
      if s.master.eRcvState = .idle then (true, (s.framed a n).activate .masterRTU (n + 3))
      else (false, s)
  | .transStartWait, s => ((), s)
  | .getSndState, s => (s.master.eSndState, s)
  | .setSndState x, s => ((), { s with master := { s.master with eSndState := x } })
  | .getSndBufferCount, s => (s.master.usMasterSndBufferCount, s)
  | .decSndBufferCount, s =>
      ((), { s with master := { s.master with
        usMasterSndBufferCount := s.master.usMasterSndBufferCount - 1 } })
  | .serialPutByte, s => (s.mem (s.master.sndBuf.addr s.master.sndPos), s)
  | .incSndBufferCur, s => ((), { s with master := { s.master with sndPos := s.master.sndPos + 1 } })
  | .setFrameIsBroadcast b, s => ((), { s with master := { s.master with xFrameIsBroadcast := b } })
  | .serialEnableRx, s => ((), { s with master := { s.master with transStart := false } })
  | .timersConvertDelayEnable, s => ((), { s with master := s.master.timersConvertDelayEnable })
  | .timersRespondTimeoutEnable, s => ((), { s with master := s.master.timersRespondTimeoutEnable })

def enabled (t : Nat) : BusOp → Bus → Bool
  | .board o, s => Board.enabled t o s.board
  | .runResTake, s => 0 < s.master.runRes
  | .eventRecv set, s => !(s.master.eventsUp set).isEmpty
  | .transStartWait, s => s.master.transStart
  | _, _ => true

/-- A mutex that has an owner can be taken by its owner only. -/
theorem owner_takes {t u n : Nat} {m : Mutex} {s : Bus}
    (h : enabled t (.board (.mutexTake m)) s = true) (hown : s.board.mutex m = some (u, n)) :
    u = t := by
  simpa [enabled, Board.enabled, hown] using h

@[reducible] def system : System BusOp BusAr Bus BusEv where
  enabled := enabled
  exec := exec
  envEnabled
    | .rxByte _, _ => true
    | .timerExpired, s => s.master.timer
  envExec
    | .rxByte b, s => xMBMasterRTUReceiveFSM b s
    | .timerExpired, s => { s with master := s.master.timerExpired }

end Bus

abbrev BusCode (α : Type) := Prog BusOp BusAr α

/-- One operation as a program. -/
abbrev busOp (o : BusOp) : BusCode (BusAr o) := .op o .ret

abbrev busLoad (a : Addr) : BusCode UInt8 := busOp (.board (.load a))

abbrev busStore (a : Addr) (v : UInt8) : BusCode Unit := busOp (.board (.store a v))

/-! ## Requests -/

/-- What `eMBMasterWaitRequestFinish` waits for. -/
def finishEvents : List MasterEvent :=
  [.processSucess, .errorRespondTimeout, .errorReceiveData, .errorExecuteFunction]

/-- The switch of `eMBMasterWaitRequestFinish`. -/
def finishCode : List MasterEvent → eMBMasterReqErrCode
  | [.errorRespondTimeout] => .timedOut
  | [.errorReceiveData] => .revData
  | [.errorExecuteFunction] => .exeFun
  | _ => .noErr

def eMBMasterWaitRequestFinish : BusCode eMBMasterReqErrCode :=
  finishCode <$> busOp (.eventRecv finishEvents)

/-- `MB_MASTER_TOTAL_SLAVE_NUM`. -/
abbrev masterTotalSlaveNum : UInt8 := 16

/-- `eMBMasterReqReadHoldingRegister`; the callers wait forever. -/
def eMBMasterReqReadHoldingRegister (ucSndAddr : UInt8) (usRegAddr usNRegs : UInt16) :
    BusCode eMBMasterReqErrCode := do
  if ucSndAddr > masterTotalSlaveNum then pure .illArg
  else do
    busOp .runResTake
    busOp (.issue (.readHoldingRegister ucSndAddr usRegAddr usNRegs))
    busOp (.setDestAddress ucSndAddr)
    busStore (.ucMasterRTUSndBuf 1) 0x03
    busStore (.ucMasterRTUSndBuf 2) (usRegAddr >>> 8).toUInt8
    busStore (.ucMasterRTUSndBuf 3) usRegAddr.toUInt8
    busStore (.ucMasterRTUSndBuf 4) (usNRegs >>> 8).toUInt8
    busStore (.ucMasterRTUSndBuf 5) usNRegs.toUInt8
    busOp (.setPDUSndLength 5)
    busOp (.eventPost .frameSent)
    eMBMasterWaitRequestFinish

/-- `eMBMasterReqRead_not_rtu_datas`. The loop counts in a `u8`; it ends for
lengths up to 255. -/
def eMBMasterReqReadNotRtuDatas (ucMBFrame : Nat → Addr) (usLength : Nat) :
    BusCode eMBMasterReqErrCode := do
  busOp .runResTake
  busOp (.issue (.notRtuDatas usLength))
  Prog.forUpTo usLength fun i => do
    let b ← busLoad (ucMBFrame i)
    busStore (.ucMasterRTUSndBuf i) b
  busStore .mbSwitchFlag 1
  busStore .mbNotRtuDataLen (UInt8.ofNat usLength)
  busOp (.setPDUSndLength usLength)
  busOp (.eventPost .frameSent)
  let eErrStatus ← eMBMasterWaitRequestFinish
  busStore .mbSwitchFlag 0
  pure eErrStatus

/-- The board's operations on the bus. -/
def onBus : (o : Op) → BusCode (Ar o)
  | .exchange len => eMBMasterReqReadNotRtuDatas .rs485SendBufNotModbus len
  | .exchangeHold slave => eMBMasterReqReadHoldingRegister (UInt8.ofNat slave) 0 2
  | o => busOp (.board o)

/-! ## The poll thread -/

/-- What a function handler gets (frame and length) and gives: an exception
code, 0 for none. -/
abbrev FunctionHandler := (Nat → Addr) → Nat → BusCode UInt8

/-- `eMBMasterRegHoldingCB`: the received values go into `usMRegHoldBuf`. -/
def eMBMasterRegHoldingCB (pucRegBuffer : Nat → Addr) (usAddress usNRegs : Nat) : BusCode Bool := do
  let slave ← busOp .getDestAddress
  let usAddress := usAddress - 1
  if usAddress + usNRegs ≤ 50 then
    Prog.forUpTo usNRegs fun i => do
      let hi ← busLoad (pucRegBuffer (2 * i))
      busOp (.storeHoldBuf (slave.toNat - 1) (usAddress + i) (hi.toUInt16 <<< 8))
      let lo ← busLoad (pucRegBuffer (2 * i + 1))
      let v ← busOp (.board (.loadHoldBuf (slave.toNat - 1) (usAddress + i)))
      busOp (.storeHoldBuf (slave.toNat - 1) (usAddress + i) (v ||| lo.toUInt16))
    pure true
  else pure false

def eMBMasterFuncReadHoldingRegister : FunctionHandler := fun pucFrame usLen => do
  let broadcast ← busOp .requestIsBroadcast
  if broadcast then pure 0
  else if usLen ≥ 2 then do
    let a1 ← busLoad (.ucMasterRTUSndBuf 2)
    let a2 ← busLoad (.ucMasterRTUSndBuf 3)
    let usRegAddress : UInt16 := ((a1.toUInt16 <<< 8) ||| a2.toUInt16) + 1
    let c1 ← busLoad (.ucMasterRTUSndBuf 4)
    let c2 ← busLoad (.ucMasterRTUSndBuf 5)
    let usRegCount : UInt16 := (c1.toUInt16 <<< 8) ||| c2.toUInt16
    let byteCnt ← busLoad (pucFrame 1)
    if usRegCount ≥ 1 ∧ 2 * usRegCount.toNat = byteCnt.toNat then do
      let ok ← eMBMasterRegHoldingCB (fun i => pucFrame (2 + i)) usRegAddress.toNat usRegCount.toNat
      pure (if ok then 0 else 0x02)
    else pure 0x03
  else pure 0x03

/-- The statics of `eMBMasterPoll` that outlive a call. -/
structure PollStatics where
  ucMBFrame : Nat → Addr
  usLength : Nat

/-- `vMBMasterGetPDUSndBuf`. -/
def pduSndBuf (i : Nat) : Addr := .ucMasterRTUSndBuf (i + 1)

def pollEvents : List MasterEvent :=
  [.ready, .frameReceived, .execute, .frameSent, .errorProcess]

/-- `xMBMasterPortEventGet`: if more than one bit is up, no case of its
switch matches and the caller's variable keeps what it happens to contain. -/
def xMBMasterPortEventGet : BusCode (Option MasterEvent) := do
  let recvedEvent ← busOp (.eventRecv pollEvents)
  match recvedEvent with
  | [e] => pure (some e)
  | _ => do
    let eEvent ← busOp (.board .undef)
    pure (if eEvent = 1 then some .ready
      else if eEvent = 2 then some .frameReceived
      else if eEvent = 4 then some .execute
      else if eEvent = 8 then some .frameSent
      else if eEvent = 16 then some .errorProcess
      else none)

/-- `peMBMasterFrameSendCur`, that is `eMBMasterRTUSend`. -/
def eMBMasterRTUSend (ucSlaveAddress : UInt8) (usLength : Nat) : BusCode Bool := do
  let flag ← busLoad .mbSwitchFlag
  if flag ≠ 0 then do
    let len ← busLoad .mbNotRtuDataLen
    busOp (.sendNotDatas len.toNat)
  else if ucSlaveAddress > masterTotalSlaveNum then pure false
  else busOp (.rtuSend ucSlaveAddress usLength)

def processError (e : MasterErrorEvent) : BusCode Unit := do
  busOp (.setErrorType e)
  busOp (.eventPost .errorProcess)

section Poll

variable (handlers : UInt8 → Option FunctionHandler)

/-- A received frame that checks and comes from the slave that was asked is
executed, any other is an error. -/
def pollFrameReceived (st : PollStatics) : BusCode PollStatics := do
  let received ← busOp .rtuReceive
  match received with
  | none => do
      processError .receiveData
      pure st
  | some (ucRcvAddress, usLength) => do
      let dest ← busOp .getDestAddress
      (if ucRcvAddress = dest then busOp (.eventPost .execute) else processError .receiveData)
      pure ⟨fun i => .ucMasterRTURcvBuf (i + 1), usLength⟩

/-- Run the handler of a function code; a broadcast is run for every slave. -/
def runHandler (st : PollStatics) (ucFunctionCode : UInt8) : BusCode (UInt8 × PollStatics) :=
  match handlers ucFunctionCode with
  | none => pure (0x01, st)
  | some pxHandler => do
      let broadcast ← busOp .requestIsBroadcast
      if broadcast then do
        let usLength ← busOp .getPDUSndLength
        let eException ← Prog.foldUpTo (fun j _ => do
          busOp (.setDestAddress (UInt8.ofNat (j + 1)))
          pxHandler st.ucMBFrame usLength) masterTotalSlaveNum.toNat 0x01
        pure (eException, { st with usLength := usLength })
      else do
        let eException ← pxHandler st.ucMBFrame st.usLength
        pure (eException, st)

def pollExecute (st : PollStatics) : BusCode PollStatics := do
  let ucFunctionCode ← busLoad (st.ucMBFrame 0)
  let (eException, st) ← (if ucFunctionCode >>> 7 ≠ 0 then do
      let b ← busLoad (st.ucMBFrame 1)
      pure (b, st)
    else runHandler handlers st ucFunctionCode)
  (if eException ≠ 0 then processError .executeFunction
    else do
      busOp (.eventPost .processSucess)
      busOp .runResRelease)
  pure st

def pollFrameSent (st : PollStatics) : BusCode PollStatics := do
  let dest ← busOp .getDestAddress
  let usLength ← busOp .getPDUSndLength
  let _eStatus ← eMBMasterRTUSend dest usLength
  pure { st with ucMBFrame := pduSndBuf }

/-- The event with which an error is passed on to the requester. -/
def MasterErrorEvent.callback : MasterErrorEvent → MasterEvent
  | .respondTimeout => .errorRespondTimeout
  | .receiveData => .errorReceiveData
  | .executeFunction => .errorExecuteFunction

/-- The callbacks are handed destination, frame and length and use none. -/
def pollErrorProcess (st : PollStatics) : BusCode PollStatics := do
  let errorType ← busOp .getErrorType
  let _dest ← busOp .getDestAddress
  let _usLength ← busOp .getPDUSndLength
  busOp (.eventPost errorType.callback)
  busOp .runResRelease
  pure { st with ucMBFrame := pduSndBuf }

def eMBMasterPoll (st : PollStatics) : BusCode PollStatics := do
  let eEvent ← xMBMasterPortEventGet
  match eEvent with
  | some .frameReceived => pollFrameReceived st
  | some .execute => pollExecute handlers st
  | some .frameSent => pollFrameSent st
  | some .errorProcess => pollErrorProcess st
  | _ => pure st

/-- `thread_entry_ModbusMasterPoll`, so many rounds of it. -/
def pollRounds (n : Nat) : BusCode Unit := do
  let _st ← Prog.foldUpTo (fun _ st => eMBMasterPoll handlers st) n ⟨pduSndBuf, 0⟩
  pure ()

end Poll

/-- `xMasterFuncHandlers`: `other` are the handlers of the functions that
this program never asks for. -/
def xMasterFuncHandlers (other : UInt8 → Option FunctionHandler) (code : UInt8) :
    Option FunctionHandler :=
  if code = 0x03 then some eMBMasterFuncReadHoldingRegister else other code

/-! ## The transmit thread -/

/-- The end of a frame: back to receiving, and start waiting. -/
def transmitEnd : BusCode Unit := do
  let b ← busLoad (.ucMasterRTUSndBuf 0)
  busOp (.setFrameIsBroadcast (b == 0))
  busOp .serialEnableRx
  busOp (.setSndState .xfwr)
  let broadcast ← busOp .requestIsBroadcast
  if broadcast then busOp .timersConvertDelayEnable else busOp .timersRespondTimeoutEnable

/-- `xMBMasterRTUTransmitFSM`. -/
def xMBMasterRTUTransmitFSM : BusCode Unit := do
  let eSndState ← busOp .getSndState
  match eSndState with
  | .idle => busOp .serialEnableRx
  | .xmit => do
      let count ← busOp .getSndBufferCount
      if count ≠ 0 then do
        let _b ← busOp .serialPutByte
        busOp .incSndBufferCur
        busOp .decSndBufferCount
      else transmitEnd
  | .xfwr => pure ()

/-- One round of `serial_soft_trans_irq`. -/
def serialSoftTransIrq : BusCode Unit := do
  busOp .transStartWait
  xMBMasterRTUTransmitFSM

/-! ## The callers -/

/-- The functions of the control code that build a frame in
`rs485_send_buf_not_modbus` or put a request to the master. -/
inductive Call where
  | setDcMotor
  | getDisplayBoardData
  | setDisplayBoardData
  | setDispboardFunctionMode (type mode : UInt8)
  | sensorRead (i : Nat)
  | setDeviceWorkMode (type data signalCh : UInt8)
  | aircleanMotorSet (mode : UInt8)
  | threadEntryPowerMonitor (dCmdPower : UInt8)
  | rtCheckExDevice
  deriving DecidableEq, Repr

def controlOf : Call → Code Unit
  | .setDcMotor => setDcMotor exchange
  | .getDisplayBoardData => getDisplayBoardData exchange
  | .setDisplayBoardData => setDisplayBoardData exchange
  | .setDispboardFunctionMode type mode => setDispboardFunctionMode exchange type mode
  | .sensorRead i => sensorRead exchangeHold i
  | .setDeviceWorkMode type data signalCh => setDeviceWorkMode exchange type data signalCh
  | .aircleanMotorSet mode => aircleanMotorSet mode
  | .threadEntryPowerMonitor dCmdPower => threadEntryPowerMonitor exchange dCmdPower
  | .rtCheckExDevice => rtCheckExDevice exchange

def Call.code (c : Call) : BusCode Unit := (controlOf c).expand onBus

abbrev pollThread : Nat := 0
abbrev transThread : Nat := 1

/-- The poll thread and the transmit thread for so many rounds, and every
other thread with the calls it makes. -/
def busThreads (other : UInt8 → Option FunctionHandler) (polls transmits : Nat)
    (calls : Nat → List Call) (t : Nat) : BusCode Unit :=
  if t = pollThread then pollRounds (xMasterFuncHandlers other) polls
  else if t = transThread then Prog.calls (List.replicate transmits serialSoftTransIrq)
  else Prog.calls ((calls t).map Call.code)

end Aclean
