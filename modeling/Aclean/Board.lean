import Mathlib.Data.UInt
import Aclean.Pool

/-!
# The main board: shared state and atomic operations

The globals of the main board's firmware and what one indivisible step of a
thread can do to them. Every byte the threads share (a global `u8`, an
element of a buffer, a byte of a `DEVICE_WORK_TYPE` union) has an `Addr`;
one load or one store of it is one operation, as are a GPIO write, a mutex
operation and one flash access.

`DEVICE_WORK_TYPE` is a union of a packed struct and a byte array, and the
source uses both views. The model keeps the bytes; a field is its offset,
in declaration order. The struct is padded to 28 bytes.
-/

namespace Aclean

inductive Addr where
  | deviceWorkData (i : Nat)
  | deviceWorkDataBak (i : Nat)
  | deviceWorkDataAuto (i : Nat)
  | rs485SendBufNotModbus (i : Nat)
  | ucMasterRTUSndBuf (i : Nat)
  | ucMasterRTURcvBuf (i : Nat)
  | wifiSendPacketBufPub (i : Nat)
  /-- Indexed by an `Int`: the source forms `buf[len-2]` from an unchecked length. -/
  | wifiRecvPacketBufPub (i : Int)
  | wifiDataBufferRecvTmp (i : Nat)
  | wifiRecieveDataLength
  | waitLen
  | waitLenCnt
  | recievedLen
  | powerStatePre
  | faultStatePre
  | mbSwitchFlag
  | mbNotRtuDataLen
  deriving DecidableEq, Repr

/-! ## `DEVICE_WORK_TYPE` -/

namespace Field

@[simp] abbrev devicePowerState : Nat := 0
@[simp] abbrev deviceMode : Nat := 1
@[simp] abbrev windSpeedState : Nat := 2
@[simp] abbrev highPressurState : Nat := 3
@[simp] abbrev phtWorkState : Nat := 4
@[simp] abbrev timingState : Nat := 5
/-- The ten 16-bit readings: PM2.5 and CO2 of rooms 1 to 5. -/
@[simp] abbrev houseDataStart : Nat := 6
@[simp] abbrev faultState : Nat := 26

end Field

/-- `sizeof(struct __para_type)`. -/
abbrev paraTypeSize : Nat := 28

/-! ## Hardware -/

/-- The output pins: electrostatic filter, heater and the three motor relays. -/
inductive Pin where
  | pb1
  | pb12
  | pb13
  | pb14
  | pb15
  deriving DecidableEq, Repr

/-- The input pins the fault checks sample. -/
inductive InPin where
  | pb0
  | pb2
  | pb11
  | pc4
  | pc5
  deriving DecidableEq, Repr

inductive Mutex where
  | modbus
  | motor
  | wifiSend
  deriving DecidableEq, Repr

inductive eMBMasterReqErrCode where
  | noErr
  | noReg
  | illArg
  | revData
  | timedOut
  | masterBusy
  | exeFun
  deriving DecidableEq, Repr

/-- What the RS485 line does with one request: the code the requester gets,
and what was received meanwhile (raw bytes, or register values). -/
structure Reply where
  code : eMBMasterReqErrCode
  bytes : List UInt8
  regs : List UInt16
  deriving DecidableEq, Repr

/-- Calls and frames a run is judged by; no code reads them back. -/
inductive Event where
  | setDeviceWorkMode (type data signalCh : UInt8)
  | request (frame : List UInt8)
  | wifiSend (frame : List UInt8)
  | wifiFactorySet
  deriving DecidableEq, Repr

structure Board where
  mem : Addr → UInt8
  powerTimCnt : UInt32
  usMRegHoldBuf : Nat → Nat → UInt16
  gpio : Pin → Bool
  inputs : InPin → Bool
  flash : Nat → UInt8
  /-- Owner and hold count: a thread may take a mutex it already holds. -/
  mutex : Mutex → Option (Nat × Nat)
  wifiUartSem : Nat
  /-- What the uninitialised locals read next happen to contain. -/
  stack : Nat → UInt8
  replies : List Reply
  log : List Event

/-- The static variables as the program starts with them, everything off. -/
def Board.reset : Board where
  mem := fun
    | .powerStatePre => 0xff
    | .faultStatePre => 0xff
    | _ => 0
  powerTimCnt := 0
  usMRegHoldBuf := fun _ _ => 0
  gpio := fun _ => false
  inputs := fun _ => true
  flash := fun _ => 0xff
  mutex := fun _ => none
  wifiUartSem := 0
  stack := fun _ => 0
  replies := []
  log := []

/-! ## Operations -/

inductive Op where
  | load (a : Addr)
  | store (a : Addr) (v : UInt8)
  | loadHoldBuf (slave reg : Nat)
  | getPowerTimCnt
  | setPowerTimCnt (n : UInt32)
  | gpioWrite (p : Pin) (on : Bool)
  | gpioRead (p : InPin)
  | flashRead (addr : Nat)
  | flashWrite (addr : Nat) (data : List UInt8)
  | mutexTake (m : Mutex)
  | mutexRelease (m : Mutex)
  | semTake
  | semRelease
  | undef
  /-- A raw request of that many bytes on the RS485 line and its reply, for
  the results that do not look inside the Modbus master. -/
  | exchange (len : Nat)
  /-- The same for a holding-register request; the master keeps the registers
  of slave `k` at index `k - 1`. -/
  | exchangeHold (slave : Nat)
  | uartWrite (len : Nat)
  | note (e : Event)
  deriving DecidableEq, Repr

@[reducible] def Ar : Op → Type
  | .load _ => UInt8
  | .loadHoldBuf _ _ => UInt16
  | .getPowerTimCnt => UInt32
  | .gpioRead _ => Bool
  | .flashRead _ => UInt8
  | .undef => UInt8
  | .exchange _ => eMBMasterReqErrCode
  | .exchangeHold _ => eMBMasterReqErrCode
  | _ => Unit

namespace Board

def set (s : Board) (a : Addr) (v : UInt8) : Board :=
  { s with mem := Function.update s.mem a v }

@[simp] theorem set_mem (s : Board) (a b : Addr) (v : UInt8) :
    (s.set a v).mem b = if b = a then v else s.mem b := by
  simp [set, Function.update_apply]

@[simp] theorem set_gpio (s : Board) (a : Addr) (v : UInt8) : (s.set a v).gpio = s.gpio := rfl

@[simp] theorem set_powerTimCnt (s : Board) (a : Addr) (v : UInt8) :
    (s.set a v).powerTimCnt = s.powerTimCnt := rfl

@[simp] theorem set_inputs (s : Board) (a : Addr) (v : UInt8) :
    (s.set a v).inputs = s.inputs := rfl

@[simp] theorem set_flash (s : Board) (a : Addr) (v : UInt8) :
    (s.set a v).flash = s.flash := rfl

@[simp] theorem set_wifiUartSem (s : Board) (a : Addr) (v : UInt8) :
    (s.set a v).wifiUartSem = s.wifiUartSem := rfl

@[simp] theorem set_stack (s : Board) (a : Addr) (v : UInt8) :
    (s.set a v).stack = s.stack := rfl

@[simp] theorem set_replies (s : Board) (a : Addr) (v : UInt8) :
    (s.set a v).replies = s.replies := rfl

@[simp] theorem set_log (s : Board) (a : Addr) (v : UInt8) : (s.set a v).log = s.log := rfl

def frame (s : Board) (buf : Nat → Addr) (len : Nat) : List UInt8 :=
  (List.range len).map fun i => s.mem (buf i)

/-- The line's answer to the next request; silence once none is scripted. -/
def reply (s : Board) : Reply := s.replies.headD ⟨.timedOut, [], []⟩

/-- The receive buffer after `bytes` came in from its start; what lies
beyond them is what it was. -/
def receive (bytes : List UInt8) (mem : Addr → UInt8) : Addr → UInt8
  | .ucMasterRTURcvBuf i => bytes.getD i (mem (.ucMasterRTURcvBuf i))
  | a => mem a

def take (t : Nat) : Option (Nat × Nat) → Option (Nat × Nat)
  | none => some (t, 1)
  | some (u, n) => if u = t then some (t, n + 1) else some (u, n)

def release (t : Nat) : Option (Nat × Nat) → Option (Nat × Nat)
  | some (u, n) => if u = t then (if n ≤ 1 then none else some (t, n - 1)) else some (u, n)
  | none => none

@[simp, reducible] def exec (t : Nat) : (o : Op) → Board → Ar o × Board
  | .load a, s => (s.mem a, s)
  | .store a v, s => ((), s.set a v)
  | .loadHoldBuf k r, s => (s.usMRegHoldBuf k r, s)
  | .getPowerTimCnt, s => (s.powerTimCnt, s)
  | .setPowerTimCnt n, s => ((), { s with powerTimCnt := n })
  | .gpioWrite p on, s => ((), { s with gpio := Function.update s.gpio p on })
  | .gpioRead p, s => (s.inputs p, s)
  | .flashRead a, s => (s.flash a, s)
  | .flashWrite a data, s =>
      ((), { s with flash := fun i =>
        if a ≤ i ∧ i < a + data.length then data.getD (i - a) 0 else s.flash i })
  | .mutexTake m, s => ((), { s with mutex := Function.update s.mutex m (take t (s.mutex m)) })
  | .mutexRelease m, s =>
      ((), { s with mutex := Function.update s.mutex m (release t (s.mutex m)) })
  | .semTake, s => ((), { s with wifiUartSem := s.wifiUartSem - 1 })
  | .semRelease, s => ((), { s with wifiUartSem := s.wifiUartSem + 1 })
  | .undef, s => (s.stack 0, { s with stack := fun i => s.stack (i + 1) })
  | .exchange len, s =>
      (s.reply.code,
        { s with
          mem := receive s.reply.bytes s.mem
          replies := s.replies.tail
          log := s.log ++ [.request (s.frame .rs485SendBufNotModbus len)] })
  | .exchangeHold k, s =>
      (s.reply.code,
        { s with
          usMRegHoldBuf := Function.update s.usMRegHoldBuf (k - 1) fun r =>
            s.reply.regs.getD r (s.usMRegHoldBuf (k - 1) r)
          replies := s.replies.tail })
  | .uartWrite len, s =>
      ((), { s with log := s.log ++ [.wifiSend (s.frame .wifiSendPacketBufPub len)] })
  | .note e, s => ((), { s with log := s.log ++ [e] })

/-- A thread waits for a mutex that another one holds, and for the
semaphore while its count is zero; nothing else blocks. -/
def enabled (t : Nat) : Op → Board → Bool
  | .mutexTake m, s => (s.mutex m).all fun own => own.1 == t
  | .semTake, s => 0 < s.wifiUartSem
  | _, _ => true

/-- The main board's threads; nothing but them touches this state. -/
@[reducible] def system : System Op Ar Board Empty where
  enabled := enabled
  exec := exec
  envEnabled := fun e _ => nomatch e
  envExec := fun e _ => nomatch e

@[reducible] def machine : Machine Op Ar Board := system.toMachine

@[simp] theorem machine_exec (t : Nat) (o : Op) (s : Board) :
    machine.exec t o s = exec t o s := rfl

end Board

/-! ## The operations as programs -/

abbrev Code (α : Type) := Prog Op Ar α

@[simp] def load (a : Addr) : Code UInt8 := .op (.load a) .ret

@[simp] def store (a : Addr) (v : UInt8) : Code Unit := .op (.store a v) .ret

@[simp] def loadHoldBuf (slave reg : Nat) : Code UInt16 := .op (.loadHoldBuf slave reg) .ret

@[simp] def getPowerTimCnt : Code UInt32 := .op .getPowerTimCnt .ret

@[simp] def setPowerTimCnt (n : UInt32) : Code Unit := .op (.setPowerTimCnt n) .ret

@[simp] def gpioWrite (p : Pin) (on : Bool) : Code Unit := .op (.gpioWrite p on) .ret

@[simp] def gpioRead (p : InPin) : Code Bool := .op (.gpioRead p) .ret

@[simp] def flashRead (addr : Nat) : Code UInt8 := .op (.flashRead addr) .ret

@[simp] def flashWrite (addr : Nat) (data : List UInt8) : Code Unit := .op (.flashWrite addr data) .ret

@[simp] def mutexTake (m : Mutex) : Code Unit := .op (.mutexTake m) .ret

@[simp] def mutexRelease (m : Mutex) : Code Unit := .op (.mutexRelease m) .ret

@[simp] def semTake : Code Unit := .op .semTake .ret

@[simp] def semRelease : Code Unit := .op .semRelease .ret

@[simp] def undef : Code UInt8 := .op .undef .ret

@[simp] def exchange (len : Nat) : Code eMBMasterReqErrCode := .op (.exchange len) .ret

@[simp] def exchangeHold (slave : Nat) : Code eMBMasterReqErrCode := .op (.exchangeHold slave) .ret

@[simp] def uartWrite (len : Nat) : Code Unit := .op (.uartWrite len) .ret

@[simp] def note (e : Event) : Code Unit := .op (.note e) .ret

end Aclean
