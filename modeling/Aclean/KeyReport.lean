import Aclean.Damaged
import Aclean.KeyLink

/-!
# From a key of the display to the main board

A key event goes through three pieces of code: the builder of the report, the
transmit interrupt with its own end condition, and the parser of the main board
with its fixed offsets. The transmitter sends two bytes more than the builder
counted, whatever stands behind the frame, and the parser looks at five bytes of
a buffer that is larger than the reply. They agree for every report.
-/

namespace Aclean

open Prog Board

/-! ## The wire -/

/-- The transmit interrupts for a report: the frame, the two bytes behind it, and
then none. -/
theorem drain_sent (function mode : UInt8) {d : Disp} (h : d.tx.counterSend = 0) (n : Nat) :
    (d.returnDevicePowerStateChange function mode).tx.drain (n + 9) =
      ([0xF1, 0xF1, function, 0x01, mode, 0 + function + 0x01 + mode, 0x7E,
          d.tx.wifiSendPacketBufPub 7, d.tx.wifiSendPacketBufPub 8],
        { (d.returnDevicePowerStateChange function mode).tx with
          counterSend := 0, txeEnabled := false }) := by
  have hrest : ∀ x : SerialTx, x.txeEnabled = false → x.drain n = ([], x) := by
    intro x hoff
    cases n with
    | zero => rfl
    | succ n =>
        rw [SerialTx.drain, hoff]
        rfl
  simp [Disp.returnDevicePowerStateChange, SerialTx.drain, SerialTx.serialInt1Send, h, hrest]

/-! ## The calls -/

/-- The calls of `set_device_work_mode` among the operations of a run. -/
def modeCalls (ops : List Op) : List (UInt8 × UInt8 × UInt8) :=
  ops.filterMap fun
    | .note (.setDeviceWorkMode type data signalCh) => some (type, data, signalCh)
    | _ => none

theorem modeCalls_append (ops ops' : List Op) :
    modeCalls (ops ++ ops') = modeCalls ops ++ modeCalls ops' :=
  List.filterMap_append

theorem modeCalls_control {ops : List Op} (h : ∀ o ∈ ops, o.Control) : modeCalls ops = [] := by
  refine List.filterMap_eq_nil_iff.mpr fun o ho => ?_
  have hcontrol := h o ho
  cases o with
  | note e => cases e <;> first | rfl | exact absurd hcontrol id
  | _ => rfl

theorem modeCalls_trace {α : Type} {p : Code α} (h : p.Only Op.Control) (t : Nat) (s : Board) :
    modeCalls (p.trace machine t s) = [] :=
  modeCalls_control fun _ ho => h.trace machine t ho

/-- A call of `set_device_work_mode` is one call, whatever its guard says. -/
theorem setDeviceWorkMode_once (type data : UInt8) (t : Nat) (s : Board) :
    modeCalls ((setDeviceWorkMode exchange type data 0).trace machine t s) = [(type, data, 0)] := by
  have happly : (applyCommand exchange type data 0).Only Op.Control :=
    applyCommand_control exchange type data
  unfold setDeviceWorkMode
  rw [trace_bind, modeCalls_append]
  refine congrArg ((type, data, 0) :: ·) (modeCalls_trace ?_ t _)
  simp [happly, Op.Control, Addr.Rx]

/-- A report in the receive buffer is one call if its function is a key's. -/
theorem handleDisplayReply_once (t : Nat) {s : Board}
    (h : FramedF1 fun i => s.mem (.ucMasterRTURcvBuf i)) :
    modeCalls ((handleDisplayReply exchange).trace machine t s) =
      [(s.mem (.ucMasterRTURcvBuf 2), s.mem (.ucMasterRTURcvBuf 4), 0)] := by
  obtain ⟨h0, h1, h6, hgt, hle⟩ := h
  have hF2 : ¬ (s.mem (.ucMasterRTURcvBuf 0) = 0xF2 ∧ s.mem (.ucMasterRTURcvBuf 1) = 0xF2 ∧
      s.mem (.ucMasterRTURcvBuf 32) = 0x7E) := by
    intro h
    rw [show s.mem (.ucMasterRTURcvBuf 0) = 0xF1 from h0] at h
    exact absurd h.1 (by decide)
  have hlook : ∀ b e, modeCalls ((replyFramed b e).trace machine t s) = [] := fun b e =>
    modeCalls_trace ((replyFramed_plain b e).mono fun _ h => h.control) t s
  have hkey : modeCalls ((takeDisplayKey exchange).trace machine t s) =
      [(s.mem (.ucMasterRTURcvBuf 2), s.mem (.ucMasterRTURcvBuf 4), 0)] := by
    have hgt' : s.mem (.ucMasterRTURcvBuf 2) > 1 := hgt
    have hle' : s.mem (.ucMasterRTURcvBuf 2) ≤ 7 := hle
    have hcall :=
      setDeviceWorkMode_once (s.mem (.ucMasterRTURcvBuf 2)) (s.mem (.ucMasterRTURcvBuf 4)) t s
    simpa [takeDisplayKey, hgt', hle', modeCalls] using hcall
  simp only [handleDisplayReply, trace_bind, run_replyFramed, trace_ite, hF2, decide_false,
    Bool.false_eq_true, if_false]
  rw [if_pos (by simpa using ⟨h0, h1, h6⟩), modeCalls_append, modeCalls_append, hlook, hlook, hkey]
  rfl

/-- `get_display_board_data` calls what it finds in a reply that is raw data. -/
theorem getDisplayBoardData_calls (t : Nat) {s : Board} (h : s.reply.code = .revData) :
    modeCalls ((getDisplayBoardData exchange).trace machine t s) =
      modeCalls
        ((handleDisplayReply exchange).trace machine t (pollDisplay.run machine t s).2) := by
  have hcode : (pollDisplay.run machine t s).1 = .revData := (run_pollDisplay t s).1.trans h
  have hpoll : modeCalls (pollDisplay.trace machine t s) = [] := by
    simp [pollDisplay, modeCalls]
  rw [getDisplayBoardData_eq, trace_bind, trace_bind, hcode, trace_when, if_pos rfl,
    modeCalls_append, modeCalls_append, hpoll, List.nil_append]
  exact List.append_nil _

/-! ## The report -/

/-- The bytes that go out for a report, and the transmitter behind them. -/
def Disp.reportSent (function mode : UInt8) (n : Nat) (d : Disp) : List UInt8 × SerialTx :=
  (d.returnDevicePowerStateChange function mode).tx.drain (n + 9)

/-- The main board finds the report where it looks, whatever its buffer contained. -/
theorem reportSent_inspected (function mode : UInt8) {d : Disp} (h : d.tx.counterSend = 0) (n : Nat)
    {s : Board} (hreply : Delivers (d.reportSent function mode n).1 s) :
    s.replyBuffer 0 = 0xF1 ∧ s.replyBuffer 1 = 0xF1 ∧ s.replyBuffer 2 = function ∧
      s.replyBuffer 4 = mode ∧ s.replyBuffer 6 = 0x7E := by
  have hbuffer := hreply.replyBuffer fun _ => rfl
  rw [Disp.reportSent, drain_sent function mode h] at hbuffer
  rw [hbuffer]
  exact ⟨rfl, rfl, rfl, rfl, rfl⟩

/-- **A key report decodes to its key.** -/
theorem key_report_decodes {function mode : UInt8} {d : Disp} (h : d.tx.counterSend = 0) (n t : Nat)
    {s : Board} (hreply : Delivers (d.reportSent function mode n).1 s) :
    ((d.reportSent function mode n).2.counterSend = 0 ∧
        (d.reportSent function mode n).2.txeEnabled = false) ∧
      (2 ≤ function → function ≤ 7 →
        modeCalls ((getDisplayBoardData exchange).trace machine t s) = [(function, mode, 0)]) ∧
      (function = 1 → modeCalls ((getDisplayBoardData exchange).trace machine t s) = [] ∧
        (∀ i, ((getDisplayBoardData exchange).run machine t s).2.mem (work i) = s.mem (work i)) ∧
        ((getDisplayBoardData exchange).run machine t s).2.flash = s.flash) := by
  obtain ⟨h0, h1, h2, h4, h6⟩ := reportSent_inspected function mode h n hreply
  obtain ⟨hcode, hrcv, hwork, hflash⟩ := run_pollDisplay t s
  have hsent := drain_sent function mode h n
  refine ⟨?_, fun hlow hhigh => ?_, ?_⟩
  · rw [Disp.reportSent, hsent]
    exact ⟨rfl, rfl⟩
  · have hframed :
        FramedF1 fun i => (pollDisplay.run machine t s).2.mem (.ucMasterRTURcvBuf i) := by
      rw [funext hrcv]
      refine ⟨h0, h1, h6, ?_, ?_⟩
      · rw [h2]
        exact UInt8.lt_of_lt_of_le (by decide) hlow
      · rw [h2]
        exact hhigh
    rw [getDisplayBoardData_calls t hreply.1, handleDisplayReply_once t hframed, hrcv, hrcv, h2, h4]
  · rintro rfl
    have hno1 : ¬ FramedF1 fun i => (pollDisplay.run machine t s).2.mem (.ucMasterRTURcvBuf i) := by
      rw [funext hrcv]
      rintro ⟨-, -, -, hgt, -⟩
      rw [h2] at hgt
      exact absurd hgt (by decide)
    have hno2 : ¬ FramedF2 fun i => (pollDisplay.run machine t s).2.mem (.ucMasterRTURcvBuf i) := by
      rw [funext hrcv]
      rintro ⟨hhead, -, -⟩
      rw [h0] at hhead
      exact absurd hhead (by decide)
    obtain ⟨hrun, htrace⟩ := handleDisplayReply_ignores t hno2 hno1
    have hsame : ((getDisplayBoardData exchange).run machine t s).2 =
        ((mutexRelease .modbus).run machine t (pollDisplay.run machine t s).2).2 := by
      rw [getDisplayBoardData_eq, run_bind, run_bind, hcode, hreply.1, run_when, if_pos rfl, hrun]
    refine ⟨?_, ?_, ?_⟩
    · rw [getDisplayBoardData_calls t hreply.1]
      exact modeCalls_control fun o ho => (htrace o ho).1.control
    · rw [hsame]
      exact hwork
    · rw [hsame]
      exact hflash

/-- The power key, over a buffer full of end bytes. -/
theorem key_report_decodes_power :
    modeCalls ((getDisplayBoardData exchange).trace machine 0
      (Board.awaiting (Disp.reset.reportSent 2 1 0).1 fun _ => 0x7E)) = [(2, 1, 0)] :=
  (key_report_decodes rfl 0 0 (awaiting_delivers _ _)).2.1 (by decide) (by decide)

end Aclean
