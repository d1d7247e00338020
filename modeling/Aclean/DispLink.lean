import Aclean.WifiRx
import Aclean.Footprint
import Aclean.DispBoard

/-!
# Frames between the boards

What the display's receiver makes of a frame of the main board, and what the
main board's settings and the display's are after a command: the two
switches agree, and what the main board's own builder sends does not.
-/

namespace Aclean

/-! ## The display's receiver -/

/-- The receiver is inside a frame of `n` bytes and holds its beginning. -/
structure Receiving (n : Nat) (pre : List UInt8) (r : SerialRx) : Prop where
  inside : r.isrJ ≠ 0
  com : r.isrCom.toNat = pre.length
  num : r.recDataNum.toNat = n
  bytes : ∀ i (h : i < pre.length), r.rxd1Buffer i = pre[i]

/-- The receiver has handed on the frame `fr` and waits for the next one. -/
structure Received (fr : List UInt8) (r : SerialRx) : Prop where
  idle : r.isrJ = 0
  flag : r.rxd1BuffCFlag = 1
  bytes : ∀ i (h : i < fr.length), r.inComBuff i = fr[i]

theorem receiving_head {r : SerialRx} {b : UInt8} (h : r.isrJ = 0) (hb : b = 0xF1 ∨ b = 0xF2) :
    Receiving (if b = 0xF1 then 7 else 33) [b] (r.serialInt1Receive b) := by
  have hne : ¬ (b ≠ 0xF1 ∧ b ≠ 0xF2) := by
    rintro ⟨h1, h2⟩
    exact hb.elim h1 h2
  refine ⟨?_, ?_, ?_, fun i hi => ?_⟩
  · simp [SerialRx.serialInt1Receive, h, hne]
  · simp [SerialRx.serialInt1Receive, h, hne]
  · rcases hb with rfl | rfl <;> simp [SerialRx.serialInt1Receive, h]
  · obtain rfl : i = 0 := by simpa using hi
    simp [SerialRx.serialInt1Receive, h, hne]

/-- A byte inside a frame that the header check lets pass. -/
theorem Receiving.accepts {n : Nat} {pre : List UInt8} {r : SerialRx} {b : UInt8}
    (h : Receiving n pre r) (hpre : pre ≠ []) (hhead : ∀ x, pre = [x] → b = x) :
    ¬ (r.isrCom = 1 ∧ (b ≠ 0xF1 ∧ r.rxd1Buffer 0 = 0xF1 ∨ b ≠ 0xF2 ∧ r.rxd1Buffer 0 = 0xF2)) := by
  rintro ⟨hone, hbad⟩
  have hlen : pre.length = 1 := by rw [← h.com, hone]; rfl
  obtain ⟨x, rfl⟩ := List.length_eq_one_iff.mp hlen
  have hx : r.rxd1Buffer 0 = x := h.bytes 0 (by simp)
  rw [hhead x rfl, hx] at hbad
  rcases hbad with ⟨h1, h2⟩ | ⟨h1, h2⟩
  · exact h1 h2
  · exact h1 h2

theorem Receiving.push {n : Nat} {pre : List UInt8} {r : SerialRx} {b : UInt8}
    (h : Receiving n pre r) (hpre : pre ≠ []) (hhead : ∀ x, pre = [x] → b = x)
    (hn : pre.length + 1 < n) : Receiving n (pre ++ [b]) (r.serialInt1Receive b) := by
  have hacc := h.accepts hpre hhead
  have hlt : r.recDataNum.toNat < 256 := r.recDataNum.toNat_lt
  have hsucc : (r.isrCom + 1).toNat = pre.length + 1 := by
    rw [UInt8.toNat_add, h.com, show (1 : UInt8).toNat = 1 from rfl]
    have := h.num
    omega
  have hmore : ¬ r.isrCom + 1 ≥ r.recDataNum := by
    rw [ge_iff_le, UInt8.le_iff_toNat_le, hsucc, h.num]
    omega
  have hr : r.serialInt1Receive b = { r with
      rxd1Buffer := Function.update r.rxd1Buffer r.isrCom.toNat b, isrCom := r.isrCom + 1 } := by
    rw [SerialRx.serialInt1Receive, if_neg h.inside, if_neg hacc, if_neg hmore]
  rw [hr]
  refine ⟨h.inside, ?_, h.num, fun i hi => ?_⟩
  · rw [hsucc, List.length_append, List.length_singleton]
  · rw [List.length_append, List.length_singleton] at hi
    show Function.update r.rxd1Buffer r.isrCom.toNat b i = (pre ++ [b])[i]
    rw [h.com]
    by_cases hp : i = pre.length
    · subst hp; simp
    · rw [Function.update_of_ne hp, h.bytes i (by omega), List.getElem_append_left (by omega)]

theorem Receiving.finish {n : Nat} {pre : List UInt8} {r : SerialRx} {b : UInt8}
    (h : Receiving n pre r) (hpre : pre ≠ []) (hhead : ∀ x, pre = [x] → b = x)
    (hn : pre.length + 1 = n) : Received (pre ++ [b]) (r.serialInt1Receive b) := by
  have hacc := h.accepts hpre hhead
  have hlt : r.recDataNum.toNat < 256 := r.recDataNum.toNat_lt
  have hsucc : (r.isrCom + 1).toNat = pre.length + 1 := by
    rw [UInt8.toNat_add, h.com, show (1 : UInt8).toNat = 1 from rfl]
    have := h.num
    omega
  have hdone : r.isrCom + 1 ≥ r.recDataNum := by
    rw [ge_iff_le, UInt8.le_iff_toNat_le, hsucc, h.num]
    omega
  rw [SerialRx.serialInt1Receive, if_neg h.inside, if_neg hacc, if_pos hdone]
  refine ⟨rfl, rfl, fun i hi => ?_⟩
  rw [List.length_append, List.length_singleton] at hi
  show (if i < r.recDataNum.toNat then Function.update r.rxd1Buffer r.isrCom.toNat b i
    else r.inComBuff i) = (pre ++ [b])[i]
  rw [if_pos (by rw [h.num]; omega), h.com]
  by_cases hp : i = pre.length
  · subst hp; simp
  · rw [Function.update_of_ne hp, h.bytes i (by omega), List.getElem_append_left (by omega)]

theorem Receiving.rest {n : Nat} : ∀ {ds pre : List UInt8} {r : SerialRx}, Receiving n pre r →
    2 ≤ pre.length → ds ≠ [] → pre.length + ds.length = n → Received (pre ++ ds) (r.feed ds)
  | [], _, _, _, _, hne, _ => absurd rfl hne
  | [d], pre, r, h, h2, _, hn =>
      h.finish (by rintro rfl; simp at h2) (by rintro x rfl; simp at h2) hn
  | d :: e :: ds, pre, r, h, h2, _, hn => by
      have hpush : Receiving n (pre ++ [d]) (r.serialInt1Receive d) :=
        h.push (by rintro rfl; simp at h2) (by rintro x rfl; simp at h2)
          (by simp at hn; omega)
      have hrest : Received ((pre ++ [d]) ++ (e :: ds)) ((r.serialInt1Receive d).feed (e :: ds)) :=
        hpush.rest (by simp; omega) (by simp) (by simp at hn ⊢; omega)
      rw [List.append_assoc] at hrest
      exact hrest

/-- An idle receiver takes in a whole frame: two equal header bytes and as
many more as belong to them. -/
theorem received_frame {r : SerialRx} {b : UInt8} {ds : List UInt8} (h : r.isrJ = 0)
    (hb : b = 0xF1 ∧ ds.length = 5 ∨ b = 0xF2 ∧ ds.length = 31) :
    Received (b :: b :: ds) (r.feed (b :: b :: ds)) := by
  have hne : ds ≠ [] := by rintro rfl; simp at hb
  have h1 := receiving_head h (hb.imp And.left And.left)
  have h2 := h1.push (b := b) (by simp) (by rintro x hx; simpa using hx) (by
    rcases hb with ⟨rfl, -⟩ | ⟨rfl, -⟩ <;> simp)
  exact h2.rest (by simp) hne (by
    rcases hb with ⟨rfl, hl⟩ | ⟨rfl, hl⟩ <;> simp [hl])

/-! ## Commands -/

namespace Disp

/-- The display after the bytes came in and its loop handled the frame. -/
def handle (bs : List UInt8) (d : Disp) : Disp := ({ d with rx := d.rx.feed bs }).cmdUartCheck

/-- The power switch changes no setting of a display that is on. -/
theorem checkPower_work_on {d : Disp} (h : d.work.devicePowerState ≠ 0) :
    (d.checkPower d.work.devicePowerState).work = d.work := by
  rw [checkPower, if_neg h]
  split
  · next h1 => simp [onoffDeviceSet, ← h1]
  · rfl

theorem checkMode_work (v : UInt8) (d : Disp) : (d.checkMode v).work =
    if (v = 1 ∨ v = 2) ∧ d.key4 ≠ 0 then { d.work with deviceMode := v } else d.work := by
  unfold checkMode
  by_cases h1 : v = 1
  · subst h1
    by_cases hk : d.key4 = 0 <;> simp [hk]
  · by_cases h2 : v = 2
    · subst h2
      by_cases hk : d.key4 = 0 <;> simp [hk]
    · simp [h1, h2]

theorem checkWind_work (v : UInt8) (d : Disp) : (d.checkWind v).work =
    if v = 0 ∨ v = 1 ∨ v = 2 ∨ v = 3 then { d.work with windSpeedState := v } else d.work := by
  unfold checkWind
  split
  · next h => simp [h]
  · split
    · next h => simp [h]
    · split
      · next h => simp [h]
      · split
        · next h => simp [h]
        · next h0 h1 h2 h3 => simp [h0, h1, h2, h3]

theorem checkHighPressur_work (v : UInt8) (d : Disp) : (d.checkHighPressur v).work =
    if v = 0 ∨ v = 1 then { d.work with highPressurState := v } else d.work := by
  unfold checkHighPressur
  split
  · next h => simp [h]
  · split
    · next h => simp [h]
    · next h0 h1 => simp [h0, h1]

theorem checkPht_work (v : UInt8) (d : Disp) : (d.checkPht v).work =
    if v = 0 ∨ v = 1 then { d.work with phtWorkState := v } else d.work := by
  unfold checkPht
  split
  · next h => simp [h]
  · split
    · next h => simp [h]
    · next h0 h1 => simp [h0, h1]

theorem checkTiming_work (v : UInt8) (d : Disp) : (d.checkTiming v).work =
    if d.key4 ≠ 0 ∧ v ≤ 0x0C then { d.work with timingState := v } else d.work := by
  unfold checkTiming
  split <;> rfl

/-- On a display that is on, the pass rewrites each setting to itself. -/
theorem deviceWorkModeCheck_work {d : Disp} (h : d.work.devicePowerState ≠ 0) :
    d.deviceWorkModeCheck.work = d.work := by
  rw [deviceWorkModeCheck]
  simp [checkTiming_work, checkPht_work, checkHighPressur_work, checkWind_work, checkMode_work,
    checkPower_work_on h]

theorem report_work (k : Keys) (f m : UInt8) (d : Disp) : (d.report k f m).work = d.work := rfl

theorem answerF1_work (d : Disp) : d.answerF1.work = d.work := by
  unfold answerF1
  cases d.pending with
  | some r => rfl
  | none => simp only [apply_ite Disp.work, report_work, ite_self]

/-- The check on a frame with the header F1 F1. -/
theorem cmdUartCheck_f1 {d : Disp} (hflag : d.rx.rxd1BuffCFlag ≠ 0) (h0 : d.rx.inComBuff 0 = 0xF1)
    (h1 : d.rx.inComBuff 1 = 0xF1) : d.cmdUartCheck =
      ({ d with
        rx := d.rx.takeFrame
        work := f1Switch (d.rx.inComBuff 2) (d.rx.inComBuff 4) d.work }).deviceWorkModeCheck.answerF1 := by
  simp [cmdUartCheck, hflag, h0, h1]

/-- And on one with F2 F2. -/
theorem cmdUartCheck_f2 {d : Disp} (hflag : d.rx.rxd1BuffCFlag ≠ 0) (h0 : d.rx.inComBuff 0 = 0xF2)
    (h1 : d.rx.inComBuff 1 = 0xF2) : d.cmdUartCheck =
      (takeF2 d.rx.inComBuff { d with rx := d.rx.takeFrame }).deviceWorkModeCheck.faultCheck := by
  simp [cmdUartCheck, hflag, h0, h1]

/-- An idle display takes in an F1 frame, switches on its command, checks and
answers. -/
theorem handle_f1 {d : Disp} (h : d.rx.isrJ = 0) (type b3 data b5 b6 : UInt8) :
    ∃ r, r.isrJ = 0 ∧ d.handle [0xF1, 0xF1, type, b3, data, b5, b6] =
      ({ d with rx := r, work := f1Switch type data d.work }).deviceWorkModeCheck.answerF1 := by
  have hr : Received [0xF1, 0xF1, type, b3, data, b5, b6]
      (d.rx.feed [0xF1, 0xF1, type, b3, data, b5, b6]) :=
    received_frame h (.inl ⟨rfl, rfl⟩)
  rw [handle]
  generalize d.rx.feed [0xF1, 0xF1, type, b3, data, b5, b6] = r at hr
  have h0 := hr.bytes 0 (by simp)
  have h1 := hr.bytes 1 (by simp)
  have h2 := hr.bytes 2 (by simp)
  have h4 := hr.bytes 4 (by simp)
  simp only [List.getElem_cons_zero, List.getElem_cons_succ] at h0 h1 h2 h4
  refine ⟨r.takeFrame, hr.idle, ?_⟩
  rw [cmdUartCheck_f1 (by simp [hr.flag]) h0 h1, h2, h4]

/-- An idle display takes in an F2 frame, checks the settings and shows the
faults. -/
theorem handle_f2 {d : Disp} (h : d.rx.isrJ = 0) {ds : List UInt8} (hlen : ds.length = 31) :
    ∃ r rx, r.isrJ = 0 ∧ (∀ i < 33, rx i = (0xF2 :: 0xF2 :: ds).getD i 0) ∧
      d.handle (0xF2 :: 0xF2 :: ds) =
        (takeF2 rx { d with rx := r }).deviceWorkModeCheck.faultCheck := by
  have hr : Received (0xF2 :: 0xF2 :: ds) (d.rx.feed (0xF2 :: 0xF2 :: ds)) :=
    received_frame h (.inr ⟨rfl, hlen⟩)
  rw [handle]
  generalize d.rx.feed (0xF2 :: 0xF2 :: ds) = r at hr
  have h0 : r.inComBuff 0 = 0xF2 := hr.bytes 0 (by simp)
  have h1 : r.inComBuff 1 = 0xF2 := hr.bytes 1 (by simp)
  refine ⟨r.takeFrame, r.inComBuff, hr.idle, ?_, cmdUartCheck_f2 (by simp [hr.flag]) h0 h1⟩
  intro i hi
  have hi' : i < (0xF2 :: 0xF2 :: ds).length := by simpa [hlen] using hi
  rw [hr.bytes i hi', List.getD_eq_getElem?_getD, List.getElem?_eq_getElem hi', Option.getD_some]

end Disp

/-! ## The main board's switch -/

def Board.settings (s : Board) : Settings where
  devicePowerState := s.mem (work Field.devicePowerState)
  deviceMode := s.mem (work Field.deviceMode)
  windSpeedState := s.mem (work Field.windSpeedState)
  highPressurState := s.mem (work Field.highPressurState)
  phtWorkState := s.mem (work Field.phtWorkState)
  timingState := s.mem (work Field.timingState)

/-- Operations that do not write `device_work_data`. -/
def Op.LeavesWork : Op → Prop
  | .store (.deviceWorkData _) _ => False
  | _ => True

theorem exec_settings {o : Op} (h : o.LeavesWork) (t : Nat) (s : Board) :
    (Board.exec t o s).2.settings = s.settings := by
  cases o with
  | store a v =>
      have hne : ∀ i, work i ≠ a := by rintro i rfl; exact h
      simp [Board.settings, hne]
  | _ => rfl

theorem run_settings {α : Type} {p : Code α} (h : p.Only Op.LeavesWork) (t : Nat) (s : Board) :
    (p.run Board.machine t s).2.settings = s.settings := by
  induction h generalizing s with
  | ret x => rfl
  | op ho _ ih => exact (ih _ _).trans (exec_settings ho t s)

theorem Op.Plain.leavesWork {o : Op} (h : o.Plain) : o.LeavesWork := by
  cases o with
  | store a v =>
      cases a with
      | deviceWorkData i => exact absurd h id
      | _ => trivial
  | _ => trivial

theorem run_plain_settings {α : Type} {p : Code α} (h : p.Only Op.Plain) (t : Nat) (s : Board) :
    (p.run Board.machine t s).2.settings = s.settings :=
  run_settings (h.mono fun _ => Op.Plain.leavesWork) t s

theorem acAcMotorSet_leaves (mode : UInt8) : (acAcMotorSet mode).Only Op.LeavesWork := by
  simp [acAcMotorSet, Op.LeavesWork]

theorem setting_command_cases {type : UInt8} (h : 3 ≤ type ∧ type ≤ 7) :
    type = 3 ∨ type = 4 ∨ type = 5 ∨ type = 6 ∨ type = 7 := by
  rw [UInt8.le_iff_toNat_le, UInt8.le_iff_toNat_le] at h
  simp only [← UInt8.toNat_inj]
  simp at h ⊢
  omega

/-- The two switches are one, for every command but power. -/
theorem commandSwitch_settings {type : UInt8} (h : 3 ≤ type ∧ type ≤ 7) (data : UInt8) (t : Nat)
    (s : Board) :
    ((commandSwitch type data).run Board.machine t s).1 = true ∧
      ((commandSwitch type data).run Board.machine t s).2.settings =
        Disp.f1Switch type data s.settings := by
  rcases setting_command_cases h with rfl | rfl | rfl | rfl | rfl
  · by_cases hd : data = 1 ∨ data = 2 <;> simp [commandSwitch, Disp.f1Switch, Board.settings, hd]
  · simp [commandSwitch, Disp.f1Switch, Board.settings]
  · simp [commandSwitch, Disp.f1Switch, Board.settings, acPhtSet]
  · by_cases h0 : data = 0
    · simp [commandSwitch, Disp.f1Switch, Board.settings, h0]
    · simp [commandSwitch, Disp.f1Switch, Board.settings, h0]
  · have hspeed := run_plain_settings (setDcMotorSpeed_plain data) t
    have hmotor := run_settings (acAcMotorSet_leaves data) t
    by_cases hd : data ≤ 3
    · simp [commandSwitch, Disp.f1Switch, hd, hspeed, hmotor]
      simp [Board.settings]
    · simp [commandSwitch, Disp.f1Switch, hd, hspeed, hmotor]

theorem f1Switch_power {type : UInt8} (h : 3 ≤ type) (data : UInt8) (w : Settings) :
    (Disp.f1Switch type data w).devicePowerState = w.devicePowerState := by
  have h2 : type ≠ 2 := by rintro rfl; exact absurd h (by decide)
  simp only [Disp.f1Switch, if_neg h2, apply_ite Settings.devicePowerState, ite_self]

/-- The commands but power, on a main board that is on and in manual mode. -/
theorem setDeviceWorkMode_settings (request : Nat → Code eMBMasterReqErrCode) {type : UInt8}
    (h : 3 ≤ type ∧ type ≤ 7) (data : UInt8) (t : Nat) {b : Board}
    (hon : b.settings.devicePowerState ≠ 0) (hmode : b.settings.deviceMode = 2) :
    ((setDeviceWorkMode request type data 0).run Board.machine t b).2.settings =
      Disp.f1Switch type data b.settings := by
  have happly : ∀ s : Board, s.settings = b.settings →
      ((applyCommand request type data 0).run Board.machine t s).2.settings =
        Disp.f1Switch type data b.settings := by
    intro s hs
    obtain ⟨hknown, hswitch⟩ := commandSwitch_settings h data t
      ((backupWorkData.run Board.machine t s).2)
    rw [run_plain_settings backupWorkData_plain t s, hs] at hswitch
    simp [applyCommand, hknown, run_plain_settings saveIfChanged_plain t, hswitch]
  have hmode' : b.mem (work 1) = 2 := hmode
  have hon' : b.mem (work 0) ≠ 0 := hon
  by_cases hguard : type ≠ 0x02 ∧ type ≠ 0x03
  · simp only [setDeviceWorkMode, if_pos hguard]
    simp [hmode', hon']
    exact happly _ rfl
  · simp only [setDeviceWorkMode, if_neg hguard]
    simp
    exact happly _ rfl

/-- **The two boards give a command the same meaning.** On boards that agree,
with the device on and in manual mode, a command leaves the settings of the
main board and, sent as a frame, those of the display equal. -/
theorem command_same_meaning (request : Nat → Code eMBMasterReqErrCode) (t : Nat) (b : Board)
    (d : Disp) (type data chk : UInt8) (h : 3 ≤ type ∧ type ≤ 7)
    (hon : b.settings.devicePowerState ≠ 0) (hmode : b.settings.deviceMode = 2)
    (hagree : d.work = b.settings) (hidle : d.rx.isrJ = 0) :
    ((setDeviceWorkMode request type data 0).run Board.machine t b).2.settings =
      (d.handle [0xF1, 0xF1, type, 0x01, data, chk, 0x7E]).work := by
  obtain ⟨r, -, hr⟩ := Disp.handle_f1 hidle type 0x01 data chk 0x7E
  rw [setDeviceWorkMode_settings request h data t hon hmode, hr, Disp.answerF1_work,
    Disp.deviceWorkModeCheck_work, hagree]
  show (Disp.f1Switch type data d.work).devicePowerState ≠ 0
  rw [f1Switch_power h.1, hagree]
  exact hon

/-- The main board after reset, switched on and in manual mode. -/
def Board.manual : Board := (Board.reset.set (work 0) 1).set (work 1) 2

theorem command_same_meaning_manual :
    ((setDeviceWorkMode exchange 0x07 3 0).run Board.machine decodeThread Board.manual).2.settings =
      ({ Disp.reset with work := Board.manual.settings }.handle
        [0xF1, 0xF1, 0x07, 0x01, 3, 0x0B, 0x7E]).work :=
  command_same_meaning exchange decodeThread Board.manual
    { Disp.reset with work := Board.manual.settings } 0x07 3 0x0B (by decide) (by decide)
    (by decide) rfl rfl

/-! ## Commands relayed from WiFi -/

/-- The setting that a command type names. -/
def Settings.named (type : UInt8) (w : Settings) : UInt8 :=
  if type = 0x02 then w.devicePowerState
  else if type = 0x03 then w.deviceMode
  else if type = 0x04 then w.highPressurState
  else if type = 0x05 then w.phtWorkState
  else if type = 0x06 then w.timingState
  else w.windSpeedState

/-- The display's settings right after the F1 switch, for bytes that came in
over the line. -/
def Disp.afterSwitch (bs : List UInt8) (d : Disp) : Settings :=
  let r := d.rx.feed bs
  if r.rxd1BuffCFlag ≠ 0 ∧ r.inComBuff 0 = 0xF1 ∧ r.inComBuff 1 = 0xF1 then
    f1Switch (r.inComBuff 2) (r.inComBuff 4) d.work
  else d.work

/-- As a command's data byte, `mode` ends up in the setting. -/
def Disp.Accepts (type mode : UInt8) : Prop :=
  ∀ w, (f1Switch type mode w).named type = mode

/-- The frame most recently put on the line. -/
def Board.lastRequest (s : Board) : List UInt8 :=
  match s.log.getLast? with
  | some (.request fr) => fr
  | _ => []

theorem run_ignoreReply (errorCode : eMBMasterReqErrCode) (t : Nat) (s : Board) :
    (ignoreReply errorCode).run Board.machine t s = ((), s) := by
  have hframed : ((replyFramed 0xF2 32).run Board.machine t s).2 = s := by
    simp [replyFramed, apply_ite Prod.snd]
  by_cases hc : errorCode = .revData
  · simp [ignoreReply, hc, hframed]
  · simp [ignoreReply, hc]

/-- What the builder sends: the mode byte in the place of the type, and what
its locals happened to contain in the place of length and data. -/
theorem setDispboardFunctionMode_sends (type mode : UInt8) (t : Nat) (b : Board) :
    ((setDispboardFunctionMode exchange type mode).run Board.machine t b).2.lastRequest =
      [0xF1, 0xF1, mode, b.stack 0, b.stack 1,
        b.stack 2 + mode + b.stack 0 + b.stack 1, 0x7E] := by
  simp [setDispboardFunctionMode, sendPacketData, Prog.foldUpTo, run_ignoreReply,
    Board.lastRequest, Board.frame, List.range, List.range.loop]

theorem Disp.afterSwitch_f1 {d : Disp} (h : d.rx.isrJ = 0) (type b3 data b5 b6 : UInt8) :
    d.afterSwitch [0xF1, 0xF1, type, b3, data, b5, b6] = f1Switch type data d.work := by
  have hr : Received [0xF1, 0xF1, type, b3, data, b5, b6]
      (d.rx.feed [0xF1, 0xF1, type, b3, data, b5, b6]) :=
    received_frame h (.inl ⟨rfl, rfl⟩)
  rw [afterSwitch]
  generalize d.rx.feed [0xF1, 0xF1, type, b3, data, b5, b6] = r at hr
  have h0 := hr.bytes 0 (by simp)
  have h1 := hr.bytes 1 (by simp)
  have h2 := hr.bytes 2 (by simp)
  have h4 := hr.bytes 4 (by simp)
  simp only [List.getElem_cons_zero, List.getElem_cons_succ] at h0 h1 h2 h4
  simp [hr.flag, h0, h1, h2, h4]

theorem command_cases {type : UInt8} (h : 2 ≤ type ∧ type ≤ 7) :
    type = 2 ∨ type = 3 ∨ type = 4 ∨ type = 5 ∨ type = 6 ∨ type = 7 := by
  rw [UInt8.le_iff_toNat_le, UInt8.le_iff_toNat_le] at h
  simp only [← UInt8.toNat_inj]
  simp at h ⊢
  omega

/-- A command changes the setting it names and no other. -/
theorem named_f1Switch_of_ne {type type' : UInt8} (h : 2 ≤ type ∧ type ≤ 7) (hne : type' ≠ type)
    (data : UInt8) (w : Settings) : (Disp.f1Switch type' data w).named type = w.named type := by
  rcases command_cases h with rfl | rfl | rfl | rfl | rfl | rfl
  · simp [Disp.f1Switch, hne, Settings.named, apply_ite Settings.devicePowerState]
  · simp [Disp.f1Switch, hne, Settings.named, apply_ite Settings.deviceMode]
  · simp [Disp.f1Switch, hne, Settings.named, apply_ite Settings.highPressurState]
  · simp [Disp.f1Switch, hne, Settings.named, apply_ite Settings.phtWorkState]
  · simp [Disp.f1Switch, hne, Settings.named, apply_ite Settings.timingState]
  · simp [Disp.f1Switch, hne, Settings.named, apply_ite Settings.windSpeedState]

/-- Only as a timer value is a command's own number a value it accepts. -/
theorem accepts_self {type : UInt8} (h : 2 ≤ type ∧ type ≤ 7) (hacc : Disp.Accepts type type) :
    type = 6 := by
  rcases command_cases h with rfl | rfl | rfl | rfl | rfl | rfl
  · have := hacc ⟨0, 0, 0, 0, 0, 0⟩
    exact absurd this (by decide)
  · have := hacc ⟨0, 0, 0, 0, 0, 0⟩
    exact absurd this (by decide)
  · have := hacc ⟨0, 0, 0, 0, 0, 0⟩
    exact absurd this (by decide)
  · have := hacc ⟨0, 0, 0, 0, 0, 0⟩
    exact absurd this (by decide)
  · rfl
  · have := hacc ⟨0, 0, 0, 0, 0, 0⟩
    exact absurd this (by decide)

/-- **When a relayed command reaches the display.** The builder puts the mode
byte where the display looks for the command type, and one of its own
uninitialised bytes where it looks for the data. So the named setting is the
mode only if it was before, or if the two happen to coincide. -/
theorem relay_reaches_iff (t : Nat) (b : Board) (d : Disp) (type mode : UInt8)
    (h : 2 ≤ type ∧ type ≤ 7) (hacc : Disp.Accepts type mode) (hidle : d.rx.isrJ = 0) :
    (d.afterSwitch ((setDispboardFunctionMode exchange type mode).run
        Board.machine t b).2.lastRequest).named type = mode ↔
      if type = 6 ∧ mode = 6 then b.stack 1 = 6 else d.work.named type = mode := by
  rw [setDispboardFunctionMode_sends, Disp.afterSwitch_f1 hidle]
  by_cases hself : mode = type
  · subst hself
    obtain rfl := accepts_self h hacc
    rw [if_pos ⟨rfl, rfl⟩]
    show (if b.stack 1 ≤ 0x0c ∧ b.stack 1 ≠ 0 then b.stack 1 else 0) = 6 ↔ b.stack 1 = 6
    constructor
    · intro h6
      split at h6
      · exact h6
      · exact absurd h6 (by decide)
    · intro h6
      rw [h6, if_pos (by decide)]
  · have hno : ¬ (type = 6 ∧ mode = 6) := fun ⟨h6, hm⟩ => hself (hm.trans h6.symm)
    rw [if_neg hno, named_f1Switch_of_ne h hself]

theorem relay_reaches_iff_reset :
    (Disp.reset.afterSwitch ((setDispboardFunctionMode exchange 0x04 0).run Board.machine
        decodeThread Board.reset).2.lastRequest).named 0x04 = 0 ↔
      if (0x04 : UInt8) = 6 ∧ (0 : UInt8) = 6 then Board.reset.stack 1 = 6
      else Disp.reset.work.named 0x04 = 0 :=
  relay_reaches_iff decodeThread Board.reset Disp.reset 0x04 0 (by decide) (fun _ => rfl) rfl

/-- Switching the electrostatic filter on never gets through. -/
theorem relay_reaches_counterexample :
    Disp.Accepts 0x04 1 ∧
      (Disp.reset.afterSwitch ((setDispboardFunctionMode exchange 0x04 1).run Board.machine
        decodeThread Board.reset).2.lastRequest).named 0x04 ≠ 1 := by
  refine ⟨fun _ => rfl, ?_⟩
  rw [setDispboardFunctionMode_sends, Disp.afterSwitch_f1 rfl]
  decide

end Aclean
