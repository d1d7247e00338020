import Aclean.StatePush
import Aclean.SettingsRange

/-!
# The WiFi reset key

A long press of the display's power key sets a bit in its second settings
record, `device_work_changing_data`. `return_current_device_state` sends that
record and clears the bit, and `get_display_board_data` calls
`wifi_factory_set` for a frame that has it set. But the calls of
`return_current_device_state` are commented out, so no answer of the display
carries the record, and the bit stays where it is.
-/

namespace Aclean

open Prog Board

/-! ## The second settings record -/

/-- The display with the bytes of its `device_work_changing_data`. Handling a
frame of the main board does not touch them. -/
structure Panel where
  disp : Disp
  changing : Nat → UInt8

def faultResetWifiBit : UInt8 := 6

theorem or_and_mask (f m : UInt8) : (f ||| m) &&& m = m := by
  apply UInt8.toBitVec_inj.mp
  ext i hi
  simp only [UInt8.toBitVec_and, UInt8.toBitVec_or, BitVec.getElem_and, BitVec.getElem_or]
  cases m.toBitVec[i] <;> simp

namespace Panel

/-- `fault_set_bit` of the display. -/
def faultSetBit (faultType val : UInt8) (p : Panel) : Panel :=
  let f := p.changing Field.faultState
  let f := if val ≠ 0 then f ||| 1 <<< faultType else f &&& ~~~(1 <<< faultType)
  { p with changing := Function.update p.changing Field.faultState f }

def resetWifi (p : Panel) : Panel := p.faultSetBit faultResetWifiBit 1

/-- A long press of the power key. -/
def powerKeyLong (p : Panel) : Panel :=
  if p.disp.work.devicePowerState = 1 then p.resetWifi else p

/-- `onoff_Scan`, once in every round of the main loop. -/
def onoffScan (p : Panel) : Panel :=
  if p.disp.work.devicePowerState = 1 then
    { disp := { p.disp with screen := p.disp.screen.ht1621Display p.disp.work.timingState }
      changing := Function.update p.changing Field.devicePowerState 1 }
  else { p with changing := Function.update p.changing Field.devicePowerState 0 }

/-- `return_current_device_state`, with the checksum's start as an argument. -/
def returnCurrentDeviceState (chk : UInt8) (p : Panel) : Panel :=
  let buftmp := 0x01 :: 0x1b :: (List.range 27).map p.changing
  { p with disp := p.disp.wifiSendPacketData chk buftmp }.faultSetBit faultResetWifiBit 0

/-- A reset was asked for and has not been sent. -/
def ResetWanted (p : Panel) : Prop :=
  p.changing Field.faultState &&& 1 <<< faultResetWifiBit ≠ 0

instance (p : Panel) : Decidable p.ResetWanted := inferInstanceAs (Decidable (_ ≠ _))

theorem resetWifi_wanted (p : Panel) : p.resetWifi.ResetWanted := by
  have hset : p.resetWifi.changing Field.faultState =
      p.changing Field.faultState ||| 1 <<< faultResetWifiBit := by
    simp [resetWifi, faultSetBit]
  rw [ResetWanted, hset, or_and_mask]
  decide

theorem returnCurrentDeviceState_clears (chk : UInt8) (p : Panel) :
    ¬ (p.returnCurrentDeviceState chk).ResetWanted := by
  have hclear : (p.returnCurrentDeviceState chk).changing Field.faultState =
      p.changing Field.faultState &&& ~~~(1 <<< faultResetWifiBit) := by
    simp [returnCurrentDeviceState, faultSetBit]
  rw [ResetWanted, hclear, UInt8.and_assoc, not_not]
  exact UInt8.and_zero

theorem powerKeyLong_wanted {p : Panel} (h : p.ResetWanted) : p.powerKeyLong.ResetWanted := by
  unfold powerKeyLong
  split
  · exact p.resetWifi_wanted
  · exact h

theorem onoffScan_wanted (p : Panel) : p.onoffScan.ResetWanted ↔ p.ResetWanted := by
  unfold onoffScan ResetWanted
  split
  · simp
  · simp

end Panel

/-! ## Calls of `wifi_factory_set` -/

/-- How often `wifi_factory_set` has been called. -/
def Board.factorySets (b : Board) : Nat := b.log.count .wifiFactorySet

/-- Every operation but the call itself. -/
def Op.Spares (o : Op) : Prop := o ≠ .note .wifiFactorySet

theorem Op.Bare.spares {o : Op} (h : o.Bare) : o.Spares := h.2.2 _

theorem exec_factorySets {o : Op} (h : o.Spares) (t : Nat) (b : Board) :
    (exec t o b).2.factorySets = b.factorySets := by
  cases o with
  | note e =>
      have hne : e ≠ .wifiFactorySet := by rintro rfl; exact h rfl
      simp [factorySets, List.count_append, hne]
  | uartWrite len => simp [factorySets, List.count_append]
  | exchange len => simp [factorySets, List.count_append]
  | _ => rfl

theorem run_factorySets {α : Type} {c : Code α} (h : c.Only Op.Spares) (t : Nat) (b : Board) :
    (c.run machine t b).2.factorySets = b.factorySets := by
  induction h generalizing b with
  | ret a => rfl
  | op ho _ ih => exact (ih _ _).trans (exec_factorySets ho t b)

theorem plain_spares {α : Type} {c : Code α} (h : c.Only Op.Plain) : c.Only Op.Spares :=
  h.mono fun _ ho => ho.not_note _

theorem setDeviceWorkMode_spares (request : Nat → Code eMBMasterReqErrCode) (type data : UInt8) :
    (setDeviceWorkMode request type data 0).Only Op.Spares := by
  have happly : (applyCommand request type data 0).Only Op.Spares :=
    (applyCommand_bare request type data).mono fun _ => Op.Bare.spares
  unfold setDeviceWorkMode
  simp [happly, Op.Spares]

/-- Only an F2 frame in the receive buffer makes the handler call it. -/
theorem handleDisplayReply_factorySets (request : Nat → Code eMBMasterReqErrCode) (t : Nat)
    {b : Board} (h : b.mem (.ucMasterRTURcvBuf 0) ≠ 0xF2) :
    ((handleDisplayReply request).run machine t b).2.factorySets = b.factorySets := by
  have hkey : (takeDisplayKey request).Only Op.Spares := by
    simp [takeDisplayKey, setDeviceWorkMode_spares, Op.Spares]
  rw [handleDisplayReply, run_bind, run_replyFramed, run_ite, if_neg (by simp [h])]
  refine run_factorySets (.bind (plain_spares (replyFramed_plain _ _)) fun f1 => ?_) t b
  exact (only_ite ..).mpr ⟨fun _ => hkey, fun _ => .ret _⟩

/-- And such a frame only if its bit is set, once. -/
theorem takeDisplaySettings_factorySets (t : Nat) (b : Board) :
    (takeDisplaySettings.run machine t b).2.factorySets = b.factorySets +
      if b.mem (.ucMasterRTURcvBuf 30) &&& FaultBit.resetWifi.mask ≠ 0 then 1 else 0 := by
  have hrcv : ∀ i, (backupWorkData.run machine t b).2.mem (.ucMasterRTURcvBuf i) =
      b.mem (.ucMasterRTURcvBuf i) := fun i => run_backupWorkData_mem t b (by rintro j ⟨⟩)
  have hcalls := run_factorySets (plain_spares backupWorkData_plain) t b
  rw [takeDisplaySettings_eq, run_bind, run_factorySets (plain_spares saveIfChanged_plain)]
  simp only [takeReplyBytes, run_bind]
  generalize (backupWorkData.run machine t b).2 = b₁ at hrcv hcalls
  rw [← hcalls, ← hrcv 30]
  by_cases hauto : b₁.mem (.ucMasterRTURcvBuf 5) = 1
  · by_cases hreset : b₁.mem (.ucMasterRTURcvBuf 30) &&& FaultBit.resetWifi.mask = 0
    · simp [hauto, hreset, factorySets]
    · simp [hauto, hreset, factorySets]
  · by_cases hreset : b₁.mem (.ucMasterRTURcvBuf 30) &&& FaultBit.resetWifi.mask = 0
    · simp [hauto, hreset, factorySets]
    · simp [hauto, hreset, factorySets]

/-! ## What the record would bring about -/

/-- An enabled transmitter sends the rest of its frame and the two bytes
behind it. -/
theorem drain_rest (n : Nat) {x : SerialTx} {fuel : Nat} (hon : x.txeEnabled = true)
    (hrest : x.counterSend.toNat + n = x.cmdSendLenth.toNat + 1) (hlen : x.cmdSendLenth.toNat ≤ 39)
    (hfuel : n < fuel) :
    (x.drain fuel).1 = (List.range' x.counterSend.toNat (n + 1)).map x.wifiSendPacketBufPub := by
  induction n generalizing x fuel with
  | zero =>
      obtain ⟨fuel, rfl⟩ := Nat.exists_eq_add_one.mpr hfuel
      have hlast : ¬ x.counterSend ≤ x.cmdSendLenth := by
        rw [UInt8.le_iff_toNat_le]
        omega
      have hoff : ∀ y : SerialTx, y.txeEnabled = false → (y.drain fuel).1 = [] := by
        intro y hy
        cases fuel with
        | zero => rfl
        | succ fuel => rw [SerialTx.drain, hy]; rfl
      simp only [SerialTx.drain, if_pos hon, SerialTx.serialInt1Send, if_neg hlast]
      rw [hoff _ (by split <;> rfl)]
      rfl
  | succ n ih =>
      obtain ⟨fuel, rfl⟩ := Nat.exists_eq_add_one.mpr (Nat.zero_lt_of_lt hfuel)
      have hmore : x.counterSend ≤ x.cmdSendLenth := by
        rw [UInt8.le_iff_toNat_le]
        omega
      have hnext : (x.counterSend + 1).toNat = x.counterSend.toNat + 1 := by
        rw [UInt8.toNat_add, show (1 : UInt8).toNat = 1 from rfl]
        omega
      have hwrap : ¬ x.counterSend + 1 > 40 := by
        rw [gt_iff_lt, UInt8.lt_iff_toNat_lt, hnext, show (40 : UInt8).toNat = 40 from rfl]
        omega
      have hrest' : (x.counterSend + 1).toNat + n = x.cmdSendLenth.toNat + 1 := by
        rw [hnext]
        omega
      have hstep := ih (x := { x with counterSend := x.counterSend + 1 }) hon hrest' hlen
        (Nat.lt_of_succ_lt_succ hfuel)
      simp only [SerialTx.drain, if_pos hon, SerialTx.serialInt1Send, if_pos hmore, if_neg hwrap,
        hstep, hnext]
      rfl

/-- What `return_current_device_state` puts on the line. -/
theorem returnCurrentDeviceState_sends (chk : UInt8) {p : Panel} (h : p.disp.tx.counterSend = 0) :
    ∃ rest, ((p.returnCurrentDeviceState chk).disp.tx.drain 64).1 =
      packed 0xF2 (0x01 :: 0x1b :: (List.range 27).map p.changing) chk ++ rest := by
  have hpub := packBuffer_packed 0xF2 (0x01 :: 0x1b :: (List.range 27).map p.changing) chk
    p.disp.tx.wifiSendPacketBufPub
  generalize hx : (p.returnCurrentDeviceState chk).disp.tx = x
  have hcounter : x.counterSend = 0 := by rw [← hx]; exact h
  have hlen : x.cmdSendLenth = 33 := by
    rw [← hx]
    simp [Panel.returnCurrentDeviceState, Panel.faultSetBit, Disp.wifiSendPacketData]
  have hbuf : x.wifiSendPacketBufPub = packBuffer 0xF2
      (0x01 :: 0x1b :: (List.range 27).map p.changing) chk p.disp.tx.wifiSendPacketBufPub := by
    rw [← hx]; rfl
  have hdrain := drain_rest 34 (x := x) (by rw [← hx]; rfl) (by rw [hcounter, hlen]; rfl)
    (by rw [hlen]; decide) (show 34 < 64 by decide)
  have hsplit : List.range 35 = List.range 33 ++ [33, 34] := rfl
  rw [show (0x01 :: 0x1b :: (List.range 27).map p.changing).length + 4 = 33 by simp] at hpub
  rw [hdrain, hcounter, show (0 : UInt8).toNat = 0 from rfl, hbuf, ← List.range_eq_range', hsplit,
    List.map_append, hpub]
  exact ⟨_, rfl⟩

/-- **What an answer with the second record would bring about.** The main
board would call `wifi_factory_set` once if the bit is set, and the bit would be
cleared. -/
theorem returnCurrentDeviceState_serves (chk : UInt8) (t : Nat) (b : Board) {p : Panel}
    (h : p.disp.tx.counterSend = 0) :
    let q := p.returnCurrentDeviceState chk
    ((handleDisplayReply exchange).run machine t
        { b with mem := receive (q.disp.tx.drain 64).1 b.mem }).2.factorySets =
      b.factorySets + (if p.ResetWanted then 1 else 0) ∧ ¬ q.ResetWanted := by
  obtain ⟨rest, hrest⟩ := returnCurrentDeviceState_sends chk h
  refine ⟨?_, p.returnCurrentDeviceState_clears chk⟩
  simp only [hrest]
  have hf2 : FramedF2 fun i => receive (packed 0xF2 (0x01 :: 0x1b :: (List.range 27).map p.changing)
      chk ++ rest) b.mem (.ucMasterRTURcvBuf i) := by
    refine ⟨rfl, rfl, ?_⟩
    simp [receive, packed, List.getElem?_append]
  rw [(handleDisplayReply_f2 t (s := { b with mem := receive _ b.mem }) hf2).1,
    takeDisplaySettings_factorySets]
  have hbyte : receive (packed 0xF2 (0x01 :: 0x1b :: (List.range 27).map p.changing) chk ++ rest)
      b.mem (.ucMasterRTURcvBuf 30) = p.changing Field.faultState := rfl
  simp only [hbyte]
  exact congrArg (b.factorySets + ·) (if_congr Iff.rfl rfl rfl)

/-! ## What a poll brings about -/

/-- An answer to an F1 frame, if there is one, reports a key or a sign of life. -/
theorem answer_f1 {d : Disp} (h : d.Ready) (type b3 data b5 b6 : UInt8) :
    let a := d.answer [0xF1, 0xF1, type, b3, data, b5, b6]
    (a.1 = [] ∨ ∃ f m, Disp.Reports f m a.1) ∧ a.2.Ready := by
  cases hp : d.pending with
  | some r =>
      obtain ⟨hrep, -, hready⟩ := answer_f1_pending h type b3 data b5 b6 hp
      exact ⟨.inr ⟨_, _, hrep⟩, hready⟩
  | none =>
      obtain ⟨hbytes, -, hready⟩ := answer_f1_idle h type b3 data b5 b6 hp
      exact ⟨hbytes.imp id fun hrep => ⟨_, _, hrep⟩, hready⟩

theorem pollTail_factorySets (c : eMBMasterReqErrCode) (t : Nat) {b : Board}
    (h : c = .revData → b.mem (.ucMasterRTURcvBuf 0) ≠ 0xF2) :
    ((pollTail c).run machine t b).2.factorySets = b.factorySets := by
  rw [pollTail, run_bind, run_when]
  split
  · next hc => exact handleDisplayReply_factorySets exchange t (h hc)
  · rfl

/-- Whatever the two boards' states, a poll calls `wifi_factory_set` never. -/
theorem poll_factorySets {d : Disp} (h : d.Ready) (t : Nat) (b : Board) :
    ((getDisplayBoardData exchange).run linkMachine t (b, d)).2.1.factorySets = b.factorySets := by
  have hplain : pollFrame.Only Op.Plain := by simp [pollFrame, Op.Plain, Addr.Rx, Addr.Master]
  have hoff : pollFrame.Only Op.OffLine := hplain.mono fun _ ho => ho.control.offLine
  have hcalls := run_factorySets (plain_spares hplain) t b
  have hframe : (pollFrame.run machine t b).2.frame .rs485SendBufNotModbus 7 =
      [0xF1, 0xF1, 0x01, 0x01, 0x00, 0x02, 0x7E] := by
    simp [pollFrame, Board.frame, List.range, List.range.loop]
  have hprog : getDisplayBoardData exchange =
      (pollFrame >>= fun _ => exchange 7 >>= pollTail) := rfl
  rw [hprog, run_exchanged hoff pollTail_offLine d rfl hframe]
  generalize (pollFrame.run machine t b).2 = b₀ at hcalls
  obtain ⟨hbytes, -⟩ := answer_f1 h 0x01 0x01 0x00 0x02 0x7E
  generalize d.answer [0xF1, 0xF1, 0x01, 0x01, 0x00, 0x02, 0x7E] = a at hbytes
  rw [pollTail_factorySets, ← hcalls]
  · simp [factorySets, List.count_append]
  · intro hc
    rcases hbytes with hnil | ⟨f, m, c, x, y, hrep⟩
    · rw [if_pos hnil] at hc
      exact absurd hc (by decide)
    · rw [hrep]
      show (0xF1 : UInt8) ≠ 0xF2
      decide

/-- Nor does sending the settings or a command. -/
theorem sender_factorySets {before : Code Unit} (hbefore : before.Only Op.Plain) (len t : Nat)
    (b : Board) (d : Disp) :
    ((before >>= fun _ => exchange len >>= ignoreTail).run linkMachine t (b, d)).2.1.factorySets =
      b.factorySets := by
  have hoff : before.Only Op.OffLine := hbefore.mono fun _ ho => ho.control.offLine
  have htail : ∀ c, (ignoreTail c).Only Op.Spares := fun c =>
    .bind (plain_spares (ignoreReply_plain c)) fun _ => by simp [Op.Spares]
  have hcalls := run_factorySets (plain_spares hbefore) t b
  rw [run_exchanged hoff (fun c => (ignoreTail_control c).mono fun _ => Op.Control.offLine) d rfl rfl,
    run_factorySets (htail _), ← hcalls]
  simp [factorySets, List.count_append]

theorem linkStep_factorySets {s : Link} (h : s.2.Ready) (st : LinkStep) :
    (linkStep st s).1.factorySets = s.1.factorySets := by
  obtain ⟨b, d⟩ := s
  cases st with
  | press k => rfl
  | tick n => rfl
  | others b' => rfl
  | poll t =>
      rw [linkStep]
      exact poll_factorySets (d := d) h t b
  | push t =>
      have hplain : pushFrame.Only Op.Plain := by
        unfold pushFrame
        refine .bind (by simp [Op.Plain]) fun _ => .bind (dispBoardPacketData_plain 29) fun _ => ?_
        simp [Op.Plain, Addr.Rx, Addr.Master]
      have hprog : setDisplayBoardData exchange =
          (pushFrame >>= fun _ => exchange 33 >>= ignoreTail) := by
        simp only [pushFrame, bind_assoc]; rfl
      rw [linkStep, hprog]
      exact sender_factorySets hplain 33 t b d
  | command t type mode =>
      have hplain : (commandFrame mode).Only Op.Plain := by
        unfold commandFrame
        refine .bind (by simp [Op.Plain]) fun t1 => .bind (by simp [Op.Plain]) fun t2 =>
          .bind (by simp [Op.Plain]) fun _ => .bind (sendPacketData_plain _) fun _ => ?_
        simp [Op.Plain, Addr.Rx, Addr.Master]
      have hprog : setDispboardFunctionMode exchange type mode =
          (commandFrame mode >>= fun _ => exchange 7 >>= ignoreTail) := by
        simp only [commandFrame, bind_assoc]; rfl
      rw [linkStep, hprog]
      exact sender_factorySets hplain 7 t b d

theorem linkStep_ready {s : Link} (h : s.2.Ready) (st : LinkStep) : (linkStep st s).2.Ready := by
  obtain ⟨hrelays, hdrops⟩ := linkStep_spec h st
  by_cases hw : st.Waits s
  · exact (hrelays hw).1
  · exact (hdrops hw).1

/-! ## Runs with the reset key -/

/-- What may happen next: a step of the link, or of the display alone. -/
inductive PanelStep where
  | link (st : LinkStep)
  | powerKeyLong
  | onoffScan

def panelStep : PanelStep → Board × Panel → Board × Panel
  | .powerKeyLong, s => (s.1, s.2.powerKeyLong)
  | .onoffScan, s => (s.1, s.2.onoffScan)
  | .link st, s =>
      let l := linkStep st (s.1, s.2.disp)
      (l.1, { s.2 with disp := l.2 })

def panelRun : List PanelStep → Board × Panel → Board × Panel
  | [], s => s
  | st :: sts, s => panelRun sts (panelStep st s)

theorem panelStep_ready {s : Board × Panel} (h : s.2.disp.Ready) (st : PanelStep) :
    (panelStep st s).2.disp.Ready := by
  cases st with
  | link st => exact linkStep_ready (s := (s.1, s.2.disp)) h st
  | powerKeyLong =>
      rw [panelStep, Panel.powerKeyLong]
      split
      · exact h
      · exact h
  | onoffScan =>
      rw [panelStep, Panel.onoffScan]
      split
      · exact ⟨h.rx, h.counter, h.quiet⟩
      · exact h

/-- A step calls `wifi_factory_set` never, and a reset asked for stays asked for. -/
theorem panelStep_unserved {s : Board × Panel} (h : s.2.disp.Ready) (st : PanelStep) :
    (panelStep st s).1.factorySets = s.1.factorySets ∧
      (s.2.ResetWanted → (panelStep st s).2.ResetWanted) := by
  cases st with
  | link st => exact ⟨linkStep_factorySets (s := (s.1, s.2.disp)) h st, id⟩
  | powerKeyLong => exact ⟨rfl, Panel.powerKeyLong_wanted⟩
  | onoffScan => exact ⟨rfl, s.2.onoffScan_wanted.mpr⟩

/-- Nor does any run. -/
theorem panelRun_unserved (sts : List PanelStep) {s : Board × Panel} (h : s.2.disp.Ready) :
    (panelRun sts s).1.factorySets = s.1.factorySets ∧
      (s.2.ResetWanted → (panelRun sts s).2.ResetWanted) := by
  induction sts generalizing s with
  | nil => exact ⟨rfl, id⟩
  | cons st sts ih =>
      obtain ⟨hcalls, hwanted⟩ := panelStep_unserved h st
      obtain ⟨hcalls', hwanted'⟩ := ih (panelStep_ready h st)
      exact ⟨hcalls'.trans hcalls, fun hw => hwanted' (hwanted hw)⟩

/-- At the next poll a reset that was asked for is carried out, once, and is
no longer asked for; one that was not asked for is not carried out. -/
def ResetServed (t : Nat) (s : Board × Panel) : Prop :=
  let s' := panelStep (.link (.poll t)) s
  if s.2.ResetWanted then s'.1.factorySets = s.1.factorySets + 1 ∧ ¬ s'.2.ResetWanted
  else s'.1.factorySets = s.1.factorySets

theorem not_served (t : Nat) {s : Board × Panel} (h : s.2.disp.Ready) (hw : s.2.ResetWanted) :
    ¬ ResetServed t s := by
  obtain ⟨hcalls, -⟩ := panelStep_unserved h (.link (.poll t))
  intro hserved
  rw [ResetServed, if_pos hw, hcalls] at hserved
  exact absurd hserved.1 (Nat.ne_of_lt (Nat.lt_succ_self _))

/-- **When the reset key is served.** Only when nobody asked for a reset: the
answer to a poll never carries the request, whatever the states of the
boards. -/
theorem reset_served_iff (t : Nat) (s : Board × Panel) (h : s.2.disp.Ready) :
    ResetServed t s ↔ ¬ s.2.ResetWanted := by
  constructor
  · intro hserved hw
    exact not_served t h hw hserved
  · intro hw
    rw [ResetServed, if_neg hw]
    exact (panelStep_unserved h (.link (.poll t))).1

theorem reset_served_iff_reset :
    ResetServed 0 (Board.reset, ⟨Disp.reset, fun _ => 0⟩) ↔
      ¬ Panel.ResetWanted ⟨Disp.reset, fun _ => 0⟩ :=
  reset_served_iff 0 (Board.reset, ⟨Disp.reset, fun _ => 0⟩) ready_reset

/-- The display after reset, its 700 ms over, once the key was held down. -/
def Panel.held : Panel := powerKeyLong ⟨{ Disp.reset with timeTickCnt1 := 701 }, fun _ => 0⟩

theorem reset_served_counterexample :
    Panel.held.ResetWanted ∧ Panel.held.disp.Ready ∧ Panel.held.disp.pending = none ∧
      Panel.held.disp.timeTickCnt1 > 700 ∧ ¬ ResetServed 0 (Board.reset, Panel.held) := by
  have hready : Panel.held.disp.Ready := ⟨rfl, rfl, rfl⟩
  have hwanted : Panel.held.ResetWanted := by decide
  exact ⟨hwanted, hready, rfl, by decide, not_served 0 (s := (Board.reset, _)) hready hwanted⟩

end Aclean
