import Aclean.Footprint

/-!
# Off stays off

Six kinds of operations write settings or drive outputs, and each has its
own guard, or none. What blocks them all while the device is off is stated
once, as a discipline: until a power-on command is logged, a thread reads 0
from the power flag, stores nothing else there, and only switches outputs
off. One walk for each operation shows that it keeps to it, and one
invariant over single operations does the rest.
-/

namespace Aclean

open Prog

/-! ## The discipline of the off state -/

/-- A call of `set_device_work_mode` that switches the device on. -/
def Event.PowersOn : Event → Prop
  | .setDeviceWorkMode type data _ => type = 0x02 ∧ data ≠ 0
  | _ => False

instance : DecidablePred Event.PowersOn
  | .setDeviceWorkMode type data _ => inferInstanceAs (Decidable (type = 0x02 ∧ data ≠ 0))
  | .request _ => inferInstanceAs (Decidable False)
  | .wifiSend _ => inferInstanceAs (Decidable False)
  | .wifiFactorySet => inferInstanceAs (Decidable False)

/-- Operations that keep a device off, whatever it is asked. -/
def Op.KeepsOff : Op → Prop
  | .store (.deviceWorkData 0) v => v = 0
  | .gpioWrite _ on => on = false
  | .note e => ¬ e.PowersOn
  | _ => True

/-- The local state says whether a power-on command has been logged. -/
def offDiscipline : Discipline Op Ar Bool where
  ok l o := l = true ∨ o.KeepsOff ∨ ∃ e, o = .note e
  answers l o a :=
    match o, a with
    | .load (.deviceWorkData 0), v => l = true ∨ v = (0 : UInt8)
    | _, _ => True
  next l o _ :=
    match o with
    | .note e => l || decide e.PowersOn
    | _ => l

/-- A board that is off. -/
structure Board.IsOff (s : Board) : Prop where
  power : s.mem (work Field.devicePowerState) = 0
  outputs : ∀ p, s.gpio p = false

/-- Behind the log `base`, either a power-on command was logged or the device
is off. -/
def OffSince (base : List Event) (l : Bool) (s : Board) : Prop :=
  ∃ new, s.log = base ++ new ∧ (l = true → ∃ e ∈ new, e.PowersOn) ∧ (l = false → s.IsOff)

theorem OffSince.of_log {base : List Event} {l : Bool} {s s' : Board} (h : OffSince base l s)
    (hlog : s'.log = s.log) (hoff : l = false → s.IsOff → s'.IsOff) : OffSince base l s' := by
  obtain ⟨new, hnew, hon, hs⟩ := h
  exact ⟨new, hlog.trans hnew, hon, fun hl => hoff hl (hs hl)⟩

theorem OffSince.snoc {base : List Event} {l l' : Bool} {s s' : Board} (h : OffSince base l s)
    (e : Event) (hlog : s'.log = s.log ++ [e]) (hl' : l' = (l || decide e.PowersOn))
    (hoff : s.IsOff → s'.IsOff) : OffSince base l' s' := by
  subst hl'
  obtain ⟨new, hnew, hon, hs⟩ := h
  refine ⟨new ++ [e], by rw [hlog, hnew, List.append_assoc], fun hl => ?_, fun hl => ?_⟩
  · rcases Bool.or_eq_true .. |>.mp hl with hl | he
    · obtain ⟨e', he', hp⟩ := hon hl
      exact ⟨e', List.mem_append_left _ he', hp⟩
    · exact ⟨e, by simp, of_decide_eq_true he⟩
  · exact hoff (hs (Bool.or_eq_false_iff.mp hl).1)

theorem Board.IsOff.of_same {s s' : Board} (h : s.IsOff)
    (hpower : s'.mem (work 0) = s.mem (work 0)) (hgpio : s'.gpio = s.gpio) : s'.IsOff :=
  ⟨hpower.trans h.power, fun p => by rw [hgpio]; exact h.outputs p⟩

/-- One operation of the discipline. -/
theorem offSince_exec (base : List Event) (t : Nat) (l : Bool) (s : Board) (o : Op)
    (h : OffSince base l s) (hok : offDiscipline.ok l o) :
    offDiscipline.answers l o (Board.exec t o s).1 ∧
      OffSince base (offDiscipline.next l o (Board.exec t o s).1) (Board.exec t o s).2 := by
  have hkeep : ∀ {l}, l = false → offDiscipline.ok l o → (∀ e, o ≠ .note e) → o.KeepsOff := by
    intro l hl hok hnote
    rcases hok with hl' | hk | ⟨e, he⟩
    · rw [hl] at hl'; cases hl'
    · exact hk
    · exact absurd he (hnote e)
  cases o with
  | load a =>
      refine ⟨?_, h⟩
      cases a with
      | deviceWorkData i =>
          cases i with
          | zero =>
              cases l with
              | true => exact .inl rfl
              | false =>
                  obtain ⟨_, _, _, hs⟩ := h
                  exact .inr (hs rfl).power
          | succ i => trivial
      | _ => trivial
  | store a v =>
      refine ⟨trivial, h.of_log rfl fun hl hs => ⟨?_, hs.outputs⟩⟩
      have hk := hkeep hl hok (by rintro e ⟨⟩)
      rw [Board.exec, Board.set_mem]
      split
      · next heq => subst heq; exact hk
      · exact hs.power
  | gpioWrite p on =>
      refine ⟨trivial, h.of_log rfl fun hl hs => ⟨hs.power, fun q => ?_⟩⟩
      have hk : on = false := hkeep hl hok (by rintro e ⟨⟩)
      simp only [Function.update_apply, hk]
      split
      · rfl
      · exact hs.outputs q
  | note e => exact ⟨trivial, h.snoc e rfl rfl fun hs => hs.of_same rfl rfl⟩
  | uartWrite len =>
      exact ⟨trivial, h.snoc (.wifiSend (s.frame .wifiSendPacketBufPub len)) rfl
        (Bool.or_false l).symm fun hs => hs.of_same rfl rfl⟩
  | exchange len =>
      exact ⟨trivial, h.snoc (.request (s.frame .rs485SendBufNotModbus len)) rfl
        (Bool.or_false l).symm fun hs => hs.of_same rfl rfl⟩
  | _ => exact ⟨trivial, h.of_log rfl fun _ hs => hs.of_same rfl rfl⟩

/-- Once a power-on command is logged, anything goes. -/
theorem offDiscipline_free {α : Type} (p : Code α) :
    offDiscipline.Follows p (fun _ _ => True) true := by
  induction p with
  | ret a => exact .ret trivial
  | op o k ih =>
      refine .op (.inl rfl) fun a _ => ?_
      have hnext : offDiscipline.next true o a = true := by
        cases o <;> rfl
      rw [hnext]
      exact ih a

/-- The program keeps to the discipline, whether or not a power-on command
has been logged before. -/
def Guarded {α : Type} (p : Code α) : Prop := ∀ l, offDiscipline.Follows p (fun _ _ => True) l

theorem guarded_of_off {α : Type} {p : Code α}
    (h : offDiscipline.Follows p (fun _ _ => True) false) : Guarded p
  | false => h
  | true => offDiscipline_free p

theorem guarded_ret {α : Type} (a : α) : Guarded (.ret a : Code α) := fun _ => .ret trivial

theorem Guarded.bind {α β : Type} {p : Code α} {f : α → Code β} (hp : Guarded p)
    (hf : ∀ a, Guarded (f a)) : Guarded (p >>= f) := by
  intro l
  rw [Discipline.follows_bind]
  exact (hp l).mono fun a l' _ => hf a l'

theorem Guarded.ite {α : Type} {p q : Code α} {c : Prop} [Decidable c] (hp : c → Guarded p)
    (hq : ¬ c → Guarded q) : Guarded (if c then p else q) := by
  intro l
  rw [Discipline.follows_ite]
  exact ⟨fun hc => hp hc l, fun hc => hq hc l⟩

/-- What keeps a device off needs no guard. -/
theorem guarded_of_only {α : Type} {p : Code α} (h : p.Only Op.KeepsOff) : Guarded p := fun _ =>
  .of_only h (fun _ _ _ ho => ⟨.inr (.inl ho), fun _ _ => trivial⟩) trivial

/-- The loads of the power flag see 0. -/
theorem guarded_power {α : Type} {f : UInt8 → Code α} (h : Guarded (f 0)) :
    Guarded (load (work Field.devicePowerState) >>= f) := by
  refine guarded_of_off (.op (.inr (.inl trivial)) fun v hv => ?_)
  rcases hv with hl | rfl
  · cases hl
  · exact h false

/-- A call of the command switch, as it is logged, may switch the device on. -/
theorem guarded_note {α : Type} {e : Event} {k : Unit → Code α}
    (h : ¬ e.PowersOn → Guarded (k ())) : Guarded (.op (.note e) k) := by
  refine guarded_of_off (.op (.inr (.inr ⟨e, rfl⟩)) fun _ _ => ?_)
  by_cases he : e.PowersOn
  · rw [show offDiscipline.next false (.note e) () = true from decide_eq_true he]
    exact offDiscipline_free _
  · exact h he _

/-! ## What needs no guard -/

theorem Op.Plain.keepsOff {o : Op} (h : o.Plain) : o.KeepsOff := by
  cases o with
  | store a v =>
      cases a with
      | deviceWorkData i => exact absurd h id
      | _ => trivial
  | gpioWrite p on => exact absurd h id
  | note e => exact absurd h id
  | _ => trivial

/-- Nor does plain code. -/
theorem guarded_of_plain {α : Type} {p : Code α} (h : p.Only Op.Plain) : Guarded p :=
  guarded_of_only (h.mono fun _ => Op.Plain.keepsOff)

theorem aircleanPowerOnoff_keepsOff : (aircleanPowerOnoff 0).Only Op.KeepsOff := by
  unfold aircleanPowerOnoff
  rw [if_neg (by decide), if_neg (by decide)]
  refine .bind (deviceSysParaSave_plain.mono fun _ => Op.Plain.keepsOff) fun _ => ?_
  simp [acEsdSet, acPhtSet, acAcMotorSet, Op.KeepsOff]

theorem setDispboardFunctionMode_keepsOff (type mode : UInt8) :
    (setDispboardFunctionMode exchange type mode).Only Op.KeepsOff :=
  setDispboardFunctionMode_only (fun _ _ => .op trivial fun _ => .ret _) (fun _ h => h.1.keepsOff)
    type mode

theorem takeDisplaySettings_keepsOff : takeDisplaySettings.Only Op.KeepsOff := by
  unfold takeDisplaySettings
  refine .bind (backupWorkData_plain.mono fun _ => Op.Plain.keepsOff) fun _ => ?_
  simp only [load, store, op_bind, ret_bind, only_op]
  refine ⟨trivial, fun _ => ⟨trivial, fun _ => ⟨trivial, fun m =>
    .bind (by simp [Op.KeepsOff]) fun _ => ?_⟩⟩⟩
  simp only [only_op]
  refine ⟨trivial, fun _ => ⟨trivial, fun _ => ⟨trivial, fun f =>
    .bind (by simp [Op.KeepsOff, Event.PowersOn]) fun _ =>
      saveIfChanged_plain.mono fun _ => Op.Plain.keepsOff⟩⟩⟩

theorem faultSetBit_keepsOff (b : FaultBit) (v : UInt8) : (faultSetBit b v).Only Op.KeepsOff := by
  simp [faultSetBit, Op.KeepsOff]

theorem powerMonitorCount_keepsOff : powerMonitorCount.Only Op.KeepsOff := by
  have hnew : ∀ pre : UInt8, Prog.Only Op.KeepsOff (if pre = 0xff then do
        let tm ← load (work Field.timingState)
        Prog.when (tm ≠ 0) do
          setPowerTimCnt 0
          let tm ← load (work Field.timingState)
          store .powerStatePre tm
      else do
        let tm ← load (work Field.timingState)
        Prog.when (tm ≠ 0) do
          let tm ← load (work Field.timingState)
          Prog.when (tm ≠ pre) do
            setPowerTimCnt 0
            let tm ← load (work Field.timingState)
            store .powerStatePre tm) := by
    intro pre
    simp [Op.KeepsOff]
  unfold powerMonitorCount
  refine .bind (by simp [Op.KeepsOff]) fun pre => .bind (hnew pre) fun _ => ?_
  simp [Op.KeepsOff]

theorem keepsOff_store {i : Nat} (hi : i ≠ 0) (v : UInt8) : (Op.store (work i) v).KeepsOff := by
  cases i with
  | zero => exact absurd rfl hi
  | succ i => trivial

theorem storeField16_keepsOff {off : Nat} (h : off ≠ 0) (v : UInt16) :
    (storeField16 off v).Only Op.KeepsOff :=
  .op (keepsOff_store h _) fun _ => .op (keepsOff_store (Nat.succ_ne_zero off) _) fun _ => .ret ()

theorem sensorRead_keepsOff (i : Nat) : (sensorRead exchangeHold i).Only Op.KeepsOff := by
  unfold sensorRead
  refine .bind (by simp [Op.KeepsOff]) fun _ => .bind (by simp [Op.KeepsOff]) fun c =>
    .bind ((only_when ..).mpr fun _ => ?_) fun _ => by simp [Op.KeepsOff]
  refine .bind (by simp [Op.KeepsOff]) fun co2 =>
    .bind (storeField16_keepsOff (Nat.succ_ne_zero _) _) fun _ =>
    .bind (by simp [Op.KeepsOff]) fun pm25 => storeField16_keepsOff ?_ _
  show 6 + 4 * i ≠ 0
  omega

/-! ## What a guard protects -/

theorem commandSwitch_keepsOff {type data : UInt8} (h : type = 0x02 ∨ type = 0x03)
    (hdata : ¬ (type = 0x02 ∧ data ≠ 0)) : (commandSwitch type data).Only Op.KeepsOff := by
  rcases h with rfl | rfl
  · obtain rfl : data = 0 := Classical.byContradiction fun hne => hdata ⟨rfl, hne⟩
    have hswitch : commandSwitch 0x02 0 = (store (work Field.devicePowerState) 0 >>= fun _ =>
        aircleanPowerOnoff 0) >>= fun _ => pure true := rfl
    rw [hswitch]
    exact .bind (.op rfl fun _ => aircleanPowerOnoff_keepsOff) fun _ => .ret true
  · have hswitch : commandSwitch 0x03 data =
        Prog.when (data = 1 ∨ data = 2) (store (work Field.deviceMode) data) >>= fun _ =>
          pure true := rfl
    rw [hswitch]
    exact .bind ((only_when ..).mpr fun _ => .op trivial fun _ => .ret ()) fun _ => .ret true

/-- The two commands that an off device obeys. -/
theorem applyCommand_keepsOff {type data : UInt8} (signalCh : UInt8)
    (h : type = 0x02 ∨ type = 0x03) (hdata : ¬ (type = 0x02 ∧ data ≠ 0)) :
    (applyCommand exchange type data signalCh).Only Op.KeepsOff := by
  unfold applyCommand
  refine .bind (backupWorkData_plain.mono fun _ => Op.Plain.keepsOff) fun _ =>
    .bind (commandSwitch_keepsOff h hdata) fun known => (only_ite ..).mpr
      ⟨fun _ => .bind ((only_when ..).mpr fun _ => ?_) fun _ => ?_, fun _ => .ret _⟩
  · exact setDispboardFunctionMode_keepsOff type data
  · exact saveIfChanged_plain.mono fun _ => Op.Plain.keepsOff

/-- A command is one of these two, or the power flag stops it. -/
theorem setDeviceWorkMode_guarded (type data signalCh : UInt8) :
    Guarded (setDeviceWorkMode exchange type data signalCh) := by
  refine guarded_note fun hno => ?_
  refine .ite (fun _ => ?_) fun hguard => ?_
  · refine .bind (guarded_of_only (by simp [Op.KeepsOff])) fun mode =>
      .ite (fun _ => guarded_ret _) fun _ => guarded_power ?_
    rw [if_pos rfl]
    exact guarded_ret _
  · refine guarded_of_only (applyCommand_keepsOff signalCh ?_ hno)
    by_cases h2 : type = 0x02
    · exact .inl h2
    · exact .inr (Classical.byContradiction fun h3 => hguard ⟨h2, h3⟩)

theorem aircleanWorkAutoHandle_guarded : Guarded aircleanWorkAutoHandle :=
  guarded_power (guarded_ret _)

theorem rtCheckExDevice_guarded : Guarded (rtCheckExDevice exchange) :=
  guarded_power (guarded_of_only (by simp [Op.KeepsOff]))

theorem setDcMotor_guarded : Guarded (setDcMotor exchange) := by
  refine guarded_power ?_
  rw [if_pos rfl]
  refine .bind (guarded_of_plain (setDcMotorSpeed_plain 0)) fun _ => guarded_of_only ?_
  simp [Op.KeepsOff, faultSetBit_keepsOff]

theorem threadEntryPowerMonitor_guarded (dCmdPower : UInt8) :
    Guarded (threadEntryPowerMonitor exchange dCmdPower) := by
  unfold threadEntryPowerMonitor
  refine .bind (guarded_of_only powerMonitorCount_keepsOff) fun _ =>
    .bind (guarded_of_only (by simp [Op.KeepsOff])) fun cnt =>
    .bind (guarded_of_only (by simp [Op.KeepsOff])) fun pre =>
    .bind (guarded_of_only (by simp [Op.KeepsOff])) fun _ =>
    .bind (guarded_of_only (by simp [Op.KeepsOff])) fun cnt =>
    .bind (guarded_of_only (by simp [Op.KeepsOff])) fun tm =>
    .ite (fun _ => guarded_of_only ?_) fun _ => aircleanWorkAutoHandle_guarded
  simp only [store, setPowerTimCnt, op_bind, ret_bind, only_op]
  exact ⟨rfl, fun _ => ⟨trivial, fun _ => ⟨trivial, fun _ => ⟨trivial, fun _ =>
    .bind (setDispboardFunctionMode_keepsOff _ _) fun _ => aircleanPowerOnoff_keepsOff⟩⟩⟩⟩

theorem handleDisplayReply_guarded : Guarded (handleDisplayReply exchange) := by
  have hkey : Guarded (takeDisplayKey exchange) := by
    unfold takeDisplayKey
    refine .bind (guarded_of_only (by simp [Op.KeepsOff])) fun b =>
      .ite (fun _ => ?_) fun _ => guarded_ret _
    refine .bind (guarded_of_only (by simp [Op.KeepsOff])) fun b =>
      .ite (fun _ => ?_) fun _ => guarded_ret _
    exact .bind (guarded_of_only (by simp [Op.KeepsOff])) fun type =>
      .bind (guarded_of_only (by simp [Op.KeepsOff])) fun data =>
        setDeviceWorkMode_guarded type data 0
  unfold handleDisplayReply
  refine .bind (guarded_of_plain (replyFramed_plain _ _)) fun f2 =>
    .ite (fun _ => guarded_of_only takeDisplaySettings_keepsOff) fun _ => ?_
  exact .bind (guarded_of_plain (replyFramed_plain _ _)) fun f1 =>
    .ite (fun _ => hkey) fun _ => guarded_ret _

theorem getDisplayBoardData_guarded : Guarded (getDisplayBoardData exchange) := by
  unfold getDisplayBoardData
  refine .bind (guarded_of_only (by simp [Op.KeepsOff])) fun _ => ?_
  iterate 8 refine .bind (guarded_of_only (by simp [Op.KeepsOff])) fun _ => ?_
  refine .bind (guarded_of_only (by simp [Op.KeepsOff])) fun c => .bind ?_ fun _ => ?_
  · exact .ite (fun _ => handleDisplayReply_guarded) fun _ => guarded_ret _
  · exact guarded_of_only (by simp [Op.KeepsOff])

theorem wifiDecodeFrame_guarded : Guarded (wifiDecodeFrame exchange) := by
  have hstate := guarded_of_plain returnCurrentDeviceState_plain
  have hdecode : Guarded (wifiReceiveDataDecode exchange) := by
    unfold wifiReceiveDataDecode
    refine .bind (guarded_of_only (by simp [Op.KeepsOff])) fun cmd =>
      .ite (fun _ => hstate) fun _ => .ite (fun _ => ?_) fun _ => .ite (fun _ => ?_)
        fun _ => guarded_ret _
    · exact .bind (guarded_of_only (by simp [Op.KeepsOff])) fun type =>
        .bind (guarded_of_only (by simp [Op.KeepsOff])) fun data =>
        .bind (setDeviceWorkMode_guarded type data 1) fun _ => hstate
    · exact guarded_of_plain (wifiSendPacketData_plain _)
  unfold wifiDecodeFrame
  refine .bind (guarded_of_only (by simp [Op.KeepsOff])) fun len =>
    .bind (guarded_of_only ((wifiReceiveDataCheck_loads len).mono fun _ ⟨_, ho⟩ => ho ▸ trivial)) fun ok =>
    .ite (fun _ => ?_) fun _ => guarded_ret _
  exact .bind (guarded_of_only (by simp [Op.KeepsOff])) fun _ => hdecode

/-! ## Runs of operations -/

inductive Operation where
  | wifiDecodeFrame
  | getDisplayBoardData
  | aircleanWorkAutoHandle
  | threadEntryPowerMonitor (dCmdPower : UInt8)
  | setDcMotor
  | rtCheckExDevice
  | sensorRead (i : Nat)
  deriving DecidableEq, Repr

def Operation.code : Operation → Code Unit
  | .wifiDecodeFrame => Aclean.wifiDecodeFrame exchange
  | .getDisplayBoardData => Aclean.getDisplayBoardData exchange
  | .aircleanWorkAutoHandle => Aclean.aircleanWorkAutoHandle
  | .threadEntryPowerMonitor dCmdPower => Aclean.threadEntryPowerMonitor exchange dCmdPower
  | .setDcMotor => Aclean.setDcMotor exchange
  | .rtCheckExDevice => Aclean.rtCheckExDevice exchange
  | .sensorRead i => Aclean.sensorRead exchangeHold i

theorem Operation.guarded (o : Operation) : Guarded o.code := by
  cases o with
  | wifiDecodeFrame => exact wifiDecodeFrame_guarded
  | getDisplayBoardData => exact getDisplayBoardData_guarded
  | aircleanWorkAutoHandle => exact aircleanWorkAutoHandle_guarded
  | threadEntryPowerMonitor dCmdPower => exact threadEntryPowerMonitor_guarded dCmdPower
  | setDcMotor => exact setDcMotor_guarded
  | rtCheckExDevice => exact rtCheckExDevice_guarded
  | sensorRead i => exact guarded_of_only (sensorRead_keepsOff i)

/-- The board in new surroundings: all but the power flag, the outputs and the
log may be as in `e` (received bytes, replies to come, readings, pins, timers
and settings). -/
def Board.amid (s e : Board) : Board :=
  { e with
    mem := Function.update e.mem (work Field.devicePowerState) (s.mem (work Field.devicePowerState))
    gpio := s.gpio
    log := s.log }

/-- One operation on thread `t`, in the surroundings it finds. -/
def operate (t : Nat) (st : Board × Operation) (s : Board) : Board :=
  (st.2.code.run Board.machine t (s.amid st.1)).2

def operations (t : Nat) (sts : List (Board × Operation)) (s : Board) : Board :=
  sts.foldl (fun s st => operate t st s) s

theorem amid_isOff {s : Board} (h : s.IsOff) (e : Board) : (s.amid e).IsOff :=
  ⟨by simp [Board.amid, h.power], h.outputs⟩

theorem operate_offSince {base : List Event} {l : Bool} {s : Board} (h : OffSince base l s) (t : Nat)
    (st : Board × Operation) : ∃ l', OffSince base l' (operate t st s) := by
  have hs : OffSince base l (s.amid st.1) := h.of_log rfl fun _ hs => amid_isOff hs st.1
  obtain ⟨l', -, hl'⟩ := (st.2.guarded l).run offDiscipline Board.machine t hs
    fun l s o => offSince_exec base t l s o
  exact ⟨l', hl'⟩

/-- A whole run leaves the device off, or switches it on by command. -/
theorem operations_offSince {base : List Event} (t : Nat) (sts : List (Board × Operation)) {l : Bool}
    {s : Board} (h : OffSince base l s) : ∃ l', OffSince base l' (operations t sts s) := by
  induction sts generalizing l s with
  | nil => exact ⟨l, h⟩
  | cons st sts ih =>
      obtain ⟨l', hl'⟩ := operate_offSince h t st
      exact ih hl'

theorem operations_append (t : Nat) (pre post : List (Board × Operation)) (s : Board) :
    operations t (pre ++ post) s = operations t post (operations t pre s) :=
  List.foldl_append ..

/-- The log only grows. -/
theorem operations_log (t : Nat) (sts : List (Board × Operation)) (s : Board) :
    s.log <+: (operations t sts s).log := by
  induction sts generalizing s with
  | nil => exact List.prefix_rfl
  | cons st sts ih => exact (run_log st.2.code t (s.amid st.1)).trans (ih (operate t st s))

/-- With the device off, the motor frame has speed 0. -/
theorem setDcMotor_log (t : Nat) {s : Board} (h : s.IsOff) :
    ((setDcMotor exchange).run Board.machine t s).2.log =
      s.log ++ [.request [0xBC, 0x07, 0x01, 0x00, 0xC4]] := by
  have hpower : s.mem (work 0) = 0 := h.power
  simp [setDcMotor, hpower, setDcMotorSpeed, faultSetBit, Board.frame, List.range, List.range.loop,
    apply_ite Prod.snd, apply_ite Board.log]

theorem aircleanPowerOnoff_off (t : Nat) (b : Board) :
    ((aircleanPowerOnoff 0).run Board.machine t b).2.IsOff := by
  rw [aircleanPowerOnoff, if_neg (by decide), if_neg (by decide), run_bind]
  refine ⟨by simp [acEsdSet, acPhtSet, acAcMotorSet], fun p => ?_⟩
  cases p <;> simp [acEsdSet, acPhtSet, acAcMotorSet]

/-- **Off stays off.** After `airclean_power_onoff(0)`, in a run of operations
in which the device is not switched on by command, it is off in every state,
and every motor frame carries speed 0 and the checksum of that frame. -/
theorem off_stays_off (t : Nat) (b : Board) (sts : List (Board × Operation))
    (hno : ∀ e ∈ (operations t sts ((aircleanPowerOnoff 0).run Board.machine t b).2).log.drop
      ((aircleanPowerOnoff 0).run Board.machine t b).2.log.length, ¬ e.PowersOn) :
    let s₀ := ((aircleanPowerOnoff 0).run Board.machine t b).2
    (∀ pre post, sts = pre ++ post → (operations t pre s₀).IsOff) ∧
      ∀ pre e post, sts = pre ++ (e, .setDcMotor) :: post →
        (operate t (e, .setDcMotor) (operations t pre s₀)).log =
          (operations t pre s₀).log ++ [.request [0xBC, 0x07, 0x01, 0x00, 0xC4]] := by
  have hoff := aircleanPowerOnoff_off t b
  generalize ((aircleanPowerOnoff 0).run Board.machine t b).2 = s₀ at hno hoff
  have hstates : ∀ pre post, sts = pre ++ post → (operations t pre s₀).IsOff := by
    rintro pre post rfl
    have hstart : OffSince s₀.log false s₀ :=
      ⟨[], (List.append_nil _).symm, nofun, fun _ => hoff⟩
    obtain ⟨l, new, hnew, hon, hs⟩ := operations_offSince t pre hstart
    cases l with
    | false => exact hs rfl
    | true =>
        obtain ⟨e, he, hp⟩ := hon rfl
        obtain ⟨rest, hrest⟩ := operations_log t post (operations t pre s₀)
        refine absurd hp (hno e ?_)
        rw [operations_append, ← hrest, hnew, List.append_assoc, List.drop_left]
        exact List.mem_append_left _ he
  refine ⟨hstates, fun pre e post hsts => ?_⟩
  exact setDcMotor_log t (amid_isOff (hstates pre _ hsts) e)

/-- A wind command from WiFi, a round of the motor thread and a control pass. -/
def offRun : List (Board × Operation) :=
  [({ Board.reset with
      mem := fun
        | .wifiRecvPacketBufPub i => [0xF1, 0xF1, 0x07, 0x01, 0x02, 0x0A, 0x7E].getD i.toNat 0
        | .wifiRecieveDataLength => 7
        | .deviceWorkData 1 => 2
        | _ => 0 }, .wifiDecodeFrame),
    (Board.reset, .setDcMotor), (Board.reset, .aircleanWorkAutoHandle)]

theorem off_stays_off_run :
    let s₀ := ((aircleanPowerOnoff 0).run Board.machine 0 Board.reset).2
    (∀ pre post, offRun = pre ++ post → (operations 0 pre s₀).IsOff) ∧
      ∀ pre e post, offRun = pre ++ (e, .setDcMotor) :: post →
        (operate 0 (e, .setDcMotor) (operations 0 pre s₀)).log =
          (operations 0 pre s₀).log ++ [.request [0xBC, 0x07, 0x01, 0x00, 0xC4]] :=
  off_stays_off 0 Board.reset offRun (by decide +kernel)

end Aclean
