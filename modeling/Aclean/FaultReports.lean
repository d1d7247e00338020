import Aclean.FaultIcons
import Aclean.PowerOn
import Aclean.ResetKey
import Aclean.SharedFlag

/-!
# Who reports a fault

The fault byte is written from several places. The motor bit belongs to the
reply of the DC motor and to the sampling pass at once, and each overwrites
what the other found. The PHT bit belongs to the sampling pass alone, which
looks at the lamp only while its setting is on, and leaves the bit as it is
when the setting is off.
-/

namespace Aclean

open Prog Board SharedFlag

/-! ## Bits of the fault byte -/

/-- `fault_set_bit` on the byte. -/
def setFault (b : FaultBit) (on : Bool) (f : UInt8) : UInt8 :=
  if on then f ||| b.mask else f &&& ~~~b.mask

theorem setFault_self (b : FaultBit) (on : Bool) (f : UInt8) :
    setFault b on f &&& b.mask ≠ 0 ↔ on = true := by
  cases on with
  | true =>
    rw [setFault, if_pos rfl, or_and_mask]
    exact iff_of_true (by cases b <;> decide) rfl
  | false =>
    rw [setFault, if_neg (by decide), UInt8.and_assoc, UInt8.and_comm (~~~_), UInt8.and_not_self,
      UInt8.and_zero]
    exact iff_of_false (fun h => h rfl) (by decide)

theorem setFault_other {b c : FaultBit} (h : b ≠ c) (on : Bool) (f : UInt8) :
    setFault b on f &&& c.mask = f &&& c.mask := by
  have hapart : b.mask &&& c.mask = 0 ∧ ~~~b.mask &&& c.mask = c.mask := by
    cases b <;> cases c <;> first | exact absurd rfl h | decide
  unfold setFault
  split
  · rw [or_and_distrib, hapart.1, UInt8.or_zero]
  · rw [UInt8.and_assoc, hapart.2]

theorem run_sampleFault (b : FaultBit) (p : InPin) (t : Nat) (s : Board) :
    ((sampleFault b p).run machine t s).2 =
      s.set (work Field.faultState) (setFault b (!s.inputs p) (s.mem (work Field.faultState))) := by
  cases hpin : s.inputs p <;> simp [sampleFault, stateGet, faultSetBit, hpin, setFault]

/-- The fault byte after a pass with the device on. -/
def Board.sampled (s : Board) : UInt8 :=
  let f := s.mem (work Field.faultState)
  let f := if s.mem (work Field.phtWorkState) ≠ 0 then setFault .pht (!s.inputs .pb2) f else f
  setFault .clean (!s.inputs .pb0) (setFault .run (!s.inputs .pc4)
    (setFault .esd (!s.inputs .pc5) (setFault .motor (!s.inputs .pb11) f)))

theorem exchange_leaves (n i : Nat) : (exchange n).Only (Op.Leaves (work i)) := by
  simp [Op.Leaves]

theorem Op.Plain.leaves {o : Op} (h : o.Plain) (i : Nat) : o.Leaves (work i) := by
  cases o with
  | store a v =>
      rintro rfl
      exact h
  | exchange len => exact absurd h id
  | _ => trivial

theorem rtCheckExDevice_on {s : Board} (hpower : s.mem (work Field.devicePowerState) = 1)
    (t : Nat) :
    ((rtCheckExDevice exchange).run machine t s).2.mem (work Field.faultState) = s.sampled := by
  have hpht : ((Prog.when (s.mem (work Field.phtWorkState) ≠ 0)
      (sampleFault .pht .pb2)).run machine t s).2.inputs = s.inputs ∧
      ((Prog.when (s.mem (work Field.phtWorkState) ≠ 0)
        (sampleFault .pht .pb2)).run machine t s).2.mem (work Field.faultState) =
        if s.mem (work Field.phtWorkState) ≠ 0 then
          setFault .pht (!s.inputs .pb2) (s.mem (work Field.faultState))
        else s.mem (work Field.faultState) := by
    rw [run_when]
    split
    · rw [run_sampleFault]
      simp
    · exact ⟨rfl, rfl⟩
  rw [rtCheckExDevice]
  simp only [load, op_bind, ret_bind, run_op]
  rw [if_pos hpower, run_op, run_bind]
  generalize ((Prog.when (s.mem (work Field.phtWorkState) ≠ 0)
    (sampleFault .pht .pb2)).run machine t s).2 = s₁ at hpht ⊢
  obtain ⟨hinputs, hfault⟩ := hpht
  simp only [run_bind, run_sampleFault]
  -- what is left sends the settings and writes `fault_state_pre`
  have hsend : (setDisplayBoardData exchange).Only (Op.Leaves (work Field.faultState)) :=
    setDisplayBoardData_only (fun n _ => exchange_leaves n _) fun _ ho => ho.1.leaves _
  rw [run_leaves]
  · simp only [set_mem, set_inputs, hinputs, hfault, if_true, Board.sampled]
  · refine .op trivial fun pre => .op trivial fun f => ?_
    rw [only_ite]
    refine ⟨fun _ => .op trivial fun g => .bind ?_ fun _ => ?_, fun _ => only_pure _⟩
    · rw [only_when]
      exact fun _ => hsend
    · simp [Op.Leaves]

theorem rtCheckExDevice_off {s : Board} (hpower : s.mem (work Field.devicePowerState) ≠ 1)
    (t : Nat) : ((rtCheckExDevice exchange).run machine t s).2.mem (work Field.faultState) = 0 := by
  rw [rtCheckExDevice]
  simp only [load, op_bind, ret_bind, run_op, run_ite]
  rw [if_neg hpower]
  simp

/-- Of `device_work_data` a pass writes the fault byte only. -/
theorem rtCheckExDevice_leaves {i : Nat} (hi : i ≠ Field.faultState) :
    (rtCheckExDevice exchange).Only (Op.Leaves (work i)) := by
  have hsend : (setDisplayBoardData exchange).Only (Op.Leaves (work i)) :=
    setDisplayBoardData_only (fun n _ => exchange_leaves n _) fun _ ho => ho.1.leaves _
  have hne : Field.faultState ≠ i := Ne.symm hi
  have hsample : ∀ b p, (sampleFault b p).Only (Op.Leaves (work i)) :=
    fun b p => by simpa [sampleFault, stateGet, faultSetBit, Op.Leaves] using hne
  have hload : ∀ a, (load a).Only (Op.Leaves (work i)) := fun a => by simp [Op.Leaves]
  unfold rtCheckExDevice
  refine .bind (hload _) fun power => (only_ite ..).mpr ⟨fun _ => ?_, fun _ => ?_⟩
  · refine .bind (hload _) fun pht => .bind ((only_when ..).mpr fun _ => hsample _ _) fun _ =>
      .bind (hsample _ _) fun _ => .bind (hsample _ _) fun _ => .bind (hsample _ _) fun _ =>
      .bind (hsample _ _) fun _ => .bind (hload _) fun pre => .bind (hload _) fun f => ?_
    rw [only_ite]
    refine ⟨fun _ => .bind (hload _) fun g => .bind ?_ fun _ => by simp [Op.Leaves],
      fun _ => only_pure _⟩
    rw [only_when]
    exact fun _ => hsend
  · simpa [Op.Leaves] using hne

/-! ## The motor bit -/

/-- The two that report on the motor. -/
inductive MotorSource where
  | reply
  | sample
  deriving DecidableEq, Repr

/-- Byte `i` of the receive buffer once the reply is in; `set_dc_motor` clears
the first one before it asks. -/
def Board.replyByte (s : Board) (i : Nat) : UInt8 :=
  s.reply.bytes.getD i (if i = 0 then 0 else s.mem (.ucMasterRTURcvBuf i))

/-- What the reply of the motor reports, if it is one. -/
def Board.motorReply (s : Board) : Option Bool :=
  if s.reply.code = .revData ∧ s.replyByte 0 = 0xBC ∧ s.replyByte 1 = 0x07 then
    some (s.replyByte 3 &&& 0x03 != 0)
  else none

namespace MotorSource

def code : MotorSource → Code Unit
  | reply => setDcMotor exchange
  | sample => rtCheckExDevice exchange

/-- The report that the source makes when it runs on `s`. -/
def report (s : Board) : MotorSource → Option (MotorSource × Bool)
  | reply => s.motorReply.map fun v => (reply, v)
  | sample => some (sample, !s.inputs .pb11)

end MotorSource

/-- The board when the reply is in. -/
def Board.motorAsked (t : Nat) (speed : UInt8) (s : Board) : Board :=
  (exec t (.exchange 5) ((s.motorFrame speed).set (.ucMasterRTURcvBuf 0) 0)).2

theorem motorAsked_buf (t : Nat) (speed : UInt8) (s : Board) (i : Nat) :
    (s.motorAsked t speed).mem (.ucMasterRTURcvBuf i) = s.replyByte i := by
  have hbuf : ∀ j, (s.motorFrame speed).mem (.ucMasterRTURcvBuf j) = s.mem (.ucMasterRTURcvBuf j) :=
    fun j => motorFrame_mem s speed (by rintro k ⟨⟩)
  have hreply : ((s.motorFrame speed).set (.ucMasterRTURcvBuf 0) 0).reply = s.reply := rfl
  show receive _ _ (.ucMasterRTURcvBuf i) = _
  rw [receive, hreply, Board.replyByte, set_mem, hbuf]
  simp only [Addr.ucMasterRTURcvBuf.injEq]

theorem motorAsked_fault (t : Nat) (speed : UInt8) (s : Board) :
    (s.motorAsked t speed).mem (work Field.faultState) = s.mem (work Field.faultState) := by
  show ((s.motorFrame speed).set (.ucMasterRTURcvBuf 0) 0).mem (work Field.faultState) = _
  rw [set_mem, if_neg (by decide), motorFrame_work]

theorem run_faultSetBit (b : FaultBit) (v : UInt8) (t : Nat) (s : Board) :
    ((faultSetBit b v).run machine t s).2 =
      s.set (work Field.faultState) (setFault b (v != 0) (s.mem (work Field.faultState))) := by
  by_cases hv : v = 0
  · simp [faultSetBit, hv, setFault]
  · simp [faultSetBit, hv, setFault]

theorem setDcMotor_fault (t : Nat) (s : Board) :
    ((setDcMotor exchange).run machine t s).2.mem (work Field.faultState) =
      s.motorReply.elim (s.mem (work Field.faultState)) fun v =>
        setFault .motor v (s.mem (work Field.faultState)) := by
  rw [setDcMotor]
  simp only [load, op_bind, ret_bind, run_op]
  rw [run_bind]
  obtain ⟨speed, hspeed⟩ : ∃ speed, ((if s.mem (work Field.devicePowerState) = 0 then
      setDcMotorSpeed 0 else Prog.op (.load (work Field.windSpeedState)) setDcMotorSpeed).run
        machine t s).2 = s.motorFrame speed := by
    split
    · exact ⟨0, run_setDcMotorSpeed 0 t s⟩
    · exact ⟨_, run_setDcMotorSpeed _ t s⟩
  rw [hspeed]
  simp only [store, exchange, op_bind, ret_bind, run_op, run_ite]
  change (if s.reply.code = .revData then
      if (s.motorAsked t speed).mem (.ucMasterRTURcvBuf 0) = 0xBC then
        if (s.motorAsked t speed).mem (.ucMasterRTURcvBuf 1) = 0x07 then
          if (s.motorAsked t speed).mem (.ucMasterRTURcvBuf 3) &&& 0x03 ≠ 0 then
            (faultSetBit .motor 1).run machine t (s.motorAsked t speed)
          else (faultSetBit .motor 0).run machine t (s.motorAsked t speed)
        else ((), s.motorAsked t speed)
      else ((), s.motorAsked t speed)
    else ((), s.motorAsked t speed)).2.mem (work Field.faultState) = _
  simp only [motorAsked_buf]
  by_cases hreply : s.reply.code = .revData ∧ s.replyByte 0 = 0xBC ∧ s.replyByte 1 = 0x07
  · have hsome : s.motorReply = some (s.replyByte 3 &&& 0x03 != 0) := if_pos hreply
    rw [if_pos hreply.1, if_pos hreply.2.1, if_pos hreply.2.2, hsome, Option.elim_some]
    by_cases h3 : s.replyByte 3 &&& 0x03 = 0
    · rw [if_neg (fun h => h h3), run_faultSetBit, set_mem, if_pos rfl, motorAsked_fault, h3]
    · have hset : (s.replyByte 3 &&& 0x03 != 0) = true := bne_iff_ne.mpr h3
      rw [if_pos h3, run_faultSetBit, set_mem, if_pos rfl, motorAsked_fault, hset]
      rfl
  · have hnone : s.motorReply = none := if_neg hreply
    rw [hnone, Option.elim_none, ← motorAsked_fault t speed s]
    split
    · next hcode =>
        split
        · next h0 => rw [if_neg fun h1 => hreply ⟨hcode, h0, h1⟩]
        · rfl
    · rfl

/-! ### Runs -/

/-- What may happen between two steps: the device stays on, and whatever else
changes, the motor bit does not. -/
structure MotorKept (s s' : Board) : Prop where
  power : s'.mem (work Field.devicePowerState) = 1
  motor : s'.fault .motor ↔ s.fault .motor

/-- Replies and sampling passes in the order of `A`: step `n` begins on `E n`,
and `B n` is what the steps before it have left. -/
structure MotorRun (A : Nat → MotorSource) (E B : Nat → Board) : Prop where
  kept : ∀ n, MotorKept (B n) (E n)
  step : ∀ n, ∃ t, B (n + 1) = ((A n).code.run machine t (E n)).2

/-- The reports of the run. -/
def motorReports (A : Nat → MotorSource) (E : Nat → Board) (n : Nat) :
    Option (MotorSource × Bool) :=
  (A n).report (E n)

theorem setFault_motor (on : Bool) {s s' : Board}
    (h : s'.mem (work Field.faultState) = setFault .motor on (s.mem (work Field.faultState))) :
    s'.fault .motor ↔ on = true := by
  rw [Board.fault, h, setFault_self]

theorem sampled_motor (s : Board) :
    s.sampled &&& FaultBit.motor.mask ≠ 0 ↔ (!s.inputs .pb11) = true := by
  rw [Board.sampled, setFault_other (by decide), setFault_other (by decide),
    setFault_other (by decide), setFault_self]

/-- A step with a report leaves the bit to it, a step without one as it is. -/
theorem MotorSource.code_fault (src : MotorSource) (t : Nat) {s : Board}
    (hpower : s.mem (work Field.devicePowerState) = 1) :
    ((src.code).run machine t s).2.fault .motor ↔
      (src.report s).elim (s.fault .motor) fun r => r.2 = true := by
  cases src with
  | reply =>
    have hfault := setDcMotor_fault t s
    rw [report]
    cases hreply : s.motorReply with
    | none =>
      rw [hreply, Option.elim_none] at hfault
      rw [Board.fault, code, hfault]
      rfl
    | some v =>
      rw [hreply, Option.elim_some] at hfault
      exact setFault_motor v hfault
  | sample =>
    rw [Board.fault, code, rtCheckExDevice_on hpower, sampled_motor]
    rfl

section MotorRun

variable {A : Nat → MotorSource} {E B : Nat → Board}

theorem MotorRun.overwritten (h : MotorRun A E B) :
    Overwritten (motorReports A E) fun n => (B n).fault .motor := by
  refine .of_step fun n => ?_
  obtain ⟨t, ht⟩ := h.step n
  rw [ht, MotorSource.code_fault _ t (h.kept n).power, motorReports]
  cases (A n).report (E n) with
  | none => exact (h.kept n).motor
  | some r => rfl

/-- After the steps so far the bit is set if a source has reported a fault
last, and clear only if none has. -/
def StaysReported (A : Nat → MotorSource) (E B : Nat → Board) (n : Nat) : Prop :=
  (latest (motorReports A E) .reply n = some true ∨
    latest (motorReports A E) .sample n = some true → (B n).fault .motor) ∧
  (¬ (B n).fault .motor → latest (motorReports A E) .reply n ≠ some true ∧
    latest (motorReports A E) .sample n ≠ some true)

def MotorSource.other : MotorSource → MotorSource
  | reply => sample
  | sample => reply

/-- Step `n` does not report a healthy motor over a fault that the other source
reported last. -/
def Agrees (A : Nat → MotorSource) (E : Nat → Board) (n : Nat) : Prop :=
  motorReports A E n = some (A n, false) →
    latest (motorReports A E) (A n).other n ≠ some true

theorem staysReported_iff (n : Nat) : StaysReported A E B n ↔
    Kept (motorReports A E) (fun n => (B n).fault .motor) n := by
  constructor
  · rintro ⟨hset, -⟩ i hi
    cases i with
    | reply => exact hset (Or.inl hi)
    | sample => exact hset (Or.inr hi)
  · intro h
    refine ⟨?_, fun hclear => ⟨fun hi => hclear (h _ hi), fun hi => hclear (h _ hi)⟩⟩
    rintro (hi | hi)
    · exact h .reply hi
    · exact h .sample hi

theorem report_source {src i : MotorSource} {s : Board} {v : Bool}
    (h : src.report s = some (i, v)) : i = src := by
  cases src with
  | reply =>
    obtain ⟨w, -, hw⟩ := Option.map_eq_some_iff.mp h
    exact (congrArg Prod.fst hw).symm
  | sample => exact (congrArg Prod.fst (Option.some.inj h)).symm

theorem agrees_iff (n : Nat) : Agrees A E n ↔ NoOverride (motorReports A E) n := by
  have hother : ∀ i : MotorSource, ∀ j, j ≠ i ↔ j = i.other := by
    intro i j
    cases i <;> cases j <;> decide
  constructor
  · intro h i hn j hji
    obtain rfl : i = A n := report_source hn
    rw [hother] at hji
    rw [hji]
    exact h hn
  · intro h hn
    exact h (A n) hn _ ((hother _ _).mpr rfl)

theorem motor_fault_stays_iff (h : MotorRun A E B) :
    (∀ n, StaysReported A E B n) ↔ ∀ n, Agrees A E n := by
  simp only [staysReported_iff, agrees_iff]
  exact kept_iff h.overwritten

end MotorRun

theorem setDcMotor_leaves {i : Nat} (hi : i ≠ Field.faultState) :
    (setDcMotor exchange).Only (Op.Leaves (work i)) := by
  have hspeed : ∀ v, (setDcMotorSpeed v).Only (Op.Leaves (work i)) := fun v =>
    (setDcMotorSpeed_plain v).mono fun _ ho => ho.leaves _
  have hne : Field.faultState ≠ i := Ne.symm hi
  have hset : ∀ v, (faultSetBit .motor v).Only (Op.Leaves (work i)) := fun v => by
    simpa [faultSetBit, Op.Leaves] using hne
  have hload : ∀ a, (load a).Only (Op.Leaves (work i)) := fun a => by simp [Op.Leaves]
  unfold setDcMotor
  refine .bind (hload _) fun power => .bind ?_ fun _ => .bind (by simp [Op.Leaves]) fun _ =>
    .bind (exchange_leaves 5 i) fun code => ?_
  · simp [Op.Leaves, hspeed]
  · simp [Op.Leaves, hset]

theorem MotorSource.code_leaves (src : MotorSource) {i : Nat} (hi : i ≠ Field.faultState) :
    src.code.Only (Op.Leaves (work i)) := by
  cases src with
  | reply => exact setDcMotor_leaves hi
  | sample => exact rtCheckExDevice_leaves hi

/-- A board that is on, its pins healthy, and a reply with a fault to come. -/
def faultyReply : Board :=
  { Board.reset with
    mem := fun a => if a = work Field.devicePowerState then 1 else 0
    replies := [⟨.revData, [0xBC, 0x07, 0x01, 0x01, 0xC5], []⟩] }

/-- One reply, then samples. -/
def replyFirst : Nat → MotorSource
  | 0 => .reply
  | _ + 1 => .sample

def replyFirstRun : Nat → Board
  | 0 => faultyReply
  | n + 1 => ((replyFirst n).code.run machine 0 (replyFirstRun n)).2

theorem motorRun_replyFirst : MotorRun replyFirst replyFirstRun replyFirstRun := by
  have hpower : ∀ n, (replyFirstRun n).mem (work Field.devicePowerState) = 1 := by
    intro n
    induction n with
    | zero => rfl
    | succ n ih =>
      rw [replyFirstRun, run_leaves ((replyFirst n).code_leaves (by decide)), ih]
  exact ⟨fun n => ⟨hpower n, Iff.rfl⟩, fun n => ⟨0, rfl⟩⟩

theorem motor_fault_stays_iff_replyFirst :
    (∀ n, StaysReported replyFirst replyFirstRun replyFirstRun n) ↔
      ∀ n, Agrees replyFirst replyFirstRun n :=
  motor_fault_stays_iff motorRun_replyFirst

/-- The sample clears what the reply reported. -/
theorem motor_fault_stays_counterexample :
    MotorRun replyFirst replyFirstRun replyFirstRun ∧
      ¬ ∀ n, StaysReported replyFirst replyFirstRun replyFirstRun n := by
  refine ⟨motorRun_replyFirst, fun h => ?_⟩
  have hlatest : latest (motorReports replyFirst replyFirstRun) .reply 2 = some true := by
    decide +kernel
  have hreport : motorReports replyFirst replyFirstRun 1 = some (.sample, false) := by
    decide +kernel
  have hset := (h 2).1 (Or.inl hlatest)
  rw [motorRun_replyFirst.overwritten.report hreport] at hset
  exact absurd hset (by decide)

/-! ## The PHT bit -/

/-! ### Commands and the fault byte -/

section Commands

attribute [local simp] Op.Leaves

/-- Only switching the device on writes the fault byte. -/
theorem commandSwitch_leaves {type data : UInt8} (h : ¬ (type = 0x02 ∧ data ≠ 0)) :
    (commandSwitch type data).Only (Op.Leaves (work Field.faultState)) := by
  have hspeed : (setDcMotorSpeed data).Only (Op.Leaves (work Field.faultState)) :=
    (setDcMotorSpeed_plain data).mono fun _ ho => ho.leaves _
  have hrelays : ∀ v, (acAcMotorSet v).Only (Op.Leaves (work Field.faultState)) := fun v => by
    simp [acAcMotorSet]
  have hsave : deviceSysParaSave.Only (Op.Leaves (work Field.faultState)) :=
    deviceSysParaSave_plain.mono fun _ ho => ho.leaves _
  have hoff : (aircleanPowerOnoff 0).Only (Op.Leaves (work Field.faultState)) := by
    rw [aircleanPowerOnoff, if_neg (by decide), if_neg (by decide)]
    exact .bind hsave fun _ => .bind (by simp [acEsdSet]) fun _ =>
      .bind (by simp [acPhtSet]) fun _ => .bind (hrelays 0) fun _ => by simp
  unfold commandSwitch
  simp only [only_ite]
  refine ⟨fun htype => .bind ?_ fun _ => .ret _, fun _ => ⟨fun _ => ?_, fun _ => ⟨fun _ => ?_,
    fun _ => ⟨fun _ => ?_, fun _ => ⟨fun _ => ?_, fun _ => ⟨fun _ => ?_, fun _ => .ret _⟩⟩⟩⟩⟩⟩
  · rw [only_ite]
    exact ⟨fun hdata => absurd ⟨htype, hdata⟩ h, fun _ => .bind (by simp) fun _ => hoff⟩
  · exact .bind (by simp) fun _ => .ret _
  · simp
  · simp [acPhtSet]
  · simp
  · exact .bind (by simp) fun _ => .bind hspeed fun _ => .bind (hrelays data) fun _ => .ret _

theorem setDispboardFunctionMode_leaves (type mode : UInt8) :
    (setDispboardFunctionMode exchange type mode).Only (Op.Leaves (work Field.faultState)) :=
  setDispboardFunctionMode_only (fun n _ => exchange_leaves n _) (fun _ ho => ho.1.leaves _) _ _

theorem setDeviceWorkMode_leaves {type data : UInt8} (signalCh : UInt8)
    (h : ¬ (type = 0x02 ∧ data ≠ 0)) :
    (setDeviceWorkMode exchange type data signalCh).Only (Op.Leaves (work Field.faultState)) := by
  have happly : (applyCommand exchange type data signalCh).Only
      (Op.Leaves (work Field.faultState)) := by
    unfold applyCommand
    refine .bind (backupWorkData_plain.mono fun _ ho => ho.leaves _) fun _ =>
      .bind (commandSwitch_leaves h) fun known => ?_
    rw [only_ite]
    refine ⟨fun _ => .bind ?_ fun _ => saveIfChanged_plain.mono fun _ ho => ho.leaves _,
      fun _ => .ret _⟩
    rw [only_when]
    exact fun _ => setDispboardFunctionMode_leaves type data
  unfold setDeviceWorkMode
  simp [happly]

end Commands

/-- Switching the device on clears the fault byte, also when it is on already. -/
theorem setDeviceWorkMode_on {data : UInt8} (hdata : data ≠ 0) (signalCh : UInt8) (t : Nat)
    (s : Board) : ((setDeviceWorkMode exchange 0x02 data signalCh).run machine t s).2.mem
      (work Field.faultState) = 0 := by
  have hsave : saveIfChanged.Only (Op.Leaves (work Field.faultState)) :=
    saveIfChanged_plain.mono fun _ ho => ho.leaves _
  have hforward : (Prog.when (signalCh = 1)
      (setDispboardFunctionMode exchange 0x02 data)).Only (Op.Leaves (work Field.faultState)) := by
    rw [only_when]
    exact fun _ => setDispboardFunctionMode_leaves _ _
  rw [setDeviceWorkMode]
  simp only [note, op_bind, ret_bind, run_op]
  rw [if_neg (by decide), applyCommand, run_bind, run_bind, run_commandSwitch_on t hdata, run_ite,
    if_pos rfl, run_bind, run_leaves hsave, run_leaves hforward, poweredOn_fault]

/-! ### Runs -/

inductive MonitorStep where
  | command (type data signalCh : UInt8)
  | pass

namespace MonitorStep

def code : MonitorStep → Code Unit
  | command type data signalCh => setDeviceWorkMode exchange type data signalCh
  | pass => rtCheckExDevice exchange

/-- What the step writes to the PHT bit, if it does. -/
def writes (s : Board) : MonitorStep → Option (Unit × Bool)
  | command type data _ => if type = 0x02 ∧ data ≠ 0 then some ((), false) else none
  | pass =>
      if s.mem (work Field.devicePowerState) = 1 then
        if s.mem (work Field.phtWorkState) ≠ 0 then some ((), !s.inputs .pb2) else none
      else some ((), false)

end MonitorStep

theorem sampled_pht (s : Board) : s.sampled &&& FaultBit.pht.mask =
    (if s.mem (work Field.phtWorkState) ≠ 0 then
      setFault .pht (!s.inputs .pb2) (s.mem (work Field.faultState))
    else s.mem (work Field.faultState)) &&& FaultBit.pht.mask := by
  rw [Board.sampled, setFault_other (by decide), setFault_other (by decide),
    setFault_other (by decide), setFault_other (by decide)]

theorem fault_of_zero {s : Board} (b : FaultBit) (h : s.mem (work Field.faultState) = 0) :
    ¬ s.fault b := by
  rw [Board.fault, h, UInt8.zero_and]
  exact fun hne => hne rfl

theorem MonitorStep.code_fault (step : MonitorStep) (t : Nat) (s : Board) :
    ((step.code).run machine t s).2.fault .pht ↔
      (step.writes s).elim (s.fault .pht) fun r => r.2 = true := by
  cases step with
  | command type data signalCh =>
    rw [writes, code]
    by_cases hon : type = 0x02 ∧ data ≠ 0
    · rw [if_pos hon, hon.1]
      exact iff_of_false (fault_of_zero _ (setDeviceWorkMode_on hon.2 signalCh t s)) (by simp)
    · rw [if_neg hon, Board.fault, run_leaves (setDeviceWorkMode_leaves signalCh hon)]
      rfl
  | pass =>
    rw [writes, code]
    by_cases hpower : s.mem (work Field.devicePowerState) = 1
    · rw [if_pos hpower, Board.fault, rtCheckExDevice_on hpower, sampled_pht]
      by_cases hpht : s.mem (work Field.phtWorkState) ≠ 0
      · rw [if_pos hpht, if_pos hpht, setFault_self]
        rfl
      · rw [if_neg hpht, if_neg hpht]
        rfl
    · rw [if_neg hpower]
      exact iff_of_false (fault_of_zero _ (rtCheckExDevice_off hpower t)) (by simp)

/-- No code changes a pin that is read. -/
theorem run_inputs {α : Type} (p : Code α) (t : Nat) (s : Board) :
    (p.run machine t s).2.inputs = s.inputs := by
  induction p generalizing s with
  | ret x => rfl
  | op o k ih =>
    have ho : (exec t o s).2.inputs = s.inputs := by cases o <;> rfl
    exact (ih _ _).trans ho

/-- Commands and sampling passes in the order of `A`. Between two of them the
PHT bit is left alone; the settings may change. -/
structure PhtRun (A : Nat → MonitorStep) (E B : Nat → Board) : Prop where
  kept : ∀ n, (E n).fault .pht ↔ (B n).fault .pht
  step : ∀ n, ∃ t, B (n + 1) = ((A n).code.run machine t (E n)).2

def phtWrites (A : Nat → MonitorStep) (E : Nat → Board) (n : Nat) : Option (Unit × Bool) :=
  (A n).writes (E n)

/-- Step `n` is a pass with the device on. -/
def IsPass (A : Nat → MonitorStep) (E : Nat → Board) (n : Nat) : Prop :=
  A n = .pass ∧ (E n).mem (work Field.devicePowerState) = 1

/-- After a pass the PHT bit is set just when the lamp is switched on and its
pin reports a fault. -/
def ShowsLamp (A : Nat → MonitorStep) (E B : Nat → Board) (n : Nat) : Prop :=
  IsPass A E n → ((B (n + 1)).fault .pht ↔
    (B (n + 1)).mem (work Field.phtWorkState) ≠ 0 ∧ (B (n + 1)).inputs .pb2 = false)

/-- Before step `n` the last write to the PHT bit set it; before the first
write it is as at the start. -/
def LeftOver (A : Nat → MonitorStep) (E B : Nat → Board) (n : Nat) : Prop :=
  latest (phtWrites A E) () n = some true ∨
    latest (phtWrites A E) () n = none ∧ (B 0).fault .pht

/-- A pass finds the lamp switched on, or no fault left over. -/
def Refreshed (A : Nat → MonitorStep) (E B : Nat → Board) (n : Nat) : Prop :=
  IsPass A E n → (E n).mem (work Field.phtWorkState) ≠ 0 ∨ ¬ LeftOver A E B n

section PhtRun

variable {A : Nat → MonitorStep} {E B : Nat → Board}

theorem PhtRun.overwritten (h : PhtRun A E B) :
    Overwritten (phtWrites A E) fun n => (B n).fault .pht := by
  refine .of_step fun n => ?_
  obtain ⟨t, ht⟩ := h.step n
  rw [ht, MonitorStep.code_fault, phtWrites]
  cases (A n).writes (E n) with
  | none => exact h.kept n
  | some r => rfl

/-- The bit before a step is what the last write left. -/
theorem PhtRun.leftOver_iff (h : PhtRun A E B) (n : Nat) :
    LeftOver A E B n ↔ (B n).fault .pht :=
  (flag_iff_latest h.overwritten () n).symm

theorem PhtRun.showsLamp_iff (h : PhtRun A E B) (n : Nat) :
    ShowsLamp A E B n ↔ Refreshed A E B n := by
  refine imp_congr_right fun ⟨hpass, hpower⟩ => ?_
  obtain ⟨t, ht⟩ := h.step n
  rw [hpass] at ht
  have hpht : (B (n + 1)).mem (work Field.phtWorkState) =
      (E n).mem (work Field.phtWorkState) := by
    rw [ht]
    exact run_leaves (rtCheckExDevice_leaves (by decide)) t (E n)
  have hpin : (B (n + 1)).inputs = (E n).inputs := by
    rw [ht]
    exact run_inputs _ t (E n)
  have hwrites : phtWrites A E n = if (E n).mem (work Field.phtWorkState) ≠ 0 then
      some ((), !(E n).inputs .pb2) else none := by
    rw [phtWrites, hpass, MonitorStep.writes, if_pos hpower]
  rw [hpht, hpin, h.leftOver_iff]
  by_cases hon : (E n).mem (work Field.phtWorkState) ≠ 0
  · rw [if_pos hon] at hwrites
    rw [h.overwritten.report hwrites]
    simp [hon]
  · rw [if_neg hon] at hwrites
    rw [h.overwritten.quiet hwrites]
    tauto

theorem lamp_fault_shown_iff (h : PhtRun A E B) :
    (∀ n, ShowsLamp A E B n) ↔ ∀ n, Refreshed A E B n :=
  forall_congr' h.showsLamp_iff

end PhtRun

/-- A board that is on and manual, its lamp switched on and the lamp's pin low. -/
def lampDead : Board :=
  { Board.reset with
    mem := fun a =>
      if a = work Field.devicePowerState then 1
      else if a = work Field.deviceMode then 2
      else if a = work Field.phtWorkState then 1
      else 0
    inputs := fun p => p != .pb2 }

/-- A pass with the lamp on, the command that switches it off, and passes. -/
def switchedOffSteps : Nat → MonitorStep
  | 1 => .command 5 0 0
  | _ => .pass

def switchedOffRun : Nat → Board
  | 0 => lampDead
  | n + 1 => ((switchedOffSteps n).code.run machine 0 (switchedOffRun n)).2

theorem phtRun_switchedOff : PhtRun switchedOffSteps switchedOffRun switchedOffRun where
  kept := fun _ => Iff.rfl
  step := fun _ => ⟨0, rfl⟩

theorem lamp_fault_shown_iff_switchedOff :
    (∀ n, ShowsLamp switchedOffSteps switchedOffRun switchedOffRun n) ↔
      ∀ n, Refreshed switchedOffSteps switchedOffRun switchedOffRun n :=
  lamp_fault_shown_iff phtRun_switchedOff

/-- The fault of the lamp that was on stays when it is switched off. -/
theorem lamp_fault_shown_counterexample :
    PhtRun switchedOffSteps switchedOffRun switchedOffRun ∧
      ¬ ∀ n, ShowsLamp switchedOffSteps switchedOffRun switchedOffRun n := by
  refine ⟨phtRun_switchedOff, fun h => ?_⟩
  have hleft : LeftOver switchedOffSteps switchedOffRun switchedOffRun 2 := Or.inl rfl
  have hpower : (switchedOffRun 2).mem (work Field.devicePowerState) = 1 := by decide +kernel
  have hoff : (switchedOffRun 2).mem (work Field.phtWorkState) = 0 := by decide +kernel
  rcases (phtRun_switchedOff.showsLamp_iff 2).mp (h 2) ⟨rfl, hpower⟩ with hon | hclear
  · exact hon hoff
  · exact hclear hleft

end Aclean
