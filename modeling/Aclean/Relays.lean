import Mathlib.Data.List.Chain
import Aclean.Modbus
import Aclean.Outputs
import Aclean.Plays
import Aclean.PowerOff

/-!
# The motor relays

At most one of the three relays may be on. A speed change is three writes in a
fixed order: made alone it joins two windings where the relay to be switched on
comes first, and mixed with another it can leave two of them on.
-/

namespace Aclean

open Board Prog

def AtMostOne (g : Pin → Bool) : Prop :=
  ∀ p ∈ relays, ∀ q ∈ relays, g p = true → g q = true → p = q

instance (g : Pin → Bool) : Decidable (AtMostOne g) :=
  inferInstanceAs (Decidable (∀ p ∈ relays, ∀ q ∈ relays, g p = true → g q = true → p = q))

theorem mem_relays {p : Pin} : p ∈ relays ↔ p = .pb12 ∨ p = .pb13 ∨ p = .pb14 := by
  simp [relays]

/-! ## One speed after the other -/

/-- Switching from the first speed to the second switches the new relay on before
the old one is off. -/
def Joins (a b : UInt8) : Prop := (b = 1 ∧ (a = 2 ∨ a = 3)) ∨ (b = 3 ∧ a = 2)

instance (a b : UInt8) : Decidable (Joins a b) :=
  inferInstanceAs (Decidable ((b = 1 ∧ (a = 2 ∨ a = 3)) ∨ (b = 3 ∧ a = 2)))

/-- The relays stand as a call with `mode` leaves them. -/
def StandAt (mode : UInt8) (g : Pin → Bool) : Prop :=
  ∀ p ∈ relays, g p = (relay mode == some p)

theorem standAt_set (mode : UInt8) (t : Nat) (s : Board) :
    StandAt mode ((acAcMotorSet mode).run machine t s).2.gpio := by
  intro p hp
  rw [acAcMotorSet_eq]
  rcases mem_relays.mp hp with rfl | rfl | rfl <;> simp

theorem joins_iff (a b : UInt8) : Joins a b ↔
    (relay b = some .pb14 ∧ (relay a = some .pb13 ∨ relay a = some .pb12)) ∨
      (relay b = some .pb12 ∧ relay a = some .pb13) := by
  simp only [Joins, relay]
  split_ifs <;> simp_all

/-- One call: three writes, and the states before, between and behind them. -/
theorem throughout_set {a : UInt8} {s : Board} (h : StandAt a s.gpio) (b : UInt8) (t : Nat) :
    Throughout machine t (fun s => AtMostOne s.gpio) (acAcMotorSet b) s ↔ ¬ Joins a b := by
  have h12 : s.gpio .pb12 = (relay a == some .pb12) := h _ (by decide)
  have h13 : s.gpio .pb13 = (relay a == some .pb13) := h _ (by decide)
  have h14 : s.gpio .pb14 = (relay a == some .pb14) := h _ (by decide)
  rw [acAcMotorSet_eq, joins_iff]
  generalize relay a = old at h12 h13 h14
  generalize relay b = new
  simp +contextual [AtMostOne, h12, h13, h14]
  tauto

theorem StandAt.atMostOne {mode : UInt8} {g : Pin → Bool} (h : StandAt mode g) : AtMostOne g := by
  intro p hp q hq hp1 hq1
  rw [h p hp, beq_iff_eq] at hp1
  rw [h q hq, beq_iff_eq] at hq1
  exact Option.some.inj (hp1.symm.trans hq1)

theorem throughout_sets {a : UInt8} {s : Board} (h : StandAt a s.gpio) (modes : List UInt8)
    (t : Nat) :
    Throughout machine t (fun s => AtMostOne s.gpio) (calls (modes.map acAcMotorSet)) s ↔
      List.IsChain (fun a b => ¬ Joins a b) (a :: modes) := by
  induction modes generalizing a s with
  | nil =>
      rw [List.map_nil, calls, throughout_ret]
      exact iff_of_true h.atMostOne (.singleton a)
  | cons b modes ih =>
      rw [List.map_cons, calls, throughout_bind, throughout_set h, ih (standAt_set b t s),
        List.isChain_cons_cons]

/-- **When no two windings are ever joined**, from the state after start-up and
over any calls one after the other: after the speed 2 come neither 1 nor 3, and
after the speed 3 comes no 1, unless all are switched off in between. -/
theorem never_joined_iff (modes : List UInt8) (t : Nat) (s : Board) :
    Throughout machine t (fun s => AtMostOne s.gpio) (calls (modes.map acAcMotorSet))
        (aircleanOutPinInit.run machine t s).2 ↔
      List.IsChain (fun a b => ¬ Joins a b) (1 :: modes) := by
  refine throughout_sets ?_ modes t
  rw [aircleanOutPinInit, run_bind, run_bind]
  exact standAt_set 1 t _

/-- Speed 2, then 3. -/
theorem never_joined_counterexample :
    ¬ Throughout machine 0 (fun s => AtMostOne s.gpio) (calls ([2, 3].map acAcMotorSet))
      (aircleanOutPinInit.run machine 0 Board.reset).2 := by
  intro h
  exact absurd (h 5) (by decide +kernel)

/-! ## Speeds mixed -/

/-- How far a thread is in a speed change, and what it has written so far. -/
inductive Switching where
  | rest
  | first (on14 : Bool)
  | second (on14 on12 : Bool)
  deriving DecidableEq, Repr

namespace Switching

/-- The relay to be written next. -/
def turn : Switching → Pin
  | .rest => .pb14
  | .first _ => .pb12
  | .second _ _ => .pb13

def written : Switching → Pin → Option Bool
  | .first on14, .pb14 => some on14
  | .second on14 _, .pb14 => some on14
  | .second _ on12, .pb12 => some on12
  | _, _ => none

def wrote (on : Bool) : Switching → Switching
  | .rest => .first on
  | .first on14 => .second on14 on
  | .second _ _ => .rest

/-- No speed change is going on. -/
def Idle : Switching → Prop
  | .rest => True
  | _ => False

theorem Idle.eq_rest {l : Switching} (h : l.Idle) : l = .rest := by
  cases l with
  | rest => rfl
  | _ => exact h.elim

/-- The writes still to come. -/
def left : Switching → Nat
  | .rest => 0
  | .first _ => 2
  | .second _ _ => 1

end Switching

/-! ### The threads -/

def relayDiscipline : Discipline Op Ar Switching where
  ok l
    | .gpioWrite p on => (p ∈ relays → p = l.turn ∧ (on = true → ∀ q, l.written q ≠ some true)) ∧
        (p ∉ relays → l.Idle)
    | _ => l.Idle
  answers _ _ _ := True
  next l
    | .gpioWrite p on => fun _ => if p ∈ relays then l.wrote on else l
    | _ => fun _ => l

/-- How far each thread is in a speed change after a history. -/
def switching (tr : List (Label Op Ar Empty)) : Nat → Switching :=
  relayDiscipline.locals (fun _ => .rest) tr

def Op.Relayless : Op → Prop
  | .gpioWrite p _ => p ∉ relays
  | _ => True

theorem Op.Relayless.keeps {o : Op} (h : o.Relayless) :
    relayDiscipline.ok .rest o ∧ ∀ a, relayDiscipline.next .rest o a = .rest := by
  cases o with
  | gpioWrite p on => exact ⟨⟨fun hp => absurd hp h, fun _ => trivial⟩, fun _ => if_neg h⟩
  | _ => exact ⟨trivial, fun _ => rfl⟩

theorem Op.Plain.relayless {o : Op} (h : o.Plain) : o.Relayless := by
  cases o with
  | gpioWrite p on => exact absurd h id
  | _ => trivial

section Walk

theorem relayless_keeps {α : Type} {p : Code α} (h : p.Only Op.Relayless) :
    relayDiscipline.Keeps p .rest :=
  .of_only h fun _ ho => ⟨ho.keeps.1, fun a _ => ho.keeps.2 a⟩

theorem plain_keeps {α : Type} {p : Code α} (h : p.Only Op.Plain) : relayDiscipline.Keeps p .rest :=
  relayless_keeps (h.mono fun _ => Op.Plain.relayless)

theorem acEsdSet_relayless (mode : UInt8) : (acEsdSet mode).Only Op.Relayless := by
  simp [acEsdSet, Op.Relayless]

theorem acPhtSet_relayless (mode : UInt8) : (acPhtSet mode).Only Op.Relayless := by
  simp [acPhtSet, Op.Relayless]

theorem deviceSysParaGet_relayless : deviceSysParaGet.Only Op.Relayless := by
  unfold deviceSysParaGet
  refine .act trivial fun flag => ?_
  refine .bind ((only_when ..).mpr fun _ => .forUpTo fun i _ => ?_) fun _ => ?_
  · simp [Op.Relayless]
  · simp [Op.Relayless]

theorem acAcMotorSet_switches (mode : UInt8) : relayDiscipline.Keeps (acAcMotorSet mode) .rest := by
  rw [acAcMotorSet_eq]
  generalize relay mode = new
  simp +contextual [Discipline.Keeps, relayDiscipline, Switching.turn, Switching.wrote]
  refine ⟨fun _ q => ?_, fun _ q => ?_, fun _ q => ?_⟩ <;> cases q <;> decide

theorem aircleanMotorSet_switches (mode : UInt8) :
    relayDiscipline.Keeps (aircleanMotorSet mode) .rest := by
  unfold aircleanMotorSet
  refine .act trivial fun _ _ => .act trivial fun _ _ => .act trivial fun w _ =>
    (acAcMotorSet_switches w).andThen fun _ => .act trivial fun _ _ => .act trivial fun w _ => ?_
  exact (plain_keeps (setDcMotorSpeed_plain w)).andThen fun _ =>
    .act trivial fun _ _ => .op trivial fun _ _ => .ret rfl

theorem driveAuto_switches (on speed : UInt8) :
    relayDiscipline.Keeps (driveAuto on speed) .rest := by
  unfold driveAuto
  refine (relayless_keeps (acEsdSet_relayless on)).andThen fun _ =>
    (relayless_keeps (acPhtSet_relayless on)).andThen fun _ =>
    (aircleanMotorSet_switches speed).andThen fun _ => ?_
  exact .act trivial fun _ _ => .act trivial fun _ _ => .op trivial fun _ _ => .ret rfl

theorem autoHandle_switches : relayDiscipline.Keeps autoHandle .rest := by
  have hscan : ∀ p, relayDiscipline.Keeps (scanRooms p) .rest := fun p =>
    relayless_keeps (.foldUpTo fun i found _ => by simp [houseReading, Op.Relayless])
  unfold autoHandle
  refine (hscan _).bind fun _ => .ite (fun _ => driveAuto_switches 1 3) fun _ => ?_
  refine (hscan _).bind fun _ => .ite (fun _ => driveAuto_switches 1 2) fun _ => ?_
  refine (hscan _).bind fun _ => .ite (fun _ => driveAuto_switches 0 0) fun _ => ?_
  exact (hscan _).bind fun _ =>
    .ite (fun _ => driveAuto_switches 1 1) fun _ => driveAuto_switches 0 0

theorem manualHandle_switches (pre : UInt8) : relayDiscipline.Keeps (manualHandle pre) .rest := by
  have hesd : ∀ mode, relayDiscipline.Keeps (acEsdSet mode) .rest := fun mode =>
    relayless_keeps (acEsdSet_relayless mode)
  have hpht : ∀ mode, relayDiscipline.Keeps (acPhtSet mode) .rest := fun mode =>
    relayless_keeps (acPhtSet_relayless mode)
  unfold manualHandle
  refine .ite (fun _ => ?_) fun _ => ?_
  · exact (hesd 1).andThen fun _ => (hpht 1).andThen fun _ => aircleanMotorSet_switches 1
  · refine .act trivial fun hp _ => (hesd hp).andThen fun _ => .act trivial fun pht _ =>
      (hpht pht).andThen fun _ => .act trivial fun w _ =>
      Discipline.Keeps.andThen (.when fun _ => aircleanMotorSet_switches 1) fun _ => ?_
    exact .act trivial fun w _ => aircleanMotorSet_switches w

theorem aircleanWorkAutoHandle_switches : relayDiscipline.Keeps aircleanWorkAutoHandle .rest := by
  unfold aircleanWorkAutoHandle
  refine .act trivial fun power _ => .ite (fun _ => ?_) fun _ => .ret rfl
  refine .act trivial fun mode _ => .ite (fun _ => autoHandle_switches) fun _ => ?_
  exact .act trivial fun mode _ => .ite (fun _ => manualHandle_switches _) fun _ => .ret rfl

theorem aircleanPowerOnoff_switches (mode : UInt8) :
    relayDiscipline.Keeps (aircleanPowerOnoff mode) .rest := by
  unfold aircleanPowerOnoff
  refine .ite (fun _ => .ret rfl) fun _ => .ite (fun _ => ?_) fun _ => ?_
  · refine (relayless_keeps deviceSysParaGet_relayless).andThen fun _ => .act trivial fun hp _ =>
      (relayless_keeps (acEsdSet_relayless hp)).andThen fun _ => .act trivial fun pht _ =>
      (relayless_keeps (acPhtSet_relayless pht)).andThen fun _ => .act trivial fun w _ => ?_
    exact (acAcMotorSet_switches w).andThen fun _ => .op trivial fun _ _ => .ret rfl
  · refine (plain_keeps deviceSysParaSave_plain).andThen fun _ =>
      (relayless_keeps (acEsdSet_relayless 0)).andThen fun _ =>
      (relayless_keeps (acPhtSet_relayless 0)).andThen fun _ => ?_
    exact (acAcMotorSet_switches 0).andThen fun _ => .op trivial fun _ _ => .ret rfl

theorem commandSwitch_switches (type data : UInt8) :
    relayDiscipline.Keeps (commandSwitch type data) .rest := by
  unfold commandSwitch
  refine .ite (fun _ => ?_) fun _ => .ite (fun _ => ?_) fun _ => .ite (fun _ => ?_) fun _ =>
    .ite (fun _ => ?_) fun _ => .ite (fun _ => ?_) fun _ => .ite (fun _ => ?_) fun _ => .ret rfl
  · refine Discipline.Keeps.andThen (.ite (fun _ => ?_) fun _ => ?_) fun _ => .ret rfl
    · exact .act trivial fun _ _ => aircleanPowerOnoff_switches 1
    · exact .act trivial fun _ _ => aircleanPowerOnoff_switches 0
  · refine Discipline.Keeps.andThen (.when fun _ => ?_) fun _ => .ret rfl
    exact .op trivial fun _ _ => .ret rfl
  · exact .act trivial fun _ _ => .ret rfl
  · exact .act trivial fun _ _ =>
      (relayless_keeps (acPhtSet_relayless data)).andThen fun _ => .ret rfl
  · exact .act trivial fun _ _ => .ret rfl
  · refine Discipline.Keeps.andThen (.when fun _ => .op trivial fun _ _ => .ret rfl) fun _ => ?_
    exact (plain_keeps (setDcMotorSpeed_plain data)).andThen fun _ =>
      (acAcMotorSet_switches data).andThen fun _ => .ret rfl

theorem setDispboardFunctionMode_relayless (type mode : UInt8) :
    (setDispboardFunctionMode exchange type mode).Only Op.Relayless :=
  setDispboardFunctionMode_only (fun _ _ => .op trivial fun _ => .ret _)
    (fun _ ho => ho.1.relayless) type mode

theorem setDisplayBoardData_relayless : (setDisplayBoardData exchange).Only Op.Relayless :=
  setDisplayBoardData_only (fun _ _ => .op trivial fun _ => .ret _) fun _ ho => ho.1.relayless

theorem setDeviceWorkMode_switches (type data signalCh : UInt8) :
    relayDiscipline.Keeps (setDeviceWorkMode exchange type data signalCh) .rest := by
  have happly : relayDiscipline.Keeps (applyCommand exchange type data signalCh) .rest := by
    unfold applyCommand
    refine (plain_keeps backupWorkData_plain).andThen fun _ =>
      (commandSwitch_switches type data).andThen fun known => .ite (fun _ => ?_) fun _ => .ret rfl
    refine Discipline.Keeps.andThen (.when fun _ => ?_) fun _ => plain_keeps saveIfChanged_plain
    exact relayless_keeps (setDispboardFunctionMode_relayless type data)
  unfold setDeviceWorkMode
  refine .act trivial fun _ _ => .ite (fun _ => ?_) fun _ => happly
  refine .act trivial fun mode _ => .ite (fun _ => .ret rfl) fun _ => ?_
  exact .act trivial fun power _ => .ite (fun _ => .ret rfl) fun _ => happly

theorem takeDisplaySettings_relayless : takeDisplaySettings.Only Op.Relayless := by
  have hplain : ∀ o : Op, o.Plain → o.Relayless := fun _ => Op.Plain.relayless
  unfold takeDisplaySettings
  refine .bind (backupWorkData_plain.mono hplain) fun _ => .act trivial fun m =>
    .act trivial fun _ => .act trivial fun m => .bind ?_ fun _ => .act trivial fun tm =>
    .act trivial fun _ => .act trivial fun f => .bind ?_ fun _ => saveIfChanged_plain.mono hplain
  · simp [Op.Relayless]
  · simp [Op.Relayless]

theorem replyFramed_switches (b : UInt8) (e : Nat) :
    relayDiscipline.Keeps (replyFramed b e) .rest :=
  plain_keeps (replyFramed_plain b e)

theorem handleDisplayReply_switches :
    relayDiscipline.Keeps (handleDisplayReply exchange) .rest := by
  have hkey : relayDiscipline.Keeps (takeDisplayKey exchange) .rest := by
    unfold takeDisplayKey
    refine .act trivial fun b _ => .ite (fun _ => ?_) fun _ => .ret rfl
    refine .act trivial fun b _ => .ite (fun _ => ?_) fun _ => .ret rfl
    refine .act trivial fun type _ => .act trivial fun data _ => ?_
    exact setDeviceWorkMode_switches type data 0
  unfold handleDisplayReply
  refine (replyFramed_switches _ _).bind fun f2 =>
    .ite (fun _ => relayless_keeps takeDisplaySettings_relayless) fun _ => ?_
  exact (replyFramed_switches _ _).bind fun f1 => .ite (fun _ => hkey) fun _ => .ret rfl

theorem getDisplayBoardData_switches :
    relayDiscipline.Keeps (getDisplayBoardData exchange) .rest := by
  unfold getDisplayBoardData
  refine .act trivial fun _ _ => .act trivial fun _ _ => .act trivial fun _ _ => ?_
  refine .act trivial fun _ _ => .act trivial fun _ _ => .act trivial fun _ _ => ?_
  refine .act trivial fun _ _ => .act trivial fun _ _ => .act trivial fun _ _ => ?_
  refine .act trivial fun errorCode _ => ?_
  exact Discipline.Keeps.andThen (.when fun _ => handleDisplayReply_switches) fun _ =>
    .op trivial fun _ _ => .ret rfl

theorem threadEntryPowerMonitor_switches (dCmdPower : UInt8) :
    relayDiscipline.Keeps (threadEntryPowerMonitor exchange dCmdPower) .rest := by
  have hcount : powerMonitorCount.Only Op.Relayless := by
    unfold powerMonitorCount
    refine .act trivial fun pre => .bind ?_ fun _ => ?_
    · simp [Op.Relayless]
    · simp [Op.Relayless]
  unfold threadEntryPowerMonitor
  refine (relayless_keeps hcount).andThen fun _ => ?_
  refine .act trivial fun cnt _ => .act trivial fun pre _ => ?_
  refine Discipline.Keeps.andThen (.when fun _ => ?_) fun _ => ?_
  · exact .act trivial fun tm _ => .op trivial fun _ _ => .ret rfl
  · refine .act trivial fun cnt _ => .act trivial fun tm _ => .ite (fun _ => ?_) fun _ => ?_
    · refine .act trivial fun _ _ => .act trivial fun _ _ => .act trivial fun _ _ =>
        .act trivial fun _ _ => ?_
      exact (relayless_keeps (setDispboardFunctionMode_relayless dCmdPower 0)).andThen fun _ =>
        aircleanPowerOnoff_switches 0
    · exact aircleanWorkAutoHandle_switches

theorem setDcMotor_relayless : (setDcMotor exchange).Only Op.Relayless := by
  have hspeed : ∀ speed, (setDcMotorSpeed speed).Only Op.Relayless := fun speed =>
    (setDcMotorSpeed_plain speed).mono fun _ => Op.Plain.relayless
  unfold setDcMotor
  refine .act trivial fun power => .bind ?_ fun _ => .act trivial fun _ =>
    .act trivial fun code => ?_
  · exact (only_ite ..).mpr ⟨fun _ => hspeed 0, fun _ => .act trivial fun w => hspeed w⟩
  · simp [faultSetBit, Op.Relayless]

theorem rtCheckExDevice_relayless : (rtCheckExDevice exchange).Only Op.Relayless := by
  have hsample : ∀ b p, (sampleFault b p).Only Op.Relayless := fun b p => by
    simp [sampleFault, stateGet, faultSetBit, Op.Relayless]
  unfold rtCheckExDevice
  refine .act trivial fun power => ?_
  refine (only_ite ..).mpr ⟨fun _ => ?_, fun _ => .op trivial fun _ => .ret _⟩
  refine .act trivial fun pht => .bind ((only_when ..).mpr fun _ => hsample _ _) fun _ =>
    .bind (hsample _ _) fun _ => .bind (hsample _ _) fun _ => .bind (hsample _ _) fun _ =>
    .bind (hsample _ _) fun _ => .act trivial fun pre => .act trivial fun f => ?_
  refine (only_ite ..).mpr ⟨fun _ => .act trivial fun f => ?_, fun _ => .ret _⟩
  refine .bind ((only_when ..).mpr fun _ => setDisplayBoardData_relayless) fun _ => ?_
  simp [Op.Relayless]

theorem sensorRead_relayless (i : Nat) : (sensorRead exchangeHold i).Only Op.Relayless := by
  unfold sensorRead
  refine .act trivial fun _ => .act trivial fun errorCode => ?_
  refine .bind ?_ fun _ => .op trivial fun _ => .ret _
  simp [storeField16, Op.Relayless]

theorem controlOf_switches (c : Call) : relayDiscipline.Keeps (controlOf c) .rest := by
  cases c with
  | setDcMotor => exact relayless_keeps setDcMotor_relayless
  | getDisplayBoardData => exact getDisplayBoardData_switches
  | setDisplayBoardData => exact relayless_keeps setDisplayBoardData_relayless
  | setDispboardFunctionMode type mode =>
      exact relayless_keeps (setDispboardFunctionMode_relayless type mode)
  | sensorRead i => exact relayless_keeps (sensorRead_relayless i)
  | setDeviceWorkMode type data ch => exact setDeviceWorkMode_switches type data ch
  | aircleanMotorSet mode => exact aircleanMotorSet_switches mode
  | threadEntryPowerMonitor p => exact threadEntryPowerMonitor_switches p
  | rtCheckExDevice => exact relayless_keeps rtCheckExDevice_relayless

end Walk

/-! ### Every interleaving -/

/-- The calls of the main board's threads, and the two functions that drive the
relays without being one. -/
inductive MotorCall where
  | control (c : Call)
  | aircleanWorkAutoHandle
  | aircleanPowerOnoff (mode : UInt8)
  deriving DecidableEq, Repr

def MotorCall.code : MotorCall → Code Unit
  | .control c => controlOf c
  | .aircleanWorkAutoHandle => Aclean.aircleanWorkAutoHandle
  | .aircleanPowerOnoff mode => Aclean.aircleanPowerOnoff mode

theorem MotorCall.switches (c : MotorCall) : relayDiscipline.Keeps c.code .rest := by
  cases c with
  | control c => exact controlOf_switches c
  | aircleanWorkAutoHandle => exact aircleanWorkAutoHandle_switches
  | aircleanPowerOnoff mode => exact aircleanPowerOnoff_switches mode

def motorThreads (calls : Nat → List MotorCall) (t : Nat) : Code Unit :=
  Prog.calls ((calls t).map MotorCall.code)

theorem motorThreads_switch (calls : Nat → List MotorCall) (t : Nat) :
    relayDiscipline.Keeps (motorThreads calls t) .rest := by
  refine .calls fun p hp => ?_
  obtain ⟨c, -, rfl⟩ := List.mem_map.mp hp
  exact c.switches

/-- No thread is between the writes of a speed change. -/
def AtRest (tr : List (Label Op Ar Empty)) : Prop := ∀ t, switching tr t = .rest

/-- One of the next `n` operations switches the relay off; all of them are writes. -/
def ClearsPin (p : Pin) : Nat → Code Unit → Prop
  | n + 1, .op (.gpioWrite q on) k => (q = p ∧ on = false) ∨ ClearsPin p n (k ())
  | _, _ => False

/-- What a thread has still to write in its speed change switches off one of the two. -/
def Parts (l : Switching) (rest : Code Unit) (p q : Pin) : Prop :=
  ClearsPin p l.left rest ∨ ClearsPin q l.left rest

/-- When a relay is switched on, those that the same call has switched off are
still off; or a call that is between the writes of its speed change has still to
switch off one of the two. What a thread has left of its calls follows from what
it has done. -/
def BreaksFirst (calls : Nat → List MotorCall) : StepCond Op Ar Board Empty := fun tr s l =>
  match l with
  | .op t (.gpioWrite q true) _ => ∀ p ∈ relays, p ≠ q →
      (switching tr t).written p = some false → s.gpio p = true →
      ∃ u rest, (motorThreads calls u).Plays (own u tr) rest ∧ Parts (switching tr u) rest q p
  | _ => True

/-- Every two relays that are on together, some thread is about to part. -/
def Parted (L : Nat → Switching) (T : Nat → Code Unit) (g : Pin → Bool) : Prop :=
  ∀ p ∈ relays, ∀ q ∈ relays, p ≠ q → g p = true → g q = true → ∃ t, Parts (L t) (T t) p q

section Parting

variable {L : Nat → Switching} {T : Nat → Code Unit} {g : Pin → Bool} {l : Switching}
  {rest : Code Unit} {p q : Pin}

theorem Parts.symm (h : Parts l rest p q) : Parts l rest q p := Or.symm h

theorem not_parts_rest : ¬ Parts .rest rest p q := fun h => h.elim id id

theorem Parted.atMostOne (h : Parted L T g) (hrest : ∀ t, L t = .rest) : AtMostOne g := by
  intro p hp q hq hp1 hq1
  by_contra hne
  obtain ⟨t, ht⟩ := h p hp q hq hne hp1 hq1
  rw [hrest t] at ht
  exact not_parts_rest ht

/-- In a speed change the next operation is its next write, and it switches on
nothing if another relay has been switched on. -/
theorem midway (h : relayDiscipline.Follows rest (fun _ l => l = .rest) l) (hl : l ≠ .rest) :
    ∃ on k, rest = .op (.gpioWrite l.turn on) k ∧ (on = true → ∀ q, l.written q ≠ some true) ∧
      relayDiscipline.Follows (k ()) (fun _ l => l = .rest) (l.wrote on) := by
  cases h with
  | ret h => exact absurd h hl
  | @op o k _ _ hok hk =>
      cases o with
      | gpioWrite r on =>
          by_cases hr : r ∈ relays
          · obtain ⟨rfl, hone⟩ := hok.1 hr
            have hnext := hk () trivial
            rw [show relayDiscipline.next l (.gpioWrite l.turn on) () = l.wrote on from
              if_pos hr] at hnext
            exact ⟨on, k, rfl, hone, hnext⟩
          · exact absurd (hok.2 hr).eq_rest hl
      | _ => exact absurd (Switching.Idle.eq_rest hok) hl

/-- Behind the write that switches a relay on come those that switch the others off. -/
theorem clearsPin_wrote (hq : q ∈ relays) (hne : q ≠ l.turn) (hw : l.written q = none)
    (h : relayDiscipline.Follows rest (fun _ l => l = .rest) (l.wrote true)) :
    ClearsPin q (l.wrote true).left rest := by
  cases l with
  | rest =>
      obtain ⟨on, k, rfl, hone, hk⟩ := midway h nofun
      obtain rfl : on = false := by
        by_contra hon
        exact hone (Bool.eq_true_of_not_eq_false hon) .pb14 rfl
      obtain ⟨on', k', hk', hone', -⟩ := midway hk nofun
      obtain rfl : on' = false := by
        by_contra hon
        exact hone' (Bool.eq_true_of_not_eq_false hon) .pb14 rfl
      rcases mem_relays.mp hq with rfl | rfl | rfl
      · exact .inl ⟨rfl, rfl⟩
      · refine .inr ?_
        rw [hk']
        exact .inl ⟨rfl, rfl⟩
      · exact absurd rfl hne
  | first on14 =>
      obtain ⟨on, k, rfl, hone, -⟩ := midway h nofun
      obtain rfl : on = false := by
        by_contra hon
        exact hone (Bool.eq_true_of_not_eq_false hon) .pb12 rfl
      rcases mem_relays.mp hq with rfl | rfl | rfl
      · exact absurd rfl hne
      · exact .inl ⟨rfl, rfl⟩
      · cases hw
  | second on14 on12 =>
      rcases mem_relays.mp hq with rfl | rfl | rfl
      · cases hw
      · exact absurd rfl hne
      · cases hw

/-- A write leaves to be switched off what it does not switch off itself. -/
theorem ClearsPin.wrote {r : Pin} {on : Bool} {k : Unit → Code Unit}
    (h : ClearsPin p l.left (.op (.gpioWrite r on) k)) (hr : ¬ (r = p ∧ on = false)) :
    ClearsPin p (l.wrote on).left (k ()) := by
  cases l with
  | rest => exact h.elim
  | first on14 => exact h.resolve_left hr
  | second on14 on12 => exact h.resolve_left hr

theorem Parts.wrote {r : Pin} {on : Bool} {k : Unit → Code Unit}
    (h : Parts l (.op (.gpioWrite r on) k) p q) (hp : ¬ (r = p ∧ on = false))
    (hq : ¬ (r = q ∧ on = false)) : Parts (l.wrote on) (k ()) p q :=
  h.imp (fun h => h.wrote hp) fun h => h.wrote hq

/-- One write of a relay. -/
theorem Parted.write (h : Parted L T g) {t : Nat} {on : Bool} {k : Unit → Code Unit}
    (hT : T t = .op (.gpioWrite (L t).turn on) k)
    (hone : on = true → ∀ p, (L t).written p ≠ some true)
    (hrest : relayDiscipline.Follows (k ()) (fun _ l => l = .rest) ((L t).wrote on))
    (hclear : on = true → ∀ p ∈ relays, p ≠ (L t).turn → (L t).written p = some false →
      g p = true → ∃ u, Parts (L u) (T u) (L t).turn p) :
    Parted (Function.update L t ((L t).wrote on)) (Function.update T t (k ()))
      (Function.update g (L t).turn on) := by
  have hkept : ∀ {p q}, ¬ ((L t).turn = p ∧ on = false) → ¬ ((L t).turn = q ∧ on = false) →
      (∃ u, Parts (L u) (T u) p q) →
      ∃ u, Parts (Function.update L t ((L t).wrote on) u) (Function.update T t (k ()) u) p q := by
    rintro p q hp hq ⟨u, hu⟩
    refine ⟨u, ?_⟩
    by_cases hut : u = t
    · subst hut
      rw [hT] at hu
      rw [Function.update_self, Function.update_self]
      exact hu.wrote hp hq
    · rwa [Function.update_of_ne hut, Function.update_of_ne hut]
  -- a relay that was on beside the one now switched on
  have hbeside : on = true → ∀ q ∈ relays, q ≠ (L t).turn → g q = true →
      ∃ u, Parts (Function.update L t ((L t).wrote on) u) (Function.update T t (k ()) u)
        (L t).turn q := by
    rintro rfl q hq hne hq1
    rcases hw : (L t).written q with _ | _ | _
    · refine ⟨t, ?_⟩
      rw [Function.update_self, Function.update_self]
      exact .inr (clearsPin_wrote hq hne hw hrest)
    · exact hkept (fun h => nomatch h.2) (fun h => nomatch h.2) (hclear rfl q hq hne hw hq1)
    · exact absurd hw (hone rfl q)
  intro p hp q hq hne hp1 hq1
  by_cases hpt : p = (L t).turn
  · subst hpt
    rw [Function.update_self] at hp1
    rw [Function.update_of_ne hne.symm] at hq1
    exact hbeside hp1 q hq hne.symm hq1
  · rw [Function.update_of_ne hpt] at hp1
    by_cases hqt : q = (L t).turn
    · subst hqt
      rw [Function.update_self] at hq1
      obtain ⟨u, hu⟩ := hbeside hq1 p hp hpt hp1
      exact ⟨u, hu.symm⟩
    · rw [Function.update_of_ne hqt] at hq1
      exact hkept (fun h => hpt h.1.symm) (fun h => hqt h.1.symm) (h p hp q hq hne hp1 hq1)

/-- One step of a thread that writes no relay. -/
theorem Parted.other (h : Parted L T g) {t : Nat} (hl : L t = .rest) (rest : Code Unit)
    {g' : Pin → Bool} (hg : ∀ p ∈ relays, g' p = g p) : Parted L (Function.update T t rest) g' := by
  intro p hp q hq hne hp1 hq1
  rw [hg p hp] at hp1
  rw [hg q hq] at hq1
  obtain ⟨u, hu⟩ := h p hp q hq hne hp1 hq1
  have hut : u ≠ t := by
    rintro rfl
    rw [hl] at hu
    exact not_parts_rest hu
  exact ⟨u, by rwa [Function.update_of_ne hut]⟩

end Parting

theorem Op.Relayless.gpio {o : Op} (h : o.Relayless) (t : Nat) (s : Board) {q : Pin}
    (hq : q ∈ relays) : (Board.exec t o s).2.gpio q = s.gpio q := by
  cases o with
  | gpioWrite p on =>
      refine Function.update_of_ne ?_ _ _
      rintro rfl
      exact h hq
  | _ => rfl

/-- Whatever the condition, the threads keep to it. -/
theorem motorRun_follows {P : StepCond Op Ar Board Empty} {s : Board} {calls : Nat → List MotorCall}
    {tr : List (Label Op Ar Empty)} {c : Config Op Ar Board}
    (h : Run system P ⟨s, motorThreads calls⟩ tr c) (t : Nat) :
    relayDiscipline.Follows (c.threads t) (fun _ l => l = .rest) (switching tr t) := by
  have hfollows : ∀ t, relayDiscipline.Follows
      ((⟨s, motorThreads calls⟩ : Config Op Ar Board).threads t) (fun _ l => l = .rest)
      ((fun _ => Switching.rest) t) := motorThreads_switch calls
  exact (Run.keeps relayDiscipline hfollows (I := fun _ _ => True) trivial
    (fun _ _ _ _ _ _ _ _ => ⟨trivial, trivial⟩) (fun _ _ e => nomatch e) h).2 t

/-- A thread that has made all its calls is at rest. -/
theorem motorRun_finished {P : StepCond Op Ar Board Empty} {s : Board}
    {calls : Nat → List MotorCall} {tr : List (Label Op Ar Empty)} {c : Config Op Ar Board}
    (h : Run system P ⟨s, motorThreads calls⟩ tr c) {t : Nat} (hfinished : c.threads t = .ret ()) :
    switching tr t = .rest := by
  have ht := motorRun_follows h t
  rw [hfinished] at ht
  exact (relayDiscipline.follows_ret () (fun _ l => l = .rest) _).mp ht

/-- Every two relays that are on together, some thread is about to part, in every
state reached. -/
theorem motorRun_parted {s : Board} (h0 : AtMostOne s.gpio) {calls : Nat → List MotorCall}
    {tr : List (Label Op Ar Empty)} {c : Config Op Ar Board}
    (h : Run system (BreaksFirst calls) ⟨s, motorThreads calls⟩ tr c) :
    Parted (switching tr) c.threads c.state.gpio := by
  induction h with
  | start => exact fun p hp q hq hne hp1 hq1 => absurd (h0 p hp q hq hp1 hq1) hne
  | @op tr s T t o k hrun hnext _ hcond ih =>
      have hfollows : relayDiscipline.Follows (T t) (fun _ l => l = .rest) (switching tr t) :=
        motorRun_follows hrun t
      rw [hnext, Discipline.follows_op] at hfollows
      obtain ⟨hok, hk⟩ := hfollows
      have hsnoc : switching (tr ++ [.op t o (Board.exec t o s).1]) =
          Function.update (switching tr) t
            (relayDiscipline.next (switching tr t) o (Board.exec t o s).1) :=
        relayDiscipline.locals_snoc_op _ tr t o _
      rw [hsnoc]
      by_cases ho : o.Relayless
      · have hidle : switching tr t = .rest := by
          cases o with
          | gpioWrite p on => exact (hok.2 ho).eq_rest
          | _ => exact Switching.Idle.eq_rest hok
        rw [hidle, ho.keeps.2, ← hidle, Function.update_eq_self]
        exact ih.other hidle _ fun q hq => ho.gpio t s hq
      · obtain ⟨p, on, rfl, hp⟩ : ∃ p on, o = .gpioWrite p on ∧ p ∈ relays := by
          cases o with
          | gpioWrite p on => exact ⟨p, on, rfl, not_not.mp ho⟩
          | _ => exact absurd trivial ho
        obtain ⟨rfl, hone⟩ := hok.1 hp
        have hwrote : relayDiscipline.next (switching tr t)
            (.gpioWrite (switching tr t).turn on) () = (switching tr t).wrote on := if_pos hp
        have hrest := hk () trivial
        rw [hwrote] at hrest
        refine (congrArg (fun l => Parted (Function.update (switching tr) t l) _ _) hwrote).mpr
          (ih.write hnext hone hrest ?_)
        rintro rfl q hq hne hw hq1
        obtain ⟨u, rest, hplays, hparts⟩ := hcond q hq hne hw hq1
        refine ⟨u, ?_⟩
        rwa [(hrun.plays u).unique hplays]
  | @env tr s T e _ _ _ _ => exact nomatch e

/-- **When the relays at rest are at most one**, whatever calls the threads make
and however they interleave. -/
theorem relays_at_rest {s : Board} (h0 : AtMostOne s.gpio) {calls : Nat → List MotorCall}
    {tr : List (Label Op Ar Empty)} {c : Config Op Ar Board}
    (h : Run system (BreaksFirst calls) ⟨s, motorThreads calls⟩ tr c) (hrest : AtRest tr) :
    AtMostOne c.state.gpio :=
  (motorRun_parted h0 h).atMostOne hrest

/-- The control pass sets one speed, a command another. -/
def twoSpeeds (pass command : UInt8) (t : Nat) : List MotorCall :=
  if t = monitorThread then [.control (.aircleanMotorSet pass)]
  else if t = commandThread then [.control (.setDeviceWorkMode 0x07 command 0)]
  else []

theorem motorRun_twoSpeeds {s : Board} {pass command : UInt8} {tr : List (Label Op Ar Empty)}
    {c : Config Op Ar Board}
    (h : Run system anyStep ⟨s, motorThreads (twoSpeeds pass command)⟩ tr c)
    (hpass : (c.threads monitorThread).finished = true)
    (hcommand : (c.threads commandThread).finished = true) (t : Nat) : c.threads t = .ret () := by
  by_cases hm : t = monitorThread
  · rw [hm]
    exact eq_ret_of_finished hpass
  · by_cases hc : t = commandThread
    · rw [hc]
      exact eq_ret_of_finished hcommand
    · have hidle : (motorThreads (twoSpeeds pass command) t).Only fun _ => False := by
        rw [motorThreads, twoSpeeds, if_neg hm, if_neg hc]
        exact .ret ()
      have hrest := h.only (t := t) hidle
      cases hp : c.threads t with
      | ret u => rfl
      | op o k =>
          rw [hp] at hrest
          exact absurd ((Prog.only_op ..).mp hrest).1 id

/-- Stricter than `BreaksFirst`, and decidable. -/
def breaksFirst (tr : List (Label Op Ar Empty)) (s : Board) : Label Op Ar Empty → Bool
  | .op t (.gpioWrite q true) _ => relays.all fun p =>
      decide (p ≠ q → (switching tr t).written p = some false → s.gpio p = false)
  | _ => true

theorem breaksFirst_of {calls : Nat → List MotorCall} {tr : List (Label Op Ar Empty)} {s : Board}
    {l : Label Op Ar Empty} (h : breaksFirst tr s l = true) : BreaksFirst calls tr s l := by
  unfold BreaksFirst
  split
  · intro p hp hne hw hp1
    have hoff := of_decide_eq_true (List.all_eq_true.mp h p hp) hne hw
    rw [hoff] at hp1
    cases hp1
  · trivial

/-- Speed 3 within the change to speed 2. -/
theorem relays_at_rest_mixed : ∃ tr c,
    Run system (BreaksFirst (twoSpeeds 3 2)) ⟨Board.manualFan, motorThreads (twoSpeeds 3 2)⟩ tr c ∧
      (∀ t, c.threads t = .ret ()) ∧ AtMostOne c.state.gpio := by
  obtain ⟨tr, c, hrun, hdone⟩ := exists_run_of_endsWith system breaksFirst
    (List.replicate 70 (.thread commandThread) ++ List.replicate 19 (.thread monitorThread) ++
      List.replicate 16 (.thread commandThread))
    ⟨Board.manualFan, motorThreads (twoSpeeds 3 2)⟩
    (fun _ c => (c.threads monitorThread).finished && (c.threads commandThread).finished)
    (by decide +kernel)
  rw [Bool.and_eq_true] at hdone
  have hrun' : Run system (BreaksFirst (twoSpeeds 3 2)) _ tr c :=
    hrun.mono fun _ _ _ h => breaksFirst_of h
  have hret := motorRun_twoSpeeds hrun.any hdone.1 hdone.2
  exact ⟨tr, c, hrun', hret,
    relays_at_rest (by decide) hrun' fun t => motorRun_finished hrun' (hret t)⟩

/-- Speed 1 within the change to speed 2: both are left on. -/
theorem relays_at_rest_counterexample : AtMostOne Board.manualFan.gpio ∧ ∃ tr c,
    Run system anyStep ⟨Board.manualFan, motorThreads (twoSpeeds 1 2)⟩ tr c ∧
      (∀ t, c.threads t = .ret ()) ∧ ¬ AtMostOne c.state.gpio := by
  refine ⟨by decide, ?_⟩
  obtain ⟨tr, c, hrun, hdone⟩ := exists_run_of_endsWith system (fun _ _ _ => true)
    (List.replicate 71 (.thread commandThread) ++ List.replicate 19 (.thread monitorThread) ++
      List.replicate 15 (.thread commandThread))
    ⟨Board.manualFan, motorThreads (twoSpeeds 1 2)⟩
    (fun _ c => ((c.threads monitorThread).finished && (c.threads commandThread).finished) &&
      !decide (AtMostOne c.state.gpio)) (by decide +kernel)
  rw [Bool.and_eq_true, Bool.and_eq_true] at hdone
  refine ⟨tr, c, hrun.any, motorRun_twoSpeeds hrun.any hdone.1.1 hdone.1.2, fun h => ?_⟩
  rw [decide_eq_true h] at hdone
  exact absurd hdone.2 (by decide)

end Aclean
