import Aclean.Record

/-!
# Switching on what is on

The power-on command reloads the record, clears the fault byte and drives the
outputs from the settings, whether or not the device is on. It is idempotent in
the sense that the second of two changes nothing; and it changes nothing at all
exactly where that is what it would have made of the board.
-/

namespace Aclean

open Board Prog

/-! ## The command -/

/-- The record, if there is one, the fault byte and the outputs are as power-on
leaves them. -/
structure Board.Settled (s : Board) : Prop where
  record : s.HasRecord → ∀ i, i ≠ 0 → i < 6 → s.flash (sysParaStartAddr + i) = s.mem (work i)
  fault : s.mem (work Field.faultState) = 0
  pins : s.gpio = outputs (s.mem (work Field.highPressurState)) (s.mem (work Field.phtWorkState))
    (s.mem (work Field.windSpeedState))

/-- Settings, fault byte and outputs are the same. -/
structure SameState (s s' : Board) : Prop where
  settings : s'.settings = s.settings
  fault : s'.mem (work Field.faultState) = s.mem (work Field.faultState)
  pins : s'.gpio = s.gpio

theorem settings_eq_iff (s s' : Board) :
    s'.settings = s.settings ↔ ∀ i < 6, s'.mem (work i) = s.mem (work i) := by
  constructor
  · intro h i hi
    have hcases : i = 0 ∨ i = 1 ∨ i = 2 ∨ i = 3 ∨ i = 4 ∨ i = 5 := by omega
    rcases hcases with rfl | rfl | rfl | rfl | rfl | rfl
    · exact congrArg Settings.devicePowerState h
    · exact congrArg Settings.deviceMode h
    · exact congrArg Settings.windSpeedState h
    · exact congrArg Settings.highPressurState h
    · exact congrArg Settings.phtWorkState h
    · exact congrArg Settings.timingState h
  · intro h
    simp only [Board.settings, h 0 (by decide), h 1 (by decide), h 2 (by decide), h 3 (by decide),
      h 4 (by decide), h 5 (by decide)]

/-- The board after the power-on command. -/
def switchedOn (t : Nat) (data : UInt8) (s : Board) : Board :=
  ((setDeviceWorkMode exchange 0x02 data 0).run machine t s).2

theorem run_plain_gpio {α : Type} {p : Code α} (h : p.Only Op.Plain) (t : Nat) (s : Board) :
    (p.run machine t s).2.gpio = s.gpio := by
  induction h generalizing s with
  | ret a => rfl
  | @op o _ ho _ ih =>
      refine (ih _ _).trans ?_
      cases o with
      | gpioWrite p on => exact absurd ho id
      | _ => rfl

/-- Whether or not it saves, the closing loop leaves memory and pins alone. -/
theorem saveIfChanged_mem (t : Nat) (s : Board) : (saveIfChanged.run machine t s).2.mem = s.mem := by
  rw [run_saveIfChanged]
  split
  · exact (run_deviceSysParaSave t s).1
  · rfl

/-- What the command makes of a board. -/
structure SwitchedOn (s s' : Board) : Prop where
  power : s'.mem (work Field.devicePowerState) = 1
  bytes : ∀ i, i ≠ 0 → i < 6 → s'.mem (work i) = s.recalled i
  fault : s'.mem (work Field.faultState) = 0
  pins : s'.gpio = outputs (s.recalled Field.highPressurState) (s.recalled Field.phtWorkState)
    (s.recalled Field.windSpeedState)
  record : s'.HasRecord → ∀ i, i ≠ 0 → i < 6 → s'.flash (sysParaStartAddr + i) = s'.mem (work i)

theorem run_commandSwitch_on (t : Nat) {data : UInt8} (hdata : data ≠ 0) (s : Board) :
    (commandSwitch 0x02 data).run machine t s =
      (true, (s.set (work Field.devicePowerState) 1).poweredOn) := by
  rw [commandSwitch, if_pos rfl, if_pos hdata, run_bind]
  simp only [store, op_bind, ret_bind, run_op, run_aircleanPowerOnoff_on]
  rfl

/-- The board that the backup leaves, behind the note of the call. -/
def backedUp (t : Nat) (data : UInt8) (s : Board) : Board :=
  (backupWorkData.run machine t { s with log := s.log ++ [.setDeviceWorkMode 0x02 data 0] }).2

theorem switchedOn_eq (t : Nat) {data : UInt8} (hdata : data ≠ 0) (s : Board) : switchedOn t data s =
    (saveIfChanged.run machine t ((backedUp t data s).set (work Field.devicePowerState) 1).poweredOn).2 := by
  rw [switchedOn, setDeviceWorkMode]
  simp only [note, op_bind, ret_bind, run_op]
  rw [if_neg (by decide), applyCommand, run_bind, run_bind, run_commandSwitch_on t hdata, run_ite,
    if_pos rfl, run_bind, run_when, if_neg (by decide)]
  rfl

theorem backedUp_work (t : Nat) (data : UInt8) (s : Board) (i : Nat) :
    (backedUp t data s).mem (work i) = s.mem (work i) := by
  rw [backedUp, run_backupWorkData_mem t _ (by rintro j ⟨⟩)]

theorem backedUp_flash (t : Nat) (data : UInt8) (s : Board) : (backedUp t data s).flash = s.flash := by
  rw [backedUp, run_local_flash backupWorkData_local t]

/-- What the reload finds is what it would have found before the call. -/
theorem backedUp_recalled (t : Nat) (data : UInt8) (s : Board) {i : Nat} (h : i ≠ 0) :
    ((backedUp t data s).set (work Field.devicePowerState) 1).recalled i = s.recalled i := by
  have hrecord : ((backedUp t data s).set (work Field.devicePowerState) 1).HasRecord ↔ s.HasRecord := by
    rw [Board.HasRecord, set_flash, backedUp_flash, Board.HasRecord]
  have hne : work i ≠ work Field.devicePowerState := fun heq => h (Addr.deviceWorkData.inj heq)
  unfold Board.recalled
  by_cases hs : s.HasRecord
  · rw [if_pos hs, if_pos (hrecord.mpr hs), set_flash, backedUp_flash]
  · rw [if_neg hs, if_neg fun h' => hs (hrecord.mp h'), set_mem, if_neg hne, backedUp_work]

theorem switchedOn_spec (t : Nat) {data : UInt8} (hdata : data ≠ 0) (s : Board) :
    SwitchedOn s (switchedOn t data s) := by
  have hrecalled := fun i h => backedUp_recalled t data s (i := i) h
  have hflash : ((backedUp t data s).set (work Field.devicePowerState) 1).flash = s.flash := by
    rw [set_flash, backedUp_flash]
  rw [switchedOn_eq t hdata]
  generalize (backedUp t data s).set (work Field.devicePowerState) 1 = b at hrecalled hflash
  have hmem := saveIfChanged_mem t b.poweredOn
  have hbytes : ∀ i, i ≠ 0 → i < 6 →
      (saveIfChanged.run machine t b.poweredOn).2.mem (work i) = s.recalled i := by
    intro i h0 h6
    rw [hmem, poweredOn_work b h0 h6, hrecalled i h0]
  refine ⟨?_, hbytes, ?_, ?_, ?_⟩
  · rw [hmem, poweredOn_power]
  · rw [hmem, poweredOn_fault]
  · rw [run_plain_gpio saveIfChanged_plain, Board.poweredOn, hrecalled _ (by decide),
      hrecalled _ (by decide), hrecalled _ (by decide)]
  · intro hrecord i h0 h6
    have hb := hbytes i h0 h6
    rw [run_saveIfChanged] at hrecord hb ⊢
    by_cases hdiffers : b.poweredOn.Differs
    · rw [if_pos hdiffers]
      exact (run_deviceSysParaSave_saved t b.poweredOn).2 i h6
    · -- nothing to save: what there is in flash is what was reloaded
      rw [if_neg hdiffers] at hrecord hb ⊢
      have hs : s.HasRecord := by
        rwa [Board.HasRecord, poweredOn_flash, hflash] at hrecord
      rw [hb, poweredOn_flash, hflash, Board.recalled, if_pos hs]

/-! ## What it changes -/

/-- It ends in a settled state. -/
theorem SwitchedOn.settled {s s' : Board} (h : SwitchedOn s s') : s'.Settled := by
  refine ⟨h.record, h.fault, ?_⟩
  rw [h.pins, h.bytes _ (by decide) (by decide), h.bytes _ (by decide) (by decide),
    h.bytes _ (by decide) (by decide)]

/-- A device that is on does not notice if it was in one. -/
theorem sameState_iff {s s' : Board} (hon : s.mem (work Field.devicePowerState) = 1)
    (h : SwitchedOn s s') : SameState s s' ↔ s.Settled := by
  constructor
  · rintro ⟨hsettings, hfault, hpins⟩
    rw [settings_eq_iff] at hsettings
    have hrecalled : ∀ i, i ≠ 0 → i < 6 → s.recalled i = s.mem (work i) := by
      intro i h0 h6
      rw [← h.bytes i h0 h6, hsettings i h6]
    refine ⟨fun hrecord i h0 h6 => ?_, hfault.symm.trans h.fault, ?_⟩
    · rw [← hrecalled i h0 h6, Board.recalled, if_pos hrecord]
    · rw [← hpins, h.pins, hrecalled _ (by decide) (by decide), hrecalled _ (by decide) (by decide),
        hrecalled _ (by decide) (by decide)]
  · rintro ⟨hrecord, hfault, hpins⟩
    have hrecalled : ∀ i, i ≠ 0 → i < 6 → s.recalled i = s.mem (work i) := by
      intro i h0 h6
      unfold Board.recalled
      split
      · next hs => exact hrecord hs i h0 h6
      · rfl
    refine ⟨(settings_eq_iff s s').mpr fun i h6 => ?_, h.fault.trans hfault.symm, ?_⟩
    · rcases Nat.eq_zero_or_pos i with rfl | hpos
      · exact h.power.trans hon.symm
      · rw [h.bytes i (Nat.ne_of_gt hpos) h6, hrecalled i (Nat.ne_of_gt hpos) h6]
    · rw [h.pins, hpins, hrecalled _ (by decide) (by decide), hrecalled _ (by decide) (by decide),
        hrecalled _ (by decide) (by decide)]

/-- **Power-on is idempotent.** It leaves settings, fault byte and outputs of a
device that is on as they were if and only if they are as power-on leaves them;
and a second one changes nothing. -/
theorem power_on_idempotent (t : Nat) {data : UInt8} (hdata : data ≠ 0) {s : Board}
    (hon : s.mem (work Field.devicePowerState) = 1) :
    (SameState s (switchedOn t data s) ↔ s.Settled) ∧
      SameState (switchedOn t data s) (switchedOn t data (switchedOn t data s)) := by
  have hspec := switchedOn_spec t hdata
  refine ⟨sameState_iff hon (hspec s), ?_⟩
  exact (sameState_iff (hspec s).power (hspec _)).mpr (hspec s).settled

theorem power_on_idempotent_manual :
    (SameState Board.manual (switchedOn 0 1 Board.manual) ↔ Board.manual.Settled) ∧
      SameState (switchedOn 0 1 Board.manual) (switchedOn 0 1 (switchedOn 0 1 Board.manual)) :=
  power_on_idempotent 0 (by decide) (by decide)

/-- The boards that runs of commands and of control, timer and fault passes reach
from a start. In between readings, input pins and replies may change. -/
inductive Worked : Board → Prop where
  | start {s : Board} (t : Nat) : Worked (restarted t s)
  | command {s : Board} (type data signalCh : UInt8) (t : Nat) (h : Worked s) :
      Worked ((setDeviceWorkMode exchange type data signalCh).run machine t s).2
  | pass {s : Board} (t : Nat) (h : Worked s) : Worked (s.passed t)
  | timer {s : Board} (dCmdPower : UInt8) (t : Nat) (h : Worked s) :
      Worked ((threadEntryPowerMonitor exchange dCmdPower).run machine t s).2
  | faults {s : Board} (t : Nat) (h : Worked s) : Worked ((rtCheckExDevice exchange).run machine t s).2
  | others {s s' : Board} (h : Worked s) (hsettings : s'.settings = s.settings)
      (hfault : s'.mem (work Field.faultState) = s.mem (work Field.faultState))
      (hflash : s'.flash = s.flash) (hpins : s'.gpio = s.gpio) (htimer : s'.timer = s.timer) : Worked s'

theorem Worked.reading {s : Board} (h : Worked s) (v : UInt8) : Worked (s.set (work 7) v) := by
  refine h.others ?_ ?_ rfl rfl ?_
  · simp [Board.settings]
  · simp
  · simp [Board.timer]

/-- A blank chip, automatic mode, then polluted air: the pass stores speed 3, and
the record still says 0. -/
def staleBoard : Board :=
  (((setDeviceWorkMode exchange 0x03 1 0).run machine 0
    (restarted 0 Board.reset)).2.set (work 7) 140).passed 0

theorem power_on_counterexample :
    Worked staleBoard ∧ staleBoard.mem (work Field.devicePowerState) = 1 ∧
      ¬ SameState staleBoard (switchedOn 0 1 staleBoard) := by
  refine ⟨?_, by decide +kernel, fun h => ?_⟩
  · unfold staleBoard
    exact .pass 0 (.reading (.command 0x03 1 0 0 (.start 0)) 140)
  · exact absurd (congrArg Settings.windSpeedState h.settings) (by decide +kernel)

end Aclean
