import Aclean.SettingsRange
import Aclean.ControlPass

/-!
# The settings record

Flash keeps one record of the six setting bytes and a flag that says whether
there is one. Reloading, switching on, saving and restarting are each stated as
a function of memory and flash; what survives a restart, a power cut and a
command is read off these.
-/

namespace Aclean

open Board Prog

/-! ## Reloading -/

/-- Flash holds a record. -/
def Board.HasRecord (s : Board) : Prop := s.flash sysParaFlagAddr = 0x86

instance (s : Board) : Decidable s.HasRecord := inferInstanceAs (Decidable (_ = _))

/-- Memory with the first `n` setting bytes taken from the record. -/
def Board.recordMem (s : Board) (n : Nat) : Addr → UInt8
  | .deviceWorkData i => if i < n then s.flash (sysParaStartAddr + i) else s.mem (work i)
  | a => s.mem a

theorem recordMem_zero (s : Board) : s.recordMem 0 = s.mem := by
  funext a
  cases a <;> simp [Board.recordMem]

theorem recordMem_succ (s : Board) (n : Nat) : s.recordMem (n + 1) =
    Function.update (s.recordMem n) (work n) (s.flash (sysParaStartAddr + n)) := by
  funext a
  cases a with
  | deviceWorkData i =>
      rw [Function.update_apply]
      by_cases hi : i = n
      · subst hi
        simp [Board.recordMem]
      · have hlt : i < n + 1 ↔ i < n := by omega
        simp [Board.recordMem, hi, hlt]
  | _ => simp [Board.recordMem]

theorem run_takeRecord (t : Nat) (s : Board) (n : Nat) :
    ((Prog.forUpTo n fun i => do
      let b ← flashRead (sysParaStartAddr + i)
      store (work i) b).run machine t s).2 = { s with mem := s.recordMem n } := by
  induction n with
  | zero => exact congrArg (fun m => { s with mem := m }) (recordMem_zero s).symm
  | succ n ih =>
      rw [run_forUpTo_succ, ih, recordMem_succ]
      rfl

/-- The board after `device_sys_para_get`. -/
def Board.reloaded (s : Board) : Board :=
  (if s.HasRecord then { s with mem := s.recordMem 6 } else s).set (work Field.faultState) 0

theorem run_deviceSysParaGet (t : Nat) (s : Board) :
    (deviceSysParaGet.run machine t s).2 = s.reloaded := by
  have hloop := run_takeRecord t s 6
  simp only [deviceSysParaGet, flashRead, store, op_bind, ret_bind, run_op, run_bind, run_when] at hloop ⊢
  rw [Board.reloaded]
  by_cases h : s.HasRecord
  · rw [if_pos h, if_pos (show s.flash sysParaFlagAddr = 0x86 from h), hloop]
    rfl
  · rw [if_neg h, if_neg (show ¬ s.flash sysParaFlagAddr = 0x86 from h)]
    rfl

/-- Byte `i` of the settings as a reload leaves it. -/
def Board.recalled (s : Board) (i : Nat) : UInt8 :=
  if s.HasRecord then s.flash (sysParaStartAddr + i) else s.mem (work i)

theorem reloaded_work (s : Board) {i : Nat} (h : i < 6) : s.reloaded.mem (work i) = s.recalled i := by
  have hne : i ≠ 26 := by omega
  unfold Board.reloaded Board.recalled
  split
  · simp [Board.recordMem, h, hne]
  · simp [hne]

theorem reloaded_fault (s : Board) : s.reloaded.mem (work Field.faultState) = 0 := by
  simp [Board.reloaded]

theorem reloaded_flash (s : Board) : s.reloaded.flash = s.flash := by
  unfold Board.reloaded
  split <;> rfl

/-! ## Switching on -/

/-- The board after `airclean_power_onoff(1)`. -/
def Board.poweredOn (s : Board) : Board :=
  { s.reloaded.set (work Field.devicePowerState) 1 with
    gpio := outputs (s.recalled Field.highPressurState) (s.recalled Field.phtWorkState)
      (s.recalled Field.windSpeedState) }

theorem run_aircleanPowerOnoff_on (t : Nat) (s : Board) :
    ((aircleanPowerOnoff 1).run machine t s).2 = s.poweredOn := by
  have hpins := relaysSet_update (s.recalled Field.highPressurState) (s.recalled Field.phtWorkState)
    (s.recalled Field.windSpeedState) s.reloaded.gpio
  rw [aircleanPowerOnoff, if_neg (by decide), if_pos (by decide)]
  simp only [load, store, acEsdSet, acPhtSet, gpioWrite, op_bind, ret_bind, run_op, run_bind,
    run_deviceSysParaGet, run_acAcMotorSet, reloaded_work s (show Field.highPressurState < 6 by decide),
    reloaded_work s (show Field.phtWorkState < 6 by decide),
    reloaded_work s (show Field.windSpeedState < 6 by decide), hpins]
  rfl

theorem poweredOn_work (s : Board) {i : Nat} (h0 : i ≠ 0) (h6 : i < 6) :
    s.poweredOn.mem (work i) = s.recalled i := by
  rw [Board.poweredOn, set_mem, if_neg (by simpa using h0), reloaded_work s h6]

theorem poweredOn_power (s : Board) : s.poweredOn.mem (work Field.devicePowerState) = 1 := by
  simp [Board.poweredOn]

theorem poweredOn_fault (s : Board) : s.poweredOn.mem (work Field.faultState) = 0 := by
  rw [Board.poweredOn, set_mem, if_neg (by decide), reloaded_fault]

theorem poweredOn_flash (s : Board) : s.poweredOn.flash = s.flash := reloaded_flash s

/-! ## Restarting -/

/-- All settings read 0, and flash is `f`. -/
structure Cleared (f : Nat → UInt8) (s : Board) : Prop where
  work : ∀ i, s.mem (work i) = 0
  flash : s.flash = f

/-- The restart clears what is clear already, reloads, and switches on. -/
theorem deviceStateInit_eq (t : Nat) {f : Nat → UInt8} {s : Board} (h : Cleared f s) :
    ∃ b, Cleared f b ∧ (deviceStateInit.run machine t s).2 = b.reloaded.poweredOn := by
  have hkeeps : Prog.Keeps machine (Cleared f)
      (Prog.forUpTo paraTypeSize fun i => store (work i) 0) fun _ => True := by
    refine .of_only (P := fun o => ∃ i, o = .store (work i) 0) ?_ ?_
    · exact .forUpTo fun i _ => .op ⟨i, rfl⟩ fun _ => .ret ()
    · rintro o ⟨i, rfl⟩ u b hb
      refine ⟨fun j => ?_, hb.flash⟩
      show (b.set (Aclean.work i) 0).mem (Aclean.work j) = 0
      rw [set_mem]
      split
      · rfl
      · exact hb.work j
  obtain ⟨hcleared, -⟩ := hkeeps t s h
  refine ⟨_, hcleared, ?_⟩
  rw [deviceStateInit, run_bind, run_bind, run_deviceSysParaGet, run_aircleanPowerOnoff_on]

theorem rebooted_eq (t : Nat) (s : Board) :
    ∃ b, Cleared s.flash b ∧ rebooted t s = b.reloaded.poweredOn :=
  deviceStateInit_eq t ⟨fun _ => rfl, rfl⟩

/-- Byte `i` of the settings after a restart with this flash. -/
def Board.restored (s : Board) (i : Nat) : UInt8 :=
  if s.HasRecord then s.flash (sysParaStartAddr + i) else 0

theorem restored_of_flag {s : Board} {f : Nat → UInt8} (hf : s.flash = f) (h : f sysParaFlagAddr = 0x86)
    (i : Nat) : s.restored i = f (sysParaStartAddr + i) := by
  subst hf
  exact if_pos h

theorem restored_of_no_flag {s : Board} {f : Nat → UInt8} (hf : s.flash = f)
    (h : f sysParaFlagAddr ≠ 0x86) (i : Nat) : s.restored i = 0 := by
  subst hf
  exact if_neg h

/-- A restart is on, and brings back the record or the defaults. -/
theorem rebooted_settings (t : Nat) (s : Board) :
    (rebooted t s).mem (work Field.devicePowerState) = 1 ∧
      ∀ i, i ≠ 0 → i < 6 → (rebooted t s).mem (work i) = s.restored i := by
  obtain ⟨b, hb, hrun⟩ := rebooted_eq t s
  rw [hrun]
  refine ⟨poweredOn_power _, fun i h0 h6 => ?_⟩
  have hrecord : b.HasRecord ↔ s.HasRecord := by rw [Board.HasRecord, Board.HasRecord, hb.flash]
  have hrecord' : b.reloaded.HasRecord ↔ s.HasRecord := by
    rw [Board.HasRecord, reloaded_flash, hb.flash, Board.HasRecord]
  rw [poweredOn_work _ h0 h6, Board.recalled, reloaded_work b h6, Board.recalled, reloaded_flash, hb.flash,
    hb.work, Board.restored]
  by_cases h : s.HasRecord
  · rw [if_pos (hrecord'.mpr h), if_pos h]
  · rw [if_neg (fun h' => h (hrecord'.mp h')), if_neg (fun h' => h (hrecord.mp h')), if_neg h]

/-! ## A power cut during a save -/

/-- Flash when only the flag has been written. -/
def flagWritten (f : Nat → UInt8) : Nat → UInt8 := fun i => if i = sysParaFlagAddr then 0x86 else f i

theorem exec_flagWrite (t : Nat) (s : Board) :
    (Board.exec t (.flashWrite sysParaFlagAddr [0x86]) s).2.flash = flagWritten s.flash := by
  funext i
  by_cases hi : i = sysParaFlagAddr
  · subst hi
    simp [flagWritten, sysParaFlagAddr]
  · have hout : ¬ (sysParaFlagAddr ≤ i ∧ i < sysParaFlagAddr + 1) := by omega
    simp only [List.length_singleton, if_neg hout, flagWritten, if_neg hi]

/-- The bytes on their way from RAM to flash. -/
def collectSettings : Code (List UInt8) :=
  Prog.foldUpTo (fun i data => do
    let b ← load (work i)
    pure (data ++ [b])) 6 []

theorem collectSettings_length (t : Nat) (s : Board) :
    (collectSettings.trace machine t s).length = 6 := rfl

theorem deviceSysParaSave_eq : deviceSysParaSave =
    .op (.flashWrite sysParaFlagAddr [0x86]) fun _ =>
      collectSettings >>= fun data => flashWrite sysParaStartAddr data := rfl

/-- What is left in flash when the save is cut off behind `n` operations: the
write of the flag is the first of them, the write of the data the eighth. -/
theorem cut_flash (t n : Nat) (s : Board) :
    (n = 0 → (deviceSysParaSave.runFor machine t n s).flash = s.flash) ∧
      (1 ≤ n → n < 8 → (deviceSysParaSave.runFor machine t n s).flash = flagWritten s.flash) ∧
      (8 ≤ n → (deviceSysParaSave.runFor machine t n s).flash =
        (deviceSysParaSave.run machine t s).2.flash) := by
  refine ⟨?_, ?_, ?_⟩
  · rintro rfl
    rw [runFor_zero]
  · intro h1 h8
    obtain ⟨m, rfl⟩ : ∃ m, n = m + 1 := ⟨n - 1, by omega⟩
    have hloads : collectSettings.Only fun o => ∃ a, o = .load a :=
      .foldUpTo fun i data _ => by simp
    rw [deviceSysParaSave_eq, runFor_op, runFor_bind_of_le _ _ (by rw [collectSettings_length]; omega)]
    refine hloads.runFor machine t (I := fun b => b.flash = flagWritten s.flash) ?_ ?_ m
    · rintro o ⟨a, rfl⟩ b hb
      exact hb
    · exact exec_flagWrite t s
  · intro h8
    rw [runFor_of_length_le]
    exact h8

/-- After the restart the settings are the defaults, the record as it was before
the save, or what was to be saved. -/
def Recovered (s b : Board) : Prop :=
  (∀ i, i ≠ 0 → i < 6 → b.mem (work i) = 0) ∨
    s.HasRecord ∧ (∀ i, i ≠ 0 → i < 6 → b.mem (work i) = s.flash (sysParaStartAddr + i)) ∨
    ∀ i, i ≠ 0 → i < 6 → b.mem (work i) = s.mem (work i)

/-- **When a power cut leaves no garbage.** -/
theorem power_cut_iff (t t' n : Nat) (s : Board) :
    Recovered s (rebooted t' (deviceSysParaSave.runFor machine t n s)) ↔
      s.HasRecord ∨ n = 0 ∨ 8 ≤ n ∨
        (∀ i, i ≠ 0 → i < 6 → s.flash (sysParaStartAddr + i) = 0) ∨
        ∀ i, i ≠ 0 → i < 6 → s.flash (sysParaStartAddr + i) = s.mem (work i) := by
  obtain ⟨hbefore, hbetween, hafter⟩ := cut_flash t n s
  obtain ⟨-, hflag, hsaved⟩ := run_deviceSysParaSave t s
  obtain ⟨-, hrestored⟩ := rebooted_settings t' (deviceSysParaSave.runFor machine t n s)
  generalize rebooted t' (deviceSysParaSave.runFor machine t n s) = b' at hrestored ⊢
  generalize deviceSysParaSave.runFor machine t n s = b at hbefore hbetween hafter hrestored
  rcases Nat.eq_zero_or_pos n with h0 | h1
  · -- nothing was written
    refine iff_of_true ?_ (.inr (.inl h0))
    by_cases hrecord : s.HasRecord
    · refine .inr (.inl ⟨hrecord, fun i hi h6 => ?_⟩)
      rw [hrestored i hi h6, restored_of_flag (hbefore h0) hrecord]
    · refine .inl fun i hi h6 => ?_
      rw [hrestored i hi h6, restored_of_no_flag (hbefore h0) hrecord]
  · rcases Nat.lt_or_ge n 8 with h8 | h8
    · -- the flag was, and makes a record of what is there
      have hgarbage : ∀ i, i ≠ 0 → i < 6 → b'.mem (work i) = s.flash (sysParaStartAddr + i) := by
        intro i hi h6
        have hne : sysParaStartAddr + i ≠ sysParaFlagAddr := by
          show 10 + i ≠ 2
          omega
        rw [hrestored i hi h6, restored_of_flag (hbetween h1 h8) (if_pos rfl), flagWritten, if_neg hne]
      have hzero : (∀ i, i ≠ 0 → i < 6 → b'.mem (work i) = 0) ↔
          ∀ i, i ≠ 0 → i < 6 → s.flash (sysParaStartAddr + i) = 0 :=
        forall_congr' fun i => forall_congr' fun hi => forall_congr' fun h6 => by rw [hgarbage i hi h6]
      have hnew : (∀ i, i ≠ 0 → i < 6 → b'.mem (work i) = s.mem (work i)) ↔
          ∀ i, i ≠ 0 → i < 6 → s.flash (sysParaStartAddr + i) = s.mem (work i) :=
        forall_congr' fun i => forall_congr' fun hi => forall_congr' fun h6 => by rw [hgarbage i hi h6]
      have hn0 : n ≠ 0 := Nat.ne_of_gt h1
      have hn8 : ¬ 8 ≤ n := Nat.not_le_of_lt h8
      rw [Recovered, hzero, hnew, and_iff_left hgarbage]
      simp only [hn0, hn8, false_or]
      exact or_left_comm
    · -- everything was
      refine iff_of_true (.inr (.inr fun i hi h6 => ?_)) (.inr (.inr (.inl h8)))
      rw [hrestored i hi h6, restored_of_flag (hafter h8) hflag, hsaved i h6]

/-- A blank chip, and the power cut between the two writes. -/
theorem power_cut_counterexample :
    Board.reset.RecordOk ∧ Board.reset.settings.InRange ∧
      ¬ Recovered Board.reset (rebooted 0 (deviceSysParaSave.runFor machine 0 1 Board.reset)) := by
  refine ⟨recordOk_reset, ⟨by decide, by decide, by decide, by decide, by decide, by decide⟩, ?_⟩
  have hmode : (rebooted 0 (deviceSysParaSave.runFor machine 0 1 Board.reset)).mem (work 1) = 0xff := by
    decide +kernel
  rintro (h | ⟨h, -⟩ | h)
  · exact absurd (hmode.symm.trans (h 1 (by decide) (by decide))) (by decide)
  · exact absurd h (by decide)
  · exact absurd (hmode.symm.trans (h 1 (by decide) (by decide))) (by decide)

/-! ## A command and the record -/

theorem run_backupWorkData_bak (t : Nat) (s : Board) {i : Nat} (h : i < paraTypeSize) :
    (backupWorkData.run machine t s).2.mem (.deviceWorkDataBak i) = s.mem (work i) := by
  have hloop : ∀ n, (∀ j, ((Prog.forUpTo n fun i => do
      let b ← load (work i)
      store (.deviceWorkDataBak i) b).run machine t s).2.mem (work j) = s.mem (work j)) ∧
      ∀ j < n, ((Prog.forUpTo n fun i => do
        let b ← load (work i)
        store (.deviceWorkDataBak i) b).run machine t s).2.mem (.deviceWorkDataBak j) = s.mem (work j) := by
    intro n
    induction n with
    | zero => exact ⟨fun _ => rfl, fun j hj => absurd hj (Nat.not_lt_zero j)⟩
    | succ n ih =>
        rw [run_forUpTo_succ]
        simp only [load, store, op_bind, ret_bind, run_op, run_ret] at ih ⊢
        refine ⟨fun j => ?_, fun j hj => ?_⟩
        · simp [ih.1]
        · rw [set_mem, ih.1]
          by_cases hjn : j = n
          · rw [hjn, if_pos rfl]
          · rw [if_neg (by simpa using hjn)]
            exact ih.2 j (by omega)
  unfold backupWorkData
  exact (hloop paraTypeSize).2 i h

/-- A setting differs from its backup. -/
def Board.Differs (s : Board) : Prop := ∃ i < 6, s.mem (.deviceWorkDataBak i) ≠ s.mem (work i)

instance (s : Board) : Decidable s.Differs := inferInstanceAs (Decidable (∃ i < 6, _))

theorem run_saveIfChanged (t : Nat) (s : Board) : (saveIfChanged.run machine t s).2 =
    if s.Differs then (deviceSysParaSave.run machine t s).2 else s := by
  have htest : ∀ i, (do
      let old ← load (.deviceWorkDataBak i)
      let new ← load (work i)
      pure (old != new) : Code Bool).run machine t s =
        (s.mem (.deviceWorkDataBak i) != s.mem (work i), s) := fun i => rfl
  have hany : (List.range 6).any (fun i => s.mem (.deviceWorkDataBak i) != s.mem (work i)) = true ↔
      s.Differs := by
    rw [List.any_eq_true]
    simp [Board.Differs]
  rw [saveIfChanged, run_bind, run_anyUpTo machine t htest, run_ite]
  by_cases h : s.Differs
  · rw [if_pos h, if_pos (hany.mpr h)]
  · rw [if_neg h, if_neg fun h' => h (hany.mp h')]
    rfl

/-- Operations that leave the backup alone. -/
def Op.LeavesBak (o : Op) : Prop := ∀ i, o.Leaves (.deviceWorkDataBak i)

section LeavesBak

attribute [local simp] Op.LeavesBak Op.Leaves

theorem setDcMotorSpeed_leavesBak (speed : UInt8) : (setDcMotorSpeed speed).Only Op.LeavesBak := by
  simp [setDcMotorSpeed]

theorem acAcMotorSet_leavesBak (mode : UInt8) : (acAcMotorSet mode).Only Op.LeavesBak := by
  simp [acAcMotorSet]

theorem deviceSysParaSave_leavesBak : deviceSysParaSave.Only Op.LeavesBak := by
  unfold deviceSysParaSave
  refine .bind (by simp) fun _ => .bind ?_ fun data => by simp
  exact .foldUpTo fun i data _ => by simp

theorem aircleanPowerOnoff_leavesBak (mode : UInt8) : (aircleanPowerOnoff mode).Only Op.LeavesBak := by
  have hget : deviceSysParaGet.Only Op.LeavesBak := by
    unfold deviceSysParaGet
    refine .bind (by simp) fun flag => .bind ((only_when ..).mpr fun _ => ?_) fun _ => by simp
    exact .forUpTo fun i _ => by simp
  unfold aircleanPowerOnoff
  refine (only_ite ..).mpr ⟨fun _ => .ret _, fun _ => (only_ite ..).mpr ⟨fun _ => ?_, fun _ => ?_⟩⟩
  · exact .bind hget fun _ => .bind (by simp) fun hp => .bind (by simp [acEsdSet]) fun _ =>
      .bind (by simp) fun pht => .bind (by simp [acPhtSet]) fun _ => .bind (by simp) fun w =>
      .bind (acAcMotorSet_leavesBak w) fun _ => by simp
  · exact .bind deviceSysParaSave_leavesBak fun _ => .bind (by simp [acEsdSet]) fun _ =>
      .bind (by simp [acPhtSet]) fun _ => .bind (acAcMotorSet_leavesBak 0) fun _ => by simp

theorem commandSwitch_leavesBak (type data : UInt8) : (commandSwitch type data).Only Op.LeavesBak := by
  have hpower := aircleanPowerOnoff_leavesBak
  have hspeed := setDcMotorSpeed_leavesBak data
  have hrelays := acAcMotorSet_leavesBak data
  unfold commandSwitch
  simp only [only_ite]
  refine ⟨fun _ => .bind ?_ fun _ => .ret _, fun _ => ⟨fun _ => ?_, fun _ => ⟨fun _ => ?_, fun _ =>
    ⟨fun _ => ?_, fun _ => ⟨fun _ => ?_, fun _ => ⟨fun _ => ?_, fun _ => .ret _⟩⟩⟩⟩⟩⟩
  · simp [hpower]
  · exact .bind (by simp) fun _ => .ret _
  · simp
  · simp [acPhtSet]
  · simp
  · exact .bind (by simp) fun _ => .bind hspeed fun _ => .bind hrelays fun _ => .ret _

theorem setDispboardFunctionMode_leavesBak (type mode : UInt8) :
    (setDispboardFunctionMode exchange type mode).Only Op.LeavesBak := by
  have hpacket : ∀ buftmp, (sendPacketData buftmp).Only Op.LeavesBak := by
    intro buftmp
    unfold sendPacketData
    refine .bind (by simp) fun chk => .bind (by simp) fun _ => .bind (by simp) fun _ =>
      .bind ?_ fun _ => by simp
    exact .foldUpTo fun i chk _ => by simp
  have hignore : ∀ code, (ignoreReply code).Only Op.LeavesBak := fun code =>
    (only_when ..).mpr fun _ => .bind (by simp [replyFramed]) fun _ => .ret _
  unfold setDispboardFunctionMode
  refine .bind (by simp) fun t1 => .bind (by simp) fun t2 => .bind (by simp) fun _ =>
    .bind (hpacket _) fun _ => .bind (by simp) fun _ => .bind (by simp) fun code =>
    .bind (hignore code) fun _ => by simp

end LeavesBak

theorem run_leavesBak {α : Type} {p : Code α} (h : p.Only Op.LeavesBak) (t : Nat) (s : Board) (i : Nat) :
    (p.run machine t s).2.mem (.deviceWorkDataBak i) = s.mem (.deviceWorkDataBak i) :=
  run_leaves (h.mono fun _ ho => ho i) t s

/-- A command of an unknown type changes nothing. -/
theorem run_commandSwitch_unknown {type data : UInt8} (t : Nat) {s : Board}
    (h : ((commandSwitch type data).run machine t s).1 = false) :
    ((commandSwitch type data).run machine t s).2 = s := by
  unfold commandSwitch at h ⊢
  simp only [run_ite, run_bind, run_pure] at h ⊢
  by_cases h2 : type = 0x02
  · simp [h2] at h
  · by_cases h3 : type = 0x03
    · simp [h3] at h
    · by_cases h4 : type = 0x04
      · simp [h4] at h
      · by_cases h5 : type = 0x05
        · simp [h5] at h
        · by_cases h6 : type = 0x06
          · simp [h6] at h
          · by_cases h7 : type = 0x07
            · simp [h7] at h
            · simp [h2, h3, h4, h5, h6, h7]

/-- Flash holds a record, and it is the settings. -/
def Board.Recorded (s : Board) : Prop :=
  s.HasRecord ∧ ∀ i < 6, s.flash (sysParaStartAddr + i) = s.mem (work i)

theorem run_deviceSysParaSave_saved (t : Nat) (s : Board) :
    (deviceSysParaSave.run machine t s).2.Recorded := by
  obtain ⟨hmem, hflag, hrecord⟩ := run_deviceSysParaSave t s
  refine ⟨hflag, fun i hi => ?_⟩
  rw [hrecord i hi, hmem]

/-- Settings changed. -/
def Board.Changed (s s' : Board) : Prop := ∃ i < 6, s'.mem (work i) ≠ s.mem (work i)

/-- Forwarding a command changes neither settings nor backup. -/
theorem run_forward (type data signalCh : UInt8) (t : Nat) (s : Board) (i : Nat) :
    let s' := ((Prog.when (signalCh = 1) (setDispboardFunctionMode exchange type data)).run machine t s).2
    s'.mem (work i) = s.mem (work i) ∧ s'.mem (.deviceWorkDataBak i) = s.mem (.deviceWorkDataBak i) := by
  have hwork : (setDispboardFunctionMode exchange type data).Only (Op.Leaves (work i)) := by
    refine setDispboardFunctionMode_only (fun _ _ => .op ?_ fun _ => .ret _) (fun o ho => ?_) type data
    · rintro j ⟨⟩
    · cases o with
      | store a v =>
          rintro rfl
          exact ho.1
      | exchange len => exact absurd ho.1 id
      | _ => trivial
  have hforward := run_leaves hwork t s
  rw [run_when]
  split
  · exact ⟨hforward, run_leavesBak (setDispboardFunctionMode_leavesBak type data) t s i⟩
  · exact ⟨rfl, rfl⟩

/-- A save behind the comparison. -/
theorem run_saveIfChanged_saved (t : Nat) {s b : Board}
    (hbak : ∀ i < 6, b.mem (.deviceWorkDataBak i) = s.mem (work i))
    (h : s.Changed (saveIfChanged.run machine t b).2) : (saveIfChanged.run machine t b).2.Recorded := by
  rw [run_saveIfChanged] at h ⊢
  by_cases hdiffers : b.Differs
  · rw [if_pos hdiffers]
    exact run_deviceSysParaSave_saved t b
  · rw [if_neg hdiffers] at h
    obtain ⟨i, hi, hne⟩ := h
    exact absurd ⟨i, hi, fun heq => hne (heq.symm.trans (hbak i hi))⟩ hdiffers

/-- **What a command changes is in the record when it returns.** -/
theorem applyCommand_saved (type data signalCh : UInt8) (t : Nat) {s : Board}
    (h : s.Changed ((applyCommand exchange type data signalCh).run machine t s).2) :
    ((applyCommand exchange type data signalCh).run machine t s).2.Recorded := by
  have hbak : ∀ i < 6, (backupWorkData.run machine t s).2.mem (.deviceWorkDataBak i) = s.mem (work i) :=
    fun i hi => run_backupWorkData_bak t s (Nat.lt_trans hi (by decide))
  have hwork : ∀ i, (backupWorkData.run machine t s).2.mem (work i) = s.mem (work i) :=
    fun i => run_backupWorkData_mem t s (by rintro j ⟨⟩)
  rw [applyCommand, run_bind, run_bind] at h ⊢
  generalize (backupWorkData.run machine t s).2 = b at h hbak hwork ⊢
  have hswitch := run_leavesBak (commandSwitch_leavesBak type data) t b
  cases hknown : ((commandSwitch type data).run machine t b).1 with
  | false =>
      -- the default case
      obtain ⟨i, hi, hne⟩ := h
      rw [hknown, run_ite, if_neg Bool.false_ne_true] at hne
      refine absurd ?_ hne
      rw [run_pure, run_commandSwitch_unknown t hknown, hwork]
  | true =>
      rw [hknown, run_ite, if_pos rfl, run_bind] at h
      rw [run_ite, if_pos rfl, run_bind]
      refine run_saveIfChanged_saved t (fun i hi => ?_) h
      rw [(run_forward type data signalCh t _ i).2, hswitch, hbak i hi]

theorem setDeviceWorkMode_saved (type data signalCh : UInt8) (t : Nat) {s : Board}
    (h : s.Changed ((setDeviceWorkMode exchange type data signalCh).run machine t s).2) :
    ((setDeviceWorkMode exchange type data signalCh).run machine t s).2.Recorded := by
  have happly := applyCommand_saved type data signalCh t
    (s := { s with log := s.log ++ [.setDeviceWorkMode type data signalCh] })
  have hsame : ¬ s.Changed { s with log := s.log ++ [.setDeviceWorkMode type data signalCh] } :=
    fun ⟨_, _, hne⟩ => hne rfl
  simp only [setDeviceWorkMode, note, load, op_bind, ret_bind, run_op, run_ite, run_pure] at h ⊢
  -- the guard: automatic mode or power off
  split
  · next hguard =>
      rw [if_pos hguard] at h
      split
      · next hauto =>
          rw [if_pos hauto] at h
          exact absurd h hsame
      · next hauto =>
          rw [if_neg hauto] at h
          split
          · next hoff =>
              rw [if_pos hoff] at h
              exact absurd h hsame
          · next hoff =>
              rw [if_neg hoff] at h
              exact happly h
  · next hguard =>
      rw [if_neg hguard] at h
      exact happly h

/-- **An accepted change survives a restart.** -/
theorem change_survives_reboot (type data signalCh : UInt8) (t t' : Nat) {s : Board}
    (h : s.Changed ((setDeviceWorkMode exchange type data signalCh).run machine t s).2) :
    let s' := ((setDeviceWorkMode exchange type data signalCh).run machine t s).2
    (rebooted t' s').mem (work Field.devicePowerState) = 1 ∧
      ∀ i, i ≠ 0 → i < 6 → (rebooted t' s').mem (work i) = s'.mem (work i) := by
  intro s'
  obtain ⟨hrecord, hbytes⟩ := setDeviceWorkMode_saved type data signalCh t h
  obtain ⟨hpower, hrestored⟩ := rebooted_settings t' s'
  refine ⟨hpower, fun i h0 h6 => ?_⟩
  rw [hrestored i h0 h6, restored_of_flag rfl hrecord]
  exact hbytes i h6

/-- The timer set to three hours in manual mode. -/
theorem change_survives_reboot_timer :
    let s' := ((setDeviceWorkMode exchange 0x06 3 0).run machine 0 Board.manual).2
    (rebooted 0 s').mem (work Field.devicePowerState) = 1 ∧
      ∀ i, i ≠ 0 → i < 6 → (rebooted 0 s').mem (work i) = s'.mem (work i) :=
  change_survives_reboot 0x06 3 0 0 0 (s := Board.manual) ⟨5, by decide, by decide +kernel⟩

end Aclean
