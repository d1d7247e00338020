import Aclean.Countdown
import Aclean.PassRuns
import Aclean.PowerOn
import Aclean.Payload
import Aclean.Damaged
import Aclean.Relays

/-!
# What the machine remembers

The main board as a user knows it: six settings, and what flash keeps of them.
A handful of events change the pair: a command, settings sent by the display,
the timer, the control pass, a restart. The firmware's whole operations are
runs of these events, so that what a power cut brings back can be read off the
pair.
-/

namespace Aclean

open Board Prog

/-! ## The abstract machine -/

/-- The settings, and the last ones kept in flash. -/
structure Memory where
  work : Settings
  record : Option Settings
  deriving DecidableEq, Repr

/-- The same settings with the power byte at `v`. -/
def Settings.powered (v : UInt8) (w : Settings) : Settings := { w with devicePowerState := v }

namespace Memory

inductive Event where
  | command (type data : UInt8)
  /-- The display has sent settings of its own. -/
  | report (rcv : Nat → UInt8)
  /-- An hour of the timer is over. -/
  | hour
  /-- The timer has run out. -/
  | timeUp
  /-- A control pass has chosen a fan speed. -/
  | drive (speed : UInt8)
  | restart

/-- Off, or in automatic mode, the machine takes no orders but to switch on or off or to
change the mode. -/
def Listens (type : UInt8) (w : Settings) : Prop :=
  type = 0x02 ∨ type = 0x03 ∨ w.deviceMode ≠ 1 ∧ w.devicePowerState ≠ 0

instance (type : UInt8) (w : Settings) : Decidable (Listens type w) :=
  inferInstanceAs (Decidable (_ ∨ _ ∨ _))

/-- Settings that differ from the old ones are kept. -/
def change (w : Settings) (m : Memory) : Memory := ⟨w, if w = m.work then m.record else some w⟩

/-- Settings that are kept whether they differ or not. -/
def keep (w : Settings) : Memory := ⟨w, some w⟩

/-- Switching on goes back to what was kept; switching off keeps. -/
def command (type data : UInt8) (m : Memory) : Memory :=
  if type = 0x02 then
    if data ≠ 0 then m.change ((m.record.getD m.work).powered 1)
    else keep (m.work.powered 0)
  else m.change (Disp.f1Switch type data m.work)

/-- The settings of a machine that has kept nothing. -/
def blank : Settings := ⟨0, 0, 0, 0, 0, 0⟩

/-- What a start makes of settings without a mode. -/
def initialised (w : Settings) : Settings :=
  if w.deviceMode = 0 then { w with deviceMode := 2, highPressurState := 1, phtWorkState := 1 }
  else w

def step (m : Memory) : Event → Memory
  | .command type data => if Listens type m.work then m.command type data else m
  | .report rcv => m.change (takenSettings rcv m.work)
  | .hour =>
      if m.work.timingState = 0 then m
      else { m with work := { m.work with timingState := m.work.timingState - 1 } }
  | .timeUp => keep { m.work with devicePowerState := 0, timingState := 0 }
  | .drive speed => { m with work := { m.work with windSpeedState := speed } }
  | .restart => { m with work := initialised ((m.record.getD blank).powered 1) }

def run (es : List Event) (m : Memory) : Memory := es.foldl step m

theorem run_append (es es' : List Event) (m : Memory) : m.run (es ++ es') = (m.run es).run es' :=
  List.foldl_append

@[simp] theorem run_nil (m : Memory) : m.run [] = m := rfl

@[simp] theorem run_singleton (e : Event) (m : Memory) : m.run [e] = m.step e := rfl

/-! ## What a restart brings back -/

/-- Mode, filter and lamp of the two agree, and the first has no more hours to run. -/
structure Backed (w r : Settings) : Prop where
  mode : r.deviceMode = w.deviceMode
  highPressur : r.highPressurState = w.highPressurState
  pht : r.phtWorkState = w.phtWorkState
  timing : w.timingState ≤ r.timingState

theorem Backed.refl (w : Settings) : Backed w w := ⟨rfl, rfl, rfl, UInt8.le_refl _⟩

/-- The settings are backed by what a restart would find, the modes being filled in. -/
def Kept (m : Memory) : Prop := Backed (initialised m.work) (initialised (m.record.getD blank))

theorem Kept.of_some {m : Memory} {w : Settings} (hwork : m.work = w)
    (hrecord : m.record = some w) : m.Kept := by
  rw [Kept, hwork, hrecord]
  exact .refl _

theorem initialised_timing (w : Settings) (n : UInt8) :
    initialised { w with timingState := n } = { initialised w with timingState := n } := by
  unfold initialised
  split <;> rfl

theorem initialised_windSpeed (w : Settings) (n : UInt8) :
    initialised { w with windSpeedState := n } = { initialised w with windSpeedState := n } := by
  unfold initialised
  split <;> rfl

theorem initialised_powered (w : Settings) (n : UInt8) :
    initialised (w.powered n) = (initialised w).powered n := by
  unfold initialised Settings.powered
  split <;> rfl

@[simp] theorem initialised_timingState (w : Settings) :
    (initialised w).timingState = w.timingState := by
  unfold initialised
  split <;> rfl

theorem initialised_mode (w : Settings) : (initialised w).deviceMode ≠ 0 := by
  unfold initialised
  split
  · exact show (2 : UInt8) ≠ 0 by decide
  · assumption

@[simp] theorem initialised_initialised (w : Settings) :
    initialised (initialised w) = initialised w := if_neg (initialised_mode w)

/-- A change keeps, or it is none. -/
theorem Kept.change {m : Memory} (h : m.Kept) (w : Settings) : (m.change w).Kept := by
  by_cases hw : w = m.work
  · have hsame : m.change w = m := by
      rw [Memory.change, if_pos hw, hw]
    rw [hsame]
    exact h
  · exact .of_some rfl (if_neg hw)

theorem hour_le {n : UInt8} (h : n ≠ 0) : n - 1 ≤ n := by
  have hpos : n.toNat ≠ 0 := fun h0 => h (UInt8.toNat_inj.mp h0)
  have hlt := n.toNat_lt
  rw [UInt8.le_iff_toNat_le, UInt8.toNat_sub]
  show (256 - 1 + n.toNat) % 256 ≤ n.toNat
  omega

/-- A restart finds them again. -/
theorem kept_restart (m : Memory) : (m.step .restart).Kept := by
  rw [Kept, Memory.step, initialised_initialised, initialised_powered]
  exact ⟨rfl, rfl, rfl, UInt8.le_refl _⟩

/-- **No event loses a setting.** -/
theorem Kept.step {m : Memory} (h : m.Kept) (e : Event) : (m.step e).Kept := by
  cases e with
  | command type data =>
    simp only [Memory.step]
    split
    · unfold command
      split
      · split
        · exact h.change _
        · exact .of_some rfl rfl
      · exact h.change _
    · exact h
  | report rcv => exact h.change _
  | hour =>
    simp only [Memory.step]
    split
    · exact h
    · next hne =>
      have hle := h.timing
      rw [initialised_timingState] at hle
      rw [Kept, initialised_timing]
      exact ⟨h.mode, h.highPressur, h.pht, UInt8.le_trans (hour_le hne) hle⟩
  | timeUp => exact .of_some rfl rfl
  | drive speed =>
    rw [Kept, Memory.step, initialised_windSpeed]
    exact ⟨h.mode, h.highPressur, h.pht, h.timing⟩
  | restart => exact kept_restart m

theorem Kept.run {m : Memory} (h : m.Kept) (es : List Event) : (m.run es).Kept := by
  induction es generalizing m with
  | nil => exact h
  | cons e es ih => exact ih (h.step e)

end Memory

/-! ## The board's memory -/

/-- The settings that flash keeps. -/
def Board.kept (s : Board) : Option Settings := if s.HasRecord then some s.record else none

def Board.memory (s : Board) : Memory := ⟨s.settings, s.kept⟩

theorem kept_congr {s s' : Board} (h : s'.flash = s.flash) : s'.kept = s.kept := by
  have hflag : s'.HasRecord ↔ s.HasRecord := by rw [Board.HasRecord, Board.HasRecord, h]
  have hrecord : s'.record = s.record := by simp only [Board.record, h]
  rw [Board.kept, Board.kept, hrecord]
  exact if_congr hflag rfl rfl

theorem memory_congr {s s' : Board} (hsettings : s'.settings = s.settings) (hflash : s'.flash = s.flash) :
    s'.memory = s.memory := by
  rw [Board.memory, Board.memory, hsettings, kept_congr hflash]

/-- Operations that do not write flash. -/
def Op.LeavesFlash : Op → Prop
  | .flashWrite _ _ => False
  | _ => True

theorem run_flash {α : Type} {p : Code α} (h : p.Only Op.LeavesFlash) (t : Nat) (s : Board) :
    (p.run machine t s).2.flash = s.flash := by
  induction h generalizing s with
  | ret x => rfl
  | @op o _ ho _ ih =>
    refine (ih _ _).trans ?_
    cases o with
    | flashWrite a data => exact absurd ho id
    | _ => rfl

theorem Op.Local.leavesFlash {o : Op} (h : o.Local) : o.LeavesFlash := by
  cases o with
  | flashWrite a data => exact absurd rfl (h.2.1 a data)
  | _ => trivial

theorem Op.Drives.leavesFlash {o : Op} (h : o.Drives) : o.LeavesFlash := by
  cases o with
  | flashWrite a data => exact absurd h id
  | _ => trivial

/-- Code that writes neither settings nor flash. -/
theorem run_memory {α : Type} {p : Code α} (hwork : p.Only Op.LeavesWork) (hflash : p.Only Op.LeavesFlash)
    (t : Nat) (s : Board) : (p.run machine t s).2.memory = s.memory :=
  memory_congr (run_settings hwork t s) (run_flash hflash t s)

theorem run_local_memory {α : Type} {p : Code α} (h : p.Only Op.Local) (t : Nat) (s : Board) :
    (p.run machine t s).2.memory = s.memory :=
  run_memory (h.mono fun _ ho => ho.1.leavesWork) (h.mono fun _ => Op.Local.leavesFlash) t s

/-! ### Saving and reloading -/

/-- A save keeps the settings. -/
theorem deviceSysParaSave_memory (t : Nat) (s : Board) :
    (deviceSysParaSave.run machine t s).2.memory = .keep s.settings := by
  obtain ⟨hmem, hflag, hsaved⟩ := run_deviceSysParaSave t s
  have hrecord : (deviceSysParaSave.run machine t s).2.HasRecord := hflag
  have hsettings := run_plain_settings deviceSysParaSave_plain t s
  have hbytes : (deviceSysParaSave.run machine t s).2.record = s.settings := by
    simp only [Board.record, Board.settings, hsaved 0 (by decide), hsaved 1 (by decide),
      hsaved 2 (by decide), hsaved 3 (by decide), hsaved 4 (by decide), hsaved 5 (by decide)]
  rw [Board.memory, Board.kept, if_pos hrecord, hsettings, hbytes]
  rfl

/-- The closing loop keeps what differs from the backup. -/
theorem saveIfChanged_memory (t : Nat) {s b : Board}
    (hbak : ∀ i < 6, b.mem (.deviceWorkDataBak i) = s.mem (work i)) :
    (saveIfChanged.run machine t b).2.memory =
      ⟨b.settings, if b.settings = s.settings then b.kept else some b.settings⟩ := by
  have hdiffers : b.Differs ↔ ¬ b.settings = s.settings := by
    rw [settings_eq_iff]
    constructor
    · rintro ⟨i, hi, hne⟩ hall
      exact hne ((hbak i hi).trans (hall i hi).symm)
    · intro hne
      by_contra hnone
      refine hne fun i hi => ?_
      by_contra hi'
      exact hnone ⟨i, hi, fun heq => hi' (heq.symm.trans (hbak i hi))⟩
  rw [run_saveIfChanged]
  by_cases h : b.settings = s.settings
  · rw [if_neg fun hd => hdiffers.mp hd h, if_pos h]
    rfl
  · rw [if_pos (hdiffers.mpr h), if_neg h, deviceSysParaSave_memory]
    rfl

/-- Switching on takes the settings back that were kept. -/
theorem poweredOn_memory (s : Board) : s.poweredOn.memory =
    ⟨(s.kept.getD s.settings).powered 1, s.kept⟩ := by
  have hbyte : ∀ i, i ≠ 0 → i < 6 → s.poweredOn.mem (work i) = s.recalled i :=
    fun i => poweredOn_work s
  have hsettings : s.poweredOn.settings = (s.kept.getD s.settings).powered 1 := by
    simp only [Board.settings, hbyte 1 (by decide) (by decide), hbyte 2 (by decide) (by decide),
      hbyte 3 (by decide) (by decide), hbyte 4 (by decide) (by decide),
      hbyte 5 (by decide) (by decide), poweredOn_power]
    unfold Board.recalled Board.kept
    by_cases h : s.HasRecord
    · simp only [if_pos h]
      rfl
    · simp only [if_neg h]
      rfl
  rw [Board.memory, hsettings, kept_congr (poweredOn_flash s)]

/-- Switching off keeps the settings, once the power byte is 0. -/
theorem poweredOff_memory (t : Nat) {s : Board} (h : s.mem (work Field.devicePowerState) = 0) :
    ((aircleanPowerOnoff 0).run machine t s).2.memory = .keep s.settings := by
  have hsaved := deviceSysParaSave_memory t s
  have hmem := (run_deviceSysParaSave t s).1
  rw [aircleanPowerOnoff, if_neg (by decide), if_neg (by decide), run_bind, ← hsaved]
  generalize (deviceSysParaSave.run machine t s).2 = b at hmem
  have hpower : b.mem (work Field.devicePowerState) = 0 := by
    rw [hmem]
    exact h
  refine memory_congr ?_ ?_
  · simp only [Field.devicePowerState] at hpower
    simp [acEsdSet, acPhtSet, acAcMotorSet, Board.settings, hpower]
  · simp [acEsdSet, acPhtSet, acAcMotorSet]

/-! ### Restarting -/

/-- Reloading into cleared settings and switching on. -/
theorem deviceStateInit_memory (t : Nat) {s : Board} (h : Cleared s.flash s) :
    (deviceStateInit.run machine t s).2.memory =
      ⟨(s.kept.getD Memory.blank).powered 1, s.kept⟩ := by
  obtain ⟨b, hb, hrun⟩ := deviceStateInit_eq t h
  have hkept : b.kept = s.kept := kept_congr hb.flash
  have hblank : b.settings = Memory.blank := by
    simp only [Board.settings, hb.work]
    rfl
  have hreloaded : b.reloaded.kept = s.kept := (kept_congr (reloaded_flash b)).trans hkept
  have hsettings : b.reloaded.kept.getD b.reloaded.settings = s.kept.getD Memory.blank := by
    rw [hreloaded]
    by_cases h : b.HasRecord
    · rw [← hkept, Board.kept, if_pos h]
      rfl
    · have hreload : b.reloaded.settings = b.settings := by
        rw [Board.reloaded, if_neg h]
        simp [Board.settings]
      rw [hreload, hblank]
  rw [hrun, poweredOn_memory, hsettings, hreloaded]

theorem defaultSettings_memory (t : Nat) {s : Board} (h : s.settings.deviceMode = 0) :
    (defaultSettings.run machine t s).2.memory =
      ⟨Memory.initialised s.settings, s.kept⟩ := by
  have hflash : (defaultSettings.run machine t s).2.flash = s.flash := by
    simp [defaultSettings, acEsdSet, acPhtSet, acAcMotorSet]
  have hsettings : (defaultSettings.run machine t s).2.settings =
      Memory.initialised s.settings := by
    rw [Memory.initialised, if_pos h]
    simp [defaultSettings, acEsdSet, acPhtSet, acAcMotorSet, Board.settings]
  rw [Board.memory, hsettings, kept_congr hflash]

theorem outPinInit_cleared (t : Nat) (f : Nat → UInt8) :
    Cleared f (aircleanOutPinInit.run machine t { Board.reset with flash := f }).2 := by
  refine ⟨fun i => ?_, ?_⟩
  · simp [aircleanOutPinInit, acEsdSet, acPhtSet, acAcMotorSet, Board.reset]
  · simp [aircleanOutPinInit, acEsdSet, acPhtSet, acAcMotorSet]

/-- **A restart is the machine's restart.** -/
theorem restarted_memory (t : Nat) (s : Board) :
    (restarted t s).memory = s.memory.step .restart := by
  have hcleared := outPinInit_cleared t s.flash
  rw [restarted, rtMainThreadEntry, run_bind, run_bind, run_bind, run_when]
  generalize (aircleanOutPinInit.run machine t { Board.reset with flash := s.flash }).2 = b
    at hcleared ⊢
  have hloaded := deviceStateInit_memory t (hcleared.flash ▸ hcleared)
  rw [kept_congr hcleared.flash] at hloaded
  generalize (deviceStateInit.run machine t b).2 = c at hloaded ⊢
  have hsettings : c.settings = (s.kept.getD Memory.blank).powered 1 := congrArg Memory.work hloaded
  have hkept : c.kept = s.kept := congrArg Memory.record hloaded
  have hload : (load (work Field.deviceMode)).run machine t c = (c.settings.deviceMode, c) := rfl
  have hstep : s.memory.step .restart = ⟨Memory.initialised c.settings, c.kept⟩ := by
    rw [hsettings, hkept]
    rfl
  rw [hload, hstep]
  by_cases h : c.settings.deviceMode = 0
  · rw [if_pos h]
    exact defaultSettings_memory t h
  · rw [if_neg h, Memory.initialised, if_neg h]
    rfl

/-! ### Commands -/

theorem commandSwitch_leavesFlash {type : UInt8} (h : type ≠ 0x02) (data : UInt8) :
    (commandSwitch type data).Only Op.LeavesFlash := by
  have hspeed : (setDcMotorSpeed data).Only Op.LeavesFlash :=
    (setDcMotorSpeed_local data).mono fun _ => Op.Local.leavesFlash
  have hrelays : (acAcMotorSet data).Only Op.LeavesFlash :=
    (acAcMotorSet_drives data).mono fun _ => Op.Drives.leavesFlash
  unfold commandSwitch
  rw [if_neg h]
  simp only [only_ite]
  refine ⟨fun _ => .bind (by simp [Op.LeavesFlash]) fun _ => .ret _, fun _ =>
    ⟨fun _ => by simp [Op.LeavesFlash], fun _ =>
      ⟨fun _ => by simp [acPhtSet, Op.LeavesFlash], fun _ =>
        ⟨fun _ => by simp [Op.LeavesFlash], fun _ => ⟨fun _ => ?_, fun _ => .ret _⟩⟩⟩⟩⟩
  exact .bind (by simp [Op.LeavesFlash]) fun _ => .bind hspeed fun _ => .bind hrelays fun _ => .ret _

theorem setDispboardFunctionMode_memory (type mode : UInt8) (t : Nat) (s : Board) :
    ((setDispboardFunctionMode exchange type mode).run machine t s).2.memory = s.memory :=
  run_memory
    (setDispboardFunctionMode_only (fun _ _ => .op trivial fun _ => .ret _)
      (fun _ h => h.1.leavesWork) type mode)
    (setDispboardFunctionMode_only (fun _ _ => .op trivial fun _ => .ret _)
      (fun _ => Op.Local.leavesFlash) type mode) t s

/-- The settings and what flash keeps once the closing loop has run, were `s` in the
backup. -/
def Board.compared (s s' : Board) : Memory :=
  ⟨s'.settings, if s'.settings = s.settings then s'.kept else some s'.settings⟩

theorem compared_of_kept {s s' : Board} (h : s'.kept = s.kept) :
    s.compared s' = s.memory.change s'.settings := by
  rw [Board.compared, h]
  rfl

/-- What the switch makes of the memory, before the closing loop. -/
theorem commandSwitch_memory (type data : UInt8) (t : Nat) (s : Board) :
    s.compared ((commandSwitch type data).run machine t s).2 = s.memory.command type data := by
  unfold Memory.command
  by_cases h2 : type = 0x02
  · subst h2
    rw [if_pos rfl]
    by_cases hdata : data ≠ 0
    · have hon : (s.set (work Field.devicePowerState) 1).kept = s.kept := kept_congr rfl
      have hpowered := poweredOn_memory (s.set (work Field.devicePowerState) 1)
      have hkept := congrArg Memory.record hpowered
      have hsettings := congrArg Memory.work hpowered
      rw [if_pos hdata, run_commandSwitch_on t hdata, compared_of_kept (hkept.trans hon)]
      refine congrArg s.memory.change (hsettings.trans ?_)
      dsimp only
      rw [hon]
      unfold Board.memory
      cases s.kept with
      | none => simp [Settings.powered, Board.settings]
      | some r => rfl
    · have hzero : data = 0 := not_not.mp hdata
      subst hzero
      have hoff := poweredOff_memory t (s := s.set (work Field.devicePowerState) 0) (by simp)
      have hrun : ((commandSwitch 0x02 0).run machine t s).2 =
          ((aircleanPowerOnoff 0).run machine t (s.set (work Field.devicePowerState) 0)).2 := by
        rw [commandSwitch, if_pos rfl, if_neg hdata, run_bind]
        rfl
      have hkept := congrArg Memory.record hoff
      have hsettings := congrArg Memory.work hoff
      have hpowered : (s.set (work Field.devicePowerState) 0).settings = s.settings.powered 0 := by
        simp [Settings.powered, Board.settings]
      rw [if_neg hdata, hrun, Board.compared]
      generalize ((aircleanPowerOnoff 0).run machine t _).2 = s' at hkept hsettings
      have hk : s'.kept = some (s.settings.powered 0) := hkept.trans (congrArg some hpowered)
      have hs : s'.settings = s.settings.powered 0 := hsettings.trans hpowered
      rw [hk, hs, ite_self]
      rfl
  · rw [if_neg h2]
    have hflash := run_flash (commandSwitch_leavesFlash h2 data) t s
    rw [compared_of_kept (kept_congr hflash)]
    by_cases hsetting : 3 ≤ type ∧ type ≤ 7
    · rw [(commandSwitch_settings hsetting data t s).2]
      rfl
    · -- no command
      have hne : ∀ k, 3 ≤ k → k ≤ 7 → type ≠ k := by
        rintro k h3 h7 rfl
        exact hsetting ⟨h3, h7⟩
      have h3 := hne 3 (by decide) (by decide)
      have h4 := hne 4 (by decide) (by decide)
      have h5 := hne 5 (by decide) (by decide)
      have h6 := hne 6 (by decide) (by decide)
      have h7 := hne 7 (by decide) (by decide)
      have hrun := run_commandSwitch_unknown t (s := s)
        (by simp [commandSwitch, h2, h3, h4, h5, h6, h7] : ((commandSwitch type data).run machine t s).1 = false)
      have hswitch : Disp.f1Switch type data s.memory.work = s.settings := by
        simp only [Disp.f1Switch, if_neg h2, if_neg h3, if_neg h4, if_neg h5, if_neg h6, if_neg h7]
        rfl
      rw [hrun, hswitch]

theorem applyCommand_memory (type data signalCh : UInt8) (t : Nat) (s : Board) :
    ((applyCommand exchange type data signalCh).run machine t s).2.memory =
      s.memory.command type data := by
  have hbak : ∀ i < 6, (backupWorkData.run machine t s).2.mem (.deviceWorkDataBak i) = s.mem (work i) :=
    fun i hi => run_backupWorkData_bak t s (Nat.lt_trans hi (by decide))
  have hmemory := run_local_memory backupWorkData_local t s
  have hsettings := run_plain_settings backupWorkData_plain t s
  rw [applyCommand, run_bind, run_bind, ← hmemory]
  generalize (backupWorkData.run machine t s).2 = b at hbak hsettings ⊢
  have hswitch := run_leavesBak (commandSwitch_leavesBak type data) t b
  rw [← commandSwitch_memory type data t b, Board.compared, hsettings]
  cases hknown : ((commandSwitch type data).run machine t b).1 with
  | false =>
    rw [run_ite, if_neg Bool.false_ne_true, run_pure, run_commandSwitch_unknown t hknown,
      if_pos hsettings]
    rfl
  | true =>
    rw [run_ite, if_pos rfl, run_bind]
    generalize ((commandSwitch type data).run machine t b).2 = c at hswitch ⊢
    have hforward : ((Prog.when (signalCh = 1) (setDispboardFunctionMode exchange type data)).run
        machine t c).2.memory = c.memory := by
      rw [run_when]
      split
      · exact setDispboardFunctionMode_memory type data t c
      · rfl
    have hleft := fun i => (run_forward type data signalCh t c i).2
    generalize ((Prog.when (signalCh = 1) _).run machine t c).2 = d at hforward hleft ⊢
    have hwork : d.settings = c.settings := congrArg Memory.work hforward
    have hkept : d.kept = c.kept := congrArg Memory.record hforward
    rw [saveIfChanged_memory t fun i hi => ((hleft i).trans (hswitch i)).trans (hbak i hi), hwork,
      hkept]

/-- **A call of `set_device_work_mode` is a command.** -/
theorem setDeviceWorkMode_memory (type data signalCh : UInt8) (t : Nat) (s : Board) :
    ((setDeviceWorkMode exchange type data signalCh).run machine t s).2.memory =
      s.memory.step (.command type data) := by
  have happly := applyCommand_memory type data signalCh t
    { s with log := s.log ++ [.setDeviceWorkMode type data signalCh] }
  simp only [setDeviceWorkMode, note, load, op_bind, ret_bind, run_op, run_ite, run_pure,
    Memory.step]
  by_cases hguard : type ≠ 0x02 ∧ type ≠ 0x03
  · have hlistens : Memory.Listens type s.memory.work ↔
        ¬ s.mem (work Field.deviceMode) = 1 ∧ ¬ s.mem (work Field.devicePowerState) = 0 :=
      ⟨fun h => (h.resolve_left hguard.1).resolve_left hguard.2, fun h => .inr (.inr h)⟩
    rw [if_pos hguard]
    by_cases hauto : s.mem (work Field.deviceMode) = 1
    · rw [if_pos hauto, if_neg fun h => (hlistens.mp h).1 hauto]
      rfl
    · by_cases hoff : s.mem (work Field.devicePowerState) = 0
      · rw [if_neg hauto, if_pos hoff, if_neg fun h => (hlistens.mp h).2 hoff]
        rfl
      · rw [if_neg hauto, if_neg hoff, if_pos (hlistens.mpr ⟨hauto, hoff⟩)]
        exact happly
  · have hlistens : Memory.Listens type s.memory.work := by
      rcases not_and_or.mp hguard with h | h
      · exact .inl (not_not.mp h)
      · exact .inr (.inl (not_not.mp h))
    rw [if_neg hguard, if_pos hlistens]
    exact happly

/-! ### The display's replies -/

/-- The events that a reply in the receive buffer stands for. -/
def repliedEvents (rcv : Nat → UInt8) : List Memory.Event :=
  if FramedF2 rcv then [.report rcv] else if FramedF1 rcv then [.command (rcv 2) (rcv 4)] else []

theorem takeReplyBytes_bak (t : Nat) (s : Board) {i : Nat} (h : i < paraTypeSize) :
    (takeReplyBytes.run machine t s).2.mem (.deviceWorkDataBak i) = s.mem (work i) := by
  have hload : ∀ a : Addr, (load a).Only Op.LeavesBak := fun a => by simp [Op.LeavesBak, Op.Leaves]
  have hstore : ∀ (j : Nat) (v : UInt8), (store (work j) v).Only Op.LeavesBak := fun j v => by
    simp [Op.LeavesBak, Op.Leaves]
  rw [takeReplyBytes, run_bind]
  refine (run_leavesBak ?_ t _ i).trans (run_backupWorkData_bak t s h)
  refine .bind (hload _) fun m => .bind (hstore ..) fun _ => .bind (hload _) fun m =>
    .bind ((only_when ..).mpr fun _ => ?_) fun _ => .bind (hload _) fun tm => .bind (hstore ..) fun _ =>
    .bind (hload _) fun f => (only_when ..).mpr fun _ => by simp [Op.LeavesBak, Op.Leaves]
  exact .bind (hload _) fun w => .bind (hstore ..) fun _ => .bind (hload _) fun hp =>
    .bind (hstore ..) fun _ => .bind (hload _) fun pht => hstore ..

theorem takeDisplaySettings_memory (t : Nat) (s : Board) :
    (takeDisplaySettings.run machine t s).2.memory =
      s.memory.step (.report fun i => s.mem (.ucMasterRTURcvBuf i)) := by
  obtain ⟨hsettings, hflash⟩ := run_takeReplyBytes t s
  have hbak : ∀ i < 6, (takeReplyBytes.run machine t s).2.mem (.deviceWorkDataBak i) = s.mem (work i) :=
    fun i hi => takeReplyBytes_bak t s (Nat.lt_trans hi (by decide))
  rw [takeDisplaySettings_eq, run_bind, saveIfChanged_memory t hbak, kept_congr hflash, hsettings]
  rfl

/-- **A reply is what its frame says.** -/
theorem handleDisplayReply_memory (t : Nat) (s : Board) :
    ((handleDisplayReply exchange).run machine t s).2.memory =
      s.memory.run (repliedEvents fun i => s.mem (.ucMasterRTURcvBuf i)) := by
  unfold repliedEvents
  by_cases h2 : FramedF2 fun i => s.mem (.ucMasterRTURcvBuf i)
  · rw [if_pos h2, (handleDisplayReply_f2 t h2).1, takeDisplaySettings_memory]
    rfl
  · by_cases h1 : FramedF1 fun i => s.mem (.ucMasterRTURcvBuf i)
    · obtain ⟨h0', h1', h6', hgt, hle⟩ := id h1
      have hkey : ((handleDisplayReply exchange).run machine t s).2 =
          ((setDeviceWorkMode exchange (s.mem (.ucMasterRTURcvBuf 2)) (s.mem (.ucMasterRTURcvBuf 4)) 0).run
            machine t s).2 := by
        have hgt' : s.mem (.ucMasterRTURcvBuf 2) > 1 := hgt
        have hle' : s.mem (.ucMasterRTURcvBuf 2) ≤ 7 := hle
        rw [handleDisplayReply, run_bind, run_replyFramed, run_ite, if_neg (by simpa [FramedF2] using h2),
          run_bind, run_replyFramed, run_ite, if_pos (by simpa using ⟨h0', h1', h6'⟩)]
        simp [takeDisplayKey, hgt', hle']
      rw [if_neg h2, if_pos h1, hkey, setDeviceWorkMode_memory]
      rfl
    · rw [if_neg h2, if_neg h1, (handleDisplayReply_ignores t h2 h1).1]
      rfl

/-- The events of a poll. -/
def Board.displayEvents (s : Board) : List Memory.Event :=
  if s.reply.code = .revData then repliedEvents s.replyBuffer else []

theorem getDisplayBoardData_memory (t : Nat) (s : Board) :
    ((getDisplayBoardData exchange).run machine t s).2.memory = s.memory.run s.displayEvents := by
  obtain ⟨hcode, hrcv, hwork, hflash⟩ := run_pollDisplay t s
  have hmemory : (pollDisplay.run machine t s).2.memory = s.memory :=
    memory_congr (run_pollDisplay_settings t s) hflash
  have hrelease : ∀ b : Board, ((mutexRelease .modbus).run machine t b).2.memory = b.memory :=
    fun b => memory_congr rfl rfl
  rw [getDisplayBoardData_eq, run_bind, run_bind, run_when, hcode, hrelease, Board.displayEvents]
  generalize (pollDisplay.run machine t s).2 = b at hrcv hmemory ⊢
  split
  · rw [handleDisplayReply_memory, hmemory, funext hrcv]
  · exact hmemory

/-! ### WiFi frames -/

/-- The frame check of the decode thread passes. -/
def Board.FrameOk (t : Nat) (s : Board) : Prop :=
  ((wifiReceiveDataCheck (s.mem .wifiRecieveDataLength)).run machine t s).1 ≠ 0

instance (t : Nat) (s : Board) : Decidable (s.FrameOk t) := inferInstanceAs (Decidable (_ ≠ _))

/-- The events of the frame that has come in over WiFi. -/
def Board.wifiEvents (t : Nat) (s : Board) : List Memory.Event :=
  if s.FrameOk t ∧ 2 ≤ s.mem (recvPub 2) ∧ s.mem (recvPub 2) ≤ 7 then
    [.command (s.mem (recvPub 2)) (s.mem (recvPub 4))]
  else []

theorem wifiReceiveDataDecode_memory (t : Nat) (s : Board) :
    ((wifiReceiveDataDecode exchange).run machine t s).2.memory =
      if 2 ≤ s.mem (recvPub 2) ∧ s.mem (recvPub 2) ≤ 7 then
        s.memory.step (.command (s.mem (recvPub 2)) (s.mem (recvPub 4)))
      else s.memory := by
  have hstate := run_local_memory returnCurrentDeviceState_local t
  simp only [wifiReceiveDataDecode, load, op_bind, ret_bind, run_op, run_ite, run_bind, run_pure]
  by_cases h1 : s.mem (recvPub 2) = 1
  · have hno : ¬ (2 ≤ s.mem (recvPub 2) ∧ s.mem (recvPub 2) ≤ 7) := by
      rw [h1]
      decide
    rw [if_pos h1, if_neg hno, hstate]
  · by_cases h : 2 ≤ s.mem (recvPub 2) ∧ s.mem (recvPub 2) ≤ 7
    · rw [if_neg h1, if_pos h, if_pos h, hstate, setDeviceWorkMode_memory]
    · rw [if_neg h1, if_neg h, if_neg h]
      split
      · exact run_local_memory (wifiSendPacketData_local _) t s
      · rfl

theorem wifiDecodeFrame_memory (t : Nat) (s : Board) :
    ((wifiDecodeFrame exchange).run machine t s).2.memory = s.memory.run (s.wifiEvents t) := by
  have hsame := run_loads (wifiReceiveDataCheck_loads (s.mem .wifiRecieveDataLength)) t s
  have hdecode := wifiReceiveDataDecode_memory t s
  simp only [wifiDecodeFrame, load, op_bind, ret_bind, run_op, run_bind, run_when, hsame,
    Board.wifiEvents]
  by_cases hok : s.FrameOk t
  · rw [if_pos (show _ ≠ _ from hok), hdecode]
    simp only [hok, true_and]
    split
    · rfl
    · rfl
  · rw [if_neg (show ¬ _ ≠ _ from hok), if_neg fun h => hok h.1]
    rfl

/-! ### Rounds of the power monitor -/

/-- The speed at which a control pass leaves the fan. -/
def Board.fanSpeed (s : Board) : UInt8 :=
  if s.mem (work Field.devicePowerState) = 0 then s.mem (work Field.windSpeedState)
  else if s.mem (work Field.deviceMode) = 1 then autoSpeed s.rooms
  else if s.mem (work Field.deviceMode) = 2 then manualSpeed (s.mem (work Field.windSpeedState))
  else s.mem (work Field.windSpeedState)

theorem passed_memory (t : Nat) (s : Board) :
    (s.passed t).memory = s.memory.step (.drive s.fanSpeed) := by
  have hspeed : (s.passed t).mem (work Field.windSpeedState) = s.fanSpeed := by
    unfold Board.fanSpeed
    by_cases hpower : s.mem (work Field.devicePowerState) = 0
    · rw [passed_idle t (.inl hpower), if_pos hpower]
    · rw [if_neg hpower]
      by_cases h1 : s.mem (work Field.deviceMode) = 1
      · rw [if_pos h1, (passed_auto t hpower h1).stored]
      · rw [if_neg h1]
        by_cases h2 : s.mem (work Field.deviceMode) = 2
        · rw [if_pos h2, (passed_manual t hpower h2).2]
        · rw [if_neg h2, passed_idle t (.inr ⟨h1, h2⟩)]
  rw [Board.memory, passed_settings, hspeed, kept_congr (passed_confined t s).flash]
  rfl

/-- The events of a round. -/
def Board.roundEvents (s : Board) : List Memory.Event :=
  (if s.timer.counted = 36 ∧ s.timer.timing ≠ 0 then [.hour] else []) ++
    [if s.timer.Fires then .timeUp else .drive s.fanSpeed]

theorem afterHour_memory (s : Board) : (afterHour s).memory =
    s.memory.run (if s.timer.counted = 36 ∧ s.timer.timing ≠ 0 then [.hour] else []) := by
  have hcount : (afterCount s).memory = s.memory := by
    refine memory_congr ?_ rfl
    simp [afterCount, Board.settings]
  unfold afterHour
  by_cases h : s.timer.counted = 36 ∧ s.timer.timing ≠ 0
  · have htiming : s.memory.work.timingState ≠ 0 := fun h0 => h.2 (congrArg UInt8.toNat h0)
    have hafter : ((afterCount s).set (work Field.timingState) (s.mem (work Field.timingState) - 1)).settings =
        { s.settings with timingState := s.settings.timingState - 1 } := by
      simp [afterCount, Board.settings]
    rw [if_pos h, if_pos h, Memory.run_singleton, Memory.step, if_neg htiming, Board.memory, hafter,
      ← hcount]
    rfl
  · rw [if_neg h, if_neg h, hcount]
    rfl

theorem afterHour_work (s : Board) {i : Nat} (h : i ≠ Field.timingState) :
    (afterHour s).mem (work i) = s.mem (work i) := by
  have hne : ¬ work i = work Field.timingState := fun heq => h (Addr.deviceWorkData.inj heq)
  have hcount : (afterCount s).mem (work i) = s.mem (work i) := by simp [afterCount]
  unfold afterHour
  split
  · rw [set_mem, if_neg hne, hcount]
  · exact hcount

theorem afterHour_fanSpeed (s : Board) : (afterHour s).fanSpeed = s.fanSpeed := by
  have hrooms : (afterHour s).rooms = s.rooms := by
    funext i
    have hbyte : ∀ j, (afterHour s).mem (work (6 + j)) = s.mem (work (6 + j)) := fun j =>
      afterHour_work s (show 6 + j ≠ 5 by omega)
    simp only [Board.rooms, Board.room, Nat.add_assoc, hbyte]
  simp only [Board.fanSpeed, hrooms, afterHour_work s (show Field.devicePowerState ≠ Field.timingState by decide),
    afterHour_work s (show Field.deviceMode ≠ Field.timingState by decide),
    afterHour_work s (show Field.windSpeedState ≠ Field.timingState by decide)]

theorem timeUp_memory (dCmdPower : UInt8) (t : Nat) (s : Board) :
    ((timeUp dCmdPower).run machine t s).2.memory = s.memory.step .timeUp := by
  have hoff : ∀ b : Board, b.settings = { s.settings with devicePowerState := 0, timingState := 0 } →
      ((aircleanPowerOnoff 0).run machine t
        ((setDispboardFunctionMode exchange dCmdPower 0).run machine t b).2).2.memory =
          s.memory.step .timeUp := by
    intro b hb
    have hsend := congrArg Memory.work (setDispboardFunctionMode_memory dCmdPower 0 t b)
    generalize ((setDispboardFunctionMode exchange dCmdPower 0).run machine t b).2 = c at hsend ⊢
    have hc : c.settings = { s.settings with devicePowerState := 0, timingState := 0 } :=
      hsend.trans hb
    rw [poweredOff_memory t (congrArg Settings.devicePowerState hc), hc]
    rfl
  simp only [timeUp, store, setPowerTimCnt, op_bind, ret_bind, run_op, run_bind]
  exact hoff _ (by simp [Board.settings])

theorem threadEntryPowerMonitor_memory (dCmdPower : UInt8) (t : Nat) (s : Board) :
    ((threadEntryPowerMonitor exchange dCmdPower).run machine t s).2.memory =
      s.memory.run s.roundEvents := by
  rw [run_threadEntryPowerMonitor, Board.roundEvents, Memory.run_append, ← afterHour_memory]
  by_cases h : s.timer.Fires
  · rw [if_pos h, if_pos h, timeUp_memory]
    rfl
  · rw [if_neg h, if_neg h, ← afterHour_fanSpeed]
    exact passed_memory t (afterHour s)

/-! ## Lives of the machine -/

/-- From one board to another through whole operations of the firmware, and the events
that they are. Between two operations anything may change but settings and flash. -/
inductive Lived : Board → List Memory.Event → Board → Prop where
  | start (s : Board) : Lived s [] s
  | wifi {s s' : Board} {es : List Memory.Event} (t : Nat) (h : Lived s es s') :
      Lived s (es ++ s'.wifiEvents t) ((wifiDecodeFrame exchange).run machine t s').2
  | display {s s' : Board} {es : List Memory.Event} (t : Nat) (h : Lived s es s') :
      Lived s (es ++ s'.displayEvents) ((getDisplayBoardData exchange).run machine t s').2
  | round {s s' : Board} {es : List Memory.Event} (dCmdPower : UInt8) (t : Nat) (h : Lived s es s') :
      Lived s (es ++ s'.roundEvents) ((threadEntryPowerMonitor exchange dCmdPower).run machine t s').2
  | restart {s s' : Board} {es : List Memory.Event} (t : Nat) (h : Lived s es s') :
      Lived s (es ++ [.restart]) (restarted t s')
  | others {s s' s'' : Board} {es : List Memory.Event} (h : Lived s es s')
      (hsettings : s''.settings = s'.settings) (hflash : s''.flash = s'.flash) : Lived s es s''

/-- **The firmware is the machine.** Whatever frames, replies, rounds and restarts a board
lives through, its settings and its record are those that the events make. -/
theorem memory_refines {s s' : Board} {es : List Memory.Event} (h : Lived s es s') :
    s'.memory = s.memory.run es := by
  induction h with
  | start => rfl
  | wifi t _ ih => rw [wifiDecodeFrame_memory, ih, Memory.run_append]
  | display t _ ih => rw [getDisplayBoardData_memory, ih, Memory.run_append]
  | round dCmdPower t _ ih => rw [threadEntryPowerMonitor_memory, ih, Memory.run_append]
  | restart t _ ih => rw [restarted_memory, ih, Memory.run_append]; rfl
  | others _ hsettings hflash ih => rw [memory_congr hsettings hflash, ih]

/-- The board after reset, its start, a frame, a poll and a round. -/
theorem memory_refines_reset :
    let s₁ := restarted 0 Board.reset
    let s₂ := ((wifiDecodeFrame exchange).run machine decodeThread s₁).2
    let s₃ := ((getDisplayBoardData exchange).run machine 4 s₂).2
    let s₄ := ((threadEntryPowerMonitor exchange 0).run machine 0 s₃).2
    s₄.memory = Board.reset.memory.run
      (((([] ++ [.restart]) ++ s₁.wifiEvents decodeThread) ++ s₂.displayEvents) ++ s₃.roundEvents) :=
  memory_refines (.round 0 0 (.display 4 (.wifi decodeThread (.restart 0 (.start _)))))

/-- **What a power cut between two operations brings back.** Whatever a machine has lived
through since it was started, on whatever flash, a restart finds its mode, its filter and
its lamp as they were (or, if they had no mode, what a start makes of them), the timer not
shorter, and the machine on. -/
theorem restart_restores {s s' : Board} {es : List Memory.Event} (t t' : Nat)
    (h : Lived (restarted t s) es s') :
    let b := restarted t' s'
    let w := Memory.initialised s'.settings
    b.settings.devicePowerState = 1 ∧ b.settings.deviceMode = w.deviceMode ∧
      b.settings.highPressurState = w.highPressurState ∧
      b.settings.phtWorkState = w.phtWorkState ∧
      s'.settings.timingState ≤ b.settings.timingState := by
  intro b w
  have hb : b.memory = s'.memory.step .restart := restarted_memory t' s'
  clear_value b
  have hstart : (restarted t s).memory.Kept := by
    rw [restarted_memory]
    exact Memory.kept_restart _
  have hkept : s'.memory.Kept := by
    rw [memory_refines h]
    exact hstart.run es
  have hwork : b.settings = (Memory.initialised (s'.kept.getD Memory.blank)).powered 1 :=
    (congrArg Memory.work hb).trans (Memory.initialised_powered ..)
  have htiming := hkept.timing
  rw [Memory.initialised_timingState] at htiming
  rw [hwork]
  exact ⟨rfl, hkept.mode, hkept.highPressur, hkept.pht, htiming⟩

theorem restart_restores_reset :
    let s' := ((threadEntryPowerMonitor exchange 0).run machine 0 (restarted 0 Board.manual)).2
    let b := restarted 1 s'
    let w := Memory.initialised s'.settings
    b.settings.devicePowerState = 1 ∧ b.settings.deviceMode = w.deviceMode ∧
      b.settings.highPressurState = w.highPressurState ∧
      b.settings.phtWorkState = w.phtWorkState ∧
      s'.settings.timingState ≤ b.settings.timingState :=
  restart_restores 0 1 (.round 0 0 (.start _))

end Aclean
