import Aclean.ControlPass

/-!
# Pass after pass

Runs of the control pass, with or without commands in between: what becomes of
the stored settings, what phone and panel are told of the machine, and what the
first manual pass behind an automatic one drives.
-/

namespace Aclean

open Board

/-- Successive passes: pass `k` starts on `B k`, and `R` says what may happen
between two of them. -/
def Passes (R : Board → Board → Prop) (B : Nat → Board) : Prop :=
  ∀ k, ∃ t, R ((B k).passed t) (B (k + 1))

/-- Only the pass writes the automatic record. -/
def SameRecord (s s' : Board) : Prop :=
  ∀ i, s'.mem (.deviceWorkDataAuto i) = s.mem (.deviceWorkDataAuto i)

/-- No command, no timer: the settings stay. Readings may change. -/
structure NoCommand (s s' : Board) : Prop where
  settings : s'.settings = s.settings
  record : SameRecord s s'

/-! ## What becomes of the settings -/

/-- The pass stores the fan speed that is stored already. -/
def Undisturbed (s : Board) : Prop :=
  s.mem (work Field.devicePowerState) ≠ 0 →
    (s.mem (work Field.deviceMode) = 1 → s.mem (work Field.windSpeedState) = autoSpeed s.rooms) ∧
      (s.mem (work Field.deviceMode) = 2 → s.mem (work Field.windSpeedState) ≠ 0)

theorem manualSpeed_eq_iff (wind : UInt8) : manualSpeed wind = wind ↔ wind ≠ 0 := by
  unfold manualSpeed
  by_cases h : wind = 0
  · subst h
    simp
  · simp [h]

/-- Of the settings a pass writes the fan speed only. -/
theorem passed_settings (t : Nat) (s : Board) : (s.passed t).settings =
    { s.settings with windSpeedState := (s.passed t).mem (work Field.windSpeedState) } := by
  simp [Board.settings, passed_work]

theorem passed_settings_iff (t : Nat) (s : Board) :
    (s.passed t).settings = s.settings ↔ Undisturbed s := by
  have hwind : (s.passed t).settings = s.settings ↔
      (s.passed t).mem (work Field.windSpeedState) = s.mem (work Field.windSpeedState) := by
    rw [passed_settings]
    constructor
    · intro h
      exact congrArg Settings.windSpeedState h
    · intro h
      rw [h]
      rfl
  rw [hwind, Undisturbed]
  by_cases hpower : s.mem (work Field.devicePowerState) = 0
  · rw [passed_idle t (.inl hpower)]
    exact iff_of_true rfl fun h => absurd hpower h
  · by_cases h1 : s.mem (work Field.deviceMode) = 1
    · rw [(passed_auto t hpower h1).stored]
      simp [hpower, h1, eq_comm]
    · by_cases h2 : s.mem (work Field.deviceMode) = 2
      · rw [(passed_manual t hpower h2).2, manualSpeed_eq_iff]
        simp [hpower, h2]
      · rw [passed_idle t (.inr ⟨h1, h2⟩)]
        simp [h1, h2]

/-- **When passes leave the user's settings alone.** -/
theorem passes_settings_iff {B : Nat → Board} (h : Passes NoCommand B) (n : Nat) :
    ((∀ k ≤ n, (B k).settings = (B 0).settings) ↔ ∀ k < n, Undisturbed (B k)) ∧
      ∀ k t, Confined (B k) ((B k).passed t) := by
  refine ⟨⟨fun hall k hk => ?_, fun hstep k hk => ?_⟩, fun k t => passed_confined t (B k)⟩
  · obtain ⟨t, hnext⟩ := h k
    refine (passed_settings_iff t (B k)).mp ?_
    rw [← hnext.settings, hall (k + 1) hk, hall k (Nat.le_of_lt hk)]
  · induction k with
    | zero => rfl
    | succ k ih =>
        obtain ⟨t, hnext⟩ := h k
        rw [hnext.settings, (passed_settings_iff t (B k)).mpr (hstep k hk)]
        exact ih (Nat.le_of_succ_le hk)

/-- Pass after pass, and nothing in between. -/
def passesFrom (t : Nat) (s : Board) : Nat → Board
  | 0 => s
  | k + 1 => (passesFrom t s k).passed t

theorem passes_passesFrom {R : Board → Board → Prop} (hR : ∀ s, R s s) (t : Nat) (s : Board) :
    Passes R (passesFrom t s) := fun _ => ⟨t, hR _⟩

theorem passes_settings_iff_clean :
    ((∀ k ≤ 3, (passesFrom 0 (Board.automatic 40 200) k).settings = (Board.automatic 40 200).settings) ↔
        ∀ k < 3, Undisturbed (passesFrom 0 (Board.automatic 40 200) k)) ∧
      ∀ k t, Confined (passesFrom 0 (Board.automatic 40 200) k)
        ((passesFrom 0 (Board.automatic 40 200) k).passed t) :=
  passes_settings_iff (passes_passesFrom (fun _ => ⟨rfl, fun _ => rfl⟩) 0 (Board.automatic 40 200)) 3

/-- The user's speed 2 becomes 0 in clean air. -/
theorem passes_settings_counterexample :
    ((Board.automatic 40 200).set (work Field.windSpeedState) 2).settings.InRange ∧
      (((Board.automatic 40 200).set (work Field.windSpeedState) 2).passed 0).settings ≠
        ((Board.automatic 40 200).set (work Field.windSpeedState) 2).settings := by
  refine ⟨⟨by decide, by decide, by decide, by decide, by decide, by decide⟩, fun h => ?_⟩
  exact absurd (congrArg Settings.windSpeedState h) (by decide +kernel)

/-! ## What phone and panel are told -/

/-- Two frames agree on fan speed, filter and heater. -/
def SameMachine (phone panel : List UInt8) : Prop :=
  phone.getD (4 + Field.windSpeedState) 0 = panel.getD (4 + Field.windSpeedState) 0 ∧
    phone.getD (4 + Field.highPressurState) 0 = panel.getD (4 + Field.highPressurState) 0 ∧
    phone.getD (4 + Field.phtWorkState) 0 = panel.getD (4 + Field.phtWorkState) 0

instance (phone panel : List UInt8) : Decidable (SameMachine phone panel) :=
  inferInstanceAs (Decidable (_ ∧ _))

/-- While it is on, the phone is told the settings, or in automatic mode the record. -/
theorem statusFrame_machine (t : Nat) {s : Board}
    (hpower : s.mem (work Field.devicePowerState) ≠ 0) {i : Nat} (h2 : 2 ≤ i) (h4 : i ≤ 4) :
    (statusFrame t s).getD (4 + i) 0 =
      if s.mem (work Field.deviceMode) = 1 then s.mem (.deviceWorkDataAuto i)
      else s.mem (work i) := by
  rw [statusFrame_eq, Board.statusBuftmp, if_neg hpower]
  by_cases hmode : s.mem (work Field.deviceMode) = 1
  · rw [if_pos hmode, if_pos hmode]
    obtain rfl | rfl | rfl : i = 2 ∨ i = 3 ∨ i = 4 := by omega
    all_goals simp [packed]
  · rw [if_neg hmode, if_neg hmode]
    exact packed_getD [0x01, 0x1b] (k := 0) rfl (Nat.zero_le _) (by omega) 0xF2 _ s

theorem sameMachine_iff (t t' : Nat) {s : Board}
    (hpower : s.mem (work Field.devicePowerState) ≠ 0) :
    SameMachine (statusFrame t s) (pushed t' s) ↔ (s.mem (work Field.deviceMode) = 1 →
      s.mem (.deviceWorkDataAuto Field.windSpeedState) = s.mem (work Field.windSpeedState) ∧
        s.mem (.deviceWorkDataAuto Field.highPressurState) = s.mem (work Field.highPressurState) ∧
        s.mem (.deviceWorkDataAuto Field.phtWorkState) = s.mem (work Field.phtWorkState)) := by
  unfold SameMachine
  rw [pushed_getD (by decide), pushed_getD (by decide), pushed_getD (by decide),
    statusFrame_machine t hpower (by decide) (by decide),
    statusFrame_machine t hpower (by decide) (by decide),
    statusFrame_machine t hpower (by decide) (by decide)]
  by_cases hmode : s.mem (work Field.deviceMode) = 1
  · simp [hmode]
  · simp [hmode]

/-- What no pass and nothing in between changes. -/
theorem Passes.kept {B : Nat → Board} (h : Passes NoCommand B) (n : Nat) :
    (B n).settings = { (B 0).settings with windSpeedState := (B n).settings.windSpeedState } := by
  induction n with
  | zero => rfl
  | succ n ih =>
      obtain ⟨t, hnext⟩ := h n
      rw [hnext.settings, passed_settings, ih]

/-- **When phone and panel show the same machine**: in manual mode, and in
automatic mode if the stored settings of filter and heater happen to be what the
readings ask for. -/
theorem phone_and_panel_iff {B : Nat → Board} (h : Passes NoCommand B) {n : Nat} (hn : 1 ≤ n)
    (hpower : (B 0).settings.devicePowerState ≠ 0)
    (hmode : (B 0).settings.deviceMode = 1 ∨ (B 0).settings.deviceMode = 2) (t t' : Nat) :
    SameMachine (statusFrame t (B n)) (pushed t' (B n)) ↔ (B 0).settings.deviceMode = 2 ∨
      ((B 0).settings.highPressurState = (if NeedsAir (B (n - 1)).rooms then 1 else 0) ∧
        (B 0).settings.phtWorkState = (if NeedsAir (B (n - 1)).rooms then 1 else 0)) := by
  obtain ⟨m, rfl⟩ : ∃ m, n = m + 1 := ⟨n - 1, by omega⟩
  rw [Nat.add_sub_cancel]
  have hpower' : (B (m + 1)).mem (work Field.devicePowerState) = (B 0).settings.devicePowerState :=
    congrArg Settings.devicePowerState (h.kept (m + 1))
  have hmode' : (B (m + 1)).mem (work Field.deviceMode) = (B 0).settings.deviceMode :=
    congrArg Settings.deviceMode (h.kept (m + 1))
  have hhp : (B (m + 1)).mem (work Field.highPressurState) = (B 0).settings.highPressurState :=
    congrArg Settings.highPressurState (h.kept (m + 1))
  have hpht : (B (m + 1)).mem (work Field.phtWorkState) = (B 0).settings.phtWorkState :=
    congrArg Settings.phtWorkState (h.kept (m + 1))
  rw [sameMachine_iff t t' (by rwa [hpower']), hmode', hhp, hpht]
  rcases hmode with h1 | h2
  · -- the last pass was an automatic one: record and fan speed are its choice
    obtain ⟨u, hnext⟩ := h m
    have hauto : (B m).Automatic := by
      refine ⟨?_, ?_⟩
      · exact fun h0 => hpower ((congrArg Settings.devicePowerState (h.kept m)).symm.trans h0)
      · exact (congrArg Settings.deviceMode (h.kept m)).trans h1
    have hchosen := hauto.passed u
    have hwind : (B (m + 1)).mem (work Field.windSpeedState) = autoSpeed (B m).rooms :=
      (congrArg Settings.windSpeedState hnext.settings).trans hchosen.stored
    rw [hnext.record, hnext.record, hnext.record, hchosen.recorded.wind, hchosen.recorded.highPressur,
      hchosen.recorded.pht, hwind, ← autoOn_eq]
    simp [h1, eq_comm]
  · simp [h2]

theorem phone_and_panel_iff_manual :
    SameMachine (statusFrame 0 (passesFrom 0 Board.manual 1)) (pushed 0 (passesFrom 0 Board.manual 1)) ↔
      (passesFrom 0 Board.manual 0).settings.deviceMode = 2 ∨
        ((passesFrom 0 Board.manual 0).settings.highPressurState =
            (if NeedsAir (passesFrom 0 Board.manual (1 - 1)).rooms then 1 else 0) ∧
          (passesFrom 0 Board.manual 0).settings.phtWorkState =
            (if NeedsAir (passesFrom 0 Board.manual (1 - 1)).rooms then 1 else 0)) :=
  phone_and_panel_iff (passes_passesFrom (fun _ => ⟨rfl, fun _ => rfl⟩) 0 Board.manual) (by decide)
    (by decide) (.inr rfl) 0 0

/-- Heavily polluted air: the phone shows the filter on, the panel shows it off. -/
theorem phone_and_panel_counterexample :
    (Board.automatic 140 200).settings.InRange ∧
      ¬ SameMachine (statusFrame 0 ((Board.automatic 140 200).passed 0))
        (pushed 0 ((Board.automatic 140 200).passed 0)) := by
  refine ⟨⟨by decide, by decide, by decide, by decide, by decide, by decide⟩, ?_⟩
  decide +kernel

/-! ## From automatic to manual -/

section Handover

variable (B : Nat → Board)

/-- Successive passes with the power on; commands may come in between. -/
structure PoweredPasses : Prop where
  next : Passes SameRecord B
  power : ∀ k, (B k).settings.devicePowerState ≠ 0

/-- Pass `k` is the first manual one behind an automatic one. -/
def FirstManual (k : Nat) : Prop :=
  (B k).settings.deviceMode = 2 ∧
    ∃ j < k, (B j).settings.deviceMode = 1 ∧ ∀ i, j < i → i < k → (B i).settings.deviceMode ≠ 2

/-- Pass `k` is a manual one behind such a first one, with no automatic one since. -/
def LaterManual (k : Nat) : Prop :=
  (B k).settings.deviceMode = 2 ∧
    ∃ j < k, FirstManual B j ∧ ∀ i, j < i → i < k → (B i).settings.deviceMode ≠ 1

/-- The first manual pass drives the fallback, the later ones the stored settings. -/
structure HandsOver : Prop where
  first : ∀ k t, FirstManual B k → ((B k).passed t).Driven 1 1 1
  later : ∀ k t, LaterManual B k → ((B k).passed t).Driven (B k).settings.highPressurState
    (B k).settings.phtWorkState (B k).settings.windSpeedState

/-- The stored settings are the fallback where it is due, and no later manual
pass finds the fan stored as off. -/
structure FallbackStored : Prop where
  first : ∀ k, FirstManual B k → (B k).settings.highPressurState ≠ 0 ∧ (B k).settings.phtWorkState ≠ 0 ∧
    ((B k).settings.windSpeedState = 0 ∨ (B k).settings.windSpeedState = 1)
  later : ∀ k, LaterManual B k → (B k).settings.windSpeedState ≠ 0

end Handover

theorem manualSpeed_eq_one_iff (wind : UInt8) : manualSpeed wind = 1 ↔ wind = 0 ∨ wind = 1 := by
  unfold manualSpeed
  by_cases h : wind = 0
  · simp [h]
  · simp [h]

/-- The first manual pass drives what any other would. -/
theorem passed_fallback_iff (t : Nat) {s : Board} (hpower : s.settings.devicePowerState ≠ 0)
    (hmode : s.settings.deviceMode = 2) : (s.passed t).Driven 1 1 1 ↔
      s.settings.highPressurState ≠ 0 ∧ s.settings.phtWorkState ≠ 0 ∧
        (s.settings.windSpeedState = 0 ∨ s.settings.windSpeedState = 1) := by
  obtain ⟨⟨hpins, hspeed⟩, -⟩ := passed_manual t hpower hmode
  rw [← manualSpeed_eq_one_iff]
  constructor
  · rintro ⟨hpins', -⟩
    rw [hpins] at hpins'
    have hhp := congrFun hpins' .pb1
    have hpht := congrFun hpins' .pb15
    have hwind := congrFun hpins' .pb14
    simpa [outputs, Board.settings] using And.intro hhp (And.intro hpht hwind)
  · rintro ⟨hhp, hpht, hwind⟩
    change s.mem (work Field.highPressurState) ≠ 0 at hhp
    change s.mem (work Field.phtWorkState) ≠ 0 at hpht
    change manualSpeed (s.mem (work Field.windSpeedState)) = 1 at hwind
    rw [hwind] at hpins hspeed
    refine ⟨hpins.trans ?_, hspeed⟩
    funext p
    cases p <;> simp [outputs, hhp, hpht]

theorem passed_stored_iff (t : Nat) {s : Board} (hpower : s.settings.devicePowerState ≠ 0)
    (hmode : s.settings.deviceMode = 2) :
    (s.passed t).Driven s.settings.highPressurState s.settings.phtWorkState s.settings.windSpeedState ↔
      s.settings.windSpeedState ≠ 0 := by
  have hdriven := (passed_manual t hpower hmode).1
  constructor
  · rintro ⟨hpins, -⟩ hwind
    change s.mem (work Field.windSpeedState) = 0 at hwind
    have h14 := congrFun (hdriven.pins.symm.trans hpins) .pb14
    simp [outputs, Board.settings, hwind, manualSpeed] at h14
  · intro hwind
    have hsame := (manualSpeed_eq_iff (s.mem (work Field.windSpeedState))).mpr hwind
    rwa [hsame] at hdriven

/-- **When the first manual pass starts from the fallback.** The mark that the
automatic branch leaves does not reach the next pass: every manual pass drives
the stored settings, a fan stored as off as one at speed 1. -/
theorem handover_iff {B : Nat → Board} (h : PoweredPasses B) : HandsOver B ↔ FallbackStored B := by
  constructor
  · rintro ⟨hfirst, hlater⟩
    refine ⟨fun k hk => ?_, fun k hk => ?_⟩
    · exact (passed_fallback_iff 0 (h.power k) hk.1).mp (hfirst k 0 hk)
    · exact (passed_stored_iff 0 (h.power k) hk.1).mp (hlater k 0 hk)
  · rintro ⟨hfirst, hlater⟩
    refine ⟨fun k t hk => ?_, fun k t hk => ?_⟩
    · exact (passed_fallback_iff t (h.power k) hk.1).mpr (hfirst k hk)
    · exact (passed_stored_iff t (h.power k) hk.1).mpr (hlater k hk)

/-- Automatic in polluted air, then manual. -/
def handoverRun : Nat → Board
  | 0 => Board.automatic 140 200
  | k + 1 => ((handoverRun k).passed 0).set (work Field.deviceMode) 2

theorem poweredPasses_handoverRun : PoweredPasses handoverRun := by
  refine ⟨fun k => ⟨0, fun i => ?_⟩, fun k => ?_⟩
  · simp [handoverRun]
  · induction k with
    | zero => decide
    | succ k ih =>
        have hpower : (handoverRun (k + 1)).settings.devicePowerState =
            (handoverRun k).settings.devicePowerState := by
          simp [handoverRun, Board.settings, passed_work]
        rwa [hpower]

theorem handover_iff_run : HandsOver handoverRun ↔ FallbackStored handoverRun :=
  handover_iff poweredPasses_handoverRun

/-- With filter and heater stored as off, the first manual pass leaves them off. -/
theorem handover_counterexample : PoweredPasses handoverRun ∧ ¬ HandsOver handoverRun := by
  refine ⟨poweredPasses_handoverRun, fun h => ?_⟩
  have hfirst : FirstManual handoverRun 1 := by
    refine ⟨by decide +kernel, 0, Nat.one_pos, rfl, fun i h0 h1 => ?_⟩
    omega
  exact absurd (congrFun (h.first 1 0 hfirst).pins .pb1) (by decide +kernel)

end Aclean
