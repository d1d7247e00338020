import Aclean.OffState
import Aclean.PassRuns
import Aclean.PowerOn

/-!
# What the outputs say

The three relays encode a fan speed, two more pins are filter and heater. The
WiFi status frame tells of exactly these, whatever the passes have driven. The
command switch keeps them in line with the settings, with two exceptions: a fan
speed that is no speed is not stored, but it is driven; and a record out of
range is reloaded as it is.
-/

namespace Aclean

open Board Prog

/-! ## The encoding -/

abbrev relays : List Pin := [.pb12, .pb13, .pb14]

/-- The three relays say that the fan runs at speed `wind`. -/
structure Encodes (g : Pin → Bool) (wind : UInt8) : Prop where
  speed : wind ≤ 3
  pins : ∀ p ∈ relays, g p = outputs 0 0 wind p

instance (g : Pin → Bool) (wind : UInt8) : Decidable (Encodes g wind) :=
  decidable_of_iff (wind ≤ 3 ∧ ∀ p ∈ relays, g p = outputs 0 0 wind p)
    ⟨fun h => ⟨h.1, h.2⟩, fun h => ⟨h.speed, h.pins⟩⟩

def level (on : Bool) : UInt8 := if on then 1 else 0

theorem outputs_relay (hp pht wind : UInt8) {p : Pin} (h : p ∈ relays) :
    outputs hp pht wind p = outputs 0 0 wind p := by
  cases p with
  | pb1 => exact absurd h (by decide)
  | pb15 => exact absurd h (by decide)
  | _ => rfl

theorem encodes_outputs_iff (hp pht wind : UInt8) :
    Encodes (outputs hp pht wind) wind ↔ wind ≤ 3 :=
  ⟨Encodes.speed, fun h => ⟨h, fun _ hp => outputs_relay _ _ _ hp⟩⟩

/-- The relays tell the speed. -/
theorem Encodes.pins_eq {g g' : Pin → Bool} {wind : UInt8} (h : Encodes g wind)
    (h' : Encodes g' wind) {p : Pin} (hp : p ∈ relays) : g p = g' p :=
  (h.pins p hp).trans (h'.pins p hp).symm

theorem level_ne_zero (v : UInt8) : level (v != 0) = v ↔ v ≤ 1 := by
  constructor
  · intro h
    rw [← h]
    unfold level
    split <;> decide
  · intro h
    rcases byte_le_one h with rfl | rfl <;> rfl

/-! ## What the phone is told -/

/-- A status frame tells what the outputs do. -/
structure Tells (frame : List UInt8) (g : Pin → Bool) : Prop where
  wind : Encodes g (frame.getD (4 + Field.windSpeedState) 0)
  highPressur : frame.getD (4 + Field.highPressurState) 0 = level (g .pb1)
  pht : frame.getD (4 + Field.phtWorkState) 0 = level (g .pb15)

/-- No command: what happens between two passes touches neither settings (but the
timer) nor record nor outputs. Readings may change. -/
structure Quiet (s s' : Board) : Prop where
  settings : ∀ i < Field.timingState, s'.mem (work i) = s.mem (work i)
  record : SameRecord s s'
  pins : s'.gpio = s.gpio

/-- On, in one of the two modes, and driven by settings in range. -/
structure Board.Running (s : Board) : Prop where
  power : s.mem (work Field.devicePowerState) ≠ 0
  mode : s.mem (work Field.deviceMode) = 1 ∨ s.mem (work Field.deviceMode) = 2
  wind : s.mem (work Field.windSpeedState) ≤ 3
  highPressur : s.mem (work Field.highPressurState) ≤ 1
  pht : s.mem (work Field.phtWorkState) ≤ 1

theorem manualSpeed_le {wind : UInt8} (h : wind ≤ 3) : manualSpeed wind ≤ 3 := by
  unfold manualSpeed
  split
  · decide
  · exact h

theorem Board.Running.passed {s : Board} (h : s.Running) (t : Nat) : (s.passed t).Running where
  power := by
    rw [passed_work t s (by decide)]
    exact h.power
  mode := by
    rw [passed_work t s (by decide)]
    exact h.mode
  wind := by
    rcases h.mode with h1 | h2
    · rw [(passed_auto t h.power h1).stored]
      exact (autoSpeed_levels s.rooms).1
    · rw [(passed_manual t h.power h2).2]
      exact manualSpeed_le h.wind
  highPressur := by
    rw [passed_work t s (by decide)]
    exact h.highPressur
  pht := by
    rw [passed_work t s (by decide)]
    exact h.pht

theorem Board.Running.quiet {s s' : Board} (h : s.Running) (hq : Quiet s s') : s'.Running := by
  have hsettings := hq.settings
  obtain ⟨hpower, hmode, hwind, hhp, hpht⟩ := h
  refine ⟨?_, ?_, ?_, ?_, ?_⟩
  · rwa [hsettings _ (by decide)]
  · rwa [hsettings _ (by decide)]
  · rwa [hsettings _ (by decide)]
  · rwa [hsettings _ (by decide)]
  · rwa [hsettings _ (by decide)]

/-- One pass, and the frame tells of it. -/
theorem tells_passed {s s' : Board} (h : s.Running) {t : Nat} (hq : Quiet (s.passed t) s')
    (t' : Nat) :
    Tells (statusFrame t' s') s'.gpio := by
  have hrun := (h.passed t).quiet hq
  have hframe : ∀ i, 2 ≤ i → i ≤ 4 → (statusFrame t' s').getD (4 + i) 0 =
      if (s.passed t).mem (work Field.deviceMode) = 1 then (s.passed t).mem (.deviceWorkDataAuto i)
      else (s.passed t).mem (work i) := by
    intro i h2 h4
    rw [statusFrame_machine t' hrun.power h2 h4, hq.settings _ (by decide), hq.record i,
      hq.settings i (Nat.lt_succ_of_le h4)]
  have hmode' : (s.passed t).mem (work Field.deviceMode) = s.mem (work Field.deviceMode) :=
    passed_work t s (by decide)
  rw [hmode'] at hframe
  rcases h.mode with h1 | h2
  · obtain ⟨⟨hpins, -⟩, hrecord, -⟩ := passed_auto t h.power h1
    simp only [h1, if_true] at hframe
    rw [hq.pins, hpins]
    have hon : autoOn s.rooms ≤ 1 := by
      unfold autoOn
      split <;> decide
    refine ⟨?_, ?_, ?_⟩
    · rw [hframe _ (by decide) (by decide), hrecord.wind, encodes_outputs_iff]
      exact (autoSpeed_levels s.rooms).1
    · rw [hframe _ (by decide) (by decide), hrecord.highPressur]
      exact ((level_ne_zero _).mpr hon).symm
    · rw [hframe _ (by decide) (by decide), hrecord.pht]
      exact ((level_ne_zero _).mpr hon).symm
  · obtain ⟨⟨hpins, -⟩, hwind⟩ := passed_manual t h.power h2
    have hne : ¬ s.mem (work Field.deviceMode) = 1 := by
      rw [h2]
      decide
    simp only [hne, if_false] at hframe
    rw [hq.pins, hpins]
    refine ⟨?_, ?_, ?_⟩
    · rw [hframe _ (by decide) (by decide), hwind, encodes_outputs_iff]
      exact manualSpeed_le h.wind
    · rw [hframe _ (by decide) (by decide), passed_work t s (by decide)]
      exact ((level_ne_zero _).mpr h.highPressur).symm
    · rw [hframe _ (by decide) (by decide), passed_work t s (by decide)]
      exact ((level_ne_zero _).mpr h.pht).symm

theorem Passes.running {B : Nat → Board} (h : Passes Quiet B) (h0 : (B 0).Running) (n : Nat) :
    (B n).Running := by
  induction n with
  | zero => exact h0
  | succ n ih =>
      obtain ⟨t, hnext⟩ := h n
      exact (ih.passed t).quiet hnext

/-- **The status frame tells what the machine is doing**, after any number of
passes with no command in between. -/
theorem status_tells_outputs {B : Nat → Board} (h : Passes Quiet B) {n : Nat} (hn : 1 ≤ n)
    (hrange : (B 0).settings.InRange) (hpower : (B 0).settings.devicePowerState ≠ 0)
    (hmode : (B 0).settings.deviceMode = 1 ∨ (B 0).settings.deviceMode = 2) (t : Nat) :
    Tells (statusFrame t (B n)) (B n).gpio := by
  obtain ⟨m, rfl⟩ : ∃ m, n = m + 1 := ⟨n - 1, by omega⟩
  have h0 : (B 0).Running := ⟨hpower, hmode, hrange.wind, hrange.highPressur, hrange.pht⟩
  obtain ⟨u, hnext⟩ := h m
  exact tells_passed (h.running h0 m) hnext t

theorem status_tells_outputs_automatic :
    Tells (statusFrame 0 (passesFrom 0 (Board.automatic 140 200) 2))
      (passesFrom 0 (Board.automatic 140 200) 2).gpio :=
  status_tells_outputs (passes_passesFrom (fun _ => ⟨fun _ _ => rfl, fun _ => rfl, rfl⟩) 0 _)
    (by decide) ⟨by decide, by decide, by decide, by decide, by decide, by decide⟩ (by decide)
    (.inl rfl) 0

/-! ## What a command drives -/

/-- The outputs are those of the settings; of a device that is off they are off. -/
structure Board.InLine (s : Board) : Prop where
  fan : s.mem (work Field.devicePowerState) ≠ 0 → Encodes s.gpio (s.mem (work Field.windSpeedState))
  heater : s.mem (work Field.devicePowerState) ≠ 0 →
    level (s.gpio .pb15) = s.mem (work Field.phtWorkState)
  off : s.mem (work Field.devicePowerState) = 0 → ∀ p, s.gpio p = false

/-- A command leaves the outputs in line, and the relays alone if it leaves the
settings alone. -/
structure Obeyed (s s' : Board) : Prop where
  inLine : s'.InLine
  relays : s'.settings = s.settings → ∀ p ∈ relays, s'.gpio p = s.gpio p

/-- The pins behind the switch of a command that is not power. -/
def switchedPins (type data : UInt8) (g : Pin → Bool) : Pin → Bool :=
  if type = 0x05 then Function.update g .pb15 (data != 0)
  else if type = 0x07 then relaysSet data g
  else g

theorem commandSwitch_gpio {type : UInt8} (h : 3 ≤ type ∧ type ≤ 7) (data : UInt8) (t : Nat)
    (s : Board) :
    ((commandSwitch type data).run machine t s).2.gpio = switchedPins type data s.gpio := by
  rcases setting_command_cases h with rfl | rfl | rfl | rfl | rfl
  · by_cases hd : data = 1 ∨ data = 2 <;> simp [commandSwitch, switchedPins, hd]
  · simp [commandSwitch, switchedPins]
  · simp [commandSwitch, switchedPins, acPhtSet, pht_clamped]
  · simp [commandSwitch, switchedPins]
  · have hspeed := run_plain_gpio (setDcMotorSpeed_plain data) t
    by_cases hd : data ≤ 3
    · simp [commandSwitch, switchedPins, hd, run_acAcMotorSet, hspeed]
    · simp [commandSwitch, switchedPins, hd, run_acAcMotorSet, hspeed]

/-- On a device that is on and in manual mode every command reaches the switch;
what stands before and behind it touches neither settings nor pins. -/
theorem run_accepted {s : Board} (hon : s.settings.devicePowerState ≠ 0)
    (hmode : s.settings.deviceMode = 2) (type data : UInt8) (t : Nat)
    (hknown : ∀ b, ((commandSwitch type data).run machine t b).1 = true) :
    ∃ b : Board, b.settings = s.settings ∧ b.gpio = s.gpio ∧
      ((setDeviceWorkMode exchange type data 0).run machine t s).2.settings =
        ((commandSwitch type data).run machine t b).2.settings ∧
      ((setDeviceWorkMode exchange type data 0).run machine t s).2.gpio =
        ((commandSwitch type data).run machine t b).2.gpio := by
  have happly : ∀ c : Board, (applyCommand exchange type data 0).run machine t c =
      saveIfChanged.run machine t
        ((commandSwitch type data).run machine t (backupWorkData.run machine t c).2).2 := by
    intro c
    simp [applyCommand, hknown]
  have hmode' : s.mem (work 1) = 2 := hmode
  have hon' : s.mem (work 0) ≠ 0 := hon
  have hrun : (setDeviceWorkMode exchange type data 0).run machine t s =
      (applyCommand exchange type data 0).run machine t
        { s with log := s.log ++ [.setDeviceWorkMode type data 0] } := by
    by_cases hguard : type ≠ 0x02 ∧ type ≠ 0x03
    · simp [setDeviceWorkMode, if_pos hguard, hmode', hon']
    · simp [setDeviceWorkMode, if_neg hguard]
  refine ⟨(backupWorkData.run machine t
    { s with log := s.log ++ [.setDeviceWorkMode type data 0] }).2, ?_, ?_, ?_, ?_⟩
  · exact run_plain_settings backupWorkData_plain t _
  · exact run_plain_gpio backupWorkData_plain t _
  · rw [hrun, happly]
    exact run_plain_settings saveIfChanged_plain t _
  · rw [hrun, happly]
    exact run_plain_gpio saveIfChanged_plain t _

theorem switchedOff_isOff {s : Board} (hon : s.settings.devicePowerState ≠ 0)
    (hmode : s.settings.deviceMode = 2) (t : Nat) :
    ((setDeviceWorkMode exchange 0x02 0 0).run machine t s).2.IsOff := by
  have hswitch : ∀ b : Board, (commandSwitch 0x02 0).run machine t b =
      (true, ((aircleanPowerOnoff 0).run machine t (b.set (work Field.devicePowerState) 0)).2) := by
    intro b
    rw [commandSwitch, if_pos rfl, if_neg (by decide), run_bind]
    rfl
  obtain ⟨b, -, -, hsettings, hpins⟩ := run_accepted hon hmode 0x02 0 t fun b => by rw [hswitch]
  have hoff := aircleanPowerOnoff_off t (b.set (work Field.devicePowerState) 0)
  rw [hswitch] at hsettings hpins
  generalize ((aircleanPowerOnoff 0).run machine t _).2 = c at hoff hsettings hpins
  generalize ((setDeviceWorkMode exchange 0x02 0 0).run machine t s).2 = s' at hsettings hpins
  refine ⟨(congrArg Settings.devicePowerState hsettings).trans hoff.power, fun p => ?_⟩
  rw [hpins]
  exact hoff.outputs p

/-- The pins of the relays, behind a command that is not power. -/
theorem switchedPins_relay {type : UInt8} (h7 : type ≠ 0x07) (data : UInt8) (g : Pin → Bool)
    {p : Pin} (hp : p ∈ relays) : switchedPins type data g p = g p := by
  have hne : p ≠ .pb15 := by
    rintro rfl
    exact absurd hp (by decide)
  unfold switchedPins
  rw [if_neg h7]
  split
  · exact Function.update_of_ne hne _ _
  · rfl

theorem relaysSet_relay (wind : UInt8) (g : Pin → Bool) {p : Pin} (hp : p ∈ relays) :
    relaysSet wind g p = outputs 0 0 wind p := by
  cases p with
  | pb1 => exact absurd hp (by decide)
  | pb15 => exact absurd hp (by decide)
  | _ => rfl

/-- Relays that are all off encode no speed but 0. -/
theorem outputs_invalid {wind : UInt8} (h : ¬ wind ≤ 3) {p : Pin} (hp : p ∈ relays) :
    outputs 0 0 wind p = false := by
  have hne : ∀ v : UInt8, v ≤ 3 → (wind == v) = false := by
    rintro v hv
    rw [beq_eq_false_iff_ne]
    rintro rfl
    exact h hv
  cases p with
  | pb1 => exact absurd hp (by decide)
  | pb15 => exact absurd hp (by decide)
  | pb12 => exact hne 3 (by decide)
  | pb13 => exact hne 2 (by decide)
  | pb14 => exact hne 1 (by decide)

theorem encodes_all_off_iff {wind : UInt8} {g : Pin → Bool} (hoff : ∀ p ∈ relays, g p = false)
    (hwind : wind ≤ 3) : Encodes g wind ↔ wind = 0 := by
  constructor
  · intro h
    rcases byte_le_three hwind with rfl | rfl | rfl | rfl
    · rfl
    · exact absurd ((hoff .pb14 (by decide)).symm.trans (h.pins .pb14 (by decide))) (by decide)
    · exact absurd ((hoff .pb13 (by decide)).symm.trans (h.pins .pb13 (by decide))) (by decide)
    · exact absurd ((hoff .pb12 (by decide)).symm.trans (h.pins .pb12 (by decide))) (by decide)
  · rintro rfl
    refine ⟨by decide, fun p hp => (hoff p hp).trans ?_⟩
    revert hp
    cases p <;> decide

section Command

variable {s s' : Board} (hon : s.settings.devicePowerState ≠ 0) (hrange : s.settings.InRange)
  (hline : s.InLine)
include hon hrange hline

omit hrange hline in
/-- On a board that stays on, what the four pins have to say. -/
theorem obeyed_iff (hpower : s'.settings.devicePowerState = s.settings.devicePowerState) :
    Obeyed s s' ↔ (Encodes s'.gpio s'.settings.windSpeedState ∧
      level (s'.gpio .pb15) = s'.settings.phtWorkState) ∧
        (s'.settings = s.settings → ∀ p ∈ relays, s'.gpio p = s.gpio p) := by
  have hon' : s'.mem (work Field.devicePowerState) ≠ 0 := by
    intro h0
    exact hon (hpower.symm.trans h0)
  constructor
  · intro h
    exact ⟨⟨h.inLine.fan hon', h.inLine.heater hon'⟩, h.relays⟩
  · rintro ⟨⟨hfan, hheater⟩, hrelays⟩
    exact ⟨⟨fun _ => hfan, fun _ => hheater, fun h0 => absurd h0 hon'⟩, hrelays⟩

omit hrange in
/-- No command but power takes the heater out of line. -/
theorem heater_follows {type data : UInt8} (h : 3 ≤ type ∧ type ≤ 7)
    (hsettings : s'.settings = Disp.f1Switch type data s.settings)
    (hpins : s'.gpio = switchedPins type data s.gpio) :
    level (s'.gpio .pb15) = s'.settings.phtWorkState := by
  have hheater : level (s.gpio .pb15) = s.settings.phtWorkState := hline.heater hon
  rw [hpins, hsettings]
  rcases setting_command_cases h with rfl | rfl | rfl | rfl | rfl
  · by_cases hd : data = 1 ∨ data = 2 <;> simpa [Disp.f1Switch, switchedPins, hd] using hheater
  · exact hheater
  · by_cases hd : data = 0 <;> simp [Disp.f1Switch, switchedPins, level, hd]
  · exact hheater
  · have hpin : relaysSet data s.gpio .pb15 = s.gpio .pb15 := rfl
    by_cases hd : data ≤ 3 <;> simpa [Disp.f1Switch, switchedPins, hpin, hd] using hheater

/-- The wind speed, whose relays are set before its value is looked at. -/
theorem obeyed_wind_iff {data : UInt8}
    (hsettings : s'.settings = Disp.f1Switch 0x07 data s.settings)
    (hpins : s'.gpio = switchedPins 0x07 data s.gpio) :
    Obeyed s s' ↔ data ≤ 3 ∨ s.settings.windSpeedState = 0 := by
  have hpower : s'.settings.devicePowerState = s.settings.devicePowerState :=
    (congrArg Settings.devicePowerState hsettings).trans (f1Switch_power (by decide) data _)
  have hfan : Encodes s.gpio s.settings.windSpeedState := hline.fan hon
  have hwind : s'.settings.windSpeedState =
      if data ≤ 3 then data else s.settings.windSpeedState := by
    rw [hsettings]
    by_cases hd : data ≤ 3 <;> simp [Disp.f1Switch, hd]
  have hrelay : ∀ p ∈ relays, s'.gpio p = outputs 0 0 data p := by
    intro p hp
    rw [hpins]
    exact relaysSet_relay data s.gpio hp
  have hheater := heater_follows hon hline (by decide) hsettings hpins
  rw [obeyed_iff hon hpower, eq_true hheater, and_true, hwind]
  by_cases hd : data ≤ 3
  · rw [if_pos hd] at hwind ⊢
    refine iff_of_true ⟨⟨hd, hrelay⟩, fun hsame p hp => ?_⟩ (.inl hd)
    have hdata : data = s.settings.windSpeedState := by rw [← hwind, hsame]
    rw [hrelay p hp, hdata]
    exact (hfan.pins p hp).symm
  · -- driven as all off, stored not at all
    rw [if_neg hd, or_iff_right hd]
    have hoff : ∀ p ∈ relays, s'.gpio p = false := fun p hp =>
      (hrelay p hp).trans (outputs_invalid hd hp)
    have henc := encodes_all_off_iff hoff hrange.wind
    constructor
    · rintro ⟨hl, -⟩
      exact henc.mp hl
    · intro h0
      have hzero := henc.mpr h0
      exact ⟨hzero, fun _ p hp => hzero.pins_eq hfan hp⟩

/-- The commands but power. -/
theorem obeyed_setting_iff {type data : UInt8} (h : 3 ≤ type ∧ type ≤ 7)
    (hsettings : s'.settings = Disp.f1Switch type data s.settings)
    (hpins : s'.gpio = switchedPins type data s.gpio) :
    Obeyed s s' ↔ (type = 0x07 → data ≤ 3 ∨ s.settings.windSpeedState = 0) := by
  by_cases h7 : type = 0x07
  · subst h7
    rw [obeyed_wind_iff hon hrange hline hsettings hpins]
    exact ⟨fun hob _ => hob, fun hob => hob rfl⟩
  · have hpower : s'.settings.devicePowerState = s.settings.devicePowerState :=
      (congrArg Settings.devicePowerState hsettings).trans (f1Switch_power h.1 data _)
    have hfan : Encodes s.gpio s.settings.windSpeedState := hline.fan hon
    have hwind : s'.settings.windSpeedState = s.settings.windSpeedState := by
      rw [hsettings]
      simp only [Disp.f1Switch, if_neg h7, apply_ite Settings.windSpeedState, ite_self]
    have hrelay : ∀ p ∈ relays, s'.gpio p = s.gpio p := by
      intro p hp
      rw [hpins]
      exact switchedPins_relay h7 data s.gpio hp
    have hheater := heater_follows hon hline h hsettings hpins
    rw [obeyed_iff hon hpower, eq_true hheater, and_true, hwind]
    refine iff_of_true ⟨⟨hrange.wind, fun p hp => ?_⟩, fun _ => hrelay⟩ fun heq => absurd heq h7
    exact (hrelay p hp).trans (hfan.pins p hp)

omit hrange in
/-- Power-on, which reloads the record. -/
theorem obeyed_switchedOn_iff (h : SwitchedOn s s') :
    Obeyed s s' ↔ s.recalled Field.windSpeedState ≤ 3 ∧ s.recalled Field.phtWorkState ≤ 1 := by
  have hpower : s'.mem (work Field.devicePowerState) ≠ 0 := by
    rw [h.power]
    decide
  have hwind := h.bytes Field.windSpeedState (by decide) (by decide)
  have hpht := h.bytes Field.phtWorkState (by decide) (by decide)
  constructor
  · intro hob
    have hfan := hob.inLine.fan hpower
    have hheater := hob.inLine.heater hpower
    rw [h.pins] at hfan hheater
    rw [hpht] at hheater
    rw [hwind] at hfan
    exact ⟨hfan.speed, (level_ne_zero _).mp hheater⟩
  · rintro ⟨hle, hone⟩
    have hfan : Encodes s'.gpio (s'.mem (work Field.windSpeedState)) := by
      rw [h.pins, hwind]
      exact (encodes_outputs_iff _ _ _).mpr hle
    refine ⟨⟨fun _ => hfan, fun _ => ?_, fun h0 => absurd h0 hpower⟩, fun hsame p hp => ?_⟩
    · rw [h.pins, hpht]
      exact (level_ne_zero _).mpr hone
    · have hspeed : s'.mem (work Field.windSpeedState) = s.mem (work Field.windSpeedState) :=
        congrArg Settings.windSpeedState hsame
      rw [hspeed] at hfan
      exact hfan.pins_eq (hline.fan hon) hp

omit hrange hline in
theorem obeyed_switchedOff (h : s'.IsOff) : Obeyed s s' where
  inLine := ⟨fun hne => absurd h.power hne, fun hne => absurd h.power hne, fun _ => h.outputs⟩
  relays := fun hsame => absurd ((congrArg Settings.devicePowerState hsame).symm.trans h.power) hon

/-- **When the outputs follow a command.** -/
theorem command_outputs_iff (t : Nat) (hmode : s.settings.deviceMode = 2) {type : UInt8}
    (htype : 2 ≤ type ∧ type ≤ 7) (data : UInt8) :
    Obeyed s ((setDeviceWorkMode exchange type data 0).run machine t s).2 ↔
      (type = 0x07 → data ≤ 3 ∨ s.settings.windSpeedState = 0) ∧
        (type = 0x02 → data ≠ 0 → s.recalled Field.windSpeedState ≤ 3 ∧
          s.recalled Field.phtWorkState ≤ 1) := by
  by_cases h2 : type = 0x02
  · subst h2
    rw [and_iff_right (fun h => absurd h (by decide))]
    by_cases hdata : data = 0
    · subst hdata
      have hobeyed := obeyed_switchedOff hon (switchedOff_isOff hon hmode t)
      exact iff_of_true hobeyed fun _ h => absurd rfl h
    · have hiff := obeyed_switchedOn_iff hon hline (switchedOn_spec t hdata s)
      exact hiff.trans ⟨fun h _ _ => h, fun h => h rfl hdata⟩
  · have h3 : 3 ≤ type ∧ type ≤ 7 := by
      refine ⟨?_, htype.2⟩
      have hle := htype.1
      rw [UInt8.le_iff_toNat_le] at hle ⊢
      rw [← UInt8.toNat_inj] at h2
      simp at hle h2 ⊢
      omega
    obtain ⟨b, -, hgpio, -, hrun⟩ := run_accepted hon hmode type data t
      fun b => (commandSwitch_settings h3 data t b).1
    rw [and_iff_left (fun h => absurd h h2)]
    refine obeyed_setting_iff hon hrange hline h3
      (setDeviceWorkMode_settings exchange h3 data t hon hmode) ?_
    rw [hrun, commandSwitch_gpio h3, hgpio]

end Command

/-- On, in manual mode, the fan at speed 2. -/
def Board.manualFan : Board :=
  { Board.manual.set (work Field.windSpeedState) 2 with gpio := outputs 0 0 2 }

theorem manualFan_inLine : Board.manualFan.InLine where
  fan := fun _ => by decide
  heater := fun _ => rfl
  off := fun h => absurd h (by decide)

theorem manualFan_inRange : Board.manualFan.settings.InRange :=
  ⟨by decide, by decide, by decide, by decide, by decide, by decide⟩

theorem command_outputs_iff_fan :
    Obeyed Board.manualFan ((setDeviceWorkMode exchange 0x07 3 0).run machine 0 Board.manualFan).2 ↔
      ((0x07 : UInt8) = 0x07 → (3 : UInt8) ≤ 3 ∨ Board.manualFan.settings.windSpeedState = 0) ∧
        ((0x07 : UInt8) = 0x02 → (3 : UInt8) ≠ 0 →
          Board.manualFan.recalled Field.windSpeedState ≤ 3 ∧
            Board.manualFan.recalled Field.phtWorkState ≤ 1) :=
  command_outputs_iff (by decide) manualFan_inRange manualFan_inLine 0 rfl (by decide) 3

/-- Speed 9 is refused, and stops the fan. -/
theorem command_outputs_counterexample :
    Board.manualFan.settings.InRange ∧ Board.manualFan.InLine ∧
      ¬ Obeyed Board.manualFan
        ((setDeviceWorkMode exchange 0x07 9 0).run machine 0 Board.manualFan).2 := by
  refine ⟨manualFan_inRange, manualFan_inLine, fun h => ?_⟩
  exact absurd (h.inLine.fan (by decide +kernel)) (by decide +kernel)

end Aclean
