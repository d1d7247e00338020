import Aclean.DispLink

/-!
# The timer on the screen

`device_work_mode_check` shows the timer one step late: it copies the digits
`count3` and `count2` that the previous call left to the display buffer and
only then sets them from the new value. A state frame is later still, since
`cmd_uart_check` does not take its timer byte at all.
-/

namespace Aclean

/-! ## Digits held and digits shown -/

/-- `count3` and `count2` are the digits of `t`. -/
def Screen.HoldsTimer (t : UInt8) (sc : Screen) : Prop := sc.count3 = t / 10 ∧ sc.count2 = t % 10

/-- The timer digits of the display buffer are those of `t`. -/
def Screen.ShowsTimer (t : UInt8) (sc : Screen) : Prop :=
  sc.ht1621Tab3 5 = t / 10 ∧ sc.ht1621Tab3 6 = t % 10

/-- The two screens agree on the timer, whatever the icons do. -/
def Screen.SameTimer (sc sc' : Screen) : Prop :=
  sc'.ht1621Tab3 = sc.ht1621Tab3 ∧ sc'.count2 = sc.count2 ∧ sc'.count3 = sc.count3

namespace Screen.SameTimer

variable {sc sc' sc'' : Screen}

theorem refl (sc : Screen) : sc.SameTimer sc := ⟨rfl, rfl, rfl⟩

theorem trans (h : sc.SameTimer sc') (h' : sc'.SameTimer sc'') : sc.SameTimer sc'' :=
  ⟨h'.1.trans h.1, h'.2.1.trans h.2.1, h'.2.2.trans h.2.2⟩

theorem holds_iff (h : sc.SameTimer sc') (t : UInt8) : sc'.HoldsTimer t ↔ sc.HoldsTimer t := by
  simp only [Screen.HoldsTimer, h.2.1, h.2.2]

theorem shows_iff (h : sc.SameTimer sc') (t : UInt8) : sc'.ShowsTimer t ↔ sc.ShowsTimer t := by
  simp only [Screen.ShowsTimer, h.1]

theorem onDisp (f : Nat) (sc : Screen) : sc.SameTimer (sc.ht1621OnDisp f) := ⟨rfl, rfl, rfl⟩

theorem offDisp (f : Nat) (sc : Screen) : sc.SameTimer (sc.ht1621OffDisp f) := ⟨rfl, rfl, rfl⟩

theorem display (timing : UInt8) (sc : Screen) : sc.SameTimer (sc.ht1621Display timing) := by
  unfold Screen.ht1621Display Screen.pin6Scan
  split <;> exact ⟨rfl, rfl, rfl⟩

end Screen.SameTimer

/-- A switch that shows the timer shows the digits held before. -/
theorem shows_showTimer (hi lo t : UInt8) (sc : Screen) :
    (sc.showTimer hi lo).ShowsTimer t ↔ sc.HoldsTimer t := by
  simp [Screen.ShowsTimer, Screen.showTimer, Screen.HoldsTimer]

namespace Disp

/-! ## The passes -/

/-- A pass that leaves the timer and the timer key alone. -/
def KeepsTimer (d d' : Disp) : Prop := d.screen.SameTimer d'.screen ∧ d'.key4 = d.key4

namespace KeepsTimer

theorem refl (d : Disp) : d.KeepsTimer d := ⟨.refl _, rfl⟩

theorem trans {d d' d'' : Disp} (h : d.KeepsTimer d') (h' : d'.KeepsTimer d'') :
    d.KeepsTimer d'' :=
  ⟨h.1.trans h'.1, h'.2.trans h.2⟩

theorem mode (v : UInt8) (d : Disp) : d.KeepsTimer (d.checkMode v) := by
  unfold checkMode
  split
  · exact ⟨⟨rfl, rfl, rfl⟩, rfl⟩
  · split <;> exact ⟨⟨rfl, rfl, rfl⟩, rfl⟩

theorem wind (v : UInt8) (d : Disp) : d.KeepsTimer (d.checkWind v) := by
  unfold checkWind
  repeat' split
  all_goals exact ⟨⟨rfl, rfl, rfl⟩, rfl⟩

theorem highPressur (v : UInt8) (d : Disp) : d.KeepsTimer (d.checkHighPressur v) := by
  unfold checkHighPressur
  repeat' split
  all_goals exact ⟨⟨rfl, rfl, rfl⟩, rfl⟩

theorem pht (v : UInt8) (d : Disp) : d.KeepsTimer (d.checkPht v) := by
  unfold checkPht
  repeat' split
  all_goals exact ⟨⟨rfl, rfl, rfl⟩, rfl⟩

/-- The switches between the power switch and the timer switch. -/
theorem switches (w : Settings) (d : Disp) :
    d.KeepsTimer ((((d.checkMode w.deviceMode).checkWind w.windSpeedState).checkHighPressur
      w.highPressurState).checkPht w.phtWorkState) :=
  (((mode w.deviceMode d).trans (wind w.windSpeedState _)).trans
    (highPressur w.highPressurState _)).trans (pht w.phtWorkState _)

theorem faultIcon (i : UInt8) (icon : Nat) (d : Disp) : d.KeepsTimer (d.faultIcon i icon) := by
  unfold Disp.faultIcon
  split
  · exact ⟨(Screen.SameTimer.onDisp icon _).trans (.display _ _), rfl⟩
  · exact ⟨.offDisp icon _, rfl⟩

theorem faultCheck (d : Disp) : d.KeepsTimer d.faultCheck := by
  have hfirst : d.KeepsTimer (if d.faultState &&& 1 ≠ 0 then
      { d with screen := d.screen.ht1621OnDisp 11 }
      else { d with screen := d.screen.ht1621OffDisp 11 }) := by
    split
    · exact ⟨.onDisp 11 _, rfl⟩
    · exact ⟨.offDisp 11 _, rfl⟩
  refine hfirst.trans ?_
  unfold Disp.faultCheck
  dsimp only
  generalize (if d.faultState &&& 1 ≠ 0 then
      { d with screen := d.screen.ht1621OnDisp 11 }
      else { d with screen := d.screen.ht1621OffDisp 11 }) = d₁
  have hbits : d₁.KeepsTimer ((((d₁.faultIcon 1 10).faultIcon 2 9).faultIcon 3 12).faultIcon 4 8) :=
    (((faultIcon 1 10 d₁).trans (faultIcon 2 9 _)).trans (faultIcon 3 12 _)).trans
      (faultIcon 4 8 _)
  refine hbits.trans ?_
  split
  · exact ⟨.display _ _, rfl⟩
  · exact .refl _

theorem answerF1 (d : Disp) : d.KeepsTimer d.answerF1 := by
  unfold Disp.answerF1
  split
  · exact ⟨.refl _, rfl⟩
  · split <;> exact ⟨.refl _, rfl⟩

/-- Every switch but the last, with the power state other than off. -/
theorem power_on {v : UInt8} (hv : v ≠ 0) (d : Disp) : d.KeepsTimer (d.checkPower v) := by
  rw [checkPower, if_neg hv]
  split
  · rw [onoffDeviceSet, if_pos rfl]
    exact ⟨(Screen.SameTimer.onDisp 18 _).trans
      (((Screen.SameTimer.onDisp 19 _).trans (.onDisp 4 _)).trans (.display _ _)), rfl⟩
  · exact .refl d

end KeepsTimer

/-- Switching off shows the timer held and holds 0. -/
theorem checkPower_off (d : Disp) :
    (d.checkPower 0).screen = d.screen.showTimer 0 0 ∧ (d.checkPower 0).key4 = d.key4 :=
  ⟨rfl, rfl⟩

theorem checkPower_key4 (v : UInt8) (d : Disp) : (d.checkPower v).key4 = d.key4 := by
  by_cases hv : v = 0
  · rw [hv, (checkPower_off d).2]
  · exact (KeepsTimer.power_on hv d).2

/-- The timer switch shows what the power switch left to be held. -/
theorem deviceWorkModeCheck_shows {d : Disp} (hkey : d.key4 ≠ 0) (t : UInt8) :
    d.deviceWorkModeCheck.screen.ShowsTimer t ↔
      if d.work.timingState ≤ 12 then (d.checkPower d.work.devicePowerState).screen.HoldsTimer t
      else (d.checkPower d.work.devicePowerState).screen.ShowsTimer t := by
  have hkeeps := KeepsTimer.switches d.work (d.checkPower d.work.devicePowerState)
  rw [deviceWorkModeCheck, checkTiming, hkeeps.2, checkPower_key4]
  by_cases ht : d.work.timingState ≤ 12
  · rw [if_pos ⟨hkey, ht⟩, if_pos ht]
    exact (shows_showTimer _ _ t _).trans (hkeeps.1.holds_iff t)
  · rw [if_neg (fun h => ht h.2), if_neg ht]
    exact hkeeps.1.shows_iff t

theorem holds_zero (t : UInt8) (sc : Screen) : (sc.showTimer 0 0).HoldsTimer t ↔ t = 0 := by
  simp only [Screen.HoldsTimer, Screen.showTimer, ← UInt8.toNat_inj, UInt8.toNat_div,
    UInt8.toNat_mod]
  simp
  omega

/-! ## Frames that carry a timer -/

/-- The timer command, or a state frame with its timer byte. -/
def CarriesTimer (rx : Nat → UInt8) (t : UInt8) : Prop :=
  rx 0 = 0xF1 ∧ rx 1 = 0xF1 ∧ rx 2 = 6 ∧ rx 4 = t ∨ rx 0 = 0xF2 ∧ rx 1 = 0xF2 ∧ rx 9 = t

/-- A command shows the digits held; so does a state frame that leaves the
power on. One that switches off shows 0 at once. With a timer above 12 stored,
a state frame shows what it would otherwise hold back. -/
def TimerReady (t : UInt8) (d : Disp) : Prop :=
  if d.rx.inComBuff 0 = 0xF1 then d.screen.HoldsTimer t
  else if d.rx.inComBuff 4 = 0 then
    if d.work.timingState ≤ 12 then t = 0 else d.screen.HoldsTimer t
  else if d.work.timingState ≤ 12 then d.screen.HoldsTimer t
  else d.screen.ShowsTimer t

theorem command_shown {d : Disp} {t : UInt8} (hpower : d.work.devicePowerState = 1)
    (hkey : d.key4 ≠ 0) (hflag : d.rx.rxd1BuffCFlag ≠ 0) (h0 : d.rx.inComBuff 0 = 0xF1)
    (h1 : d.rx.inComBuff 1 = 0xF1) (h2 : d.rx.inComBuff 2 = 6) :
    d.cmdUartCheck.screen.ShowsTimer t ↔ d.screen.HoldsTimer t := by
  rw [cmdUartCheck_f1 hflag h0 h1, h2, (KeepsTimer.answerF1 _).1.shows_iff]
  refine (deviceWorkModeCheck_shows (by exact hkey) t).trans ?_
  have htiming : (f1Switch 6 (d.rx.inComBuff 4) d.work).timingState ≤ 12 := by
    show (if d.rx.inComBuff 4 ≤ 0x0c ∧ d.rx.inComBuff 4 ≠ 0 then d.rx.inComBuff 4 else 0) ≤ 12
    split
    · next h => exact h.1
    · decide
  have hon : (f1Switch 6 (d.rx.inComBuff 4) d.work).devicePowerState ≠ 0 := by
    show d.work.devicePowerState ≠ 0
    rw [hpower]
    decide
  rw [if_pos htiming]
  exact (KeepsTimer.power_on hon _).1.holds_iff t

/-- Of a state frame only the power byte matters to the timer digits. -/
theorem stateFrame_shown {d : Disp} {t : UInt8} (hkey : d.key4 ≠ 0)
    (hflag : d.rx.rxd1BuffCFlag ≠ 0) (h0 : d.rx.inComBuff 0 = 0xF2)
    (h1 : d.rx.inComBuff 1 = 0xF2) :
    d.cmdUartCheck.screen.ShowsTimer t ↔
      if d.rx.inComBuff 4 = 0 then
        if d.work.timingState ≤ 12 then t = 0 else d.screen.HoldsTimer t
      else if d.work.timingState ≤ 12 then d.screen.HoldsTimer t
      else d.screen.ShowsTimer t := by
  rw [cmdUartCheck_f2 hflag h0 h1, (KeepsTimer.faultCheck _).1.shows_iff]
  refine (deviceWorkModeCheck_shows (by exact hkey) t).trans ?_
  show (if d.work.timingState ≤ 12 then
      (checkPower (d.rx.inComBuff 4) (takeF2 _ _)).screen.HoldsTimer t
    else (checkPower (d.rx.inComBuff 4) (takeF2 _ _)).screen.ShowsTimer t) ↔ _
  by_cases hoff : d.rx.inComBuff 4 = 0
  · rw [if_pos hoff, hoff, (checkPower_off _).1, holds_zero, shows_showTimer]
    rfl
  · rw [if_neg hoff, (KeepsTimer.power_on hoff _).1.holds_iff,
      (KeepsTimer.power_on hoff _).1.shows_iff]
    rfl

theorem timer_shown {d : Disp} {t : UInt8} (hpower : d.work.devicePowerState = 1)
    (hkey : d.key4 ≠ 0) (hflag : d.rx.rxd1BuffCFlag ≠ 0)
    (hframe : CarriesTimer d.rx.inComBuff t) :
    d.cmdUartCheck.screen.ShowsTimer t ↔ TimerReady t d := by
  rcases hframe with ⟨h0, h1, h2, -⟩ | ⟨h0, h1, -⟩
  · rw [TimerReady, if_pos h0]
    exact command_shown hpower hkey hflag h0 h1 h2
  · have hno : d.rx.inComBuff 0 ≠ 0xF1 := by
      rw [h0]
      decide
    rw [TimerReady, if_neg hno]
    exact stateFrame_shown hkey hflag h0 h1

/-- The display as it starts, with the command for five hours received. -/
def fiveHours : Disp :=
  { Disp.reset with
    rx :=
      { Disp.reset.rx with
        rxd1BuffCFlag := 1
        inComBuff := fun i => [0xF1, 0xF1, 6, 1, 5, 12, 0x7E].getD i 0 } }

theorem timer_shown_fiveHours :
    fiveHours.cmdUartCheck.screen.ShowsTimer 5 ↔ fiveHours.TimerReady 5 :=
  timer_shown rfl (by decide) (by decide) (Or.inl ⟨rfl, rfl, rfl, rfl⟩)

/-- It shows the 0 hours of before. -/
theorem timer_late : ¬ ∀ (d : Disp) (t : UInt8), d.work.devicePowerState = 1 → d.key4 ≠ 0 →
    d.rx.rxd1BuffCFlag ≠ 0 → t ≤ 12 → CarriesTimer d.rx.inComBuff t →
    d.cmdUartCheck.screen.ShowsTimer t := by
  intro h
  have h5 := h fiveHours 5 rfl (by decide) (by decide) (by decide) (Or.inl ⟨rfl, rfl, rfl, rfl⟩)
  rw [command_shown rfl (by decide) (by decide) rfl rfl rfl] at h5
  exact absurd h5.2 (by decide)

end Disp

end Aclean
