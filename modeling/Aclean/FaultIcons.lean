import Aclean.StatePush

/-!
# Faults and their icons

The main board numbers its faults, the display numbers them again, and
`fault_check` turns the bits of the fault byte into icons. An icon is lit if
its bit of `Ht1621Tab2` is set: the main loop shows that table on every round
while the device is on. The entry of icon 12 is put together from two others
that the wind icons share, so its meaning rests on an invariant of the
reachable screens.
-/

namespace Aclean

/-! ## The icon table -/

theorem onDisp_tab2 (f : Nat) (sc : Screen) {e : Nat} (h0 : e ≠ 0) (h12 : e ≠ 12) :
    (sc.ht1621OnDisp f).ht1621Tab2 e =
      if e = (iconPlace f).1 then (iconPlace f).2 else sc.ht1621Tab2 e := by
  simp [Screen.ht1621OnDisp, recombine, Function.update_apply, h0, h12]

theorem offDisp_tab2 (f : Nat) (sc : Screen) {e : Nat} (h0 : e ≠ 0) (h12 : e ≠ 12) :
    (sc.ht1621OffDisp f).ht1621Tab2 e =
      if e = (iconPlace f).1 then sc.ht1621Tab2 e &&& ~~~(iconPlace f).2 else sc.ht1621Tab2 e := by
  simp only [Screen.ht1621OffDisp, recombine, Function.update_of_ne h0, Function.update_of_ne h12,
    Function.update_apply]
  split
  · next h => rw [h]
  · rfl

/-- The refresh touches the timer icons only. -/
theorem ht1621Display_tab2 (tm : UInt8) (sc : Screen) {e : Nat} (h0 : e ≠ 0) (h12 : e ≠ 12)
    (h : e < 5 ∨ 7 < e) : (sc.ht1621Display tm).ht1621Tab2 e = sc.ht1621Tab2 e := by
  have h5 : e ≠ (iconPlace 5).1 := by simp [iconPlace]; omega
  have h6 : e ≠ (iconPlace 6).1 := by simp [iconPlace]; omega
  have h7 : e ≠ (iconPlace 7).1 := by simp [iconPlace]; omega
  unfold Screen.ht1621Display Screen.pin6Scan
  split
  · simp only [onDisp_tab2 _ _ h0 h12, if_neg h5, if_neg h6, if_neg h7]
  · simp only [onDisp_tab2 _ _ h0 h12, offDisp_tab2 _ _ h0 h12, if_neg h5, if_neg h6, if_neg h7]

/-! ### The entry of icon 12 -/

/-- Entry 12 is put together from the run fault icon and the wind icons. -/
def Screen.Combined (sc : Screen) : Prop :=
  sc.ht1621Tab2 12 = sc.ht1621Tab2 18 ||| sc.ht1621Tab2 17

theorem combined_onDisp (f : Nat) (sc : Screen) : (sc.ht1621OnDisp f).Combined := by
  simp [Screen.Combined, Screen.ht1621OnDisp, recombine, Function.update_apply]

theorem combined_offDisp (f : Nat) (sc : Screen) : (sc.ht1621OffDisp f).Combined := by
  simp [Screen.Combined, Screen.ht1621OffDisp, recombine, Function.update_apply]

theorem combined_ht1621Display (tm : UInt8) (sc : Screen) : (sc.ht1621Display tm).Combined := by
  unfold Screen.ht1621Display Screen.pin6Scan
  split
  · exact combined_onDisp 7 _
  · exact combined_offDisp 7 _

theorem or_and_distrib (a b c : UInt8) : (a ||| b) &&& c = (a &&& c) ||| (b &&& c) := by
  apply UInt8.toBitVec_inj.mp
  ext i hi
  simp [Bool.and_or_distrib_right]

/-- The wind icons leave bit 0 of their entry clear. -/
def Screen.WindClear (sc : Screen) : Prop := sc.ht1621Tab2 18 &&& 1 = 0

theorem iconPlace_wind {f : Nat} (h : (iconPlace f).1 = 18) : f = 13 ∨ f = 14 ∨ f = 15 := by
  grind [iconPlace]

theorem windClear_onDisp (f : Nat) {sc : Screen} (h : sc.WindClear) :
    (sc.ht1621OnDisp f).WindClear := by
  rw [Screen.WindClear, onDisp_tab2 f sc (by decide) (by decide)]
  split
  · next hplace =>
      rcases iconPlace_wind hplace.symm with rfl | rfl | rfl <;> rfl
  · exact h

theorem windClear_offDisp (f : Nat) {sc : Screen} (h : sc.WindClear) :
    (sc.ht1621OffDisp f).WindClear := by
  rw [Screen.WindClear, offDisp_tab2 f sc (by decide) (by decide)]
  split
  · rw [UInt8.and_assoc, UInt8.and_comm (~~~_), ← UInt8.and_assoc, h, UInt8.zero_and]
  · exact h

theorem windClear_ht1621Display (tm : UInt8) {sc : Screen} (h : sc.WindClear) :
    (sc.ht1621Display tm).WindClear := by
  have h6 := windClear_onDisp 6 h
  unfold Screen.ht1621Display Screen.pin6Scan
  split
  · exact windClear_onDisp 7 (windClear_onDisp 6 (windClear_onDisp 5 h6))
  · exact windClear_offDisp 7 (windClear_offDisp 6 (windClear_offDisp 5 h6))

/-! ## Reachable displays -/

/-- `onoff_Scan`, once a round of the main loop: the table is shown. -/
def Disp.onoffScan (d : Disp) : Disp :=
  if d.work.devicePowerState = 1 then
    { d with screen := d.screen.ht1621Display d.work.timingState }
  else d

/-- The states the display gets into: its main loop and its interrupts, keys
and bytes as they come. -/
inductive Disp.Reachable : Disp → Prop where
  | start : Reachable Disp.reset
  | press {d : Disp} (k : Key) : Reachable d → Reachable (d.press k)
  | scan {d : Disp} : Reachable d → Reachable d.onoffScan
  | check {d : Disp} : Reachable d → Reachable d.cmdUartCheck
  /-- The main loop shows the readings of the next room. -/
  | room {d : Disp} (digits : Nat → UInt8) :
      Reachable d → Reachable { d with screen := { d.screen with ht1621Tab3 := digits } }
  | receive {d : Disp} (udr1 : UInt8) :
      Reachable d → Reachable { d with rx := d.rx.serialInt1Receive udr1 }
  | send {d : Disp} : Reachable d → Reachable { d with tx := d.tx.serialInt1Send.2 }
  | tick {d : Disp} (timeTickCnt1 : UInt32) :
      Reachable d → Reachable { d with timeTickCnt1 := timeTickCnt1 }

namespace Disp

theorem windClear_checkPower (v : UInt8) {d : Disp} (h : d.screen.WindClear) :
    (d.checkPower v).screen.WindClear := by
  have hset : ∀ mode, (d.onoffDeviceSet mode).screen.WindClear := by
    intro mode
    unfold onoffDeviceSet
    split
    · exact windClear_ht1621Display _
        (windClear_onDisp 4 (windClear_onDisp 19 (windClear_onDisp 18 h)))
    · exact h
  unfold checkPower
  split
  · exact hset 0
  · split
    · exact hset 1
    · exact h

theorem windClear_checkMode (v : UInt8) {d : Disp} (h : d.screen.WindClear) :
    (d.checkMode v).screen.WindClear := by
  unfold checkMode
  split
  · exact windClear_offDisp 1 (windClear_onDisp 3 (windClear_offDisp 2 h))
  · split
    · exact windClear_onDisp 2 (windClear_offDisp 1 (windClear_offDisp 3 h))
    · exact h

theorem windClear_checkWind (v : UInt8) {d : Disp} (h : d.screen.WindClear) :
    (d.checkWind v).screen.WindClear := by
  unfold checkWind
  split
  · exact windClear_offDisp 15 (windClear_offDisp 14 (windClear_offDisp 13 h))
  · split
    · exact windClear_onDisp 13 h
    · split
      · exact windClear_onDisp 14 h
      · split
        · exact windClear_onDisp 15 h
        · exact h

theorem windClear_checkHighPressur (v : UInt8) {d : Disp} (h : d.screen.WindClear) :
    (d.checkHighPressur v).screen.WindClear := by
  unfold checkHighPressur
  split
  · exact windClear_offDisp 16 h
  · split
    · exact windClear_onDisp 16 h
    · exact h

theorem windClear_checkPht (v : UInt8) {d : Disp} (h : d.screen.WindClear) :
    (d.checkPht v).screen.WindClear := by
  unfold checkPht
  split
  · exact windClear_offDisp 17 h
  · split
    · exact windClear_onDisp 17 h
    · exact h

theorem windClear_checkTiming (v : UInt8) {d : Disp} (h : d.screen.WindClear) :
    (d.checkTiming v).screen.WindClear := by
  unfold checkTiming
  split
  · exact h
  · exact h

theorem windClear_deviceWorkModeCheck {d : Disp} (h : d.screen.WindClear) :
    d.deviceWorkModeCheck.screen.WindClear :=
  windClear_checkTiming _ (windClear_checkPht _ (windClear_checkHighPressur _
    (windClear_checkWind _ (windClear_checkMode _ (windClear_checkPower _ h)))))

theorem windClear_faultIcon (i : UInt8) (icon : Nat) {d : Disp} (h : d.screen.WindClear) :
    (d.faultIcon i icon).screen.WindClear := by
  unfold faultIcon
  split
  · exact windClear_ht1621Display _ (windClear_onDisp icon h)
  · exact windClear_offDisp icon h

theorem windClear_faultCheck {d : Disp} (h : d.screen.WindClear) :
    d.faultCheck.screen.WindClear := by
  have hicons : ∀ {d : Disp}, d.screen.WindClear →
      ((((d.faultIcon 1 10).faultIcon 2 9).faultIcon 3 12).faultIcon 4 8).screen.WindClear :=
    fun h => windClear_faultIcon 4 8 (windClear_faultIcon 3 12 (windClear_faultIcon 2 9
      (windClear_faultIcon 1 10 h)))
  have hrest : ∀ {d : Disp}, d.screen.WindClear → (if d.faultState &&& (0x20 : UInt8) ≠ 0 then
      { d with screen := d.screen.ht1621Display d.work.timingState } else d).screen.WindClear := by
    intro d h
    split
    · exact windClear_ht1621Display _ h
    · exact h
  unfold faultCheck
  refine hrest (hicons ?_)
  split
  · exact windClear_onDisp 11 h
  · exact windClear_offDisp 11 h

theorem windClear_cmdUartCheck {d : Disp} (h : d.screen.WindClear) :
    d.cmdUartCheck.screen.WindClear := by
  have hanswer : ∀ {d : Disp}, d.screen.WindClear → d.answerF1.screen.WindClear := by
    intro d h
    unfold answerF1
    cases d.pending with
    | some r => exact h
    | none =>
        simp only
        split
        · exact h
        · exact h
  have hf1 : ∀ {d : Disp} (c : Prop) [Decidable c] (w : Settings), d.screen.WindClear →
      (if c then ({ d with work := w }).deviceWorkModeCheck.answerF1 else d).screen.WindClear := by
    intro d c _ w h
    split
    · exact hanswer (windClear_deviceWorkModeCheck (d := { d with work := w }) h)
    · exact h
  unfold cmdUartCheck
  split
  · exact h
  · simp only
    split
    · exact windClear_faultCheck (windClear_deviceWorkModeCheck
        (d := takeF2 _ _) (hf1 (d := { d with rx := d.rx.takeFrame }) _ _ h))
    · exact hf1 (d := { d with rx := d.rx.takeFrame }) _ _ h

theorem windClear_press (k : Key) {d : Disp} (h : d.screen.WindClear) :
    (d.press k).screen.WindClear := by
  cases k with
  | power => exact h
  | mode =>
      show (mainSwitchKey d).screen.WindClear
      unfold mainSwitchKey
      simp only [apply_ite Disp.screen, ite_self]
      exact h
  | modeLong =>
      show (mainSwitchKeyLong d).screen.WindClear
      unfold mainSwitchKeyLong
      split
      · exact h
      · exact windClear_onDisp 1 (windClear_offDisp 3 (windClear_offDisp 2 h))
  | esd =>
      show (esdKey d).screen.ht1621Tab2 18 &&& 1 = 0
      unfold esdKey
      simp only [apply_ite Disp.screen, apply_ite Screen.ht1621Tab2, ite_self]
      exact h
  | pht =>
      show (phtKey d).screen.ht1621Tab2 18 &&& 1 = 0
      unfold phtKey
      simp only [apply_ite Disp.screen, apply_ite Screen.ht1621Tab2, ite_self]
      exact h
  | wind =>
      show (windKey d).screen.WindClear
      unfold windKey
      simp only [apply_ite Disp.screen, ite_self]
      exact h

/-- On reachable displays bit 0 of entry 12 is the run fault icon alone. -/
theorem Reachable.windClear {d : Disp} (h : d.Reachable) : d.screen.WindClear := by
  induction h with
  | start => rfl
  | press k _ ih => exact windClear_press k ih
  | scan _ ih =>
      unfold onoffScan
      split
      · exact windClear_ht1621Display _ ih
      · exact ih
  | check _ ih => exact windClear_cmdUartCheck ih
  | room digits _ ih => exact ih
  | receive udr1 _ ih => exact ih
  | send _ ih => exact ih
  | tick n _ ih => exact ih

/-! ## What the fault check lights -/

/-- Bit 0 of an entry of the icon table. -/
def Lit (d : Disp) (e : Nat) : Prop := d.screen.ht1621Tab2 e &&& 1 ≠ 0

instance (d : Disp) (e : Nat) : Decidable (d.Lit e) :=
  inferInstanceAs (Decidable (_ ≠ _))

/-- The display's bit `i` of the fault byte. -/
def faultBit (d : Disp) (i : UInt8) : Prop := d.faultState &&& (1 <<< i) ≠ 0

/-- Entries that hold one fault icon and nothing else. -/
def FaultEntry (e : Nat) : Prop := e ≠ 0 ∧ e ≠ 12 ∧ 7 < e

theorem faultIcon_faultState (i : UInt8) (icon : Nat) (d : Disp) :
    (d.faultIcon i icon).faultState = d.faultState := by
  unfold faultIcon
  split <;> rfl

theorem faultIcon_lit (i : UInt8) (icon : Nat) (d : Disp) (hbit : (iconPlace icon).2 = 1) {e : Nat}
    (he : FaultEntry e) :
    (d.faultIcon i icon).Lit e ↔ if e = (iconPlace icon).1 then d.faultBit i else d.Lit e := by
  obtain ⟨h0, h12, h7⟩ := he
  unfold faultIcon Lit
  by_cases hi : d.faultState &&& (1 <<< i) ≠ 0
  · rw [if_pos hi]
    simp only [ht1621Display_tab2 _ _ h0 h12 (.inr h7), onDisp_tab2 _ _ h0 h12, hbit]
    by_cases hplace : e = (iconPlace icon).1
    · simp only [if_pos hplace]
      exact ⟨fun _ => hi, fun _ => by decide⟩
    · simp only [if_neg hplace]
  · rw [if_neg hi]
    simp only [offDisp_tab2 _ _ h0 h12, hbit]
    by_cases hplace : e = (iconPlace icon).1
    · simp only [if_pos hplace]
      refine ⟨fun hlit => absurd ?_ hlit, fun hbit => absurd hbit hi⟩
      rw [UInt8.and_assoc, show ~~~(1 : UInt8) &&& 1 = 0 from rfl, UInt8.and_zero]
    · simp only [if_neg hplace]

/-- The fault check as a loop over all six bits. -/
theorem faultCheck_eq (d : Disp) : ∃ d₀ : Disp, d₀.faultState = d.faultState ∧
    (∀ e, FaultEntry e → (d₀.Lit e ↔ if e = 11 then d.faultBit 0 else d.Lit e)) ∧
    d.faultCheck =
      let d' := (((d₀.faultIcon 1 10).faultIcon 2 9).faultIcon 3 12).faultIcon 4 8
      if d'.faultState &&& (0x20 : UInt8) ≠ 0 then
        { d' with screen := d'.screen.ht1621Display d'.work.timingState }
      else d' := by
  refine ⟨_, ?_, ?_, rfl⟩
  · split <;> rfl
  · intro e ⟨h0, h12, _⟩
    unfold Lit
    by_cases hi : d.faultState &&& 1 ≠ 0
    · rw [if_pos hi]
      simp only [onDisp_tab2 _ _ h0 h12]
      by_cases hplace : e = 11
      · subst hplace
        exact ⟨fun _ => hi, fun _ => by simp [iconPlace]⟩
      · rw [if_neg (show ¬ e = (iconPlace 11).1 from hplace), if_neg hplace]
    · rw [if_neg hi]
      simp only [offDisp_tab2 _ _ h0 h12]
      by_cases hplace : e = 11
      · subst hplace
        refine ⟨fun hlit => absurd ?_ hlit, fun hbit => absurd hbit hi⟩
        show d.screen.ht1621Tab2 11 &&& ~~~1 &&& 1 = 0
        rw [UInt8.and_assoc, show ~~~(1 : UInt8) &&& 1 = 0 from rfl, UInt8.and_zero]
      · rw [if_neg (show ¬ e = (iconPlace 11).1 from hplace), if_neg hplace]

theorem faultCheck_entry (d : Disp) {e : Nat} (he : FaultEntry e) :
    d.faultCheck.Lit e ↔ if e = 8 then d.faultBit 4 else if e = 17 then d.faultBit 3
      else if e = 9 then d.faultBit 2 else if e = 10 then d.faultBit 1
      else if e = 11 then d.faultBit 0 else d.Lit e := by
  obtain ⟨d₀, hfault, hlit₀, hcheck⟩ := faultCheck_eq d
  have hbit : ∀ i, d₀.faultBit i ↔ d.faultBit i := by
    intro i
    rw [faultBit, hfault, faultBit]
  have hshow : ∀ {d' : Disp}, (if d'.faultState &&& (0x20 : UInt8) ≠ 0 then
      { d' with screen := d'.screen.ht1621Display d'.work.timingState } else d').Lit e ↔
        d'.Lit e := by
    intro d'
    obtain ⟨h0, h12, h7⟩ := he
    split
    · rw [Lit, ht1621Display_tab2 _ _ h0 h12 (.inr h7), Lit]
    · exact Iff.rfl
  rw [hcheck]
  simp only [hshow, faultIcon_lit _ 8 _ rfl he, faultIcon_lit _ 12 _ rfl he,
    faultIcon_lit _ 9 _ rfl he, faultIcon_lit _ 10 _ rfl he, hlit₀ e he]
  simp only [faultBit, faultIcon_faultState, hfault, iconPlace]
  rfl

theorem combined_faultCheck (d : Disp) : d.faultCheck.screen.Combined := by
  obtain ⟨d₀, -, -, hcheck⟩ := faultCheck_eq d
  have hicon : ∀ d' : Disp, (d'.faultIcon 4 8).screen.Combined := by
    intro d'
    unfold faultIcon
    split
    · exact combined_ht1621Display _ _
    · exact combined_offDisp 8 _
  rw [hcheck]
  simp only
  split
  · exact combined_ht1621Display _ _
  · exact hicon _

/-- After the check each icon shows the bit that the display reads it from. -/
theorem faultCheck_lit {d : Disp} (h : d.screen.WindClear) :
    (d.faultCheck.Lit 11 ↔ d.faultBit 0) ∧ (d.faultCheck.Lit 10 ↔ d.faultBit 1) ∧
      (d.faultCheck.Lit 9 ↔ d.faultBit 2) ∧ (d.faultCheck.Lit 12 ↔ d.faultBit 3) ∧
      (d.faultCheck.Lit 8 ↔ d.faultBit 4) := by
  have hentry := fun e he => faultCheck_entry d (e := e) he
  have hrun : d.faultCheck.Lit 12 ↔ d.faultCheck.Lit 17 := by
    have hclear : d.faultCheck.screen.ht1621Tab2 18 &&& 1 = 0 := windClear_faultCheck h
    rw [Lit, combined_faultCheck d, Lit, or_and_distrib, hclear, UInt8.zero_or]
  rw [hrun]
  refine ⟨?_, ?_, ?_, ?_, ?_⟩
  · exact hentry 11 (by simp [FaultEntry])
  · exact hentry 10 (by simp [FaultEntry])
  · exact hentry 9 (by simp [FaultEntry])
  · exact hentry 17 (by simp [FaultEntry])
  · exact hentry 8 (by simp [FaultEntry])

end Disp

/-! ## The faults of the main board -/

/-- The main board has set fault `b`. -/
def Board.fault (s : Board) (b : FaultBit) : Prop := s.mem (work Field.faultState) &&& b.mask ≠ 0

instance (s : Board) (b : FaultBit) : Decidable (s.fault b) :=
  inferInstanceAs (Decidable (_ ≠ _))

/-- The lit fault icons are those of the main board's faults. -/
structure IconsNameFaults (s : Board) (d : Disp) : Prop where
  clean : d.Lit 8 ↔ s.fault .clean
  pht : d.Lit 9 ↔ s.fault .pht
  motor : d.Lit 10 ↔ s.fault .motor
  esd : d.Lit 11 ↔ s.fault .esd
  run : d.Lit 12 ↔ s.fault .run

/-- What a state push makes the fault icons show: the clean and the run fault
have each other's icon. -/
theorem pushed_lit (t : Nat) (s : Board) {d : Disp} (hd : d.Reachable) (hidle : d.rx.isrJ = 0) :
    ((d.handle (pushed t s)).Lit 11 ↔ s.fault .esd) ∧
      ((d.handle (pushed t s)).Lit 10 ↔ s.fault .motor) ∧
      ((d.handle (pushed t s)).Lit 9 ↔ s.fault .pht) ∧
      ((d.handle (pushed t s)).Lit 12 ↔ s.fault .clean) ∧
      ((d.handle (pushed t s)).Lit 8 ↔ s.fault .run) := by
  obtain ⟨r, rx, hrx, hhandle⟩ := handle_pushed t s hidle
  have hclear : (Disp.takeF2 rx { d with rx := r }).deviceWorkModeCheck.screen.WindClear :=
    Disp.windClear_deviceWorkModeCheck (d := Disp.takeF2 rx { d with rx := r }) hd.windClear
  obtain ⟨w, sc, hredrawn⟩ := redrawn_deviceWorkModeCheck (Disp.takeF2 rx { d with rx := r })
  have hbyte : (Disp.takeF2 rx { d with rx := r }).deviceWorkModeCheck.faultState =
      s.mem (work Field.faultState) := by
    rw [hredrawn]
    exact hrx 26 (by decide)
  have hbit : ∀ b : FaultBit,
      (Disp.takeF2 rx { d with rx := r }).deviceWorkModeCheck.faultBit b.pos ↔ s.fault b := by
    intro b
    rw [Disp.faultBit, hbyte, Board.fault, FaultBit.mask]
  obtain ⟨h11, h10, h9, h12, h8⟩ := Disp.faultCheck_lit hclear
  rw [hhandle]
  exact ⟨h11.trans (hbit .esd), h10.trans (hbit .motor), h9.trans (hbit .pht),
    h12.trans (hbit .clean), h8.trans (hbit .run)⟩

/-- **When the fault icons name the faults.** -/
theorem icons_name_faults_iff (t : Nat) (s : Board) (d : Disp) (hd : d.Reachable)
    (hidle : d.rx.isrJ = 0) :
    IconsNameFaults s (d.handle (pushed t s)) ↔ (s.fault .clean ↔ s.fault .run) := by
  obtain ⟨h11, h10, h9, h12, h8⟩ := pushed_lit t s hd hidle
  constructor
  · intro h
    exact h.clean.symm.trans h8
  · intro h
    exact ⟨h8.trans h.symm, h9, h10, h11, h12.trans h⟩

theorem icons_name_faults_iff_reset :
    IconsNameFaults Board.manual (Disp.reset.handle (pushed 0 Board.manual)) ↔
      (Board.manual.fault .clean ↔ Board.manual.fault .run) :=
  icons_name_faults_iff 0 Board.manual Disp.reset .start rfl

/-- The clean fault lights the icon of the run fault. -/
theorem icons_name_faults_counterexample :
    Disp.reset.Reachable ∧ Disp.reset.work.devicePowerState = 1 ∧
      ¬ IconsNameFaults (Board.manual.set (work Field.faultState) FaultBit.clean.mask)
        (Disp.reset.handle (pushed 0 (Board.manual.set (work Field.faultState) FaultBit.clean.mask))) := by
  refine ⟨.start, rfl, ?_⟩
  intro h
  obtain ⟨-, -, -, -, h8⟩ := pushed_lit 0
    (Board.manual.set (work Field.faultState) FaultBit.clean.mask) .start rfl
  have hclean : (Board.manual.set (work Field.faultState) FaultBit.clean.mask).fault .clean := by
    decide
  have hrun : ¬ (Board.manual.set (work Field.faultState) FaultBit.clean.mask).fault .run := by
    decide
  exact hrun (h8.mp (h.clean.mpr hclean))

end Aclean
