import Aclean.KeyScan

/-!
# One press of the power key

With the mode key idle nobody else writes `KeyState`, and a press of the power
key goes through the stages below: it is touched, held, perhaps long, and over
at once or after the wait for a second press. In no stage has it raised more
than one event.
-/

namespace Aclean

namespace KeyPress

/-- The board before scan `n` of a run from reset. -/
def keysAt (x : Nat → Scan) (n : Nat) : KeyBoard := (KeyBoard.reset (x 0).panel).before x n

/-- The event of the power key in scan `n` of a run from reset. -/
def raisedAt (x : Nat → Scan) (n : Nat) : Option PowerEvent :=
  (KeyBoard.reset (x 0).panel).powerEventAt x n

/-- How many of the scans `i` to `n - 1` find the power key pressed. -/
def lowsIn (x : Nat → Scan) (i n : Nat) : Nat :=
  (List.range' i (n - i)).countP fun k => !(x k).pins.power

/-- A press starts with a low sample at `KeyStep` 0. -/
def Starts (x : Nat → Scan) (n : Nat) : Prop :=
  (keysAt x n).power.keyStep = 0 ∧ (x n).pins.power = false

/-- The scans `i` to `n - 1` are of the press that starts at scan `i`. -/
structure InPress (x : Nat → Scan) (i n : Nat) : Prop where
  lt : i < n
  starts : Starts x i
  only : ∀ k, i < k → k < n → ¬ Starts x k

/-- Scan `r` releases the key after a press of at least three low samples that
was not long. -/
structure Released (x : Nat → Scan) (i r : Nat) : Prop where
  lt : i < r
  lows : 3 ≤ lowsIn x i r
  step : (keysAt x r).power.keyStep = 3
  high : (x r).pins.power = true
  count : (keysAt x r).power.keyDownTimes < 400

/-- From scan `r + 1` to `n - 1` the key is up and waits at `KeyStep` 0. -/
def Waited (x : Nat → Scan) (r n : Nat) : Prop :=
  ∀ k, r < k → k < n → (keysAt x k).power.keyStep = 0 ∧ (x k).pins.power = true

/-! ## One call -/

/-- The steps of a key that is down. -/
def Held (s : UInt8) : Prop := s = 1 ∨ s = 2 ∨ s = 3

/-- A key that is down counts a low sample, is released, or only moves on. -/
theorem debounce_held {k : KeyStatics} (h : Held k.keyStep) (high : Bool) (keyState : KEYSTATE) :
    k.keyStep = 1 ∧ high = false ∨ k.keyStep = 3 ∧ high = true ∨
      ∃ s, Held s ∧ (s = 1 → high = false) ∧
        debounce high k keyState = ⟨{ k with keyStep := s }, none, none⟩ := by
  rcases h with h1 | h2 | h3
  · cases high with
    | false => exact .inl ⟨h1, rfl⟩
    | true => exact .inr (.inr ⟨2, .inr (.inl rfl), by decide, debounce_bounce h1⟩)
  · cases high with
    | false => exact .inr (.inr ⟨1, .inl rfl, fun _ => rfl, debounce_between h2 false⟩)
    | true => exact .inr (.inr ⟨3, .inr (.inr rfl), by decide, debounce_between h2 true⟩)
  · cases high with
    | false => exact .inr (.inr ⟨2, .inr (.inl rfl), fun _ => rfl, debounce_again h3⟩)
    | true => exact .inr (.inl ⟨h3, rfl⟩)

/-- The calls that raise a press. -/
theorem debounce_raised {high : Bool} {k : KeyStatics} {keyState : KEYSTATE} {press : Press}
    (h : (debounce high k keyState).raised = some press) :
    press = .short ∧ k.keyStep = 0 ∧ high = true ∧ k.keyDoubleTimes > 0 ∧
        k.keyDoubleTimes - 1 = 0 ∧ keyState = .keyShort ∨
      press = .long ∧ k.keyStep = 1 := by
  by_cases h0 : k.keyStep = 0
  · left
    cases high with
    | false =>
      rw [debounce_down h0] at h
      cases h
    | true =>
      by_cases hdouble : k.keyDoubleTimes > 0
      · rw [debounce_wait h0 hdouble] at h
        split at h
        · next hc =>
            cases h
            exact ⟨rfl, h0, rfl, hdouble, hc.1, hc.2⟩
        · cases h
      · rw [debounce_idle h0 hdouble] at h
        cases h
  by_cases h1 : k.keyStep = 1
  · right
    cases high with
    | false =>
      rw [debounce_count h1] at h
      split at h
      · cases h
      · split at h
        · cases h
          exact ⟨rfl, h1⟩
        · cases h
    | true =>
      rw [debounce_bounce h1] at h
      cases h
  · rw [debounce, if_neg h0, if_neg h1] at h
    split at h
    · cases h
    · split at h
      · split at h
        · cases h
        · cases h
      · split at h
        · split at h
          · cases h
          · cases h
        · cases h

/-! ## The run from reset -/

section Run

variable {x : Nat → Scan}

theorem raisedIn_succ {ε : Type} (raised : Nat → Option ε) {i n : Nat} (h : i ≤ n) :
    raisedIn raised i (n + 1) = raisedIn raised i n ++ (raised n).toList := by
  have hlen : n + 1 - i = n - i + 1 := by omega
  rw [raisedIn, raisedIn, hlen, List.range'_concat, List.filterMap_append]
  have hlast : i + 1 * (n - i) = n := by omega
  rw [hlast]
  cases hn : raised n with
  | none => simp [hn]
  | some e => simp [hn]

theorem lowsIn_succ {i n : Nat} (h : i ≤ n) :
    lowsIn x i (n + 1) = lowsIn x i n + if (x n).pins.power = false then 1 else 0 := by
  have hlen : n + 1 - i = n - i + 1 := by omega
  rw [lowsIn, lowsIn, hlen, List.range'_concat, List.countP_append]
  have hlast : i + 1 * (n - i) = n := by omega
  rw [hlast]
  cases hn : (x n).pins.power with
  | false => simp [hn]
  | true => simp [hn]

/-- The mode key of a run from reset is idle as long as its pin is high. -/
theorem keysAt_mode (hmode : ∀ n, (x n).pins.mode = true) (n : Nat) :
    (keysAt x n).mode = ⟨0, 0, 0⟩ := by
  induction n with
  | zero => rfl
  | succ n ih =>
    rw [keysAt, KeyBoard.before_succ_mode, ← keysAt, ih, hmode, mainSwitchEffect]
    split
    · rfl
    · rfl

/-- What a call of `power_Key` with effect `e` leaves when the mode key is idle. -/
structure Called (x : Nat → Scan) (n : Nat) (e : SharedCell.Effect KeyStatics KEYSTATE Press) :
    Prop where
  power : (keysAt x (n + 1)).power = e.next
  keyState : (keysAt x (n + 1)).keyState = e.wrote.getD (keysAt x n).keyState
  raised : raisedAt x n = e.raised.bind (powerEvent (x n).panel.disp.work.devicePowerState)

theorem called (hmode : ∀ n, (x n).pins.mode = true) (n : Nat) :
    Called x n (debounce (x n).pins.power (keysAt x n).power (keysAt x n).keyState) where
  power := KeyBoard.before_succ_power _ x n
  keyState := by
    rw [keysAt, KeyBoard.before_succ_keyState, ← keysAt, keysAt_mode hmode, hmode,
      mainSwitchEffect]
    split
    · rfl
    · rfl
  raised := by
    rw [raisedAt, KeyBoard.powerEventAt, KeyBoard.powerRaised, KeyBoard.before_devicePower]
    rfl

/-! ## Stages of a press -/

/-- Where the press that started at scan `i` is before scan `n`. -/
inductive Stage (x : Nat → Scan) (i n : Nat) : Prop where
  /-- The key has gone down; a sample may have been a bounce. -/
  | touched (s : UInt8) (held : Held s) (down : (keysAt x n).keyState = .keyDown)
      (power : (keysAt x n).power = ⟨s, 0, 0⟩) (quiet : raisedIn (raisedAt x) i n = [])
      (lows : 1 ≤ lowsIn x i n) (counts : s = 1 → 2 ≤ lowsIn x i n)
  | held (s : UInt8) (d : UInt16) (held : Held s) (short : (keysAt x n).keyState = .keyShort)
      (power : (keysAt x n).power = ⟨s, d, 0⟩) (count : d < 400)
      (quiet : raisedIn (raisedAt x) i n = []) (lows : 3 ≤ lowsIn x i n)
  | long (s : UInt8) (held : Held s) (long : (keysAt x n).keyState = .keyLong)
      (power : (keysAt x n).power = ⟨s, 400, 0⟩) (raised : (raisedIn (raisedAt x) i n).length ≤ 1)
  /-- The second press of a double click. -/
  | second (m : UInt16) (power : (keysAt x n).power = ⟨4, 0, m⟩)
      (quiet : raisedIn (raisedAt x) i n = [])
  /-- A short press, released at scan `r`, waits for a second one. -/
  | waiting (r : Nat) (m : UInt16) (short : (keysAt x n).keyState = .keyShort)
      (power : (keysAt x n).power = ⟨0, 0, m⟩) (left : n + m.toNat = r + 11) (pos : m > 0)
      (released : Released x i r) (waited : Waited x r n) (quiet : raisedIn (raisedAt x) i n = [])
  | settled (m : UInt16) (settled : (keysAt x n).keyState ≠ .keyShort)
      (power : (keysAt x n).power = ⟨0, 0, m⟩) (raised : (raisedIn (raisedAt x) i n).length ≤ 1)

theorem called_on (hmode : ∀ n, (x n).pins.mode = true) {n : Nat} {high : Bool} {k : KeyStatics}
    {e : SharedCell.Effect KeyStatics KEYSTATE Press} (hpin : (x n).pins.power = high)
    (hpower : (keysAt x n).power = k) (he : debounce high k (keysAt x n).keyState = e) :
    Called x n e := by
  rw [← he, ← hpin, ← hpower]
  exact called hmode n

theorem Stage.length_le {i n : Nat} (h : Stage x i n) :
    (raisedIn (raisedAt x) i n).length ≤ 1 := by
  cases h with
  | touched _ _ _ _ quiet => rw [quiet]; exact Nat.zero_le 1
  | held _ _ _ _ _ _ quiet => rw [quiet]; exact Nat.zero_le 1
  | long _ _ _ _ raised => exact raised
  | second _ _ quiet => rw [quiet]; exact Nat.zero_le 1
  | waiting _ _ _ _ _ _ _ _ quiet => rw [quiet]; exact Nat.zero_le 1
  | settled _ _ _ raised => exact raised

theorem Stage.count_le {i n : Nat} (h : Stage x i n) :
    (keysAt x n).power.keyDownTimes ≤ 400 := by
  cases h with
  | touched _ _ _ power => rw [power]; exact UInt16.zero_le
  | held _ _ _ _ power count => rw [power]; exact UInt16.le_of_lt count
  | long _ _ _ power => rw [power]; exact UInt16.le_refl 400
  | second _ power => rw [power]; exact UInt16.zero_le
  | waiting _ _ _ power => rw [power]; exact UInt16.zero_le
  | settled _ _ power => rw [power]; exact UInt16.zero_le

theorem held_ne_zero {s : UInt8} (h : Held s) : s ≠ 0 := by
  rcases h with rfl | rfl | rfl
  · decide
  · decide
  · decide

/-- At `KeyStep` 0 the key has been counted out. -/
theorem Stage.power_zero {i n : Nat} (h : Stage x i n) (hstep : (keysAt x n).power.keyStep = 0) :
    ∃ m, (keysAt x n).power = ⟨0, 0, m⟩ := by
  cases h with
  | touched s held _ power => rw [power] at hstep; exact absurd hstep (held_ne_zero held)
  | held s d held _ power => rw [power] at hstep; exact absurd hstep (held_ne_zero held)
  | long s held _ power => rw [power] at hstep; exact absurd hstep (held_ne_zero held)
  | second m power =>
    rw [power] at hstep
    exact absurd (show (4 : UInt8) = 0 from hstep) (by decide)
  | waiting r m _ power => exact ⟨m, power⟩
  | settled m _ power => exact ⟨m, power⟩

/-- A press begins. -/
theorem Stage.start (hmode : ∀ n, (x n).pins.mode = true) {n : Nat} {m : UInt16}
    (hpower : (keysAt x n).power = ⟨0, 0, m⟩) (hlow : (x n).pins.power = false) :
    Stage x n (n + 1) := by
  obtain ⟨power, keyState, raised⟩ := called_on hmode hlow hpower (debounce_down rfl)
  have hquiet : raisedIn (raisedAt x) n (n + 1) = [] := by
    rw [raisedIn_succ _ (Nat.le_refl n), raised]
    simp [raisedIn]
  have hlows : 1 ≤ lowsIn x n (n + 1) := by
    rw [lowsIn_succ (Nat.le_refl n), if_pos hlow]
    exact Nat.le_add_left 1 _
  dsimp only at power
  by_cases hm : m > 0
  · rw [if_pos hm] at power
    exact .second m power hquiet
  · have hzero : m = 0 := by
      rw [gt_iff_lt, UInt16.pos_iff_ne_zero, not_not] at hm
      exact hm
    rw [if_neg hm, hzero] at power
    exact .touched 2 (.inr (.inl rfl)) keyState power hquiet hlows fun h => absurd h (by decide)

/-! ### The steps of a press -/

theorem Called.quiet {n : Nat} {e : SharedCell.Effect KeyStatics KEYSTATE Press}
    (h : Called x n e) (hnone : e.raised = none) {i : Nat} (hin : i ≤ n) :
    raisedIn (raisedAt x) i (n + 1) = raisedIn (raisedAt x) i n := by
  rw [raisedIn_succ _ hin, h.raised, hnone]
  exact List.append_nil _

theorem lowsIn_low {i n : Nat} (hin : i ≤ n) (hlow : (x n).pins.power = false) :
    lowsIn x i (n + 1) = lowsIn x i n + 1 := by
  rw [lowsIn_succ hin, if_pos hlow]

theorem lowsIn_mono {i n : Nat} (hin : i ≤ n) : lowsIn x i n ≤ lowsIn x i (n + 1) := by
  rw [lowsIn_succ hin]
  exact Nat.le_add_right _ _

theorem touched_step (hmode : ∀ n, (x n).pins.mode = true) {i n : Nat} (hin : i ≤ n) {s : UInt8}
    (held : Held s) (down : (keysAt x n).keyState = .keyDown)
    (power : (keysAt x n).power = ⟨s, 0, 0⟩) (quiet : raisedIn (raisedAt x) i n = [])
    (lows : 1 ≤ lowsIn x i n) (counts : s = 1 → 2 ≤ lowsIn x i n) : Stage x i (n + 1) := by
  rcases debounce_held (k := ⟨s, 0, 0⟩) held (x n).pins.power (keysAt x n).keyState with
    ⟨hs, hpin⟩ | ⟨hs, hpin⟩ | ⟨s', hs', hlow, he⟩
  · have he := debounce_count (k := ⟨s, 0, 0⟩) (c := (keysAt x n).keyState) hs
    rw [if_pos (show (0 : UInt16) + 1 < 400 by decide)] at he
    have hcall := called_on hmode hpin power he
    have h3 : 3 ≤ lowsIn x i (n + 1) := by
      have h2 := counts hs
      rw [lowsIn_low hin hpin]
      omega
    exact .held s 1 held hcall.keyState hcall.power (by decide)
      ((hcall.quiet rfl hin).trans quiet) h3
  · have hcall := called_on hmode hpin power (debounce_release hs)
    have hkeyState : (keysAt x (n + 1)).keyState ≠ .keyShort := by
      rw [hcall.keyState, Option.getD_none, down]
      decide
    refine .settled 10 hkeyState hcall.power ?_
    rw [hcall.quiet rfl hin, quiet]
    exact Nat.zero_le 1
  · have hcall := called_on hmode rfl power he
    refine .touched s' hs' (hcall.keyState.trans down) hcall.power
      ((hcall.quiet rfl hin).trans quiet) (lows.trans (lowsIn_mono hin)) fun h1 => ?_
    rw [lowsIn_low hin (hlow h1)]
    omega

theorem count_full {d : UInt16} (h : d < 400) (hfull : ¬ d + 1 < 400) : d + 1 = 400 := by
  rw [UInt16.lt_iff_toNat_lt] at h hfull
  rw [← UInt16.toNat_inj]
  have hadd : (d + 1).toNat = (d.toNat + 1) % 65536 := UInt16.toNat_add d 1
  have h400 : (400 : UInt16).toNat = 400 := rfl
  omega

theorem held_step (hmode : ∀ n, (x n).pins.mode = true) {i n : Nat} (hin : i < n) {s : UInt8}
    {d : UInt16} (held : Held s) (short : (keysAt x n).keyState = .keyShort)
    (power : (keysAt x n).power = ⟨s, d, 0⟩) (count : d < 400)
    (quiet : raisedIn (raisedAt x) i n = []) (lows : 3 ≤ lowsIn x i n) : Stage x i (n + 1) := by
  have hlows := lows.trans (lowsIn_mono (Nat.le_of_lt hin))
  rcases debounce_held (k := ⟨s, d, 0⟩) held (x n).pins.power (keysAt x n).keyState with
    ⟨hs, hpin⟩ | ⟨hs, hpin⟩ | ⟨s', hs', -, he⟩
  · have he := debounce_count (k := ⟨s, d, 0⟩) (c := (keysAt x n).keyState) hs
    by_cases hcount : d + 1 < 400
    · rw [if_pos hcount] at he
      have hcall := called_on hmode hpin power he
      exact .held s (d + 1) held hcall.keyState hcall.power hcount
        ((hcall.quiet rfl (Nat.le_of_lt hin)).trans quiet) hlows
    · rw [if_neg hcount, if_pos (by rw [short]; decide)] at he
      have hcall := called_on hmode hpin power he
      have hpower := hcall.power
      rw [count_full count hcount] at hpower
      refine .long s held hcall.keyState hpower ?_
      rw [raisedIn_succ _ (Nat.le_of_lt hin), quiet, List.nil_append]
      exact Option.length_toList_le
  · have hcall := called_on hmode hpin power (debounce_release hs)
    have hpower := hcall.power
    rw [if_pos count] at hpower
    have hreleased : Released x i n :=
      ⟨hin, lows, by rw [power]; exact hs, hpin, by rw [power]; exact count⟩
    exact .waiting n 10 (hcall.keyState.trans short) hpower rfl (by decide) hreleased
      (fun k h h' => by omega) ((hcall.quiet rfl (Nat.le_of_lt hin)).trans quiet)
  · have hcall := called_on hmode rfl power he
    exact .held s' d hs' (hcall.keyState.trans short) hcall.power count
      ((hcall.quiet rfl (Nat.le_of_lt hin)).trans quiet) hlows

theorem long_step (hmode : ∀ n, (x n).pins.mode = true) {i n : Nat} (hin : i ≤ n) {s : UInt8}
    (held : Held s) (long : (keysAt x n).keyState = .keyLong)
    (power : (keysAt x n).power = ⟨s, 400, 0⟩)
    (raised : (raisedIn (raisedAt x) i n).length ≤ 1) : Stage x i (n + 1) := by
  rcases debounce_held (k := ⟨s, 400, 0⟩) held (x n).pins.power (keysAt x n).keyState with
    ⟨hs, hpin⟩ | ⟨hs, hpin⟩ | ⟨s', hs', -, he⟩
  · have he := debounce_count (k := ⟨s, 400, 0⟩) (c := (keysAt x n).keyState) hs
    rw [if_neg (show ¬ (400 : UInt16) + 1 < 400 by decide), if_neg (not_not.mpr long)] at he
    have hcall := called_on hmode hpin power he
    exact .long s held (hcall.keyState.trans long) hcall.power
      (by rw [hcall.quiet rfl hin]; exact raised)
  · have hcall := called_on hmode hpin power (debounce_release hs)
    have hkeyState : (keysAt x (n + 1)).keyState ≠ .keyShort := by
      rw [hcall.keyState, Option.getD_none, long]
      decide
    exact .settled 0 hkeyState hcall.power (by rw [hcall.quiet rfl hin]; exact raised)
  · have hcall := called_on hmode rfl power he
    exact .long s' hs' (hcall.keyState.trans long) hcall.power
      (by rw [hcall.quiet rfl hin]; exact raised)

theorem second_step (hmode : ∀ n, (x n).pins.mode = true) {i n : Nat} (hin : i ≤ n) {m : UInt16}
    (power : (keysAt x n).power = ⟨4, 0, m⟩) (quiet : raisedIn (raisedAt x) i n = []) :
    Stage x i (n + 1) := by
  have he := debounce_second (k := ⟨4, 0, m⟩) (c := (keysAt x n).keyState) rfl
    (x n).pins.power
  cases hpin : (x n).pins.power with
  | false =>
    rw [hpin, if_neg (by decide)] at he
    have hcall := called_on hmode hpin power he
    exact .second m hcall.power ((hcall.quiet rfl hin).trans quiet)
  | true =>
    rw [hpin, if_pos rfl] at he
    have hcall := called_on hmode hpin power he
    have hkeyState : (keysAt x (n + 1)).keyState ≠ .keyShort := by
      rw [hcall.keyState, Option.getD_some]
      decide
    refine .settled m hkeyState hcall.power ?_
    rw [hcall.quiet rfl hin, quiet]
    exact Nat.zero_le 1

/-- A sample at `KeyStep` 0 that does not start a press is high. -/
theorem high_of_not_starts {n : Nat} {m : UInt16} (power : (keysAt x n).power = ⟨0, 0, m⟩)
    (hnot : ¬ Starts x n) : (x n).pins.power = true := by
  cases hpin : (x n).pins.power with
  | false => exact absurd ⟨by rw [power], hpin⟩ hnot
  | true => rfl

theorem waiting_step (hmode : ∀ n, (x n).pins.mode = true) {i n r : Nat} (hin : i ≤ n)
    (hnot : ¬ Starts x n) {m : UInt16} (short : (keysAt x n).keyState = .keyShort)
    (power : (keysAt x n).power = ⟨0, 0, m⟩) (left : n + m.toNat = r + 11) (pos : m > 0)
    (released : Released x i r) (waited : Waited x r n)
    (quiet : raisedIn (raisedAt x) i n = []) : Stage x i (n + 1) := by
  have hpin := high_of_not_starts power hnot
  have he := debounce_wait (k := ⟨0, 0, m⟩) (c := (keysAt x n).keyState) rfl pos
  by_cases hlast : m - 1 = 0
  · rw [if_pos ⟨hlast, short⟩] at he
    have hcall := called_on hmode hpin power he
    have hkeyState : (keysAt x (n + 1)).keyState ≠ .keyShort := by
      rw [hcall.keyState, Option.getD_some]
      decide
    refine .settled (m - 1) hkeyState hcall.power ?_
    rw [raisedIn_succ _ hin, quiet, List.nil_append]
    exact Option.length_toList_le
  · rw [if_neg fun hc => hlast hc.1] at he
    have hcall := called_on hmode hpin power he
    have hleft : n + 1 + (m - 1).toNat = r + 11 := by
      rw [gt_iff_lt, UInt16.lt_iff_toNat_lt] at pos
      have hsub : (m - 1).toNat = m.toNat - 1 :=
        UInt16.toNat_sub_of_le m 1 (UInt16.le_iff_toNat_le.mpr pos)
      rw [hsub]
      have hzero : (0 : UInt16).toNat = 0 := rfl
      omega
    refine .waiting r (m - 1) (hcall.keyState.trans short) hcall.power hleft
      (UInt16.pos_iff_ne_zero.mpr hlast) released ?_ ((hcall.quiet rfl hin).trans quiet)
    intro k hk hkn
    rcases Nat.lt_succ_iff_lt_or_eq.mp hkn with hlt | rfl
    · exact waited k hk hlt
    · exact ⟨by rw [power], hpin⟩

theorem settled_step (hmode : ∀ n, (x n).pins.mode = true) {i n : Nat} (hin : i ≤ n)
    (hnot : ¬ Starts x n) {m : UInt16} (settled : (keysAt x n).keyState ≠ .keyShort)
    (power : (keysAt x n).power = ⟨0, 0, m⟩)
    (raised : (raisedIn (raisedAt x) i n).length ≤ 1) : Stage x i (n + 1) := by
  have hpin := high_of_not_starts power hnot
  by_cases hm : m > 0
  · have he := debounce_wait (k := ⟨0, 0, m⟩) (c := (keysAt x n).keyState) rfl hm
    rw [if_neg fun hc => settled hc.2] at he
    have hcall := called_on hmode hpin power he
    refine .settled (m - 1) ?_ hcall.power (by rw [hcall.quiet rfl hin]; exact raised)
    rw [hcall.keyState]
    exact settled
  · have hcall := called_on hmode hpin power (debounce_idle rfl hm)
    refine .settled m ?_ hcall.power (by rw [hcall.quiet rfl hin]; exact raised)
    rw [hcall.keyState]
    exact settled

theorem Stage.step (hmode : ∀ n, (x n).pins.mode = true) {i n : Nat} (hin : i < n)
    (hnot : ¬ Starts x n) (h : Stage x i n) : Stage x i (n + 1) := by
  cases h with
  | touched s held down power quiet lows counts =>
    exact touched_step hmode (Nat.le_of_lt hin) held down power quiet lows counts
  | held s d held short power count quiet lows =>
    exact held_step hmode hin held short power count quiet lows
  | long s held long power raised =>
    exact long_step hmode (Nat.le_of_lt hin) held long power raised
  | second m power quiet => exact second_step hmode (Nat.le_of_lt hin) power quiet
  | waiting r m short power left pos released waited quiet =>
    exact waiting_step hmode (Nat.le_of_lt hin) hnot short power left pos released waited quiet
  | settled m settled power raised =>
    exact settled_step hmode (Nat.le_of_lt hin) hnot settled power raised

/-! ### The whole run -/

/-- No press has started yet. -/
structure Untouched (x : Nat → Scan) (n : Nat) : Prop where
  power : (keysAt x n).power = ⟨0, 0, 0⟩
  keyState : (keysAt x n).keyState = .keyDown
  starts : ∀ k < n, ¬ Starts x k

theorem InPress.succ {i n : Nat} (h : InPress x i n) (hnot : ¬ Starts x n) :
    InPress x i (n + 1) := by
  refine ⟨Nat.lt_succ_of_lt h.lt, h.starts, fun k hik hkn => ?_⟩
  rcases Nat.lt_succ_iff_lt_or_eq.mp hkn with hlt | rfl
  · exact h.only k hik hlt
  · exact hnot

theorem InPress.of_starts {n : Nat} (h : Starts x n) : InPress x n (n + 1) :=
  ⟨Nat.lt_succ_self n, h, fun k hnk hkn => by omega⟩

theorem InPress.unique {i j n : Nat} (hi : InPress x i n) (hj : InPress x j n) : i = j := by
  rcases Nat.lt_trichotomy i j with hij | hij | hji
  · exact absurd hj.starts (hi.only j hij hj.lt)
  · exact hij
  · exact absurd hi.starts (hj.only i hji hi.lt)

theorem Untouched.step (hmode : ∀ n, (x n).pins.mode = true) {n : Nat} (h : Untouched x n)
    (hnot : ¬ Starts x n) : Untouched x (n + 1) := by
  have hcall := called_on hmode (high_of_not_starts h.power hnot) h.power
    (debounce_idle rfl (by decide))
  refine ⟨hcall.power, hcall.keyState.trans h.keyState, fun k hk => ?_⟩
  rcases Nat.lt_succ_iff_lt_or_eq.mp hk with hlt | rfl
  · exact h.starts k hlt
  · exact hnot

/-- Before every scan the run is in a stage of its last press, if it has one. -/
theorem stage_at (hmode : ∀ n, (x n).pins.mode = true) (n : Nat) :
    Untouched x n ∨ ∃ i, InPress x i n ∧ Stage x i n := by
  induction n with
  | zero => exact .inl ⟨rfl, rfl, fun k hk => absurd hk (Nat.not_lt_zero k)⟩
  | succ n ih =>
    by_cases hstart : Starts x n
    · right
      obtain ⟨m, power⟩ : ∃ m, (keysAt x n).power = ⟨0, 0, m⟩ := by
        rcases ih with huntouched | ⟨i, -, hstage⟩
        · exact ⟨0, huntouched.power⟩
        · exact hstage.power_zero hstart.1
      exact ⟨n, .of_starts hstart, .start hmode power hstart.2⟩
    · rcases ih with huntouched | ⟨i, hpress, hstage⟩
      · exact .inl (huntouched.step hmode hstart)
      · exact .inr ⟨i, hpress.succ hstart, hstage.step hmode hpress.lt hstart⟩

theorem InPress.stage (hmode : ∀ n, (x n).pins.mode = true) {i n : Nat} (h : InPress x i n) :
    Stage x i n := by
  rcases stage_at hmode n with huntouched | ⟨j, hpress, hstage⟩
  · exact absurd h.starts (huntouched.starts i h.lt)
  · rw [h.unique hpress]
    exact hstage

/-! ## The law of a press -/

theorem raisedAt_eq_some {n : Nat} {e : PowerEvent} (h : raisedAt x n = some e) :
    ∃ press, (debounce (x n).pins.power (keysAt x n).power (keysAt x n).keyState).raised =
      some press ∧ powerEvent (x n).panel.disp.work.devicePowerState press = some e := by
  rw [raisedAt, KeyBoard.powerEventAt, KeyBoard.powerRaised, KeyBoard.before_devicePower] at h
  exact Option.bind_eq_some_iff.mp h

/-- An event belongs to the press that goes on. -/
theorem raisedAt_inPress (hmode : ∀ n, (x n).pins.mode = true) {n : Nat} {e : PowerEvent}
    (h : raisedAt x n = some e) : ∃ i, InPress x i (n + 1) ∧ Stage x i n := by
  obtain ⟨press, hpress, -⟩ := raisedAt_eq_some h
  have hraised := debounce_raised hpress
  have hnot : ¬ Starts x n := by
    rintro ⟨hstep, hlow⟩
    rcases hraised with ⟨-, -, hhigh, -⟩ | ⟨-, h1⟩
    · rw [hlow] at hhigh
      cases hhigh
    · rw [hstep] at h1
      exact absurd h1 (by decide)
  rcases stage_at hmode n with huntouched | ⟨i, hin, hstage⟩
  · rw [huntouched.power] at hraised
    rcases hraised with ⟨-, -, -, hdouble, -⟩ | ⟨-, h1⟩
    · exact absurd (show (0 : UInt16) > 0 from hdouble) (by decide)
    · exact absurd (show (0 : UInt8) = 1 from h1) (by decide)
  · exact ⟨i, hin.succ hnot, hstage⟩

/-- The key of a press that waits for a second one no longer was released ten
samples before. -/
theorem Stage.released {i n : Nat} (h : Stage x i n) (hstep : (keysAt x n).power.keyStep = 0)
    (hlast : (keysAt x n).power.keyDoubleTimes - 1 = 0)
    (hshort : (keysAt x n).keyState = .keyShort) :
    ∃ r, n = r + 10 ∧ Released x i r ∧ Waited x r n := by
  cases h with
  | touched s held down => rw [down] at hshort; cases hshort
  | held s d held _ power => rw [power] at hstep; exact absurd hstep (held_ne_zero held)
  | long s held long => rw [long] at hshort; cases hshort
  | second m power =>
    rw [power] at hstep
    exact absurd (show (4 : UInt8) = 0 from hstep) (by decide)
  | waiting r m _ power left pos released waited =>
    rw [power] at hlast
    have hone : m = 1 := sub_eq_zero.mp hlast
    rw [hone] at left
    exact ⟨r, Nat.add_right_cancel left, released, waited⟩
  | settled m settled => exact absurd hshort settled

/-- The press from scan `i` is released as a short one at scan `r`, and ten
high samples at `KeyStep` 0 follow. -/
structure ShortPress (x : Nat → Scan) (i r : Nat) : Prop where
  press : InPress x i (r + 11)
  released : Released x i r
  waited : Waited x r (r + 11)

theorem short_press_released (hmode : ∀ n, (x n).pins.mode = true) {n : Nat}
    (h : raisedAt x n = some .shortPress) : ∃ i r, n = r + 10 ∧ ShortPress x i r := by
  obtain ⟨i, hin, hstage⟩ := raisedAt_inPress hmode h
  obtain ⟨press, hpress, hevent⟩ := raisedAt_eq_some h
  rcases debounce_raised hpress with ⟨-, hstep, hhigh, -, hlast, hshort⟩ | ⟨hlong, -⟩
  · obtain ⟨r, rfl, hreleased, hwaited⟩ := hstage.released hstep hlast hshort
    refine ⟨i, r, rfl, hin, hreleased, fun k hrk hk => ?_⟩
    rcases Nat.lt_succ_iff_lt_or_eq.mp hk with hlt | rfl
    · exact hwaited k hrk hlt
    · exact ⟨hstep, hhigh⟩
  · rw [hlong, powerEvent] at hevent
    split at hevent
    · cases hevent
    · cases hevent

theorem Untouched.count_le {n : Nat} (h : Untouched x n) :
    (keysAt x n).power.keyDownTimes ≤ 400 := by
  rw [h.power]
  exact UInt16.zero_le

theorem eq_of_mem_short {ε : Type} {l : List ε} (h : l.length ≤ 1) {a b : ε} (ha : a ∈ l)
    (hb : b ∈ l) : a = b := by
  cases l with
  | nil => cases ha
  | cons c l =>
    obtain rfl : l = [] := List.eq_nil_of_length_eq_zero (Nat.le_zero.mp (Nat.le_of_succ_le_succ h))
    rw [List.mem_singleton.mp ha, List.mem_singleton.mp hb]

/-- One press raises at most one event. `KeyDownTimes` is counted up by one
from 400 at most. -/
theorem power_press_events (hmode : ∀ n, (x n).pins.mode = true) :
    (∀ i n, InPress x i n → (raisedIn (raisedAt x) i n).length ≤ 1) ∧
    (∀ i n, InPress x i n → .wifiReset ∈ raisedIn (raisedAt x) i n →
      .shortPress ∉ raisedIn (raisedAt x) i n) ∧
    (∀ n e, raisedAt x n = some e → ∃ i, InPress x i (n + 1)) ∧
    (∀ n, raisedAt x n = some .shortPress → ∃ i r, n = r + 10 ∧ ShortPress x i r) ∧
    ∀ n, (keysAt x n).power.keyDownTimes.toNat + 1 ≤ 401 := by
  refine ⟨fun i n h => (h.stage hmode).length_le, ?_, ?_, fun n => short_press_released hmode, ?_⟩
  · intro i n h hreset hshort
    exact absurd (eq_of_mem_short (h.stage hmode).length_le hreset hshort) (by decide)
  · intro n e h
    obtain ⟨i, hin, -⟩ := raisedAt_inPress hmode h
    exact ⟨i, hin⟩
  · intro n
    have hle : (keysAt x n).power.keyDownTimes ≤ 400 := by
      rcases stage_at hmode n with huntouched | ⟨i, -, hstage⟩
      · exact huntouched.count_le
      · exact hstage.count_le
    exact Nat.succ_le_succ (UInt16.le_iff_toNat_le.mp hle)

end Run

theorem power_press_events_tap :
    (∀ i n, InPress tapPower i n → (raisedIn (raisedAt tapPower) i n).length ≤ 1) ∧
    (∀ i n, InPress tapPower i n → .wifiReset ∈ raisedIn (raisedAt tapPower) i n →
      .shortPress ∉ raisedIn (raisedAt tapPower) i n) ∧
    (∀ n e, raisedAt tapPower n = some e → ∃ i, InPress tapPower i (n + 1)) ∧
    (∀ n, raisedAt tapPower n = some .shortPress → ∃ i r, n = r + 10 ∧ ShortPress tapPower i r) ∧
    ∀ n, (keysAt tapPower n).power.keyDownTimes.toNat + 1 ≤ 401 :=
  power_press_events fun _ => rfl

example : raisedIn (raisedAt tapPower) 0 16 = [.shortPress] := by decide +kernel

end KeyPress

end Aclean
