import Mathlib.Logic.Function.Iterate
import Aclean.DispLink

/-!
# The switch-off timer

Three variables make the timer: the remaining hours `timing_state`, their
copy `power_state_pre` and the counter `power_tim_cnt`. One round of the
power monitor is a function of these three; `Timer.pass` states it on numbers
and `pass_timer` connects it to the code. `Timer.Left n` says what the three
are when the timer has `n` rounds to go, and every result about rounds is an
induction on `n`.
-/

namespace Aclean

open Board

/-! ## The timer as numbers -/

structure Timer where
  power : UInt8
  timing : Nat
  pre : Nat
  cnt : Nat
  deriving DecidableEq, Repr

def Board.timer (s : Board) : Timer where
  power := s.mem (work Field.devicePowerState)
  timing := (s.mem (work Field.timingState)).toNat
  pre := (s.mem .powerStatePre).toNat
  cnt := s.powerTimCnt.toNat

namespace Timer

/-- The head of a round finds a timer value that is new to it. -/
def Fresh (v : Timer) : Prop := v.timing ≠ 0 ∧ (v.pre = 255 ∨ v.timing ≠ v.pre)

instance (v : Timer) : Decidable v.Fresh := inferInstanceAs (Decidable (_ ∧ _))

/-- The counter, once the round is counted. -/
def counted (v : Timer) : Nat :=
  if v.Fresh then 1 else if v.cnt < 4294967295 then v.cnt + 1 else v.cnt

/-- The hours that the round leaves. -/
def left (v : Timer) : Nat :=
  if v.counted = 36 ∧ v.timing ≠ 0 then v.timing - 1 else v.timing

/-- The round switches the device off. -/
def Fires (v : Timer) : Prop := v.counted > v.left * 36 ∧ v.timing ≠ 0

instance (v : Timer) : Decidable v.Fires := inferInstanceAs (Decidable (_ ∧ _))

def pass (v : Timer) : Timer :=
  if v.Fires then ⟨0, 0, 255, 0⟩ else ⟨v.power, v.left, v.timing, v.counted⟩

end Timer

/-! ## A round of the power monitor -/

/-- Operations that leave the timer and the power flag as they are. -/
def Op.LeavesTimer : Op → Prop
  | .store (.deviceWorkData 0) _ => False
  | .store (.deviceWorkData 5) _ => False
  | .store .powerStatePre _ => False
  | .setPowerTimCnt _ => False
  | _ => True

theorem exec_timer {o : Op} (h : o.LeavesTimer) (t : Nat) (s : Board) :
    (Board.exec t o s).2.timer = s.timer := by
  cases o with
  | store a v =>
      have h0 : work 0 ≠ a := by intro ha; subst ha; exact h
      have h5 : work 5 ≠ a := by intro ha; subst ha; exact h
      have hpre : Addr.powerStatePre ≠ a := by intro ha; subst ha; exact h
      simp [Board.timer, h0, h5, hpre]
  | setPowerTimCnt n => exact absurd h id
  | _ => rfl

theorem run_timer {α : Type} {p : Code α} (h : p.Only Op.LeavesTimer) (t : Nat) (s : Board) :
    (p.run machine t s).2.timer = s.timer := by
  induction h generalizing s with
  | ret x => rfl
  | op ho _ ih => exact (ih _ _).trans (exec_timer ho t s)

theorem Op.Plain.leavesTimer {o : Op} (h : o.Plain) : o.LeavesTimer := by
  unfold Op.LeavesTimer
  split
  · exact h
  · exact h
  · exact h
  · exact h
  · trivial

theorem Op.Drives.leavesTimer {o : Op} (h : o.Drives) : o.LeavesTimer := by
  unfold Op.LeavesTimer
  split
  · exact absurd (show 0 = 2 from h) (by decide)
  · exact absurd (show 5 = 2 from h) (by decide)
  · exact h
  · exact h
  · trivial

/-- The counter runs up to its end and stays there. -/
def countUp (n : UInt32) : UInt32 := if n < 0xFFFFFFFF then n + 1 else n

theorem countUp_toNat (n : UInt32) :
    (countUp n).toNat = if n.toNat < 4294967295 then n.toNat + 1 else n.toNat := by
  have hlt : n < 0xFFFFFFFF ↔ n.toNat < 4294967295 := UInt32.lt_iff_toNat_lt
  unfold countUp
  by_cases h : n.toNat < 4294967295
  · rw [if_pos (hlt.mpr h), if_pos h, UInt32.toNat_add]
    show (n.toNat + 1) % 4294967296 = n.toNat + 1
    omega
  · rw [if_neg (fun hn => h (hlt.mp hn)), if_neg h]

theorem fresh_iff (s : Board) : s.timer.Fresh ↔ s.mem (work Field.timingState) ≠ 0 ∧
    (s.mem .powerStatePre = 0xff ∨ s.mem (work Field.timingState) ≠ s.mem .powerStatePre) := by
  simp only [Timer.Fresh, Board.timer, ne_eq, ← UInt8.toNat_inj]
  rfl

/-- The board after the head of a round. -/
def afterCount (s : Board) : Board :=
  { s.set .powerStatePre (s.mem (work Field.timingState)) with
    powerTimCnt := countUp (if s.timer.Fresh then 0 else s.powerTimCnt) }

/-- The second half of the head: the copy is refreshed, the round counted. -/
def countRound : Code Unit := do
  let tm ← load (work Field.timingState)
  store .powerStatePre tm
  let cnt ← getPowerTimCnt
  Prog.when (cnt < 0xFFFFFFFF) (setPowerTimCnt (cnt + 1))

theorem run_countRound (t : Nat) (s : Board) : (countRound.run machine t s).2 =
    { s.set .powerStatePre (s.mem (work Field.timingState)) with
      powerTimCnt := countUp s.powerTimCnt } := by
  simp only [countRound, load, store, getPowerTimCnt, Prog.op_bind, Prog.ret_bind, Prog.run_op,
    Prog.run_when, countUp]
  by_cases h : s.powerTimCnt < 0xFFFFFFFF
  · simp [h]
  · simp [h]
    rfl

theorem run_powerMonitorCount (t : Nat) (s : Board) :
    (powerMonitorCount.run machine t s).2 = afterCount s := by
  have hfresh := fresh_iff s
  have hround := run_countRound t
  unfold countRound at hround
  unfold afterCount
  by_cases h0 : s.mem (work Field.timingState) = 0
  · have hno : ¬ s.timer.Fresh := fun h => (hfresh.mp h).1 h0
    rw [if_neg hno, ← hround]
    by_cases hpre : s.mem .powerStatePre = 0xff
    · simp [powerMonitorCount, hpre, h0]
    · simp [powerMonitorCount, hpre, h0]
  · by_cases hpre : s.mem .powerStatePre = 0xff
    · rw [if_pos (hfresh.mpr ⟨h0, .inl hpre⟩)]
      have := hround { s.set .powerStatePre (s.mem (work Field.timingState)) with powerTimCnt := 0 }
      simp [powerMonitorCount, hpre, h0] at this ⊢
      rw [this]
      simp [Board.set]
    · by_cases hsame : s.mem (work Field.timingState) = s.mem .powerStatePre
      · have hno : ¬ s.timer.Fresh := fun h => (hfresh.mp h).2.elim hpre fun hne => hne hsame
        rw [if_neg hno, ← hround]
        simp [powerMonitorCount, hpre, hsame]
      · rw [if_pos (hfresh.mpr ⟨h0, .inr hsame⟩)]
        have := hround { s.set .powerStatePre (s.mem (work Field.timingState)) with powerTimCnt := 0 }
        simp [powerMonitorCount, hpre, h0, hsame] at this ⊢
        rw [this]
        simp [Board.set]

/-- The board once the round has counted and taken off an hour that is over. -/
def afterHour (s : Board) : Board :=
  if s.timer.counted = 36 ∧ s.timer.timing ≠ 0 then
    (afterCount s).set (work Field.timingState) (s.mem (work Field.timingState) - 1)
  else afterCount s

theorem afterCount_cnt (s : Board) : (afterCount s).powerTimCnt.toNat = s.timer.counted := by
  show (countUp (if s.timer.Fresh then 0 else s.powerTimCnt)).toNat = s.timer.counted
  rw [countUp_toNat, Timer.counted]
  by_cases h : s.timer.Fresh
  · rw [if_pos h, if_pos h]
    rfl
  · rw [if_neg h, if_neg h]
    rfl

theorem afterHour_timer (s : Board) :
    (afterHour s).timer = ⟨s.timer.power, s.timer.left, s.timer.timing, s.timer.counted⟩ := by
  have hcnt := afterCount_cnt s
  unfold afterHour Timer.left
  by_cases h : s.timer.counted = 36 ∧ s.timer.timing ≠ 0
  · have hne : (s.mem (work Field.timingState)).toNat ≠ 0 := h.2
    have hlt := (s.mem (work Field.timingState)).toNat_lt
    have hsub : (s.mem (work Field.timingState) - 1).toNat =
        (s.mem (work Field.timingState)).toNat - 1 := by
      rw [UInt8.toNat_sub]
      show (256 - 1 + _) % 256 = _
      omega
    rw [if_pos h, if_pos h]
    simp only [Board.timer, set_mem, set_powerTimCnt, if_pos, hsub, hcnt]
    simp [afterCount]
  · rw [if_neg h, if_neg h]
    simp only [Board.timer, hcnt]
    simp [afterCount]

/-- What the round does when the time is up. -/
def timeUp (dCmdPower : UInt8) : Code Unit := do
  store (work Field.devicePowerState) 0
  store (work Field.timingState) 0
  setPowerTimCnt 0
  store .powerStatePre 0xff
  setDispboardFunctionMode exchange dCmdPower 0
  aircleanPowerOnoff 0

/-- The middle of the round, with the copy of the timer that the rest tests. -/
def takeHour : Code UInt8 := do
  let cnt ← getPowerTimCnt
  let pre ← load .powerStatePre
  Prog.when (cnt = 36 ∧ pre ≠ 0) do
    let tm ← load (work Field.timingState)
    store (work Field.timingState) (tm - 1)
  pure pre

theorem run_takeHour (t : Nat) (s : Board) : takeHour.run machine t (afterCount s) =
    (s.mem (work Field.timingState), afterHour s) := by
  have hcnt : (afterCount s).powerTimCnt = 36 ↔ s.timer.counted = 36 := by
    rw [← UInt32.toNat_inj, afterCount_cnt]
    rfl
  have htm : (afterCount s).mem (work Field.timingState) = s.mem (work Field.timingState) := by
    simp [afterCount]
  have hpre : (afterCount s).mem .powerStatePre = s.mem (work Field.timingState) := by
    simp [afterCount]
  have hzero : s.mem (work Field.timingState) ≠ 0 ↔ s.timer.timing ≠ 0 := by
    rw [ne_eq, ← UInt8.toNat_inj]
    rfl
  unfold afterHour
  by_cases h : s.timer.counted = 36 ∧ s.timer.timing ≠ 0
  · rw [if_pos h]
    simp [takeHour, hcnt.mpr h.1, hpre, hzero.mpr h.2, htm]
  · rw [if_neg h]
    have hno : ¬ ((afterCount s).powerTimCnt = 36 ∧ s.mem (work Field.timingState) ≠ 0) := by
      rw [hcnt, hzero]
      exact h
    simp [takeHour, hpre, hno]

theorem threadEntryPowerMonitor_eq (dCmdPower : UInt8) :
    threadEntryPowerMonitor exchange dCmdPower = (do
      powerMonitorCount
      let pre ← takeHour
      let cnt ← getPowerTimCnt
      let tm ← load (work Field.timingState)
      if cnt.toNat > tm.toNat * 36 ∧ pre ≠ 0 then timeUp dCmdPower else aircleanWorkAutoHandle) := by
  simp only [takeHour, bind_assoc, pure_bind]
  rfl

/-- A round counts, and then switches off or hands over to the control pass. -/
theorem run_threadEntryPowerMonitor (dCmdPower : UInt8) (t : Nat) (s : Board) :
    ((threadEntryPowerMonitor exchange dCmdPower).run machine t s).2 =
      if s.timer.Fires then ((timeUp dCmdPower).run machine t (afterHour s)).2
      else (aircleanWorkAutoHandle.run machine t (afterHour s)).2 := by
  have htimer := afterHour_timer s
  have hc : (afterHour s).powerTimCnt.toNat = s.timer.counted := congrArg Timer.cnt htimer
  have hl : ((afterHour s).mem (work Field.timingState)).toNat = s.timer.left :=
    congrArg Timer.timing htimer
  have hzero : s.mem (work Field.timingState) ≠ 0 ↔ s.timer.timing ≠ 0 := by
    rw [ne_eq, ← UInt8.toNat_inj]
    rfl
  have hfires : s.timer.Fires ↔ (afterHour s).powerTimCnt.toNat >
      ((afterHour s).mem (work Field.timingState)).toNat * 36 ∧
        s.mem (work Field.timingState) ≠ 0 := by
    rw [hc, hl, hzero, Timer.Fires]
  rw [threadEntryPowerMonitor_eq, Prog.run_bind, run_powerMonitorCount, Prog.run_bind, run_takeHour]
  simp only [getPowerTimCnt, load, Prog.op_bind, Prog.ret_bind, Prog.run_op, Prog.run_ite]
  by_cases h : s.timer.Fires
  · rw [if_pos h, if_pos (hfires.mp h)]
  · rw [if_neg h, if_neg fun hf => h (hfires.mpr hf)]

/-! ### What a round does to the timer -/

theorem setDispboardFunctionMode_timer (type mode : UInt8) :
    (setDispboardFunctionMode exchange type mode).Only Op.LeavesTimer :=
  setDispboardFunctionMode_only (fun _ _ => .op trivial fun _ => .ret _)
    (fun _ h => h.1.leavesTimer) type mode

theorem aircleanPowerOnoff_timer (t : Nat) (s : Board) :
    ((aircleanPowerOnoff 0).run machine t s).2.timer = { s.timer with power := 0 } := by
  have hsave := run_timer (deviceSysParaSave_plain.mono fun _ => Op.Plain.leavesTimer) t s
  rw [aircleanPowerOnoff, if_neg (by decide), if_neg (by decide), Prog.run_bind, ← hsave]
  generalize (deviceSysParaSave.run machine t s).2 = s'
  simp [acEsdSet, acPhtSet, acAcMotorSet, Board.timer]

theorem timeUp_timer (dCmdPower : UInt8) (t : Nat) (s : Board) :
    ((timeUp dCmdPower).run machine t s).2.timer = ⟨0, 0, 255, 0⟩ := by
  have hsend := fun s => run_timer (setDispboardFunctionMode_timer dCmdPower 0) t s
  simp only [timeUp, store, setPowerTimCnt, Prog.op_bind, Prog.ret_bind, Prog.run_op, Prog.run_bind,
    aircleanPowerOnoff_timer, hsend]
  simp [Board.timer]

/-- **A round of the power monitor, as the timer sees it.** -/
theorem pass_timer (dCmdPower : UInt8) (t : Nat) (s : Board) :
    ((threadEntryPowerMonitor exchange dCmdPower).run machine t s).2.timer = s.timer.pass := by
  rw [run_threadEntryPowerMonitor, Timer.pass]
  by_cases h : s.timer.Fires
  · rw [if_pos h, if_pos h, timeUp_timer]
  · rw [if_neg h, if_neg h, run_timer (aircleanWorkAutoHandle_drives.mono fun _ =>
      Op.Drives.leavesTimer), afterHour_timer]

/-! ## Rounds to go -/

namespace Timer

/-- The timer has `n` rounds to go: a value the next round finds new counts in
full, one it knows counts down from the last hour's start. -/
def Left (n : Nat) (v : Timer) : Prop :=
  1 ≤ v.timing ∧ v.timing < 255 ∧
    (v.Fresh ∧ n = 36 * v.timing ∨
      v.pre = v.timing ∧ v.cnt < 36 ∧ n + v.cnt = 36 * v.timing)

/-- A value that the copy equals, behind a counter that has passed the hour:
no hour is taken off any more. -/
def Overdue (n : Nat) (v : Timer) : Prop :=
  1 ≤ v.timing ∧ v.timing < 255 ∧ v.pre = v.timing ∧ 36 ≤ v.cnt ∧ n + v.cnt = 36 * v.timing + 1

theorem Left.timing {n : Nat} {v : Timer} (h : v.Left n) : v.timing = (n + 35) / 36 := by
  obtain ⟨-, -, ⟨-, hn⟩ | ⟨-, h36, hn⟩⟩ := h
  · omega
  · omega

theorem fires_iff {v : Timer} {c l : Nat} (hc : v.counted = c) (hl : v.left = l) :
    v.Fires ↔ c > l * 36 ∧ v.timing ≠ 0 := by
  rw [Fires, hc, hl]

theorem pass_quiet {v : Timer} {c l : Nat} (hc : v.counted = c) (hl : v.left = l)
    (hno : ¬ v.Fires) : v.pass = ⟨v.power, l, v.timing, c⟩ := by
  rw [pass, if_neg hno, hc, hl]

theorem counted_fresh {v : Timer} (h : v.Fresh) : v.counted = 1 := if_pos h

/-- A value that the copy equals is counted on. -/
theorem counted_known {v : Timer} (hlt : v.timing < 255) (hpre : v.pre = v.timing)
    (hcnt : v.cnt < 4294967295) : v.counted = v.cnt + 1 := by
  have hold : ¬ v.Fresh := by
    intro hf
    rcases hf.2 with h255 | hne
    · omega
    · exact hne hpre.symm
  rw [counted, if_neg hold, if_pos hcnt]

theorem left_same {v : Timer} (h : v.counted ≠ 36) : v.left = v.timing :=
  if_neg fun hand => h hand.1

theorem left_hour {v : Timer} (h : v.counted = 36) (hpos : 1 ≤ v.timing) :
    v.left = v.timing - 1 := if_pos ⟨h, Nat.ne_of_gt hpos⟩

/-- One round with more to come. -/
theorem Left.step {n : Nat} {v : Timer} (h : v.Left (n + 1)) (hn : n ≠ 0) :
    ¬ v.Fires ∧ v.pass.Left n := by
  obtain ⟨hpos, hlt, hcase⟩ := h
  rcases hcase with ⟨hfresh, hn'⟩ | ⟨hpre, h36, hn'⟩
  · have hc := counted_fresh hfresh
    have hl : v.left = v.timing := left_same (by omega)
    have hno : ¬ v.Fires := by
      rw [fires_iff hc hl]
      omega
    rw [pass_quiet hc hl hno]
    exact ⟨hno, hpos, hlt, .inr ⟨rfl, (by decide : 1 < 36), by omega⟩⟩
  · have hc : v.counted = v.cnt + 1 := counted_known hlt hpre (by omega)
    by_cases hhour : v.cnt + 1 = 36
    · have hl : v.left = v.timing - 1 := left_hour (by omega) hpos
      have hno : ¬ v.Fires := by
        rw [fires_iff hc hl]
        omega
      have hfresh : Fresh ⟨v.power, v.timing - 1, v.timing, v.cnt + 1⟩ := by
        refine ⟨?_, .inr ?_⟩
        · show v.timing - 1 ≠ 0
          omega
        · show v.timing - 1 ≠ v.timing
          omega
      have hrest : n = 36 * (v.timing - 1) := by omega
      rw [pass_quiet hc hl hno]
      refine ⟨hno, ?_, ?_, .inl ⟨hfresh, hrest⟩⟩
      · show 1 ≤ v.timing - 1
        omega
      · show v.timing - 1 < 255
        omega
    · have hl : v.left = v.timing := left_same (by omega)
      have hno : ¬ v.Fires := by
        rw [fires_iff hc hl]
        omega
      have hrest : n + (v.cnt + 1) = 36 * v.timing := by omega
      have hlow : v.cnt + 1 < 36 := by omega
      rw [pass_quiet hc hl hno]
      exact ⟨hno, hpos, hlt, .inr ⟨rfl, hlow, hrest⟩⟩

/-- The last round. -/
theorem Left.last {v : Timer} (h : v.Left 1) : v.Fires := by
  obtain ⟨hpos, hlt, hcase⟩ := h
  rcases hcase with ⟨-, hn⟩ | ⟨hpre, h36, hn⟩
  · omega
  · have hc : v.counted = v.cnt + 1 := counted_known hlt hpre (by omega)
    have hl : v.left = v.timing - 1 := left_hour (by omega) hpos
    rw [fires_iff hc hl]
    omega

theorem Overdue.step {n : Nat} {v : Timer} (h : v.Overdue (n + 1)) (hn : n ≠ 0) :
    ¬ v.Fires ∧ v.pass.Overdue n := by
  obtain ⟨hpos, hlt, hpre, h36, hn'⟩ := h
  have hc : v.counted = v.cnt + 1 := counted_known hlt hpre (by omega)
  have hl : v.left = v.timing := left_same (by omega)
  have hno : ¬ v.Fires := by
    rw [fires_iff hc hl]
    omega
  have hrest : n + (v.cnt + 1) = 36 * v.timing + 1 := by omega
  have hhigh : 36 ≤ v.cnt + 1 := by omega
  rw [pass_quiet hc hl hno]
  exact ⟨hno, hpos, hlt, rfl, hhigh, hrest⟩

theorem Overdue.last {v : Timer} (h : v.Overdue 1) : v.Fires := by
  obtain ⟨hpos, hlt, hpre, h36, hn⟩ := h
  have hc : v.counted = v.cnt + 1 := counted_known hlt hpre (by omega)
  have hl : v.left = v.timing := left_same (by omega)
  rw [fires_iff hc hl]
  omega

/-- With no hours set, nothing happens. -/
theorem pass_idle {v : Timer} (h : v.timing = 0) :
    ¬ v.Fires ∧ v.pass.power = v.power ∧ v.pass.timing = 0 ∧ v.pass.pre = 0 := by
  have hno : ¬ v.Fires := fun hf => hf.2 h
  have hl : v.left = 0 := (if_neg fun hand => hand.2 h).trans h
  rw [pass_quiet rfl hl hno]
  exact ⟨hno, rfl, rfl, h⟩

end Timer

/-! ## Runs of the power monitor -/

/-- The boards after each round. Between two rounds anything may change but
the timer and the power flag. -/
structure Rounds (dCmdPower : UInt8) (s : Board) (S : Nat → Board) : Prop where
  start : S 0 = s
  next : ∀ k, ∃ b t, b.timer = (S k).timer ∧
    S (k + 1) = ((threadEntryPowerMonitor exchange dCmdPower).run machine t b).2

namespace Rounds

variable {dCmdPower : UInt8} {s : Board} {S : Nat → Board}

theorem timer_succ (h : Rounds dCmdPower s S) (k : Nat) :
    (S (k + 1)).timer = (S k).timer.pass := by
  obtain ⟨b, t, hb, hS⟩ := h.next k
  rw [hS, pass_timer, hb]

/-- What counts down by one each round, and fires at the end, fires then. -/
theorem countdown {C : Nat → Timer → Prop} (h : Rounds dCmdPower s S) {n : Nat} (hn : 1 ≤ n)
    (hstep : ∀ m v, C (m + 1) v → m ≠ 0 → ¬ v.Fires ∧ C m v.pass)
    (hlast : ∀ v, C 1 v → v.Fires) (h0 : C n s.timer) :
    (∀ k, k < n → (S k).timer.power = s.timer.power ∧ C (n - k) (S k).timer) ∧
      (S n).timer = ⟨0, 0, 255, 0⟩ := by
  have hbefore : ∀ k, k < n → (S k).timer.power = s.timer.power ∧ C (n - k) (S k).timer := by
    intro k hk
    induction k with
    | zero =>
        rw [h.start]
        exact ⟨rfl, h0⟩
    | succ k ih =>
        obtain ⟨hpower, hC⟩ := ih (Nat.lt_of_succ_lt hk)
        obtain ⟨hno, hC'⟩ := hstep (n - (k + 1)) (S k).timer
          (by rwa [show n - (k + 1) + 1 = n - k by omega]) (by omega)
        rw [h.timer_succ]
        refine ⟨?_, hC'⟩
        rw [Timer.pass, if_neg hno, hpower]
  refine ⟨hbefore, ?_⟩
  obtain ⟨-, hC⟩ := hbefore (n - 1) (by omega)
  have hfires := hlast _ (by rwa [show n - (n - 1) = 1 by omega] at hC)
  have hsucc := h.timer_succ (n - 1)
  rw [show n - 1 + 1 = n by omega, Timer.pass, if_pos hfires] at hsucc
  exact hsucc

/-- Without hours set, no number of rounds switches off. -/
theorem idle (h : Rounds dCmdPower s S) {j : Nat} (h0 : (S j).timer.timing = 0) (k : Nat) :
    (S (j + k)).timer.power = (S j).timer.power ∧ (S (j + k)).timer.timing = 0 ∧
      ((S (j + k)).timer.pre = (S j).timer.pre ∨ (S (j + k)).timer.pre = 0) := by
  induction k with
  | zero => exact ⟨rfl, h0, .inl rfl⟩
  | succ k ih =>
      obtain ⟨-, hpower, htiming, hpre⟩ := Timer.pass_idle ih.2.1
      rw [← Nat.add_assoc, h.timer_succ]
      exact ⟨hpower.trans ih.1, htiming, .inr hpre⟩

/-- Whatever counter and copy say, a timer that is set fires in some round. -/
theorem exists_fires (h : Rounds dCmdPower s S) (hpos : 1 ≤ s.timer.timing)
    (hlt : s.timer.timing < 255) :
    ∃ k, (S k).timer.Fires ∧ (S k).timer.power = s.timer.power := by
  have hcount : ∀ {C : Nat → Timer → Prop} {n : Nat}, 1 ≤ n →
      (∀ m v, C (m + 1) v → m ≠ 0 → ¬ v.Fires ∧ C m v.pass) → (∀ v, C 1 v → v.Fires) →
      C n s.timer → ∃ k, (S k).timer.Fires ∧ (S k).timer.power = s.timer.power := by
    intro C n hn hstep hlast h0
    obtain ⟨hpower, hC⟩ := (h.countdown hn hstep hlast h0).1 (n - 1) (by omega)
    rw [show n - (n - 1) = 1 by omega] at hC
    exact ⟨n - 1, hlast _ hC, hpower⟩
  by_cases hfresh : s.timer.Fresh
  · have hleft : s.timer.Left (36 * s.timer.timing) := ⟨hpos, hlt, .inl ⟨hfresh, rfl⟩⟩
    exact hcount (by omega) (fun _ _ => Timer.Left.step) (fun _ => Timer.Left.last) hleft
  · have hpre : s.timer.pre = s.timer.timing := by
      by_contra hne
      exact hfresh ⟨Nat.ne_of_gt hpos, .inr (Ne.symm hne)⟩
    by_cases hlow : s.timer.cnt < 36
    · have hleft : s.timer.Left (36 * s.timer.timing - s.timer.cnt) := by
        refine ⟨hpos, hlt, .inr ⟨hpre, hlow, ?_⟩⟩
        omega
      exact hcount (by omega) (fun _ _ => Timer.Left.step) (fun _ => Timer.Left.last) hleft
    · by_cases hend : s.timer.cnt ≤ 36 * s.timer.timing
      · have hover : s.timer.Overdue (36 * s.timer.timing + 1 - s.timer.cnt) := by
          refine ⟨hpos, hlt, hpre, Nat.le_of_not_lt hlow, ?_⟩
          omega
        exact hcount (by omega) (fun _ _ => Timer.Overdue.step) (fun _ => Timer.Overdue.last) hover
      · -- the counter is past the end already
        refine ⟨0, ?_, by rw [h.start]⟩
        have hc : s.timer.cnt ≤ s.timer.counted := by
          unfold Timer.counted
          rw [if_neg hfresh]
          split
          · exact Nat.le_succ _
          · exact Nat.le_refl _
        have hl : s.timer.left = s.timer.timing := Timer.left_same (by omega)
        rw [h.start, Timer.fires_iff rfl hl]
        omega

end Rounds

/-- The timer is set to `n` hours; of the other variables of the timer and the
power flag none changes. -/
def SetTimer (n : Nat) (s s' : Board) : Prop := s'.timer = { s.timer with timing := n }

theorem left_set {v : Timer} {n : Nat} (h1 : 1 ≤ n) (h12 : n ≤ 12) (hpre : v.pre = 255 ∨ n ≠ v.pre) :
    Timer.Left (36 * n) { v with timing := n } :=
  ⟨h1, Nat.lt_of_le_of_lt h12 (by decide), .inl ⟨⟨Nat.ne_of_gt h1, hpre⟩, rfl⟩⟩

/-- **The switch-off countdown is exact.** From a board that is on with no
timer set: without a timer it stays on; a timer set after any number of rounds
counts down its hours and switches off with round `36 * n`, for good; and set
back to zero before that it never does. -/
theorem countdown_exact (dCmdPower : UInt8) (s : Board) (hon : s.timer.power ≠ 0)
    (h0 : s.timer.timing = 0) (hpre : s.timer.pre = 0 ∨ s.timer.pre = 255) :
    (∀ S, Rounds dCmdPower s S → ∀ k, (S k).timer.power ≠ 0 ∧ (S k).timer.timing = 0) ∧
    ∀ n, 1 ≤ n → n ≤ 12 → ∀ S₀ j s₁ S, Rounds dCmdPower s S₀ → SetTimer n (S₀ j) s₁ →
      Rounds dCmdPower s₁ S →
        (∀ k < 36 * n, (S k).timer.power ≠ 0 ∧ (S k).timer.timing = n - k / 36) ∧
        (∀ k, (S (36 * n + k)).timer.power = 0 ∧ (S (36 * n + k)).timer.timing = 0) ∧
        ∀ k < 36 * n, ∀ s₂ S', SetTimer 0 (S k) s₂ → Rounds dCmdPower s₂ S' →
          ∀ m, (S' m).timer.power ≠ 0 ∧ (S' m).timer.timing = 0 := by
  have hidle : ∀ {s S}, Rounds dCmdPower s S → s.timer.timing = 0 → ∀ k,
      (S k).timer.power = s.timer.power ∧ (S k).timer.timing = 0 ∧
        ((S k).timer.pre = s.timer.pre ∨ (S k).timer.pre = 0) := by
    intro s S hS h0 k
    have hrun := hS.idle (j := 0) (by rw [hS.start]; exact h0) k
    rwa [Nat.zero_add, hS.start] at hrun
  refine ⟨?_, ?_⟩
  · intro S hS k
    obtain ⟨hpower, htiming, -⟩ := hidle hS h0 k
    exact ⟨by rw [hpower]; exact hon, htiming⟩
  · intro n h1 h12 S₀ j s₁ S hS₀ hset hS
    obtain ⟨hpower₀, -, hpre₀⟩ := hidle hS₀ h0 j
    have hleft : s₁.timer.Left (36 * n) := by
      rw [hset]
      refine left_set h1 h12 ?_
      omega
    have hpower₁ : s₁.timer.power ≠ 0 := by
      rw [hset]
      exact fun h => hon (hpower₀.symm.trans h)
    obtain ⟨hbefore, hfired⟩ := hS.countdown (by omega) (fun m v => Timer.Left.step)
      (fun v => Timer.Left.last) hleft
    refine ⟨?_, ?_, ?_⟩
    · intro k hk
      obtain ⟨hpower, hk'⟩ := hbefore k hk
      refine ⟨by rw [hpower]; exact hpower₁, ?_⟩
      rw [hk'.timing]
      omega
    · intro k
      obtain ⟨hpower, htiming, -⟩ := hS.idle (j := 36 * n) (by rw [hfired]) k
      exact ⟨by rw [hpower, hfired], htiming⟩
    · intro k hk s₂ S' hset' hS' m
      obtain ⟨hpower, htiming, -⟩ := hidle hS' (by rw [hset']) m
      refine ⟨?_, htiming⟩
      rw [hpower, hset']
      show (S k).timer.power ≠ 0
      rw [(hbefore k hk).1]
      exact hpower₁

/-- The rounds with nothing in between. -/
def roundsFrom (dCmdPower : UInt8) (t : Nat) (s : Board) : Nat → Board
  | 0 => s
  | k + 1 => ((threadEntryPowerMonitor exchange dCmdPower).run machine t (roundsFrom dCmdPower t s k)).2

theorem rounds_roundsFrom (dCmdPower : UInt8) (t : Nat) (s : Board) :
    Rounds dCmdPower s (roundsFrom dCmdPower t s) :=
  ⟨rfl, fun k => ⟨roundsFrom dCmdPower t s k, t, rfl, rfl⟩⟩

theorem countdown_exact_manual :
    (roundsFrom 1 0 (Board.manual.set (work Field.timingState) 2) 71).timer.timing = 2 - 71 / 36 ∧
      (roundsFrom 1 0 (Board.manual.set (work Field.timingState) 2) (36 * 2 + 0)).timer.power = 0 := by
  have h := (countdown_exact 1 Board.manual (by decide) (by decide) (by decide)).2 2 (by decide)
    (by decide) (roundsFrom 1 0 Board.manual) 0 (Board.manual.set (work Field.timingState) 2)
    (roundsFrom 1 0 (Board.manual.set (work Field.timingState) 2)) (rounds_roundsFrom 1 0 _) rfl
    (rounds_roundsFrom 1 0 _)
  exact ⟨(h.1 71 (by decide)).2, (h.2.1 0).1⟩

/-! ## Setting a running timer again -/

theorem commandSwitch_timer {N : UInt8} (hN : N.toNat ≤ 12) (t : Nat) (s : Board) :
    ((commandSwitch 6 N).run machine t s).2.timer = { s.timer with timing := N.toNat } := by
  have hle : N ≤ 0x0c := UInt8.le_iff_toNat_le.mpr hN
  simp [commandSwitch, hle, Board.timer]

/-- The timer command sets the hours and touches nothing else of the timer. -/
theorem setDeviceWorkMode_timer {N : UInt8} (hN : N.toNat ≤ 12) (t : Nat) {s : Board}
    (hmode : s.mem (work Field.deviceMode) ≠ 1) (hon : s.mem (work Field.devicePowerState) ≠ 0) :
    SetTimer N.toNat s ((setDeviceWorkMode exchange 6 N 0).run machine t s).2 := by
  have hplain : ∀ {α : Type} {p : Code α} (s : Board), p.Only Op.Plain →
      (p.run machine t s).2.timer = s.timer :=
    fun s h => run_timer (h.mono fun _ => Op.Plain.leavesTimer) t s
  have hknown : ∀ s, ((commandSwitch 6 N).run machine t s).1 = true := by
    intro s
    simp [commandSwitch]
  unfold SetTimer
  simp only [setDeviceWorkMode, note, load, Prog.op_bind, Prog.ret_bind, Prog.run_op, Prog.run_ite]
  rw [if_pos (by decide), if_neg hmode, if_neg hon, applyCommand, Prog.run_bind, Prog.run_bind,
    Prog.run_ite, if_pos (hknown _), Prog.run_bind, Prog.run_when, if_neg (by decide),
    hplain _ saveIfChanged_plain, commandSwitch_timer hN, hplain _ backupWorkData_plain]
  rfl

/-- What the power monitor's own variables can be between two rounds: it alone
writes them, the rest of the board is whatever the others made of it. -/
inductive MonitorReachable (dCmdPower : UInt8) : Board → Prop where
  | boot {s : Board} (hpre : s.mem .powerStatePre = 0xff) (hcnt : s.powerTimCnt = 0) :
      MonitorReachable dCmdPower s
  | pass {s : Board} (t : Nat) (h : MonitorReachable dCmdPower s) :
      MonitorReachable dCmdPower ((threadEntryPowerMonitor exchange dCmdPower).run machine t s).2
  | others {s s' : Board} (h : MonitorReachable dCmdPower s)
      (hpre : s'.mem .powerStatePre = s.mem .powerStatePre)
      (hcnt : s'.powerTimCnt = s.powerTimCnt) : MonitorReachable dCmdPower s'

namespace Timer

/-- The copy and the counter fit: no value is counted past its end. -/
def Counting (v : Timer) : Prop := v.pre = 255 ∨ v.pre = 0 ∨ 1 ≤ v.cnt ∧ v.cnt ≤ 36 * v.pre

theorem Counting.pass {v : Timer} (h : v.Counting) (hlt : v.timing < 256) : v.pass.Counting := by
  by_cases hfires : v.Fires
  · rw [Timer.pass, if_pos hfires]
    exact .inl rfl
  · rw [pass_quiet rfl rfl hfires]
    by_cases h0 : v.timing = 0
    · exact .inr (.inl h0)
    · by_cases h255 : v.timing = 255
      · exact .inl h255
      · refine .inr (.inr ?_)
        show 1 ≤ v.counted ∧ v.counted ≤ 36 * v.timing
        by_cases hfresh : v.Fresh
        · rw [counted_fresh hfresh]
          omega
        · have hpre : v.pre = v.timing := by
            by_contra hne
            exact hfresh ⟨h0, .inr (Ne.symm hne)⟩
          have hcnt : 1 ≤ v.cnt ∧ v.cnt ≤ 36 * v.timing := by
            rcases h with h | h | h
            · omega
            · omega
            · rwa [hpre] at h
          have hc : v.counted = v.cnt + 1 := counted_known (by omega) hpre (by omega)
          have hend : ¬ (v.cnt + 1 > v.left * 36 ∧ v.timing ≠ 0) := by
            rwa [fires_iff hc rfl] at hfires
          have hleft : v.left ≤ v.timing := by
            unfold left
            split
            · exact Nat.sub_le _ _
            · exact Nat.le_refl _
          rw [hc]
          omega

/-- What a value does that the copy already holds: the counter runs on. -/
theorem Counting.rearm_same {v : Timer} (h : v.Counting) {n : Nat} (h1 : 1 ≤ n) (h12 : n ≤ 12)
    (hpre : v.pre = n) : ∃ m, 1 ≤ m ∧ m < 36 * n ∧
      (Left m { v with timing := n } ∨ Overdue m { v with timing := n }) := by
  have hcnt : 1 ≤ v.cnt ∧ v.cnt ≤ 36 * n := by
    rcases h with h | h | h
    · omega
    · omega
    · rwa [hpre] at h
  have hlt : n < 255 := by omega
  by_cases hlow : v.cnt < 36
  · refine ⟨36 * n - v.cnt, by omega, by omega, .inl ⟨h1, hlt, .inr ⟨hpre, hlow, ?_⟩⟩⟩
    show 36 * n - v.cnt + v.cnt = 36 * n
    omega
  · refine ⟨36 * n + 1 - v.cnt, by omega, by omega, .inr ⟨h1, hlt, hpre, Nat.le_of_not_lt hlow, ?_⟩⟩
    show 36 * n + 1 - v.cnt + v.cnt = 36 * n + 1
    omega

end Timer

theorem MonitorReachable.counting {dCmdPower : UInt8} {s : Board}
    (h : MonitorReachable dCmdPower s) : s.timer.Counting := by
  induction h with
  | @boot s hpre hcnt =>
      refine .inl ?_
      rw [Board.timer, hpre]
      rfl
  | @pass s t _ ih =>
      rw [pass_timer]
      exact ih.pass (s.mem (work Field.timingState)).toNat_lt
  | @others s s' _ hpre hcnt ih =>
      have hpre' : s'.timer.pre = s.timer.pre := congrArg UInt8.toNat hpre
      have hcnt' : s'.timer.cnt = s.timer.cnt := congrArg UInt32.toNat hcnt
      unfold Timer.Counting
      rwa [hpre', hcnt']

/-- **Setting a running timer to another value restarts it, unless the copy
that the round compares with still holds that value**: on an hour boundary the
copy is one hour behind, and after a change that no round has seen it is the
value before. Then the old count runs on and the device goes off early. -/
theorem rearm_restarts_iff (dCmdPower : UInt8) (t : Nat) {s : Board}
    (hs : MonitorReachable dCmdPower s) (hon : s.mem (work Field.devicePowerState) ≠ 0)
    (hmode : s.mem (work Field.deviceMode) ≠ 1) {N : UInt8} (h1 : 1 ≤ N.toNat)
    (h12 : N.toNat ≤ 12) {S : Nat → Board}
    (hS : Rounds dCmdPower ((setDeviceWorkMode exchange 6 N 0).run machine t s).2 S) :
    ((∀ k < 36 * N.toNat, (S k).timer.power ≠ 0) ∧ (S (36 * N.toNat)).timer.power = 0) ↔
      N ≠ s.mem .powerStatePre := by
  have hset := setDeviceWorkMode_timer h12 t hmode hon
  have hpower : ((setDeviceWorkMode exchange 6 N 0).run machine t s).2.timer.power ≠ 0 := by
    rw [hset]
    exact hon
  have hcopy : N = s.mem .powerStatePre ↔ s.timer.pre = N.toNat := by
    rw [← UInt8.toNat_inj]
    exact eq_comm
  constructor
  · intro ⟨hstays, _⟩ hsame
    obtain ⟨m, hm, hmlt, hleft⟩ := hs.counting.rearm_same h1 h12 (hcopy.mp hsame)
    have hfired : (S m).timer = ⟨0, 0, 255, 0⟩ := by
      rcases hleft with hleft | hover
      · exact (hS.countdown hm (fun _ _ => Timer.Left.step) (fun _ => Timer.Left.last)
          (by rw [hset]; exact hleft)).2
      · exact (hS.countdown hm (fun _ _ => Timer.Overdue.step) (fun _ => Timer.Overdue.last)
          (by rw [hset]; exact hover)).2
    exact hstays m hmlt (by rw [hfired])
  · intro hother
    have hleft : Timer.Left (36 * N.toNat)
        ((setDeviceWorkMode exchange 6 N 0).run machine t s).2.timer := by
      rw [hset]
      exact left_set h1 h12 (.inr fun h => hother (hcopy.mpr h.symm))
    obtain ⟨hbefore, hfired⟩ := hS.countdown (by omega) (fun _ _ => Timer.Left.step)
      (fun _ => Timer.Left.last) hleft
    refine ⟨fun k hk => ?_, by rw [hfired]⟩
    rw [(hbefore k hk).1]
    exact hpower

/-- In manual mode, just set to `n` hours. -/
def Board.armed (n : UInt8) : Board := Board.manual.set (work Field.timingState) n

theorem rearm_restarts_iff_armed :
    (roundsFrom 1 0 ((setDeviceWorkMode exchange 6 3 0).run machine 0 (Board.armed 2)).2
      (36 * 3)).timer.power = 0 :=
  ((rearm_restarts_iff 1 0 (s := Board.armed 2) (N := 3) (.boot (by decide) (by decide))
    (by decide) (by decide) (by decide) (by decide) (rounds_roundsFrom 1 0 _)).mpr (by decide)).2

theorem roundsFrom_timer (dCmdPower : UInt8) (t : Nat) (s : Board) (k : Nat) :
    (roundsFrom dCmdPower t s k).timer = Nat.iterate Timer.pass k s.timer := by
  induction k with
  | zero => rfl
  | succ k ih => rw [roundsFrom, pass_timer, ih, Function.iterate_succ_apply']

theorem monitorReachable_roundsFrom {dCmdPower : UInt8} (t : Nat) {s : Board}
    (h : MonitorReachable dCmdPower s) (k : Nat) :
    MonitorReachable dCmdPower (roundsFrom dCmdPower t s k) := by
  induction k with
  | zero => exact h
  | succ k ih => exact ih.pass t

/-- No round of the power monitor changes the mode. -/
theorem pass_mode (dCmdPower : UInt8) (t : Nat) (s : Board) :
    ((threadEntryPowerMonitor exchange dCmdPower).run machine t s).2.mem (work Field.deviceMode) =
      s.mem (work Field.deviceMode) := by
  have hplain : ∀ o : Op, o.Plain → o.Leaves (work Field.deviceMode) := by
    intro o ho
    cases o with
    | store a v =>
        intro ha
        subst ha
        exact ho
    | exchange len => exact absurd ho id
    | _ => trivial
  have hdrives : ∀ o : Op, o.Drives → o.Leaves (work Field.deviceMode) := by
    intro o ho
    cases o with
    | store a v =>
        intro ha
        subst ha
        exact absurd (show 1 = 2 from ho) (by decide)
    | exchange len => exact absurd ho id
    | _ => trivial
  have hsend : ∀ s, ((setDispboardFunctionMode exchange dCmdPower 0).run machine t s).2.mem
      (work Field.deviceMode) = s.mem (work Field.deviceMode) := by
    refine run_leaves (setDispboardFunctionMode_only (fun n _ => ?_)
      (fun o h => hplain o h.1) dCmdPower 0) t
    exact .op (fun i => by simp) fun _ => .ret _
  have hsave := run_leaves (deviceSysParaSave_plain.mono hplain) t
  have hhour : (afterHour s).mem (work Field.deviceMode) = s.mem (work Field.deviceMode) := by
    unfold afterHour
    split <;> simp [afterCount]
  rw [run_threadEntryPowerMonitor]
  split
  · simp [timeUp, Prog.run_bind, hsend, hsave, aircleanPowerOnoff, acEsdSet, acPhtSet, acAcMotorSet,
      hhour]
  · exact (run_leaves (aircleanWorkAutoHandle_drives.mono hdrives) t _).trans hhour

/-- After the first of two hours the display shows one hour and the copy says
two; set to two hours again, the device is off one round later. -/
theorem rearm_on_the_hour : ∃ s, MonitorReachable 1 s ∧
    s.mem (work Field.devicePowerState) = 1 ∧ s.mem (work Field.deviceMode) = 2 ∧
    s.mem (work Field.timingState) = 1 ∧
    (roundsFrom 1 0 ((setDeviceWorkMode exchange 6 2 0).run machine 0 s).2 37).timer.power = 0 := by
  have htimer := roundsFrom_timer 1 0 (Board.armed 2) 36
  rw [show (Board.armed 2).timer = ⟨1, 2, 255, 0⟩ by decide,
    show Nat.iterate Timer.pass 36 ⟨1, 2, 255, 0⟩ = ⟨1, 1, 2, 36⟩ by decide +kernel] at htimer
  have hmode : ∀ k, (roundsFrom 1 0 (Board.armed 2) k).mem (work Field.deviceMode) = 2 := by
    intro k
    induction k with
    | zero => decide
    | succ k ih => rw [roundsFrom, pass_mode, ih]
  have hreach : MonitorReachable 1 (roundsFrom 1 0 (Board.armed 2) 36) :=
    monitorReachable_roundsFrom 0 (.boot (by decide) (by decide)) 36
  have hmode36 := hmode 36
  generalize roundsFrom 1 0 (Board.armed 2) 36 = s at htimer hmode36 hreach
  have hon : s.mem (work Field.devicePowerState) = 1 := congrArg Timer.power htimer
  have hset := setDeviceWorkMode_timer (N := 2) (by decide) 0 (by rw [hmode36]; decide)
    (by rw [hon]; decide)
  refine ⟨s, hreach, hon, hmode36, UInt8.toNat_inj.mp (congrArg Timer.timing htimer), ?_⟩
  rw [roundsFrom_timer, hset, htimer]
  decide +kernel

end Aclean
