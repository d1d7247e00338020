import Aclean.Countdown
import Aclean.PowerOff

/-!
# A timer command against a running round

A round of the power monitor tests its copy of the timer and then takes an
hour off the timer itself, with a load and a store. A command that sets the
timer takes no lock that would keep it out of there. The invariant follows the
round's last read of the timer from stage to stage; all that can go wrong is
that the round writes hours over a zero that the command has written.
-/

namespace Aclean

open Board

/-- One round of the power monitor and one timer command, about to start. -/
def roundAndCommand (dCmdPower n : UInt8) (s : Board) : Config Op Ar Board where
  state := s
  threads := fun t =>
    if t = monitorThread then threadEntryPowerMonitor exchange dCmdPower
    else if t = commandThread then setDeviceWorkMode exchange 0x06 n 0
    else .ret ()

abbrev wrote (n : UInt8) : Label Op Ar Empty :=
  .op commandThread (.store (work Field.timingState) n) ()

abbrev hoursTaken (d : UInt8) : Label Op Ar Empty :=
  .op monitorThread (.store (work Field.timingState) d) ()

/-- The round wrote hours, not zero, after the command had written zero. -/
def Overwritten (tr : List (Label Op Ar Empty)) : Prop :=
  ∃ d, d ≠ 0 ∧ [wrote 0, hoursTaken d].Sublist tr

theorem overwritten_snoc (tr : List (Label Op Ar Empty)) (l : Label Op Ar Empty) :
    Overwritten (tr ++ [l]) ↔ Overwritten tr ∨ ∃ d, d ≠ 0 ∧ l = hoursTaken d ∧ wrote 0 ∈ tr := by
  constructor
  · rintro ⟨d, hd, h⟩
    rcases sublist_pair_snoc.mp h with h | ⟨hl, hmem⟩
    · exact .inl ⟨d, hd, h⟩
    · exact .inr ⟨d, hd, hl, hmem⟩
  · rintro (⟨d, hd, h⟩ | ⟨d, hd, hl, hmem⟩)
    · exact ⟨d, hd, sublist_pair_snoc.mpr (.inl h)⟩
    · exact ⟨d, hd, sublist_pair_snoc.mpr (.inr ⟨hl, hmem⟩)⟩

theorem overwritten_snoc_of_ne {tr : List (Label Op Ar Empty)} {l : Label Op Ar Empty}
    (h : ∀ d, d ≠ 0 → l ≠ hoursTaken d) : Overwritten (tr ++ [l]) ↔ Overwritten tr := by
  rw [overwritten_snoc]
  exact ⟨fun hl => hl.elim id fun ⟨d, hd, hl, _⟩ => absurd hl (h d hd), .inl⟩

/-! ## Later rounds -/

/-- The same timer, whatever else is different, the power flag included. -/
def SameTimer (s s' : Board) : Prop := s'.timer = { s.timer with power := s'.timer.power }

/-- The boards before each later round: in between, no one sets the timer. -/
structure LaterRounds (dCmdPower : UInt8) (s : Board) (B : Nat → Board) : Prop where
  start : SameTimer s (B 0)
  next : ∀ k, ∃ t,
    SameTimer ((threadEntryPowerMonitor exchange dCmdPower).run machine t (B k)).2 (B (k + 1))

def SwitchesOff (dCmdPower : UInt8) (t : Nat) (s : Board) : Prop :=
  s.mem (work Field.devicePowerState) ≠ 0 ∧
    ((threadEntryPowerMonitor exchange dCmdPower).run machine t s).2.mem
      (work Field.devicePowerState) = 0

theorem switchesOff_iff (dCmdPower : UInt8) (t : Nat) (s : Board) :
    SwitchesOff dCmdPower t s ↔ s.timer.power ≠ 0 ∧ s.timer.Fires := by
  have hpass : ((threadEntryPowerMonitor exchange dCmdPower).run machine t s).2.mem
      (work Field.devicePowerState) = s.timer.pass.power :=
    congrArg Timer.power (pass_timer dCmdPower t s)
  refine and_congr_right fun hon => ?_
  rw [hpass, Timer.pass]
  by_cases h : s.timer.Fires
  · rw [if_pos h]
    exact ⟨fun _ => h, fun _ => rfl⟩
  · rw [if_neg h]
    exact ⟨fun h0 => absurd h0 hon, fun hf => absurd hf h⟩

/-- The timer switches the device off in no later round. -/
def NeverOff (dCmdPower : UInt8) (s : Board) : Prop :=
  ∀ B, LaterRounds dCmdPower s B → ∀ k t, ¬ SwitchesOff dCmdPower t (B k)

theorem neverOff_of_zero {dCmdPower : UInt8} {s : Board} (h : s.timer.timing = 0) :
    NeverOff dCmdPower s := by
  intro B hB k t hoff
  have hzero : ∀ k, (B k).timer.timing = 0 := by
    intro k
    induction k with
    | zero => rw [hB.start]; exact h
    | succ k ih =>
        obtain ⟨t', hnext⟩ := hB.next k
        rw [hnext, pass_timer]
        exact (Timer.pass_idle ih).2.2.1
  exact (Timer.pass_idle (hzero k)).1 ((switchesOff_iff ..).mp hoff).2

theorem not_neverOff {dCmdPower : UInt8} {s : Board} (hon : s.timer.power ≠ 0)
    (hpos : 1 ≤ s.timer.timing) (h12 : s.timer.timing ≤ 12) : ¬ NeverOff dCmdPower s := by
  intro hnever
  obtain ⟨k, hfires, hpower⟩ := (rounds_roundsFrom dCmdPower monitorThread s).exists_fires hpos
    (Nat.lt_of_le_of_lt h12 (by decide))
  refine hnever (roundsFrom dCmdPower monitorThread s) ⟨rfl, fun k => ⟨monitorThread, rfl⟩⟩ k
    monitorThread ((switchesOff_iff ..).mpr ⟨?_, hfires⟩)
  rw [hpower]
  exact hon

/-! ## The discipline -/

/-- Where the round is, with what it has read: in its head, which reads the
timer and makes the copy; counting and testing the copy; between the load and
the store of the hour; and in its rest, which clears the timer if the time is
up. The command remembers having found the power on, and having written. -/
inductive TimerRole where
  | head (seen : UInt8)
  | copied (copy : UInt8)
  | counted (copy : UInt8) (cnt : UInt32)
  | hour (old : UInt8)
  | taken
  | rest (up : Bool)
  | command (on stored : Bool)
  | idle

/-- What the round does when the time is up. -/
def Op.ClearsTimer : Op → Prop
  | .store (.deviceWorkData 0) v => v = 0
  | .store (.deviceWorkData 5) v => v = 0
  | .store .powerStatePre _ => True
  | .setPowerTimCnt _ => True
  | _ => False

def timerDiscipline (n : UInt8) : Discipline Op Ar TimerRole where
  ok l o :=
    match l, o with
    | .head _, .load _ => True
    | .head seen, .store .powerStatePre v => v = seen
    | .head _, .setPowerTimCnt _ => True
    | .copied _, .load (.deviceWorkData 5) => True
    | .copied _, .getPowerTimCnt => True
    | .counted _ _, .load _ => True
    | .counted _ _, .getPowerTimCnt => True
    | .counted _ _, .setPowerTimCnt _ => True
    | .hour old, .store (.deviceWorkData 5) v => v = old - 1
    | .taken, .load (.deviceWorkData 5) => True
    | .taken, .getPowerTimCnt => True
    | .rest up, o => o.LeavesTimer ∨ up = true ∧ o.ClearsTimer
    | .command on stored, o =>
        o.LeavesTimer ∨ o = .store (work 5) n ∧ on = true ∧ stored = false
    | _, _ => False
  answers l o a :=
    match l, o, a with
    | .counted copy _, .load .powerStatePre, v => v = copy
    | .counted _ cnt, .getPowerTimCnt, c => c = cnt
    | .taken, .getPowerTimCnt, c => c = 36
    | _, _, _ => True
  next l o a :=
    match l, o, a with
    | .head _, .load (.deviceWorkData 5), v => .head v
    | .head seen, .store _ _, _ => .copied seen
    | .copied _, .load (.deviceWorkData 5), v => .head v
    | .copied copy, .getPowerTimCnt, c => .counted copy c
    | .counted copy _, .setPowerTimCnt c, _ => .counted copy c
    | .counted copy cnt, .load (.deviceWorkData 5), v =>
        if cnt = 36 ∧ copy ≠ 0 then .hour v else .rest true
    | .hour _, .store _ _, _ => .taken
    | .taken, .load (.deviceWorkData 5), v => .rest (v == 0)
    | .command on stored, .load (.deviceWorkData 0), v => .command (on || v != 0) stored
    | .command on _, .store (.deviceWorkData 5) _, _ => .command on true
    | l, _, _ => l

/-! ## The round keeps to it -/

section Walk

variable {n : UInt8}

/-- The end of the head: the copy is made of the last read. -/
theorem countRound_follows {l : TimerRole} (h : (∃ v, l = .head v) ∨ ∃ w, l = .copied w) :
    (timerDiscipline n).Follows countRound (fun _ l => ∃ w c, l = .counted w c) l := by
  have hread : (timerDiscipline n).ok l (.load (work Field.timingState)) ∧
      ∀ tm, (timerDiscipline n).next l (.load (work Field.timingState)) tm = .head tm := by
    rcases h with ⟨v, rfl⟩ | ⟨w, rfl⟩
    · exact ⟨trivial, fun _ => rfl⟩
    · exact ⟨trivial, fun _ => rfl⟩
  refine .op hread.1 fun tm _ => ?_
  rw [hread.2]
  refine .op rfl fun _ _ => .op trivial fun cnt _ => .when (fun _ => ?_) fun _ => ⟨tm, cnt, rfl⟩
  exact .op trivial fun _ _ => .ret ⟨tm, cnt + 1, rfl⟩

theorem powerMonitorCount_follows :
    (timerDiscipline n).Follows powerMonitorCount (fun _ l => ∃ w c, l = .counted w c)
      (.head 0) := by
  have hcopy : ∀ v, (timerDiscipline n).Follows (do
      setPowerTimCnt 0
      let tm ← load (work Field.timingState)
      store .powerStatePre tm) (fun _ l => (∃ v, l = .head v) ∨ ∃ w, l = .copied w) (.head v) := by
    intro v
    exact .op trivial fun _ _ => .op trivial fun tm _ => .op rfl fun _ _ => .ret (.inr ⟨tm, rfl⟩)
  refine .op trivial fun pre _ => ?_
  show (timerDiscipline n).Follows ((if pre = 0xff then _ else _) >>= fun _ => countRound) _ (.head 0)
  refine .bind (.ite (fun _ => ?_) fun _ => ?_) fun _ l hl => countRound_follows hl
  · exact .op trivial fun tm _ => .when (fun _ => hcopy tm) fun _ => .inl ⟨tm, rfl⟩
  · refine .op trivial fun tm _ => .when (fun _ => ?_) fun _ => .inl ⟨tm, rfl⟩
    exact .op trivial fun tm _ => .when (fun _ => hcopy tm) fun _ => .inl ⟨tm, rfl⟩

/-- The hour is taken off, or the round is not at the hour or has no timer. -/
theorem takeHour_follows (w : UInt8) (c : UInt32) :
    (timerDiscipline n).Follows takeHour
      (fun pre l => pre = w ∧ (l = .taken ∨ l = .counted w c ∧ ¬ (c = 36 ∧ w ≠ 0)))
      (.counted w c) := by
  refine .op trivial fun cnt hcnt => .op trivial fun pre hpre => ?_
  obtain rfl : cnt = c := hcnt
  obtain rfl : pre = w := hpre
  have hhour : (timerDiscipline n).Follows (Prog.when (cnt = 36 ∧ pre ≠ 0) do
      let tm ← load (work Field.timingState)
      store (work Field.timingState) (tm - 1))
      (fun _ l => l = .taken ∨ l = .counted pre cnt ∧ ¬ (cnt = 36 ∧ pre ≠ 0)) (.counted pre cnt) := by
    refine .when (fun h => .op trivial fun old _ => ?_) fun h => .inr ⟨rfl, h⟩
    rw [show (timerDiscipline n).next (.counted pre cnt) (.load (work Field.timingState)) old =
      .hour old from if_pos h]
    exact .op rfl fun _ _ => .ret (.inl rfl)
  exact hhour.bind fun _ l hl => .ret ⟨rfl, hl⟩

theorem rest_follows {α : Type} {p : Code α} {up : Bool}
    (h : p.Only fun o => o.LeavesTimer ∨ up = true ∧ o.ClearsTimer) :
    (timerDiscipline n).Follows p (fun _ _ => True) (.rest up) := by
  refine (Discipline.Follows.of_only (J := fun l => l = .rest up) h ?_ rfl).mono fun _ _ _ => trivial
  intro l o hl ho
  subst hl
  exact ⟨ho, fun a _ => rfl⟩

theorem timeUp_clears (dCmdPower : UInt8) :
    (timeUp dCmdPower).Only fun o => o.LeavesTimer ∨ true = true ∧ o.ClearsTimer := by
  have hleaves : ∀ {α : Type} {p : Code α}, p.Only Op.LeavesTimer →
      p.Only fun o => o.LeavesTimer ∨ true = true ∧ o.ClearsTimer := fun h => h.mono fun _ => .inl
  have hclears : ∀ o : Op, o.ClearsTimer → (Prog.op o .ret : Code (Ar o)).Only
      fun o => o.LeavesTimer ∨ true = true ∧ o.ClearsTimer :=
    fun o h => .op (.inr ⟨rfl, h⟩) fun _ => .ret _
  refine .bind (hclears _ rfl) fun _ => .bind (hclears _ rfl) fun _ => .bind (hclears _ trivial) fun _ =>
    .bind (hclears _ trivial) fun _ => .bind (hleaves (setDispboardFunctionMode_timer _ _)) fun _ => ?_
  rw [aircleanPowerOnoff, if_neg (by decide), if_neg (by decide)]
  exact .bind (hleaves (deviceSysParaSave_plain.mono fun _ => Op.Plain.leavesTimer)) fun _ =>
    .bind (hleaves (by simp [acEsdSet, Op.LeavesTimer])) fun _ =>
    .bind (hleaves (by simp [acPhtSet, Op.LeavesTimer])) fun _ =>
    .bind (hleaves (by simp [acAcMotorSet, Op.LeavesTimer])) fun _ => hclears _ rfl

theorem threadEntryPowerMonitor_follows (dCmdPower : UInt8) :
    (timerDiscipline n).Follows (threadEntryPowerMonitor exchange dCmdPower) (fun _ _ => True)
      (.head 0) := by
  have hcontrol : ∀ up, (timerDiscipline n).Follows aircleanWorkAutoHandle (fun _ _ => True)
      (.rest up) := fun up => rest_follows
    (aircleanWorkAutoHandle_drives.mono fun _ h => .inl h.leavesTimer)
  rw [threadEntryPowerMonitor_eq]
  refine .bind powerMonitorCount_follows ?_
  rintro _ l ⟨w, c, rfl⟩
  refine .bind (takeHour_follows w c) ?_
  rintro pre l ⟨rfl, rfl | ⟨rfl, hno⟩⟩
  · -- the hour taken, the count is 36: the time is up if no hour is left
    refine .op trivial fun cnt hcnt => .op trivial fun tm _ => .ite (fun h => ?_) fun _ => hcontrol _
    obtain rfl : cnt = 36 := hcnt
    have hzero : tm = 0 := by
      refine UInt8.toNat_inj.mp ?_
      have h36 : 36 > tm.toNat * 36 := h.1
      show tm.toNat = 0
      omega
    subst hzero
    exact rest_follows (timeUp_clears dCmdPower)
  · refine .op trivial fun cnt _ => .op trivial fun tm _ => ?_
    have hrest : (timerDiscipline n).next (.counted pre c) (.load (work Field.timingState)) tm =
        .rest true := if_neg hno
    show (timerDiscipline n).Follows _ _
      ((timerDiscipline n).next (.counted pre c) (.load (work Field.timingState)) tm)
    rw [hrest]
    exact .ite (fun _ => rest_follows (timeUp_clears dCmdPower)) fun _ => hcontrol true

/-- So does the command. -/
theorem setDeviceWorkMode_hours (hn : n.toNat ≤ 12) :
    (timerDiscipline n).Follows (setDeviceWorkMode exchange 0x06 n 0) (fun _ _ => True)
      (.command false false) := by
  have hplain : ∀ {α : Type} {p : Code α} {stored : Bool}, p.Only Op.Plain →
      (timerDiscipline n).Follows p (fun _ l => l = .command true stored) (.command true stored) := by
    intro α p stored h
    refine .of_only (J := fun l => l = TimerRole.command true stored) h ?_ rfl
    rintro l o rfl ho
    refine ⟨.inl ho.leavesTimer, fun v _ => ?_⟩
    cases o with
    | load a =>
        cases a with
        | deviceWorkData i => cases i <;> rfl
        | _ => rfl
    | store a w =>
        cases a with
        | deviceWorkData i => exact absurd ho id
        | _ => rfl
    | _ => rfl
  have hle : n ≤ 0x0c := UInt8.le_iff_toNat_le.mpr hn
  have hswitch : commandSwitch 0x06 n = store (work Field.timingState) n >>= fun _ => pure true := by
    simp [commandSwitch, hle]
  have happly : (timerDiscipline n).Follows (applyCommand exchange 0x06 n 0) (fun _ _ => True)
      (.command true false) := by
    refine .bind (hplain backupWorkData_plain) ?_
    rintro _ l rfl
    rw [hswitch]
    refine .op (.inr ⟨rfl, rfl, rfl⟩) fun _ _ => ?_
    exact (hplain saveIfChanged_plain).mono fun _ _ _ => trivial
  refine .op (.inl trivial) fun _ _ => .op (.inl trivial) fun mode _ => .ite (fun _ => .ret trivial)
    fun _ => .op (.inl trivial) fun power _ => .ite (fun _ => .ret trivial) fun hon => ?_
  have hrole : (timerDiscipline n).next (.command false false)
      (.load (work Field.devicePowerState)) power = .command true false := by
    show TimerRole.command (false || power != 0) false = .command true false
    simp [hon]
  show (timerDiscipline n).Follows _ _ ((timerDiscipline n).next (.command false false)
    (.load (work Field.devicePowerState)) power)
  rw [hrole]
  exact happly

end Walk

/-! ## What a run keeps -/

/-- The command has written a zero. -/
def Cancels (n : UInt8) (stored : Bool) : Prop := n = 0 ∧ stored = true

/-- No hours beyond the limit, and none after a cancel. -/
structure Sound (n : UInt8) (stored : Bool) (lost : Prop) (v : Timer) : Prop where
  kept : ¬ lost
  range : v.timing ≤ 12
  zero : Cancels n stored → v.timing = 0

/-- The cancel is lost, and the device is on. -/
structure Lost (n : UInt8) (stored : Bool) (lost : Prop) (v : Timer) : Prop where
  lost : lost
  cancels : Cancels n stored
  hours : v.timing ≠ 0
  power : v.power ≠ 0

/-- Hours once read are there, but for a cancel. -/
def Holds (n : UInt8) (stored : Bool) (v : Timer) (seen : UInt8) : Prop :=
  seen ≠ 0 → v.timing ≠ 0 ∨ Cancels n stored

/-- Before it clears the timer the round leaves the power alone. -/
def Untouched (on : Bool) (v : Timer) : Prop := on = true → v.power ≠ 0

/-- The timer as each stage of the round has it. -/
def TimerRole.Fits (n : UInt8) (on stored : Bool) (lost : Prop) (v : Timer) : TimerRole → Prop
  | .head seen => Sound n stored lost v ∧ Untouched on v ∧ Holds n stored v seen
  | .copied copy =>
      Sound n stored lost v ∧ Untouched on v ∧ Holds n stored v copy ∧ v.pre = copy.toNat
  | .counted copy cnt => Sound n stored lost v ∧ Untouched on v ∧ Holds n stored v copy ∧
      v.pre = copy.toNat ∧ v.cnt = cnt.toNat
  | .hour old => Sound n stored lost v ∧ Untouched on v ∧ v.cnt = 36 ∧ old.toNat ≤ 12 ∧
      (old ≠ 0 ∨ Cancels n stored)
  | .taken => v.cnt = 36 ∧
      (Sound n stored lost v ∧ Untouched on v ∨ Lost n stored lost v)
  | .rest up => Sound n stored lost v ∨ up = false ∧ Lost n stored lost v
  | _ => False

/-- At every stage. -/
theorem TimerRole.Fits.sound_or_lost {n : UInt8} {on stored : Bool} {lost : Prop} {v : Timer}
    {l : TimerRole} (h : l.Fits n on stored lost v) : Sound n stored lost v ∨ Lost n stored lost v := by
  cases l with
  | head seen => exact .inl h.1
  | copied copy => exact .inl h.1
  | counted copy cnt => exact .inl h.1
  | hour old => exact .inl h.1
  | taken => exact h.2.imp_left And.left
  | rest up => exact h.imp_right And.right
  | command on stored => exact absurd h id
  | idle => exact absurd h id

/-- The command's write. -/
theorem TimerRole.Fits.written {n : UInt8} {lost : Prop} {v : Timer} {l : TimerRole}
    (h : l.Fits n true false lost v) (hn : n.toNat ≤ 12) :
    l.Fits n true true lost { v with timing := n.toNat } := by
  have hsound : ∀ {lost v}, Sound n false lost v → Sound n true lost { v with timing := n.toNat } := by
    intro lost v hs
    refine ⟨hs.kept, hn, ?_⟩
    rintro ⟨rfl, -⟩
    rfl
  have hlost : ¬ Lost n false lost v := fun hl => absurd hl.cancels.2 Bool.false_ne_true
  have hholds : ∀ seen, Holds n true { v with timing := n.toNat } seen := by
    intro seen _
    by_cases h0 : n = 0
    · exact .inr ⟨h0, rfl⟩
    · exact .inl fun hz => h0 (UInt8.toNat_inj.mp hz)
  cases l with
  | head seen => exact ⟨hsound h.1, h.2.1, hholds seen⟩
  | copied copy => exact ⟨hsound h.1, h.2.1, hholds copy, h.2.2.2⟩
  | counted copy cnt => exact ⟨hsound h.1, h.2.1, hholds copy, h.2.2.2⟩
  | hour old =>
      obtain ⟨hs, hon, hcnt, hold, hne⟩ := h
      refine ⟨hsound hs, hon, hcnt, hold, hne.imp_right fun hc => ?_⟩
      exact absurd hc.2 Bool.false_ne_true
  | taken => exact ⟨h.1, (h.2.resolve_right hlost).imp_left hsound |> .inl⟩
  | rest up => exact .inl (hsound (h.resolve_right fun hl => hlost hl.2))
  | command on stored => exact absurd h id
  | idle => exact absurd h id

/-- The command finds the power on. -/
theorem TimerRole.Fits.found {n : UInt8} {on stored : Bool} {lost : Prop} {v : Timer}
    {l : TimerRole} (h : l.Fits n on stored lost v) : l.Fits n (on || v.power != 0) stored lost v := by
  have huntouched : Untouched on v → Untouched (on || v.power != 0) v := by
    intro hu hor
    rcases Bool.or_eq_true .. |>.mp hor with hon | hne
    · exact hu hon
    · exact bne_iff_ne.mp hne
  cases l with
  | head seen => exact ⟨h.1, huntouched h.2.1, h.2.2⟩
  | copied copy => exact ⟨h.1, huntouched h.2.1, h.2.2⟩
  | counted copy cnt => exact ⟨h.1, huntouched h.2.1, h.2.2⟩
  | hour old => exact ⟨h.1, huntouched h.2.1, h.2.2⟩
  | taken => exact ⟨h.1, h.2.imp_left fun hs => ⟨hs.1, huntouched hs.2⟩⟩
  | rest up => exact h
  | command on stored => exact absurd h id
  | idle => exact absurd h id

theorem timer_store_hours (s : Board) (v : UInt8) :
    (s.set (work Field.timingState) v).timer = { s.timer with timing := v.toNat } := by
  simp [Board.timer]

theorem timer_store_copy (s : Board) (v : UInt8) :
    (s.set .powerStatePre v).timer = { s.timer with pre := v.toNat } := by
  simp [Board.timer]

theorem timer_store_power (s : Board) (v : UInt8) :
    (s.set (work Field.devicePowerState) v).timer = { s.timer with power := v } := by
  simp [Board.timer]

/-- The hour that the round has read and now writes back less one. -/
theorem TimerRole.Fits.take {n old : UInt8} {on stored : Bool} {tr : List (Label Op Ar Empty)}
    {v : Timer} (h : (TimerRole.hour old).Fits n on stored (Overwritten tr) v)
    (hcancels : wrote 0 ∈ tr ↔ Cancels n stored) (hon : stored = true → on = true) :
    TimerRole.taken.Fits n on stored (Overwritten (tr ++ [hoursTaken (old - 1)]))
      { v with timing := (old - 1).toNat } := by
  obtain ⟨hs, huntouched, hcnt, hold, hne⟩ := h
  refine ⟨hcnt, ?_⟩
  by_cases hc : Cancels n stored
  · by_cases hzero : old - 1 = 0
    · refine .inl ⟨⟨?_, ?_, ?_⟩, huntouched⟩
      · rw [overwritten_snoc_of_ne (by
          rintro d hd ⟨⟩
          exact hd hzero)]
        exact hs.kept
      · rw [hzero]
        exact Nat.zero_le _
      · rw [hzero]
        exact fun _ => rfl
    · refine .inr ⟨?_, hc, ?_, huntouched (hon hc.2)⟩
      · exact (overwritten_snoc ..).mpr (.inr ⟨_, hzero, rfl, hcancels.mpr hc⟩)
      · exact fun h0 => hzero (UInt8.toNat_inj.mp h0)
  · have hold0 : old.toNat ≠ 0 := fun h0 => (hne.resolve_right hc) (UInt8.toNat_inj.mp h0)
    have hsub : (old - 1).toNat = old.toNat - 1 := by
      have hlt := old.toNat_lt
      rw [UInt8.toNat_sub]
      show (256 - 1 + _) % 256 = _
      omega
    refine .inl ⟨⟨?_, ?_, fun h => absurd h hc⟩, huntouched⟩
    · rw [overwritten_snoc]
      rintro (hl | ⟨d, -, -, hmem⟩)
      · exact hs.kept hl
      · exact hc (hcancels.mp hmem)
    · show (old - 1).toNat ≤ 12
      omega

/-- Only the timer's own byte matters to where the round is. -/
theorem next_load {n : UInt8} {l : TimerRole} {a : Addr} (ha : a ≠ work Field.timingState)
    (hl : ∀ on stored, l ≠ .command on stored) (v : UInt8) :
    (timerDiscipline n).next l (.load a) v = l := by
  cases l with
  | command on stored => exact absurd rfl (hl on stored)
  | hour old => rfl
  | rest up => rfl
  | idle => rfl
  | _ =>
      cases a with
      | deviceWorkData i =>
          match i with
          | 0 | 1 | 2 | 3 | 4 => rfl
          | 5 => exact absurd rfl ha
          | i + 6 => rfl
      | _ => rfl

/-- One operation of the round at stage `l`: the machine answers as the round
counts on, and the next stage fits. -/
def StepFits (n : UInt8) (on stored : Bool) (tr : List (Label Op Ar Empty)) (s : Board)
    (l : TimerRole) (o : Op) : Prop :=
  (timerDiscipline n).answers l o (Board.exec monitorThread o s).1 ∧
    ((timerDiscipline n).next l o (Board.exec monitorThread o s).1).Fits n on stored
      (Overwritten (tr ++ [.op monitorThread o (Board.exec monitorThread o s).1]))
      (Board.exec monitorThread o s).2.timer

section Step

variable {n : UInt8} {on stored : Bool} {tr : List (Label Op Ar Empty)} {s : Board} {o : Op}

theorem overwritten_step (h : ∀ v, o ≠ .store (work Field.timingState) v) (a : Ar o) :
    Overwritten (tr ++ [.op monitorThread o a]) = Overwritten tr := by
  refine propext (overwritten_snoc_of_ne ?_)
  rintro d - ⟨⟩
  exact h d rfl

theorem Sound.of_timing {lost : Prop} {v v' : Timer} (h : Sound n stored lost v)
    (hv : v'.timing = v.timing) : Sound n stored lost v' :=
  ⟨h.kept, by rw [hv]; exact h.range, fun hc => hv.trans (h.zero hc)⟩

theorem holds_read : Holds n stored s.timer (s.mem (work Field.timingState)) :=
  fun hne => .inl fun h0 => hne (UInt8.toNat_inj.mp h0)

theorem step_head {seen : UInt8} (h : (TimerRole.head seen).Fits n on stored (Overwritten tr) s.timer)
    (hok : (timerDiscipline n).ok (.head seen) o) : StepFits n on stored tr s (.head seen) o := by
  obtain ⟨hs, hu, hholds⟩ := h
  refine ⟨by cases o <;> trivial, ?_⟩
  cases o with
  | load a =>
      rw [overwritten_step (by rintro v ⟨⟩)]
      by_cases ha : a = work Field.timingState
      · subst ha
        exact ⟨hs, hu, holds_read⟩
      · rw [next_load ha (by rintro _ _ ⟨⟩)]
        exact ⟨hs, hu, hholds⟩
  | store a v =>
      cases a with
      | powerStatePre =>
          obtain rfl : v = seen := hok
          rw [overwritten_step (by rintro v ⟨⟩)]
          show (TimerRole.copied v).Fits n on stored _ (s.set .powerStatePre v).timer
          rw [timer_store_copy]
          exact ⟨hs.of_timing rfl, hu, hholds, rfl⟩
      | _ => exact absurd hok id
  | setPowerTimCnt c =>
      rw [overwritten_step (by rintro v ⟨⟩)]
      exact ⟨hs.of_timing rfl, hu, hholds⟩
  | _ => exact absurd hok id

theorem step_copied {copy : UInt8}
    (h : (TimerRole.copied copy).Fits n on stored (Overwritten tr) s.timer)
    (hok : (timerDiscipline n).ok (.copied copy) o) : StepFits n on stored tr s (.copied copy) o := by
  obtain ⟨hs, hu, hholds, hpre⟩ := h
  refine ⟨by cases o <;> trivial, ?_⟩
  cases o with
  | load a =>
      have ha : a = work Field.timingState := by
        cases a with
        | deviceWorkData i =>
            match i with
            | 0 | 1 | 2 | 3 | 4 => exact absurd hok id
            | 5 => rfl
            | i + 6 => exact absurd hok id
        | _ => exact absurd hok id
      subst ha
      rw [overwritten_step (by rintro v ⟨⟩)]
      exact ⟨hs, hu, holds_read⟩
  | getPowerTimCnt =>
      rw [overwritten_step (by rintro v ⟨⟩)]
      exact ⟨hs, hu, hholds, hpre, rfl⟩
  | store a v => cases a <;> exact absurd hok id
  | _ => exact absurd hok id

theorem step_counted {copy : UInt8} {cnt : UInt32}
    (h : (TimerRole.counted copy cnt).Fits n on stored (Overwritten tr) s.timer)
    (hok : (timerDiscipline n).ok (.counted copy cnt) o) :
    StepFits n on stored tr s (.counted copy cnt) o := by
  obtain ⟨hs, hu, hholds, hpre, hcnt⟩ := h
  cases o with
  | load a =>
      by_cases ha : a = work Field.timingState
      · subst ha
        refine ⟨trivial, ?_⟩
        rw [overwritten_step (by rintro v ⟨⟩)]
        by_cases hhour : cnt = 36 ∧ copy ≠ 0
        · have hnext : (timerDiscipline n).next (.counted copy cnt) (.load (work Field.timingState))
              (s.mem (work Field.timingState)) = .hour (s.mem (work Field.timingState)) := if_pos hhour
          show ((timerDiscipline n).next (.counted copy cnt) (.load (work Field.timingState))
            (s.mem (work Field.timingState))).Fits n on stored _ s.timer
          rw [hnext]
          refine ⟨hs, hu, ?_, hs.range, ?_⟩
          · rw [hcnt, hhour.1]
            rfl
          · refine (hholds hhour.2).imp_left fun hne h0 => hne ?_
            exact congrArg UInt8.toNat h0
        · have hnext : (timerDiscipline n).next (.counted copy cnt) (.load (work Field.timingState))
              (s.mem (work Field.timingState)) = .rest true := if_neg hhour
          show ((timerDiscipline n).next (.counted copy cnt) (.load (work Field.timingState))
            (s.mem (work Field.timingState))).Fits n on stored _ s.timer
          rw [hnext]
          exact .inl hs
      · refine ⟨?_, ?_⟩
        · cases a with
          | powerStatePre => exact UInt8.toNat_inj.mp hpre
          | _ => trivial
        · rw [overwritten_step (by rintro v ⟨⟩), next_load ha (by rintro _ _ ⟨⟩)]
          exact ⟨hs, hu, hholds, hpre, hcnt⟩
  | getPowerTimCnt =>
      refine ⟨UInt32.toNat_inj.mp hcnt, ?_⟩
      rw [overwritten_step (by rintro v ⟨⟩)]
      exact ⟨hs, hu, hholds, hpre, hcnt⟩
  | setPowerTimCnt c =>
      refine ⟨trivial, ?_⟩
      rw [overwritten_step (by rintro v ⟨⟩)]
      exact ⟨hs.of_timing rfl, hu, hholds, hpre, rfl⟩
  | store a v => cases a <;> exact absurd hok id
  | _ => exact absurd hok id

theorem step_taken (h : TimerRole.taken.Fits n on stored (Overwritten tr) s.timer)
    (hok : (timerDiscipline n).ok .taken o) : StepFits n on stored tr s .taken o := by
  obtain ⟨hcnt, hcase⟩ := h
  cases o with
  | load a =>
      have ha : a = work Field.timingState := by
        cases a with
        | deviceWorkData i =>
            match i with
            | 0 | 1 | 2 | 3 | 4 => exact absurd hok id
            | 5 => rfl
            | i + 6 => exact absurd hok id
        | _ => exact absurd hok id
      subst ha
      refine ⟨trivial, ?_⟩
      rw [overwritten_step (by rintro v ⟨⟩)]
      rcases hcase with ⟨hs, -⟩ | hl
      · exact .inl hs
      · refine .inr ⟨beq_eq_false_iff_ne.mpr fun h0 => hl.hours ?_, hl⟩
        exact congrArg UInt8.toNat h0
  | getPowerTimCnt =>
      refine ⟨UInt32.toNat_inj.mp hcnt, ?_⟩
      rw [overwritten_step (by rintro v ⟨⟩)]
      exact ⟨hcnt, hcase⟩
  | store a v => cases a <;> exact absurd hok id
  | _ => exact absurd hok id

theorem step_rest {up : Bool} (h : (TimerRole.rest up).Fits n on stored (Overwritten tr) s.timer)
    (hok : (timerDiscipline n).ok (.rest up) o) : StepFits n on stored tr s (.rest up) o := by
  refine ⟨trivial, ?_⟩
  rcases hok with hleaves | ⟨rfl, hclears⟩
  · rw [overwritten_step (by rintro v rfl; exact hleaves), exec_timer hleaves]
    exact h
  · have hs : Sound n stored (Overwritten tr) s.timer := h.resolve_right (by rintro ⟨⟨⟩, -⟩)
    cases o with
    | store a v =>
        cases a with
        | powerStatePre =>
            rw [overwritten_step (by rintro v ⟨⟩)]
            refine .inl (hs.of_timing ?_)
            show (s.set .powerStatePre v).timer.timing = _
            rw [timer_store_copy]
        | deviceWorkData i =>
            match i with
            | 0 =>
                rw [overwritten_step (by rintro v ⟨⟩)]
                refine .inl (hs.of_timing ?_)
                show (s.set (work 0) v).timer.timing = _
                rw [timer_store_power]
            | 5 =>
                obtain rfl : v = 0 := hclears
                have hzero : (s.set (work 5) 0).timer.timing = 0 :=
                  congrArg Timer.timing (timer_store_hours s 0)
                rw [overwritten_snoc_of_ne (by rintro d hd ⟨⟩; exact hd rfl)]
                exact .inl ⟨hs.kept, Nat.le_trans (Nat.le_of_eq hzero) (by decide), fun _ => hzero⟩
            | 1 | 2 | 3 | 4 => exact absurd hclears id
            | i + 6 => exact absurd hclears id
        | _ => exact absurd hclears id
    | setPowerTimCnt c =>
        rw [overwritten_step (by rintro v ⟨⟩)]
        exact .inl (hs.of_timing rfl)
    | _ => exact absurd hclears id

theorem step_fits {l : TimerRole} (h : l.Fits n on stored (Overwritten tr) s.timer)
    (hcancels : wrote 0 ∈ tr ↔ Cancels n stored) (hon : stored = true → on = true)
    (hok : (timerDiscipline n).ok l o) : StepFits n on stored tr s l o := by
  cases l with
  | head seen => exact step_head h hok
  | copied copy => exact step_copied h hok
  | counted copy cnt => exact step_counted h hok
  | hour old =>
      refine ⟨by cases o <;> trivial, ?_⟩
      cases o with
      | store a v =>
          cases a with
          | deviceWorkData i =>
              match i with
              | 5 =>
                  obtain rfl : v = old - 1 := hok
                  show TimerRole.taken.Fits n on stored _ (s.set (work 5) (old - 1)).timer
                  rw [timer_store_hours]
                  exact h.take hcancels hon
              | 0 | 1 | 2 | 3 | 4 => exact absurd hok id
              | i + 6 => exact absurd hok id
          | _ => exact absurd hok id
      | load a => cases a <;> exact absurd hok id
      | _ => exact absurd hok id
  | taken => exact step_taken h hok
  | rest up => exact step_rest h hok
  | command on stored => exact absurd h id
  | idle => exact absurd h id

end Step

/-- The invariant of the two threads. -/
structure TimerInv (n : UInt8) (roles : Nat → TimerRole) (tr : List (Label Op Ar Empty))
    (s : Board) : Prop where
  idle : ∀ t, t ≠ monitorThread → t ≠ commandThread → roles t = .idle
  both : ∃ on stored, roles commandThread = .command on stored ∧
    (wrote 0 ∈ tr ↔ Cancels n stored) ∧ (stored = true → on = true) ∧
    (roles monitorThread).Fits n on stored (Overwritten tr) s.timer

theorem wrote_mem_snoc_of_ne {tr : List (Label Op Ar Empty)} {l : Label Op Ar Empty}
    (h : l ≠ wrote 0) : wrote 0 ∈ tr ++ [l] ↔ wrote 0 ∈ tr := by
  rw [List.mem_append, List.mem_singleton]
  exact ⟨fun hl => hl.elim id fun hl => absurd hl.symm h, .inl⟩

theorem timerInv_monitor {n : UInt8} {roles : Nat → TimerRole} {tr : List (Label Op Ar Empty)}
    {s : Board} (h : TimerInv n roles tr s) {o : Op}
    (hok : (timerDiscipline n).ok (roles monitorThread) o) :
    (timerDiscipline n).answers (roles monitorThread) o (Board.exec monitorThread o s).1 ∧
      TimerInv n (Function.update roles monitorThread
          ((timerDiscipline n).next (roles monitorThread) o (Board.exec monitorThread o s).1))
        (tr ++ [.op monitorThread o (Board.exec monitorThread o s).1])
        (Board.exec monitorThread o s).2 := by
  obtain ⟨on, stored, hcommand, hcancels, hon, hfits⟩ := h.both
  obtain ⟨hans, hfits'⟩ := step_fits hfits hcancels hon hok
  refine ⟨hans, ?_, on, stored, ?_, ?_, hon, ?_⟩
  · intro t hm hc
    rw [Function.update_of_ne hm]
    exact h.idle t hm hc
  · rw [Function.update_of_ne (by decide)]
    exact hcommand
  · rw [wrote_mem_snoc_of_ne (by rintro ⟨⟩)]
    exact hcancels
  · rw [Function.update_self]
    exact hfits'

/-- The command thread reads the power flag, or nothing of the timer. -/
theorem command_next (n : UInt8) {s : Board} {on stored : Bool} {o : Op} (h : o.LeavesTimer) :
    (timerDiscipline n).next (.command on stored) o (Board.exec commandThread o s).1 =
        .command on stored ∨
      (timerDiscipline n).next (.command on stored) o (Board.exec commandThread o s).1 =
        .command (on || s.timer.power != 0) stored := by
  cases o with
  | load a =>
      cases a with
      | deviceWorkData i =>
          cases i with
          | zero => exact .inr rfl
          | succ i => exact .inl rfl
      | _ => exact .inl rfl
  | store a v =>
      cases a with
      | deviceWorkData i =>
          match i, h with
          | 0, _ | 1, _ | 2, _ | 3, _ | 4, _ => exact .inl rfl
          | 5, h => exact absurd h id
          | i + 6, _ => exact .inl rfl
      | _ => exact .inl rfl
  | _ => exact .inl rfl

theorem timerInv_command {n : UInt8} (hn : n.toNat ≤ 12) {roles : Nat → TimerRole}
    {tr : List (Label Op Ar Empty)} {s : Board} (h : TimerInv n roles tr s) {o : Op}
    (hok : (timerDiscipline n).ok (roles commandThread) o) :
    TimerInv n (Function.update roles commandThread
        ((timerDiscipline n).next (roles commandThread) o (Board.exec commandThread o s).1))
      (tr ++ [.op commandThread o (Board.exec commandThread o s).1])
      (Board.exec commandThread o s).2 := by
  obtain ⟨on, stored, hcommand, hcancels, hon, hfits⟩ := h.both
  have hmonitor : ∀ l, Function.update roles commandThread l monitorThread = roles monitorThread :=
    fun l => Function.update_of_ne (by decide) ..
  have hhist : ∀ a : Ar o, Overwritten (tr ++ [.op commandThread o a]) = Overwritten tr :=
    fun a => propext (overwritten_snoc_of_ne (by rintro d - ⟨⟩))
  refine ⟨?_, ?_⟩
  · intro t hm hc
    rw [Function.update_of_ne hc]
    exact h.idle t hm hc
  rw [hcommand] at hok ⊢
  simp only [hmonitor, Function.update_self, hhist]
  rcases hok with hleaves | ⟨rfl, rfl, rfl⟩
  · have hlabel : ∀ a : Ar o, (.op commandThread o a : Label Op Ar Empty) ≠ wrote 0 := by
      rintro a ⟨⟩
      exact hleaves
    rw [wrote_mem_snoc_of_ne (hlabel _), exec_timer hleaves]
    rcases command_next n hleaves (s := s) with hkeep | hkeep
    · exact ⟨on, stored, hkeep, hcancels, hon, hfits⟩
    · refine ⟨_, stored, hkeep, hcancels, fun hst => ?_, hfits.found⟩
      rw [hon hst, Bool.true_or]
  · refine ⟨true, true, rfl, ?_, fun _ => rfl, ?_⟩
    · rw [List.mem_append, List.mem_singleton, hcancels]
      constructor
      · rintro (⟨-, ⟨⟩⟩ | heq)
        have hzero : 0 = n := by simpa using heq
        exact ⟨hzero.symm, rfl⟩
      · rintro ⟨rfl, -⟩
        exact .inr rfl
    · show (roles monitorThread).Fits n true true _ (s.set (work Field.timingState) n).timer
      rw [timer_store_hours]
      exact hfits.written hn

def timerRoles (t : Nat) : TimerRole :=
  if t = monitorThread then .head 0
  else if t = commandThread then .command false false
  else .idle

/-! ## The result -/

theorem roundAndCommand_follows (dCmdPower : UInt8) {n : UInt8} (hn : n.toNat ≤ 12) (s : Board)
    (t : Nat) : (timerDiscipline n).Follows ((roundAndCommand dCmdPower n s).threads t)
      (fun _ _ => True) (timerRoles t) := by
  by_cases hm : t = monitorThread
  · subst hm
    exact threadEntryPowerMonitor_follows dCmdPower
  · by_cases hc : t = commandThread
    · subst hc
      exact setDeviceWorkMode_hours hn
    · simp only [roundAndCommand, if_neg hm, if_neg hc]
      exact .ret trivial

theorem timerInv_start (n : UInt8) {s : Board} (hs : s.timer.timing ≤ 12) :
    TimerInv n timerRoles [] s := by
  refine ⟨fun t hm hc => ?_, false, false, rfl, ⟨nofun, nofun⟩, nofun, ⟨?_, hs, nofun⟩, nofun, ?_⟩
  · rw [timerRoles, if_neg hm, if_neg hc]
  · rintro ⟨d, -, h⟩
    cases h
  · exact fun h => absurd rfl h

/-- A step of either thread. -/
theorem timerInv_step {n : UInt8} (hn : n.toNat ≤ 12) {tr : List (Label Op Ar Empty)} {s : Board}
    {t : Nat} {o : Op} (h : TimerInv n ((timerDiscipline n).locals timerRoles tr) tr s)
    (hok : (timerDiscipline n).ok ((timerDiscipline n).locals timerRoles tr t) o) :
    (timerDiscipline n).answers ((timerDiscipline n).locals timerRoles tr t) o
        (Board.exec t o s).1 ∧
      TimerInv n ((timerDiscipline n).locals timerRoles (tr ++ [.op t o (Board.exec t o s).1]))
        (tr ++ [.op t o (Board.exec t o s).1]) (Board.exec t o s).2 := by
  rw [Discipline.locals_snoc_op]
  by_cases hm : t = monitorThread
  · subst hm
    exact timerInv_monitor h hok
  · by_cases hc : t = commandThread
    · subst hc
      refine ⟨?_, timerInv_command hn h hok⟩
      obtain ⟨on, stored, hcommand, -⟩ := h.both
      rw [hcommand]
      cases o <;> trivial
    · rw [h.idle t hm hc] at hok
      exact absurd hok (by cases o <;> exact id)

/-- **When a timer command beside a running round is safe.** A round and a
command that sets the timer to `n` leave it in range, and after a cancel no
later round switches the device off, if and only if the round did not write
hours over the command's zero. -/
theorem timer_command_safe_iff (dCmdPower : UInt8) {n : UInt8} (hn : n.toNat ≤ 12) {s : Board}
    (hs : s.timer.timing ≤ 12) {tr : List (Label Op Ar Empty)} {c : Config Op Ar Board}
    (hrun : Run Board.system anyStep (roundAndCommand dCmdPower n s) tr c) :
    (c.state.timer.timing ≤ 12 ∧ (n = 0 → wrote n ∈ tr → NeverOff dCmdPower c.state)) ↔
      ¬ Overwritten tr := by
  obtain ⟨hinv, -⟩ := hrun.keeps (timerDiscipline n)
    (I := fun tr s => TimerInv n ((timerDiscipline n).locals timerRoles tr) tr s)
    (Q := fun _ _ => True) (roundAndCommand_follows dCmdPower hn s) (timerInv_start n hs)
    (fun _ _ _ _ hinv _ _ hok => timerInv_step hn hinv hok) (fun _ _ e => nomatch e)
  obtain ⟨on, stored, -, hcancels, -, hfits⟩ := hinv.both
  rcases hfits.sound_or_lost with hsound | hlost
  · refine ⟨fun _ => hsound.kept, fun _ => ⟨hsound.range, ?_⟩⟩
    rintro rfl hwrote
    exact neverOff_of_zero (hsound.zero (hcancels.mp hwrote))
  · refine ⟨fun hsafe _ => ?_, fun hno => absurd hlost.lost hno⟩
    obtain ⟨hzero, hst⟩ := hlost.cancels
    have hwrote := hcancels.mpr hlost.cancels
    refine not_neverOff hlost.power (Nat.pos_of_ne_zero hlost.hours) hsafe.1 (hsafe.2 hzero ?_)
    rw [hzero]
    exact hwrote

/-- On, in manual mode, one round before the hour of a timer of `n` hours. -/
def Board.beforeHour (n : UInt8) : Board :=
  { (Board.armed n).set .powerStatePre n with powerTimCnt := 35 }

theorem timer_command_safe_iff_run : ∃ tr c,
    Run Board.system anyStep (roundAndCommand 1 3 (Board.beforeHour 2)) tr c ∧
      c.threads monitorThread = .ret () ∧ c.threads commandThread = .ret () ∧
      ((c.state.timer.timing ≤ 12 ∧
        ((3 : UInt8) = 0 → wrote 3 ∈ tr → NeverOff 1 c.state)) ↔ ¬ Overwritten tr) := by
  obtain ⟨tr, c, hrun, hdone⟩ := exists_run_of_endsWith Board.system (fun _ _ _ => true)
    (List.replicate 80 (.thread commandThread) ++ List.replicate 61 (.thread monitorThread))
    (roundAndCommand 1 3 (Board.beforeHour 2))
    (fun _ c => (c.threads monitorThread).finished && (c.threads commandThread).finished)
    (by decide +kernel)
  rw [Bool.and_eq_true] at hdone
  exact ⟨tr, c, hrun.any, Prog.eq_ret_of_finished hdone.1, Prog.eq_ret_of_finished hdone.2,
    timer_command_safe_iff 1 (by decide) (by decide) hrun.any⟩

/-- One round before the first of two hours is over, the round has tested its
copy when the command cancels the timer; then it takes the hour off zero. -/
theorem cancel_wraps : MonitorReachable 1 (Board.beforeHour 2) ∧
    ∃ tr c, Run Board.system anyStep (roundAndCommand 1 0 (Board.beforeHour 2)) tr c ∧
      c.threads monitorThread = .ret () ∧ c.threads commandThread = .ret () ∧
      c.state.timer.timing = 255 := by
  constructor
  · have htimer := roundsFrom_timer 1 0 (Board.armed 2) 35
    rw [show (Board.armed 2).timer = ⟨1, 2, 255, 0⟩ by decide,
      show Nat.iterate Timer.pass 35 ⟨1, 2, 255, 0⟩ = ⟨1, 2, 2, 35⟩ by decide +kernel] at htimer
    have hreach : MonitorReachable 1 (roundsFrom 1 0 (Board.armed 2) 35) :=
      monitorReachable_roundsFrom 0 (.boot (by decide) (by decide)) 35
    generalize roundsFrom 1 0 (Board.armed 2) 35 = s at htimer hreach
    refine .others hreach ?_ ?_
    · exact UInt8.toNat_inj.mp (congrArg Timer.pre htimer).symm
    · exact UInt32.toNat_inj.mp (congrArg Timer.cnt htimer).symm
  · obtain ⟨tr, c, hrun, hdone⟩ := exists_run_of_endsWith Board.system (fun _ _ _ => true)
      (List.replicate 9 (.thread monitorThread) ++ List.replicate 80 (.thread commandThread) ++
        List.replicate 51 (.thread monitorThread))
      (roundAndCommand 1 0 (Board.beforeHour 2))
      (fun _ c => ((c.threads monitorThread).finished && (c.threads commandThread).finished) &&
        decide (c.state.timer.timing = 255))
      (by decide +kernel)
    rw [Bool.and_eq_true, Bool.and_eq_true] at hdone
    exact ⟨tr, c, hrun.any, Prog.eq_ret_of_finished hdone.1.1, Prog.eq_ret_of_finished hdone.1.2,
      of_decide_eq_true hdone.2⟩

end Aclean
