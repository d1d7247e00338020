import Aclean.Footprint

/-!
# A power-off against a running control pass

The control pass tests the power flag once and then drives up to five
outputs; the power-off clears flag and outputs and takes no lock that the
pass holds. So all depends on the order: an output stays on exactly if the
pass switches it on after the power-off has switched it off. That is stated
for every interleaving of the two.
-/

namespace Aclean

open Prog

/-! ## The two threads -/

/-- The power monitor with its control pass, and the thread (WiFi or display)
that runs the power-off. -/
abbrev monitorThread : Nat := 2
abbrev commandThread : Nat := 3

/-- The ways to switch the device off; the display's call is made while
`get_display_board_data` holds the Modbus mutex. -/
inductive PowerOff where
  | onoff
  | command (signalCh : UInt8)
  | polled
  deriving DecidableEq, Repr

def PowerOff.code : PowerOff → Code Unit
  | .onoff => aircleanPowerOnoff 0
  | .command signalCh => setDeviceWorkMode exchange 0x02 0 signalCh
  | .polled => do
      mutexTake .modbus
      setDeviceWorkMode exchange 0x02 0 0
      mutexRelease .modbus

/-- One control pass and one power-off, about to start. -/
def passAndOff (s : Board) (off : PowerOff) : Config Op Ar Board where
  state := s
  threads := fun t =>
    if t = monitorThread then aircleanWorkAutoHandle
    else if t = commandThread then off.code
    else .ret ()

/-! ## Late switching -/

abbrev switchOn (p : Pin) : Label Op Ar Empty := .op monitorThread (.gpioWrite p true) ()

abbrev switchOff (p : Pin) : Label Op Ar Empty := .op commandThread (.gpioWrite p false) ()

/-- The pass switched `p` on after the power-off had switched it off. -/
def Late (p : Pin) (tr : List (Label Op Ar Empty)) : Prop := [switchOff p, switchOn p].Sublist tr

theorem late_snoc (p : Pin) (tr : List (Label Op Ar Empty)) (l : Label Op Ar Empty) :
    Late p (tr ++ [l]) ↔ Late p tr ∨ (l = switchOn p ∧ switchOff p ∈ tr) :=
  sublist_pair_snoc

/-! ## The discipline -/

/-- What the pass has switched on and stored as the wind speed; what the
power-off has switched off, and whether it has cleared the flag. -/
inductive PowerRole where
  | pass (on : Pin → Bool) (wind : Option UInt8)
  | off (done : Pin → Bool) (cleared : Bool)
  | idle

/-- What of it an operation touches. -/
inductive Touch where
  | output (p : Pin) (on : Bool)
  | flag (v : UInt8)
  | wind (v : UInt8)
  | nothing

def Op.touch : Op → Touch
  | .gpioWrite p on => .output p on
  | .store (.deviceWorkData 0) v => .flag v
  | .store (.deviceWorkData 2) v => .wind v
  | _ => .nothing

/-- The pass leaves the power flag alone and never switches an output off
that it has switched on; the power-off switches each output off once. -/
def powerDiscipline : Discipline Op Ar PowerRole where
  ok l o :=
    match l, o.touch with
    | .idle, _ => False
    | .pass _ _, .flag _ => False
    | .pass on _, .output p b => on p = true → b = true
    | .off _ _, .flag v => v = 0
    | .off _ _, .wind _ => False
    | .off done _, .output p b => b = false ∧ done p = false
    | _, _ => True
  answers l o a :=
    match l, o, a with
    | .pass _ (some w), .load (.deviceWorkData 2), v => v = w
    | _, _, _ => True
  next l o _ :=
    match l, o.touch with
    | .pass on wind, .output p b => .pass (Function.update on p (on p || b)) wind
    | .pass on _, .wind v => .pass on (some v)
    | .off done cleared, .output p _ => .off (Function.update done p true) cleared
    | .off done _, .flag _ => .off done true
    | l, _ => l

/-- Operations that neither party is judged by. -/
def Op.Quiet (o : Op) : Prop := o.touch = .nothing

theorem quiet_next {o : Op} (h : o.Quiet) (l : PowerRole) (a : Ar o) :
    powerDiscipline.next l o a = l := by
  have h' : o.touch = .nothing := h
  cases l <;> simp only [powerDiscipline, h']

theorem quiet_ok {o : Op} (h : o.Quiet) {l : PowerRole} (hl : l ≠ .idle) :
    powerDiscipline.ok l o := by
  have h' : o.touch = .nothing := h
  cases l with
  | idle => exact absurd rfl hl
  | _ => simp only [powerDiscipline, h']

/-- Code of quiet operations changes nothing for its thread. -/
theorem quiet_follows {α : Type} {p : Code α} (h : p.Only Op.Quiet) {l : PowerRole}
    (hl : l ≠ .idle) : powerDiscipline.Follows p (fun _ l' => l' = l) l := by
  refine .of_only (J := fun l' => l' = l) h (fun l' o hl' ho => ?_) rfl
  subst hl'
  exact ⟨quiet_ok ho hl, fun a _ => quiet_next ho _ a⟩

/-- The same in front of more code. -/
theorem quiet_bind {α β : Type} {p : Code α} {f : α → Code β} {Q : β → PowerRole → Prop}
    {l : PowerRole} (h : p.Only Op.Quiet) (hl : l ≠ .idle)
    (hf : ∀ a, powerDiscipline.Follows (f a) Q l) : powerDiscipline.Follows (p >>= f) Q l := by
  rw [Discipline.follows_bind]
  refine (quiet_follows h hl).mono ?_
  rintro a l' rfl
  exact hf a

theorem Op.Plain.quiet {o : Op} (h : o.Plain) : o.Quiet := by
  cases o with
  | store a v =>
      cases a with
      | deviceWorkData i => exact absurd h id
      | _ => rfl
  | gpioWrite p on => exact absurd h id
  | _ => rfl

theorem plain_quiet {α : Type} {p : Code α} (h : p.Only Op.Plain) : p.Only Op.Quiet :=
  h.mono fun _ => Op.Plain.quiet

/-! ## The power-off keeps to it -/

/-- Everything has been switched off and the flag cleared. -/
def PowerRole.AllOff (l : PowerRole) : Prop := ∃ done, l = .off done true ∧ ∀ p, done p = true

theorem aircleanPowerOnoff_follows (cleared : Bool) :
    powerDiscipline.Follows (aircleanPowerOnoff 0) (fun _ l => l.AllOff)
      (.off (fun _ => false) cleared) := by
  rw [aircleanPowerOnoff, if_neg (by decide), if_neg (by decide)]
  refine quiet_bind (plain_quiet deviceSysParaSave_plain) (by rintro ⟨⟩) fun _ => ?_
  have hdone : ∀ p : Pin, Function.update (Function.update (Function.update (Function.update
      (Function.update (fun _ => false) Pin.pb1 true) Pin.pb15 true) Pin.pb14 true) Pin.pb12 true)
      Pin.pb13 true p = true := by
    intro p; cases p <;> rfl
  simp [acEsdSet, acPhtSet, acAcMotorSet, powerDiscipline, Op.touch]
  exact ⟨_, rfl, hdone⟩

theorem PowerRole.AllOff.quiet {α : Type} {p : Code α} (hp : p.Only Op.Quiet) {l : PowerRole}
    (h : l.AllOff) : powerDiscipline.Follows p (fun _ l' => l'.AllOff) l := by
  have hl : l ≠ .idle := by
    obtain ⟨done, rfl, -⟩ := h
    rintro ⟨⟩
  refine (quiet_follows hp hl).mono ?_
  rintro _ l' rfl
  exact h

theorem setDeviceWorkMode_follows (signalCh : UInt8) :
    powerDiscipline.Follows (setDeviceWorkMode exchange 0x02 0 signalCh) (fun _ l => l.AllOff)
      (.off (fun _ => false) false) := by
  have hforward : Prog.Only Op.Quiet
      (Prog.when (signalCh = 1) (setDispboardFunctionMode exchange 0x02 0)) :=
    (only_when ..).mpr fun _ => setDispboardFunctionMode_only (P := Op.Quiet)
      (fun _ _ => by simp [Op.Quiet, Op.touch]) (fun _ h => h.1.quiet) 0x02 0
  have hswitch : commandSwitch 0x02 0 = (store (work Field.devicePowerState) 0 >>= fun _ =>
      aircleanPowerOnoff 0) >>= fun _ => pure true := rfl
  refine .op trivial fun _ _ => ?_
  show powerDiscipline.Follows (applyCommand exchange 0x02 0 signalCh) _ (.off (fun _ => false) false)
  refine quiet_bind (plain_quiet backupWorkData_plain) (by rintro ⟨⟩) fun _ => ?_
  rw [hswitch, Discipline.follows_bind, Discipline.follows_bind]
  refine .op rfl fun _ _ => (aircleanPowerOnoff_follows true).mono fun _ l hl => ?_
  refine .ret ?_
  rw [if_pos rfl, Discipline.follows_bind]
  exact (hl.quiet hforward).mono fun _ l hl => hl.quiet (plain_quiet saveIfChanged_plain)

theorem PowerOff.follows (off : PowerOff) :
    powerDiscipline.Follows off.code (fun _ l => l.AllOff) (.off (fun _ => false) false) := by
  cases off with
  | onoff => exact aircleanPowerOnoff_follows false
  | command signalCh => exact setDeviceWorkMode_follows signalCh
  | polled =>
      refine quiet_bind (by simp [Op.Quiet, Op.touch]) (by rintro ⟨⟩) fun _ => ?_
      rw [Discipline.follows_bind]
      exact (setDeviceWorkMode_follows 0).mono fun _ l hl => hl.quiet (by simp [Op.Quiet, Op.touch])

/-! ## So does the control pass -/

/-- The relay that a motor speed closes. -/
def relay (mode : UInt8) : Option Pin :=
  if mode = 1 then some .pb14 else if mode = 3 then some .pb12
  else if mode = 2 then some .pb13 else none

theorem acAcMotorSet_eq (mode : UInt8) : acAcMotorSet mode = (do
    gpioWrite .pb14 (relay mode == some .pb14)
    gpioWrite .pb12 (relay mode == some .pb12)
    gpioWrite .pb13 (relay mode == some .pb13)) := by
  by_cases h1 : mode = 1
  · subst h1; rfl
  · by_cases h3 : mode = 3
    · subst h3; rfl
    · by_cases h2 : mode = 2
      · subst h2; rfl
      · have hrelay : relay mode = none := by simp [relay, h1, h2, h3]
        rw [acAcMotorSet, if_neg h1, if_neg h3, if_neg h2, hrelay]
        rfl

/-- No relay is on but the one of `mode`. -/
def RelaysFit (mode : UInt8) (on : Pin → Bool) : Prop :=
  ∀ p, p = .pb12 ∨ p = .pb13 ∨ p = .pb14 → on p = true → relay mode = some p

theorem acAcMotorSet_follows {mode : UInt8} {on : Pin → Bool} (wind : Option UInt8)
    (h : RelaysFit mode on) :
    powerDiscipline.Follows (acAcMotorSet mode)
      (fun _ l => ∃ on', RelaysFit mode on' ∧ l = .pass on' wind) (.pass on wind) := by
  have h12 := h .pb12 (by simp)
  have h13 := h .pb13 (by simp)
  have h14 := h .pb14 (by simp)
  rw [acAcMotorSet_eq]
  simp [powerDiscipline, Op.touch]
  refine ⟨h14, h12, h13, ?_⟩
  rintro p (rfl | rfl | rfl)
  · simpa [or_imp] using h12
  · simpa [or_imp] using h13
  · simpa [or_imp] using h14

theorem aircleanMotorSet_follows (mode : UInt8) {on : Pin → Bool} (wind : Option UInt8)
    (h : RelaysFit mode on) :
    powerDiscipline.Follows (aircleanMotorSet mode)
      (fun _ l => ∃ on', RelaysFit mode on' ∧ l = .pass on' (some mode)) (.pass on wind) := by
  unfold aircleanMotorSet
  refine quiet_bind (by simp [Op.Quiet, Op.touch]) (by rintro ⟨⟩) fun _ => ?_
  refine .op trivial fun _ _ => .op trivial fun w hw => ?_
  obtain rfl : w = mode := hw
  show powerDiscipline.Follows (acAcMotorSet w >>= fun _ => _) _ (.pass on (some w))
  rw [Discipline.follows_bind]
  refine (acAcMotorSet_follows (some w) h).mono ?_
  rintro _ l ⟨on', hon', rfl⟩
  have hrest : ∀ w' : UInt8, Prog.Only Op.Quiet (setDcMotorSpeed w' >>= fun _ =>
      mutexRelease .modbus >>= fun _ => mutexRelease .motor) := fun w' =>
    .bind (plain_quiet (setDcMotorSpeed_plain w')) fun _ => by simp [Op.Quiet, Op.touch]
  refine quiet_bind (by simp [Op.Quiet, Op.touch]) (by rintro ⟨⟩) fun _ => ?_
  refine quiet_bind (by simp [Op.Quiet, Op.touch]) (by rintro ⟨⟩) fun w' => ?_
  refine (quiet_follows (hrest w') (by rintro ⟨⟩)).mono ?_
  rintro _ l rfl
  exact ⟨on', hon', rfl⟩

/-- Filter and heater are no relays. -/
def NoRelay (on : Pin → Bool) : Prop := ∀ p, p = .pb12 ∨ p = .pb13 ∨ p = .pb14 → on p = false

theorem NoRelay.fit {on : Pin → Bool} (h : NoRelay on) (mode : UInt8) : RelaysFit mode on := by
  intro p hp hon
  rw [h p hp] at hon
  cases hon

theorem scanRooms_quiet (p : UInt16 → UInt16 → Bool) : (scanRooms p).Only Op.Quiet := by
  unfold scanRooms
  refine .foldUpTo fun i found _ => (only_ite ..).mpr ⟨fun _ => .ret _, fun _ => ?_⟩
  simp [houseReading, Op.Quiet, Op.touch]

theorem driveAuto_follows (on speed : UInt8) :
    powerDiscipline.Follows (driveAuto on speed) (fun _ _ => True)
      (.pass (fun _ => false) none) := by
  unfold driveAuto acEsdSet acPhtSet
  refine .op (fun h => by cases h) fun _ _ => .op (fun h => by cases h) fun _ _ => ?_
  have hno : NoRelay (Function.update (Function.update (fun _ => false) Pin.pb1
      (false || (on != 0))) Pin.pb15 (false || ((if on > 1 then 1 else on) != 0))) := by
    rintro p (rfl | rfl | rfl) <;> rfl
  show powerDiscipline.Follows (aircleanMotorSet speed >>= fun _ => _) _ (.pass _ none)
  rw [Discipline.follows_bind]
  refine (aircleanMotorSet_follows speed none (hno.fit speed)).mono ?_
  rintro _ l ⟨on', -, rfl⟩
  exact (quiet_follows (by simp [Op.Quiet, Op.touch]) (by rintro ⟨⟩)).mono fun _ _ _ => trivial

theorem manualHandle_follows :
    powerDiscipline.Follows (manualHandle 0xff) (fun _ _ => True) (.pass (fun _ => false) none) := by
  rw [manualHandle, if_neg (by decide)]
  refine .op trivial fun hp _ => .op (fun h => by cases h) fun _ _ =>
    .op trivial fun pht _ => .op (fun h => by cases h) fun _ _ => .op trivial fun w _ => ?_
  have hno : NoRelay (Function.update (Function.update (fun _ => false) Pin.pb1
      (false || (hp != 0))) Pin.pb15 (false || ((if pht > 1 then 1 else pht) != 0))) := by
    rintro p (rfl | rfl | rfl) <;> rfl
  show powerDiscipline.Follows (Prog.when (w = 0) (aircleanMotorSet 1) >>= fun _ =>
    load (work Field.windSpeedState) >>= aircleanMotorSet) _ (.pass _ none)
  rw [Discipline.follows_bind, Discipline.follows_when]
  refine ⟨fun _ => (aircleanMotorSet_follows 1 none (hno.fit 1)).mono ?_, fun _ => ?_⟩
  · -- the speed read back is the one just stored: the relays fit it
    rintro _ l ⟨on', hfit, rfl⟩
    refine .op trivial fun w' hw' => ?_
    obtain rfl : w' = 1 := hw'
    exact (aircleanMotorSet_follows 1 (some 1) hfit).mono fun _ _ _ => trivial
  · refine .op trivial fun w' _ => ?_
    exact (aircleanMotorSet_follows w' none (hno.fit w')).mono fun _ _ _ => trivial

theorem aircleanWorkAutoHandle_follows :
    powerDiscipline.Follows aircleanWorkAutoHandle (fun _ _ => True)
      (.pass (fun _ => false) none) := by
  have hauto : powerDiscipline.Follows autoHandle (fun _ _ => True)
      (.pass (fun _ => false) none) := by
    refine quiet_bind (scanRooms_quiet _) (by rintro ⟨⟩) fun level3 => ?_
    rw [Discipline.follows_ite]
    refine ⟨fun _ => driveAuto_follows 1 3, fun _ => ?_⟩
    refine quiet_bind (scanRooms_quiet _) (by rintro ⟨⟩) fun level2 => ?_
    rw [Discipline.follows_ite]
    refine ⟨fun _ => driveAuto_follows 1 2, fun _ => ?_⟩
    refine quiet_bind (scanRooms_quiet _) (by rintro ⟨⟩) fun clean => ?_
    rw [Discipline.follows_ite]
    refine ⟨fun _ => driveAuto_follows 0 0, fun _ => ?_⟩
    refine quiet_bind (scanRooms_quiet _) (by rintro ⟨⟩) fun level1 => ?_
    rw [Discipline.follows_ite]
    exact ⟨fun _ => driveAuto_follows 1 1, fun _ => driveAuto_follows 0 0⟩
  refine quiet_bind (by simp [Op.Quiet, Op.touch]) (by rintro ⟨⟩) fun power => ?_
  rw [Discipline.follows_ite]
  refine ⟨fun _ => ?_, fun _ => .ret trivial⟩
  refine quiet_bind (by simp [Op.Quiet, Op.touch]) (by rintro ⟨⟩) fun mode => ?_
  rw [Discipline.follows_ite]
  refine ⟨fun _ => hauto, fun _ => ?_⟩
  refine quiet_bind (by simp [Op.Quiet, Op.touch]) (by rintro ⟨⟩) fun mode => ?_
  rw [Discipline.follows_ite]
  exact ⟨fun _ => manualHandle_follows, fun _ => .ret trivial⟩

/-! ## What a run keeps -/

theorem late_off {p : Pin} {tr : List (Label Op Ar Empty)} (h : Late p tr) : switchOff p ∈ tr :=
  h.subset (by simp)

theorem late_snoc_of_ne {p : Pin} {tr : List (Label Op Ar Empty)} {l : Label Op Ar Empty}
    (h : l ≠ switchOn p) : Late p (tr ++ [l]) ↔ Late p tr := by
  rw [late_snoc]
  exact ⟨fun hl => hl.elim id fun hl => absurd hl.1 h, .inl⟩

theorem off_mem_snoc_of_ne {p : Pin} {tr : List (Label Op Ar Empty)} {l : Label Op Ar Empty}
    (h : l ≠ switchOff p) : switchOff p ∈ tr ++ [l] ↔ switchOff p ∈ tr := by
  rw [List.mem_append, List.mem_singleton]
  exact ⟨fun hl => hl.elim id fun hl => absurd hl.symm h, .inl⟩

/-- What the pass knows: the wind speed it has stored is still there, and what
came late is among what it has switched on. -/
def PassSide (tr : List (Label Op Ar Empty)) (s : Board) (l : PowerRole) : Prop :=
  ∃ on wind, l = .pass on wind ∧ (∀ w, wind = some w → s.mem (work Field.windSpeedState) = w) ∧
    ∀ p, Late p tr → on p = true

/-- What the power-off knows: of the outputs it has switched off those are on
that came late. -/
def OffSide (tr : List (Label Op Ar Empty)) (s : Board) (l : PowerRole) : Prop :=
  ∃ done cleared, l = .off done cleared ∧
    (cleared = true → s.mem (work Field.devicePowerState) = 0) ∧
    (∀ p, done p = true ↔ switchOff p ∈ tr) ∧ ∀ p, done p = true → (s.gpio p = true ↔ Late p tr)

/-- A step that is no switching and leaves outputs and settings as they are. -/
theorem PassSide.frame {tr : List (Label Op Ar Empty)} {s s' : Board} {l : PowerRole}
    {x : Label Op Ar Empty} (h : PassSide tr s l) (hx : ∀ p, x ≠ switchOn p)
    (hwind : s'.mem (work Field.windSpeedState) = s.mem (work Field.windSpeedState)) :
    PassSide (tr ++ [x]) s' l := by
  obtain ⟨on, wind, rfl, hw, hlate⟩ := h
  exact ⟨on, wind, rfl, fun w hs => hwind.trans (hw w hs),
    fun p hp => hlate p ((late_snoc_of_ne (hx p)).mp hp)⟩

theorem OffSide.frame {tr : List (Label Op Ar Empty)} {s s' : Board} {l : PowerRole}
    {x : Label Op Ar Empty} (h : OffSide tr s l) (hx : ∀ p, x ≠ switchOn p)
    (hx' : ∀ p, x ≠ switchOff p)
    (hpower : s'.mem (work Field.devicePowerState) = s.mem (work Field.devicePowerState))
    (hgpio : s'.gpio = s.gpio) : OffSide (tr ++ [x]) s' l := by
  obtain ⟨done, cleared, rfl, hc, hdone, hout⟩ := h
  refine ⟨done, cleared, rfl, fun hs => hpower.trans (hc hs), fun p => ?_, fun p hp => ?_⟩
  · rw [off_mem_snoc_of_ne (hx' p)]; exact hdone p
  · rw [late_snoc_of_ne (hx p), hgpio]; exact hout p hp

theorem quiet_exec {o : Op} (h : o.Quiet) (t : Nat) (s : Board) :
    (Board.exec t o s).2.gpio = s.gpio ∧
      (Board.exec t o s).2.mem (work 0) = s.mem (work 0) ∧
      (Board.exec t o s).2.mem (work 2) = s.mem (work 2) := by
  cases o with
  | store a v =>
      have h0 : a ≠ work 0 := by rintro rfl; cases h
      have h2 : a ≠ work 2 := by rintro rfl; cases h
      exact ⟨rfl, by simp [Ne.symm h0], by simp [Ne.symm h2]⟩
  | gpioWrite p b => cases h
  | _ => exact ⟨rfl, rfl, rfl⟩

theorem quiet_label {o : Op} (h : o.Quiet) (t : Nat) (a : Ar o) (p : Pin) :
    (Label.op t o a : Label Op Ar Empty) ≠ switchOn p ∧
      (Label.op t o a : Label Op Ar Empty) ≠ switchOff p := by
  constructor
  · rintro ⟨⟩; cases h
  · rintro ⟨⟩; cases h

/-- The pass switches an output. -/
theorem OffSide.pass_output {tr : List (Label Op Ar Empty)} {s : Board} {l : PowerRole}
    {on : Pin → Bool} (h : OffSide tr s l) (hon : ∀ p, Late p tr → on p = true) {p : Pin} {b : Bool}
    (hok : on p = true → b = true) :
    OffSide (tr ++ [.op monitorThread (.gpioWrite p b) ()])
      { s with gpio := Function.update s.gpio p b } l := by
  obtain ⟨done, cleared, rfl, hc, hdone, hout⟩ := h
  refine ⟨done, cleared, rfl, hc, fun q => ?_, fun q hq => ?_⟩
  · rw [off_mem_snoc_of_ne (by rintro ⟨⟩)]
    exact hdone q
  · rw [late_snoc]
    show Function.update s.gpio p b q = true ↔ _
    by_cases hqp : q = p
    · subst hqp
      rw [Function.update_self]
      constructor
      · rintro rfl
        exact .inr ⟨rfl, (hdone q).mp hq⟩
      · rintro (hlate | ⟨heq, -⟩)
        · exact hok (hon q hlate)
        · cases heq; rfl
    · rw [Function.update_of_ne hqp, hout q hq]
      refine ⟨.inl, fun hl => hl.elim id ?_⟩
      rintro ⟨heq, -⟩
      cases heq
      exact absurd rfl hqp

theorem PassSide.pass_output {tr : List (Label Op Ar Empty)} {s : Board} {on : Pin → Bool}
    {wind : Option UInt8} (h : PassSide tr s (.pass on wind)) (p : Pin) (b : Bool) :
    PassSide (tr ++ [.op monitorThread (.gpioWrite p b) ()])
      { s with gpio := Function.update s.gpio p b }
      (.pass (Function.update on p (on p || b)) wind) := by
  obtain ⟨on, wind, ⟨⟩, hw, hlate⟩ := h
  refine ⟨_, _, rfl, hw, fun q hq => ?_⟩
  rcases (late_snoc ..).mp hq with hq | ⟨heq, -⟩
  · have hon := hlate q hq
    by_cases hqp : q = p
    · subst hqp; simp [hon]
    · rw [Function.update_of_ne hqp]; exact hon
  · cases heq; simp

/-- The power-off switches an output off, for the first time. -/
theorem OffSide.off_output {tr : List (Label Op Ar Empty)} {s : Board} {done : Pin → Bool}
    {cleared : Bool} (h : OffSide tr s (.off done cleared)) {p : Pin} (hp : done p = false) :
    OffSide (tr ++ [switchOff p]) { s with gpio := Function.update s.gpio p false }
      (.off (Function.update done p true) cleared) := by
  obtain ⟨done, cleared, ⟨⟩, hc, hdone, hout⟩ := h
  refine ⟨_, _, rfl, hc, fun q => ?_, fun q hq => ?_⟩
  · by_cases hqp : q = p
    · subst hqp; simp
    · rw [Function.update_of_ne hqp, off_mem_snoc_of_ne (by rintro ⟨⟩; exact hqp rfl)]
      exact hdone q
  · rw [late_snoc_of_ne (by rintro ⟨⟩)]
    show Function.update s.gpio p false q = true ↔ _
    by_cases hqp : q = p
    · subst hqp
      rw [Function.update_self]
      refine ⟨nofun, fun hlate => ?_⟩
      rw [(hdone q).mpr (late_off hlate)] at hp
      cases hp
    · rw [Function.update_of_ne hqp] at hq ⊢
      exact hout q hq

/-- The invariant of the two threads. -/
structure PowerInv (roles : Nat → PowerRole) (tr : List (Label Op Ar Empty)) (s : Board) : Prop where
  pass : PassSide tr s (roles monitorThread)
  off : OffSide tr s (roles commandThread)
  idle : ∀ t, t ≠ monitorThread → t ≠ commandThread → roles t = .idle

def startRoles (t : Nat) : PowerRole :=
  if t = monitorThread then .pass (fun _ => false) none
  else if t = commandThread then .off (fun _ => false) false
  else .idle

theorem touch_cases (o : Op) : o.Quiet ∨ (∃ p b, o = .gpioWrite p b) ∨
    (∃ v, o = .store (work 0) v) ∨ ∃ v, o = .store (work 2) v := by
  cases o with
  | gpioWrite p b => exact .inr (.inl ⟨p, b, rfl⟩)
  | store a v =>
      cases a with
      | deviceWorkData i =>
          match i with
          | 0 => exact .inr (.inr (.inl ⟨v, rfl⟩))
          | 1 => exact .inl rfl
          | 2 => exact .inr (.inr (.inr ⟨v, rfl⟩))
          | i + 3 => exact .inl rfl
      | _ => exact .inl rfl
  | _ => exact .inl rfl

/-- The pass reads back the wind speed it has stored. -/
theorem pass_answers {s : Board} {on : Pin → Bool} {wind : Option UInt8}
    (h : ∀ w, wind = some w → s.mem (work Field.windSpeedState) = w) (t : Nat) (o : Op) :
    powerDiscipline.answers (.pass on wind) o (Board.exec t o s).1 := by
  cases wind with
  | none => cases o <;> trivial
  | some w =>
      cases o with
      | load a =>
          cases a with
          | deviceWorkData i =>
              match i with
              | 0 => trivial
              | 1 => trivial
              | 2 => exact h w rfl
              | i + 3 => trivial
          | _ => trivial
      | _ => trivial

theorem powerInv_quiet {roles : Nat → PowerRole} {tr : List (Label Op Ar Empty)} {s : Board}
    (h : PowerInv roles tr s) {o : Op} (ho : o.Quiet) (t : Nat) (a : Ar o) :
    PowerInv roles (tr ++ [.op t o a]) (Board.exec t o s).2 := by
  obtain ⟨hgpio, hpower, hwind⟩ := quiet_exec ho t s
  refine ⟨h.pass.frame (fun p => (quiet_label ho t a p).1) hwind, ?_, h.idle⟩
  exact h.off.frame (fun p => (quiet_label ho t a p).1) (fun p => (quiet_label ho t a p).2) hpower
    hgpio

/-- A step of the pass. -/
theorem powerInv_pass {roles : Nat → PowerRole} {tr : List (Label Op Ar Empty)} {s : Board}
    (h : PowerInv roles tr s) {o : Op} (hok : powerDiscipline.ok (roles monitorThread) o) :
    PowerInv (Function.update roles monitorThread
        (powerDiscipline.next (roles monitorThread) o (Board.exec monitorThread o s).1))
      (tr ++ [.op monitorThread o (Board.exec monitorThread o s).1])
      (Board.exec monitorThread o s).2 := by
  have hoff : Function.update roles monitorThread
      (powerDiscipline.next (roles monitorThread) o (Board.exec monitorThread o s).1)
        commandThread = roles commandThread := Function.update_of_ne (by decide) ..
  have hidle : ∀ t, t ≠ monitorThread → t ≠ commandThread → Function.update roles monitorThread
      (powerDiscipline.next (roles monitorThread) o (Board.exec monitorThread o s).1) t = .idle :=
    fun t hm hc => (Function.update_of_ne hm ..).trans (h.idle t hm hc)
  have hpass := h.pass
  obtain ⟨on, wind, hrole, hw, hlate⟩ := h.pass
  rcases touch_cases o with hq | ⟨p, b, rfl⟩ | ⟨v, rfl⟩ | ⟨v, rfl⟩
  · rw [quiet_next hq, Function.update_eq_self]
    exact powerInv_quiet h hq monitorThread _
  · rw [hrole] at hok hpass
    refine ⟨?_, ?_, hidle⟩
    · rw [Function.update_self, hrole]
      exact hpass.pass_output p b
    · rw [hoff]
      exact h.off.pass_output hlate hok
  · rw [hrole] at hok
    exact absurd hok id
  · refine ⟨?_, ?_, hidle⟩
    · rw [Function.update_self, hrole]
      refine ⟨on, some v, rfl, ?_, fun p hp => hlate p ((late_snoc_of_ne (by rintro ⟨⟩)).mp hp)⟩
      rintro w ⟨⟩
      simp
    · rw [hoff]
      exact h.off.frame (by rintro p ⟨⟩) (by rintro p ⟨⟩) (by simp) rfl

/-- A step of the power-off. -/
theorem powerInv_off {roles : Nat → PowerRole} {tr : List (Label Op Ar Empty)} {s : Board}
    (h : PowerInv roles tr s) {o : Op} (hok : powerDiscipline.ok (roles commandThread) o) :
    PowerInv (Function.update roles commandThread
        (powerDiscipline.next (roles commandThread) o (Board.exec commandThread o s).1))
      (tr ++ [.op commandThread o (Board.exec commandThread o s).1])
      (Board.exec commandThread o s).2 := by
  have hpass : Function.update roles commandThread
      (powerDiscipline.next (roles commandThread) o (Board.exec commandThread o s).1)
        monitorThread = roles monitorThread := Function.update_of_ne (by decide) ..
  have hidle : ∀ t, t ≠ monitorThread → t ≠ commandThread → Function.update roles commandThread
      (powerDiscipline.next (roles commandThread) o (Board.exec commandThread o s).1) t = .idle :=
    fun t hm hc => (Function.update_of_ne hc ..).trans (h.idle t hm hc)
  have hoff := h.off
  obtain ⟨done, cleared, hrole, hc, hdone, hout⟩ := h.off
  rcases touch_cases o with hq | ⟨p, b, rfl⟩ | ⟨v, rfl⟩ | ⟨v, rfl⟩
  · rw [quiet_next hq, Function.update_eq_self]
    exact powerInv_quiet h hq commandThread _
  · rw [hrole] at hok hoff
    obtain ⟨rfl, hp⟩ : b = false ∧ done p = false := hok
    refine ⟨?_, ?_, hidle⟩
    · rw [hpass]
      exact h.pass.frame (by rintro q ⟨⟩) rfl
    · rw [Function.update_self, hrole]
      exact hoff.off_output hp
  · rw [hrole] at hok
    obtain rfl : v = 0 := hok
    refine ⟨?_, ?_, hidle⟩
    · rw [hpass]
      exact h.pass.frame (by rintro q ⟨⟩) (by simp)
    · rw [Function.update_self, hrole]
      refine ⟨done, true, rfl, fun _ => by simp, fun p => ?_, fun p hp => ?_⟩
      · rw [off_mem_snoc_of_ne (by rintro ⟨⟩)]; exact hdone p
      · rw [late_snoc_of_ne (by rintro ⟨⟩)]; exact hout p hp
  · rw [hrole] at hok
    exact absurd hok id

/-! ## The result -/

theorem passAndOff_follows (s : Board) (off : PowerOff) (t : Nat) :
    powerDiscipline.Follows ((passAndOff s off).threads t)
      (fun _ l => t = commandThread → l.AllOff) (startRoles t) := by
  by_cases hm : t = monitorThread
  · subst hm
    exact aircleanWorkAutoHandle_follows.mono fun _ _ _ hc => absurd hc (by decide)
  · by_cases hc : t = commandThread
    · subst hc
      exact off.follows.mono fun _ _ hl _ => hl
    · simp only [passAndOff, if_neg hm, if_neg hc]
      exact .ret fun h => absurd h hc

theorem powerInv_start (s : Board) : PowerInv startRoles [] s := by
  refine ⟨⟨_, _, rfl, nofun, fun p hp => ?_⟩, ⟨_, _, rfl, nofun, ?_, ?_⟩, fun t hm hc => ?_⟩
  · cases hp
  · simp
  · nofun
  · rw [startRoles, if_neg hm, if_neg hc]

/-- A step of either thread. -/
theorem powerInv_step {tr : List (Label Op Ar Empty)} {s : Board} {t : Nat} {o : Op}
    (h : PowerInv (powerDiscipline.locals startRoles tr) tr s)
    (hok : powerDiscipline.ok (powerDiscipline.locals startRoles tr t) o) :
    powerDiscipline.answers (powerDiscipline.locals startRoles tr t) o (Board.exec t o s).1 ∧
      PowerInv (powerDiscipline.locals startRoles (tr ++ [.op t o (Board.exec t o s).1]))
        (tr ++ [.op t o (Board.exec t o s).1]) (Board.exec t o s).2 := by
  rw [Discipline.locals_snoc_op]
  by_cases hm : t = monitorThread
  · subst hm
    refine ⟨?_, powerInv_pass h hok⟩
    obtain ⟨on, wind, hrole, hw, -⟩ := h.pass
    rw [hrole]
    exact pass_answers hw _ o
  · by_cases hc : t = commandThread
    · subst hc
      refine ⟨?_, powerInv_off h hok⟩
      obtain ⟨done, cleared, hrole, -⟩ := h.off
      rw [hrole]
      cases o <;> trivial
    · rw [h.idle t hm hc] at hok
      exact absurd hok id

/-- **When a power-off is final.** Once a power-off beside a control pass has
finished, in whatever order their steps were taken, the power flag is clear
and stays so; and the outputs are off if and only if the pass switched none
of them on after the power-off had switched it off. -/
theorem power_off_final_iff (s : Board) (off : PowerOff) (tr : List (Label Op Ar Empty))
    (c : Config Op Ar Board) (hrun : Run Board.system anyStep (passAndOff s off) tr c)
    (hoff : c.threads commandThread = .ret ()) :
    c.state.mem (work Field.devicePowerState) = 0 ∧
      ((∀ p, c.state.gpio p = false) ↔ ∀ p, ¬ Late p tr) := by
  obtain ⟨hinv, hend⟩ := hrun.keeps powerDiscipline
    (I := fun tr s => PowerInv (powerDiscipline.locals startRoles tr) tr s)
    (passAndOff_follows s off) (powerInv_start s)
    (fun _ _ _ _ hinv _ _ hok => powerInv_step hinv hok) (fun _ _ e => nomatch e)
  obtain ⟨done, hrole, hall⟩ : (powerDiscipline.locals startRoles tr commandThread).AllOff := by
    have hret := hend commandThread
    rw [hoff, Discipline.follows_ret] at hret
    exact hret rfl
  obtain ⟨done', cleared, hrole', hcleared, -, hout⟩ := hinv.off
  rw [hrole] at hrole'
  cases hrole'
  refine ⟨hcleared rfl, fun hgpio p hlate => ?_, fun hlate p => ?_⟩
  · have hon := (hout p (hall p)).mpr hlate
    rw [hgpio p] at hon
    cases hon
  · rw [Bool.eq_false_iff]
    exact fun hon => hlate p ((hout p (hall p)).mp hon)

/-- Switched on, in manual mode, with the filter set to be on. -/
def Board.manualEsd : Board := ((Board.reset.set (work 0) 1).set (work 1) 2).set (work 3) 1

theorem power_off_final_iff_run : ∃ tr c,
    Run Board.system anyStep (passAndOff Board.manualEsd .onoff) tr c ∧
      c.threads monitorThread = .ret () ∧ c.threads commandThread = .ret () ∧
      c.state.mem (work Field.devicePowerState) = 0 ∧
      ((∀ p, c.state.gpio p = false) ↔ ∀ p, ¬ Late p tr) := by
  obtain ⟨tr, c, hrun, hdone⟩ := exists_run_of_endsWith Board.system (fun _ _ _ => true)
    (List.replicate 47 (.thread monitorThread) ++ List.replicate 14 (.thread commandThread))
    (passAndOff Board.manualEsd .onoff)
    (fun _ c => (c.threads monitorThread).finished && (c.threads commandThread).finished)
    (by decide +kernel)
  rw [Bool.and_eq_true] at hdone
  have hoff := eq_ret_of_finished hdone.2
  exact ⟨tr, c, hrun.any, eq_ret_of_finished hdone.1, hoff,
    power_off_final_iff Board.manualEsd .onoff tr c hrun.any hoff⟩

/-- The pass tests the power flag, the device is switched off, and the pass
switches the filter on. -/
theorem power_off_final_counterexample : ∃ tr c,
    Run Board.system anyStep (passAndOff Board.manualEsd .onoff) tr c ∧
      c.threads monitorThread = .ret () ∧ c.threads commandThread = .ret () ∧
      c.state.gpio .pb1 = true := by
  obtain ⟨tr, c, hrun, hdone⟩ := exists_run_of_endsWith Board.system (fun _ _ _ => true)
    (List.replicate 3 (.thread monitorThread) ++ List.replicate 14 (.thread commandThread) ++
      List.replicate 44 (.thread monitorThread))
    (passAndOff Board.manualEsd .onoff)
    (fun _ c => ((c.threads monitorThread).finished && (c.threads commandThread).finished) &&
      c.state.gpio .pb1)
    (by decide +kernel)
  rw [Bool.and_eq_true, Bool.and_eq_true] at hdone
  exact ⟨tr, c, hrun.any, eq_ret_of_finished hdone.1.1, eq_ret_of_finished hdone.1.2, hdone.2⟩

end Aclean
