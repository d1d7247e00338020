import Aclean.Packets

/-!
# Two commands and one backup

`set_device_work_mode` finds out what it has changed by comparing the settings
with a backup that it made at its start, and saves if there is a difference.
The backup is global, and so is the record in flash: a second call can refresh
the one and overtake the other. Each call owes the record the bytes that it may
have changed until it has compared or saved them; the invariant says that a
byte which differs from its record is owed by someone.
-/

namespace Aclean

open Board Prog

/-! ## The two calls -/

abbrev wifiThread : Nat := 1
abbrev displayThread : Nat := 4

/-- The call on the display thread, made with or without the Modbus mutex that
`get_display_board_data` holds. -/
def displayCall (held : Bool) (type data : UInt8) : Code Unit := do
  Prog.when (held = true) (mutexTake .modbus)
  setDeviceWorkMode exchange type data 0
  Prog.when (held = true) (mutexRelease .modbus)

/-- A WiFi command and one from the display, about to start. -/
def twoCommands (s : Board) (held : Bool) (type₁ data₁ type₂ data₂ : UInt8) :
    Config Op Ar Board where
  state := s
  threads := fun t =>
    if t = wifiThread then setDeviceWorkMode exchange type₁ data₁ 1
    else if t = displayThread then displayCall held type₂ data₂
    else .ret ()

/-! ## The discipline -/

/-- What a call owes: nothing yet; every byte, from its first write on; the bytes
from `j` on while it compares, byte `j` being compared with the backup `b`; every
byte again once it has found a difference; and the bytes it has not yet read for
the record. -/
inductive SaveRole where
  | fresh
  | owes
  | compare (j : Nat)
  | compared (j : Nat) (b : UInt8)
  | changed
  | saving (data : List UInt8)
  | done

/-- The next byte to compare, if there is one. -/
def SaveRole.comparing (j : Nat) : SaveRole := if j < 6 then .compare j else .done

def saveDiscipline : Discipline Op Ar SaveRole where
  ok l o :=
    match l, o with
    | .fresh, .load (.deviceWorkDataBak i) => i = 0
    | .fresh, _ => True
    | .owes, .load (.deviceWorkDataBak i) => i = 0
    | .owes, _ => True
    | .compare j, o => o = .load (.deviceWorkDataBak j)
    | .compared j _, o => o = .load (work j)
    | .changed, o => o = .flashWrite sysParaFlagAddr [0x86]
    | .saving data, o => data.length < 6 ∧ o = .load (work data.length) ∨
        data.length = 6 ∧ o = .flashWrite sysParaStartAddr data
    | .done, .mutexRelease _ => True
    | .done, _ => False
  answers _ _ _ := True
  next l o a :=
    match l, o, a with
    | .fresh, .load (.deviceWorkDataBak i), b => .compared i b
    | .fresh, .store (.deviceWorkData _) _, _ => .owes
    | .fresh, .flashWrite _ _, _ => .owes
    | .owes, .load (.deviceWorkDataBak i), b => .compared i b
    | .compare _, .load (.deviceWorkDataBak i), b => .compared i b
    | .compared j b, .load _, v => if b ≠ v then .changed else .comparing (j + 1)
    | .changed, .flashWrite _ _, _ => .saving []
    | .saving data, .load _, v => .saving (data ++ [v])
    | .saving _, .flashWrite _ _, _ => .done
    | l, _, _ => l

/-! ## A call keeps to it -/

/-- Operations that do not look at the backup. -/
def Op.Blind (o : Op) : Prop := ∀ i, o ≠ .load (.deviceWorkDataBak i)

/-- Before the comparison. -/
def SaveRole.Early (l : SaveRole) : Prop := l = .fresh ∨ l = .owes

theorem blind_early {l : SaveRole} {o : Op} (hl : l.Early) (ho : o.Blind) :
    saveDiscipline.ok l o ∧ ∀ a, (saveDiscipline.next l o a).Early := by
  rcases hl with rfl | rfl
  · cases o with
    | load a =>
        cases a with
        | deviceWorkDataBak i => exact absurd rfl (ho i)
        | _ => exact ⟨trivial, fun _ => .inl rfl⟩
    | store a v =>
        cases a with
        | deviceWorkData i => exact ⟨trivial, fun _ => .inr rfl⟩
        | _ => exact ⟨trivial, fun _ => .inl rfl⟩
    | flashWrite a data => exact ⟨trivial, fun _ => .inr rfl⟩
    | _ => exact ⟨trivial, fun _ => .inl rfl⟩
  · cases o with
    | load a =>
        cases a with
        | deviceWorkDataBak i => exact absurd rfl (ho i)
        | _ => exact ⟨trivial, fun _ => .inr rfl⟩
    | _ => exact ⟨trivial, fun _ => .inr rfl⟩

theorem early_follows {α : Type} {p : Code α} (h : p.Only Op.Blind) {l : SaveRole} (hl : l.Early) :
    saveDiscipline.Follows p (fun _ => SaveRole.Early) l :=
  .of_only h (fun _ _ hJ ho => ⟨(blind_early hJ ho).1, fun a _ => (blind_early hJ ho).2 a⟩) hl

theorem Op.Local.blind {o : Op} (h : o.Local) : o.Blind := h.2.2

theorem deviceSysParaSave_blind : deviceSysParaSave.Only Op.Blind := by
  unfold deviceSysParaSave
  exact .bind (by simp [Op.Blind]) fun _ => .bind (.foldUpTo fun i data _ => by simp [Op.Blind])
    fun data => by simp [Op.Blind]

theorem deviceSysParaGet_blind : deviceSysParaGet.Only Op.Blind := by
  unfold deviceSysParaGet
  refine .bind (by simp [Op.Blind]) fun flag => .bind ((only_when ..).mpr fun _ => ?_) fun _ =>
    by simp [Op.Blind]
  exact .forUpTo fun i _ => by simp [Op.Blind]

theorem aircleanPowerOnoff_blind (mode : UInt8) : (aircleanPowerOnoff mode).Only Op.Blind := by
  have hmotor : ∀ w, (acAcMotorSet w).Only Op.Blind := by simp [acAcMotorSet, Op.Blind]
  unfold aircleanPowerOnoff
  refine (only_ite ..).mpr ⟨fun _ => .ret _, fun _ => (only_ite ..).mpr ⟨fun _ => ?_, fun _ => ?_⟩⟩
  · exact .bind deviceSysParaGet_blind fun _ => .bind (by simp [Op.Blind]) fun hp =>
      .bind (by simp [acEsdSet, Op.Blind]) fun _ => .bind (by simp [Op.Blind]) fun pht =>
      .bind (by simp [acPhtSet, Op.Blind]) fun _ => .bind (by simp [Op.Blind]) fun w =>
      .bind (hmotor w) fun _ => by simp [Op.Blind]
  · exact .bind deviceSysParaSave_blind fun _ => .bind (by simp [acEsdSet, Op.Blind]) fun _ =>
      .bind (by simp [acPhtSet, Op.Blind]) fun _ => .bind (hmotor 0) fun _ => by simp [Op.Blind]

/-- The switch of a known command; an unknown one does nothing. -/
theorem commandSwitch_follows (type data : UInt8) :
    saveDiscipline.Follows (commandSwitch type data)
      (fun known l => if known = true then l.Early else l = .fresh) .fresh := by
  have hknown : ∀ {p : Code Unit}, p.Only Op.Blind →
      saveDiscipline.Follows (p >>= fun _ => pure true)
      (fun known l => if known = true then l.Early else l = .fresh) .fresh := by
    intro p h
    exact (early_follows h (.inl rfl)).bind fun _ l hl => .ret hl
  unfold commandSwitch
  refine .ite (fun _ => hknown ?_) fun _ => .ite (fun _ => hknown ?_) fun _ =>
    .ite (fun _ => hknown (by simp [Op.Blind])) fun _ =>
    .ite (fun _ => ?_) fun _ => .ite (fun _ => hknown (by simp [Op.Blind])) fun _ =>
    .ite (fun _ => ?_) fun _ => .ret rfl
  · exact (only_ite ..).mpr ⟨fun _ => .op (by simp [Op.Blind]) fun _ => aircleanPowerOnoff_blind 1,
      fun _ => .op (by simp [Op.Blind]) fun _ => aircleanPowerOnoff_blind 0⟩
  · exact (only_when ..).mpr fun _ => by simp [Op.Blind]
  · refine (early_follows (p := store (work Field.phtWorkState) _) (by simp [Op.Blind])
      (.inl rfl)).bind fun _ l hl => ?_
    exact (early_follows (by simp [acPhtSet, Op.Blind]) hl).bind fun _ l hl => .ret hl
  · refine (early_follows ((only_when ..).mpr fun _ => by simp [Op.Blind]) (.inl rfl)).bind
      fun _ l hl => ?_
    refine (early_follows ((setDcMotorSpeed_local data).mono fun _ => Op.Local.blind) hl).bind
      fun _ l hl => ?_
    exact (early_follows (by simp [acAcMotorSet, Op.Blind]) hl).bind fun _ l hl => .ret hl

theorem deviceSysParaSave_follows :
    saveDiscipline.Follows deviceSysParaSave (fun _ l => l = .done) .changed := by
  have hread : saveDiscipline.Follows (Prog.foldUpTo (fun i data => do
      let b ← load (work i)
      pure (data ++ [b])) 6 [] : Code (List UInt8))
      (fun data l => l = .saving data ∧ data.length = 6) (.saving []) := by
    refine .foldUpTo (J := fun n data l => l = SaveRole.saving data ∧ data.length = n) ⟨rfl, rfl⟩ ?_
    intro i data l hi hl
    obtain ⟨rfl, hlen⟩ := hl
    refine .op (.inl ⟨by omega, by rw [hlen]⟩) fun v _ => .ret ⟨rfl, ?_⟩
    rw [List.length_append, hlen]
    rfl
  refine .op rfl fun _ _ => hread.bind fun data l hl => ?_
  obtain ⟨rfl, hlen⟩ := hl
  exact .op (.inr ⟨hlen, rfl⟩) fun _ _ => .ret rfl

/-- Where the comparison stands before round `i`. -/
def SaveRole.At (i : Nat) (found : Bool) (l : SaveRole) : Prop :=
  if found = true then l = .changed else if i = 0 then l.Early else l = .comparing i

theorem saveIfChanged_follows {l : SaveRole} (hl : l.Early) :
    saveDiscipline.Follows saveIfChanged (fun _ l => l = .done) l := by
  refine .bind (R := SaveRole.At 6) (.foldUpTo (J := SaveRole.At) hl ?_) ?_
  · intro i found l hi hat
    refine .ite (fun hfound => ?_) fun hfound => ?_
    · rw [SaveRole.At, if_pos hfound] at hat
      exact .ret hat
    · rw [SaveRole.At, if_neg hfound] at hat
      have hread : saveDiscipline.ok l (.load (.deviceWorkDataBak i)) ∧
          ∀ b, saveDiscipline.next l (.load (.deviceWorkDataBak i)) b = .compared i b := by
        by_cases h0 : i = 0
        · subst h0
          rcases hat with rfl | rfl
          · exact ⟨rfl, fun _ => rfl⟩
          · exact ⟨rfl, fun _ => rfl⟩
        · rw [if_neg h0, SaveRole.comparing, if_pos hi] at hat
          subst hat
          exact ⟨rfl, fun _ => rfl⟩
      refine .op hread.1 fun old _ => ?_
      rw [hread.2]
      refine .op rfl fun new _ => .ret ?_
      show SaveRole.At (i + 1) (old != new) (if old ≠ new then .changed else .comparing (i + 1))
      by_cases hne : old = new
      · simp [SaveRole.At, hne]
      · simp [SaveRole.At, hne]
  · intro found l hat
    refine .ite (fun hfound => ?_) fun hfound => ?_
    · rw [SaveRole.At, if_pos hfound] at hat
      rw [hat]
      exact deviceSysParaSave_follows
    · rw [SaveRole.At, if_neg hfound] at hat
      exact .ret hat

/-- Nothing owed. -/
def SaveRole.Clear (l : SaveRole) : Prop := l = .fresh ∨ l = .done

theorem local_fresh {α : Type} {p : Code α} (h : p.Only Op.Local) :
    saveDiscipline.Follows p (fun _ l => l = .fresh) .fresh := by
  refine .of_only (J := fun l => l = SaveRole.fresh) h (fun l o hl ho => ?_) rfl
  subst hl
  refine ⟨(blind_early (.inl rfl) ho.blind).1, fun a _ => ?_⟩
  cases o with
  | load b =>
      cases b with
      | deviceWorkDataBak i => exact absurd rfl (ho.2.2 i)
      | _ => rfl
  | store b v =>
      cases b with
      | deviceWorkData i => exact absurd ho.1 id
      | _ => rfl
  | flashWrite b data => exact absurd rfl (ho.2.1 b data)
  | _ => rfl

theorem setDeviceWorkMode_saves (type data signalCh : UInt8) :
    saveDiscipline.Follows (setDeviceWorkMode exchange type data signalCh)
      (fun _ l => l.Clear) .fresh := by
  have hforward : (Prog.when (signalCh = 1) (setDispboardFunctionMode exchange type data)).Only
      Op.Blind := (only_when ..).mpr fun _ => setDispboardFunctionMode_only
    (fun _ _ => by simp [Op.Blind]) (fun _ => Op.Local.blind) type data
  have happly : saveDiscipline.Follows (applyCommand exchange type data signalCh)
      (fun _ l => l.Clear) .fresh := by
    refine .bind (local_fresh backupWorkData_local) fun _ l hl => ?_
    subst hl
    refine .bind (commandSwitch_follows type data) fun known l hl =>
      .ite (fun hk => ?_) fun hk => ?_
    · rw [if_pos hk] at hl
      exact (early_follows hforward hl).bind fun _ l hl =>
        (saveIfChanged_follows hl).mono fun _ _ hd => .inr hd
    · rw [if_neg hk] at hl
      exact .ret (.inl hl)
  refine .op trivial fun _ _ => .ite (fun _ => ?_) fun _ => happly
  refine .op trivial fun mode _ => .ite (fun _ => .ret (.inl rfl)) fun _ => ?_
  exact .op trivial fun power _ => .ite (fun _ => .ret (.inl rfl)) fun _ => happly

theorem displayCall_saves (held : Bool) (type data : UInt8) :
    saveDiscipline.Follows (displayCall held type data) (fun _ l => l.Clear) .fresh := by
  refine .bind (R := fun _ l => l = .fresh)
    (.when (fun _ => .op trivial fun _ _ => .ret rfl) fun _ => rfl) fun _ l hl => ?_
  subst hl
  refine .bind (setDeviceWorkMode_saves type data 0) fun _ l hl => .when (fun _ => ?_) fun _ => hl
  rcases hl with rfl | rfl
  · exact .op trivial fun _ _ => .ret (.inl rfl)
  · exact .op trivial fun _ _ => .ret (.inr rfl)

/-! ## The condition -/

def saveRoles (t : Nat) : SaveRole :=
  if t = wifiThread ∨ t = displayThread then .fresh else .done

/-- Byte `i` of the settings is what the record holds. -/
def Board.Saved (s : Board) (i : Nat) : Prop := s.flash (sysParaStartAddr + i) = s.mem (work i)

instance (s : Board) (i : Nat) : Decidable (s.Saved i) := inferInstanceAs (Decidable (_ = _))

/-- The call, which has changed something or has found a difference, has still to
compare byte `i` or to save what it is now. -/
def SaveRole.Owes (s : Board) (i : Nat) : SaveRole → Prop
  | .owes => True
  | .compare j => j ≤ i
  | .compared j b => j < i ∨ j = i ∧ b = s.flash (sysParaStartAddr + i)
  | .changed => True
  | .saving data => data.length ≤ i ∨ data.getD i 0 = s.mem (work i)
  | _ => False

instance (s : Board) (i : Nat) (l : SaveRole) : Decidable (l.Owes s i) :=
  match l with
  | .fresh => inferInstanceAs (Decidable False)
  | .owes => inferInstanceAs (Decidable True)
  | .compare _ => inferInstanceAs (Decidable (_ ≤ _))
  | .compared _ _ => inferInstanceAs (Decidable (_ ∨ _))
  | .changed => inferInstanceAs (Decidable True)
  | .saving _ => inferInstanceAs (Decidable (_ ∨ _))
  | .done => inferInstanceAs (Decidable False)

def Op.comparesWith : Op → Option Nat
  | .load (.deviceWorkDataBak i) => some i
  | _ => none

/-- What the operation writes into the record. -/
def Op.records : Op → Option (List UInt8)
  | .flashWrite addr data => if addr = sysParaStartAddr then some data else none
  | _ => none

/-- Where a call compares a setting with its backup, the backup or the setting is
what the record holds, or the other call owes it; and where a call writes the
record, each byte that it writes is what the setting is at that moment, or is
owed by a call when it has been written. -/
def SaveCond : StepCond Op Ar Board Empty := fun tr s l =>
  match l with
  | .op t o _ =>
      (∀ i ∈ o.comparesWith, i < 6 →
        s.mem (.deviceWorkDataBak i) = s.flash (sysParaStartAddr + i) ∨ s.Saved i ∨
          ∃ u ∈ [wifiThread, displayThread],
            u ≠ t ∧ (saveDiscipline.locals saveRoles tr u).Owes s i) ∧
      ∀ data ∈ o.records, ∀ i < 6, data.getD i 0 = s.mem (work i) ∨
        ∃ u ∈ [wifiThread, displayThread],
          (saveDiscipline.locals saveRoles (tr ++ [l]) u).Owes (Board.exec t o s).2 i
  | .env e => nomatch e

instance (tr : List (Label Op Ar Empty)) (s : Board) (l : Label Op Ar Empty) :
    Decidable (SaveCond tr s l) :=
  match l with
  | .op _ _ _ => inferInstanceAs (Decidable (_ ∧ _))
  | .env e => nomatch e

/-! ## What a run keeps -/

structure SaveInv (roles : Nat → SaveRole) (s : Board) : Prop where
  idle : ∀ t, t ≠ wifiThread → t ≠ displayThread → roles t = .done
  owed : ∀ i, i < 6 → s.Saved i ∨ ∃ t, (roles t).Owes s i

section Step

variable {roles : Nat → SaveRole} {s s' : Board} {t : Nat} {l : SaveRole}

theorem idle_update (h : ∀ u, u ≠ wifiThread → u ≠ displayThread → roles u = .done)
    (ht : l = .done ∨ t = wifiThread ∨ t = displayThread) (u : Nat) (hw : u ≠ wifiThread)
    (hd : u ≠ displayThread) : Function.update roles t l u = .done := by
  by_cases hu : u = t
  · subst hu
    rw [Function.update_self]
    exact ht.elim id fun ht => absurd ht (not_or.mpr ⟨hw, hd⟩)
  · rw [Function.update_of_ne hu]
    exact h u hw hd

/-- A step after which its thread owes every byte. -/
theorem SaveInv.of_owes (h : SaveInv roles s) (ht : t = wifiThread ∨ t = displayThread)
    (howes : ∀ i, l.Owes s' i) : SaveInv (Function.update roles t l) s' := by
  refine ⟨idle_update h.idle (.inr ht), fun i _ => .inr ⟨t, ?_⟩⟩
  rw [Function.update_self]
  exact howes i

/-- What a call owes depends on settings and record only. -/
theorem SaveRole.Owes.of_same (hmem : ∀ i, s'.mem (work i) = s.mem (work i)) {i : Nat}
    (hflash : s'.flash (sysParaStartAddr + i) = s.flash (sysParaStartAddr + i)) {r : SaveRole}
    (h : r.Owes s i) : r.Owes s' i := by
  cases r with
  | compared j b =>
      rcases h with hlt | ⟨hj, hb⟩
      · exact .inl hlt
      · exact .inr ⟨hj, by rw [hflash]; exact hb⟩
  | saving data =>
      rcases h with hle | heq
      · exact .inl hle
      · exact .inr (by rw [hmem]; exact heq)
  | _ => exact h

/-- A step that leaves settings and record as they are; the thread stops owing
only what is saved or owed by another. -/
theorem SaveInv.of_same (h : SaveInv roles s) (ht : l = .done ∨ t = wifiThread ∨ t = displayThread)
    (hmem : ∀ i, s'.mem (work i) = s.mem (work i))
    (hflash : ∀ i, i < 6 → s'.flash (sysParaStartAddr + i) = s.flash (sysParaStartAddr + i))
    (howes : ∀ i, i < 6 → (roles t).Owes s i →
      l.Owes s i ∨ s.Saved i ∨ ∃ u, u ≠ t ∧ (roles u).Owes s i) :
    SaveInv (Function.update roles t l) s' := by
  refine ⟨idle_update h.idle ht, fun i hi => ?_⟩
  have hsaved : s'.Saved i ↔ s.Saved i := by rw [Board.Saved, Board.Saved, hflash i hi, hmem]
  have hother : ∀ u, u ≠ t → (roles u).Owes s i → ∃ u, (Function.update roles t l u).Owes s' i :=
    fun u hu ho => ⟨u, by rw [Function.update_of_ne hu]; exact ho.of_same hmem (hflash i hi)⟩
  rw [hsaved]
  rcases h.owed i hi with hclean | ⟨u, ho⟩
  · exact .inl hclean
  · by_cases hut : u = t
    · subst hut
      rcases howes i hi ho with hl | hclean | ⟨v, hv, hov⟩
      · exact .inr ⟨u, by rw [Function.update_self]; exact hl.of_same hmem (hflash i hi)⟩
      · exact .inl hclean
      · exact .inr (hother v hv hov)
    · exact .inr (hother u hut ho)

/-- Operations that touch neither settings nor record. -/
theorem exec_saved {o : Op} (hset : ∀ i v, o ≠ .store (work i) v)
    (hflash : ∀ a data, o ≠ .flashWrite a data) (t : Nat) (s : Board) : (∀ i, (Board.exec t o s).2.mem (work i) = s.mem (work i)) ∧
      (Board.exec t o s).2.flash = s.flash := by
  cases o with
  | store a v =>
      cases a with
      | deviceWorkData i => exact absurd rfl (hset i v)
      | _ => exact ⟨fun i => by simp, rfl⟩
  | flashWrite a data => exact absurd rfl (hflash a data)
  | _ => exact ⟨fun _ => rfl, rfl⟩

/-- What a call can do before it begins to compare: it begins, it changes a setting
or the record, or it does what the record does not depend on. -/
theorem early_cases (hl : l.Early) {o : Op} (hok : saveDiscipline.ok l o) (t : Nat) (s : Board) :
    (o = .load (.deviceWorkDataBak 0) ∧
      saveDiscipline.next l o (Board.exec t o s).1 = .compared 0 (s.mem (.deviceWorkDataBak 0))) ∨
    (∃ i v, o = .store (work i) v ∧ saveDiscipline.next l o (Board.exec t o s).1 = .owes) ∨
    (∃ a data, o = .flashWrite a data ∧ saveDiscipline.next l o (Board.exec t o s).1 = .owes) ∨
    ((∀ i v, o ≠ .store (work i) v) ∧ (∀ a data, o ≠ .flashWrite a data) ∧
      saveDiscipline.next l o (Board.exec t o s).1 = l) := by
  cases o with
  | load a =>
      cases a with
      | deviceWorkDataBak i =>
          refine .inl ?_
          rcases hl with rfl | rfl
          · obtain rfl : i = 0 := hok
            exact ⟨rfl, rfl⟩
          · obtain rfl : i = 0 := hok
            exact ⟨rfl, rfl⟩
      | _ =>
          refine .inr (.inr (.inr ⟨nofun, nofun, ?_⟩))
          rcases hl with rfl | rfl <;> rfl
  | store a v =>
      cases a with
      | deviceWorkData i =>
          refine .inr (.inl ⟨i, v, rfl, ?_⟩)
          rcases hl with rfl | rfl <;> rfl
      | _ =>
          refine .inr (.inr (.inr ⟨nofun, nofun, ?_⟩))
          rcases hl with rfl | rfl <;> rfl
  | flashWrite a data =>
      refine .inr (.inr (.inl ⟨a, data, rfl, ?_⟩))
      rcases hl with rfl | rfl <;> rfl
  | _ =>
      refine .inr (.inr (.inr ⟨nofun, nofun, ?_⟩))
      rcases hl with rfl | rfl <;> rfl

/-- One operation of a call that has not begun to compare. -/
theorem saveInv_early (h : SaveInv roles s) (ht : t = wifiThread ∨ t = displayThread)
    (hearly : (roles t).Early) {o : Op} (hok : saveDiscipline.ok (roles t) o)
    (hcompare : ∀ i ∈ o.comparesWith, i < 6 →
      s.mem (.deviceWorkDataBak i) = s.flash (sysParaStartAddr + i) ∨ s.Saved i ∨
        ∃ u, u ≠ t ∧ (roles u).Owes s i) :
    SaveInv (Function.update roles t (saveDiscipline.next (roles t) o (Board.exec t o s).1))
      (Board.exec t o s).2 := by
  rcases early_cases hearly hok t s with
    ⟨rfl, hnext⟩ | ⟨i, v, rfl, hnext⟩ | ⟨a, data, rfl, hnext⟩ | ⟨hsets, hflash, hnext⟩
  · rw [hnext]
    refine h.of_same (.inr ht) (fun _ => rfl) (fun _ _ => rfl) fun i hi _ => ?_
    rcases Nat.eq_zero_or_pos i with rfl | hpos
    · exact (hcompare 0 rfl hi).imp_left fun hb => .inr ⟨rfl, hb⟩
    · exact .inl (.inl hpos)
  · rw [hnext]
    exact h.of_owes ht fun _ => trivial
  · rw [hnext]
    exact h.of_owes ht fun _ => trivial
  · rw [hnext]
    obtain ⟨hmem, hrecord⟩ := exec_saved hsets hflash t s
    exact h.of_same (.inr ht) hmem (fun i _ => by rw [hrecord]) fun _ _ ho => .inl ho

/-- A setting is compared with the backup `b` of it. -/
theorem saveInv_compared {j : Nat} {b : UInt8} (h : SaveInv roles s)
    (ht : t = wifiThread ∨ t = displayThread) (hl : roles t = .compared j b) :
    SaveInv (Function.update roles t (if b ≠ s.mem (work j) then .changed else .comparing (j + 1)))
      s := by
  refine h.of_same (.inr ht) (fun _ => rfl) (fun _ _ => rfl) fun i hi ho => ?_
  by_cases hne : b = s.mem (work j)
  · rw [if_neg (not_not.mpr hne)]
    rw [hl] at ho
    rcases ho with hlt | ⟨rfl, hb⟩
    · rw [SaveRole.comparing, if_pos (by omega)]
      exact .inl hlt
    · -- the backup is what the record holds, and the setting equals it
      exact .inr (.inl (hb.symm.trans hne))
  · rw [if_pos hne]
    exact .inl trivial

/-- One more setting is read for the record. -/
theorem saveInv_reads {data : List UInt8} (h : SaveInv roles s)
    (ht : t = wifiThread ∨ t = displayThread) (hl : roles t = .saving data) :
    SaveInv (Function.update roles t (.saving (data ++ [s.mem (work data.length)]))) s := by
  refine h.of_same (.inr ht) (fun _ => rfl) (fun _ _ => rfl) fun i hi ho => .inl ?_
  show (data ++ _).length ≤ i ∨ (data ++ [s.mem (work data.length)]).getD i 0 = s.mem (work i)
  rw [List.length_append, List.length_singleton]
  rcases Nat.lt_trichotomy i data.length with hlt | rfl | hgt
  · rw [hl] at ho
    refine .inr ?_
    rw [List.getD_eq_getElem?_getD, List.getElem?_append_left hlt, ← List.getD_eq_getElem?_getD]
    exact ho.resolve_left (Nat.not_le.mpr hlt)
  · exact .inr (by simp)
  · exact .inl hgt

/-- The record is written. -/
theorem saveInv_writes {data : List UInt8} (h : SaveInv roles s)
    (hlen : data.length = 6)
    (hrecords : ∀ i < 6, data.getD i 0 = s.mem (work i) ∨ ∃ u,
      (Function.update roles t .done u).Owes
        (Board.exec t (.flashWrite sysParaStartAddr data) s).2 i) :
    SaveInv (Function.update roles t .done)
      (Board.exec t (.flashWrite sysParaStartAddr data) s).2 := by
  refine ⟨idle_update h.idle (.inl rfl), fun i hi => (hrecords i hi).imp_left fun heq => ?_⟩
  have hin : sysParaStartAddr ≤ sysParaStartAddr + i ∧
      sysParaStartAddr + i < sysParaStartAddr + data.length := by omega
  show (if _ ∧ _ then data.getD (sysParaStartAddr + i - sysParaStartAddr) 0 else _) = _
  rw [if_pos hin, Nat.add_sub_cancel_left]
  exact heq

/-- One operation of a call that compares or saves. -/
theorem saveInv_late (h : SaveInv roles s) (ht : t = wifiThread ∨ t = displayThread)
    (hlate : ¬ (roles t).Early) {o : Op} (hok : saveDiscipline.ok (roles t) o)
    (hcompare : ∀ i ∈ o.comparesWith, i < 6 →
      s.mem (.deviceWorkDataBak i) = s.flash (sysParaStartAddr + i) ∨ s.Saved i ∨
        ∃ u, u ≠ t ∧ (roles u).Owes s i)
    (hrecords : ∀ data ∈ o.records, ∀ i < 6, data.getD i 0 = s.mem (work i) ∨ ∃ u,
      (Function.update roles t (saveDiscipline.next (roles t) o (Board.exec t o s).1) u).Owes
        (Board.exec t o s).2 i) :
    SaveInv (Function.update roles t (saveDiscipline.next (roles t) o (Board.exec t o s).1))
      (Board.exec t o s).2 := by
  cases hl : roles t with
  | fresh => exact absurd (.inl hl) hlate
  | owes => exact absurd (.inr hl) hlate
  | compare j =>
      rw [hl] at hok
      obtain rfl : o = .load (.deviceWorkDataBak j) := hok
      refine h.of_same (.inr ht) (fun _ => rfl) (fun _ _ => rfl) fun i hi ho => ?_
      rw [hl] at ho
      rcases Nat.eq_or_lt_of_le ho with rfl | hlt
      · exact (hcompare j rfl hi).imp_left fun hb => .inr ⟨rfl, hb⟩
      · exact .inl (.inl hlt)
  | compared j b =>
      rw [hl] at hok
      obtain rfl : o = .load (work j) := hok
      exact saveInv_compared h ht hl
  | changed =>
      rw [hl] at hok
      obtain rfl : o = .flashWrite sysParaFlagAddr [0x86] := hok
      refine h.of_same (.inr ht) (fun _ => rfl) (fun i hi => ?_) fun i _ _ =>
        .inl (.inl (Nat.zero_le i))
      exact if_neg fun hin => absurd hin.2 (Nat.not_lt.mpr (Nat.le_add_right_of_le (by decide)))
  | saving data =>
      rw [hl] at hok
      rcases hok with ⟨-, rfl⟩ | ⟨hlen, rfl⟩
      · exact saveInv_reads h ht hl
      · rw [hl] at hrecords
        exact saveInv_writes h hlen (hrecords data rfl)
  | done =>
      rw [hl] at hok
      cases o with
      | mutexRelease m =>
          exact h.of_same (.inl rfl) (fun _ => rfl) (fun _ _ => rfl) fun i _ ho => by
            rw [hl] at ho
            exact ho.elim
      | _ => exact absurd hok id

end Step

/-- Every operation that the discipline and the condition allow. -/
theorem saveInv_step {tr : List (Label Op Ar Empty)} {s : Board} {t : Nat} {o : Op}
    (h : SaveInv (saveDiscipline.locals saveRoles tr) s)
    (hcond : SaveCond tr s (.op t o (Board.exec t o s).1))
    (hok : saveDiscipline.ok (saveDiscipline.locals saveRoles tr t) o) :
    SaveInv (saveDiscipline.locals saveRoles (tr ++ [.op t o (Board.exec t o s).1]))
      (Board.exec t o s).2 := by
  obtain ⟨hcompare, hrecords⟩ := hcond
  have hcompare' : ∀ i ∈ o.comparesWith, i < 6 →
      s.mem (.deviceWorkDataBak i) = s.flash (sysParaStartAddr + i) ∨ s.Saved i ∨
        ∃ u, u ≠ t ∧ (saveDiscipline.locals saveRoles tr u).Owes s i := fun i hi hlt =>
    (hcompare i hi hlt).imp_right fun h => h.imp_right fun ⟨u, _, hu⟩ => ⟨u, hu⟩
  have hrecords' : ∀ data ∈ o.records, ∀ i < 6, data.getD i 0 = s.mem (work i) ∨ ∃ u,
      (saveDiscipline.locals saveRoles (tr ++ [.op t o (Board.exec t o s).1]) u).Owes
        (Board.exec t o s).2 i := fun data hdata i hi =>
    (hrecords data hdata i hi).imp_right fun ⟨u, _, hu⟩ => ⟨u, hu⟩
  rw [Discipline.locals_snoc_op] at hrecords' ⊢
  by_cases ht : t = wifiThread ∨ t = displayThread
  · by_cases hearly : (saveDiscipline.locals saveRoles tr t).Early
    · exact saveInv_early h ht hearly hok hcompare'
    · exact saveInv_late h ht hearly hok hcompare' hrecords'
  · have hdone : saveDiscipline.locals saveRoles tr t = .done :=
      h.idle t (not_or.mp ht).1 (not_or.mp ht).2
    rw [hdone] at hok ⊢
    cases o with
    | mutexRelease m =>
        exact h.of_same (.inl rfl) (fun _ => rfl) (fun _ _ => rfl) fun i _ ho => by
          rw [hdone] at ho
          exact ho.elim
    | _ => exact absurd hok id

/-- On and in manual mode, with these settings in the record. -/
def Board.recorded : Board :=
  { Board.manual with flash := fun i =>
      if i = sysParaFlagAddr then 0x86 else Board.manual.mem (work (i - sysParaStartAddr)) }

theorem saved_recorded : ∀ i, i < 6 → Board.recorded.Saved i := by
  decide

/-- A command that switches off saves twice, in front of its comparison and behind
it: by the time of the comparison the record holds what the backup does not. -/
example : (twoCommands Board.recorded false 2 0 9 0).endsWith Board.system
    (fun tr s l => decide (SaveCond tr s l)) (List.replicate 96 (.thread wifiThread))
    (fun _ c => (c.threads wifiThread).finished) = true := by
  decide +kernel

end Aclean
