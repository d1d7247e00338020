import Aclean.FactoryDialogue
import Aclean.SettingsRange

/-!
# The factory-reset dialogue

Two loops of `wifi_factory_set` wait for the module's answer. Silence is counted
only while nothing at all has come, and nothing bounds what is stored: a loop
ends, and stays within its 22 bytes, only if the module sends what is expected of
it.

What a store behind the end of `datatmp` does is undefined; the results ask that
there is none.
-/

namespace Aclean.Factory

open Prog

/-! ## What the dialogue depends on -/

/-- What a loop has received behind its wait number `k`. -/
def received (rounds : List (List UInt8)) (k : Nat) : List UInt8 := (rounds.take (k + 1)).flatten

/-- `strncmp(s, t, n) == 0` for a string `s` without its zero. -/
def strncmpEq (s t : List UInt8) (n : Nat) : Bool := ((s ++ [0]).take n).isPrefixOf t

/-- The bytes pass for the answer; the last of them is not compared. -/
def Replied (expected bytes : List UInt8) : Prop :=
  expected.length ≤ bytes.length ∧ strncmpEq expected bytes (bytes.length - 1) = true

instance (expected bytes : List UInt8) : Decidable (Replied expected bytes) :=
  inferInstanceAs (Decidable (_ ∧ _))

/-- Why a loop that has come so far is left behind its wait number `k`, if it is. -/
def leftBehind (expected : List UInt8) (untilZero : Bool) (rounds : List (List UInt8)) (k : Nat) :
    Option Exit :=
  if Replied expected (received rounds k) then some .replied
  else if k = 3 ∧ received rounds k = [] then some .gaveUp
  else if untilZero = true ∧ (rounds.getD k []).getLast? = some 0 then some .zero
  else none

/-! ## What a trace stores and reads -/

/-- Nothing is stored outside `datatmp`. -/
def Sound (tr : List LineOp) : Prop := ∀ i v, .store i v ∈ tr → i < datatmpSize

/-- What is stored lies in `datatmp`, and what is read has been stored since the
last text was sent; before, `w` were. -/
def Within : List Nat → List LineOp → Prop
  | _, [] => True
  | w, .store i _ :: tr => i < datatmpSize ∧ Within (i :: w) tr
  | w, .load i :: tr => i ∈ w ∧ Within w tr
  | _, .send _ :: tr => Within [] tr
  | w, .wait :: tr => Within w tr

/-- The indices stored since the last text was sent. -/
def written : List Nat → List LineOp → List Nat
  | w, [] => w
  | w, .store i _ :: tr => written (i :: w) tr
  | w, .load _ :: tr => written w tr
  | _, .send _ :: tr => written [] tr
  | w, .wait :: tr => written w tr

theorem within_append (w : List Nat) (as bs : List LineOp) :
    Within w (as ++ bs) ↔ Within w as ∧ Within (written w as) bs := by
  induction as generalizing w with
  | nil => exact ⟨fun h => ⟨trivial, h⟩, And.right⟩
  | cons o as ih => cases o <;> simp [Within, written, ih, and_assoc]

theorem written_append (w : List Nat) (as bs : List LineOp) :
    written w (as ++ bs) = written (written w as) bs := by
  induction as generalizing w with
  | nil => rfl
  | cons o as ih => cases o <;> exact ih _

theorem Within.sound {w : List Nat} {tr : List LineOp} (h : Within w tr) : Sound tr := by
  intro i v hmem
  induction tr generalizing w with
  | nil => cases hmem
  | cons o tr ih =>
      cases o with
      | store j u =>
          rcases List.mem_cons.mp hmem with heq | hmem
          · cases heq
            exact h.1
          · exact ih h.2 hmem
      | load j =>
          rcases List.mem_cons.mp hmem with heq | hmem
          · cases heq
          · exact ih h.2 hmem
      | send data =>
          rcases List.mem_cons.mp hmem with heq | hmem
          · cases heq
          · exact ih h hmem
      | wait =>
          rcases List.mem_cons.mp hmem with heq | hmem
          · cases heq
          · exact ih h hmem

theorem Sound.append {as bs : List LineOp} : Sound (as ++ bs) ↔ Sound as ∧ Sound bs := by
  constructor
  · intro h
    exact ⟨fun i v hm => h i v (List.mem_append_left _ hm),
      fun i v hm => h i v (List.mem_append_right _ hm)⟩
  · rintro ⟨ha, hb⟩ i v hm
    rcases List.mem_append.mp hm with hm | hm
    · exact ha i v hm
    · exact hb i v hm

theorem within_loads {w : List Nat} {tr : List LineOp} (h : ∀ o ∈ tr, ∃ i ∈ w, o = .load i) :
    Within w tr ∧ written w tr = w := by
  induction tr with
  | nil => exact ⟨trivial, rfl⟩
  | cons o tr ih =>
      obtain ⟨i, hi, rfl⟩ := h _ (List.mem_cons_self ..)
      obtain ⟨hin, hwritten⟩ := ih fun o ho => h o (List.mem_cons_of_mem _ ho)
      exact ⟨⟨hi, hin⟩, hwritten⟩

/-! ## One round -/

/-- The loop has received `bs` and has it in `datatmp`. -/
structure Holds (bs : List UInt8) (v : ReplyVars) (s : Line) : Prop where
  len : v.len.toNat = bs.length
  bytes : ∀ i (h : i < bs.length), s.datatmp i = bs[i]

theorem Holds.push {bs : List UInt8} {v : ReplyVars} {s : Line} (h : Holds bs v s)
    (hlt : bs.length < 255) (ch : UInt8) :
    Holds (bs ++ [ch]) { v with len := v.len + 1, ch := ch }
      { s with datatmp := Function.update s.datatmp v.len.toNat ch } := by
  refine ⟨?_, fun i hi => ?_⟩
  · simp only [UInt8.toNat_add, h.len, UInt8.toNat_ofNat, List.length_append, List.length_singleton]
    omega
  · rw [List.length_append, List.length_singleton] at hi
    show Function.update s.datatmp v.len.toNat ch i = _
    rw [h.len]
    by_cases hlast : i = bs.length
    · subst hlast
      simp
    · rw [Function.update_of_ne hlast, h.bytes i (by omega), List.getElem_append_left (by omega)]

theorem drain_holds {bytes : List UInt8} : ∀ {bs : List UInt8} {v : ReplyVars} {s : Line},
    Holds bs v s → bs.length + bytes.length ≤ 255 →
      Holds (bs ++ bytes) ((drain bytes v).run line 0 s).1 ((drain bytes v).run line 0 s).2 := by
  induction bytes with
  | nil =>
      intro bs v s h _
      rw [List.append_nil]
      exact h
  | cons ch bytes ih =>
      intro bs v s h hlt
      rw [List.length_cons] at hlt
      have hnext := ih (h.push (by omega) ch) (by simp; omega)
      simpa [drain] using hnext

theorem drain_vars (bytes : List UInt8) (v : ReplyVars) (s : Line) :
    ((drain bytes v).run line 0 s).1.cnt = v.cnt ∧
      ((drain bytes v).run line 0 s).1.ch = bytes.getLast?.getD v.ch ∧
      ((drain bytes v).run line 0 s).2.rounds = s.rounds := by
  induction bytes generalizing v s with
  | nil => exact ⟨rfl, rfl, rfl⟩
  | cons ch bytes ih =>
      obtain ⟨hcnt, hch, hrounds⟩ := ih { v with len := v.len + 1, ch := ch }
        { s with datatmp := Function.update s.datatmp v.len.toNat ch }
      refine ⟨hcnt, ?_, hrounds⟩
      rw [drain, run_op, hch]
      cases bytes <;> simp [List.getLast?_cons]

theorem drain_within {bytes : List UInt8} :
    ∀ {bs : List UInt8} {v : ReplyVars} {s : Line} {w : List Nat},
    Holds bs v s → bs.length + bytes.length ≤ datatmpSize → (∀ i < bs.length, i ∈ w) →
      Within w ((drain bytes v).trace line 0 s) ∧
        ∀ i < bs.length + bytes.length, i ∈ written w ((drain bytes v).trace line 0 s) := by
  induction bytes with
  | nil =>
      intro bs v s w _ _ hw
      exact ⟨trivial, hw⟩
  | cons ch bytes ih =>
      intro bs v s w h hle hw
      rw [List.length_cons] at hle ⊢
      have hlen := h.len
      have hsize : datatmpSize = 22 := rfl
      have hw' : ∀ i < (bs ++ [ch]).length, i ∈ v.len.toNat :: w := by
        intro i hi
        rw [List.length_append, List.length_singleton] at hi
        by_cases hlast : i = bs.length
        · rw [hlast, ← hlen]
          exact List.mem_cons_self ..
        · exact List.mem_cons_of_mem _ (hw i (by omega))
      obtain ⟨hin, hall⟩ := ih (h.push (by omega) ch) (by simp; omega) hw'
      refine ⟨⟨by omega, hin⟩, fun i hi => hall i ?_⟩
      rw [List.length_append, List.length_singleton]
      omega

/-- One byte too many goes behind the end of the buffer. -/
theorem drain_overrun {bytes : List UInt8} : ∀ {bs : List UInt8} {v : ReplyVars} {s : Line},
    Holds bs v s → bs.length ≤ datatmpSize → datatmpSize < bs.length + bytes.length →
      ¬ Sound ((drain bytes v).trace line 0 s) := by
  induction bytes with
  | nil =>
      intro bs v s _ hle hlt
      exact absurd hle (by simpa using hlt)
  | cons ch bytes ih =>
      intro bs v s h hle hlt hsound
      have hsize : datatmpSize = 22 := rfl
      rw [List.length_cons] at hlt
      by_cases hfull : bs.length = datatmpSize
      · have hstore := hsound v.len.toNat ch (List.mem_cons_self ..)
        rw [h.len, hfull] at hstore
        exact absurd hstore (Nat.lt_irrefl _)
      · refine ih (h.push (by omega) ch) (by simp; omega) (by simp; omega) fun i u hm => ?_
        exact hsound i u (List.mem_cons_of_mem _ hm)

/-- `strncmp` on the bytes received is the comparison of lists. -/
theorem run_strncmpZero {expected : List UInt8} (hzero : ∀ c ∈ expected, c ≠ 0) {bs : List UInt8}
    {v : ReplyVars} {s : Line} (h : Holds bs v s) (n : Nat) : ∀ {i : Nat}, i ≤ expected.length →
      i + n ≤ bs.length → (strncmpZero expected i n).run line 0 s =
        ((((expected ++ [0]).drop i).take n).isPrefixOf (bs.drop i), s) := by
  induction n with
  | zero =>
      intro i _ _
      simp [strncmpZero]
  | succ n ih =>
      intro i hi hn
      obtain ⟨c, hload, hbs⟩ : ∃ c, s.datatmp i = c ∧ bs.drop i = c :: bs.drop (i + 1) :=
        ⟨bs[i], h.bytes i (by omega), List.drop_eq_getElem_cons (by omega)⟩
      rw [strncmpZero, run_op]
      show ((if expected.getD i 0 ≠ s.datatmp i then .ret false
        else if s.datatmp i = 0 then .ret true
        else strncmpZero expected (i + 1) n : LineCode Bool)).run line 0 s = _
      rw [hload, hbs]
      rcases Nat.lt_or_eq_of_le hi with hlt | rfl
      · have hexp : (expected ++ [0]).drop i = expected[i] :: (expected ++ [0]).drop (i + 1) := by
          rw [List.drop_eq_getElem_cons (by simp; omega), List.getElem_append_left hlt]
        have hget : expected.getD i 0 = expected[i] := by simp [hlt]
        have hne : expected[i] ≠ 0 := hzero _ (List.getElem_mem hlt)
        rw [hexp, hget, List.take_succ_cons]
        by_cases heq : expected[i] = c
        · rw [if_neg (not_not.mpr heq), if_neg (heq ▸ hne), ih hlt (by omega)]
          simp [List.isPrefixOf, heq]
        · rw [if_pos heq]
          simp [List.isPrefixOf, heq]
      · have hexp : (expected ++ [0]).drop expected.length = [0] := by simp
        have hget : expected.getD expected.length 0 = 0 := by simp
        rw [hexp, hget]
        by_cases heq : (0 : UInt8) = c
        · rw [if_neg (not_not.mpr heq), if_pos heq.symm]
          simp [List.isPrefixOf, ← heq]
        · rw [if_pos heq]
          simp [List.isPrefixOf, heq]

theorem strncmpZero_loads (expected : List UInt8) (n : Nat) : ∀ i, (strncmpZero expected i n).Only
    fun o => ∃ j, j < i + n ∧ o = .load j := by
  induction n with
  | zero => exact fun _ => .ret _
  | succ n ih =>
      intro i
      refine .op ⟨i, by omega, rfl⟩ fun c => (only_ite ..).mpr ⟨fun _ => .ret _, fun _ => ?_⟩
      refine (only_ite ..).mpr ⟨fun _ => .ret _, fun _ => (ih (i + 1)).mono ?_⟩
      rintro o ⟨j, hj, rfl⟩
      exact ⟨j, by omega, rfl⟩

section Round

variable {expected : List UInt8} {v : ReplyVars} {s : Line}

/-- The variables and the module behind the bytes of one wait. -/
def drained (v : ReplyVars) (s : Line) : ReplyVars × Line :=
  (drain (s.rounds.headD []) v).run line 0 { s with rounds := s.rounds.tail }

def drainTrace (v : ReplyVars) (s : Line) : List LineOp :=
  (drain (s.rounds.headD []) v).trace line 0 { s with rounds := s.rounds.tail }

/-- A round stores the bytes and compares. -/
theorem trace_replyRound (expected : List UInt8) (v : ReplyVars) (s : Line) :
    ∃ q, (replyRound expected v).trace line 0 s = .wait :: (drainTrace v s ++ q) ∧
      ∀ o ∈ q, ∃ j, j < (drained v s).1.len.toNat - 1 ∧ o = .load j := by
  refine ⟨(replyCame expected (drained v s).1).trace line 0 (drained v s).2, ?_, fun o ho => ?_⟩
  · simp [replyRound, drainTrace, drained]
  · rw [replyCame, trace_ite] at ho
    by_cases hlen : expected.length ≤ (drained v s).1.len.toNat
    · rw [if_pos hlen] at ho
      obtain ⟨j, hj, rfl⟩ := (strncmpZero_loads expected _ 0).trace _ _ ho
      exact ⟨j, by omega, rfl⟩
    · rw [if_neg hlen] at ho
      cases ho

theorem round_within {bs : List UInt8} (h : Holds bs v s)
    (hle : bs.length + (s.rounds.headD []).length ≤ datatmpSize) {w : List Nat}
    (hw : ∀ i < bs.length, i ∈ w) : Within w ((replyRound expected v).trace line 0 s) ∧
      ∀ i < bs.length + (s.rounds.headD []).length,
        i ∈ written w ((replyRound expected v).trace line 0 s) := by
  have hsize : datatmpSize = 22 := rfl
  have h' : Holds bs v { s with rounds := s.rounds.tail } := ⟨h.len, h.bytes⟩
  obtain ⟨q, htrace, hq⟩ := trace_replyRound expected v s
  obtain ⟨hin, hall⟩ := drain_within h' hle hw
  have hdrained : Holds (bs ++ s.rounds.headD []) (drained v s).1 (drained v s).2 :=
    drain_holds h' (by omega)
  have hlen := hdrained.len
  rw [List.length_append] at hlen
  have hloads : ∀ o ∈ q, ∃ i ∈ written w (drainTrace v s), o = .load i := by
    intro o ho
    obtain ⟨j, hj, rfl⟩ := hq o ho
    refine ⟨j, hall j ?_, rfl⟩
    rw [hlen] at hj
    omega
  obtain ⟨hqin, hqwritten⟩ := within_loads hloads
  have happ : written w (.wait :: (drainTrace v s ++ q)) = written w (drainTrace v s) := by
    show written w (drainTrace v s ++ q) = _
    rw [written_append, hqwritten]
  rw [htrace, happ]
  exact ⟨(within_append w _ _).mpr ⟨hin, hqin⟩, hall⟩

theorem run_replyCame (hzero : ∀ c ∈ expected, c ≠ 0) {bs : List UInt8} (h : Holds bs v s) :
    (replyCame expected v).run line 0 s = (decide (Replied expected bs), s) := by
  rw [replyCame, run_ite, h.len]
  by_cases hexp : expected.length ≤ bs.length
  · rw [if_pos hexp, run_strncmpZero hzero h _ (Nat.zero_le _) (by omega)]
    refine Prod.ext (Bool.eq_iff_iff.mpr ⟨fun h => decide_eq_true ⟨hexp, h⟩, fun h => ?_⟩) rfl
    exact (of_decide_eq_true h).2
  · rw [if_neg hexp]
    simp [Replied, hexp]

theorem run_replyRound (hzero : ∀ c ∈ expected, c ≠ 0) {bs : List UInt8}
    (h : Holds bs (drained v s).1 (drained v s).2) : (replyRound expected v).run line 0 s =
      (if Replied expected bs then ((drained v s).1, some .replied)
        else ((drained v s).1.counted,
          if (drained v s).1.counted.cnt > 3 then some .gaveUp else none), (drained v s).2) := by
  have hrun : (replyRound expected v).run line 0 s = (do
      let replied ← replyCame expected (drained v s).1
      if replied then .ret ((drained v s).1, some .replied)
      else .ret ((drained v s).1.counted,
        if (drained v s).1.counted.cnt > 3 then some .gaveUp else none) :
          LineCode (ReplyVars × Option Exit)).run line 0 (drained v s).2 := by
    simp [replyRound, drained]
  rw [hrun, run_bind, run_replyCame hzero h]
  by_cases hreplied : Replied expected bs
  · simp [hreplied]
  · simp [hreplied]

end Round

/-! ## A loop -/

theorem received_eq (rounds : List (List UInt8)) (k : Nat) :
    received rounds k = (rounds.take k).flatten ++ rounds.getD k [] := by
  rw [received, List.take_add_one, List.flatten_append]
  rcases h : rounds[k]? with _ | g
  · simp [List.getD_eq_getElem?_getD, h]
  · simp [List.getD_eq_getElem?_getD, h]

theorem flatten_of_received_nil {rounds : List (List UInt8)} {k : Nat}
    (h : received rounds k = []) : (rounds.take k).flatten = [] := by
  rw [received_eq] at h
  exact (List.append_eq_nil_iff.mp h).1

/-- A loop has done `k` of its rounds and goes on. -/
structure Waiting (untilZero : Bool) (rounds : List (List UInt8)) (k : Nat) (v : ReplyVars)
    (s : Line) : Prop where
  holds : Holds (rounds.take k).flatten v s
  fits : (rounds.take k).flatten.length ≤ datatmpSize
  rest : s.rounds = rounds.drop k
  silent : (rounds.take k).flatten = [] → v.cnt.toNat = k
  cnt : v.cnt.toNat ≤ 3
  ch : untilZero = true → v.ch ≠ 0

theorem waiting_start (untilZero : Bool) (s : Line) :
    Waiting untilZero s.rounds 0 loopStart s where
  holds := ⟨rfl, fun i hi => absurd hi (Nat.not_lt_zero i)⟩
  fits := Nat.zero_le _
  rest := rfl
  silent := fun _ => rfl
  cnt := by decide
  ch := fun _ => by decide

section Loop

variable {expected : List UInt8} {untilZero : Bool} {rounds : List (List UInt8)} {k : Nat}
  {v : ReplyVars} {s : Line}

theorem Waiting.group (h : Waiting untilZero rounds k v s) :
    s.rounds.headD [] = rounds.getD k [] ∧ s.rounds.tail = rounds.drop (k + 1) := by
  rw [h.rest]
  constructor
  · rw [List.getD_eq_getElem?_getD, List.headD_eq_head?_getD, List.head?_drop]
  · rw [List.tail_drop]

theorem Waiting.drained (h : Waiting untilZero rounds k v s)
    (hfits : (received rounds k).length ≤ datatmpSize) :
    Holds (received rounds k) (drained v s).1 (drained v s).2 := by
  have hsize : datatmpSize = 22 := rfl
  have h' : Holds (rounds.take k).flatten v { s with rounds := s.rounds.tail } :=
    ⟨h.holds.len, h.holds.bytes⟩
  rw [received_eq] at hfits ⊢
  rw [List.length_append] at hfits
  rw [← h.group.1] at hfits ⊢
  exact drain_holds h' (by omega)

theorem replyLoop_zero (hz : untilZero = true) (hch : v.ch = 0) (n : Nat) :
    replyLoop expected untilZero n v = .ret (some .zero) := by
  cases n with
  | zero => rw [replyLoop, if_pos ⟨hz, hch⟩]
  | succ n => rw [replyLoop, if_pos ⟨hz, hch⟩]

theorem Waiting.counted (h : Waiting untilZero rounds k v s)
    (hfits : (received rounds k).length ≤ datatmpSize) :
    (received rounds k = [] → (Factory.drained v s).1.counted.cnt.toNat = k + 1) ∧
      (received rounds k ≠ [] → (Factory.drained v s).1.counted.cnt = v.cnt) := by
  have hcnt : (Factory.drained v s).1.cnt = v.cnt := (drain_vars _ v _).1
  have hlen := (h.drained hfits).len
  constructor
  · intro hnil
    have hbefore := flatten_of_received_nil hnil
    have hzero : (Factory.drained v s).1.len = 0 := by
      rw [← UInt8.toNat_inj, hlen, hnil]
      rfl
    have hk := h.silent hbefore
    have hle := h.cnt
    rw [ReplyVars.counted, if_pos hzero, hcnt, UInt8.toNat_add, hk]
    simp only [UInt8.toNat_ofNat]
    omega
  · intro hne
    have hpos : (Factory.drained v s).1.len ≠ 0 := by
      intro hzero
      rw [hzero] at hlen
      exact hne (List.length_eq_zero_iff.mp hlen.symm)
    rw [ReplyVars.counted, if_neg hpos, hcnt]

/-- The loop gives up where the fourth wait has ended in silence. -/
theorem Waiting.gaveUp_iff (h : Waiting untilZero rounds k v s)
    (hfits : (received rounds k).length ≤ datatmpSize) :
    (Factory.drained v s).1.counted.cnt > 3 ↔ k = 3 ∧ received rounds k = [] := by
  obtain ⟨hsilent, hheard⟩ := h.counted hfits
  have hle := h.cnt
  show (3 : UInt8) < (Factory.drained v s).1.counted.cnt ↔ _
  rw [UInt8.lt_iff_toNat_lt]
  show 3 < (Factory.drained v s).1.counted.cnt.toNat ↔ _
  by_cases hnil : received rounds k = []
  · have hk := h.silent (flatten_of_received_nil hnil)
    rw [hsilent hnil, and_iff_left hnil]
    omega
  · rw [hheard hnil]
    exact iff_of_false (by omega) fun hquiet => hnil hquiet.2

/-- The last byte read is 0 where the last byte of this wait is. -/
theorem Waiting.ch_iff (h : Waiting untilZero rounds k v s) (hz : untilZero = true) :
    (Factory.drained v s).1.counted.ch = 0 ↔ (rounds.getD k []).getLast? = some 0 := by
  have hch : (Factory.drained v s).1.counted.ch = (rounds.getD k []).getLast?.getD v.ch := by
    rw [← h.group.1]
    exact (drain_vars _ v _).2.1
  rw [hch]
  rcases (rounds.getD k []).getLast? with _ | c
  · exact iff_of_false (h.ch hz) fun hc => by cases hc
  · exact ⟨fun hc => congrArg some hc, fun hc => Option.some.inj hc⟩

theorem Waiting.replyLoop_succ (h : Waiting untilZero rounds k v s) (n : Nat) :
    replyLoop expected untilZero (n + 1) v = (do
      let r ← replyRound expected v
      match r.2 with
      | some exit => .ret (some exit)
      | none => replyLoop expected untilZero n r.1) := by
  have hgoing : ¬ (untilZero = true ∧ v.ch = 0) := fun hz => h.ch hz.1 hz.2
  exact if_neg hgoing

/-- The step: behind its wait number `k` the loop is left, or goes on waiting. -/
theorem Waiting.step (hzero : ∀ c ∈ expected, c ≠ 0) (h : Waiting untilZero rounds k v s)
    (hfits : (received rounds k).length ≤ datatmpSize) (n : Nat) :
    (∀ exit, leftBehind expected untilZero rounds k = some exit →
      ∃ u : Line, u.rounds = rounds.drop (k + 1) ∧
        (replyLoop expected untilZero (n + 1) v).run line 0 s = (some exit, u) ∧
        (replyLoop expected untilZero (n + 1) v).trace line 0 s =
          (replyRound expected v).trace line 0 s) ∧
    (leftBehind expected untilZero rounds k = none →
      ∃ v' s', Waiting untilZero rounds (k + 1) v' s' ∧
        (replyLoop expected untilZero (n + 1) v).run line 0 s =
          (replyLoop expected untilZero n v').run line 0 s' ∧
        (replyLoop expected untilZero (n + 1) v).trace line 0 s =
          (replyRound expected v).trace line 0 s ++
            (replyLoop expected untilZero n v').trace line 0 s') := by
  have hholds := h.drained hfits
  have hrest : (Factory.drained v s).2.rounds = rounds.drop (k + 1) :=
    (drain_vars (s.rounds.headD []) v { s with rounds := s.rounds.tail }).2.2.trans h.group.2
  have hover := h.gaveUp_iff hfits
  have hch := h.ch_iff
  obtain ⟨hsilent, -⟩ := h.counted hfits
  rw [h.replyLoop_succ, run_bind, trace_bind, run_replyRound hzero hholds, leftBehind]
  generalize Factory.drained v s = d at hholds hrest hover hch hsilent ⊢
  by_cases hreplied : Replied expected (received rounds k)
  · rw [if_pos hreplied, if_pos hreplied]
    refine ⟨?_, nofun⟩
    rintro exit ⟨⟩
    exact ⟨d.2, hrest, rfl, List.append_nil _⟩
  rw [if_neg hreplied, if_neg hreplied]
  by_cases hquiet : k = 3 ∧ received rounds k = []
  · rw [if_pos hquiet, if_pos (hover.mpr hquiet)]
    refine ⟨?_, nofun⟩
    rintro exit ⟨⟩
    exact ⟨d.2, hrest, rfl, List.append_nil _⟩
  have hunder := mt hover.mp hquiet
  rw [if_neg hquiet, if_neg hunder]
  by_cases hend : untilZero = true ∧ (rounds.getD k []).getLast? = some 0
  · rw [if_pos hend]
    have hleft : replyLoop expected untilZero n d.1.counted = .ret (some .zero) :=
      replyLoop_zero hend.1 ((hch hend.1).mpr hend.2) n
    refine ⟨?_, nofun⟩
    rintro exit ⟨⟩
    refine ⟨d.2, hrest, ?_, ?_⟩
    · show (replyLoop expected untilZero n d.1.counted).run line 0 d.2 = _
      rw [hleft]
      rfl
    · show _ ++ (replyLoop expected untilZero n d.1.counted).trace line 0 d.2 = _
      rw [hleft]
      exact List.append_nil _
  · rw [if_neg hend]
    refine ⟨nofun, fun _ => ⟨d.1.counted, d.2, ?_, rfl, rfl⟩⟩
    have hcnt : d.1.counted.cnt.toNat ≤ 3 :=
      Nat.not_lt.mp fun hlt => hunder (UInt8.lt_iff_toNat_lt.mpr hlt)
    exact ⟨⟨hholds.len, hholds.bytes⟩, hfits, hrest, hsilent, hcnt,
      fun htrue hc => hend ⟨htrue, (hch htrue).mp hc⟩⟩

/-- The 23rd byte is stored behind the end. -/
theorem Waiting.overrun (h : Waiting untilZero rounds k v s)
    (hlong : datatmpSize < (received rounds k).length) (n : Nat) :
    ¬ Sound ((replyLoop expected untilZero (n + 1) v).trace line 0 s) := by
  have hgoing : ¬ (untilZero = true ∧ v.ch = 0) := fun hz => h.ch hz.1 hz.2
  have h' : Holds (rounds.take k).flatten v { s with rounds := s.rounds.tail } :=
    ⟨h.holds.len, h.holds.bytes⟩
  obtain ⟨q, htrace, -⟩ := trace_replyRound expected v s
  rw [received_eq, List.length_append, ← h.group.1] at hlong
  rw [replyLoop, if_neg hgoing, trace_bind, htrace]
  intro hsound
  refine drain_overrun h' h.fits hlong fun i u hm => hsound i u ?_
  exact List.mem_append_left _ (List.mem_cons_of_mem _ (List.mem_append_left _ hm))

theorem length_received_succ (rounds : List (List UInt8)) (k : Nat) :
    (received rounds k).length ≤ (received rounds (k + 1)).length := by
  rw [received_eq rounds (k + 1), List.length_append]
  exact Nat.le_add_right _ _

theorem length_received_mono (rounds : List (List UInt8)) {j k : Nat} (h : j ≤ k) :
    (received rounds j).length ≤ (received rounds k).length := by
  induction h with
  | refl => exact Nat.le_refl _
  | step _ ih => exact ih.trans (length_received_succ rounds _)

/-- The loop waits on behind all its waits before number `m`. -/
def WaitsUntil (expected : List UInt8) (untilZero : Bool) (rounds : List (List UInt8)) (m : Nat) :
    Prop :=
  ∀ j < m, leftBehind expected untilZero rounds j = none

/-- The loop is left behind its wait number `m`, for this reason. -/
structure LeftAt (expected : List UInt8) (untilZero : Bool) (rounds : List (List UInt8)) (m : Nat)
    (exit : Exit) : Prop where
  waits : WaitsUntil expected untilZero rounds m
  left : leftBehind expected untilZero rounds m = some exit

theorem WaitsUntil.succ (h : WaitsUntil expected untilZero rounds k)
    (hk : leftBehind expected untilZero rounds k = none) :
    WaitsUntil expected untilZero rounds (k + 1) := by
  intro j hj
  rcases Nat.lt_or_eq_of_le (Nat.le_of_lt_succ hj) with hlt | rfl
  · exact h j hlt
  · exact hk

/-- With rounds enough the loop is left where its input says so. -/
theorem Waiting.left (hzero : ∀ c ∈ expected, c ≠ 0) {exit : Exit} (d e : Nat) :
    ∀ {k : Nat} {v : ReplyVars} {s : Line}, Waiting untilZero rounds k v s →
      LeftAt expected untilZero rounds (k + d) exit →
      (received rounds (k + d)).length ≤ datatmpSize →
      ∃ u : Line, u.rounds = rounds.drop (k + d + 1) ∧
        (replyLoop expected untilZero (d + e + 1) v).run line 0 s = (some exit, u) := by
  -- on the waits still to come
  induction d with
  | zero =>
      intro k v s h hleft hfits
      obtain ⟨u, hu, hrun, -⟩ := (h.step hzero hfits (0 + e)).1 exit hleft.left
      exact ⟨u, hu, hrun⟩
  | succ d ih =>
      intro k v s h hleft hfits
      have hfits' : (received rounds k).length ≤ datatmpSize :=
        (length_received_mono rounds (by omega)).trans hfits
      obtain ⟨v', s', h', hrun, -⟩ := (h.step hzero hfits' (d + 1 + e)).2
        (hleft.waits k (by omega))
      have hk : k + 1 + d = k + (d + 1) := by omega
      have hn : d + e + 1 = d + 1 + e := by omega
      rw [← hk] at hleft hfits ⊢
      rw [hrun, ← hn]
      exact ih h' hleft hfits

/-- And it is left nowhere else, as long as nothing is stored behind the end. -/
theorem Waiting.of_left (hzero : ∀ c ∈ expected, c ≠ 0) {exit : Exit} {u : Line} {n : Nat} :
    ∀ {k : Nat} {v : ReplyVars} {s : Line}, Waiting untilZero rounds k v s →
      WaitsUntil expected untilZero rounds k →
      Sound ((replyLoop expected untilZero n v).trace line 0 s) →
      (replyLoop expected untilZero n v).run line 0 s = (some exit, u) →
      ∃ m, LeftAt expected untilZero rounds m exit ∧
        (received rounds m).length ≤ datatmpSize ∧ u.rounds = rounds.drop (m + 1) := by
  induction n with
  | zero =>
      intro k v s h _ _ hrun
      have hgoing : ¬ (untilZero = true ∧ v.ch = 0) := fun hz => h.ch hz.1 hz.2
      rw [replyLoop, if_neg hgoing] at hrun
      cases hrun
  | succ n ih =>
      intro k v s h hwaits hsound hrun
      have hfits : (received rounds k).length ≤ datatmpSize := by
        by_contra hlong
        exact h.overrun (Nat.lt_of_not_le hlong) n hsound
      obtain ⟨hleft, hgoes⟩ := h.step hzero hfits n
      rcases hbehind : leftBehind expected untilZero rounds k with _ | exit'
      · obtain ⟨v', s', h', hrun', htrace⟩ := hgoes hbehind
        rw [htrace] at hsound
        rw [hrun'] at hrun
        exact ih h' (hwaits.succ hbehind) (Sound.append.mp hsound).2 hrun
      · obtain ⟨u', hu', hrun', -⟩ := hleft exit' hbehind
        rw [hrun] at hrun'
        cases hrun'
        exact ⟨k, ⟨hwaits, hbehind⟩, hfits, hu'⟩

/-- No more than 22 bytes come before the loop is left. -/
def LoopFits (expected : List UInt8) (untilZero : Bool) (rounds : List (List UInt8)) : Prop :=
  ∀ m, WaitsUntil expected untilZero rounds m → (received rounds m).length ≤ datatmpSize

theorem LeftAt.fits {m : Nat} {exit : Exit} (h : LeftAt expected untilZero rounds m exit)
    (hfits : (received rounds m).length ≤ datatmpSize) : LoopFits expected untilZero rounds := by
  intro j hj
  refine (length_received_mono rounds ?_).trans hfits
  by_contra hlt
  have hnone := hj m (Nat.lt_of_not_le hlt)
  rw [h.left] at hnone
  cases hnone

theorem Waiting.within (hzero : ∀ c ∈ expected, c ≠ 0)
    (hfits : LoopFits expected untilZero rounds) (n : Nat) :
    ∀ {k : Nat} {v : ReplyVars} {s : Line} {w : List Nat}, Waiting untilZero rounds k v s →
      WaitsUntil expected untilZero rounds k → (∀ i < (rounds.take k).flatten.length, i ∈ w) →
      Within w ((replyLoop expected untilZero n v).trace line 0 s) := by
  induction n with
  | zero => exact fun _ _ _ => trivial
  | succ n ih =>
      intro k v s w h hwaits hw
      have hlen := hfits k hwaits
      have hround : (rounds.take k).flatten.length + (s.rounds.headD []).length =
          (received rounds k).length := by
        rw [received_eq, List.length_append, h.group.1]
      obtain ⟨hin, hall⟩ : Within w ((replyRound expected v).trace line 0 s) ∧
          ∀ i < (rounds.take k).flatten.length + (s.rounds.headD []).length,
            i ∈ written w ((replyRound expected v).trace line 0 s) :=
        round_within h.holds (by omega) hw
      obtain ⟨hleft, hgoes⟩ := h.step hzero hlen n
      rcases hbehind : leftBehind expected untilZero rounds k with _ | exit
      · obtain ⟨v', s', h', -, htrace⟩ := hgoes hbehind
        rw [htrace, within_append]
        refine ⟨hin, ih h' (hwaits.succ hbehind) fun i hi => hall i ?_⟩
        rw [hround]
        exact hi
      · obtain ⟨u, -, -, htrace⟩ := hleft exit hbehind
        rw [htrace]
        exact hin

/-- With a byte too many before it is left. -/
theorem Waiting.overruns (hzero : ∀ c ∈ expected, c ≠ 0) (d e : Nat) :
    ∀ {k : Nat} {v : ReplyVars} {s : Line}, Waiting untilZero rounds k v s →
      WaitsUntil expected untilZero rounds (k + d) →
      datatmpSize < (received rounds (k + d)).length →
      ¬ Sound ((replyLoop expected untilZero (d + e + 1) v).trace line 0 s) := by
  induction d with
  | zero => exact fun h _ hlong => h.overrun hlong (0 + e)
  | succ d ih =>
      intro k v s h hwaits hlong hsound
      by_cases hfits : (received rounds k).length ≤ datatmpSize
      · obtain ⟨v', s', h', -, htrace⟩ := (h.step hzero hfits (d + 1 + e)).2
          (hwaits k (by omega))
        have hk : k + 1 + d = k + (d + 1) := by omega
        have hn : d + e + 1 = d + 1 + e := by omega
        rw [← hk] at hwaits hlong
        rw [htrace, ← hn] at hsound
        exact ih h' hwaits hlong (Sound.append.mp hsound).2
      · exact h.overrun (Nat.lt_of_not_le hfits) _ hsound

theorem leftBehind_first (expected : List UInt8) (rounds : List (List UInt8)) (k : Nat) :
    leftBehind expected false rounds k ≠ some .zero := by
  unfold leftBehind
  split_ifs with h1 h2 h3
  · decide
  · decide
  · exact absurd h3.1 (by decide)
  · decide

/-! ### From its start -/

theorem start_left (hzero : ∀ c ∈ expected, c ≠ 0) {exit : Exit} {m : Nat}
    (h : LeftAt expected untilZero s.rounds m exit)
    (hfits : (received s.rounds m).length ≤ datatmpSize) (e : Nat) :
    ∃ u : Line, u.rounds = s.rounds.drop (m + 1) ∧
      (replyLoop expected untilZero (m + e + 1) loopStart).run line 0 s = (some exit, u) := by
  rw [← Nat.zero_add m] at h hfits
  obtain ⟨u, hu, hrun⟩ := (waiting_start untilZero s).left hzero m e h hfits
  rw [Nat.zero_add] at hu
  exact ⟨u, hu, hrun⟩

theorem start_of_left (hzero : ∀ c ∈ expected, c ≠ 0) {exit : Exit} {u : Line} {n : Nat}
    (hsound : Sound ((replyLoop expected untilZero n loopStart).trace line 0 s))
    (hrun : (replyLoop expected untilZero n loopStart).run line 0 s = (some exit, u)) :
    ∃ m, LeftAt expected untilZero s.rounds m exit ∧
      (received s.rounds m).length ≤ datatmpSize ∧ u.rounds = s.rounds.drop (m + 1) :=
  (waiting_start untilZero s).of_left hzero (fun j hj => absurd hj (Nat.not_lt_zero j)) hsound hrun

theorem start_within (hzero : ∀ c ∈ expected, c ≠ 0)
    (hfits : LoopFits expected untilZero s.rounds) (n : Nat) :
    Within [] ((replyLoop expected untilZero n loopStart).trace line 0 s) :=
  (waiting_start untilZero s).within hzero hfits n (fun j hj => absurd hj (Nat.not_lt_zero j))
    fun i hi => absurd hi (Nat.not_lt_zero i)

theorem start_overruns (hzero : ∀ c ∈ expected, c ≠ 0)
    (h : ¬ LoopFits expected untilZero rounds) : ∃ m, ∀ s : Line, s.rounds = rounds →
      ∀ e, ¬ Sound ((replyLoop expected untilZero (m + e + 1) loopStart).trace line 0 s) := by
  rw [LoopFits, not_forall] at h
  obtain ⟨m, hm⟩ := h
  obtain ⟨hwaits, hlong⟩ := Classical.not_imp.mp hm
  rw [← Nat.zero_add m] at hwaits hlong
  refine ⟨m, ?_⟩
  rintro s rfl e
  exact (waiting_start untilZero s).overruns hzero m e hwaits (Nat.lt_of_not_le hlong)

end Loop

/-! ## Both loops -/

/-- The first loop, with so many rounds at most. -/
abbrev firstLoop (n : Nat) : LineCode (Option Exit) :=
  replyLoop wifiEnterAtModeReturn false n loopStart

abbrev secondLoop (n : Nat) : LineCode (Option Exit) :=
  replyLoop wifiSetFactoryReturn true n loopStart

theorem enterAtModeReturn_ne_zero : ∀ c ∈ wifiEnterAtModeReturn, c ≠ 0 := by
  simp [wifiEnterAtModeReturn]

theorem setFactoryReturn_ne_zero : ∀ c ∈ wifiSetFactoryReturn, c ≠ 0 := by
  simp [wifiSetFactoryReturn]

section Both

variable {n : Nat} {s u : Line}

theorem wifiFactorySet_waiting (h : (firstLoop n).run line 0 s = (none, u)) :
    ((wifiFactorySet n).run line 0 s).1 = false ∧
      (wifiFactorySet n).trace line 0 s =
        .send wifiEnterAtMode :: (firstLoop n).trace line 0 s := by
  constructor
  · simp [wifiFactorySet, h]
  · simp [wifiFactorySet, h]

theorem wifiFactorySet_gaveUp (h : (firstLoop n).run line 0 s = (some .gaveUp, u)) :
    ((wifiFactorySet n).run line 0 s).1 = true ∧
      (wifiFactorySet n).trace line 0 s =
        .send wifiEnterAtMode :: (firstLoop n).trace line 0 s := by
  constructor
  · simp [wifiFactorySet, h]
  · simp [wifiFactorySet, h]

theorem wifiFactorySet_replied (h : (firstLoop n).run line 0 s = (some .replied, u)) :
    ((wifiFactorySet n).run line 0 s).1 = ((secondLoop n).run line 0 u).1.isSome ∧
      (wifiFactorySet n).trace line 0 s = .send wifiEnterAtMode ::
        ((firstLoop n).trace line 0 s ++
          .send wifiSetFactory :: (secondLoop n).trace line 0 u) := by
  constructor
  · simp [wifiFactorySet, h]
  · simp [wifiFactorySet, h]

/-- Whatever comes behind it, the first loop comes first. -/
theorem trace_firstLoop (n : Nat) (s : Line) : ∃ q, (wifiFactorySet n).trace line 0 s =
    .send wifiEnterAtMode :: ((firstLoop n).trace line 0 s ++ q) := by
  rw [wifiFactorySet, op_bind, trace_op, ret_bind, trace_bind]
  exact ⟨_, rfl⟩

theorem sound_send {data : List UInt8} {tr : List LineOp} :
    Sound (.send data :: tr) ↔ Sound tr := by
  have happ : Sound ([.send data] ++ tr) ↔ Sound [.send data] ∧ Sound tr := Sound.append
  rw [List.singleton_append] at happ
  rw [happ, and_iff_right]
  intro i v hm
  cases List.mem_singleton.mp hm

/-- How the first loop ends, if it does. -/
theorem firstLoop_left {exit : Exit} (hsound : Sound ((firstLoop n).trace line 0 s))
    (h : (firstLoop n).run line 0 s = (some exit, u)) : exit ≠ .zero ∧ ∃ m,
      LeftAt wifiEnterAtModeReturn false s.rounds m exit ∧
        (received s.rounds m).length ≤ datatmpSize ∧ u.rounds = s.rounds.drop (m + 1) := by
  obtain ⟨m, hleft, hfits, hu⟩ := start_of_left enterAtModeReturn_ne_zero hsound h
  refine ⟨?_, m, hleft, hfits, hu⟩
  rintro rfl
  exact leftBehind_first _ _ _ hleft.left

theorem sound_firstLoop (h : Sound ((wifiFactorySet n).trace line 0 s)) :
    Sound ((firstLoop n).trace line 0 s) := by
  obtain ⟨q, htrace⟩ := trace_firstLoop n s
  rw [htrace, sound_send, Sound.append] at h
  exact h.1

theorem sound_secondLoop (hrun : (firstLoop n).run line 0 s = (some .replied, u))
    (h : Sound ((wifiFactorySet n).trace line 0 s)) : Sound ((secondLoop n).trace line 0 u) := by
  rw [(wifiFactorySet_replied hrun).2, sound_send, Sound.append, sound_send] at h
  exact h.2

end Both

/-! ## The buffer -/

/-- **When the reply buffer is not overrun**: in each of the two loops at most 22
bytes come before the loop is left. -/
theorem reply_buffer_iff (s : Line) : (∀ n, Within [] ((wifiFactorySet n).trace line 0 s)) ↔
    LoopFits wifiEnterAtModeReturn false s.rounds ∧
      ∀ m, LeftAt wifiEnterAtModeReturn false s.rounds m .replied →
        LoopFits wifiSetFactoryReturn true (s.rounds.drop (m + 1)) := by
  have hfirst := enterAtModeReturn_ne_zero
  have hsecond := setFactoryReturn_ne_zero
  constructor
  · intro hwithin
    have hfits : LoopFits wifiEnterAtModeReturn false s.rounds := by
      by_contra hlong
      obtain ⟨m, hm⟩ := start_overruns hfirst hlong
      exact hm s rfl 0 (sound_firstLoop (hwithin (m + 0 + 1)).sound)
    refine ⟨hfits, fun m hleft => ?_⟩
    by_contra hlong
    obtain ⟨m', hm'⟩ := start_overruns hsecond hlong
    -- rounds enough for both loops
    obtain ⟨u, hu, hrun⟩ := start_left hfirst hleft (hfits m hleft.waits) m'
    refine hm' u hu m ?_
    rw [Nat.add_comm m' m]
    exact sound_secondLoop hrun (hwithin (m + m' + 1)).sound
  · rintro ⟨hfits, hthen⟩ n
    have hwithin := start_within hfirst hfits n
    rcases hrun : (firstLoop n).run line 0 s with ⟨_ | exit, u⟩
    · rw [(wifiFactorySet_waiting hrun).2]
      exact hwithin
    · obtain ⟨hzero, m, hleft, -, hu⟩ := firstLoop_left hwithin.sound hrun
      cases exit with
      | zero => exact absurd rfl hzero
      | gaveUp =>
          rw [(wifiFactorySet_gaveUp hrun).2]
          exact hwithin
      | replied =>
          have hloop := hthen m hleft
          rw [← hu] at hloop
          rw [(wifiFactorySet_replied hrun).2, Within, within_append]
          exact ⟨hwithin, start_within hsecond hloop n⟩

/-- 23 bytes, and none of them an answer. -/
theorem reply_buffer_counterexample :
    ¬ ∀ n, Within [] ((wifiFactorySet n).trace line 0 ⟨[List.replicate 23 0x78], fun _ => 0⟩) := by
  intro h
  have hstore := (h 1).sound 22 0x78 (by decide)
  exact absurd hstore (by decide)

/-! ## The end -/

/-- The dialogue comes to its end, and nothing is stored behind the end of the
buffer. -/
def Returns (s : Line) : Prop :=
  ∃ n, ((wifiFactorySet n).run line 0 s).1 = true ∧ Sound ((wifiFactorySet n).trace line 0 s)

/-- The loop is left for this reason behind wait number `m`, with at most 22 bytes. -/
structure Ends (expected : List UInt8) (untilZero : Bool) (rounds : List (List UInt8)) (m : Nat)
    (exit : Exit) : Prop where
  left : LeftAt expected untilZero rounds m exit
  fits : (received rounds m).length ≤ datatmpSize

/-- Both loops end; the second one is not entered if nothing came in the first. -/
def DialogueEnds (rounds : List (List UInt8)) : Prop :=
  ∃ m exit, Ends wifiEnterAtModeReturn false rounds m exit ∧
    (exit = .replied → ∃ m' exit', Ends wifiSetFactoryReturn true (rounds.drop (m + 1)) m' exit')

theorem returns_iff (s : Line) : Returns s ↔ DialogueEnds s.rounds := by
  have hfirst := enterAtModeReturn_ne_zero
  have hsecond := setFactoryReturn_ne_zero
  constructor
  · rintro ⟨n, hret, hsound⟩
    rcases hrun : (firstLoop n).run line 0 s with ⟨_ | exit, u⟩
    · rw [(wifiFactorySet_waiting hrun).1] at hret
      cases hret
    · obtain ⟨-, m, hleft, hfits, hu⟩ := firstLoop_left (sound_firstLoop hsound) hrun
      refine ⟨m, exit, ⟨hleft, hfits⟩, ?_⟩
      rintro rfl
      rw [(wifiFactorySet_replied hrun).1] at hret
      obtain ⟨exit', hexit'⟩ := Option.isSome_iff_exists.mp hret
      obtain ⟨m', hleft', hfits', -⟩ := start_of_left hsecond (sound_secondLoop hrun hsound)
        (Prod.ext hexit' rfl : _ = (some exit', ((secondLoop n).run line 0 u).2))
      rw [hu] at hleft' hfits'
      exact ⟨m', exit', hleft', hfits'⟩
  · rintro ⟨m, exit, ⟨hleft, hfits⟩, hthen⟩
    have hwithin := start_within hfirst (hleft.fits hfits)
    cases exit with
    | zero => exact absurd hleft.left (leftBehind_first _ _ _)
    | gaveUp =>
        obtain ⟨u, -, hrun⟩ := start_left hfirst hleft hfits 0
        obtain ⟨hret, htrace⟩ := wifiFactorySet_gaveUp hrun
        refine ⟨_, hret, ?_⟩
        rw [htrace, sound_send]
        exact (hwithin _).sound
    | replied =>
        obtain ⟨m', exit', hleft', hfits'⟩ := hthen rfl
        obtain ⟨u, hu, hrun⟩ := start_left hfirst hleft hfits m'
        rw [← hu] at hleft' hfits'
        obtain ⟨u', -, hrun'⟩ := start_left hsecond hleft' hfits' m
        rw [Nat.add_comm m' m] at hrun'
        obtain ⟨hret, htrace⟩ := wifiFactorySet_replied hrun
        refine ⟨m + m' + 1, ?_, ?_⟩
        · rw [hret, hrun']
          rfl
        · rw [htrace, sound_send, Sound.append, sound_send]
          exact ⟨(hwithin _).sound, (start_within hsecond (hleft'.fits hfits') _).sound⟩

/-! ### The caller -/

/-- The display asks for the reset: an F2 reply with that bit set. -/
structure AsksReset (s : Board) : Prop where
  code : s.reply.code = .revData
  framed : FramedF2 s.replyBuffer
  bit : s.replyBuffer 30 &&& FaultBit.resetWifi.mask ≠ 0

/-- `get_display_board_data` comes to its end, which it does if the factory reset
does that it calls, and has released the bus. -/
structure ReleasesBus (wifi : Line) (t : Nat) (s : Board) : Prop where
  returns : .note .wifiFactorySet ∈ (getDisplayBoardData exchange).trace Board.machine t s →
    Returns wifi
  released : ((getDisplayBoardData exchange).run Board.machine t s).2.mutex .modbus = none

theorem run_lockless {α : Type} {p : Code α} (h : p.Only Op.Lockless) (t : Nat) (s : Board) :
    (p.run Board.machine t s).2.mutex = s.mutex := by
  induction h generalizing s with
  | ret a => rfl
  | @op o k ho _ ih =>
      refine (ih _ _).trans ?_
      cases o with
      | mutexTake m => exact absurd ho id
      | mutexRelease m => exact absurd ho id
      | _ => rfl

theorem takeDisplaySettings_lockless : takeDisplaySettings.Only Op.Lockless := by
  unfold takeDisplaySettings
  refine .bind (backupWorkData_solo.mono fun _ => And.right) fun _ => .act trivial fun m =>
    .act trivial fun _ => .act trivial fun m => .bind ?_ fun _ => .act trivial fun tm =>
    .act trivial fun _ => .act trivial fun f => .bind ?_ fun _ =>
    saveIfChanged_solo.mono fun _ => And.right
  · simp [Op.Lockless]
  · simp [Op.Lockless]

theorem takeDisplaySettings_calls {b : Board}
    (hbit : b.mem (.ucMasterRTURcvBuf 30) &&& FaultBit.resetWifi.mask ≠ 0) (t : Nat) :
    .note .wifiFactorySet ∈ takeDisplaySettings.trace Board.machine t b := by
  have hrcv : (backupWorkData.run Board.machine t b).2.mem (.ucMasterRTURcvBuf 30) =
      b.mem (.ucMasterRTURcvBuf 30) := run_backupWorkData_mem t b (by rintro j ⟨⟩)
  rw [← hrcv] at hbit
  simp only [takeDisplaySettings, trace_bind]
  generalize (backupWorkData.run Board.machine t b).2 = b₁ at hbit
  by_cases hauto : b₁.mem (.ucMasterRTURcvBuf 5) = 1
  · simp [hauto, hbit]
  · simp [hauto, hbit]

theorem releasesBus_iff (wifi : Line) (t : Nat) {s : Board} (hfree : s.mutex .modbus = none)
    (h : AsksReset s) : ReleasesBus wifi t s ↔ Returns wifi := by
  obtain ⟨hcode, hrcv, -⟩ := run_pollDisplay t s
  have hlocked : (pollDisplay.run Board.machine t s).2.mutex .modbus = some (t, 1) := by
    show Function.update s.mutex .modbus (Board.take t (s.mutex .modbus)) .modbus = _
    rw [Function.update_self, hfree]
    rfl
  have hf2 := h.framed
  have hbit := h.bit
  rw [h.code] at hcode
  rw [← hrcv 30] at hbit
  rw [← funext hrcv] at hf2
  have hcalls : .note .wifiFactorySet ∈ (getDisplayBoardData exchange).trace Board.machine t s := by
    have hframed : (replyFramed 0xF2 32).run Board.machine t (pollDisplay.run Board.machine t s).2 =
        (true, (pollDisplay.run Board.machine t s).2) :=
      (run_replyFramed 0xF2 32 t _).trans (Prod.ext (decide_eq_true hf2) rfl)
    rw [getDisplayBoardData_eq, trace_bind, trace_bind, hcode, trace_when, if_pos rfl,
      handleDisplayReply, trace_bind, hframed, trace_ite, if_pos rfl]
    refine List.mem_append_right _ (List.mem_append_left _ (List.mem_append_right _ ?_))
    exact takeDisplaySettings_calls hbit t
  have hreleased :
      ((getDisplayBoardData exchange).run Board.machine t s).2.mutex .modbus = none := by
    rw [getDisplayBoardData_eq, run_bind, run_bind, hcode, run_when, if_pos rfl,
      (handleDisplayReply_f2 t hf2).1]
    have hmutex := run_lockless takeDisplaySettings_lockless t (pollDisplay.run Board.machine t s).2
    simp [hmutex, hlocked, Board.release]
  exact ⟨fun hb => hb.returns hcalls, fun hr => ⟨fun _ => hr, hreleased⟩⟩

/-- **When the factory reset ends**, and with it the call that holds the bus:
exactly if each loop of the dialogue ends by its input. -/
theorem factory_reset_ends_iff (wifi : Line) (t : Nat) {s : Board} (hfree : s.mutex .modbus = none)
    (h : AsksReset s) : ReleasesBus wifi t s ↔ DialogueEnds wifi.rounds :=
  (releasesBus_iff wifi t hfree h).trans (returns_iff wifi)

/-- The display's answer is an F2 frame that asks for the reset. -/
def asked : Board :=
  { Board.reset with
    replies := [⟨.revData, [0xF2, 0xF2] ++ List.replicate 28 0 ++ [0x40, 0, 0x7E], []⟩] }

theorem asked_asksReset : AsksReset asked := ⟨rfl, by decide, by decide⟩

/-- Both answers come, each in one piece. -/
theorem factory_reset_ends_both :
    ReleasesBus ⟨[wifiEnterAtModeReturn, wifiSetFactoryReturn], fun _ => 0⟩ 0 asked ↔
      DialogueEnds [wifiEnterAtModeReturn, wifiSetFactoryReturn] :=
  factory_reset_ends_iff ⟨[wifiEnterAtModeReturn, wifiSetFactoryReturn], fun _ => 0⟩ 0 rfl
    asked_asksReset

/-- One byte that is no answer, and then silence. -/
theorem factory_reset_counterexample : AsksReset asked ∧ asked.mutex .modbus = none ∧
    ¬ ReleasesBus ⟨[[0x78]], fun _ => 0⟩ 0 asked := by
  refine ⟨asked_asksReset, rfl, fun h => ?_⟩
  rw [releasesBus_iff _ 0 rfl asked_asksReset, returns_iff] at h
  obtain ⟨m, exit, ⟨⟨-, hleft⟩, -⟩, -⟩ := h
  have hreceived : received [[0x78]] m = [0x78] := by simp [received]
  have hnone : leftBehind wifiEnterAtModeReturn false [[0x78]] m = none := by
    rw [leftBehind, hreceived, if_neg (by decide), if_neg (by simp), if_neg (by simp)]
  rw [hnone] at hleft
  cases hleft

end Aclean.Factory
