import Aclean.Prog

/-!
# Interleavings of programs

A pool of threads, each with the rest of its program, over one shared
state. A run interleaves single operations of the threads and events of
the environment (interrupts, bytes on a line) in any order that the
machine's `enabled` allows; its history records every step with the
machine's answer.

What a run can do is proved in two halves that meet in `Run.keeps`:

- a **discipline** is a small automaton that a thread's operations drive:
  which operation is allowed in which local state, which answers the
  thread may count on, and the next local state. `Discipline.Follows` walks a
  program once and shows that it keeps to the discipline, whatever the
  other threads do;
- an **invariant** relates the shared state to the local states of all
  threads. It is checked for one operation of the discipline at a time
  and never looks at a program.

So a change to one program touches its walk and nothing else.
-/

namespace Aclean

/-! ## Systems and runs -/

/-- A machine together with the events of its environment. -/
structure System (Op : Type) (Ar : Op → Type) (σ Ev : Type) extends Machine Op Ar σ where
  envEnabled : Ev → σ → Bool
  envExec : Ev → σ → σ

inductive Label (Op : Type) (Ar : Op → Type) (Ev : Type) : Type where
  | op (t : Nat) (o : Op) (a : Ar o)
  | env (e : Ev)

structure Config (Op : Type) (Ar : Op → Type) (σ : Type) where
  state : σ
  threads : Nat → Prog Op Ar Unit

/-- A condition on the single steps of a run: the history before the step,
the state before it, and the step. -/
abbrev StepCond (Op : Type) (Ar : Op → Type) (σ Ev : Type) :=
  List (Label Op Ar Ev) → σ → Label Op Ar Ev → Prop

variable {Op : Type} {Ar : Op → Type} {σ Ev Λ α β : Type}

/-- Runs from `c` all of whose steps meet `P`. -/
inductive Run (S : System Op Ar σ Ev) (P : StepCond Op Ar σ Ev) (c : Config Op Ar σ) :
    List (Label Op Ar Ev) → Config Op Ar σ → Prop where
  | start : Run S P c [] c
  | op {tr s T t o k} (run : Run S P c tr ⟨s, T⟩) (next : T t = .op o k)
      (free : S.enabled t o s = true) (cond : P tr s (.op t o (S.exec t o s).1)) :
      Run S P c (tr ++ [.op t o (S.exec t o s).1])
        ⟨(S.exec t o s).2, Function.update T t (k (S.exec t o s).1)⟩
  | env {tr s T e} (run : Run S P c tr ⟨s, T⟩) (free : S.envEnabled e s = true)
      (cond : P tr s (.env e)) :
      Run S P c (tr ++ [.env e]) ⟨S.envExec e s, T⟩

/-- The condition every step meets. -/
def anyStep : StepCond Op Ar σ Ev := fun _ _ _ => True

theorem Run.any {S : System Op Ar σ Ev} {P : StepCond Op Ar σ Ev} {c c' : Config Op Ar σ}
    {tr : List (Label Op Ar Ev)} (h : Run S P c tr c') : Run S anyStep c tr c' := by
  induction h with
  | start => exact .start
  | op _ hnext hfree _ ih => exact .op ih hnext hfree trivial
  | env _ hfree _ ih => exact .env ih hfree trivial

theorem Run.mono {S : System Op Ar σ Ev} {P Q : StepCond Op Ar σ Ev}
    (hPQ : ∀ tr s l, P tr s l → Q tr s l) {c c' : Config Op Ar σ}
    {tr : List (Label Op Ar Ev)} (h : Run S P c tr c') : Run S Q c tr c' := by
  induction h with
  | start => exact .start
  | op _ hnext hfree hP ih => exact .op ih hnext hfree (hPQ _ _ _ hP)
  | env _ hfree hP ih => exact .env ih hfree (hPQ _ _ _ hP)

/-- What is left of a program consists of the program's operations. -/
theorem Run.only {S : System Op Ar σ Ev} {P : StepCond Op Ar σ Ev} {c c' : Config Op Ar σ}
    {tr : List (Label Op Ar Ev)} (h : Run S P c tr c') {R : Op → Prop} {t : Nat}
    (hR : (c.threads t).Only R) : (c'.threads t).Only R := by
  induction h with
  | start => exact hR
  | @op tr s T u o k _ hnext _ _ ih =>
      by_cases hu : t = u
      · subst hu
        have hop : (Prog.op o k).Only R := hnext ▸ ih
        simpa using ((Prog.only_op ..).mp hop).2 _
      · simpa [Function.update_of_ne hu] using ih
  | env _ _ _ ih => exact ih

/-- Two steps in this order are in an extended history if they were before, or
if the second is the one added. -/
theorem sublist_pair_snoc {a b l : α} {tr : List α} :
    [a, b].Sublist (tr ++ [l]) ↔ [a, b].Sublist tr ∨ (l = b ∧ a ∈ tr) := by
  constructor
  · intro h
    obtain ⟨l₁, l₂, heq, h₁, h₂⟩ := List.sublist_append_iff.mp h
    cases h₂ with
    | cons _ h₂ =>
        obtain rfl := List.sublist_nil.mp h₂
        rw [List.append_nil] at heq
        exact .inl (by rw [heq]; exact h₁)
    | cons_cons _ h₂ =>
        obtain rfl := List.sublist_nil.mp h₂
        have hsnoc : [a] ++ [b] = l₁ ++ [l] := heq
        obtain ⟨rfl, hl⟩ := List.append_inj' hsnoc rfl
        exact .inr ⟨(List.cons.inj hl).1.symm, List.singleton_sublist.mp h₁⟩
  · rintro (h | ⟨rfl, h⟩)
    · exact h.trans (List.sublist_append_left ..)
    · exact (List.singleton_sublist.mpr h).append (List.Sublist.refl [l])

/-! ## Running a given schedule -/

inductive Act (Ev : Type) where
  | thread (t : Nat)
  | env (e : Ev)

def Config.fire (S : System Op Ar σ Ev) (c : Config Op Ar σ) :
    Act Ev → Option (Label Op Ar Ev × Config Op Ar σ)
  | .thread t =>
      match c.threads t with
      | .ret _ => none
      | .op o k =>
          if S.enabled t o c.state then
            some (.op t o (S.exec t o c.state).1,
              ⟨(S.exec t o c.state).2,
                Function.update c.threads t (k (S.exec t o c.state).1)⟩)
          else none
  | .env e =>
      if S.envEnabled e c.state then some (.env e, ⟨S.envExec e c.state, c.threads⟩)
      else none

/-- Fire a schedule from the left; `none` as soon as a step is not possible
or does not meet `p`. The history is the one before the schedule, extended. -/
def Config.schedule (S : System Op Ar σ Ev) (p : List (Label Op Ar Ev) → σ → Label Op Ar Ev → Bool) :
    List (Act Ev) → List (Label Op Ar Ev) → Config Op Ar σ →
      Option (List (Label Op Ar Ev) × Config Op Ar σ)
  | [], tr, c => some (tr, c)
  | a :: as, tr, c =>
      match c.fire S a with
      | none => none
      | some (l, c') =>
          if p tr c.state l then Config.schedule S p as (tr ++ [l]) c' else none

theorem Run.fire {S : System Op Ar σ Ev} {P : StepCond Op Ar σ Ev} {c0 c c' : Config Op Ar σ}
    {tr : List (Label Op Ar Ev)} (h : Run S P c0 tr c) {a : Act Ev}
    {l : Label Op Ar Ev} (hf : c.fire S a = some (l, c')) (hP : P tr c.state l) :
    Run S P c0 (tr ++ [l]) c' := by
  cases a with
  | thread t =>
      cases hT : c.threads t with
      | ret u => simp [Config.fire, hT] at hf
      | op o k =>
          simp only [Config.fire, hT, Option.ite_none_right_eq_some, Option.some.injEq,
            Prod.mk.injEq] at hf
          obtain ⟨hen, rfl, rfl⟩ := hf
          exact .op h hT hen hP
  | env e =>
      simp only [Config.fire, Option.ite_none_right_eq_some, Option.some.injEq,
        Prod.mk.injEq] at hf
      obtain ⟨hen, rfl, rfl⟩ := hf
      exact .env h hen hP

theorem Run.schedule {S : System Op Ar σ Ev}
    {p : List (Label Op Ar Ev) → σ → Label Op Ar Ev → Bool} {c0 : Config Op Ar σ} :
    ∀ {as : List (Act Ev)} {tr tr' : List (Label Op Ar Ev)} {c c' : Config Op Ar σ},
      Run S (fun tr s l => p tr s l = true) c0 tr c → c.schedule S p as tr = some (tr', c') →
      Run S (fun tr s l => p tr s l = true) c0 tr' c'
  | [], _, _, _, _, h, hs => by
      obtain ⟨rfl, rfl⟩ := Prod.mk.injEq .. |>.mp (Option.some.inj hs)
      exact h
  | a :: as, tr, tr', c, c', h, hs => by
      rw [Config.schedule] at hs
      cases hf : c.fire S a with
      | none => rw [hf] at hs; cases hs
      | some lc =>
          rw [hf] at hs
          simp only [Option.ite_none_right_eq_some] at hs
          exact Run.schedule (h.fire hf hs.1) hs.2

/-- A schedule whose steps meet `p` ends with the property. -/
def Config.endsWith (S : System Op Ar σ Ev) (p : List (Label Op Ar Ev) → σ → Label Op Ar Ev → Bool)
    (as : List (Act Ev)) (c : Config Op Ar σ)
    (f : List (Label Op Ar Ev) → Config Op Ar σ → Bool) : Bool :=
  match c.schedule S p as [] with
  | some (tr, c') => f tr c'
  | none => false

theorem exists_run_of_endsWith (S : System Op Ar σ Ev)
    (p : List (Label Op Ar Ev) → σ → Label Op Ar Ev → Bool) (as : List (Act Ev))
    (c : Config Op Ar σ) (f : List (Label Op Ar Ev) → Config Op Ar σ → Bool)
    (h : c.endsWith S p as f = true) :
    ∃ tr c', Run S (fun tr s l => p tr s l = true) c tr c' ∧ f tr c' = true := by
  rw [Config.endsWith] at h
  cases hs : c.schedule S p as [] with
  | none => rw [hs] at h; cases h
  | some r => rw [hs] at h; exact ⟨r.1, r.2, Run.schedule .start hs, h⟩

/-! ## Disciplines -/

structure Discipline (Op : Type) (Ar : Op → Type) (Λ : Type) where
  ok : Λ → Op → Prop
  answers : Λ → (o : Op) → Ar o → Prop
  next : Λ → (o : Op) → Ar o → Λ

namespace Discipline

variable (D : Discipline Op Ar Λ)

/-- From local state `l` the program performs only allowed operations,
whatever answers it gets among those it may count on, and ends with `Q`. -/
inductive Follows : Prog Op Ar α → (α → Λ → Prop) → Λ → Prop where
  | ret {a : α} {Q : α → Λ → Prop} {l : Λ} (h : Q a l) : Follows (.ret a) Q l
  | op {o : Op} {k : Ar o → Prog Op Ar α} {Q : α → Λ → Prop} {l : Λ} (hok : D.ok l o)
      (hk : ∀ a, D.answers l o a → Follows (k a) Q (D.next l o a)) : Follows (.op o k) Q l

@[simp] theorem follows_ret (a : α) (Q : α → Λ → Prop) (l : Λ) :
    D.Follows (.ret a) Q l ↔ Q a l :=
  ⟨fun | .ret h => h, .ret⟩

@[simp] theorem follows_pure (a : α) (Q : α → Λ → Prop) (l : Λ) :
    D.Follows (Pure.pure a) Q l ↔ Q a l :=
  D.follows_ret a Q l

@[simp] theorem follows_op (o : Op) (k : Ar o → Prog Op Ar α) (Q : α → Λ → Prop) (l : Λ) :
    D.Follows (.op o k) Q l ↔
      D.ok l o ∧ ∀ a, D.answers l o a → D.Follows (k a) Q (D.next l o a) :=
  ⟨fun | .op hok hk => ⟨hok, hk⟩, fun h => .op h.1 h.2⟩

@[simp] theorem follows_bind (p : Prog Op Ar α) (f : α → Prog Op Ar β)
    (Q : β → Λ → Prop) (l : Λ) :
    D.Follows (p >>= f) Q l ↔ D.Follows p (fun a l' => D.Follows (f a) Q l') l := by
  induction p generalizing l with
  | ret a => simp
  | op o k ih => simp only [Prog.op_bind, follows_op, ih]

@[simp] theorem follows_map (f : α → β) (p : Prog Op Ar α) (Q : β → Λ → Prop) (l : Λ) :
    D.Follows (f <$> p) Q l ↔ D.Follows p (fun a => Q (f a)) l := by
  rw [show f <$> p = p >>= fun a => .ret (f a) from rfl, follows_bind]
  simp

@[simp] theorem follows_ite (c : Prop) [Decidable c] (p q : Prog Op Ar α) (Q : α → Λ → Prop)
    (l : Λ) : D.Follows (if c then p else q) Q l ↔
      (c → D.Follows p Q l) ∧ (¬c → D.Follows q Q l) := by
  by_cases hc : c <;> simp [hc]

@[simp] theorem follows_when (c : Prop) [Decidable c] (p : Prog Op Ar Unit)
    (Q : Unit → Λ → Prop) (l : Λ) :
    D.Follows (Prog.when c p) Q l ↔ (c → D.Follows p Q l) ∧ (¬c → Q () l) := by
  simp [Prog.when]

namespace Follows

variable {D}

theorem mono {p : Prog Op Ar α} {Q R : α → Λ → Prop} {l : Λ} (h : D.Follows p Q l)
    (hQR : ∀ a l, Q a l → R a l) : D.Follows p R l := by
  induction h with
  | ret h => exact .ret (hQR _ _ h)
  | op hok _ ih => exact .op hok fun a ha => ih a ha hQR

theorem ite {c : Prop} [Decidable c] {p q : Prog Op Ar α} {Q : α → Λ → Prop} {l : Λ}
    (hp : c → D.Follows p Q l) (hq : ¬c → D.Follows q Q l) :
    D.Follows (if c then p else q) Q l :=
  (D.follows_ite ..).mpr ⟨hp, hq⟩

theorem when {c : Prop} [Decidable c] {p : Prog Op Ar Unit} {Q : Unit → Λ → Prop} {l : Λ}
    (hp : c → D.Follows p Q l) (hq : ¬c → Q () l) : D.Follows (Prog.when c p) Q l :=
  (D.follows_when ..).mpr ⟨hp, hq⟩

theorem bind {p : Prog Op Ar α} {f : α → Prog Op Ar β} {R : α → Λ → Prop} {Q : β → Λ → Prop}
    {l : Λ} (hp : D.Follows p R l) (hf : ∀ a l, R a l → D.Follows (f a) Q l) :
    D.Follows (p >>= f) Q l :=
  (D.follows_bind ..).mpr (hp.mono hf)

/-- One operation in front of the rest. -/
theorem act {o : Op} {k : Ar o → Prog Op Ar α} {Q : α → Λ → Prop} {l : Λ} (hok : D.ok l o)
    (hk : ∀ a, D.answers l o a → D.Follows (k a) Q (D.next l o a)) :
    D.Follows (.op o .ret >>= k) Q l :=
  .op hok hk

/-- The loop rule: an assertion that holds before the first round and that
each round carries to the next holds after the last. -/
theorem foldUpTo {body : Nat → β → Prog Op Ar β} {J : Nat → β → Λ → Prop}
    {n : Nat} {b : β} {l : Λ} (h0 : J 0 b l)
    (hround : ∀ i b l, i < n → J i b l → D.Follows (body i b) (J (i + 1)) l) :
    D.Follows (Prog.foldUpTo body n b) (J n) l := by
  induction n with
  | zero => exact .ret h0
  | succ n ih =>
      rw [Prog.foldUpTo, follows_bind]
      exact (ih fun i b l hi => hround i b l (Nat.lt_succ_of_lt hi)).mono
        fun b' l' hJ => hround n b' l' (Nat.lt_succ_self n) hJ

theorem forUpTo {body : Nat → Prog Op Ar Unit} {J : Nat → Λ → Prop} {n : Nat}
    {l : Λ} (h0 : J 0 l)
    (hround : ∀ i l, i < n → J i l → D.Follows (body i) (fun _ => J (i + 1)) l) :
    D.Follows (Prog.forUpTo n body) (fun _ => J n) l :=
  foldUpTo (J := fun i _ => J i) h0 fun i _ l hi hJ => hround i l hi hJ

theorem calls {ps : List (Prog Op Ar Unit)} {J : Λ → Prop} {l : Λ} (h0 : J l)
    (hcall : ∀ p ∈ ps, ∀ l, J l → D.Follows p (fun _ => J) l) :
    D.Follows (Prog.calls ps) (fun _ => J) l := by
  induction ps generalizing l with
  | nil => exact .ret h0
  | cons p ps ih =>
      rw [Prog.calls, follows_bind]
      exact (hcall p (List.mem_cons_self ..) l h0).mono
        fun _ l' hJ => ih hJ fun q hq => hcall q (List.mem_cons_of_mem _ hq)

/-- A program whose operations the discipline allows wherever `J` holds, and
that keep `J`, follows it. -/
theorem of_only {P : Op → Prop} {J : Λ → Prop} {p : Prog Op Ar α} {l : Λ} (hp : p.Only P)
    (hP : ∀ l o, J l → P o → D.ok l o ∧ ∀ a, D.answers l o a → J (D.next l o a)) (hJ : J l) :
    D.Follows p (fun _ => J) l := by
  induction hp generalizing l with
  | ret a => exact .ret hJ
  | op ho _ ih => exact .op (hP _ _ hJ ho).1 fun a ha => ih a ((hP _ _ hJ ho).2 a ha)

/-- A program of another signature whose operations expand to programs that
keep `J`. -/
theorem expand {Op' : Type} {Ar' : Op' → Type} {h : (o : Op') → Prog Op Ar (Ar' o)}
    {P : Op' → Prop} {J : Λ → Prop} {p : Prog Op' Ar' α} {l : Λ} (hp : p.Only P)
    (hP : ∀ o, P o → ∀ l, J l → D.Follows (h o) (fun _ => J) l) (hJ : J l) :
    D.Follows (p.expand h) (fun _ => J) l := by
  induction hp generalizing l with
  | ret a => exact .ret hJ
  | op ho _ ih =>
      rw [Prog.expand_op, follows_bind]
      exact (hP _ ho _ hJ).mono fun a _ hJ' => ih a hJ'

/-- A program that follows a discipline of its own signature, when each of its
operations expands to a program with the same effect on the local state. -/
theorem expands {Op' : Type} {Ar' : Op' → Type} {D' : Discipline Op' Ar' Λ}
    {h : (o : Op') → Prog Op Ar (Ar' o)}
    (hop : ∀ l o, D'.ok l o → D.Follows (h o) (fun a l' => D'.answers l o a ∧ l' = D'.next l o a) l)
    {p : Prog Op' Ar' α} {Q : α → Λ → Prop} {l : Λ} (hp : D'.Follows p Q l) :
    D.Follows (p.expand h) Q l := by
  induction hp with
  | ret hQ => exact .ret hQ
  | op hok _ ih =>
      rw [Prog.expand_op, follows_bind]
      refine (hop _ _ hok).mono ?_
      rintro a l' ⟨ha, rfl⟩
      exact ih a ha

end Follows

/-! ### Programs that end where they began -/

/-- The program ends in the local state it began in. -/
def Keeps (p : Prog Op Ar α) (l : Λ) : Prop := D.Follows p (fun _ l' => l' = l) l

namespace Keeps

variable {D} {l : Λ}

theorem of_only {P : Op → Prop} {p : Prog Op Ar α} (hp : p.Only P)
    (hP : ∀ o, P o → D.ok l o ∧ ∀ a, D.answers l o a → D.next l o a = l) : D.Keeps p l := by
  refine Follows.of_only hp (fun l' o hl ho => ?_) rfl
  subst hl
  exact hP o ho

theorem andThen {p : Prog Op Ar α} {f : α → Prog Op Ar β} {Q : β → Λ → Prop} (hp : D.Keeps p l)
    (hf : ∀ a, D.Follows (f a) Q l) : D.Follows (p >>= f) Q l := by
  refine Follows.bind hp ?_
  rintro a l' rfl
  exact hf a

theorem bind {p : Prog Op Ar α} {f : α → Prog Op Ar β} (hp : D.Keeps p l)
    (hf : ∀ a, D.Keeps (f a) l) : D.Keeps (p >>= f) l :=
  hp.andThen hf

theorem ite {c : Prop} [Decidable c] {p q : Prog Op Ar α} (hp : c → D.Keeps p l)
    (hq : ¬ c → D.Keeps q l) : D.Keeps (if c then p else q) l :=
  Follows.ite hp hq

theorem when {c : Prop} [Decidable c] {p : Prog Op Ar Unit} (hp : c → D.Keeps p l) :
    D.Keeps (Prog.when c p) l :=
  Follows.when hp fun _ => rfl

theorem calls {ps : List (Prog Op Ar Unit)} (h : ∀ p ∈ ps, D.Keeps p l) :
    D.Keeps (Prog.calls ps) l := by
  refine Follows.calls (J := fun l' => l' = l) rfl ?_
  rintro p hp l' rfl
  exact h p hp

end Keeps

/-! ### Local states along a history -/

def observe (L : Nat → Λ) : Label Op Ar Ev → Nat → Λ
  | .op t o a => Function.update L t (D.next (L t) o a)
  | .env _ => L

/-- The local states of all threads after a history that began in `L`. -/
def locals (L : Nat → Λ) (tr : List (Label Op Ar Ev)) : Nat → Λ :=
  tr.foldl D.observe L

@[simp] theorem locals_nil (L : Nat → Λ) :
    D.locals L ([] : List (Label Op Ar Ev)) = L := rfl

@[simp] theorem locals_snoc_op (L : Nat → Λ) (tr : List (Label Op Ar Ev)) (t : Nat)
    (o : Op) (a : Ar o) :
    D.locals L (tr ++ [.op t o a]) =
      Function.update (D.locals L tr) t (D.next (D.locals L tr t) o a) := by
  simp [locals, observe]

@[simp] theorem locals_snoc_env (L : Nat → Λ) (tr : List (Label Op Ar Ev)) (e : Ev) :
    D.locals L (tr ++ [.env e]) = D.locals L tr := by
  simp [locals, observe]

/-- Who acted. -/
def actors (tr : List (Label Op Ar Ev)) : List Nat :=
  tr.filterMap fun l =>
    match l with
    | .op t _ _ => some t
    | .env _ => none

theorem locals_of_not_mem {tr : List (Label Op Ar Ev)} {t : Nat} (h : t ∉ actors tr) (L : Nat → Λ) :
    D.locals L tr t = L t := by
  induction tr generalizing L with
  | nil => rfl
  | cons l tr ih =>
      show D.locals (D.observe L l) tr t = L t
      cases l with
      | env e => exact ih h L
      | op u o a =>
          obtain ⟨hu, htr⟩ := not_or.mp (mt List.mem_cons.mpr h)
          rw [ih htr]
          exact Function.update_of_ne hu _ _

/-- What an observer makes of a history that began in `L`: with each step it
is told the local states before it. -/
def watch (f : (Nat → Λ) → Label Op Ar Ev → β → β) (L : Nat → Λ) (b : β)
    (tr : List (Label Op Ar Ev)) : β :=
  (tr.foldl (fun w l => (D.observe w.1 l, f w.1 l w.2)) (L, b)).2

@[simp] theorem watch_nil (f : (Nat → Λ) → Label Op Ar Ev → β → β) (L : Nat → Λ) (b : β) :
    D.watch f L b [] = b := rfl

@[simp] theorem watch_snoc (f : (Nat → Λ) → Label Op Ar Ev → β → β) (L : Nat → Λ) (b : β)
    (tr : List (Label Op Ar Ev)) (l : Label Op Ar Ev) :
    D.watch f L b (tr ++ [l]) = f (D.locals L tr) l (D.watch f L b tr) := by
  have hlocals : ∀ (tr : List (Label Op Ar Ev)) (w : (Nat → Λ) × β),
      (tr.foldl (fun w l => (D.observe w.1 l, f w.1 l w.2)) w).1 = D.locals w.1 tr := by
    intro tr
    induction tr with
    | nil => exact fun _ => rfl
    | cons x tr ih => exact fun w => ih _
  rw [watch, List.foldl_append, List.foldl_cons, List.foldl_nil, hlocals, watch]

/-! ### Two disciplines at once -/

section Prod

variable {Μ : Type} {D} {D₂ : Discipline Op Ar Μ}

def prod (D₁ : Discipline Op Ar Λ) (D₂ : Discipline Op Ar Μ) : Discipline Op Ar (Λ × Μ) where
  ok l o := D₁.ok l.1 o ∧ D₂.ok l.2 o
  answers l o a := D₁.answers l.1 o a ∧ D₂.answers l.2 o a
  next l o a := (D₁.next l.1 o a, D₂.next l.2 o a)

theorem Follows.prod {p : Prog Op Ar α} {Q₁ : α → Λ → Prop} {Q₂ : α → Μ → Prop} {l₁ : Λ} {l₂ : Μ}
    (h₁ : D.Follows p Q₁ l₁) (h₂ : D₂.Follows p Q₂ l₂) :
    (D.prod D₂).Follows p (fun a l => Q₁ a l.1 ∧ Q₂ a l.2) (l₁, l₂) := by
  induction p generalizing l₁ l₂ with
  | ret a => exact .ret ⟨(D.follows_ret ..).mp h₁, (D₂.follows_ret ..).mp h₂⟩
  | op o k ih =>
      obtain ⟨hok₁, hk₁⟩ := (D.follows_op ..).mp h₁
      obtain ⟨hok₂, hk₂⟩ := (D₂.follows_op ..).mp h₂
      exact .op ⟨hok₁, hok₂⟩ fun a ha => ih a (hk₁ a ha.1) (hk₂ a ha.2)

/-- Each sees its own local states. -/
theorem locals_prod (L₁ : Nat → Λ) (L₂ : Nat → Μ) (tr : List (Label Op Ar Ev)) :
    (D.prod D₂).locals (fun t => (L₁ t, L₂ t)) tr =
      fun t => (D.locals L₁ tr t, D₂.locals L₂ tr t) := by
  have hobserve : ∀ (L₁ : Nat → Λ) (L₂ : Nat → Μ) (x : Label Op Ar Ev),
      (D.prod D₂).observe (fun t => (L₁ t, L₂ t)) x =
        fun t => (D.observe L₁ x t, D₂.observe L₂ x t) := by
    intro L₁ L₂ x
    cases x with
    | env e => rfl
    | op t o a =>
        funext u
        by_cases hu : u = t
        · subst hu
          simp [observe, prod]
        · simp [observe, Function.update_of_ne hu]
  induction tr generalizing L₁ L₂ with
  | nil => rfl
  | cons x tr ih =>
      show (D.prod D₂).locals ((D.prod D₂).observe _ x) tr = _
      rw [hobserve]
      exact ih _ _

end Prod

end Discipline

/-! ## The invariant rule -/

/-- **Disciplined threads keep an invariant.** If every thread's program
keeps to the discipline, and one allowed operation (or one event) at a time
the invariant survives and the machine answers as the thread may count on,
then the invariant holds after every run, and what is left of each program
still keeps to the discipline. -/
theorem Run.keeps {S : System Op Ar σ Ev} {P : StepCond Op Ar σ Ev}
    (D : Discipline Op Ar Λ) {L0 : Nat → Λ} {I : List (Label Op Ar Ev) → σ → Prop}
    {Q : Nat → Λ → Prop} {c c' : Config Op Ar σ} {tr : List (Label Op Ar Ev)}
    (hfollows : ∀ t, D.Follows (c.threads t) (fun _ => Q t) (L0 t)) (h0 : I [] c.state)
    (hop : ∀ tr s t o, I tr s → S.enabled t o s = true →
      P tr s (.op t o (S.exec t o s).1) → D.ok (D.locals L0 tr t) o →
      D.answers (D.locals L0 tr t) o (S.exec t o s).1 ∧
        I (tr ++ [.op t o (S.exec t o s).1]) (S.exec t o s).2)
    (henv : ∀ tr s e, I tr s → S.envEnabled e s = true → P tr s (.env e) →
      I (tr ++ [.env e]) (S.envExec e s))
    (h : Run S P c tr c') :
    I tr c'.state ∧ ∀ t, D.Follows (c'.threads t) (fun _ => Q t) (D.locals L0 tr t) := by
  induction h with
  | start => exact ⟨h0, hfollows⟩
  | @op tr s T t o k _ hnext hfree hP ih =>
      obtain ⟨hI, hT⟩ := ih
      have ht := hT t
      simp only at ht
      rw [hnext, Discipline.follows_op] at ht
      obtain ⟨hans, hI'⟩ := hop tr s t o hI hfree hP ht.1
      refine ⟨hI', fun u => ?_⟩
      rw [Discipline.locals_snoc_op]
      by_cases hu : u = t
      · subst hu
        simpa using ht.2 _ hans
      · simpa [Function.update_of_ne hu] using hT u
  | @env tr s T e _ hfree hP ih =>
      refine ⟨henv tr s e ih.1 hfree hP, fun u => ?_⟩
      rw [Discipline.locals_snoc_env]
      exact ih.2 u

/-- The same rule for one thread on its own. -/
theorem Discipline.Follows.run (D : Discipline Op Ar Λ) (M : Machine Op Ar σ) (t : Nat)
    {I : Λ → σ → Prop} {p : Prog Op Ar α} {Q : α → Λ → Prop} {l : Λ} {s : σ}
    (hp : D.Follows p Q l) (h0 : I l s)
    (hop : ∀ l s o, I l s → D.ok l o →
      D.answers l o (M.exec t o s).1 ∧ I (D.next l o (M.exec t o s).1) (M.exec t o s).2) :
    ∃ l', Q (p.run M t s).1 l' ∧ I l' (p.run M t s).2 := by
  induction hp generalizing s with
  | ret h => exact ⟨_, h, h0⟩
  | op hok _ ih =>
      obtain ⟨hans, hI⟩ := hop _ s _ h0 hok
      exact ih _ hans hI

end Aclean
