import Mathlib.Logic.Function.Basic

/-!
# Programs of atomic operations

A program is a finite tree of atomic operations over a signature: an
operation `o : Op` is performed, the machine answers with a value of
`Ar o`, and the program goes on with a continuation that may depend on
that answer. Branches and bounded loops of the source are the branching
of the tree; what is *one* node is what no other thread can split.

The signature gives the operations no meaning. A `Machine` does: it says
when an operation may be taken by a thread (`enabled`, for locks and
semaphores) and what it does to the shared state. One program thus has two
readings, and both are used on the same definition: `Prog.run` performs it
alone from start to end, and `Aclean.Pool` interleaves it with the
programs of other threads.
-/

namespace Aclean

inductive Prog (Op : Type) (Ar : Op → Type) (α : Type) : Type where
  | ret (a : α)
  | op (o : Op) (k : Ar o → Prog Op Ar α)

namespace Prog

variable {Op : Type} {Ar : Op → Type} {α β γ : Type}

def bind : Prog Op Ar α → (α → Prog Op Ar β) → Prog Op Ar β
  | .ret a, f => f a
  | .op o k, f => .op o fun x => (k x).bind f

instance : Monad (Prog Op Ar) where
  pure := .ret
  bind := bind

@[simp] theorem ret_bind (a : α) (f : α → Prog Op Ar β) :
    (Prog.ret a >>= f) = f a := rfl

@[simp] theorem op_bind (o : Op) (k : Ar o → Prog Op Ar α)
    (f : α → Prog Op Ar β) :
    (Prog.op o k >>= f) = .op o fun x => k x >>= f := rfl

@[simp] theorem ret_map (f : α → β) (a : α) :
    (f <$> (Prog.ret a : Prog Op Ar α)) = .ret (f a) := rfl

@[simp] theorem op_map (f : α → β) (o : Op) (k : Ar o → Prog Op Ar α) :
    (f <$> Prog.op o k) = .op o fun x => f <$> k x := rfl

theorem bind_ret (p : Prog Op Ar α) : p.bind .ret = p := by
  induction p with
  | ret a => rfl
  | op o k ih => simp only [bind, ih]

theorem bind_bind (p : Prog Op Ar α) (f : α → Prog Op Ar β)
    (g : β → Prog Op Ar γ) :
    (p.bind f).bind g = p.bind fun a => (f a).bind g := by
  induction p with
  | ret a => rfl
  | op o k ih => simp only [bind, ih]

instance : LawfulMonad (Prog Op Ar) :=
  LawfulMonad.mk' (Prog Op Ar) (fun p => bind_ret p) (fun _ _ => rfl)
    (fun p f g => bind_bind p f g)

/-- `if (c) p;` in front of more statements. -/
def when (c : Prop) [Decidable c] (p : Prog Op Ar Unit) : Prog Op Ar Unit :=
  if c then p else .ret ()

/-- `for (i = 0; i < n; i++)` with a local accumulator. -/
def foldUpTo (body : Nat → β → Prog Op Ar β) : Nat → β → Prog Op Ar β
  | 0, b => .ret b
  | n + 1, b => foldUpTo body n b >>= body n

/-- `for (i = 0; i < n; i++)` without one. -/
def forUpTo (n : Nat) (body : Nat → Prog Op Ar Unit) : Prog Op Ar Unit :=
  foldUpTo (fun i _ => body i) n ()

def finished : Prog Op Ar α → Bool
  | .ret _ => true
  | .op _ _ => false

theorem eq_ret_of_finished {p : Prog Op Ar Unit} (h : p.finished = true) : p = .ret () := by
  cases p with
  | ret u => rfl
  | op o k => cases h

/-- The calls a thread makes, one after the other. -/
def calls : List (Prog Op Ar Unit) → Prog Op Ar Unit
  | [] => .ret ()
  | p :: ps => p >>= fun _ => calls ps

theorem calls_append (ps qs : List (Prog Op Ar Unit)) :
    calls (ps ++ qs) = calls ps >>= fun _ => calls qs := by
  induction ps with
  | nil => rfl
  | cons p ps ih => rw [List.cons_append, calls, calls, ih, bind_assoc]

/-! ### Expansion -/

section Expand

variable {Op' : Type} {Ar' : Op' → Type} (h : (o : Op) → Prog Op' Ar' (Ar o))

/-- The program over another signature in which every operation is the
program that `h` gives for it. -/
def expand : Prog Op Ar α → Prog Op' Ar' α
  | .ret a => .ret a
  | .op o k => (h o).bind fun x => expand (k x)

@[simp] theorem expand_ret (a : α) : expand h (.ret a : Prog Op Ar α) = .ret a := rfl

@[simp] theorem expand_pure (a : α) : expand h (Pure.pure a : Prog Op Ar α) = .ret a := rfl

@[simp] theorem expand_op (o : Op) (k : Ar o → Prog Op Ar α) :
    expand h (.op o k) = h o >>= fun x => expand h (k x) := rfl

@[simp] theorem expand_bind (p : Prog Op Ar α) (f : α → Prog Op Ar β) :
    expand h (p >>= f) = expand h p >>= fun a => expand h (f a) := by
  induction p with
  | ret a => rfl
  | op o k ih => simp only [op_bind, expand_op, ih, bind_assoc]

@[simp] theorem expand_ite (c : Prop) [Decidable c] (p q : Prog Op Ar α) :
    expand h (if c then p else q) = if c then expand h p else expand h q := by
  split <;> rfl

@[simp] theorem expand_when (c : Prop) [Decidable c] (p : Prog Op Ar Unit) :
    expand h (when c p) = when c (expand h p) :=
  expand_ite h c p (.ret ())

end Expand

/-! ### Footprints -/

/-- Whatever answers it gets, the program performs operations of `P` only. -/
inductive Only (P : Op → Prop) : Prog Op Ar α → Prop where
  | ret (a : α) : Only P (.ret a)
  | op {o : Op} {k : Ar o → Prog Op Ar α} (ho : P o) (hk : ∀ a, Only P (k a)) : Only P (.op o k)

section Only

variable {P : Op → Prop}

@[simp] theorem only_ret (a : α) : (Prog.ret a : Prog Op Ar α).Only P := .ret a

@[simp] theorem only_pure (a : α) : (Pure.pure a : Prog Op Ar α).Only P := .ret a

@[simp] theorem only_op (o : Op) (k : Ar o → Prog Op Ar α) :
    (Prog.op o k).Only P ↔ P o ∧ ∀ a, (k a).Only P :=
  ⟨fun | .op ho hk => ⟨ho, hk⟩, fun h => .op h.1 h.2⟩

theorem Only.bind {p : Prog Op Ar α} {f : α → Prog Op Ar β} (hp : p.Only P)
    (hf : ∀ a, (f a).Only P) : (p >>= f).Only P := by
  induction hp with
  | ret a => exact hf a
  | op ho _ ih => exact .op ho ih

/-- One operation in front of the rest. -/
theorem Only.act {o : Op} {k : Ar o → Prog Op Ar α} (ho : P o) (hk : ∀ a, (k a).Only P) :
    (.op o .ret >>= k : Prog Op Ar α).Only P :=
  .op ho hk

theorem Only.map {p : Prog Op Ar α} (f : α → β) (hp : p.Only P) : (f <$> p).Only P :=
  hp.bind fun a => .ret (f a)

@[simp] theorem only_ite (c : Prop) [Decidable c] (p q : Prog Op Ar α) :
    (if c then p else q).Only P ↔ (c → p.Only P) ∧ (¬c → q.Only P) := by
  by_cases hc : c <;> simp [hc]

@[simp] theorem only_when (c : Prop) [Decidable c] (p : Prog Op Ar Unit) :
    (Prog.when c p).Only P ↔ (c → p.Only P) := by
  simp [Prog.when]

theorem Only.foldUpTo {body : Nat → β → Prog Op Ar β} {n : Nat} {b : β}
    (hbody : ∀ i b, i < n → (body i b).Only P) : (foldUpTo body n b).Only P := by
  induction n with
  | zero => exact .ret b
  | succ n ih =>
      exact (ih fun i b hi => hbody i b (Nat.lt_succ_of_lt hi)).bind fun b' =>
        hbody n b' (Nat.lt_succ_self n)

theorem Only.forUpTo {body : Nat → Prog Op Ar Unit} {n : Nat}
    (hbody : ∀ i, i < n → (body i).Only P) : (forUpTo n body).Only P :=
  .foldUpTo fun i _ hi => hbody i hi

theorem Only.mono {R : Op → Prop} (hPR : ∀ o, P o → R o) {p : Prog Op Ar α}
    (hp : p.Only P) : p.Only R := by
  induction hp with
  | ret a => exact .ret a
  | op ho _ ih => exact .op (hPR _ ho) ih

end Only

end Prog

/-! ## Machines -/

/-- What the operations of a signature do to a shared state `σ`, for the
thread (numbered by a `Nat`) that performs them. -/
structure Machine (Op : Type) (Ar : Op → Type) (σ : Type) where
  enabled : Nat → Op → σ → Bool
  exec : Nat → (o : Op) → σ → Ar o × σ

namespace Prog

variable {Op : Type} {Ar : Op → Type} {σ α β : Type}
variable (M : Machine Op Ar σ) (t : Nat)

/-- The program alone, start to end: no other thread moves, and nothing it
waits for is held by one. -/
def run : Prog Op Ar α → σ → α × σ
  | .ret a, s => (a, s)
  | .op o k, s => run (k (M.exec t o s).1) (M.exec t o s).2

/-- The operations of that run, in order. -/
def trace : Prog Op Ar α → σ → List Op
  | .ret _, _ => []
  | .op o k, s => o :: trace (k (M.exec t o s).1) (M.exec t o s).2

@[simp] theorem run_ret (a : α) (s : σ) :
    (Prog.ret a : Prog Op Ar α).run M t s = (a, s) := rfl

@[simp] theorem run_pure (a : α) (s : σ) :
    (Pure.pure a : Prog Op Ar α).run M t s = (a, s) := rfl

@[simp] theorem run_op (o : Op) (k : Ar o → Prog Op Ar α) (s : σ) :
    (Prog.op o k).run M t s = (k (M.exec t o s).1).run M t (M.exec t o s).2 := rfl

@[simp] theorem run_bind (p : Prog Op Ar α) (f : α → Prog Op Ar β) (s : σ) :
    (p >>= f).run M t s = (f (p.run M t s).1).run M t (p.run M t s).2 := by
  induction p generalizing s with
  | ret a => rfl
  | op o k ih => simp only [op_bind, run, ih]

@[simp] theorem run_map (f : α → β) (p : Prog Op Ar α) (s : σ) :
    (f <$> p).run M t s = (f (p.run M t s).1, (p.run M t s).2) :=
  run_bind M t p (fun a => .ret (f a)) s

@[simp] theorem run_ite (c : Prop) [Decidable c] (p q : Prog Op Ar α) (s : σ) :
    (if c then p else q).run M t s = if c then p.run M t s else q.run M t s := by
  split <;> rfl

@[simp] theorem run_when (c : Prop) [Decidable c] (p : Prog Op Ar Unit) (s : σ) :
    (when c p).run M t s = if c then p.run M t s else ((), s) :=
  run_ite M t c p (.ret ()) s

@[simp] theorem trace_ret (a : α) (s : σ) :
    (Prog.ret a : Prog Op Ar α).trace M t s = [] := rfl

@[simp] theorem trace_pure (a : α) (s : σ) :
    (Pure.pure a : Prog Op Ar α).trace M t s = [] := rfl

@[simp] theorem trace_op (o : Op) (k : Ar o → Prog Op Ar α) (s : σ) :
    (Prog.op o k).trace M t s = o :: (k (M.exec t o s).1).trace M t (M.exec t o s).2 := rfl

@[simp] theorem trace_bind (p : Prog Op Ar α) (f : α → Prog Op Ar β) (s : σ) :
    (p >>= f).trace M t s =
      p.trace M t s ++ (f (p.run M t s).1).trace M t (p.run M t s).2 := by
  induction p generalizing s with
  | ret a => rfl
  | op o k ih => simp only [op_bind, trace, run, ih, List.cons_append]

@[simp] theorem trace_map (f : α → β) (p : Prog Op Ar α) (s : σ) :
    (f <$> p).trace M t s = p.trace M t s :=
  (trace_bind M t p (fun a => .ret (f a)) s).trans (List.append_nil _)

@[simp] theorem trace_ite (c : Prop) [Decidable c] (p q : Prog Op Ar α) (s : σ) :
    (if c then p else q).trace M t s
      = if c then p.trace M t s else q.trace M t s := by
  split <;> rfl

@[simp] theorem trace_when (c : Prop) [Decidable c] (p : Prog Op Ar Unit) (s : σ) :
    (when c p).trace M t s = if c then p.trace M t s else [] :=
  trace_ite M t c p (.ret ()) s

@[simp] theorem run_foldUpTo_zero (body : Nat → β → Prog Op Ar β) (b : β)
    (s : σ) : (foldUpTo body 0 b).run M t s = (b, s) := rfl

theorem run_foldUpTo_succ (body : Nat → β → Prog Op Ar β) (n : Nat) (b : β)
    (s : σ) :
    (foldUpTo body (n + 1) b).run M t s =
      (body n ((foldUpTo body n b).run M t s).1).run M t
        ((foldUpTo body n b).run M t s).2 := by
  rw [foldUpTo, run_bind]

theorem trace_foldUpTo_succ (body : Nat → β → Prog Op Ar β) (n : Nat) (b : β)
    (s : σ) :
    (foldUpTo body (n + 1) b).trace M t s =
      (foldUpTo body n b).trace M t s ++
        (body n ((foldUpTo body n b).run M t s).1).trace M t
          ((foldUpTo body n b).run M t s).2 := by
  rw [foldUpTo, trace_bind]

theorem run_forUpTo_succ (body : Nat → Prog Op Ar Unit) (n : Nat) (s : σ) :
    (forUpTo (n + 1) body).run M t s =
      (body n).run M t ((forUpTo n body).run M t s).2 :=
  run_foldUpTo_succ M t _ n () s

@[simp] theorem run_calls_nil (s : σ) :
    (calls ([] : List (Prog Op Ar Unit))).run M t s = ((), s) := rfl

@[simp] theorem run_calls_cons (p : Prog Op Ar Unit) (ps : List (Prog Op Ar Unit))
    (s : σ) : (calls (p :: ps)).run M t s = (calls ps).run M t (p.run M t s).2 := by
  rw [calls, run_bind]

@[simp] theorem trace_calls_nil (s : σ) :
    (calls ([] : List (Prog Op Ar Unit))).trace M t s = [] := rfl

@[simp] theorem trace_calls_cons (p : Prog Op Ar Unit) (ps : List (Prog Op Ar Unit))
    (s : σ) : (calls (p :: ps)).trace M t s =
      p.trace M t s ++ (calls ps).trace M t (p.run M t s).2 := by
  rw [calls, trace_bind]

theorem Only.trace {P : Op → Prop} {p : Prog Op Ar α} (hp : p.Only P) {s : σ} {o : Op}
    (ho : o ∈ p.trace M t s) : P o := by
  induction hp generalizing s with
  | ret a => cases ho
  | op hP _ ih =>
      rw [trace_op, List.mem_cons] at ho
      rcases ho with rfl | ho
      · exact hP
      · exact ih _ ho

/-- A loop that stops asking at the first "yes" of tests that change nothing. -/
theorem run_anyUpTo {test : Nat → Prog Op Ar Bool} {yes : Nat → Bool} {s : σ}
    (htest : ∀ i, (test i).run M t s = (yes i, s)) (n : Nat) :
    (foldUpTo (fun i found => if found then pure true else test i) n false).run M t s =
      ((List.range n).any yes, s) := by
  induction n with
  | zero => rfl
  | succ n ih =>
      rw [run_foldUpTo_succ, ih, List.range_succ, List.any_append]
      cases (List.range n).any yes
      · simp [htest]
      · rfl

/-! ### Stopping half-way -/

/-- The shared state when the run is cut off behind its first `n` operations. -/
def runFor : Nat → Prog Op Ar α → σ → σ
  | 0, _, s => s
  | _ + 1, .ret _, s => s
  | n + 1, .op o k, s => runFor n (k (M.exec t o s).1) (M.exec t o s).2

@[simp] theorem runFor_zero (p : Prog Op Ar α) (s : σ) : p.runFor M t 0 s = s := by
  cases p <;> rfl

@[simp] theorem runFor_ret (n : Nat) (a : α) (s : σ) :
    (Prog.ret a : Prog Op Ar α).runFor M t n s = s := by
  cases n <;> rfl

@[simp] theorem runFor_op (n : Nat) (o : Op) (k : Ar o → Prog Op Ar α) (s : σ) :
    (Prog.op o k).runFor M t (n + 1) s = (k (M.exec t o s).1).runFor M t n (M.exec t o s).2 := rfl

/-- Cut off behind its last operation, or never, the run is complete. -/
theorem runFor_of_length_le {p : Prog Op Ar α} {n : Nat} {s : σ}
    (h : (p.trace M t s).length ≤ n) : p.runFor M t n s = (p.run M t s).2 := by
  induction p generalizing n s with
  | ret a => exact runFor_ret M t n a s
  | op o k ih =>
      cases n with
      | zero => exact absurd h (Nat.not_succ_le_zero _)
      | succ n => exact ih _ (Nat.le_of_succ_le_succ h)

/-- Before the first operation of its second part, a run is one of its first. -/
theorem runFor_bind_of_le {p : Prog Op Ar α} {f : α → Prog Op Ar β} {n : Nat} {s : σ}
    (h : n ≤ (p.trace M t s).length) : (p >>= f).runFor M t n s = p.runFor M t n s := by
  induction p generalizing n s with
  | ret a =>
      obtain rfl : n = 0 := Nat.le_zero.mp h
      rw [runFor_zero, runFor_zero]
  | op o k ih =>
      cases n with
      | zero => rw [runFor_zero, runFor_zero]
      | succ n => exact ih _ (Nat.le_of_succ_le_succ h)

/-- Wherever a run is cut off, what each of its operations keeps is kept. -/
theorem Only.runFor {P : Op → Prop} {I : σ → Prop} {p : Prog Op Ar α} (hp : p.Only P)
    (hP : ∀ o, P o → ∀ s, I s → I (M.exec t o s).2) {s : σ} (hs : I s) (n : Nat) :
    I (p.runFor M t n s) := by
  induction hp generalizing n s with
  | ret a => rwa [runFor_ret]
  | op ho _ ih =>
      cases n with
      | zero => exact hs
      | succ n => exact ih _ (hP _ ho s hs) n

/-- `I` holds at the start of the run, between any two of its operations, and at
its end. -/
def Throughout (I : σ → Prop) (p : Prog Op Ar α) (s : σ) : Prop := ∀ n, I (p.runFor M t n s)

section Throughout

variable {I : σ → Prop}

@[simp] theorem throughout_ret (a : α) (s : σ) :
    Throughout M t I (.ret a : Prog Op Ar α) s ↔ I s := by
  constructor
  · intro h
    exact h 0
  · intro h n
    rwa [runFor_ret]

@[simp] theorem throughout_op (o : Op) (k : Ar o → Prog Op Ar α) (s : σ) :
    Throughout M t I (.op o k) s ↔ I s ∧ Throughout M t I (k (M.exec t o s).1) (M.exec t o s).2 := by
  constructor
  · intro h
    exact ⟨h 0, fun n => h (n + 1)⟩
  · rintro ⟨hs, hk⟩ n
    cases n with
    | zero => exact hs
    | succ n => exact hk n

theorem Throughout.start {p : Prog Op Ar α} {s : σ} (h : Throughout M t I p s) : I s := by
  have h0 := h 0
  rwa [runFor_zero] at h0

@[simp] theorem throughout_bind (p : Prog Op Ar α) (f : α → Prog Op Ar β) (s : σ) :
    Throughout M t I (p >>= f) s ↔
      Throughout M t I p s ∧ Throughout M t I (f (p.run M t s).1) (p.run M t s).2 := by
  induction p generalizing s with
  | ret a =>
      rw [ret_bind, throughout_ret, run_ret]
      exact ⟨fun h => ⟨h.start, h⟩, And.right⟩
  | op o k ih => rw [op_bind, throughout_op, throughout_op, ih, run_op, and_assoc]

end Throughout

/-! ### Programs that keep an invariant -/

/-- Run alone, the program carries `I` from its start to its end, and `Q` holds
of its result. -/
def Keeps (I : σ → Prop) (p : Prog Op Ar α) (Q : α → Prop) : Prop :=
  ∀ t s, I s → I (p.run M t s).2 ∧ Q (p.run M t s).1

namespace Keeps

variable {M} {I : σ → Prop} {Q : α → Prop}

theorem ret {a : α} (h : Q a) : Keeps M I (.ret a) Q := fun _ _ hs => ⟨hs, h⟩

theorem op {R : Ar o → Prop} {k : Ar o → Prog Op Ar α}
    (ho : ∀ t s, I s → I (M.exec t o s).2 ∧ R (M.exec t o s).1)
    (hk : ∀ a, R a → Keeps M I (k a) Q) : Keeps M I (.op o k) Q := by
  intro t s hs
  obtain ⟨hs', ha⟩ := ho t s hs
  exact hk _ ha t _ hs'

theorem bind {p : Prog Op Ar β} {f : β → Prog Op Ar α} {R : β → Prop} (hp : Keeps M I p R)
    (hf : ∀ b, R b → Keeps M I (f b) Q) : Keeps M I (p >>= f) Q := by
  intro t s hs
  obtain ⟨hs', hb⟩ := hp t s hs
  rw [run_bind]
  exact hf _ hb t _ hs'

theorem ite {c : Prop} [Decidable c] {p q : Prog Op Ar α} (hp : c → Keeps M I p Q)
    (hq : ¬c → Keeps M I q Q) : Keeps M I (if c then p else q) Q := by
  by_cases hc : c
  · rw [if_pos hc]
    exact hp hc
  · rw [if_neg hc]
    exact hq hc

/-- A program whose operations keep the invariant each keeps it. -/
theorem of_only {P : Op → Prop} {p : Prog Op Ar α} (hp : p.Only P)
    (hP : ∀ o, P o → ∀ t s, I s → I (M.exec t o s).2) : Keeps M I p fun _ => True := by
  induction hp with
  | ret a => exact ret trivial
  | op ho _ ih => exact op (R := fun _ => True) (fun t s hs => ⟨hP _ ho t s hs, trivial⟩) fun a _ => ih a

/-- A loop keeps the invariant, and an assertion on its accumulator that each
round carries on. -/
theorem foldUpTo {body : Nat → β → Prog Op Ar β} {J : Nat → β → Prop} {n : Nat} {b : β}
    (h0 : J 0 b) (hround : ∀ i b, i < n → J i b → Keeps M I (body i b) (J (i + 1))) :
    Keeps M I (Prog.foldUpTo body n b) (J n) := by
  induction n with
  | zero => exact ret h0
  | succ n ih =>
      exact (ih fun i b hi => hround i b (Nat.lt_succ_of_lt hi)).bind fun b' hb' =>
        hround n b' (Nat.lt_succ_self n) hb'

end Keeps

end Prog

end Aclean
