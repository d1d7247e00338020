import Aclean.Pool

/-!
# What a thread has done of its program

The history of a run holds, thread by thread, a path through each program: the
thread's own operations with the answers they got. `Prog.Plays` is such a path
and where it leads, so that a result about a run can speak of a call of one
thread from its first operation to its last, whatever the others did between.
-/

namespace Aclean

variable {Op : Type} {Ar : Op → Type} {σ Ev α β : Type}

/-- An operation together with the answer it got. -/
abbrev Answered (Op : Type) (Ar : Op → Type) := (o : Op) × Ar o

def Label.ownBy (t : Nat) : Label Op Ar Ev → Option (Answered Op Ar)
  | .op u o a => if u = t then some ⟨o, a⟩ else none
  | .env _ => none

/-- The thread's own part of a history. -/
def own (t : Nat) (tr : List (Label Op Ar Ev)) : List (Answered Op Ar) :=
  tr.filterMap (Label.ownBy t)

@[simp] theorem own_nil (t : Nat) : own t ([] : List (Label Op Ar Ev)) = [] := rfl

@[simp] theorem own_cons_self (t : Nat) (o : Op) (a : Ar o) (tr : List (Label Op Ar Ev)) :
    own t (.op t o a :: tr) = ⟨o, a⟩ :: own t tr :=
  List.filterMap_cons_some (if_pos rfl)

theorem own_cons_of_ne {t u : Nat} (h : u ≠ t) (o : Op) (a : Ar o) (tr : List (Label Op Ar Ev)) :
    own t (.op u o a :: tr) = own t tr :=
  List.filterMap_cons_none (if_neg h)

@[simp] theorem own_snoc (t : Nat) (tr : List (Label Op Ar Ev)) (l : Label Op Ar Ev) :
    own t (tr ++ [l]) = own t tr ++ (l.ownBy t).toList := by
  rw [own, List.filterMap_append, own]
  cases h : l.ownBy t <;> simp [h]

namespace Prog

/-! ## Paths through a program -/

/-- Answered so far as listed, the program is down to `q`. -/
inductive Plays : Prog Op Ar α → List (Answered Op Ar) → Prog Op Ar α → Prop where
  | start (p : Prog Op Ar α) : Plays p [] p
  | op {o : Op} {k : Ar o → Prog Op Ar α} {a : Ar o} {es : List (Answered Op Ar)}
      {q : Prog Op Ar α} (h : Plays (k a) es q) : Plays (.op o k) (⟨o, a⟩ :: es) q

namespace Plays

theorem snoc {p : Prog Op Ar α} {es : List (Answered Op Ar)} {o : Op} {k : Ar o → Prog Op Ar α}
    (h : p.Plays es (.op o k)) (a : Ar o) : p.Plays (es ++ [⟨o, a⟩]) (k a) := by
  generalize hq : Prog.op o k = q at h
  induction h with
  | start p =>
      subst hq
      exact .op (.start _)
  | op _ ih => exact .op (ih hq)

theorem of_ret {a : α} {es : List (Answered Op Ar)} {q : Prog Op Ar α}
    (h : (Prog.ret a).Plays es q) : es = [] ∧ q = .ret a := by
  cases h
  exact ⟨rfl, rfl⟩

/-- A finished program has performed its first operation. -/
theorem of_op {o : Op} {k : Ar o → Prog Op Ar α} {es : List (Answered Op Ar)} {b : α}
    (h : (Prog.op o k).Plays es (.ret b)) :
    ∃ a es', es = ⟨o, a⟩ :: es' ∧ (k a).Plays es' (.ret b) := by
  cases h with
  | op h => exact ⟨_, _, rfl, h⟩

/-- The answers decide where a path leads. -/
theorem unique {p q r : Prog Op Ar α} {es : List (Answered Op Ar)} (hq : p.Plays es q)
    (hr : p.Plays es r) : q = r := by
  induction hq with
  | start p =>
      cases hr
      rfl
  | op _ ih =>
      cases hr with
      | op h => exact ih h

/-- A path through two programs in a row is still in the first, or through it. -/
theorem of_bind {p : Prog Op Ar α} {f : α → Prog Op Ar β} {es : List (Answered Op Ar)}
    {q : Prog Op Ar β} (h : (p >>= f).Plays es q) :
    (∃ o k, p.Plays es (.op o k) ∧ q = .op o fun a => k a >>= f) ∨
      ∃ es₁ es₂ a, es = es₁ ++ es₂ ∧ p.Plays es₁ (.ret a) ∧ (f a).Plays es₂ q := by
  induction p generalizing es with
  | ret a => exact .inr ⟨[], es, a, rfl, .start _, h⟩
  | op o k ih =>
      cases h with
      | start => exact .inl ⟨o, k, .start _, rfl⟩
      | @op _ _ a es _ h =>
          rcases ih a h with ⟨o', k', hp, hq⟩ | ⟨es₁, es₂, b, rfl, hp, hf⟩
          · exact .inl ⟨o', k', .op hp, hq⟩
          · exact .inr ⟨⟨o, a⟩ :: es₁, es₂, b, rfl, .op hp, hf⟩

theorem of_bind_ret {p : Prog Op Ar α} {f : α → Prog Op Ar β} {es : List (Answered Op Ar)} {b : β}
    (h : (p >>= f).Plays es (.ret b)) :
    ∃ es₁ es₂ a, es = es₁ ++ es₂ ∧ p.Plays es₁ (.ret a) ∧ (f a).Plays es₂ (.ret b) :=
  h.of_bind.resolve_left fun ⟨_, _, _, hq⟩ => nomatch hq

/-- Whatever the answers, the operations are the program's. -/
theorem only {P : Op → Prop} {p q : Prog Op Ar α} {es : List (Answered Op Ar)} (h : p.Plays es q)
    (hp : p.Only P) : ∀ e ∈ es, P e.1 := by
  induction h with
  | start => nofun
  | op _ ih =>
      obtain ⟨ho, hk⟩ := (only_op ..).mp hp
      exact List.forall_mem_cons.mpr ⟨ho, ih (hk _)⟩

/-- A thread that makes the same call over and over has some calls behind it,
each from start to end, and at most a part of one more. -/
theorem of_replicate {o : Op} {k : Ar o → Prog Op Ar Unit} {q : Prog Op Ar Unit} {n : Nat}
    {es : List (Answered Op Ar)} (h : (calls (List.replicate n (.op o k))).Plays es q) :
    ∃ (rounds : List (List (Answered Op Ar))) (rest : List (Answered Op Ar)) (o' : Op)
      (k' : Ar o' → Prog Op Ar Unit), es = rounds.flatten ++ rest ∧
      (∀ es ∈ rounds, (Prog.op o k).Plays es (.ret ())) ∧ (Prog.op o k).Plays rest (.op o' k') := by
  induction n generalizing es with
  | zero =>
      obtain ⟨rfl, -⟩ := h.of_ret
      exact ⟨[], [], o, k, rfl, nofun, .start _⟩
  | succ n ih =>
      rcases h.of_bind with ⟨o', k', hp, -⟩ | ⟨es₁, es₂, ⟨⟩, rfl, hp, hrest⟩
      · exact ⟨[], es, o', k', rfl, nofun, hp⟩
      · obtain ⟨rounds, rest, o', k', rfl, hrounds, hp'⟩ := ih hrest
        exact ⟨es₁ :: rounds, rest, o', k', by simp, List.forall_mem_cons.mpr ⟨hp, hrounds⟩, hp'⟩

end Plays

/-! ## With some of the answers known -/

/-- What is left of a program when some of its operations need not be asked:
their answers are known. -/
def given (known : (o : Op) → Option (Ar o)) (p : Prog Op Ar α) : Prog Op Ar α :=
  p.expand fun o =>
    match known o with
    | some a => .ret a
    | none => .op o .ret

section Given

variable {known : (o : Op) → Option (Ar o)}

@[simp] theorem given_ret (a : α) : (Prog.ret a : Prog Op Ar α).given known = .ret a := rfl

@[simp] theorem given_pure (a : α) : (Pure.pure a : Prog Op Ar α).given known = .ret a := rfl

theorem given_some {o : Op} {a : Ar o} (h : known o = some a) (k : Ar o → Prog Op Ar α) :
    (Prog.op o k).given known = (k a).given known := by
  simp [given, h]

theorem given_none {o : Op} (h : known o = none) (k : Ar o → Prog Op Ar α) :
    (Prog.op o k).given known = .op o fun a => (k a).given known := by
  simp [given, h]

@[simp] theorem given_bind (p : Prog Op Ar α) (f : α → Prog Op Ar β) :
    (p >>= f).given known = p.given known >>= fun a => (f a).given known :=
  expand_bind ..

@[simp] theorem given_ite (c : Prop) [Decidable c] (p q : Prog Op Ar α) :
    (if c then p else q).given known = if c then p.given known else q.given known :=
  expand_ite ..

@[simp] theorem given_when (c : Prop) [Decidable c] (p : Prog Op Ar Unit) :
    (when c p).given known = when c (p.given known) :=
  expand_when ..

theorem given_of_only {p : Prog Op Ar α} (h : p.Only fun o => known o = none) :
    p.given known = p := by
  induction h with
  | ret a => rfl
  | op ho _ ih => rw [given_none ho, funext ih]

/-- A path on which the known answers were given is, but for them, a path of
what is left of the program. -/
theorem Plays.given {p : Prog Op Ar α} {es : List (Answered Op Ar)} {b : α}
    (h : p.Plays es (.ret b)) (hknown : ∀ e ∈ es, ∀ v, known e.1 = some v → e.2 = v) :
    (p.given known).Plays (es.filter fun e => (known e.1).isNone) (.ret b) := by
  generalize hq : Prog.ret b = q at h
  induction h with
  | start p =>
      subst hq
      exact .start _
  | @op o k a es q _ ih =>
      obtain ⟨hhead, htail⟩ := List.forall_mem_cons.mp hknown
      specialize ih htail hq
      cases hk : known o with
      | none =>
          rw [given_none hk, List.filter_cons_of_pos (by simp [hk])]
          exact .op ih
      | some v =>
          obtain rfl : a = v := hhead v hk
          rw [given_some hk, List.filter_cons_of_neg (by simp [hk])]
          exact ih

end Given

end Prog

/-! ## The paths of a run -/

/-- What a thread of a run has done is a path through its program, down to what
is left of it. -/
theorem Run.plays {S : System Op Ar σ Ev} {P : StepCond Op Ar σ Ev} {c c' : Config Op Ar σ}
    {tr : List (Label Op Ar Ev)} (h : Run S P c tr c') (t : Nat) :
    (c.threads t).Plays (own t tr) (c'.threads t) := by
  induction h with
  | start => exact .start _
  | @op tr s T u o k _ hnext _ _ ih =>
      rw [own_snoc]
      by_cases hu : u = t
      · subst hu
        simp only at ih
        rw [hnext] at ih
        simpa [Label.ownBy] using ih.snoc _
      · simpa [Label.ownBy, hu, Function.update_of_ne (Ne.symm hu)] using ih
  | @env tr s T e _ _ _ ih =>
      rw [own_snoc]
      simpa [Label.ownBy] using ih

end Aclean
