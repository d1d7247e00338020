import Mathlib.Data.Finset.Basic
import Mathlib.Logic.Relation
import Mathlib.Order.Basic
import Aclean.Pool

/-!
# Lock orders

Threads that take their locks in increasing order never wait for each other
in a circle. That is stated first, of threads and locks of any kind. A
`LockSpec` says what the operations of a signature do to the locks; its
discipline makes a program take them in order. Such a program can be read
backwards: what is left of it tells which locks its thread holds.
-/

namespace Aclean

/-! ## Waiting in a circle -/

section WaitsFor

variable {T L R : Type}

/-- `t` wants a lock that `u` holds. -/
def WaitsFor (wants : T → L → Prop) (holds : L → T → Prop) (t u : T) : Prop :=
  ∃ k, wants t k ∧ holds k u

variable {wants : T → L → Prop} {holds : L → T → Prop} {rank : L → R} [Preorder R]
  (horder : ∀ t k k', wants t k → holds k' t → rank k' < rank k)
include horder

/-- Along a chain of waiting threads the locks rise. -/
theorem WaitsFor.climbs {t u : T} (h : Relation.TransGen (WaitsFor wants holds) t u) :
    ∃ k k', wants t k ∧ holds k' u ∧ rank k ≤ rank k' := by
  induction h with
  | single hwait =>
      obtain ⟨k, hwants, hholds⟩ := hwait
      exact ⟨k, k, hwants, hholds, le_refl _⟩
  | tail _ hwait ih =>
      obtain ⟨k, k', hwants, hholds, hle⟩ := ih
      obtain ⟨j, hwants', hholds'⟩ := hwait
      exact ⟨k, j, hwants, hholds', hle.trans (horder _ _ _ hwants' hholds).le⟩

/-- Whoever wants a lock holds only lower ones: nobody waits for itself. -/
theorem WaitsFor.acyclic (t : T) : ¬ Relation.TransGen (WaitsFor wants holds) t t := by
  intro h
  obtain ⟨k, k', hwants, hholds, hle⟩ := WaitsFor.climbs horder h
  exact (horder t k k' hwants hholds).not_ge hle

end WaitsFor

/-! ## Taking locks in order -/

/-- What an operation does to the locks; one that is borrowed is given back
within the operation. -/
inductive LockUse (L : Type) where
  | free
  | take (k : L)
  | give (k : L)
  | borrow (k : L)

structure LockSpec (Op L R : Type) where
  use : Op → LockUse L
  rank : L → R

namespace LockSpec

variable {Op : Type} {Ar : Op → Type} {L R α β : Type} [Preorder R] {S : LockSpec Op L R}

/-- All locks in `l` are lower than `k`. -/
def Below (S : LockSpec Op L R) (l : Finset L) (k : L) : Prop := ∀ k' ∈ l, S.rank k' < S.rank k

theorem below_empty (k : L) : S.Below ∅ k := fun _ h => absurd h (Finset.notMem_empty _)

theorem Below.notMem {l : Finset L} {k : L} (h : S.Below l k) : k ∉ l :=
  fun hk => lt_irrefl _ (h k hk)

theorem Below.mono {l : Finset L} {k k' : L} (h : S.Below l k) (hle : S.rank k ≤ S.rank k') :
    S.Below l k' :=
  fun j hj => (h j hj).trans_le hle

variable [DecidableEq L]

theorem Below.cons {l : Finset L} {k k' : L} (h : S.Below l k) (hlt : S.rank k < S.rank k') :
    S.Below (insert k l) k' := by
  intro j hj
  rcases Finset.mem_insert.mp hj with rfl | hj
  · exact hlt
  · exact (h j hj).trans hlt

theorem Below.erase_insert {l : Finset L} {k : L} (h : S.Below l k) : (insert k l).erase k = l :=
  Finset.erase_insert h.notMem

/-- The local state of a thread is the set of locks it has. -/
def discipline (S : LockSpec Op L R) : Discipline Op Ar (Finset L) where
  ok l o :=
    match S.use o with
    | .free => True
    | .take k => S.Below l k
    | .borrow k => S.Below l k
    | .give k => k ∈ l
  answers _ _ _ := True
  next l o _ :=
    match S.use o with
    | .take k => insert k l
    | .give k => l.erase k
    | _ => l

section Next

variable {o : Op} {k : L} (l : Finset L)

theorem ok_take (h : S.use o = .take k) :
    (S.discipline : Discipline Op Ar (Finset L)).ok l o ↔ S.Below l k := by
  simp only [discipline, h]

theorem ok_borrow (h : S.use o = .borrow k) :
    (S.discipline : Discipline Op Ar (Finset L)).ok l o ↔ S.Below l k := by
  simp only [discipline, h]

theorem ok_give (h : S.use o = .give k) :
    (S.discipline : Discipline Op Ar (Finset L)).ok l o ↔ k ∈ l := by
  simp only [discipline, h]

theorem ok_free (h : S.use o = .free) : (S.discipline : Discipline Op Ar (Finset L)).ok l o := by
  simp only [discipline, h]

theorem next_take (h : S.use o = .take k) (a : Ar o) : S.discipline.next l o a = insert k l := by
  simp only [discipline, h]

theorem next_give (h : S.use o = .give k) (a : Ar o) : S.discipline.next l o a = l.erase k := by
  simp only [discipline, h]

theorem next_borrow (h : S.use o = .borrow k) (a : Ar o) : S.discipline.next l o a = l := by
  simp only [discipline, h]

theorem next_free (h : S.use o = .free) (a : Ar o) : S.discipline.next l o a = l := by
  simp only [discipline, h]

/-- What is done to other locks leaves this one alone. -/
theorem mem_next {j : L} (htake : S.use o ≠ .take j) (hgive : S.use o ≠ .give j) (a : Ar o) :
    j ∈ S.discipline.next l o a ↔ j ∈ l := by
  cases huse : S.use o with
  | free => rw [next_free l huse]
  | borrow k => rw [next_borrow l huse]
  | take k =>
      have hjk : j ≠ k := fun h => htake (h ▸ huse)
      rw [next_take l huse, Finset.mem_insert, or_iff_right hjk]
  | give k =>
      have hjk : j ≠ k := fun h => hgive (h ▸ huse)
      rw [next_give l huse, Finset.mem_erase, and_iff_right hjk]

end Next

/-! ## Programs that give back what they take -/

/-- The program ends with the locks it began with. -/
abbrev Keeps (S : LockSpec Op L R) (p : Prog Op Ar α) (l : Finset L) : Prop :=
  S.discipline.Keeps p l

variable {l : Finset L} {k : L} {o : Op}

theorem keeps_of_free {p : Prog Op Ar α} (hp : p.Only fun o => S.use o = .free) : S.Keeps p l :=
  .of_only hp fun _ ho => ⟨ok_free l ho, fun a _ => next_free l ho a⟩

section Brackets

variable {f : Ar o → Prog Op Ar α} {Q : α → Finset L → Prop}

theorem follows_free (h : S.use o = .free) (hf : ∀ a, S.discipline.Follows (f a) Q l) :
    S.discipline.Follows (.op o .ret >>= f) Q l := by
  refine .act (ok_free l h) fun a _ => ?_
  rw [next_free l h]
  exact hf a

theorem follows_borrow (h : S.use o = .borrow k) (hl : S.Below l k)
    (hf : ∀ a, S.discipline.Follows (f a) Q l) : S.discipline.Follows (.op o .ret >>= f) Q l := by
  refine .act ((ok_borrow l h).mpr hl) fun a _ => ?_
  rw [next_borrow l h]
  exact hf a

theorem follows_take (h : S.use o = .take k) (hl : S.Below l k)
    (hf : ∀ a, S.discipline.Follows (f a) Q (insert k l)) :
    S.discipline.Follows (.op o .ret >>= f) Q l := by
  refine .act ((ok_take l h).mpr hl) fun a _ => ?_
  rw [next_take l h]
  exact hf a

theorem follows_give (h : S.use o = .give k) (hl : S.Below l k)
    (hf : ∀ a, S.discipline.Follows (f a) Q l) :
    S.discipline.Follows (.op o .ret >>= f) Q (insert k l) := by
  refine .act ((ok_give _ h).mpr (Finset.mem_insert_self k l)) fun a _ => ?_
  rw [next_give _ h, hl.erase_insert]
  exact hf a

end Brackets

/-! ## Threads that wait -/

section Wants

variable {σ Ev : Type} (M : System Op Ar σ Ev) (c : Config Op Ar σ)

/-- The thread is about to take `k`, and has to wait. -/
def Wants (S : LockSpec Op L R) (t : Nat) (k : L) : Prop :=
  ∃ o r, c.threads t = .op o r ∧ S.use o = .take k ∧ M.enabled t o c.state = false

variable {M c} {ls : Nat → Finset L} {Q : Nat → Unit → Finset L → Prop}
  (hfollows : ∀ t, S.discipline.Follows (c.threads t) (Q t) (ls t))
include hfollows

theorem Wants.below {t : Nat} (h : S.Wants M c t k) : S.Below (ls t) k := by
  obtain ⟨o, r, hnext, huse, -⟩ := h
  have ht := hfollows t
  rw [hnext, Discipline.follows_op] at ht
  exact (ok_take _ huse).mp ht.1

/-- **Threads that take their locks in order never wait in a circle**, if
whoever holds a lock has taken it or waits for none. -/
theorem no_cycle {holds : L → Nat → Prop}
    (hholds : ∀ k t, holds k t → k ∈ ls t ∨ ∀ j, ¬ S.Wants M c t j) (t : Nat) :
    ¬ Relation.TransGen (WaitsFor (S.Wants M c) holds) t t := by
  have horder : ∀ t k k', S.Wants M c t k → holds k' t → S.rank k' < S.rank k := by
    intro t k k' hwants hk'
    rcases hholds k' t hk' with hmem | hnone
    · exact hwants.below hfollows k' hmem
    · exact absurd hwants (hnone k)
  exact WaitsFor.acyclic horder t

end Wants

/-! ## Reading a program backwards -/

/-- An operation tells the locks before it from those after it. -/
theorem next_injective {l₁ l₂ : Finset L} {a : Ar o}
    (h₁ : (S.discipline : Discipline Op Ar (Finset L)).ok l₁ o)
    (h₂ : (S.discipline : Discipline Op Ar (Finset L)).ok l₂ o)
    (heq : S.discipline.next l₁ o a = S.discipline.next l₂ o a) : l₁ = l₂ := by
  cases huse : S.use o with
  | free => rwa [next_free _ huse, next_free _ huse] at heq
  | borrow k => rwa [next_borrow _ huse, next_borrow _ huse] at heq
  | take k =>
      have hb₁ := (ok_take _ huse).mp h₁
      have hb₂ := (ok_take _ huse).mp h₂
      rw [next_take _ huse, next_take _ huse] at heq
      rw [← hb₁.erase_insert, heq, hb₂.erase_insert]
  | give k =>
      have hk₁ := (ok_give _ huse).mp h₁
      have hk₂ := (ok_give _ huse).mp h₂
      rw [next_give _ huse, next_give _ huse] at heq
      rw [← Finset.insert_erase hk₁, heq, Finset.insert_erase hk₂]

/-- Where a program ends tells where it began. -/
theorem begins_unique (hAr : ∀ o, Nonempty (Ar o)) {p : Prog Op Ar α} {e l₁ l₂ : Finset L}
    (h₁ : S.discipline.Follows p (fun _ l' => l' = e) l₁)
    (h₂ : S.discipline.Follows p (fun _ l' => l' = e) l₂) : l₁ = l₂ := by
  induction p generalizing l₁ l₂ with
  | ret a =>
      exact ((S.discipline.follows_ret ..).mp h₁).trans ((S.discipline.follows_ret ..).mp h₂).symm
  | op o r ih =>
      obtain ⟨hok₁, hr₁⟩ := (S.discipline.follows_op ..).mp h₁
      obtain ⟨hok₂, hr₂⟩ := (S.discipline.follows_op ..).mp h₂
      obtain ⟨a⟩ := hAr o
      exact next_injective hok₁ hok₂ (ih a (hr₁ a trivial) (hr₂ a trivial))

end LockSpec

end Aclean
