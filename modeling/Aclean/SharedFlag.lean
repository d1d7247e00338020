import Mathlib.Logic.Basic
import Mathlib.Tactic.Common

/-!
# A flag with several reporters

Each report overwrites one flag, whoever made it. A fault that a source has
reported stays in the flag as long as no other source reports that all is
well; there is one reporter too many exactly when that happens.
-/

namespace Aclean

namespace SharedFlag

variable {σ : Type*} [DecidableEq σ]

/-- What source `i` has reported last before step `n`; a step without a report
has none. -/
def latest (reports : Nat → Option (σ × Bool)) (i : σ) : Nat → Option Bool
  | 0 => none
  | n + 1 =>
      match reports n with
      | some (j, v) => if j = i then some v else latest reports i n
      | none => latest reports i n

/-- A step with a report leaves the flag to it, any other leaves it alone. -/
structure Overwritten (reports : Nat → Option (σ × Bool)) (flag : Nat → Prop) : Prop where
  report : ∀ {n i v}, reports n = some (i, v) → (flag (n + 1) ↔ v = true)
  quiet : ∀ {n}, reports n = none → (flag (n + 1) ↔ flag n)

variable {reports : Nat → Option (σ × Bool)} {flag : Nat → Prop}

theorem latest_own {n : Nat} {i : σ} {v : Bool} (h : reports n = some (i, v)) :
    latest reports i (n + 1) = some v := by
  rw [latest, h]
  exact if_pos rfl

theorem latest_other {n : Nat} {i j : σ} {v : Bool} (h : reports n = some (j, v)) (hij : j ≠ i) :
    latest reports i (n + 1) = latest reports i n := by
  rw [latest, h]
  exact if_neg hij

theorem latest_quiet {n : Nat} (i : σ) (h : reports n = none) :
    latest reports i (n + 1) = latest reports i n := by
  rw [latest, h]

omit [DecidableEq σ] in
theorem Overwritten.of_step
    (h : ∀ n, flag (n + 1) ↔ (reports n).elim (flag n) fun r => r.2 = true) :
    Overwritten reports flag := by
  refine ⟨?_, ?_⟩
  · intro n i v hn
    rw [h, hn]
    rfl
  · intro n hn
    rw [h, hn]
    rfl

/-- Whatever fault a source reported last is in the flag. -/
def Kept (reports : Nat → Option (σ × Bool)) (flag : Nat → Prop) (n : Nat) : Prop :=
  ∀ i, latest reports i n = some true → flag n

/-- Nobody reports that all is well over the fault that another reported. -/
def NoOverride (reports : Nat → Option (σ × Bool)) (n : Nat) : Prop :=
  ∀ i, reports n = some (i, false) → ∀ j, j ≠ i → latest reports j n ≠ some true

theorem Kept.step (h : Overwritten reports flag) {n : Nat} (hkept : Kept reports flag n)
    (hstep : NoOverride reports n) : Kept reports flag (n + 1) := by
  intro i hi
  cases hn : reports n with
  | none =>
    rw [latest_quiet i hn] at hi
    exact (h.quiet hn).mpr (hkept i hi)
  | some r =>
    obtain ⟨j, v⟩ := r
    rw [h.report hn]
    by_cases hij : j = i
    · subst hij
      rw [latest_own hn] at hi
      exact Option.some.inj hi
    · cases v with
      | true => rfl
      | false =>
        rw [latest_other hn hij] at hi
        exact absurd hi (hstep j hn i (Ne.symm hij))

theorem kept_iff (h : Overwritten reports flag) :
    (∀ n, Kept reports flag n) ↔ ∀ n, NoOverride reports n := by
  constructor
  · intro hkept n i hn j hji hj
    have hlate : latest reports j (n + 1) = some true := by
      rw [latest_other hn (Ne.symm hji), hj]
    have hflag := hkept (n + 1) j hlate
    rw [h.report hn] at hflag
    exact absurd hflag (by decide)
  · intro hstep n
    induction n with
    | zero =>
      intro i hi
      exact absurd hi (by simp [latest])
    | succ n ih => exact ih.step h (hstep n)

/-- With one reporter the flag is what it reported last. -/
theorem flag_iff_latest [Subsingleton σ] (h : Overwritten reports flag) (i : σ) (n : Nat) :
    flag n ↔ latest reports i n = some true ∨ latest reports i n = none ∧ flag 0 := by
  induction n with
  | zero => simp [latest]
  | succ n ih =>
    cases hn : reports n with
    | none => rw [h.quiet hn, latest_quiet i hn, ih]
    | some r =>
      obtain ⟨j, v⟩ := r
      obtain rfl : j = i := Subsingleton.elim j i
      rw [h.report hn, latest_own hn]
      simp

end SharedFlag

end Aclean
