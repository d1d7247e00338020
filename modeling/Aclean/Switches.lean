import Mathlib.Data.Set.Basic
import Mathlib.Data.List.Induction

/-!
# Switches in groups

A board of switches that are thrown one after the other. Throwing a switch on
throws the others of its group off; throwing it off leaves the others alone.
What is on after any sequence of calls is read off the last call that concerns
a switch, and no group ever has two switches on.
-/

namespace Aclean

namespace Switches

variable {ι γ : Type*}

inductive Call (ι : Type*) where
  | on (i : ι)
  | off (i : ι)
  deriving DecidableEq, Repr

/-- The last call of the sequence with the property. -/
def lastWith (p : Call ι → Bool) (calls : List (Call ι)) : Option (Call ι) :=
  calls.reverse.find? p

theorem lastWith_nil (p : Call ι → Bool) : lastWith p [] = none := rfl

theorem lastWith_snoc (p : Call ι → Bool) (calls : List (Call ι)) (c : Call ι) :
    lastWith p (calls ++ [c]) = if p c then some c else lastWith p calls := by
  simp only [lastWith, List.reverse_append, List.reverse_singleton, List.singleton_append,
    List.find?_cons]
  split <;> simp [*]

/-- What is on after the call, when `S` was on before it. -/
def Call.apply (group : ι → γ) : Call ι → Set ι → Set ι
  | .on i, S => {j | j = i ∨ group j ≠ group i ∧ j ∈ S}
  | .off i, S => {j | j ≠ i ∧ j ∈ S}

theorem Call.mem_apply_on {group : ι → γ} {i j : ι} {S : Set ι} :
    j ∈ (Call.on i).apply group S ↔ j = i ∨ group j ≠ group i ∧ j ∈ S := Iff.rfl

theorem Call.mem_apply_off {group : ι → γ} {i j : ι} {S : Set ι} :
    j ∈ (Call.off i).apply group S ↔ j ≠ i ∧ j ∈ S := Iff.rfl

/-- What is on after the calls, none being on before them. -/
def lit (group : ι → γ) (calls : List (Call ι)) : Set ι :=
  calls.foldl (fun S c => c.apply group S) ∅

theorem lit_snoc (group : ι → γ) (calls : List (Call ι)) (c : Call ι) :
    lit group (calls ++ [c]) = c.apply group (lit group calls) := by
  simp [lit]

section

variable [DecidableEq ι] [DecidableEq γ] (group : ι → γ)

/-- The calls that decide whether `j` is on: those that throw a switch of its
group on, and those that throw `j` itself off. -/
def Concerns (j : ι) : Call ι → Bool
  | .on i => group i = group j
  | .off i => i = j

theorem mem_lit (calls : List (Call ι)) (j : ι) :
    j ∈ lit group calls ↔ lastWith (Concerns group j) calls = some (.on j) := by
  induction calls using List.reverseRecOn with
  | nil => simp [lit, lastWith_nil]
  | append_singleton calls c ih =>
    rw [lit_snoc, lastWith_snoc]
    cases c with
    | on i =>
      by_cases hij : group i = group j
      · rw [if_pos (by simpa [Concerns] using hij)]
        have hback : ¬ (group j ≠ group i) := fun h => h hij.symm
        simp [Call.apply, hback, eq_comm]
      · rw [if_neg (by simpa [Concerns] using hij), ← ih]
        have hne : j ≠ i := fun h => hij (by rw [h])
        simp [Call.apply, hne, Ne.symm hij]
    | off i =>
      by_cases hij : i = j
      · rw [if_pos (by simpa [Concerns] using hij)]
        simp [Call.apply, hij]
      · rw [if_neg (by simpa [Concerns] using hij), ← ih]
        simp [Call.apply, Ne.symm hij]

end

/-- Two switches of one group are never on together. -/
theorem lit_exclusive (group : ι → γ) (calls : List (Call ι)) :
    ∀ {i j : ι}, i ∈ lit group calls → j ∈ lit group calls → group i = group j → i = j := by
  induction calls using List.reverseRecOn with
  | nil =>
    intro i j hi
    simp [lit] at hi
  | append_singleton calls c ih =>
    intro i j hi hj hgroup
    rw [lit_snoc] at hi hj
    cases c with
    | on k =>
      obtain rfl | ⟨hik, hi⟩ := hi
      · obtain rfl | ⟨hjk, -⟩ := hj
        · rfl
        · exact absurd hgroup.symm hjk
      · obtain rfl | ⟨-, hj⟩ := hj
        · exact absurd hgroup hik
        · exact ih hi hj hgroup
    | off k => exact ih hi.2 hj.2 hgroup

end Switches

end Aclean
