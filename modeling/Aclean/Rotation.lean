import Mathlib.Data.List.Iterate
import Mathlib.Logic.Function.Iterate

/-!
# Turns in a ring

The places of a ring come round one after the other, and each turn goes to the
next of them that asks for one. Whoever asks gets one turn in a round: the
turns of a round are the places that ask, in the order of the ring.
-/

namespace Aclean

namespace Rotation

variable {α : Type*} (next : α → α)

/-- The `n` places after `x`, in the order they come round. -/
def orbit (n : Nat) (x : α) : List α := List.iterate next (next x) n

/-- The first of the `n` places after `x` that asks, else `x` keeps the turn. -/
def turn (n : Nat) (asks : α → Bool) (x : α) : α := ((orbit next n x).find? asks).getD x

theorem orbit_length (n : Nat) (x : α) : (orbit next n x).length = n := by
  simp [orbit]

theorem orbit_split {n j : Nat} (x : α) (hj : j < n) :
    orbit next n x = List.iterate next (next x) j ++
      next^[j + 1] x :: List.iterate next (next (next^[j + 1] x)) (n - (j + 1)) := by
  obtain ⟨m, rfl⟩ : ∃ m, n = j + (m + 1) := ⟨n - (j + 1), by omega⟩
  have hm : j + (m + 1) - (j + 1) = m := by omega
  rw [orbit, List.iterate_add, hm]
  rfl

/-- Seen from a place further on, what was passed comes last. -/
theorem orbit_further {n j : Nat} {x : α} (hcycle : next^[n] x = x) (hj : j < n) :
    orbit next n (next^[j + 1] x) =
      List.iterate next (next (next^[j + 1] x)) (n - (j + 1)) ++
        (List.iterate next (next x) j ++ [next^[j + 1] x]) := by
  obtain ⟨m, rfl⟩ : ∃ m, n = m + (j + 1) := ⟨n - (j + 1), by omega⟩
  have hback : next^[m] (next (next^[j + 1] x)) = next x := by
    rw [← Function.iterate_succ_apply, Function.iterate_succ_apply' next m,
      ← Function.iterate_add_apply next m (j + 1), hcycle]
  rw [orbit, List.iterate_add, hback, Nat.add_sub_cancel, List.iterate_add next (next x) j 1]
  rfl

section

variable {next} {n : Nat} {asks : α → Bool} {x a : α}

/-- The turn that `x` passes on, and what the round looks like from both. -/
theorem filter_turn (hcycle : next^[n] x = x) (h : (orbit next n x).find? asks = some a) :
    ∃ rest, (orbit next n x).filter asks = a :: rest ∧
      (orbit next n a).filter asks = rest ++ [a] ∧ next^[n] a = a := by
  obtain ⟨hasks, pre, post, hsplit, hpre⟩ := List.find?_eq_some_iff_append.mp h
  have hj : pre.length < n := by
    have hlen := orbit_length next n x
    rw [hsplit] at hlen
    simp at hlen
    omega
  rw [orbit_split next x hj] at hsplit
  obtain ⟨hpre', htail⟩ := List.append_inj hsplit (by simp)
  obtain ⟨ha, hpost⟩ := List.cons.inj htail
  rw [ha] at hpost
  have hnone : pre.filter asks = [] := by
    rw [List.filter_eq_nil_iff]
    intro b hb
    simpa using hpre b hb
  refine ⟨post.filter asks, ?_, ?_, ?_⟩
  · rw [orbit_split next x hj, hpre', ha, hpost, List.filter_append, hnone, List.nil_append,
      List.filter_cons_of_pos hasks]
  · rw [← ha, orbit_further next hcycle hj, hpre', ha, hpost, List.filter_append,
      List.filter_append, hnone, List.nil_append, List.filter_cons_of_pos hasks, List.filter_nil]
  · rw [← ha, ← Function.iterate_add_apply, Nat.add_comm, Function.iterate_add_apply, hcycle]

theorem turn_eq (h : (orbit next n x).find? asks = some a) : turn next n asks x = a := by
  rw [turn, h, Option.getD_some]

theorem exists_turn (h : 0 < ((orbit next n x).filter asks).length) :
    ∃ a, (orbit next n x).find? asks = some a := by
  rw [← Option.isSome_iff_exists, ← List.head?_filter, List.isSome_head?]
  exact List.ne_nil_of_length_pos h

/-- Turn `i` of the round goes to the `i`-th place that asks. -/
theorem turn_iterate {i : Nat} (hcycle : next^[n] x = x)
    (hi : i < ((orbit next n x).filter asks).length) :
    ((orbit next n x).filter asks)[i]? = some ((turn next n asks)^[i + 1] x) := by
  induction i generalizing x with
  | zero =>
    obtain ⟨a, ha⟩ := exists_turn hi
    obtain ⟨rest, hx, -⟩ := filter_turn hcycle ha
    rw [hx, Function.iterate_one, turn_eq ha]
    rfl
  | succ i ih =>
    obtain ⟨a, ha⟩ := exists_turn (Nat.zero_lt_of_lt hi)
    obtain ⟨rest, hx, hafter, hcycle'⟩ := filter_turn hcycle ha
    have hrest : i < rest.length := by
      rw [hx, List.length_cons] at hi
      omega
    have hround := ih hcycle' (by rw [hafter, List.length_append]; omega)
    rw [hafter, List.getElem?_append_left hrest] at hround
    rw [hx, List.getElem?_cons_succ, hround, Function.iterate_succ_apply _ (i + 1), turn_eq ha]

/-- In one round every place that asks has its turn, in the order of the ring. -/
theorem orbit_turn (hcycle : next^[n] x = x) :
    orbit (turn next n asks) ((orbit next n x).filter asks).length x =
      (orbit next n x).filter asks := by
  apply List.ext_getElem?
  intro i
  by_cases hi : i < ((orbit next n x).filter asks).length
  · rw [turn_iterate hcycle hi, orbit, List.getElem?_iterate _ _ _ _ hi]
    rfl
  · have hout := Nat.not_lt.mp hi
    rw [List.getElem?_eq_none hout, List.getElem?_eq_none (by rwa [orbit_length])]

end

end Rotation

end Aclean
