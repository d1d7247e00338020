import Mathlib.Logic.Basic
import Mathlib.Tactic.Common

/-!
# A cell that others write as well

A client keeps a state of its own and shares one cell with others. It sees the
cell only through a test. As long as every test comes out as it would on what
the client itself has written last, the client cannot tell that it is not
alone, so two such runs on the same inputs are the same.
-/

namespace Aclean

namespace SharedCell

/-- What a step does: the next state, what it writes to the cell if it does,
and the event it raises. -/
structure Effect (σ κ ε : Type*) where
  next : σ
  wrote : Option κ
  raised : Option ε

/-- A client steps on an input, its state and the cell, and depends on the cell
through `test` only. -/
structure Client (ι σ κ ε : Type*) where
  step : ι → σ → κ → Effect σ κ ε
  test : ι → σ → κ → Bool
  step_congr : ∀ {i s c c'}, test i s c = test i s c' → step i s c = step i s c'

namespace Client

variable {ι σ κ ε : Type*} (m : Client ι σ κ ε)

/-- The state before step `n`, on inputs `i` and with `c n` in the cell. -/
def state (s : σ) (i : Nat → ι) (c : Nat → κ) : Nat → σ
  | 0 => s
  | n + 1 => (m.step (i n) (state s i c n) (c n)).next

/-- What the client has written last before step `n`, `o` if nothing yet. -/
def own (s : σ) (o : κ) (i : Nat → ι) (c : Nat → κ) : Nat → κ
  | 0 => o
  | n + 1 => (m.step (i n) (m.state s i c n) (c n)).wrote.getD (own s o i c n)

/-- The event of step `n`. -/
def event (s : σ) (i : Nat → ι) (c : Nat → κ) (n : Nat) : Option ε :=
  (m.step (i n) (m.state s i c n) (c n)).raised

/-- Step `n` tests the cell as if nobody else had written it. -/
def Undisturbed (s : σ) (o : κ) (i : Nat → ι) (c : Nat → κ) (n : Nat) : Prop :=
  m.test (i n) (m.state s i c n) (c n) = m.test (i n) (m.state s i c n) (m.own s o i c n)

instance (s : σ) (o : κ) (i : Nat → ι) (c : Nat → κ) (n : Nat) :
    Decidable (m.Undisturbed s o i c n) :=
  inferInstanceAs (Decidable (_ = _))

variable {m} {s : σ} {o : κ} {i : Nat → ι} {c c' : Nat → κ}

/-- An undisturbed step is a step on the client's own value. -/
theorem Undisturbed.step_eq {n : Nat} (h : m.Undisturbed s o i c n) :
    m.step (i n) (m.state s i c n) (c n) = m.step (i n) (m.state s i c n) (m.own s o i c n) :=
  m.step_congr h

/-- Two undisturbed runs step in the same way if they have come as far in the
same way. -/
theorem Undisturbed.step_same {n : Nat} (h : m.Undisturbed s o i c n)
    (h' : m.Undisturbed s o i c' n) (hstate : m.state s i c n = m.state s i c' n)
    (hown : m.own s o i c n = m.own s o i c' n) :
    m.step (i n) (m.state s i c n) (c n) = m.step (i n) (m.state s i c' n) (c' n) := by
  rw [h.step_eq, h'.step_eq, hstate, hown]

theorem same_of_undisturbed {n : Nat} (h : ∀ k < n, m.Undisturbed s o i c k)
    (h' : ∀ k < n, m.Undisturbed s o i c' k) :
    m.state s i c n = m.state s i c' n ∧ m.own s o i c n = m.own s o i c' n := by
  induction n with
  | zero => exact ⟨rfl, rfl⟩
  | succ n ih =>
    obtain ⟨hstate, hown⟩ := ih (fun k hk => h k (Nat.lt_succ_of_lt hk))
      fun k hk => h' k (Nat.lt_succ_of_lt hk)
    have hstep := (h n (Nat.lt_succ_self n)).step_same (h' n (Nat.lt_succ_self n)) hstate hown
    exact ⟨by rw [state, state, hstep], by rw [own, own, hstep, hown]⟩

/-- What others write to the cell does not show in the events. -/
theorem event_same {n : Nat} (h : ∀ k ≤ n, m.Undisturbed s o i c k)
    (h' : ∀ k ≤ n, m.Undisturbed s o i c' k) : m.event s i c n = m.event s i c' n := by
  obtain ⟨hstate, hown⟩ := same_of_undisturbed (fun k hk => h k (Nat.le_of_lt hk))
    fun k hk => h' k (Nat.le_of_lt hk)
  have hstep := (h n (Nat.le_refl n)).step_same (h' n (Nat.le_refl n)) hstate hown
  rw [event, event, hstep]

end Client

end SharedCell

end Aclean
