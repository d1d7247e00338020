import Mathlib.Data.UInt
import Mathlib.Logic.Equiv.Defs
import Mathlib.Order.Basic

/-!
# The automatic choice as a table

What the automatic mode decides, on the rooms' readings as numbers: a cascade
of questions "is there a room that reports and whose readings are ..". Each
question is monotone in the readings, or antitone, and blind to the order of
the rooms; the table inherits what it can from that.
-/

namespace Aclean

/-- What one room's sensor says. -/
structure Reading where
  pm25 : Nat
  co2 : Nat
  deriving DecidableEq, Repr

namespace Reading

/-- A room without a sensor reads zero. -/
def Active (r : Reading) : Prop := r.pm25 ≠ 0 ∨ r.co2 ≠ 0

def Exceeds (pm25 co2 : Nat) (r : Reading) : Prop := pm25 < r.pm25 ∨ co2 < r.co2

def Below (pm25 co2 : Nat) (r : Reading) : Prop := r.pm25 < pm25 ∧ r.co2 < co2

instance : LE Reading := ⟨fun r s => r.pm25 ≤ s.pm25 ∧ r.co2 ≤ s.co2⟩

instance (r s : Reading) : Decidable (r ≤ s) := inferInstanceAs (Decidable (_ ∧ _))

instance (r : Reading) : Decidable r.Active := inferInstanceAs (Decidable (_ ∨ _))

instance (pm25 co2 : Nat) : DecidablePred (Exceeds pm25 co2) :=
  fun _ => inferInstanceAs (Decidable (_ ∨ _))

instance (pm25 co2 : Nat) : DecidablePred (Below pm25 co2) :=
  fun _ => inferInstanceAs (Decidable (_ ∧ _))

theorem Exceeds.of_le {pm25 co2 : Nat} {r s : Reading} (hle : r ≤ s) (h : r.Exceeds pm25 co2) :
    s.Exceeds pm25 co2 :=
  h.imp (fun hr => Nat.lt_of_lt_of_le hr hle.1) fun hr => Nat.lt_of_lt_of_le hr hle.2

theorem Below.of_le {pm25 co2 : Nat} {r s : Reading} (hle : r ≤ s) (h : s.Below pm25 co2) :
    r.Below pm25 co2 :=
  h.imp (fun hs => Nat.lt_of_le_of_lt hle.1 hs) fun hs => Nat.lt_of_le_of_lt hle.2 hs

theorem Exceeds.mono {pm25 pm25' co2 co2' : Nat} (hpm : pm25' ≤ pm25) (hco : co2' ≤ co2)
    {r : Reading} (h : r.Exceeds pm25 co2) : r.Exceeds pm25' co2' :=
  h.imp (Nat.lt_of_le_of_lt hpm) (Nat.lt_of_le_of_lt hco)

end Reading

/-! ## Some room -/

section SomeRoom

variable {ι κ : Type} {p q : Reading → Prop} {r s : ι → Reading}

/-- Some room reports and satisfies `p`. -/
def SomeRoom (p : Reading → Prop) (r : ι → Reading) : Prop := ∃ i, (r i).Active ∧ p (r i)

/-- The same rooms report. -/
def SameActive (r s : ι → Reading) : Prop := ∀ i, (r i).Active ↔ (s i).Active

theorem SomeRoom.imp (hpq : ∀ a, p a → q a) (h : SomeRoom p r) : SomeRoom q r := by
  obtain ⟨i, hi, hp⟩ := h
  exact ⟨i, hi, hpq _ hp⟩

theorem SomeRoom.of_le (hp : ∀ {a b : Reading}, a ≤ b → p a → p b) (hsame : SameActive r s)
    (hle : r ≤ s) (h : SomeRoom p r) : SomeRoom p s := by
  obtain ⟨i, hi, hpi⟩ := h
  exact ⟨i, (hsame i).mp hi, hp (hle i) hpi⟩

theorem SomeRoom.of_ge (hp : ∀ {a b : Reading}, a ≤ b → p b → p a) (hsame : SameActive r s)
    (hle : r ≤ s) (h : SomeRoom p s) : SomeRoom p r := by
  obtain ⟨i, hi, hpi⟩ := h
  exact ⟨i, (hsame i).mpr hi, hp (hle i) hpi⟩

/-- It does not matter which room is which. -/
theorem someRoom_comp (e : κ ≃ ι) : SomeRoom p (r ∘ e) ↔ SomeRoom p r := by
  constructor
  · rintro ⟨k, h⟩
    exact ⟨e k, h⟩
  · rintro ⟨i, h⟩
    exact ⟨e.symm i, by simpa using h⟩

end SomeRoom

/-! ## The table -/

abbrev Rooms := Fin 5 → Reading

instance (p : Reading → Prop) [DecidablePred p] (r : Rooms) : Decidable (SomeRoom p r) :=
  inferInstanceAs (Decidable (∃ _, _ ∧ _))

instance (r s : Rooms) : Decidable (SameActive r s) := inferInstanceAs (Decidable (∀ _, _ ↔ _))

instance (r s : Rooms) : Decidable (r ≤ s) := inferInstanceAs (Decidable (∀ _, _ ≤ _))

/-- The speed for these readings. -/
def autoSpeed (r : Rooms) : UInt8 :=
  if SomeRoom (Reading.Exceeds 134 2500) r then 3
  else if SomeRoom (Reading.Exceeds 96 1300) r then 2
  else if SomeRoom (Reading.Below 55 730) r then 0
  else if SomeRoom (Reading.Below 91 1290) r then 1
  else 0

/-- Whether filter and heater are on with it. -/
def autoOn (r : Rooms) : UInt8 := if autoSpeed r = 0 then 0 else 1

theorem autoSpeed_perm (e : Equiv.Perm (Fin 5)) (r : Rooms) : autoSpeed (r ∘ e) = autoSpeed r := by
  simp only [autoSpeed, someRoom_comp]

/-- No room is clean, and some room is not far from it. -/
def Light (r : Rooms) : Prop :=
  ¬ SomeRoom (Reading.Below 55 730) r ∧ SomeRoom (Reading.Below 91 1290) r

/-- The fan is to run. -/
def NeedsAir (r : Rooms) : Prop := SomeRoom (Reading.Exceeds 96 1300) r ∨ Light r

instance (r : Rooms) : Decidable (Light r) := inferInstanceAs (Decidable (_ ∧ _))

instance (r : Rooms) : Decidable (NeedsAir r) := inferInstanceAs (Decidable (_ ∨ _))

theorem polluted_of_level3 {r : Rooms} (h : SomeRoom (Reading.Exceeds 134 2500) r) :
    SomeRoom (Reading.Exceeds 96 1300) r :=
  h.imp fun _ => Reading.Exceeds.mono (by decide) (by decide)

/-- The table, level by level. -/
theorem autoSpeed_levels (r : Rooms) : autoSpeed r ≤ 3 ∧
    (1 ≤ autoSpeed r ↔ NeedsAir r) ∧ (2 ≤ autoSpeed r ↔ SomeRoom (Reading.Exceeds 96 1300) r) ∧
    (3 ≤ autoSpeed r ↔ SomeRoom (Reading.Exceeds 134 2500) r) := by
  unfold autoSpeed NeedsAir Light
  by_cases h3 : SomeRoom (Reading.Exceeds 134 2500) r
  · simp [h3, polluted_of_level3 h3]
  · by_cases h2 : SomeRoom (Reading.Exceeds 96 1300) r
    · simp [h3, h2]
    · by_cases h0 : SomeRoom (Reading.Below 55 730) r
      · simp [h3, h2, h0]
      · by_cases h1 : SomeRoom (Reading.Below 91 1290) r
        · simp [h3, h2, h0, h1]
        · simp [h3, h2, h0, h1]

theorem autoSpeed_eq_zero_iff (r : Rooms) : autoSpeed r = 0 ↔ ¬ NeedsAir r := by
  rw [← (autoSpeed_levels r).2.1, UInt8.le_iff_toNat_le, ← UInt8.toNat_inj]
  show (autoSpeed r).toNat = 0 ↔ ¬ 1 ≤ (autoSpeed r).toNat
  omega

theorem autoOn_eq (r : Rooms) : autoOn r = if NeedsAir r then 1 else 0 := by
  unfold autoOn
  by_cases h : NeedsAir r
  · rw [if_neg fun hz => (autoSpeed_eq_zero_iff r).mp hz h, if_pos h]
  · rw [if_pos ((autoSpeed_eq_zero_iff r).mpr h), if_neg h]

/-! ## Dirtier air -/

/-- Every room that reports has readings that the table passes over: not above
the second level, not below the first. -/
def InGap (r : Rooms) : Prop :=
  ¬ SomeRoom (Reading.Exceeds 96 1300) r ∧ ¬ SomeRoom (Reading.Below 91 1290) r

instance (r : Rooms) : Decidable (InGap r) := inferInstanceAs (Decidable (_ ∧ _))

/-- Speeds up to three compare level by level. -/
theorem speed_le_iff {v w : UInt8} (hv : v ≤ 3) :
    v ≤ w ↔ (1 ≤ v → 1 ≤ w) ∧ (2 ≤ v → 2 ≤ w) ∧ (3 ≤ v → 3 ≤ w) := by
  have h3 : v.toNat ≤ 3 := UInt8.le_iff_toNat_le.mp hv
  simp only [UInt8.le_iff_toNat_le, UInt8.reduceToNat]
  omega

section Dirtier

variable {r s : Rooms} (hsame : SameActive r s) (hle : r ≤ s)
include hsame hle

theorem exceeds_of_dirtier {pm25 co2 : Nat} :
    SomeRoom (Reading.Exceeds pm25 co2) r → SomeRoom (Reading.Exceeds pm25 co2) s :=
  SomeRoom.of_le Reading.Exceeds.of_le hsame hle

theorem below_of_cleaner {pm25 co2 : Nat} :
    SomeRoom (Reading.Below pm25 co2) s → SomeRoom (Reading.Below pm25 co2) r :=
  SomeRoom.of_ge Reading.Below.of_le hsame hle

/-- Dirtier air needs no air only in the gap. -/
theorem needsAir_of_dirtier_iff : (NeedsAir r → NeedsAir s) ↔ ¬ (Light r ∧ InGap s) := by
  constructor
  · rintro h ⟨hlight, hgap⟩
    rcases h (.inr hlight) with hpolluted | hlight'
    · exact hgap.1 hpolluted
    · exact hgap.2 hlight'.2
  · intro h hr
    rcases hr with hpolluted | hlight
    · exact .inl (exceeds_of_dirtier hsame hle hpolluted)
    · by_contra hs
      have hclean : ¬ SomeRoom (Reading.Below 55 730) s :=
        fun hclean => hlight.1 (below_of_cleaner hsame hle hclean)
      exact h ⟨hlight, fun hp => hs (.inl hp), fun hb => hs (.inr ⟨hclean, hb⟩)⟩

/-- **Where dirtier air slows the fan**: from lightly polluted air into the gap,
and nowhere else. -/
theorem autoSpeed_le_iff : autoSpeed r ≤ autoSpeed s ↔ ¬ (Light r ∧ InGap s) := by
  obtain ⟨hr, hr1, hr2, hr3⟩ := autoSpeed_levels r
  obtain ⟨-, hs1, hs2, hs3⟩ := autoSpeed_levels s
  rw [speed_le_iff hr, hr1, hr2, hr3, hs1, hs2, hs3, needsAir_of_dirtier_iff hsame hle]
  exact and_iff_left ⟨exceeds_of_dirtier hsame hle, exceeds_of_dirtier hsame hle⟩

end Dirtier

end Aclean
