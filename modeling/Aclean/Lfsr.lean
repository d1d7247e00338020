import Mathlib.Data.List.Basic

/-!
# Feedback shift registers

A register of `w` bits that shifts towards its low end; the bit that leaves
there adds the feedback word `p` to what stays. Fed one bit after the other
it divides the bits, read as a polynomial over GF(2), and keeps the
remainder.

Everything is linear in exclusive or, and what a receiver sees of an error
depends on the error alone (`run_damaged`). The module says which errors
leave the register other than it should be: a short burst (`run_burst`), an
odd number of wrong bits (`run_odd`), and two wrong bits that are closer
than the register's period (`run_pair`).
-/

namespace Lfsr

variable {w : Nat} (p : BitVec w)

/-! ## One shift -/

/-- The register one place down, with `p` fed back if a one leaves. -/
def shift (c : BitVec w) : BitVec w :=
  if c.getLsbD 0 then (c >>> 1) ^^^ p else c >>> 1

/-- `n` shifts. -/
def shifts : Nat → BitVec w → BitVec w
  | 0, c => c
  | n + 1, c => shifts n (shift p c)

theorem shift_xor (a b : BitVec w) : shift p (a ^^^ b) = shift p a ^^^ shift p b := by
  unfold shift
  rw [BitVec.getLsbD_xor, BitVec.ushiftRight_xor_distrib]
  cases a.getLsbD 0 <;> cases b.getLsbD 0
  · rfl
  · exact BitVec.xor_assoc _ _ _
  · change a >>> 1 ^^^ b >>> 1 ^^^ p = a >>> 1 ^^^ p ^^^ b >>> 1
    rw [BitVec.xor_assoc, BitVec.xor_comm (b >>> 1), BitVec.xor_assoc]
  · change a >>> 1 ^^^ b >>> 1 = a >>> 1 ^^^ p ^^^ (b >>> 1 ^^^ p)
    rw [BitVec.xor_comm (b >>> 1) p, BitVec.xor_assoc, ← BitVec.xor_assoc p p, BitVec.xor_self,
      BitVec.zero_xor]

@[simp] theorem shift_zero : shift p 0#w = 0#w := by simp [shift]

theorem shifts_xor (n : Nat) (a b : BitVec w) :
    shifts p n (a ^^^ b) = shifts p n a ^^^ shifts p n b := by
  induction n generalizing a b with
  | zero => rfl
  | succ n ih => rw [shifts, shift_xor, ih]; rfl

@[simp] theorem shifts_zero (n : Nat) : shifts p n 0#w = 0#w := by
  induction n with
  | zero => rfl
  | succ n ih => rw [shifts, shift_zero, ih]

/-- While zeros leave, the register only moves down. -/
theorem shifts_low_clear {n : Nat} {c : BitVec w} (h : ∀ i < n, c.getLsbD i = false) :
    shifts p n c = c >>> n := by
  induction n generalizing c with
  | zero => exact (BitVec.ushiftRight_zero c).symm
  | succ n ih =>
    have hshift : shift p c = c >>> 1 := by rw [shift, h 0 (Nat.succ_pos n)]; rfl
    rw [shifts, hshift, ih, Nat.add_comm n 1, BitVec.shiftRight_add]
    intro i hi
    rw [BitVec.getLsbD_ushiftRight, Nat.add_comm]
    exact h (i + 1) (Nat.succ_lt_succ hi)

/-! ## A register that forgets nothing -/

section Injective

variable {p} (hp : p.msb = true)

include hp

/-- With the top bit of `p` set no register but zero is shifted to zero. -/
theorem shift_eq_zero {c : BitVec w} (h : shift p c = 0#w) : c = 0#w := by
  unfold shift at h
  split at h
  · next hlow =>
    have htop := congrArg BitVec.msb h
    rw [BitVec.msb_xor, hp, BitVec.msb_zero] at htop
    simp [BitVec.msb_ushiftRight] at htop
  · next hlow =>
    apply BitVec.eq_of_getLsbD_eq
    intro i hi
    rw [BitVec.getLsbD_zero]
    cases i with
    | zero => simpa using hlow
    | succ i =>
      have := congrArg (fun x => x.getLsbD i) h
      simpa [BitVec.getLsbD_ushiftRight, Nat.add_comm] using this

theorem shifts_eq_zero {n : Nat} {c : BitVec w} (h : shifts p n c = 0#w) : c = 0#w := by
  induction n generalizing c with
  | zero => exact h
  | succ n ih => exact shift_eq_zero hp (ih h)

end Injective

/-! ## Bits fed in -/

/-- A bit at the low end. -/
def bit (b : Bool) : BitVec w := if b then 1#w else 0#w

@[simp] theorem bit_false : bit (w := w) false = 0#w := rfl

theorem bit_xor (a b : Bool) : bit (w := w) (a ^^ b) = bit a ^^^ bit b := by
  cases a <;> cases b <;> simp [bit]

/-- The register after the bits `bs`. -/
def run : List Bool → BitVec w → BitVec w
  | [], c => c
  | b :: bs, c => run bs (shift p (c ^^^ bit b))

@[simp] theorem run_append (as bs : List Bool) (c : BitVec w) :
    run p (as ++ bs) c = run p bs (run p as c) := by
  induction as generalizing c with
  | nil => rfl
  | cons a as ih => exact ih _

theorem run_zeros (n : Nat) (c : BitVec w) : run p (List.replicate n false) c = shifts p n c := by
  induction n generalizing c with
  | zero => rfl
  | succ n ih =>
    change run p (List.replicate n false) (shift p (c ^^^ 0#w)) = shifts p n (shift p c)
    rw [BitVec.xor_zero, ih]

/-- The bits with the error `e` on them. -/
def damaged (bs e : List Bool) : List Bool := List.zipWith xor bs e

/-- What an error does to the register does not depend on what it falls on. -/
theorem run_damaged {bs e : List Bool} (hlen : e.length = bs.length) (c d : BitVec w) :
    run p (damaged bs e) (c ^^^ d) = run p bs c ^^^ run p e d := by
  induction bs generalizing e c d with
  | nil =>
    obtain rfl := List.length_eq_zero_iff.mp hlen
    rfl
  | cons b bs ih =>
    obtain _ | ⟨x, e⟩ := e
    · cases hlen
    · change run p (damaged bs e) (shift p (c ^^^ d ^^^ bit (b ^^ x))) =
        run p bs (shift p (c ^^^ bit b)) ^^^ run p e (shift p (d ^^^ bit x))
      rw [← ih (Nat.succ.inj hlen), ← shift_xor, bit_xor]
      congr 2
      rw [BitVec.xor_assoc, BitVec.xor_assoc, ← BitVec.xor_assoc d, BitVec.xor_comm d,
        BitVec.xor_assoc]

/-! ## Many bits at once -/

/-- The bits as a word, the first one lowest. -/
def word : List Bool → BitVec w
  | [] => 0#w
  | b :: bs => (word bs <<< 1) ^^^ bit b

theorem word_getLsbD (bs : List Bool) (i : Nat) :
    (word (w := w) bs).getLsbD i = (decide (i < w) && bs.getD i false) := by
  induction bs generalizing i with
  | nil => simp [word]
  | cons b bs ih =>
    rw [word, BitVec.getLsbD_xor, BitVec.getLsbD_shiftLeft]
    obtain _ | i := i
    · cases b <;> simp [bit, BitVec.getLsbD_one, Nat.pos_iff_ne_zero]
    · have hbit : (bit (w := w) b).getLsbD (i + 1) = false := by
        cases b <;> simp [bit, BitVec.getLsbD_one]
      rw [hbit, Nat.add_sub_cancel, ih]
      by_cases hi : i + 1 < w
      · simp [hi, show i < w by omega]
      · simp [hi]

/-- As many bits as the register has room for can be put in before the first shift. -/
theorem run_eq_shifts {bs : List Bool} (hlen : bs.length ≤ w) (c : BitVec w) :
    run p bs c = shifts p bs.length (c ^^^ word bs) := by
  induction bs generalizing c with
  | nil => change c = c ^^^ 0#w; rw [BitVec.xor_zero]
  | cons b bs ih =>
    have hroom : bs.length < w := hlen
    have hword : shift p (word bs <<< 1) = word bs := by
      have hlow : ((word bs : BitVec w) <<< 1).getLsbD 0 = false := by simp
      rw [shift, hlow]
      apply BitVec.eq_of_getLsbD_eq
      intro i hi
      simp only [Bool.false_eq_true, if_false, BitVec.getLsbD_ushiftRight,
        BitVec.getLsbD_shiftLeft, word_getLsbD]
      by_cases h : 1 + i < w
      · simp [h, hi]
      · have hout : bs[i]? = none := List.getElem?_eq_none (by omega)
        simp [h, hout]
    have hhead : c ^^^ word (b :: bs) = (c ^^^ bit b) ^^^ (word bs <<< 1) := by
      rw [word, BitVec.xor_comm (word bs <<< 1), BitVec.xor_assoc]
    rw [hhead]
    change run p bs (shift p (c ^^^ bit b)) =
      shifts p bs.length (shift p ((c ^^^ bit b) ^^^ (word bs <<< 1)))
    rw [shift_xor p (c ^^^ bit b), hword]
    exact ih (Nat.le_of_lt hroom) _

/-! ## Errors that leave a mark -/

/-- An error no longer than the register, anywhere among right bits. -/
theorem run_burst (hp : p.msb = true) {b : List Bool} (hlen : b.length ≤ w) (htrue : true ∈ b)
    (m n : Nat) :
    run p (List.replicate m false ++ b ++ List.replicate n false) 0#w ≠ 0#w := by
  intro h
  rw [run_append, run_append, run_zeros, run_zeros, shifts_zero] at h
  have hburst := shifts_eq_zero hp h
  rw [run_eq_shifts p hlen, BitVec.zero_xor] at hburst
  have hword := shifts_eq_zero hp hburst
  obtain ⟨i, hi, hget⟩ := List.mem_iff_getElem.mp htrue
  have hbit := congrArg (fun x => x.getLsbD i) hword
  rw [word_getLsbD, BitVec.getLsbD_zero, List.getD_eq_getElem?_getD,
    List.getElem?_eq_getElem hi, hget] at hbit
  simp [show i < w by omega] at hbit

/-- Two wrong bits that are `n + 1` apart. -/
theorem run_pair (hp : p.msb = true) {n : Nat} (hperiod : shifts p (n + 1) 1#w ≠ 1#w)
    (m k : Nat) :
    run p (List.replicate m false ++ true :: List.replicate n false ++
      true :: List.replicate k false) 0#w ≠ 0#w := by
  intro h
  rw [run_append, run_append, run_zeros, shifts_zero] at h
  change run p (List.replicate k false) (shift p (run p (List.replicate n false)
    (shift p (0#w ^^^ 1#w)) ^^^ 1#w)) = 0#w at h
  rw [run_zeros, run_zeros, BitVec.zero_xor] at h
  have hlast := shift_eq_zero hp (shifts_eq_zero hp h)
  exact hperiod (BitVec.xor_eq_zero_iff.mp hlast)

/-- `c` is not among `d` and the registers of its next shifts, `n` in all. -/
def avoids (c : BitVec w) : Nat → BitVec w → Bool
  | 0, _ => true
  | n + 1, d => d != c && avoids c n (shift p d)

theorem shifts_ne_of_avoids {c d : BitVec w} {n : Nat} (h : avoids p c n d = true) {i : Nat}
    (hi : i < n) : shifts p i d ≠ c := by
  induction n generalizing d i with
  | zero => cases hi
  | succ n ih =>
    obtain ⟨hd, hrest⟩ : (d != c) = true ∧ avoids p c n (shift p d) = true := by
      simpa [avoids] using h
    obtain _ | i := i
    · simpa [shifts] using hd
    · exact ih hrest (Nat.lt_of_succ_lt_succ hi)

/-! ### Parity -/

/-- Whether an odd number of the lowest `n` bits is set. -/
def parityBelow (c : BitVec w) : Nat → Bool
  | 0 => false
  | n + 1 => parityBelow c n ^^ c.getLsbD n

def parity (c : BitVec w) : Bool := parityBelow c w

theorem parityBelow_xor (a b : BitVec w) (n : Nat) :
    parityBelow (a ^^^ b) n = (parityBelow a n ^^ parityBelow b n) := by
  induction n with
  | zero => rfl
  | succ n ih =>
    simp only [parityBelow, ih, BitVec.getLsbD_xor]
    cases parityBelow a n <;> cases parityBelow b n <;> simp

theorem parity_xor (a b : BitVec w) : parity (a ^^^ b) = (parity a ^^ parity b) :=
  parityBelow_xor a b w

@[simp] theorem parityBelow_zero (n : Nat) : parityBelow 0#w n = false := by
  induction n with
  | zero => rfl
  | succ n ih => simp [parityBelow, ih]

theorem parityBelow_ushiftRight (c : BitVec w) (n : Nat) :
    parityBelow (c >>> 1) n = (parityBelow c (n + 1) ^^ c.getLsbD 0) := by
  induction n with
  | zero => simp [parityBelow]
  | succ n ih =>
    change _ = ((parityBelow c (n + 1) ^^ c.getLsbD (n + 1)) ^^ c.getLsbD 0)
    rw [parityBelow, ih, BitVec.getLsbD_ushiftRight, Nat.add_comm 1 n, Bool.xor_assoc,
      Bool.xor_comm (c.getLsbD 0), Bool.xor_assoc]

/-- A bit that leaves is made up for if `p` has an odd number of ones. -/
theorem parity_shift (hodd : parity p = true) (c : BitVec w) : parity (shift p c) = parity c := by
  have hdown : parity (c >>> 1) = (parity c ^^ c.getLsbD 0) := by
    rw [parity, parityBelow_ushiftRight, parityBelow, BitVec.getLsbD_of_ge c w (Nat.le_refl w)]
    simp [parity]
  unfold shift
  cases hlow : c.getLsbD 0
  · simpa [hlow] using hdown
  · simp [parity_xor, hdown, hlow, hodd]

/-- Whether an odd number of the bits is set. -/
def odd (bs : List Bool) : Bool := bs.foldr xor false

theorem parity_bit (hw : 0 < w) (b : Bool) : parity (bit (w := w) b) = b := by
  have hone : ∀ n, 0 < n → n ≤ w → parityBelow (bit (w := w) true) n = true := by
    intro n hn hle
    induction n with
    | zero => cases hn
    | succ n ih =>
      obtain rfl | hpos := Nat.eq_zero_or_pos n
      · simp [parityBelow, bit, hw]
      · rw [parityBelow, ih hpos (by omega)]
        simp [bit, BitVec.getLsbD_one, Nat.pos_iff_ne_zero.mp hpos]
  cases b
  · exact parityBelow_zero w
  · exact hone w hw (Nat.le_refl w)

theorem parity_run (hodd : parity p = true) (hw : 0 < w) (bs : List Bool) (c : BitVec w) :
    parity (run p bs c) = (parity c ^^ odd bs) := by
  induction bs generalizing c with
  | nil => simp [run, odd]
  | cons b bs ih =>
    rw [run, ih, parity_shift p hodd, parity_xor, parity_bit hw]
    change (parity c ^^ b ^^ odd bs) = (parity c ^^ (b ^^ odd bs))
    rw [Bool.xor_assoc]

/-- An odd number of wrong bits. -/
theorem run_odd (hodd : parity p = true) (hw : 0 < w) {e : List Bool} (he : odd e = true) :
    run p e 0#w ≠ 0#w := by
  intro h
  have hpar := parity_run p hodd hw e 0#w
  rw [h, he, parity, parityBelow_zero] at hpar
  cases hpar

end Lfsr
