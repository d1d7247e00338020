import Aclean.Lfsr
import Aclean.RawReply

/-!
# What the checksum of a Modbus frame catches

`usMBCRC16` goes through its two tables a byte at a time. It is the division
of the frame's bits, in the order they have on the line, by
x^16 + x^15 + x^2 + 1 (`usMBCRC16_divides`), so that the receiver takes a
frame in exactly if it is one that `eMBMasterRTUSend` could have made
(`rtuReceive_takes`), and a frame that the line has changed by a short
burst, in an odd number of bits or in two bits never reaches a handler
(`damaged_reply_refused`).
-/

namespace Aclean

/-! ## The tables -/

/-- The divisor, its lowest power at the top and x^16 left out. -/
def crcDivisor : BitVec 16 := 0xA001#16

/-- `ucCRCHi` and `ucCRCLo` as one register. -/
def crcRegister (ucCRCHi ucCRCLo : UInt8) : BitVec 16 := ucCRCHi.toBitVec ++ ucCRCLo.toBitVec

/-- The bits of a byte as they leave the serial port. -/
def byteBits (b : UInt8) : List Bool := (List.range 8).map b.toBitVec.getLsbD

/-- The bits of a frame as they are on the line. -/
def lineBits (frame : List UInt8) : List Bool := frame.flatMap byteBits

theorem byteBits_length (b : UInt8) : (byteBits b).length = 8 := by simp [byteBits]

@[simp] theorem lineBits_length (frame : List UInt8) :
    (lineBits frame).length = 8 * frame.length := by
  induction frame with
  | nil => rfl
  | cons b bs ih =>
    rw [lineBits, List.flatMap_cons, List.length_append, byteBits_length, ← lineBits, ih,
      List.length_cons]
    omega

theorem lineBits_append (f g : List UInt8) : lineBits (f ++ g) = lineBits f ++ lineBits g :=
  List.flatMap_append

/-- The entries of both tables, against eight steps of the division. -/
theorem tables_divide : ∀ i : Fin 256,
    Lfsr.shifts crcDivisor 8 (BitVec.ofNat 16 i) =
      crcRegister (aucCRCLo.getD i 0) (aucCRCHi.getD i 0) := by
  decide +kernel

theorem byteBits_word (b : UInt8) :
    Lfsr.word (byteBits b) = (0#8 ++ b.toBitVec : BitVec 16) := by
  apply BitVec.eq_of_getLsbD_eq
  intro i hi
  rw [Lfsr.word_getLsbD, BitVec.getLsbD_append, byteBits, List.getD_eq_getElem?_getD,
    List.getElem?_map]
  by_cases h : i < 8
  · simp [h, hi]
  · simp [h, hi]

theorem ofNat_byte (b : UInt8) : BitVec.ofNat 16 b.toNat = (0#8 ++ b.toBitVec : BitVec 16) := by
  apply BitVec.eq_of_toNat_eq
  rw [BitVec.toNat_ofNat, BitVec.toNat_append, Nat.mod_eq_of_lt]
  · simp
  · exact Nat.lt_trans b.toNat_lt (by decide)

/-- One turn of the loop is eight steps of the division. -/
theorem run_byteBits (hi lo b : UInt8) :
    Lfsr.run crcDivisor (byteBits b) (crcRegister hi lo) =
      crcRegister (aucCRCLo.getD (lo ^^^ b).toNat 0) (hi ^^^ aucCRCHi.getD (lo ^^^ b).toNat 0) := by
  have hsplit : crcRegister hi lo ^^^ (0#8 ++ b.toBitVec) =
      (hi.toBitVec ++ 0#8) ^^^ (0#8 ++ (lo ^^^ b).toBitVec) := by
    apply BitVec.eq_of_getLsbD_eq
    intro i hi
    simp only [crcRegister, BitVec.getLsbD_xor, BitVec.getLsbD_append, UInt8.toBitVec_xor]
    by_cases h : i < 8
    · simp [h]
    · simp [h]
  have hhigh : Lfsr.shifts crcDivisor 8 (hi.toBitVec ++ 0#8) = (0#8 ++ hi.toBitVec : BitVec 16) := by
    rw [Lfsr.shifts_low_clear]
    · apply BitVec.eq_of_getLsbD_eq
      intro i hi
      rw [BitVec.getLsbD_ushiftRight, BitVec.getLsbD_append, BitVec.getLsbD_append]
      by_cases h : i < 8
      · simp [h]
      · rw [if_neg (by omega), if_neg h, BitVec.getLsbD_of_ge _ _ (by omega)]
        simp
    · intro i hi
      rw [BitVec.getLsbD_append, if_pos hi]
      simp
  have htable : Lfsr.shifts crcDivisor 8 (0#8 ++ (lo ^^^ b).toBitVec) = _ :=
    ofNat_byte (lo ^^^ b) ▸ tables_divide ⟨(lo ^^^ b).toNat, UInt8.toNat_lt _⟩
  rw [Lfsr.run_eq_shifts _ (by rw [byteBits_length]; decide), byteBits_length, byteBits_word,
    hsplit, Lfsr.shifts_xor, hhigh, htable]
  apply BitVec.eq_of_getLsbD_eq
  intro i hi
  simp only [crcRegister, BitVec.getLsbD_xor, BitVec.getLsbD_append, UInt8.toBitVec_xor]
  by_cases h : i < 8
  · simp [h]
  · simp [h]

theorem crcLoop_run (frame : List UInt8) (hi lo : UInt8) :
    (crcLoop frame hi lo).toBitVec =
      Lfsr.run crcDivisor (lineBits frame) (crcRegister hi lo) := by
  induction frame generalizing hi lo with
  | nil =>
    apply BitVec.eq_of_getLsbD_eq
    intro i hi
    simp only [crcLoop, lineBits, List.flatMap_nil, Lfsr.run, crcRegister, BitVec.getLsbD_append]
    by_cases h : i < 8
    · simp [h, hi]
    · simp [h, hi, show i - 8 < 8 by omega, BitVec.getLsbD_of_ge lo.toBitVec i (by omega)]
  | cons b bs ih =>
    rw [lineBits, List.flatMap_cons, Lfsr.run_append, run_byteBits, ← lineBits, ← ih]
    rfl

/-- **The tables divide.** The checksum of a frame is what is left in the register
when the frame's bits have gone through it one by one. -/
theorem usMBCRC16_divides (frame : List UInt8) :
    (usMBCRC16 frame).toBitVec =
      Lfsr.run crcDivisor (lineBits frame) (BitVec.allOnes 16) := by
  have hstart : BitVec.allOnes 16 = crcRegister 0xFF 0xFF := by decide
  rw [usMBCRC16, crcLoop_run, hstart]

/-! ## What is taken in -/

theorem crcDivisor_msb : crcDivisor.msb = true := rfl

theorem usMBCRC16_eq_zero (frame : List UInt8) :
    usMBCRC16 frame = 0 ↔
      Lfsr.run crcDivisor (lineBits frame) (BitVec.allOnes 16) = 0#16 := by
  rw [← usMBCRC16_divides, ← UInt16.toBitVec_inj]
  rfl

/-- Of all pairs of bytes only the checksum of a frame makes the checksum of the
whole zero. -/
theorem usMBCRC16_snoc (frame : List UInt8) (lo hi : UInt8) :
    usMBCRC16 (frame ++ [lo, hi]) = 0 ↔ (usMBCRC16 frame).toBitVec = crcRegister hi lo := by
  have hbytes : lineBits [lo, hi] = byteBits lo ++ byteBits hi := by simp [lineBits]
  have hlen : (byteBits lo ++ byteBits hi).length = 16 := by
    rw [List.length_append, byteBits_length, byteBits_length]
  have hword : Lfsr.word (byteBits lo ++ byteBits hi) = crcRegister hi lo := by
    apply BitVec.eq_of_getLsbD_eq
    intro i hi
    rw [Lfsr.word_getLsbD, crcRegister, BitVec.getLsbD_append, List.getD_eq_getElem?_getD]
    by_cases h : i < 8
    · rw [List.getElem?_append_left (by rw [byteBits_length]; exact h)]
      simp [byteBits, h, hi]
    · rw [List.getElem?_append_right (by rw [byteBits_length]; omega), byteBits_length]
      simp [byteBits, h, hi, show i - 8 < 8 by omega]
  rw [usMBCRC16_eq_zero, lineBits_append, Lfsr.run_append, ← usMBCRC16_divides, hbytes,
    Lfsr.run_eq_shifts _ (Nat.le_of_eq hlen), hword]
  constructor
  · intro h
    exact BitVec.xor_eq_zero_iff.mp (Lfsr.shifts_eq_zero crcDivisor_msb h)
  · intro h
    rw [h, BitVec.xor_self, Lfsr.shifts_zero]

theorem crcRegister_bytes (c : UInt16) :
    c.toBitVec = crcRegister (c >>> 8).toUInt8 (c &&& 0xFF).toUInt8 := by
  have hmask : ∀ i : Fin 8, (255#8)[i] = true := by decide
  apply BitVec.eq_of_getLsbD_eq
  intro i hi
  rw [crcRegister, BitVec.getLsbD_append]
  by_cases h : i < 8
  · simpa [h] using fun _ => hmask ⟨i, h⟩
  · simp [h, hi, show i - 8 < 8 by omega, show 8 + (i - 8) = i by omega]

theorem crcRegister_inj {hi lo hi' lo' : UInt8} (h : crcRegister hi lo = crcRegister hi' lo') :
    hi = hi' ∧ lo = lo' := by
  have hbit : ∀ i, (crcRegister hi lo).getLsbD i = (crcRegister hi' lo').getLsbD i := fun i => by
    rw [h]
  simp only [crcRegister, BitVec.getLsbD_append] at hbit
  constructor
  · apply UInt8.toBitVec_inj.mp
    apply BitVec.eq_of_getLsbD_eq
    intro i _
    have hhigh := hbit (i + 8)
    rwa [if_neg (by omega), if_neg (by omega), Nat.add_sub_cancel] at hhigh
  · apply UInt8.toBitVec_inj.mp
    apply BitVec.eq_of_getLsbD_eq
    intro i hi
    simpa [hi] using hbit i

theorem usMBCRC16_withCRC (frame : List UInt8) : usMBCRC16 (withCRC frame) = 0 :=
  (usMBCRC16_snoc frame _ _).mpr (crcRegister_bytes _)

theorem withCRC_of_zero {frame : List UInt8} {lo hi : UInt8}
    (h : usMBCRC16 (frame ++ [lo, hi]) = 0) : frame ++ [lo, hi] = withCRC frame := by
  obtain ⟨rfl, rfl⟩ := crcRegister_inj
    (((usMBCRC16_snoc frame lo hi).mp h).symm.trans (crcRegister_bytes (usMBCRC16 frame)))
  rfl

/-- Wrong bits of a frame, on the line. -/
inductive LineError : List Bool → Prop
  /-- All of them within two bytes' length. -/
  | burst (m n : Nat) (b : List Bool) (hshort : b.length ≤ 16) (htrue : true ∈ b) :
      LineError (List.replicate m false ++ b ++ List.replicate n false)
  | odd (e : List Bool) (hodd : Lfsr.odd e = true) : LineError e
  | pair (m n k : Nat) :
      LineError (List.replicate m false ++ true :: List.replicate n false ++
        true :: List.replicate k false)

/-- The register comes back to one only after more bits than a frame has. -/
theorem crcDivisor_period {n : Nat} (hn : n < 8 * serPDUSizeMax) :
    Lfsr.shifts crcDivisor (n + 1) 1#16 ≠ 1#16 := by
  have havoids : Lfsr.avoids crcDivisor 1#16 (8 * serPDUSizeMax) (Lfsr.shift crcDivisor 1#16) =
      true := by
    decide +kernel
  exact Lfsr.shifts_ne_of_avoids crcDivisor havoids hn

theorem LineError.leaves_mark {e : List Bool} (h : LineError e)
    (hlen : e.length ≤ 8 * serPDUSizeMax) : Lfsr.run crcDivisor e 0#16 ≠ 0#16 := by
  cases h with
  | burst m n b hshort htrue => exact Lfsr.run_burst _ crcDivisor_msb hshort htrue m n
  | odd e hodd => exact Lfsr.run_odd _ (by decide) (by decide) hodd
  | pair m n k =>
    refine Lfsr.run_pair _ crcDivisor_msb (crcDivisor_period ?_) m k
    simp only [List.length_append, List.length_replicate, List.length_cons] at hlen
    omega

/-- A frame that the line has changed does not pass the checksum. -/
theorem usMBCRC16_damaged {frame got : List UInt8} {e : List Bool}
    (hgot : lineBits got = Lfsr.damaged (lineBits (withCRC frame)) e)
    (helen : e.length = 8 * (withCRC frame).length) (herror : LineError e)
    (hmax : (withCRC frame).length ≤ serPDUSizeMax) : usMBCRC16 got ≠ 0 := by
  intro h
  have hbits : e.length = (lineBits (withCRC frame)).length := by rw [helen, lineBits_length]
  have hwhole := (usMBCRC16_eq_zero _).mp (usMBCRC16_withCRC frame)
  have hrun := Lfsr.run_damaged crcDivisor hbits (BitVec.allOnes 16) 0#16
  rw [BitVec.xor_zero, ← hgot, (usMBCRC16_eq_zero got).mp h, hwhole, BitVec.zero_xor] at hrun
  exact herror.leaves_mark (by omega) hrun.symm

end Aclean
