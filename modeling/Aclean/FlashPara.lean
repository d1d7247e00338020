import Mathlib.Data.UInt
import Mathlib.Logic.Function.Basic
import Mathlib.Data.List.Range

/-!
# Parameters in the internal flash

`FLASH_Program_save_para` packs the first twenty bytes of `device_work_data`
into five words, `FLASH_Program_read_para` unpacks them again. The packing
means `d0 + (d1<<8) + (d2<<16) + (d3<<24)`, but `+` binds tighter than `<<`:
what is stored is a sum shifted three times, the last time by 24. The reader
means to look for a marker in front of the words, but its macro takes 1 from
the word and not from the address, and no stored word passes that test; behind
it three of the four bytes go to one place.
-/

namespace Aclean

namespace FlashPara

/-! ## Saving and reading -/

def flashEndAddr : Nat := 0x08000000 + 0x40000 - 1

def sysParaAddr : Nat := flashEndAddr - 128 + 1

def pageSize : Nat := 0x800

/-- A programmed word reads back as written, at its own address. -/
def programWord (addr : Nat) (data : UInt32) (flash : Nat → UInt32) : Nat → UInt32 :=
  Function.update flash addr data

def erasePage (addr : Nat) (flash : Nat → UInt32) : Nat → UInt32 := fun a =>
  if a / pageSize = addr / pageSize then 0xffffffff else flash a

/-- `x<<n` on `u32`. The language says nothing about shifts by 32 and more:
`wide` is what the machine makes of them. -/
def shl (wide : UInt32 → UInt32 → UInt32) (x n : UInt32) : UInt32 :=
  if n < 32 then x <<< n else wide x n

/-- `d[i] + (u32)d[i+1]<<8 + (u32)d[i+2]<<16 + (u32)d[i+3]<<24`, as it parses. -/
def data (wide : UInt32 → UInt32 → UInt32) (work : Nat → UInt8) (i : Nat) : UInt32 :=
  shl wide
    (shl wide
      (shl wide ((work i).toUInt32 + (work (i + 1)).toUInt32) (8 + (work (i + 2)).toUInt32))
      (16 + (work (i + 3)).toUInt32))
    24

/-- The loops' index is `4 * n` in round `n`. -/
def saveWord (wide : UInt32 → UInt32 → UInt32) (work : Nat → UInt8) (flash : Nat → UInt32)
    (n : Nat) : Nat → UInt32 :=
  programWord (4 * n + sysParaAddr) (data wide work (4 * n)) flash

def flashProgramSavePara (wide : UInt32 → UInt32 → UInt32) (work : Nat → UInt8)
    (flash : Nat → UInt32) : Nat → UInt32 :=
  (List.range 5).foldl (saveWord wide work)
    (programWord (sysParaAddr - 1) 0x86123456 (erasePage sysParaAddr flash))

/-- `__Read_Flash_Word(a)` for an address without operators. -/
def readFlashWord (flash : Nat → UInt32) (a : Nat) : UInt32 := flash a

/-- `__Read_Flash_Word(SYS_PARA_ADDR-1) == 0x86123456`: the macro's argument has no
parentheses, so the cast and `*` take `SYS_PARA_ADDR` alone, and 1 comes off the word. -/
def MarkerFound (flash : Nat → UInt32) : Prop := readFlashWord flash sysParaAddr - 1 = 0x86123456

instance (flash : Nat → UInt32) : Decidable (MarkerFound flash) :=
  inferInstanceAs (Decidable (_ = _))

/-- Three of the four assignments go to `device_data[i+1]`. -/
def readWord (flash : Nat → UInt32) (work : Nat → UInt8) (n : Nat) : Nat → UInt8 :=
  let i := 4 * n
  let data := readFlashWord flash (i + sysParaAddr)
  let work := Function.update work i (data &&& 0xff).toUInt8
  let work := Function.update work (i + 1) ((data >>> 8) &&& 0xff).toUInt8
  let work := Function.update work (i + 1) ((data >>> 16) &&& 0xff).toUInt8
  Function.update work (i + 1) ((data >>> 24) &&& 0xff).toUInt8

def flashProgramReadPara (flash : Nat → UInt32) (work : Nat → UInt8) : Nat → UInt8 :=
  if MarkerFound flash then (List.range 5).foldl (readWord flash) work else work

/-! ## What the loops leave -/

section

variable (wide : UInt32 → UInt32 → UInt32) (work : Nat → UInt8) (flash : Nat → UInt32)

theorem saveWords_word (n : Nat) {k : Nat} (hk : k < n) :
    (List.range n).foldl (saveWord wide work) flash (4 * k + sysParaAddr) =
      data wide work (4 * k) := by
  induction n with
  | zero => omega
  | succ n ih =>
    rw [List.range_succ, List.foldl_append, List.foldl_cons, List.foldl_nil, saveWord, programWord]
    by_cases hkn : k = n
    · rw [hkn, Function.update_self]
    · rw [Function.update_of_ne (by omega)]
      exact ih (by omega)

/-- Of a word the reader keeps its lowest and its highest byte. -/
theorem readWord_byte (n j : Nat) :
    readWord flash work n j =
      if j = 4 * n + 1 then ((flash (4 * n + sysParaAddr) >>> 24) &&& 0xff).toUInt8
      else if j = 4 * n then (flash (4 * n + sysParaAddr) &&& 0xff).toUInt8
      else work j := by
  simp only [readWord, readFlashWord, Function.update_apply]
  split
  · rfl
  · rfl

theorem readWords_later (n : Nat) {j : Nat} (hj : 4 * n ≤ j) :
    (List.range n).foldl (readWord flash) work j = work j := by
  induction n with
  | zero => rfl
  | succ n ih =>
    rw [List.range_succ, List.foldl_append, List.foldl_cons, List.foldl_nil, readWord_byte,
      if_neg (by omega), if_neg (by omega)]
    exact ih (by omega)

theorem readWords_byte (n : Nat) {k r : Nat} (hk : k < n) (hr : r < 4) :
    (List.range n).foldl (readWord flash) work (4 * k + r) =
      readWord flash work k (4 * k + r) := by
  induction n with
  | zero => omega
  | succ n ih =>
    rw [List.range_succ, List.foldl_append, List.foldl_cons, List.foldl_nil]
    by_cases hkn : k = n
    · subst hkn
      rw [readWord_byte, readWord_byte, readWords_later work flash k (by omega)]
    · rw [readWord_byte, if_neg (by omega), if_neg (by omega)]
      exact ih (by omega)

/-- What a record that passes the test is read as: of each word two bytes are taken, and
two of the four settings are left as they were. -/
theorem flashProgramReadPara_found (h : MarkerFound flash) {k r : Nat} (hk : k < 5) (hr : r < 4) :
    flashProgramReadPara flash work (4 * k + r) =
      if r = 1 then ((flash (4 * k + sysParaAddr) >>> 24) &&& 0xff).toUInt8
      else if r = 0 then (flash (4 * k + sysParaAddr) &&& 0xff).toUInt8
      else work (4 * k + r) := by
  rw [flashProgramReadPara, if_pos h, readWords_byte work flash 5 hk hr, readWord_byte]
  refine if_congr (by omega) rfl (if_congr (by omega) rfl rfl)

end

/-! ## The stored words -/

theorem shl_of_lt (wide : UInt32 → UInt32 → UInt32) (x : UInt32) {n : UInt32} (hn : n < 32) :
    shl wide x n = x <<< n := if_pos hn

/-- The last shift leaves three of the four bytes empty. -/
theorem data_shape (wide : UInt32 → UInt32 → UInt32) (work : Nat → UInt8) (i : Nat) :
    ∃ x : UInt32, data wide work i = x <<< 24 :=
  ⟨_, shl_of_lt wide _ (by decide)⟩

theorem shifted_ne_marker (x : UInt32) : x <<< 24 - 1 ≠ 0x86123456 := by
  intro h
  have hnat := congrArg UInt32.toNat (eq_add_of_sub_eq h)
  rw [UInt32.toNat_shiftLeft, Nat.shiftLeft_eq] at hnat
  simp at hnat
  omega

section

variable (wide : UInt32 → UInt32 → UInt32) (work : Nat → UInt8) (flash : Nat → UInt32)

/-- **No record is found after a save.** -/
theorem saved_not_found : ¬ MarkerFound (flashProgramSavePara wide work flash) := by
  obtain ⟨x, hx⟩ := data_shape wide work (4 * 0)
  have hword : flashProgramSavePara wide work flash (4 * 0 + sysParaAddr) = x <<< 24 := by
    rw [← hx]
    exact saveWords_word wide work _ 5 (by decide)
  rw [Nat.mul_zero, Nat.zero_add] at hword
  rw [MarkerFound, readFlashWord, hword]
  exact shifted_ne_marker x

/-- So nothing is read back. -/
theorem read_after_save (into : Nat → UInt8) :
    flashProgramReadPara (flashProgramSavePara wide work flash) into = into :=
  if_neg (saved_not_found wide work flash)

end

/-- Whatever over-wide shifts give, the parameters come back only if all of
them are 0. -/
theorem parameters_restored (wide : UInt32 → UInt32 → UInt32) (work : Nat → UInt8)
    (flash : Nat → UInt32) :
    (∀ i < 20, flashProgramReadPara (flashProgramSavePara wide work flash) (fun _ => 0) i =
      work i) ↔ ∀ i < 20, work i = 0 := by
  rw [read_after_save]
  exact forall₂_congr fun i _ => eq_comm

/-- A device that is on, all else 0: no shift is too wide, and the power state
does not come back. -/
theorem power_state_lost :
    ¬ ∀ i < 20, flashProgramReadPara
      (flashProgramSavePara (fun _ _ => 0) (fun i => if i = 0 then 1 else 0) (fun _ => 0xffffffff))
      (fun _ => 0) i = if i = 0 then 1 else 0 := by
  intro h
  have h0 := h 0 (by decide)
  rw [read_after_save] at h0
  exact absurd h0 (by decide)

end FlashPara

end Aclean
