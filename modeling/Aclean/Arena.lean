import Mathlib.Data.List.Basic
import Mathlib.Data.List.Chain

/-!
# Blocks side by side

An arena cut into blocks that lie side by side, each taken or free. A taken
block is cut off a free one (`Block.cut`); one given back is joined with the
free blocks beside it (`merged`), so that between taken blocks there is at
most one free block (`Coalesced`), and with nothing taken there is one block
in all.
-/

namespace Arena

structure Block where
  size : Nat
  taken : Bool
  deriving DecidableEq, Repr

/-! ## Where a block begins -/

/-- How long blocks are together. -/
def span : List Block → Nat
  | [] => 0
  | b :: bs => b.size + span bs

/-- `b` begins at `p`. -/
def Lies (bs : List Block) (p : Nat) (b : Block) : Prop :=
  ∃ pre post, bs = pre ++ b :: post ∧ p = span pre

variable {bs cs pre post : List Block} {b c : Block} {p q n : Nat}

@[simp] theorem span_nil : span [] = 0 := rfl

@[simp] theorem span_cons : span (b :: bs) = b.size + span bs := rfl

@[simp] theorem span_append : span (bs ++ cs) = span bs + span cs := by
  induction bs with
  | nil => exact (Nat.zero_add _).symm
  | cons b bs ih => rw [List.cons_append, span_cons, span_cons, ih, Nat.add_assoc]

@[simp] theorem not_lies_nil : ¬ Lies [] p b := by
  rintro ⟨pre, post, h, -⟩
  exact List.cons_ne_nil _ _ (List.append_eq_nil_iff.mp h.symm).2

theorem lies_cons : Lies (c :: bs) p b ↔ (p = 0 ∧ b = c) ∨ ∃ q, p = c.size + q ∧ Lies bs q b := by
  constructor
  · rintro ⟨pre, post, h, rfl⟩
    rcases pre with _ | ⟨d, pre⟩
    · obtain ⟨rfl, -⟩ := List.cons.inj h
      exact .inl ⟨rfl, rfl⟩
    · obtain ⟨rfl, rfl⟩ := List.cons.inj h
      exact .inr ⟨span pre, span_cons, pre, post, rfl, rfl⟩
  · rintro (⟨rfl, rfl⟩ | ⟨q, rfl, pre, post, rfl, rfl⟩)
    · exact ⟨[], bs, rfl, rfl⟩
    · exact ⟨c :: pre, post, rfl, span_cons.symm⟩

theorem lies_append : Lies (bs ++ cs) p b ↔ Lies bs p b ∨ ∃ q, p = span bs + q ∧ Lies cs q b := by
  induction bs generalizing p with
  | nil => simp
  | cons d bs ih =>
    simp only [List.cons_append, lies_cons, ih, span_cons]
    constructor
    · rintro (h | ⟨q, rfl, h | ⟨r, rfl, h⟩⟩)
      · exact .inl (.inl h)
      · exact .inl (.inr ⟨q, rfl, h⟩)
      · exact .inr ⟨r, by omega, h⟩
    · rintro ((h | ⟨q, rfl, h⟩) | ⟨r, rfl, h⟩)
      · exact .inl h
      · exact .inr ⟨q, rfl, .inl h⟩
      · exact .inr ⟨span bs + r, by omega, .inr ⟨r, rfl, h⟩⟩

theorem Lies.mem (h : Lies bs p b) : b ∈ bs := by
  obtain ⟨pre, post, rfl, -⟩ := h
  exact List.mem_append_right _ List.mem_cons_self

theorem Lies.inside (h : Lies bs p b) : p + b.size ≤ span bs := by
  obtain ⟨pre, post, rfl, rfl⟩ := h
  rw [span_append, span_cons]
  omega

/-- Blocks do not overlap. -/
theorem Lies.apart (h : Lies bs p b) (h' : Lies bs q c) :
    (p = q ∧ b = c) ∨ p + b.size ≤ q ∨ q + c.size ≤ p := by
  induction bs generalizing p q with
  | nil => exact absurd h not_lies_nil
  | cons d bs ih =>
    rcases lies_cons.mp h with ⟨rfl, rfl⟩ | ⟨p', rfl, hp⟩ <;>
      rcases lies_cons.mp h' with ⟨rfl, rfl⟩ | ⟨q', rfl, hq⟩
    · exact .inl ⟨rfl, rfl⟩
    · omega
    · omega
    · rcases ih hp hq with ⟨rfl, rfl⟩ | h | h
      · exact .inl ⟨rfl, rfl⟩
      · omega
      · omega

/-- Blocks of some length begin apart. -/
theorem Lies.unique (hpos : ∀ b ∈ bs, 0 < b.size) (h : Lies bs p b) (h' : Lies bs p c) : b = c := by
  have hb := hpos b h.mem
  have hc := hpos c h'.mem
  rcases h.apart h' with ⟨-, heq⟩ | hle | hle
  · exact heq
  · omega
  · omega

/-! ## Taken blocks -/

/-- How much is taken. -/
def used (bs : List Block) : Nat := span (bs.filter Block.taken)

@[simp] theorem used_nil : used [] = 0 := rfl

@[simp] theorem used_cons : used (b :: bs) = (if b.taken then b.size else 0) + used bs := by
  unfold used
  rw [List.filter_cons]
  split
  · exact span_cons
  · exact (Nat.zero_add _).symm

@[simp] theorem used_append : used (bs ++ cs) = used bs + used cs := by
  simp [used]

theorem used_le (bs : List Block) : used bs ≤ span bs := by
  induction bs with
  | nil => exact Nat.le_refl _
  | cons b bs ih =>
    rw [used_cons, span_cons]
    split
    · exact Nat.add_le_add_left ih _
    · exact Nat.add_le_add (Nat.zero_le _) ih

/-- A taken block of `n` bytes at `p`. -/
def Taken (bs : List Block) (p n : Nat) : Prop := Lies bs p ⟨n, true⟩

theorem taken_cons :
    Taken (c :: bs) p n ↔ (p = 0 ∧ ⟨n, true⟩ = c) ∨ ∃ q, p = c.size + q ∧ Taken bs q n :=
  lies_cons

theorem taken_append :
    Taken (bs ++ cs) p n ↔ Taken bs p n ∨ ∃ q, p = span bs + q ∧ Taken cs q n :=
  lies_append

theorem taken_of_free (hb : b.taken = false) :
    Taken (b :: bs) p n ↔ ∃ q, p = b.size + q ∧ Taken bs q n := by
  rw [taken_cons]
  constructor
  · rintro (⟨-, rfl⟩ | h)
    · cases hb
    · exact h
  · exact .inr

theorem taken_middle (hb : b.taken = true) : Taken (pre ++ b :: post) (span pre) b.size := by
  obtain ⟨n, taken⟩ := b
  obtain rfl : taken = true := hb
  exact ⟨pre, post, rfl, rfl⟩

/-! ## The first free block -/

/-- Where the first free block begins; the end, with none. -/
def lowest (bs : List Block) : Nat := span (bs.takeWhile Block.taken)

theorem lowest_le (h : Lies bs p b) (hb : b.taken = false) : lowest bs ≤ p := by
  unfold lowest
  induction bs generalizing p with
  | nil => exact absurd h not_lies_nil
  | cons c bs ih =>
    rw [List.takeWhile_cons]
    rcases lies_cons.mp h with ⟨rfl, rfl⟩ | ⟨q, rfl, hq⟩
    · rw [if_neg (by simp [hb])]
      exact Nat.le_refl _
    · split
      · rw [span_cons]
        exact Nat.add_le_add_left (ih hq) _
      · exact Nat.zero_le _

/-- A free block begins at `p`, or the arena ends there. -/
def Free (bs : List Block) (p : Nat) : Prop :=
  p = span bs ∨ ∃ b, Lies bs p b ∧ b.taken = false

theorem free_append :
    Free (bs ++ cs) p ↔
      (∃ b, Lies bs p b ∧ b.taken = false) ∨ ∃ q, p = span bs + q ∧ Free cs q := by
  simp only [Free, span_append, lies_append]
  constructor
  · rintro (rfl | ⟨b, h | ⟨q, rfl, h⟩, hb⟩)
    · exact .inr ⟨span cs, rfl, .inl rfl⟩
    · exact .inl ⟨b, h, hb⟩
    · exact .inr ⟨q, rfl, .inr ⟨b, h, hb⟩⟩
  · rintro (⟨b, h, hb⟩ | ⟨q, rfl, rfl | ⟨b, h, hb⟩⟩)
    · exact .inr ⟨b, .inl h, hb⟩
    · exact .inl rfl
    · exact .inr ⟨b, .inr ⟨q, rfl, h⟩, hb⟩

theorem free_cons :
    Free (b :: bs) p ↔ (p = 0 ∧ b.taken = false) ∨ ∃ q, p = b.size + q ∧ Free bs q := by
  simp only [Free, span_cons, lies_cons]
  constructor
  · rintro (rfl | ⟨c, ⟨rfl, rfl⟩ | ⟨q, rfl, h⟩, hc⟩)
    · exact .inr ⟨span bs, rfl, .inl rfl⟩
    · exact .inl ⟨rfl, hc⟩
    · exact .inr ⟨q, rfl, .inr ⟨c, h, hc⟩⟩
  · rintro (⟨rfl, hb⟩ | ⟨q, rfl, rfl | ⟨c, h, hc⟩⟩)
    · exact .inr ⟨b, .inl ⟨rfl, rfl⟩, hb⟩
    · exact .inl rfl
    · exact .inr ⟨c, .inr ⟨q, rfl, h⟩, hc⟩

theorem lowest_free : Free bs (lowest bs) := by
  unfold lowest
  induction bs with
  | nil => exact .inl rfl
  | cons b bs ih =>
    rw [List.takeWhile_cons, free_cons]
    by_cases hb : b.taken = true
    · rw [if_pos hb]
      exact .inr ⟨_, span_cons, ih⟩
    · rw [if_neg hb]
      exact .inl ⟨rfl, Bool.eq_false_iff.mpr hb⟩

theorem lowest_le_span (bs : List Block) : lowest bs ≤ span bs := by
  rcases (lowest_free : Free bs (lowest bs)) with h | ⟨b, h, -⟩
  · exact Nat.le_of_eq h
  · exact (Nat.le_add_right _ _).trans h.inside

/-- Giving back a block takes no free one away. -/
theorem Free.release (h : Free (pre ++ b :: post) p) :
    Free (pre ++ ⟨b.size, false⟩ :: post) p := by
  rcases free_append.mp h with h | ⟨q, rfl, hq⟩
  · exact free_append.mpr (.inl h)
  · refine free_append.mpr (.inr ⟨q, rfl, ?_⟩)
    rcases free_cons.mp hq with ⟨rfl, -⟩ | hr
    · exact free_cons.mpr (.inl ⟨rfl, rfl⟩)
    · exact free_cons.mpr (.inr hr)

/-- What is cut off the end of a taken block takes no free one away. -/
theorem Free.cut (h : Free (pre ++ b :: post) p) (hb : b.taken = true) (hn : n ≤ b.size) :
    Free (pre ++ ([⟨n, true⟩, ⟨b.size - n, false⟩] ++ post)) p := by
  rcases free_append.mp h with h | ⟨q, rfl, hq⟩
  · exact free_append.mpr (.inl h)
  · refine free_append.mpr (.inr ⟨q, rfl, ?_⟩)
    rcases free_cons.mp hq with ⟨-, hfree⟩ | ⟨r, rfl, hr⟩
    · rw [hb] at hfree
      cases hfree
    · refine free_cons.mpr (.inr ⟨b.size - n + r, ?_, free_cons.mpr (.inr ⟨r, rfl, hr⟩)⟩)
      dsimp only
      omega

theorem lowest_append (hpos : ∀ b ∈ bs, 0 < b.size) :
    lowest (bs ++ cs) = if lowest bs = span bs then span bs + lowest cs else lowest bs := by
  unfold lowest
  induction bs with
  | nil => simp
  | cons b bs ih =>
    have hb := hpos b List.mem_cons_self
    rw [List.cons_append, List.takeWhile_cons, List.takeWhile_cons]
    by_cases htaken : b.taken = true
    · rw [if_pos htaken, if_pos htaken, span_cons, span_cons, span_cons,
        ih fun c hc => hpos c (.tail _ hc)]
      split <;> split <;> omega
    · rw [if_neg htaken, if_neg htaken, span_nil, span_cons, if_neg (by omega)]

/-- Where the search for a free block may begin. -/
theorem Free.split (h : Free bs p) :
    ∃ low high, bs = low ++ high ∧ p = span low ∧ ∀ b ∈ high.head?, b.taken = false := by
  rcases h with rfl | ⟨b, ⟨pre, post, rfl, rfl⟩, hb⟩
  · exact ⟨bs, [], (List.append_nil bs).symm, rfl, by simp⟩
  · exact ⟨pre, b :: post, rfl, rfl, by simp [hb]⟩

/-! ## Taking -/

/-- `n` bytes cut off a block; what is left over goes along with them if it is shorter
than `least`. -/
def Block.cut (n least : Nat) (b : Block) : List Block :=
  if n + least ≤ b.size then [⟨n, true⟩, ⟨b.size - n, false⟩] else [⟨b.size, true⟩]

/-- A free block of `n` bytes or more. -/
def Block.Fits (n : Nat) (b : Block) : Prop := b.taken = false ∧ n ≤ b.size

instance : Decidable (b.Fits n) := inferInstanceAs (Decidable (_ ∧ _))

/-- The first block that fits and begins before `limit`; the blocks begin at `p`. -/
def firstFit (n limit : Nat) : Nat → List Block → Option Nat
  | _, [] => none
  | p, b :: bs =>
    if p < limit then if b.Fits n then some p else firstFit n limit (p + b.size) bs else none

theorem span_cut {least : Nat} (hn : n ≤ b.size) : span (b.cut n least) = b.size := by
  unfold Block.cut
  split
  · simp only [span_cons, span_nil]
    omega
  · simp

/-- One block of those cut is taken, the first. -/
theorem taken_cut {least : Nat} :
    Taken (b.cut n least) p q ↔ p = 0 ∧ q = if n + least ≤ b.size then n else b.size := by
  unfold Block.cut
  split
  · rw [taken_cons]
    constructor
    · rintro (⟨rfl, h⟩ | ⟨r, rfl, h⟩)
      · exact ⟨rfl, congrArg Block.size h⟩
      · obtain ⟨t, -, ht⟩ := (taken_of_free rfl).mp h
        exact absurd ht not_lies_nil
    · rintro ⟨rfl, rfl⟩
      exact .inl ⟨rfl, rfl⟩
  · rw [taken_cons]
    constructor
    · rintro (⟨rfl, h⟩ | ⟨r, rfl, h⟩)
      · exact ⟨rfl, congrArg Block.size h⟩
      · exact absurd h not_lies_nil
    · rintro ⟨rfl, rfl⟩
      exact .inl ⟨rfl, rfl⟩

theorem firstFit_some {limit : Nat} (h : firstFit n limit p bs = some q) :
    ∃ pre b post, bs = pre ++ b :: post ∧ q = p + span pre ∧ q < limit ∧ b.Fits n := by
  induction bs generalizing p with
  | nil => cases h
  | cons b bs ih =>
    rw [firstFit] at h
    split at h
    case isFalse => cases h
    case isTrue hp =>
    split at h
    · cases h
      exact ⟨[], b, bs, rfl, rfl, hp, ‹_›⟩
    · obtain ⟨pre, c, post, rfl, rfl, hq, hc⟩ := ih h
      exact ⟨b :: pre, c, post, rfl, by rw [span_cons, Nat.add_assoc], hq, hc⟩

/-- With none found, nothing before `limit` fits. -/
theorem firstFit_none {limit : Nat} (h : firstFit n limit p bs = none) (hq : Lies bs q b)
    (hlimit : p + q < limit) : ¬ b.Fits n := by
  induction bs generalizing p q with
  | nil => exact absurd hq not_lies_nil
  | cons c bs ih =>
    rw [firstFit] at h
    split at h
    case isFalse hp => exact absurd (Nat.lt_of_le_of_lt (Nat.le_add_right _ _) hlimit) hp
    case isTrue =>
    split at h
    · cases h
    · rcases lies_cons.mp hq with ⟨-, rfl⟩ | ⟨r, rfl, hr⟩
      · assumption
      · exact ih h hr (by omega)

/-! ## Giving back -/

/-- A block before others, one with the first of them when both are free. -/
def join (b : Block) : List Block → List Block
  | [] => [b]
  | c :: bs => if b.taken || c.taken then b :: c :: bs else ⟨b.size + c.size, false⟩ :: bs

/-- Free blocks side by side joined. -/
def merged (bs : List Block) : List Block := bs.foldr join []

/-- No two free blocks side by side. -/
def Coalesced (bs : List Block) : Prop := bs.IsChain fun b c => (b.taken || c.taken) = true

@[simp] theorem span_join : span (join b bs) = b.size + span bs := by
  rcases bs with _ | ⟨c, bs⟩
  · rfl
  · rw [join]
    split <;> simp [Nat.add_assoc]

@[simp] theorem span_merged : span (merged bs) = span bs := by
  induction bs with
  | nil => rfl
  | cons b bs ih => rw [span_cons, ← ih]; exact span_join

/-- Cutting a block off a free one adds it to those taken. -/
theorem taken_append_cut {least : Nat} (hb : b.taken = false) (hn : n ≤ b.size) :
    Taken (pre ++ (b.cut n least ++ post)) p q ↔
      (p = span pre ∧ q = if n + least ≤ b.size then n else b.size) ∨
        Taken (pre ++ b :: post) p q := by
  simp only [taken_append, taken_cut, span_cut hn, taken_of_free hb]
  constructor
  · rintro (h | ⟨r, rfl, ⟨rfl, rfl⟩ | h⟩)
    · exact .inr (.inl h)
    · exact .inl ⟨rfl, rfl⟩
    · exact .inr (.inr ⟨r, rfl, h⟩)
  · rintro (⟨rfl, rfl⟩ | h | ⟨r, rfl, h⟩)
    · exact .inr ⟨0, rfl, .inl ⟨rfl, rfl⟩⟩
    · exact .inl h
    · exact .inr ⟨r, rfl, .inr h⟩

/-- Giving back a block takes it out of those taken. -/
theorem taken_release (hpos : ∀ c ∈ pre ++ b :: post, 0 < c.size) :
    Taken (pre ++ ⟨b.size, false⟩ :: post) p n ↔ Taken (pre ++ b :: post) p n ∧ p ≠ span pre := by
  have hb := hpos b (by simp)
  rw [taken_append, taken_append]
  constructor
  · rintro (h | ⟨q, rfl, hq⟩)
    · have hinside : p + n ≤ span pre := h.inside
      have hn : 0 < n := hpos _ (List.mem_append_left _ h.mem)
      exact ⟨.inl h, by omega⟩
    · obtain ⟨r, rfl, hr⟩ := (taken_of_free rfl).mp hq
      exact ⟨.inr ⟨_, rfl, taken_cons.mpr (.inr ⟨r, rfl, hr⟩)⟩, by dsimp only; omega⟩
  · rintro ⟨h | ⟨q, rfl, hq⟩, hne⟩
    · exact .inl h
    · rcases taken_cons.mp hq with ⟨rfl, -⟩ | ⟨r, rfl, hr⟩
      · exact absurd rfl hne
      · exact .inr ⟨_, rfl, (taken_of_free rfl).mpr ⟨r, rfl, hr⟩⟩

/-- Cutting off the end of a taken block makes that one shorter. -/
theorem taken_shorten {k m : Nat} (hn : n ≤ b.size)
    (hpos : ∀ c ∈ pre ++ b :: post, 0 < c.size) :
    Taken (pre ++ ([⟨n, true⟩, ⟨b.size - n, false⟩] ++ post)) k m ↔
      (k = span pre ∧ m = n) ∨ (Taken (pre ++ b :: post) k m ∧ k ≠ span pre) := by
  have hlong := hpos b (by simp)
  rw [taken_append, taken_append, List.cons_append, List.singleton_append]
  constructor
  · rintro (h | ⟨q, rfl, hq⟩)
    · have hinside : k + m ≤ span pre := h.inside
      have hm : 0 < m := hpos _ (List.mem_append_left _ h.mem)
      exact .inr ⟨.inl h, by omega⟩
    · rcases taken_cons.mp hq with ⟨rfl, heq⟩ | ⟨r, rfl, hr⟩
      · exact .inl ⟨rfl, congrArg Block.size heq⟩
      · obtain ⟨t, rfl, ht⟩ := (taken_of_free rfl).mp hr
        dsimp only
        refine .inr ⟨.inr ⟨_, rfl, taken_cons.mpr (.inr ⟨t, ?_, ht⟩)⟩, by omega⟩
        omega
  · rintro (⟨rfl, rfl⟩ | ⟨h | ⟨q, rfl, hq⟩, hne⟩)
    · exact .inr ⟨0, rfl, taken_cons.mpr (.inl ⟨rfl, rfl⟩)⟩
    · exact .inl h
    · rcases taken_cons.mp hq with ⟨rfl, -⟩ | ⟨r, rfl, hr⟩
      · exact absurd rfl hne
      · refine .inr ⟨_, rfl, taken_cons.mpr (.inr ⟨b.size - n + r, ?_, ?_⟩)⟩
        · dsimp only
          omega
        · exact (taken_of_free rfl).mpr ⟨r, rfl, hr⟩

theorem taken_join : Taken (join b bs) p n ↔ Taken (b :: bs) p n := by
  rcases bs with _ | ⟨c, bs⟩
  · exact Iff.rfl
  · rw [join]
    split
    · exact Iff.rfl
    · obtain ⟨hb, hc⟩ := Bool.or_eq_false_iff.mp (Bool.not_eq_true _ ▸ ‹¬ _›)
      rw [taken_of_free rfl, taken_of_free hb]
      simp only [taken_of_free hc]
      constructor
      · rintro ⟨q, rfl, h⟩
        exact ⟨c.size + q, Nat.add_assoc .., q, rfl, h⟩
      · rintro ⟨q, rfl, r, rfl, h⟩
        exact ⟨r, (Nat.add_assoc ..).symm, h⟩

theorem taken_merged : Taken (merged bs) p n ↔ Taken bs p n := by
  induction bs generalizing p with
  | nil => exact Iff.rfl
  | cons b bs ih =>
    change Taken (join b (merged bs)) p n ↔ _
    rw [taken_join, taken_cons, taken_cons]
    simp only [ih]

theorem used_join : used (join b bs) = used (b :: bs) := by
  rcases bs with _ | ⟨c, bs⟩
  · rfl
  · rw [join]
    split
    · rfl
    · obtain ⟨hb, hc⟩ := Bool.or_eq_false_iff.mp (Bool.not_eq_true _ ▸ ‹¬ _›)
      simp [hb, hc]

theorem used_merged : used (merged bs) = used bs := by
  induction bs with
  | nil => rfl
  | cons b bs ih =>
    change used (join b (merged bs)) = _
    rw [used_join, used_cons, used_cons, ih]

theorem Coalesced.join (h : Coalesced bs) : Coalesced (join b bs) := by
  rcases bs with _ | ⟨c, bs⟩
  · exact List.isChain_singleton b
  · rw [Arena.join]
    split
    · exact List.isChain_cons_cons.mpr ⟨‹_›, h⟩
    · obtain ⟨-, hc⟩ := Bool.or_eq_false_iff.mp (Bool.not_eq_true _ ▸ ‹¬ _›)
      rcases bs with _ | ⟨d, bs⟩
      · exact List.isChain_singleton _
      · obtain ⟨hcd, hbs⟩ := List.isChain_cons_cons.mp h
        exact List.isChain_cons_cons.mpr ⟨by rw [hc] at hcd; exact hcd, hbs⟩

theorem coalesced_merged : Coalesced (merged bs) := by
  induction bs with
  | nil => exact List.isChain_nil
  | cons b bs ih => exact ih.join

theorem Coalesced.merged (h : Coalesced bs) : merged bs = bs := by
  induction bs with
  | nil => rfl
  | cons b bs ih =>
    change Arena.join b (Arena.merged bs) = _
    rw [ih h.tail]
    rcases bs with _ | ⟨c, bs⟩
    · rfl
    · exact if_pos (List.isChain_cons_cons.mp h).1

theorem join_head : (join b bs).head?.map Block.taken = some b.taken := by
  rcases bs with _ | ⟨c, bs⟩
  · rfl
  · rw [join]
    split
    · rfl
    · obtain ⟨hb, -⟩ := Bool.or_eq_false_iff.mp (Bool.not_eq_true _ ▸ ‹¬ _›)
      rw [hb]
      rfl

theorem merged_head (bs : List Block) :
    (merged bs).head?.map Block.taken = bs.head?.map Block.taken := by
  rcases bs with _ | ⟨b, bs⟩
  · rfl
  · exact join_head

/-- A byte of a taken block, behind the first `header` bytes. -/
def Payload (header : Nat) (bs : List Block) (a : Nat) : Prop :=
  ∃ p n, Taken bs p n ∧ p + header ≤ a ∧ a < p + n

theorem Payload.outside {header a : Nat} (mid : List Block)
    (h : Payload header (pre ++ (mid ++ post)) a) (hmid : ∀ b ∈ mid, b.taken = false) :
    a < span pre ∨ span pre + span mid + header ≤ a := by
  obtain ⟨p, n, hp, hlo, hhi⟩ := h
  rcases taken_append.mp hp with hp | ⟨q, rfl, hq⟩
  · exact .inl (Nat.lt_of_lt_of_le hhi hp.inside)
  · rcases taken_append.mp hq with hq | ⟨r, rfl, -⟩
    · exact absurd (hmid _ hq.mem) (by simp)
    · exact .inr (by omega)

/-- No block begins with bytes of a taken one's inside. -/
theorem Payload.apart {header a : Nat} (h : Payload header bs a) (hb : Lies bs p b) :
    a < p ∨ p + header ≤ a := by
  obtain ⟨q, n, hq, hlo, hhi⟩ := h
  rcases hq.apart hb with ⟨rfl, -⟩ | hle | hle
  · exact .inr hlo
  · exact .inl (Nat.lt_of_lt_of_le hhi hle)
  · exact .inr (by omega)

theorem Payload.lt {header a : Nat} (h : Payload header bs a) : a < span bs := by
  obtain ⟨q, n, hq, -, hhi⟩ := h
  exact Nat.lt_of_lt_of_le hhi hq.inside

/-! ## Two free blocks made one -/

theorem join_free (hb : b.taken = false) (hc : c.taken = false) :
    join b (c :: bs) = ⟨b.size + c.size, false⟩ :: bs := if_neg (by simp [hb, hc])

theorem taken_append_join : Taken (pre ++ join b post) p n ↔ Taken (pre ++ b :: post) p n := by
  rw [taken_append, taken_append]
  simp only [taken_join]

theorem Free.join (h : Free (pre ++ b :: c :: post) p) (hb : b.taken = false)
    (hc : c.taken = false) (hp : p ≠ span pre + b.size) :
    Free (pre ++ Arena.join b (c :: post)) p := by
  rw [join_free hb hc]
  rcases free_append.mp h with h | ⟨q, rfl, hq⟩
  · exact free_append.mpr (.inl h)
  · refine free_append.mpr (.inr ⟨q, rfl, ?_⟩)
    rcases free_cons.mp hq with ⟨rfl, -⟩ | ⟨r, rfl, hr⟩
    · exact free_cons.mpr (.inl ⟨rfl, rfl⟩)
    · rcases free_cons.mp hr with ⟨rfl, -⟩ | ⟨t, rfl, ht⟩
      · exact absurd rfl hp
      · exact free_cons.mpr (.inr ⟨t, (Nat.add_assoc ..).symm, ht⟩)

theorem lowest_append_free (hb : b.taken = false) : lowest (pre ++ b :: post) = lowest pre := by
  unfold lowest
  induction pre with
  | nil => simp [hb]
  | cons c pre ih =>
    rw [List.cons_append, List.takeWhile_cons, List.takeWhile_cons]
    split
    · rw [span_cons, span_cons, ih]
    · rfl

theorem lowest_le_append (hb : b.taken = false) : lowest (pre ++ b :: post) ≤ span pre :=
  lowest_le ⟨pre, post, rfl, rfl⟩ hb

theorem lowest_join (hb : b.taken = false) (hc : c.taken = false) :
    lowest (pre ++ join b (c :: post)) = lowest (pre ++ b :: c :: post) := by
  rw [join_free hb hc, lowest_append_free rfl, lowest_append_free hb]

/-- Up to a taken block nothing is joined. -/
theorem foldr_join (h : Coalesced (pre ++ [b])) :
    pre.foldr Arena.join (b :: bs) = pre ++ b :: bs := by
  induction pre with
  | nil => rfl
  | cons c pre ih =>
    rw [List.foldr_cons, ih (List.isChain_cons.mp h).2]
    rcases pre with _ | ⟨d, pre⟩
    · exact if_pos (List.isChain_cons_cons.mp h).1
    · exact if_pos (List.isChain_cons_cons.mp h).1

theorem Coalesced.last (h : Coalesced (pre ++ [b])) (htaken : c.taken = b.taken) :
    Coalesced (pre ++ [c]) := by
  obtain ⟨hpre, -, hlink⟩ := List.isChain_append.mp h
  refine List.isChain_append.mpr ⟨hpre, List.isChain_singleton c, fun d hd e he => ?_⟩
  obtain rfl := Option.some.inj he
  rw [htaken]
  exact hlink d hd b rfl

/-- Joining goes no further than the block before. -/
theorem foldr_join_join (h : Coalesced (pre ++ [b])) :
    pre.foldr Arena.join (Arena.join b bs) = pre ++ Arena.join b bs := by
  rcases bs with _ | ⟨c, bs⟩
  · exact foldr_join h
  · rw [Arena.join]
    split
    · exact foldr_join h
    · obtain ⟨hb, -⟩ := Bool.or_eq_false_iff.mp (Bool.not_eq_true _ ▸ ‹¬ _›)
      exact foldr_join (h.last hb.symm)

/-- A block cut off a free one leaves no two free blocks side by side. -/
theorem Coalesced.cut {least : Nat} (h : Coalesced (pre ++ b :: post)) (hb : b.taken = false) :
    Coalesced (pre ++ (b.cut n least ++ post)) := by
  obtain ⟨hpre, hrest, hlink⟩ := List.isChain_append.mp h
  have hpost : ∀ c ∈ post.head?, c.taken = true := by
    intro c hc
    have hbc := (List.isChain_cons.mp hrest).1 c hc
    rwa [hb, Bool.false_or] at hbc
  have htail := (List.isChain_cons.mp hrest).2
  unfold Block.cut
  split
  · refine List.isChain_append.mpr ⟨hpre, ?_, fun c hc d hd => ?_⟩
    · refine List.isChain_cons_cons.mpr ⟨rfl, List.isChain_cons.mpr ⟨fun c hc => ?_, htail⟩⟩
      exact hpost c hc
    · obtain rfl := Option.some.inj hd
      exact Bool.or_true _
  · refine List.isChain_append.mpr ⟨hpre, List.isChain_cons.mpr ⟨fun c _ => rfl, htail⟩, ?_⟩
    intro c hc d hd
    obtain rfl := Option.some.inj hd
    exact Bool.or_true _

/-- With nothing taken, one block is left. -/
theorem Coalesced.eq_singleton (h : Coalesced bs) (hne : bs ≠ [])
    (hfree : ∀ p n, ¬ Taken bs p n) : bs = [⟨span bs, false⟩] := by
  have hall : ∀ b ∈ bs, b.taken = false := by
    intro b hb
    obtain ⟨pre, post, rfl⟩ := List.append_of_mem hb
    obtain ⟨n, taken⟩ := b
    cases taken
    case false => rfl
    case true => exact absurd ⟨pre, post, rfl, rfl⟩ (hfree (span pre) n)
  rcases bs with _ | ⟨b, _ | ⟨c, bs⟩⟩
  · exact absurd rfl hne
  · have hb := hall b List.mem_cons_self
    rw [span_cons, span_nil, Nat.add_zero, ← hb]
  · have hbc := (List.isChain_cons_cons.mp h).1
    rw [hall b List.mem_cons_self, hall c (.tail _ List.mem_cons_self)] at hbc
    cases hbc

end Arena
