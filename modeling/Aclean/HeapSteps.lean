import Aclean.Heap

/-!
# What each heap function does to the blocks

One lemma for each function of `mem.c`: the heap's memory holds a list of
blocks before the call, and after it the list that the function is there to
make of them, with every byte of a taken block as it was.
-/

namespace Aclean.RtThread

open Arena Heap

namespace Heap

/-! ## Headers written -/

section headers

variable {p q a : Nat} {f : HeapMem → HeapMem} {h : Heap}

@[simp] theorem modify_memSizeAligned : (h.modify p f).memSizeAligned = h.memSizeAligned := rfl
@[simp] theorem modify_usedMem : (h.modify p f).usedMem = h.usedMem := rfl
@[simp] theorem modify_maxMem : (h.modify p f).maxMem = h.maxMem := rfl


theorem count_maxMem {n : Nat} : (h.count n).maxMem = max h.maxMem (h.count n).usedMem := by
  unfold count
  dsimp only
  split <;> omega

theorem modify_mem (ha : a < p ∨ p + 12 ≤ a) : (h.modify p f).mem a = h.mem a := store_of_apart ha

@[simp] theorem header_modify_self : (h.modify p f).header p = f (h.header p) :=
  heapMem_store _ _ _

theorem header_modify_of_apart (hpq : q + 12 ≤ p ∨ p + 12 ≤ q) :
    (h.modify p f).header q = h.header q := heapMem_store_of_apart hpq

theorem modify_modify {g : HeapMem → HeapMem} :
    (h.modify p f).modify p g = h.modify p fun m => g (f m) := by
  have hmem : (g ((h.modify p f).header p)).store p (h.modify p f).mem =
      (g (f (h.header p))).store p h.mem := by
    rw [header_modify_self]
    funext a
    by_cases ha : p ≤ a ∧ a < p + 12
    · rw [HeapMem.store, HeapMem.store, if_pos ha, if_pos ha]
    · rw [store_of_apart (by omega), store_of_apart (by omega)]
      exact modify_mem (by omega)
  exact congrArg (fun m => { h with mem := m }) hmem

theorem modify_comm {g : HeapMem → HeapMem} (hpq : q + 12 ≤ p ∨ p + 12 ≤ q) :
    (h.modify p f).modify q g = (h.modify q g).modify p f := by
  have hmem : (g ((h.modify p f).header q)).store q (h.modify p f).mem =
      (f ((h.modify q g).header p)).store p (h.modify q g).mem := by
    rw [header_modify_of_apart hpq, header_modify_of_apart hpq.symm]
    funext a
    by_cases hp : p ≤ a ∧ a < p + 12
    · rw [store_of_apart (by omega), HeapMem.store, if_pos hp]
      exact if_pos hp
    · rw [store_of_apart (p := p) (by omega)]
      by_cases hq : q ≤ a ∧ a < q + 12
      · rw [HeapMem.store, if_pos hq]
        exact (if_pos hq).symm
      · rw [store_of_apart (by omega), modify_mem (by omega), modify_mem (by omega)]
  exact congrArg (fun m => { h with mem := m }) hmem

/-- Another header written before the link back or after it. -/
theorem linkBack_modify (hpq : q + 12 ≤ p) (hnext : q + 12 ≤ (h.header p).next.toNat) :
    (h.linkBack p).modify q f = (h.modify q f).linkBack p := by
  unfold linkBack
  simp only [header_modify_of_apart (h := h) (p := q) (q := p) (f := f) (.inr hpq),
    modify_memSizeAligned]
  split
  · exact modify_comm (.inl hnext)
  · rfl

end headers

/-! ## A heap that holds blocks -/

/-- `s'` differs from `s` in its variables and in bytes from `lo` to `hi` only. -/
structure Within (lo hi : Nat) (s s' : Heap) : Prop where
  heapPtr : s'.heapPtr = s.heapPtr
  heapEnd : s'.heapEnd = s.heapEnd
  memSizeAligned : s'.memSizeAligned = s.memSizeAligned
  mem : ∀ a, a < lo ∨ hi ≤ a → s'.mem a = s.mem a

theorem Within.trans {lo hi : Nat} {s s' s'' : Heap} (h : Within lo hi s s')
    (h' : Within lo hi s' s'') : Within lo hi s s'' :=
  ⟨h'.heapPtr.trans h.heapPtr, h'.heapEnd.trans h.heapEnd,
    h'.memSizeAligned.trans h.memSizeAligned, fun a ha => (h'.mem a ha).trans (h.mem a ha)⟩

theorem within_modify {lo hi p : Nat} {f : HeapMem → HeapMem} {s : Heap} (hlo : lo ≤ p)
    (hhi : p + 12 ≤ hi) : Within lo hi s (s.modify p f) :=
  ⟨rfl, rfl, rfl, fun a ha => modify_mem (by omega)⟩

theorem Within.header {lo hi q : Nat} {s s' : Heap} (h : Within lo hi s s')
    (hq : q + 12 ≤ lo ∨ hi ≤ q) : s'.header q = s.header q :=
  heapMem_congr fun a _ _ => h.mem a (by omega)

theorem Within.mono {lo hi lo' hi' : Nat} {s s' : Heap} (h : Within lo hi s s') (hlo : lo' ≤ lo)
    (hhi : hi ≤ hi') : Within lo' hi' s s' :=
  ⟨h.heapPtr, h.heapEnd, h.memSizeAligned, fun a ha => h.mem a (by omega)⟩

/-- The headers in `h` are those of the blocks `bs`. -/
structure Laid (h : Heap) (bs : List Block) : Prop where
  seg : ∃ q, Seg h.mem 0 0 bs q h.heapEnd
  endUsed : (h.header h.heapEnd).used = 1
  heapEnd : h.heapEnd = h.memSizeAligned + 12
  room : 12 ≤ h.memSizeAligned
  top : h.heapPtr + h.heapEnd + 12 < 2 ^ 32
  aligned : h.heapPtr % 4 = 0

section laid

variable {s s' : Heap} {pre post bs : List Block} {b c : Block} {q r n : Nat}

theorem Laid.span (h : Laid s bs) : span bs = s.heapEnd := by
  obtain ⟨q, hseg⟩ := h.seg
  rw [hseg.end_eq, Nat.zero_add]

theorem Laid.size (h : Laid s bs) (hb : b ∈ bs) : 12 ≤ b.size ∧ b.size % 4 = 0 := by
  obtain ⟨q, hseg⟩ := h.seg
  exact hseg.size hb

/-- The heap around some of its blocks. -/
theorem Laid.split (mid : List Block) (h : Laid s (pre ++ (mid ++ post))) :
    ∃ q r q', Seg s.mem 0 0 pre q (Arena.span pre) ∧
      Seg s.mem q (Arena.span pre) mid r (Arena.span pre + Arena.span mid) ∧
      Seg s.mem r (Arena.span pre + Arena.span mid) post q' s.heapEnd := by
  obtain ⟨q', hseg⟩ := h.seg
  obtain ⟨q, hpre, hrest⟩ := seg_append.mp hseg
  obtain ⟨r, hmid, hpost⟩ := seg_append.mp hrest
  rw [Nat.zero_add] at hpre hmid hpost
  exact ⟨q, r, q', hpre, hmid, hpost⟩

theorem Laid.at (h : Laid s (pre ++ b :: post)) :
    ∃ q, Heads s.mem q (Arena.span pre) b ∧ Arena.span pre + b.size ≤ s.heapEnd := by
  obtain ⟨q, r, q', hpre, hmid, hpost⟩ := Laid.split [b] h
  have hspan := h.span
  rw [span_append, span_cons] at hspan
  exact ⟨q, hmid.1, by omega⟩

/-- Blocks in the middle replaced by others as long, and the block behind them told where
the last of these begins. -/
theorem Laid.edit (mid mid' : List Block) (h : Laid s (pre ++ (mid ++ post)))
    (hs : Within (Arena.span pre) (Arena.span pre + Arena.span mid + 12) s s')
    (hspan : Arena.span mid' = Arena.span mid)
    (hused : (s'.header (Arena.span pre + Arena.span mid)).used =
      (s.header (Arena.span pre + Arena.span mid)).used)
    (hmid : ∀ q r, Seg s.mem q (Arena.span pre) mid r (Arena.span pre + Arena.span mid) →
      ∃ r', Seg s'.mem q (Arena.span pre) mid' r' (Arena.span pre + Arena.span mid) ∧
        r' < 2 ^ 32 ∧ (post ≠ [] → s'.header (Arena.span pre + Arena.span mid) =
          { s.header (Arena.span pre + Arena.span mid) with prev := .ofNat r' })) :
    Laid s' (pre ++ (mid' ++ post)) := by
  obtain ⟨q, r, q', hpre, hold, hpost⟩ := h.split mid
  obtain ⟨r', hnew, hr', hprev⟩ := hmid q r hold
  obtain ⟨q'', hpost'⟩ := hpost.relink hr' hprev fun a ha _ => hs.mem a (.inr ha)
  have hend := hpost.end_eq
  refine ⟨⟨q'', ?_⟩, ?_, ?_, ?_, ?_, ?_⟩
  · rw [hs.heapEnd]
    refine seg_append.mpr ⟨q, ?_, seg_append.mpr ⟨r', ?_, ?_⟩⟩
    · exact (Nat.zero_add _).symm ▸ hpre.congr fun a _ ha => hs.mem a (.inl ha)
    · rw [Nat.zero_add, hspan]
      exact hnew
    · rw [Nat.zero_add, hspan]
      exact hpost'
  · rw [hs.heapEnd, ← h.endUsed]
    rcases post with _ | ⟨c, post⟩
    · rw [span_nil, Nat.add_zero] at hend
      rw [hend]
      exact hused
    · have hc := hpost.1.size
      rw [span_cons] at hend
      exact congrArg HeapMem.used (heapMem_congr fun a ha _ => hs.mem a (by omega))
  · rw [hs.heapEnd, hs.memSizeAligned]
    exact h.heapEnd
  · rw [hs.memSizeAligned]
    exact h.room
  · rw [hs.heapPtr, hs.heapEnd]
    exact h.top
  · rw [hs.heapPtr]
    exact h.aligned

/-- A header written over without moving the block. -/
theorem Laid.mark (h : Laid s (pre ++ b :: post)) (f : HeapMem → HeapMem) (b' : Block)
    (hb : ∀ q, Heads s.mem q (Arena.span pre) b →
      Heads (s.modify (Arena.span pre) f).mem q (Arena.span pre) b') (hsize : b'.size = b.size) :
    Laid (s.modify (Arena.span pre) f) (pre ++ b' :: post) := by
  have hb12 := (h.size (b := b) (by simp)).1
  refine Laid.edit [b] [b'] h ?_ ?_ ?_ ?_
  · exact within_modify (Nat.le_refl _) (by omega)
  · simp [hsize]
  · rw [header_modify_of_apart]
    rw [span_cons, span_nil]
    omega
  · rintro q r ⟨hold, rfl, -⟩
    have hp : Arena.span pre < 2 ^ 32 := by
      have hspan := h.span
      have htop := h.top
      rw [span_append, span_cons] at hspan
      omega
    refine ⟨Arena.span pre, ⟨hb q hold, rfl, by simp [hsize]⟩, hp, fun hne => ?_⟩
    obtain ⟨c, post, rfl⟩ := List.exists_cons_of_ne_nil hne
    obtain ⟨q₁, r₁, q₂, -, hmid, hpost⟩ := Laid.split [b] h
    obtain ⟨-, rfl, -⟩ := hmid
    have hprev : UInt32.ofNat (Arena.span pre) =
        (s.header (Arena.span pre + Arena.span [b])).prev :=
      (congrArg UInt32.ofNat hpost.1.prev.symm).trans UInt32.ofNat_toNat
    rw [header_modify_of_apart (by rw [span_cons, span_nil]; omega), hprev]

theorem toNat_ofNat32 {a : Nat} (h : a < 2 ^ 32) : (UInt32.ofNat a).toNat = a :=
  UInt32.toNat_ofNat_of_lt' h

theorem sub32_eq {a b : Nat} (hle : b ≤ a) (ha : a < 2 ^ 32) : sub32 a b = a - b := by
  unfold sub32
  omega

/-! ## A block taken -/

@[simp] theorem linkBack_lfree {p : Nat} : (s.linkBack p).lfree = s.lfree := by
  unfold linkBack
  dsimp only
  split <;> rfl

@[simp] theorem linkBack_usedMem {p : Nat} : (s.linkBack p).usedMem = s.usedMem := by
  unfold linkBack
  dsimp only
  split <;> rfl

@[simp] theorem linkBack_maxMem {p : Nat} : (s.linkBack p).maxMem = s.maxMem := by
  unfold linkBack
  dsimp only
  split <;> rfl

theorem linkBack_within (h : s.heapEnd = s.memSizeAligned + 12) {p e : Nat}
    (he : (s.header p).next.toNat = e) : Within e (e + 12) s (s.linkBack p) ∧
      ((s.linkBack p).header e).used = (s.header e).used ∧
      (e ≠ s.heapEnd → (s.linkBack p).header e = { s.header e with prev := .ofNat p }) := by
  unfold linkBack
  simp only [he]
  split
  · exact ⟨within_modify (Nat.le_refl _) (Nat.le_refl _), by simp, fun _ => header_modify_self⟩
  · exact ⟨⟨rfl, rfl, rfl, fun _ _ => rfl⟩, rfl,
      fun hne => absurd (by simp_all [sizeofStructMem]) hne⟩

theorem Laid.behind (h : Laid s (pre ++ b :: post)) (hne : post ≠ []) :
    Arena.span pre + b.size ≠ s.heapEnd := by
  obtain ⟨c, post, rfl⟩ := List.exists_cons_of_ne_nil hne
  have hc := (h.size (b := c) (by simp)).1
  have hspan := h.span
  rw [span_append, span_cons, span_cons] at hspan
  omega

/-- A block cut in two. -/
theorem Laid.cut (h : Laid s (pre ++ b :: post)) (hn : n ≤ b.size)
    (hs : Within (Arena.span pre) (Arena.span pre + b.size + 12) s s')
    (hfirst : ∀ q, Heads s.mem q (Arena.span pre) b →
      Heads s'.mem q (Arena.span pre) ⟨n, true⟩)
    (hsecond : Heads s'.mem (Arena.span pre) (Arena.span pre + n) ⟨b.size - n, false⟩)
    (hused : (s'.header (Arena.span pre + b.size)).used = (s.header (Arena.span pre + b.size)).used)
    (hprev : Arena.span pre + b.size ≠ s.heapEnd → s'.header (Arena.span pre + b.size) =
      { s.header (Arena.span pre + b.size) with prev := .ofNat (Arena.span pre + n) }) :
    Laid s' (pre ++ ([⟨n, true⟩, ⟨b.size - n, false⟩] ++ post)) := by
  obtain ⟨q, -, hend⟩ := h.at
  have htop := h.top
  refine Laid.edit [b] _ h ?_ ?_ hused ?_
  · simpa using hs
  · simp only [span_cons, span_nil]
    omega
  · rintro q r ⟨hq, rfl, -⟩
    refine ⟨Arena.span pre + n, ⟨hfirst q hq, hsecond, rfl, ?_⟩, by omega,
      fun hne => hprev (h.behind hne)⟩
    simp only [span_cons, span_nil]
    omega

/-- A header written for what is left of a block, the block's own shortened, and the one
behind linked back. -/
theorem Laid.splits (h : Laid s (pre ++ b :: post)) (f₁ f₂ : HeapMem → HeapMem) (hn12 : 12 ≤ n)
    (hn : n + 12 ≤ b.size) (h4 : n % 4 = 0)
    (hf₁ : f₁ (s.header (Arena.span pre)) =
      ⟨heapMagic, 1, .ofNat (Arena.span pre + n), (s.header (Arena.span pre)).prev⟩)
    (hf₂ : ∀ m, ∃ magic, f₂ m =
      ⟨magic, 0, (s.header (Arena.span pre)).next, .ofNat (Arena.span pre)⟩) :
    let s' := ((s.modify (Arena.span pre + n) f₂).modify (Arena.span pre) f₁).linkBack
      (Arena.span pre + n)
    Laid s' (pre ++ ([⟨n, true⟩, ⟨b.size - n, false⟩] ++ post)) ∧
      Within (Arena.span pre) (Arena.span pre + b.size + 12) s s' ∧
      ∀ a, Arena.span pre + 12 ≤ a → a < Arena.span pre + n → s'.mem a = s.mem a := by
  intro s'
  obtain ⟨q, hb, hend⟩ := h.at
  have htop := h.top
  obtain ⟨magic, hsecond⟩ := hf₂ (s.header (Arena.span pre + n))
  have hnext : (s.header (Arena.span pre)).next.toNat = Arena.span pre + b.size := hb.next
  let s₂ := (s.modify (Arena.span pre + n) f₂).modify (Arena.span pre) f₁
  have hs' : s' = s₂.linkBack (Arena.span pre + n) := rfl
  -- the headers once both are written
  have hat₂ : s₂.header (Arena.span pre + n) =
      ⟨magic, 0, (s.header (Arena.span pre)).next, .ofNat (Arena.span pre)⟩ := by
    rw [header_modify_of_apart (by omega), header_modify_self, hsecond]
  have hat₁ : s₂.header (Arena.span pre) =
      ⟨heapMagic, 1, .ofNat (Arena.span pre + n), (s.header (Arena.span pre)).prev⟩ := by
    rw [header_modify_self, header_modify_of_apart (by omega), hf₁]
  have hmod : Within (Arena.span pre) (Arena.span pre + b.size) s s₂ :=
    (within_modify (by omega) (by omega)).trans (within_modify (by omega) (by omega))
  have hkept : ∀ a, Arena.span pre + 12 ≤ a → a < Arena.span pre + n → s₂.mem a = s.mem a := by
    intro a hlo hhi
    exact (modify_mem (.inr hlo)).trans (modify_mem (.inl hhi))
  obtain ⟨hwithin, hused, hprev⟩ := linkBack_within (s := s₂) h.heapEnd
    (p := Arena.span pre + n) (e := Arena.span pre + b.size) (by rw [hat₂]; exact hnext)
  rw [hmod.heapEnd] at hprev
  rw [← hs'] at hwithin hused hprev
  clear_value s₂ s'
  have hall := (hmod.mono (Nat.le_refl _) (Nat.le_add_right _ 12)).trans
    (hwithin.mono (Nat.le_add_right _ _) (Nat.le_refl _))
  have hnew₁ := (hwithin.header (.inl (by omega))).trans hat₁
  have hnew₂ := (hwithin.header (.inl (by omega))).trans hat₂
  have hfar := hmod.header (.inr (Nat.le_refl _))
  have h4b := hb.aligned
  refine ⟨h.cut (by omega) hall (fun q hq => ?_) ?_ (hused.trans (congrArg HeapMem.used hfar))
    (fun hne => (hprev hne).trans (by rw [hfar])), hall, fun a hlo hhi => ?_⟩
  · refine ⟨?_, ?_, ?_, ?_, hn12, h4⟩
    · exact congrArg HeapMem.used hnew₁
    · exact fun _ => congrArg HeapMem.magic hnew₁
    · exact (congrArg (·.next.toNat) hnew₁).trans (toNat_ofNat32 (by omega))
    · exact (congrArg (·.prev.toNat) hnew₁).trans hq.prev
  · refine ⟨?_, fun htaken => absurd htaken Bool.false_ne_true, ?_, ?_, ?_, ?_⟩
    · exact congrArg HeapMem.used hnew₂
    · refine (congrArg (·.next.toNat) hnew₂).trans (hnext.trans ?_)
      change _ = Arena.span pre + n + (b.size - n)
      omega
    · exact (congrArg (·.prev.toNat) hnew₂).trans (toNat_ofNat32 (by omega))
    · change 12 ≤ b.size - n
      omega
    · change (b.size - n) % 4 = 0
      omega
  · exact (hwithin.mem a (.inl (by omega))).trans (hkept a hlo hhi)

/-- How `takeBlock` and the magic after it change a heap. -/
structure Takes (s s' : Heap) (pre : List Block) (b : Block) (post : List Block) (n : Nat) :
    Prop where
  laid : Laid s' (pre ++ (b.cut (n + 12) 24 ++ post))
  within : Within (Arena.span pre) (Arena.span pre + b.size + 12) s s'
  lfree : s'.lfree = s.lfree
  usedMem : s'.usedMem = (s.usedMem + used (b.cut (n + 12) 24)) % 2 ^ 32
  maxMem : s'.maxMem = max s.maxMem s'.usedMem

theorem Laid.room_at (h : Laid s (pre ++ b :: post)) :
    sub32 (s.header (Arena.span pre)).next.toNat (Arena.span pre + sizeofStructMem) =
      b.size - 12 := by
  obtain ⟨q, hb, hend⟩ := h.at
  have htop := h.top
  have hsize := hb.size
  rw [show (s.header (Arena.span pre)).next.toNat = Arena.span pre + b.size from hb.next,
    sub32_eq (by unfold sizeofStructMem; omega) (by omega)]
  unfold sizeofStructMem
  omega

theorem Laid.takes_part (h : Laid s (pre ++ b :: post)) (hn : n + 36 ≤ b.size) (h4 : n % 4 = 0) :
    Takes s ((takeBlock (Arena.span pre) n s).modify (Arena.span pre)
      fun m => { m with magic := heapMagic }) pre b post n := by
  obtain ⟨q, hb, hend⟩ := h.at
  have hcut : b.cut (n + 12) 24 = [⟨n + 12, true⟩, ⟨b.size - (n + 12), false⟩] := if_pos (by omega)
  let f₁ : HeapMem → HeapMem := fun m =>
    { m with next := .ofNat (Arena.span pre + (n + 12)), used := 1, magic := heapMagic }
  let f₂ : HeapMem → HeapMem := fun m =>
    { m with used := 0, next := (s.header (Arena.span pre)).next, prev := .ofNat (Arena.span pre) }
  obtain ⟨hlaid, hwithin, -⟩ := h.splits (n := n + 12) f₁ f₂ (by omega) (by omega)
    (by omega) rfl (fun m => ⟨m.magic, rfl⟩)
  have heq : (takeBlock (Arena.span pre) n s).modify (Arena.span pre)
      (fun m => { m with magic := heapMagic }) =
        (((s.modify (Arena.span pre + (n + 12)) f₂).modify (Arena.span pre) f₁).linkBack
          (Arena.span pre + (n + 12))).count (n + 12) := by
    have hptr2 : Arena.span pre + sizeofStructMem + n = Arena.span pre + (n + 12) := by
      unfold sizeofStructMem
      omega
    unfold takeBlock
    rw [h.room_at, if_pos (by unfold sizeofStructMem minSizeAligned; omega), hptr2]
    let s₂ := (s.modify (Arena.span pre + (n + 12)) f₂).modify (Arena.span pre) fun m =>
      { m with next := .ofNat (Arena.span pre + (n + 12)), used := 1 }
    have hnext : Arena.span pre + 12 ≤
        (s₂.header (Arena.span pre + (n + 12))).next.toNat := by
      rw [header_modify_of_apart (by omega), header_modify_self]
      refine Nat.le_trans ?_ (Nat.le_of_eq hb.next.symm)
      omega
    have hcomm := linkBack_modify (h := s₂) (f := fun m => { m with magic := heapMagic })
      (by omega) hnext
    rw [modify_modify] at hcomm
    exact congrArg (Heap.count (n + 12)) hcomm
  rw [heq]
  refine ⟨?_, ⟨hwithin.heapPtr, hwithin.heapEnd, hwithin.memSizeAligned, hwithin.mem⟩, ?_, ?_,
    count_maxMem.trans (by simp)⟩
  · rw [hcut]
    exact ⟨hlaid.seg, hlaid.endUsed, hlaid.heapEnd, hlaid.room, hlaid.top, hlaid.aligned⟩
  · exact linkBack_lfree
  · rw [hcut]
    simp [count]

theorem Laid.takes_whole (h : Laid s (pre ++ b :: post)) (hn : n + 12 ≤ b.size)
    (hless : b.size < n + 36) :
    Takes s ((takeBlock (Arena.span pre) n s).modify (Arena.span pre)
      fun m => { m with magic := heapMagic }) pre b post n := by
  obtain ⟨q, hb, hend⟩ := h.at
  have htop := h.top
  have hcut : b.cut (n + 12) 24 = [⟨b.size, true⟩] := if_neg (by omega)
  have hnext : (s.header (Arena.span pre)).next.toNat = Arena.span pre + b.size := hb.next
  have hsize : sub32 (s.header (Arena.span pre)).next.toNat (Arena.span pre) = b.size := by
    rw [hnext, sub32_eq (by omega) (by omega), Nat.add_sub_cancel_left]
  have hboth : (takeBlock (Arena.span pre) n s).modify (Arena.span pre)
      (fun m => { m with magic := heapMagic }) =
        (s.modify (Arena.span pre) fun m => { m with used := 1, magic := heapMagic }).count
          b.size := by
    unfold takeBlock
    rw [h.room_at, if_neg (by simp only [sizeofStructMem, minSizeAligned]; omega)]
    dsimp only
    rw [← modify_modify (f := fun m => { m with used := 1 })
      (g := fun m => { m with magic := heapMagic }), header_modify_self, hsize]
    rfl
  rw [hboth]
  have hmark := h.mark (fun m => { m with used := 1, magic := heapMagic })
    ⟨b.size, true⟩ (fun q hq => by
      have hat := header_modify_self (p := Arena.span pre) (h := s)
        (f := fun m => { m with used := 1, magic := heapMagic })
      exact ⟨congrArg HeapMem.used hat, fun _ => congrArg HeapMem.magic hat,
        (congrArg (·.next.toNat) hat).trans hq.next, (congrArg (·.prev.toNat) hat).trans hq.prev,
        hq.size, hq.aligned⟩) rfl
  refine ⟨?_, ?_, rfl, ?_, ?_⟩
  · rw [hcut]
    exact ⟨hmark.seg, hmark.endUsed, hmark.heapEnd, hmark.room, hmark.top, hmark.aligned⟩
  · have hwithin : Within (Arena.span pre) (Arena.span pre + b.size + 12) s
        (s.modify (Arena.span pre) fun m => { m with used := 1, magic := heapMagic }) :=
      within_modify (Nat.le_refl _) (by omega)
    exact ⟨hwithin.heapPtr, hwithin.heapEnd, hwithin.memSizeAligned, hwithin.mem⟩
  · rw [hcut]
    simp [count]
  · exact count_maxMem

theorem Laid.takes (h : Laid s (pre ++ b :: post)) (hn : n + 12 ≤ b.size) (h4 : n % 4 = 0) :
    Takes s ((takeBlock (Arena.span pre) n s).modify (Arena.span pre)
      fun m => { m with magic := heapMagic }) pre b post n := by
  by_cases hsplit : n + 36 ≤ b.size
  · exact h.takes_part hsplit h4
  · exact h.takes_whole hn (Nat.lt_of_not_le hsplit)

/-! ## The loops of `rt_malloc` -/

theorem seg_length {m : Nat → UInt8} {p q' p' : Nat} (h : Seg m q p bs q' p') :
    bs.length + p ≤ p' := by
  induction bs generalizing q p with
  | nil => rw [h.2, List.length_nil, Nat.zero_add]
  | cons b bs ih =>
    have hsize := h.1.size
    have hrest := ih h.2
    rw [List.length_cons]
    omega

/-- The search comes to an end and finds the first block that fits. -/
theorem searchRoom_eq {p q' fuel : Nat} (h : Seg s.mem q p bs q' s.heapEnd)
    (hend : s.heapEnd = s.memSizeAligned + 12) (htop : s.heapEnd < 2 ^ 32)
    (hn : n ≤ s.memSizeAligned) (hfuel : bs.length < fuel) :
    searchRoom n s fuel p = some (firstFit (n + 12) (s.memSizeAligned - n) p bs) := by
  have hlimit : sub32 s.memSizeAligned n = s.memSizeAligned - n := sub32_eq hn (by omega)
  induction bs generalizing q p fuel with
  | nil =>
    obtain ⟨fuel, rfl⟩ := Nat.exists_eq_succ_of_ne_zero (Nat.ne_of_gt hfuel)
    have hp := h.2
    rw [searchRoom, hlimit, if_neg (by omega)]
    rfl
  | cons b bs ih =>
    obtain ⟨fuel, rfl⟩ := Nat.exists_eq_succ_of_ne_zero
      (Nat.ne_of_gt (Nat.zero_lt_of_lt hfuel))
    have hrest := seg_length h.2
    have hsize := h.1.size
    have hnext : (s.header p).next.toNat = p + b.size := h.1.next
    have hroom : sub32 (s.header p).next.toNat (p + sizeofStructMem) = b.size - 12 := by
      rw [hnext, sub32_eq (by simp only [sizeofStructMem]; omega) (by omega)]
      simp only [sizeofStructMem]
      omega
    have hfits : ((s.header p).used = 0 ∧ n ≤ b.size - 12) ↔ b.Fits (n + 12) := by
      have hused : (s.header p).used = if b.taken then 1 else 0 := h.1.used
      rw [hused, Block.Fits]
      cases b.taken
      · simp only [Bool.false_eq_true, if_false, true_and]
        omega
      · simp
    rw [searchRoom, firstFit, hlimit]
    split
    case isFalse => rfl
    case isTrue =>
    simp only [hroom, hfits]
    split
    · rfl
    · rw [hnext]
      exact ih h.2 (Nat.lt_of_succ_lt_succ hfuel)

theorem lowestFree_eq {p q' fuel : Nat} (h : Seg s.mem q p bs q' s.heapEnd)
    (hfuel : bs.length < fuel) : lowestFree s fuel p = some (p + lowest bs) := by
  induction bs generalizing q p fuel with
  | nil =>
    obtain ⟨fuel, rfl⟩ := Nat.exists_eq_succ_of_ne_zero (Nat.ne_of_gt hfuel)
    rw [lowestFree, if_neg fun hne => hne.2 h.2.symm]
    rfl
  | cons b bs ih =>
    obtain ⟨fuel, rfl⟩ := Nat.exists_eq_succ_of_ne_zero
      (Nat.ne_of_gt (Nat.zero_lt_of_lt hfuel))
    have hrest := seg_length h.2
    have hsize := h.1.size
    have hused : (s.header p).used = if b.taken then 1 else 0 := h.1.used
    have hnext : (s.header p).next.toNat = p + b.size := h.1.next
    rw [lowestFree, hused, lowest, List.takeWhile_cons]
    cases b.taken
    · rfl
    · rw [if_pos ⟨by simp, by omega⟩, hnext, ih h.2 (Nat.lt_of_succ_lt_succ hfuel), lowest,
        if_pos rfl, span_cons, Nat.add_assoc]

/-! ## Free blocks joined -/

theorem Laid.absorbs (h : Laid s (pre ++ b :: c :: post)) (hb : b.taken = false) :
    Laid (s.absorb (Arena.span pre) (Arena.span pre + b.size))
        (pre ++ ⟨b.size + c.size, false⟩ :: post) ∧
      Within (Arena.span pre) (Arena.span pre + (b.size + c.size) + 12) s
        (s.absorb (Arena.span pre) (Arena.span pre + b.size)) := by
  obtain ⟨q, r, q', -, ⟨hb', hc', -⟩, -⟩ := Laid.split [b, c] h
  have htop := h.top
  have hspan := h.span
  have hb12 := hb'.size
  have hc12 := hc'.size
  rw [span_append, span_cons, span_cons] at hspan
  have hnext : (s.header (Arena.span pre + b.size)).next.toNat =
      Arena.span pre + (b.size + c.size) := hc'.next.trans (Nat.add_assoc ..)
  unfold absorb
  extract_lets s₀ s₁
  have hat : s₁.header (Arena.span pre + b.size) = s.header (Arena.span pre + b.size) :=
    header_modify_of_apart (by omega)
  have hhead : s₁.header (Arena.span pre) = { s.header (Arena.span pre) with
      next := (s.header (Arena.span pre + b.size)).next } := header_modify_self
  have hfirst : Within (Arena.span pre) (Arena.span pre + (b.size + c.size) + 12) s s₁ :=
    ⟨rfl, rfl, rfl, fun a ha => modify_mem (by omega)⟩
  have hfar : s₁.header (Arena.span pre + (b.size + c.size)) =
      s.header (Arena.span pre + (b.size + c.size)) := header_modify_of_apart (by omega)
  rw [hat, hnext]
  clear_value s₁
  have hwithin := hfirst.trans (within_modify (p := Arena.span pre + (b.size + c.size))
    (f := fun m => { m with prev := .ofNat (Arena.span pre) }) (by omega) (Nat.le_refl _))
  refine ⟨?_, hwithin⟩
  refine Laid.edit [b, c] [⟨b.size + c.size, false⟩] h ?_ ?_ ?_ ?_
  · simpa using hwithin
  · simp
  · simp only [span_cons, span_nil, Nat.add_zero, header_modify_self, hfar]
  · rintro q₁ r₁ ⟨hq, -, -⟩
    simp only [span_cons, span_nil, Nat.add_zero, header_modify_self, hfar]
    have hnew := (header_modify_of_apart (p := Arena.span pre + (b.size + c.size))
      (f := fun m => { m with prev := .ofNat (Arena.span pre) }) (h := s₁)
      (q := Arena.span pre) (.inl (by omega))).trans hhead
    have hb4 := hb'.aligned
    have hc4 := hc'.aligned
    have hused := hq.used
    rw [hb] at hused
    refine ⟨Arena.span pre, ⟨⟨?_, fun htaken => absurd htaken Bool.false_ne_true, ?_, ?_, ?_, ?_⟩,
      rfl, rfl⟩, by omega, fun _ => rfl⟩
    · exact (congrArg HeapMem.used hnew).trans hused
    · exact (congrArg (·.next.toNat) hnew).trans hnext
    · exact (congrArg (·.prev.toNat) hnew).trans hq.prev
    · exact hb12.trans (Nat.le_add_right _ _)
    · change (b.size + c.size) % 4 = 0
      omega

/-- How a heap that holds `bs` becomes one that holds `bs'`, with the same blocks taken. -/
structure Joins (s : Heap) (bs : List Block) (s' : Heap) (bs' : List Block) : Prop where
  laid : Laid s' bs'
  heapPtr : s'.heapPtr = s.heapPtr
  heapEnd : s'.heapEnd = s.heapEnd
  memSizeAligned : s'.memSizeAligned = s.memSizeAligned
  usedMem : s'.usedMem = s.usedMem
  maxMem : s'.maxMem = s.maxMem
  taken : ∀ p n, Taken bs' p n ↔ Taken bs p n
  mem : ∀ a, Payload 12 bs a → s'.mem a = s.mem a
  free : Free bs s.lfree → Free bs' s'.lfree
  lowest : s.lfree = lowest bs → s'.lfree = lowest bs'
  zero : s.lfree = 0 → s'.lfree = 0

theorem Joins.refl (h : Laid s bs) : Joins s bs s bs :=
  ⟨h, rfl, rfl, rfl, rfl, rfl, fun _ _ => Iff.rfl, fun _ _ => rfl, id, id, id⟩

theorem Joins.trans {s'' : Heap} {bs' bs'' : List Block} (h : Joins s bs s' bs')
    (h' : Joins s' bs' s'' bs'') : Joins s bs s'' bs'' where
  laid := h'.laid
  heapPtr := h'.heapPtr.trans h.heapPtr
  heapEnd := h'.heapEnd.trans h.heapEnd
  memSizeAligned := h'.memSizeAligned.trans h.memSizeAligned
  usedMem := h'.usedMem.trans h.usedMem
  maxMem := h'.maxMem.trans h.maxMem
  taken p n := (h'.taken p n).trans (h.taken p n)
  mem a := by
    rintro ⟨p, n, hp, hrest⟩
    exact (h'.mem a ⟨p, n, (h.taken p n).mpr hp, hrest⟩).trans (h.mem a ⟨p, n, hp, hrest⟩)
  free hs := h'.free (h.free hs)
  lowest hs := h'.lowest (h.lowest hs)
  zero hs := h'.zero (h.zero hs)

theorem Laid.joins (h : Laid s (pre ++ b :: c :: post)) (hb : b.taken = false)
    (hc : c.taken = false) :
    Joins s (pre ++ b :: c :: post) (s.absorb (Arena.span pre) (Arena.span pre + b.size))
      (pre ++ join b (c :: post)) := by
  obtain ⟨hlaid, hwithin⟩ := h.absorbs hb
  have hb12 := (h.size (b := b) (by simp)).1
  have hlfree : (s.absorb (Arena.span pre) (Arena.span pre + b.size)).lfree =
      if s.lfree = Arena.span pre + b.size then Arena.span pre else s.lfree := rfl
  refine ⟨?_, hwithin.heapPtr, hwithin.heapEnd, hwithin.memSizeAligned, rfl, rfl,
    fun p n => taken_append_join, fun a ha => ?_, fun hfree => ?_, fun hlow => ?_, fun hzero => ?_⟩
  · rw [join_free hb hc]
    exact hlaid
  · have hout := Payload.outside [b, c] ha (by simp [hb, hc])
    rw [span_cons, span_cons, span_nil, Nat.add_zero] at hout
    exact hwithin.mem a hout
  · rw [hlfree]
    split
    · rw [join_free hb hc]
      exact free_append.mpr (.inr ⟨0, rfl, free_cons.mpr (.inl ⟨rfl, rfl⟩)⟩)
    · exact hfree.join hb hc ‹_›
  · have hle : Arena.lowest (pre ++ b :: c :: post) ≤ Arena.span pre := lowest_le_append hb
    rw [hlfree, if_neg (by omega), lowest_join hb hc]
    exact hlow
  · rw [hlfree, if_neg (by omega), hzero]

theorem plugForward_joins (h : Laid s (pre ++ b :: post)) (hb : b.taken = false) :
    Joins s (pre ++ b :: post) (plugForward (Arena.span pre) s) (pre ++ join b post) := by
  obtain ⟨q, hhead, hend⟩ := h.at
  have hnext : (s.header (Arena.span pre)).next.toNat = Arena.span pre + b.size := hhead.next
  have hsize := hhead.size
  unfold plugForward
  simp only [hnext]
  rcases post with _ | ⟨c, post⟩
  · have hspan := h.span
    rw [span_append, span_cons, span_nil] at hspan
    rw [if_neg (by omega)]
    exact .refl h
  · obtain ⟨q₁, r, q₂, -, ⟨-, hc, -⟩, -⟩ := Laid.split [b, c] h
    have hused : (s.header (Arena.span pre + b.size)).used = if c.taken then 1 else 0 := hc.used
    have hne := h.behind (List.cons_ne_nil c post)
    rw [hused]
    by_cases hfree : c.taken = false
    · rw [if_pos ⟨by omega, by rw [hfree]; rfl, hne⟩]
      exact h.joins hb hfree
    · have hcond : ¬ ((if c.taken then 1 else 0 : UInt16) = 0) := by
        rw [if_pos (Bool.eq_true_of_not_eq_false hfree)]
        decide
      rw [if_neg fun hand => hcond hand.2.1, join, if_pos (by simp [hfree])]
      exact .refl h

theorem plugBackward_first (h : Laid s (b :: post)) : plugBackward 0 s = s := by
  obtain ⟨q, hseg, -⟩ := h.seg
  unfold plugBackward
  simp only [show (s.header 0).prev.toNat = 0 from hseg.prev]
  exact if_neg fun hne => hne.1 rfl

theorem plugBackward_joins (h : Laid s (pre ++ c :: b :: post)) (hb : b.taken = false) :
    Joins s (pre ++ c :: b :: post) (plugBackward (Arena.span pre + c.size) s)
      (pre ++ join c (b :: post)) := by
  obtain ⟨q₁, r, q₂, -, ⟨hc, hb', -⟩, -⟩ := Laid.split [c, b] h
  have hprev : (s.header (Arena.span pre + c.size)).prev.toNat = Arena.span pre := hb'.prev
  have hused : (s.header (Arena.span pre)).used = if c.taken then 1 else 0 := hc.used
  have hsize := hc.size
  unfold plugBackward
  simp only [hprev, hused]
  by_cases hfree : c.taken = false
  · rw [if_pos ⟨by omega, by rw [hfree]; rfl⟩]
    exact h.joins hfree hb
  · have hcond : ¬ ((if c.taken then 1 else 0 : UInt16) = 0) := by
      rw [if_pos (Bool.eq_true_of_not_eq_false hfree)]
      decide
    rw [if_neg fun hand => hcond hand.2, join, if_pos (by simp [hfree])]
    exact .refl h

/-- `plug_holes` joins a free block with the free blocks beside it. -/
theorem plugHoles_joins (h : Laid s (pre ++ b :: post)) (hb : b.taken = false)
    (hpre : Coalesced pre) (hpost : Coalesced post) :
    ∃ s', plugHoles (Arena.span pre) s = some s' ∧
      Joins s (pre ++ b :: post) s' (merged (pre ++ b :: post)) := by
  obtain ⟨q, hhead, hend⟩ := h.at
  have hsize := hhead.size
  have hused : (s.header (Arena.span pre)).used = 0 := by
    rw [show (s.header (Arena.span pre)).used = if b.taken then 1 else 0 from hhead.used, hb]
    rfl
  have hrun : plugHoles (Arena.span pre) s =
      some (plugBackward (Arena.span pre) (plugForward (Arena.span pre) s)) := by
    simp [plugHoles, rtAssert, hused, show Arena.span pre < s.heapEnd by omega]
  refine ⟨_, hrun, ?_⟩
  have hforward := plugForward_joins h hb
  generalize plugForward (Arena.span pre) s = s₁ at hforward ⊢
  have hmerged : merged (pre ++ b :: post) = pre.foldr join (join b post) := by
    rw [merged, List.foldr_append, List.foldr_cons]
    exact congrArg (fun bs => pre.foldr join (join b bs)) hpost.merged
  obtain ⟨b₁, post₁, hjoin, hb₁⟩ : ∃ b₁ post₁, join b post = b₁ :: post₁ ∧ b₁.taken = false := by
    rcases post with _ | ⟨c, post⟩
    · exact ⟨b, [], rfl, hb⟩
    · rw [join]
      split
      · exact ⟨b, _, rfl, hb⟩
      · exact ⟨_, _, rfl, rfl⟩
  rw [hjoin] at hforward hmerged
  rw [hmerged]
  refine hforward.trans ?_
  rcases List.eq_nil_or_concat pre with rfl | ⟨pre, c, rfl⟩
  · have hfirst := plugBackward_first hforward.laid
    rw [span_nil, hfirst]
    exact .refl hforward.laid
  · simp only [List.concat_eq_append, List.append_assoc, List.cons_append, List.nil_append,
      List.foldr_append, List.foldr_cons, List.foldr_nil] at hforward hpre ⊢
    rw [foldr_join_join hpre, span_append, span_cons, span_nil, Nat.add_zero]
    exact plugBackward_joins hforward.laid hb₁

/-! ## `rt_malloc` -/

/-- What a heap in use is: its blocks are in memory, counted, and no search from `lfree` on
misses the first of them when it is free. -/
structure Holds (h : Heap) (bs : List Block) : Prop where
  laid : Laid h bs
  coalesced : Coalesced bs
  usedMem : h.usedMem = used bs
  free : Free bs h.lfree
  first : ∀ b ∈ bs.head?, b.taken = false → h.lfree = 0
  inside : ∀ p n, Taken bs p n → p + 12 < Arena.span bs

theorem Laid.free_used {p : Nat} (h : Laid s bs) (hp : Free bs p) :
    p = s.heapEnd ∨ (s.header p).used = 0 := by
  rcases hp with rfl | ⟨b, ⟨pre, post, rfl, rfl⟩, hb⟩
  · exact .inl h.span
  · obtain ⟨q, hhead, -⟩ := h.at
    have hused := hhead.used
    rw [hb] at hused
    exact .inr hused

theorem Laid.aligned_at (h : Laid s (pre ++ bs)) : Arena.span pre % 4 = 0 := by
  obtain ⟨q, hseg⟩ := h.seg
  obtain ⟨r, hpre, -⟩ := seg_append.mp hseg
  exact hpre.aligned

/-- The lowest free block raised over a block that is now taken. -/
theorem raiseLfree_eq (h : Laid s (pre ++ bs)) :
    raiseLfree (Arena.span pre) s = some { s with
      lfree := if Arena.span pre = s.lfree then Arena.span pre + lowest bs else s.lfree } := by
  unfold raiseLfree
  split
  case isFalse => rfl
  case isTrue heq =>
  obtain ⟨q', hseg⟩ := h.seg
  obtain ⟨r, -, hrest⟩ := seg_append.mp hseg
  rw [Nat.zero_add] at hrest
  have hlength := seg_length hrest
  have hloop : lowestFree s s.fuel s.lfree = some (Arena.span pre + lowest bs) := by
    rw [← heq]
    exact lowestFree_eq hrest (by unfold Heap.fuel; omega)
  have hassert : Arena.span pre + lowest bs = s.heapEnd ∨
      (s.header (Arena.span pre + lowest bs)).used = 0 :=
    h.free_used (free_append.mpr (.inr ⟨_, rfl, lowest_free⟩))
  simp [hloop, rtAssert, hassert]

/-- How many bytes `rt_malloc` finds room for. -/
def dataSize (n : Nat) : Nat := if rtAlign n < minSizeAligned then minSizeAligned else rtAlign n

theorem rtAlign_le_dataSize : rtAlign n ≤ dataSize n := by
  unfold dataSize
  split <;> omega

theorem dataSize_pos : 0 < dataSize n := by
  unfold dataSize minSizeAligned
  split <;> omega

theorem dataSize_aligned : dataSize n % 4 = 0 := by
  unfold dataSize rtAlign minSizeAligned
  split <;> omega

theorem le_dataSize (hn : n + 3 < 2 ^ 32) : n ≤ dataSize n := by
  refine Nat.le_trans ?_ rtAlign_le_dataSize
  unfold rtAlign
  omega

/-- Whether `rt_malloc`, from `lfree` on, can take `b` at `p` for `n` bytes of data. -/
def Room (s : Heap) (bs : List Block) (n p : Nat) (b : Block) : Prop :=
  Lies bs p b ∧ s.lfree ≤ p ∧ p + n < s.memSizeAligned ∧ b.Fits (n + 12)

/-- A block taken by `rt_malloc`. -/
structure Mallocs (s s' : Heap) (pre : List Block) (b : Block) (post : List Block) (n : Nat) :
    Prop where
  holds : Holds s' (pre ++ (b.cut (n + 12) 24 ++ post))
  within : Within (Arena.span pre) (Arena.span pre + b.size + 12) s s'
  maxMem : s'.maxMem = max s.maxMem s'.usedMem
  lowest : s.lfree = lowest (pre ++ b :: post) →
    s'.lfree = lowest (pre ++ (b.cut (n + 12) 24 ++ post))

theorem Holds.mallocs {s₁ : Heap} (hs : Holds s (pre ++ b :: post)) (hn : 0 < n)
    (hb : b.Fits (n + 12))
    (hlow : s.lfree ≤ Arena.span pre) (ht : Takes s s₁ pre b post n) :
    Mallocs s { s₁ with
      lfree := if Arena.span pre = s₁.lfree then
        Arena.span pre + Arena.lowest (b.cut (n + 12) 24 ++ post) else s₁.lfree } pre b post n := by
  have hpos : ∀ c ∈ pre, 0 < c.size := fun c hc =>
    Nat.lt_of_lt_of_le (by decide) (hs.laid.size (List.mem_append_left _ hc)).1
  have hlaid := ht.laid
  refine ⟨⟨⟨hlaid.seg, hlaid.endUsed, hlaid.heapEnd, hlaid.room, hlaid.top, hlaid.aligned⟩,
    hs.coalesced.cut hb.1, ?_, ?_, ?_, ?_⟩,
    ⟨ht.within.heapPtr, ht.within.heapEnd, ht.within.memSizeAligned, ht.within.mem⟩, ht.maxMem, ?_⟩
  · have htop := hlaid.top
    have hle := used_le (pre ++ (b.cut (n + 12) 24 ++ post))
    rw [hlaid.span] at hle
    change s₁.usedMem = _
    rw [ht.usedMem, hs.usedMem]
    simp only [used_append, used_cons, hb.1] at hle ⊢
    rw [if_neg Bool.false_ne_true]
    omega
  · dsimp only
    rw [ht.lfree]
    split
    case isTrue => exact free_append.mpr (.inr ⟨_, rfl, lowest_free⟩)
    case isFalse hne =>
    rcases free_append.mp hs.free with h | ⟨q, hq, h⟩
    · exact free_append.mpr (.inl h)
    · refine absurd (Nat.le_antisymm ?_ hlow) hne
      omega
  · intro c hc hfree
    dsimp only
    rcases pre with _ | ⟨d, pre⟩
    · have hhead : c.taken = true := by
        unfold Block.cut at hc
        split at hc <;> exact (Option.some.inj hc) ▸ rfl
      rw [hhead] at hfree
      cases hfree
    · have hd := hpos d List.mem_cons_self
      have hzero := hs.first c hc hfree
      rw [ht.lfree, hzero, if_neg (by rw [span_cons]; omega)]
  · intro p k hp
    have hspan : Arena.span (pre ++ (b.cut (n + 12) 24 ++ post)) =
        Arena.span (pre ++ b :: post) := by
      rw [span_append, span_append, span_append, span_cons, span_cut hb.2]
    rcases taken_append.mp hp with hp | ⟨q, rfl, hq⟩
    · rw [hspan]
      exact hs.inside p k (taken_append.mpr (.inl hp))
    · rcases taken_append.mp hq with hq | ⟨r, rfl, hr⟩
      · obtain ⟨rfl, -⟩ := taken_cut.mp hq
        have hsize := hb.2
        rw [hspan, span_append, span_cons]
        omega
      · rw [hspan]
        refine hs.inside _ k (taken_append.mpr (.inr ⟨_, rfl, ?_⟩))
        rw [span_cut hb.2]
        exact taken_cons.mpr (.inr ⟨r, rfl, hr⟩)
  · intro hlowest
    dsimp only
    rw [ht.lfree, lowest_append hpos]
    rw [lowest_append_free hb.1] at hlowest
    rw [hlowest]
    simp only [eq_comm]

/-- With a block to take the search finds one; with none it comes back empty. -/
theorem Holds.search (hs : Holds s bs) (hn : n ≤ s.memSizeAligned) :
    (searchRoom n s s.fuel s.lfree = some none ∧ ∀ p b, ¬ Room s bs n p b) ∨
      ∃ pre b post, bs = pre ++ b :: post ∧ Room s bs n (Arena.span pre) b ∧
        searchRoom n s s.fuel s.lfree = some (some (Arena.span pre)) := by
  obtain ⟨low, high, rfl, hlow, -⟩ := hs.free.split
  obtain ⟨q', hseg⟩ := hs.laid.seg
  obtain ⟨r, -, hhigh⟩ := seg_append.mp hseg
  rw [Nat.zero_add] at hhigh
  have hlength := seg_length hhigh
  have htop := hs.laid.top
  have hloop := searchRoom_eq hhigh hs.laid.heapEnd (by omega) hn
    (show high.length < s.fuel by unfold Heap.fuel; omega)
  rw [hlow, hloop]
  cases hfound : firstFit (n + 12) (s.memSizeAligned - n) (Arena.span low) high with
  | none =>
    refine .inl ⟨rfl, ?_⟩
    rintro p b ⟨hlies, hle, hlimit, hfits⟩
    rcases lies_append.mp hlies with hin | ⟨q, rfl, hin⟩
    · have hinside := hin.inside
      have hsize := (hs.laid.size (List.mem_append_left _ hin.mem)).1
      omega
    · exact firstFit_none hfound hin (by omega) hfits
  | some q =>
    obtain ⟨pre, b, post, rfl, rfl, hlimit, hfits⟩ := firstFit_some hfound
    refine .inr ⟨low ++ pre, b, post, (List.append_assoc ..).symm, ⟨?_, ?_, ?_, hfits⟩, ?_⟩
    · exact ⟨low ++ pre, post, (List.append_assoc ..).symm, rfl⟩
    · rw [span_append]
      omega
    · rw [span_append]
      omega
    · rw [span_append]

/-- `rt_malloc` takes a block, when there is room, and changes nothing otherwise. -/
theorem rtMalloc_takes (hs : Holds s bs) (hn : n ≠ 0) :
    (rtMalloc n s = some (0, s) ∧ ∀ p b, ¬ Room s bs (dataSize n) p b) ∨
      ∃ pre b post s', bs = pre ++ b :: post ∧ Room s bs (dataSize n) (Arena.span pre) b ∧
        rtMalloc n s = some (s.heapPtr + Arena.span pre + 12, s') ∧
        Mallocs s s' pre b post (dataSize n) := by
  unfold rtMalloc
  rw [if_neg hn]
  dsimp only
  have hle := rtAlign_le_dataSize (n := n)
  split
  case isTrue hbig =>
    refine .inl ⟨rfl, ?_⟩
    rintro p b ⟨-, -, hlimit, -⟩
    omega
  case isFalse hfits =>
  have hd : dataSize n ≤ s.memSizeAligned := by
    have hroom := hs.laid.room
    unfold dataSize minSizeAligned
    split <;> omega
  have hdata : (if rtAlign n < minSizeAligned then minSizeAligned else rtAlign n) = dataSize n :=
    rfl
  rw [hdata]
  rcases hs.search hd with ⟨hnone, hno⟩ | ⟨pre, b, post, rfl, hroom, hsome⟩
  · refine .inl ⟨?_, hno⟩
    rw [hnone]
    rfl
  · refine .inr ⟨pre, b, post, _, rfl, hroom, ?_,
      hs.mallocs dataSize_pos hroom.2.2.2 hroom.2.1 (hs.laid.takes hroom.2.2.2.2 dataSize_aligned)⟩
    have ht := hs.laid.takes hroom.2.2.2.2 dataSize_aligned
    rw [hsome]
    change (raiseLfree _ _ >>= _) = _
    generalize (takeBlock (Arena.span pre) (dataSize n) s).modify (Arena.span pre)
      (fun m => { m with magic := heapMagic }) = s₁ at ht ⊢
    rw [raiseLfree_eq ht.laid]
    have hsize := hroom.2.2.2.2
    have hinside := hroom.1.inside
    rw [hs.laid.span] at hinside
    have hptr := ht.laid.aligned
    have hpre := hs.laid.aligned_at
    have hend := ht.within.heapEnd
    have hptr' := ht.within.heapPtr
    have hinside₁ : s₁.heapPtr + Arena.span pre + sizeofStructMem + dataSize n ≤
        s₁.heapPtr + s₁.heapEnd := by
      unfold sizeofStructMem
      omega
    have haligned₁ : (s₁.heapPtr + Arena.span pre + sizeofStructMem) % 4 = 0 := by
      unfold sizeofStructMem
      omega
    have haligned₂ : (s₁.heapPtr + Arena.span pre) % 4 = 0 := by omega
    simp only [Option.bind_eq_bind, Option.bind_some, rtAssert, if_pos hinside₁, if_pos haligned₁,
      if_pos haligned₂]
    rw [hptr']
    rfl

/-! ## `rt_free` -/

/-- A block given back. -/
structure Frees (s s' : Heap) (pre : List Block) (b : Block) (post : List Block) : Prop where
  holds : Holds s' (merged (pre ++ ⟨b.size, false⟩ :: post))
  heapPtr : s'.heapPtr = s.heapPtr
  heapEnd : s'.heapEnd = s.heapEnd
  memSizeAligned : s'.memSizeAligned = s.memSizeAligned
  maxMem : s'.maxMem = s.maxMem
  mem : ∀ a, Payload 12 (pre ++ ⟨b.size, false⟩ :: post) a → s'.mem a = s.mem a
  lowest : s.lfree = Arena.lowest (pre ++ b :: post) →
    s'.lfree = Arena.lowest (merged (pre ++ ⟨b.size, false⟩ :: post))

/-- The state of `rt_free` as `plug_holes` is called. -/
def released (mem : Nat) (b : Block) (s : Heap) : Heap :=
  { s.modify mem fun m => { m with used := 0, magic := 0 } with
    lfree := if mem < s.lfree then mem else s.lfree, usedMem := s.usedMem - b.size }

theorem Laid.pos (h : Laid s bs) (hb : b ∈ bs) : 0 < b.size :=
  Nat.lt_of_lt_of_le (by decide) (h.size hb).1

theorem Holds.frees (hs : Holds s (pre ++ b :: post)) (hb : b.taken = true)
    (h : Joins (released (Arena.span pre) b s) (pre ++ ⟨b.size, false⟩ :: post) s'
      (merged (pre ++ ⟨b.size, false⟩ :: post))) : Frees s s' pre b post := by
  have hpos := fun c (hc : c ∈ pre ++ b :: post) => hs.laid.pos hc
  have hb12 := (hs.laid.size (b := b) (by simp)).1
  refine ⟨⟨h.laid, coalesced_merged, ?_, h.free ?_, ?_, fun p n hp => ?_⟩, h.heapPtr, h.heapEnd,
    h.memSizeAligned, h.maxMem, fun a ha => (h.mem a ha).trans ?_, fun hlow => h.lowest ?_⟩
  · rw [h.usedMem, used_merged]
    change s.usedMem - b.size = _
    rw [hs.usedMem]
    simp only [used_append, used_cons, hb, if_true, Bool.false_eq_true, if_false]
    omega
  · change Free _ (if Arena.span pre < s.lfree then Arena.span pre else s.lfree)
    split
    · exact free_append.mpr (.inr ⟨0, rfl, free_cons.mpr (.inl ⟨rfl, rfl⟩)⟩)
    · exact hs.free.release
  · intro c hc hfree
    refine h.zero ?_
    change (if Arena.span pre < s.lfree then Arena.span pre else s.lfree) = 0
    rcases pre with _ | ⟨d, pre⟩
    · rw [span_nil]
      split <;> omega
    · have hhead := merged_head (d :: pre ++ ⟨b.size, false⟩ :: post)
      rw [Option.mem_def.mp hc, Option.map_some, hfree] at hhead
      rw [hs.first d rfl (Option.some.inj hhead).symm, if_neg (Nat.not_lt_zero _)]
  · rw [span_merged]
    have hold := hs.inside p n ((taken_release hpos).mp (taken_merged.mp hp)).1
    rw [span_append, span_cons] at hold ⊢
    exact hold
  · obtain ⟨p, n, hp, hlo, hhi⟩ := ha
    change (s.modify (Arena.span pre) fun m => { m with used := 0, magic := 0 }).mem a = _
    refine modify_mem ?_
    have hp' := (taken_release hpos).mp hp
    rcases hp'.1.apart ⟨pre, post, rfl, rfl⟩ with ⟨heq, -⟩ | hle | hle
    · exact absurd heq hp'.2
    · exact .inl (by dsimp only at hle; omega)
    · exact .inr (by omega)
  · change (if Arena.span pre < s.lfree then Arena.span pre else s.lfree) = _
    have hle := lowest_le_span pre
    rw [lowest_append fun c hc => hpos c (List.mem_append_left _ hc)] at hlow
    have hrest : Arena.lowest (b :: post) = b.size + Arena.lowest post := by
      rw [Arena.lowest, List.takeWhile_cons, if_pos hb, span_cons]
      rfl
    rw [lowest_append_free rfl, hlow, hrest]
    split <;> split <;> omega

/-- `rt_free` gives back a block that is taken. -/
theorem rtFree_frees (hs : Holds s (pre ++ b :: post)) (hb : b.taken = true) :
    ∃ s', rtFree (s.heapPtr + Arena.span pre + 12) s = some s' ∧ Frees s s' pre b post := by
  obtain ⟨q, hhead, hend⟩ := hs.laid.at
  have htop := hs.laid.top
  have hptr := hs.laid.aligned
  have hpre := hs.laid.aligned_at
  have hinside := hs.inside (Arena.span pre) b.size (taken_middle hb)
  rw [hs.laid.span] at hinside
  have hcoalesced := List.isChain_append.mp hs.coalesced
  have hmark : Laid (released (Arena.span pre) b s) (pre ++ ⟨b.size, false⟩ :: post) := by
    have hmark := hs.laid.mark (fun m => { m with used := 0, magic := 0 })
      ⟨b.size, false⟩ (fun q hq => by
        have hat := header_modify_self (p := Arena.span pre) (h := s)
          (f := fun m => { m with used := 0, magic := 0 })
        exact ⟨congrArg HeapMem.used hat, fun htaken => absurd htaken Bool.false_ne_true,
          (congrArg (·.next.toNat) hat).trans hq.next,
          (congrArg (·.prev.toNat) hat).trans hq.prev, hq.size, hq.aligned⟩) rfl
    exact ⟨hmark.seg, hmark.endUsed, hmark.heapEnd, hmark.room, hmark.top, hmark.aligned⟩
  obtain ⟨s', hplug, hjoins⟩ := plugHoles_joins hmark rfl hcoalesced.1 hcoalesced.2.1.tail
  refine ⟨s', ?_, hs.frees hb hjoins⟩
  have hused : (s.header (Arena.span pre)).used = 1 := by
    have hused := hhead.used
    rw [hb] at hused
    exact hused
  have hmagic : (s.header (Arena.span pre)).magic = heapMagic := hhead.magic hb
  have hnext : (s.header (Arena.span pre)).next.toNat = Arena.span pre + b.size := hhead.next
  have hsize : sub32 ((s.modify (Arena.span pre) fun m => { m with used := 0, magic := 0 }).header
      (Arena.span pre)).next.toNat (Arena.span pre) = b.size := by
    rw [header_modify_self]
    change sub32 (s.header (Arena.span pre)).next.toNat (Arena.span pre) = b.size
    rw [hnext, sub32_eq (by omega) (by omega), Nat.add_sub_cancel_left]
  have hused' : sub32 s.usedMem b.size = s.usedMem - b.size := by
    have hle := used_le (pre ++ b :: post)
    rw [hs.laid.span] at hle
    rw [hs.usedMem]
    refine sub32_eq ?_ (by omega)
    simp only [used_append, used_cons, hb, if_true]
    omega
  have haddr : s.heapPtr + Arena.span pre + 12 - s.heapPtr - sizeofStructMem = Arena.span pre := by
    unfold sizeofStructMem
    omega
  unfold rtFree
  rw [if_neg (by omega)]
  simp only [rtAssert, Option.bind_eq_bind]
  rw [if_pos (by omega), if_pos (by omega)]
  simp only [Option.bind_some, headerOf]
  rw [if_pos (by unfold sizeofStructMem; omega), haddr]
  simp only [Option.bind_some, hmagic, if_true]
  rw [hused, if_pos (by decide), Option.bind_some, ← hplug]
  exact congrArg (fun n => plugHoles (Arena.span pre)
    { released (Arena.span pre) b s with usedMem := n })
    ((congrArg (sub32 s.usedMem) hsize).trans hused')

/-! ## `rt_realloc` -/

/-- A block made shorter in place. -/
structure Shrinks (s s' : Heap) (bs : List Block) : Prop where
  holds : Holds s' (merged bs)
  heapPtr : s'.heapPtr = s.heapPtr
  heapEnd : s'.heapEnd = s.heapEnd
  memSizeAligned : s'.memSizeAligned = s.memSizeAligned
  mem : ∀ a, Payload 12 bs a → s'.mem a = s.mem a

theorem rtAlign_aligned : rtAlign n % 4 = 0 := by
  unfold rtAlign
  omega

/-- The header at a taken block. -/
theorem Laid.header_taken (h : Laid s (pre ++ b :: post)) (hb : b.taken = true) :
    s.header (Arena.span pre) = ⟨heapMagic, 1, .ofNat (Arena.span pre + b.size),
      (s.header (Arena.span pre)).prev⟩ := by
  obtain ⟨q, hhead, hend⟩ := h.at
  have hused := hhead.used
  have hnext := hhead.next
  rw [hb] at hused
  rw [← hhead.magic hb, ← hnext, UInt32.ofNat_toNat]
  exact congrArg (fun u => HeapMem.mk _ u _ _) hused

/-- What is left of the block, as a list of blocks. -/
theorem Holds.shrinks {s₁ : Heap} (hs : Holds s (pre ++ b :: post)) (hb : b.taken = true)
    (hn : n + 24 < b.size) (hused : s₁.usedMem = s.usedMem - (b.size - n))
    (hlfree : s₁.lfree = s.lfree)
    (hwithin : Within (Arena.span pre) (Arena.span pre + b.size + 12) s s₁)
    (hkept : ∀ a, Arena.span pre + 12 ≤ a → a < Arena.span pre + n → s₁.mem a = s.mem a)
    (h : Joins s₁ (pre ++ ([⟨n, true⟩, ⟨b.size - n, false⟩] ++ post)) s'
      (merged (pre ++ ([⟨n, true⟩, ⟨b.size - n, false⟩] ++ post)))) :
    Shrinks s s' (pre ++ ([⟨n, true⟩, ⟨b.size - n, false⟩] ++ post)) := by
  have hspan : Arena.span (pre ++ ([⟨n, true⟩, ⟨b.size - n, false⟩] ++ post)) =
      Arena.span (pre ++ b :: post) := by
    simp only [span_append, span_cons, span_nil]
    omega
  refine ⟨⟨h.laid, coalesced_merged, ?_, h.free ?_, ?_, fun p k hp => ?_⟩,
    h.heapPtr.trans hwithin.heapPtr, h.heapEnd.trans hwithin.heapEnd,
    h.memSizeAligned.trans hwithin.memSizeAligned, fun a ha => (h.mem a ha).trans ?_⟩
  · rw [h.usedMem, used_merged, hused, hs.usedMem]
    simp only [used_append, used_cons, used_nil, hb, if_true, Bool.false_eq_true, if_false]
    omega
  · rw [hlfree]
    exact hs.free.cut hb (by omega)
  · intro c hc hfree
    refine h.zero (hlfree.trans ?_)
    have hhead := merged_head (pre ++ ([⟨n, true⟩, ⟨b.size - n, false⟩] ++ post))
    rw [Option.mem_def.mp hc, Option.map_some, hfree] at hhead
    rcases pre with _ | ⟨d, pre⟩
    · cases hhead
    · exact hs.first d rfl (Option.some.inj hhead).symm
  · rw [span_merged, hspan]
    rcases taken_append.mp (taken_merged.mp hp) with hp | ⟨q, rfl, hq⟩
    · exact hs.inside p k (taken_append.mpr (.inl hp))
    · rcases taken_cons.mp hq with ⟨rfl, -⟩ | ⟨r, rfl, hr⟩
      · rw [span_append, span_cons]
        omega
      · obtain ⟨t, rfl, ht⟩ := (taken_of_free rfl).mp hr
        have hold := hs.inside (Arena.span pre + (b.size + t)) k
          (taken_append.mpr (.inr ⟨_, rfl, taken_cons.mpr (.inr ⟨t, rfl, ht⟩)⟩))
        dsimp only
        omega
  · obtain ⟨p, k, hp, hlo, hhi⟩ := ha
    rcases taken_append.mp hp with hp | ⟨q, rfl, hq⟩
    · have hinside : p + k ≤ Arena.span pre := hp.inside
      exact hwithin.mem a (.inl (by omega))
    · rcases taken_cons.mp hq with ⟨rfl, heq⟩ | ⟨r, rfl, hr⟩
      · obtain rfl : k = n := congrArg Block.size heq
        exact hkept a (by omega) (by omega)
      · obtain ⟨t, rfl, -⟩ := (taken_of_free rfl).mp hr
        dsimp only at hlo
        exact hwithin.mem a (.inr (by omega))

/-- The state of `rt_realloc` as `plug_holes` is called. -/
def shortened (p n size : Nat) (s : Heap) : Heap :=
  let h : Heap := { s with usedMem := sub32 s.usedMem (size - n) }
  let ptr2 := p + sizeofStructMem + n
  ((h.modify ptr2 fun _ => ⟨heapMagic, 0, (h.header p).next, .ofNat p⟩).modify p fun m =>
    { m with next := .ofNat ptr2 }).linkBack ptr2

theorem Laid.sizeAt (h : Laid s (pre ++ b :: post)) :
    sizeAt (Arena.span pre) s = b.size - 12 := by
  obtain ⟨q, hhead, hend⟩ := h.at
  have htop := h.top
  have hsize := hhead.size
  unfold RtThread.sizeAt
  rw [show (s.header (Arena.span pre)).next.toNat = Arena.span pre + b.size from hhead.next,
    sub32_eq (Nat.le_add_right _ _) (by omega), Nat.add_sub_cancel_left,
    sub32_eq (by unfold sizeofStructMem; omega) (by omega)]
  rfl

theorem headerOf_eq {p : Nat} : headerOf (s.heapPtr + p + 12) s = some p := by
  have haddr : s.heapPtr + p + 12 - s.heapPtr - sizeofStructMem = p := by
    unfold sizeofStructMem
    omega
  rw [headerOf, if_pos (by unfold sizeofStructMem; omega), haddr]

theorem splitBlock_eq {p d size : Nat} :
    splitBlock p d size s =
      plugHoles (p + sizeofStructMem + d) (shortened p d size s) := rfl

/-- `rt_realloc` of a block the heap holds, when the heap is large enough. -/
theorem rtRealloc_eq (h : Laid s (pre ++ b :: post)) (hinside : Arena.span pre + 12 < s.heapEnd)
    {d : Nat} (hd : rtAlign n = d) (hfits : d ≤ s.memSizeAligned) :
    rtRealloc (s.heapPtr + Arena.span pre + 12) n s =
      if b.size - 12 = d then some (s.heapPtr + Arena.span pre + 12, s)
      else if d + sizeofStructMem + minSizeAligned < b.size - 12 then
        (splitBlock (Arena.span pre) d (b.size - 12) s).bind fun h =>
          some (s.heapPtr + Arena.span pre + 12, h)
      else moveBlock (s.heapPtr + Arena.span pre + 12) d (b.size - 12) s := by
  unfold rtRealloc
  rw [hd]
  dsimp only
  rw [if_neg (by omega), if_neg (by omega), if_neg (by omega), headerOf_eq, Option.bind_eq_bind,
    Option.bind_some, h.sizeAt]
  rfl

theorem Laid.shortened (h : Laid s (pre ++ b :: post)) (hb : b.taken = true)
    (hn : n + 24 ≤ b.size) (h4 : n % 4 = 0) (size : Nat) :
    Laid (shortened (Arena.span pre) n size s)
        (pre ++ ([⟨n + 12, true⟩, ⟨b.size - (n + 12), false⟩] ++ post)) ∧
      Within (Arena.span pre) (Arena.span pre + b.size + 12) s
        (shortened (Arena.span pre) n size s) ∧
      ∀ a, Arena.span pre + 12 ≤ a → a < Arena.span pre + (n + 12) →
        (shortened (Arena.span pre) n size s).mem a = s.mem a := by
  unfold Heap.shortened
  generalize sub32 s.usedMem (size - n) = used
  have hptr2 : Arena.span pre + sizeofStructMem + n = Arena.span pre + (n + 12) := by
    unfold sizeofStructMem
    omega
  rw [hptr2]
  let s₀ : Heap := { s with usedMem := used }
  have h₀ : Laid s₀ (pre ++ b :: post) :=
    ⟨h.seg, h.endUsed, h.heapEnd, h.room, h.top, h.aligned⟩
  let f₁ : HeapMem → HeapMem := fun m => { m with next := .ofNat (Arena.span pre + (n + 12)) }
  have hf₁ : f₁ (s₀.header (Arena.span pre)) = ⟨heapMagic, 1,
      .ofNat (Arena.span pre + (n + 12)), (s₀.header (Arena.span pre)).prev⟩ := by
    rw [h₀.header_taken hb]
  obtain ⟨hlaid, hwithin, hkept⟩ := h₀.splits (n := n + 12) f₁ (fun _ =>
      ⟨heapMagic, 0, (s₀.header (Arena.span pre)).next, .ofNat (Arena.span pre)⟩)
    (Nat.le_add_left ..) hn (by omega) hf₁ (fun m => ⟨heapMagic, rfl⟩)
  exact ⟨hlaid, ⟨hwithin.heapPtr, hwithin.heapEnd, hwithin.memSizeAligned, hwithin.mem⟩, hkept⟩

theorem splitBlock_shrinks {d : Nat} (hs : Holds s (pre ++ b :: post)) (hb : b.taken = true)
    (h4 : d % 4 = 0) (hless : d + 36 < b.size) :
    ∃ s', splitBlock (Arena.span pre) d (b.size - 12) s = some s' ∧
      Shrinks s s' (pre ++ ([⟨d + 12, true⟩, ⟨b.size - (d + 12), false⟩] ++ post)) := by
  obtain ⟨hlaid, hwithin, hkept⟩ :=
    hs.laid.shortened (n := d) hb (by omega) h4 (b.size - 12)
  have hused : (shortened (Arena.span pre) d (b.size - 12) s).usedMem =
      s.usedMem - (b.size - (d + 12)) := by
    have hle := used_le (pre ++ b :: post)
    have htop := hs.laid.top
    have hcount := hs.usedMem
    rw [hs.laid.span] at hle
    simp only [used_append, used_cons, hb, if_true] at hcount hle
    refine linkBack_usedMem.trans ((sub32_eq (b := b.size - 12 - d) ?_ ?_).trans ?_) <;> omega
  have hlfree : (shortened (Arena.span pre) d (b.size - 12) s).lfree = s.lfree := linkBack_lfree
  have hptr2 : Arena.span pre + sizeofStructMem + d = Arena.span pre + (d + 12) := by
    unfold sizeofStructMem
    omega
  rw [splitBlock_eq, hptr2]
  generalize Heap.shortened (Arena.span pre) d (b.size - 12) s = s₁ at *
  obtain ⟨hpre, hrest, -⟩ := List.isChain_append.mp hs.coalesced
  have hcoalesced : Coalesced (pre ++ [⟨d + 12, true⟩]) :=
    List.isChain_append.mpr ⟨hpre, List.isChain_singleton _, fun c _ e he => by
      rw [← Option.some.inj he]
      exact Bool.or_true _⟩
  have hpost : Coalesced post := hrest.tail
  have hlist : pre ++ ([⟨d + 12, true⟩, ⟨b.size - (d + 12), false⟩] ++ post) =
      (pre ++ [⟨d + 12, true⟩]) ++ ⟨b.size - (d + 12), false⟩ :: post := by
    rw [List.append_assoc]
    rfl
  obtain ⟨s', hplug, hjoins⟩ := plugHoles_joins (hlist ▸ hlaid) rfl hcoalesced hpost
  rw [← hlist] at hjoins
  rw [span_append, span_cons, span_nil, Nat.add_zero] at hplug
  exact ⟨s', hplug, hs.shrinks hb (by omega) hused hlfree hwithin hkept hjoins⟩

end laid

end Heap

end Aclean.RtThread
