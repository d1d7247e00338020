import Aclean.HeapSteps

/-!
# What the heap lends

The blocks that are taken are those callers were lent. `rt_malloc` and
`rt_realloc` lend more, `rt_free` takes back, and a borrower writes to its own
bytes: each leaves the bytes of every other borrower as they were.
-/

namespace Aclean.RtThread

open Arena Heap

/-- A block lent: its address and the bytes asked for. -/
structure Lent where
  ptr : Nat
  size : Nat
  deriving DecidableEq

namespace Heap

/-- The byte at an address of the heap. -/
def peek (h : Heap) (a : Nat) : UInt8 := h.mem (a - h.heapPtr)

def poke (a : Nat) (v : UInt8) (h : Heap) : Heap :=
  { h with mem := Function.update h.mem (a - h.heapPtr) v }

/-- A lent block's bytes are in `s'` what they are in `s`. -/
def Kept (s s' : Heap) (l : Lent) : Prop :=
  ∀ i, i < l.size → s'.peek (l.ptr + i) = s.peek (l.ptr + i)

/-- `l` is lent out of the block of `n` bytes at `p`. -/
structure LentAt (s : Heap) (bs : List Block) (l : Lent) (p n : Nat) : Prop where
  taken : Taken bs p n
  ptr : l.ptr = s.heapPtr + p + 12
  size : l.size + 12 ≤ n

/-- The blocks that are taken are those lent. -/
structure Lends (s : Heap) (bs : List Block) (L : List Lent) : Prop where
  holds : Holds s bs
  lent : ∀ l ∈ L, ∃ p n, LentAt s bs l p n
  taken : ∀ p n, Taken bs p n → ∃ l ∈ L, l.ptr = s.heapPtr + p + 12
  nodup : (L.map Lent.ptr).Nodup

section lends

variable {s s' : Heap} {bs bs' : List Block} {L : List Lent} {l l' : Lent} {p q n k : Nat}

/-- What leaves the bytes of taken blocks keeps what is lent. -/
theorem LentAt.kept (h : LentAt s bs l p n) (hptr : s'.heapPtr = s.heapPtr)
    (hmem : ∀ a, p + 12 ≤ a → a < p + n → s'.mem a = s.mem a) : Kept s s' l := by
  intro i hi
  have hl := h.ptr
  have hsize := h.size
  unfold peek
  rw [hptr]
  exact hmem _ (by omega) (by omega)

/-- One block, one borrower. -/
theorem Lends.eq_of_ptr (h : Lends s bs L) (hl : l ∈ L) (hl' : l' ∈ L) (hptr : l.ptr = l'.ptr) :
    l = l' := List.inj_on_of_nodup_map h.nodup hl hl' hptr

theorem Lends.ne_of_mem_erase (h : Lends s bs L) (hl : l ∈ L) (hl' : l' ∈ L.erase l) :
    l' ∈ L ∧ l'.ptr ≠ l.ptr := by
  have hnodup : L.Nodup := List.Nodup.of_map _ h.nodup
  obtain ⟨hne, hmem⟩ := (List.Nodup.mem_erase_iff hnodup).mp hl'
  exact ⟨hmem, fun hptr => hne (h.eq_of_ptr hmem hl hptr)⟩

/-- The others lent are in other blocks. -/
theorem Lends.elsewhere (h : Lends s bs L) (hl : l ∈ L) (hptr : l.ptr = s.heapPtr + p + 12)
    (hl' : l' ∈ L.erase l) : ∃ q m, LentAt s bs l' q m ∧ q ≠ p := by
  obtain ⟨hmem, hne⟩ := h.ne_of_mem_erase hl hl'
  obtain ⟨q, m, hat⟩ := h.lent l' hmem
  refine ⟨q, m, hat, ?_⟩
  rintro rfl
  exact hne (hat.ptr.trans hptr.symm)

theorem Lends.nodup_erase (h : Lends s bs L) (hl : l ∈ L) :
    (((⟨l.ptr, n⟩ : Lent) :: L.erase l).map Lent.ptr).Nodup := by
  rw [List.map_cons, List.nodup_cons]
  refine ⟨fun hmem => ?_, h.nodup.sublist ((List.erase_sublist).map _)⟩
  obtain ⟨l', hl', hptr⟩ := List.mem_map.mp hmem
  exact (h.ne_of_mem_erase hl hl').2 hptr

/-! ## `rt_malloc` -/

/-- How `rt_malloc` lends. -/
structure LendsMore (s s' : Heap) (bs bs' : List Block) (L : List Lent) (l : Lent) : Prop where
  lends : Lends s' bs' (l :: L)
  ptr_ne : l.ptr ≠ 0
  heapPtr : s'.heapPtr = s.heapPtr
  memSizeAligned : s'.memSizeAligned = s.memSizeAligned
  kept : ∀ l' ∈ L, Kept s s' l'
  lowest : s.lfree = lowest bs → s'.lfree = Arena.lowest bs'

/-- What is lent anew was not lent before. -/
theorem LendsMore.fresh (h : LendsMore s s' bs bs' L l) (hl : l' ∈ L) : l' ≠ l := by
  have hnodup := h.lends.nodup
  rw [List.map_cons, List.nodup_cons] at hnodup
  rintro rfl
  exact hnodup.1 (List.mem_map_of_mem hl)

theorem Lends.malloc (h : Lends s bs L) (hn : n + 3 < 2 ^ 32) :
    (rtMalloc n s = some (0, s) ∧ (n = 0 ∨ ∀ p b, ¬ Room s bs (dataSize n) p b)) ∨
      ∃ p s' bs', rtMalloc n s = some (p, s') ∧ LendsMore s s' bs bs' L ⟨p, n⟩ ∧ n ≠ 0 ∧
        ∃ q b, Room s bs (dataSize n) q b := by
  by_cases hzero : n = 0
  · exact .inl ⟨if_pos hzero, .inl hzero⟩
  rcases rtMalloc_takes h.holds hzero with ⟨hnone, hno⟩ | ⟨pre, b, post, s', rfl, hroom, hsome, hm⟩
  · exact .inl ⟨hnone, .inr hno⟩
  refine .inr ⟨_, s', pre ++ (b.cut (dataSize n + 12) 24 ++ post), hsome, ?_, hzero, _, b, hroom⟩
  obtain ⟨hlies, -, -, hfree, hfits⟩ := hroom
  have hptr := hm.within.heapPtr
  have hle := le_dataSize hn
  have hpos := fun c (hc : c ∈ pre ++ b :: post) => h.holds.laid.pos hc
  have hnew : ∀ {p k}, Taken (pre ++ b :: post) p k → p ≠ Arena.span pre := by
    rintro p k hp rfl
    have heq := hp.unique hpos hlies
    rw [← heq] at hfree
    cases hfree
  refine ⟨⟨hm.holds, ?_, ?_, ?_⟩, by dsimp only; omega, hptr,
    hm.within.memSizeAligned, ?_, hm.lowest⟩
  · intro l hl
    rcases List.mem_cons.mp hl with rfl | hl
    · refine ⟨_, _, (taken_append_cut hfree hfits).mpr (.inl ⟨rfl, rfl⟩), ?_, ?_⟩
      · rw [hptr]
      · dsimp only
        split <;> omega
    · obtain ⟨p, k, hat⟩ := h.lent l hl
      exact ⟨p, k, (taken_append_cut hfree hfits).mpr (.inr hat.taken), hptr ▸ hat.ptr, hat.size⟩
  · intro p k hp
    rcases (taken_append_cut hfree hfits).mp hp with ⟨rfl, -⟩ | hp
    · exact ⟨_, List.mem_cons_self, by rw [hptr]⟩
    · obtain ⟨l, hl, hl'⟩ := h.taken p k hp
      exact ⟨l, List.mem_cons_of_mem _ hl, by rw [hl', hptr]⟩
  · rw [List.map_cons, List.nodup_cons]
    refine ⟨fun hmem => ?_, h.nodup⟩
    obtain ⟨l, hl, heq⟩ := List.mem_map.mp hmem
    obtain ⟨p, k, hat⟩ := h.lent l hl
    have hne := hnew hat.taken
    have hl' := hat.ptr
    dsimp only at heq
    omega
  · intro l hl
    obtain ⟨p, k, hat⟩ := h.lent l hl
    refine hat.kept hptr fun a hlo hhi => hm.within.mem a ?_
    have hout := Payload.outside [b] ⟨p, k, hat.taken, hlo, hhi⟩ (by simp [hfree])
    rwa [span_cons, span_nil, Nat.add_zero] at hout

/-! ## `rt_free` -/

theorem Lends.free (h : Lends s bs L) (hl : l ∈ L) :
    ∃ s' bs', rtFree l.ptr s = some s' ∧ Lends s' bs' (L.erase l) ∧ s'.heapPtr = s.heapPtr ∧
      s'.memSizeAligned = s.memSizeAligned ∧ (∀ l' ∈ L.erase l, Kept s s' l') ∧
      (s.lfree = lowest bs → s'.lfree = lowest bs') := by
  obtain ⟨p, k, hat⟩ := h.lent l hl
  obtain ⟨pre, post, rfl, rfl⟩ := hat.taken
  obtain ⟨s', hrun, hf⟩ := rtFree_frees h.holds (b := ⟨k, true⟩) rfl
  have hpos := fun c (hc : c ∈ pre ++ ⟨k, true⟩ :: post) => h.holds.laid.pos hc
  have hiff : ∀ {q m}, Taken (merged (pre ++ ⟨k, false⟩ :: post)) q m ↔
      Taken (pre ++ ⟨k, true⟩ :: post) q m ∧ q ≠ Arena.span pre := by
    intro q m
    rw [taken_merged]
    exact taken_release hpos
  refine ⟨s', _, hat.ptr ▸ hrun, ⟨hf.holds, ?_, ?_, ?_⟩, hf.heapPtr, hf.memSizeAligned, ?_,
    hf.lowest⟩
  · intro l' hl'
    obtain ⟨q, m, hat', hne⟩ := h.elsewhere hl hat.ptr hl'
    exact ⟨q, m, hiff.mpr ⟨hat'.taken, hne⟩, hf.heapPtr ▸ hat'.ptr, hat'.size⟩
  · intro q m hq
    obtain ⟨hq, hne⟩ := hiff.mp hq
    obtain ⟨l', hl', hptr⟩ := h.taken q m hq
    refine ⟨l', (List.mem_erase_of_ne ?_).mpr hl', by rw [hptr, hf.heapPtr]⟩
    rintro rfl
    have hl := hat.ptr
    omega
  · exact h.nodup.sublist ((List.erase_sublist).map _)
  · intro l' hl'
    obtain ⟨q, m, hat', hne⟩ := h.elsewhere hl hat.ptr hl'
    refine hat'.kept hf.heapPtr fun a hlo hhi => hf.mem a ⟨q, m, ?_, hlo, hhi⟩
    exact taken_merged.mp (hiff.mpr ⟨hat'.taken, hne⟩)

/-! ## Writing to what is lent -/

/-- Bytes of taken blocks are nothing to the heap. -/
theorem Holds.write {m : Nat → UInt8} (h : Holds s bs)
    (hm : ∀ a, ¬ Payload 12 bs a → m a = s.mem a) : Holds { s with mem := m } bs := by
  have hlaid := h.laid
  obtain ⟨q, hseg⟩ := hlaid.seg
  have hseg' : Seg m 0 0 bs q s.heapEnd :=
    hseg.of_headers fun r b hb => heapMem_congr fun a hlo hhi => hm a fun ha => by
      rcases ha.apart hb with hlt | hle <;> omega
  have hend : heapMem m s.heapEnd = heapMem s.mem s.heapEnd :=
    heapMem_congr fun a hlo _ => hm a fun ha => by
      have hlt := ha.lt
      rw [hlaid.span] at hlt
      omega
  exact ⟨⟨⟨q, hseg'⟩, (congrArg HeapMem.used hend).trans hlaid.endUsed, hlaid.heapEnd, hlaid.room,
    hlaid.top, hlaid.aligned⟩, h.coalesced, h.usedMem, h.free, h.first, h.inside⟩

/-- Two blocks lent have no byte in common. -/
theorem Lends.apart (h : Lends s bs L) (hl : l ∈ L) (hl' : l' ∈ L) (hne : l' ≠ l) :
    l.ptr + l.size ≤ l'.ptr ∨ l'.ptr + l'.size ≤ l.ptr := by
  obtain ⟨p, n, hat⟩ := h.lent l hl
  obtain ⟨q, k, hat'⟩ := h.lent l' hl'
  have hptr := hat.ptr
  have hptr' := hat'.ptr
  have hsize := hat.size
  have hsize' := hat'.size
  rcases hat.taken.apart hat'.taken with ⟨rfl, -⟩ | hle | hle
  · exact absurd (h.eq_of_ptr hl' hl (hptr'.trans hptr.symm)) hne
  · dsimp only at hle
    omega
  · dsimp only at hle
    omega

/-- A borrower that writes to its own bytes. -/
theorem Lends.write {m : Nat → UInt8} (h : Lends s bs L) (hl : l ∈ L)
    (hm : ∀ a, ¬ (l.ptr ≤ s.heapPtr + a ∧ s.heapPtr + a < l.ptr + l.size) → m a = s.mem a) :
    Lends { s with mem := m } bs L ∧ ∀ l' ∈ L, l' ≠ l → Kept s { s with mem := m } l' := by
  obtain ⟨p, n, hat⟩ := h.lent l hl
  have hptr := hat.ptr
  have hsize := hat.size
  have hholds : Holds { s with mem := m } bs := h.holds.write fun a ha =>
    hm a fun hin => ha ⟨p, n, hat.taken, by omega, by omega⟩
  refine ⟨⟨hholds, fun l' hl' => ?_, h.taken, h.nodup⟩, fun l' hl' hne i hi => ?_⟩
  · obtain ⟨q, k, hat'⟩ := h.lent l' hl'
    exact ⟨q, k, hat'.taken, hat'.ptr, hat'.size⟩
  · obtain ⟨q, k, hat'⟩ := h.lent l' hl'
    have hptr' := hat'.ptr
    have hapart := h.apart hl hl' hne
    change m (l'.ptr + i - s.heapPtr) = s.mem (l'.ptr + i - s.heapPtr)
    exact hm _ (by omega)

/-! ## `rt_calloc` -/

theorem Lends.calloc {size : Nat} (h : Lends s bs L) (hn : n * size + 3 < 2 ^ 32) :
    (rtCalloc n size s = some (0, s) ∧
        (n * size = 0 ∨ ∀ p b, ¬ Room s bs (dataSize (n * size)) p b)) ∨
      ∃ p s' bs', rtCalloc n size s = some (p, s') ∧ LendsMore s s' bs bs' L ⟨p, n * size⟩ ∧
        ∀ i, i < n * size → s'.peek (p + i) = 0 := by
  have hmod : n * size % 2 ^ 32 = n * size := Nat.mod_eq_of_lt (by omega)
  unfold rtCalloc
  rw [hmod]
  generalize n * size = k at *
  rcases h.malloc hn with ⟨hnone, hno⟩ | ⟨p, s₁, bs₁, hsome, hm, -, -⟩
  · refine .inl ⟨?_, hno⟩
    rw [hnone]
    rfl
  have hnew : (⟨p, k⟩ : Lent) ∈ (⟨p, k⟩ : Lent) :: L := List.mem_cons_self
  obtain ⟨hlends, hkept⟩ := hm.lends.write (m := (rtMemset p 0 k s₁).mem) hnew fun a ha =>
    if_neg ha
  refine .inr ⟨p, rtMemset p 0 k s₁, bs₁, ?_, ⟨hlends, hm.ptr_ne, hm.heapPtr, hm.memSizeAligned,
    fun l hl i hi => ?_, hm.lowest⟩, fun i hi => if_pos ?_⟩
  · rw [hsome]
    exact if_pos hm.ptr_ne
  · exact (hkept l (List.mem_cons_of_mem _ hl) (hm.fresh hl) i hi).trans (hm.kept l hl i hi)
  · obtain ⟨q, m, hat⟩ := hm.lends.lent _ hnew
    have hptr := hat.ptr
    change p ≤ s₁.heapPtr + (p + i - s₁.heapPtr) ∧ s₁.heapPtr + (p + i - s₁.heapPtr) < p + k
    dsimp only at hptr
    omega

/-! ## `rt_realloc` -/

/-- A borrower that asks for more of its block, or less. -/
theorem Lends.resize (h : Lends s bs L) (hl : l ∈ L) (hat : LentAt s bs l p k) (hn : n + 12 ≤ k) :
    Lends s bs (⟨l.ptr, n⟩ :: L.erase l) := by
  refine ⟨h.holds, fun l' hl' => ?_, fun q m hq => ?_, h.nodup_erase hl⟩
  · rcases List.mem_cons.mp hl' with rfl | hl'
    · exact ⟨p, k, hat.taken, hat.ptr, hn⟩
    · exact h.lent l' (List.mem_of_mem_erase hl')
  · obtain ⟨l', hl', hptr⟩ := h.taken q m hq
    by_cases heq : l' = l
    · exact ⟨_, List.mem_cons_self, heq ▸ hptr⟩
    · exact ⟨l', List.mem_cons_of_mem _ ((List.mem_erase_of_ne heq).mpr hl'), hptr⟩

/-- How `rt_realloc` lends `n` bytes at `a` in place of `l`. -/
structure Relends (s s' : Heap) (bs' : List Block) (L : List Lent) (l : Lent) (a n : Nat) :
    Prop where
  lends : Lends s' bs' (⟨a, n⟩ :: L.erase l)
  ptr_ne : a ≠ 0
  heapPtr : s'.heapPtr = s.heapPtr
  memSizeAligned : s'.memSizeAligned = s.memSizeAligned
  kept : ∀ l' ∈ L.erase l, Kept s s' l'
  moved : ∀ i, i < l.size → i < n → s'.peek (a + i) = s.peek (l.ptr + i)

/-- The block stays where it is, cut or not. -/
theorem Lends.shrink {d : Nat} {pre post : List Block} {b : Block}
    (h : Lends s (pre ++ b :: post) L) (hl : l ∈ L) (hptr : l.ptr = s.heapPtr + Arena.span pre + 12)
    (hn : n ≤ d) (hless : d + 36 < b.size)
    (hs : Shrinks s s' (pre ++ ([⟨d + 12, true⟩, ⟨b.size - (d + 12), false⟩] ++ post))) :
    Relends s s' (merged (pre ++ ([⟨d + 12, true⟩, ⟨b.size - (d + 12), false⟩] ++ post))) L l
      l.ptr n := by
  have hpos := fun c (hc : c ∈ pre ++ b :: post) => h.holds.laid.pos hc
  have hcut : ∀ {q m},
      Taken (merged (pre ++ ([⟨d + 12, true⟩, ⟨b.size - (d + 12), false⟩] ++ post))) q m ↔
        (q = Arena.span pre ∧ m = d + 12) ∨
          (Taken (pre ++ b :: post) q m ∧ q ≠ Arena.span pre) := by
    intro q m
    rw [taken_merged]
    exact taken_shorten (by omega) hpos
  have hkept : ∀ l' ∈ L.erase l, Kept s s' l' := by
    intro l' hl'
    obtain ⟨q, m, hat', hne⟩ := h.elsewhere hl hptr hl'
    refine hat'.kept hs.heapPtr fun a hlo hhi => hs.mem a ⟨q, m, ?_, hlo, hhi⟩
    exact taken_merged.mp (hcut.mpr (.inr ⟨hat'.taken, hne⟩))
  refine ⟨⟨hs.holds, fun l' hl' => ?_, fun q m hq => ?_, h.nodup_erase hl⟩, by omega, hs.heapPtr,
    hs.memSizeAligned, hkept, fun i _ hi => ?_⟩
  · rcases List.mem_cons.mp hl' with rfl | hl'
    · exact ⟨_, _, hcut.mpr (.inl ⟨rfl, rfl⟩), by rw [hs.heapPtr, ← hptr], by dsimp only; omega⟩
    · obtain ⟨q, m, hat', hne⟩ := h.elsewhere hl hptr hl'
      exact ⟨q, m, hcut.mpr (.inr ⟨hat'.taken, hne⟩), hs.heapPtr ▸ hat'.ptr, hat'.size⟩
  · rcases hcut.mp hq with ⟨rfl, -⟩ | ⟨hq, hne⟩
    · exact ⟨_, List.mem_cons_self, by rw [hs.heapPtr, ← hptr]⟩
    · obtain ⟨l', hl', hptr'⟩ := h.taken q m hq
      refine ⟨l', List.mem_cons_of_mem _ ((List.mem_erase_of_ne ?_).mpr hl'),
        by rw [hptr', hs.heapPtr]⟩
      rintro rfl
      omega
  · unfold peek
    rw [hs.heapPtr]
    exact hs.mem _ ⟨_, _, taken_merged.mp (hcut.mpr (.inl ⟨rfl, rfl⟩)), by omega, by omega⟩

/-- The block is lent anew, its bytes copied and the old one given back. -/
theorem Lends.move {d size : Nat} (h : Lends s bs L) (hl : l ∈ L) (hn : n ≤ d) (hd : d + 3 < 2 ^ 32)
    (hsize : l.size ≤ size) :
    moveBlock l.ptr d size s = some (0, s) ∨
      ∃ a s' bs', moveBlock l.ptr d size s = some (a, s') ∧ Relends s s' bs' L l a n := by
  unfold moveBlock
  rcases h.malloc hd with ⟨hnone, -⟩ | ⟨a, s₁, bs₁, hsome, hm, -, -⟩
  · rw [hnone]
    exact .inl rfl
  have hnew : (⟨a, d⟩ : Lent) ∈ (⟨a, d⟩ : Lent) :: L := List.mem_cons_self
  have hold : l ∈ (⟨a, d⟩ : Lent) :: L := List.mem_cons_of_mem _ hl
  -- the copy stays within the new block
  let k := if size < d then size else d
  have hk : k ≤ d := by
    unfold k
    split <;> omega
  obtain ⟨hcopy, hkept⟩ := hm.lends.write (m := (rtMemcpy a l.ptr k s₁).mem) hnew fun b hb =>
    if_neg fun hin => hb ⟨hin.1, by dsimp only; omega⟩
  change Lends (rtMemcpy a l.ptr k s₁) bs₁ _ at hcopy
  obtain ⟨s₂, bs₂, hfree, hlends, hptr₂, hsize₂, hkept₂, -⟩ := hcopy.free hold
  have herase : ((⟨a, d⟩ : Lent) :: L).erase l = ⟨a, d⟩ :: L.erase l :=
    List.erase_cons_tail (by simpa using (hm.fresh hl).symm)
  rw [herase] at hlends hkept₂
  obtain ⟨p, m, hat⟩ := hlends.lent ⟨a, d⟩ List.mem_cons_self
  have hroom := hat.size
  have hlends' := hlends.resize List.mem_cons_self hat (n := n) (by dsimp only at hroom; omega)
  rw [List.erase_cons_head] at hlends'
  refine .inr ⟨a, s₂, bs₂, ?_, ⟨hlends', hm.ptr_ne, hptr₂.trans hm.heapPtr,
    hsize₂.trans hm.memSizeAligned, ?_, ?_⟩⟩
  · rw [hsome]
    simp only [Option.bind_eq_bind, Option.bind_some, ne_eq, hm.ptr_ne, not_false_eq_true, if_true]
    change ((rtFree l.ptr (rtMemcpy a l.ptr k s₁)).bind fun h => some (a, h)) = _
    rw [hfree]
    rfl
  · intro l' hl' i hi
    have hmem := (h.ne_of_mem_erase hl hl').1
    have h₁ := hm.kept l' hmem i hi
    have h₂ := hkept l' (List.mem_cons_of_mem _ hmem) (hm.fresh hmem) i hi
    have h₃ := hkept₂ l' (List.mem_cons_of_mem _ hl') i hi
    exact h₃.trans (h₂.trans h₁)
  · intro i hi hin
    have h₁ := hm.kept l hl i hi
    have h₃ := hkept₂ ⟨a, d⟩ List.mem_cons_self i (Nat.lt_of_lt_of_le hin hn)
    refine h₃.trans (Eq.trans ?_ h₁)
    obtain ⟨q, m', hat₁⟩ := hm.lends.lent _ hnew
    obtain ⟨q', m'', hat₂⟩ := hm.lends.lent _ hold
    have ha := hat₁.ptr
    have hl₁ := hat₂.ptr
    dsimp only at ha
    have hik : i < k := by
      unfold k
      split <;> omega
    change (if a ≤ s₁.heapPtr + (a + i - s₁.heapPtr) ∧ s₁.heapPtr + (a + i - s₁.heapPtr) < a + k
      then s₁.mem (l.ptr - s₁.heapPtr + (s₁.heapPtr + (a + i - s₁.heapPtr) - a))
      else s₁.mem (a + i - s₁.heapPtr)) = s₁.mem (l.ptr + i - s₁.heapPtr)
    rw [if_pos (by omega)]
    congr 1
    omega

theorem Lends.realloc (h : Lends s bs L) (hl : l ∈ L) (hn : n + 3 < 2 ^ 32) :
    rtRealloc l.ptr n s = some (0, s) ∨
      ∃ a s' bs', rtRealloc l.ptr n s = some (a, s') ∧ Relends s s' bs' L l a n := by
  by_cases hbig : s.memSizeAligned < rtAlign n
  · exact .inl (if_pos hbig)
  obtain ⟨p, k, hat⟩ := h.lent l hl
  obtain ⟨pre, post, rfl, rfl⟩ := hat.taken
  have hptr := hat.ptr
  have hsize := hat.size
  have htop := h.holds.laid.top
  have hend := h.holds.laid.heapEnd
  have hinside := h.holds.inside _ _ hat.taken
  rw [h.holds.laid.span] at hinside
  have hle : n ≤ rtAlign n := by
    unfold rtAlign
    omega
  have hrun := rtRealloc_eq (n := n) h.holds.laid hinside rfl (Nat.le_of_not_lt hbig)
  rw [← hptr] at hrun
  have h4 : rtAlign n % 4 = 0 := rtAlign_aligned
  generalize rtAlign n = d at *
  rw [hrun]
  dsimp only
  split
  case isTrue heq =>
    refine .inr ⟨l.ptr, s, _, rfl, h.resize hl hat (by omega), by omega, rfl, rfl, ?_, ?_⟩
    · exact fun _ _ _ _ => rfl
    · exact fun _ _ _ => rfl
  case isFalse hne =>
  split
  case isTrue hless =>
    unfold sizeofStructMem minSizeAligned at hless
    obtain ⟨s', hsplit, hs⟩ := splitBlock_shrinks h.holds (b := ⟨k, true⟩) rfl h4
      (by dsimp only; omega)
    rw [hsplit]
    exact .inr ⟨l.ptr, s', _, rfl, h.shrink hl hptr hle (by dsimp only; omega) hs⟩
  case isFalse hmore =>
    exact h.move hl hle (by omega) (by omega)

end lends

end Heap

end Aclean.RtThread
