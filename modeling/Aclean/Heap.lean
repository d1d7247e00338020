import Mathlib.Data.UInt
import Aclean.Arena

/-!
# The heap of the main board

`rt_malloc`, `rt_realloc`, `rt_calloc` and `rt_free` as the kernel is built with
them: a block has a header in front of it, a free neighbour is joined when a
block is given back, and a search for room goes from the lowest free block up.

Pointers into the heap are offsets from `heap_ptr`. A function ends in `none`
where an assertion of the source fails or a loop does not end. All of them
run under the heap's semaphore, one at a time.
-/

namespace Aclean.RtThread

open Arena

/-! ## Headers in memory -/

/-- `struct heap_mem`. -/
structure HeapMem where
  magic : UInt16
  used : UInt16
  next : UInt32
  prev : UInt32

def load16 (m : Nat → UInt8) (a : Nat) : UInt16 :=
  .ofNat ((m a).toNat + 256 * (m (a + 1)).toNat)

def load32 (m : Nat → UInt8) (a : Nat) : UInt32 :=
  .ofNat ((m a).toNat + 256 * (m (a + 1)).toNat + 256 ^ 2 * (m (a + 2)).toNat +
    256 ^ 3 * (m (a + 3)).toNat)

/-- The header at `p`. -/
def heapMem (m : Nat → UInt8) (p : Nat) : HeapMem :=
  ⟨load16 m p, load16 m (p + 2), load32 m (p + 4), load32 m (p + 8)⟩

/-- The bytes of a header, the lower ones of a number first. -/
def HeapMem.bytes (hm : HeapMem) : Nat → UInt8
  | 0 => .ofNat hm.magic.toNat
  | 1 => .ofNat (hm.magic.toNat / 256)
  | 2 => .ofNat hm.used.toNat
  | 3 => .ofNat (hm.used.toNat / 256)
  | 4 => .ofNat hm.next.toNat
  | 5 => .ofNat (hm.next.toNat / 256)
  | 6 => .ofNat (hm.next.toNat / 256 ^ 2)
  | 7 => .ofNat (hm.next.toNat / 256 ^ 3)
  | 8 => .ofNat hm.prev.toNat
  | 9 => .ofNat (hm.prev.toNat / 256)
  | 10 => .ofNat (hm.prev.toNat / 256 ^ 2)
  | _ => .ofNat (hm.prev.toNat / 256 ^ 3)

def HeapMem.store (hm : HeapMem) (p : Nat) (m : Nat → UInt8) : Nat → UInt8 :=
  fun a => if p ≤ a ∧ a < p + 12 then hm.bytes (a - p) else m a

theorem store_of_apart {hm : HeapMem} {p a : Nat} {m : Nat → UInt8} (h : a < p ∨ p + 12 ≤ a) :
    hm.store p m a = m a := if_neg (by omega)

theorem store_at {hm : HeapMem} {p i : Nat} {m : Nat → UInt8} (h : i < 12) :
    hm.store p m (p + i) = hm.bytes i := by
  rw [HeapMem.store, if_pos (by omega), Nat.add_sub_cancel_left]

theorem load16_bytes (v : UInt16) {m : Nat → UInt8} {a : Nat} (h0 : m a = .ofNat v.toNat)
    (h1 : m (a + 1) = .ofNat (v.toNat / 256)) : load16 m a = v := by
  apply UInt16.toNat.inj
  have hv := v.toNat_lt
  simp only [load16, h0, h1, UInt16.toNat_ofNat', UInt8.toNat_ofNat']
  omega

theorem load32_bytes (v : UInt32) {m : Nat → UInt8} {a : Nat} (h0 : m a = .ofNat v.toNat)
    (h1 : m (a + 1) = .ofNat (v.toNat / 256)) (h2 : m (a + 2) = .ofNat (v.toNat / 256 ^ 2))
    (h3 : m (a + 3) = .ofNat (v.toNat / 256 ^ 3)) : load32 m a = v := by
  apply UInt32.toNat.inj
  have hv := v.toNat_lt
  simp only [load32, h0, h1, h2, h3, UInt32.toNat_ofNat', UInt8.toNat_ofNat']
  omega

@[simp] theorem heapMem_store (hm : HeapMem) (p : Nat) (m : Nat → UInt8) :
    heapMem (hm.store p m) p = hm := by
  have hat : ∀ i, i < 12 → hm.store p m (p + i) = hm.bytes i := fun i => store_at
  have hmagic : load16 (hm.store p m) p = hm.magic :=
    load16_bytes hm.magic (hat 0 (by decide)) (hat 1 (by decide))
  unfold heapMem
  rw [hmagic,
    load16_bytes hm.used (hat 2 (by decide)) (hat 3 (by decide)),
    load32_bytes hm.next (hat 4 (by decide)) (hat 5 (by decide)) (hat 6 (by decide))
      (hat 7 (by decide)),
    load32_bytes hm.prev (hat 8 (by decide)) (hat 9 (by decide)) (hat 10 (by decide))
      (hat 11 (by decide))]

theorem heapMem_congr {m m' : Nat → UInt8} {p : Nat}
    (h : ∀ a, p ≤ a → a < p + 12 → m' a = m a) : heapMem m' p = heapMem m p := by
  have hat : ∀ i, i < 12 → m' (p + i) = m (p + i) := fun i hi => h _ (by omega) (by omega)
  have h0 : m' p = m p := h p (by omega) (by omega)
  simp only [heapMem, load16, load32, Nat.add_assoc, h0, hat, Nat.reduceAdd, Nat.reduceLT]

theorem heapMem_store_of_apart {hm : HeapMem} {p q : Nat} {m : Nat → UInt8}
    (h : q + 12 ≤ p ∨ p + 12 ≤ q) : heapMem (hm.store p m) q = heapMem m q :=
  heapMem_congr fun a hqa haq => store_of_apart (by omega)

/-! ## The functions of `mem.c` -/

/-- Subtraction of `rt_size_t`. -/
def sub32 (a b : Nat) : Nat := (a + (2 ^ 32 - b)) % 2 ^ 32

/-- `RT_ALIGN(size, RT_ALIGN_SIZE)`. -/
def rtAlign (size : Nat) : Nat := (size + 3) % 2 ^ 32 / 4 * 4

/-- `RT_ALIGN_DOWN(size, RT_ALIGN_SIZE)`. -/
def rtAlignDown (size : Nat) : Nat := size / 4 * 4

/-- `HEAP_MAGIC`. -/
def heapMagic : UInt16 := 0x1ea0

/-- `MIN_SIZE` and `MIN_SIZE_ALIGNED`. -/
def minSizeAligned : Nat := 12

/-- `SIZEOF_STRUCT_MEM`. -/
def sizeofStructMem : Nat := 12

/-- The heap's memory and its variables. -/
structure Heap where
  /-- The bytes from `heap_ptr` on. -/
  mem : Nat → UInt8
  heapPtr : Nat
  heapEnd : Nat
  lfree : Nat
  memSizeAligned : Nat
  usedMem : Nat
  maxMem : Nat

/-- `RT_ASSERT`. -/
def rtAssert (p : Prop) [Decidable p] : Option Unit := if p then some () else none

namespace Heap

/-- The header at `p`. -/
def header (h : Heap) (p : Nat) : HeapMem := heapMem h.mem p

/-- Fields of the header at `p` written. -/
def modify (p : Nat) (f : HeapMem → HeapMem) (h : Heap) : Heap :=
  { h with mem := (f (h.header p)).store p h.mem }

/-- `used_mem` and `max_mem` with `n` bytes more in use. -/
def count (n : Nat) (h : Heap) : Heap :=
  let used := (h.usedMem + n) % 2 ^ 32
  { h with usedMem := used, maxMem := if h.maxMem < used then used else h.maxMem }

/-- `((struct heap_mem *)&heap_ptr[mem2->next])->prev = ptr2`, but for the heap's end. -/
def linkBack (ptr2 : Nat) (h : Heap) : Heap :=
  let next := (h.header ptr2).next.toNat
  if next ≠ h.memSizeAligned + sizeofStructMem then
    h.modify next fun m => { m with prev := .ofNat ptr2 }
  else h

/-- The block at `q` made part of the one at `p` before it, in `plug_holes`. -/
def absorb (p q : Nat) (h : Heap) : Heap :=
  let h := { h with lfree := if h.lfree = q then p else h.lfree }
  let h := h.modify p fun m => { m with next := (h.header q).next }
  h.modify (h.header q).next.toNat fun m => { m with prev := .ofNat p }

/-- `plug_holes`, plug hole forward. -/
def plugForward (mem : Nat) (h : Heap) : Heap :=
  let nmem := (h.header mem).next.toNat
  if mem ≠ nmem ∧ (h.header nmem).used = 0 ∧ nmem ≠ h.heapEnd then h.absorb mem nmem else h

/-- `plug_holes`, plug hole backward. -/
def plugBackward (mem : Nat) (h : Heap) : Heap :=
  let pmem := (h.header mem).prev.toNat
  if pmem ≠ mem ∧ (h.header pmem).used = 0 then h.absorb pmem mem else h

end Heap

open Heap

/-- `plug_holes`. -/
def plugHoles (mem : Nat) (h : Heap) : Option Heap := do
  rtAssert (mem < h.heapEnd)
  rtAssert ((h.header mem).used = 0)
  return plugBackward mem (plugForward mem h)

/-- `rt_system_heap_init`; `h` holds what the RAM holds from the aligned address on. -/
def rtSystemHeapInit (beginAddr endAddr : Nat) (h : Heap) : Heap :=
  let beginAlign := rtAlign beginAddr
  let endAlign := rtAlignDown endAddr
  if 2 * sizeofStructMem < endAlign ∧ beginAlign ≤ endAlign - 2 * sizeofStructMem then
    let size := endAlign - beginAlign - 2 * sizeofStructMem
    let h := { h with memSizeAligned := size, heapPtr := beginAlign }
    let h := h.modify 0 fun _ => ⟨heapMagic, 0, .ofNat (size + sizeofStructMem), 0⟩
    let h := { h with heapEnd := (h.header 0).next.toNat }
    let h := h.modify h.heapEnd fun _ =>
      ⟨heapMagic, 1, .ofNat (size + sizeofStructMem), .ofNat (size + sizeofStructMem)⟩
    { h with lfree := 0 }
  else h

/-- The loop of `rt_malloc` over the blocks from `ptr` on: the block to take. -/
def searchRoom (size : Nat) (h : Heap) : Nat → Nat → Option (Option Nat)
  | 0, _ => none
  | fuel + 1, ptr =>
    if ptr < sub32 h.memSizeAligned size then
      let mem := h.header ptr
      if mem.used = 0 ∧ size ≤ sub32 mem.next.toNat (ptr + sizeofStructMem) then some (some ptr)
      else searchRoom size h fuel mem.next.toNat
    else some none

/-- The block at `mem` taken for `size` bytes. -/
def takeBlock (mem size : Nat) (h : Heap) : Heap :=
  if size + sizeofStructMem + minSizeAligned ≤
      sub32 (h.header mem).next.toNat (mem + sizeofStructMem) then
    -- split large block, create empty remainder
    let ptr2 := mem + sizeofStructMem + size
    let h := h.modify ptr2 fun m =>
      { m with used := 0, next := (h.header mem).next, prev := .ofNat mem }
    let h := h.modify mem fun m => { m with next := .ofNat ptr2, used := 1 }
    (h.linkBack ptr2).count (size + sizeofStructMem)
  else
    let h := h.modify mem fun m => { m with used := 1 }
    h.count (sub32 (h.header mem).next.toNat mem)

/-- `while (lfree->used && lfree != heap_end)` of `rt_malloc`. -/
def lowestFree (h : Heap) : Nat → Nat → Option Nat
  | 0, _ => none
  | fuel + 1, ptr =>
    if (h.header ptr).used ≠ 0 ∧ ptr ≠ h.heapEnd then lowestFree h fuel (h.header ptr).next.toNat
    else some ptr

/-- More than the heap has blocks. -/
def Heap.fuel (h : Heap) : Nat := h.heapEnd + 1

/-- Find next free block after `mem` and update lowest free pointer. -/
def raiseLfree (mem : Nat) (h : Heap) : Option Heap :=
  if mem = h.lfree then do
    let lfree ← lowestFree h h.fuel h.lfree
    rtAssert (lfree = h.heapEnd ∨ (h.header lfree).used = 0)
    return { h with lfree := lfree }
  else some h

/-- `rt_malloc`; the address, 0 for `RT_NULL`. -/
def rtMalloc (size : Nat) (h : Heap) : Option (Nat × Heap) :=
  if size = 0 then some (0, h) else
  let size := rtAlign size
  if h.memSizeAligned < size then some (0, h) else
  let size := if size < minSizeAligned then minSizeAligned else size
  do
    match ← searchRoom size h h.fuel h.lfree with
    | none => return (0, h)
    | some mem =>
      let h := (takeBlock mem size h).modify mem fun m => { m with magic := heapMagic }
      let h ← raiseLfree mem h
      rtAssert (h.heapPtr + mem + sizeofStructMem + size ≤ h.heapPtr + h.heapEnd)
      rtAssert ((h.heapPtr + mem + sizeofStructMem) % 4 = 0)
      rtAssert ((h.heapPtr + mem) % 4 = 0)
      return (h.heapPtr + mem + sizeofStructMem, h)

/-- The header in front of the block at `rmem`. -/
def headerOf (rmem : Nat) (h : Heap) : Option Nat :=
  if h.heapPtr + sizeofStructMem ≤ rmem then some (rmem - h.heapPtr - sizeofStructMem) else none

/-- `rt_free`. -/
def rtFree (rmem : Nat) (h : Heap) : Option Heap :=
  if rmem = 0 then some h else do
    rtAssert (rmem % 4 = 0)
    rtAssert (h.heapPtr ≤ rmem ∧ rmem < h.heapPtr + h.heapEnd)
    let mem ← headerOf rmem h
    rtAssert ((h.header mem).used ≠ 0)
    rtAssert ((h.header mem).magic = heapMagic)
    let h := h.modify mem fun m => { m with used := 0, magic := 0 }
    let h := { h with lfree := if mem < h.lfree then mem else h.lfree }
    let h := { h with usedMem := sub32 h.usedMem (sub32 (h.header mem).next.toNat mem) }
    plugHoles mem h

/-- `rt_memcpy` and `rt_memset` between addresses of the heap. -/
def rtMemcpy (dst src n : Nat) (h : Heap) : Heap :=
  { h with mem := fun a => if dst ≤ h.heapPtr + a ∧ h.heapPtr + a < dst + n then
      h.mem (src - h.heapPtr + (h.heapPtr + a - dst)) else h.mem a }

def rtMemset (dst : Nat) (v : UInt8) (n : Nat) (h : Heap) : Heap :=
  { h with mem := fun a => if dst ≤ h.heapPtr + a ∧ h.heapPtr + a < dst + n then v else h.mem a }

/-- `rt_realloc`, split memory block. -/
def splitBlock (ptr newsize size : Nat) (h : Heap) : Option Heap :=
  let h := { h with usedMem := sub32 h.usedMem (size - newsize) }
  let ptr2 := ptr + sizeofStructMem + newsize
  let h := h.modify ptr2 fun _ => ⟨heapMagic, 0, (h.header ptr).next, .ofNat ptr⟩
  let h := h.modify ptr fun m => { m with next := .ofNat ptr2 }
  plugHoles ptr2 (h.linkBack ptr2)

/-- `rt_realloc`, expand memory. -/
def moveBlock (rmem newsize size : Nat) (h : Heap) : Option (Nat × Heap) := do
  let (nmem, h) ← rtMalloc newsize h
  if nmem ≠ 0 then
    let h := rtMemcpy nmem rmem (if size < newsize then size else newsize) h
    return (nmem, ← rtFree rmem h)
  else return (nmem, h)

/-- The size of the block at `ptr`. -/
def sizeAt (ptr : Nat) (h : Heap) : Nat :=
  sub32 (sub32 (h.header ptr).next.toNat ptr) sizeofStructMem

/-- `rt_realloc`. -/
def rtRealloc (rmem newsize : Nat) (h : Heap) : Option (Nat × Heap) :=
  let newsize := rtAlign newsize
  if h.memSizeAligned < newsize then some (0, h)
  else if rmem = 0 then rtMalloc newsize h
  else if rmem < h.heapPtr ∨ h.heapPtr + h.heapEnd ≤ rmem then some (rmem, h)
  else do
    let ptr ← headerOf rmem h
    let size := sizeAt ptr h
    if size = newsize then return (rmem, h)
    else if newsize + sizeofStructMem + minSizeAligned < size then
      return (rmem, ← splitBlock ptr newsize size h)
    else moveBlock rmem newsize size h

/-- `rt_calloc`. -/
def rtCalloc (n size : Nat) (h : Heap) : Option (Nat × Heap) := do
  let (p, h) ← rtMalloc (n * size % 2 ^ 32) h
  if p ≠ 0 then return (p, rtMemset p 0 (n * size % 2 ^ 32) h) else return (p, h)

/-! ## Blocks in memory -/

/-- The header at `p` of the block `b`, with the one before it at `q`. -/
structure Heads (m : Nat → UInt8) (q p : Nat) (b : Block) : Prop where
  used : (heapMem m p).used = if b.taken then 1 else 0
  magic : b.taken → (heapMem m p).magic = heapMagic
  next : (heapMem m p).next.toNat = p + b.size
  prev : (heapMem m p).prev.toNat = q
  size : 12 ≤ b.size
  aligned : b.size % 4 = 0

/-- The blocks from `p` up to `p'`; the last begins at `q'`. -/
def Seg (m : Nat → UInt8) : Nat → Nat → List Block → Nat → Nat → Prop
  | q, p, [], q', p' => q' = q ∧ p' = p
  | q, p, b :: bs, q', p' => Heads m q p b ∧ Seg m p (p + b.size) bs q' p'

section segments

variable {m m' : Nat → UInt8} {q p q' p' r : Nat} {b : Block} {bs cs pre post : List Block}

theorem Heads.of_eq (h : Heads m q p b) (heq : heapMem m' p = heapMem m p) : Heads m' q p b :=
  ⟨heq ▸ h.used, heq ▸ h.magic, heq ▸ h.next, heq ▸ h.prev, h.size, h.aligned⟩

theorem seg_append :
    Seg m q p (bs ++ cs) q' p' ↔
      ∃ r, Seg m q p bs r (p + span bs) ∧ Seg m r (p + span bs) cs q' p' := by
  induction bs generalizing q p with
  | nil =>
    constructor
    · exact fun h => ⟨q, ⟨rfl, rfl⟩, h⟩
    · rintro ⟨r, ⟨rfl, -⟩, h⟩
      exact h
  | cons b bs ih =>
    simp only [List.cons_append, Seg, ih, span_cons, Nat.add_assoc]
    constructor
    · rintro ⟨hb, r, hbs, hcs⟩
      exact ⟨r, ⟨hb, hbs⟩, hcs⟩
    · rintro ⟨r, ⟨hb, hbs⟩, hcs⟩
      exact ⟨hb, r, hbs, hcs⟩

theorem Seg.end_eq (h : Seg m q p bs q' p') : p' = p + span bs := by
  induction bs generalizing q p with
  | nil => exact h.2
  | cons b bs ih => rw [ih h.2, span_cons, Nat.add_assoc]

theorem Seg.size (h : Seg m q p bs q' p') (hb : b ∈ bs) : 12 ≤ b.size ∧ b.size % 4 = 0 := by
  induction bs generalizing q p with
  | nil => exact absurd hb List.not_mem_nil
  | cons c bs ih =>
    rcases List.mem_cons.mp hb with rfl | hb
    · exact ⟨h.1.size, h.1.aligned⟩
    · exact ih h.2 hb

theorem Seg.aligned (h : Seg m q p bs q' p') : span bs % 4 = 0 := by
  induction bs generalizing q p with
  | nil => rfl
  | cons b bs ih =>
    have hb := h.1.aligned
    have hbs := ih h.2
    rw [span_cons]
    omega

theorem Seg.of_headers (h : Seg m q p bs q' p')
    (hm : ∀ r b, Lies bs r b → heapMem m' (p + r) = heapMem m (p + r)) : Seg m' q p bs q' p' := by
  induction bs generalizing q p with
  | nil => exact h
  | cons b bs ih =>
    refine ⟨h.1.of_eq (hm 0 b (lies_cons.mpr (.inl ⟨rfl, rfl⟩))), ih h.2 fun r c hc => ?_⟩
    rw [Nat.add_assoc]
    exact hm _ c (lies_cons.mpr (.inr ⟨r, rfl, hc⟩))

theorem Seg.congr (h : Seg m q p bs q' p') (hm : ∀ a, p ≤ a → a < p' → m' a = m a) :
    Seg m' q p bs q' p' := by
  refine h.of_headers fun r b hb => heapMem_congr fun a hlo hhi => hm a (by omega) ?_
  have hend := h.end_eq
  have hsize := (h.size hb.mem).1
  have hinside := hb.inside
  omega

/-- The first header takes another block before it. -/
theorem Seg.relink (h : Seg m q p bs q' p') (hr : r < 2 ^ 32)
    (hfirst : bs ≠ [] → heapMem m' p = { heapMem m p with prev := .ofNat r })
    (hm : ∀ a, p + 12 ≤ a → a < p' → m' a = m a) : ∃ q'', Seg m' r p bs q'' p' := by
  rcases bs with _ | ⟨b, bs⟩
  · exact ⟨r, rfl, h.2⟩
  · have heq := hfirst (List.cons_ne_nil _ _)
    obtain ⟨hb, hbs⟩ := h
    have hsize := hb.size
    refine ⟨q', ⟨?_, ?_, ?_, ?_, hb.size, hb.aligned⟩,
      hbs.congr fun a hpa hap => hm a (by omega) hap⟩
    · rw [heq]
      exact hb.used
    · rw [heq]
      exact hb.magic
    · rw [heq]
      exact hb.next
    · rw [heq]
      exact UInt32.toNat_ofNat_of_lt' hr

end segments

end Aclean.RtThread
