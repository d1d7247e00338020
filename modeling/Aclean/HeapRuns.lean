import Aclean.HeapLends

/-!
# The heap in use

Callers of the heap that give back only what they were lent, and write only
there. Whatever they do, no assertion of `mem.c` fails and each of its loops
ends; what is lent stays apart, and is what its borrower left there; and a
heap with nothing lent is as new.

None of it holds of a size that `RT_ALIGN` rounds up over the end of
`rt_size_t`: that becomes a small one, and the caller has less than it asked for.
-/

namespace Aclean.RtThread

open Arena Heap

/-! ## Callers -/

/-- What a caller does. -/
inductive HeapCall
  | malloc (n : Nat)
  | calloc (n size : Nat)
  | realloc (l : Lent) (n : Nat)
  | free (l : Lent)
  | write (l : Lent) (i : Nat) (v : UInt8)

namespace HeapCall

/-- What a caller may do. `mem.c` does not look whether `RT_ALIGN(size, 4)` or
`count * size` wraps, so a caller has to ask for less than that. -/
def Fair (L : List Lent) : HeapCall → Prop
  | malloc n => n + 3 < 2 ^ 32
  | calloc n size => n * size + 3 < 2 ^ 32
  | realloc l n => l ∈ L ∧ n + 3 < 2 ^ 32
  | free l => l ∈ L
  | write l i _ => l ∈ L ∧ i < l.size

/-- What is lent after `n` bytes were asked for, and `p` was the answer. -/
def lend (p n : Nat) (L more : List Lent) : List Lent := if p = 0 then L else ⟨p, n⟩ :: more

def run : HeapCall → Heap → List Lent → Option (Heap × List Lent)
  | malloc n, s, L => (rtMalloc n s).map fun (p, s) => (s, lend p n L L)
  | calloc n size, s, L => (rtCalloc n size s).map fun (p, s) => (s, lend p (n * size) L L)
  | realloc l n, s, L => (rtRealloc l.ptr n s).map fun (p, s) => (s, lend p n L (L.erase l))
  | free l, s, L => (rtFree l.ptr s).map fun s => (s, L.erase l)
  | write l i v, s, L => some (s.poke (l.ptr + i) v, L)

/-- A call that may leave `lfree` behind. -/
def Cuts : HeapCall → Prop
  | realloc _ _ => True
  | _ => False

end HeapCall

/-- A heap set up over the bytes from `beginAddr` to `endAddr`, after calls that `ok` lets
through. -/
inductive InUse (beginAddr endAddr : Nat) (ram : Heap) (ok : HeapCall → Prop) :
    Heap → List Lent → Prop
  | start : InUse beginAddr endAddr ram ok (rtSystemHeapInit beginAddr endAddr ram) []
  | call {c : HeapCall} {s s' : Heap} {L L' : List Lent} :
      InUse beginAddr endAddr ram ok s L → ok c → c.Fair L → c.run s L = some (s', L') →
        InUse beginAddr endAddr ram ok s' L'

/-- The RAM that start-up clears. -/
def clearedRam : Heap := ⟨fun _ => 0, 0, 0, 0, 0, 0, 0⟩

namespace Heap

section calls

variable {s : Heap} {bs : List Block} {L : List Lent} {c : HeapCall}

/-- What a call leaves of the heap. -/
structure Serves (c : HeapCall) (s s' : Heap) (bs bs' : List Block) (L L' : List Lent) : Prop where
  lends : Lends s' bs' L'
  heapPtr : s'.heapPtr = s.heapPtr
  memSizeAligned : s'.memSizeAligned = s.memSizeAligned
  kept : ∀ l ∈ L, l ∈ L' → ∀ i, i < l.size → (∀ v, c ≠ .write l i v) →
    s'.peek (l.ptr + i) = s.peek (l.ptr + i)
  lowest : ¬ c.Cuts → s.lfree = lowest bs → s'.lfree = Arena.lowest bs'

/-- No change at all. -/
theorem Lends.unserved (h : Lends s bs L) : Serves c s s bs bs L L :=
  ⟨h, rfl, rfl, fun _ _ _ _ _ _ => rfl, fun _ hlow => hlow⟩

theorem LendsMore.serves {s' : Heap} {bs' : List Block} {l : Lent}
    (h : LendsMore s s' bs bs' L l) : Serves c s s' bs bs' L (l :: L) :=
  ⟨h.lends, h.heapPtr, h.memSizeAligned, fun l' hl' _ i hi _ => h.kept l' hl' i hi,
    fun _ => h.lowest⟩

theorem Relends.serves {s' : Heap} {bs' : List Block} {l : Lent} {p n : Nat}
    (h : Relends s s' bs' L l p n) (hnodup : L.Nodup) :
    Serves (.realloc l n) s s' bs bs' L (⟨p, n⟩ :: L.erase l) := by
  refine ⟨h.lends, h.heapPtr, h.memSizeAligned, fun l' hl' hin i hi _ => ?_, fun hcuts => ?_⟩
  · by_cases heq : l' = l
    · subst heq
      rcases List.mem_cons.mp hin with heq | hin
      · rw [heq] at hi
        have hmoved := h.moved i (by rw [heq]; exact hi) hi
        have hptr : l'.ptr = p := congrArg Lent.ptr heq
        rw [hptr] at hmoved ⊢
        exact hmoved
      · exact absurd rfl ((List.Nodup.mem_erase_iff hnodup).mp hin).1
    · exact h.kept l' ((List.mem_erase_of_ne heq).mpr hl') i hi
  · exact absurd trivial hcuts

theorem Lends.poke {l : Lent} {i : Nat} {v : UInt8} (h : Lends s bs L) (hl : l ∈ L)
    (hi : i < l.size) : Serves (.write l i v) s (s.poke (l.ptr + i) v) bs bs L L := by
  obtain ⟨p, n, hat⟩ := h.lent l hl
  have hptr := hat.ptr
  obtain ⟨hlends, hkept⟩ := h.write hl (m := Function.update s.mem (l.ptr + i - s.heapPtr) v)
    fun a ha => Function.update_of_ne (by omega) _ _
  refine ⟨hlends, rfl, rfl, fun l' hl' _ j hj hne => ?_, fun _ hlow => hlow⟩
  by_cases heq : l' = l
  · subst heq
    have hij : j ≠ i := by
      rintro rfl
      exact hne v rfl
    change Function.update s.mem (l'.ptr + i - s.heapPtr) v (l'.ptr + j - s.heapPtr) = _
    exact Function.update_of_ne (by omega) _ _
  · exact hkept l' hl' heq j hj

/-- Every call is answered. -/
theorem Lends.call (h : Lends s bs L) (hc : c.Fair L) :
    ∃ s' L' bs', c.run s L = some (s', L') ∧ Serves c s s' bs bs' L L' := by
  cases c with
  | malloc n =>
    rcases h.malloc hc with ⟨hnone, -⟩ | ⟨p, s', bs', hsome, hm, -⟩
    · have hrun : (HeapCall.malloc n).run s L = some (s, L) := by
        rw [HeapCall.run, hnone]
        rfl
      exact ⟨s, L, bs, hrun, h.unserved⟩
    · have hrun : (HeapCall.malloc n).run s L = some (s', ⟨p, n⟩ :: L) := by
        rw [HeapCall.run, hsome]
        exact congrArg (fun M => some (s', M)) (if_neg hm.ptr_ne)
      exact ⟨s', _, bs', hrun, hm.serves⟩
  | calloc n size =>
    rcases h.calloc hc with ⟨hnone, -⟩ | ⟨p, s', bs', hsome, hm, -⟩
    · have hrun : (HeapCall.calloc n size).run s L = some (s, L) := by
        rw [HeapCall.run, hnone]
        rfl
      exact ⟨s, L, bs, hrun, h.unserved⟩
    · have hrun : (HeapCall.calloc n size).run s L = some (s', ⟨p, n * size⟩ :: L) := by
        rw [HeapCall.run, hsome]
        exact congrArg (fun M => some (s', M)) (if_neg hm.ptr_ne)
      exact ⟨s', _, bs', hrun, hm.serves⟩
  | realloc l n =>
    rcases h.realloc hc.1 hc.2 with hnone | ⟨p, s', bs', hsome, hr⟩
    · have hrun : (HeapCall.realloc l n).run s L = some (s, L) := by
        rw [HeapCall.run, hnone]
        rfl
      exact ⟨s, L, bs, hrun, h.unserved⟩
    · have hrun : (HeapCall.realloc l n).run s L = some (s', ⟨p, n⟩ :: L.erase l) := by
        rw [HeapCall.run, hsome]
        exact congrArg (fun M => some (s', M)) (if_neg hr.ptr_ne)
      exact ⟨s', _, bs', hrun, hr.serves (List.Nodup.of_map _ h.nodup)⟩
  | free l =>
    obtain ⟨s', bs', hrun, hlends, hptr, hsize, hkept, hlow⟩ := h.free hc
    have hrun' : (HeapCall.free l).run s L = some (s', L.erase l) := by
      rw [HeapCall.run, hrun, Option.map_some]
    exact ⟨s', _, bs', hrun', hlends, hptr, hsize, fun l' _ hin i hi _ => hkept l' hin i hi,
      fun _ => hlow⟩
  | write l i v => exact ⟨_, L, bs, rfl, h.poke hc.1 hc.2⟩

end calls

/-! ## From the start -/

/-- Where a heap can be set up: there is room for its headers and a least block, and nothing
is counted yet. -/
structure Ready (beginAddr endAddr : Nat) (ram : Heap) : Prop where
  room : rtAlign beginAddr + 36 ≤ rtAlignDown endAddr
  top : endAddr < 2 ^ 32
  usedMem : ram.usedMem = 0

/-- The heap as it is set up: one free block. -/
theorem lends_init {beginAddr endAddr : Nat} {ram : Heap} (hr : Ready beginAddr endAddr ram) :
    Lends (rtSystemHeapInit beginAddr endAddr ram)
      [⟨rtAlignDown endAddr - rtAlign beginAddr - 12, false⟩] [] ∧
    (rtSystemHeapInit beginAddr endAddr ram).heapPtr = rtAlign beginAddr ∧
    (rtSystemHeapInit beginAddr endAddr ram).memSizeAligned =
      rtAlignDown endAddr - rtAlign beginAddr - 24 ∧
    (rtSystemHeapInit beginAddr endAddr ram).lfree = 0 := by
  obtain ⟨hroom, htop, hused⟩ := hr
  have hbegin : rtAlign beginAddr % 4 = 0 := rtAlign_aligned
  have hbottom : rtAlignDown endAddr % 4 = 0 ∧ rtAlignDown endAddr ≤ endAddr := by
    unfold rtAlignDown
    omega
  unfold rtSystemHeapInit
  generalize rtAlign beginAddr = first at *
  generalize rtAlignDown endAddr = last at *
  have hfits : 2 * sizeofStructMem < last ∧ first ≤ last - 2 * sizeofStructMem := by
    unfold sizeofStructMem
    omega
  dsimp only
  rw [if_pos hfits]
  have hsize : last - first - 2 * sizeofStructMem + sizeofStructMem = last - first - 12 := by
    unfold sizeofStructMem
    omega
  rw [hsize]
  let s₁ : Heap := Heap.modify 0
    (fun _ => ⟨heapMagic, 0, .ofNat (last - first - 12), 0⟩)
    { ram with memSizeAligned := last - first - 2 * sizeofStructMem, heapPtr := first }
  have hfirst : s₁.header 0 = ⟨heapMagic, 0, .ofNat (last - first - 12), 0⟩ := header_modify_self
  have hnext : (s₁.header 0).next.toNat = last - first - 12 := by
    rw [hfirst]
    exact toNat_ofNat32 (by omega)
  let s₂ : Heap := { s₁ with heapEnd := last - first - 12 }
  let f : HeapMem → HeapMem := fun _ =>
    ⟨heapMagic, 1, .ofNat (last - first - 12), .ofNat (last - first - 12)⟩
  refine ⟨?_, rfl, rfl, rfl⟩
  change Lends { Heap.modify (s₁.header 0).next.toNat f
    { s₁ with heapEnd := (s₁.header 0).next.toNat } with lfree := 0 } _ []
  rw [hnext]
  change Lends { s₂.modify (last - first - 12) f with lfree := 0 } _ []
  have hat : (s₂.modify (last - first - 12) f).header 0 =
      ⟨heapMagic, 0, .ofNat (last - first - 12), 0⟩ :=
    (header_modify_of_apart (.inl (by omega))).trans hfirst
  have hfree : ∀ p n, ¬ Taken [⟨last - first - 12, false⟩] p n := by
    intro p n hp
    obtain ⟨q, -, hq⟩ := (taken_of_free rfl).mp hp
    exact not_lies_nil hq
  refine ⟨⟨⟨⟨0, ⟨?_, ?_, ?_, ?_, ?_, ?_⟩, rfl, ?_⟩, ?_, ?_, ?_, ?_, ?_⟩, List.isChain_singleton _,
    hused, .inr ⟨_, lies_cons.mpr (.inl ⟨rfl, rfl⟩), rfl⟩, fun _ _ _ => rfl,
    fun p n hp => absurd hp (hfree p n)⟩, fun l hl => absurd hl List.not_mem_nil,
    fun p n hp => absurd hp (hfree p n), List.nodup_nil⟩
  · exact congrArg HeapMem.used hat
  · exact fun h => absurd h Bool.false_ne_true
  · exact (congrArg (·.next.toNat) hat).trans
      ((toNat_ofNat32 (by omega)).trans (Nat.zero_add _).symm)
  · exact congrArg (·.prev.toNat) hat
  · dsimp only
    omega
  · dsimp only
    omega
  · exact (Nat.zero_add _).symm
  · exact congrArg HeapMem.used header_modify_self
  · change last - first - 12 = last - first - 2 * sizeofStructMem + 12
    unfold sizeofStructMem
    omega
  · change 12 ≤ last - first - 2 * sizeofStructMem
    unfold sizeofStructMem
    omega
  · change first + (last - first - 12) + 12 < 2 ^ 32
    omega
  · exact hbegin

end Heap

section inUse

variable {beginAddr endAddr n : Nat} {ram s : Heap} {bs : List Block} {ok : HeapCall → Prop}
  {L : List Lent}

/-- The heap after any calls. -/
theorem InUse.lends (hr : Ready beginAddr endAddr ram) (h : InUse beginAddr endAddr ram ok s L) :
    ∃ bs, Lends s bs L ∧ s.heapPtr = rtAlign beginAddr ∧
      s.memSizeAligned = rtAlignDown endAddr - rtAlign beginAddr - 24 ∧
      ((∀ c, ok c → ¬ c.Cuts) → s.lfree = lowest bs) := by
  induction h with
  | start =>
    obtain ⟨hlends, hptr, hsize, hlow⟩ := lends_init hr
    exact ⟨_, hlends, hptr, hsize, fun _ => hlow⟩
  | call _ hok hc hrun ih =>
    obtain ⟨bs, hlends, hptr, hsize, hlow⟩ := ih
    obtain ⟨s', L', bs', hrun', hs⟩ := hlends.call hc
    obtain ⟨rfl, rfl⟩ := Prod.mk.inj (Option.some.inj (hrun.symm.trans hrun'))
    exact ⟨bs', hs.lends, hs.heapPtr.trans hptr, hs.memSizeAligned.trans hsize,
      fun hcuts => hs.lowest (hcuts _ hok) (hlow hcuts)⟩

theorem ready_clearedRam : Ready 0x20002000 0x2000c000 clearedRam :=
  ⟨by decide, by decide, rfl⟩

theorem inUse_two : ∃ s, InUse 0x20002000 0x2000c000 clearedRam (fun c => ¬ c.Cuts) s
    [⟨0x2000207c, 16⟩, ⟨0x2000200c, 100⟩] := by
  have hrun : (((HeapCall.malloc 100).run
      (rtSystemHeapInit 0x20002000 0x2000c000 clearedRam) []).bind
        fun r => (HeapCall.malloc 16).run r.1 r.2).map Prod.snd =
        some [⟨0x2000207c, 16⟩, ⟨0x2000200c, 100⟩] := by decide +kernel
  obtain ⟨⟨s, L⟩, hboth, rfl⟩ := Option.map_eq_some_iff.mp hrun
  obtain ⟨r, hfirst, hsecond⟩ := Option.bind_eq_some_iff.mp hboth
  have hfair : ∀ n L, n < 1000 → (HeapCall.malloc n).Fair L := fun n L hn => by
    change n + 3 < 2 ^ 32
    omega
  exact ⟨s, (InUse.start.call id (hfair _ _ (by decide)) hfirst).call id
    (hfair _ _ (by decide)) hsecond⟩

/-- Every call is answered, and leaves alone what is lent to others. -/
theorem heap_serves {c : HeapCall} (hr : Ready beginAddr endAddr ram)
    (h : InUse beginAddr endAddr ram ok s L) (hc : c.Fair L) :
    ∃ s' L', c.run s L = some (s', L') ∧ ∀ l ∈ L, l ∈ L' → ∀ i, i < l.size →
      (∀ v, c ≠ .write l i v) → s'.peek (l.ptr + i) = s.peek (l.ptr + i) := by
  obtain ⟨bs, hlends, -⟩ := h.lends hr
  obtain ⟨s', L', bs', hrun, hs⟩ := hlends.call hc
  exact ⟨s', L', hrun, hs.kept⟩

theorem heap_serves_free : ∃ s s' L',
    (HeapCall.free ⟨0x2000200c, 100⟩).run s [⟨0x2000207c, 16⟩, ⟨0x2000200c, 100⟩] = some (s', L') ∧
      ∀ l ∈ [(⟨0x2000207c, 16⟩ : Lent), ⟨0x2000200c, 100⟩], l ∈ L' → ∀ i, i < l.size →
        (∀ v, HeapCall.free ⟨0x2000200c, 100⟩ ≠ .write l i v) →
          s'.peek (l.ptr + i) = s.peek (l.ptr + i) := by
  obtain ⟨s, h⟩ := inUse_two
  exact ⟨s, heap_serves ready_clearedRam h (.tail _ List.mem_cons_self)⟩

-- with less room than `Ready` asks for: the limit of the search wraps, and it goes on for ever
example : (rtMalloc 1 (rtSystemHeapInit 0x1000 0x101c clearedRam)).map Prod.fst = none := by
  decide +kernel

-- `rt_calloc(1, 0xffffffff)` takes twelve bytes, and clears the block above as well
example : (do
    let (p, s) ← rtMalloc 12 (rtSystemHeapInit 0x20002000 0x2000c000 clearedRam)
    let (q, s) ← rtMalloc 12 s
    let (r, s) ← rtCalloc 1 0xffffffff ((← rtFree p s).poke q 7)
    return (r = p, s.peek q)) = some (true, 0) := by decide +kernel

/-- What is lent is aligned, inside the heap, and apart from what else is. -/
theorem lent_apart (hr : Ready beginAddr endAddr ram) (h : InUse beginAddr endAddr ram ok s L) :
    (∀ l ∈ L, l.ptr % 4 = 0 ∧ rtAlign beginAddr + 12 ≤ l.ptr ∧
      l.ptr + l.size + 12 ≤ rtAlignDown endAddr) ∧
    L.Pairwise fun l l' => l.ptr + l.size ≤ l'.ptr ∨ l'.ptr + l'.size ≤ l.ptr := by
  obtain ⟨bs, hlends, hptr, hsize, -⟩ := h.lends hr
  refine ⟨fun l hl => ?_, ?_⟩
  · obtain ⟨p, k, hat⟩ := hlends.lent l hl
    have hl := hat.ptr
    have hk := hat.size
    have hlaid := hlends.holds.laid
    have hheap := hlaid.aligned
    have hend := hlaid.heapEnd
    have hinside := hat.taken.inside
    rw [hlaid.span] at hinside
    obtain ⟨pre, post, rfl, rfl⟩ := hat.taken
    have hpre := hlaid.aligned_at
    have hroom := hr.room
    dsimp only at hinside
    omega
  · exact (List.Nodup.of_map _ hlends.nodup).pairwise_of_forall_ne fun l hl l' hl' hne =>
      hlends.apart hl hl' hne.symm

theorem lent_apart_two :
    (∀ l ∈ [(⟨0x2000207c, 16⟩ : Lent), ⟨0x2000200c, 100⟩], l.ptr % 4 = 0 ∧
      rtAlign 0x20002000 + 12 ≤ l.ptr ∧ l.ptr + l.size + 12 ≤ rtAlignDown 0x2000c000) ∧
    [(⟨0x2000207c, 16⟩ : Lent), ⟨0x2000200c, 100⟩].Pairwise fun l l' =>
      l.ptr + l.size ≤ l'.ptr ∨ l'.ptr + l'.size ≤ l.ptr := by
  obtain ⟨s, h⟩ := inUse_two
  exact lent_apart ready_clearedRam h

-- the block that is lent for `0xffffffff` bytes has twelve
example : (do
    let (p, s) ← rtMalloc 0xffffffff (rtSystemHeapInit 0x20002000 0x2000c000 clearedRam)
    return (p, (s.header 0).next)) = some (0x2000200c, 24) := by decide +kernel

/-- Without `rt_realloc`, `rt_malloc` finds a block whenever there is one: one as long as asked
for and not at the very end. -/
theorem rtMalloc_null_iff (hr : Ready beginAddr endAddr ram)
    (h : InUse beginAddr endAddr ram (fun c => ¬ c.Cuts) s L) (hn : n + 3 < 2 ^ 32) :
    ∃ bs, Lends s bs L ∧ ((∃ s', rtMalloc n s = some (0, s')) ↔
      n = 0 ∨ ∀ p b, Lies bs p b → b.Fits (dataSize n + 12) →
        s.memSizeAligned ≤ p + dataSize n) := by
  obtain ⟨bs, hlends, -, -, hlow⟩ := h.lends hr
  have hroom : ∀ p b, Room s bs (dataSize n) p b ↔
      Lies bs p b ∧ p + dataSize n < s.memSizeAligned ∧ b.Fits (dataSize n + 12) := by
    intro p b
    refine ⟨fun ⟨hlies, _, hlimit, hfits⟩ => ⟨hlies, hlimit, hfits⟩,
      fun ⟨hlies, hlimit, hfits⟩ => ⟨hlies, ?_, hlimit, hfits⟩⟩
    rw [hlow fun _ hc => hc]
    exact lowest_le hlies hfits.1
  refine ⟨bs, hlends, ?_⟩
  rcases hlends.malloc hn with ⟨hnone, hno⟩ | ⟨p, s', bs', hsome, hm, hzero, q, b, hq⟩
  · refine ⟨fun _ => hno.imp_right fun hno p b hlies hfits => ?_, fun _ => ⟨s, hnone⟩⟩
    exact Nat.le_of_not_lt fun hlimit => hno p b ((hroom p b).mpr ⟨hlies, hlimit, hfits⟩)
  · refine ⟨fun ⟨s'', hnull⟩ => ?_, fun hno => ?_⟩
    · rw [hsome] at hnull
      exact absurd (Prod.mk.inj (Option.some.inj hnull)).1 hm.ptr_ne
    · obtain ⟨hlies, hlimit, hfits⟩ := (hroom q b).mp hq
      have hle := hno.resolve_left hzero q b hlies hfits
      omega

theorem rtMalloc_null_iff_two : ∃ s bs, Lends s bs [⟨0x2000207c, 16⟩, ⟨0x2000200c, 100⟩] ∧
    ((∃ s', rtMalloc 50000 s = some (0, s')) ↔ 50000 = 0 ∨ ∀ p b, Lies bs p b →
      b.Fits (dataSize 50000 + 12) → s.memSizeAligned ≤ p + dataSize 50000) := by
  obtain ⟨s, h⟩ := inUse_two
  exact ⟨s, rtMalloc_null_iff ready_clearedRam h (by decide)⟩

-- `rt_realloc` cuts 52 bytes off below `lfree`, and `rt_malloc` does not see them
example : (do
    let (_, s) ← rtMalloc 64 (rtSystemHeapInit 0x1000 0x1074 clearedRam)
    let (_, s) ← rtMalloc 12 s
    let (_, s) ← rtRealloc 0x100c 12 s
    let (p, s) ← rtMalloc 12 s
    return (p, (s.header 24).used, (s.header 24).next)) = some (0, 0, 76) := by decide +kernel

/-- What is lent can be given back. -/
theorem InUse.free {l : Lent} (hr : Ready beginAddr endAddr ram)
    (h : InUse beginAddr endAddr ram ok s L) (hl : l ∈ L) (hok : ok (.free l)) :
    ∃ s', (HeapCall.free l).run s L = some (s', L.erase l) ∧
      InUse beginAddr endAddr ram ok s' (L.erase l) := by
  obtain ⟨bs, hlends, -⟩ := h.lends hr
  obtain ⟨s', bs', hfree, -⟩ := hlends.free hl
  have hrun : (HeapCall.free l).run s L = some (s', L.erase l) := by
    rw [HeapCall.run, hfree, Option.map_some]
  exact ⟨s', hrun, h.call hok hl hrun⟩

/-- With nothing lent there is one free block, which the search begins with. -/
theorem lends_nil (h : Lends s bs []) :
    bs = [⟨Arena.span bs, false⟩] ∧ s.usedMem = 0 ∧ s.lfree = 0 := by
  have hholds := h.holds
  have hspan := hholds.laid.span
  have hend := hholds.laid.heapEnd
  have hne : bs ≠ [] := by
    rintro rfl
    rw [span_nil] at hspan
    omega
  have hfree : ∀ p k, ¬ Taken bs p k := by
    intro p k hp
    obtain ⟨l, hl, -⟩ := h.taken p k hp
    exact List.not_mem_nil hl
  have hone := hholds.coalesced.eq_singleton hne hfree
  have hfirst := hholds.first
  have hused := hholds.usedMem
  rw [hone] at hfirst hused
  exact ⟨hone, hused, hfirst _ rfl rfl⟩

/-- A heap with everything given back lends from its beginning again, whatever is less than
all of it. -/
theorem heap_as_new (hr : Ready beginAddr endAddr ram) (h : InUse beginAddr endAddr ram ok s [])
    (hn : n ≠ 0) :
    s.usedMem = 0 ∧
    (rtAlign beginAddr + dataSize n + 24 < rtAlignDown endAddr →
      ∃ s', rtMalloc n s = some (rtAlign beginAddr + 12, s')) ∧
    (rtAlignDown endAddr ≤ rtAlign beginAddr + dataSize n + 24 → rtMalloc n s = some (0, s)) := by
  obtain ⟨bs, hlends, hptr, hsize, -⟩ := h.lends hr
  obtain ⟨hone, hused, hlfree⟩ := lends_nil hlends
  have hholds := hlends.holds
  have hspan := hholds.laid.span
  have hend := hholds.laid.heapEnd
  have hroom := hr.room
  refine ⟨hused, ?_⟩
  rcases rtMalloc_takes hholds hn with ⟨hnone, hno⟩ | ⟨pre, b, post, s', hbs, hfit, hsome, -⟩
  · refine ⟨fun hless => ?_, fun _ => hnone⟩
    rw [hone] at hno
    refine absurd ⟨lies_cons.mpr (.inl ⟨rfl, rfl⟩), ?_, ?_, rfl, ?_⟩ (hno 0 ⟨Arena.span bs, false⟩)
    · exact Nat.le_of_eq hlfree
    · omega
    · dsimp only
      omega
  · rw [hone] at hbs
    obtain rfl : pre = [] := by
      rcases pre with _ | ⟨c, pre⟩
      · rfl
      · exact absurd (List.cons.inj hbs).2 (by simp)
    refine ⟨fun _ => ⟨s', ?_⟩, fun hall => ?_⟩
    · rw [hsome, hptr]
      rfl
    · have hlimit := hfit.2.2.1
      rw [span_nil] at hlimit
      omega

theorem heap_as_new_returned : ∃ s s₁ s₂,
    InUse 0x20002000 0x2000c000 clearedRam (fun c => ¬ c.Cuts) s
      [⟨0x2000207c, 16⟩, ⟨0x2000200c, 100⟩] ∧
    (HeapCall.free ⟨0x2000200c, 100⟩).run s [⟨0x2000207c, 16⟩, ⟨0x2000200c, 100⟩] =
      some (s₁, [⟨0x2000207c, 16⟩]) ∧
    (HeapCall.free ⟨0x2000207c, 16⟩).run s₁ [⟨0x2000207c, 16⟩] = some (s₂, []) ∧
    s₂.usedMem = 0 ∧ (∃ s', rtMalloc 40932 s₂ = some (rtAlign 0x20002000 + 12, s')) ∧
    rtMalloc 40936 s₂ = some (0, s₂) := by
  obtain ⟨s, h⟩ := inUse_two
  obtain ⟨s₁, hfirst, h₁⟩ := h.free ready_clearedRam (.tail _ List.mem_cons_self) id
  obtain ⟨s₂, hsecond, h₂⟩ := h₁.free ready_clearedRam List.mem_cons_self id
  obtain ⟨hused, hless, -⟩ := heap_as_new ready_clearedRam h₂ (n := 40932) (by decide)
  obtain ⟨-, -, hall⟩ := heap_as_new ready_clearedRam h₂ (n := 40936) (by decide)
  exact ⟨s, s₁, s₂, h, hfirst, hsecond, hused, hless (by decide), hall (by decide)⟩

/-- `rt_calloc` lends zeros. -/
theorem rtCalloc_clears {size : Nat} (hr : Ready beginAddr endAddr ram)
    (h : InUse beginAddr endAddr ram ok s L) (hn : n * size + 3 < 2 ^ 32) :
    rtCalloc n size s = some (0, s) ∨ ∃ p s', rtCalloc n size s = some (p, s') ∧ p ≠ 0 ∧
      ∀ i, i < n * size → s'.peek (p + i) = 0 := by
  obtain ⟨bs, hlends, -⟩ := h.lends hr
  rcases hlends.calloc hn with ⟨hnone, -⟩ | ⟨p, s', bs', hsome, hm, hzero⟩
  · exact .inl hnone
  · exact .inr ⟨p, s', hsome, hm.ptr_ne, hzero⟩

theorem rtCalloc_clears_two : ∃ s, rtCalloc 4 8 s = some (0, s) ∨
    ∃ p s', rtCalloc 4 8 s = some (p, s') ∧ p ≠ 0 ∧ ∀ i, i < 4 * 8 → s'.peek (p + i) = 0 := by
  obtain ⟨s, h⟩ := inUse_two
  exact ⟨s, rtCalloc_clears ready_clearedRam h (by decide)⟩

-- twice `0x80000001` bytes are two: behind the twelve that are lent stands a header
example : (do
    let (p, s) ← rtCalloc 0x80000001 2 (rtSystemHeapInit 0x20002000 0x2000c000 clearedRam)
    return (p, (s.header 0).next, s.peek (p + 16))) = some (0x2000200c, 24, 0xf4) := by
  decide +kernel

/-- `rt_realloc` keeps what was in the block, as far as the new one goes. -/
theorem rtRealloc_keeps {l : Lent} (hr : Ready beginAddr endAddr ram)
    (h : InUse beginAddr endAddr ram ok s L) (hl : l ∈ L) (hn : n + 3 < 2 ^ 32) :
    rtRealloc l.ptr n s = some (0, s) ∨ ∃ p s', rtRealloc l.ptr n s = some (p, s') ∧ p ≠ 0 ∧
      ∀ i, i < l.size → i < n → s'.peek (p + i) = s.peek (l.ptr + i) := by
  obtain ⟨bs, hlends, -⟩ := h.lends hr
  rcases hlends.realloc hl hn with hnone | ⟨p, s', bs', hsome, hm⟩
  · exact .inl hnone
  · exact .inr ⟨p, s', hsome, hm.ptr_ne, hm.moved⟩

theorem rtRealloc_keeps_two : ∃ s, rtRealloc 0x2000200c 200 s = some (0, s) ∨
    ∃ p s', rtRealloc 0x2000200c 200 s = some (p, s') ∧ p ≠ 0 ∧
      ∀ i, i < 100 → i < 200 → s'.peek (p + i) = s.peek (0x2000200c + i) := by
  obtain ⟨s, h⟩ := inUse_two
  exact ⟨s, rtRealloc_keeps ready_clearedRam h (l := ⟨0x2000200c, 100⟩)
    (.tail _ List.mem_cons_self) (by decide)⟩

-- `0xffffffff` bytes are rounded up to none: a header is written over the block
example : (do
    let (p, s) ← rtMalloc 100 (rtSystemHeapInit 0x20002000 0x2000c000 clearedRam)
    let (q, s) ← rtRealloc p 0xffffffff (s.poke p 7)
    return (q, s.peek p)) = some (0x2000200c, 0xa0) := by decide +kernel

end inUse

end Aclean.RtThread
