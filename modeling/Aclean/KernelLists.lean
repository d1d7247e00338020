import Aclean.Kernel

/-!
# The lists of the kernel

Every thread is in the list its state names, and the ready bits tell which
ready lists have a thread (`Kernel.Lists`). A thread that is being moved is
in no list for a while; the invariant says of which one that is true.
-/

namespace Aclean.RtThread

/-! ## What the steps leave alone -/

namespace Kernel

variable {k : Kernel} {t u : Tid} {h : ListHead}

@[simp] theorem modify_thread_self (f : Thread → Thread) : (k.modify t f).thread t = f (k.thread t) :=
  Function.update_self _ _ _

theorem modify_thread_of_ne (hu : u ≠ t) (f : Thread → Thread) :
    (k.modify t f).thread u = k.thread u := Function.update_of_ne hu _ _

@[simp] theorem insertThread_self :
    (k.rtScheduleInsertThread t).thread t = { k.thread t with stat := .ready } :=
  Function.update_self _ _ _

theorem insertThread_of_ne (hu : u ≠ t) : (k.rtScheduleInsertThread t).thread u = k.thread u :=
  Function.update_of_ne hu _ _

@[simp] theorem removeThread_thread : (k.rtScheduleRemoveThread t).thread = k.thread := rfl

theorem mem_insertThread : u ∈ (k.rtScheduleInsertThread t).list h ↔
    (u = t ∧ h = .priorityTable (k.thread t).currentPriority) ∨ u ∈ k.list h := Queues.mem_link

theorem rtTimerStop_list (id : TimerId) : (k.rtTimerStop id).list = k.list := by
  unfold rtTimerStop
  split <;> rfl

theorem rtTimerStop_thread (id : TimerId) : (k.rtTimerStop id).thread = k.thread := by
  unfold rtTimerStop
  split <;> rfl

theorem rtTimerStop_group (id : TimerId) :
    (k.rtTimerStop id).readyPriorityGroup = k.readyPriorityGroup := by
  unfold rtTimerStop
  split <;> rfl

/-- A state and a priority written leave the other fields as they are. -/
theorem remove_modify {f : Thread → Thread}
    (hprio : (f (k.thread t)).currentPriority = (k.thread t).currentPriority)
    (hmask : (f (k.thread t)).numberMask = (k.thread t).numberMask) :
    (k.modify t f).rtScheduleRemoveThread t = (k.rtScheduleRemoveThread t).modify t f := by
  unfold rtScheduleRemoveThread
  rw [modify_thread_self, hprio, hmask]
  rfl

end Kernel

/-! ## The invariant -/

/-- A list of threads that wait for an object. -/
def ListHead.Waiting : ListHead → Prop
  | .priorityTable _ => False
  | .defunct => False
  | _ => True

/-- Lists, ready bits and the threads' records agree; the thread `out` is in no list. -/
structure Kernel.Lists (out : Option Tid) (k : Kernel) : Prop where
  linked : Queues.Linked k.list
  absent : ∀ {t h}, out = some t → t ∉ k.list h
  ready : ∀ {t p}, out ≠ some t → (t ∈ k.list (.priorityTable p) ↔
    (k.thread t).stat = .ready ∧ (k.thread t).currentPriority = p)
  waiting : ∀ {t h}, h.Waiting → t ∈ k.list h → (k.thread t).stat = .suspend
  defunct : ∀ {t}, t ∈ k.list .defunct → (k.thread t).stat = .close
  priority : ∀ {t}, (k.thread t).stat ≠ .init →
    (k.thread t).currentPriority < rtThreadPriorityMax ∧
      (k.thread t).numberMask = 1#32 <<< (k.thread t).currentPriority
  group : ∀ {p}, p < rtThreadPriorityMax →
    (k.readyPriorityGroup.getLsbD p = true ↔ k.list (.priorityTable p) ≠ [])

namespace Kernel.Lists

variable {k : Kernel} {t : Tid} {h : ListHead} {out : Option Tid}

/-- Only lists, ready bits and threads count. -/
theorem congr {k' : Kernel} (hk : k.Lists out) (hlist : k'.list = k.list)
    (hthread : k'.thread = k.thread) (hgroup : k'.readyPriorityGroup = k.readyPriorityGroup) :
    k'.Lists out where
  linked := hlist ▸ hk.linked
  absent hout := by
    rw [hlist]
    exact hk.absent hout
  ready hout := by
    rw [hlist, hthread]
    exact hk.ready hout
  waiting hh ht := by
    rw [hthread]
    exact hk.waiting hh (hlist ▸ ht)
  defunct ht := by
    rw [hthread]
    exact hk.defunct (hlist ▸ ht)
  priority ht := by
    rw [hthread] at ht ⊢
    exact hk.priority ht
  group hp := by
    rw [hgroup, hlist]
    exact hk.group hp

theorem mask_getLsbD {p q : Nat} (hp : p < 32) : ((1#32 : BitVec 32) <<< p).getLsbD q = decide (q = p) := by
  rw [BitVec.getLsbD_shiftLeft, BitVec.getLsbD_one]
  by_cases hq : q = p
  · subst hq
    simp [hp]
  · by_cases hlt : q < p
    · simp [hlt, hq]
    · have : q - p ≠ 0 := by omega
      simp [hq, this]

/-! ### Out of a list -/

/-- A thread that is not ready leaves the list it waits in. -/
theorem unlink (hk : k.Lists none) (ht : (k.thread t).stat ≠ .ready) :
    Lists (some t) { k with list := Queues.unlink t k.list } where
  linked := hk.linked.unlink t
  absent := by
    rintro u h ⟨⟩ hu
    exact (hk.linked.mem_unlink.mp hu).1 rfl
  ready := by
    intro u p hu
    have hut : u ≠ t := fun heq => hu (heq ▸ rfl)
    exact (hk.linked.mem_unlink.trans (and_iff_right hut)).trans (hk.ready nofun)
  waiting hh hu := hk.waiting hh (Queues.unlink_subset _ hu)
  defunct hu := hk.defunct (Queues.unlink_subset _ hu)
  priority hu := hk.priority hu
  group := by
    intro p hp
    have hout : t ∉ k.list (.priorityTable p) := fun hmem => ht ((hk.ready nofun).mp hmem).1
    show _ ↔ Queues.unlink t k.list (.priorityTable p) ≠ []
    rw [Queues.unlink_of_not_mem hout]
    exact hk.group hp

/-- A ready thread leaves its ready list, and takes the bit along if it was the last. -/
theorem remove (hk : k.Lists none) (ht : (k.thread t).stat = .ready) :
    Lists (some t) (k.rtScheduleRemoveThread t) where
  linked := hk.linked.unlink t
  absent := by
    rintro u h ⟨⟩ hu
    exact (hk.linked.mem_unlink.mp hu).1 rfl
  ready := by
    intro u p hu
    have hut : u ≠ t := fun heq => hu (heq ▸ rfl)
    exact (hk.linked.mem_unlink.trans (and_iff_right hut)).trans (hk.ready nofun)
  waiting hh hu := hk.waiting hh (Queues.unlink_subset _ hu)
  defunct hu := hk.defunct (Queues.unlink_subset _ hu)
  priority hu := hk.priority hu
  group := by
    intro p hp
    obtain ⟨hlt, hmask⟩ := hk.priority (t := t) (by rw [ht]; nofun)
    change BitVec.getLsbD (if _ then _ else _) p = true ↔
      Queues.unlink t k.list (.priorityTable p) ≠ []
    by_cases hpt : p = (k.thread t).currentPriority
    · subst hpt
      split
      · next hempty => simp [hmask, mask_getLsbD hlt, hempty]
      · next hmore =>
        refine iff_of_true ((hk.group hp).mpr fun hnil => hmore ?_) hmore
        rw [Queues.unlink, hnil]
        rfl
    · have hout : t ∉ k.list (.priorityTable p) := fun hmem =>
        hpt ((hk.ready nofun).mp hmem).2.symm
      rw [Queues.unlink_of_not_mem hout, ← hk.group hp]
      split
      · rw [BitVec.getLsbD_and, BitVec.getLsbD_not, hmask, mask_getLsbD hlt,
          decide_eq_false hpt, decide_eq_true (show p < 32 from hp)]
        simp
      · rfl

/-! ### While it is in no list -/

/-- Whatever is written to its record but a priority. -/
theorem modify (hk : k.Lists (some t)) {f : Thread → Thread}
    (hf : (f (k.thread t)).stat ≠ .init → (f (k.thread t)).currentPriority < rtThreadPriorityMax ∧
      (f (k.thread t)).numberMask = 1#32 <<< (f (k.thread t)).currentPriority) :
    (k.modify t f).Lists (some t) where
  linked := hk.linked
  absent := hk.absent
  ready := by
    intro u p hu
    rw [modify_thread_of_ne fun heq : u = t => hu (heq ▸ rfl)]
    exact hk.ready hu
  waiting := by
    intro u h hh hu
    rw [modify_thread_of_ne fun heq : u = t => hk.absent rfl (heq ▸ hu)]
    exact hk.waiting hh hu
  defunct := by
    intro u hu
    rw [modify_thread_of_ne fun heq : u = t => hk.absent rfl (heq ▸ hu)]
    exact hk.defunct hu
  priority := by
    intro u hu
    by_cases hut : u = t
    · subst hut
      rw [modify_thread_self] at hu ⊢
      exact hf hu
    · rw [modify_thread_of_ne hut] at hu ⊢
      exact hk.priority hu
  group := hk.group

/-! ### Into a list -/

/-- Into the ready list of its priority. -/
theorem insert (hk : k.Lists (some t)) (ht : (k.thread t).stat ≠ .init) :
    Lists none (k.rtScheduleInsertThread t) where
  linked := hk.linked.link fun _ => hk.absent rfl
  absent := nofun
  ready := by
    intro u p _
    refine mem_insertThread.trans ?_
    by_cases hut : u = t
    · subst hut
      simp [hk.absent, eq_comm]
    · rw [insertThread_of_ne hut, ← hk.ready (by simpa using Ne.symm hut)]
      simp [hut]
  waiting := by
    intro u h hh hu
    rcases mem_insertThread.mp hu with ⟨rfl, rfl⟩ | hu
    · cases hh
    · rw [insertThread_of_ne fun heq : u = t => hk.absent rfl (heq ▸ hu)]
      exact hk.waiting hh hu
  defunct := by
    intro u hu
    rcases mem_insertThread.mp hu with ⟨-, h⟩ | hu
    · cases h
    · rw [insertThread_of_ne fun heq : u = t => hk.absent rfl (heq ▸ hu)]
      exact hk.defunct hu
  priority := by
    intro u hu
    by_cases hut : u = t
    · subst hut
      rw [insertThread_self]
      exact hk.priority ht
    · rw [insertThread_of_ne hut] at hu ⊢
      exact hk.priority hu
  group := by
    intro p hp
    obtain ⟨hlt, hmask⟩ := hk.priority ht
    change (k.readyPriorityGroup ||| (k.thread t).numberMask).getLsbD p = true ↔
      Queues.link _ (.priorityTable (k.thread t).currentPriority) t k.list (.priorityTable p) ≠ []
    rw [BitVec.getLsbD_or, hmask, mask_getLsbD hlt]
    by_cases hpt : p = (k.thread t).currentPriority
    · subst hpt
      simp
    · rw [Queues.link_of_ne (by simpa using hpt), ← hk.group hp]
      simp [hpt]

/-- Into a list of waiting threads, or into the list of those that are to be freed. -/
theorem link (behind : Tid → Bool) (h : ListHead) (hk : k.Lists (some t))
    (hh : h.Waiting ∧ (k.thread t).stat = .suspend ∨ h = .defunct ∧ (k.thread t).stat = .close) :
    Lists none { k with list := Queues.link behind h t k.list } where
  linked := hk.linked.link fun _ => hk.absent rfl
  absent := nofun
  ready := by
    intro u p _
    have hhead : ListHead.priorityTable p ≠ h := by
      rintro rfl
      rcases hh with ⟨hw, -⟩ | ⟨hd, -⟩
      · cases hw
      · cases hd
    show u ∈ Queues.link _ _ t k.list _ ↔ _
    rw [Queues.link_of_ne hhead]
    by_cases hut : u = t
    · subst hut
      refine iff_of_false (hk.absent rfl) fun hready => ?_
      rcases hh with ⟨-, hs⟩ | ⟨-, hs⟩
      · rw [hs] at hready
        cases hready.1
      · rw [hs] at hready
        cases hready.1
    · exact hk.ready (by simpa using Ne.symm hut)
  waiting := by
    intro u h' hh' hu
    rcases Queues.mem_link.mp hu with ⟨rfl, rfl⟩ | hu
    · rcases hh with ⟨-, hs⟩ | ⟨rfl, -⟩
      · exact hs
      · cases hh'
    · exact hk.waiting hh' hu
  defunct := by
    intro u hu
    rcases Queues.mem_link.mp hu with ⟨rfl, rfl⟩ | hu
    · rcases hh with ⟨hw, -⟩ | ⟨-, hs⟩
      · cases hw
      · exact hs
    · exact hk.defunct hu
  priority := hk.priority
  group := by
    intro p hp
    have hhead : ListHead.priorityTable p ≠ h := by
      rintro rfl
      rcases hh with ⟨hw, -⟩ | ⟨hd, -⟩
      · cases hw
      · cases hd
    show _ ↔ Queues.link _ _ t k.list _ ≠ []
    rw [Queues.link_of_ne hhead]
    exact hk.group hp

/-- A thread that sleeps is in no list. -/
theorem leave (hk : k.Lists (some t)) (ht : (k.thread t).stat ≠ .ready) : k.Lists none where
  linked := hk.linked
  absent := nofun
  ready := by
    intro u p _
    by_cases hut : u = t
    · subst hut
      exact iff_of_false (hk.absent rfl) fun hready => ht hready.1
    · exact hk.ready (by simpa using Ne.symm hut)
  waiting := hk.waiting
  defunct := hk.defunct
  priority := hk.priority
  group := hk.group

end Kernel.Lists

end Aclean.RtThread
