import Aclean.KernelLists

/-!
# What the kernel's steps do

One spec for each of the functions that move threads: the lists and timers
stay well formed (`Kernel.Sched`), and all but the thread that is moved is as
before (`Kernel.Quiet`).
-/

namespace Aclean.RtThread

/-- The timer list has the active timers, and only a sleeping thread's own is active;
the timer `out` is being moved. -/
structure Kernel.Timers (out : Option TimerId) (k : Kernel) : Prop where
  nodup : k.timerList.Nodup
  absent : ∀ {id}, out = some id → id ∉ k.timerList
  active : ∀ {id}, out ≠ some id → (id ∈ k.timerList ↔ (k.timer id).activated = true)
  asleep : ∀ {t}, .thread t ∈ k.timerList → (k.thread t).stat = .suspend

/-- Lists and timers are well formed, but for the timer `o` that is being moved. -/
structure Kernel.Sched (o : Option TimerId) (k : Kernel) : Prop where
  lists : k.Lists none
  timers : k.Timers o

/-- From `k` to `k'` no object and no thread's wait has changed, no thread has begun to
wait and none has gone to sleep but the one `out` names, for its list. -/
structure Kernel.Quiet (out : Option (Tid × ListHead)) (k k' : Kernel) : Prop where
  semaphore : k'.semaphore = k.semaphore
  mutex : k'.mutex = k.mutex
  event : k'.event = k.event
  waits : ∀ {t h}, h.Waiting → t ∈ k'.list h → t ∈ k.list h ∨ out = some (t, h)
  eventSet : ∀ t, (k'.thread t).eventSet = (k.thread t).eventSet
  eventInfo : ∀ t, (k'.thread t).eventInfo = (k.thread t).eventInfo
  initPriority : ∀ t, (k'.thread t).initPriority = (k.thread t).initPriority
  started : ∀ {t}, (k.thread t).stat ≠ .init → (k'.thread t).stat ≠ .init
  ready : ∀ {t}, (k.thread t).stat = .ready → (∀ h, out ≠ some (t, h)) →
    (k'.thread t).stat = .ready
  calls : k'.calls = k.calls

namespace Kernel

variable {k k' k'' : Kernel} {t u : Tid} {h : ListHead} {id : TimerId}
  {out : Option (Tid × ListHead)} {o : Option TimerId}

/-! ## Composition -/

theorem Quiet.trans (hk : k.Quiet none k') (hk' : k'.Quiet out k'') : k.Quiet out k'' where
  semaphore := hk'.semaphore.trans hk.semaphore
  mutex := hk'.mutex.trans hk.mutex
  event := hk'.event.trans hk.event
  waits := by
    intro t h hh ht
    rcases hk'.waits hh ht with ht | hout
    · rcases hk.waits hh ht with ht | hnone
      · exact .inl ht
      · cases hnone
    · exact .inr hout
  eventSet t := (hk'.eventSet t).trans (hk.eventSet t)
  eventInfo t := (hk'.eventInfo t).trans (hk.eventInfo t)
  initPriority t := (hk'.initPriority t).trans (hk.initPriority t)
  started ht := hk'.started (hk.started ht)
  ready ht hout := hk'.ready (hk.ready ht nofun) hout
  calls := hk'.calls.trans hk.calls

theorem Quiet.trans_right (hk : k.Quiet out k') (hk' : k'.Quiet none k'') : k.Quiet out k'' where
  semaphore := hk'.semaphore.trans hk.semaphore
  mutex := hk'.mutex.trans hk.mutex
  event := hk'.event.trans hk.event
  waits := by
    intro t h hh ht
    rcases hk'.waits hh ht with ht | hnone
    · exact hk.waits hh ht
    · cases hnone
  eventSet t := (hk'.eventSet t).trans (hk.eventSet t)
  eventInfo t := (hk'.eventInfo t).trans (hk.eventInfo t)
  initPriority t := (hk'.initPriority t).trans (hk.initPriority t)
  started ht := hk'.started (hk.started ht)
  ready ht hout := hk'.ready (hk.ready ht hout) nofun
  calls := hk'.calls.trans hk.calls

/-- Lists, threads and objects are the same. -/
theorem Quiet.same (hthread : k'.thread = k.thread) (hlist : k'.list = k.list)
    (hsem : k'.semaphore = k.semaphore) (hmutex : k'.mutex = k.mutex) (hevent : k'.event = k.event)
    (hcalls : k'.calls = k.calls) : k.Quiet none k' where
  semaphore := hsem
  mutex := hmutex
  event := hevent
  waits _ ht := .inl (hlist ▸ ht)
  eventSet _ := by rw [hthread]
  eventInfo _ := by rw [hthread]
  initPriority _ := by rw [hthread]
  started ht := by
    rw [hthread]
    exact ht
  ready ht _ := by
    rw [hthread]
    exact ht
  calls := hcalls

theorem Quiet.refl : k.Quiet none k := .same rfl rfl rfl rfl rfl rfl

/-- Only threads, timers, lists and the ready bits count. -/
theorem Sched.congr (hk : k.Sched o) (hlist : k'.list = k.list) (hthread : k'.thread = k.thread)
    (hgroup : k'.readyPriorityGroup = k.readyPriorityGroup) (htimer : k'.timer = k.timer)
    (htimers : k'.timerList = k.timerList) : k'.Sched o where
  lists := hk.lists.congr hlist hthread hgroup
  timers := {
    nodup := htimers ▸ hk.timers.nodup
    absent := fun ho => htimers ▸ hk.timers.absent ho
    active := by
      intro id hid
      rw [htimers, htimer]
      exact hk.timers.active hid
    asleep := by
      intro t ht
      rw [hthread]
      exact hk.timers.asleep (htimers ▸ ht) }

/-! ## The record of a thread -/

/-- Fields that the lists do not depend on. -/
theorem Lists.write {x : Option Tid} (hk : k.Lists x) {f : Thread → Thread}
    (hstat : (f (k.thread t)).stat = (k.thread t).stat)
    (hprio : (f (k.thread t)).currentPriority = (k.thread t).currentPriority)
    (hmask : (f (k.thread t)).numberMask = (k.thread t).numberMask) :
    (k.modify t f).Lists x := by
  have hs : ∀ u, ((k.modify t f).thread u).stat = (k.thread u).stat := by
    intro u
    by_cases hu : u = t
    · subst hu
      rw [modify_thread_self, hstat]
    · rw [modify_thread_of_ne hu]
  have hp : ∀ u, ((k.modify t f).thread u).currentPriority = (k.thread u).currentPriority := by
    intro u
    by_cases hu : u = t
    · subst hu
      rw [modify_thread_self, hprio]
    · rw [modify_thread_of_ne hu]
  have hm : ∀ u, ((k.modify t f).thread u).numberMask = (k.thread u).numberMask := by
    intro u
    by_cases hu : u = t
    · subst hu
      rw [modify_thread_self, hmask]
    · rw [modify_thread_of_ne hu]
  exact {
    linked := hk.linked
    absent := hk.absent
    ready := by
      intro u p hu
      rw [hs, hp]
      exact hk.ready hu
    waiting := by
      intro u h hh hu
      rw [hs]
      exact hk.waiting hh hu
    defunct := by
      intro u hu
      rw [hs]
      exact hk.defunct hu
    priority := by
      intro u hu
      rw [hs] at hu
      rw [hp, hm]
      exact hk.priority hu
    group := hk.group }

theorem Sched.write (hk : k.Sched o) {f : Thread → Thread}
    (hstat : (f (k.thread t)).stat = (k.thread t).stat)
    (hprio : (f (k.thread t)).currentPriority = (k.thread t).currentPriority)
    (hmask : (f (k.thread t)).numberMask = (k.thread t).numberMask) : (k.modify t f).Sched o where
  lists := hk.lists.write hstat hprio hmask
  timers := {
    nodup := hk.timers.nodup
    absent := hk.timers.absent
    active := hk.timers.active
    asleep := by
      intro u hu
      by_cases hut : u = t
      · subst hut
        rw [modify_thread_self, hstat]
        exact hk.timers.asleep hu
      · rw [modify_thread_of_ne hut]
        exact hk.timers.asleep hu }

/-- Fields that no wait depends on. -/
theorem quiet_modify {f : Thread → Thread}
    (hstat : (f (k.thread t)).stat = (k.thread t).stat)
    (hset : (f (k.thread t)).eventSet = (k.thread t).eventSet)
    (hinfo : (f (k.thread t)).eventInfo = (k.thread t).eventInfo)
    (hinit : (f (k.thread t)).initPriority = (k.thread t).initPriority) :
    k.Quiet none (k.modify t f) := by
  have hfield : ∀ {α : Type} (g : Thread → α), g (f (k.thread t)) = g (k.thread t) →
      ∀ u, g ((k.modify t f).thread u) = g (k.thread u) := by
    intro α g hg u
    by_cases hu : u = t
    · subst hu
      rw [modify_thread_self, hg]
    · rw [modify_thread_of_ne hu]
  exact {
    semaphore := rfl
    mutex := rfl
    event := rfl
    waits := fun _ ht => .inl ht
    eventSet := hfield _ hset
    eventInfo := hfield _ hinfo
    initPriority := hfield _ hinit
    started := fun {u} hu => by
      rw [hfield Thread.stat hstat u]
      exact hu
    ready := fun {u} hu _ => by
      rw [hfield Thread.stat hstat u]
      exact hu
    calls := rfl }

/-! ## Timers -/

theorem rtTimerStop_idle (hid : (k.timer id).activated = false) : k.rtTimerStop id = k := by
  unfold rtTimerStop
  rw [if_neg (by simp [hid])]

theorem Timers.stop (hk : k.Timers o) : (k.rtTimerStop id).Timers o := by
  unfold rtTimerStop
  split
  · exact {
      nodup := hk.nodup.erase id
      absent := fun ho hmem => hk.absent ho (List.mem_of_mem_erase hmem)
      active := by
        intro id' ho
        refine (hk.nodup.mem_erase_iff).trans ?_
        by_cases hid : id' = id
        · subst hid
          simp
        · simp [hid, hk.active ho]
      asleep := fun ht => hk.asleep (List.mem_of_mem_erase ht) }
  · exact hk

/-- A timer that is stopped is not in the list. -/
theorem Timers.stop_not_mem (hk : k.Timers o) (ho : o ≠ some id) : id ∉ (k.rtTimerStop id).timerList := by
  unfold rtTimerStop
  split
  · exact fun hmem => (hk.nodup.mem_erase_iff.mp hmem).1 rfl
  · next hoff => exact fun hmem => hoff ((hk.active ho).mp hmem)

theorem Timers.start {time : UInt32} (hk : k.Timers none)
    (ht : ∀ t, id = .thread t → (k.thread t).stat = .suspend) :
    (k.rtTimerStart id time).Timers none where
  nodup := Queues.nodup_insertBefore (hk.nodup.erase id) hk.nodup.not_mem_erase
  absent := nofun
  active := by
    intro id' _
    refine Queues.mem_insertBefore.trans ?_
    by_cases hid : id' = id
    · subst hid
      simp [rtTimerStart]
    · rw [hk.nodup.mem_erase_iff, hk.active nofun]
      simp [rtTimerStart, hid]
  asleep := by
    intro t hmem
    rcases Queues.mem_insertBefore.mp hmem with heq | hmem
    · exact ht t heq.symm
    · exact hk.asleep (List.mem_of_mem_erase hmem)

theorem Sched.stop (hk : k.Sched o) : (k.rtTimerStop id).Sched o where
  lists := hk.lists.congr (rtTimerStop_list id) (rtTimerStop_thread id) (rtTimerStop_group id)
  timers := hk.timers.stop

theorem Sched.start {time : UInt32} (hk : k.Sched none)
    (ht : ∀ t, id = .thread t → (k.thread t).stat = .suspend) :
    (k.rtTimerStart id time).Sched none where
  lists := hk.lists.congr rfl rfl rfl
  timers := hk.timers.start ht

theorem quiet_stop : k.Quiet none (k.rtTimerStop id) := by
  unfold rtTimerStop
  split
  · exact .same rfl rfl rfl rfl rfl rfl
  · exact .refl

theorem quiet_start {time : UInt32} : k.Quiet none (k.rtTimerStart id time) :=
  .same rfl rfl rfl rfl rfl rfl

/-! ## Threads -/

/-- A ready thread's own timer is not running. -/
theorem Sched.timer_idle (hk : k.Sched none) (ht : (k.thread t).stat = .ready) :
    (k.timer (.thread t)).activated = false := by
  refine Bool.eq_false_iff.mpr fun hactive => ?_
  have hasleep := hk.timers.asleep ((hk.timers.active nofun).mpr hactive)
  rw [ht] at hasleep
  cases hasleep

/-- What `rt_thread_suspend` does to a ready thread. -/
theorem rtThreadSuspend_eq (hk : k.Sched none) (ht : (k.thread t).stat = .ready) :
    k.rtThreadSuspend t =
      (k.rtScheduleRemoveThread t).modify t fun x => { x with stat := .suspend } := by
  rw [rtThreadSuspend, if_neg (by rw [ht]; nofun), remove_modify rfl rfl, rtTimerStop_idle]
  exact hk.timer_idle ht

theorem Lists.suspend (hk : k.Sched none) (ht : (k.thread t).stat = .ready) :
    (k.rtThreadSuspend t).Lists (some t) := by
  rw [rtThreadSuspend_eq hk ht]
  refine (hk.lists.remove ht).modify fun _ => ?_
  exact hk.lists.priority (by rw [ht]; nofun)

theorem Timers.suspend (hk : k.Sched none) (ht : (k.thread t).stat = .ready) :
    (k.rtThreadSuspend t).Timers none := by
  rw [rtThreadSuspend_eq hk ht]
  exact {
    nodup := hk.timers.nodup
    absent := nofun
    active := hk.timers.active
    asleep := by
      intro u hu
      by_cases hut : u = t
      · subst hut
        rw [modify_thread_self]
      · rw [modify_thread_of_ne hut]
        exact hk.timers.asleep hu }

theorem suspend_stat (hk : k.Sched none) (ht : (k.thread t).stat = .ready) :
    ((k.rtThreadSuspend t).thread t).stat = .suspend := by
  rw [rtThreadSuspend_eq hk ht, modify_thread_self]

/-- A thread goes to sleep: `h` is where it will wait. -/
theorem quiet_suspend (h : ListHead) : k.Quiet (some (t, h)) (k.rtThreadSuspend t) := by
  unfold rtThreadSuspend
  split
  · have hrefl : k.Quiet none k := .refl
    exact { hrefl with
      waits := fun _ ht => .inl ht
      ready := fun ht _ => ht }
  · have hfield : ∀ {α : Type} (g : Thread → α),
        g { k.thread t with stat := .suspend } = g (k.thread t) → ∀ u,
        g ((k.modify t fun x => { x with stat := .suspend }).thread u) = g (k.thread u) := by
      intro α g hg u
      by_cases hu : u = t
      · subst hu
        rw [modify_thread_self, hg]
      · rw [modify_thread_of_ne hu]
    have hremoved : k.Quiet (some (t, h)) ((k.modify t fun x =>
        { x with stat := .suspend }).rtScheduleRemoveThread t) := {
      semaphore := rfl
      mutex := rfl
      event := rfl
      waits := fun _ ht => .inl (Queues.unlink_subset _ ht)
      eventSet := hfield Thread.eventSet rfl
      eventInfo := hfield Thread.eventInfo rfl
      initPriority := hfield Thread.initPriority rfl
      started := fun {u} hu => by
        rw [removeThread_thread]
        by_cases hut : u = t
        · subst hut
          rw [modify_thread_self]
          nofun
        · rwa [modify_thread_of_ne hut]
      ready := fun {u} hu hout => by
        rwa [removeThread_thread, modify_thread_of_ne fun hut : u = t => hout h (hut ▸ rfl)]
      calls := rfl }
    exact hremoved.trans_right quiet_stop

/-- A thread enters the ready lists. -/
theorem quiet_insert : k.Quiet none (k.rtScheduleInsertThread t) where
  semaphore := rfl
  mutex := rfl
  event := rfl
  waits := by
    intro u h hh hu
    rcases mem_insertThread.mp hu with ⟨rfl, rfl⟩ | hu
    · cases hh
    · exact .inl hu
  eventSet u := by
    by_cases hut : u = t
    · subst hut
      rw [insertThread_self]
    · rw [insertThread_of_ne hut]
  eventInfo u := by
    by_cases hut : u = t
    · subst hut
      rw [insertThread_self]
    · rw [insertThread_of_ne hut]
  initPriority u := by
    by_cases hut : u = t
    · subst hut
      rw [insertThread_self]
    · rw [insertThread_of_ne hut]
  started {u} hu := by
    by_cases hut : u = t
    · subst hut
      rw [insertThread_self]
      nofun
    · rwa [insertThread_of_ne hut]
  ready {u} hu _ := by
    by_cases hut : u = t
    · subst hut
      rw [insertThread_self]
    · rwa [insertThread_of_ne hut]
  calls := rfl

theorem quiet_unlink : k.Quiet none { k with list := Queues.unlink t k.list } where
  semaphore := rfl
  mutex := rfl
  event := rfl
  waits _ ht := .inl (Queues.unlink_subset _ ht)
  eventSet _ := rfl
  eventInfo _ := rfl
  initPriority _ := rfl
  started ht := ht
  ready ht _ := ht
  calls := rfl

theorem quiet_remove : k.Quiet none (k.rtScheduleRemoveThread t) where
  semaphore := rfl
  mutex := rfl
  event := rfl
  waits _ ht := .inl (Queues.unlink_subset _ ht)
  eventSet _ := rfl
  eventInfo _ := rfl
  initPriority _ := rfl
  started ht := ht
  ready ht _ := ht
  calls := rfl

/-! ### A thread is woken -/

theorem Sched.resume (hk : k.Sched o) (ho : o ≠ some (.thread t)) :
    (k.rtThreadResume t).Sched o := by
  unfold rtThreadResume
  split
  · exact hk
  · next hs =>
    have hsuspend : (k.thread t).stat = .suspend := not_not.mp hs
    have hlists := (hk.lists.unlink (t := t) (by rw [hsuspend]; nofun)).congr
      (rtTimerStop_list (.thread t)) (rtTimerStop_thread (.thread t)) (rtTimerStop_group (.thread t))
    have hunlinked : Timers o { k with list := Queues.unlink t k.list } :=
      ⟨hk.timers.nodup, hk.timers.absent, hk.timers.active, hk.timers.asleep⟩
    have htimers : Timers o (rtTimerStop (.thread t) { k with list := Queues.unlink t k.list }) :=
      hunlinked.stop
    have hstopped := hunlinked.stop_not_mem ho
    refine ⟨hlists.insert ?_, ?_⟩
    · rw [rtTimerStop_thread]
      change (k.thread t).stat ≠ .init
      rw [hsuspend]
      nofun
    · exact {
        nodup := htimers.nodup
        absent := htimers.absent
        active := htimers.active
        asleep := by
          intro u hu
          by_cases hut : u = t
          · subst hut
            exact absurd hu hstopped
          · rw [insertThread_of_ne hut]
            exact htimers.asleep hu }

theorem quiet_resume : k.Quiet none (k.rtThreadResume t) := by
  unfold rtThreadResume
  split
  · exact .refl
  · exact (quiet_unlink.trans quiet_stop).trans quiet_insert

/-! ### A priority is changed -/

theorem Sched.control {p : Nat} (hk : k.Sched none) (hp : p < rtThreadPriorityMax)
    (ht : (k.thread t).stat ≠ .init) : (k.rtThreadControl t p).Sched none := by
  unfold rtThreadControl
  split
  · next hready =>
    have hlists := (hk.lists.remove hready).modify (f := fun x =>
      { x with currentPriority := p, numberMask := 1#32 <<< p }) fun _ => ⟨hp, rfl⟩
    refine ⟨hlists.insert ?_, ?_⟩
    · rw [modify_thread_self]
      exact ht
    · exact {
        nodup := hk.timers.nodup
        absent := nofun
        active := hk.timers.active
        asleep := by
          intro u hu
          have hasleep := hk.timers.asleep hu
          by_cases hut : u = t
          · subst hut
            rw [hready] at hasleep
            cases hasleep
          · rw [insertThread_of_ne hut, modify_thread_of_ne hut]
            exact hasleep }
  · next hready =>
    have hstat : ∀ u, ((k.modify t fun x =>
        { x with currentPriority := p, numberMask := 1#32 <<< p }).thread u).stat =
        (k.thread u).stat := by
      intro u
      by_cases hut : u = t
      · subst hut
        rw [modify_thread_self]
      · rw [modify_thread_of_ne hut]
    exact {
      lists := {
        linked := hk.lists.linked
        absent := nofun
        ready := by
          intro u q _
          rw [hstat]
          refine (hk.lists.ready nofun).trans ?_
          by_cases hut : u = t
          · subst hut
            exact iff_of_false (fun h => hready h.1) (fun h => hready h.1)
          · rw [modify_thread_of_ne hut]
        waiting := by
          intro u h hh hu
          rw [hstat]
          exact hk.lists.waiting hh hu
        defunct := by
          intro u hu
          rw [hstat]
          exact hk.lists.defunct hu
        priority := by
          intro u hu
          rw [hstat] at hu
          by_cases hut : u = t
          · subst hut
            rw [modify_thread_self]
            exact ⟨hp, rfl⟩
          · rw [modify_thread_of_ne hut]
            exact hk.lists.priority hu
        group := hk.lists.group }
      timers := {
        nodup := hk.timers.nodup
        absent := nofun
        active := hk.timers.active
        asleep := by
          intro u hu
          rw [hstat]
          exact hk.timers.asleep hu } }

theorem quiet_control {p : Nat} : k.Quiet none (k.rtThreadControl t p) := by
  unfold rtThreadControl
  split
  · exact (quiet_remove.trans (quiet_modify rfl rfl rfl rfl)).trans quiet_insert
  · exact quiet_modify rfl rfl rfl rfl

/-- A change of priority moves a thread among the ready lists only. -/
theorem control_waiting {p : Nat} {h : ListHead} (hk : k.Sched none) (hh : h.Waiting) :
    (k.rtThreadControl t p).list h = k.list h := by
  unfold rtThreadControl
  dsimp only
  split
  · next hready =>
    have hout : t ∉ k.list h := fun hmem => by
      rw [hk.lists.waiting hh hmem] at hready
      cases hready
    have hne : ∀ q, h ≠ .priorityTable q := by
      rintro q rfl
      cases hh
    exact (Queues.link_of_ne (hne _)).trans (Queues.unlink_of_not_mem hout)
  · rfl

/-! ### The scheduler -/

theorem rtSchedule_same :
    k.rtSchedule.thread = k.thread ∧ k.rtSchedule.list = k.list ∧ k.rtSchedule.timer = k.timer ∧
      k.rtSchedule.timerList = k.timerList ∧
      k.rtSchedule.readyPriorityGroup = k.readyPriorityGroup ∧
      k.rtSchedule.semaphore = k.semaphore ∧ k.rtSchedule.mutex = k.mutex ∧
      k.rtSchedule.event = k.event ∧ k.rtSchedule.calls = k.calls ∧ k.rtSchedule.tick = k.tick := by
  unfold rtSchedule
  split <;> exact ⟨rfl, rfl, rfl, rfl, rfl, rfl, rfl, rfl, rfl, rfl⟩

theorem Sched.schedule (hk : k.Sched o) : k.rtSchedule.Sched o := by
  obtain ⟨hthread, hlist, htimer, htimers, hgroup, -⟩ := k.rtSchedule_same
  exact hk.congr hlist hthread hgroup htimer htimers

theorem quiet_schedule : k.Quiet none k.rtSchedule := by
  obtain ⟨hthread, hlist, -, -, -, hsem, hmutex, hevent, hcalls, -⟩ := k.rtSchedule_same
  exact .same hthread hlist hsem hmutex hevent hcalls

/-- The table has the place of the lowest bit. -/
theorem lowestBitBitmap_spec : ∀ i : Fin 256, i ≠ 0 →
    (i : Nat).testBit (lowestBitBitmap.getD i 0) = true ∧
      ∀ q < lowestBitBitmap.getD i 0, (i : Nat).testBit q = false := by
  decide +kernel

/-- The byte that a turn of `__rt_ffs` looks at. -/
theorem byte_testBit {value mask : BitVec 32} {s : Nat}
    (hmask : ∀ q < 32, mask.getLsbD q = decide (s ≤ q ∧ q < s + 8)) (q : Nat) :
    ((value &&& mask) >>> s).toNat.testBit q = (decide (q < 8) && value.getLsbD (s + q)) := by
  rw [BitVec.testBit_toNat, BitVec.getLsbD_ushiftRight, BitVec.getLsbD_and]
  by_cases hq : s + q < 32
  · rw [hmask _ hq, Bool.and_comm]
    congr 1
    exact decide_eq_decide.mpr (by omega)
  · rw [BitVec.getLsbD_of_ge value _ (by omega)]
    simp

theorem byte_lt {value mask : BitVec 32} {s : Nat}
    (hmask : ∀ q < 32, mask.getLsbD q = decide (s ≤ q ∧ q < s + 8)) :
    ((value &&& mask) >>> s).toNat < 256 := by
  refine Nat.lt_pow_two_of_testBit (n := 8) _ fun q hq => ?_
  rw [byte_testBit hmask, decide_eq_false (by omega), Bool.false_and]

/-- `p` is the lowest bit of `value`. -/
def Lowest (value : BitVec 32) (p : Nat) : Prop :=
  value.getLsbD p = true ∧ ∀ q < p, value.getLsbD q = false

theorem lowest_byte {value mask : BitVec 32} {s : Nat}
    (hmask : ∀ q < 32, mask.getLsbD q = decide (s ≤ q ∧ q < s + 8))
    (hlow : ∀ q < s, value.getLsbD q = false) (hne : value &&& mask ≠ 0) :
    Lowest value (s + lowestBitBitmap.getD ((value &&& mask) >>> s).toNat 0) := by
  have hbyte : ((value &&& mask) >>> s).toNat ≠ 0 := by
    intro hzero
    refine hne (BitVec.eq_of_getLsbD_eq fun q hq => ?_)
    have hbit := congrArg (fun n => n.testBit (q - s)) hzero
    rw [byte_testBit hmask, Nat.zero_testBit] at hbit
    rw [BitVec.getLsbD_and, hmask q hq]
    by_cases hin : s ≤ q ∧ q < s + 8
    · rw [decide_eq_true (show q - s < 8 by omega), Nat.add_sub_cancel' hin.1, Bool.true_and] at hbit
      rw [hbit]
      simp
    · rw [decide_eq_false hin]
      simp
  obtain ⟨hbit, hbelow⟩ := lowestBitBitmap_spec ⟨_, byte_lt hmask⟩
    (by simpa [Fin.ext_iff] using hbyte)
  rw [byte_testBit hmask, Bool.and_eq_true, decide_eq_true_eq] at hbit
  refine ⟨hbit.2, fun q hq => ?_⟩
  by_cases hsq : q < s
  · exact hlow q hsq
  · have hplace : lowestBitBitmap.getD ((value &&& mask) >>> s).toNat 0 < 8 := hbit.1
    have hin : q - s < lowestBitBitmap.getD ((value &&& mask) >>> s).toNat 0 := by omega
    have hclear := hbelow (q - s) hin
    rw [byte_testBit hmask, decide_eq_true (Nat.lt_trans hin hplace), Bool.true_and,
      Nat.add_sub_cancel' (by omega)] at hclear
    exact hclear

theorem clear_below {value mask : BitVec 32} {s : Nat}
    (hmask : ∀ q < 32, mask.getLsbD q = decide (s ≤ q ∧ q < s + 8)) (hs : s + 8 ≤ 32)
    (hlow : ∀ q < s, value.getLsbD q = false) (hzero : value &&& mask = 0) :
    ∀ q < s + 8, value.getLsbD q = false := by
  intro q hq
  by_cases hsq : q < s
  · exact hlow q hsq
  · have hbit := congrArg (fun x => x.getLsbD q) hzero
    rw [BitVec.getLsbD_and, hmask q (by omega), decide_eq_true (by omega), Bool.and_true] at hbit
    simpa using hbit

/-- `__rt_ffs` finds the lowest bit. -/
theorem rtFfs_lowest {value : BitVec 32} (hne : value ≠ 0) : Lowest value (rtFfs value - 1) := by
  have h0 : ∀ q < 32, (0xff#32).getLsbD q = decide (0 ≤ q ∧ q < 0 + 8) := by decide
  have h1 : ∀ q < 32, (0xff00#32).getLsbD q = decide (8 ≤ q ∧ q < 8 + 8) := by decide
  have h2 : ∀ q < 32, (0xff0000#32).getLsbD q = decide (16 ≤ q ∧ q < 16 + 8) := by decide
  have h3 : ∀ q < 32, (0xff000000#32).getLsbD q = decide (24 ≤ q ∧ q < 24 + 8) := by decide
  unfold rtFfs
  rw [if_neg hne]
  split
  · next hbyte =>
    have := lowest_byte h0 (fun q hq => absurd hq (Nat.not_lt_zero q)) hbyte
    simpa using this
  · next hbyte =>
    have hlow0 := clear_below h0 (by decide) (fun q hq => absurd hq (Nat.not_lt_zero q))
      (not_not.mp hbyte)
    split
    · next hbyte =>
      have := lowest_byte h1 hlow0 hbyte
      rwa [Nat.add_comm] at this
    · next hbyte =>
      have hlow1 := clear_below h1 (by decide) hlow0 (not_not.mp hbyte)
      split
      · next hbyte =>
        have := lowest_byte h2 hlow1 hbyte
        rwa [Nat.add_comm] at this
      · next hbyte =>
        have hlow2 := clear_below h2 (by decide) hlow1 (not_not.mp hbyte)
        have hbyte3 : value &&& 0xff000000#32 ≠ 0 := by
          intro hzero
          have hlow3 := clear_below h3 (by decide) hlow2 hzero
          exact hne (BitVec.eq_of_getLsbD_eq fun q hq => by simpa using hlow3 q hq)
        have := lowest_byte h3 hlow2 hbyte3
        rwa [Nat.add_comm] at this
/-- `t` is the first of the most urgent ready threads. -/
def First (k : Kernel) (t : Tid) : Prop :=
  ∃ p, (k.list (.priorityTable p)).head? = some t ∧ ∀ q < p, k.list (.priorityTable q) = []

theorem First.ready (hk : k.Lists none) (ht : k.First t) : (k.thread t).stat = .ready := by
  obtain ⟨p, hhead, -⟩ := ht
  exact ((hk.ready nofun).mp (List.mem_of_mem_head? hhead)).1

/-- The thread that `rt_schedule` lets run. -/
theorem schedule_first (hk : k.Lists none) (hu : (k.thread u).stat = .ready) :
    k.First k.rtSchedule.currentThread := by
  have hmem := (hk.ready (t := u) (p := (k.thread u).currentPriority) nofun).mpr ⟨hu, rfl⟩
  have hprio := (hk.priority (t := u) (by rw [hu]; nofun)).1
  have hne : k.readyPriorityGroup ≠ 0 := by
    intro hzero
    have hbit := (hk.group hprio).mpr (List.ne_nil_of_mem hmem)
    rw [hzero] at hbit
    simp at hbit
  obtain ⟨hbit, hbelow⟩ := rtFfs_lowest hne
  have hlt : rtFfs k.readyPriorityGroup - 1 < rtThreadPriorityMax := by
    refine Nat.lt_of_not_le fun hge => ?_
    have hout := BitVec.getLsbD_of_ge k.readyPriorityGroup _ hge
    rw [hout] at hbit
    cases hbit
  obtain ⟨t, ts, hlist⟩ := List.exists_cons_of_ne_nil ((hk.group hlt).mp hbit)
  have hcurrent : k.rtSchedule.currentThread = t := by
    rw [rtSchedule, hlist]
    rfl
  refine ⟨_, by rw [hlist, hcurrent]; rfl, fun q hq => ?_⟩
  have hclear := (hk.group (Nat.lt_trans hq hlt)).not.mp (by rw [hbelow q hq]; nofun)
  exact not_not.mp hclear

/-! ### A thread gives way, starts, ends or sleeps -/

/-- A list whose members are the same in another order. -/
theorem Lists.reorder (hk : k.Lists none) {list : ListHead → List Tid}
    (hlinked : Queues.Linked list) (hmem : ∀ u h, u ∈ list h ↔ u ∈ k.list h) :
    Lists none { k with list := list } where
  linked := hlinked
  absent := nofun
  ready ho := (hmem _ _).trans (hk.ready ho)
  waiting hh hu := hk.waiting hh ((hmem _ _).mp hu)
  defunct hu := hk.defunct ((hmem _ _).mp hu)
  priority := hk.priority
  group {p} hp := by
    have hnil : list (.priorityTable p) = [] ↔ k.list (.priorityTable p) = [] := by
      rw [List.eq_nil_iff_forall_not_mem, List.eq_nil_iff_forall_not_mem]
      exact forall_congr' fun u => not_congr (hmem u _)
    exact (hk.group hp).trans (not_congr hnil).symm

theorem yield_mem (hk : k.Sched none) {k' : Kernel} (h : k.rtThreadYield = some k') :
    Queues.Linked k'.list ∧ (∀ u h, u ∈ k'.list h ↔ u ∈ k.list h) ∧
      k' = { k with list := k'.list } := by
  unfold rtThreadYield at h
  dsimp only at h
  split at h
  · next hready =>
    obtain rfl := Option.some.inj h
    have hmem := (hk.lists.ready (t := k.currentThread)
      (p := (k.thread k.currentThread).currentPriority) (Option.some_ne_none _).symm).mpr
      ⟨hready.1, rfl⟩
    refine ⟨(hk.lists.linked.unlink _).link fun h hmem' =>
      (hk.lists.linked.mem_unlink.mp hmem').1 rfl, fun u h => ?_, rfl⟩
    rw [Queues.mem_link, hk.lists.linked.mem_unlink]
    constructor
    · rintro (⟨rfl, rfl⟩ | ⟨-, hu⟩)
      · exact hmem
      · exact hu
    · intro hu
      by_cases hut : u = k.currentThread
      · subst hut
        exact .inl ⟨rfl, hk.lists.linked.once hu hmem⟩
      · exact .inr ⟨hut, hu⟩
  · cases h

theorem Sched.yield (hk : k.Sched none) {k' : Kernel} (h : k.rtThreadYield = some k') :
    k'.Sched none := by
  obtain ⟨hlinked, hmem, heq⟩ := yield_mem hk h
  rw [heq]
  exact ⟨hk.lists.reorder hlinked hmem, ⟨hk.timers.nodup, nofun, hk.timers.active, hk.timers.asleep⟩⟩

theorem quiet_yield (hk : k.Sched none) {k' : Kernel} (h : k.rtThreadYield = some k') :
    k.Quiet none k' := by
  obtain ⟨-, hmem, heq⟩ := yield_mem hk h
  rw [heq]
  have hrefl : k.Quiet none k := .refl
  exact { hrefl with
    waits := fun _ ht => .inl ((hmem _ _).mp ht)
    started := fun ht => ht
    ready := fun ht _ => ht }

/-- A thread that was only initialised is in no list. -/
theorem Lists.initial (hk : k.Lists none) (ht : (k.thread t).stat = .init) : k.Lists (some t) where
  linked := hk.linked
  absent := by
    rintro u h ⟨⟩ hu
    cases h with
    | priorityTable p =>
      have hready := ((hk.ready nofun).mp hu).1
      rw [ht] at hready
      cases hready
    | defunct =>
      have hclose := hk.defunct hu
      rw [ht] at hclose
      cases hclose
    | semaphore i | mutex i | event i =>
      have hsuspend := hk.waiting (by trivial) hu
      rw [ht] at hsuspend
      cases hsuspend
  ready _ := hk.ready nofun
  waiting := hk.waiting
  defunct := hk.defunct
  priority := hk.priority
  group := hk.group

theorem Sched.startup (hk : k.Sched none) (ht : (k.thread t).stat = .init)
    (hp : (k.thread t).initPriority < rtThreadPriorityMax) : (k.rtThreadStartup t).Sched none := by
  unfold rtThreadStartup
  refine Sched.resume ⟨?_, ?_⟩ nofun
  · refine ((hk.lists.initial ht).modify fun _ => ⟨hp, rfl⟩).leave ?_
    rw [modify_thread_self]
    nofun
  · exact {
      nodup := hk.timers.nodup
      absent := nofun
      active := hk.timers.active
      asleep := by
        intro u hu
        by_cases hut : u = t
        · subst hut
          rw [modify_thread_self]
        · rw [modify_thread_of_ne hut]
          exact hk.timers.asleep hu }

theorem quiet_startup (ht : (k.thread t).stat = .init) : k.Quiet none (k.rtThreadStartup t) := by
  refine Quiet.trans ?_ quiet_resume
  have hfield : ∀ {α : Type} (g : Thread → α) (f : Thread → Thread),
      g (f (k.thread t)) = g (k.thread t) → ∀ u, g ((k.modify t f).thread u) = g (k.thread u) := by
    intro α g f hg u
    by_cases hu : u = t
    · subst hu
      rw [modify_thread_self, hg]
    · rw [modify_thread_of_ne hu]
  exact {
    semaphore := rfl
    mutex := rfl
    event := rfl
    waits := fun _ ht => .inl ht
    eventSet := hfield Thread.eventSet _ rfl
    eventInfo := hfield Thread.eventInfo _ rfl
    initPriority := hfield Thread.initPriority _ rfl
    started := fun {u} hu => by
      by_cases hut : u = t
      · subst hut
        exact absurd ht hu
      · rwa [modify_thread_of_ne hut]
    ready := fun {u} hu _ => by
      by_cases hut : u = t
      · subst hut
        rw [ht] at hu
        cases hu
      · rwa [modify_thread_of_ne hut]
    calls := rfl }

theorem exit_stat : (k.rtThreadExit.thread k.currentThread).stat = .close := by
  simp [rtThreadExit]

theorem exit_of_ne (hu : u ≠ k.currentThread) : k.rtThreadExit.thread u = k.thread u :=
  Function.update_of_ne hu _ _

theorem Sched.exit (hk : k.Sched none) (ht : (k.thread k.currentThread).stat = .ready) :
    k.rtThreadExit.Sched none := by
  have hlists := (hk.lists.remove ht).modify (f := fun x => { x with stat := .close }) fun _ =>
    hk.lists.priority (t := k.currentThread) (by rw [ht]; nofun)
  have hidle : .thread k.currentThread ∉ k.timerList := fun hmem => by
    have hasleep := hk.timers.asleep hmem
    rw [ht] at hasleep
    cases hasleep
  constructor
  · refine (hlists.link (fun _ => true) .defunct (.inr ⟨rfl, ?_⟩)).congr rfl rfl rfl
    rw [modify_thread_self]
  · have hsame : k.timerList.erase (.thread k.currentThread) = k.timerList :=
      List.erase_of_not_mem hidle
    exact {
      nodup := hk.timers.nodup.erase _
      absent := nofun
      active := by
        intro id hid
        change id ∈ k.timerList.erase _ ↔ _
        rw [hsame]
        exact hk.timers.active hid
      asleep := by
        intro u hu
        change .thread u ∈ k.timerList.erase _ at hu
        rw [hsame] at hu
        rw [exit_of_ne fun hut : u = k.currentThread => hidle (hut ▸ hu)]
        exact hk.timers.asleep hu }

theorem quiet_exit : k.Quiet (some (k.currentThread, .defunct)) k.rtThreadExit := by
  have hfield : ∀ {α : Type} (g : Thread → α),
      g { k.thread k.currentThread with stat := .close } = g (k.thread k.currentThread) →
      ∀ u, g (k.rtThreadExit.thread u) = g (k.thread u) := by
    intro α g hg u
    by_cases hu : u = k.currentThread
    · subst hu
      exact (congrArg g (Function.update_self _ _ _)).trans hg
    · rw [exit_of_ne hu]
  exact {
    semaphore := rfl
    mutex := rfl
    event := rfl
    waits := by
      intro u h hh hu
      rcases Queues.mem_link.mp hu with ⟨-, rfl⟩ | hu
      · cases hh
      · exact .inl (Queues.unlink_subset _ hu)
    eventSet := hfield Thread.eventSet rfl
    eventInfo := hfield Thread.eventInfo rfl
    initPriority := hfield Thread.initPriority rfl
    started := fun {u} hu => by
      by_cases hut : u = k.currentThread
      · subst hut
        rw [exit_stat]
        nofun
      · rwa [exit_of_ne hut]
    ready := fun {u} hu hout => by
      rwa [exit_of_ne fun hut : u = k.currentThread => hout .defunct (by rw [hut])]
    calls := rfl }

theorem Sched.sleep {time : UInt32} (hk : k.Sched none)
    (ht : (k.thread k.currentThread).stat = .ready) : (k.rtThreadSleep time).Sched none := by
  have hstat := suspend_stat hk ht
  refine Sched.start ⟨(Lists.suspend hk ht).leave ?_, Timers.suspend hk ht⟩ ?_
  · rw [hstat]
    nofun
  · rintro u ⟨⟩
    exact hstat

theorem quiet_sleep {time : UInt32} :
    k.Quiet (some (k.currentThread, .defunct)) (k.rtThreadSleep time) :=
  (quiet_suspend .defunct).trans_right quiet_start

/-! ### A thread waits -/

theorem Sched.wait (h : ListHead) (flag : IpcFlag) (time : Int) (hk : k.Sched none)
    (ht : (k.thread k.currentThread).stat = .ready) (hh : h.Waiting) :
    (k.waitOn h flag time).Sched none := by
  have hstat := suspend_stat hk ht
  have hlisted : (k.rtIpcListSuspend h k.currentThread flag).Sched none :=
    ⟨(Lists.suspend hk ht).link _ _ (.inl ⟨hh, hstat⟩),
      ⟨(Timers.suspend hk ht).nodup, nofun, (Timers.suspend hk ht).active,
        (Timers.suspend hk ht).asleep⟩⟩
  unfold waitOn
  dsimp only
  split
  · refine hlisted.start ?_
    rintro u ⟨⟩
    exact hstat
  · exact hlisted

theorem quiet_wait {flag : IpcFlag} {time : Int} :
    k.Quiet (some (k.currentThread, h)) (k.waitOn h flag time) := by
  have hsuspended := k.quiet_suspend (t := k.currentThread) h
  have hlisted : k.Quiet (some (k.currentThread, h))
      (k.rtIpcListSuspend h k.currentThread flag) := { hsuspended with
    waits := by
      intro u h' hh' hu
      rcases Queues.mem_link.mp hu with ⟨rfl, rfl⟩ | hu
      · exact .inr rfl
      · exact hsuspended.waits hh' hu
    started := hsuspended.started
    ready := hsuspended.ready }
  unfold waitOn
  dsimp only
  split
  · exact hlisted.trans_right quiet_start
  · exact hlisted

/-! ### A wait ends -/

theorem listResume_head (ht : (k.list h).head? = some t) :
    k.rtIpcListResume h = k.rtThreadResume t := by
  unfold rtIpcListResume
  rw [ht]

theorem Sched.listResume (hk : k.Sched o) (ho : ∀ t, o ≠ some (.thread t)) :
    (k.rtIpcListResume h).Sched o := by
  unfold rtIpcListResume
  split
  · exact hk.resume (ho _)
  · exact hk

theorem quiet_listResume : k.Quiet none (k.rtIpcListResume h) := by
  unfold rtIpcListResume
  split
  · exact quiet_resume
  · exact .refl

/-- A wait that has timed out, the thread's timer being off its list. -/
theorem Sched.timeout (hk : k.Sched (some (.thread t))) (ht : (k.thread t).stat = .suspend) :
    (k.rtThreadTimeout t).Sched (some (.thread t)) := by
  have hwritten := hk.lists.write (t := t) (f := fun x => { x with error := .etimeout }) rfl rfl rfl
  have hstat : ((k.modify t fun x => { x with error := .etimeout }).thread t).stat = .suspend := by
    rw [modify_thread_self]
    exact ht
  have hunlinked := hwritten.unlink (t := t) (by rw [hstat]; nofun)
  refine Sched.schedule ⟨hunlinked.insert ?_, ?_⟩
  · exact fun hinit => nomatch hstat.symm.trans hinit
  · exact {
      nodup := hk.timers.nodup
      absent := hk.timers.absent
      active := hk.timers.active
      asleep := by
        intro u hu
        have hut : u ≠ t := fun hut => hk.timers.absent rfl (hut ▸ hu)
        have hsame : (k.modify t fun x => { x with error := .etimeout }).thread u = k.thread u :=
          modify_thread_of_ne hut _
        rw [insertThread_of_ne hut]
        exact (congrArg Thread.stat hsame).trans (hk.timers.asleep hu) }

theorem quiet_timeout : k.Quiet none (k.rtThreadTimeout t) := by
  have hwritten : k.Quiet none (k.modify t fun x => { x with error := .etimeout }) :=
    quiet_modify rfl rfl rfl rfl
  exact ((hwritten.trans quiet_unlink).trans quiet_insert).trans quiet_schedule

end Kernel

end Aclean.RtThread
