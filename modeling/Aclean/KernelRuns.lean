import Aclean.KernelSteps

/-!
# Runs of the kernel

A run is any interleaving of the calls of the thread that is running, of its
calls of `rt_schedule`, and of interrupts. From the start of the scheduler on
every state of every run is in order (`ok_of_reaches`): lists, ready bits and
timers agree with the threads' records, no thread waits for an object that is
there to be taken, and a mutex is held by a thread that does not wait for it.
-/

namespace Aclean.RtThread

/-! ## Objects -/

/-- What a thread may begin to wait for. -/
def Kernel.MayWait (k : Kernel) (t : Tid) : ListHead → Prop
  | .semaphore i => (k.semaphore i).value = 0
  | .mutex i => ∃ u, u ≠ t ∧ (k.mutex i).owner = some u
  | .event i => received (k.thread t).eventInfo (k.thread t).eventSet (k.event i).set = false
  | _ => True

/-- Nobody waits for what could be had, and a mutex is free or owned by a thread that
does not wait for it. -/
structure Kernel.Objects (k : Kernel) : Prop where
  semaphore : ∀ {i}, k.list (.semaphore i) ≠ [] → (k.semaphore i).value = 0
  free : ∀ {i}, (k.mutex i).owner = none →
    (k.mutex i).value = 1 ∧ (k.mutex i).hold = 0 ∧ (k.mutex i).originalPriority = 0xff ∧
      k.list (.mutex i) = []
  owned : ∀ {i t}, (k.mutex i).owner = some t →
    (k.mutex i).value = 0 ∧ (k.mutex i).originalPriority < rtThreadPriorityMax ∧
      t ∉ k.list (.mutex i) ∧ (k.thread t).stat ≠ .init
  event : ∀ {i t}, t ∈ k.list (.event i) →
    received (k.thread t).eventInfo (k.thread t).eventSet (k.event i).set = false

namespace Kernel

variable {k k' : Kernel} {t u idle : Tid} {h : ListHead} {out : Option (Tid × ListHead)}
  {o : Option TimerId}

theorem Objects.quiet (hk : k.Objects) (hq : k.Quiet out k')
    (hnew : ∀ t h, out = some (t, h) → k.MayWait t h) : k'.Objects where
  semaphore {i} hne := by
    rw [hq.semaphore]
    obtain ⟨t, ht⟩ := List.exists_mem_of_ne_nil _ hne
    rcases hq.waits (by trivial) ht with ht | hout
    · exact hk.semaphore (List.ne_nil_of_mem ht)
    · exact hnew t _ hout
  free {i} hfree := by
    rw [hq.mutex] at hfree ⊢
    obtain ⟨hvalue, hhold, horig, hnil⟩ := hk.free hfree
    refine ⟨hvalue, hhold, horig, List.eq_nil_iff_forall_not_mem.mpr fun t ht => ?_⟩
    rcases hq.waits (by trivial) ht with ht | hout
    · rw [hnil] at ht
      cases ht
    · obtain ⟨u, -, howner⟩ := hnew t _ hout
      rw [hfree] at howner
      cases howner
  owned {i t} howner := by
    rw [hq.mutex] at howner ⊢
    obtain ⟨hvalue, horig, hnot, hinit⟩ := hk.owned howner
    refine ⟨hvalue, horig, fun ht => ?_, hq.started hinit⟩
    rcases hq.waits (by trivial) ht with ht | hout
    · exact hnot ht
    · obtain ⟨u, hne, howner'⟩ := hnew t _ hout
      exact hne (Option.some.inj (howner'.symm.trans howner))
  event {i t} ht := by
    rw [hq.event, hq.eventSet, hq.eventInfo]
    rcases hq.waits (by trivial) ht with ht | hout
    · exact hk.event ht
    · exact hnew t _ hout

theorem Objects.same (hk : k.Objects) (hthread : k'.thread = k.thread) (hlist : k'.list = k.list)
    (hsem : k'.semaphore = k.semaphore) (hmutex : k'.mutex = k.mutex)
    (hevent : k'.event = k.event) (hcalls : k'.calls = k.calls) : k'.Objects := by
  have hquiet : k.Quiet none k' := .same hthread hlist hsem hmutex hevent hcalls
  exact hk.quiet hquiet nofun

/-- What holds at every moment, whoever runs; the timer `o` is being moved. -/
structure Sound (o : Option TimerId) (idle : Tid) (k : Kernel) : Prop where
  sched : k.Sched o
  objects : k.Objects
  idle : (k.thread idle).stat = .ready

theorem Sound.quiet (hk : k.Sound o idle) (hs : k'.Sched o) (hq : k.Quiet out k')
    (hnew : ∀ t h, out = some (t, h) → k.MayWait t h ∧ t ≠ idle) : k'.Sound o idle where
  sched := hs
  objects := hk.objects.quiet hq fun t h hout => (hnew t h hout).1
  idle := hq.ready hk.idle fun h hout => (hnew idle h hout).2 rfl

/-- A call from its start to where it returns or goes on to `rt_schedule`. -/
structure After (idle : Tid) (k : Kernel) (r : Ending × Kernel) : Prop where
  sound : r.2.Sound none idle
  returns : ∀ e, r.1 = .returns e → (r.2.thread k.currentThread).stat = .ready
  current : r.2.currentThread = k.currentThread
  calls : r.2.calls = k.calls

/-! ### What stays at the running thread -/

theorem rtTimerStop_current (id : TimerId) :
    (k.rtTimerStop id).currentThread = k.currentThread := by
  unfold rtTimerStop
  split <;> rfl

theorem rtThreadSuspend_current : (k.rtThreadSuspend t).currentThread = k.currentThread := by
  unfold rtThreadSuspend
  split
  · rfl
  · exact rtTimerStop_current _

theorem rtThreadResume_current : (k.rtThreadResume t).currentThread = k.currentThread := by
  unfold rtThreadResume
  split
  · rfl
  · exact rtTimerStop_current _

theorem rtThreadControl_current {p : Nat} :
    (k.rtThreadControl t p).currentThread = k.currentThread := by
  unfold rtThreadControl
  split <;> rfl

theorem waitOn_current {flag : IpcFlag} {time : Int} :
    (k.waitOn h flag time).currentThread = k.currentThread := by
  unfold waitOn
  dsimp only
  split <;> exact rtThreadSuspend_current

theorem rtIpcListResume_current : (k.rtIpcListResume h).currentThread = k.currentThread := by
  unfold rtIpcListResume
  split
  · exact rtThreadResume_current
  · rfl

/-! ## Semaphores -/

theorem Objects.setSemaphore {i : Nat} {sem : Semaphore} (hk : k.Objects)
    (hsem : k.list (.semaphore i) ≠ [] → sem.value = 0) : (k.setSemaphore i sem).Objects where
  semaphore {j} hne := by
    by_cases hj : j = i
    · subst hj
      change (Function.update k.semaphore j sem j).value = 0
      rw [Function.update_self]
      exact hsem hne
    · change (Function.update k.semaphore i sem j).value = 0
      rw [Function.update_of_ne hj]
      exact hk.semaphore hne
  free := hk.free
  owned := hk.owned
  event := hk.event

theorem Sound.semTake {i : Nat} {time : Int} (hk : k.Sound none idle)
    (hrun : (k.thread k.currentThread).stat = .ready) (hidle : time ≠ 0 → k.currentThread ≠ idle) :
    After idle k (k.rtSemTake i time) := by
  unfold rtSemTake
  dsimp only
  split
  · next hvalue =>
    exact {
      sound := {
        sched := hk.sched.congr rfl rfl rfl rfl rfl
        objects := hk.objects.setSemaphore fun hne => by
          rw [hk.objects.semaphore hne] at hvalue
          cases hvalue
        idle := hk.idle }
      returns := fun _ _ => hrun
      current := rfl
      calls := rfl }
  · next hvalue =>
    split
    · exact ⟨hk, fun _ _ => hrun, rfl, rfl⟩
    · next htime =>
      have hzero : (k.semaphore i).value = 0 := by
        have := hvalue
        rw [UInt16.lt_iff_toNat_lt] at this
        exact UInt16.toNat.inj (by simpa using this)
      have hwritten : k.Quiet none (k.modify k.currentThread fun x => { x with error := .eok }) :=
        quiet_modify rfl rfl rfl rfl
      have hready := hwritten.ready hrun nofun
      have hsched := (hk.sched.write (t := k.currentThread)
        (f := fun x => { x with error := .eok }) rfl rfl rfl).wait (.semaphore i)
        (k.semaphore i).flag time hready (by trivial)
      refine ⟨hk.quiet hsched (hwritten.trans quiet_wait) ?_, nofun, waitOn_current,
        (hwritten.trans quiet_wait).calls⟩
      rintro t h ⟨⟩
      exact ⟨hzero, hidle htime⟩

theorem Sound.semRelease {i : Nat} (hk : k.Sound none idle) :
    (k.rtSemRelease i).2.Sound none idle ∧ (k.rtSemRelease i).2.currentThread = k.currentThread ∧
      (k.rtSemRelease i).2.calls = k.calls ∧
      ∀ t, (k.thread t).stat = .ready → ((k.rtSemRelease i).2.thread t).stat = .ready := by
  unfold rtSemRelease
  split
  · exact ⟨hk.quiet (hk.sched.listResume nofun) quiet_listResume nofun, rtIpcListResume_current,
      quiet_listResume.calls, fun t ht => quiet_listResume.ready ht nofun⟩
  · next hnil =>
    exact ⟨⟨hk.sched.congr rfl rfl rfl rfl rfl,
      hk.objects.setSemaphore fun hne => absurd hne hnil, hk.idle⟩, rfl, rfl, fun t ht => ht⟩

/-! ## Mutexes -/

theorem Objects.setMutex {i : Nat} {m : Mutex} (hk : k.Objects)
    (hfree : m.owner = none → m.value = 1 ∧ m.hold = 0 ∧ m.originalPriority = 0xff ∧
      k.list (.mutex i) = [])
    (howned : ∀ t, m.owner = some t → m.value = 0 ∧ m.originalPriority < rtThreadPriorityMax ∧
      t ∉ k.list (.mutex i) ∧ (k.thread t).stat ≠ .init) : (k.setMutex i m).Objects where
  semaphore := hk.semaphore
  free {j} hj := by
    by_cases hji : j = i
    · subst hji
      have hm : (k.setMutex j m).mutex j = m := Function.update_self _ _ _
      rw [hm] at hj ⊢
      exact hfree hj
    · have hm : (k.setMutex i m).mutex j = k.mutex j := Function.update_of_ne hji _ _
      rw [hm] at hj ⊢
      exact hk.free hj
  owned {j t} hj := by
    by_cases hji : j = i
    · subst hji
      have hm : (k.setMutex j m).mutex j = m := Function.update_self _ _ _
      rw [hm] at hj ⊢
      exact howned t hj
    · have hm : (k.setMutex i m).mutex j = k.mutex j := Function.update_of_ne hji _ _
      rw [hm] at hj ⊢
      exact hk.owned hj
  event := hk.event

/-- The hold count of a mutex that has an owner is of no account. -/
theorem Objects.setHold {i : Nat} {hold : UInt8} (hk : k.Objects)
    (ht : (k.mutex i).owner = some t) :
    (k.setMutex i { k.mutex i with hold := hold }).Objects := by
  refine hk.setMutex (fun hnone => ?_) fun u hu => hk.owned hu
  rw [ht] at hnone
  cases hnone

theorem Sound.setMutex {i : Nat} {m : Mutex} (hk : k.Sound none idle)
    (hm : (k.setMutex i m).Objects) : (k.setMutex i m).Sound none idle :=
  ⟨hk.sched.congr rfl rfl rfl rfl rfl, hm, hk.idle⟩

/-- A thread's error code is of no account. -/
theorem Sound.setError (hk : k.Sound o idle) (t : Tid) (e : Err) :
    (k.modify t fun x => { x with error := e }).Sound o idle :=
  hk.quiet (hk.sched.write rfl rfl rfl) (quiet_modify rfl rfl rfl rfl) nofun

theorem Sound.mutexTake {i : Nat} {time : Int} (hk : k.Sound none idle)
    (hrun : (k.thread k.currentThread).stat = .ready) (hidle : time ≠ 0 → k.currentThread ≠ idle) :
    After idle k (k.rtMutexTake i time) := by
  have hwritten : (k.modify k.currentThread fun x => { x with error := .eok }).Sound none idle :=
    hk.setError _ _
  have hquiet : k.Quiet none (k.modify k.currentThread fun x => { x with error := .eok }) :=
    quiet_modify rfl rfl rfl rfl
  have hready := hquiet.ready hrun nofun
  have hstarted : ((k.modify k.currentThread fun x =>
      { x with error := .eok }).thread k.currentThread).stat ≠ .init := by rw [hready]; nofun
  have hcurrent : (k.modify k.currentThread fun x => { x with error := .eok }).currentThread =
    k.currentThread := rfl
  have hcalls : (k.modify k.currentThread fun x => { x with error := .eok }).calls = k.calls := rfl
  unfold rtMutexTake
  dsimp only
  generalize k.modify k.currentThread (fun x => { x with error := .eok }) = j at *
  split
  · next hown =>
    exact ⟨hwritten.setMutex (hwritten.objects.setHold hown), fun _ _ => hready, hcurrent, hcalls⟩
  · next hown =>
    split
    · next hvalue =>
      have hfree : (j.mutex i).owner = none := by
        cases howner : (j.mutex i).owner with
        | none => rfl
        | some u =>
          rw [(hwritten.objects.owned howner).1] at hvalue
          cases hvalue
      obtain ⟨hone, -, -, hnil⟩ := hwritten.objects.free hfree
      refine ⟨hwritten.setMutex (hwritten.objects.setMutex nofun ?_), fun _ _ => hready, hcurrent,
        hcalls⟩
      rintro u ⟨⟩
      rw [hone, hnil]
      exact ⟨rfl, (hwritten.sched.lists.priority hstarted).1, List.not_mem_nil, hstarted⟩
    · next hvalue =>
      split
      · have hclosed : j.Quiet none (j.modify k.currentThread fun x => { x with error := .etimeout }) :=
          quiet_modify rfl rfl rfl rfl
        exact ⟨hwritten.setError _ _,
          fun _ _ => hclosed.ready hready nofun, hcurrent, hcalls⟩
      · next htime =>
        obtain ⟨u, howner⟩ : ∃ u, (j.mutex i).owner = some u := by
          cases howner : (j.mutex i).owner with
          | none =>
            rw [(hwritten.objects.free howner).1] at hvalue
            exact absurd (by decide) hvalue
          | some u => exact ⟨u, rfl⟩
        have hne : u ≠ k.currentThread := fun heq => hown (heq ▸ howner)
        rw [howner]
        dsimp only
        -- the owner at its old or at its new priority
        generalize hraised : (if (j.thread k.currentThread).currentPriority <
          (j.thread u).currentPriority then
            j.rtThreadControl u (j.thread k.currentThread).currentPriority else j) = j'
        have hj' : j'.Sched none ∧ j.Quiet none j' ∧ j'.currentThread = j.currentThread := by
          subst hraised
          split
          · exact ⟨hwritten.sched.control (hwritten.sched.lists.priority hstarted).1
              (hwritten.objects.owned howner).2.2.2, quiet_control, rtThreadControl_current⟩
          · exact ⟨hwritten.sched, .refl, rfl⟩
        obtain ⟨hs, hq, hc⟩ := hj'
        have hcur : j'.currentThread = k.currentThread := hc.trans hcurrent
        have hr : (j'.thread j'.currentThread).stat = .ready := by
          rw [hcur]
          exact hq.ready hready nofun
        have hwait := hs.wait (.mutex i) (j.mutex i).flag time hr (by trivial)
        refine ⟨hwritten.quiet hwait (hq.trans quiet_wait) ?_, nofun, waitOn_current.trans hcur,
          (hq.trans quiet_wait).calls.trans hcalls⟩
        rw [hcur]
        rintro t h ⟨⟩
        exact ⟨⟨u, hne, howner⟩, hidle htime⟩

theorem resume_stat (ht : (k.thread t).stat = .suspend) :
    ((k.rtThreadResume t).thread t).stat = .ready := by
  rw [rtThreadResume, if_neg (by rw [ht]; nofun), insertThread_self]

theorem resume_of_ne (hu : u ≠ t) : (k.rtThreadResume t).thread u = k.thread u := by
  unfold rtThreadResume
  split
  · rfl
  · rw [insertThread_of_ne hu, rtTimerStop_thread]

/-- A thread that is woken waits no longer. -/
theorem resume_not_mem (hk : k.Sched o) (ho : o ≠ some (.thread t)) (hh : h.Waiting) :
    t ∉ (k.rtThreadResume t).list h := by
  intro hmem
  have hsuspend := (hk.resume ho).lists.waiting hh hmem
  by_cases hs : (k.thread t).stat = .suspend
  · rw [resume_stat hs] at hsuspend
    cases hsuspend
  · rw [rtThreadResume, if_pos hs] at hsuspend
    exact hs hsuspend

theorem resume_setMutex {i : Nat} {m : Mutex} :
    (k.setMutex i m).rtThreadResume t = (k.rtThreadResume t).setMutex i m := by
  unfold rtThreadResume rtTimerStop setMutex
  dsimp only
  split
  · rfl
  · split <;> rfl

theorem Sound.mutexRelease {i : Nat} (hk : k.Sound none idle)
    (hrun : (k.thread k.currentThread).stat = .ready) : After idle k (k.rtMutexRelease i) := by
  unfold rtMutexRelease
  dsimp only
  split
  · have hquiet : k.Quiet none (k.modify k.currentThread fun x => { x with error := .error }) :=
      quiet_modify rfl rfl rfl rfl
    exact ⟨hk.setError _ _, fun _ _ => hquiet.ready hrun nofun, rfl, rfl⟩
  · next howner =>
    have hown : (k.mutex i).owner = some k.currentThread := not_not.mp howner
    split
    · exact ⟨hk.setMutex (hk.objects.setHold hown), fun _ _ => hrun, rfl, rfl⟩
    · next hhold =>
      obtain ⟨hvalue, horig, hnot, hstarted⟩ := hk.objects.owned hown
      -- the owner back at its own priority
      generalize hlowered : (if (k.mutex i).originalPriority ≠
        (k.thread k.currentThread).currentPriority then
          k.rtThreadControl k.currentThread (k.mutex i).originalPriority else k) = j
      have hj : j.Sched none ∧ k.Quiet none j ∧ j.currentThread = k.currentThread := by
        subst hlowered
        split
        · exact ⟨hk.sched.control horig hstarted, quiet_control, rtThreadControl_current⟩
        · exact ⟨hk.sched, .refl, rfl⟩
      obtain ⟨hs, hq, hc⟩ := hj
      have hsound : j.Sound none idle := hk.quiet hs hq nofun
      split
      · next w hhead =>
        have hmem : w ∈ j.list (.mutex i) := List.mem_of_mem_head? hhead
        have hsuspend := hs.lists.waiting (by trivial) hmem
        have hwprio := (hs.lists.priority (t := w) (by rw [hsuspend]; nofun)).1
        have hwoken : (j.rtThreadResume w).Sound none idle :=
          hsound.quiet (hs.resume nofun) quiet_resume nofun
        have hresumed : ∀ m : Mutex, (j.setMutex i m).rtIpcListResume (.mutex i) =
            (j.rtThreadResume w).setMutex i m := by
          intro m
          rw [← resume_setMutex]
          exact listResume_head hhead
        rw [hresumed]
        refine ⟨hwoken.setMutex (hwoken.objects.setMutex nofun ?_), nofun,
          rtThreadResume_current.trans hc, (hq.trans quiet_resume).calls⟩
        rintro u ⟨⟩
        refine ⟨hvalue, hwprio, resume_not_mem hs nofun (by trivial), ?_⟩
        rw [resume_stat hsuspend]
        nofun
      · next hhead =>
        refine ⟨hsound.setMutex (hsound.objects.setMutex (fun _ => ⟨?_, not_not.mp hhold, rfl, ?_⟩)
          nofun), fun _ _ => hq.ready hrun nofun, hc, hq.calls⟩
        · rw [hvalue]
          rfl
        · exact List.head?_eq_none_iff.mp hhead

/-! ## Events -/

/-- Fewer bits are nothing more to wait for. -/
theorem received_mono {option : UInt8} {want set mask : BitVec 32}
    (h : received option want set = false) : received option want (set &&& mask) = false := by
  unfold received at h ⊢
  split
  · next hand =>
    rw [if_pos hand] at h
    refine beq_eq_false_iff_ne.mpr fun heq => beq_eq_false_iff_ne.mp h ?_
    refine BitVec.eq_of_getLsbD_eq fun q _ => ?_
    have hbit := congrArg (fun x => x.getLsbD q) heq
    simp only [BitVec.getLsbD_and] at hbit ⊢
    cases hw : want.getLsbD q
    · rfl
    · rw [hw, Bool.true_and, Bool.and_eq_true] at hbit
      rw [hbit.1]
      rfl
  · next hand =>
    rw [if_neg hand] at h
    split
    · next hor =>
      rw [if_pos hor] at h
      have hzero : want &&& set = 0 := by simpa using h
      rw [← BitVec.and_assoc, hzero]
      simp
    · rfl

@[simp] theorem setEvent_self {i : Nat} {e : Event} : (k.setEvent i e).event i = e :=
  Function.update_self _ _ _

theorem Objects.setEvent {i : Nat} {e : Event} (hk : k.Objects)
    (he : ∀ t ∈ k.list (.event i),
      received (k.thread t).eventInfo (k.thread t).eventSet e.set = false) :
    (k.setEvent i e).Objects where
  semaphore := hk.semaphore
  free := hk.free
  owned := hk.owned
  event {j t} ht := by
    by_cases hj : j = i
    · subst hj
      rw [setEvent_self]
      exact he t ht
    · have hset : (k.setEvent i e).event j = k.event j := Function.update_of_ne hj _ _
      rw [hset]
      exact hk.event ht

/-- What a thread wants of an event matters while it waits for it. -/
theorem Objects.setWanted {set : BitVec 32} {option : UInt8} (hk : k.Objects)
    (ht : ∀ i, t ∉ k.list (.event i)) :
    (k.modify t fun x => { x with eventSet := set, eventInfo := option }).Objects where
  semaphore := hk.semaphore
  free := hk.free
  owned {i u} hu := by
    obtain ⟨hvalue, horig, hnot, hstarted⟩ := hk.owned hu
    refine ⟨hvalue, horig, hnot, ?_⟩
    by_cases hut : u = t
    · subst hut
      rw [modify_thread_self]
      exact hstarted
    · rwa [modify_thread_of_ne hut]
  event {i u} hu := by
    rw [modify_thread_of_ne fun hut : u = t => ht i (hut ▸ hu)]
    exact hk.event hu

theorem Sound.eventRecv {i : Nat} {set : BitVec 32} {option : UInt8} {timeout : Int}
    (hk : k.Sound none idle) (hrun : (k.thread k.currentThread).stat = .ready)
    (hidle : timeout ≠ 0 → k.currentThread ≠ idle) :
    After idle k (k.rtEventRecv i set option timeout) := by
  have hwritten := hk.setError k.currentThread .eok
  have hquiet : k.Quiet none (k.modify k.currentThread fun x => { x with error := .eok }) :=
    quiet_modify rfl rfl rfl rfl
  have hready := hquiet.ready hrun nofun
  have hcurrent : (k.modify k.currentThread fun x => { x with error := .eok }).currentThread =
    k.currentThread := rfl
  have hcalls : (k.modify k.currentThread fun x => { x with error := .eok }).calls = k.calls := rfl
  unfold rtEventRecv
  split
  · exact ⟨hk, fun _ _ => hrun, rfl, rfl⟩
  · dsimp only
    generalize k.modify k.currentThread (fun x => { x with error := .eok }) = j at *
    split
    · split
      · have hsound : (j.setEvent i { j.event i with set := (j.event i).set &&& ~~~set }).Sound
            none idle :=
          ⟨hwritten.sched.congr rfl rfl rfl rfl rfl,
            hwritten.objects.setEvent fun t ht => received_mono (hwritten.objects.event ht),
            hwritten.idle⟩
        exact ⟨hsound, fun _ _ => hready, hcurrent, hcalls⟩
      · exact ⟨hwritten, fun _ _ => hready, hcurrent, hcalls⟩
    · next hnot =>
      split
      · have hclosed : j.Quiet none (j.modify k.currentThread fun x => { x with error := .etimeout }) :=
          quiet_modify rfl rfl rfl rfl
        exact ⟨hwritten.setError _ _, fun _ _ => hclosed.ready hready nofun, hcurrent, hcalls⟩
      · next htime =>
        have hout : ∀ i, k.currentThread ∉ j.list (.event i) := fun i hmem => by
          have hsuspend := hwritten.sched.lists.waiting (by trivial) hmem
          rw [hready] at hsuspend
          cases hsuspend
        have hself : ((j.modify k.currentThread fun x => { x with
            eventSet := set, eventInfo := option }).thread k.currentThread) =
            { j.thread k.currentThread with eventSet := set, eventInfo := option } :=
          modify_thread_self _
        have hwanted : (j.modify k.currentThread fun x => { x with
            eventSet := set, eventInfo := option }).Sound none idle := {
          sched := hwritten.sched.write rfl rfl rfl
          objects := hwritten.objects.setWanted hout
          idle := by
            by_cases hi : idle = k.currentThread
            · exact absurd hi.symm (hidle htime)
            · rw [modify_thread_of_ne hi]
              exact hwritten.idle }
        have hr : ((j.modify k.currentThread fun x => { x with
            eventSet := set, eventInfo := option }).thread j.currentThread).stat = .ready := by
          rw [hcurrent, hself]
          exact hready
        have hwait := hwanted.sched.wait (.event i) (j.event i).flag timeout hr (by trivial)
        refine ⟨hwanted.quiet hwait quiet_wait ?_, nofun, waitOn_current.trans hcurrent,
          quiet_wait.calls.trans hcalls⟩
        rintro t h ⟨⟩
        refine ⟨?_, hcurrent ▸ hidle htime⟩
        change received (Thread.eventInfo (Kernel.thread _ j.currentThread))
          (Thread.eventSet (Kernel.thread _ j.currentThread)) (j.event i).set = false
        rw [hcurrent, hself]
        exact Bool.eq_false_iff.mpr hnot

/-- From `k` to `k'` the threads `ts` had their turn in a send of event `i`: bits of it
may have been taken, waits have ended, and those of `ts` that still wait cannot have it. -/
structure Sends (i : Nat) (ts : List Tid) (k k' : Kernel) : Prop where
  semaphore : k'.semaphore = k.semaphore
  mutex : k'.mutex = k.mutex
  other : ∀ j, j ≠ i → k'.event j = k.event j
  less : ∃ mask, (k'.event i).set = (k.event i).set &&& mask
  waits : ∀ {t h}, h.Waiting → t ∈ k'.list h →
    t ∈ k.list h ∧ (k'.thread t).eventSet = (k.thread t).eventSet
  eventInfo : ∀ t, (k'.thread t).eventInfo = (k.thread t).eventInfo
  started : ∀ {t}, (k.thread t).stat ≠ .init → (k'.thread t).stat ≠ .init
  ready : ∀ {t}, (k.thread t).stat = .ready → (k'.thread t).stat = .ready
  calls : k'.calls = k.calls
  current : k'.currentThread = k.currentThread
  done : ∀ t ∈ ts, t ∈ k'.list (.event i) →
    received (k'.thread t).eventInfo (k'.thread t).eventSet (k'.event i).set = false

theorem Sends.nil {i : Nat} : k.Sends i [] k where
  semaphore := rfl
  mutex := rfl
  other _ _ := rfl
  less := ⟨BitVec.allOnes 32, BitVec.and_allOnes.symm⟩
  waits _ ht := ⟨ht, rfl⟩
  eventInfo _ := rfl
  started ht := ht
  ready ht := ht
  calls := rfl
  current := rfl
  done := nofun

theorem Sends.cons {i : Nat} {ts : List Tid} {k'' : Kernel} (hk : k.Sends i [t] k')
    (hk' : k'.Sends i ts k'') : k.Sends i (t :: ts) k'' where
  semaphore := hk'.semaphore.trans hk.semaphore
  mutex := hk'.mutex.trans hk.mutex
  other j hj := (hk'.other j hj).trans (hk.other j hj)
  less := by
    obtain ⟨m, hm⟩ := hk.less
    obtain ⟨m', hm'⟩ := hk'.less
    exact ⟨m &&& m', by rw [hm', hm, BitVec.and_assoc]⟩
  waits hh ht := by
    obtain ⟨hmem', hset'⟩ := hk'.waits hh ht
    obtain ⟨hmem, hset⟩ := hk.waits hh hmem'
    exact ⟨hmem, hset'.trans hset⟩
  eventInfo u := (hk'.eventInfo u).trans (hk.eventInfo u)
  started hu := hk'.started (hk.started hu)
  ready hu := hk'.ready (hk.ready hu)
  calls := hk'.calls.trans hk.calls
  current := hk'.current.trans hk.current
  done := by
    intro u hu hmem
    rcases List.mem_cons.mp hu with rfl | hu
    · -- its turn is over, and later turns only take bits away
      obtain ⟨hmem', hset⟩ := hk'.waits (by trivial) hmem
      obtain ⟨m, hm⟩ := hk'.less
      rw [hk'.eventInfo, hset, hm]
      exact received_mono (hk.done u (.head _) hmem')
    · exact hk'.done u hu hmem

theorem eventTurn_sends {i : Nat} (hk : k.Sched o) (ho : o ≠ some (.thread t)) :
    (k.eventTurn i t).2.Sched o ∧ k.Sends i [t] (k.eventTurn i t).2 := by
  unfold eventTurn
  dsimp only
  split
  · generalize (if (k.thread t).eventInfo &&& eventFlagAnd ≠ 0 then (k.thread t).eventSet
      else (k.thread t).eventSet &&& (k.event i).set) = got
    generalize htaken : (if (k.thread t).eventInfo &&& eventFlagClear ≠ 0 then
        (k.modify t fun x => { x with eventSet := got }).setEvent i
          { k.event i with set := (k.event i).set &&& ~~~got }
      else k.modify t fun x => { x with eventSet := got }) = j
    have hwritten : (k.modify t fun x => { x with eventSet := got }).Sched o :=
      hk.write rfl rfl rfl
    have hj : j.Sched o ∧ j.thread = (k.modify t fun x => { x with eventSet := got }).thread ∧
        j.list = k.list ∧ j.semaphore = k.semaphore ∧ j.mutex = k.mutex ∧ j.calls = k.calls ∧
        j.currentThread = k.currentThread ∧ (∀ l, l ≠ i → j.event l = k.event l) ∧
        ∃ mask, (j.event i).set = (k.event i).set &&& mask := by
      subst htaken
      split
      · refine ⟨hwritten.congr rfl rfl rfl rfl rfl, rfl, rfl, rfl, rfl, rfl, rfl,
          fun l hl => Function.update_of_ne hl _ _, ~~~got, ?_⟩
        rw [setEvent_self]
      · exact ⟨hwritten, rfl, rfl, rfl, rfl, rfl, rfl, fun _ _ => rfl, BitVec.allOnes 32,
          BitVec.and_allOnes.symm⟩
    obtain ⟨hs, hthread, hlist, hsem, hmutex, hcalls, hcur, hother, mask, hmask⟩ := hj
    have hquiet : j.Quiet none (j.rtThreadResume t) := quiet_resume
    have hfield : ∀ {α : Type} (g : Thread → α),
        g { k.thread t with eventSet := got } = g (k.thread t) → ∀ u, g (j.thread u) = g (k.thread u) := by
      intro α g hg u
      rw [hthread]
      by_cases hu : u = t
      · subst hu
        rw [modify_thread_self, hg]
      · rw [modify_thread_of_ne hu]
    refine ⟨hs.resume ho, ?_⟩
    exact {
      semaphore := hquiet.semaphore.trans hsem
      mutex := hquiet.mutex.trans hmutex
      other := fun l hl => by rw [hquiet.event, hother l hl]
      less := ⟨mask, by rw [hquiet.event, hmask]⟩
      waits := by
        intro u h hh hu
        have hut : u ≠ t := fun heq => resume_not_mem hs ho hh (heq ▸ hu)
        rcases hquiet.waits hh hu with hmem | hnone
        · rw [hquiet.eventSet, hthread, modify_thread_of_ne hut]
          exact ⟨hlist ▸ hmem, rfl⟩
        · cases hnone
      eventInfo := fun u => (hquiet.eventInfo u).trans (hfield Thread.eventInfo rfl u)
      started := fun {u} hu => hquiet.started (by rwa [hfield Thread.stat rfl u])
      ready := fun {u} hu => hquiet.ready (by rwa [hfield Thread.stat rfl u]) nofun
      calls := hquiet.calls.trans hcalls
      current := rtThreadResume_current.trans hcur
      done := by
        intro u hu hmem
        obtain rfl := List.mem_singleton.mp hu
        exact absurd hmem (resume_not_mem hs ho (by trivial)) }
  · next hnot =>
    have hnil : k.Sends i [] k := .nil
    refine ⟨hk, { hnil with waits := hnil.waits, started := id, ready := id, done := ?_ }⟩
    intro u hu _
    obtain rfl := List.mem_singleton.mp hu
    exact Bool.eq_false_iff.mpr hnot

theorem eventLoop_sends (i : Nat) (ts : List Tid) (hk : k.Sched o)
    (ho : ∀ t, o ≠ some (.thread t)) :
    (k.eventLoop i ts).2.Sched o ∧ k.Sends i ts (k.eventLoop i ts).2 := by
  induction ts generalizing k with
  | nil => exact ⟨hk, .nil⟩
  | cons t ts ih =>
    obtain ⟨hs, hturn⟩ := eventTurn_sends (i := i) hk (ho t)
    obtain ⟨hs', hrest⟩ := ih hs
    exact ⟨hs', hturn.cons hrest⟩

/-- Whatever was not of the event keeps its order, and no thread is left waiting for what
has been sent. -/
theorem Sound.eventSend (i : Nat) (set : BitVec 32) (hk : k.Sound o idle)
    (ho : ∀ t, o ≠ some (.thread t)) :
    (k.rtEventSend i set).2.Sound o idle ∧
      (k.rtEventSend i set).2.currentThread = k.currentThread ∧
      (k.rtEventSend i set).2.calls = k.calls ∧
      ∀ t, (k.thread t).stat = .ready → ((k.rtEventSend i set).2.thread t).stat = .ready := by
  unfold rtEventSend
  split
  · exact ⟨hk, rfl, rfl, fun t ht => ht⟩
  · dsimp only
    generalize hsent : k.setEvent i { k.event i with set := (k.event i).set ||| set } = j
    have hj : j.Sched o := hsent ▸ hk.sched.congr rfl rfl rfl rfl rfl
    have hevent : ∀ l, l ≠ i → j.event l = k.event l := by
      subst hsent
      exact fun l hl => Function.update_of_ne hl _ _
    have hsame : j.thread = k.thread ∧ j.list = k.list ∧ j.semaphore = k.semaphore ∧
        j.mutex = k.mutex ∧ j.calls = k.calls ∧ j.currentThread = k.currentThread := by
      subst hsent
      exact ⟨rfl, rfl, rfl, rfl, rfl, rfl⟩
    obtain ⟨hthread, hlist, hsem, hmutex, hcalls, hcur⟩ := hsame
    obtain ⟨hs, hsends⟩ := eventLoop_sends i (j.list (.event i)) hj ho
    refine ⟨⟨hs, ?_, hsends.ready (by rw [hthread]; exact hk.idle)⟩, hsends.current.trans hcur,
      hsends.calls.trans hcalls, fun t ht => hsends.ready (by rwa [hthread])⟩
    exact {
      semaphore := fun {l} hne => by
        obtain ⟨t, ht⟩ := List.exists_mem_of_ne_nil _ hne
        have hmem := (hsends.waits (by trivial) ht).1
        rw [hsends.semaphore, hsem]
        exact hk.objects.semaphore (List.ne_nil_of_mem (hlist ▸ hmem))
      free := fun {l} hfree => by
        rw [hsends.mutex, hmutex] at hfree ⊢
        obtain ⟨hvalue, hhold, horig, hnil⟩ := hk.objects.free hfree
        refine ⟨hvalue, hhold, horig, List.eq_nil_iff_forall_not_mem.mpr fun t ht => ?_⟩
        have hmem := (hsends.waits (by trivial) ht).1
        rw [hlist, hnil] at hmem
        cases hmem
      owned := fun {l t} howner => by
        rw [hsends.mutex, hmutex] at howner ⊢
        obtain ⟨hvalue, horig, hnot, hstarted⟩ := hk.objects.owned howner
        refine ⟨hvalue, horig, fun ht => hnot ?_, hsends.started (by rwa [hthread])⟩
        exact hlist ▸ (hsends.waits (by trivial) ht).1
      event := fun {l t} ht => by
        obtain ⟨hmem, hset⟩ := hsends.waits (by trivial) ht
        by_cases hl : l = i
        · subst hl
          exact hsends.done t hmem ht
        · rw [hsends.other l hl, hevent l hl, hsends.eventInfo, hset, hthread]
          exact hk.objects.event (hlist ▸ hmem) }

/-! ## The clock -/

theorem Sound.schedule (hk : k.Sound o idle) : k.rtSchedule.Sound o idle :=
  hk.quiet hk.sched.schedule quiet_schedule nofun

theorem schedule_idem : k.rtSchedule.rtSchedule = k.rtSchedule := by
  obtain ⟨-, hlist, -, -, hgroup, -⟩ := k.rtSchedule_same
  rw [rtSchedule, hlist, hgroup]
  cases hhead : (k.list (.priorityTable (rtFfs k.readyPriorityGroup - 1))).head? with
  | none => rfl
  | some t => simp [rtSchedule, hhead]

/-- The thread that runs behind `rt_schedule` is ready. -/
theorem Sound.scheduled (hk : k.rtSchedule.Sound o idle) :
    (k.rtSchedule.thread k.rtSchedule.currentThread).stat = .ready := by
  have hready := (schedule_first hk.sched.lists hk.idle).ready hk.sched.lists
  rwa [schedule_idem] at hready

/-- A state in order: the thread that runs is ready, or is on its way to the scheduler. -/
structure Ok (idle : Tid) (k : Kernel) : Prop where
  sound : k.Sound none idle
  running : (k.thread k.currentThread).stat = .ready ∨ k.calls k.currentThread = true

/-- A timer on its way off the list; what is done then is all of `Ok` but for it. -/
structure Firing (o : Option TimerId) (idle : Tid) (k : Kernel) : Prop where
  sound : k.Sound o idle
  running : (k.thread k.currentThread).stat = .ready ∨ k.calls k.currentThread = true

theorem Firing.inInterrupt {r : Ending × Kernel} (hk : k.Firing o idle)
    (hsound : r.2.Sound o idle) (hcurrent : r.2.currentThread = k.currentThread)
    (hcalls : r.2.calls = k.calls)
    (hready : ∀ t, (k.thread t).stat = .ready → (r.2.thread t).stat = .ready) :
    (inInterrupt r).Firing o idle := by
  unfold Kernel.inInterrupt
  split
  · refine ⟨hsound, ?_⟩
    rw [hcurrent, hcalls]
    exact hk.running.imp_left (hready _)
  · exact ⟨hsound.schedule, .inl hsound.schedule.scheduled⟩

theorem Firing.timeoutFunc {id : TimerId} (sends : Nat → Nat × BitVec 32)
    (hk : k.Firing (some id) idle) (hid : ∀ t, id = .thread t → (k.thread t).stat = .suspend) :
    (timeoutFunc sends id k).Firing (some id) idle := by
  cases id with
  | thread t =>
    have hsound : (k.rtThreadTimeout t).Sound (some (.thread t)) idle :=
      hk.sound.quiet (hk.sound.sched.timeout (hid t rfl)) quiet_timeout nofun
    exact ⟨hsound, .inl hsound.scheduled⟩
  | other i =>
    obtain ⟨hsound, hcurrent, hcalls, hready⟩ :=
      hk.sound.eventSend (sends i).1 (sends i).2 (fun t => by nofun)
    exact hk.inInterrupt hsound hcurrent hcalls hready

/-- The timer that is due, off the list. -/
theorem Ok.taken (hk : k.Ok idle) (id : TimerId) :
    Firing (some id) idle { k with timerList := k.timerList.erase id } where
  sound := {
    sched := {
      lists := hk.sound.sched.lists.congr rfl rfl rfl
      timers := {
        nodup := hk.sound.sched.timers.nodup.erase id
        absent := by
          rintro _ ⟨⟩
          exact hk.sound.sched.timers.nodup.not_mem_erase
        active := by
          intro id' hne
          have hne' : id' ≠ id := fun heq => hne (heq ▸ rfl)
          rw [hk.sound.sched.timers.nodup.mem_erase_iff, and_iff_right hne']
          exact hk.sound.sched.timers.active nofun
        asleep := fun hmem => hk.sound.sched.timers.asleep (List.mem_of_mem_erase hmem) } }
    objects := hk.sound.objects.same rfl rfl rfl rfl rfl rfl
    idle := hk.sound.idle }
  running := hk.running

/-- One timer that is due. -/
theorem Ok.timerFires {sends : Nat → Nat × BitVec 32} {id : TimerId} (hk : k.Ok idle)
    (hid : id ∈ k.timerList) : (timerFires sends id k).Ok idle := by
  have hfired := (hk.taken id).timeoutFunc sends fun t ht =>
    hk.sound.sched.timers.asleep (ht ▸ hid)
  unfold Kernel.timerFires
  dsimp only
  generalize Kernel.timeoutFunc sends id { k with timerList := k.timerList.erase id } = j at hfired ⊢
  exact {
    sound := {
      sched := {
        lists := hfired.sound.sched.lists.congr rfl rfl rfl
        timers := {
          nodup := hfired.sound.sched.timers.nodup
          absent := nofun
          active := by
            intro id' _
            by_cases heq : id' = id
            · subst heq
              refine iff_of_false (hfired.sound.sched.timers.absent rfl) ?_
              simp
            · refine (hfired.sound.sched.timers.active fun h => heq (Option.some.inj h).symm).trans ?_
              simp [heq]
          asleep := hfired.sound.sched.timers.asleep } }
      objects := hfired.sound.objects.same rfl rfl rfl rfl rfl rfl
      idle := hfired.sound.idle }
    running := hfired.running }

theorem Ok.timerCheck {sends : Nat → Nat × BitVec 32} {fuel : Nat} (hk : k.Ok idle) :
    (rtTimerCheck sends fuel k).Ok idle := by
  induction fuel generalizing k with
  | zero => exact hk
  | succ fuel ih =>
    unfold rtTimerCheck
    split
    · exact hk
    · next id ids hlist =>
      split
      · exact ih (hk.timerFires (by rw [hlist]; exact .head _))
      · exact hk

/-- Ticks of the clock and of a time slice are of no account. -/
theorem Ok.count (hk : k.Ok idle) {tick : UInt32} {f : Thread → Thread}
    (hf : ∀ x : Thread, ∃ n, f x = { x with remainingTick := n }) :
    Ok idle { k.modify t f with tick := tick } := by
  obtain ⟨n, hn⟩ := hf (k.thread t)
  have hsched : (k.modify t f).Sched none :=
    hk.sound.sched.write (by rw [hn]) (by rw [hn]) (by rw [hn])
  have hquiet : k.Quiet none (k.modify t f) :=
    quiet_modify (by rw [hn]) (by rw [hn]) (by rw [hn]) (by rw [hn])
  have hsame : (k.modify t f).Quiet none { k.modify t f with tick := tick } :=
    .same rfl rfl rfl rfl rfl rfl
  exact {
    sound := hk.sound.quiet (hsched.congr rfl rfl rfl rfl rfl) (hquiet.trans hsame) nofun
    running := hk.running.imp_left fun hr => hquiet.ready hr nofun }

theorem Ok.ticked (hk : k.Ok idle) : k.ticked.Ok idle := by
  have hticked : Ok idle (modify k.currentThread
      (fun x => { x with remainingTick := x.remainingTick - 1 }) { k with tick := k.tick + 1 }) :=
    hk.count fun x => ⟨_, rfl⟩
  unfold Kernel.ticked
  dsimp only
  generalize modify k.currentThread (fun x => { x with remainingTick := x.remainingTick - 1 })
    { k with tick := k.tick + 1 } = j at hticked ⊢
  split
  · have hslice : Ok idle (j.modify k.currentThread fun x =>
        { x with remainingTick := x.initTick }) := hticked.count fun x => ⟨_, rfl⟩
    generalize j.modify k.currentThread (fun x => { x with remainingTick := x.initTick }) = l
      at hslice ⊢
    split
    · next k' hyield =>
      have hyielded : k'.Sound none idle :=
        hslice.sound.quiet (hslice.sound.sched.yield hyield)
          (quiet_yield hslice.sound.sched hyield) nofun
      exact ⟨hyielded.schedule, .inl hyielded.schedule.scheduled⟩
    · exact hslice
  · exact hticked

theorem Ok.tickIncrease {sends : Nat → Nat × BitVec 32} (hk : k.Ok idle) :
    (k.rtTickIncrease sends).Ok idle := hk.ticked.timerCheck

end Kernel

/-! ## One move -/

open Kernel

variable {k k₀ : Kernel} {idle : Tid}

theorem Kernel.Ok.interrupt {e : Interrupt} (hk : k.Ok idle) : (e.perform k).Ok idle := by
  have hfiring : Firing none idle k := ⟨hk.sound, hk.running⟩
  cases e with
  | semRelease i =>
    obtain ⟨hsound, hcurrent, hcalls, hready⟩ := hk.sound.semRelease (i := i)
    obtain ⟨hs, hr⟩ := hfiring.inInterrupt hsound hcurrent hcalls hready
    exact ⟨hs, hr⟩
  | eventSend i set =>
    obtain ⟨hsound, hcurrent, hcalls, hready⟩ := hk.sound.eventSend i set nofun
    obtain ⟨hs, hr⟩ := hfiring.inInterrupt hsound hcurrent hcalls hready
    exact ⟨hs, hr⟩
  | timerStart i time =>
    exact ⟨hk.sound.quiet (hk.sound.sched.start nofun) quiet_start nofun, hk.running⟩
  | timerStop i =>
    refine ⟨hk.sound.quiet hk.sound.sched.stop quiet_stop nofun, ?_⟩
    change ((k.rtTimerStop (.other i)).thread (k.rtTimerStop (.other i)).currentThread).stat = _ ∨
      (k.rtTimerStop (.other i)).calls (k.rtTimerStop (.other i)).currentThread = true
    rw [rtTimerStop_current, rtTimerStop_thread, quiet_stop.calls]
    exact hk.running
  | tick sends => exact hk.tickIncrease

/-- A call keeps everything in order up to where it returns or goes on to the scheduler. -/
theorem Kernel.Ok.perform {c : Call} (hk : k.Ok idle) (hcall : k.calls k.currentThread = false)
    (hlegal : c.Legal idle k) : After idle k (c.perform k) := by
  have hrun : (k.thread k.currentThread).stat = .ready := by
    rcases hk.running with hr | hc
    · exact hr
    · rw [hcall] at hc
      cases hc
  cases c with
  | semTake i time => exact hk.sound.semTake hrun fun h => (hlegal h).1
  | semRelease i =>
    obtain ⟨hsound, hcurrent, hcalls, hready⟩ := hk.sound.semRelease (i := i)
    exact ⟨hsound, fun _ _ => hready _ hrun, hcurrent, hcalls⟩
  | mutexTake i time => exact hk.sound.mutexTake hrun fun h => (hlegal h).1
  | mutexRelease i => exact hk.sound.mutexRelease hrun
  | eventRecv i set option timeout => exact hk.sound.eventRecv hrun fun h => (hlegal.2 h).1
  | eventSend i set =>
    obtain ⟨hsound, hcurrent, hcalls, hready⟩ := hk.sound.eventSend i set nofun
    exact ⟨hsound, fun _ _ => hready _ hrun, hcurrent, hcalls⟩
  | timerStart i time =>
    exact ⟨hk.sound.quiet (hk.sound.sched.start nofun) quiet_start nofun, fun _ _ => hrun, rfl, rfl⟩
  | timerStop i =>
    have hquiet : k.Quiet none (k.rtTimerStop (.other i)) := quiet_stop
    exact ⟨hk.sound.quiet hk.sound.sched.stop hquiet nofun, fun _ _ => hquiet.ready hrun nofun,
      rtTimerStop_current _, hquiet.calls⟩
  | startup t =>
    have hquiet := quiet_startup hlegal.1
    exact ⟨hk.sound.quiet (hk.sound.sched.startup hlegal.1 hlegal.2) hquiet nofun, nofun,
      rtThreadResume_current, hquiet.calls⟩
  | yield =>
    rcases hyield : k.rtThreadYield with _ | k'
    · have hr : Call.yield.perform k = (.returns .eok, k) := by simp only [Call.perform, hyield]
      rw [hr]
      exact ⟨hk.sound, fun _ _ => hrun, rfl, rfl⟩
    · have hr : Call.yield.perform k = (.schedules, k') := by simp only [Call.perform, hyield]
      have hquiet := quiet_yield hk.sound.sched hyield
      have hcurrent : k'.currentThread = k.currentThread := by
        rw [(yield_mem hk.sound.sched hyield).2.2]
      rw [hr]
      exact ⟨hk.sound.quiet (hk.sound.sched.yield hyield) hquiet nofun, nofun, hcurrent,
        hquiet.calls⟩
  | sleep time =>
    refine ⟨hk.sound.quiet (hk.sound.sched.sleep hrun) quiet_sleep ?_, nofun,
      rtThreadSuspend_current, quiet_sleep.calls⟩
    rintro t h ⟨⟩
    exact ⟨trivial, hlegal.1⟩
  | exit =>
    refine ⟨hk.sound.quiet (hk.sound.sched.exit hrun) quiet_exit ?_, nofun, rfl, quiet_exit.calls⟩
    rintro t h ⟨⟩
    exact ⟨trivial, hlegal⟩

theorem Kernel.Ok.step {m : Move} (hk : k.Ok idle) (hm : m.Allowed idle k) : (k.step m).Ok idle := by
  cases m with
  | call c =>
    have hafter := hk.perform hm.1 hm.2
    have hcalls : ∀ {calls : Tid → Bool}, Sound none idle { (c.perform k).2 with calls := calls } :=
      ⟨hafter.sound.sched.congr rfl rfl rfl rfl rfl,
        ⟨hafter.sound.objects.semaphore, hafter.sound.objects.free, hafter.sound.objects.owned,
          hafter.sound.objects.event⟩, hafter.sound.idle⟩
    simp only [Kernel.step]
    split
    · next e hreturns =>
      refine ⟨hafter.sound, .inl ?_⟩
      rw [hafter.current]
      exact hafter.returns e hreturns
    · refine ⟨hcalls, .inr ?_⟩
      change Function.update (c.perform k).2.calls k.currentThread true
        (c.perform k).2.currentThread = true
      rw [hafter.current, Function.update_self]
  | schedule =>
    have hcalls : ∀ {calls : Tid → Bool}, Sound none idle { k with calls := calls } :=
      ⟨hk.sound.sched.congr rfl rfl rfl rfl rfl,
        ⟨hk.sound.objects.semaphore, hk.sound.objects.free, hk.sound.objects.owned,
          hk.sound.objects.event⟩, hk.sound.idle⟩
    exact ⟨hcalls.schedule, .inl hcalls.schedule.scheduled⟩
  | interrupt e => exact hk.interrupt

/-! ## All runs -/

theorem Reaches.mono {ok ok' : Kernel → Move → Prop} (h : Reaches idle ok k₀ k)
    (hok : ∀ k m, ok k m → ok' k m) : Reaches idle ok' k₀ k := by
  induction h with
  | start => exact .start
  | step _ hm hk ih => exact ih.step hm (hok _ _ hk)

theorem Kernel.Ok.reaches {ok : Kernel → Move → Prop} (hk : k₀.Ok idle)
    (h : Reaches idle ok k₀ k) : k.Ok idle := by
  induction h with
  | start => exact hk
  | step _ hm _ ih => exact ih.step hm

theorem Setup.initial_sched (s : Setup) : s.initial.Sched none where
  lists := {
    linked := ⟨fun _ => List.nodup_nil, nofun⟩
    absent := nofun
    ready := fun {t p} _ => iff_of_false List.not_mem_nil nofun
    waiting := nofun
    defunct := nofun
    priority := fun h => absurd rfl h
    group := fun {p} _ => by simp [Setup.initial] }
  timers := ⟨List.nodup_nil, nofun, fun _ => iff_of_false List.not_mem_nil nofun, nofun⟩

theorem Setup.initial_objects (s : Setup) : s.initial.Objects where
  semaphore h := absurd rfl h
  free _ := ⟨rfl, rfl, rfl, rfl⟩
  owned h := nomatch h
  event h := nomatch h

/-- Threads that are started once each, from a kernel in which none of them was. -/
theorem startups {ts : List Tid} (hs : k.Sched none) (ho : k.Objects) (hnodup : ts.Nodup)
    (hts : ∀ t ∈ ts, (k.thread t).stat = .init ∧ (k.thread t).initPriority < rtThreadPriorityMax) :
    (ts.foldl (fun k t => k.rtThreadStartup t) k).Sched none ∧
      (ts.foldl (fun k t => k.rtThreadStartup t) k).Objects ∧
      ∀ t, t ∈ ts ∨ (k.thread t).stat = .ready →
        ((ts.foldl (fun k t => k.rtThreadStartup t) k).thread t).stat = .ready := by
  induction ts generalizing k with
  | nil =>
    refine ⟨hs, ho, fun t ht => ?_⟩
    rcases ht with ht | ht
    · cases ht
    · exact ht
  | cons u ts ih =>
    obtain ⟨hu, hnodup'⟩ := List.nodup_cons.mp hnodup
    obtain ⟨hinit, hprio⟩ := hts u (.head _)
    have hquiet := quiet_startup hinit
    have hself : ((k.rtThreadStartup u).thread u).stat = .ready :=
      resume_stat (by rw [modify_thread_self])
    have hothers : ∀ t, t ≠ u → (k.rtThreadStartup u).thread t = k.thread t := by
      intro t htu
      exact (resume_of_ne htu).trans (modify_thread_of_ne htu _)
    obtain ⟨hs', ho', hready⟩ := ih (hs.startup hinit hprio) (ho.quiet hquiet nofun) hnodup' (by
      intro t ht
      rw [hothers t fun heq => hu (heq ▸ ht)]
      exact hts t (.tail _ ht))
    refine ⟨hs', ho', fun t ht => hready t ?_⟩
    rcases ht with ht | ht
    · rcases List.mem_cons.mp ht with rfl | ht
      · exact .inr hself
      · exact .inl ht
    · exact .inr (hquiet.ready ht nofun)

theorem Setup.boot_ok {s : Setup} (hnodup : s.started.Nodup)
    (hprio : ∀ t ∈ s.started, s.priority t < rtThreadPriorityMax) (hidle : idle ∈ s.started) :
    s.boot.Ok idle := by
  obtain ⟨hs, ho, hready⟩ := startups s.initial_sched s.initial_objects hnodup fun t ht =>
    ⟨rfl, hprio t ht⟩
  have hsound : Sound none idle (s.started.foldl (fun k t => k.rtThreadStartup t) s.initial) :=
    ⟨hs, ho, hready idle (.inl hidle)⟩
  exact ⟨hsound.schedule, .inl hsound.schedule.scheduled⟩

/-- **The kernel stays in order.** Started with threads of valid priorities, whatever
the threads call and whenever interrupts come in, every state reached has every
thread in the list its state names, the ready bits right, only sleepers' timers
running, nobody waiting for what is there, and every mutex free or with its owner. -/
theorem kernel_in_order {s : Setup} (hnodup : s.started.Nodup)
    (hprio : ∀ t ∈ s.started, s.priority t < rtThreadPriorityMax) (hidle : idle ∈ s.started)
    (h : Reaches idle (fun _ _ => True) s.boot k) : k.Ok idle :=
  (Setup.boot_ok hnodup hprio hidle).reaches h

/-- An idle thread, a thread, and a more urgent one that it starts. -/
def lowAndHigh : Setup where
  priority t := match t with
    | 0 => 31
    | 1 => 20
    | _ => 10
  slice _ := 5
  semaphore _ := ⟨0, .fifo⟩
  mutexFlag _ := .fifo
  eventFlag _ := .fifo
  started := [0, 1]

/-- The more urgent thread has waited for a mutex of the other one, and has it. -/
def handedOver : Kernel :=
  ((((((lowAndHigh.boot.step (.call (.mutexTake 0 (-1)))).step (.call (.startup 2))).step
    .schedule).step (.call (.mutexTake 0 (-1)))).step .schedule).step
      (.call (.mutexRelease 0))).step .schedule

theorem handedOver_reaches :
    Reaches 0 (fun k m => ∀ i, m = .call (.mutexRelease i) → k.list (.mutex i) ≠ [])
      lowAndHigh.boot handedOver := by
  unfold handedOver
  refine .step (.step (.step (.step (.step (.step (.step .start ?_ nofun) ?_ nofun) ?_ nofun)
    ?_ nofun) ?_ nofun) ?_ ?_) ?_ nofun
  · exact ⟨by decide +kernel, fun _ => ⟨by decide +kernel, by decide +kernel⟩⟩
  · exact ⟨by decide +kernel, by decide +kernel, by decide +kernel⟩
  · change _ = _
    decide +kernel
  · exact ⟨by decide +kernel, fun _ => ⟨by decide +kernel, by decide +kernel⟩⟩
  · change _ = _
    decide +kernel
  · exact ⟨by decide +kernel, trivial⟩
  · rintro i ⟨⟩
    decide +kernel
  · change _ = _
    decide +kernel

theorem kernel_in_order_handedOver : handedOver.Ok 0 :=
  kernel_in_order (s := lowAndHigh) (by decide) (by decide) (by decide)
    (handedOver_reaches.mono fun _ _ _ => trivial)

end Aclean.RtThread
