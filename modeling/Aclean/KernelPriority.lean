import Aclean.KernelRuns

/-!
# A thread's priority comes back

`rt_mutex_take` raises the owner of a mutex to the priority of a thread that
has to wait for it, and `rt_mutex_release` puts back the priority the owner
had when it took that mutex. With several mutexes this ends where it began
only if they are released in the reverse order of taking, as the firmware's
`motor_mutex` and `modbus_mutex` are: then a thread that owns none runs at its
own priority again, and no thread ever runs below it (`priority_restored`).
-/

namespace Aclean.RtThread

open Kernel

/-! ## Runs that release the last mutex first -/

/-- The mutexes of each thread behind a move, the one taken last first. -/
def Move.held (m : Move) (k : Kernel) (held : Tid → List Nat) : Tid → List Nat :=
  let t := k.currentThread
  match m with
  | .call (.mutexTake i _) =>
    if (k.mutex i).owner = none then Function.update held t (i :: held t) else held
  | .call (.mutexRelease i) =>
    if (k.mutex i).owner = some t ∧ (k.mutex i).hold - 1 = 0 then
      let held := Function.update held t (held t).tail
      match (k.list (.mutex i)).head? with
      | some u => Function.update held u (i :: held u)
      | none => held
    else held
  | _ => held

/-- A mutex that is given up is the one taken last. -/
def Move.ReleasesLast (m : Move) (k : Kernel) (held : Tid → List Nat) : Prop :=
  match m with
  | .call (.mutexRelease i) =>
    (k.mutex i).owner = some k.currentThread → (k.mutex i).hold - 1 = 0 →
      (held k.currentThread).head? = some i
  | _ => True

/-- The runs in which every thread releases the mutex it took last first. -/
inductive InOrder (idle : Tid) (k₀ : Kernel) : Kernel → (Tid → List Nat) → Prop
  | start : InOrder idle k₀ k₀ fun _ => []
  | step {k : Kernel} {m : Move} {held : Tid → List Nat} (h : InOrder idle k₀ k held)
      (hm : m.Allowed idle k) (hlast : m.ReleasesLast k held) :
      InOrder idle k₀ (k.step m) (m.held k held)

variable {k k' k'' k₀ : Kernel} {idle t u : Tid} {i : Nat} {held : Tid → List Nat}
  {priority : Tid → Nat}

theorem InOrder.reaches (h : InOrder idle k₀ k held) :
    Reaches idle (fun _ _ => True) k₀ k := by
  induction h with
  | start => exact .start
  | step _ hm _ ih => exact ih.step hm trivial

/-! ## What leaves priorities and mutexes alone -/

namespace Kernel

/-- From `k` to `k'` no priority and no mutex has changed. -/
structure Level (k k' : Kernel) : Prop where
  current : ∀ t, (k'.thread t).currentPriority = (k.thread t).currentPriority
  init : ∀ t, (k'.thread t).initPriority = (k.thread t).initPriority
  mutex : k'.mutex = k.mutex

theorem Level.refl : k.Level k := ⟨fun _ => rfl, fun _ => rfl, rfl⟩

/-- Other fields written. -/
theorem Level.write {timer : TimerId → Timer} {semaphore : Nat → Semaphore} {event : Nat → Event}
    {list : ListHead → List Tid} {timerList : List TimerId} {group : BitVec 32} {running : Tid}
    {tick : UInt32} {calls : Tid → Bool} (hk : k.Level k') :
    k.Level ⟨k'.thread, timer, semaphore, k'.mutex, event, list, timerList, group, running, tick,
      calls⟩ :=
  ⟨hk.current, hk.init, hk.mutex⟩

theorem Level.modify {f : Thread → Thread} (hk : k.Level k')
    (hcurrent : ∀ x, (f x).currentPriority = x.currentPriority)
    (hinit : ∀ x, (f x).initPriority = x.initPriority) : k.Level (k'.modify t f) where
  current u := by
    rw [← hk.current]
    by_cases hu : u = t
    · subst hu
      rw [modify_thread_self, hcurrent]
    · rw [modify_thread_of_ne hu]
  init u := by
    rw [← hk.init]
    by_cases hu : u = t
    · subst hu
      rw [modify_thread_self, hinit]
    · rw [modify_thread_of_ne hu]
  mutex := hk.mutex

theorem Level.stop {id : TimerId} (hk : k.Level k') : k.Level (k'.rtTimerStop id) := by
  unfold rtTimerStop
  split
  · exact hk.write
  · exact hk

theorem Level.insert (hk : k.Level k') : k.Level (k'.rtScheduleInsertThread t) :=
  .write (.modify hk (fun _ => rfl) fun _ => rfl)

theorem Level.suspend (hk : k.Level k') : k.Level (k'.rtThreadSuspend t) := by
  unfold rtThreadSuspend
  split
  · exact hk
  · exact .stop (.write (.modify hk (fun _ => rfl) fun _ => rfl))

theorem Level.resume (hk : k.Level k') : k.Level (k'.rtThreadResume t) := by
  unfold rtThreadResume
  split
  · exact hk
  · exact hk.write.stop.insert

theorem Level.listResume {h : ListHead} (hk : k.Level k') : k.Level (k'.rtIpcListResume h) := by
  unfold rtIpcListResume
  split
  · exact hk.resume
  · exact hk

theorem Level.waitOn {h : ListHead} {flag : IpcFlag} {time : Int} (hk : k.Level k') :
    k.Level (k'.waitOn h flag time) := by
  unfold Kernel.waitOn
  dsimp only
  split
  · exact hk.suspend.write.write
  · exact hk.suspend.write

theorem Level.schedule (hk : k.Level k') : k.Level k'.rtSchedule := by
  unfold rtSchedule
  split
  · exact hk.write
  · exact hk

theorem Level.yield (hk : k.Level k') (h : k'.rtThreadYield = some k'') : k.Level k'' := by
  unfold rtThreadYield at h
  dsimp only at h
  split at h
  · cases h
    exact hk.write
  · cases h

theorem Level.timeout (hk : k.Level k') : k.Level (k'.rtThreadTimeout t) :=
  .schedule (.insert (.write (.modify hk (fun _ => rfl) fun _ => rfl)))

theorem Level.exit (hk : k.Level k') : k.Level k'.rtThreadExit :=
  .write (.modify (.write hk) (fun _ => rfl) fun _ => rfl)

theorem Level.semTake {time : Int} (hk : k.Level k') : k.Level (k'.rtSemTake i time).2 := by
  unfold rtSemTake
  dsimp only
  split
  · exact hk.write
  · split
    · exact hk
    · exact .waitOn (.modify hk (fun _ => rfl) fun _ => rfl)

theorem Level.semRelease (hk : k.Level k') : k.Level (k'.rtSemRelease i).2 := by
  unfold rtSemRelease
  split
  · exact hk.listResume
  · exact hk.write

theorem Level.eventRecv {set : BitVec 32} {option : UInt8} {timeout : Int} (hk : k.Level k') :
    k.Level (k'.rtEventRecv i set option timeout).2 := by
  have hclear : k.Level (k'.modify k'.currentThread fun x => { x with error := .eok }) :=
    hk.modify (fun _ => rfl) fun _ => rfl
  unfold rtEventRecv
  split
  · exact hk
  · dsimp only
    split
    · dsimp only
      split
      · exact hclear.write
      · exact hclear
    · split
      · dsimp only
        exact .modify hclear (fun _ => rfl) fun _ => rfl
      · exact .waitOn (.modify hclear (fun _ => rfl) fun _ => rfl)

theorem Level.eventTurn (hk : k.Level k') : k.Level (k'.eventTurn i t).2 := by
  unfold Kernel.eventTurn
  dsimp only
  split
  · refine Level.resume ?_
    split
    · exact .write (.modify hk (fun _ => rfl) fun _ => rfl)
    · exact .modify hk (fun _ => rfl) fun _ => rfl
  · exact hk

theorem Level.eventLoop {ts : List Tid} (hk : k.Level k') : k.Level (k'.eventLoop i ts).2 := by
  induction ts generalizing k' with
  | nil => exact hk
  | cons t ts ih => exact ih hk.eventTurn

theorem Level.eventSend {set : BitVec 32} (hk : k.Level k') :
    k.Level (k'.rtEventSend i set).2 := by
  unfold rtEventSend
  split
  · exact hk
  · exact hk.write.eventLoop

theorem Level.inInterrupt {r : Ending × Kernel} (hk : k.Level r.2) : k.Level (inInterrupt r) := by
  unfold Kernel.inInterrupt
  split
  · exact hk
  · exact hk.schedule

theorem Level.timerFires {sends : Nat → Nat × BitVec 32} {id : TimerId} (hk : k.Level k') :
    k.Level (timerFires sends id k') := by
  unfold Kernel.timerFires
  refine Level.write ?_
  cases id with
  | thread t => exact hk.write.timeout
  | other i => exact Level.inInterrupt hk.write.eventSend

theorem Level.timerCheck {sends : Nat → Nat × BitVec 32} {fuel : Nat} (hk : k.Level k') :
    k.Level (rtTimerCheck sends fuel k') := by
  induction fuel generalizing k' with
  | zero => exact hk
  | succ fuel ih =>
    unfold rtTimerCheck
    split
    · exact hk
    · split
      · exact ih hk.timerFires
      · exact hk

theorem Level.ticked (hk : k.Level k') : k.Level k'.ticked := by
  unfold Kernel.ticked
  dsimp only
  split
  · split
    · next h =>
      refine Level.schedule (Level.yield ?_ h)
      exact .modify (.modify (.write hk) (fun _ => rfl) fun _ => rfl) (fun _ => rfl) fun _ => rfl
    · exact .modify (.modify (.write hk) (fun _ => rfl) fun _ => rfl) (fun _ => rfl) fun _ => rfl
  · exact .modify (.write hk) (fun _ => rfl) fun _ => rfl

theorem Level.interrupt {e : Interrupt} (hk : k.Level k') : k.Level (e.perform k') := by
  cases e with
  | semRelease i => exact Level.inInterrupt hk.semRelease
  | eventSend i set => exact Level.inInterrupt hk.eventSend
  | timerStart i time => exact hk.write
  | timerStop i => exact hk.stop
  | tick sends => exact hk.ticked.timerCheck

/-! ## The invariant -/

/-- The threads own the mutexes they are said to hold; no thread is below its own
priority; and the one with nothing left to release, or with one mutex, is at its
own priority or will be put there. -/
structure Inherits (priority : Tid → Nat) (held : Tid → List Nat) (k : Kernel) : Prop where
  init : ∀ t, (k.thread t).initPriority = priority t
  owner : ∀ {i t}, (k.mutex i).owner = some t ↔ i ∈ held t
  nodup : ∀ t, (held t).Nodup
  above : ∀ t, (k.thread t).currentPriority ≤ (k.thread t).initPriority
  saved : ∀ {i t}, i ∈ held t → (k.mutex i).originalPriority ≤ (k.thread t).initPriority
  rest : ∀ {t}, held t = [] → (k.thread t).currentPriority = (k.thread t).initPriority
  last : ∀ {t i}, (held t).getLast? = some i →
    (k.mutex i).originalPriority = (k.thread t).initPriority

theorem Inherits.level (hk : Inherits priority held k) (h : k.Level k') : Inherits priority held k' where
  init t := (h.init t).trans (hk.init t)
  owner := by
    rw [h.mutex]
    exact hk.owner
  nodup := hk.nodup
  above t := by
    rw [h.current, h.init]
    exact hk.above t
  saved := by
    intro i t
    rw [h.mutex, h.init]
    exact hk.saved
  rest := by
    intro t
    rw [h.current, h.init]
    exact hk.rest
  last := by
    intro t i
    rw [h.mutex, h.init]
    exact hk.last

/-- A mutex written whose owner and saved priority stay. -/
theorem Inherits.setMutex {m : Mutex} (hk : Inherits priority held k) (howner : m.owner = (k.mutex i).owner)
    (horig : m.originalPriority = (k.mutex i).originalPriority) :
    Inherits priority held (k.setMutex i m) := by
  have hmutex : ∀ j, ((k.setMutex i m).mutex j).owner = (k.mutex j).owner ∧
      ((k.setMutex i m).mutex j).originalPriority = (k.mutex j).originalPriority := by
    intro j
    change (Function.update k.mutex i m j).owner = _ ∧
      (Function.update k.mutex i m j).originalPriority = _
    by_cases hj : j = i
    · subst hj
      rw [Function.update_self]
      exact ⟨howner, horig⟩
    · rw [Function.update_of_ne hj]
      exact ⟨rfl, rfl⟩
  refine ⟨hk.init, ?_, hk.nodup, hk.above, ?_, hk.rest, ?_⟩
  · intro j t
    rw [(hmutex j).1]
    exact hk.owner
  · intro j t
    rw [(hmutex j).2]
    exact hk.saved
  · intro t j
    rw [(hmutex j).2]
    exact hk.last

/-- A free mutex is taken by a thread that may hold others already. -/
theorem Inherits.take {m : Mutex} (hk : Inherits priority held k) (hfree : (k.mutex i).owner = none)
    (howner : m.owner = some t) (horig : m.originalPriority = (k.thread t).currentPriority) :
    Inherits priority (Function.update held t (i :: held t)) (k.setMutex i m) := by
  have hnot : ∀ u, i ∉ held u := fun u hi => by
    rw [← hk.owner, hfree] at hi
    cases hi
  have hself : (k.setMutex i m).mutex i = m := Function.update_self _ _ _
  have hother : ∀ {j}, j ≠ i → (k.setMutex i m).mutex j = k.mutex j :=
    fun hj => Function.update_of_ne hj _ _
  have hkept : ∀ {u j}, j ∈ held u → j ≠ i := fun hj heq => hnot _ (heq ▸ hj)
  refine ⟨hk.init, ?_, ?_, hk.above, ?_, ?_, ?_⟩
  · intro j u
    by_cases hj : j = i
    · subst hj
      rw [hself, howner]
      by_cases hu : u = t
      · subst hu
        simp
      · rw [Function.update_of_ne hu]
        exact iff_of_false (fun h => hu (Option.some.inj h).symm) (hnot u)
    · rw [hother hj, hk.owner]
      by_cases hu : u = t
      · subst hu
        simp [hj]
      · rw [Function.update_of_ne hu]
  · intro u
    by_cases hu : u = t
    · subst hu
      rw [Function.update_self]
      exact List.nodup_cons.mpr ⟨hnot u, hk.nodup u⟩
    · rw [Function.update_of_ne hu]
      exact hk.nodup u
  · intro j u hj
    by_cases hu : u = t
    · subst hu
      rw [Function.update_self] at hj
      rcases List.mem_cons.mp hj with rfl | hj
      · rw [hself, horig]
        exact hk.above u
      · rw [hother (hkept hj)]
        exact hk.saved hj
    · rw [Function.update_of_ne hu] at hj
      rw [hother (hkept hj)]
      exact hk.saved hj
  · intro u hu
    by_cases heq : u = t
    · subst heq
      rw [Function.update_self] at hu
      cases hu
    · rw [Function.update_of_ne heq] at hu
      exact hk.rest hu
  · intro u j hlast
    by_cases heq : u = t
    · subst heq
      rw [Function.update_self] at hlast
      rcases hheld : held u with _ | ⟨a, as⟩
      · -- the first it takes: what is saved is its own priority
        rw [hheld] at hlast
        obtain rfl : i = j := Option.some.inj hlast
        rw [hself, horig]
        exact hk.rest hheld
      · rw [hheld, List.getLast?_cons_cons, ← hheld] at hlast
        rw [hother (hkept (List.mem_of_getLast? hlast))]
        exact hk.last hlast
    · rw [Function.update_of_ne heq] at hlast
      rw [hother (hkept (List.mem_of_getLast? hlast))]
      exact hk.last hlast

/-- A change of one thread's priority, and of nothing else. -/
structure Moved (t : Tid) (p : Nat) (k k' : Kernel) : Prop where
  self : (k'.thread t).currentPriority = p
  others : ∀ u, u ≠ t → (k'.thread u).currentPriority = (k.thread u).currentPriority
  init : ∀ u, (k'.thread u).initPriority = (k.thread u).initPriority
  mutex : k'.mutex = k.mutex

theorem control_moved {p : Nat} : Moved t p k (k.rtThreadControl t p) := by
  have hinsert : ∀ {j : Kernel}, j.Level (j.rtScheduleInsertThread t) := Level.refl.insert
  unfold rtThreadControl
  dsimp only
  split
  · refine ⟨?_, ?_, ?_, rfl⟩
    · rw [hinsert.current, modify_thread_self]
    · intro u hu
      rw [hinsert.current, modify_thread_of_ne hu]
      rfl
    · intro u
      rw [hinsert.init]
      by_cases hu : u = t
      · subst hu
        rw [modify_thread_self]
        rfl
      · rw [modify_thread_of_ne hu]
        rfl
  · refine ⟨?_, ?_, ?_, rfl⟩
    · rw [modify_thread_self]
    · intro u hu
      rw [modify_thread_of_ne hu]
    · intro u
      by_cases hu : u = t
      · subst hu
        rw [modify_thread_self]
      · rw [modify_thread_of_ne hu]

/-- A thread that owns a mutex is raised. -/
theorem Inherits.raise {p : Nat} (hk : Inherits priority held k) (hne : held t ≠ [])
    (hp : p ≤ (k.thread t).initPriority) (h : Moved t p k k') : Inherits priority held k' where
  init u := (h.init u).trans (hk.init u)
  owner := by
    rw [h.mutex]
    exact hk.owner
  nodup := hk.nodup
  above u := by
    rw [h.init]
    by_cases hu : u = t
    · subst hu
      rwa [h.self]
    · rw [h.others u hu]
      exact hk.above u
  saved := by
    intro i u
    rw [h.mutex, h.init]
    exact hk.saved
  rest := by
    intro u hu
    rw [h.init, h.others u fun heq => hne (heq ▸ hu)]
    exact hk.rest hu
  last := by
    intro u i
    rw [h.mutex, h.init]
    exact hk.last

/-- The last mutex taken is given up, at the priority saved in it. -/
theorem Inherits.drop {m : Mutex} {is : List Nat} (hk : Inherits priority held k) (hheld : held t = i :: is)
    (h : Moved t (k.mutex i).originalPriority k k') (howner : m.owner = none) :
    Inherits priority (Function.update held t is) (k'.setMutex i m) := by
  have hi : i ∈ held t := hheld ▸ .head _
  obtain ⟨hnot, hnodup⟩ := List.nodup_cons.mp (hheld ▸ hk.nodup t)
  have hself : (k'.setMutex i m).mutex i = m := Function.update_self _ _ _
  have hother : ∀ {j}, j ≠ i → (k'.setMutex i m).mutex j = k.mutex j := by
    intro j hj
    rw [← h.mutex]
    exact Function.update_of_ne hj _ _
  have hkept : ∀ {u j}, j ∈ Function.update held t is u → j ≠ i ∧ j ∈ held u := by
    intro u j hj
    by_cases hu : u = t
    · subst hu
      rw [Function.update_self] at hj
      exact ⟨fun heq => hnot (heq ▸ hj), hheld ▸ .tail _ hj⟩
    · rw [Function.update_of_ne hu] at hj
      refine ⟨fun heq => hu ?_, hj⟩
      have hu' := hk.owner.mpr (heq ▸ hj : i ∈ held u)
      exact Option.some.inj (hu'.symm.trans (hk.owner.mpr hi))
  refine ⟨fun u => (h.init u).trans (hk.init u), ?_, ?_, ?_, ?_, ?_, ?_⟩
  · intro j u
    by_cases hj : j = i
    · subst hj
      rw [hself, howner]
      exact iff_of_false nofun fun hmem => (hkept hmem).1 rfl
    · rw [hother hj, hk.owner]
      by_cases hu : u = t
      · subst hu
        rw [hheld, Function.update_self, List.mem_cons]
        exact or_iff_right hj
      · rw [Function.update_of_ne hu]
  · intro u
    by_cases hu : u = t
    · subst hu
      rwa [Function.update_self]
    · rw [Function.update_of_ne hu]
      exact hk.nodup u
  · intro u
    change (k'.thread u).currentPriority ≤ (k'.thread u).initPriority
    rw [h.init]
    by_cases hu : u = t
    · subst hu
      rw [h.self]
      exact hk.saved hi
    · rw [h.others u hu]
      exact hk.above u
  · intro j u hj
    obtain ⟨hji, hmem⟩ := hkept hj
    rw [hother hji]
    exact (hk.saved hmem).trans_eq (h.init u).symm
  · intro u hu
    change (k'.thread u).currentPriority = (k'.thread u).initPriority
    rw [h.init]
    by_cases heq : u = t
    · subst heq
      rw [Function.update_self] at hu
      subst hu
      rw [h.self]
      exact hk.last (by rw [hheld]; rfl)
    · rw [Function.update_of_ne heq] at hu
      rw [h.others u heq]
      exact hk.rest hu
  · intro u j hlast
    rw [hother (hkept (List.mem_of_getLast? hlast)).1]
    refine (hk.last ?_).trans (h.init u).symm
    by_cases heq : u = t
    · subst heq
      rw [Function.update_self] at hlast
      obtain _ | ⟨a, as⟩ := is
      · cases hlast
      · rw [hheld, List.getLast?_cons_cons]
        exact hlast
    · rwa [Function.update_of_ne heq] at hlast

/-! ## The steps -/

theorem Inherits.mutexTake {time : Int} (hok : k.Sound none idle) (hk : Inherits priority held k) :
    Inherits priority (Move.held (.call (.mutexTake i time)) k held) (k.rtMutexTake i time).2 := by
  have hclear : Inherits priority held
      (k.modify k.currentThread fun x => { x with error := .eok }) :=
    hk.level (.modify .refl (fun _ => rfl) fun _ => rfl)
  unfold Move.held rtMutexTake
  dsimp only
  generalize hj : (k.modify k.currentThread fun x => { x with error := .eok }) = j at hclear ⊢
  have hmutex : j.mutex = k.mutex := by rw [← hj]; rfl
  rw [hmutex]
  rcases howner : (k.mutex i).owner with _ | u
  · have hvalue : 0 < (k.mutex i).value := by rw [(hok.objects.free howner).1]; decide
    rw [if_pos rfl, if_neg nofun, if_pos hvalue]
    exact hclear.take (hmutex ▸ howner) rfl rfl
  · have hvalue : ¬ 0 < (k.mutex i).value := by rw [(hok.objects.owned howner).1]; decide
    rw [if_neg nofun]
    by_cases hown : some u = some k.currentThread
    · rw [if_pos hown]
      exact hclear.setMutex (by rw [hmutex, howner]) (by rw [hmutex])
    · rw [if_neg hown, if_neg hvalue]
      split
      · dsimp only
        exact hclear.level (.modify .refl (fun _ => rfl) fun _ => rfl)
      · refine Inherits.level ?_ (Level.waitOn .refl)
        dsimp only
        split
        · next hless =>
          -- the owner is raised to the caller's priority
          refine hclear.raise (List.ne_nil_of_mem (hk.owner.mp howner)) ?_ control_moved
          exact hless.le.trans (hclear.above u)
        · exact hclear

theorem Inherits.mutexRelease (hok : k.Sound none idle) (hk : Inherits priority held k)
    (hlast : Move.ReleasesLast (.call (.mutexRelease i)) k held) :
    Inherits priority (Move.held (.call (.mutexRelease i)) k held) (k.rtMutexRelease i).2 := by
  unfold Move.held rtMutexRelease
  dsimp only
  by_cases howner : (k.mutex i).owner = some k.currentThread
  · rw [if_neg (not_not.mpr howner)]
    by_cases hhold : (k.mutex i).hold - 1 = 0
    · rw [if_neg (not_not.mpr hhold), if_pos ⟨howner, hhold⟩]
      obtain ⟨is, hheld⟩ : ∃ is, held k.currentThread = i :: is := by
        have hhead := hlast howner hhold
        rcases hheld : held k.currentThread with _ | ⟨j, is⟩
        · rw [hheld] at hhead
          cases hhead
        · rw [hheld] at hhead
          exact ⟨is, by rw [Option.some.inj hhead]⟩
      -- the owner's priority is put back, if it is not where it was
      have hmoved : Moved k.currentThread (k.mutex i).originalPriority k
          (if (k.mutex i).originalPriority ≠ (k.thread k.currentThread).currentPriority then
            k.rtThreadControl k.currentThread (k.mutex i).originalPriority else k) := by
        split
        · exact control_moved
        · next hsame => exact ⟨(not_not.mp hsame).symm, fun _ _ => rfl, fun _ => rfl, rfl⟩
      have hlists : (if (k.mutex i).originalPriority ≠ (k.thread k.currentThread).currentPriority
          then k.rtThreadControl k.currentThread (k.mutex i).originalPriority else k).list
            (.mutex i) = k.list (.mutex i) := by
        split
        · exact control_waiting hok.sched trivial
        · rfl
      rw [hlists, hheld]
      generalize (if (k.mutex i).originalPriority ≠ (k.thread k.currentThread).currentPriority then
        k.rtThreadControl k.currentThread (k.mutex i).originalPriority else k) = j at hmoved ⊢
      rcases hwaits : (k.list (.mutex i)).head? with _ | u
      · exact hk.drop hheld hmoved rfl
      · -- a hand-over is a release, and a take by the first thread that waits
        have hdropped := hk.drop (m := ⟨0, 0, 0, none, .fifo⟩) hheld hmoved rfl
        have htaken := hdropped.take (i := i) (t := u)
          (m := { k.mutex i with
            owner := some u
            originalPriority := (j.thread u).currentPriority
            hold := (k.mutex i).hold - 1 + 1 })
          (by change (Function.update j.mutex i _ i).owner = none; rw [Function.update_self])
          rfl rfl
        refine Inherits.level ?_ (Level.listResume .refl)
        have htwice : (j.setMutex i ⟨0, 0, 0, none, .fifo⟩).setMutex i
            { k.mutex i with
              owner := some u
              originalPriority := (j.thread u).currentPriority
              hold := (k.mutex i).hold - 1 + 1 } =
            j.setMutex i
              { k.mutex i with
                owner := some u
                originalPriority := (j.thread u).currentPriority
                hold := (k.mutex i).hold - 1 + 1 } := by
          change { j with mutex := Function.update (Function.update j.mutex i _) i _ } =
            { j with mutex := Function.update j.mutex i _ }
          rw [Function.update_idem]
        rw [htwice] at htaken
        exact htaken
    · rw [if_pos hhold, if_neg fun h => hhold h.2]
      exact hk.setMutex rfl rfl
  · rw [if_pos howner, if_neg fun h => howner h.1]
    dsimp only
    exact hk.level (.modify .refl (fun _ => rfl) fun _ => rfl)

theorem Inherits.perform {c : Call} (hok : k.Sound none idle) (hlegal : c.Legal idle k)
    (hk : Inherits priority held k) (hlast : Move.ReleasesLast (.call c) k held) :
    Inherits priority (Move.held (.call c) k held) (c.perform k).2 := by
  cases c with
  | semTake i time => exact hk.level (.semTake .refl)
  | semRelease i => exact hk.level (.semRelease .refl)
  | mutexTake i time => exact hk.mutexTake hok
  | mutexRelease i => exact hk.mutexRelease hok hlast
  | eventRecv i set option timeout => exact hk.level (.eventRecv .refl)
  | eventSend i set => exact hk.level (.eventSend .refl)
  | timerStart i time => exact hk.level (.write .refl)
  | timerStop i => exact hk.level (.stop .refl)
  | startup t =>
    -- a thread that has not run owns nothing, and starts at its own priority
    have hnone : held t = [] := List.eq_nil_iff_forall_not_mem.mpr fun i hi =>
      (hok.objects.owned (hk.owner.mpr hi)).2.2.2 hlegal.1
    refine hk.level (.resume ⟨fun u => ?_, fun u => ?_, rfl⟩)
    · by_cases hu : u = t
      · subst hu
        rw [modify_thread_self]
        exact (hk.rest hnone).symm
      · rw [modify_thread_of_ne hu]
    · by_cases hu : u = t
      · subst hu
        rw [modify_thread_self]
      · rw [modify_thread_of_ne hu]
  | yield =>
    rcases hyield : k.rtThreadYield with _ | k'
    · have hr : Call.yield.perform k = (.returns .eok, k) := by simp only [Call.perform, hyield]
      rw [hr]
      exact hk
    · have hr : Call.yield.perform k = (.schedules, k') := by simp only [Call.perform, hyield]
      rw [hr]
      exact hk.level (.yield .refl hyield)
  | sleep time => exact hk.level (.write (.suspend .refl))
  | exit => exact hk.level (.exit .refl)

theorem Inherits.step {m : Move} (hok : k.Sound none idle) (hm : m.Allowed idle k)
    (hk : Inherits priority held k) (hlast : m.ReleasesLast k held) :
    Inherits priority (m.held k held) (k.step m) := by
  cases m with
  | call c =>
    have hdone := hk.perform hok hm.2 hlast
    simp only [Kernel.step]
    split
    · exact hdone
    · exact hdone.level (.write .refl)
  | schedule => exact hk.level (.schedule (.write .refl))
  | interrupt e => exact hk.level (.interrupt .refl)

end Kernel

/-! ## All runs -/

theorem startups_priority {ts : List Tid} (hk : Inherits priority held k)
    (hrest : ∀ t, held t = []) :
    Inherits priority held (ts.foldl (fun k t => k.rtThreadStartup t) k) := by
  induction ts generalizing k with
  | nil => exact hk
  | cons u ts ih =>
    have hlevel : k.Level (k.rtThreadStartup u) := by
      refine .resume ⟨fun t => ?_, fun t => ?_, rfl⟩
      · by_cases ht : t = u
        · subst ht
          rw [modify_thread_self]
          exact (hk.rest (hrest t)).symm
        · rw [modify_thread_of_ne ht]
      · by_cases ht : t = u
        · subst ht
          rw [modify_thread_self]
        · rw [modify_thread_of_ne ht]
    exact ih (hk.level hlevel)

theorem Setup.boot_priority (s : Setup) : Inherits s.priority (fun _ => []) s.boot := by
  have hinitial : Inherits s.priority (fun _ => []) s.initial :=
    ⟨fun _ => rfl, iff_of_false nofun List.not_mem_nil, fun _ => List.nodup_nil, fun _ => le_rfl, nofun,
      fun _ => rfl, nofun⟩
  exact (startups_priority hinitial fun _ => rfl).level (.schedule .refl)

/-- **A thread's priority comes back.** In every run in which the threads release their
mutexes in the reverse order of taking, whatever they wait for and whenever interrupts
come in, no thread is ever less urgent than it was made, and one that owns no mutex is
exactly as urgent. -/
theorem priority_restored {s : Setup} (hnodup : s.started.Nodup)
    (hprio : ∀ t ∈ s.started, s.priority t < rtThreadPriorityMax) (hidle : idle ∈ s.started)
    (h : InOrder idle s.boot k held) (t : Tid) :
    (k.thread t).currentPriority ≤ s.priority t ∧
      ((∀ i, (k.mutex i).owner ≠ some t) → (k.thread t).currentPriority = s.priority t) := by
  have hinherits : Inherits s.priority held k := by
    induction h with
    | start => exact s.boot_priority
    | step hrun hm hlast ih =>
      exact ih.step ((Setup.boot_ok hnodup hprio hidle).reaches hrun.reaches).sound hm hlast
  refine ⟨(hinherits.above t).trans_eq (hinherits.init t), fun hfree => ?_⟩
  have hnone : held t = [] := List.eq_nil_iff_forall_not_mem.mpr fun i hi =>
    hfree i (hinherits.owner.mpr hi)
  exact (hinherits.rest hnone).trans (hinherits.init t)

theorem handedOver_inOrder : ∃ held, InOrder 0 lowAndHigh.boot handedOver held := by
  unfold handedOver
  refine ⟨_, .step (.step (.step (.step (.step (.step (.step .start ?_ trivial) ?_ trivial)
    ?_ trivial) ?_ trivial) ?_ trivial) ?_ ?_) ?_ trivial⟩
  · exact ⟨by decide +kernel, fun _ => ⟨by decide +kernel, by decide +kernel⟩⟩
  · exact ⟨by decide +kernel, by decide +kernel, by decide +kernel⟩
  · change _ = _
    decide +kernel
  · exact ⟨by decide +kernel, fun _ => ⟨by decide +kernel, by decide +kernel⟩⟩
  · change _ = _
    decide +kernel
  · exact ⟨by decide +kernel, trivial⟩
  · intro _ _
    decide +kernel
  · change _ = _
    decide +kernel

/-- The thread that was raised to 10 is at 20 again. -/
theorem priority_restored_handedOver :
    (handedOver.thread 1).currentPriority ≤ 20 ∧
      ((∀ i, (handedOver.mutex i).owner ≠ some 1) →
        (handedOver.thread 1).currentPriority = 20) := by
  obtain ⟨held, hrun⟩ := handedOver_inOrder
  exact priority_restored (s := lowAndHigh) (by decide) (by decide) (by decide) hrun 1

end Aclean.RtThread
