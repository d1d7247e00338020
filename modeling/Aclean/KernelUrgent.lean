import Aclean.KernelRuns

/-!
# Who runs

The thread that runs is the first of the most urgent ready ones, or is on its
way to the scheduler (`most_urgent_runs`), in every run in which no thread
lowers its own priority by releasing a mutex that nobody waits for: there
`rt_mutex_release` moves the thread back in the ready lists and returns
without `rt_schedule`.
-/

namespace Aclean.RtThread

open Kernel

variable {k k' : Kernel} {idle t u : Tid}

/-! ## The scheduler's choice -/

/-- A release that lowers the thread's priority while nobody waits for the mutex. -/
def Call.Lowers (k : Kernel) : Call → Prop
  | .mutexRelease i => (k.mutex i).owner = some k.currentThread ∧ (k.mutex i).hold - 1 = 0 ∧
      (k.mutex i).originalPriority ≠ (k.thread k.currentThread).currentPriority ∧
      k.list (.mutex i) = []
  | _ => False

def Move.Lowers (k : Kernel) : Move → Prop
  | .call c => c.Lowers k
  | _ => False

/-- The running thread may run, or is about to find out. -/
def Kernel.Urgent (k : Kernel) : Prop := k.calls k.currentThread = true ∨ k.First k.currentThread

theorem Kernel.Urgent.same (hk : k.Urgent) (hlist : k'.list = k.list)
    (hcurrent : k'.currentThread = k.currentThread) (hcalls : k'.calls = k.calls) : k'.Urgent := by
  unfold Urgent First
  rw [hlist, hcurrent, hcalls]
  exact hk

theorem Kernel.Sound.urgent {o : Option TimerId} (hk : k.rtSchedule.Sound o idle) :
    k.rtSchedule.Urgent := by
  have hfirst := schedule_first hk.sched.lists hk.idle
  rw [schedule_idem] at hfirst
  exact .inr hfirst

/-- A send that wakes nobody changes nothing but the event. -/
theorem eventLoop_idle {i : Nat} {ts : List Tid} (h : (k.eventLoop i ts).1 = false) :
    (k.eventLoop i ts).2 = k := by
  induction ts generalizing k with
  | nil => rfl
  | cons t ts ih =>
    have hor : ((k.eventTurn i t).1 || ((k.eventTurn i t).2.eventLoop i ts).1) = false := h
    obtain ⟨hturn, hrest⟩ := Bool.or_eq_false_iff.mp hor
    have hsame : (k.eventTurn i t).2 = k := by
      unfold eventTurn at hturn ⊢
      dsimp only at hturn ⊢
      split at hturn
      · cases hturn
      · next hnot => rw [if_neg hnot]
    exact (ih hrest).trans hsame

theorem eventSend_returns {i : Nat} {set : BitVec 32} {e : Err}
    (h : (k.rtEventSend i set).1 = .returns e) :
    (k.rtEventSend i set).2.list = k.list ∧
      (k.rtEventSend i set).2.currentThread = k.currentThread := by
  unfold rtEventSend at h ⊢
  split at h
  · next hset =>
    rw [if_pos hset]
    exact ⟨rfl, rfl⟩
  · next hset =>
    rw [if_neg hset]
    dsimp only at h ⊢
    split at h
    · cases h
    · next hidle =>
      rw [eventLoop_idle (Bool.eq_false_iff.mpr hidle)]
      exact ⟨rfl, rfl⟩

theorem semRelease_returns {i : Nat} {e : Err} (h : (k.rtSemRelease i).1 = .returns e) :
    (k.rtSemRelease i).2.list = k.list ∧
      (k.rtSemRelease i).2.currentThread = k.currentThread := by
  unfold rtSemRelease at h ⊢
  split at h
  · cases h
  · next hnil =>
    rw [if_neg hnil]
    exact ⟨rfl, rfl⟩

/-- A call that returns leaves the lists as they are, but for a release that lowers. -/
theorem perform_returns {c : Call} {e : Err} (hk : k.Sched none) (h : (c.perform k).1 = .returns e)
    (hlower : ¬ c.Lowers k) :
    (c.perform k).2.list = k.list ∧ (c.perform k).2.currentThread = k.currentThread := by
  cases c with
  | semTake i time =>
    change (k.rtSemTake i time).1 = _ at h
    change (k.rtSemTake i time).2.list = _ ∧ (k.rtSemTake i time).2.currentThread = _
    unfold rtSemTake at h ⊢
    dsimp only at h ⊢
    split at h
    · next hvalue =>
      rw [if_pos hvalue]
      exact ⟨rfl, rfl⟩
    · next hvalue =>
      rw [if_neg hvalue]
      split at h
      · next htime =>
        rw [if_pos htime]
        exact ⟨rfl, rfl⟩
      · cases h
  | semRelease i => exact semRelease_returns h
  | mutexTake i time =>
    change (k.rtMutexTake i time).1 = _ at h
    change (k.rtMutexTake i time).2.list = _ ∧ (k.rtMutexTake i time).2.currentThread = _
    unfold rtMutexTake at h ⊢
    dsimp only at h ⊢
    split at h
    · next hown =>
      rw [if_pos hown]
      exact ⟨rfl, rfl⟩
    · next hown =>
      rw [if_neg hown]
      split at h
      · next hvalue =>
        rw [if_pos hvalue]
        exact ⟨rfl, rfl⟩
      · next hvalue =>
        rw [if_neg hvalue]
        split at h
        · next htime =>
          rw [if_pos htime]
          exact ⟨rfl, rfl⟩
        · cases h
  | mutexRelease i =>
    change (k.rtMutexRelease i).1 = _ at h
    change (k.rtMutexRelease i).2.list = _ ∧ (k.rtMutexRelease i).2.currentThread = _
    unfold rtMutexRelease at h ⊢
    dsimp only at h ⊢
    split at h
    · next howner =>
      rw [if_pos howner]
      exact ⟨rfl, rfl⟩
    · next howner =>
      rw [if_neg howner]
      split at h
      · next hhold =>
        rw [if_pos hhold]
        exact ⟨rfl, rfl⟩
      · next hhold =>
        rw [if_neg hhold]
        by_cases hprio : (k.mutex i).originalPriority ≠ (k.thread k.currentThread).currentPriority
        · rw [if_pos hprio] at h ⊢
          split at h
          · cases h
          · next hhead =>
            -- nobody waits, behind the change of priority as before
            have hnil : k.list (.mutex i) = [] := by
              rw [control_waiting hk (by trivial)] at hhead
              exact List.head?_eq_none_iff.mp hhead
            exact absurd ⟨not_not.mp howner, not_not.mp hhold, hprio, hnil⟩ hlower
        · rw [if_neg hprio] at h ⊢
          split at h
          · cases h
          · exact ⟨rfl, rfl⟩
  | eventRecv i set option timeout =>
    change (k.rtEventRecv i set option timeout).1 = _ at h
    change (k.rtEventRecv i set option timeout).2.list = _ ∧
      (k.rtEventRecv i set option timeout).2.currentThread = _
    unfold rtEventRecv at h ⊢
    split at h
    · next hset =>
      rw [if_pos hset]
      exact ⟨rfl, rfl⟩
    · next hset =>
      rw [if_neg hset]
      dsimp only at h ⊢
      split at h
      · next hgot =>
        rw [if_pos hgot]
        dsimp only
        split <;> exact ⟨rfl, rfl⟩
      · next hgot =>
        rw [if_neg hgot]
        split at h
        · next htime =>
          rw [if_pos htime]
          exact ⟨rfl, rfl⟩
        · cases h
  | eventSend i set => exact eventSend_returns h
  | timerStart i time => exact ⟨rfl, rfl⟩
  | timerStop i => exact ⟨rtTimerStop_list _, rtTimerStop_current _⟩
  | startup t => cases h
  | yield =>
    simp only [Call.perform] at h ⊢
    split at h
    · cases h
    · exact ⟨rfl, rfl⟩
  | sleep time => cases h
  | exit => cases h

/-- A call from an interrupt, whose `rt_schedule` comes right behind. -/
theorem Kernel.Urgent.inInterrupt {o : Option TimerId} {r : Ending × Kernel} (hk : k.Urgent)
    (hsound : r.2.Sound o idle) (hcalls : r.2.calls = k.calls)
    (hreturns : ∀ e, r.1 = .returns e →
      r.2.list = k.list ∧ r.2.currentThread = k.currentThread) :
    (inInterrupt r).Urgent := by
  unfold Kernel.inInterrupt
  split
  · next e hr =>
    obtain ⟨hlist, hcurrent⟩ := hreturns e hr
    exact hk.same hlist hcurrent hcalls
  · exact hsound.schedule.urgent

theorem Kernel.Urgent.timerFires {sends : Nat → Nat × BitVec 32} {id : TimerId} (hk : k.Ok idle)
    (hurgent : k.Urgent) (hid : id ∈ k.timerList) : (timerFires sends id k).Urgent := by
  have htaken := hk.taken id
  have hfired := htaken.timeoutFunc sends fun t ht =>
    hk.sound.sched.timers.asleep (ht ▸ hid)
  have hmoved : (timeoutFunc sends id { k with timerList := k.timerList.erase id }).Urgent := by
    cases id with
    | thread t => exact hfired.sound.urgent
    | other i =>
      obtain ⟨hsound, -, hcalls, -⟩ :=
        htaken.sound.eventSend (sends i).1 (sends i).2 (fun t => by nofun)
      have hsame : Urgent { k with timerList := k.timerList.erase (.other i) } :=
        hurgent.same rfl rfl rfl
      exact hsame.inInterrupt hsound hcalls fun e he => eventSend_returns he
  exact hmoved.same rfl rfl rfl

theorem Kernel.Urgent.timerCheck {sends : Nat → Nat × BitVec 32} {fuel : Nat} (hk : k.Ok idle)
    (hurgent : k.Urgent) : (rtTimerCheck sends fuel k).Urgent := by
  induction fuel generalizing k with
  | zero => exact hurgent
  | succ fuel ih =>
    unfold rtTimerCheck
    split
    · exact hurgent
    · next id ids hlist =>
      have hid : id ∈ k.timerList := by rw [hlist]; exact .head _
      split
      · exact ih (hk.timerFires hid) (hurgent.timerFires hk hid)
      · exact hurgent

theorem Kernel.Urgent.ticked (hk : k.Ok idle) (hurgent : k.Urgent) : k.ticked.Urgent := by
  have hticked : Ok idle (modify k.currentThread
      (fun x => { x with remainingTick := x.remainingTick - 1 }) { k with tick := k.tick + 1 }) :=
    hk.count fun x => ⟨_, rfl⟩
  have hu : Urgent (modify k.currentThread
      (fun x => { x with remainingTick := x.remainingTick - 1 }) { k with tick := k.tick + 1 }) :=
    hurgent.same rfl rfl rfl
  unfold Kernel.ticked
  dsimp only
  generalize modify k.currentThread (fun x => { x with remainingTick := x.remainingTick - 1 })
    { k with tick := k.tick + 1 } = j at hticked hu ⊢
  split
  · have hslice : Ok idle (j.modify k.currentThread fun x =>
        { x with remainingTick := x.initTick }) := hticked.count fun x => ⟨_, rfl⟩
    have hu' : Urgent (j.modify k.currentThread fun x =>
        { x with remainingTick := x.initTick }) := hu.same rfl rfl rfl
    generalize j.modify k.currentThread (fun x => { x with remainingTick := x.initTick }) = l
      at hslice hu' ⊢
    split
    · next k' hyield =>
      have hyielded : k'.Sound none idle :=
        hslice.sound.quiet (hslice.sound.sched.yield hyield)
          (quiet_yield hslice.sound.sched hyield) nofun
      exact hyielded.schedule.urgent
    · exact hu'
  · exact hu

theorem Kernel.Urgent.interrupt {e : Interrupt} (hk : k.Ok idle) (hurgent : k.Urgent) :
    (e.perform k).Urgent := by
  cases e with
  | semRelease i =>
    obtain ⟨hsound, -, hcalls, -⟩ := hk.sound.semRelease (i := i)
    exact hurgent.inInterrupt hsound hcalls fun e he => semRelease_returns he
  | eventSend i set =>
    obtain ⟨hsound, -, hcalls, -⟩ := hk.sound.eventSend i set nofun
    exact hurgent.inInterrupt hsound hcalls fun e he => eventSend_returns he
  | timerStart i time => exact hurgent.same rfl rfl rfl
  | timerStop i =>
    exact hurgent.same (rtTimerStop_list _) (rtTimerStop_current _) quiet_stop.calls
  | tick sends => exact (hurgent.ticked hk).timerCheck hk.ticked

theorem Kernel.Urgent.step {m : Move} (hk : k.Ok idle) (hurgent : k.Urgent)
    (hm : m.Allowed idle k) (hlower : ¬ m.Lowers k) : (k.step m).Urgent := by
  cases m with
  | call c =>
    have hafter := hk.perform hm.1 hm.2
    simp only [Kernel.step]
    split
    · next e hreturns =>
      obtain ⟨hlist, hcurrent⟩ := perform_returns hk.sound.sched hreturns hlower
      exact hurgent.same hlist hcurrent hafter.calls
    · refine .inl ?_
      change Function.update (c.perform k).2.calls k.currentThread true
        (c.perform k).2.currentThread = true
      rw [hafter.current, Function.update_self]
  | schedule =>
    have hcalls : Sound none idle { k with
        calls := Function.update k.calls k.currentThread false } :=
      ⟨hk.sound.sched.congr rfl rfl rfl rfl rfl,
        ⟨hk.sound.objects.semaphore, hk.sound.objects.free, hk.sound.objects.owned,
          hk.sound.objects.event⟩, hk.sound.idle⟩
    exact hcalls.schedule.urgent
  | interrupt e => exact hurgent.interrupt hk

/-- **The most urgent thread runs.** In every run in which no thread lowers its own
priority by a release that wakes nobody, the thread that runs is the first of the
most urgent ready ones or has a call of `rt_schedule` before it. -/
theorem most_urgent_runs {s : Setup} (hnodup : s.started.Nodup)
    (hprio : ∀ t ∈ s.started, s.priority t < rtThreadPriorityMax) (hidle : idle ∈ s.started)
    (h : Reaches idle (fun k m => ¬ m.Lowers k) s.boot k) :
    k.calls k.currentThread = true ∨ k.First k.currentThread := by
  have hboot := Setup.boot_ok hnodup hprio hidle
  have hstart : s.boot.Urgent := hboot.sound.urgent
  induction h with
  | start => exact hstart
  | step hrun hm hok ih => exact Urgent.step (hboot.reaches hrun) ih hm hok

theorem most_urgent_runs_handedOver :
    handedOver.calls handedOver.currentThread = true ∨ handedOver.First handedOver.currentThread :=
  most_urgent_runs (s := lowAndHigh) (by decide) (by decide) (by decide)
    (handedOver_reaches.mono fun k m hm hlower => by
      cases m with
      | call c =>
        cases c with
        | mutexRelease i => exact hm i rfl hlower.2.2.2
        | _ => exact hlower
      | _ => exact hlower)

end Aclean.RtThread
