import Aclean.KernelWakes

/-!
# The kernel gives its threads atomic objects

Every run of the kernel, with its waiting lists, hand-overs, timeouts and
interrupts, is one legal history of the abstract objects, in which each
thread's part is exactly its calls that have ended well and the interrupts'
part is what they did; as the run goes on, the history only grows at its end
(`kernel_linearizable`). A call that times out is not there at all.
-/

namespace Aclean.RtThread

open Kernel

variable {k k' k'' : Kernel} {idle t u : Tid} {i : Nat} {g g' : Trace} {s₀ : Store}
  {a : Agent} {W W' : List Tid} {o : Option TimerId} {H₀ H : List (Agent × Action)}

/-! ## The invariant -/

/-- A thread waits in a list for the call it has slept in, with no error yet; what has
been seen is one legal history, which begins with `H₀`. -/
structure Linear (s₀ : Store) (H₀ : List (Agent × Action)) (g : Trace) (k : Kernel) : Prop where
  waits : ∀ {t h}, h.Waiting → t ∈ k.list h → ∃ c, g.slept t = some c ∧
    c.waitsIn = some h ∧ (k.thread t).error = .eok ∧ c.Wanted (k.thread t)
  hold : ∀ {i t}, (k.mutex i).owner = some t → (k.mutex i).hold ≠ 0
  history : ∃ R, Explains s₀ (H₀ ++ R) k g

theorem done_of_same (hmade : g.made u = g'.made u) (hslept : g.slept u = g'.slept u)
    (herror : (k'.thread u).error = (k.thread u).error)
    (hset : (k'.thread u).eventSet = (k.thread u).eventSet)
    (hstat : (k'.thread u).stat = .suspend ↔ (k.thread u).stat = .suspend) :
    g'.done k' u = g.done k u := by
  unfold Trace.done Thread.ended
  rw [← hmade, ← hslept, herror, hset]
  simp only [ne_eq, hstat]

/-- The actions of one agent and of the threads it wakes. -/
theorem Linear.act {own : List Action} {sleeps : Option Call} {f : Tid → Action}
    (hk : Linear s₀ H₀ g k) (hs : k.Sched o) (he : Effect a own W f k k')
    (hself : ∀ t, a = some t → Acts t sleeps k k') : Linear s₀ H₀ (g.act k a own sleeps) k' := by
  obtain ⟨hw, hW, hf, hrun, hhold⟩ := he
  -- whoever is woken has waited, and is not the acting thread
  have hother : ∀ u ∈ W, a ≠ some u := by
    intro u hu heq
    obtain ⟨h, hh, hmem, -⟩ := hf u hu
    exact (hself u heq).before h hh hmem
  have hslept : ∀ u, a ≠ some u → (g.act k a own sleeps).slept u = g.slept u ∧
      (g.act k a own sleeps).made u = g.made u := by
    intro u hu
    unfold Trace.act
    split
    · next t =>
      have hut : u ≠ t := fun heq => hu (congrArg some heq.symm)
      exact ⟨Function.update_of_ne hut _ _, Function.update_of_ne hut _ _⟩
    · exact ⟨rfl, rfl⟩
  refine ⟨?_, hhold, ?_⟩
  · intro u h hh hmem
    by_cases hu : a = some u
    · obtain ⟨c, hc, hrest⟩ := (hself u hu).waits h hh hmem
      refine ⟨c, ?_, hrest⟩
      rw [← hc]
      subst hu
      exact Function.update_self _ _ _
    · obtain ⟨hmem, hnot⟩ := (hw.list hu hh).mp hmem
      obtain ⟨c, hc, hin, herror, hwant⟩ := hk.waits hh hmem
      refine ⟨c, (hslept u hu).1.trans hc, hin, (hw.error hu).trans herror, ?_⟩
      cases c with
      | eventRecv i set option timeout => exact ⟨(hw.wants hu hnot).trans hwant.1, (hw.info hu).trans hwant.2⟩
      | _ => trivial
  · obtain ⟨R, hlegal, hmade, hirq⟩ := hk.history
    refine ⟨R ++ (own.map (a, ·) ++ W.map fun u => (some u, f u)), ?_⟩
    rw [← List.append_assoc]
    generalize H₀ ++ R = H at hlegal hmade hirq ⊢
    refine ⟨(History.Spec.run_trans hlegal).trans hrun, fun u => ?_, ?_⟩
    · rw [History.of_append, History.of_append, hmade]
      by_cases hu : a = some u
      · subst hu
        have hW' : u ∉ W := fun hmem => hother u hmem rfl
        have hnone : ∀ v ∈ W, some v ≠ some u := fun v hv heq => hW' (Option.some.inj heq ▸ hv)
        rw [History.of_own, History.of_each_not hnone, List.append_nil]
        -- its call has ended, or has only begun to wait
        have hended : (k'.thread u).ended ((g.act k (some u) own sleeps).slept u) = [] := by
          have hsleeps : (g.act k (some u) own sleeps).slept u = sleeps := Function.update_self _ _ _
          rw [hsleeps]
          unfold Thread.ended
          split
          · next c =>
            rcases (hself u rfl).asleep c rfl with hsuspend | hnone
            · rw [if_neg fun h => h.1 hsuspend]
            · rw [hnone]
              split <;> rfl
          · rfl
        have hmade' : (g.act k (some u) own sleeps).made u = g.done k u ++ own :=
          Function.update_self _ _ _
        unfold Trace.done at hmade' ⊢
        rw [hended, hmade', List.append_nil]
      · have hown : History.of (some u) (own.map (a, ·)) = [] := History.of_others hu
        rw [hown, List.nil_append]
        by_cases hmem : u ∈ W
        · obtain ⟨h, hh, hin, hact⟩ := hf u hmem
          obtain ⟨c, hc, hwaits, herror, hwant⟩ := hk.waits hh hin
          rw [History.of_each (Option.some_injective _) hW hmem]
          unfold Trace.done Thread.ended
          rw [(hslept u hu).1, (hslept u hu).2, hc, hw.error hu, herror]
          dsimp only
          rw [if_neg fun h => h.1 (hs.lists.waiting hh hin), if_pos ⟨hw.woken hmem, rfl⟩,
            hact c hwaits hwant, List.append_nil]
          rfl
        · have hnone : ∀ v ∈ W, some v ≠ some u := fun v hv heq => hmem (Option.some.inj heq ▸ hv)
          rw [History.of_each_not hnone, List.append_nil]
          exact (done_of_same (hslept u hu).2.symm (hslept u hu).1.symm (hw.error hu)
            (hw.wants hu hmem) (hw.stat hu hmem)).symm
    · rw [History.of_append, History.of_append, hirq]
      have hwoken : History.of none (W.map fun u => (some u, f u)) = [] :=
        History.of_each_not (f := some) fun v _ => Option.some_ne_none v
      rw [hwoken, List.append_nil]
      cases a with
      | none =>
        rw [History.of_own]
        rfl
      | some t =>
        rw [History.of_others (Option.some_ne_none t), List.append_nil]
        rfl

/-- What changes no object and wakes nobody. -/
theorem Linear.frame (hk : Linear s₀ H₀ g k) (hw : Wakes none [] k k') (hstore : k'.store = k.store)
    (hmutex : k'.mutex = k.mutex) : Linear s₀ H₀ g k' := by
  obtain ⟨R, hlegal, hmade, hirq⟩ := hk.history
  refine ⟨?_, ?_, R, hlegal.trans (by rw [hstore]), fun u => ?_, hirq⟩
  · intro u h hh hmem
    obtain ⟨c, hc, hin, herror, hwant⟩ := hk.waits hh ((hw.list interrupt_ne hh).mp hmem).1
    refine ⟨c, hc, hin, (hw.error interrupt_ne).trans herror, ?_⟩
    cases c with
    | eventRecv i set option timeout =>
      exact ⟨(hw.wants interrupt_ne List.not_mem_nil).trans hwant.1,
        (hw.info interrupt_ne).trans hwant.2⟩
    | _ => trivial
  · rw [hmutex]
    exact hk.hold
  · rw [hmade]
    exact (done_of_same rfl rfl (hw.error interrupt_ne) (hw.wants interrupt_ne List.not_mem_nil)
      (hw.stat interrupt_ne List.not_mem_nil)).symm

/-! ## The calls -/

section Calls

variable {c : Call} {time : Int}

theorem trace_ends (h : (c.perform k).1 = .returns .eok ∨ (c.perform k).1 = .schedules) :
    Move.trace (.call c) k g =
      g.act k (some k.currentThread) (c.action (c.recved k)).toList none := by
  rcases h with h | h <;> simp only [Move.trace, h]

theorem trace_fails {e : Err} (h : (c.perform k).1 = .returns e) (he : e ≠ .eok) :
    Move.trace (.call c) k g = g.act k (some k.currentThread) [] none := by
  cases e with
  | eok => exact absurd rfl he
  | error => simp only [Move.trace, h]
  | etimeout => simp only [Move.trace, h]

theorem trace_sleeps (h : (c.perform k).1 = .sleeps) :
    Move.trace (.call c) k g = g.act k (some k.currentThread) [] (some c) := by
  simp only [Move.trace, h]

/-- A thread that runs waits for nothing. -/
theorem ready_out (hk : k.Sched o) (ht : (k.thread t).stat = .ready) :
    ∀ h : ListHead, h.Waiting → t ∉ k.list h := fun _ hh hmem => by
  rw [hk.lists.waiting hh hmem] at ht
  cases ht

/-- What changes no object, as an effect. -/
theorem Effect.none {f : Tid → Action} (hw : Wakes a [] k k') (hstore : k'.store = k.store)
    (hhold : ∀ {i t}, (k'.mutex i).owner = some t → (k'.mutex i).hold ≠ 0) :
    Effect a [] [] f k k' :=
  .of_run hw (by rw [hstore]; rfl) hhold

/-- A call that goes to sleep, from the state `j` in which it begins to wait. -/
theorem Linear.sleeps {h : ListHead} {flag : IpcFlag} {j : Kernel} (hs : k.Sched none)
    (hrun : (k.thread k.currentThread).stat = .ready) (hk : Linear s₀ H₀ g k) (hj : j.Sched none)
    (hw : Wakes (some k.currentThread) [] k j) (hstore : j.store = k.store)
    (hmutex : j.mutex = k.mutex) (hcurrent : j.currentThread = k.currentThread)
    (hready : (j.thread k.currentThread).stat = .ready) (hc : c.waitsIn = some h)
    (herror : (j.thread k.currentThread).error = .eok)
    (hwant : c.Wanted (j.thread k.currentThread))
    (hr : c.perform k = (.sleeps, j.waitOn h flag time)) :
    Linear s₀ H₀ (Move.trace (.call c) k g) (c.perform k).2 := by
  have hquiet : j.Quiet (some (j.currentThread, h)) (j.waitOn h flag time) := quiet_wait
  rw [trace_sleeps (by rw [hr]), hr]
  rw [← hcurrent] at hw ⊢
  refine hk.act (f := fun _ => .semTake 0) hs (.none ?_ ?_ ?_) ?_
  · exact hw.after (.waitOn hj (hcurrent ▸ hready))
  · exact hquiet.store.trans hstore
  · rw [hquiet.mutex, hmutex]
    exact hk.hold
  · rintro t ⟨⟩
    rw [hcurrent]
    exact .waitOn hj hcurrent hready (ready_out hs hrun) hc herror hwant

/-- The running thread's error is cleared. -/
structure Cleared (k j : Kernel) : Prop where
  sched : j.Sched none
  thread : j.thread k.currentThread = { k.thread k.currentThread with error := .eok }
  others : ∀ u, u ≠ k.currentThread → j.thread u = k.thread u
  list : j.list = k.list
  wakes : Wakes (some k.currentThread) [] k j
  semaphore : j.semaphore = k.semaphore
  mutex : j.mutex = k.mutex
  event : j.event = k.event
  current : j.currentThread = k.currentThread

theorem cleared (hs : k.Sched none) :
    Cleared k (k.modify k.currentThread fun x => { x with error := .eok }) :=
  ⟨hs.write rfl rfl rfl, modify_thread_self _, fun _ hu => modify_thread_of_ne hu _, rfl, .modify,
    rfl, rfl, rfl, rfl⟩

theorem Cleared.store {j : Kernel} (h : Cleared k j) : j.store = k.store := by
  unfold Kernel.store
  rw [h.semaphore, h.mutex, h.event]

theorem Linear.semTake (hs : k.Sched none) (hrun : (k.thread k.currentThread).stat = .ready)
    (hk : Linear s₀ H₀ g k) :
    Linear s₀ H₀ (Move.trace (.call (.semTake i time)) k g) (k.rtSemTake i time).2 := by
  have hout := ready_out hs hrun
  by_cases hvalue : 0 < (k.semaphore i).value
  · have hr : k.rtSemTake i time = (.returns .eok,
        k.setSemaphore i { k.semaphore i with value := (k.semaphore i).value - 1 }) := by
      simp only [rtSemTake, if_pos hvalue]
    rw [trace_ends (.inl (by simp only [Call.perform, hr])), hr]
    refine hk.act (f := fun _ => .semTake i) hs (semTake_effect hk.hold hvalue) ?_
    rintro t ⟨⟩
    exact .of_wakes (.of_eq rfl rfl) hout
  · by_cases htime : time = 0
    · have hr : k.rtSemTake i time = (.returns .etimeout, k) := by
        simp only [rtSemTake, if_neg hvalue, if_pos htime]
      rw [trace_fails (e := .etimeout) (by simp only [Call.perform, hr]) (by decide), hr]
      refine hk.act (f := fun _ => .semTake i) hs (.none .refl rfl hk.hold) ?_
      rintro t ⟨⟩
      exact .of_wakes .refl hout
    · have hj := cleared hs
      have hr : (Call.semTake i time).perform k = (.sleeps,
          (k.modify k.currentThread fun x => { x with error := .eok }).waitOn (.semaphore i)
            (k.semaphore i).flag time) := by
        simp only [Call.perform, rtSemTake, if_neg hvalue, if_neg htime]
      refine hk.sleeps hs hrun hj.sched hj.wakes hj.store hj.mutex hj.current ?_ rfl ?_ trivial hr
      · rw [hj.thread]
        exact hrun
      · rw [hj.thread]

theorem Linear.semRelease (hs : k.Sched none) (hrun : (k.thread k.currentThread).stat = .ready)
    (hk : Linear s₀ H₀ g k) (hfits : (k.semaphore i).value ≠ 0xffff) :
    Linear s₀ H₀ (Move.trace (.call (.semRelease i)) k g) (k.rtSemRelease i).2 := by
  obtain ⟨W, hw, he⟩ := semRelease_effect (a := some k.currentThread) hs hk.hold hfits
  have hr : (k.rtSemRelease i).1 = .returns .eok ∨ (k.rtSemRelease i).1 = .schedules := by
    unfold rtSemRelease
    split
    · exact .inr rfl
    · exact .inl rfl
  rw [trace_ends (c := .semRelease i) hr]
  refine hk.act hs he ?_
  rintro t ⟨⟩
  exact .of_wakes hw (ready_out hs hrun)

theorem Linear.mutexTake (hok : k.Sound none idle)
    (hrun : (k.thread k.currentThread).stat = .ready) (hk : Linear s₀ H₀ g k)
    (hfits : (k.mutex i).hold ≠ 0xff) :
    Linear s₀ H₀ (Move.trace (.call (.mutexTake i time)) k g) (k.rtMutexTake i time).2 := by
  have hs := hok.sched
  have hout := ready_out hs hrun
  have hj := cleared hs
  generalize hjeq : (k.modify k.currentThread fun x => { x with error := .eok }) = j at hj
  have hacts : ∀ k' : Kernel, k'.list = k.list → Acts k.currentThread none k k' := by
    intro k' hlist
    exact ⟨hout, fun h hh hmem => absurd (hlist ▸ hmem) (hout h hh), by rintro _ ⟨⟩⟩
  -- taken at once, for the first time or once more
  have htaken : ∀ m : Mutex, (Call.mutexTake i time).perform k = (.returns .eok, j.setMutex i m) →
      m.owner = some k.currentThread →
      ((k.mutex i).owner = none ∧ m.hold.toNat = 1 ∨ (k.mutex i).owner = some k.currentThread ∧
        m.hold.toNat = (k.mutex i).hold.toNat + 1) →
      Linear s₀ H₀ (Move.trace (.call (.mutexTake i time)) k g) (k.rtMutexTake i time).2 := by
    intro m hr howner hcount
    rw [trace_ends (.inl (by rw [hr])), show k.rtMutexTake i time = _ from hr]
    refine hk.act (f := fun _ => .semTake 0) hs (.of_run ?_ ?_ ?_) ?_
    · exact hj.wakes.after (.of_eq rfl rfl)
    · have hrun' := mutexTake_run (k := j) (i := i) howner (by rw [hj.mutex]; exact hcount)
      rw [← hj.store]
      exact hrun'
    · refine setMutex_hold (by rw [hj.mutex]; exact hk.hold) fun t _ hzero => ?_
      rw [hzero] at hcount
      rcases hcount with ⟨-, hone⟩ | ⟨-, hmore⟩
      · exact absurd hone (by decide)
      · exact absurd hmore (by simp)
    · rintro t ⟨⟩
      exact hacts _ hj.list
  by_cases hown : (k.mutex i).owner = some k.currentThread
  · refine htaken { k.mutex i with hold := (k.mutex i).hold + 1 } ?_ hown (.inr ⟨hown, ?_⟩)
    · simp only [Call.perform, rtMutexTake, hjeq, hj.mutex, if_pos hown]
    · have hlt := (k.mutex i).hold.toNat_lt
      have hne : (k.mutex i).hold.toNat ≠ 255 := fun h => hfits (UInt8.toNat_inj.mp h)
      rw [UInt8.toNat_add]
      exact Nat.mod_eq_of_lt (by simp only [UInt8.reduceToNat]; omega)
  · by_cases hvalue : 0 < (k.mutex i).value
    · have hfree : (k.mutex i).owner = none := by
        rcases howner : (k.mutex i).owner with _ | u
        · rfl
        · rw [(hok.objects.owned howner).1] at hvalue
          exact absurd hvalue (by decide)
      refine htaken
        { k.mutex i with
          value := (k.mutex i).value - 1
          owner := some k.currentThread
          originalPriority := (j.thread k.currentThread).currentPriority
          hold := (k.mutex i).hold + 1 } ?_ rfl (.inl ⟨hfree, ?_⟩)
      · simp only [Call.perform, rtMutexTake, hjeq, hj.mutex, if_neg hown, if_pos hvalue]
      · rw [(hok.objects.free hfree).2.1]
        rfl
    · by_cases htime : time = 0
      · have hr : (Call.mutexTake i time).perform k = (.returns .etimeout,
            j.modify k.currentThread fun x => { x with error := .etimeout }) := by
          simp only [Call.perform, rtMutexTake, hjeq, hj.mutex, if_neg hown, if_neg hvalue,
            if_pos htime]
        rw [trace_fails (e := .etimeout) (by rw [hr]) (by decide), show k.rtMutexTake i time = _ from hr]
        refine hk.act (f := fun _ => .semTake 0) hs (.none ?_ ?_ ?_) ?_
        · dsimp only
          exact hj.wakes.after .modify
        · exact hj.store
        · change ∀ {i t}, (j.mutex i).owner = some t → (j.mutex i).hold ≠ 0
          rw [hj.mutex]
          exact hk.hold
        · rintro t ⟨⟩
          exact hacts _ hj.list
      · -- it waits, with the owner raised to its priority
        obtain ⟨l, hl, hr⟩ : ∃ l : Kernel, (l = j ∨ ∃ u p, (k.mutex i).owner = some u ∧
            l = j.rtThreadControl u p ∧ p = (j.thread k.currentThread).currentPriority) ∧
              (Call.mutexTake i time).perform k =
                (.sleeps, l.waitOn (.mutex i) (k.mutex i).flag time) := by
          rcases howner : (k.mutex i).owner with _ | u
          · refine ⟨j, .inl rfl, ?_⟩
            simp only [Call.perform, rtMutexTake, hjeq, hj.mutex, howner, if_neg hvalue,
              if_neg htime]
            rw [if_neg (Option.some_ne_none _).symm]
          · simp only [Call.perform, rtMutexTake, hjeq, hj.mutex, howner, if_neg hvalue,
              if_neg htime]
            rw [if_neg (howner ▸ hown)]
            split
            · exact ⟨_, .inr ⟨u, _, rfl, rfl, rfl⟩, rfl⟩
            · exact ⟨j, .inl rfl, rfl⟩
        have hready : (j.thread k.currentThread).stat = .ready := by
          rw [hj.thread]
          exact hrun
        have hself : (l.thread k.currentThread).stat = .ready ∧
            (l.thread k.currentThread).error = .eok ∧ l.Sched none ∧
            Wakes (some k.currentThread) [] k l ∧ l.store = k.store ∧ l.mutex = k.mutex ∧
            l.currentThread = k.currentThread := by
          have herror : (j.thread k.currentThread).error = .eok := by rw [hj.thread]
          rcases hl with rfl | ⟨u, p, howner, rfl, rfl⟩
          · exact ⟨hready, herror, hj.sched, hj.wakes, hj.store, hj.mutex, hj.current⟩
          · have hstarted : (j.thread k.currentThread).stat ≠ .init := by rw [hready]; decide
            have hu : (j.thread u).stat ≠ .init := by
              have hne : u ≠ k.currentThread := fun heq => hown (heq ▸ howner)
              rw [hj.others u hne]
              exact (hok.objects.owned howner).2.2.2
            have hquiet : j.Quiet none (j.rtThreadControl u
              (j.thread k.currentThread).currentPriority) := quiet_control
            have hwakes : Wakes none [] j (j.rtThreadControl u
              (j.thread k.currentThread).currentPriority) := .control hj.sched
            exact ⟨hquiet.ready hready fun _ => (Option.some_ne_none _).symm,
              (hwakes.error interrupt_ne).trans herror,
              hj.sched.control (hj.sched.lists.priority hstarted).1 hu,
              hj.wakes.after hwakes.of_none, hquiet.store.trans hj.store,
              hquiet.mutex.trans hj.mutex, rtThreadControl_current.trans hj.current⟩
        obtain ⟨hlready, hlerror, hlsched, hlwakes, hlstore, hlmutex, hlcurrent⟩ := hself
        exact hk.sleeps hs hrun hlsched hlwakes hlstore hlmutex hlcurrent hlready rfl hlerror
          trivial hr

theorem Linear.mutexRelease (hok : k.Sound none idle)
    (hrun : (k.thread k.currentThread).stat = .ready) (hk : Linear s₀ H₀ g k) :
    Linear s₀ H₀ (Move.trace (.call (.mutexRelease i)) k g) (k.rtMutexRelease i).2 := by
  have hs := hok.sched
  have hout := ready_out hs hrun
  by_cases howner : (k.mutex i).owner = some k.currentThread
  · have hnotnot : ¬ (k.mutex i).owner ≠ some k.currentThread := not_not.mpr howner
    have hpos : (k.mutex i).hold.toNat ≠ 0 := fun h => hk.hold howner (UInt8.toNat_inj.mp h)
    have hless : ((k.mutex i).hold - 1).toNat = (k.mutex i).hold.toNat - 1 := by
      have hone : (1 : UInt8) ≤ (k.mutex i).hold :=
        UInt8.le_iff_toNat_le.mpr (Nat.one_le_iff_ne_zero.mpr hpos)
      rw [UInt8.toNat_sub_of_le _ _ hone]
      rfl
    by_cases hhold : (k.mutex i).hold - 1 = 0
    · -- the last release: the owner's priority is put back, which wakes nobody
      obtain ⟨j, hj, hjeq⟩ : ∃ j : Kernel, (Wakes none [] k j ∧ j.Sched none ∧ j.store = k.store ∧
          j.mutex = k.mutex ∧ j.list (.mutex i) = k.list (.mutex i)) ∧
            (if (k.mutex i).originalPriority ≠ (k.thread k.currentThread).currentPriority then
              k.rtThreadControl k.currentThread (k.mutex i).originalPriority else k) = j := by
        split
        · have hquiet : k.Quiet none (k.rtThreadControl k.currentThread
            (k.mutex i).originalPriority) := quiet_control
          exact ⟨_, ⟨.control hs, hs.control (hok.objects.owned howner).2.1 (by rw [hrun]; decide),
            hquiet.store, hquiet.mutex, control_waiting hs trivial⟩, rfl⟩
        · exact ⟨k, ⟨.refl, hs, rfl, rfl, rfl⟩, rfl⟩
      obtain ⟨hwakes, hjs, hstore, hmutex, hlist⟩ := hj
      have hone : (j.mutex i).hold.toNat = 1 := by
        have hzero : ((k.mutex i).hold - 1).toNat = 0 := by rw [hhold]; rfl
        rw [hmutex]
        omega
      have hjowner : (j.mutex i).owner = some k.currentThread := by rw [hmutex]; exact howner
      rcases hhead : (k.list (.mutex i)).head? with _ | w
      · have hr : (Call.mutexRelease i).perform k = (.returns .eok, j.setMutex i
            { k.mutex i with
              value := (k.mutex i).value + 1
              owner := none
              originalPriority := 0xff
              hold := (k.mutex i).hold - 1 }) := by
          simp only [Call.perform, rtMutexRelease, if_neg hnotnot, if_neg (not_not.mpr hhold), hjeq,
            hlist, hhead]
        have hfree := mutexRelease_run (k := j) (i := i)
          (m := { k.mutex i with
            value := (k.mutex i).value + 1
            owner := none
            originalPriority := 0xff
            hold := (k.mutex i).hold - 1 }) hjowner (.inl ⟨rfl, hone⟩)
        rw [trace_ends (.inl (by rw [hr])), show k.rtMutexRelease i = _ from hr]
        refine hk.act (f := fun _ => .semTake 0) hs (.of_run ?_ ?_ ?_) ?_
        · exact hwakes.of_none.after (.of_eq rfl rfl)
        · rw [← hstore]
          exact hfree
        · refine setMutex_hold ?_ fun t hnone => ?_
          · rw [hmutex]
            exact hk.hold
          · cases hnone
        · rintro t ⟨⟩
          exact .of_wakes (hwakes.after (.of_eq rfl rfl)) hout
      · -- a hand-over is a release, and a take by the first thread that waits
        let m : Mutex :=
          { k.mutex i with
            owner := some w
            originalPriority := (j.thread w).currentPriority
            hold := (k.mutex i).hold - 1 + 1 }
        have hr : (Call.mutexRelease i).perform k =
            (.schedules, (j.setMutex i m).rtIpcListResume (.mutex i)) := by
          simp only [Call.perform, rtMutexRelease, if_neg hnotnot, if_neg (not_not.mpr hhold), hjeq,
            hlist, hhead, m]
        have hset : (j.setMutex i m).Sched none := hjs.congr rfl rfl rfl rfl rfl
        have hhead' : ((j.setMutex i m).list (.mutex i)).head? = some w := by
          rw [← hhead, ← hlist]
          rfl
        have hwoken : Wakes none [w] (j.setMutex i m)
            ((j.setMutex i m).rtIpcListResume (.mutex i)) := .listResume hset trivial hhead'
        have hwritten : Wakes none [] j (j.setMutex i m) := .of_eq rfl rfl
        have hall : Wakes none [w] k ((j.setMutex i m).rtIpcListResume (.mutex i)) :=
          (hwakes.after hwritten).after hwoken
        have hquiet : (j.setMutex i m).Quiet none
            ((j.setMutex i m).rtIpcListResume (.mutex i)) := quiet_listResume
        have hfree := mutexRelease_run (k := j) (i := i) (m := ⟨0, 0, 0, none, .fifo⟩) hjowner
          (.inl ⟨rfl, hone⟩)
        have htake := mutexTake_run (k := j.setMutex i ⟨0, 0, 0, none, .fifo⟩) (i := i) (t := w)
          (m := m) rfl (.inl ⟨congrArg Mutex.owner (Function.update_self i _ j.mutex), by
            change ((k.mutex i).hold - 1 + 1).toNat = 1
            rw [hhold]
            rfl⟩)
        rw [setMutex_twice] at htake
        rw [trace_ends (.inr (by rw [hr])), show k.rtMutexRelease i = _ from hr]
        refine hk.act (W := [w]) (f := fun _ => .mutexTake i) hs
          ⟨hall.of_none, List.nodup_singleton w, ?_, ?_, ?_⟩ ?_
        · intro u hu
          obtain rfl := List.mem_singleton.mp hu
          refine ⟨.mutex i, trivial, List.mem_of_head? hhead, fun c hc _ => ?_⟩
          cases c with
          | mutexTake l time =>
            cases hc
            rfl
          | _ => cases hc
        · rw [hquiet.store, ← hstore]
          exact (History.Spec.run_trans hfree).trans htake
        · dsimp only
          rw [hquiet.mutex]
          refine setMutex_hold ?_ fun t _ => ?_
          · rw [hmutex]
            exact hk.hold
          · change (k.mutex i).hold - 1 + 1 ≠ 0
            rw [hhold]
            decide
        · rintro t ⟨⟩
          exact .of_wakes hall hout
    · have hr : (Call.mutexRelease i).perform k = (.returns .eok,
          k.setMutex i { k.mutex i with hold := (k.mutex i).hold - 1 }) := by
        simp only [Call.perform, rtMutexRelease, if_neg hnotnot, if_pos hhold]
      have hmore : 1 < (k.mutex i).hold.toNat := by
        have hne : ((k.mutex i).hold - 1).toNat ≠ 0 := fun h => hhold (UInt8.toNat_inj.mp h)
        omega
      rw [trace_ends (.inl (by rw [hr])), show k.rtMutexRelease i = _ from hr]
      refine hk.act (f := fun _ => .semTake 0) hs (.of_run (.of_eq rfl rfl) ?_ ?_) ?_
      · exact mutexRelease_run howner (.inr ⟨howner, hmore, hless⟩)
      · exact setMutex_hold hk.hold fun _ _ => hhold
      · rintro t ⟨⟩
        exact .of_wakes (.of_eq rfl rfl) hout
  · have hr : (Call.mutexRelease i).perform k = (.returns .error,
        k.modify k.currentThread fun x => { x with error := .error }) := by
      simp only [Call.perform, rtMutexRelease, if_pos howner]
    rw [trace_fails (e := .error) (by rw [hr]) (by decide), show k.rtMutexRelease i = _ from hr]
    refine hk.act (f := fun _ => .semTake 0) hs (.none ?_ rfl hk.hold) ?_
    · dsimp only
      exact .modify
    · rintro t ⟨⟩
      exact ⟨hout, fun h hh hmem => absurd hmem (hout h hh), by rintro _ ⟨⟩⟩

theorem Linear.eventRecv {set : BitVec 32} {option : UInt8} (hs : k.Sched none)
    (hrun : (k.thread k.currentThread).stat = .ready) (hk : Linear s₀ H₀ g k) :
    Linear s₀ H₀ (Move.trace (.call (.eventRecv i set option time)) k g)
      (k.rtEventRecv i set option time).2 := by
  have hout := ready_out hs hrun
  have hj := cleared hs
  generalize hjeq : (k.modify k.currentThread fun x => { x with error := .eok }) = j at hj
  have hacts : ∀ k' : Kernel, k'.list = k.list → Acts k.currentThread none k k' := by
    intro k' hlist
    exact ⟨hout, fun h hh hmem => absurd (hlist ▸ hmem) (hout h hh), by rintro _ ⟨⟩⟩
  by_cases hset : set = 0
  · have hr : (Call.eventRecv i set option time).perform k = (.returns .error, k) := by
      simp only [Call.perform, rtEventRecv, if_pos hset]
    rw [trace_fails (e := .error) (by rw [hr]) (by decide), show k.rtEventRecv i set option time = _ from hr]
    refine hk.act (f := fun _ => .semTake 0) hs (.none .refl rfl hk.hold) ?_
    rintro t ⟨⟩
    exact hacts _ rfl
  · by_cases hrecv : received option set (k.event i).set = true
    · have hr : (Call.eventRecv i set option time).perform k = (.returns .eok,
          if option &&& eventFlagClear ≠ 0 then
            j.setEvent i { k.event i with set := (k.event i).set &&& ~~~set } else j) := by
        simp only [Call.perform, rtEventRecv, if_neg hset, hjeq, hj.event, if_pos hrecv]
      have hstore : (if option &&& eventFlagClear ≠ 0 then
            j.setEvent i { k.event i with set := (k.event i).set &&& ~~~set } else j).store =
          (k.setEvent i { k.event i with
            set := if option &&& eventFlagClear ≠ 0 then (k.event i).set &&& ~~~set
              else (k.event i).set }).store := by
        have hsame : Function.update k.store.event i (k.event i).set = k.store.event :=
          Function.update_eq_self i _
        split
        · rw [setEvent_store, setEvent_store, hj.store]
        · rw [setEvent_store, hsame, hj.store]
      have hsame : (if option &&& eventFlagClear ≠ 0 then
            j.setEvent i { k.event i with set := (k.event i).set &&& ~~~set } else j).thread =
              j.thread ∧
          (if option &&& eventFlagClear ≠ 0 then
            j.setEvent i { k.event i with set := (k.event i).set &&& ~~~set } else j).list =
              j.list ∧
          (if option &&& eventFlagClear ≠ 0 then
            j.setEvent i { k.event i with set := (k.event i).set &&& ~~~set } else j).mutex =
              j.mutex := by
        split <;> exact ⟨rfl, rfl, rfl⟩
      obtain ⟨hthread, hlist, hmutex⟩ := hsame
      rw [trace_ends (.inl (by rw [hr])), show k.rtEventRecv i set option time = _ from hr]
      refine hk.act (f := fun _ => .semTake 0) hs (.of_run ?_ ?_ ?_) ?_
      · exact hj.wakes.after (.of_eq hthread hlist)
      · dsimp only
        rw [hstore]
        exact eventRecv_run hrecv rfl
      · dsimp only
        rw [hmutex, hj.mutex]
        exact hk.hold
      · rintro t ⟨⟩
        exact hacts _ (hlist.trans hj.list)
    · by_cases htime : time = 0
      · have hr : (Call.eventRecv i set option time).perform k = (.returns .etimeout,
            j.modify k.currentThread fun x => { x with error := .etimeout }) := by
          simp only [Call.perform, rtEventRecv, if_neg hset, hjeq, hj.event, if_neg hrecv,
            if_pos htime]
        rw [trace_fails (e := .etimeout) (by rw [hr]) (by decide),
          show k.rtEventRecv i set option time = _ from hr]
        refine hk.act (f := fun _ => .semTake 0) hs (.none ?_ ?_ ?_) ?_
        · dsimp only
          exact hj.wakes.after .modify
        · exact hj.store
        · change ∀ {i t}, (j.mutex i).owner = some t → (j.mutex i).hold ≠ 0
          rw [hj.mutex]
          exact hk.hold
        · rintro t ⟨⟩
          exact hacts _ hj.list
      · have hr : (Call.eventRecv i set option time).perform k = (.sleeps,
            (j.modify k.currentThread fun x =>
              { x with eventSet := set, eventInfo := option }).waitOn (.event i)
                (k.event i).flag time) := by
          simp only [Call.perform, rtEventRecv, if_neg hset, hjeq, hj.event, if_neg hrecv,
            if_neg htime]
        have hself : (j.modify k.currentThread fun x =>
            { x with eventSet := set, eventInfo := option }).thread k.currentThread =
            { k.thread k.currentThread with
              error := .eok, eventSet := set, eventInfo := option } := by
          rw [modify_thread_self, hj.thread]
        refine hk.sleeps hs hrun (hj.sched.write rfl rfl rfl) (hj.wakes.after .modify) hj.store
          hj.mutex hj.current ?_ rfl ?_ ?_ hr
        · rw [hself]
          exact hrun
        · rw [hself]
        · rw [hself]
          exact ⟨rfl, rfl⟩

theorem Linear.eventSend {set : BitVec 32} (hs : k.Sched none)
    (hrun : (k.thread k.currentThread).stat = .ready) (hk : Linear s₀ H₀ g k) :
    Linear s₀ H₀ (Move.trace (.call (.eventSend i set)) k g) (k.rtEventSend i set).2 := by
  obtain ⟨W, f, hw, he⟩ := eventSend_effect (a := some k.currentThread) i set hs
    (fun _ => (Option.some_ne_none _).symm) hk.hold
  have hacts : ∀ t, some k.currentThread = some t → Acts t none k (k.rtEventSend i set).2 := by
    rintro t ⟨⟩
    exact .of_wakes hw (ready_out hs hrun)
  unfold sendAction at he
  by_cases hset : set = 0
  · have hr : (Call.eventSend i set).perform k = (.returns .error, k) := by
      simp only [Call.perform, rtEventSend, if_pos hset]
    rw [if_pos hset] at he
    rw [trace_fails (e := .error) (by rw [hr]) (by decide)]
    exact hk.act hs he hacts
  · have hr : (k.rtEventSend i set).1 = .returns .eok ∨ (k.rtEventSend i set).1 = .schedules := by
      unfold rtEventSend
      rw [if_neg hset]
      dsimp only
      split
      · exact .inr rfl
      · exact .inl rfl
    rw [if_neg hset] at he
    rw [trace_ends (c := .eventSend i set) hr]
    exact hk.act hs he hacts

/-- A call that is none of an object's. -/
theorem Linear.other {sleeps : Option Call} (hs : k.Sched none) (hk : Linear s₀ H₀ g k)
    (hw : Wakes (some k.currentThread) [] k (c.perform k).2)
    (hquiet : (c.perform k).2.store = k.store ∧ (c.perform k).2.mutex = k.mutex)
    (htrace : Move.trace (.call c) k g = g.act k (some k.currentThread) [] sleeps)
    (hacts : Acts k.currentThread sleeps k (c.perform k).2) :
    Linear s₀ H₀ (Move.trace (.call c) k g) (c.perform k).2 := by
  rw [htrace]
  refine hk.act (f := fun _ => .semTake 0) hs (.none hw hquiet.1 ?_) ?_
  · rw [hquiet.2]
    exact hk.hold
  · rintro t ⟨⟩
    exact hacts

theorem Linear.sleep {ticks : UInt32} (hs : k.Sched none)
    (hrun : (k.thread k.currentThread).stat = .ready) (hk : Linear s₀ H₀ g k) :
    Linear s₀ H₀ (Move.trace (.call (.sleep ticks)) k g) (k.rtThreadSleep ticks) := by
  have hout := ready_out hs hrun
  have hthread : (k.rtThreadSleep ticks).thread =
      (k.modify k.currentThread fun x => { x with stat := .suspend }).thread := by
    change (k.rtThreadSuspend k.currentThread).thread = _
    rw [rtThreadSuspend_eq hs hrun]
    rfl
  have hlist : ∀ h, h.Waiting → (k.rtThreadSleep ticks).list h = k.list h := by
    intro h hh
    change (k.rtThreadSuspend k.currentThread).list h = _
    rw [rtThreadSuspend_eq hs hrun]
    exact Queues.unlink_of_not_mem (hout h hh)
  have hquiet : k.Quiet _ (k.rtThreadSleep ticks) := quiet_sleep
  refine Linear.other (c := .sleep ticks) hs hk ?_ ⟨hquiet.store, hquiet.mutex⟩ (trace_sleeps rfl) ?_
  · refine .of_fields (fun u hu => ?_) fun {u h} _ hh => by
      rw [show (Call.perform (.sleep ticks) k).2.list h = _ from hlist h hh]
    rw [show (Call.perform (.sleep ticks) k).2.thread = _ from hthread,
      modify_thread_of_ne fun heq => hu (congrArg some heq.symm)]
    exact ⟨rfl, rfl, rfl, Iff.rfl⟩
  · refine ⟨hout, fun h hh hmem => absurd (hlist h hh ▸ hmem) (hout h hh), ?_⟩
    rintro _ ⟨⟩
    exact .inr fun _ => rfl

theorem Linear.exit (hs : k.Sched none) (hrun : (k.thread k.currentThread).stat = .ready)
    (hk : Linear s₀ H₀ g k) :
    Linear s₀ H₀ (Move.trace (.call .exit) k g) k.rtThreadExit := by
  have hout := ready_out hs hrun
  have hlist : ∀ h, h.Waiting → k.rtThreadExit.list h = k.list h := by
    intro h hh
    have hne : h ≠ .defunct := by
      rintro rfl
      cases hh
    exact (Queues.link_of_ne hne).trans (Queues.unlink_of_not_mem (hout h hh))
  have hquiet := k.quiet_exit
  refine Linear.other (c := .exit) hs hk ?_ ⟨hquiet.store, hquiet.mutex⟩ (trace_sleeps rfl) ?_
  · refine .of_fields (fun u hu => ?_) fun {u h} _ hh => by
      rw [show (Call.perform .exit k).2.list h = _ from hlist h hh]
    rw [show (Call.perform .exit k).2.thread u = _ from
      exit_of_ne fun heq => hu (congrArg some heq.symm)]
    exact ⟨rfl, rfl, rfl, Iff.rfl⟩
  · refine ⟨hout, fun h hh hmem => absurd (hlist h hh ▸ hmem) (hout h hh), ?_⟩
    rintro _ ⟨⟩
    exact .inr fun _ => rfl

/-- Whatever the running thread calls. -/
theorem Linear.call (hok : k.Sound none idle) (hrun : (k.thread k.currentThread).stat = .ready)
    (hlegal : c.Legal idle k) (hfits : Move.Fits (.call c) k) (hk : Linear s₀ H₀ g k) :
    Linear s₀ H₀ (Move.trace (.call c) k g) (c.perform k).2 := by
  have hs := hok.sched
  have hout := ready_out hs hrun
  cases c with
  | semTake i time => exact hk.semTake hs hrun
  | semRelease i => exact hk.semRelease hs hrun hfits
  | mutexTake i time => exact hk.mutexTake hok hrun hfits
  | mutexRelease i => exact hk.mutexRelease hok hrun
  | eventRecv i set option timeout => exact hk.eventRecv hs hrun
  | eventSend i set => exact hk.eventSend hs hrun
  | timerStart i time =>
    have hw : Wakes none [] k (k.rtTimerStart (.other i) time) := .of_eq rfl rfl
    exact hk.other hs hw.of_none ⟨rfl, rfl⟩ (trace_ends (.inl rfl)) (.of_wakes hw hout)
  | timerStop i =>
    have hw : Wakes none [] k (k.rtTimerStop (.other i)) := .stop
    have hquiet : k.Quiet none (k.rtTimerStop (.other i)) := quiet_stop
    exact hk.other hs hw.of_none ⟨hquiet.store, hquiet.mutex⟩ (trace_ends (.inl rfl))
      (.of_wakes hw hout)
  | startup t =>
    have hw : Wakes none [] k (k.rtThreadStartup t) := .startup hs hlegal.1
    have hquiet := quiet_startup hlegal.1
    exact hk.other hs hw.of_none ⟨hquiet.store, hquiet.mutex⟩ (trace_ends (.inr rfl))
      (.of_wakes hw hout)
  | yield =>
    rcases hyield : k.rtThreadYield with _ | k'
    · have hr : Call.yield.perform k = (.returns .eok, k) := by simp only [Call.perform, hyield]
      have hw : Wakes none [] k (Call.yield.perform k).2 := by
        rw [hr]
        exact .refl
      exact hk.other hs hw.of_none (by rw [hr]; exact ⟨rfl, rfl⟩) (trace_ends (.inl (by rw [hr])))
        (.of_wakes hw hout)
    · have hr : Call.yield.perform k = (.schedules, k') := by simp only [Call.perform, hyield]
      have hquiet := quiet_yield hs hyield
      have hw : Wakes none [] k (Call.yield.perform k).2 := by
        rw [hr]
        exact .yield hs hyield
      exact hk.other hs hw.of_none (by rw [hr]; exact ⟨hquiet.store, hquiet.mutex⟩)
        (trace_ends (.inr (by rw [hr]))) (.of_wakes hw hout)
  | sleep ticks => exact hk.sleep hs hrun
  | exit => exact hk.exit hs hrun

end Calls

/-! ## Interrupts -/

theorem Linear.schedule (hk : Linear s₀ H₀ g k) : Linear s₀ H₀ g k.rtSchedule :=
  hk.frame .schedule quiet_schedule.store quiet_schedule.mutex

theorem Linear.interrupts {own : List Action} {f : Tid → Action} (hs : k.Sched o)
    (hk : Linear s₀ H₀ g k) (he : Effect none own W f k k') :
    Linear s₀ H₀ (g.act k none own none) k' :=
  hk.act hs he (by rintro _ ⟨⟩)

theorem Linear.inInterrupt {r : Ending × Kernel} (hk : Linear s₀ H₀ g r.2) :
    Linear s₀ H₀ g (inInterrupt r) := by
  unfold Kernel.inInterrupt
  split
  · exact hk
  · exact hk.schedule

theorem Trace.act_nil : g.act k none [] none = g := by
  unfold Trace.act
  rw [List.append_nil]

/-- A wait that ends by a timeout leaves nothing to be seen. -/
theorem Linear.timeout (hs : k.Sched o) (ht : (k.thread t).stat = .suspend) (hk : Linear s₀ H₀ g k) :
    Linear s₀ H₀ g (k.rtThreadTimeout t) := by
  have hquiet : k.Quiet none (k.rtThreadTimeout t) := quiet_timeout
  have hself : (k.rtThreadTimeout t).thread t = { k.thread t with error := .etimeout, stat := .ready } := by
    unfold rtThreadTimeout
    dsimp only
    rw [rtSchedule_same.1]
    simp only [insertThread_self, modify_thread_self]
  have hother : ∀ u, u ≠ t → (k.rtThreadTimeout t).thread u = k.thread u := by
    intro u hu
    unfold rtThreadTimeout
    dsimp only
    rw [rtSchedule_same.1, insertThread_of_ne hu]
    simp only [modify_thread_of_ne hu]
  have hlist : ∀ h, h.Waiting → (k.rtThreadTimeout t).list h = Queues.unlink t k.list h := by
    intro h hh
    have hne : ∀ q, h ≠ .priorityTable q := by
      rintro q rfl
      cases hh
    unfold rtThreadTimeout
    dsimp only
    rw [rtSchedule_same.2.1]
    exact Queues.link_of_ne (hne _)
  obtain ⟨R, hlegal, hmade, hirq⟩ := hk.history
  refine ⟨?_, ?_, R, hlegal.trans (by rw [hquiet.store]), fun u => ?_, hirq⟩
  · intro u h hh hmem
    rw [hlist h hh, hs.lists.linked.mem_unlink] at hmem
    rw [hother u hmem.1]
    exact hk.waits hh hmem.2
  · rw [hquiet.mutex]
    exact hk.hold
  · rw [hmade]
    by_cases hu : u = t
    · subst hu
      have hbefore : (k.thread u).ended (g.slept u) = [] := by
        unfold Thread.ended
        split
        · exact if_neg fun h => h.1 ht
        · rfl
      have hafter : ((k.rtThreadTimeout u).thread u).ended (g.slept u) = [] := by
        rw [hself]
        unfold Thread.ended
        split
        · exact if_neg fun h => absurd h.2 Err.noConfusion
        · rfl
      unfold Trace.done
      rw [hbefore, hafter]
    · unfold Trace.done
      rw [hother u hu]

theorem Linear.timerFires {id : TimerId} (sends : Nat → Nat × BitVec 32) (hok : k.Ok idle)
    (hid : id ∈ k.timerList) (hk : Linear s₀ H₀ g k) :
    Linear s₀ H₀ (g.act k none (timerActions sends id) none) (timerFires sends id k) := by
  have htaken := (hok.taken id).sound.sched
  have hk' : Linear s₀ H₀ g { k with timerList := k.timerList.erase id } :=
    hk.frame (.of_eq rfl rfl) rfl rfl
  have hfired : Linear s₀ H₀ (g.act k none (timerActions sends id) none)
      (timeoutFunc sends id { k with timerList := k.timerList.erase id }) := by
    cases id with
    | thread t =>
      rw [timerActions, Trace.act_nil]
      exact hk'.timeout htaken (hok.sound.sched.timers.asleep hid)
    | other i =>
      obtain ⟨W, f, -, he⟩ := eventSend_effect (a := none) (sends i).1 (sends i).2
        htaken (by rintro _ ⟨⟩) hk'.hold
      have hsent := Linear.interrupts htaken hk' he
      exact Linear.inInterrupt hsent
  exact hfired.frame (.of_eq rfl rfl) rfl rfl

theorem Linear.timerCheck {sends : Nat → Nat × BitVec 32} {fuel : Nat} (hok : k.Ok idle)
    (hk : Linear s₀ H₀ g k) :
    Linear s₀ H₀ (g.act k none ((expired sends fuel k).flatMap (timerActions sends)) none)
      (rtTimerCheck sends fuel k) := by
  induction fuel generalizing k g with
  | zero =>
    rw [expired, List.flatMap_nil, Trace.act_nil]
    exact hk
  | succ fuel ih =>
    unfold expired rtTimerCheck
    rcases hlist : k.timerList with _ | ⟨id, ids⟩
    · rw [List.flatMap_nil, Trace.act_nil]
      exact hk
    · have hid : id ∈ k.timerList := by rw [hlist]; exact .head _
      dsimp only
      split
      · have hfired := Linear.timerFires (g := g) sends hok hid hk
        have hrest := ih (hok.timerFires hid) hfired
        rw [List.flatMap_cons]
        unfold Trace.act at hrest ⊢
        rw [← List.append_assoc]
        exact hrest
      · rw [List.flatMap_nil, Trace.act_nil]
        exact hk

theorem Linear.count {f : Thread → Thread} (hk : Linear s₀ H₀ g k)
    (hf : ∀ x : Thread, ∃ n, f x = { x with remainingTick := n }) : Linear s₀ H₀ g (k.modify t f) := by
  refine hk.frame (.of_fields (fun u _ => ?_) fun _ _ => Iff.rfl) rfl rfl
  by_cases hu : u = t
  · subst hu
    obtain ⟨n, hn⟩ := hf (k.thread u)
    rw [modify_thread_self, hn]
    exact ⟨rfl, rfl, rfl, Iff.rfl⟩
  · rw [modify_thread_of_ne hu]
    exact ⟨rfl, rfl, rfl, Iff.rfl⟩

theorem Linear.ticked (hok : k.Ok idle) (hk : Linear s₀ H₀ g k) : Linear s₀ H₀ g k.ticked := by
  have hok₁ : Ok idle (modify k.currentThread
      (fun x => { x with remainingTick := x.remainingTick - 1 }) { k with tick := k.tick + 1 }) :=
    hok.count fun x => ⟨_, rfl⟩
  have htick : Linear s₀ H₀ g { k with tick := k.tick + 1 } := hk.frame (.of_eq rfl rfl) rfl rfl
  have hk₁ : Linear s₀ H₀ g (modify k.currentThread
      (fun x => { x with remainingTick := x.remainingTick - 1 }) { k with tick := k.tick + 1 }) :=
    htick.count fun x => ⟨_, rfl⟩
  unfold Kernel.ticked
  dsimp only
  generalize modify k.currentThread (fun x => { x with remainingTick := x.remainingTick - 1 })
    { k with tick := k.tick + 1 } = j at hok₁ hk₁ ⊢
  split
  · have hok₂ : Ok idle (j.modify k.currentThread fun x =>
        { x with remainingTick := x.initTick }) := hok₁.count fun x => ⟨_, rfl⟩
    have hk₂ : Linear s₀ H₀ g (j.modify k.currentThread fun x =>
        { x with remainingTick := x.initTick }) := hk₁.count fun x => ⟨_, rfl⟩
    generalize j.modify k.currentThread (fun x => { x with remainingTick := x.initTick }) = l
      at hok₂ hk₂ ⊢
    split
    · next h =>
      have hs := hok₂.sound.sched
      have hyielded := hk₂.frame (.yield hs h) (quiet_yield hs h).store (quiet_yield hs h).mutex
      exact hyielded.schedule
    · exact hk₂
  · exact hk₁

theorem Linear.interrupt {e : Interrupt} (hok : k.Ok idle) (hfits : Move.Fits (.interrupt e) k)
    (hk : Linear s₀ H₀ g k) : Linear s₀ H₀ (g.act k none (e.actions k) none) (e.perform k) := by
  have hs := hok.sound.sched
  cases e with
  | semRelease i =>
    obtain ⟨W, -, he⟩ := semRelease_effect (a := none) hs hk.hold hfits
    exact Linear.inInterrupt (Linear.interrupts hs hk he)
  | eventSend i set =>
    obtain ⟨W, f, -, he⟩ := eventSend_effect (a := none) i set hs (by rintro _ ⟨⟩)
      hk.hold
    exact Linear.inInterrupt (Linear.interrupts hs hk he)
  | timerStart i time =>
    rw [Interrupt.actions, Trace.act_nil]
    exact hk.frame (.of_eq rfl rfl) rfl rfl
  | timerStop i =>
    have hquiet : k.Quiet none (k.rtTimerStop (.other i)) := quiet_stop
    rw [Interrupt.actions, Trace.act_nil]
    exact hk.frame .stop hquiet.store hquiet.mutex
  | tick sends => exact (hk.ticked hok).timerCheck hok.ticked

/-! ## All runs -/

theorem Linear.step {m : Move} (hok : k.Ok idle) (hm : m.Allowed idle k) (hfits : m.Fits k)
    (hk : Linear s₀ H₀ g k) : Linear s₀ H₀ (m.trace k g) (k.step m) := by
  cases m with
  | call c =>
    have hrun : (k.thread k.currentThread).stat = .ready := by
      rcases hok.running with hr | hc
      · exact hr
      · rw [hm.1] at hc
        cases hc
    have hcall := hk.call hok.sound hrun hm.2 hfits
    simp only [Kernel.step]
    split
    · exact hcall
    · exact hcall.frame (.of_eq rfl rfl) rfl rfl
  | schedule =>
    have hcalls : Linear s₀ H₀ g { k with calls := Function.update k.calls k.currentThread false } :=
      hk.frame (.of_eq rfl rfl) rfl rfl
    exact hcalls.schedule
  | interrupt e => exact hk.interrupt hok hfits

theorem startups_linear {ts : List Tid} (hs : k.Sched none) (hnodup : ts.Nodup)
    (hts : ∀ t ∈ ts, (k.thread t).stat = .init ∧ (k.thread t).initPriority < rtThreadPriorityMax)
    (hk : Linear s₀ H₀ g k) : Linear s₀ H₀ g (ts.foldl (fun k t => k.rtThreadStartup t) k) := by
  induction ts generalizing k with
  | nil => exact hk
  | cons u ts ih =>
    obtain ⟨hu, hnodup'⟩ := List.nodup_cons.mp hnodup
    obtain ⟨hinit, hprio⟩ := hts u (.head _)
    have hquiet := quiet_startup hinit
    refine ih (hs.startup hinit hprio) hnodup' ?_
      (hk.frame (.startup hs hinit) hquiet.store hquiet.mutex)
    intro t ht
    have htu : t ≠ u := fun heq => hu (heq ▸ ht)
    have hother : (k.rtThreadStartup u).thread t = k.thread t :=
      (resume_of_ne htu).trans (modify_thread_of_ne htu _)
    rw [hother]
    exact hts t (.tail _ ht)

theorem Setup.boot_linear {s : Setup} (hnodup : s.started.Nodup)
    (hprio : ∀ t ∈ s.started, s.priority t < rtThreadPriorityMax) :
    Linear s.initial.store [] .nothing s.boot := by
  have hinitial : Linear s.initial.store [] .nothing s.initial :=
    ⟨fun _ hmem => (List.not_mem_nil hmem).elim, fun h => absurd h (Option.some_ne_none _).symm,
      [], rfl, fun _ => rfl, rfl⟩
  exact (startups_linear s.initial_sched hnodup (fun t ht => ⟨rfl, hprio t ht⟩) hinitial).schedule

/-- Any run from a sound state. -/
theorem Linear.traced (hok : k.Ok idle) (hk : Linear s₀ H₀ g k) (h : Traced idle k g k' g') :
    Linear s₀ H₀ g' k' := by
  induction h with
  | start => exact hk
  | step hrun hm hfits ih => exact ih.step (hok.reaches hrun.reaches) hm hfits

/-- The history of a run so far may be any that explains it. -/
theorem Linear.fixed (hk : Linear s₀ H₀ g k) (hH : Explains s₀ H k g) : Linear s₀ H g k :=
  ⟨hk.waits, hk.hold, [], by rwa [List.append_nil]⟩

theorem Setup.traced_linear {s : Setup} (hnodup : s.started.Nodup)
    (hprio : ∀ t ∈ s.started, s.priority t < rtThreadPriorityMax) (hidle : idle ∈ s.started)
    (h : Traced idle s.boot .nothing k g) : Linear s.initial.store [] g k :=
  (Setup.boot_linear hnodup hprio).traced (Setup.boot_ok hnodup hprio hidle) h

/-- **The kernel's objects are atomic.** In every run in which no count overflows,
however its threads wait, are woken, time out and are interrupted, there is one legal
history of the abstract objects, from their first state to what they are now, in which
each thread's part is its calls that have ended well, with what they returned, in
their order, and the interrupts' part is what the interrupts did. As the run goes on,
any such history only grows at its end: what has ended before a call is made stands
before it. -/
theorem kernel_linearizable {s : Setup} (hnodup : s.started.Nodup)
    (hprio : ∀ t ∈ s.started, s.priority t < rtThreadPriorityMax) (hidle : idle ∈ s.started)
    (h : Traced idle s.boot .nothing k g) :
    (∃ H, Explains s.initial.store H k g) ∧
      ∀ H k' g', Explains s.initial.store H k g → Traced idle k g k' g' →
        ∃ R, Explains s.initial.store (H ++ R) k' g' := by
  have hlinear := Setup.traced_linear hnodup hprio hidle h
  refine ⟨hlinear.history, fun H k' g' hH hlater => ?_⟩
  have hok : k.Ok idle := (Setup.boot_ok hnodup hprio hidle).reaches h.reaches
  exact ((hlinear.fixed hH).traced hok hlater).history

theorem handedOver_traced : ∃ g, Traced 0 lowAndHigh.boot .nothing handedOver g := by
  unfold handedOver
  refine ⟨_, .step (.step (.step (.step (.step (.step (.step .start ?_ ?_) ?_ trivial)
    ?_ trivial) ?_ ?_) ?_ trivial) ?_ trivial) ?_ trivial⟩
  · exact ⟨by decide +kernel, fun _ => ⟨by decide +kernel, by decide +kernel⟩⟩
  · change _ ≠ _
    decide +kernel
  · exact ⟨by decide +kernel, by decide +kernel, by decide +kernel⟩
  · change _ = _
    decide +kernel
  · exact ⟨by decide +kernel, fun _ => ⟨by decide +kernel, by decide +kernel⟩⟩
  · change _ ≠ _
    decide +kernel
  · change _ = _
    decide +kernel
  · exact ⟨by decide +kernel, trivial⟩
  · change _ = _
    decide +kernel

theorem kernel_linearizable_handedOver : ∃ g : Trace,
    (∃ H, Explains lowAndHigh.initial.store H handedOver g) ∧
      ∀ H k' g', Explains lowAndHigh.initial.store H handedOver g → Traced 0 handedOver g k' g' →
        ∃ R, Explains lowAndHigh.initial.store (H ++ R) k' g' := by
  obtain ⟨g, hrun⟩ := handedOver_traced
  exact ⟨g, kernel_linearizable (by decide) (by decide) (by decide) hrun⟩

/-- **Threads on the kernel are a pool.** Whatever the threads' programs are, what they
have done in a run of the kernel is a run of a pool of threads in which each action on
an object is one indivisible operation. -/
theorem kernel_runs_pool {s : Setup} (hnodup : s.started.Nodup)
    (hprio : ∀ t ∈ s.started, s.priority t < rtThreadPriorityMax) (hidle : idle ∈ s.started)
    (h : Traced idle s.boot .nothing k g) {program rest : Tid → List Action}
    (hprogram : ∀ t, program t = g.done k t ++ rest t) :
    ∃ tr, Run Store.spec.system anyStep
      ⟨s.initial.store, fun t => History.script (program t)⟩ tr
      ⟨k.store, fun t => History.script (rest t)⟩ := by
  obtain ⟨H, hH⟩ := (Setup.traced_linear hnodup hprio hidle h).history
  exact History.Spec.run_pool hH.legal fun t => by rw [hprogram, ← hH.threads, List.nil_append]

theorem kernel_runs_pool_handedOver : ∃ g : Trace, ∃ tr, Run Store.spec.system anyStep
    ⟨lowAndHigh.initial.store, fun t => History.script (g.done handedOver t ++ [.mutexRelease 0])⟩ tr
    ⟨handedOver.store, fun _ => History.script [.mutexRelease 0]⟩ := by
  obtain ⟨g, hrun⟩ := handedOver_traced
  exact ⟨g, kernel_runs_pool (by decide) (by decide) (by decide) hrun fun _ => rfl⟩

end Aclean.RtThread
