import Aclean.KernelStore

/-!
# Whom the kernel wakes

What each operation on a semaphore, a mutex or an event is in terms of the
abstract objects: the caller's action, and behind it one of each thread that
it wakes (`Effect`). A hand-over is a release and a take by the thread that is
woken.
-/

namespace Aclean.RtThread

open Kernel

variable {k k' k'' : Kernel} {idle t u : Tid} {i : Nat} {a : Agent} {W W' : List Tid} {o : Option TimerId}

namespace Kernel

/-! ## Whom a step wakes -/

theorem interrupt_ne : (none : Agent) ≠ some u := (Option.some_ne_none u).symm

/-- From `k` to `k'` the threads `W` have been woken, and every other thread but the
acting one waits, or does not, as before. -/
structure Wakes (a : Agent) (W : List Tid) (k k' : Kernel) : Prop where
  error : ∀ {u}, a ≠ some u → (k'.thread u).error = (k.thread u).error
  wants : ∀ {u}, a ≠ some u → u ∉ W → (k'.thread u).eventSet = (k.thread u).eventSet
  info : ∀ {u}, a ≠ some u → (k'.thread u).eventInfo = (k.thread u).eventInfo
  stat : ∀ {u}, a ≠ some u → u ∉ W →
    ((k'.thread u).stat = .suspend ↔ (k.thread u).stat = .suspend)
  list : ∀ {u h}, a ≠ some u → h.Waiting → (u ∈ k'.list h ↔ u ∈ k.list h ∧ u ∉ W)
  woken : ∀ {u}, u ∈ W → (k'.thread u).stat ≠ .suspend

theorem Wakes.refl : Wakes a [] k k where
  error _ := rfl
  wants _ _ := rfl
  info _ := rfl
  stat _ _ := Iff.rfl
  list _ _ := ⟨fun h => ⟨h, List.not_mem_nil⟩, And.left⟩
  woken h := absurd h List.not_mem_nil

theorem Wakes.trans (h : Wakes a W k k') (h' : Wakes a W' k' k'') (ha : ∀ u ∈ W, a ≠ some u) :
    Wakes a (W ++ W') k k'' where
  error hu := (h'.error hu).trans (h.error hu)
  wants hu hn := by
    rw [List.mem_append, not_or] at hn
    exact (h'.wants hu hn.2).trans (h.wants hu hn.1)
  info hu := (h'.info hu).trans (h.info hu)
  stat hu hn := by
    rw [List.mem_append, not_or] at hn
    exact (h'.stat hu hn.2).trans (h.stat hu hn.1)
  list hu hh := by
    rw [h'.list hu hh, h.list hu hh, List.mem_append, not_or, and_assoc]
  woken := by
    intro u hu
    by_cases hu' : u ∈ W'
    · exact h'.woken hu'
    · have hW : u ∈ W := (List.mem_append.mp hu).resolve_right hu'
      rw [Ne, h'.stat (ha u hW) hu']
      exact h.woken hW

/-- What wakes nobody, in front of or behind what does. -/
theorem Wakes.after (h : Wakes a [] k k') (h' : Wakes a W k' k'') : Wakes a W k k'' :=
  h.trans h' nofun

theorem Wakes.before (h : Wakes a W k k') (h' : Wakes a [] k' k'') (ha : ∀ u ∈ W, a ≠ some u) :
    Wakes a W k k'' := by
  have hboth := h.trans h' ha
  rwa [List.append_nil] at hboth

/-- Nothing that counts has changed. -/
theorem Wakes.of_fields
    (hfields : ∀ u, a ≠ some u → (k'.thread u).error = (k.thread u).error ∧
      (k'.thread u).eventSet = (k.thread u).eventSet ∧
      (k'.thread u).eventInfo = (k.thread u).eventInfo ∧
      ((k'.thread u).stat = .suspend ↔ (k.thread u).stat = .suspend))
    (hlist : ∀ {u h}, a ≠ some u → h.Waiting → (u ∈ k'.list h ↔ u ∈ k.list h)) :
    Wakes a [] k k' where
  error hu := (hfields _ hu).1
  wants hu _ := (hfields _ hu).2.1
  info hu := (hfields _ hu).2.2.1
  stat hu _ := (hfields _ hu).2.2.2
  list hu hh := by
    rw [hlist hu hh]
    exact ⟨fun h => ⟨h, List.not_mem_nil⟩, And.left⟩
  woken h := absurd h List.not_mem_nil

theorem Wakes.of_eq (hthread : k'.thread = k.thread) (hlist : k'.list = k.list) :
    Wakes a [] k k' :=
  .of_fields (fun _ _ => by rw [hthread]; exact ⟨rfl, rfl, rfl, Iff.rfl⟩) fun _ _ => by rw [hlist]

theorem Wakes.modify {f : Thread → Thread} : Wakes (some t) [] k (k.modify t f) :=
  .of_fields (fun u hu => by
    rw [modify_thread_of_ne fun heq => hu (congrArg some heq.symm)]
    exact ⟨rfl, rfl, rfl, Iff.rfl⟩) fun _ _ => Iff.rfl

theorem Wakes.stop {id : TimerId} : Wakes a [] k (k.rtTimerStop id) :=
  .of_eq (rtTimerStop_thread id) (rtTimerStop_list id)

theorem Wakes.schedule : Wakes a [] k k.rtSchedule :=
  .of_eq rtSchedule_same.1 rtSchedule_same.2.1

/-! ### A thread is woken -/

theorem resume_thread (ht : (k.thread t).stat = .suspend) :
    (k.rtThreadResume t).thread = (k.modify t fun x => { x with stat := .ready }).thread := by
  unfold rtThreadResume
  rw [if_neg (not_not.mpr ht)]
  change Function.update (Kernel.thread (rtTimerStop _ _)) t _ = Function.update k.thread t _
  rw [rtTimerStop_thread]

theorem resume_list {h : ListHead} (ht : (k.thread t).stat = .suspend) (hh : h.Waiting) :
    (k.rtThreadResume t).list h = Queues.unlink t k.list h := by
  have hne : ∀ q, h ≠ .priorityTable q := by
    rintro q rfl
    cases hh
  unfold rtThreadResume
  rw [if_neg (not_not.mpr ht)]
  refine (Queues.link_of_ne (hne _)).trans ?_
  rw [rtTimerStop_list]

theorem Wakes.resume (hk : k.Sched o) (ht : (k.thread t).stat = .suspend) :
    Wakes a [t] k (k.rtThreadResume t) := by
  have hthread := resume_thread ht
  have hself : ∀ u, (k.rtThreadResume t).thread u = k.thread u ∨
      u = t ∧ (k.rtThreadResume t).thread u = { k.thread u with stat := .ready } := by
    intro u
    rw [hthread]
    by_cases hu : u = t
    · subst hu
      exact .inr ⟨rfl, modify_thread_self _⟩
    · exact .inl (modify_thread_of_ne hu _)
  refine ⟨?_, ?_, ?_, ?_, ?_, ?_⟩
  · intro u _
    rcases hself u with hu | ⟨-, hu⟩ <;> rw [hu]
  · intro u _ _
    rcases hself u with hu | ⟨-, hu⟩ <;> rw [hu]
  · intro u _
    rcases hself u with hu | ⟨-, hu⟩ <;> rw [hu]
  · intro u _ hn
    rcases hself u with hu | ⟨heq, -⟩
    · rw [hu]
    · exact absurd (List.mem_singleton.mpr heq) hn
  · intro u h _ hh
    rw [resume_list ht hh, hk.lists.linked.mem_unlink, List.mem_singleton]
    exact and_comm
  · intro u hu
    obtain rfl := List.mem_singleton.mp hu
    rw [hthread, modify_thread_self]
    nofun

/-- The first thread that waits is woken. -/
theorem Wakes.listResume {h : ListHead} (hk : k.Sched o) (hh : h.Waiting)
    (ht : (k.list h).head? = some t) : Wakes a [t] k (k.rtIpcListResume h) := by
  unfold rtIpcListResume
  rw [ht]
  exact .resume hk (hk.lists.waiting hh (List.mem_of_head? ht))

theorem Wakes.startup (hk : k.Sched o) (ht : (k.thread t).stat = .init) :
    Wakes a [] k (k.rtThreadStartup t) := by
  unfold rtThreadStartup
  generalize hj : (k.modify t fun x =>
    { x with
      currentPriority := x.initPriority
      numberMask := 1#32 <<< x.initPriority
      stat := .suspend }) = j
  have hlist : j.list = k.list := by rw [← hj]; rfl
  have hself : j.thread t = { k.thread t with
      currentPriority := (k.thread t).initPriority
      numberMask := 1#32 <<< (k.thread t).initPriority
      stat := .suspend } := by
    rw [← hj]
    exact modify_thread_self _
  have hother : ∀ u, u ≠ t → j.thread u = k.thread u := by
    intro u hu
    rw [← hj]
    exact modify_thread_of_ne hu _
  have hsuspend : (j.thread t).stat = .suspend := by rw [hself]
  have hthread := resume_thread hsuspend
  refine .of_fields ?_ ?_
  · intro u _
    rw [hthread]
    by_cases hu : u = t
    · subst hu
      rw [modify_thread_self, hself, ht]
      exact ⟨rfl, rfl, rfl, iff_of_false nofun nofun⟩
    · rw [modify_thread_of_ne hu, hother u hu]
      exact ⟨rfl, rfl, rfl, Iff.rfl⟩
  · intro u h _ hh
    have hout : t ∉ k.list h := fun hmem => by
      rw [hk.lists.waiting hh hmem] at ht
      cases ht
    rw [resume_list hsuspend hh, hlist, Queues.unlink_of_not_mem hout]

theorem Wakes.control {p : Nat} (hk : k.Sched none) : Wakes a [] k (k.rtThreadControl t p) := by
  refine .of_fields ?_ fun _ hh => by rw [control_waiting hk hh]
  intro u _
  unfold rtThreadControl
  dsimp only
  split
  · next hready =>
    by_cases hu : u = t
    · subst hu
      rw [insertThread_self, modify_thread_self]
      exact ⟨rfl, rfl, rfl, iff_of_false nofun (by rw [hready]; decide)⟩
    · rw [insertThread_of_ne hu, modify_thread_of_ne hu]
      exact ⟨rfl, rfl, rfl, Iff.rfl⟩
  · by_cases hu : u = t
    · subst hu
      rw [modify_thread_self]
      exact ⟨rfl, rfl, rfl, Iff.rfl⟩
    · rw [modify_thread_of_ne hu]
      exact ⟨rfl, rfl, rfl, Iff.rfl⟩

theorem Wakes.yield (hk : k.Sched none) (h : k.rtThreadYield = some k') : Wakes a [] k k' := by
  unfold rtThreadYield at h
  dsimp only at h
  split at h
  · next hcond =>
    cases h
    refine .of_fields (fun _ _ => ⟨rfl, rfl, rfl, Iff.rfl⟩) ?_
    intro u h _ hh
    have hne : ∀ q, h ≠ .priorityTable q := by
      rintro q rfl
      cases hh
    have hout : k.currentThread ∉ k.list h := fun hmem => by
      have hsuspend := hk.lists.waiting hh hmem
      rw [hcond.1] at hsuspend
      cases hsuspend
    rw [show Kernel.list _ h = k.list h from
      (Queues.link_of_ne (hne _)).trans (Queues.unlink_of_not_mem hout)]
  · cases h

end Kernel

/-! ## What an operation does -/

/-- The event a call waits for is in the thread's record. -/
def Call.Wanted (x : Thread) : Call → Prop
  | .eventRecv _ set option _ => x.eventSet = set ∧ x.eventInfo = option
  | _ => True

/-- What an agent does to the objects, `own`, and with it the threads `W` that it wakes,
the call `f` each. -/
structure Effect (a : Agent) (own : List Action) (W : List Tid) (f : Tid → Action)
    (k k' : Kernel) : Prop where
  wakes : Wakes a W k k'
  nodup : W.Nodup
  ends : ∀ u ∈ W, ∃ h, h.Waiting ∧ u ∈ k.list h ∧ ∀ c : Call, c.waitsIn = some h →
    c.Wanted (k.thread u) → c.action (k'.thread u).eventSet = some (f u)
  run : Store.spec.run (own.map (a, ·) ++ W.map fun u => (some u, f u)) k.store = some k'.store
  hold : ∀ {i t}, (k'.mutex i).owner = some t → (k'.mutex i).hold ≠ 0

/-- Where the acting thread is before and after: awake, unless it sleeps for `sleeps`. -/
structure Acts (t : Tid) (sleeps : Option Call) (k k' : Kernel) : Prop where
  before : ∀ h, h.Waiting → t ∉ k.list h
  waits : ∀ h, h.Waiting → t ∈ k'.list h → ∃ c, sleeps = some c ∧ c.waitsIn = some h ∧
    (k'.thread t).error = .eok ∧ c.Wanted (k'.thread t)
  asleep : ∀ c, sleeps = some c → (k'.thread t).stat = .suspend ∨ ∀ got, c.action got = none

/-! ## The operations on objects -/

@[simp] theorem store_semaphore : k.store.semaphore i = (k.semaphore i).value.toNat := rfl

@[simp] theorem store_mutex :
    k.store.mutex i = (k.mutex i).owner.map fun t => (t, (k.mutex i).hold.toNat) := rfl

@[simp] theorem store_event : k.store.event i = (k.event i).set := rfl

@[simp] theorem setSemaphore_store {sem : Semaphore} : (k.setSemaphore i sem).store =
    { k.store with semaphore := Function.update k.store.semaphore i sem.value.toNat } := by
  unfold Kernel.store Kernel.setSemaphore
  congr 1
  funext j
  by_cases hj : j = i
  · subst hj
    simp
  · simp [hj]

@[simp] theorem setMutex_store {m : Mutex} : (k.setMutex i m).store =
    { k.store with
      mutex := Function.update k.store.mutex i (m.owner.map fun t => (t, m.hold.toNat)) } := by
  unfold Kernel.store Kernel.setMutex
  congr 1
  funext j
  by_cases hj : j = i
  · subst hj
    simp
  · simp [hj]

@[simp] theorem setEvent_store {e : Event} : (k.setEvent i e).store =
    { k.store with event := Function.update k.store.event i e.set } := by
  unfold Kernel.store Kernel.setEvent
  congr 1
  funext j
  by_cases hj : j = i
  · subst hj
    simp
  · simp [hj]

theorem Kernel.Quiet.store {out : Option (Tid × ListHead)} (h : k.Quiet out k') : k'.store = k.store := by
  unfold Kernel.store
  rw [h.semaphore, h.mutex, h.event]

theorem Kernel.Wakes.of_none (h : Wakes none W k k') : Wakes a W k k' :=
  ⟨fun _ => h.error interrupt_ne, fun _ => h.wants interrupt_ne, fun _ => h.info interrupt_ne,
    fun _ => h.stat interrupt_ne, fun _ => h.list interrupt_ne, h.woken⟩

/-- A thread that waits for nothing and is not touched. -/
theorem Acts.of_wakes (h : Wakes none W k k') (hout : ∀ h, h.Waiting → t ∉ k.list h) :
    Acts t none k k' where
  before := hout
  waits l hl hmem := absurd ((h.list interrupt_ne hl).mp hmem).1 (hout l hl)
  asleep := by rintro _ ⟨⟩

/-- What an agent does when it wakes nobody. -/
theorem Effect.of_run {own : List Action} {f : Tid → Action} (hw : Wakes a [] k k')
    (hrun : Store.spec.run (own.map (a, ·)) k.store = some k'.store)
    (hhold : ∀ {i t}, (k'.mutex i).owner = some t → (k'.mutex i).hold ≠ 0) :
    Effect a own [] f k k' :=
  ⟨hw, List.nodup_nil, fun _ hu => absurd hu List.not_mem_nil, by rw [List.map_nil, List.append_nil]; exact hrun, hhold⟩

theorem semRelease_effect (hk : k.Sched o)
    (hhold : ∀ {i t}, (k.mutex i).owner = some t → (k.mutex i).hold ≠ 0)
    (hfits : (k.semaphore i).value ≠ 0xffff) :
    ∃ W, Wakes none W k (k.rtSemRelease i).2 ∧
      Effect a [.semRelease i] W (fun _ => .semTake i) k (k.rtSemRelease i).2 := by
  unfold rtSemRelease
  split
  · next hne =>
    obtain ⟨w, hw⟩ : ∃ w, (k.list (.semaphore i)).head? = some w :=
      ⟨_, List.head?_eq_some_head hne⟩
    have hwakes : Wakes none [w] k (k.rtIpcListResume (.semaphore i)) :=
      .listResume hk trivial hw
    have hquiet : k.Quiet none (k.rtIpcListResume (.semaphore i)) := quiet_listResume
    refine ⟨[w], hwakes, hwakes.of_none, List.nodup_singleton w, ?_, ?_, ?_⟩
    · intro u hu
      obtain rfl := List.mem_singleton.mp hu
      refine ⟨.semaphore i, trivial, List.mem_of_head? hw, fun c hc _ => ?_⟩
      cases c with
      | semTake j time =>
        cases hc
        rfl
      | _ => cases hc
    · -- the unit released is the one the first waiting thread takes
      have hsame : Function.update k.store.semaphore i (k.semaphore i).value.toNat =
          k.store.semaphore := Function.update_eq_self i _
      rw [hquiet.store]
      simp [History.Spec.run, Store.enabled, Store.exec, hsame]
    · rw [hquiet.mutex]
      exact hhold
  · refine ⟨[], .of_eq rfl rfl, .of_run (.of_eq rfl rfl) ?_ hhold⟩
    have hnext : ((k.semaphore i).value + 1).toNat = (k.semaphore i).value.toNat + 1 := by
      have hlt := (k.semaphore i).value.toNat_lt
      have hne : (k.semaphore i).value.toNat ≠ 65535 := fun h => hfits (UInt16.toNat_inj.mp h)
      rw [UInt16.toNat_add]
      exact Nat.mod_eq_of_lt (by simp only [UInt16.reduceToNat]; omega)
    simp [History.Spec.run, Store.enabled, Store.exec, hnext]

theorem semTake_effect {f : Tid → Action}
    (hhold : ∀ {i t}, (k.mutex i).owner = some t → (k.mutex i).hold ≠ 0)
    (hvalue : 0 < (k.semaphore i).value) :
    Effect a [.semTake i] [] f k
      (k.setSemaphore i { k.semaphore i with value := (k.semaphore i).value - 1 }) := by
  refine .of_run (.of_eq rfl rfl) ?_ hhold
  have hpos : 0 < (k.semaphore i).value.toNat := UInt16.lt_iff_toNat_lt.mp hvalue
  have hnext : ((k.semaphore i).value - 1).toNat = (k.semaphore i).value.toNat - 1 := by
    have hone : (1 : UInt16) ≤ (k.semaphore i).value := UInt16.le_iff_toNat_le.mpr hpos
    rw [UInt16.toNat_sub_of_le _ _ hone]
    rfl
  simp [History.Spec.run, Store.enabled, Store.exec, hnext, hpos]

/-- A hold count written, or an owner: the other mutexes keep theirs. -/
theorem setMutex_hold {m : Mutex}
    (hhold : ∀ {i t}, (k.mutex i).owner = some t → (k.mutex i).hold ≠ 0)
    (hm : ∀ t, m.owner = some t → m.hold ≠ 0) {j : Nat} {t : Tid}
    (h : ((k.setMutex i m).mutex j).owner = some t) : ((k.setMutex i m).mutex j).hold ≠ 0 := by
  change (Function.update k.mutex i m j).owner = some t at h
  change (Function.update k.mutex i m j).hold ≠ 0
  by_cases hj : j = i
  · subst hj
    rw [Function.update_self] at h ⊢
    exact hm t h
  · rw [Function.update_of_ne hj] at h ⊢
    exact hhold h

/-- A mutex is taken, for the first time or once more. -/
theorem mutexTake_run {m : Mutex} (hm : m.owner = some t)
    (hmine : (k.mutex i).owner = none ∧ m.hold.toNat = 1 ∨
      (k.mutex i).owner = some t ∧ m.hold.toNat = (k.mutex i).hold.toNat + 1) :
    Store.spec.run [(some t, .mutexTake i)] k.store = some (k.setMutex i m).store := by
  rcases hmine with ⟨hfree, hone⟩ | ⟨hown, hmore⟩
  · simp [History.Spec.run, Store.enabled, Store.exec, Board.take, hfree, hm, hone]
  · simp [History.Spec.run, Store.enabled, Store.exec, Board.take, hown, hm, hmore]

/-- A mutex is released, for good or once less. -/
theorem mutexRelease_run {m : Mutex} (howner : (k.mutex i).owner = some t)
    (hm : m.owner = none ∧ (k.mutex i).hold.toNat = 1 ∨
      m.owner = some t ∧ 1 < (k.mutex i).hold.toNat ∧
        m.hold.toNat = (k.mutex i).hold.toNat - 1) :
    Store.spec.run [(some t, .mutexRelease i)] k.store = some (k.setMutex i m).store := by
  rcases hm with ⟨hfree, hone⟩ | ⟨hown, hmore, hless⟩
  · simp [History.Spec.run, Store.enabled, Store.exec, Board.release, howner, hfree, hone]
  · simp [History.Spec.run, Store.enabled, Store.exec, Board.release, howner, hown, hless,
      Nat.not_le.mpr hmore]

theorem setMutex_twice {m m' : Mutex} :
    (k.setMutex i m).setMutex i m' = k.setMutex i m' := by
  change { k with mutex := Function.update (Function.update k.mutex i m) i m' } =
    { k with mutex := Function.update k.mutex i m' }
  rw [Function.update_idem]

/-! ### Events -/

/-- What a woken thread is told is what there was of what it wanted. -/
theorem received_got {option : UInt8} {want set : BitVec 32} (h : received option want set = true) :
    (if option &&& eventFlagAnd ≠ 0 then want else want &&& set) = want &&& set := by
  unfold received at h
  split at h
  · next hand =>
    rw [if_pos hand]
    exact (beq_iff_eq.mp h).symm
  · next hand => rw [if_neg hand]

theorem clear_got {want set : BitVec 32} : set &&& ~~~(want &&& set) = set &&& ~~~want := by
  refine BitVec.eq_of_getLsbD_eq fun q hq => ?_
  simp only [BitVec.getLsbD_and, BitVec.getLsbD_not]
  cases want.getLsbD q <;> cases set.getLsbD q <;> simp [hq]

/-- A receipt of an event, as it is in the abstract objects. -/
theorem eventRecv_run {option : UInt8} {want : BitVec 32} {e : Event}
    (h : received option want (k.event i).set = true)
    (he : e.set = if option &&& eventFlagClear ≠ 0 then (k.event i).set &&& ~~~want
      else (k.event i).set) :
    Store.spec.run [(a, .eventRecv i want option (want &&& (k.event i).set))] k.store =
      some (k.setEvent i e).store := by
  have hsame : Function.update k.store.event i (k.event i).set = k.store.event :=
    Function.update_eq_self i _
  by_cases hclear : option &&& eventFlagClear = 0
  · rw [if_neg (not_not.mpr hclear)] at he
    simp [History.Spec.run, Store.enabled, Store.exec, h, he, hclear, hsame]
  · rw [if_pos hclear] at he
    simp [History.Spec.run, Store.enabled, Store.exec, h, he, hclear]

theorem eventTurn_effect (hk : k.Sched o) (hmem : t ∈ k.list (.event i)) :
    k.eventTurn i t = (false, k) ∨
      (k.eventTurn i t).1 = true ∧ Wakes none [t] k (k.eventTurn i t).2 ∧
        ((k.eventTurn i t).2).mutex = k.mutex ∧
        Store.spec.run [(some t, .eventRecv i (k.thread t).eventSet (k.thread t).eventInfo
          ((k.eventTurn i t).2.thread t).eventSet)] k.store = some (k.eventTurn i t).2.store := by
  by_cases hrecv : received (k.thread t).eventInfo (k.thread t).eventSet (k.event i).set = true
  · right
    unfold eventTurn
    dsimp only
    rw [if_pos hrecv, received_got hrecv]
    generalize hgot : (k.thread t).eventSet &&& (k.event i).set = got
    generalize htaken : (if (k.thread t).eventInfo &&& eventFlagClear ≠ 0 then
        (k.modify t fun x => { x with eventSet := got }).setEvent i
          { k.event i with set := (k.event i).set &&& ~~~got }
      else k.modify t fun x => { x with eventSet := got }) = j
    have hj : j.Sched o ∧ j.thread = (k.modify t fun x => { x with eventSet := got }).thread ∧
        j.list = k.list ∧ j.mutex = k.mutex ∧
        j.store = (k.setEvent i { k.event i with
          set := if (k.thread t).eventInfo &&& eventFlagClear ≠ 0 then
            (k.event i).set &&& ~~~(k.thread t).eventSet else (k.event i).set }).store := by
      have hwritten : (k.modify t fun x => { x with eventSet := got }).Sched o :=
        hk.write rfl rfl rfl
      subst htaken
      split
      · refine ⟨hwritten.congr rfl rfl rfl rfl rfl, rfl, rfl, rfl, ?_⟩
        rw [← hgot, clear_got]
        rfl
      · refine ⟨hwritten, rfl, rfl, rfl, ?_⟩
        have hsame : Function.update k.store.event i (k.event i).set = k.store.event :=
          Function.update_eq_self i _
        rw [setEvent_store, hsame]
        rfl
    obtain ⟨hjs, hthread, hlist, hmutex, hstore⟩ := hj
    have hself : j.thread t = { k.thread t with eventSet := got } := by
      rw [hthread, modify_thread_self]
    have hsuspend : (j.thread t).stat = .suspend := by
      rw [hself]
      exact hk.lists.waiting (h := .event i) trivial hmem
    have hwakes : Wakes none [t] j (j.rtThreadResume t) := .resume hjs hsuspend
    have hquiet : j.Quiet none (j.rtThreadResume t) := quiet_resume
    have hset : ((j.rtThreadResume t).thread t).eventSet = got := by
      rw [hquiet.eventSet, hself]
    refine ⟨rfl, ?_, hquiet.mutex.trans hmutex, ?_⟩
    · have hfield : ∀ {α : Type} (p : Thread → α),
          p { k.thread t with eventSet := got } = p (k.thread t) → ∀ u,
          p (j.thread u) = p (k.thread u) := by
        intro α p hp u
        rw [hthread]
        by_cases hu : u = t
        · subst hu
          rw [modify_thread_self, hp]
        · rw [modify_thread_of_ne hu]
      refine ⟨fun {u} _ => ?_, fun {u} _ hu => ?_, fun {u} _ => ?_, fun {u} _ hu => ?_,
        fun {u h} _ hh => ?_, hwakes.woken⟩
      · exact (hwakes.error interrupt_ne).trans (hfield Thread.error rfl u)
      · rw [hwakes.wants interrupt_ne hu, hthread, modify_thread_of_ne fun heq =>
          hu (List.mem_singleton.mpr heq)]
      · exact (hwakes.info interrupt_ne).trans (hfield Thread.eventInfo rfl u)
      · rw [hwakes.stat interrupt_ne hu, hfield Thread.stat rfl u]
      · rw [hwakes.list interrupt_ne hh, hlist]
    · dsimp only
      rw [hset, ← hgot, hquiet.store, hstore]
      exact eventRecv_run hrecv rfl
  · left
    unfold eventTurn
    dsimp only
    rw [if_neg hrecv]

/-- The threads a send wakes receive the event one after the other. -/
theorem eventLoop_effect (ts : List Tid) (hk : k.Sched o) (ho : ∀ t, o ≠ some (.thread t))
    (hnodup : ts.Nodup) (hmem : ∀ t ∈ ts, t ∈ k.list (.event i)) :
    ∃ W : List Tid, W.Sublist ts ∧ Wakes none W k (k.eventLoop i ts).2 ∧
      (k.eventLoop i ts).2.mutex = k.mutex ∧
      Store.spec.run (W.map fun u => (some u, .eventRecv i (k.thread u).eventSet
        (k.thread u).eventInfo ((k.eventLoop i ts).2.thread u).eventSet)) k.store =
          some (k.eventLoop i ts).2.store := by
  induction ts generalizing k with
  | nil => exact ⟨[], .slnil, .refl, rfl, rfl⟩
  | cons t ts ih =>
    obtain ⟨ht, hnodup'⟩ := List.nodup_cons.mp hnodup
    have hsched := (eventTurn_sends (i := i) (t := t) hk (ho t)).1
    have hloop : (k.eventLoop i (t :: ts)).2 = ((k.eventTurn i t).2.eventLoop i ts).2 := rfl
    rcases eventTurn_effect hk (hmem t (.head _)) with hturn | ⟨-, hwakes, hmutex, hrun⟩
    · obtain ⟨W, hsub, hw, hm, hr⟩ := ih hk hnodup' fun u hu => hmem u (.tail _ hu)
      rw [hloop, hturn]
      exact ⟨W, hsub.cons t, hw, hm, hr⟩
    · have hne : ∀ u : Tid, (none : Agent) ≠ some u := fun u => (Option.some_ne_none u).symm
      have hstill : ∀ u ∈ ts, u ∉ [t] := fun u hu heq =>
        ht (List.mem_singleton.mp heq ▸ hu)
      obtain ⟨W, hsub, hw, hm, hr⟩ := ih hsched hnodup' fun u hu =>
        (hwakes.list (h := .event i) (hne u) trivial).mpr ⟨hmem u (.tail _ hu), hstill u hu⟩
      rw [hloop]
      refine ⟨t :: W, hsub.cons_cons t, hwakes.trans hw fun u _ => hne u, hm.trans hmutex, ?_⟩
      have htW : t ∉ W := fun hin => ht (hsub.subset hin)
      -- the later ones are as they were before this turn, and it as it is now
      have hmap : W.map (fun u => ((some u : Agent), Action.eventRecv i (k.thread u).eventSet
          (k.thread u).eventInfo (((k.eventTurn i t).2.eventLoop i ts).2.thread u).eventSet)) =
          W.map (fun u => (some u, Action.eventRecv i ((k.eventTurn i t).2.thread u).eventSet
            ((k.eventTurn i t).2.thread u).eventInfo
              (((k.eventTurn i t).2.eventLoop i ts).2.thread u).eventSet)) := by
        refine List.map_congr_left fun u hu => ?_
        rw [hwakes.wants (hne u) (hstill u (hsub.subset hu)), hwakes.info (hne u)]
      rw [List.map_cons, hw.wants (hne t) htW, hmap]
      exact (History.Spec.run_trans hrun).trans hr

theorem eventSend_effect (i : Nat) (set : BitVec 32) (hk : k.Sched o) (ho : ∀ t, o ≠ some (.thread t))
    (hhold : ∀ {i t}, (k.mutex i).owner = some t → (k.mutex i).hold ≠ 0) :
    ∃ W f, Wakes none W k (k.rtEventSend i set).2 ∧
      Effect a (sendAction i set) W f k (k.rtEventSend i set).2 := by
  unfold rtEventSend sendAction
  split
  · exact ⟨[], fun _ => .semTake 0, .refl, .of_run .refl rfl hhold⟩
  · dsimp only
    generalize hsent : k.setEvent i { k.event i with set := (k.event i).set ||| set } = j
    have hj : j.Sched o := hsent ▸ hk.congr rfl rfl rfl rfl rfl
    have hthread : j.thread = k.thread := by rw [← hsent]; rfl
    have hlist : j.list = k.list := by rw [← hsent]; rfl
    have hmutex : j.mutex = k.mutex := by rw [← hsent]; rfl
    have hstore : Store.spec.run [(a, .eventSend i set)] k.store = some j.store := by
      rw [← hsent]
      simp [History.Spec.run, Store.enabled, Store.exec]
    obtain ⟨W, hsub, hw, hm, hr⟩ := eventLoop_effect (j.list (.event i)) hj ho
      (hj.lists.linked.nodup _) fun _ hu => hu
    have hwakes : Wakes none W k (j.eventLoop i (j.list (.event i))).2 :=
      Wakes.after (.of_eq hthread hlist) hw
    refine ⟨W, _, hwakes, hwakes.of_none, hsub.nodup (hj.lists.linked.nodup _), ?_,
      (History.Spec.run_trans hstore).trans hr, ?_⟩
    · intro u hu
      refine ⟨.event i, trivial, hlist ▸ hsub.subset hu, fun c hc hwant => ?_⟩
      cases c with
      | eventRecv l want option timeout =>
        cases hc
        rw [hthread, hwant.1, hwant.2]
        rfl
      | _ => cases hc
    · rw [hm, hmutex]
      exact hhold

/-! ### A thread begins to wait -/

theorem waitOn_thread {h : ListHead} {flag : IpcFlag} {time : Int} (hk : k.Sched none)
    (ht : (k.thread k.currentThread).stat = .ready) :
    (k.waitOn h flag time).thread =
      (k.modify k.currentThread fun x => { x with stat := .suspend }).thread := by
  have hsuspend : (k.rtThreadSuspend k.currentThread).thread =
      (k.modify k.currentThread fun x => { x with stat := .suspend }).thread := by
    rw [rtThreadSuspend_eq hk ht]
    rfl
  unfold waitOn
  dsimp only
  split <;> exact hsuspend

theorem waitOn_list (h : ListHead) (flag : IpcFlag) (time : Int) (hk : k.Sched none)
    (ht : (k.thread k.currentThread).stat = .ready) : ∃ behind,
    (k.waitOn h flag time).list =
      Queues.link behind h k.currentThread (Queues.unlink k.currentThread k.list) := by
  have hsuspend : (k.rtThreadSuspend k.currentThread).list =
      Queues.unlink k.currentThread k.list := by
    rw [rtThreadSuspend_eq hk ht]
    rfl
  refine ⟨(k.rtThreadSuspend k.currentThread).waitsBehind flag k.currentThread, ?_⟩
  rw [← hsuspend]
  unfold waitOn
  dsimp only
  split <;> rfl

/-- The running thread waits in `h` and nowhere else. -/
theorem Kernel.Wakes.waitOn {h : ListHead} {flag : IpcFlag} {time : Int} (hk : k.Sched none)
    (ht : (k.thread k.currentThread).stat = .ready) :
    Wakes (some k.currentThread) [] k (k.waitOn h flag time) := by
  refine .of_fields ?_ ?_
  · intro u hu
    rw [waitOn_thread hk ht, modify_thread_of_ne fun heq => hu (congrArg some heq.symm)]
    exact ⟨rfl, rfl, rfl, Iff.rfl⟩
  · intro u l hu _
    have hne : u ≠ k.currentThread := fun heq => hu (congrArg some heq.symm)
    obtain ⟨behind, hlist⟩ := waitOn_list h flag time hk ht
    rw [hlist, Queues.mem_link, hk.lists.linked.mem_unlink]
    exact ⟨fun hmem => (hmem.resolve_left fun heq => hne heq.1).2, fun hmem => .inr ⟨hne, hmem⟩⟩

theorem waitOn_only {h l : ListHead} {flag : IpcFlag} {time : Int} (hk : k.Sched none)
    (ht : (k.thread k.currentThread).stat = .ready)
    (hmem : k.currentThread ∈ (k.waitOn h flag time).list l) : l = h := by
  obtain ⟨behind, hlist⟩ := waitOn_list h flag time hk ht
  rw [hlist, Queues.mem_link, hk.lists.linked.mem_unlink] at hmem
  exact (hmem.resolve_right fun heq => heq.1 rfl).2

/-- A call that goes to sleep in the list it waits in. -/
theorem Acts.waitOn {c : Call} {h : ListHead} {flag : IpcFlag} {time : Int} (hk : k'.Sched none)
    (hcurrent : k'.currentThread = t) (ht : (k'.thread t).stat = .ready)
    (hout : ∀ h, h.Waiting → t ∉ k.list h) (hc : c.waitsIn = some h)
    (herror : (k'.thread t).error = .eok) (hwant : c.Wanted (k'.thread t)) :
    Acts t (some c) k (k'.waitOn h flag time) := by
  subst hcurrent
  have hself : (k'.waitOn h flag time).thread k'.currentThread =
      { k'.thread k'.currentThread with stat := .suspend } := by
    rw [waitOn_thread hk ht, modify_thread_self]
  refine ⟨hout, ?_, ?_⟩
  · intro l _ hmem
    obtain rfl := waitOn_only hk ht hmem
    refine ⟨c, rfl, hc, by rw [hself]; exact herror, ?_⟩
    rw [hself]
    cases c with
    | eventRecv i set option timeout => exact hwant
    | _ => trivial
  · rintro _ ⟨⟩
    exact .inl (by rw [hself])

end Aclean.RtThread
