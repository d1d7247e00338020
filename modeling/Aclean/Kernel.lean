import Mathlib.Data.UInt
import Aclean.Queues

/-!
# The kernel the main board runs on

RT-Thread's scheduler, threads, timers, semaphores, mutexes and events as the
firmware is built with them: 32 priorities, one level of timers, no soft
timers.

Every function below is what the source does with interrupts off, from
`rt_hw_interrupt_disable` to `rt_hw_interrupt_enable`; a call that goes on to
`rt_schedule` says so in its result, and the scheduler runs in a step of its
own. In between an interrupt may come in, and find the calling thread already
out of the ready lists.

Two of a thread's calls are coarser than that. `rt_timer_start` takes the timer
off the list and puts it back in two critical sections, and reads the tick
between them; `rt_timer_stop` looks at the timer's flag before its critical
section and clears it behind it, with interrupts on. Here each is one step. An
interrupt is one step as well, up to the `rt_schedule` it may end with.
`rt_thread_delete` is not among the calls.
-/

namespace Aclean.RtThread

/-! ## Objects -/

/-- A thread; `rt_thread_t`. -/
abbrev Tid := Nat

/-- `RT_THREAD_*`. -/
inductive Stat where
  | init
  | ready
  | suspend
  | close
  deriving DecidableEq, Repr

/-- `RT_EOK`, `-RT_ERROR` and `-RT_ETIMEOUT`. -/
inductive Err where
  | eok
  | error
  | etimeout
  deriving DecidableEq, Repr

/-- `RT_IPC_FLAG_*`, the order in which threads wait. -/
inductive IpcFlag where
  | fifo
  | prio
  deriving DecidableEq, Repr

/-- `RT_THREAD_PRIORITY_MAX`. -/
def rtThreadPriorityMax : Nat := 32

/-- `RT_TICK_MAX / 2`. -/
def rtTickMaxHalf : UInt32 := 0xFFFFFFFF / 2

/-- `struct rt_thread`; 0 is the most urgent priority. -/
structure Thread where
  stat : Stat
  initPriority : Nat
  currentPriority : Nat
  numberMask : BitVec 32
  error : Err
  eventSet : BitVec 32
  eventInfo : UInt8
  initTick : UInt32
  remainingTick : UInt32

/-- The timer inside a thread, or one of its own. -/
inductive TimerId where
  | thread (t : Tid)
  | other (i : Nat)
  deriving DecidableEq, Repr

/-- `struct rt_timer`, one shot. -/
structure Timer where
  initTick : UInt32
  timeoutTick : UInt32
  activated : Bool

/-- `struct rt_semaphore`. -/
structure Semaphore where
  value : UInt16
  flag : IpcFlag

/-- `struct rt_mutex`. -/
structure Mutex where
  value : UInt16
  originalPriority : Nat
  hold : UInt8
  owner : Option Tid
  flag : IpcFlag

/-- `struct rt_event`. -/
structure Event where
  set : BitVec 32
  flag : IpcFlag

/-- The heads of the lists a thread can be in by its `tlist`. -/
inductive ListHead where
  | priorityTable (p : Nat)
  | semaphore (i : Nat)
  | mutex (i : Nat)
  | event (i : Nat)
  | defunct
  deriving DecidableEq, Repr

structure Kernel where
  thread : Tid → Thread
  timer : TimerId → Timer
  semaphore : Nat → Semaphore
  mutex : Nat → Mutex
  event : Nat → Event
  list : ListHead → List Tid
  /-- `rt_timer_list`. -/
  timerList : List TimerId
  /-- `rt_thread_ready_priority_group`. -/
  readyPriorityGroup : BitVec 32
  /-- `rt_current_thread`. -/
  currentThread : Tid
  /-- `rt_tick`. -/
  tick : UInt32
  /-- Whether a thread, when it runs, has a call of `rt_schedule` before it. -/
  calls : Tid → Bool

/-- How a call ends: with an error code; with `RT_EOK` behind `rt_schedule`; or with
the thread's error code once it has been asleep. -/
inductive Ending where
  | returns (e : Err)
  | schedules
  | sleeps
  deriving DecidableEq, Repr

namespace Kernel

/-- Fields of an object written. -/
def modify (t : Tid) (f : Thread → Thread) (k : Kernel) : Kernel :=
  { k with thread := Function.update k.thread t (f (k.thread t)) }

def setSemaphore (i : Nat) (sem : Semaphore) (k : Kernel) : Kernel :=
  { k with semaphore := Function.update k.semaphore i sem }

def setMutex (i : Nat) (mutex : Mutex) (k : Kernel) : Kernel :=
  { k with mutex := Function.update k.mutex i mutex }

def setEvent (i : Nat) (event : Event) (k : Kernel) : Kernel :=
  { k with event := Function.update k.event i event }

/-! ## The scheduler -/

/-- `__lowest_bit_bitmap`. -/
def lowestBitBitmap : List Nat := [
    0, 0, 1, 0, 2, 0, 1, 0, 3, 0, 1, 0, 2, 0, 1, 0,
    4, 0, 1, 0, 2, 0, 1, 0, 3, 0, 1, 0, 2, 0, 1, 0,
    5, 0, 1, 0, 2, 0, 1, 0, 3, 0, 1, 0, 2, 0, 1, 0,
    4, 0, 1, 0, 2, 0, 1, 0, 3, 0, 1, 0, 2, 0, 1, 0,
    6, 0, 1, 0, 2, 0, 1, 0, 3, 0, 1, 0, 2, 0, 1, 0,
    4, 0, 1, 0, 2, 0, 1, 0, 3, 0, 1, 0, 2, 0, 1, 0,
    5, 0, 1, 0, 2, 0, 1, 0, 3, 0, 1, 0, 2, 0, 1, 0,
    4, 0, 1, 0, 2, 0, 1, 0, 3, 0, 1, 0, 2, 0, 1, 0,
    7, 0, 1, 0, 2, 0, 1, 0, 3, 0, 1, 0, 2, 0, 1, 0,
    4, 0, 1, 0, 2, 0, 1, 0, 3, 0, 1, 0, 2, 0, 1, 0,
    5, 0, 1, 0, 2, 0, 1, 0, 3, 0, 1, 0, 2, 0, 1, 0,
    4, 0, 1, 0, 2, 0, 1, 0, 3, 0, 1, 0, 2, 0, 1, 0,
    6, 0, 1, 0, 2, 0, 1, 0, 3, 0, 1, 0, 2, 0, 1, 0,
    4, 0, 1, 0, 2, 0, 1, 0, 3, 0, 1, 0, 2, 0, 1, 0,
    5, 0, 1, 0, 2, 0, 1, 0, 3, 0, 1, 0, 2, 0, 1, 0,
    4, 0, 1, 0, 2, 0, 1, 0, 3, 0, 1, 0, 2, 0, 1, 0]

/-- `__rt_ffs`. -/
def rtFfs (value : BitVec 32) : Nat :=
  if value = 0 then 0
  else if value &&& 0xff#32 ≠ 0 then lowestBitBitmap.getD (value &&& 0xff#32).toNat 0 + 1
  else if value &&& 0xff00#32 ≠ 0 then lowestBitBitmap.getD ((value &&& 0xff00#32) >>> 8).toNat 0 + 9
  else if value &&& 0xff0000#32 ≠ 0 then
    lowestBitBitmap.getD ((value &&& 0xff0000#32) >>> 16).toNat 0 + 17
  else lowestBitBitmap.getD ((value &&& 0xff000000#32) >>> 24).toNat 0 + 25

/-- `rt_schedule`; the scheduler is not locked. -/
def rtSchedule (k : Kernel) : Kernel :=
  match (k.list (.priorityTable (rtFfs k.readyPriorityGroup - 1))).head? with
  | some toThread => { k with currentThread := toThread }
  | none => k

/-- `rt_schedule_insert_thread`. -/
def rtScheduleInsertThread (t : Tid) (k : Kernel) : Kernel :=
  { k.modify t fun x => { x with stat := .ready } with
    list := Queues.link (fun _ => false) (.priorityTable (k.thread t).currentPriority) t k.list
    readyPriorityGroup := k.readyPriorityGroup ||| (k.thread t).numberMask }

/-- `rt_schedule_remove_thread`. -/
def rtScheduleRemoveThread (t : Tid) (k : Kernel) : Kernel :=
  { k with
    list := Queues.unlink t k.list
    readyPriorityGroup :=
      if Queues.unlink t k.list (.priorityTable (k.thread t).currentPriority) = [] then
        k.readyPriorityGroup &&& ~~~(k.thread t).numberMask
      else k.readyPriorityGroup }

/-! ## Timers -/

/-- `rt_timer_stop`. -/
def rtTimerStop (id : TimerId) (k : Kernel) : Kernel :=
  if (k.timer id).activated then
    { k with
      timerList := k.timerList.erase id
      timer := Function.update k.timer id { k.timer id with activated := false } }
  else k

/-- Where the loop of `rt_timer_start` breaks off: at a timer that is due later. -/
def dueBehind (timeoutTick : UInt32) (k : Kernel) (id : TimerId) : Bool :=
  (k.timer id).timeoutTick - timeoutTick ≠ 0 &&
    (k.timer id).timeoutTick - timeoutTick < rtTickMaxHalf

/-- `rt_timer_start`, behind a `rt_timer_control` that has set `init_tick`. -/
def rtTimerStart (id : TimerId) (time : UInt32) (k : Kernel) : Kernel :=
  let timeoutTick := k.tick + time
  { k with
    timerList := Queues.insertBefore (k.dueBehind timeoutTick) id (k.timerList.erase id)
    timer := Function.update k.timer id ⟨time, timeoutTick, true⟩ }

/-! ## Threads -/

/-- `rt_thread_suspend`. -/
def rtThreadSuspend (t : Tid) (k : Kernel) : Kernel :=
  if (k.thread t).stat ≠ .ready then k
  else
    ((k.modify t fun x => { x with stat := .suspend }).rtScheduleRemoveThread t).rtTimerStop
      (.thread t)

/-- `rt_thread_resume`. -/
def rtThreadResume (t : Tid) (k : Kernel) : Kernel :=
  if (k.thread t).stat ≠ .suspend then k
  else
    ({ k with list := Queues.unlink t k.list }.rtTimerStop (.thread t)).rtScheduleInsertThread t

/-- `rt_thread_control` for `RT_THREAD_CTRL_CHANGE_PRIORITY`. -/
def rtThreadControl (t : Tid) (priority : Nat) (k : Kernel) : Kernel :=
  let change := fun x : Thread =>
    { x with currentPriority := priority, numberMask := 1#32 <<< priority }
  if (k.thread t).stat = .ready then
    ((k.rtScheduleRemoveThread t).modify t change).rtScheduleInsertThread t
  else k.modify t change

/-- `rt_thread_startup`, up to its `rt_schedule`. -/
def rtThreadStartup (t : Tid) (k : Kernel) : Kernel :=
  (k.modify t fun x =>
    { x with
      currentPriority := x.initPriority
      numberMask := 1#32 <<< x.initPriority
      stat := .suspend }).rtThreadResume t

/-- `rt_thread_exit`, up to its `rt_schedule`; the thread waits for the idle thread to
free it. -/
def rtThreadExit (k : Kernel) : Kernel :=
  let t := k.currentThread
  let k := (k.rtScheduleRemoveThread t).modify t fun x => { x with stat := .close }
  { k with
    timerList := k.timerList.erase (.thread t)
    list := Queues.link (fun _ => true) .defunct t k.list }

/-- `rt_thread_yield`, up to its `rt_schedule`; `none` where it has none. -/
def rtThreadYield (k : Kernel) : Option Kernel :=
  let t := k.currentThread
  if (k.thread t).stat = .ready ∧
      2 ≤ (k.list (.priorityTable (k.thread t).currentPriority)).length then
    some { k with
      list := Queues.link (fun _ => false) (.priorityTable (k.thread t).currentPriority) t
        (Queues.unlink t k.list) }
  else none

/-- `rt_thread_sleep`, up to its `rt_schedule`. -/
def rtThreadSleep (time : UInt32) (k : Kernel) : Kernel :=
  (k.rtThreadSuspend k.currentThread).rtTimerStart (.thread k.currentThread) time

/-- `rt_thread_timeout`. -/
def rtThreadTimeout (t : Tid) (k : Kernel) : Kernel :=
  let k := k.modify t fun x => { x with error := .etimeout }
  ({ k with list := Queues.unlink t k.list }.rtScheduleInsertThread t).rtSchedule

/-! ## Waiting for an object -/

/-- Whom a new thread goes before in a list of waiting threads. -/
def waitsBehind (flag : IpcFlag) (t : Tid) (k : Kernel) (u : Tid) : Bool :=
  match flag with
  | .fifo => false
  | .prio => (k.thread t).currentPriority < (k.thread u).currentPriority

/-- `rt_ipc_list_suspend`. -/
def rtIpcListSuspend (h : ListHead) (t : Tid) (flag : IpcFlag) (k : Kernel) : Kernel :=
  let k := k.rtThreadSuspend t
  { k with list := Queues.link (k.waitsBehind flag t) h t k.list }

/-- The thread is suspended on `h`, with a timer on it if it does not wait forever. -/
def waitOn (h : ListHead) (flag : IpcFlag) (time : Int) (k : Kernel) : Kernel :=
  let t := k.currentThread
  let k := k.rtIpcListSuspend h t flag
  if 0 < time then k.rtTimerStart (.thread t) (UInt32.ofNat time.toNat) else k

/-- `rt_ipc_list_resume`. -/
def rtIpcListResume (h : ListHead) (k : Kernel) : Kernel :=
  match (k.list h).head? with
  | some t => k.rtThreadResume t
  | none => k

/-! ## Semaphores -/

/-- `rt_sem_take`. -/
def rtSemTake (i : Nat) (time : Int) (k : Kernel) : Ending × Kernel :=
  let sem := k.semaphore i
  if 0 < sem.value then
    (.returns .eok, k.setSemaphore i { sem with value := sem.value - 1 })
  else if time = 0 then (.returns .etimeout, k)
  else
    (.sleeps, (k.modify k.currentThread fun x => { x with error := .eok }).waitOn
      (.semaphore i) sem.flag time)

/-- `rt_sem_release`. -/
def rtSemRelease (i : Nat) (k : Kernel) : Ending × Kernel :=
  if k.list (.semaphore i) ≠ [] then (.schedules, k.rtIpcListResume (.semaphore i))
  else
    (.returns .eok, k.setSemaphore i { k.semaphore i with value := (k.semaphore i).value + 1 })

/-! ## Mutexes -/

/-- `rt_mutex_take`. -/
def rtMutexTake (i : Nat) (time : Int) (k : Kernel) : Ending × Kernel :=
  let t := k.currentThread
  let k := k.modify t fun x => { x with error := .eok }
  let mutex := k.mutex i
  if mutex.owner = some t then
    (.returns .eok, k.setMutex i { mutex with hold := mutex.hold + 1 })
  else if 0 < mutex.value then
    (.returns .eok, k.setMutex i
      { mutex with
        value := mutex.value - 1
        owner := some t
        originalPriority := (k.thread t).currentPriority
        hold := mutex.hold + 1 })
  else if time = 0 then (.returns .etimeout, k.modify t fun x => { x with error := .etimeout })
  else
    let k := match mutex.owner with
      | some owner =>
        if (k.thread t).currentPriority < (k.thread owner).currentPriority then
          k.rtThreadControl owner (k.thread t).currentPriority
        else k
      | none => k
    (.sleeps, k.waitOn (.mutex i) mutex.flag time)

/-- `rt_mutex_release`. -/
def rtMutexRelease (i : Nat) (k : Kernel) : Ending × Kernel :=
  let t := k.currentThread
  let mutex := k.mutex i
  if mutex.owner ≠ some t then
    (.returns .error, k.modify t fun x => { x with error := .error })
  else if mutex.hold - 1 ≠ 0 then
    (.returns .eok, k.setMutex i { mutex with hold := mutex.hold - 1 })
  else
    let k := if mutex.originalPriority ≠ (k.thread t).currentPriority then
      k.rtThreadControl t mutex.originalPriority else k
    match (k.list (.mutex i)).head? with
    | some thread =>
      let k := k.setMutex i
        { mutex with
          owner := some thread
          originalPriority := (k.thread thread).currentPriority
          hold := mutex.hold - 1 + 1 }
      (.schedules, k.rtIpcListResume (.mutex i))
    | none =>
      (.returns .eok, k.setMutex i
        { mutex with
          value := mutex.value + 1
          owner := none
          originalPriority := 0xff
          hold := mutex.hold - 1 })

/-! ## Events -/

/-- `RT_EVENT_FLAG_AND`, `_OR` and `_CLEAR`. -/
def eventFlagAnd : UInt8 := 0x01
def eventFlagOr : UInt8 := 0x02
def eventFlagClear : UInt8 := 0x04

/-- Whether the bits `set` are what a thread with this option waits for. -/
def received (option : UInt8) (want set : BitVec 32) : Bool :=
  if option &&& eventFlagAnd ≠ 0 then want &&& set == want
  else if option &&& eventFlagOr ≠ 0 then want &&& set != 0
  else false

/-- `rt_event_recv`. -/
def rtEventRecv (i : Nat) (set : BitVec 32) (option : UInt8) (timeout : Int) (k : Kernel) :
    Ending × Kernel :=
  if set = 0 then (.returns .error, k)
  else
    let t := k.currentThread
    let k := k.modify t fun x => { x with error := .eok }
    let event := k.event i
    if received option set event.set then
      (.returns .eok,
        if option &&& eventFlagClear ≠ 0 then
          k.setEvent i { event with set := event.set &&& ~~~set }
        else k)
    else if timeout = 0 then
      (.returns .etimeout, k.modify t fun x => { x with error := .etimeout })
    else
      (.sleeps, (k.modify t fun x => { x with eventSet := set, eventInfo := option }).waitOn
        (.event i) event.flag timeout)

/-- The turn of `rt_event_send`'s loop for one waiting thread, and whether it is woken. -/
def eventTurn (i : Nat) (t : Tid) (k : Kernel) : Bool × Kernel :=
  let x := k.thread t
  let event := k.event i
  if received x.eventInfo x.eventSet event.set then
    -- `event_set` keeps what was received; for `AND` that is all of it
    let got := if x.eventInfo &&& eventFlagAnd ≠ 0 then x.eventSet else x.eventSet &&& event.set
    let k := k.modify t fun x => { x with eventSet := got }
    let k := if x.eventInfo &&& eventFlagClear ≠ 0 then
      k.setEvent i { event with set := event.set &&& ~~~got } else k
    (true, k.rtThreadResume t)
  else (false, k)

/-- The loop of `rt_event_send`, over the threads that wait when it starts. -/
def eventLoop (i : Nat) : List Tid → Kernel → Bool × Kernel
  | [], k => (false, k)
  | t :: ts, k =>
    let (woken, k) := k.eventTurn i t
    let (more, k) := eventLoop i ts k
    (woken || more, k)

/-- `rt_event_send`. -/
def rtEventSend (i : Nat) (set : BitVec 32) (k : Kernel) : Ending × Kernel :=
  if set = 0 then (.returns .error, k)
  else
    let k := k.setEvent i { k.event i with set := (k.event i).set ||| set }
    let (needSchedule, k) := k.eventLoop i (k.list (.event i))
    (if needSchedule then .schedules else .returns .eok, k)

/-! ## The clock -/

/-- A call from an interrupt: its `rt_schedule` comes right behind. -/
def inInterrupt (r : Ending × Kernel) : Kernel :=
  match r.1 with
  | .returns _ => r.2
  | _ => r.2.rtSchedule

/-- What a timer does when it is due: a thread's own ends its wait, and another one,
that of the Modbus master, sends an event. -/
def timeoutFunc (sends : Nat → Nat × BitVec 32) (id : TimerId) (k : Kernel) : Kernel :=
  match id with
  | .thread t => k.rtThreadTimeout t
  | .other i => inInterrupt (k.rtEventSend (sends i).1 (sends i).2)

/-- One timer that is due. -/
def timerFires (sends : Nat → Nat × BitVec 32) (id : TimerId) (k : Kernel) : Kernel :=
  let k := timeoutFunc sends id { k with timerList := k.timerList.erase id }
  { k with timer := Function.update k.timer id { k.timer id with activated := false } }

/-- `rt_timer_check`; every turn of its loop takes a timer off the list, and `fuel`
bounds their number. -/
def rtTimerCheck (sends : Nat → Nat × BitVec 32) : Nat → Kernel → Kernel
  | 0, k => k
  | fuel + 1, k =>
    match k.timerList with
    | [] => k
    | id :: _ =>
      if k.tick - (k.timer id).timeoutTick < rtTickMaxHalf then
        rtTimerCheck sends fuel (timerFires sends id k)
      else k

/-- `rt_tick_increase` up to its `rt_timer_check`: the tick, and the time slice. -/
def ticked (k : Kernel) : Kernel :=
  let t := k.currentThread
  let k := { k with tick := k.tick + 1 }
  let k := k.modify t fun x => { x with remainingTick := x.remainingTick - 1 }
  if (k.thread t).remainingTick = 0 then
    let k := k.modify t fun x => { x with remainingTick := x.initTick }
    match k.rtThreadYield with
    | some k => k.rtSchedule
    | none => k
  else k

/-- `rt_tick_increase`. -/
def rtTickIncrease (sends : Nat → Nat × BitVec 32) (k : Kernel) : Kernel :=
  rtTimerCheck sends k.ticked.timerList.length k.ticked

end Kernel

/-! ## Runs -/

/-- What the running thread may call. -/
inductive Call where
  | semTake (i : Nat) (time : Int)
  | semRelease (i : Nat)
  | mutexTake (i : Nat) (time : Int)
  | mutexRelease (i : Nat)
  | eventRecv (i : Nat) (set : BitVec 32) (option : UInt8) (timeout : Int)
  | eventSend (i : Nat) (set : BitVec 32)
  | timerStart (i : Nat) (time : UInt32)
  | timerStop (i : Nat)
  | startup (t : Tid)
  | yield
  | sleep (time : UInt32)
  | exit

/-- What an interrupt may do. -/
inductive Interrupt where
  | semRelease (i : Nat)
  | eventSend (i : Nat) (set : BitVec 32)
  | timerStart (i : Nat) (time : UInt32)
  | timerStop (i : Nat)
  | tick (sends : Nat → Nat × BitVec 32)

inductive Move where
  | call (c : Call)
  /-- The `rt_schedule` that the running thread has before it. -/
  | schedule
  | interrupt (e : Interrupt)

def Call.perform : Call → Kernel → Ending × Kernel
  | .semTake i time, k => k.rtSemTake i time
  | .semRelease i, k => k.rtSemRelease i
  | .mutexTake i time, k => k.rtMutexTake i time
  | .mutexRelease i, k => k.rtMutexRelease i
  | .eventRecv i set option timeout, k => k.rtEventRecv i set option timeout
  | .eventSend i set, k => k.rtEventSend i set
  | .timerStart i time, k => (.returns .eok, k.rtTimerStart (.other i) time)
  | .timerStop i, k => (.returns .eok, k.rtTimerStop (.other i))
  | .startup t, k => (.schedules, k.rtThreadStartup t)
  | .yield, k => match k.rtThreadYield with
    | some k => (.schedules, k)
    | none => (.returns .eok, k)
  | .sleep time, k => (.sleeps, k.rtThreadSleep time)
  | .exit, k => (.sleeps, k.rtThreadExit)

def Interrupt.perform : Interrupt → Kernel → Kernel
  | .semRelease i, k => Kernel.inInterrupt (k.rtSemRelease i)
  | .eventSend i set, k => Kernel.inInterrupt (k.rtEventSend i set)
  | .timerStart i time, k => k.rtTimerStart (.other i) time
  | .timerStop i, k => k.rtTimerStop (.other i)
  | .tick sends, k => k.rtTickIncrease sends

def Kernel.step : Move → Kernel → Kernel
  | .call c, k =>
    match (c.perform k).1 with
    | .returns _ => (c.perform k).2
    | _ => { (c.perform k).2 with
        calls := Function.update (c.perform k).2.calls k.currentThread true }
  | .schedule, k => { k with calls := Function.update k.calls k.currentThread false }.rtSchedule
  | .interrupt e, k => e.perform k

/-- What the source asserts of the arguments; and the idle thread never sleeps. -/
def Call.Legal (idle : Tid) (k : Kernel) : Call → Prop
  | .semTake _ time => time ≠ 0 → k.currentThread ≠ idle ∧ time < rtTickMaxHalf.toNat
  | .mutexTake _ time => time ≠ 0 → k.currentThread ≠ idle ∧ time < rtTickMaxHalf.toNat
  | .eventRecv _ _ option timeout =>
    option &&& (Kernel.eventFlagAnd ||| Kernel.eventFlagOr) ≠ 0 ∧
      (timeout ≠ 0 → k.currentThread ≠ idle ∧ timeout < rtTickMaxHalf.toNat)
  | .timerStart _ time => time < rtTickMaxHalf
  | .startup t => (k.thread t).stat = .init ∧ (k.thread t).initPriority < rtThreadPriorityMax
  | .sleep time => k.currentThread ≠ idle ∧ time < rtTickMaxHalf
  | .exit => k.currentThread ≠ idle
  | _ => True

def Interrupt.Legal : Interrupt → Prop
  | .timerStart _ time => time < rtTickMaxHalf
  | _ => True

/-- The running thread makes a call, unless `rt_schedule` is what comes next; interrupts
come in at any time. -/
def Move.Allowed (idle : Tid) (k : Kernel) : Move → Prop
  | .call c => k.calls k.currentThread = false ∧ c.Legal idle k
  | .schedule => k.calls k.currentThread = true
  | .interrupt e => e.Legal

/-- The states of the runs from `k₀` whose moves are all `ok`. -/
inductive Reaches (idle : Tid) (ok : Kernel → Move → Prop) (k₀ : Kernel) : Kernel → Prop
  | start : Reaches idle ok k₀ k₀
  | step {k : Kernel} {m : Move} (h : Reaches idle ok k₀ k) (hm : m.Allowed idle k)
      (hok : ok k m) : Reaches idle ok k₀ (k.step m)

/-- What the system is made of: the threads' priorities and time slices, the semaphores,
and the order of the waits. -/
structure Setup where
  priority : Tid → Nat
  slice : Tid → UInt32
  semaphore : Nat → Semaphore
  mutexFlag : Nat → IpcFlag
  eventFlag : Nat → IpcFlag
  /-- The threads that are started before the scheduler is. -/
  started : List Tid

/-- The kernel before its first thread is started, with all objects initialised. -/
def Setup.initial (s : Setup) : Kernel where
  thread t := ⟨.init, s.priority t, s.priority t, 0, .eok, 0, 0, s.slice t, s.slice t⟩
  timer _ := ⟨0, 0, false⟩
  semaphore := s.semaphore
  mutex i := ⟨1, 0xff, 0, none, s.mutexFlag i⟩
  event i := ⟨0, s.eventFlag i⟩
  list _ := []
  timerList := []
  readyPriorityGroup := 0
  currentThread := 0
  tick := 0
  calls _ := false

/-- The kernel once `rt_system_scheduler_start` has chosen the first thread. -/
def Setup.boot (s : Setup) : Kernel :=
  (s.started.foldl (fun k t => k.rtThreadStartup t) s.initial).rtSchedule

end Aclean.RtThread
