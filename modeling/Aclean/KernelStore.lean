import Aclean.Board
import Aclean.History
import Aclean.KernelPriority

/-!
# What the kernel's objects are for

A semaphore is a count, a mutex has an owner and a hold count, an event is a
set of bits; each action on them is one indivisible step that waits until it
may happen. These are the steps the other modules' threads are made of: a
mutex is `Board.take` and `Board.release`.

A run of the kernel is seen from outside (`Traced`): what calls each thread
has made and how they ended, and what the interrupts did. A legal history of the
objects of which these are the parts explains it (`Explains`).
-/

namespace Aclean.RtThread

/-! ## The abstract objects -/

structure Store where
  semaphore : Nat → Nat
  /-- Owner and hold count. -/
  mutex : Nat → Option (Tid × Nat)
  event : Nat → BitVec 32

/-- What is done to an object; `got` is what the receiver of an event is told. -/
inductive Action where
  | semTake (i : Nat)
  | semRelease (i : Nat)
  | mutexTake (i : Nat)
  | mutexRelease (i : Nat)
  | eventRecv (i : Nat) (set : BitVec 32) (option : UInt8) (got : BitVec 32)
  | eventSend (i : Nat) (set : BitVec 32)
  deriving DecidableEq

/-- A thread, or the interrupts. -/
abbrev Agent := Option Tid

namespace Store

/-- When an action may happen: a taker waits, and nobody releases another's mutex. -/
def enabled (a : Agent) : Action → Store → Bool
  | .semTake i, s => 0 < s.semaphore i
  | .mutexTake i, s => a.isSome && (s.mutex i).all fun own => some own.1 == a
  | .mutexRelease i, s => (s.mutex i).any fun own => some own.1 == a
  | .eventRecv i set option got, s =>
    Kernel.received option set (s.event i) && got == set &&& s.event i
  | _, _ => true

def exec (a : Agent) : Action → Store → Store
  | .semTake i, s => { s with semaphore := Function.update s.semaphore i (s.semaphore i - 1) }
  | .semRelease i, s => { s with semaphore := Function.update s.semaphore i (s.semaphore i + 1) }
  | .mutexTake i, s =>
    { s with mutex := Function.update s.mutex i (a.elim (s.mutex i) fun t => Board.take t (s.mutex i)) }
  | .mutexRelease i, s =>
    { s with
      mutex := Function.update s.mutex i (a.elim (s.mutex i) fun t => Board.release t (s.mutex i)) }
  | .eventRecv i set option _, s =>
    if option &&& Kernel.eventFlagClear ≠ 0 then
      { s with event := Function.update s.event i (s.event i &&& ~~~set) }
    else s
  | .eventSend i set, s => { s with event := Function.update s.event i (s.event i ||| set) }

/-- The objects as a specification of histories. -/
@[reducible] def spec : History.Spec Agent Action Store := ⟨enabled, exec⟩

end Store

/-- The objects of a kernel. -/
def Kernel.store (k : Kernel) : Store where
  semaphore i := (k.semaphore i).value.toNat
  mutex i := (k.mutex i).owner.map fun t => (t, (k.mutex i).hold.toNat)
  event i := (k.event i).set

/-! ## A run seen from outside -/

/-- The list a call may wait in. -/
def Call.waitsIn : Call → Option ListHead
  | .semTake i _ => some (.semaphore i)
  | .mutexTake i _ => some (.mutex i)
  | .eventRecv i _ _ _ => some (.event i)
  | _ => none

/-- What a call has done when it ends well; `got` is what it stores through `recved`. -/
def Call.action (got : BitVec 32) : Call → Option Action
  | .semTake i _ => some (.semTake i)
  | .semRelease i => some (.semRelease i)
  | .mutexTake i _ => some (.mutexTake i)
  | .mutexRelease i => some (.mutexRelease i)
  | .eventRecv i set option _ => some (.eventRecv i set option got)
  | .eventSend i set => some (.eventSend i set)
  | _ => none

/-- What a call that does not wait stores through `recved`. -/
def Call.recved (k : Kernel) : Call → BitVec 32
  | .eventRecv i set _ _ => set &&& (k.event i).set
  | _ => 0

/-- The timers that `rt_timer_check` fires. -/
def Kernel.expired (sends : Nat → Nat × BitVec 32) : Nat → Kernel → List TimerId
  | 0, _ => []
  | fuel + 1, k =>
    match k.timerList with
    | [] => []
    | id :: _ =>
      if k.tick - (k.timer id).timeoutTick < rtTickMaxHalf then
        id :: expired sends fuel (timerFires sends id k)
      else []

/-- A send, which with no bits is refused. -/
def sendAction (i : Nat) (set : BitVec 32) : List Action :=
  if set = 0 then [] else [.eventSend i set]

/-- What a timer that fires does to the objects. -/
def timerActions (sends : Nat → Nat × BitVec 32) : TimerId → List Action
  | .thread _ => []
  | .other i => sendAction (sends i).1 (sends i).2

def Interrupt.actions (k : Kernel) : Interrupt → List Action
  | .semRelease i => [.semRelease i]
  | .eventSend i set => sendAction i set
  | .tick sends =>
    (Kernel.expired sends k.ticked.timerList.length k.ticked).flatMap (timerActions sends)
  | .timerStart _ _ => []
  | .timerStop _ => []

/-- What has been seen of a run: the actions of each thread's calls that have ended
well, the call it slept in last, and what interrupts did. -/
structure Trace where
  made : Tid → List Action
  slept : Tid → Option Call
  interrupts : List Action

/-- What a call that the thread has slept in has done, once it is awake and has no error. -/
def Thread.ended (x : Thread) : Option Call → List Action
  | some c => if x.stat ≠ .suspend ∧ x.error = .eok then (c.action x.eventSet).toList else []
  | none => []

namespace Trace

variable (g : Trace) (k : Kernel)

/-- The actions of all calls of a thread that have ended well. -/
def done (t : Tid) : List Action := g.made t ++ (k.thread t).ended (g.slept t)

/-- The next actions of an agent; a thread has ended the call it slept in before, and
sleeps in `sleeps`. -/
def act (a : Agent) (own : List Action) (sleeps : Option Call) : Trace :=
  match a with
  | some t =>
    { g with
      made := Function.update g.made t (g.done k t ++ own)
      slept := Function.update g.slept t sleeps }
  | none => { g with interrupts := g.interrupts ++ own }

end Trace

/-- Nothing has been seen. -/
def Trace.nothing : Trace := ⟨fun _ => [], fun _ => none, []⟩

/-- A move as it is seen. -/
def Move.trace (m : Move) (k : Kernel) (g : Trace) : Trace :=
  match m with
  | .call c =>
    match (c.perform k).1 with
    | .sleeps => g.act k (some k.currentThread) [] (some c)
    | .returns .eok => g.act k (some k.currentThread) (c.action (c.recved k)).toList none
    | .schedules => g.act k (some k.currentThread) (c.action (c.recved k)).toList none
    | .returns _ => g.act k (some k.currentThread) [] none
  | .schedule => g
  | .interrupt e => g.act k none (e.actions k) none

/-- No count of the objects overflows. -/
def Move.Fits (m : Move) (k : Kernel) : Prop :=
  match m with
  | .call (.semRelease i) => (k.semaphore i).value ≠ 0xffff
  | .interrupt (.semRelease i) => (k.semaphore i).value ≠ 0xffff
  | .call (.mutexTake i _) => (k.mutex i).hold ≠ 0xff
  | _ => True

/-- The runs in which no count overflows, with what has been seen of them; they go on
from `k₀`, when `g₀` has been seen. -/
inductive Traced (idle : Tid) (k₀ : Kernel) (g₀ : Trace) : Kernel → Trace → Prop
  | start : Traced idle k₀ g₀ k₀ g₀
  | step {k : Kernel} {m : Move} {g : Trace} (h : Traced idle k₀ g₀ k g) (hm : m.Allowed idle k)
      (hfits : m.Fits k) : Traced idle k₀ g₀ (k.step m) (m.trace k g)

theorem Traced.reaches {idle : Tid} {k k₀ : Kernel} {g g₀ : Trace} (h : Traced idle k₀ g₀ k g) :
    Reaches idle (fun _ _ => True) k₀ k := by
  induction h with
  | start => exact .start
  | step _ hm _ ih => exact ih.step hm trivial

/-- A legal history from `s₀` on, in which each thread's part is its calls that have ended
well and the interrupts' part is what they did. -/
structure Explains (s₀ : Store) (H : List (Agent × Action)) (k : Kernel) (g : Trace) : Prop where
  legal : Store.spec.run H s₀ = some k.store
  threads : ∀ t, History.of (some t) H = g.done k t
  interrupts : History.of none H = g.interrupts

end Aclean.RtThread
