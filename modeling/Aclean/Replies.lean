import Aclean.Asking
import Aclean.RequestWire

/-!
# Reading one's own answer

All requesters look at one receive buffer, after the run resource has been
given back, and each clears its first byte before it asks. A history tells what
came in for each request and which bytes its requester looked at. Requesters
with `modbus_mutex` keep each other out; `set_dc_motor` does not take it, so it
can clear the buffer or have its own answer received while another requester is
still reading. It goes right when `set_dc_motor` asks alone, and when the answer
is long enough to have been received where it is looked at.
-/

namespace Aclean

/-! ## What a history tells -/

/-- A byte looked at, and what had come in for the request. -/
structure Inspected where
  reply : List UInt8
  i : Nat
  v : UInt8
  deriving DecidableEq, Repr

/-- The byte is that of the answer. -/
def Inspected.Own (x : Inspected) : Prop := x.reply[x.i]? = some x.v

instance : DecidablePred Inspected.Own := fun x =>
  inferInstanceAs (Decidable (x.reply[x.i]? = some x.v))

structure Heard where
  /-- Who took the run resource last. -/
  asker : Option Nat
  /-- What has come in for each thread's last request. -/
  reply : Nat → List UInt8
  /-- It ended with `MB_MRE_REV_DATA`. -/
  revData : Nat → Bool
  /-- What requesters looked at after that, the last byte first. -/
  inspected : List Inspected

namespace Heard

def start : Heard := ⟨none, fun _ => [], fun _ => false, []⟩

def request (h : Heard) (t : Nat) : Heard :=
  { h with
    asker := some t
    reply := Function.update h.reply t []
    revData := Function.update h.revData t false }

def finish (h : Heard) (t : Nat) (errorCode : eMBMasterReqErrCode) : Heard :=
  { h with revData := Function.update h.revData t (errorCode == .revData) }

def look (h : Heard) (t i : Nat) (v : UInt8) : Heard :=
  if h.revData t then { h with inspected := ⟨h.reply t, i, v⟩ :: h.inspected } else h

def rxByte (h : Heard) (ucByte : UInt8) : Heard :=
  match h.asker with
  | some t => { h with reply := Function.update h.reply t (h.reply t ++ [ucByte]) }
  | none => h

def observe (h : Heard) (t : Nat) : (o : BusOp) → BusAr o → Heard
  | .runResTake, _ => h.request t
  | .eventRecv set, es => if set = finishEvents then h.finish t (finishCode es) else h
  | .board (.load (.ucMasterRTURcvBuf i)), v => h.look t i v
  | _, _ => h

theorem observe_told (h : Heard) (t : Nat) (es : List MasterEvent) :
    h.observe t (.eventRecv finishEvents) es = h.finish t (finishCode es) := by
  simp only [observe, if_true]

/-- Looking changes nothing that is on hand. -/
theorem look_same (h : Heard) (t i : Nat) (v : UInt8) :
    (h.look t i v).asker = h.asker ∧ (h.look t i v).reply = h.reply ∧
      (h.look t i v).revData = h.revData := by
  unfold look
  split <;> exact ⟨rfl, rfl, rfl⟩

end Heard

def heard (tr : List (Label BusOp BusAr BusEv)) : Heard :=
  tr.foldl (fun h l =>
    match l with
    | .op t o x => h.observe t o x
    | .env (.rxByte b) => h.rxByte b
    | .env .timerExpired => h) .start

theorem heard_snoc_op (tr : List (Label BusOp BusAr BusEv)) (t : Nat) (o : BusOp) (x : BusAr o) :
    heard (tr ++ [.op t o x]) = (heard tr).observe t o x := by
  rw [heard, List.foldl_append]
  rfl

theorem heard_snoc_rxByte (tr : List (Label BusOp BusAr BusEv)) (b : UInt8) :
    heard (tr ++ [.env (.rxByte b)]) = (heard tr).rxByte b := by
  rw [heard, List.foldl_append]
  rfl

theorem heard_snoc_timer (tr : List (Label BusOp BusAr BusEv)) :
    heard (tr ++ [.env .timerExpired]) = heard tr := by
  rw [heard, List.foldl_append]
  rfl

/-! ## Where it goes right -/

theorem askStart_quiet (t : Nat) : ¬ (askStart t).Busy ∧ ¬ (askStart t).Locked := by
  unfold askStart
  split <;> exact ⟨id, id⟩

/-- Nobody else is busy with the receive buffer, unless both have `modbus_mutex`. -/
def Alone (ls : Nat → Ask) (t : Nat) : Prop :=
  ∀ u, u ≠ t → (ls u).Busy → (ls t).Locked ∧ (ls u).Locked

/-- A requester clears the buffer, and the sensor loop asks, while it may; a byte
looked at is within the answer; the line is silent unless the master listens. -/
def ReplyCond : StepCond BusOp BusAr Bus BusEv := fun tr s l =>
  match l with
  | .op t (.board (.store (.ucMasterRTURcvBuf _) _)) _ => Alone (askBus.locals askStart tr) t
  | .op t .runResTake _ =>
      askBus.locals askStart tr t = .holding → Alone (askBus.locals askStart tr) t
  | .op t (.board (.load (.ucMasterRTURcvBuf i))) _ =>
      (heard tr).revData t = true → i < ((heard tr).reply t).length
  | .env (.rxByte _) => s.master.timer = true
  | _ => True

/-- Who has not acted is not busy. -/
theorem alone_iff {tr : List (Label BusOp BusAr BusEv)} {t : Nat} :
    (∀ u ∈ Discipline.actors tr, u ≠ t → (askBus.locals askStart tr u).Busy →
      (askBus.locals askStart tr t).Locked ∧ (askBus.locals askStart tr u).Locked) ↔
    Alone (askBus.locals askStart tr) t := by
  constructor
  · intro h u hu hbusy
    refine h u ?_ hu hbusy
    by_contra hnot
    rw [Discipline.locals_of_not_mem _ hnot] at hbusy
    exact (askStart_quiet u).1 hbusy
  · exact fun h u _ => h u

instance (tr : List (Label BusOp BusAr BusEv)) (t : Nat) :
    Decidable (Alone (askBus.locals askStart tr) t) :=
  decidable_of_iff _ alone_iff

def replyCheck (tr : List (Label BusOp BusAr BusEv)) (s : Bus) (l : Label BusOp BusAr BusEv) : Bool :=
  match l with
  | .op t (.board (.store (.ucMasterRTURcvBuf _) _)) _ => decide (Alone (askBus.locals askStart tr) t)
  | .op t .runResTake _ =>
      askBus.locals askStart tr t != .holding || decide (Alone (askBus.locals askStart tr) t)
  | .op t (.board (.load (.ucMasterRTURcvBuf i))) _ =>
      !(heard tr).revData t || decide (i < ((heard tr).reply t).length)
  | .env (.rxByte _) => s.master.timer
  | _ => true

theorem replyCond_of_check {tr : List (Label BusOp BusAr BusEv)} {s : Bus}
    {l : Label BusOp BusAr BusEv} (h : replyCheck tr s l = true) : ReplyCond tr s l := by
  unfold ReplyCond
  split
  · exact of_decide_eq_true h
  · intro hl
    simpa [replyCheck, hl] using h
  · intro hrev
    simpa [replyCheck, hrev] using h
  · exact h
  · trivial

/-! ## Turns before the answer -/

/-- The places before the frame is on the line. -/
def Stage.Before : Stage → Prop
  | callerIdle | pollIdle | transIdle | polling | releasing => False
  | _ => True

def Turn.Before : Turn → Prop
  | thread _ l => l.Before
  | event e => e = .frameSent
  | trans => True
  | free | timer => False

/-- The requester has been told, or is none. -/
def Turn.Over : Turn → Prop
  | free => True
  | thread _ .releasing => True
  | _ => False

theorem Move.before {u u' : Turn} {t : Nat} {o : BusOp} {x : BusAr o} (h : Move u t o x u')
    (htake : o ≠ .runResTake) (hpost : ∀ e ∈ finishEvents, o ≠ .eventPost e) :
    (u'.Over ↔ u.Over) ∧ (u'.Before → u.Before) ∧ (u' = .timer → u = .timer ∨ u.Before) := by
  cases h with
  | idle ht hok hne => exact ⟨Iff.rfl, id, .inl⟩
  | take => exact absurd rfl htake
  | step ht hok hl hnext =>
      cases hok with
      | complete he => exact absurd rfl (hpost _ he)
      | pass he => rcases he with rfl | rfl <;> exact absurd rfl hnext
      | handle ho =>
          have hstay : Stage.polling.next o x = .polling := by
            cases o with
            | eventPost e => exact absurd ho id
            | _ => rfl
          rw [hstay]
          exact ⟨Iff.rfl, id, nofun⟩
      | @readFlag d n =>
          show (Turn.Over (.thread t (if x ≠ 0 then .sendingRaw else .sendingRTU d n)) ↔ _) ∧ _
          split
          · exact ⟨Iff.rfl, fun _ => trivial, nofun⟩
          · exact ⟨Iff.rfl, fun _ => trivial, nofun⟩
      | count =>
          show (Turn.Over (.thread t (if x ≠ 0 then .putting else .ending)) ↔ _) ∧ _
          split
          · exact ⟨Iff.rfl, fun _ => trivial, nofun⟩
          · exact ⟨Iff.rfl, fun _ => trivial, nofun⟩
      | _ =>
        first
        | exact absurd rfl hl
        | exact absurd rfl hnext
        | exact ⟨Iff.rfl, fun _ => trivial, nofun⟩
  | post => exact ⟨Iff.rfl, fun _ => trivial, nofun⟩
  | @poll e =>
      cases e with
      | frameSent => exact ⟨Iff.rfl, fun _ => rfl, nofun⟩
      | _ => exact ⟨Iff.rfl, nofun, nofun⟩
  | sendRTU => exact ⟨Iff.rfl, fun _ => trivial, nofun⟩
  | sendRaw => exact ⟨Iff.rfl, fun _ => trivial, nofun⟩
  | pass he => rcases he with rfl | rfl <;> exact ⟨Iff.rfl, nofun, nofun⟩
  | release => exact ⟨Iff.rfl, nofun, nofun⟩
  | enter => exact ⟨Iff.rfl, fun _ => trivial, nofun⟩
  | decrement => exact ⟨Iff.rfl, fun _ => trivial, nofun⟩
  | time hok => exact ⟨Iff.rfl, nofun, fun _ => .inr trivial⟩

/-! ## Who reads what -/

/-- What the receiver knows of the answer so far. -/
def Incoming (reply : List UInt8) (m : Master) : Prop :=
  match m.eRcvState with
  | .init => False
  | .idle => reply = []
  | .rcv => reply.length = m.usMasterRcvBufferPos ∧ reply.length ≤ serPDUSizeMax
  | .error => serPDUSizeMax ≤ reply.length

/-- The answer lies in the buffer, as far as the buffer goes. -/
def Lies (reply : List UInt8) (s : Bus) : Prop :=
  ∀ i v, i < serPDUSizeMax → reply[i]? = some v → s.mem (.ucMasterRTURcvBuf i) = v

/-- No completion is up. -/
def Master.Untold (m : Master) : Prop := ∀ e ∈ finishEvents, m.event e = false

/-- The last requester waits for its answer. -/
def Awaited (ls : Nat → Ask) (h : Heard) : Prop := ∃ t bus, h.asker = some t ∧ ls t = .waiting bus

/-- What a place with the receive buffer means. -/
structure Place (l : Ask) (t : Nat) (h : Heard) (s : Bus) : Prop where
  locked : l.Locked → ∃ n, s.board.mutex .modbus = some (t, n)
  asker : l.Hears → h.asker = some t
  lies : l.Hears → Lies (h.reply t) s
  requester : h.revData t = true → l ≠ .serving

/-- Requesters and the receive buffer. -/
structure Sharing (ls : Nat → Ask) (h : Heard) (s : Bus) : Prop where
  place : ∀ t, Place (ls t) t h s
  sole : ∀ t u, (ls t).Busy → (ls u).Busy → t = u
  own : ∀ x ∈ h.inspected, x.Own

/-- The request on hand and its answer. -/
structure Answering (u : Turn) (ls : Nat → Ask) (h : Heard) (m : Master) : Prop where
  active : ¬ u.Over → Awaited ls h ∧ m.Untold
  told : ¬ m.Untold → Awaited ls h
  silent : u.Before → ∀ t, h.asker = some t → h.reply t = []
  received : u = .timer → ∀ t, h.asker = some t → Incoming (h.reply t) m

theorem Ask.Hears.busy {l : Ask} (h : l.Hears) : l.Busy := by
  cases l <;> first | exact h | trivial

/-! ## Steps that have nothing to do with it -/

/-- Neither `modbus_mutex` nor the receive buffer, nor beginning or end of a
request. -/
def BusOp.Aside : BusOp → Prop
  | .board o => o.Aside
  | .runResTake => False
  | .eventRecv set => set ≠ finishEvents
  | .eventPost e => e ∉ finishEvents
  | _ => True

namespace BusOp.Aside

variable {o : BusOp} (h : o.Aside)
include h

theorem next (l : Ask) (x : BusAr o) : l.next o x = l := by
  cases o with
  | board o => exact (Op.Aside.keeps h l).2 x
  | runResTake => exact absurd h id
  | eventRecv set =>
      cases l with
      | waiting bus => exact if_neg h
      | _ => rfl
  | _ => rfl

theorem observe (heard : Heard) (t : Nat) (x : BusAr o) : heard.observe t o x = heard := by
  cases o with
  | board o =>
      cases o with
      | load a =>
          cases a with
          | ucMasterRTURcvBuf i => exact absurd h id
          | _ => rfl
      | _ => rfl
  | runResTake => exact absurd h id
  | eventRecv set => exact if_neg h
  | _ => rfl

theorem mutex (t : Nat) (s : Bus) :
    (Bus.exec t o s).2.board.mutex .modbus = s.board.mutex .modbus := by
  cases o with
  | board o =>
      cases o with
      | mutexTake m => exact Function.update_of_ne (Ne.symm h) _ _
      | mutexRelease m => exact Function.update_of_ne (Ne.symm h) _ _
      | _ => rfl
  | sendNotDatas n => rw [Bus.exec]; split <;> rfl
  | rtuSend a n => rw [Bus.exec]; split <;> rfl
  | _ => rfl

theorem rcvBuf (t i : Nat) (s : Bus) :
    (Bus.exec t o s).2.mem (.ucMasterRTURcvBuf i) = s.mem (.ucMasterRTURcvBuf i) := by
  cases o with
  | board o =>
      cases o with
      | store a v =>
          refine Bus.mem_store ?_ t v s
          rintro rfl
          exact h
      | exchange len => exact absurd h id
      | _ => rfl
  | sendNotDatas n => rw [Bus.exec]; split <;> rfl
  | rtuSend a n => rw [Bus.exec]; split <;> rfl
  | _ => rfl

/-- The receiver and the completions stay as they are. -/
theorem receiver {l : Stage} (hok : l.Allows o) (t : Nat) (s : Bus) :
    let m := (Bus.exec t o s).2.master
    (m.Untold ↔ s.master.Untold) ∧ m.eRcvState = s.master.eRcvState ∧
      m.usMasterRcvBufferPos = s.master.usMasterRcvBufferPos := by
  cases o with
  | eventPost e =>
      refine ⟨?_, rfl, rfl⟩
      have hother : ∀ e' ∈ finishEvents, (s.master.eventPost e).event e' = s.master.event e' :=
        fun e' he' => Function.update_of_ne (show e' ≠ e from fun heq => h (heq ▸ he')) _ _
      exact forall₂_congr fun e' he' => by rw [hother e' he']
  | eventRecv set =>
      refine ⟨?_, rfl, rfl⟩
      obtain rfl : set = pollEvents := by
        cases hok with
        | finish => exact absurd rfl h
        | poll => rfl
        | handle ho => exact absurd ho id
      have hother : ∀ e' ∈ finishEvents,
          (s.master.eventsTake pollEvents).event e' = s.master.event e' := by
        intro e' he'
        have hnot : pollEvents.contains e' = false := by
          revert he'
          cases e' <;> decide
        simp only [Master.eventsTake, hnot, Bool.not_false, Bool.and_true]
      exact forall₂_congr fun e' he' => by rw [hother e' he']
  | sendNotDatas n => rw [Bus.exec]; split <;> exact ⟨Iff.rfl, rfl, rfl⟩
  | rtuSend a n => rw [Bus.exec]; split <;> exact ⟨Iff.rfl, rfl, rfl⟩
  | _ => exact ⟨Iff.rfl, rfl, rfl⟩

end BusOp.Aside

/-! ## Steps -/

theorem update_keeps {ls : Nat → Ask} {t : Nat} {l : Ask} (h : l = ls t) :
    Function.update ls t l = ls := by
  rw [h]
  exact Function.update_eq_self ..

section Step

variable {u u' : Turn} {ls : Nat → Ask} {h : Heard} {s : Bus} {t : Nat} {o : BusOp}

/-- A step that leaves the request on hand and its requester alone. -/
theorem Answering.keep {ls' : Nat → Ask} {h' : Heard} {m m' : Master} (hA : Answering u ls h m)
    (hmove : (u'.Over ↔ u.Over) ∧ (u'.Before → u.Before) ∧ (u' = .timer → u = .timer ∨ u.Before))
    (hasker : h'.asker = h.asker) (hreply : h'.reply = h.reply)
    (hwait : ∀ t bus, ls t = .waiting bus → ls' t = .waiting bus)
    (hreceiver : (m'.Untold ↔ m.Untold) ∧ m'.eRcvState = m.eRcvState ∧
      m'.usMasterRcvBufferPos = m.usMasterRcvBufferPos)
    (hlistening : u ≠ .timer → m.eRcvState = .idle) : Answering u' ls' h' m' := by
  obtain ⟨hover, hbefore, htimer⟩ := hmove
  obtain ⟨huntold, hstate, hpos⟩ := hreceiver
  have hawaited : Awaited ls h → Awaited ls' h' := by
    rintro ⟨t, bus, ht, hw⟩
    exact ⟨t, bus, hasker.trans ht, hwait t bus hw⟩
  refine ⟨fun hne => ?_, fun hne => hawaited (hA.told (huntold.not.mp hne)), fun hb t ht => ?_, ?_⟩
  · obtain ⟨haw, hun⟩ := hA.active (hover.not.mp hne)
    exact ⟨hawaited haw, huntold.mpr hun⟩
  · rw [hreply]
    exact hA.silent (hbefore hb) t (hasker.symm.trans ht)
  · intro hu t ht
    have ht' := hasker.symm.trans ht
    rw [hreply, Incoming, hstate, hpos]
    rcases htimer hu with hold | hb
    · exact hA.received hold t ht'
    · have hidle : m.eRcvState = .idle := hlistening fun heq => by rw [heq] at hb; exact hb
      rw [hidle]
      exact hA.silent hb t ht'

/-- One thread moves on. -/
theorem Sharing.move {h' : Heard} {s' : Bus} {l : Ask} (hR : Sharing ls h s)
    (hplace : Place l t h' s') (hothers : ∀ u, u ≠ t → Place (ls u) u h' s')
    (hsole : l.Busy → ∀ u, u ≠ t → ¬ (ls u).Busy) (hown : ∀ x ∈ h'.inspected, x.Own) :
    Sharing (Function.update ls t l) h' s' where
  place := fun u => by
    by_cases hu : u = t
    · subst hu
      rwa [Function.update_self]
    · rw [Function.update_of_ne hu]
      exact hothers u hu
  sole := fun u v hu hv => by
    by_cases hut : u = t
    · by_cases hvt : v = t
      · exact hut.trans hvt.symm
      · rw [hut, Function.update_self] at hu
        rw [Function.update_of_ne hvt] at hv
        exact absurd hv (hsole hu v hvt)
    · rw [Function.update_of_ne hut] at hu
      by_cases hvt : v = t
      · rw [hvt, Function.update_self] at hv
        exact absurd hu (hsole hv u hut)
      · rw [Function.update_of_ne hvt] at hv
        exact hR.sole u v hu hv
  own := hown

theorem Sharing.locked_unique (hR : Sharing ls h s) {u : Nat} (ht : (ls t).Locked)
    (hu : (ls u).Locked) : u = t := by
  obtain ⟨n, hn⟩ := (hR.place t).locked ht
  obtain ⟨m, hm⟩ := (hR.place u).locked hu
  rw [hn] at hm
  exact (Prod.mk.inj (Option.some.inj hm)).1.symm

/-- The mutex keeps requesters that have it out of each other's way. -/
theorem Sharing.alone (hR : Sharing ls h s) (ha : Alone ls t) (u : Nat) (hu : u ≠ t) :
    ¬ (ls u).Busy := by
  intro hbusy
  obtain ⟨ht, hlocked⟩ := ha u hu hbusy
  exact hu (hR.locked_unique ht hlocked)

theorem Place.away : Place .away t h s where
  locked := fun hl => absurd hl id
  asker := fun hl => absurd hl id
  lies := fun hl => absurd hl id
  requester := fun _ => nofun

theorem Place.keep {l : Ask} {s' : Bus} (hP : Place l t h s)
    (hmutex : s'.board.mutex .modbus = s.board.mutex .modbus)
    (hmem : ∀ i, s'.mem (.ucMasterRTURcvBuf i) = s.mem (.ucMasterRTURcvBuf i)) :
    Place l t h s' where
  locked := fun hl => by
    rw [hmutex]
    exact hP.locked hl
  asker := hP.asker
  lies := fun hl i v hi hv => (hmem i).trans (hP.lies hl i v hi hv)
  requester := hP.requester

/-- The buffer and who looks at it. -/
theorem Sharing.keep (hR : Sharing ls h s) (ho : o.Aside) : Sharing ls h (Bus.exec t o s).2 where
  place := fun u => (hR.place u).keep (ho.mutex t s) fun i => ho.rcvBuf t i s
  sole := hR.sole
  own := hR.own

theorem Sharing.takeBus (hR : Sharing ls h s)
    (hen : Bus.enabled t (.board (.mutexTake .modbus)) s = true) :
    Sharing (Function.update ls t .holding) h (Bus.exec t (.board (.mutexTake .modbus)) s).2 := by
  have hothers : ∀ u, u ≠ t → ¬ (ls u).Locked := by
    intro u hu hlocked
    obtain ⟨n, hown⟩ := (hR.place u).locked hlocked
    exact hu (Bus.owner_takes hen hown)
  refine hR.move ⟨fun _ => ?_, fun hh => absurd hh id, fun hh => absurd hh id, fun _ => nofun⟩
    (fun u hu => ?_) (fun hb => absurd hb id) hR.own
  · show ∃ n, Function.update s.board.mutex .modbus (Board.take t (s.board.mutex .modbus)) .modbus
      = some (t, n)
    rw [Function.update_self]
    rcases hm : s.board.mutex .modbus with _ | ⟨v, n⟩
    · exact ⟨1, rfl⟩
    · exact ⟨n + 1, if_pos (Bus.owner_takes hen hm)⟩
  · exact ⟨fun hl => absurd hl (hothers u hu), (hR.place u).asker, (hR.place u).lies,
      (hR.place u).requester⟩

theorem Sharing.giveBus (hR : Sharing ls h s) (hl : ls t = .holding ∨ ls t = .reading) :
    Sharing (Function.update ls t .away) h (Bus.exec t (.board (.mutexRelease .modbus)) s).2 := by
  have hlocked : (ls t).Locked := by
    rcases hl with hl | hl <;> rw [hl] <;> trivial
  refine hR.move .away (fun u hu => ?_) (fun hb => absurd hb id) hR.own
  exact ⟨fun h => absurd (hR.locked_unique hlocked h) hu, (hR.place u).asker, (hR.place u).lies,
    (hR.place u).requester⟩

theorem Sharing.clear {i : Nat} {v : UInt8} (hR : Sharing ls h s)
    (hl : ls t = .away ∨ ls t = .holding) (ha : Alone ls t) :
    Sharing (Function.update ls t (.cleared (ls t == .holding))) h
      (Bus.exec t (.board (.store (.ucMasterRTURcvBuf i) v)) s).2 := by
  refine hR.move ⟨fun hlocked => ?_, fun hh => absurd hh id, fun hh => absurd hh id, fun _ => nofun⟩
    (fun u hu => ?_) (fun _ => hR.alone ha) hR.own
  · rcases hl with hl | hl
    · rw [hl] at hlocked
      exact absurd hlocked id
    · exact (hR.place t).locked (by rw [hl]; trivial)
  · have hquiet : ¬ (ls u).Hears := fun hh => hR.alone ha u hu hh.busy
    exact ⟨(hR.place u).locked, fun hh => absurd hh hquiet, fun hh => absurd hh hquiet,
      (hR.place u).requester⟩

/-- Looking at a byte one stays, leaves, or goes on with the motor's answer. -/
theorem Ask.next_look (l : Ask) (i : Nat) (v : UInt8) :
    l.nextOp (.load (.ucMasterRTURcvBuf i)) v = l ∨
      l.nextOp (.load (.ucMasterRTURcvBuf i)) v = .away ∨
      ∃ j j', l = .readingMotor j ∧
        l.nextOp (.load (.ucMasterRTURcvBuf i)) v = .readingMotor j' := by
  cases l with
  | readingMotor j =>
      show Ask.motorNext i v = _ ∨ Ask.motorNext i v = _ ∨ ∃ _ _, _ ∧ Ask.motorNext i v = _
      unfold Ask.motorNext
      split
      · exact .inr (.inr ⟨j, 1, rfl, rfl⟩)
      · split
        · exact .inr (.inr ⟨j, 3, rfl, rfl⟩)
        · exact .inr (.inl rfl)
  | _ => exact .inl rfl

/-- What a requester looks at is its own answer. -/
theorem Sharing.look {i : Nat} (hR : Sharing ls h s)
    (hok : (ls t).okOp (.load (.ucMasterRTURcvBuf i)))
    (hwithin : h.revData t = true → i < (h.reply t).length) :
    Sharing
      (Function.update ls t
        ((ls t).nextOp (.load (.ucMasterRTURcvBuf i)) (s.mem (.ucMasterRTURcvBuf i))))
      (h.look t i (s.mem (.ucMasterRTURcvBuf i))) s := by
  obtain ⟨hasker, hreply, hrev⟩ := h.look_same t i (s.mem (.ucMasterRTURcvBuf i))
  have hplace : ∀ {l u}, Place l u h s →
      Place l u (h.look t i (s.mem (.ucMasterRTURcvBuf i))) s := by
    intro l u hP
    exact ⟨hP.locked, by rw [hasker]; exact hP.asker, by rw [hreply]; exact hP.lies,
      by rw [hrev]; exact hP.requester⟩
  have hown : ∀ x ∈ (h.look t i (s.mem (.ucMasterRTURcvBuf i))).inspected, x.Own := by
    unfold Heard.look
    split
    · rename_i hrevData
      intro x hx
      rcases List.mem_cons.mp hx with rfl | hx
      · -- not the poll thread, so the answer is this thread's
        obtain ⟨hreads, hi⟩ := hok.resolve_left ((hR.place t).requester hrevData)
        have hhears : (ls t).Hears := by
          rcases hreads with hl | hl <;> rw [hl] <;> trivial
        have hbyte := List.getElem?_eq_getElem (hwithin hrevData)
        rw [Inspected.Own, hbyte, (hR.place t).lies hhears i _ hi hbyte]
      · exact hR.own x hx
    · exact hR.own
  have hfrom := hR.place t
  refine hR.move (hplace ?_) (fun u _ => hplace (hR.place u)) ?_ hown
  · rcases (ls t).next_look i (s.mem (.ucMasterRTURcvBuf i)) with hl | hl | ⟨j, j', hj, hl⟩
    · rwa [hl]
    · rw [hl]
      exact .away
    · rw [hj] at hfrom
      rw [hl]
      exact ⟨fun hh => absurd hh id, fun _ => hfrom.asker trivial, fun _ => hfrom.lies trivial,
        fun _ => nofun⟩
  · intro hbusy u hu hu'
    have hwas : (ls t).Busy := by
      rcases (ls t).next_look i (s.mem (.ucMasterRTURcvBuf i)) with hl | hl | ⟨j, j', hj, hl⟩
      · rwa [hl] at hbusy
      · rw [hl] at hbusy
        exact absurd hbusy id
      · rw [hj]
        trivial
    exact hu (hR.sole u t hu' hwas)

/-- A request begins: nobody else's answer is on hand. -/
theorem Sharing.asks_alone (hR : Sharing ls h s) (hl : ls t = .holding ∨ ∃ bus, ls t = .cleared bus)
    (ha : ls t = .holding → Alone ls t) (u : Nat) (hu : u ≠ t) : ¬ (ls u).Busy := by
  rcases hl with hl | ⟨bus, hl⟩
  · exact hR.alone (ha hl) u hu
  · exact fun hb => hu (hR.sole u t hb (by rw [hl]; trivial))

theorem Sharing.request (hR : Sharing ls h s) (hl : ls t = .holding ∨ ∃ bus, ls t = .cleared bus)
    (ha : ls t = .holding → Alone ls t) :
    Sharing (Function.update ls t ((ls t).next .runResTake ())) (h.request t)
      (Bus.exec t .runResTake s).2 := by
  have hnone := hR.asks_alone hl ha
  obtain ⟨bus, hwaiting, hlock⟩ : ∃ bus, (ls t).next .runResTake () = .waiting bus ∧
      ((Ask.waiting bus).Locked → (ls t).Locked) := by
    rcases hl with hl | ⟨bus, hl⟩
    · rw [hl]
      exact ⟨true, rfl, fun _ => trivial⟩
    · rw [hl]
      refine ⟨bus, rfl, fun hlocked => ?_⟩
      cases bus <;> exact hlocked
  rw [hwaiting]
  refine hR.move ⟨fun hlocked => ?_, fun _ => rfl, fun _ i v _ hv => ?_, fun _ => nofun⟩
    (fun u hu => ?_) (fun _ => hnone) hR.own
  · exact (hR.place t).locked (hlock hlocked)
  · have hempty : (h.request t).reply t = [] := Function.update_self ..
    rw [hempty] at hv
    cases hv
  · have hquiet : ¬ (ls u).Hears := fun hh => hnone u hu hh.busy
    refine ⟨(hR.place u).locked, fun hh => absurd hh hquiet, fun hh => absurd hh hquiet,
      fun hrev => ?_⟩
    refine (hR.place u).requester ?_
    have hrev' : (h.request t).revData u = h.revData u := Function.update_of_ne hu ..
    rwa [hrev'] at hrev

/-- It ends, and its requester may look at the answer. -/
theorem Sharing.told {bus : Bool} (hR : Sharing ls h s) (hl : ls t = .waiting bus)
    (errorCode : eMBMasterReqErrCode) :
    Sharing (Function.update ls t (Ask.told bus errorCode)) (h.finish t errorCode)
      (Bus.exec t (.eventRecv finishEvents) s).2 := by
  have hfrom := hR.place t
  rw [hl] at hfrom
  have hplace : Place (Ask.told bus errorCode) t (h.finish t errorCode) s := by
    unfold Ask.told
    split
    · rename_i hbus
      refine ⟨fun _ => hfrom.locked (by rw [hbus]; trivial), fun _ => hfrom.asker trivial,
        fun _ => hfrom.lies trivial, fun _ => nofun⟩
    · split
      · exact ⟨fun hh => absurd hh id, fun _ => hfrom.asker trivial, fun _ => hfrom.lies trivial,
          fun _ => nofun⟩
      · exact .away
  refine hR.move (hplace.keep rfl fun _ => rfl) (fun u hu => ?_) (fun _ u hu hb => ?_) hR.own
  · refine ⟨(hR.place u).locked, (hR.place u).asker, (hR.place u).lies, fun hrev => ?_⟩
    refine (hR.place u).requester ?_
    have hrev' : (h.finish t errorCode).revData u = h.revData u := Function.update_of_ne hu ..
    rwa [hrev'] at hrev
  · exact hu (hR.sole u t hb (by rw [hl]; trivial))

/-! ### The turn at the beginning and the end of a request -/

theorem Move.of_take {x : Unit} (hm : Move u t .runResTake x u') :
    u = .free ∧ u' = .thread t .taken := by
  cases hm with
  | idle ht hok hne => exact absurd rfl hne
  | take => exact ⟨rfl, rfl⟩
  | step ht hok hl hnext =>
      cases hok with
      | take => exact absurd rfl hl
      | handle ho => exact absurd ho id
  | time hok => cases hok

theorem Move.of_complete {e : MasterEvent} {x : Unit} (hm : Move u t (.eventPost e) x u')
    (he : e ∈ finishEvents) : u = .thread t .polling ∧ u' = .thread t .releasing := by
  cases hm with
  | idle ht hok hne => cases hok
  | step ht hok hl hnext =>
      cases hok with
      | post => exact absurd he (by decide)
      | handle ho => exact absurd ho id
      | pass hpass => rcases hpass with rfl | rfl <;> exact absurd he (by decide)
      | complete he' =>
          refine ⟨rfl, ?_⟩
          show Turn.thread t (if e ∈ finishEvents then Stage.releasing else .pollIdle) = _
          rw [if_pos he]
  | post => exact absurd he (by decide)
  | pass hpass => rcases hpass with rfl | rfl <;> exact absurd he (by decide)
  | time hok => cases hok

theorem Turn.Before.not_over (hb : u.Before) : ¬ u.Over := by
  intro ho
  cases u with
  | free => exact hb
  | thread t l =>
      cases l with
      | releasing => exact hb
      | _ => exact ho
  | _ => exact ho

theorem Answering.request (hR : Sharing ls h s) (hA : Answering u ls h s.master)
    (hl : ls t = .holding ∨ ∃ bus, ls t = .cleared bus) (ha : ls t = .holding → Alone ls t) :
    Answering (.thread t .taken) (Function.update ls t ((ls t).next .runResTake ())) (h.request t)
      (Bus.exec t .runResTake s).2.master := by
  have hawaited : Awaited (Function.update ls t ((ls t).next .runResTake ())) (h.request t) := by
    rcases hl with hl | ⟨bus, hl⟩
    · exact ⟨t, true, rfl, by rw [Function.update_self, hl]; rfl⟩
    · exact ⟨t, bus, rfl, by rw [Function.update_self, hl]; rfl⟩
  have huntold : s.master.Untold := by
    by_contra hne
    obtain ⟨a, bus, -, hwaiting⟩ := hA.told hne
    by_cases hat : a = t
    · rw [hat] at hwaiting
      rcases hl with hl | ⟨bus', hl⟩ <;> rw [hl] at hwaiting <;> cases hwaiting
    · exact hR.asks_alone hl ha a hat (by rw [hwaiting]; trivial)
  refine ⟨fun _ => ⟨hawaited, huntold⟩, fun _ => hawaited, fun _ t' ht => ?_, nofun⟩
  cases ht
  exact Function.update_self ..

theorem Answering.finish (hA : Answering u ls h s.master)
    (hmove : (u'.Over ↔ u.Over) ∧ (u'.Before → u.Before) ∧ (u' = .timer → u = .timer ∨ u.Before))
    (hen : Bus.enabled t (.eventRecv finishEvents) s = true) (l : Ask)
    (errorCode : eMBMasterReqErrCode) :
    Answering u' (Function.update ls t l) (h.finish t errorCode)
      (Bus.exec t (.eventRecv finishEvents) s).2.master := by
  obtain ⟨hover, hbefore, htimer⟩ := hmove
  have hup : ¬ s.master.Untold := by
    intro huntold
    have hnone : s.master.eventsUp finishEvents = [] :=
      List.filter_eq_nil_iff.mpr fun e he => by rw [huntold e he]; exact Bool.false_ne_true
    simp [Bus.enabled, hnone] at hen
  have hdone : u.Over := by
    by_contra hne
    exact hup (hA.active hne).2
  have huntold : (s.master.eventsTake finishEvents).Untold := by
    intro e he
    simp [Master.eventsTake, he]
  refine ⟨fun hne => absurd (hover.mpr hdone) hne, fun hne => absurd huntold hne,
    fun hb => absurd hdone (hbefore hb).not_over, fun ht => ?_⟩
  rcases htimer ht with rfl | hb
  · exact absurd hdone id
  · exact absurd hdone hb.not_over

theorem Answering.complete {e : MasterEvent} {m : Master}
    (hA : Answering (.thread t .polling) ls h m) :
    Answering (.thread t .releasing) ls h (m.eventPost e) :=
  ⟨fun hne => absurd trivial hne, fun _ => (hA.active id).1, fun hb => absurd hb id, nofun⟩

theorem update_waiting {l : Ask} (hne : ∀ bus, ls t ≠ .waiting bus) (v : Nat) (bus : Bool)
    (hv : ls v = .waiting bus) : Function.update ls t l v = .waiting bus := by
  have hvt : v ≠ t := by
    rintro rfl
    exact hne bus hv
  rwa [Function.update_of_ne hvt]

/-- The steps of requesters on the bus and the buffer. -/
theorem reading_board {tr : List (Label BusOp BusAr BusEv)} {o : Op}
    (hlistening : u ≠ .timer → s.master.eRcvState = .idle)
    (hmove : Move u t (.board o) (Bus.exec t (.board o) s).1 u') (hok : (ls t).ok (.board o))
    (hen : Bus.enabled t (.board o) s = true) (hls : askBus.locals askStart tr = ls)
    (hh : heard tr = h) (hcond : ReplyCond tr s (.op t (.board o) (Bus.exec t (.board o) s).1))
    (haside : ¬ (BusOp.board o).Aside) (hR : Sharing ls h s) (hA : Answering u ls h s.master) :
    Sharing (Function.update ls t ((ls t).next (.board o) (Bus.exec t (.board o) s).1))
        (h.observe t (.board o) (Bus.exec t (.board o) s).1) (Bus.exec t (.board o) s).2 ∧
      Answering u' (Function.update ls t ((ls t).next (.board o) (Bus.exec t (.board o) s).1))
        (h.observe t (.board o) (Bus.exec t (.board o) s).1)
        (Bus.exec t (.board o) s).2.master := by
  have hturn := hmove.before nofun (fun _ _ => nofun)
  have hsame : ∀ (l : Ask) (h' : Heard), h'.asker = h.asker → h'.reply = h.reply →
      (∀ bus, ls t ≠ .waiting bus) → Answering u' (Function.update ls t l) h' s.master :=
    fun l h' hasker hreply hne => hA.keep hturn hasker hreply (update_waiting hne)
      ⟨Iff.rfl, rfl, rfl⟩ hlistening
  cases o with
  | mutexTake m =>
      obtain rfl : m = .modbus := not_not.mp haside
      have hl : ls t = .away := hok
      exact ⟨hR.takeBus hen, hsame _ _ rfl rfl fun bus => by rw [hl]; nofun⟩
  | mutexRelease m =>
      obtain rfl : m = .modbus := not_not.mp haside
      have hl : ls t = .holding ∨ ls t = .reading := hok
      refine ⟨hR.giveBus hl, hsame _ _ rfl rfl fun bus => ?_⟩
      rcases hl with hl | hl <;> rw [hl] <;> nofun
  | store a v =>
      cases a with
      | ucMasterRTURcvBuf i =>
          have hl : ls t = .away ∨ ls t = .holding := hok
          have ha : Alone ls t := hls ▸ hcond
          refine ⟨hR.clear hl ha, hsame _ _ rfl rfl fun bus => ?_⟩
          rcases hl with hl | hl <;> rw [hl] <;> nofun
      | _ => exact absurd trivial haside
  | load a =>
      cases a with
      | ucMasterRTURcvBuf i =>
          have hwithin : h.revData t = true → i < (h.reply t).length := hh ▸ hcond
          obtain ⟨hasker, hreply, -⟩ := h.look_same t i (s.mem (.ucMasterRTURcvBuf i))
          refine ⟨hR.look hok hwithin, hsame _ _ hasker hreply fun bus heq => ?_⟩
          rcases hok with hl | ⟨hl | hl, -⟩ <;> rw [hl] at heq <;> cases heq
      | _ => exact absurd trivial haside
  | exchange len => exact absurd hok id
  | exchangeHold k => exact absurd hok id
  | _ => exact absurd trivial haside

/-- Every step of a thread. -/
theorem reading_step {tr : List (Label BusOp BusAr BusEv)} {l : Stage}
    (hlistening : u ≠ .timer → s.master.eRcvState = .idle)
    (hmove : Move u t o (Bus.exec t o s).1 u') (hstage : l.Allows o)
    (hok : (ls t).ok o) (hen : Bus.enabled t o s = true)
    (hls : askBus.locals askStart tr = ls) (hh : heard tr = h)
    (hcond : ReplyCond tr s (.op t o (Bus.exec t o s).1)) (hR : Sharing ls h s)
    (hA : Answering u ls h s.master) :
    Sharing (Function.update ls t ((ls t).next o (Bus.exec t o s).1))
        (h.observe t o (Bus.exec t o s).1) (Bus.exec t o s).2 ∧
      Answering u' (Function.update ls t ((ls t).next o (Bus.exec t o s).1))
        (h.observe t o (Bus.exec t o s).1) (Bus.exec t o s).2.master := by
  by_cases haside : o.Aside
  · have hturn := hmove.before (by rintro rfl; exact haside)
      (fun e he => by rintro rfl; exact haside he)
    rw [update_keeps (haside.next _ _), haside.observe]
    exact ⟨hR.keep haside,
      hA.keep hturn rfl rfl (fun _ _ => id) (haside.receiver hstage t s) hlistening⟩
  cases o with
  | board o => exact reading_board hlistening hmove hok hen hls hh hcond haside hR hA
  | runResTake =>
      obtain ⟨rfl, rfl⟩ := hmove.of_take
      have ha : ls t = .holding → Alone ls t := by
        intro hl
        rw [← hls] at hl ⊢
        exact hcond hl
      exact ⟨hR.request hok ha, hA.request hR hok ha⟩
  | eventRecv set =>
      obtain rfl : set = finishEvents := not_not.mp haside
      have hturn := hmove.before nofun (fun _ _ => nofun)
      obtain ⟨bus, hl⟩ := hok rfl
      have hnext := Ask.next_told bus (s.master.eventsUp finishEvents)
      rw [← hl] at hnext
      show Sharing (Function.update ls t ((ls t).next (.eventRecv finishEvents)
          (s.master.eventsUp finishEvents))) (h.observe t (.eventRecv finishEvents) _) _ ∧
        Answering u' (Function.update ls t ((ls t).next (.eventRecv finishEvents)
          (s.master.eventsUp finishEvents))) (h.observe t (.eventRecv finishEvents) _) _
      rw [hnext, Heard.observe_told]
      exact ⟨hR.told hl _, hA.finish hturn hen _ _⟩
  | eventPost e =>
      have he : e ∈ finishEvents := not_not.mp haside
      obtain ⟨rfl, rfl⟩ := hmove.of_complete he
      have hstay : Function.update ls t ((ls t).next (.eventPost e) ()) = ls := update_keeps rfl
      show Sharing (Function.update ls t ((ls t).next (.eventPost e) ())) h _ ∧
        Answering _ (Function.update ls t ((ls t).next (.eventPost e) ())) h _
      rw [hstay]
      exact ⟨⟨fun v => (hR.place v).keep rfl fun _ => rfl, hR.sole, hR.own⟩, hA.complete⟩
  | _ => exact absurd trivial haside

end Step

/-! ## Bytes from the line -/

section Line

variable {ls : Nat → Ask} {h : Heard} {s : Bus}

/-- One more byte, if it went to its place and no byte before it was lost. -/
theorem Lies.snoc {reply : List UInt8} {b : UInt8} {s' : Bus} (hlies : Lies reply s)
    (hbefore : ∀ i, i < reply.length → i < serPDUSizeMax →
      s'.mem (.ucMasterRTURcvBuf i) = s.mem (.ucMasterRTURcvBuf i))
    (hlast : reply.length < serPDUSizeMax → s'.mem (.ucMasterRTURcvBuf reply.length) = b) :
    Lies (reply ++ [b]) s' := by
  intro i v hi hv
  rcases Nat.lt_trichotomy i reply.length with hlt | rfl | hgt
  · rw [List.getElem?_append_left hlt] at hv
    exact (hbefore i hlt hi).trans (hlies i v hi hv)
  · rw [List.getElem?_concat_length] at hv
    cases hv
    exact hlast hi
  · rw [List.getElem?_eq_none (by rw [List.length_append]; exact hgt)] at hv
    cases hv

/-- A byte of the answer, at its place in the buffer. -/
theorem Incoming.rxByte {reply : List UInt8} (hrec : Incoming reply s.master) (hlies : Lies reply s)
    (b : UInt8) :
    Incoming (reply ++ [b]) (xMBMasterRTUReceiveFSM b s).master ∧
      Lies (reply ++ [b]) (xMBMasterRTUReceiveFSM b s) := by
  have hset : ∀ i j, (s.set (.ucMasterRTURcvBuf j) b).mem (.ucMasterRTURcvBuf i) =
      if i = j then b else s.mem (.ucMasterRTURcvBuf i) := by
    intro i j
    simp [Bus.mem, Bus.set, Addr.ucMasterRTURcvBuf.injEq]
  unfold Incoming at hrec
  cases hstate : s.master.eRcvState with
  | init =>
      rw [hstate] at hrec
      exact absurd hrec id
  | idle =>
      rw [hstate] at hrec
      obtain rfl : reply = [] := hrec
      simp only [xMBMasterRTUReceiveFSM, hstate]
      refine ⟨⟨rfl, Nat.le_add_left 1 255⟩,
        hlies.snoc (fun i hi => absurd hi (Nat.not_lt_zero i)) fun _ => ?_⟩
      exact (hset 0 0).trans (if_pos rfl)
  | rcv =>
      rw [hstate] at hrec
      obtain ⟨hpos, hle⟩ := hrec
      simp only [xMBMasterRTUReceiveFSM, hstate]
      by_cases hroom : s.master.usMasterRcvBufferPos < serPDUSizeMax
      · rw [if_pos hroom]
        refine ⟨?_, hlies.snoc (fun i hi _ => ?_) fun _ => ?_⟩
        · show (reply ++ [b]).length = s.master.usMasterRcvBufferPos + 1 ∧
            (reply ++ [b]).length ≤ serPDUSizeMax
          rw [List.length_append, List.length_singleton]
          omega
        · refine (hset i _).trans (if_neg ?_)
          omega
        · exact (hset _ _).trans (if_pos hpos)
      · rw [if_neg hroom]
        refine ⟨?_, hlies.snoc (fun i hi _ => rfl) fun hlt => ?_⟩
        · show serPDUSizeMax ≤ (reply ++ [b]).length
          rw [List.length_append]
          omega
        · omega
  | error =>
      rw [hstate] at hrec
      simp only [xMBMasterRTUReceiveFSM, hstate]
      refine ⟨?_, hlies.snoc (fun i hi _ => rfl) fun hlt => ?_⟩
      · unfold Incoming
        rw [show s.master.timersT35Enable.eRcvState = .error from hstate]
        show serPDUSizeMax ≤ (reply ++ [b]).length
        rw [List.length_append]
        exact Nat.le_add_right_of_le hrec
      · exact absurd hrec (Nat.not_le.mpr hlt)

theorem reading_rxByte (hA : Answering .timer ls h s.master) (hR : Sharing ls h s) (b : UInt8) :
    Sharing ls (h.rxByte b) (xMBMasterRTUReceiveFSM b s) ∧
      Answering .timer ls (h.rxByte b) (xMBMasterRTUReceiveFSM b s).master := by
  obtain ⟨⟨t, bus, hasker, hwaiting⟩, huntold⟩ := hA.active id
  obtain ⟨hmutex, hevent⟩ := receiveFSM_same b s
  have hreply : h.rxByte b = { h with reply := Function.update h.reply t (h.reply t ++ [b]) } := by
    rw [Heard.rxByte, hasker]
  have hhears : (ls t).Hears := by rw [hwaiting]; trivial
  obtain ⟨hrec, hlies⟩ := (hA.received rfl t hasker).rxByte ((hR.place t).lies hhears) b
  rw [hreply]
  refine ⟨⟨fun u => ?_, hR.sole, hR.own⟩, ⟨fun _ => ⟨⟨t, bus, hasker, hwaiting⟩, ?_⟩,
    fun _ => ⟨t, bus, hasker, hwaiting⟩, fun hb => absurd hb id, fun _ u hu => ?_⟩⟩
  · refine ⟨fun hl => ?_, (hR.place u).asker, fun hl => ?_, (hR.place u).requester⟩
    · rw [hmutex]
      exact (hR.place u).locked hl
    · obtain rfl : u = t := hR.sole u t hl.busy hhears.busy
      show Lies (Function.update h.reply u _ u) _
      rwa [Function.update_self]
  · intro e he
    rw [hevent]
    exact huntold e he
  · obtain rfl : t = u := Option.some.inj (hasker.symm.trans hu)
    show Incoming (Function.update h.reply t _ t) _
    rwa [Function.update_self]

/-- The wait is over; the requester has yet to be told. -/
theorem reading_timer {e : MasterEvent} (he : e ≠ .frameSent) (hwaits : s.master.Waits)
    (hA : Answering .timer ls h s.master) : Answering (.event e) ls h s.master.timerExpired := by
  obtain ⟨hawaited, huntold⟩ := hA.active id
  have huntold' : s.master.timerExpired.Untold := by
    obtain ⟨e', he', hevent⟩ := Master.timerExpired_event hwaits
    intro e'' he''
    rw [hevent, Function.update_of_ne]
    · exact huntold e'' he''
    · rintro rfl
      revert he' he''
      cases e'' <;> decide
  exact ⟨fun _ => ⟨hawaited, huntold'⟩, fun hne => absurd huntold' hne, fun hb => absurd hb he,
    nofun⟩

end Line

/-! ## Runs -/

/-- **When every requester reads its own answer.** -/
theorem replies_isolated {other : UInt8 → Option FunctionHandler}
    (hother : ∀ code h, other code = some h → ∀ frame len, (h frame len).Only BusOp.Handles)
    (polls transmits : Nat) (calls : Nat → List Call) (b : Board)
    {tr : List (Label BusOp BusAr BusEv)} {c : Config BusOp BusAr Bus}
    (hrun : Run Bus.system ReplyCond (busStart other polls transmits calls b) tr c) :
    ∀ x ∈ (heard tr).inspected, x.Own := by
  have hfollows : ∀ t, (masterDiscipline.prod askBus).Follows
      (busThreads other polls transmits calls t)
      (fun _ l => l.1 = idleStage t ∧ l.2 = askStart t) (idleStage t, askStart t) := fun t =>
    (busThreads_follows hother polls transmits calls t).prod
      (busThreads_ask hother polls transmits calls t)
  have hkeeps := hrun.keeps (masterDiscipline.prod askBus)
    (I := fun tr s => ∃ u : Turn, masterDiscipline.locals idleStage tr = u.stages ∧
      Cycle u s.master ∧ Sharing (askBus.locals askStart tr) (heard tr) s ∧
      Answering u (askBus.locals askStart tr) (heard tr) s.master) hfollows ?_ ?_ ?_
  · obtain ⟨-, -, -, hR, -⟩ := hkeeps.1
    exact hR.own
  · refine ⟨.free, rfl, .enabled,
      ⟨fun t => ?_, fun t u ht => absurd ht (askStart_quiet t).1, nofun⟩, ?_⟩
    · exact ⟨fun h => absurd h (askStart_quiet t).2, fun h => absurd h.busy (askStart_quiet t).1,
        fun h => absurd h.busy (askStart_quiet t).1, nofun⟩
    · exact ⟨fun h => absurd trivial h, fun h => absurd (fun _ _ => rfl) h, fun h => absurd h id,
        nofun⟩
  · rintro tr s t o ⟨u, hlocals, hcycle, hR, hA⟩ hen hcond hok
    rw [Discipline.locals_prod] at hok ⊢
    obtain ⟨hstage, hask⟩ := hok
    rw [hlocals] at hstage ⊢
    obtain ⟨hanswers, u', hmove, hstages, hcycle'⟩ := hcycle.step hstage hen
    obtain ⟨hR', hA'⟩ := reading_step hcycle.listening hmove hstage hask hen rfl rfl hcond hR hA
    refine ⟨⟨hanswers, trivial⟩, u', ?_, hcycle', ?_⟩
    · rw [Discipline.locals_snoc_op, hlocals]
      exact hstages
    · rw [Discipline.locals_snoc_op, heard_snoc_op]
      exact ⟨hR', hA'⟩
  · rintro tr s e ⟨u, hlocals, hcycle, hR, hA⟩ hen hcond
    rw [Discipline.locals_snoc_env, Discipline.locals_snoc_env, hlocals]
    cases e with
    | rxByte v =>
        obtain rfl := hcycle.timer.mp hcond
        rw [heard_snoc_rxByte]
        exact ⟨.timer, rfl, hcycle.rxByte v, reading_rxByte hA hR v⟩
    | timerExpired =>
        obtain rfl := hcycle.timer.mp hen
        obtain ⟨e, hne, hcycle'⟩ := hcycle.timerExpired
        rw [heard_snoc_timer]
        exact ⟨.event e, rfl, hcycle',
          ⟨fun t => (hR.place t).keep rfl fun _ => rfl, hR.sole, hR.own⟩,
          reading_timer hne hcycle.relies hA⟩

/-- Thread 2 sets the motor, thread 3 asks the display board. -/
def motorAndDisplay (t : Nat) : List Call :=
  if t = 2 then [.setDcMotor] else if t = 3 then [.getDisplayBoardData] else []

/-- Thread 3 asks, and a key is answered. -/
def displayAnswered : List (Act BusEv) :=
  List.replicate 29 (.thread 3) ++ List.replicate 6 (.thread 0) ++ List.replicate 51 (.thread 1) ++
    ([0xF1, 0xF1, 0x05, 0x01, 0x02, 0x09, 0x7E] : List UInt8).map (fun v => .env (.rxByte v)) ++
    [.env .timerExpired] ++ List.replicate 10 (.thread 0)

theorem replies_isolated_run : ∃ tr c,
    Run Bus.system ReplyCond (busStart (fun _ => none) 6 15 motorAndDisplay Board.reset) tr c ∧
      (heard tr).inspected.map Inspected.i = [3, 1, 0, 4, 2, 2, 2, 6, 1, 0, 0] ∧
      ∀ x ∈ (heard tr).inspected, x.Own := by
  obtain ⟨tr, c, hrun, hlooked⟩ := exists_run_of_endsWith Bus.system replyCheck
    (displayAnswered ++ List.replicate 14 (.thread 3) ++ List.replicate 27 (.thread 2) ++
      List.replicate 6 (.thread 0) ++ List.replicate 39 (.thread 1) ++
      ([0xBC, 0x07, 0x00, 0x01, 0xC4] : List UInt8).map (fun v => .env (.rxByte v)) ++
      [.env .timerExpired] ++ List.replicate 10 (.thread 0) ++ List.replicate 6 (.thread 2))
    (busStart (fun _ => none) 6 15 motorAndDisplay Board.reset)
    (fun tr _ => decide ((heard tr).inspected.map Inspected.i = [3, 1, 0, 4, 2, 2, 2, 6, 1, 0, 0]))
    (by decide +kernel)
  have hrun' := hrun.mono fun _ _ _ => replyCond_of_check
  exact ⟨tr, c, hrun', of_decide_eq_true hlooked,
    replies_isolated (fun _ _ h => absurd h (by simp)) 6 15 motorAndDisplay Board.reset hrun'⟩

/-- The key has been received and the run resource is free again; thread 2
clears the buffer before thread 3 looks at it. -/
theorem replies_isolated_counterexample : ∃ tr c,
    Run Bus.system anyStep (busStart (fun _ => none) 4 8 motorAndDisplay Board.reset) tr c ∧
      ∃ x ∈ (heard tr).inspected, ¬ x.Own := by
  obtain ⟨tr, c, hrun, hbad⟩ := exists_run_of_endsWith Bus.system (fun _ _ _ => true)
    (displayAnswered ++ List.replicate 13 (.thread 2) ++ List.replicate 4 (.thread 3))
    (busStart (fun _ => none) 4 8 motorAndDisplay Board.reset)
    (fun tr _ => decide (∃ x ∈ (heard tr).inspected, ¬ x.Own))
    (by decide +kernel)
  exact ⟨tr, c, hrun.any, of_decide_eq_true hbad⟩

end Aclean
