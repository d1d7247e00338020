import Aclean.MasterTurn

/-!
# What a request puts on the line

Every request that got the run resource is a transfer: the frame its caller
built, the bytes put on the line for it so far, and whether it is over. The
transfers are read off the history alone. A transfer goes wrong in four ways:
the poll thread reads the mode flag of another request, since the flag is
cleared when the run resource is free again; the flag is cleared under the
request that has set it; the raw frame is rebuilt by another thread before it
has got the run resource, or between that and its last byte. Without these
every request is on the line as it was built.
-/

namespace Aclean

/-! ## Transfers -/

/-- The frame of a request, for a raw one from what the caller put into the
buffer. -/
def Request.frame (buf : Nat → UInt8) : Request → List UInt8
  | .notRtuDatas usLength => (List.range usLength).map buf
  | .readHoldingRegister ucSndAddr usRegAddr usNRegs =>
      withCRC (ucSndAddr :: readHoldingPDU usRegAddr usNRegs)

/-- The array it has to be sent from. -/
def Request.buf : Request → SndBuf
  | .notRtuDatas _ => .notModbus
  | .readHoldingRegister _ _ _ => .masterRTU

structure Transfer where
  request : Request
  frame : List UInt8
  sent : List UInt8
  closed : Bool
  deriving DecidableEq, Repr

/-- What a history says about the line. -/
structure Wire where
  /-- What each thread last stored into `rs485_send_buf_not_modbus`. -/
  built : Nat → Nat → UInt8
  /-- The mode flag has been set and not yet been read by the poll thread. -/
  armed : Bool
  /-- The last one first. -/
  transfers : List Transfer

namespace Wire

def start : Wire := ⟨fun _ _ => 0, false, []⟩

/-- A byte goes to the request on hand; without one it is a transfer of its own. -/
def put (b : UInt8) (w : Wire) : Wire :=
  match w.transfers with
  | [] => { w with transfers := [⟨.notRtuDatas 0, [], [b], false⟩] }
  | x :: xs => { w with transfers := { x with sent := x.sent ++ [b] } :: xs }

def finish (w : Wire) : Wire :=
  match w.transfers with
  | [] => w
  | x :: xs => { w with transfers := { x with closed := true } :: xs }

def observe (w : Wire) (t : Nat) : (o : BusOp) → BusAr o → Wire
  | .board (.store (.rs485SendBufNotModbus i) v), _ =>
      { w with built := Function.update w.built t (Function.update (w.built t) i v) }
  | .board (.store .mbSwitchFlag v), _ => { w with armed := v != 0 }
  | .board (.load .mbSwitchFlag), _ => if t = pollThread then { w with armed := false } else w
  | .issue r, _ => { w with transfers := ⟨r, r.frame (w.built t), [], false⟩ :: w.transfers }
  | .serialPutByte, b => w.put b
  | .runResRelease, _ => w.finish
  | _, _ => w

end Wire

/-- The line after a history. -/
def wire (tr : List (Label BusOp BusAr BusEv)) : Wire :=
  tr.foldl (fun w l =>
    match l with
    | .op t o x => w.observe t o x
    | .env _ => w) .start

/-- Every request is on the line as it was built: the one on hand as far as it
has got, all others in full. -/
def Isolated : List Transfer → Prop
  | [] => True
  | x :: xs => x.sent <+: x.frame ∧ (x.closed = true → x.sent = x.frame) ∧
      ∀ y ∈ xs, y.sent = y.frame

instance (xs : List Transfer) : Decidable (Isolated xs) :=
  match xs with
  | [] => isTrue trivial
  | _ :: xs => inferInstanceAs (Decidable (_ ∧ _ ∧ ∀ y ∈ xs, y.sent = y.frame))

/-! ## Where it goes right -/

/-- No byte of a raw frame still to be sent is changed by storing `v` at `i`. -/
def Wire.Spares (w : Wire) (i : Nat) (v : UInt8) : Prop :=
  ∀ x ∈ w.transfers.head?, x.request.buf = .notModbus → x.sent.length ≤ i → i < x.frame.length →
    x.frame[i]? = some v

def Wire.modbus (w : Wire) : Prop := ∃ x ∈ w.transfers.head?, x.request.buf = .masterRTU

/-- A raw request finds its frame as it built it when it gets the run resource,
and nobody changes a byte of it that is still to be sent; nobody clears the
mode flag between its being set and its being read, and when the poll thread
reads it for a Modbus request it is clear; the line is silent unless the
master listens. -/
def WireCond : StepCond BusOp BusAr Bus BusEv := fun tr s l =>
  match l with
  | .op t (.issue (.notRtuDatas len)) _ =>
      ∀ i, i < len → s.mem (.rs485SendBufNotModbus i) = (wire tr).built t i
  | .op _ (.board (.store (.rs485SendBufNotModbus i) v)) _ => (wire tr).Spares i v
  | .op _ (.board (.store .mbSwitchFlag v)) _ => v = 0 → (wire tr).armed = false
  | .op t (.board (.load .mbSwitchFlag)) _ =>
      t = pollThread → (wire tr).modbus → s.mem .mbSwitchFlag = 0
  | .env (.rxByte _) => s.master.timer = true
  | _ => True

instance (w : Wire) (i : Nat) (v : UInt8) : Decidable (w.Spares i v) :=
  inferInstanceAs (Decidable (∀ x ∈ w.transfers.head?, _ → _ → _ → _))

instance (w : Wire) : Decidable w.modbus :=
  inferInstanceAs (Decidable (∃ x ∈ w.transfers.head?, _))

instance (tr : List (Label BusOp BusAr BusEv)) (s : Bus) (l : Label BusOp BusAr BusEv) :
    Decidable (WireCond tr s l) := by
  unfold WireCond
  split <;> infer_instance

/-! ## What each place knows of the request on hand -/

/-- The bytes still to be sent lie ready. -/
def Transfer.Rest (x : Transfer) (s : Bus) : Prop :=
  ∀ i b, x.sent.length ≤ i → x.frame[i]? = some b → s.mem (x.request.buf.addr i) = b

/-- The request on hand is `r`, and nothing of it is on the line yet. -/
structure Unsent (x : Transfer) (r : Request) (s : Bus) : Prop where
  request : x.request = r
  sent : x.sent = []
  closed : x.closed = false
  frame : ∃ buf, x.frame = r.frame buf
  rest : r.buf = .notModbus → x.Rest s
  fits : ∀ len, r = .notRtuDatas len → len < 256

/-- It is being sent: the pointer is `ahead` bytes behind the line, the counter
`behind`. -/
structure Sending (x : Transfer) (s : Bus) (ahead behind : Nat) : Prop where
  closed : x.closed = false
  sent : x.sent <+: x.frame
  buf : s.master.sndBuf = x.request.buf
  pos : s.master.sndPos + ahead = x.sent.length
  count : s.master.usMasterSndBufferCount + x.sent.length = x.frame.length + behind
  rest : x.Rest s

namespace Wire

def Settled (w : Wire) : Prop := ∀ x ∈ w.transfers, x.sent = x.frame

def Awaits (w : Wire) (r : Request) (s : Bus) : Prop :=
  ∃ x xs, w.transfers = x :: xs ∧ Unsent x r s ∧ ∀ y ∈ xs, y.sent = y.frame

def Sends (w : Wire) (s : Bus) (ahead behind : Nat) : Prop :=
  ∃ x xs, w.transfers = x :: xs ∧ Sending x s ahead behind ∧ ∀ y ∈ xs, y.sent = y.frame

/-- The flag is set for the request on hand. -/
def Armed (w : Wire) (s : Bus) : Prop := w.armed = true ∧ s.mem .mbSwitchFlag = 1

end Wire

/-- The first `k` bytes of the PDU are in the send buffer. -/
def Stored (reg n : UInt16) (k : Nat) (s : Bus) : Prop :=
  ∀ j v, j < k → (readHoldingPDU reg n)[j]? = some v → s.mem (.ucMasterRTUSndBuf (j + 1)) = v

/-- All that the poll thread will look at is in place. -/
def Request.Ready (r : Request) (w : Wire) (s : Bus) : Prop :=
  match r with
  | .notRtuDatas len => w.Armed s ∧ s.mem .mbNotRtuDataLen = UInt8.ofNat len
  | .readHoldingRegister a reg n =>
      s.master.ucMBMasterDestAddress = a ∧ s.master.usMasterSendPDULength = 5 ∧ Stored reg n 5 s

namespace Stage

/-- What a place before the first byte knows. -/
def Facts (l : Stage) (r : Request) (w : Wire) (s : Bus) : Prop :=
  match l with
  | copying len => r = .notRtuDatas len
  | flagged len => r = .notRtuDatas len ∧ w.Armed s
  | lengthSet len => r = .notRtuDatas len ∧ w.Armed s ∧ s.mem .mbNotRtuDataLen = UInt8.ofNat len
  | addressing a reg n => r = .readHoldingRegister a reg n
  | filling a reg n k =>
      r = .readHoldingRegister a reg n ∧ s.master.ucMBMasterDestAddress = a ∧ Stored reg n k s
  | prepared r' => r = r' ∧ r.Ready w s
  | sending => r.Ready w s
  | sendingTo d => r.Ready w s ∧ s.master.ucMBMasterDestAddress = d
  | sendingFrame d n =>
      r.Ready w s ∧ s.master.ucMBMasterDestAddress = d ∧ s.master.usMasterSendPDULength = n
  | sendingRTU d n => ∃ reg k, r = .readHoldingRegister d reg k ∧ Stored reg k 5 s ∧ n = 5
  | sendingRaw => ∃ len, r = .notRtuDatas len ∧ s.mem .mbNotRtuDataLen = UInt8.ofNat len
  | sendingRawOf len => r = .notRtuDatas len
  | _ => True

def Data (l : Stage) (w : Wire) (s : Bus) : Prop :=
  match l with
  | copying _ | flagged _ | lengthSet _ | addressing _ _ _ | filling _ _ _ _ | prepared _ | sending
  | sendingTo _ | sendingFrame _ _ | sendingRTU _ _ | sendingRaw | sendingRawOf _ =>
      ∃ r, w.Awaits r s ∧ l.Facts r w s
  | entered | counting => w.Sends s 0 0
  | putting => w.Sends s 0 0 ∧ s.master.usMasterSndBufferCount ≠ 0
  | advancing => w.Sends s 1 1
  | decrementing => w.Sends s 0 1
  | _ => w.Settled

end Stage

def Turn.Data (u : Turn) (w : Wire) (s : Bus) : Prop :=
  match u with
  | .thread _ l => l.Data w s
  | .event .frameSent => ∃ r, w.Awaits r s ∧ r.Ready w s
  | .trans => w.Sends s 0 0
  | _ => w.Settled

/-- With the line in hand `u` every request is as it should be. -/
theorem isolated_of_settled {w : Wire} (h : w.Settled) : Isolated w.transfers := by
  unfold Wire.Settled at h
  cases hw : w.transfers with
  | nil => trivial
  | cons x xs =>
      rw [hw] at h
      have hx := h x (List.mem_cons_self ..)
      exact ⟨hx ▸ List.prefix_rfl, fun _ => hx, fun y hy => h y (List.mem_cons_of_mem _ hy)⟩

theorem isolated_of_awaits {w : Wire} {r : Request} {s : Bus} (h : w.Awaits r s) :
    Isolated w.transfers := by
  obtain ⟨x, xs, hw, hx, hxs⟩ := h
  rw [hw]
  refine ⟨by rw [hx.sent]; exact List.nil_prefix, fun hclosed => ?_, hxs⟩
  rw [hx.closed] at hclosed
  cases hclosed

theorem isolated_of_sends {w : Wire} {s : Bus} {ahead behind : Nat} (h : w.Sends s ahead behind) :
    Isolated w.transfers := by
  obtain ⟨x, xs, hw, hx, hxs⟩ := h
  rw [hw]
  refine ⟨hx.sent, fun hclosed => ?_, hxs⟩
  rw [hx.closed] at hclosed
  cases hclosed

theorem Turn.Data.isolated {u : Turn} {w : Wire} {s : Bus} (h : u.Data w s) :
    Isolated w.transfers := by
  cases u with
  | thread t l =>
      have hl : l.Data w s := h
      cases l with
      | _ =>
        first
        | exact isolated_of_settled hl
        | exact isolated_of_sends hl
        | exact isolated_of_sends hl.1
        | exact isolated_of_awaits hl.choose_spec.1
  | event e =>
      cases e with
      | frameSent => exact isolated_of_awaits h.choose_spec.1
      | _ => exact isolated_of_settled h
  | trans => exact isolated_of_sends h
  | free => exact isolated_of_settled h
  | timer => exact isolated_of_settled h

/-! ## Steps that leave the request on hand alone -/

theorem Wire.Awaits.keep {w w' : Wire} {s s' : Bus} {r : Request} (h : w.Awaits r s)
    (hw : w'.transfers = w.transfers)
    (hrest : ∀ x ∈ w.transfers.head?, x.request.buf = .notModbus → x.Rest s → x.Rest s') :
    w'.Awaits r s' := by
  obtain ⟨x, xs, heq, hx, hxs⟩ := h
  refine ⟨x, xs, hw.trans heq, ?_, hxs⟩
  refine ⟨hx.request, hx.sent, hx.closed, hx.frame, fun hbuf => ?_, hx.fits⟩
  refine hrest x (by rw [heq]; rfl) ?_ (hx.rest hbuf)
  rw [hx.request]
  exact hbuf

/-- What no step out of turn touches. -/
structure LeavesRequest (w w' : Wire) (s s' : Bus) : Prop where
  transfers : w'.transfers = w.transfers
  armed : w.armed = true → w'.armed = true ∧ s'.mem .mbSwitchFlag = s.mem .mbSwitchFlag
  snd : ∀ i, s'.mem (.ucMasterRTUSndBuf i) = s.mem (.ucMasterRTUSndBuf i)
  len : s'.mem .mbNotRtuDataLen = s.mem .mbNotRtuDataLen
  raw : ∀ x ∈ w.transfers.head?, x.request.buf = .notModbus → x.Rest s → x.Rest s'
  dest : s'.master.ucMBMasterDestAddress = s.master.ucMBMasterDestAddress
  pduLen : s'.master.usMasterSendPDULength = s.master.usMasterSendPDULength
  sndBuf : s'.master.sndBuf = s.master.sndBuf
  sndPos : s'.master.sndPos = s.master.sndPos
  count : s'.master.usMasterSndBufferCount = s.master.usMasterSndBufferCount

theorem LeavesRequest.of_same {w : Wire} {s s' : Bus} (hmem : s'.board.mem = s.board.mem)
    (hdest : s'.master.ucMBMasterDestAddress = s.master.ucMBMasterDestAddress)
    (hpdu : s'.master.usMasterSendPDULength = s.master.usMasterSendPDULength)
    (hbuf : s'.master.sndBuf = s.master.sndBuf) (hpos : s'.master.sndPos = s.master.sndPos)
    (hcount : s'.master.usMasterSndBufferCount = s.master.usMasterSndBufferCount) :
    LeavesRequest w w s s' where
  transfers := rfl
  armed := fun h => ⟨h, congrFun hmem _⟩
  snd := fun _ => congrFun hmem _
  len := congrFun hmem _
  raw := fun _ _ _ h i b hi hb => (congrFun hmem _).trans (h i b hi hb)
  dest := hdest
  pduLen := hpdu
  sndBuf := hbuf
  sndPos := hpos
  count := hcount

namespace LeavesRequest

variable {w w' : Wire} {s s' : Bus} (hu : LeavesRequest w w' s s')
include hu

theorem armed' (h : w.Armed s) : w'.Armed s' :=
  ⟨(hu.armed h.1).1, (hu.armed h.1).2.trans h.2⟩

theorem stored {reg n : UInt16} {k : Nat} (h : Stored reg n k s) : Stored reg n k s' :=
  fun j v hj hv => (hu.snd _).trans (h j v hj hv)

theorem ready {r : Request} (h : r.Ready w s) : r.Ready w' s' := by
  cases r with
  | notRtuDatas len => exact ⟨hu.armed' h.1, hu.len.trans h.2⟩
  | readHoldingRegister a reg n => exact ⟨hu.dest.trans h.1, hu.pduLen.trans h.2.1, hu.stored h.2.2⟩

theorem facts {l : Stage} {r : Request} (h : l.Facts r w s) : l.Facts r w' s' := by
  cases l with
  | flagged len => exact ⟨h.1, hu.armed' h.2⟩
  | lengthSet len => exact ⟨h.1, hu.armed' h.2.1, hu.len.trans h.2.2⟩
  | filling a reg n k => exact ⟨h.1, hu.dest.trans h.2.1, hu.stored h.2.2⟩
  | prepared r' => exact ⟨h.1, hu.ready h.2⟩
  | sending => exact hu.ready h
  | sendingTo d => exact ⟨hu.ready h.1, hu.dest.trans h.2⟩
  | sendingFrame d n => exact ⟨hu.ready h.1, hu.dest.trans h.2.1, hu.pduLen.trans h.2.2⟩
  | sendingRTU d n =>
      obtain ⟨reg, k, hr, hst, hn⟩ := h
      exact ⟨reg, k, hr, hu.stored hst, hn⟩
  | sendingRaw =>
      obtain ⟨len, hr, hlen⟩ := h
      exact ⟨len, hr, hu.len.trans hlen⟩
  | _ => exact h

theorem settled (h : w.Settled) : w'.Settled := by
  unfold Wire.Settled
  rw [hu.transfers]
  exact h

theorem awaits {r : Request} (h : w.Awaits r s) : w'.Awaits r s' := h.keep hu.transfers hu.raw

theorem sends {ahead behind : Nat} (h : w.Sends s ahead behind) : w'.Sends s' ahead behind := by
  obtain ⟨x, xs, heq, hx, hxs⟩ := h
  refine ⟨x, xs, hu.transfers.trans heq, ?_, hxs⟩
  refine ⟨hx.closed, hx.sent, hu.sndBuf.trans hx.buf, ?_, ?_, ?_⟩
  · rw [hu.sndPos]
    exact hx.pos
  · rw [hu.count]
    exact hx.count
  · cases hbuf : x.request.buf with
    | notModbus => exact hu.raw x (by rw [heq]; rfl) hbuf hx.rest
    | masterRTU =>
        intro i b hi hb
        have hbyte := hx.rest i b hi hb
        rw [hbuf] at hbyte ⊢
        exact (hu.snd i).trans hbyte

theorem data {u : Turn} (h : u.Data w s) : u.Data w' s' := by
  cases u with
  | thread t l =>
      have hl : l.Data w s := h
      show l.Data w' s'
      cases l with
      | putting => exact ⟨hu.sends hl.1, by rw [hu.count]; exact hl.2⟩
      | _ =>
        first
        | exact hu.settled hl
        | exact hu.sends hl
        | exact hl.imp fun r hr => ⟨hu.awaits hr.1, hu.facts hr.2⟩
  | event e =>
      cases e with
      | frameSent => exact Exists.imp (fun r hr => ⟨hu.awaits hr.1, hu.ready hr.2⟩) h
      | _ => exact hu.settled h
  | trans => exact hu.sends h
  | free => exact hu.settled h
  | timer => exact hu.settled h

end LeavesRequest

theorem Bus.mem_store {a b : Addr} (h : b ≠ a) (t : Nat) (v : UInt8) (s : Bus) :
    (Bus.exec t (.board (.store a v)) s).2.mem b = s.mem b :=
  Function.update_of_ne h _ _

theorem Bus.mem_store_self (a : Addr) (t : Nat) (v : UInt8) (s : Bus) :
    (Bus.exec t (.board (.store a v)) s).2.mem a = v :=
  Function.update_self ..

section Idle

variable {tr : List (Label BusOp BusAr BusEv)} {s : Bus} {t : Nat}

/-- A byte of a raw frame still to be sent keeps its value. -/
theorem rest_store {x : Transfer} {i : Nat} {v : UInt8} {w : Wire} (hw : w.Spares i v)
    (hx : x ∈ w.transfers.head?) (hbuf : x.request.buf = .notModbus) (h : x.Rest s) :
    x.Rest (Bus.exec t (.board (.store (.rs485SendBufNotModbus i) v)) s).2 := by
  intro j b hj hb
  have hlen : j < x.frame.length := (List.getElem?_eq_some_iff.mp hb).1
  have hbyte := h j b hj hb
  rw [hbuf] at hbyte ⊢
  by_cases hji : j = i
  · subst hji
    have hv := hw x hx hbuf hj hlen
    rw [hb] at hv
    exact (Bus.mem_store_self ..).trans (Option.some.inj hv).symm
  · exact (Bus.mem_store (fun heq => hji (Addr.rs485SendBufNotModbus.inj heq)) t v s).trans hbyte

/-- The stores of the control code. -/
theorem leavesRequest_store {a : Addr} {v : UInt8} (ha : ¬ a.Master)
    (hcond : WireCond tr s (.op t (.board (.store a v)) ())) :
    LeavesRequest (wire tr) ((wire tr).observe t (.board (.store a v)) ()) s
      (Bus.exec t (.board (.store a v)) s).2 := by
  have hmem : ∀ b : Addr, b.Master → (Bus.exec t (.board (.store a v)) s).2.mem b = s.mem b :=
    fun b hb => Bus.mem_store (by rintro rfl; exact ha hb) t v s
  have hmaster : ∀ w' : Wire, w'.transfers = (wire tr).transfers → w'.armed = (wire tr).armed →
      (∀ x ∈ (wire tr).transfers.head?, x.request.buf = .notModbus → x.Rest s →
        x.Rest (Bus.exec t (.board (.store a v)) s).2) →
      LeavesRequest (wire tr) w' s (Bus.exec t (.board (.store a v)) s).2 := by
    intro w' htransfers harmed hrest
    exact ⟨htransfers, fun h => ⟨harmed.trans h, hmem _ trivial⟩, fun _ => hmem _ trivial,
      hmem _ trivial, hrest, rfl, rfl, rfl, rfl, rfl⟩
  cases a with
  | rs485SendBufNotModbus i =>
      exact hmaster _ rfl rfl fun x hx hbuf h => rest_store hcond hx hbuf h
  | ucMasterRTUSndBuf i => exact absurd trivial ha
  | mbSwitchFlag => exact absurd trivial ha
  | mbNotRtuDataLen => exact absurd trivial ha
  | _ =>
      refine hmaster _ rfl rfl fun x hx hbuf h i b hi hb => ?_
      rw [hbuf]
      refine (Bus.mem_store (by simp [SndBuf.addr]) t v s).trans ?_
      rw [← h i b hi hb, hbuf]

/-- The steps of callers whose turn it is not. -/
theorem leavesRequest_idle {o : BusOp} (ht : t ≠ pollThread) (hok : Stage.callerIdle.Allows o)
    (hne : o ≠ .runResTake) (hcond : WireCond tr s (.op t o (Bus.exec t o s).1)) :
    LeavesRequest (wire tr) ((wire tr).observe t o (Bus.exec t o s).1) s (Bus.exec t o s).2 := by
  cases hok with
  | take => exact absurd rfl hne
  | finish => exact .of_same rfl rfl rfl rfl rfl rfl
  | clear =>
      have harmed : (wire tr).armed = false := hcond rfl
      refine ⟨rfl, fun h => absurd (harmed.symm.trans h) nofun, fun _ => Bus.mem_store (by simp) t 0 s,
        Bus.mem_store (by simp) t 0 s, fun x hx hbuf h i b hi hb => ?_, rfl, rfl, rfl, rfl, rfl⟩
      rw [hbuf]
      refine (Bus.mem_store (by simp [SndBuf.addr]) t 0 s).trans ?_
      rw [← h i b hi hb, hbuf]
  | @control o ho =>
      cases o with
      | store a v => exact leavesRequest_store ho hcond
      | exchange len => exact absurd ho id
      | exchangeHold k => exact absurd ho id
      | load a =>
          have hw : (wire tr).observe t (.board (.load a)) (s.mem a) = wire tr := by
            cases a with
            | mbSwitchFlag => exact if_neg ht
            | _ => rfl
          show LeavesRequest (wire tr) ((wire tr).observe t (.board (.load a)) (s.mem a)) s s
          rw [hw]
          exact .of_same rfl rfl rfl rfl rfl rfl
      | _ => exact .of_same rfl rfl rfl rfl rfl rfl

end Idle

/-! ## Steps on the request on hand -/

section Step

variable {tr : List (Label BusOp BusAr BusEv)} {w : Wire} {s s' : Bus} {t : Nat}

theorem Wire.Awaits.keepMem {r : Request} {w' : Wire} (h : w.Awaits r s)
    (hw : w'.transfers = w.transfers)
    (hmem : ∀ i, s'.mem (.rs485SendBufNotModbus i) = s.mem (.rs485SendBufNotModbus i)) :
    w'.Awaits r s' := by
  refine h.keep hw fun x _ hbuf hx i b hi hb => ?_
  have hbyte := hx i b hi hb
  rw [hbuf] at hbyte ⊢
  exact (hmem i).trans hbyte

/-- The request gets the run resource. -/
theorem awaits_issueRaw {len : Nat} (h : w.Settled) (hlen : len < 256)
    (hbuilt : ∀ i, i < len → s.mem (.rs485SendBufNotModbus i) = w.built t i) :
    (w.observe t (.issue (.notRtuDatas len)) ()).Awaits (.notRtuDatas len) s := by
  refine ⟨_, w.transfers, rfl, ?_, h⟩
  refine ⟨rfl, rfl, rfl, ⟨_, rfl⟩, fun _ i b _ hb => ?_, fun k hk => ?_⟩
  · obtain ⟨hi, rfl⟩ := List.getElem?_eq_some_iff.mp hb
    have hi' : i < len := by simpa [Request.frame] using hi
    simpa [Request.frame, Request.buf, SndBuf.addr] using hbuilt i hi'
  · cases hk
    exact hlen

theorem awaits_issueHold {a : UInt8} {reg n : UInt16} (h : w.Settled) :
    (w.observe t (.issue (.readHoldingRegister a reg n)) ()).Awaits (.readHoldingRegister a reg n) s :=
  ⟨_, w.transfers, rfl, ⟨rfl, rfl, rfl, ⟨w.built t, rfl⟩, nofun, nofun⟩, h⟩

theorem stored_fill {reg n : UInt16} {k : Nat} {v : UInt8} (h : Stored reg n k s)
    (hk : (readHoldingPDU reg n)[k]? = some v) :
    Stored reg n (k + 1) (Bus.exec t (.board (.store (.ucMasterRTUSndBuf (k + 1)) v)) s).2 := by
  intro j v' hj hv
  by_cases hjk : j = k
  · subst hjk
    obtain rfl := Option.some.inj (hk.symm.trans hv)
    exact Bus.mem_store_self ..
  · refine (Bus.mem_store ?_ t v s).trans (h j v' (by omega) hv)
    simp [hjk]

/-- All bytes are sent. -/
theorem settled_of_sends (h : w.Sends s 0 0) (hcount : s.master.usMasterSndBufferCount = 0) :
    w.Settled := by
  obtain ⟨x, xs, heq, hx, hxs⟩ := h
  have hlen := hx.count
  rw [hcount] at hlen
  have hfull : x.sent = x.frame := hx.sent.eq_of_length (by omega)
  intro y hy
  rw [heq, List.mem_cons] at hy
  rcases hy with rfl | hy
  · exact hfull
  · exact hxs y hy

theorem settled_finish (h : w.Settled) : w.finish.Settled := by
  unfold Wire.finish
  split
  · exact h
  · rename_i x xs heq
    intro y hy
    rw [List.mem_cons] at hy
    rcases hy with rfl | hy
    · exact h x (by rw [heq]; exact List.mem_cons_self ..)
    · exact h y (by rw [heq]; exact List.mem_cons_of_mem _ hy)

/-- The byte that goes on the line is the next one of the frame. -/
theorem sends_put (h : w.Sends s 0 0) (hcount : s.master.usMasterSndBufferCount ≠ 0) :
    (w.put (s.mem (s.master.sndBuf.addr s.master.sndPos))).Sends s 1 1 := by
  obtain ⟨x, xs, heq, hx, hxs⟩ := h
  have hpos : s.master.sndPos = x.sent.length := hx.pos
  have hlen : x.sent.length < x.frame.length := by
    have := hx.count
    omega
  have hbyte : s.mem (s.master.sndBuf.addr s.master.sndPos) = x.frame[x.sent.length] := by
    rw [hx.buf, hpos]
    exact hx.rest _ _ (Nat.le_refl _) (List.getElem?_eq_getElem hlen)
  have hput : (w.put (s.mem (s.master.sndBuf.addr s.master.sndPos))).transfers =
      { x with sent := x.sent ++ [x.frame[x.sent.length]] } :: xs := by
    rw [Wire.put, heq, hbyte]
  refine ⟨_, xs, hput, ?_, hxs⟩
  exact {
    closed := hx.closed
    sent := by
      have htake : x.sent ++ [x.frame[x.sent.length]] = x.frame.take (x.sent.length + 1) := by
        rw [← List.take_append_getElem hlen, ← List.prefix_iff_eq_take.mp hx.sent]
      exact htake ▸ List.take_prefix ..
    buf := hx.buf
    pos := by
      simp [hpos]
    count := by
      have := hx.count
      simp
      omega
    rest := fun i b hi hb => hx.rest i b (by simp at hi; omega) hb }

theorem set_snd (s : Bus) (j k : Nat) (v : UInt8) :
    (s.set (.ucMasterRTUSndBuf j) v).mem (.ucMasterRTUSndBuf k) =
      if k = j then v else s.mem (.ucMasterRTUSndBuf k) := by
  simp [Bus.set, Bus.mem]

/-- The send buffer once the address is in front of the PDU. -/
theorem sndFrame_addressed {reg n : UInt16} (h : Stored reg n 5 s) (d : UInt8) :
    (s.set (.ucMasterRTUSndBuf 0) d).sndFrame 6 = d :: readHoldingPDU reg n := by
  have hbyte : ∀ j v, j < 5 → (readHoldingPDU reg n)[j]? = some v →
      (s.set (.ucMasterRTUSndBuf 0) d).mem (.ucMasterRTUSndBuf (j + 1)) = v := by
    intro j v hj hv
    rw [set_snd, if_neg (Nat.succ_ne_zero j)]
    exact h j v hj hv
  have h0 : (s.set (.ucMasterRTUSndBuf 0) d).mem (.ucMasterRTUSndBuf 0) = d := by
    rw [set_snd, if_pos rfl]
  show [_, _, _, _, _, _] = [_, _, _, _, _, _]
  rw [List.cons.injEq, List.cons.injEq, List.cons.injEq, List.cons.injEq, List.cons.injEq,
    List.cons.injEq]
  exact ⟨h0, hbyte 0 _ (by decide) rfl, hbyte 1 _ (by decide) rfl, hbyte 2 _ (by decide) rfl,
    hbyte 3 _ (by decide) rfl, hbyte 4 _ (by decide) rfl, rfl⟩

/-- With address and checksum around it the PDU is the frame of its request. -/
theorem framed_bytes {d : UInt8} {reg n : UInt16} (h : Stored reg n 5 s) (i : Nat) (b : UInt8)
    (hb : (withCRC (d :: readHoldingPDU reg n))[i]? = some b) :
    (s.framed d 5).mem (.ucMasterRTUSndBuf i) = b := by
  have hframe := sndFrame_addressed h d
  unfold withCRC at hb
  rw [← hframe] at hb
  unfold Bus.framed
  rw [set_snd, set_snd]
  by_cases hi : i < 6
  · rw [if_neg (by omega), if_neg (by omega)]
    rw [List.getElem?_append_left (by simpa [Bus.sndFrame, Board.frame] using hi)] at hb
    rw [Bus.sndFrame, Board.frame, List.getElem?_map, List.getElem?_range hi] at hb
    exact Option.some.inj hb
  · rw [List.getElem?_append_right (by simpa [Bus.sndFrame, Board.frame] using hi)] at hb
    obtain ⟨hlt, hval⟩ := List.getElem?_eq_some_iff.mp hb
    have hlt' : i - 6 < 2 := by simpa [Bus.sndFrame, Board.frame] using hlt
    have hcase : i = 6 ∨ i = 7 := by omega
    rcases hcase with rfl | rfl
    · exact hval
    · exact hval

theorem sends_raw {len : Nat} (h : w.Awaits (.notRtuDatas len) s) :
    w.Sends (s.activate .notModbus len) 0 0 := by
  obtain ⟨x, xs, heq, hx, hxs⟩ := h
  obtain ⟨buf, hframe⟩ := hx.frame
  have hlen : x.frame.length = len := by simp [hframe, Request.frame]
  refine ⟨x, xs, heq, ?_, hxs⟩
  exact {
    closed := hx.closed
    sent := by
      rw [hx.sent]
      exact List.nil_prefix
    buf := by
      rw [hx.request]
      rfl
    pos := by
      rw [hx.sent]
      rfl
    count := by
      rw [hx.sent, hlen]
      rfl
    rest := hx.rest rfl }

theorem sends_rtu {d : UInt8} {reg n : UInt16} (h : w.Awaits (.readHoldingRegister d reg n) s)
    (hst : Stored reg n 5 s) : w.Sends ((s.framed d 5).activate .masterRTU (5 + 3)) 0 0 := by
  obtain ⟨x, xs, heq, hx, hxs⟩ := h
  obtain ⟨buf, hframe⟩ := hx.frame
  have hlen : x.frame.length = 8 := by simp [hframe, Request.frame, withCRC, readHoldingPDU]
  refine ⟨x, xs, heq, ?_, hxs⟩
  exact {
    closed := hx.closed
    sent := by
      rw [hx.sent]
      exact List.nil_prefix
    buf := by
      rw [hx.request]
      rfl
    pos := by
      rw [hx.sent]
      rfl
    count := by
      rw [hx.sent, hlen]
      rfl
    rest := by
      intro i b _ hb
      rw [hframe] at hb
      rw [hx.request]
      exact framed_bytes hst i b hb }

theorem sends_advance (h : w.Sends s 1 1) :
    w.Sends (Bus.exec t .incSndBufferCur s).2 0 1 := by
  obtain ⟨x, xs, heq, hx, hxs⟩ := h
  exact ⟨x, xs, heq, ⟨hx.closed, hx.sent, hx.buf, hx.pos, hx.count, hx.rest⟩, hxs⟩

theorem sends_decrement (h : w.Sends s 0 1) :
    w.Sends (Bus.exec t .decSndBufferCount s).2 0 0 := by
  obtain ⟨x, xs, heq, hx, hxs⟩ := h
  refine ⟨x, xs, heq, ⟨hx.closed, hx.sent, hx.buf, hx.pos, ?_, hx.rest⟩, hxs⟩
  have hcount := hx.count
  have hlen := hx.sent.length_le
  show s.master.usMasterSndBufferCount - 1 + x.sent.length = x.frame.length + 0
  omega

/-- The poll thread reads the flag of the request on hand. -/
theorem data_readFlag {d : UInt8} {n : Nat} (ht : t = pollThread)
    (hcond : WireCond tr s (.op t (.board (.load .mbSwitchFlag)) (s.mem .mbSwitchFlag)))
    (h : (Stage.sendingFrame d n).Data (wire tr) s) :
    Stage.Data (if s.mem .mbSwitchFlag ≠ 0 then .sendingRaw else .sendingRTU d n)
      ((wire tr).observe t (.board (.load .mbSwitchFlag)) (s.mem .mbSwitchFlag)) s := by
  obtain ⟨r, hr, hready, hdest, hlen⟩ := h
  have hkept : ((wire tr).observe t (.board (.load .mbSwitchFlag)) (s.mem .mbSwitchFlag)).Awaits r s := by
    refine hr.keepMem ?_ fun _ => rfl
    show (if t = pollThread then _ else _ : Wire).transfers = _
    split <;> rfl
  cases r with
  | notRtuDatas len =>
      have hflag : s.mem .mbSwitchFlag ≠ 0 := by
        rw [hready.1.2]
        decide
      rw [if_pos hflag]
      exact ⟨_, hkept, len, rfl, hready.2⟩
  | readHoldingRegister a reg k =>
      obtain ⟨ha, hlen', hst⟩ := hready
      have hmodbus : (wire tr).modbus := by
        obtain ⟨x, xs, heq, hx, -⟩ := hr
        exact ⟨x, by rw [heq]; rfl, by rw [hx.request]; rfl⟩
      rw [if_neg (not_not.mpr (hcond ht hmodbus))]
      exact ⟨_, hkept, reg, k, by rw [← ha, hdest], hst, hlen.symm.trans hlen'⟩

theorem data_handle {o : BusOp} (ho : o.Polls) (h : (wire tr).Settled) (x : BusAr o) :
    ((wire tr).observe t o x).Settled := by
  cases o with
  | board o =>
      cases o with
      | load a =>
          cases a with
          | mbSwitchFlag =>
              show Wire.Settled (if t = pollThread then _ else _)
              split <;> exact h
          | _ => exact h
      | loadHoldBuf k r => exact h
      | _ => exact absurd ho id
  | setDestAddress a => exact h
  | setErrorType e => exact h
  | getErrorType => exact h
  | rtuReceive => exact h
  | storeHoldBuf k r v => exact h
  | getDestAddress => exact h
  | requestIsBroadcast => exact h
  | getPDUSndLength => exact h
  | _ => exact absurd ho id

/-- A step of the thread that keeps the turn. -/
theorem data_active {l : Stage} {o : BusOp} (ht : l.home = idleStage t) (hok : l.Allows o)
    (hl : l ≠ l.home) (hnext : l.next o (Bus.exec t o s).1 ≠ l.home)
    (hcond : WireCond tr s (.op t o (Bus.exec t o s).1)) (h : l.Data (wire tr) s) :
    (l.next o (Bus.exec t o s).1).Data ((wire tr).observe t o (Bus.exec t o s).1)
      (Bus.exec t o s).2 := by
  cases hok with
  | control _ => exact absurd rfl hl
  | clear => exact absurd rfl hl
  | finish => exact absurd rfl hl
  | take => exact absurd rfl hl
  | poll => exact absurd rfl hl
  | enter => exact absurd rfl hl
  | issueRaw hlen => exact ⟨_, awaits_issueRaw h hlen hcond, rfl⟩
  | issueHold ha => exact ⟨_, awaits_issueHold h, rfl⟩
  | copyLoad => exact h
  | copyStore =>
      obtain ⟨r, hr, hlen⟩ := h
      exact ⟨r, hr.keepMem rfl fun i => Bus.mem_store (by simp) t _ s, hlen⟩
  | flag =>
      obtain ⟨r, hr, hlen⟩ := h
      exact ⟨r, hr.keepMem rfl fun i => Bus.mem_store (by simp) t _ s, hlen, rfl, Bus.mem_store_self ..⟩
  | length =>
      obtain ⟨r, hr, hlen, harmed⟩ := h
      exact ⟨r, hr.keepMem rfl fun i => Bus.mem_store (by simp) t _ s, hlen,
        ⟨harmed.1, (Bus.mem_store (by simp) t _ s).trans harmed.2⟩, Bus.mem_store_self ..⟩
  | rawPDU =>
      obtain ⟨r, hr, rfl, hready⟩ := h
      exact ⟨_, hr.keepMem rfl fun _ => rfl, rfl, hready⟩
  | address =>
      obtain ⟨r, hr, rfl⟩ := h
      exact ⟨_, hr.keepMem rfl fun _ => rfl, rfl, rfl, fun j v hj => absurd hj (Nat.not_lt_zero j)⟩
  | fill hk =>
      obtain ⟨r, hr, rfl, hdest, hst⟩ := h
      exact ⟨_, hr.keepMem rfl fun i => Bus.mem_store (by simp) t _ s, rfl, hdest, stored_fill hst hk⟩
  | holdPDU =>
      obtain ⟨r, hr, rfl, hdest, hst⟩ := h
      exact ⟨_, hr.keepMem rfl fun _ => rfl, rfl, hdest, rfl, hst⟩
  | post => exact absurd rfl hnext
  | getDest =>
      obtain ⟨r, hr, hready⟩ := h
      exact ⟨r, hr, hready, rfl⟩
  | getLength =>
      obtain ⟨r, hr, hready, hdest⟩ := h
      exact ⟨r, hr, hready, hdest, rfl⟩
  | readFlag => exact data_readFlag (eq_pollThread ht.symm) hcond h
  | sendRTU => exact absurd rfl hnext
  | readLength =>
      obtain ⟨r, hr, len, rfl, hlen⟩ := h
      have hfits : len < 256 := by
        obtain ⟨x, xs, -, hx, -⟩ := hr
        exact hx.fits len rfl
      have htoNat : (s.mem .mbNotRtuDataLen).toNat = len := by
        rw [hlen, UInt8.toNat_ofNat', Nat.mod_eq_of_lt hfits]
      refine ⟨_, hr, ?_⟩
      show Request.notRtuDatas len = .notRtuDatas (s.mem .mbNotRtuDataLen).toNat
      rw [htoNat]
  | sendRaw => exact absurd rfl hnext
  | handle ho =>
      have hpolling : Stage.polling.next o (Bus.exec t o s).1 = .polling := by
        cases o with
        | eventPost e => exact absurd ho id
        | _ => rfl
      rw [hpolling]
      exact data_handle ho h _
  | pass he =>
      refine absurd ?_ hnext
      rcases he with rfl | rfl <;> rfl
  | @complete e he =>
      show Stage.Data (if e ∈ finishEvents then .releasing else .pollIdle) _ _
      rw [if_pos he]
      exact h
  | release => exact absurd rfl hnext
  | sndState => exact h
  | count =>
      show Stage.Data (if s.master.usMasterSndBufferCount ≠ 0 then .putting else .ending) _ _
      by_cases hcount : s.master.usMasterSndBufferCount ≠ 0
      · rw [if_pos hcount]
        exact ⟨h, hcount⟩
      · rw [if_neg hcount]
        exact settled_of_sends h (not_not.mp hcount)
  | put => exact sends_put h.1 h.2
  | advance => exact sends_advance h
  | decrement => exact absurd rfl hnext
  | judge => exact h
  | setBroadcast => exact h
  | stop => exact h
  | xfwr => exact h
  | isBroadcast => exact h
  | convertDelay => exact absurd rfl hnext
  | respondTimeout => exact absurd rfl hnext

/-- Every step of a thread keeps what the turn knows. -/
theorem data_step {u u' : Turn} {o : BusOp} {x : BusAr o} (hmove : Move u t o x u')
    (hx : (Bus.exec t o s).1 = x) (hcond : WireCond tr s (.op t o x))
    (h : u.Data (wire tr) s) : u'.Data ((wire tr).observe t o x) (Bus.exec t o s).2 := by
  cases hmove with
  | idle ht hok hne =>
      subst hx
      refine (leavesRequest_idle ?_ hok hne hcond).data h
      rintro rfl
      cases ht
  | take => exact h
  | step ht hok hl hnext =>
      subst hx
      exact data_active ht hok hl hnext hcond h
  | post =>
      obtain ⟨r, hr, -, hready⟩ := h
      have hsame : LeavesRequest (wire tr) (wire tr) s (Bus.exec t (.eventPost .frameSent) s).2 :=
        .of_same rfl rfl rfl rfl rfl rfl
      exact ⟨r, hsame.awaits hr, hsame.ready hready⟩
  | @poll e =>
      have hsame : LeavesRequest (wire tr) (wire tr) s (Bus.exec pollThread (.eventRecv pollEvents) s).2 :=
        .of_same rfl rfl rfl rfl rfl rfl
      cases e with
      | frameSent =>
          obtain ⟨r, hr, hready⟩ := h
          exact ⟨r, hsame.awaits hr, hsame.ready hready⟩
      | _ => exact h
  | @sendRTU _ n d =>
      obtain ⟨r, hr, reg, k, rfl, hst, rfl⟩ := h
      have hidle : s.master.eRcvState = .idle := by
        by_contra hne
        simp [Bus.exec, hne] at hx
      have hexec : (Bus.exec t (.rtuSend d 5) s).2 = (s.framed d 5).activate .masterRTU (5 + 3) := by
        simp [Bus.exec, hidle]
      rw [hexec]
      exact sends_rtu hr hst
  | @sendRaw _ n =>
      obtain ⟨r, hr, rfl⟩ := h
      have hidle : s.master.eRcvState = .idle := by
        by_contra hne
        simp [Bus.exec, hne] at hx
      have hexec : (Bus.exec t (.sendNotDatas n) s).2 = s.activate .notModbus n := by
        simp [Bus.exec, hidle]
      rw [hexec]
      exact sends_raw hr
  | pass he =>
      rcases he with rfl | rfl
      · exact h
      · exact h
  | release => exact settled_finish h
  | enter => exact h
  | decrement => exact sends_decrement h
  | time hok =>
      cases hok with
      | convertDelay => exact h
      | respondTimeout => exact h

end Step

/-! ## Runs -/

@[simp] theorem wire_nil : wire [] = .start := rfl

theorem wire_snoc_op (tr : List (Label BusOp BusAr BusEv)) (t : Nat) (o : BusOp) (x : BusAr o) :
    wire (tr ++ [.op t o x]) = (wire tr).observe t o x := by
  rw [wire, List.foldl_append]
  rfl

theorem wire_snoc_env (tr : List (Label BusOp BusAr BusEv)) (e : BusEv) :
    wire (tr ++ [.env e]) = wire tr := by
  rw [wire, List.foldl_append]
  rfl

/-- The bus with so many rounds of the two master threads and these calls of
the others, from any contents of the board's memory. -/
def busStart (other : UInt8 → Option FunctionHandler) (polls transmits : Nat)
    (calls : Nat → List Call) (b : Board) : Config BusOp BusAr Bus :=
  ⟨⟨b, .enabled⟩, busThreads other polls transmits calls⟩

/-- **When every request is on the line as it was built.** -/
theorem requests_isolated {other : UInt8 → Option FunctionHandler}
    (hother : ∀ code h, other code = some h → ∀ frame len, (h frame len).Only BusOp.Handles)
    (polls transmits : Nat) (calls : Nat → List Call) (b : Board)
    {tr : List (Label BusOp BusAr BusEv)} {c : Config BusOp BusAr Bus}
    (hrun : Run Bus.system WireCond (busStart other polls transmits calls b) tr c) :
    Isolated (wire tr).transfers := by
  have hkeeps := hrun.keeps masterDiscipline (Q := fun t l => l = idleStage t)
    (I := fun tr s => ∃ u : Turn, masterDiscipline.locals idleStage tr = u.stages ∧
      Cycle u s.master ∧ u.Data (wire tr) s)
    (busThreads_follows hother polls transmits calls)
    ⟨.free, rfl, .enabled, nofun⟩ ?_ ?_
  · obtain ⟨u, -, -, hdata⟩ := hkeeps.1
    exact hdata.isolated
  · rintro tr s t o ⟨u, hlocals, hcycle, hdata⟩ hen hcond hok
    rw [hlocals] at hok ⊢
    obtain ⟨hanswers, u', hmove, hstages, hcycle'⟩ := hcycle.step hok hen
    refine ⟨hanswers, u', ?_, hcycle', ?_⟩
    · rw [Discipline.locals_snoc_op, hlocals]
      exact hstages
    · rw [wire_snoc_op]
      exact data_step hmove rfl hcond hdata
  · rintro tr s e ⟨u, hlocals, hcycle, hdata⟩ hen hcond
    rw [Discipline.locals_snoc_env, wire_snoc_env, hlocals]
    cases e with
    | rxByte v =>
        obtain rfl := hcycle.timer.mp hcond
        exact ⟨.timer, rfl, hcycle.rxByte v, hdata⟩
    | timerExpired =>
        obtain rfl := hcycle.timer.mp hen
        obtain ⟨e, hne, hcycle'⟩ := hcycle.timerExpired
        refine ⟨.event e, rfl, hcycle', ?_⟩
        cases e with
        | frameSent => exact absurd rfl hne
        | _ => exact hdata

/-- Thread 2 sets the motor, thread 3 reads a sensor. -/
def motorAndSensor (t : Nat) : List Call :=
  if t = 2 then [.setDcMotor] else if t = 3 then [.sensorRead 0] else []

theorem requests_isolated_run : ∃ tr c,
    Run Bus.system WireCond (busStart (fun _ => none) 3 15 motorAndSensor Board.reset) tr c ∧
      (wire tr).transfers.map Transfer.sent =
        [withCRC [11, 0x03, 0, 0, 0, 2], [0xBC, 0x07, 0x01, 0x00, 0xC4]] ∧
      Isolated (wire tr).transfers := by
  obtain ⟨tr, c, hrun, hsent⟩ := exists_run_of_endsWith Bus.system
    (fun tr s l => decide (WireCond tr s l))
    (List.replicate 27 (.thread 2) ++ List.replicate 6 (.thread 0) ++ List.replicate 39 (.thread 1) ++
      [.env .timerExpired] ++ List.replicate 6 (.thread 0) ++ List.replicate 2 (.thread 2) ++
      List.replicate 11 (.thread 3) ++ List.replicate 5 (.thread 0) ++ List.replicate 48 (.thread 1))
    (busStart (fun _ => none) 3 15 motorAndSensor Board.reset)
    (fun tr _ => decide ((wire tr).transfers.map Transfer.sent =
      [withCRC [11, 0x03, 0, 0, 0, 2], [0xBC, 0x07, 0x01, 0x00, 0xC4]]))
    (by decide +kernel)
  have hrun' := hrun.mono fun _ _ _ h => of_decide_eq_true h
  exact ⟨tr, c, hrun', of_decide_eq_true hsent,
    requests_isolated (fun _ _ h => absurd h (by simp)) 3 15 motorAndSensor Board.reset hrun'⟩

/-- Thread 2 sets the motor, thread 3 changes its speed meanwhile. -/
def motorTwice (t : Nat) : List Call :=
  if t = 2 then [.setDcMotor] else if t = 3 then [.aircleanMotorSet 2] else []

/-- The motor's frame is rebuilt while its request has the run resource: the line
carries the speed of the one call and, later, the checksum of the other. -/
theorem requests_isolated_counterexample : ∃ tr c,
    Run Bus.system anyStep (busStart (fun _ => none) 1 4 motorTwice Board.reset) tr c ∧
      ¬ Isolated (wire tr).transfers := by
  obtain ⟨tr, c, hrun, hbad⟩ := exists_run_of_endsWith Bus.system (fun _ _ _ => true)
    (List.replicate 27 (.thread 2) ++ List.replicate 19 (.thread 3) ++
      List.replicate 6 (.thread 0) ++ List.replicate 22 (.thread 1))
    (busStart (fun _ => none) 1 4 motorTwice Board.reset)
    (fun tr _ => decide (¬ Isolated (wire tr).transfers))
    (by decide +kernel)
  exact ⟨tr, c, hrun.any, of_decide_eq_true hbad⟩

end Aclean
