import Mathlib.Data.List.Forall2
import Aclean.Damaged

/-!
# Frame delivery on the display board

The interrupt handler of the display decides header, kind and end of a frame
byte by byte, on a line that carries other traffic as well, and the loop picks up
what it completes. Whatever comes in, the handler stays inside its buffers. And
what the loop picks up are the frames that were sent, if noise does not look like
a header and each frame is dealt with before the next one is complete.

A call of `cmd_uart_check` is taken in two steps: the frame is copied out, and
later, with bytes coming in meanwhile, the call is over.
-/

namespace Aclean

/-! ## What the handler writes -/

namespace SerialRx

/-- The elements of `rxd1_buffer` that the interrupt for this byte writes. -/
def rxWrites (udr1 : UInt8) (r : SerialRx) : List Nat :=
  if r.isrJ = 0 then if udr1 ≠ 0xF1 ∧ udr1 ≠ 0xF2 then [] else [0]
  else if r.isrCom = 1 ∧
      (udr1 ≠ 0xF1 ∧ r.rxd1Buffer 0 = 0xF1 ∨ udr1 ≠ 0xF2 ∧ r.rxd1Buffer 0 = 0xF2) then []
  else [r.isrCom.toNat]

/-- Those of `in_com_buff`. -/
def comWrites (udr1 : UInt8) (r : SerialRx) : List Nat :=
  if r.isrJ = 0 then []
  else if r.isrCom = 1 ∧
      (udr1 ≠ 0xF1 ∧ r.rxd1Buffer 0 = 0xF1 ∨ udr1 ≠ 0xF2 ∧ r.rxd1Buffer 0 = 0xF2) then []
  else if r.isrCom + 1 ≥ r.recDataNum then List.range r.recDataNum.toNat
  else []

/-- Nothing else is written. -/
theorem serialInt1Receive_writes (udr1 : UInt8) (r : SerialRx) (i : Nat) :
    (i ∉ r.rxWrites udr1 → (r.serialInt1Receive udr1).rxd1Buffer i = r.rxd1Buffer i) ∧
      (i ∉ r.comWrites udr1 → (r.serialInt1Receive udr1).inComBuff i = r.inComBuff i) := by
  unfold rxWrites comWrites serialInt1Receive
  by_cases hj : r.isrJ = 0
  · simp only [if_pos hj]
    split
    · exact ⟨fun _ => rfl, fun _ => rfl⟩
    · refine ⟨fun hi => ?_, fun _ => rfl⟩
      exact Function.update_of_ne (fun h => hi (List.mem_singleton.mpr h)) _ _
  · simp only [if_neg hj]
    split
    · exact ⟨fun _ => rfl, fun _ => rfl⟩
    · split
      · refine ⟨fun hi => ?_, fun hi => ?_⟩
        · exact Function.update_of_ne (fun h => hi (List.mem_singleton.mpr h)) _ _
        · exact if_neg fun h => hi (List.mem_range.mpr h)
      · refine ⟨fun hi => ?_, fun _ => rfl⟩
        exact Function.update_of_ne (fun h => hi (List.mem_singleton.mpr h)) _ _

/-- Inside a frame the counter is below its length, and that is at most 33. -/
def Bounded (r : SerialRx) : Prop := r.isrJ ≠ 0 → r.isrCom < r.recDataNum ∧ r.recDataNum ≤ 33

theorem Bounded.byte {r : SerialRx} (h : r.Bounded) (udr1 : UInt8) :
    (r.serialInt1Receive udr1).Bounded := by
  unfold serialInt1Receive
  by_cases hj : r.isrJ = 0
  · rw [if_pos hj]
    split
    · exact fun hne => absurd rfl hne
    · intro _
      by_cases h1 : udr1 = 0xF1
      · simp [h1]
      · simp [h1]
  · obtain ⟨hlt, hle⟩ := h hj
    rw [if_neg hj]
    split
    · exact fun hne => absurd rfl hne
    · dsimp only
      split
      · exact fun hne => absurd rfl hne
      · next hmore =>
          intro _
          exact ⟨UInt8.not_le.mp hmore, hle⟩

theorem Bounded.writes {r : SerialRx} (h : r.Bounded) (udr1 : UInt8) :
    (∀ i ∈ r.rxWrites udr1, i < 40) ∧ ∀ i ∈ r.comWrites udr1, i < 40 := by
  unfold rxWrites comWrites
  by_cases hj : r.isrJ = 0
  · simp only [if_pos hj]
    refine ⟨fun i hi => ?_, nofun⟩
    split at hi
    · cases hi
    · rw [List.mem_singleton.mp hi]
      decide
  · obtain ⟨hlt, hle⟩ := h hj
    have hlt' := UInt8.lt_iff_toNat_lt.mp hlt
    have hle' : r.recDataNum.toNat ≤ 33 := UInt8.le_iff_toNat_le.mp hle
    simp only [if_neg hj]
    split
    · exact ⟨nofun, nofun⟩
    · refine ⟨fun i hi => ?_, fun i hi => ?_⟩
      · rw [List.mem_singleton.mp hi]
        omega
      · split at hi
        · have := List.mem_range.mp hi
          omega
        · cases hi

/-- Inside a frame the counter has not reached its length, and whichever byte comes
next, no buffer is written outside its 40 elements. -/
structure Safe (r : SerialRx) : Prop where
  counter : r.isrJ ≠ 0 → r.isrCom < r.recDataNum
  rxd1Buffer : ∀ udr1, ∀ i ∈ r.rxWrites udr1, i < 40
  inComBuff : ∀ udr1, ∀ i ∈ r.comWrites udr1, i < 40

theorem Bounded.safe {r : SerialRx} (h : r.Bounded) : r.Safe where
  counter := fun hj => (h hj).1
  rxd1Buffer := fun udr1 => (h.writes udr1).1
  inComBuff := fun udr1 => (h.writes udr1).2

end SerialRx

/-! ## The loop -/

namespace Disp

/-- `cmd_uart_check` up to where it has copied the frame. -/
def pickUp (d : Disp) : Disp := { d with rx := d.rx.takeFrame }

/-- The rest of it, on the copy. -/
def actOn (rxBuffTmp : Nat → UInt8) (d : Disp) : Disp :=
  let d :=
    if rxBuffTmp 0 = 0xF1 ∧ rxBuffTmp 1 = 0xF1 then
      ({ d with work := f1Switch (rxBuffTmp 2) (rxBuffTmp 4) d.work }).deviceWorkModeCheck.answerF1
    else d
  if rxBuffTmp 0 = 0xF2 ∧ rxBuffTmp 1 = 0xF2 then
    ((d.takeF2 rxBuffTmp).deviceWorkModeCheck).faultCheck
  else d

theorem cmdUartCheck_eq (d : Disp) :
    d.cmdUartCheck = if d.rx.rxd1BuffCFlag = 0 then d else d.pickUp.actOn d.rx.inComBuff := rfl

/-- What acting on a frame can do to the receiver is to clear its flag. -/
theorem actOn_rx (rxBuffTmp : Nat → UInt8) (d : Disp) :
    (d.actOn rxBuffTmp).rx = d.rx ∨ (d.actOn rxBuffTmp).rx = { d.rx with rxd1BuffCFlag := 0 } := by
  have htake : ∀ d : Disp, ((d.takeF2 rxBuffTmp).deviceWorkModeCheck).faultCheck.rx = d.rx := by
    intro d
    rw [faultCheck_rx, deviceWorkModeCheck_rx]
    rfl
  unfold actOn
  simp only [apply_ite Disp.rx, htake, ite_self]
  split
  · have hanswer := answerF1_rx
      ({ d with work := f1Switch (rxBuffTmp 2) (rxBuffTmp 4) d.work }).deviceWorkModeCheck
    rwa [deviceWorkModeCheck_rx] at hanswer
  · exact .inl rfl

end Disp

/-- What happens on the display: a byte comes in, a call of `cmd_uart_check`
begins and takes the frame if there is one, the call under way ends. -/
inductive DispEvent where
  | byte (udr1 : UInt8)
  | check
  | finish
  deriving DecidableEq, Repr

/-- The display with its loop inside a call, that has this copy of a frame, or
outside. -/
structure DispLoop where
  disp : Disp
  rxBuffTmp : Option (Nat → UInt8)

namespace DispEvent

def bytes : List DispEvent → List UInt8
  | [] => []
  | byte b :: es => b :: bytes es
  | check :: es => bytes es
  | finish :: es => bytes es

def step : DispEvent → DispLoop → DispLoop
  | byte b, s => { s with disp := { s.disp with rx := s.disp.rx.serialInt1Receive b } }
  | check, s =>
      if s.rxBuffTmp.isSome ∨ s.disp.rx.rxd1BuffCFlag = 0 then s
      else ⟨s.disp.pickUp, some s.disp.rx.inComBuff⟩
  | finish, s =>
      match s.rxBuffTmp with
      | some rxBuffTmp => ⟨s.disp.actOn rxBuffTmp, none⟩
      | none => s

/-- The frame that is copied out. -/
def picked : DispEvent → DispLoop → List (Nat → UInt8)
  | check, s =>
      if s.rxBuffTmp.isSome ∨ s.disp.rx.rxd1BuffCFlag = 0 then [] else [s.disp.rx.inComBuff]
  | _, _ => []

def run (es : List DispEvent) (s : DispLoop) : DispLoop := es.foldl (fun s e => e.step s) s

/-- The frames that the calls of a run have taken, in order. -/
def pickups : List DispEvent → DispLoop → List (Nat → UInt8)
  | [], _ => []
  | e :: es, s => e.picked s ++ pickups es (e.step s)

/-- With nothing in between the two steps are the call. -/
theorem check_finish (d : Disp) : finish.step (check.step ⟨d, none⟩) = ⟨d.cmdUartCheck, none⟩ := by
  rw [Disp.cmdUartCheck_eq]
  by_cases hflag : d.rx.rxd1BuffCFlag = 0
  · simp [step, hflag]
  · simp [step, hflag]

end DispEvent

theorem SerialRx.Bounded.step {s : DispLoop} (h : s.disp.rx.Bounded) (e : DispEvent) :
    (e.step s).disp.rx.Bounded := by
  cases e with
  | byte b => exact h.byte b
  | check =>
      rw [DispEvent.step]
      split
      · exact h
      · exact h
  | finish =>
      cases hcopy : s.rxBuffTmp with
      | none =>
          rw [DispEvent.step, hcopy]
          exact h
      | some rxBuffTmp =>
          rw [DispEvent.step, hcopy]
          rcases s.disp.actOn_rx rxBuffTmp with hrx | hrx
          · dsimp only
            rw [hrx]
            exact h
          · dsimp only
            rw [hrx]
            exact h

theorem SerialRx.Bounded.run {s : DispLoop} (h : s.disp.rx.Bounded) (es : List DispEvent) :
    (DispEvent.run es s).disp.rx.Bounded := by
  induction es generalizing s with
  | nil => exact h
  | cons e es ih => exact ih (h.step e)

/-! ## The framer and the loop -/

/-- What the loop is for: it takes the last complete frame, unless it is still
busy with one. -/
structure FramerLoop where
  framer : Framer
  busy : Bool

namespace DispEvent

def onFramer : DispEvent → FramerLoop → FramerLoop
  | byte b, a => { a with framer := a.framer.byte b }
  | check, a => if a.busy = true ∨ a.framer.last = none then a else ⟨a.framer.taken, true⟩
  | finish, a => { a with busy := false }

def handed : DispEvent → FramerLoop → List (List UInt8)
  | check, a => if a.busy then [] else a.framer.last.toList
  | _, _ => []

/-- The frames that are handed to the loop, in order. -/
def handedOn : List DispEvent → FramerLoop → List (List UInt8)
  | [], _ => []
  | e :: es, a => e.handed a ++ handedOn es (e.onFramer a)

/-- No call ends while a frame waits: it might clear the flag. -/
def Orderly : List DispEvent → FramerLoop → Prop
  | [], _ => True
  | e :: es, a => (e = finish → a.busy = true → a.framer.last = none) ∧ Orderly es (e.onFramer a)

end DispEvent

/-- The copy holds the frame. -/
def CopyOf (fr : List UInt8) (rxBuffTmp : Nat → UInt8) : Prop :=
  ∀ i (h : i < fr.length), rxBuffTmp i = fr[i]

/-- The display does what the framer and the loop over it say. -/
structure FramerLoop.Refines (a : FramerLoop) (s : DispLoop) : Prop where
  ok : ∃ bs, a.framer.Ok bs
  rx : a.framer.Refines s.disp.rx
  busy : a.busy = s.rxBuffTmp.isSome

theorem Framer.Refines.waits {f : Framer} {r : SerialRx} (h : f.Refines r) :
    f.last = .none ↔ r.rxd1BuffCFlag = 0 := by
  constructor
  · exact h.none
  · intro hflag
    cases hlast : f.last with
    | none => rfl
    | some fr =>
        rw [(h.some fr hlast).1] at hflag
        exact absurd hflag (by decide)

namespace FramerLoop.Refines

variable {a : FramerLoop} {s : DispLoop}

theorem check (h : a.Refines s) :
    (DispEvent.check.onFramer a).Refines (DispEvent.check.step s) ∧
      List.Forall₂ CopyOf (DispEvent.check.handed a) (DispEvent.check.picked s) := by
  obtain ⟨bs, hok⟩ := h.ok
  have hidle : (a.busy = true ∨ a.framer.last = none) ↔
      (s.rxBuffTmp.isSome = true ∨ s.disp.rx.rxd1BuffCFlag = 0) := by
    rw [h.busy, h.rx.waits]
  rw [DispEvent.onFramer, DispEvent.step, DispEvent.handed, DispEvent.picked]
  by_cases hnone : a.busy = true ∨ a.framer.last = none
  · rw [if_pos hnone, if_pos (hidle.mp hnone), if_pos (hidle.mp hnone)]
    refine ⟨h, ?_⟩
    rcases hnone with hbusy | hlast
    · rw [if_pos hbusy]
      exact .nil
    · rw [hlast, Option.toList_none, ite_self]
      exact .nil
  · rw [if_neg hnone, if_neg (mt hidle.mpr hnone), if_neg (mt hidle.mpr hnone)]
    obtain ⟨hbusy, hlast⟩ := not_or.mp hnone
    obtain ⟨fr, hfr⟩ := Option.ne_none_iff_exists'.mp hlast
    have hflag : s.disp.rx.rxd1BuffCFlag ≠ 0 := fun h0 => hlast (h.rx.waits.mpr h0)
    have hcheck := h.rx.check
    rw [LinkEvent.onReceiver, if_neg hflag] at hcheck
    refine ⟨⟨⟨bs, hok.check⟩, hcheck, rfl⟩, ?_⟩
    rw [if_neg hbusy, hfr]
    exact .cons (h.rx.some fr hfr).2 .nil

theorem step (h : a.Refines s) (e : DispEvent)
    (horderly : e = .finish → a.busy = true → a.framer.last = none) :
    (e.onFramer a).Refines (e.step s) ∧ List.Forall₂ CopyOf (e.handed a) (e.picked s) := by
  cases e with
  | byte b =>
      obtain ⟨bs, hok⟩ := h.ok
      exact ⟨⟨⟨_, hok.byte b⟩, h.rx.byte hok b, h.busy⟩, .nil⟩
  | check => exact h.check
  | finish =>
      refine ⟨?_, .nil⟩
      cases hcopy : s.rxBuffTmp with
      | none =>
          rw [DispEvent.step, hcopy]
          exact ⟨h.ok, h.rx, by rw [hcopy]; rfl⟩
      | some rxBuffTmp =>
          rw [DispEvent.step, hcopy]
          have hbusy : a.busy = true := by rw [h.busy, hcopy]; rfl
          have hflag := h.rx.none (horderly rfl hbusy)
          have hrx : (s.disp.actOn rxBuffTmp).rx = s.disp.rx := by
            rcases s.disp.actOn_rx rxBuffTmp with hrx | hrx
            · exact hrx
            · rw [hrx, ← hflag]
          refine ⟨h.ok, ?_, rfl⟩
          show a.framer.Refines (s.disp.actOn rxBuffTmp).rx
          rw [hrx]
          exact h.rx

/-- A run without calls that end too late takes the frames that are handed on. -/
theorem run (h : a.Refines s) {es : List DispEvent} (horderly : DispEvent.Orderly es a) :
    List.Forall₂ CopyOf (DispEvent.handedOn es a) (DispEvent.pickups es s) := by
  induction es generalizing a s with
  | nil => exact .nil
  | cons e es ih =>
      obtain ⟨hnow, hlater⟩ := horderly
      obtain ⟨hnext, hcopies⟩ := h.step e hnow
      exact List.rel_append hcopies (ih hnext hlater)

end FramerLoop.Refines

/-! ## Silent bytes -/

/-- From what is held of a frame, the bytes lead on without completing one. -/
inductive Framer.Silent : List UInt8 → List UInt8 → List UInt8 → Prop where
  | nil {c : List UInt8} : Silent c [] c
  | cons {c c' c'' bs : List UInt8} {b : UInt8} (hbyte : ∀ l, Framer.byte b ⟨c, l⟩ = ⟨c', l⟩)
      (hrest : Silent c' bs c'') : Silent c (b :: bs) c''

theorem Framer.Silent.append {c c' c'' bs bs' : List UInt8} (h : Silent c bs c')
    (h' : Silent c' bs' c'') : Silent c (bs ++ bs') c'' := by
  induction h with
  | nil => exact h'
  | cons hbyte _ ih => exact .cons hbyte (ih h')

/-- Bytes that do not look like a header, and do not end like the first half of
one. -/
structure IsNoise (ns : List UInt8) : Prop where
  f1 : ¬ [0xF1, 0xF1] <:+: ns
  f2 : ¬ [0xF2, 0xF2] <:+: ns
  last : ∀ x, ns.getLast? = some x → x ≠ 0xF1 ∧ x ≠ 0xF2

theorem IsNoise.tail {b : UInt8} {ns : List UInt8} (h : IsNoise (b :: ns)) : IsNoise ns where
  f1 := fun hin => h.f1 (hin.trans (List.suffix_cons b ns).isInfix)
  f2 := fun hin => h.f2 (hin.trans (List.suffix_cons b ns).isInfix)
  last := by
    intro x hx
    refine h.last x ?_
    cases ns with
    | nil => cases hx
    | cons c ns => simpa using hx

theorem silent_noise : ∀ {ns : List UInt8}, IsNoise ns → Framer.Silent [] ns []
  | [], _ => .nil
  | [b], h => by
      have hb : ¬ (b = 0xF1 ∨ b = 0xF2) := not_or.mpr (h.last b rfl)
      exact .cons (fun l => if_neg hb) .nil
  | b :: c :: ns, h => by
      by_cases hb : b = 0xF1 ∨ b = 0xF2
      · have hc : c ≠ b := by
          rintro rfl
          rcases hb with rfl | rfl
          · exact h.f1 ⟨[], ns, rfl⟩
          · exact h.f2 ⟨[], ns, rfl⟩
        have hlone : Framer.Silent [b] (c :: ns) [] :=
          .cons (fun l => by simp [Framer.byte, hc]) (silent_noise h.tail.tail)
        exact .cons (fun l => if_pos hb) hlone
      · exact .cons (fun l => if_neg hb) (silent_noise h.tail)

/-- Behind two equal header bytes whatever comes belongs to the frame. -/
theorem silent_body {head : UInt8} {pre bs : List UInt8}
    (hlen : pre.length + bs.length + 2 < frameSize head) :
    Framer.Silent (head :: head :: pre) bs (head :: head :: (pre ++ bs)) := by
  induction bs generalizing pre with
  | nil =>
      rw [List.append_nil]
      exact .nil
  | cons b bs ih =>
      rw [List.length_cons] at hlen
      have hrest : Framer.Silent (head :: head :: (pre ++ [b])) bs
          (head :: head :: (pre ++ [b] ++ bs)) := ih (by simp; omega)
      rw [List.append_assoc] at hrest
      refine .cons (fun l => if_pos ?_) hrest
      simp
      omega

/-- The last byte of noise and a frame is the frame's. -/
theorem WholeFrame.split_last {fr bs ns : List UInt8} {z : UInt8} (h : WholeFrame fr)
    (hbytes : bs ++ [z] = ns ++ fr) : ∃ body, body ++ [z] = fr ∧ bs = ns ++ body := by
  obtain ⟨head, rest, rfl, -⟩ := h
  rcases List.eq_nil_or_concat (head :: head :: rest) with hnil | ⟨body, z', hfr⟩
  · exact absurd hnil (List.cons_ne_nil _ _)
  · rw [hfr, List.concat_eq_append, ← List.append_assoc] at hbytes
    obtain ⟨hes, hz⟩ := List.append_inj' hbytes rfl
    refine ⟨body, ?_, hes⟩
    rw [hfr, List.concat_eq_append, hz]

/-- A frame is silent up to its last byte, and complete with it. -/
theorem WholeFrame.silent {fr body : List UInt8} {z : UInt8} (h : WholeFrame fr)
    (hfr : body ++ [z] = fr) :
    Framer.Silent [] body body ∧ ∀ l, Framer.byte z ⟨body, l⟩ = ⟨[], some fr⟩ := by
  obtain ⟨head, bs, hbs, hhead, hlen⟩ := h
  have hsize := frameSize_ge head
  rw [hbs, List.length_cons, List.length_cons] at hlen
  rcases List.eq_nil_or_concat bs with rfl | ⟨ds, z', rfl⟩
  · simp at hlen
    omega
  · have hsplit : body ++ [z] = (head :: head :: ds) ++ [z'] := by simpa [hbs] using hfr
    obtain ⟨rfl, hz⟩ := List.append_inj' hsplit rfl
    obtain rfl : z = z' := by simpa using hz
    simp only [List.concat_eq_append, List.length_append, List.length_singleton] at hlen
    have hlt : ([] : List UInt8).length + ds.length + 2 < frameSize head := by simp; omega
    have hinside : Framer.Silent [head, head] ds (head :: head :: ds) := silent_body hlt
    have hsecond : Framer.Silent [head] (head :: ds) (head :: head :: ds) :=
      .cons (fun l => by simp [Framer.byte]) hinside
    refine ⟨.cons (fun l => if_pos hhead) hsecond, fun l => ?_⟩
    have hlast : ¬ (head :: ds).length + 2 < frameSize head := by simp; omega
    rw [← hfr]
    exact if_neg hlast

/-! ## Runs -/

namespace DispEvent

/-- Framer and loop behind these events. -/
def serve (es : List DispEvent) (a : FramerLoop) : FramerLoop :=
  es.foldl (fun a e => e.onFramer a) a

theorem handedOn_append (es es' : List DispEvent) (a : FramerLoop) :
    handedOn (es ++ es') a = handedOn es a ++ handedOn es' (serve es a) := by
  induction es generalizing a with
  | nil => rfl
  | cons e es ih => rw [List.cons_append, handedOn, handedOn, ih, List.append_assoc]; rfl

theorem orderly_append (es es' : List DispEvent) (a : FramerLoop) :
    Orderly (es ++ es') a ↔ Orderly es a ∧ Orderly es' (serve es a) := by
  induction es generalizing a with
  | nil => exact ⟨fun h => ⟨trivial, h⟩, And.right⟩
  | cons e es ih => rw [List.cons_append, Orderly, Orderly, ih, and_assoc]; rfl

/-- What events come to that lead from `c` to `c'` of a frame and complete none: a
check takes the frame `l` that waits, and the call under way, or the one that took
it, ends if there is a `finish` for it. -/
structure Settles (es : List DispEvent) (c c' : List UInt8) (l : Option (List UInt8))
    (busy : Bool) : Prop where
  orderly : Orderly es ⟨⟨c, l⟩, busy⟩
  handed : handedOn es ⟨⟨c, l⟩, busy⟩ = if .check ∈ es then l.toList else []
  framer : (serve es ⟨⟨c, l⟩, busy⟩).framer = ⟨c', if .check ∈ es then none else l⟩
  idle : (l ≠ none → [.check, .finish].Sublist es) → (busy = true → .finish ∈ es) →
    (serve es ⟨⟨c, l⟩, busy⟩).busy = false

namespace Settles

variable {es : List DispEvent} {c c' : List UInt8} {l : Option (List UInt8)} {busy : Bool}

theorem nil : Settles [] c c l busy where
  orderly := trivial
  handed := rfl
  framer := rfl
  idle := by
    intro _ hbusy
    cases busy with
    | false => rfl
    | true => exact absurd (hbusy rfl) List.not_mem_nil

theorem byte {c₁ : List UInt8} {b : UInt8} (hbyte : Framer.byte b ⟨c, l⟩ = ⟨c₁, l⟩)
    (h : Settles es c₁ c' l busy) : Settles (.byte b :: es) c c' l busy := by
  have hnext : (DispEvent.byte b).onFramer ⟨⟨c, l⟩, busy⟩ = ⟨⟨c₁, l⟩, busy⟩ := by
    rw [onFramer, hbyte]
  have hmem : ∀ e : DispEvent, e ≠ .byte b → (e ∈ DispEvent.byte b :: es ↔ e ∈ es) := by
    intro e he
    rw [List.mem_cons, or_iff_right he]
  have hserve : serve (.byte b :: es) ⟨⟨c, l⟩, busy⟩ = serve es ⟨⟨c₁, l⟩, busy⟩ := by
    rw [serve, List.foldl_cons, hnext, serve]
  refine ⟨⟨nofun, hnext ▸ h.orderly⟩, ?_, ?_, fun htaken hbusy => ?_⟩
  · rw [handedOn, hnext, h.handed]
    simp only [hmem .check nofun]
    rfl
  · rw [hserve, h.framer]
    simp only [hmem .check nofun]
  · rw [hserve]
    refine h.idle (fun hl => ?_) fun hb => (hmem .finish nofun).mp (hbusy hb)
    cases htaken hl with
    | cons _ hsub => exact hsub

/-- A check that finds nothing, or comes during a call. -/
theorem check_idle (h : Settles es c c' none busy) : Settles (.check :: es) c c' none busy := by
  have hnext : DispEvent.check.onFramer ⟨⟨c, none⟩, busy⟩ = ⟨⟨c, none⟩, busy⟩ := if_pos (.inr rfl)
  have hserve : serve (.check :: es) ⟨⟨c, none⟩, busy⟩ = serve es ⟨⟨c, none⟩, busy⟩ := by
    rw [serve, List.foldl_cons, hnext, serve]
  have horderly : Orderly es (DispEvent.check.onFramer ⟨⟨c, none⟩, busy⟩) := by
    rw [hnext]
    exact h.orderly
  refine ⟨⟨nofun, horderly⟩, ?_, ?_, fun _ hbusy => ?_⟩
  · rw [handedOn, hnext, h.handed, DispEvent.handed]
    simp
  · rw [hserve, h.framer]
    simp
  · rw [hserve]
    exact h.idle (fun hl => absurd rfl hl) fun hb => by simpa using hbusy hb

/-- The check that takes the frame. -/
theorem check_takes {fr : List UInt8} (h : Settles es c c' none true) :
    Settles (.check :: es) c c' (some fr) false := by
  refine ⟨⟨nofun, h.orderly⟩, ?_, ?_, fun htaken _ => ?_⟩
  · show [fr] ++ handedOn es ⟨⟨c, none⟩, true⟩ = _
    rw [h.handed]
    simp
  · show (serve es ⟨⟨c, none⟩, true⟩).framer = _
    rw [h.framer]
    simp
  · refine h.idle (fun hl => absurd rfl hl) fun _ => ?_
    cases htaken (Option.some_ne_none fr) with
    | cons _ hsub => exact hsub.subset (by simp)
    | cons_cons _ hsub => exact hsub.subset (by simp)

theorem finish (hone : l = none ∨ busy = false) (h : Settles es c c' l false) :
    Settles (.finish :: es) c c' l busy := by
  refine ⟨⟨fun _ hbusy => ?_, h.orderly⟩, ?_, ?_, fun htaken _ => ?_⟩
  · rcases hone with hl | hb
    · exact hl
    · rw [hb] at hbusy
      cases hbusy
  · show handedOn es ⟨⟨c, l⟩, false⟩ = _
    rw [h.handed]
    simp
  · show (serve es ⟨⟨c, l⟩, false⟩).framer = _
    rw [h.framer]
    simp
  · refine h.idle (fun hl => ?_) nofun
    cases htaken hl with
    | cons _ hsub => exact hsub

end Settles

/-- With one frame at most to be dealt with, in the buffer or in a call. -/
theorem settles {es : List DispEvent} {c c' : List UInt8} (h : Framer.Silent c (bytes es) c')
    {l : Option (List UInt8)} {busy : Bool} (hone : l = none ∨ busy = false) :
    Settles es c c' l busy := by
  induction es generalizing c l busy with
  | nil =>
      cases h
      exact .nil
  | cons e es ih =>
      cases e with
      | byte b =>
          cases h with
          | cons hbyte hrest => exact .byte (hbyte l) (ih hrest hone)
      | check =>
          cases l with
          | none => exact .check_idle (ih h hone)
          | some fr =>
              obtain rfl : busy = false := hone.resolve_left (Option.some_ne_none fr)
              exact .check_takes (ih h (.inl rfl))
      | finish => exact .finish hone (ih h (.inr rfl))

end DispEvent

/-! ## Frames between noise -/

/-- What comes in and what the loop does about it: frames, noise in front of each
and behind the last, and a call of `cmd_uart_check` for each frame before the next
one is complete. The flag tells that a frame waits already. -/
inductive Traffic : Bool → List (List UInt8) → List DispEvent → Prop where
  | noise {waiting : Bool} {es : List DispEvent} (hnoise : IsNoise (DispEvent.bytes es))
      (hserved : waiting = true → .check ∈ es) : Traffic waiting [] es
  | frame {waiting : Bool} {ns fr : List UInt8} {frames : List (List UInt8)}
      {es es' : List DispEvent} {z : UInt8} (hnoise : IsNoise ns) (hframe : WholeFrame fr)
      (hbytes : DispEvent.bytes es ++ [z] = ns ++ fr)
      (hserved : waiting = true → [.check, .finish].Sublist es) (hrest : Traffic true frames es') :
      Traffic waiting (fr :: frames) (es ++ .byte z :: es')

/-- All frames are handed on, none twice, and no call ends too late. -/
theorem Traffic.delivers {waiting : Bool} {frames : List (List UInt8)} {es : List DispEvent}
    (h : Traffic waiting frames es) {l : Option (List UInt8)} (hl : l.isSome = waiting) :
    DispEvent.Orderly es ⟨⟨[], l⟩, false⟩ ∧
      DispEvent.handedOn es ⟨⟨[], l⟩, false⟩ = l.toList ++ frames := by
  induction h generalizing l with
  | @noise waiting es hnoise hserved =>
      have hsettles := DispEvent.settles (l := l) (silent_noise hnoise) (.inr rfl)
      refine ⟨hsettles.orderly, ?_⟩
      rw [hsettles.handed, List.append_nil]
      by_cases hcheck : .check ∈ es
      · rw [if_pos hcheck]
      · rw [if_neg hcheck]
        cases l with
        | none => rfl
        | some fr => exact absurd (hserved hl.symm) hcheck
  | @frame waiting ns fr frames es es' z hnoise hframe hbytes hserved _ ih =>
      -- The frame up to its last byte goes with the noise in front of it.
      obtain ⟨body, hbody, hes⟩ := hframe.split_last hbytes
      obtain ⟨hpart, hlast⟩ := hframe.silent hbody
      have hsilent : Framer.Silent [] (DispEvent.bytes es) body := by
        rw [hes]
        exact (silent_noise hnoise).append hpart
      have hsettles := DispEvent.settles (l := l) hsilent (.inr rfl)
      have htaken : l ≠ none → [.check, .finish].Sublist es := by
        intro hne
        exact hserved (hl.symm.trans (Option.isSome_iff_ne_none.mpr hne))
      have hidle := hsettles.idle htaken nofun
      have hcheck : (if .check ∈ es then l.toList else []) = l.toList := by
        cases l with
        | none => exact ite_self _
        | some fr' => exact if_pos ((htaken (Option.some_ne_none fr')).subset (by simp))
      -- With the last byte it waits, and the loop is idle.
      have hnext : (DispEvent.byte z).onFramer (DispEvent.serve es ⟨⟨[], l⟩, false⟩) =
          ⟨⟨[], some fr⟩, false⟩ := by
        rw [DispEvent.onFramer, hidle, hsettles.framer, hlast]
      obtain ⟨horderly, hhanded⟩ := ih (l := some fr) rfl
      constructor
      · rw [DispEvent.orderly_append, DispEvent.Orderly, hnext]
        exact ⟨hsettles.orderly, nofun, horderly⟩
      · rw [DispEvent.handedOn_append, DispEvent.handedOn, hnext, hhanded, hsettles.handed, hcheck]
        rfl

/-- From idle the receiver is safe whatever comes in, and of frames between noise
the loop takes each, in order and byte for byte. -/
theorem display_receiver_exact {d : Disp} (hidle : d.rx.isrJ = 0) :
    (∀ es, (DispEvent.run es ⟨d, none⟩).disp.rx.Safe) ∧
      (d.rx.rxd1BuffCFlag = 0 → ∀ frames es, Traffic false frames es →
        List.Forall₂ CopyOf frames (DispEvent.pickups es ⟨d, none⟩)) := by
  constructor
  · intro es
    have hbounded : d.rx.Bounded := fun hne => absurd hidle hne
    have hrun := SerialRx.Bounded.run (s := ⟨d, none⟩) hbounded es
    exact hrun.safe
  · intro hflag frames es htraffic
    have hrx : Framer.Refines ⟨[], none⟩ d.rx := ⟨fun _ => hidle, nofun, fun _ => hflag, nofun⟩
    have hok : Framer.Ok [] ⟨[], none⟩ := ⟨nofun, nofun, nofun, List.nil_suffix, nofun⟩
    have hrefines : FramerLoop.Refines ⟨⟨[], none⟩, false⟩ ⟨d, none⟩ := ⟨⟨[], hok⟩, hrx, rfl⟩
    obtain ⟨horderly, hhanded⟩ := htraffic.delivers (l := none) rfl
    have hcopies := hrefines.run horderly
    rw [hhanded] at hcopies
    exact hcopies

section Two

open DispEvent

/-- A frame that ends like a header behind noise, then one behind a lone header
byte, both taken. -/
theorem display_receiver_exact_two :
    List.Forall₂ CopyOf [[0xF1, 0xF1, 2, 0, 1, 0xF1, 0xF1], [0xF1, 0xF1, 7, 0, 3, 0xF2, 0xF2]]
      (pickups
        ([byte 0x55, byte 0xF1, byte 0xF1, check, byte 2, byte 0, byte 1, byte 0xF1] ++ byte 0xF1 ::
        ([byte 0xF2, byte 0xAA, byte 0xF1, check, byte 0xF1, byte 7, byte 0, finish, byte 3,
          byte 0xF2] ++ byte 0xF2 ::
        [byte 0xAA, check])) ⟨Disp.reset, none⟩) := by
  have hfirst : IsNoise [0x55] :=
    ⟨by decide, by decide, by rintro x ⟨⟩; decide⟩
  have hlone : IsNoise [0xF2, 0xAA] :=
    ⟨by decide, by decide, by rintro x ⟨⟩; decide⟩
  have hrest : IsNoise (DispEvent.bytes [.byte 0xAA, .check]) :=
    ⟨by decide, by decide, by rintro x ⟨⟩; decide⟩
  have hwhole : ∀ a b c d e : UInt8, WholeFrame [0xF1, 0xF1, a, b, c, d, e] :=
    fun a b c d e => ⟨0xF1, [a, b, c, d, e], rfl, .inl rfl, rfl⟩
  refine (display_receiver_exact rfl).2 rfl _ _ ?_
  refine .frame hfirst (hwhole 2 0 1 0xF1 0xF1) rfl nofun ?_
  refine .frame hlone (hwhole 7 0 3 0xF2 0xF2) rfl (fun _ => by decide) ?_
  exact .noise hrest fun _ => by decide

end Two

end Aclean
