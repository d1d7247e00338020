import Aclean.Modbus
import Aclean.SettingsRange
import Aclean.StatePush

/-!
# Damaged frames

Neither board looks at the checksum of a frame on the RS485 line. On the main
board that is not all: what was received lies over older bytes, and these may
make up a frame that is cut short. The display's receiver hands on whole frames
only, each a piece of the stream as it came.
-/

namespace Aclean

open Board Prog

/-! ## Frames in a stream -/

/-- How many bytes a frame has, by its first. -/
def frameSize (head : UInt8) : Nat := if head = 0xF1 then 7 else 33

/-- A complete frame: two equal header bytes and as many more as belong to them. -/
def WholeFrame (fr : List UInt8) : Prop :=
  ∃ head bs, fr = head :: head :: bs ∧ (head = 0xF1 ∨ head = 0xF2) ∧ fr.length = frameSize head

/-- What the display's receiver is for: the bytes of the frame that is coming
in, and the last frame that was complete and that nobody has taken yet. -/
structure Framer where
  current : List UInt8
  last : Option (List UInt8)

namespace Framer

/-- Only a frame with two equal header bytes is begun. -/
def byte (b : UInt8) (f : Framer) : Framer :=
  match f.current with
  | [] => if b = 0xF1 ∨ b = 0xF2 then { f with current := [b] } else f
  | [head] => { f with current := if b = head then [head, b] else [] }
  | head :: bs =>
      if bs.length + 2 < frameSize head then { f with current := head :: bs ++ [b] }
      else ⟨[], some (head :: bs ++ [b])⟩

def taken (f : Framer) : Framer := { f with last := none }

end Framer

/-- A byte comes in on the display's line, or its loop looks for a frame. -/
inductive LinkEvent where
  | byte (b : UInt8)
  | check
  deriving DecidableEq, Repr

namespace LinkEvent

def onFramer : LinkEvent → Framer → Framer
  | byte b, f => f.byte b
  | check, f => f.taken

/-- What the event does to the receiver; of a check, what `cmd_uart_check`
leaves of it. -/
def onReceiver : LinkEvent → SerialRx → SerialRx
  | byte b, r => r.serialInt1Receive b
  | check, r => if r.rxd1BuffCFlag = 0 then r else r.takeFrame

def bytes : List LinkEvent → List UInt8
  | [] => []
  | byte b :: es => b :: bytes es
  | check :: es => bytes es

def framer (es : List LinkEvent) : Framer := es.foldl (fun f e => e.onFramer f) ⟨[], none⟩

/-- The display's receiver after these events, from power-on. -/
def receiver (es : List LinkEvent) : SerialRx := es.foldl (fun r e => e.onReceiver r) Disp.reset.rx

end LinkEvent

theorem deviceWorkModeCheck_rx (d : Disp) : d.deviceWorkModeCheck.rx = d.rx := by
  obtain ⟨w, sc, hredrawn⟩ := redrawn_deviceWorkModeCheck d
  rw [hredrawn]

theorem faultCheck_rx (d : Disp) : d.faultCheck.rx = d.rx := by
  obtain ⟨w, sc, hredrawn⟩ := redrawn_faultCheck d
  rw [hredrawn]

/-- A report clears the receive flag. -/
theorem answerF1_rx (d : Disp) :
    d.answerF1.rx = d.rx ∨ d.answerF1.rx = { d.rx with rxd1BuffCFlag := 0 } := by
  unfold Disp.answerF1
  cases d.pending with
  | some r => exact .inr rfl
  | none =>
      dsimp only
      split
      · exact .inr rfl
      · exact .inl rfl

theorem cmdUartCheck_rx (d : Disp) : d.cmdUartCheck.rx = LinkEvent.check.onReceiver d.rx := by
  have hanswer : ∀ d : Disp, d.rx.rxd1BuffCFlag = 0 → d.answerF1.rx = d.rx := by
    intro d hflag
    rcases answerF1_rx d with h | h
    · exact h
    · rw [h, ← hflag]
  have htake : ∀ rx (d : Disp), (Disp.takeF2 rx d).rx = d.rx := fun _ _ => rfl
  rw [LinkEvent.onReceiver]
  by_cases hflag : d.rx.rxd1BuffCFlag = 0
  · rw [Disp.cmdUartCheck, if_pos hflag, if_pos hflag]
  · rw [Disp.cmdUartCheck, if_neg hflag, if_neg hflag]
    simp only [apply_ite Disp.rx, faultCheck_rx, deviceWorkModeCheck_rx, htake]
    rw [hanswer _ (by rw [deviceWorkModeCheck_rx]; rfl), deviceWorkModeCheck_rx, ite_self, ite_self]

/-! ## The display's receiver -/

/-- The framer after the stream `bs`: its frames are pieces of it. -/
structure Framer.Ok (bs : List UInt8) (f : Framer) : Prop where
  head : ∀ head rest, f.current = head :: rest → head = 0xF1 ∨ head = 0xF2
  second : ∀ head b rest, f.current = head :: b :: rest → b = head
  size : ∀ head rest, f.current = head :: rest → f.current.length < frameSize head
  current : f.current <:+ bs
  last : ∀ fr, f.last = some fr → WholeFrame fr ∧ fr <:+: bs

theorem frameSize_ge (head : UInt8) : 7 ≤ frameSize head := by
  unfold frameSize
  split
  · exact Nat.le_refl 7
  · decide

theorem suffix_snoc {xs ys : List UInt8} (h : xs <:+ ys) (b : UInt8) : xs ++ [b] <:+ ys ++ [b] := by
  obtain ⟨zs, rfl⟩ := h
  exact ⟨zs, (List.append_assoc ..).symm⟩

theorem Framer.Ok.byte {bs : List UInt8} {f : Framer} (h : f.Ok bs) (b : UInt8) :
    (f.byte b).Ok (bs ++ [b]) := by
  obtain ⟨current, last⟩ := f
  have hsuffix := suffix_snoc h.current b
  have hlast : ∀ fr, last = some fr → WholeFrame fr ∧ fr <:+: bs ++ [b] := fun fr hfr =>
    (h.last fr hfr).imp_right fun hin => hin.trans (List.prefix_append _ _).isInfix
  unfold Framer.byte
  rcases current with _ | ⟨head, _ | ⟨second, rest⟩⟩
  · by_cases hb : b = 0xF1 ∨ b = 0xF2
    · simp only [if_pos hb]
      refine ⟨?_, nofun, ?_, List.suffix_append _ _, hlast⟩
      · rintro head rest ⟨⟩
        exact hb
      · rintro head rest ⟨⟩
        exact Nat.lt_of_lt_of_le (by decide : 1 < 7) (frameSize_ge _)
    · simp only [if_neg hb]
      exact ⟨nofun, nofun, nofun, List.nil_suffix, hlast⟩
  · by_cases hb : b = head
    · subst hb
      simp only [if_true]
      refine ⟨?_, ?_, ?_, hsuffix, hlast⟩
      · rintro head rest ⟨⟩
        exact h.head _ _ rfl
      · rintro head b' rest ⟨⟩
        rfl
      · rintro head rest ⟨⟩
        exact Nat.lt_of_lt_of_le (by decide : 2 < 7) (frameSize_ge _)
    · simp only [if_neg hb]
      exact ⟨nofun, nofun, nofun, List.nil_suffix, hlast⟩
  · have hhead := h.head head _ rfl
    have hsecond := h.second head second rest rfl
    have hsize := h.size head _ rfl
    by_cases hmore : (second :: rest).length + 2 < frameSize head
    · simp only [if_pos hmore]
      refine ⟨?_, ?_, ?_, hsuffix, hlast⟩
      · rintro head rest ⟨⟩
        exact hhead
      · rintro head b' rest ⟨⟩
        exact hsecond
      · rintro head rest ⟨⟩
        simpa using hmore
    · simp only [if_neg hmore]
      refine ⟨nofun, nofun, nofun, List.nil_suffix, ?_⟩
      rintro fr ⟨⟩
      refine ⟨⟨head, rest ++ [b], ?_, hhead, ?_⟩, hsuffix.isInfix⟩
      · rw [hsecond]
        rfl
      · simp at hmore hsize ⊢
        omega

theorem Framer.Ok.check {bs : List UInt8} {f : Framer} (h : f.Ok bs) : f.taken.Ok bs :=
  ⟨h.head, h.second, h.size, h.current, nofun⟩

/-- The frames that are handed on are whole, and pieces of the stream as it came. -/
theorem framer_ok (es : List LinkEvent) : (LinkEvent.framer es).Ok (LinkEvent.bytes es) := by
  have hrun : ∀ (es : List LinkEvent) (bs : List UInt8) (f : Framer), f.Ok bs →
      (es.foldl (fun f e => e.onFramer f) f).Ok (bs ++ LinkEvent.bytes es) := by
    intro es
    induction es with
    | nil =>
        intro bs f h
        simpa [LinkEvent.bytes] using h
    | cons e es ih =>
        intro bs f h
        cases e with
        | byte b =>
            have hrest := ih (bs ++ [b]) (f.byte b) (h.byte b)
            rwa [List.append_assoc] at hrest
        | check => exact ih bs f.taken h.check
  exact hrun es [] ⟨[], none⟩ ⟨nofun, nofun, nofun, List.nil_suffix, nofun⟩

/-- The receiver does what the framer says. -/
structure Framer.Refines (f : Framer) (r : SerialRx) : Prop where
  idle : f.current = [] → r.isrJ = 0
  inside : ∀ head rest, f.current = head :: rest → Receiving (frameSize head) f.current r
  none : f.last = none → r.rxd1BuffCFlag = 0
  some : ∀ fr, f.last = some fr → r.rxd1BuffCFlag = 1 ∧ ∀ i (h : i < fr.length), r.inComBuff i = fr[i]

/-- A byte that does not end a frame leaves the one handed on before. -/
theorem serialInt1Receive_pending {r : SerialRx} {b : UInt8}
    (h : r.isrJ = 0 ∨ r.isrCom + 1 < r.recDataNum ∨
      r.isrCom = 1 ∧ (b ≠ 0xF1 ∧ r.rxd1Buffer 0 = 0xF1 ∨ b ≠ 0xF2 ∧ r.rxd1Buffer 0 = 0xF2)) :
    (r.serialInt1Receive b).rxd1BuffCFlag = r.rxd1BuffCFlag ∧
      (r.serialInt1Receive b).inComBuff = r.inComBuff := by
  unfold SerialRx.serialInt1Receive
  split
  · split
    · exact ⟨rfl, rfl⟩
    · exact ⟨rfl, rfl⟩
  · next hj =>
      split
      · exact ⟨rfl, rfl⟩
      · next hhead =>
          have hmore := (h.resolve_left hj).resolve_right hhead
          rw [if_neg (UInt8.not_le.mpr hmore)]
          exact ⟨rfl, rfl⟩

theorem Framer.Refines.keep {f f' : Framer} {r r' : SerialRx} (h : f.Refines r)
    (hidle : f'.current = [] → r'.isrJ = 0)
    (hinside : ∀ head rest, f'.current = head :: rest → Receiving (frameSize head) f'.current r')
    (hlast : f'.last = f.last)
    (hpending : r'.rxd1BuffCFlag = r.rxd1BuffCFlag ∧ r'.inComBuff = r.inComBuff) : f'.Refines r' := by
  obtain ⟨hflag, hcom⟩ := hpending
  refine ⟨hidle, hinside, ?_, ?_⟩
  · rw [hlast, hflag]
    exact h.none
  · rw [hlast, hflag, hcom]
    exact h.some

section Byte

variable {bs : List UInt8} {head : UInt8} {last : Option (List UInt8)} {r : SerialRx}

/-- A byte between frames. -/
theorem Framer.Refines.byte_idle (h : Framer.Refines ⟨[], last⟩ r) (b : UInt8) :
    (Framer.byte b ⟨[], last⟩).Refines (r.serialInt1Receive b) := by
  have hidle := h.idle rfl
  have hpending := serialInt1Receive_pending (b := b) (.inl hidle)
  unfold Framer.byte
  by_cases hb : b = 0xF1 ∨ b = 0xF2
  · simp only [if_pos hb]
    refine h.keep (fun hnil => absurd hnil (List.cons_ne_nil _ _)) ?_ rfl hpending
    rintro head rest ⟨⟩
    exact receiving_head hidle hb
  · simp only [if_neg hb]
    refine h.keep (fun _ => ?_) ?_ rfl hpending
    · rw [SerialRx.serialInt1Receive, if_pos hidle, if_pos (not_or.mp hb)]
    · rintro head rest ⟨⟩

/-- The second byte, which has to be the first once more. -/
theorem Framer.Refines.byte_second (hok : Framer.Ok bs ⟨[head], last⟩)
    (h : Framer.Refines ⟨[head], last⟩ r) (b : UInt8) :
    (Framer.byte b ⟨[head], last⟩).Refines (r.serialInt1Receive b) := by
  have hin := h.inside head [] rfl
  have hhead := hok.head head [] rfl
  have hcom : r.isrCom = 1 := UInt8.toNat_inj.mp hin.com
  have hfirst : r.rxd1Buffer 0 = head := hin.bytes 0 Nat.one_pos
  unfold Framer.byte
  by_cases hb : b = head
  · subst hb
    have hnum : 2 < frameSize b := Nat.lt_of_lt_of_le (by decide) (frameSize_ge b)
    have hmore : r.isrCom + 1 < r.recDataNum := by
      rw [hcom, UInt8.lt_iff_toNat_lt, hin.num]
      exact hnum
    simp only [if_true]
    have hpending := serialInt1Receive_pending (b := b) (.inr (.inl hmore))
    refine h.keep (fun hnil => absurd hnil (List.cons_ne_nil _ _)) ?_ rfl hpending
    rintro head rest ⟨⟩
    exact hin.push (List.cons_ne_nil _ _) (fun x hx => List.head_eq_of_cons_eq hx) hnum
  · have hbad : b ≠ 0xF1 ∧ r.rxd1Buffer 0 = 0xF1 ∨ b ≠ 0xF2 ∧ r.rxd1Buffer 0 = 0xF2 := by
      rcases hhead with rfl | rfl
      · exact .inl ⟨hb, hfirst⟩
      · exact .inr ⟨hb, hfirst⟩
    simp only [if_neg hb]
    refine h.keep (fun _ => ?_) ?_ rfl (serialInt1Receive_pending (.inr (.inr ⟨hcom, hbad⟩)))
    · rw [SerialRx.serialInt1Receive, if_neg hin.inside, if_pos ⟨hcom, hbad⟩]
    · rintro head rest ⟨⟩

/-- A byte behind the header; the last one hands the frame on. -/
theorem Framer.Refines.byte_inside {second : UInt8} {rest : List UInt8}
    (hok : Framer.Ok bs ⟨head :: second :: rest, last⟩)
    (h : Framer.Refines ⟨head :: second :: rest, last⟩ r) (b : UInt8) :
    (Framer.byte b ⟨head :: second :: rest, last⟩).Refines (r.serialInt1Receive b) := by
  have hin := h.inside head _ rfl
  have hsize := hok.size head _ rfl
  have hne : ∀ x, head :: second :: rest = [x] → b = x := by
    rintro x ⟨⟩
  unfold Framer.byte
  by_cases hmore : (second :: rest).length + 2 < frameSize head
  · have hcount : r.isrCom + 1 < r.recDataNum := by
      have hlt := r.recDataNum.toNat_lt
      have hnum := hin.num
      have hcom := hin.com
      rw [UInt8.lt_iff_toNat_lt, UInt8.toNat_add, hcom, hnum]
      simp at hmore ⊢
      omega
    simp only [if_pos hmore]
    have hpending := serialInt1Receive_pending (b := b) (.inr (.inl hcount))
    refine h.keep (fun hnil => absurd hnil (List.cons_ne_nil _ _)) ?_ rfl hpending
    rintro head rest ⟨⟩
    exact hin.push (List.cons_ne_nil _ _) hne hmore
  · simp only [if_neg hmore]
    have hdone : (head :: second :: rest).length + 1 = frameSize head := by
      simp at hmore hsize ⊢
      omega
    have hreceived := hin.finish (List.cons_ne_nil _ _) hne hdone
    refine ⟨fun _ => hreceived.idle, ?_, fun hlast => absurd hlast (Option.some_ne_none _), ?_⟩
    · rintro head rest ⟨⟩
    · rintro fr ⟨⟩
      exact ⟨hreceived.flag, hreceived.bytes⟩

end Byte

theorem Framer.Refines.byte {bs : List UInt8} {f : Framer} {r : SerialRx} (hok : f.Ok bs)
    (h : f.Refines r) (b : UInt8) : (f.byte b).Refines (r.serialInt1Receive b) := by
  obtain ⟨current, last⟩ := f
  rcases current with _ | ⟨head, _ | ⟨second, rest⟩⟩
  · exact h.byte_idle b
  · exact h.byte_second hok b
  · exact h.byte_inside hok b

theorem Framer.Refines.check {f : Framer} {r : SerialRx} (h : f.Refines r) :
    f.taken.Refines (LinkEvent.check.onReceiver r) := by
  by_cases hflag : r.rxd1BuffCFlag = 0
  · rw [LinkEvent.onReceiver, if_pos hflag]
    exact ⟨h.idle, h.inside, fun _ => hflag, nofun⟩
  · rw [LinkEvent.onReceiver, if_neg hflag]
    refine ⟨h.idle, fun head rest hcur => ?_, fun _ => rfl, nofun⟩
    have hin := h.inside head rest hcur
    exact ⟨hin.inside, hin.com, hin.num, hin.bytes⟩

/-- The receiver refines the framer, over every run. -/
theorem receiver_refines (es : List LinkEvent) :
    (LinkEvent.framer es).Refines (LinkEvent.receiver es) := by
  have hrun : ∀ (es : List LinkEvent) (bs : List UInt8) (f : Framer) (r : SerialRx), f.Ok bs →
      f.Refines r → (es.foldl (fun f e => e.onFramer f) f).Refines
        (es.foldl (fun r e => e.onReceiver r) r) := by
    intro es
    induction es with
    | nil => exact fun _ _ _ _ h => h
    | cons e es ih =>
        intro bs f r hok h
        cases e with
        | byte b => exact ih (bs ++ [b]) _ _ (hok.byte b) (h.byte hok b)
        | check => exact ih bs _ _ hok.check h.check
  exact hrun es [] ⟨[], none⟩ _ ⟨nofun, nofun, nofun, List.nil_suffix, nofun⟩
    ⟨fun _ => rfl, nofun, fun _ => rfl, nofun⟩

/-! ## The display's check -/

namespace Disp

/-- `cmd_uart_check` changes a byte of the display's `device_work_data`. -/
def CheckChanges (d : Disp) : Prop :=
  d.cmdUartCheck.work ≠ d.work ∨ d.cmdUartCheck.house ≠ d.house ∨ d.cmdUartCheck.faultState ≠ d.faultState

/-- On a display that is off, the pass leaves no wind speed out of range. -/
theorem deviceWorkModeCheck_wind {d : Disp} (h : d.work.devicePowerState = 0) :
    d.deviceWorkModeCheck.work.windSpeedState ≤ 3 := by
  have hpower : (d.checkPower 0).work.windSpeedState = 0 := rfl
  rw [deviceWorkModeCheck, h, checkTiming_work, apply_ite Settings.windSpeedState, ite_self, checkPht_work,
    apply_ite Settings.windSpeedState, ite_self, checkHighPressur_work, apply_ite Settings.windSpeedState,
    ite_self, checkWind_work, checkMode_work]
  split
  · next hw =>
      show d.work.windSpeedState ≤ 3
      rcases hw with hw | hw | hw | hw
      all_goals
        rw [hw]
        decide
  · rw [apply_ite Settings.windSpeedState]
    simp only [hpower, ite_self]
    decide

/-- A display that no frame leaves as it is: off, its wind speed out of range and
its fault byte not that of the frame. -/
def unsettled (r : SerialRx) : Disp :=
  { reset with
    rx := r
    work := ⟨0, 0, 7, 0, 0, 0⟩
    faultState := r.inComBuff 30 + 1 }

/-- A command leaves the power setting as it is or makes it 0 or 1. -/
theorem f1Switch_power_cases (type data : UInt8) {w : Settings} (h : w.devicePowerState = 0) :
    (f1Switch type data w).devicePowerState = 0 ∨ (f1Switch type data w).devicePowerState = 1 := by
  unfold f1Switch
  simp only [apply_ite Settings.devicePowerState, h, ite_self]
  split
  · split
    · exact .inr rfl
    · exact .inl rfl
  · exact .inl rfl

theorem unsettled_changes {r : SerialRx} {head : UInt8} (hhead : head = 0xF1 ∨ head = 0xF2)
    (hflag : r.rxd1BuffCFlag = 1) (h0 : r.inComBuff 0 = head) (h1 : r.inComBuff 1 = head) :
    (unsettled r).CheckChanges := by
  have hset : (unsettled r).rx.rxd1BuffCFlag ≠ 0 := by
    show r.rxd1BuffCFlag ≠ 0
    rw [hflag]
    decide
  rcases hhead with rfl | rfl
  · have hpower := f1Switch_power_cases (r.inComBuff 2) (r.inComBuff 4) (w := (unsettled r).work) rfl
    left
    rw [cmdUartCheck_f1 hset h0 h1, answerF1_work]
    intro hsame
    rcases hpower with hoff | hon
    · have hwind := deviceWorkModeCheck_wind (d := { unsettled r with
        rx := r.takeFrame
        work := f1Switch (r.inComBuff 2) (r.inComBuff 4) (unsettled r).work }) hoff
      rw [show (unsettled r).rx = r from rfl] at hsame
      rw [hsame] at hwind
      exact absurd hwind (show ¬ (7 : UInt8) ≤ 3 by decide)
    · rw [deviceWorkModeCheck_work (fun h => absurd (hon.symm.trans h) (by decide))] at hsame
      have hpower := congrArg Settings.devicePowerState hsame
      exact absurd (hon.symm.trans hpower) (show (1 : UInt8) ≠ 0 by decide)
  · obtain ⟨w, sc, hredrawn⟩ := (redrawn_deviceWorkModeCheck
      (takeF2 r.inComBuff { unsettled r with rx := r.takeFrame })).trans (redrawn_faultCheck _)
    right
    right
    rw [cmdUartCheck_f2 hset h0 h1]
    show (takeF2 r.inComBuff { unsettled r with rx := r.takeFrame }).deviceWorkModeCheck.faultCheck.faultState ≠ _
    rw [hredrawn]
    show r.inComBuff 30 ≠ r.inComBuff 30 + 1
    simp

end Disp

/-- **What the display takes.** A check changes data for a good frame only, whatever
the display's state, if and only if the frame that waits for it is good. -/
theorem display_guarded_iff (es : List LinkEvent) :
    (∀ d : Disp, d.rx = LinkEvent.receiver es → d.CheckChanges →
        ∃ fr, (LinkEvent.framer es).last = some fr ∧ CheckRule fr) ↔
      ∀ fr, (LinkEvent.framer es).last = some fr → CheckRule fr := by
  have hrefines := receiver_refines es
  constructor
  · intro h fr hfr
    obtain ⟨⟨head, bs, hwhole, hhead, -⟩, -⟩ := (framer_ok es).last fr hfr
    obtain ⟨hflag, hbytes⟩ := hrefines.some fr hfr
    subst hwhole
    obtain ⟨fr', hfr', hrule⟩ := h (Disp.unsettled (LinkEvent.receiver es)) rfl
      (Disp.unsettled_changes hhead hflag (hbytes 0 (by simp)) (hbytes 1 (by simp)))
    rw [hfr] at hfr'
    cases hfr'
    exact hrule
  · intro h d hd hchanges
    cases hlast : (LinkEvent.framer es).last with
    | some fr => exact ⟨fr, rfl, h fr hlast⟩
    | none =>
        have hflag : d.rx.rxd1BuffCFlag = 0 := by
          rw [hd]
          exact hrefines.none hlast
        rw [Disp.CheckChanges, Disp.cmdUartCheck, if_pos hflag] at hchanges
        simp at hchanges

/-! ## The main board's receiver -/

/-- The bytes of a reply, one interrupt of the receiver after the other. -/
def Bus.feed (bytes : List UInt8) (s : Bus) : Bus :=
  bytes.foldl (fun s b => xMBMasterRTUReceiveFSM b s) s

/-- The receiver took in `bytes` from idle on; `mem` is the memory before. -/
structure Bus.Fed (mem : Addr → UInt8) (bytes : List UInt8) (s : Bus) : Prop where
  idle : bytes = [] → s.master.eRcvState = .idle
  rcv : bytes ≠ [] → bytes.length ≤ serPDUSizeMax →
    s.master.eRcvState = .rcv ∧ s.master.usMasterRcvBufferPos = bytes.length
  error : serPDUSizeMax < bytes.length → s.master.eRcvState = .error
  mem : s.board.mem = receive (bytes.take serPDUSizeMax) mem

theorem receive_nil (mem : Addr → UInt8) : receive [] mem = mem := by
  funext a
  cases a with
  | _ => rfl

theorem receive_snoc (bytes : List UInt8) (b : UInt8) (mem : Addr → UInt8) :
    receive (bytes ++ [b]) mem =
      Function.update (receive bytes mem) (.ucMasterRTURcvBuf bytes.length) b := by
  funext a
  by_cases ha : a = .ucMasterRTURcvBuf bytes.length
  · subst ha
    simp [receive]
  · rw [Function.update_of_ne ha]
    cases a with
    | ucMasterRTURcvBuf i =>
        have hi : i ≠ bytes.length := fun h => ha (by rw [h])
        simp only [receive, List.getD_eq_getElem?_getD]
        rcases Nat.lt_or_gt_of_ne hi with hlt | hgt
        · rw [List.getElem?_append_left hlt]
        · rw [List.getElem?_eq_none (by simp; omega), List.getElem?_eq_none (by omega)]
    | _ => rfl

theorem Bus.Fed.byte {mem : Addr → UInt8} {bytes : List UInt8} {s : Bus} (h : s.Fed mem bytes)
    (b : UInt8) : (xMBMasterRTUReceiveFSM b s).Fed mem (bytes ++ [b]) := by
  have hlen : (bytes ++ [b]).length = bytes.length + 1 := by simp
  have hne : bytes ++ [b] ≠ [] := by simp
  by_cases hempty : bytes = []
  · have hstep : xMBMasterRTUReceiveFSM b s = { s.set (.ucMasterRTURcvBuf 0) b with
        master := { s.master.timersDisable with
          eSndState := .idle, usMasterRcvBufferPos := 1, eRcvState := .rcv }.timersT35Enable } := by
      rw [xMBMasterRTUReceiveFSM, h.idle hempty]
    have hmem := h.mem
    subst hempty
    rw [hstep]
    refine ⟨fun hnil => absurd hnil hne, fun _ _ => ⟨rfl, rfl⟩, fun hlong => absurd hlong (by simp), ?_⟩
    show (s.board.set (.ucMasterRTURcvBuf 0) b).mem = receive ([] ++ [b]) mem
    rw [receive_snoc, Board.set, hmem]
    rfl
  · by_cases hfull : bytes.length < serPDUSizeMax
    · obtain ⟨hstate, hpos⟩ := h.rcv hempty (Nat.le_of_lt hfull)
      have hstep : xMBMasterRTUReceiveFSM b s = { s.set (.ucMasterRTURcvBuf bytes.length) b with
          master := { s.master with usMasterRcvBufferPos := bytes.length + 1 }.timersT35Enable } := by
        rw [xMBMasterRTUReceiveFSM, hstate]
        simp only [hpos, if_pos hfull]
      have hmem := h.mem
      rw [List.take_of_length_le (Nat.le_of_lt hfull)] at hmem
      rw [hstep]
      refine ⟨fun hnil => absurd hnil hne, fun _ _ => ⟨hstate, hlen.symm⟩, fun hlong => ?_, ?_⟩
      · rw [hlen] at hlong
        exact absurd hfull (Nat.not_lt.mpr (Nat.le_of_lt_succ hlong))
      · show (s.board.set (.ucMasterRTURcvBuf bytes.length) b).mem = _
        rw [List.take_of_length_le (by rw [hlen]; exact hfull), receive_snoc, Board.set, hmem]
    · have hstep : (xMBMasterRTUReceiveFSM b s).board = s.board ∧
          (xMBMasterRTUReceiveFSM b s).master.eRcvState = .error := by
        by_cases hlong : serPDUSizeMax < bytes.length
        · rw [xMBMasterRTUReceiveFSM, h.error hlong]
          exact ⟨rfl, h.error hlong⟩
        · obtain ⟨hstate, hpos⟩ := h.rcv hempty (Nat.not_lt.mp hlong)
          have hfsm : xMBMasterRTUReceiveFSM b s =
              { s with master := { s.master with eRcvState := .error }.timersT35Enable } := by
            rw [xMBMasterRTUReceiveFSM, hstate]
            simp only [hpos, if_neg hfull]
          rw [hfsm]
          exact ⟨rfl, rfl⟩
      refine ⟨fun hnil => absurd hnil hne, fun _ hshort => ?_, fun _ => hstep.2, ?_⟩
      · rw [hlen] at hshort
        exact absurd (Nat.lt_of_succ_le hshort) hfull
      · rw [hstep.1, h.mem, List.take_append_of_le_length (Nat.not_lt.mp hfull)]

/-- What the receiver stores of a reply: the bytes that fit, from the start of
its buffer on. -/
theorem feed_mem (bytes : List UInt8) {s : Bus} (h : s.master.eRcvState = .idle) :
    (s.feed bytes).board.mem = receive (bytes.take serPDUSizeMax) s.board.mem := by
  have hrun : ∀ (bs pre : List UInt8) (s' : Bus), s'.Fed s.board.mem pre →
      (s'.feed bs).Fed s.board.mem (pre ++ bs) := by
    intro bs
    induction bs with
    | nil =>
        intro pre s' h
        rwa [List.append_nil]
    | cons b bs ih =>
        intro pre s' h
        have hrest := ih (pre ++ [b]) _ (h.byte b)
        rwa [List.append_assoc] at hrest
  have hstart : s.Fed s.board.mem [] :=
    ⟨fun _ => h, fun hne => absurd rfl hne, nofun, (receive_nil _).symm⟩
  exact (hrun bytes [] s hstart).mem

/-! ## The main board's reply -/

/-- The line's next reply is what the receiver makes of `bytes`, and the requester
gets it as raw data. -/
def Delivers (bytes : List UInt8) (s : Board) : Prop :=
  s.reply.code = .revData ∧ ∀ bus : Bus, bus.master.eRcvState = .idle →
    (bus.feed bytes).board.mem = receive s.reply.bytes bus.board.mem

/-- What `get_display_board_data` looks at: the bytes that were stored over the
earlier ones, of which it cleared the first. -/
def inspected (bytes : List UInt8) (earlier : Nat → UInt8) (i : Nat) : UInt8 :=
  (bytes.take serPDUSizeMax).getD i (if i = 0 then 0 else earlier i)

theorem Delivers.replyBuffer {bytes : List UInt8} {s : Board} (h : Delivers bytes s)
    {earlier : Nat → UInt8} (hearlier : ∀ i, s.mem (.ucMasterRTURcvBuf i) = earlier i) :
    s.replyBuffer = inspected bytes earlier := by
  funext i
  have hmem := h.2 ⟨s.set (.ucMasterRTURcvBuf 0) 0, Master.enabled⟩ rfl
  rw [feed_mem bytes rfl] at hmem
  have hi := congrFun hmem (.ucMasterRTURcvBuf i)
  have hclear : (s.set (.ucMasterRTURcvBuf 0) 0).mem (.ucMasterRTURcvBuf i) =
      if i = 0 then 0 else s.mem (.ucMasterRTURcvBuf i) := by
    rw [set_mem]
    simp
  simp only [receive, hclear] at hi
  rw [Board.replyBuffer, inspected, ← hearlier i]
  exact hi.symm

/-- An F1 reply with a command. -/
def FramedF1 (rcv : Nat → UInt8) : Prop :=
  rcv 0 = 0xF1 ∧ rcv 1 = 0xF1 ∧ rcv 6 = 0x7E ∧ 1 < rcv 2 ∧ rcv 2 ≤ 7

instance (rcv : Nat → UInt8) : Decidable (FramedF1 rcv) :=
  inferInstanceAs (Decidable (_ ∧ _ ∧ _ ∧ _ ∧ _))

/-- A setting byte changes, or `set_device_work_mode` is called. -/
def Touched (t : Nat) (s : Board) : Prop :=
  ((getDisplayBoardData exchange).run machine t s).2.settings ≠ s.settings ∨
    ∃ type data signalCh, Op.note (.setDeviceWorkMode type data signalCh) ∈
      (getDisplayBoardData exchange).trace machine t s

/-- A frame `F1 F1 type 01 data chk 7E`, or one of 33 bytes with header F2, with
the right checksum. -/
def GoodFrame (fr : List UInt8) : Prop :=
  ((∃ type data chk, fr = [0xF1, 0xF1, type, 0x01, data, chk, 0x7E]) ∨
    ∃ bs, fr = 0xF2 :: 0xF2 :: bs ∧ fr.length = 33) ∧ CheckRule fr

def ContainsFrame (bytes : List UInt8) : Prop := ∃ fr, fr <:+: bytes ∧ GoodFrame fr

/-- A reply that the code does not accept is looked at and no more. -/
theorem handleDisplayReply_ignores (t : Nat) {s : Board}
    (h2 : ¬ FramedF2 fun i => s.mem (.ucMasterRTURcvBuf i))
    (h1 : ¬ FramedF1 fun i => s.mem (.ucMasterRTURcvBuf i)) :
    ((handleDisplayReply exchange).run machine t s).2 = s ∧
      ∀ o ∈ (handleDisplayReply exchange).trace machine t s, o.Local := by
  have hload : ∀ i : Nat, (Op.load (.ucMasterRTURcvBuf i)).Local := by simp [Op.Local, Op.Plain, Addr.Rx]
  have hlook : ∀ (b : UInt8) (e : Nat), ∀ o ∈ (replyFramed b e).trace machine t s, o.Local :=
    fun b e _ ho => (replyFramed_local b e).trace machine t ho
  have hkey : ¬ (1 < s.mem (.ucMasterRTURcvBuf 2) ∧ s.mem (.ucMasterRTURcvBuf 2) ≤ 7) →
      ((takeDisplayKey exchange).run machine t s).2 = s ∧
        ∀ o ∈ (takeDisplayKey exchange).trace machine t s, o.Local := by
    intro hrange
    by_cases h7 : s.mem (.ucMasterRTURcvBuf 2) ≤ 7
    · have hlow : ¬ s.mem (.ucMasterRTURcvBuf 2) > 1 := fun hgt => hrange ⟨hgt, h7⟩
      simp [takeDisplayKey, h7, hlow, hload]
    · simp [takeDisplayKey, h7, hload]
  have hF2 : ¬ (s.mem (.ucMasterRTURcvBuf 0) = 0xF2 ∧ s.mem (.ucMasterRTURcvBuf 1) = 0xF2 ∧
      s.mem (.ucMasterRTURcvBuf 32) = 0x7E) := h2
  simp only [handleDisplayReply, run_bind, trace_bind, run_replyFramed, run_ite, trace_ite, hF2, decide_false,
    Bool.false_eq_true, if_false]
  by_cases hF1 : s.mem (.ucMasterRTURcvBuf 0) = 0xF1 ∧ s.mem (.ucMasterRTURcvBuf 1) = 0xF1 ∧
      s.mem (.ucMasterRTURcvBuf 6) = 0x7E
  · obtain ⟨hrun, htrace⟩ := hkey fun hrange => h1 ⟨hF1.1, hF1.2.1, hF1.2.2, hrange⟩
    simp only [hF1, and_self, decide_true, if_true]
    refine ⟨hrun, fun o ho => ?_⟩
    rcases List.mem_append.mp ho with ho | ho
    · exact hlook _ _ o ho
    · rcases List.mem_append.mp ho with ho | ho
      · exact hlook _ _ o ho
      · exact htrace o ho
  · simp only [hF1, decide_false, Bool.false_eq_true, if_false]
    refine ⟨rfl, fun o ho => ?_⟩
    rcases List.mem_append.mp ho with ho | ho
    · exact hlook _ _ o ho
    · rcases List.mem_append.mp ho with ho | ho
      · exact hlook _ _ o ho
      · cases ho

/-- A reply with a command is a call. -/
theorem handleDisplayReply_calls (t : Nat) {s : Board}
    (h : FramedF1 fun i => s.mem (.ucMasterRTURcvBuf i)) :
    Op.note (.setDeviceWorkMode (s.mem (.ucMasterRTURcvBuf 2)) (s.mem (.ucMasterRTURcvBuf 4)) 0) ∈
      (handleDisplayReply exchange).trace machine t s := by
  obtain ⟨h0, h1, h6, hgt, hle⟩ := h
  have hF2 : ¬ (s.mem (.ucMasterRTURcvBuf 0) = 0xF2 ∧ s.mem (.ucMasterRTURcvBuf 1) = 0xF2 ∧
      s.mem (.ucMasterRTURcvBuf 32) = 0x7E) := by
    intro h
    rw [show s.mem (.ucMasterRTURcvBuf 0) = 0xF1 from h0] at h
    exact absurd h.1 (by decide)
  have hkey : Op.note (.setDeviceWorkMode (s.mem (.ucMasterRTURcvBuf 2)) (s.mem (.ucMasterRTURcvBuf 4)) 0) ∈
      (takeDisplayKey exchange).trace machine t s := by
    have hgt' : s.mem (.ucMasterRTURcvBuf 2) > 1 := hgt
    have hle' : s.mem (.ucMasterRTURcvBuf 2) ≤ 7 := hle
    simp [takeDisplayKey, setDeviceWorkMode, hgt', hle']
  simp only [handleDisplayReply, trace_bind, run_replyFramed, trace_ite, hF2, decide_false,
    Bool.false_eq_true, if_false]
  rw [if_pos (by simpa using ⟨h0, h1, h6⟩)]
  exact List.mem_append_right _ (List.mem_append_right _ hkey)

/-- What the code accepts as a reply, whatever its checksum. -/
def Accepted (rcv : Nat → UInt8) : Prop := FramedF2 rcv ∨ FramedF1 rcv

instance (rcv : Nat → UInt8) : Decidable (Accepted rcv) := inferInstanceAs (Decidable (_ ∨ _))

theorem pollDisplay_only : pollDisplay.Only fun o => o.Local ∨ ∃ n, o = .exchange n := by
  simp [pollDisplay, Op.Local, Op.Plain, Addr.Rx, Addr.Master]

theorem run_pollDisplay_settings (t : Nat) (s : Board) :
    (pollDisplay.run machine t s).2.settings = s.settings := by
  simp only [Board.settings, (run_pollDisplay t s).2.2.1]

/-- A reply that is raw data counts by what is done with it. -/
theorem touched_iff (t : Nat) {s : Board} (h : s.reply.code = .revData) : Touched t s ↔
    ((handleDisplayReply exchange).run machine t (pollDisplay.run machine t s).2).2.settings ≠ s.settings ∨
      ∃ type data signalCh, Op.note (.setDeviceWorkMode type data signalCh) ∈
        (handleDisplayReply exchange).trace machine t (pollDisplay.run machine t s).2 := by
  have hcode : (pollDisplay.run machine t s).1 = .revData := (run_pollDisplay t s).1.trans h
  have hpoll : ∀ type data signalCh,
      Op.note (.setDeviceWorkMode type data signalCh) ∉ pollDisplay.trace machine t s := by
    intro type data signalCh ho
    rcases pollDisplay_only.trace machine t ho with hlocal | ⟨n, hn⟩
    · exact hlocal.1
    · cases hn
  have hrelease : ∀ s' : Board, ((mutexRelease .modbus).run machine t s').2.settings = s'.settings :=
    fun _ => rfl
  have hcalls : ∀ type data signalCh, Op.note (.setDeviceWorkMode type data signalCh) ∈
      (getDisplayBoardData exchange).trace machine t s ↔
        Op.note (.setDeviceWorkMode type data signalCh) ∈
          (handleDisplayReply exchange).trace machine t (pollDisplay.run machine t s).2 := by
    intro type data signalCh
    rw [getDisplayBoardData_eq, trace_bind, trace_bind, hcode, trace_when, if_pos rfl]
    simp [hpoll]
  simp only [Touched, hcalls]
  rw [getDisplayBoardData_eq, run_bind, run_bind, hcode, run_when, if_pos rfl, hrelease]

theorem not_touched (t : Nat) {s : Board} (h : s.reply.code = .revData)
    (hreply : ¬ Accepted s.replyBuffer) : ¬ Touched t s := by
  have hbuffer := funext (run_pollDisplay t s).2.1
  have hsettings := run_pollDisplay_settings t s
  rw [touched_iff t h]
  generalize (pollDisplay.run machine t s).2 = s₁ at hbuffer hsettings
  rw [← hbuffer, Accepted, not_or] at hreply
  obtain ⟨hrun, htrace⟩ := handleDisplayReply_ignores t hreply.1 hreply.2
  rw [hrun, hsettings]
  rintro (hne | ⟨type, data, signalCh, ho⟩)
  · exact hne rfl
  · exact (htrace _ ho).1

/-- An accepted reply counts, if the mode it carries is another than the board's. -/
theorem touched (t : Nat) {s : Board} (h : s.reply.code = .revData) (hreply : Accepted s.replyBuffer)
    (hmode : s.settings.deviceMode ≠ s.replyBuffer 5) : Touched t s := by
  have hbuffer := funext (run_pollDisplay t s).2.1
  have hsettings := run_pollDisplay_settings t s
  rw [touched_iff t h]
  generalize (pollDisplay.run machine t s).2 = s₁ at hbuffer hsettings
  rw [← hbuffer] at hreply hmode
  rcases hreply with hf2 | hf1
  · left
    rw [(handleDisplayReply_f2 t hf2).2]
    intro hsame
    have htaken : ∀ (rcv : Nat → UInt8) w, (takenSettings rcv w).deviceMode = rcv 5 := by
      intro rcv w
      unfold takenSettings
      split
      · rfl
      · rfl
    rw [← hsame, htaken] at hmode
    exact hmode rfl
  · exact .inr ⟨_, _, _, handleDisplayReply_calls t hf1⟩

/-- A board with these bytes in its buffer and on its line, in another mode than
they carry. -/
def Board.awaiting (bytes : List UInt8) (earlier : Nat → UInt8) : Board :=
  { Board.reset with
    mem := fun
      | .ucMasterRTURcvBuf i => earlier i
      | .deviceWorkData _ => inspected bytes earlier 5 + 1
      | _ => 0
    replies := [⟨.revData, bytes.take serPDUSizeMax, []⟩] }

theorem awaiting_delivers (bytes : List UInt8) (earlier : Nat → UInt8) :
    Delivers bytes (Board.awaiting bytes earlier) :=
  ⟨rfl, fun _ hidle => feed_mem bytes hidle⟩

/-- **What the main board takes.** -/
theorem reply_guarded_iff (bytes : List UInt8) (earlier : Nat → UInt8) :
    (∀ t s, Delivers bytes s → (∀ i, s.mem (.ucMasterRTURcvBuf i) = earlier i) → Touched t s →
        ContainsFrame bytes) ↔
      ContainsFrame bytes ∨ ¬ Accepted (inspected bytes earlier) := by
  constructor
  · intro h
    by_cases hacc : Accepted (inspected bytes earlier)
    · have hdelivers := awaiting_delivers bytes earlier
      have hbuffer : (Board.awaiting bytes earlier).replyBuffer = inspected bytes earlier :=
        hdelivers.replyBuffer fun _ => rfl
      refine .inl (h 0 _ hdelivers (fun _ => rfl) (touched 0 hdelivers.1 (hbuffer ▸ hacc) ?_))
      rw [hbuffer]
      show inspected bytes earlier 5 + 1 ≠ inspected bytes earlier 5
      simp
    · exact .inr hacc
  · rintro (hframe | hacc) t s hdelivers hearlier htouched
    · exact hframe
    · rw [← hdelivers.replyBuffer hearlier] at hacc
      exact absurd htouched (not_touched t hdelivers.1 hacc)

/-! ## Both boards -/

/-- **When a damaged frame changes nothing.** Main board: the reply contains a
good frame, or what the buffer then holds is not accepted. Display: the frame that
waits for the check is good, or there is none. -/
theorem damaged_frame_harmless_iff (bytes : List UInt8) (earlier : Nat → UInt8) (es : List LinkEvent) :
    ((∀ t s, Delivers bytes s → (∀ i, s.mem (.ucMasterRTURcvBuf i) = earlier i) → Touched t s →
        ContainsFrame bytes) ↔ ContainsFrame bytes ∨ ¬ Accepted (inspected bytes earlier)) ∧
      ((∀ d : Disp, d.rx = LinkEvent.receiver es → d.CheckChanges →
          ∃ fr, (LinkEvent.framer es).last = some fr ∧ CheckRule fr) ↔
        ∀ fr, (LinkEvent.framer es).last = some fr → CheckRule fr) :=
  ⟨reply_guarded_iff bytes earlier, display_guarded_iff es⟩

theorem ContainsFrame.length {bytes : List UInt8} (h : ContainsFrame bytes) : 7 ≤ bytes.length := by
  obtain ⟨fr, hin, hgood, -⟩ := h
  refine Nat.le_trans ?_ hin.length_le
  rcases hgood with ⟨type, data, chk, rfl⟩ | ⟨bs, -, hlen⟩
  · exact Nat.le_refl 7
  · rw [hlen]
    decide

/-- The end byte of an earlier reply. -/
def staleEnd (i : Nat) : UInt8 := if i = 6 then 0x7E else 0

/-- Power off, with a wrong checksum. -/
def damagedOff : List UInt8 := [0xF1, 0xF1, 0x02, 0x01, 0x00, 0xFF, 0x7E]

/-- Three bytes of a reply are completed by older ones, and the display switches
off on a frame with a wrong checksum. -/
theorem damaged_frame_counterexample :
    ¬ (∀ t s, Delivers [0xF1, 0xF1, 0x02] s → (∀ i, s.mem (.ucMasterRTURcvBuf i) = staleEnd i) →
        Touched t s → ContainsFrame [0xF1, 0xF1, 0x02]) ∧
      ¬ (∀ d : Disp, d.rx = LinkEvent.receiver (damagedOff.map .byte) → d.CheckChanges →
          ∃ fr, (LinkEvent.framer (damagedOff.map .byte)).last = some fr ∧ CheckRule fr) := by
  rw [reply_guarded_iff, display_guarded_iff]
  constructor
  · rintro (hframe | hacc)
    · exact absurd hframe.length (by decide)
    · exact hacc (by decide)
  · intro h
    exact absurd (h damagedOff rfl) (by decide)

end Aclean
