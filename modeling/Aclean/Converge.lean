import Aclean.Memory
import Aclean.StatePush

/-!
# The boards agree again

A key press waits on the display until a poll fetches it, and a command leaves the
display behind until the next push. Left to themselves the two boards come to agree:
a poll fetches one event, the main board obeys it, and a push brings the display in
line, whatever came before. The timer is left out of it: the display takes no hours
from a push.
-/

namespace Aclean

open Board Prog

/-! ## Key events that wait -/

/-- The key events that wait on the display, in the order in which it reports them. -/
def Disp.due (k : Keys) : List (UInt8 × UInt8) :=
  (Disp.keyReports k).flatMap fun r => if r.due then [(r.function, r.mode)] else []

theorem due_of_none {d : Disp} (h : d.pending = none) : Disp.due d.keys = [] := by
  exact List.flatMap_eq_nil_iff.mpr fun r hr => if_neg (List.find?_eq_none.mp h r hr)

/-- A report takes the first of them away. -/
theorem due_of_some {d : Disp} {r : Disp.KeyReport} (h : d.pending = some r) :
    Disp.due d.keys = (r.function, r.mode) :: Disp.due r.cleared := by
  obtain ⟨⟨p, m, l, w, e⟩, hk⟩ : ∃ k, d.keys = k := ⟨d.keys, rfl⟩
  unfold Disp.pending at h
  rw [hk] at h ⊢
  -- the chain of the reports, test by test
  by_cases hp1 : p = 0x01
  · obtain rfl := Option.some.inj (by simpa [Disp.keyReports, hp1] using h)
    simp [Disp.due, Disp.keyReports, hp1]
  by_cases hp0 : p = 0x00
  · obtain rfl := Option.some.inj (by simpa [Disp.keyReports, hp0, hp1] using h)
    simp [Disp.due, Disp.keyReports, hp0]
  by_cases hm1 : m = 0x01
  · obtain rfl := Option.some.inj (by simpa [Disp.keyReports, hm1, hp1, hp0] using h)
    simp [Disp.due, Disp.keyReports, hm1, hp1, hp0]
  by_cases hm2 : m = 0x02
  · obtain rfl := Option.some.inj (by simpa [Disp.keyReports, hm2, hp1, hp0, hm1] using h)
    simp [Disp.due, Disp.keyReports, hm2, hp1, hp0]
  by_cases hl1 : l = 0x01
  · obtain rfl := Option.some.inj (by simpa [Disp.keyReports, hl1, hp1, hp0, hm1, hm2] using h)
    simp [Disp.due, Disp.keyReports, hl1, hp1, hp0, hm1, hm2]
  by_cases hl0 : l = 0x00
  · obtain rfl := Option.some.inj (by simpa [Disp.keyReports, hl0, hp1, hp0, hm1, hm2, hl1] using h)
    simp [Disp.due, Disp.keyReports, hl0, hp1, hp0, hm1, hm2]
  by_cases hw1 : w = 0x01
  · obtain rfl := Option.some.inj (by simpa [Disp.keyReports, hw1, hp1, hp0, hm1, hm2, hl1, hl0] using h)
    simp [Disp.due, Disp.keyReports, hw1, hp1, hp0, hm1, hm2, hl1, hl0]
  by_cases hw2 : w = 0x02
  · obtain rfl := Option.some.inj (by simpa [Disp.keyReports, hw2, hp1, hp0, hm1, hm2, hl1, hl0, hw1] using h)
    simp [Disp.due, Disp.keyReports, hw2, hp1, hp0, hm1, hm2, hl1, hl0]
  by_cases hw3 : w = 0x03
  · obtain rfl := Option.some.inj (by simpa [Disp.keyReports, hw3, hp1, hp0, hm1, hm2, hl1, hl0, hw1, hw2] using h)
    simp [Disp.due, Disp.keyReports, hw3, hp1, hp0, hm1, hm2, hl1, hl0]
  by_cases he1 : e = 0x01
  · obtain rfl := Option.some.inj (by simpa [Disp.keyReports, he1, hp1, hp0, hm1, hm2, hl1, hl0, hw1, hw2, hw3] using h)
    simp [Disp.due, Disp.keyReports, he1, hp1, hp0, hm1, hm2, hl1, hl0, hw1, hw2, hw3]
  by_cases he0 : e = 0x00
  · obtain rfl := Option.some.inj (by simpa [Disp.keyReports, he0, hp1, hp0, hm1, hm2, hl1, hl0, hw1, hw2, hw3, he1] using h)
    simp [Disp.due, Disp.keyReports, he0, hp1, hp0, hm1, hm2, hl1, hl0, hw1, hw2, hw3]
  simp [Disp.keyReports, hp1, hp0, hm1, hm2, hl1, hl0, hw1, hw2, hw3, he1, he0] at h

/-! ## What is quiet -/

namespace Memory

/-- Settings and record in range. -/
structure InRange (m : Memory) : Prop where
  work : m.work.InRange
  record : ∀ {r}, m.record = some r → r.InRange

theorem InRange.change {m : Memory} (h : m.InRange) {w : Settings} (hw : w.InRange) :
    (m.change w).InRange := by
  refine ⟨hw, ?_⟩
  unfold Memory.change
  intro r hr
  dsimp only at hr
  split at hr
  · exact h.record hr
  · obtain rfl := Option.some.inj hr
    exact hw

theorem powered_inRange {v : UInt8} {w : Settings} (h : w.InRange) (hv : v ≤ 1) : (w.powered v).InRange :=
  ⟨hv, h.mode, h.wind, h.highPressur, h.pht, h.timing⟩

theorem f1Switch_inRange {w : Settings} (h : w.InRange) (type data : UInt8) :
    (Disp.f1Switch type data w).InRange := by
  have hbit : (if data ≠ 0 then 1 else 0 : UInt8) ≤ 1 := by split <;> decide
  unfold Disp.f1Switch
  split
  · exact powered_inRange h hbit
  split
  · split
    · next hmode =>
      have hle : data ≤ 2 := by rcases hmode with rfl | rfl <;> decide
      exact ⟨h.power, hle, h.wind, h.highPressur, h.pht, h.timing⟩
    · exact h
  split
  · exact ⟨h.power, h.mode, h.wind, hbit, h.pht, h.timing⟩
  split
  · exact ⟨h.power, h.mode, h.wind, h.highPressur, hbit, h.timing⟩
  split
  · refine ⟨h.power, h.mode, h.wind, h.highPressur, h.pht, ?_⟩
    dsimp only
    split
    · next hdata => exact hdata.1
    · decide
  split
  · split
    · next hdata => exact ⟨h.power, h.mode, hdata, h.highPressur, h.pht, h.timing⟩
    · exact h
  · exact h

/-- No command leads out of range. -/
theorem InRange.command {m : Memory} (h : m.InRange) (type data : UInt8) :
    (m.step (.command type data)).InRange := by
  have hoff : (m.work.powered 0).InRange := powered_inRange h.work (by decide)
  simp only [Memory.step]
  split
  · unfold Memory.command
    split
    · split
      · refine h.change (powered_inRange ?_ (by decide))
        cases hr : m.record with
        | none => exact h.work
        | some r => exact h.record hr
      · exact ⟨hoff, fun hr => Option.some.inj hr ▸ hoff⟩
    · exact h.change (f1Switch_inRange h.work type data)
  · exact h

end Memory

/-- The display shows these settings; the timer is its own affair. -/
def Disp.Shows (w : Settings) (d : Disp) : Prop :=
  ∃ timing, d.work = { w with timingState := timing }

/-- A step of the link in which no key is pressed and no command is given. -/
def LinkStep.Quiet (st : LinkStep) (s : Link) : Prop :=
  match st with
  | .press _ => False
  | .command _ _ _ => False
  | .others b => b.settings = s.1.settings ∧ b.flash = s.1.flash
  | _ => True

def LinkStep.isPoll : LinkStep → Bool
  | .poll _ => true
  | _ => false

/-- Every step of the run is quiet. -/
def QuietRun : List LinkStep → Link → Prop
  | [], _ => True
  | st :: sts, s => st.Quiet s ∧ QuietRun sts (linkStep st s)

theorem linkRun_append (sts sts' : List LinkStep) (s : Link) :
    linkRun (sts ++ sts') s = linkRun sts' (linkRun sts s) := by
  induction sts generalizing s with
  | nil => rfl
  | cons st sts ih => exact ih _

theorem quietRun_append {sts sts' : List LinkStep} {s : Link} :
    QuietRun (sts ++ sts') s ↔ QuietRun sts s ∧ QuietRun sts' (linkRun sts s) := by
  induction sts generalizing s with
  | nil => exact ⟨fun h => ⟨trivial, h⟩, And.right⟩
  | cons st sts ih => exact (and_congr_right fun _ => ih).trans (and_assoc).symm

/-! ## Polls -/

/-- The bytes of a poll. -/
def pollBytes : List UInt8 := [0xF1, 0xF1, 0x01, 0x01, 0x00, 0x02, 0x7E]

/-- The display answers them, and the main board takes the answer. -/
theorem poll_run (t : Nat) (b : Board) (d : Disp) : ∃ b₁ : Board, b₁.memory = b.memory ∧
    linkStep (.poll t) (b, d) =
      (((pollTail (if (d.answer pollBytes).1 = [] then .timedOut else .revData)).run machine t
        { b₁ with mem := Board.receive (d.answer pollBytes).1 b₁.mem }).2, (d.answer pollBytes).2) := by
  have hbefore : pollFrame.Only Op.Control := by simp [pollFrame, Op.Control, Addr.Rx, Addr.Master]
  have hwork : pollFrame.Only Op.LeavesWork := by simp [pollFrame, Op.LeavesWork]
  have hflash : pollFrame.Only Op.LeavesFlash := by simp [pollFrame, Op.LeavesFlash]
  have hframe : ((pollFrame.run Board.machine t b).2).frame .rs485SendBufNotModbus 7 = pollBytes := by
    simp [pollFrame, pollBytes, Board.frame, List.range, List.range.loop]
  have hrun := run_exchanged (hbefore.mono fun _ => Op.Control.offLine) pollTail_offLine d rfl hframe
  have hmemory := run_memory hwork hflash t b
  generalize (pollFrame.run Board.machine t b).2 = b₀ at hrun hmemory
  exact ⟨{ b₀ with log := b₀.log ++ [.request pollBytes] }, (memory_congr rfl rfl).trans hmemory, hrun⟩

/-- What comes in, and a note of it, are not settings. -/
theorem received_memory (bytes : List UInt8) (log : List Event) (b : Board) :
    Board.memory { b with mem := Board.receive bytes b.mem, log := log } = b.memory :=
  memory_congr rfl rfl

/-- What the main board makes of an answer. -/
theorem pollTail_memory (c : eMBMasterReqErrCode) (bytes : List UInt8) (t : Nat) (b : Board) :
    ((pollTail c).run machine t { b with mem := Board.receive bytes b.mem }).2.memory =
      if c = .revData then
        b.memory.run (repliedEvents fun i => Board.receive bytes b.mem (.ucMasterRTURcvBuf i))
      else b.memory := by
  have hrelease : ∀ b : Board, ((mutexRelease .modbus).run machine t b).2.memory = b.memory :=
    fun b => memory_congr rfl rfl
  have hsame := received_memory bytes b.log b
  rw [pollTail, run_bind, run_when, hrelease]
  split
  · rw [handleDisplayReply_memory, hsame]
  · exact hsame

/-- A report is the command it reports, and a sign of life is nothing. -/
theorem repliedEvents_report {f m : UInt8} {bytes : List UInt8} (h : Disp.Reports f m bytes)
    (mem : Addr → UInt8) :
    (repliedEvents fun i => Board.receive bytes mem (.ucMasterRTURcvBuf i)) =
      if 1 < f ∧ f ≤ 7 then [.command f m] else [] := by
  obtain ⟨c, x, y, rfl⟩ := h
  unfold repliedEvents
  have h2 : ¬ FramedF2 fun i => Board.receive [0xF1, 0xF1, f, 0x01, m, c, 0x7E, x, y] mem
      (.ucMasterRTURcvBuf i) := fun h => absurd h.1 (by simp [Board.receive])
  rw [if_neg h2]
  refine if_congr ?_ rfl rfl
  exact ⟨fun h => h.2.2.2, fun h => ⟨rfl, rfl, rfl, h⟩⟩

/-- Sending the answer changes neither key states nor settings. -/
theorem answer_kept (fr : List UInt8) (d : Disp) :
    (d.answer fr).2.keys = (d.handle fr).keys ∧ (d.answer fr).2.work = (d.handle fr).work := by
  unfold Disp.answer
  generalize d.handle fr = d'
  exact ⟨rfl, rfl⟩

theorem answerF1_keys (d : Disp) :
    d.answerF1.keys = (d.pending.map Disp.KeyReport.cleared).getD d.keys := by
  unfold Disp.answerF1
  cases d.pending with
  | some r => rfl
  | none =>
    dsimp only
    split
    · rfl
    · rfl

section Answer

variable {d : Disp} (h : d.Ready)
include h

/-- What the display is once it has handled a poll. -/
theorem handle_poll : ∃ rx, d.handle pollBytes = (Disp.deviceWorkModeCheck { d with rx := rx }).answerF1 := by
  obtain ⟨rx, -, hhandle⟩ := Disp.handle_f1 h.rx 0x01 0x01 0x00 0x02 0x7E
  exact ⟨rx, hhandle⟩

/-- An answer to a poll takes the first key event that waits. -/
theorem answer_poll_due : Disp.due (d.answer pollBytes).2.keys = (Disp.due d.keys).tail := by
  obtain ⟨rx, hhandle⟩ := handle_poll h
  obtain ⟨w, sc, hredrawn⟩ := redrawn_deviceWorkModeCheck { d with rx := rx }
  have hpending : Disp.pending { d with rx := rx, work := w, screen := sc } = d.pending := rfl
  rw [(answer_kept pollBytes d).1, hhandle, hredrawn, answerF1_keys, hpending]
  cases hp : d.pending with
  | none =>
    show Disp.due d.keys = _
    rw [due_of_none hp]
    rfl
  | some r =>
    rw [due_of_some hp]
    rfl

/-- And leaves the settings that are shown. -/
theorem answer_poll_shows {w : Settings} (hw : w.InRange) (hd : d.Shows w) :
    (d.answer pollBytes).2.Shows w := by
  obtain ⟨rx, hhandle⟩ := handle_poll h
  obtain ⟨timing, hd⟩ := hd
  obtain ⟨timing', hcheck⟩ := deviceWorkModeCheck_inRange (d := { d with rx := rx }) hw hd
  refine ⟨timing', ?_⟩
  rw [(answer_kept pollBytes d).2, hhandle, Disp.answerF1_work, hcheck]

theorem answer_poll_ready : (d.answer pollBytes).2.Ready := by
  cases hp : d.pending with
  | none => exact (answer_f1_idle h 0x01 0x01 0x00 0x02 0x7E hp).2.2
  | some r => exact (answer_f1_pending h 0x01 0x01 0x00 0x02 0x7E hp).2.2

/-- The main board obeys the event that it is answered with. -/
theorem pollTail_obeys (t : Nat) (b : Board) :
    ((pollTail (if (d.answer pollBytes).1 = [] then .timedOut else .revData)).run machine t
      { b with mem := Board.receive (d.answer pollBytes).1 b.mem }).2.memory =
        b.memory.run (((Disp.due d.keys).take 1).map fun e => .command e.1 e.2) := by
  rw [pollTail_memory]
  cases hp : d.pending with
  | none =>
    have hanswer : (d.answer pollBytes).1 = [] ∨ Disp.Reports 1 0 (d.answer pollBytes).1 :=
      (answer_f1_idle h 0x01 0x01 0x00 0x02 0x7E hp).1
    rw [due_of_none hp]
    rcases hanswer with hnil | hreport
    · rw [if_pos hnil, if_neg (by decide)]
      rfl
    · rw [if_neg hreport.ne_nil, if_pos rfl, repliedEvents_report hreport, if_neg (by decide)]
      rfl
  | some r =>
    have hreport : Disp.Reports r.function r.mode (d.answer pollBytes).1 :=
      (answer_f1_pending h 0x01 0x01 0x00 0x02 0x7E hp).1
    obtain ⟨h2, h7⟩ := pending_function hp
    have h1 : 1 < r.function := UInt8.lt_of_lt_of_le (by decide) h2
    rw [due_of_some hp, if_neg hreport.ne_nil, if_pos rfl, repliedEvents_report hreport, if_pos ⟨h1, h7⟩]
    rfl

end Answer

/-! ## Pushes -/

theorem pushFrame_memory (t : Nat) (b : Board) : (pushFrame.run machine t b).2.memory = b.memory := by
  have hlocal : pushFrame.Only Op.Local := by
    unfold pushFrame
    refine .bind (by simp [Op.Local, Op.Plain]) fun _ => .bind (dispBoardPacketData_local 29) fun _ => ?_
    simp [Op.Local, Op.Plain, Addr.Rx, Addr.Master]
  exact run_local_memory hlocal t b

theorem ignoreTail_memory (c : eMBMasterReqErrCode) (t : Nat) (b : Board) :
    ((ignoreTail c).run machine t b).2.memory = b.memory := by
  have hlocal : (ignoreTail c).Only Op.Local :=
    .bind (ignoreReply_local c) fun _ => by simp [Op.Local, Op.Plain]
  exact run_local_memory hlocal t b

/-- A push changes nothing on the main board; the display handles its frame. -/
theorem push_run (t : Nat) (b : Board) (d : Disp) : ∃ b₁ b' : Board, b₁.settings = b.settings ∧
    b'.memory = b.memory ∧ linkStep (.push t) (b, d) = (b', (d.answer (pushed t b₁)).2) := by
  obtain ⟨b₁, hb₁⟩ : ∃ b₁, b₁ = (Board.exec t (.mutexTake .modbus) b).2 := ⟨_, rfl⟩
  have hframe : (pushFrame.run machine t b).2.frame .rs485SendBufNotModbus 33 = pushed t b₁ := by
    rw [pushed, pushFrame, run_bind, run_bind, hb₁]
    simp [Board.frame]
  have hrun := run_exchanged (pushFrame_control.mono fun _ => Op.Control.offLine)
    (fun c => (ignoreTail_control c).mono fun _ => Op.Control.offLine) d (t := t) (b := b) rfl hframe
  have hprog : setDisplayBoardData exchange = (pushFrame >>= fun _ => exchange 33 >>= ignoreTail) := by
    simp only [pushFrame, bind_assoc]
    rfl
  have hmemory := pushFrame_memory t b
  have hstep : linkStep (.push t) (b, d) = ((setDisplayBoardData exchange).run linkMachine t (b, d)).2 := rfl
  rw [hprog, hrun] at hstep
  generalize (pushFrame.run machine t b).2 = b₀ at hmemory hstep
  have hsettings : b₁.settings = b.settings := by
    rw [hb₁]
    rfl
  refine ⟨b₁, _, hsettings, ?_, hstep⟩
  rw [ignoreTail_memory, received_memory]
  exact hmemory

/-- What the frame of a push leaves of the display. -/
theorem answer_pushed (t : Nat) (b : Board) {d : Disp} (h : d.Ready) (hrange : b.settings.InRange) :
    (d.answer (pushed t b)).2.Ready ∧ (d.answer (pushed t b)).2.keys = d.keys ∧
      (d.answer (pushed t b)).2.Shows b.settings := by
  obtain ⟨hkeys, hwork⟩ := answer_kept (pushed t b) d
  obtain ⟨⟨timing, htaken⟩, -⟩ := push_carries_state t b d hrange h.rx
  obtain ⟨r, rx, -, hhandle⟩ := handle_pushed t b h.rx
  obtain ⟨w, sc, hredrawn⟩ :=
    (redrawn_deviceWorkModeCheck (Disp.takeF2 rx { d with rx := r })).trans (redrawn_faultCheck _)
  have hready : (d.answer (pushed t b)).2.Ready := by
    have hlen : ((0x01 :: 0x1b :: b.frame work 27) ++
        [b.stack 6 + (0x01 :: 0x1b :: b.frame work 27).sum, 0x7E]).length = 31 := by
      simp [Board.frame]
    rw [pushed_eq, packed]
    exact (answer_f2 h hlen).2.2
  refine ⟨hready, ?_, timing, hwork.trans htaken⟩
  rw [hkeys, hhandle, hredrawn]
  rfl

/-! ## Quiet runs -/

/-- How many key events a step fetches. -/
def LinkStep.fetches (st : LinkStep) : Nat := if st.isPoll then 1 else 0

/-- The commands that these key events are. -/
def asCommands (evs : List (UInt8 × UInt8)) : List Memory.Event := evs.map fun e => .command e.1 e.2

theorem Memory.InRange.commands {m : Memory} (h : m.InRange) (evs : List (UInt8 × UInt8)) :
    (m.run (asCommands evs)).InRange := by
  induction evs generalizing m with
  | nil => exact h
  | cons e evs ih => exact ih (h.command e.1 e.2)

/-- From `s` to `s'` the main board has obeyed the first `n` key events that waited, and
no others. -/
structure Link.Obeyed (n : Nat) (s s' : Link) : Prop where
  ready : s'.2.Ready
  memory : s'.1.memory = s.1.memory.run (asCommands ((Disp.due s.2.keys).take n))
  due : Disp.due s'.2.keys = (Disp.due s.2.keys).drop n

theorem Link.Obeyed.refl {s : Link} (h : s.2.Ready) : Link.Obeyed 0 s s := ⟨h, rfl, rfl⟩

theorem Link.Obeyed.trans {n n' : Nat} {s s' s'' : Link} (h : Link.Obeyed n s s')
    (h' : Link.Obeyed n' s' s'') : Link.Obeyed (n + n') s s'' where
  ready := h'.ready
  memory := by
    rw [h'.memory, h.memory, h.due, ← Memory.run_append, asCommands, asCommands, asCommands,
      ← List.map_append, List.take_add]
  due := by rw [h'.due, h.due, List.drop_drop]

theorem Link.Obeyed.inRange {n : Nat} {s s' : Link} (h : Link.Obeyed n s s') (hs : s.1.memory.InRange) :
    s'.1.memory.InRange := by
  rw [h.memory]
  exact hs.commands _

/-- With none waiting the settings are those of before. -/
theorem Link.Obeyed.settings {n : Nat} {s s' : Link} (h : Link.Obeyed n s s')
    (hdue : Disp.due s.2.keys = []) : s'.1.settings = s.1.settings := by
  have hmemory := h.memory
  rw [hdue, List.take_nil] at hmemory
  exact congrArg Memory.work hmemory

/-- **A quiet step obeys what it fetches**, and a display that shows the settings goes on
showing them. -/
theorem quiet_step {s : Link} (h : s.2.Ready) (hrange : s.1.memory.InRange) {st : LinkStep}
    (hst : st.Quiet s) : Link.Obeyed st.fetches s (linkStep st s) ∧
      (s.2.Shows s.1.settings → (linkStep st s).2.Shows s.1.settings) := by
  obtain ⟨b, d⟩ := s
  cases st with
  | press k => exact absurd hst id
  | command t type mode => exact absurd hst id
  | tick n => exact ⟨⟨⟨h.rx, h.counter, h.quiet⟩, rfl, rfl⟩, fun hshows => hshows⟩
  | others b' => exact ⟨⟨h, memory_congr hst.1 hst.2, rfl⟩, fun hshows => hshows⟩
  | poll t =>
    obtain ⟨b₁, hb₁, hrun⟩ := poll_run t b d
    have hready := answer_poll_ready h
    have hobeys := pollTail_obeys h t b₁
    have hdue := answer_poll_due h
    have hshows := fun hs => answer_poll_shows h hrange.work hs
    rw [hb₁] at hobeys
    rw [hrun]
    generalize (d.answer pollBytes).2 = d' at hready hdue hshows ⊢
    generalize ((pollTail _).run machine t _).2 = b' at hobeys ⊢
    exact ⟨⟨hready, hobeys, hdue.trans List.drop_one.symm⟩, hshows⟩
  | push t =>
    obtain ⟨b₁, b', hb₁, hmemory, hrun⟩ := push_run t b d
    obtain ⟨hready, hkeys, hshows⟩ := answer_pushed t b₁ h (hb₁ ▸ hrange.work)
    rw [hb₁] at hshows
    rw [hrun]
    generalize (d.answer (pushed t b₁)).2 = d' at hready hkeys hshows ⊢
    exact ⟨⟨hready, hmemory, congrArg Disp.due hkeys⟩, fun _ => hshows⟩

theorem push_shows {s : Link} (h : s.2.Ready) (hrange : s.1.memory.InRange) (t : Nat) :
    (linkStep (.push t) s).2.Shows s.1.settings := by
  obtain ⟨b, d⟩ := s
  obtain ⟨b₁, b', hb₁, -, hrun⟩ := push_run t b d
  obtain ⟨-, -, hshows⟩ := answer_pushed t b₁ h (hb₁ ▸ hrange.work)
  rw [hb₁] at hshows
  rw [hrun]
  generalize (d.answer (pushed t b₁)).2 = d' at hshows ⊢
  exact hshows

/-- A quiet run obeys as many as it has polls. -/
theorem quiet_run {sts : List LinkStep} {s : Link} (h : s.2.Ready) (hrange : s.1.memory.InRange)
    (hsts : QuietRun sts s) : Link.Obeyed (sts.countP LinkStep.isPoll) s (linkRun sts s) := by
  induction sts generalizing s with
  | nil => exact .refl h
  | cons st sts ih =>
    obtain ⟨hstep, -⟩ := quiet_step h hrange hsts.1
    have hrest := ih hstep.ready (hstep.inRange hrange) hsts.2
    have hcount : (st :: sts).countP LinkStep.isPoll = st.fetches + sts.countP LinkStep.isPoll := by
      rw [List.countP_cons, Nat.add_comm]
      rfl
    rw [hcount]
    exact hstep.trans hrest

/-- Once nothing waits, a display that shows the settings shows them for good. -/
theorem quiet_run_shows {sts : List LinkStep} {s : Link} (h : s.2.Ready) (hrange : s.1.memory.InRange)
    (hdue : Disp.due s.2.keys = []) (hshows : s.2.Shows s.1.settings) (hsts : QuietRun sts s) :
    (linkRun sts s).2.Shows (linkRun sts s).1.settings := by
  induction sts generalizing s with
  | nil => exact hshows
  | cons st sts ih =>
    obtain ⟨hstep, hkeeps⟩ := quiet_step h hrange hsts.1
    have hdue' : Disp.due (linkStep st s).2.keys = [] := by rw [hstep.due, hdue, List.drop_nil]
    refine ih hstep.ready (hstep.inRange hrange) hdue' ?_ hsts.2
    rw [hstep.settings hdue]
    exact hkeeps hshows

end Aclean
