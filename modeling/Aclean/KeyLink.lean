import Aclean.DispLink

/-!
# Key events between the boards

The main board's code and the display on one loss-free link: a raw request
puts its frame on the wire, the display takes it in, handles it and sends
its answer, and the main board finds that answer in its receive buffer. The
display answers whichever F1 frame comes with its first pending key event,
and clears it; the main board acts on such an answer when it polls, and not
when it relays a command.
-/

namespace Aclean

open Prog

/-! ## The two boards on one line -/

/-- The display's answer to a frame: the bytes it sends back. -/
def Disp.answer (fr : List UInt8) (d : Disp) : List UInt8 × Disp :=
  let d := d.handle fr
  let (bytes, tx) := d.tx.drain 64
  (bytes, { d with tx := tx })

abbrev Link := Board × Disp

/-- The main board's machine with the display at the other end of the line. -/
@[reducible] def linkMachine : Machine Op Ar Link where
  enabled := fun t o s => Board.enabled t o s.1
  exec := fun t o s =>
    match o with
    | .exchange len =>
        let fr := s.1.frame .rs485SendBufNotModbus len
        let a := s.2.answer fr
        (if a.1 = [] then .timedOut else .revData,
          ({ s.1 with
              mem := Board.receive a.1 s.1.mem
              log := s.1.log ++ [.request fr] }, a.2))
    | o => ((Board.exec t o s.1).1, ((Board.exec t o s.1).2, s.2))

/-- Operations that put nothing on the line. -/
def Op.OffLine : Op → Prop
  | .exchange _ => False
  | _ => True

theorem Op.Control.offLine {o : Op} (h : o.Control) : o.OffLine := by
  cases o with
  | exchange len => exact h
  | _ => trivial

theorem linkMachine_exec {o : Op} (h : o.OffLine) (t : Nat) (s : Link) :
    linkMachine.exec t o s = ((Board.exec t o s.1).1, ((Board.exec t o s.1).2, s.2)) := by
  cases o <;> first | rfl | exact absurd h id

/-- Code that puts nothing on the line runs as on the main board alone. -/
theorem run_link {α : Type} {p : Code α} (h : p.Only Op.OffLine) (t : Nat) (s : Link) :
    p.run linkMachine t s =
      ((p.run Board.machine t s.1).1, ((p.run Board.machine t s.1).2, s.2)) := by
  induction h generalizing s with
  | ret a => rfl
  | op ho _ ih => rw [Prog.run_op, linkMachine_exec ho, ih]; rfl

/-! ## What is reported and what is delivered -/

/-- The key events that the display put into an answer, in order; function 1
is its sign of life. -/
def Disp.reported (d : Disp) : List (UInt8 × UInt8) := d.log.filter fun r => r.1 != 1

/-- The calls of `set_device_work_mode` made for the display, in order. -/
def Board.delivered (b : Board) : List (UInt8 × UInt8) :=
  b.log.filterMap fun
    | .setDeviceWorkMode type data signalCh =>
        if signalCh = 0 then some (type, data) else none
    | _ => none

theorem exec_delivered {o : Op} (h : o.Control) (t : Nat) (b : Board) :
    (Board.exec t o b).2.delivered = b.delivered := by
  cases o with
  | note e => cases e <;> first | exact absurd h id | simp [Board.delivered]
  | uartWrite len => simp [Board.delivered]
  | exchange len => exact absurd h id
  | exchangeHold k => exact absurd h id
  | _ => rfl

theorem run_delivered {α : Type} {p : Code α} (h : p.Only Op.Control) (t : Nat) (b : Board) :
    (p.run Board.machine t b).2.delivered = b.delivered := by
  induction h generalizing b with
  | ret a => rfl
  | op ho _ ih => exact (ih _ _).trans (exec_delivered ho t b)

/-- Whatever the guard of the command switch says, the call was made. -/
theorem setDeviceWorkMode_delivers (request : Nat → Code eMBMasterReqErrCode)
    (type data : UInt8) (t : Nat) (b : Board) :
    ((setDeviceWorkMode request type data 0).run Board.machine t b).2.delivered =
      b.delivered ++ [(type, data)] := by
  have happly := run_delivered (applyCommand_control request type data) t
  have hnote : Board.delivered { b with log := b.log ++ [.setDeviceWorkMode type data 0] } =
      b.delivered ++ [(type, data)] := by
    simp [Board.delivered]
  unfold setDeviceWorkMode
  simp [apply_ite Prod.snd, apply_ite Board.delivered, happly, hnote]

/-! ## The display's answer -/

theorem pending_function {d : Disp} {r : Disp.KeyReport} (h : d.pending = some r) :
    2 ≤ r.function ∧ r.function ≤ 7 := by
  have hr : r ∈ Disp.keyReports d.keys := List.mem_of_find?_eq_some h
  have hf : r.function ∈ ([2, 2, 3, 3, 5, 5, 7, 7, 7, 4, 4] : List UInt8) :=
    List.mem_map_of_mem hr
  have hcases : r.function = 2 ∨ r.function = 3 ∨ r.function = 5 ∨ r.function = 7 ∨ r.function = 4 := by
    simpa using hf
  rcases hcases with h | h | h | h | h
  all_goals
    rw [h]
    decide

/-- What the transmitter sends of a report, two stray bytes included. -/
theorem drain_report (k : Keys) (f m : UInt8) {d : Disp} (h : d.tx.counterSend = 0) :
    ∃ x y, (d.report k f m).tx.drain 64 =
      ([0xF1, 0xF1, f, 0x01, m, 0 + f + 0x01 + m, 0x7E, x, y],
        { (d.report k f m).tx with counterSend := 0, txeEnabled := false }) := by
  refine ⟨d.tx.wifiSendPacketBufPub 7, d.tx.wifiSendPacketBufPub 8, ?_⟩
  simp [Disp.report, Disp.returnDevicePowerStateChange, SerialTx.drain, SerialTx.serialInt1Send, h]

/-- Between exchanges the receiver and the transmitter of the display are idle. -/
structure Disp.Ready (d : Disp) : Prop where
  rx : d.rx.isrJ = 0
  counter : d.tx.counterSend = 0
  quiet : d.tx.txeEnabled = false

/-- The passes that bring settings and screen into line touch nothing else. -/
def Disp.Redrawn (d d' : Disp) : Prop := ∃ w sc, d' = { d with work := w, screen := sc }

theorem Disp.Redrawn.refl (d : Disp) : d.Redrawn d := ⟨d.work, d.screen, rfl⟩

theorem Disp.Redrawn.trans {d d' d'' : Disp} (h : d.Redrawn d') (h' : d'.Redrawn d'') :
    d.Redrawn d'' := by
  obtain ⟨w, sc, rfl⟩ := h
  obtain ⟨w', sc', rfl⟩ := h'
  exact ⟨w', sc', rfl⟩

theorem redrawn_ite {d a b : Disp} {c : Prop} [Decidable c] (ha : d.Redrawn a)
    (hb : d.Redrawn b) : d.Redrawn (if c then a else b) := by
  split
  · exact ha
  · exact hb

theorem redrawn_deviceWorkModeCheck (d : Disp) : d.Redrawn d.deviceWorkModeCheck := by
  have honoff : ∀ (m : UInt8) (d : Disp), d.Redrawn (d.onoffDeviceSet m) := fun m d =>
    redrawn_ite ⟨_, _, rfl⟩ ⟨_, _, rfl⟩
  have hpower : ∀ (v : UInt8) (d : Disp), d.Redrawn (d.checkPower v) := fun v d =>
    redrawn_ite (honoff _ _) (redrawn_ite (honoff _ _) (.refl d))
  have hmode : ∀ (v : UInt8) (d : Disp), d.Redrawn (d.checkMode v) := fun v d =>
    redrawn_ite ⟨_, _, rfl⟩ (redrawn_ite ⟨_, _, rfl⟩ (.refl d))
  have hwind : ∀ (v : UInt8) (d : Disp), d.Redrawn (d.checkWind v) := fun v d =>
    redrawn_ite ⟨_, _, rfl⟩ (redrawn_ite ⟨_, _, rfl⟩ (redrawn_ite ⟨_, _, rfl⟩
      (redrawn_ite ⟨_, _, rfl⟩ (.refl d))))
  have hhp : ∀ (v : UInt8) (d : Disp), d.Redrawn (d.checkHighPressur v) := fun v d =>
    redrawn_ite ⟨_, _, rfl⟩ (redrawn_ite ⟨_, _, rfl⟩ (.refl d))
  have hpht : ∀ (v : UInt8) (d : Disp), d.Redrawn (d.checkPht v) := fun v d =>
    redrawn_ite ⟨_, _, rfl⟩ (redrawn_ite ⟨_, _, rfl⟩ (.refl d))
  have htiming : ∀ (v : UInt8) (d : Disp), d.Redrawn (d.checkTiming v) := fun v d =>
    redrawn_ite ⟨_, _, rfl⟩ (.refl d)
  exact (hpower _ _).trans ((hmode _ _).trans ((hwind _ _).trans ((hhp _ _).trans
    ((hpht _ _).trans (htiming _ _)))))

theorem redrawn_faultCheck (d : Disp) : d.Redrawn d.faultCheck := by
  have hicon : ∀ (i : UInt8) (icon : Nat) (d : Disp), d.Redrawn (d.faultIcon i icon) :=
    fun i icon d => redrawn_ite ⟨_, _, rfl⟩ ⟨_, _, rfl⟩
  have hfirst : d.Redrawn (if d.faultState &&& 1 ≠ 0 then
      { d with screen := d.screen.ht1621OnDisp 11 }
      else { d with screen := d.screen.ht1621OffDisp 11 }) :=
    redrawn_ite ⟨_, _, rfl⟩ ⟨_, _, rfl⟩
  exact hfirst.trans ((hicon _ _ _).trans ((hicon _ _ _).trans ((hicon _ _ _).trans
    ((hicon _ _ _).trans (redrawn_ite ⟨_, _, rfl⟩ (.refl _))))))

/-- A report of the display, as the main board receives it. -/
def Disp.Reports (function mode : UInt8) (bytes : List UInt8) : Prop :=
  ∃ c x y, bytes = [0xF1, 0xF1, function, 0x01, mode, c, 0x7E, x, y]

theorem Disp.Reports.ne_nil {f m : UInt8} {bytes : List UInt8} (h : Disp.Reports f m bytes) :
    bytes ≠ [] := by
  obtain ⟨c, x, y, rfl⟩ := h
  exact List.cons_ne_nil _ _

theorem answer_report {d : Disp} {fr : List UInt8} (d' : Disp) {k : Keys} {f m : UInt8}
    (hd' : d'.rx.isrJ = 0 ∧ d'.tx.counterSend = 0) (h : d.handle fr = d'.report k f m) :
    Disp.Reports f m (d.answer fr).1 ∧ (d.answer fr).2.log = d'.log ++ [(f, m)] ∧
      (d.answer fr).2.Ready := by
  obtain ⟨x, y, hdrain⟩ := drain_report k f m hd'.2
  rw [Disp.answer, h, hdrain]
  exact ⟨⟨_, x, y, rfl⟩, rfl, hd'.1, rfl, rfl⟩

theorem answer_silent {d : Disp} {fr : List UInt8} (d' : Disp) (hd' : d'.Ready)
    (h : d.handle fr = d') :
    (d.answer fr).1 = [] ∧ (d.answer fr).2 = d' := by
  have hdrain : d'.tx.drain 64 = ([], d'.tx) := by
    rw [SerialTx.drain, hd'.quiet]; rfl
  rw [Disp.answer, h, hdrain]
  exact ⟨rfl, rfl⟩

/-- The display reports its pending key event in the answer to any F1 frame. -/
theorem answer_f1_pending {d : Disp} (h : d.Ready) (type b3 data b5 b6 : UInt8)
    {r : Disp.KeyReport} (hr : d.pending = some r) :
    let a := d.answer [0xF1, 0xF1, type, b3, data, b5, b6]
    Disp.Reports r.function r.mode a.1 ∧ a.2.log = d.log ++ [(r.function, r.mode)] ∧
      a.2.Ready := by
  obtain ⟨rx, hrx, hhandle⟩ := Disp.handle_f1 h.rx type b3 data b5 b6
  obtain ⟨w, sc, hredrawn⟩ := redrawn_deviceWorkModeCheck
    { d with rx := rx, work := Disp.f1Switch type data d.work }
  rw [hredrawn] at hhandle
  have hpend : Disp.pending { d with rx := rx, work := w, screen := sc } = some r := hr
  rw [Disp.answerF1, hpend] at hhandle
  exact answer_report { d with rx := rx, work := w, screen := sc } ⟨hrx, h.counter⟩ hhandle

/-- With none pending it reports nothing, or that it is there. -/
theorem answer_f1_idle {d : Disp} (h : d.Ready) (type b3 data b5 b6 : UInt8)
    (hr : d.pending = none) :
    let a := d.answer [0xF1, 0xF1, type, b3, data, b5, b6]
    (a.1 = [] ∨ Disp.Reports 1 0 a.1) ∧ a.2.reported = d.reported ∧ a.2.Ready := by
  obtain ⟨rx, hrx, hhandle⟩ := Disp.handle_f1 h.rx type b3 data b5 b6
  obtain ⟨w, sc, hredrawn⟩ := redrawn_deviceWorkModeCheck
    { d with rx := rx, work := Disp.f1Switch type data d.work }
  rw [hredrawn] at hhandle
  have hpend : Disp.pending { d with rx := rx, work := w, screen := sc } = none := hr
  rw [Disp.answerF1, hpend] at hhandle
  by_cases htick : d.timeTickCnt1 > 700
  · simp only [if_pos htick] at hhandle
    obtain ⟨hbytes, hlog, hready⟩ :=
      answer_report { d with rx := rx, work := w, screen := sc } ⟨hrx, h.counter⟩ hhandle
    refine ⟨.inr hbytes, ?_, hready⟩
    simp [Disp.reported, hlog]
  · simp only [if_neg htick] at hhandle
    obtain ⟨hbytes, hd'⟩ :=
      answer_silent { d with rx := rx, work := w, screen := sc } ⟨hrx, h.counter, h.quiet⟩ hhandle
    refine ⟨.inl hbytes, ?_, ?_⟩
    · rw [hd']; rfl
    · rw [hd']; exact ⟨hrx, h.counter, h.quiet⟩

/-- An F2 frame gets no answer. -/
theorem answer_f2 {d : Disp} (h : d.Ready) {ds : List UInt8} (hlen : ds.length = 31) :
    let a := d.answer (0xF2 :: 0xF2 :: ds)
    a.1 = [] ∧ a.2.log = d.log ∧ a.2.Ready := by
  obtain ⟨rx, buf, hrx, -, hhandle⟩ := Disp.handle_f2 h.rx hlen
  obtain ⟨w, sc, hredrawn⟩ :=
    (redrawn_deviceWorkModeCheck (Disp.takeF2 buf { d with rx := rx })).trans (redrawn_faultCheck _)
  rw [hredrawn] at hhandle
  obtain ⟨d', hd', hready⟩ : ∃ d', d.handle (0xF2 :: 0xF2 :: ds) = d' ∧
      d'.log = d.log ∧ d'.Ready := ⟨_, hhandle, rfl, hrx, h.counter, h.quiet⟩
  obtain ⟨hbytes, hsame⟩ := answer_silent d' hready.2 hd'
  exact ⟨hbytes, by rw [hsame]; exact hready.1, by rw [hsame]; exact hready.2⟩

/-! ## The three exchanges -/

theorem setDeviceWorkMode_offLine (request : Nat → Code eMBMasterReqErrCode) (type data : UInt8) :
    (setDeviceWorkMode request type data 0).Only Op.OffLine := by
  have happly : (applyCommand request type data 0).Only Op.OffLine :=
    (applyCommand_control request type data).mono fun _ => Op.Control.offLine
  unfold setDeviceWorkMode
  simp [happly, Op.OffLine]

theorem handleDisplayReply_offLine (request : Nat → Code eMBMasterReqErrCode) :
    (handleDisplayReply request).Only Op.OffLine := by
  have hframed : ∀ b e, (replyFramed b e).Only Op.OffLine := fun b e =>
    (replyFramed_plain b e).mono fun _ h => h.control.offLine
  have hsettings : takeDisplaySettings.Only Op.OffLine :=
    takeDisplaySettings_control.mono fun _ => Op.Control.offLine
  unfold handleDisplayReply
  refine .bind (hframed _ _) fun f2 => (Prog.only_ite ..).mpr ⟨fun _ => hsettings, fun _ => ?_⟩
  refine .bind (hframed _ _) fun f1 => (Prog.only_ite ..).mpr ⟨fun _ => ?_, fun _ => .ret _⟩
  simp [takeDisplayKey, setDeviceWorkMode_offLine, Op.OffLine]

/-- Of a report in the receive buffer the key events, functions 2 to 7, are
passed on. -/
theorem handleDisplayReply_delivers (request : Nat → Code eMBMasterReqErrCode) {f m : UInt8}
    {bytes : List UInt8} (hbytes : Disp.Reports f m bytes) (t : Nat) (b : Board) :
    ((handleDisplayReply request).run Board.machine t
        { b with mem := Board.receive bytes b.mem }).2.delivered =
      if f ≤ 7 ∧ f > 1 then b.delivered ++ [(f, m)] else b.delivered := by
  obtain ⟨c, x, y, rfl⟩ := hbytes
  have hcall := setDeviceWorkMode_delivers request f m t
  by_cases h7 : f ≤ 7
  · by_cases h1 : f > 1
    · rw [if_pos ⟨h7, h1⟩]
      simp [handleDisplayReply, replyFramed, Board.receive, takeDisplayKey, h7, h1, hcall]
      rfl
    · rw [if_neg fun h => h1 h.2]
      simp [handleDisplayReply, replyFramed, Board.receive, takeDisplayKey, h7, h1]
      rfl
  · rw [if_neg fun h => h7 h.1]
    simp [handleDisplayReply, replyFramed, Board.receive, takeDisplayKey, h7]
    rfl

/-- A raw request, with the display at the other end. -/
theorem run_exchange (len t : Nat) (s : Link) :
    (exchange len).run linkMachine t s =
      (if (s.2.answer (s.1.frame .rs485SendBufNotModbus len)).1 = [] then .timedOut else .revData,
        ({ s.1 with
            mem := Board.receive (s.2.answer (s.1.frame .rs485SendBufNotModbus len)).1 s.1.mem
            log := s.1.log ++ [.request (s.1.frame .rs485SendBufNotModbus len)] },
          (s.2.answer (s.1.frame .rs485SendBufNotModbus len)).2)) := rfl

/-- The part of `get_display_board_data` before its request. -/
def pollFrame : Code Unit := do
  mutexTake .modbus
  store (.rs485SendBufNotModbus 0) 0xF1
  store (.rs485SendBufNotModbus 1) 0xF1
  store (.rs485SendBufNotModbus 2) 0x01
  store (.rs485SendBufNotModbus 3) 0x01
  store (.rs485SendBufNotModbus 4) 0x00
  store (.rs485SendBufNotModbus 5) 0x02
  store (.rs485SendBufNotModbus 6) 0x7E
  store (.ucMasterRTURcvBuf 0) 0

/-- One exchange seen as a whole: code of the main board puts a frame
together, sends it, and looks at what came back. -/
theorem run_exchanged {α : Type} {before : Code Unit} {after : eMBMasterReqErrCode → Code α}
    {len : Nat} (hbefore : before.Only Op.OffLine) (hafter : ∀ c, (after c).Only Op.OffLine)
    {t : Nat} {b b₀ : Board} (d : Disp) {fr : List UInt8} (hb₀ : (before.run Board.machine t b).2 = b₀)
    (hframe : b₀.frame .rs485SendBufNotModbus len = fr) :
    ((before >>= fun _ => exchange len >>= after).run linkMachine t (b, d)).2 =
      (((after (if (d.answer fr).1 = [] then .timedOut else .revData)).run Board.machine t
        { b₀ with
          mem := Board.receive (d.answer fr).1 b₀.mem
          log := b₀.log ++ [.request fr] }).2, (d.answer fr).2) := by
  simp only [run_bind, run_link hbefore, run_exchange, run_link (hafter _), hb₀, hframe]

/-- The frame itself delivers nothing. -/
theorem run_oneExchange {α : Type} {before : Code Unit} {after : eMBMasterReqErrCode → Code α}
    {len : Nat} (hbefore : before.Only Op.Control) (hafter : ∀ c, (after c).Only Op.OffLine)
    {t : Nat} {b : Board} (d : Disp) {fr : List UInt8}
    (hframe : (before.run Board.machine t b).2.frame .rs485SendBufNotModbus len = fr) :
    ∃ b₁ : Board, b₁.delivered = b.delivered ∧
      ((before >>= fun _ => exchange len >>= after).run linkMachine t (b, d)).2 =
        (((after (if (d.answer fr).1 = [] then .timedOut else .revData)).run Board.machine t
          { b₁ with mem := Board.receive (d.answer fr).1 b₁.mem }).2, (d.answer fr).2) := by
  have hb₀ := run_delivered hbefore t b
  have hrun := run_exchanged (hbefore.mono fun _ => Op.Control.offLine) hafter d rfl hframe
  refine ⟨{ (before.run Board.machine t b).2 with
    log := (before.run Board.machine t b).2.log ++ [.request fr] }, ?_, hrun⟩
  rw [← hb₀]
  simp [Board.delivered]

/-- What an exchange may do to the two lists of key events: the display
reports some, and the main board passes on exactly these. -/
def Link.Relays (s s' : Link) : Prop :=
  s'.2.Ready ∧ ∃ evs, s'.1.delivered = s.1.delivered ++ evs ∧ s'.2.reported = s.2.reported ++ evs

/-- Or the display reports one that the main board does not pass on. -/
def Link.Drops (s s' : Link) : Prop :=
  s'.2.Ready ∧ s'.1.delivered = s.1.delivered ∧ ∃ ev, s'.2.reported = s.2.reported ++ [ev]

theorem reported_key {d d' : Disp} {f m : UInt8} (h : d'.log = d.log ++ [(f, m)]) (hf : 2 ≤ f) :
    d'.reported = d.reported ++ [(f, m)] := by
  have hne : f ≠ 1 := by rintro rfl; exact absurd hf (by decide)
  simp [Disp.reported, h, hne]

/-- What `get_display_board_data` does once its request has returned. -/
def pollTail (errorCode : eMBMasterReqErrCode) : Code Unit := do
  Prog.when (errorCode = .revData) (handleDisplayReply exchange)
  mutexRelease .modbus

theorem pollTail_offLine (c : eMBMasterReqErrCode) : (pollTail c).Only Op.OffLine :=
  .bind ((only_when ..).mpr fun _ => handleDisplayReply_offLine exchange) fun _ => by
    simp [Op.OffLine]

theorem pollTail_delivered (c : eMBMasterReqErrCode) (t : Nat) (b : Board) :
    ((pollTail c).run Board.machine t b).2.delivered =
      if c = .revData then ((handleDisplayReply exchange).run Board.machine t b).2.delivered
      else b.delivered := by
  rw [pollTail, run_bind, run_when]
  split <;> rfl

/-- A poll passes on the key event it is answered with. -/
theorem poll_relays {d : Disp} (h : d.Ready) (t : Nat) (b : Board) :
    Link.Relays (b, d) ((getDisplayBoardData exchange).run linkMachine t (b, d)).2 := by
  have hbefore : pollFrame.Only Op.Control := by simp [pollFrame, Op.Control, Addr.Rx, Addr.Master]
  have hframe : ((pollFrame.run Board.machine t b).2).frame .rs485SendBufNotModbus 7 =
      [0xF1, 0xF1, 0x01, 0x01, 0x00, 0x02, 0x7E] := by
    simp [pollFrame, Board.frame, List.range, List.range.loop]
  obtain ⟨b₁, hb₁, hrun⟩ := run_oneExchange hbefore pollTail_offLine d hframe
  have hprog : getDisplayBoardData exchange =
      (pollFrame >>= fun _ => exchange 7 >>= pollTail) := rfl
  rw [hprog, hrun]
  cases hp : d.pending with
  | some r =>
      have hanswer := answer_f1_pending h 0x01 0x01 0x00 0x02 0x7E hp
      generalize d.answer [0xF1, 0xF1, 0x01, 0x01, 0x00, 0x02, 0x7E] = a at hanswer ⊢
      obtain ⟨hrep, hlog, hready⟩ := hanswer
      obtain ⟨h2, h7⟩ := pending_function hp
      refine ⟨hready, [(r.function, r.mode)], ?_, reported_key hlog h2⟩
      have h1 : r.function > 1 := UInt8.lt_of_lt_of_le (by decide) h2
      rw [if_neg hrep.ne_nil, pollTail_delivered, if_pos rfl,
        handleDisplayReply_delivers exchange hrep t b₁, if_pos ⟨h7, h1⟩, hb₁]
  | none =>
      have hanswer := answer_f1_idle h 0x01 0x01 0x00 0x02 0x7E hp
      generalize d.answer [0xF1, 0xF1, 0x01, 0x01, 0x00, 0x02, 0x7E] = a at hanswer ⊢
      obtain ⟨hbytes, hlog, hready⟩ := hanswer
      refine ⟨hready, [], ?_, by rw [hlog, List.append_nil]⟩
      rw [List.append_nil, pollTail_delivered]
      rcases hbytes with hnil | hrep
      · rw [if_pos hnil, if_neg (by decide)]
        exact hb₁
      · rw [if_neg hrep.ne_nil, if_pos rfl, handleDisplayReply_delivers exchange hrep t b₁,
          if_neg (by decide), hb₁]

/-- What the two senders do once their request has returned. -/
def ignoreTail (errorCode : eMBMasterReqErrCode) : Code Unit := do
  ignoreReply errorCode
  mutexRelease .modbus

theorem ignoreTail_control (c : eMBMasterReqErrCode) : (ignoreTail c).Only Op.Control :=
  .bind ((ignoreReply_plain c).mono fun _ => Op.Plain.control) fun _ => by simp [Op.Control]

theorem ignoreTail_delivered (c : eMBMasterReqErrCode) (t : Nat) (b : Board) :
    ((ignoreTail c).run Board.machine t b).2.delivered = b.delivered :=
  run_delivered (ignoreTail_control c) t b

theorem delivered_receive (bytes : List UInt8) (b : Board) :
    Board.delivered { b with mem := Board.receive bytes b.mem } = b.delivered := rfl

/-- The part of `set_display_board_data` before its request. -/
def pushFrame : Code Unit := do
  mutexTake .modbus
  dispBoardPacketData 29
  store (.ucMasterRTURcvBuf 0) 0

/-- The rest of `disp_board_packet_data` behind the two header bytes. -/
def packetRest (buftmp : List UInt8) (chk : UInt8) : Code Unit := do
  let chk ← Prog.foldUpTo (fun i chk => do
    store (.rs485SendBufNotModbus (i + 2)) (buftmp.getD i 0)
    pure (chk + buftmp.getD i 0)) 29 chk
  store (.rs485SendBufNotModbus (29 + 2)) chk
  store (.rs485SendBufNotModbus (29 + 3)) 0x7E

theorem packetRest_leaves {i : Nat} (hi : i < 2) (buftmp : List UInt8) (chk : UInt8) :
    (packetRest buftmp chk).Only (Op.Leaves (.rs485SendBufNotModbus i)) := by
  have hne : ∀ j, j + 2 ≠ i := by omega
  have h31 : 31 ≠ i := by omega
  have h32 : 32 ≠ i := by omega
  unfold packetRest
  refine .bind (.foldUpTo fun j chk _ => ?_) fun chk => ?_
  · simp [Op.Leaves, hne]
  · simp [Op.Leaves, h31, h32]

/-- Its frame begins as an F2 frame does. -/
theorem pushFrame_head {i : Nat} (hi : i < 2) (t : Nat) (b : Board) :
    ((pushFrame.run Board.machine t b).2).mem (.rs485SendBufNotModbus i) = 0xF2 := by
  have hpacket : ∀ b : Board,
      (((dispBoardPacketData 29).run Board.machine t b).2).mem (.rs485SendBufNotModbus i) = 0xF2 := by
    intro b
    have hprog : dispBoardPacketData 29 = (Prog.foldUpTo (fun i data => do
        let b ← load (work i)
        pure (data ++ [b])) 27 [] >>= fun data => Prog.foldUpTo (fun _ rest => do
        let b ← undef
        pure (rest ++ [b])) 6 [] >>= fun rest => undef >>= fun chk =>
        store (.rs485SendBufNotModbus 0) 0xF2 >>= fun _ =>
        store (.rs485SendBufNotModbus 1) 0xF2 >>= fun _ =>
        packetRest ((0x01 :: 0x1b :: data) ++ rest) chk) := rfl
    simp only [hprog, run_bind, run_leaves (packetRest_leaves hi _ _)]
    have hcase : i = 0 ∨ i = 1 := by omega
    rcases hcase with rfl | rfl
    · simp
    · simp
  simp [pushFrame, hpacket]

theorem pushFrame_control : pushFrame.Only Op.Control := by
  unfold pushFrame
  refine .bind (by simp [Op.Control]) fun _ => .bind
    ((dispBoardPacketData_plain 29).mono fun _ => Op.Plain.control) fun _ => ?_
  simp [Op.Control, Addr.Rx, Addr.Master]

/-- A push gets no answer, and no key event is reported. -/
theorem push_relays {d : Disp} (h : d.Ready) (t : Nat) (b : Board) :
    Link.Relays (b, d) ((setDisplayBoardData exchange).run linkMachine t (b, d)).2 := by
  obtain ⟨ds, hlen, hframe⟩ : ∃ ds : List UInt8, ds.length = 31 ∧
      (pushFrame.run Board.machine t b).2.frame .rs485SendBufNotModbus 33 =
        0xF2 :: 0xF2 :: ds := by
    refine ⟨(List.range 31).map fun i =>
      (pushFrame.run Board.machine t b).2.mem (.rs485SendBufNotModbus (i + 2)), by simp, ?_⟩
    rw [Board.frame, List.range_succ_eq_map, List.range_succ_eq_map]
    simp [pushFrame_head]
  obtain ⟨b₁, hb₁, hrun⟩ := run_oneExchange pushFrame_control
    (fun c => (ignoreTail_control c).mono fun _ => Op.Control.offLine) d hframe
  have hprog : setDisplayBoardData exchange =
      (pushFrame >>= fun _ => exchange 33 >>= ignoreTail) := by
    simp only [pushFrame, bind_assoc]; rfl
  have hanswer := answer_f2 h hlen
  rw [hprog, hrun]
  generalize d.answer (0xF2 :: 0xF2 :: ds) = a at hanswer ⊢
  obtain ⟨-, hlog, hready⟩ := hanswer
  refine ⟨hready, [], ?_, ?_⟩
  · rw [ignoreTail_delivered, delivered_receive, hb₁, List.append_nil]
  · rw [Disp.reported, hlog, List.append_nil, Disp.reported]

/-- The part of `set_dispboard_function_mode` before its request. -/
def commandFrame (mode : UInt8) : Code Unit := do
  let tmpbuf1 ← undef
  let tmpbuf2 ← undef
  mutexTake .modbus
  sendPacketData [mode, tmpbuf1, tmpbuf2]
  store (.ucMasterRTURcvBuf 0) 0

theorem commandFrame_control (mode : UInt8) : (commandFrame mode).Only Op.Control := by
  unfold commandFrame
  refine .bind (by simp [Op.Control]) fun t1 => .bind (by simp [Op.Control]) fun t2 =>
    .bind (by simp [Op.Control]) fun _ => .bind
    ((sendPacketData_plain _).mono fun _ => Op.Plain.control) fun _ => ?_
  simp [Op.Control, Addr.Rx, Addr.Master]

/-- A command frame is answered as a poll is, but the answer is not passed
on: a pending key event is dropped. -/
theorem command_drops {d : Disp} (h : d.Ready) (type mode : UInt8) (t : Nat) (b : Board) :
    let s' := ((setDispboardFunctionMode exchange type mode).run linkMachine t (b, d)).2
    (d.pending = none → Link.Relays (b, d) s') ∧ (d.pending ≠ none → Link.Drops (b, d) s') := by
  have hframe : ((commandFrame mode).run Board.machine t b).2.frame .rs485SendBufNotModbus 7 =
      [0xF1, 0xF1, mode, b.stack 0, b.stack 1, b.stack 2 + mode + b.stack 0 + b.stack 1, 0x7E] := by
    simp [commandFrame, sendPacketData, Prog.foldUpTo, Board.frame, List.range, List.range.loop]
  obtain ⟨b₁, hb₁, hrun⟩ := run_oneExchange (commandFrame_control mode)
    (fun c => (ignoreTail_control c).mono fun _ => Op.Control.offLine) d hframe
  have hprog : setDispboardFunctionMode exchange type mode =
      (commandFrame mode >>= fun _ => exchange 7 >>= ignoreTail) := by
    simp only [commandFrame, bind_assoc]; rfl
  rw [hprog, hrun]
  constructor
  · intro hp
    have hanswer := answer_f1_idle h mode (b.stack 0) (b.stack 1)
      (b.stack 2 + mode + b.stack 0 + b.stack 1) 0x7E hp
    generalize d.answer _ = a at hanswer ⊢
    obtain ⟨-, hlog, hready⟩ := hanswer
    refine ⟨hready, [], ?_, by rw [hlog, List.append_nil]⟩
    rw [ignoreTail_delivered, delivered_receive, hb₁, List.append_nil]
  · intro hp
    obtain ⟨r, hr⟩ := Option.ne_none_iff_exists'.mp hp
    have hanswer := answer_f1_pending h mode (b.stack 0) (b.stack 1)
      (b.stack 2 + mode + b.stack 0 + b.stack 1) 0x7E hr
    generalize d.answer _ = a at hanswer ⊢
    obtain ⟨-, hlog, hready⟩ := hanswer
    refine ⟨hready, ?_, (r.function, r.mode), reported_key hlog (pending_function hr).1⟩
    rw [ignoreTail_delivered, delivered_receive, hb₁]

/-! ## Runs of the link -/

inductive Key where
  | power
  | mode
  | modeLong
  | esd
  | pht
  | wind
  deriving DecidableEq, Repr

def Disp.press : Key → Disp → Disp
  | .power => powerKey
  | .mode => mainSwitchKey
  | .modeLong => mainSwitchKeyLong
  | .esd => esdKey
  | .pht => phtKey
  | .wind => windKey

/-- What may happen next on the link, and on which of the main board's threads. -/
inductive LinkStep where
  | press (k : Key)
  /-- The display's millisecond counter has moved on. -/
  | tick (timeTickCnt1 : UInt32)
  /-- The main board's other threads have run; they log no display event. -/
  | others (b : Board)
  | poll (t : Nat)
  | push (t : Nat)
  | command (t : Nat) (type mode : UInt8)

def linkStep : LinkStep → Link → Link
  | .press k, s => (s.1, s.2.press k)
  | .tick n, s => (s.1, { s.2 with timeTickCnt1 := n })
  | .others b, s => ({ b with log := s.1.log }, s.2)
  | .poll t, s => ((getDisplayBoardData exchange).run linkMachine t s).2
  | .push t, s => ((setDisplayBoardData exchange).run linkMachine t s).2
  | .command t type mode, s => ((setDispboardFunctionMode exchange type mode).run linkMachine t s).2

def linkRun : List LinkStep → Link → Link
  | [], s => s
  | st :: sts, s => linkRun sts (linkStep st s)

/-- A command frame goes out only when the display has no key event to report. -/
def LinkStep.Waits : LinkStep → Link → Prop
  | .command _ _ _, s => s.2.pending = none
  | _, _ => True

/-- Every command frame of the run does. -/
def CommandsWait : List LinkStep → Link → Prop
  | [], _ => True
  | st :: sts, s => st.Waits s ∧ CommandsWait sts (linkStep st s)

/-- A key does not answer anything. -/
theorem press_silent (k : Key) (d : Disp) : (d.press k).log = d.log ∧ (d.press k).rx = d.rx ∧
    (d.press k).tx = d.tx := by
  have hite : ∀ (c : Prop) [Decidable c] {x y : Disp},
      x.log = d.log ∧ x.rx = d.rx ∧ x.tx = d.tx → y.log = d.log ∧ y.rx = d.rx ∧ y.tx = d.tx →
      (if c then x else y).log = d.log ∧ (if c then x else y).rx = d.rx ∧
        (if c then x else y).tx = d.tx := by
    intro c _ x y hx hy
    split
    · exact hx
    · exact hy
  have hrefl : d.log = d.log ∧ d.rx = d.rx ∧ d.tx = d.tx := ⟨rfl, rfl, rfl⟩
  cases k with
  | power => exact hrefl
  | mode => exact hite _ hrefl (hite _ hrefl (hite _ hrefl (hite _ hrefl hrefl)))
  | modeLong => exact hite _ hrefl hrefl
  | esd => exact hite _ hrefl (hite _ hrefl (hite _ hrefl hrefl))
  | pht => exact hite _ hrefl (hite _ hrefl (hite _ hrefl hrefl))
  | wind => exact hite _ hrefl hrefl

theorem relays_of_silent {b b' : Board} {d d' : Disp} (h : d.Ready) (hb : b'.log = b.log)
    (hlog : d'.log = d.log) (hrx : d'.rx = d.rx) (htx : d'.tx = d.tx) :
    Link.Relays (b, d) (b', d') := by
  refine ⟨⟨?_, ?_, ?_⟩, [], ?_, ?_⟩
  · rw [hrx]; exact h.rx
  · rw [htx]; exact h.counter
  · rw [htx]; exact h.quiet
  · rw [List.append_nil, Board.delivered, hb, Board.delivered]
  · rw [List.append_nil, Disp.reported, hlog, Disp.reported]

/-- A step passes on all the key events it makes the display report, or it is
a command frame that drops one. -/
theorem linkStep_spec {s : Link} (h : s.2.Ready) (st : LinkStep) :
    (st.Waits s → Link.Relays s (linkStep st s)) ∧ (¬ st.Waits s → Link.Drops s (linkStep st s)) := by
  obtain ⟨b, d⟩ := s
  cases st with
  | press k =>
      obtain ⟨hlog, hrx, htx⟩ := press_silent k d
      exact ⟨fun _ => relays_of_silent h rfl hlog hrx htx, fun hno => absurd trivial hno⟩
  | tick n => exact ⟨fun _ => relays_of_silent h rfl rfl rfl rfl, fun hno => absurd trivial hno⟩
  | others b' => exact ⟨fun _ => relays_of_silent h rfl rfl rfl rfl, fun hno => absurd trivial hno⟩
  | poll t => exact ⟨fun _ => poll_relays h t b, fun hno => absurd trivial hno⟩
  | push t => exact ⟨fun _ => push_relays h t b, fun hno => absurd trivial hno⟩
  | command t type mode => exact command_drops h type mode t b

/-- Once the main board is behind the display, it stays behind. -/
theorem linkRun_behind (sts : List LinkStep) {s : Link} (h : s.2.Ready)
    (hbehind : s.1.delivered.length < s.2.reported.length) :
    (linkRun sts s).1.delivered.length < (linkRun sts s).2.reported.length := by
  induction sts generalizing s with
  | nil => exact hbehind
  | cons st sts ih =>
      obtain ⟨hrelays, hdrops⟩ := linkStep_spec h st
      by_cases hw : st.Waits s
      · obtain ⟨hready, evs, hdel, hrep⟩ := hrelays hw
        refine ih hready ?_
        rw [hdel, hrep, List.length_append, List.length_append]
        omega
      · obtain ⟨hready, hdel, ev, hrep⟩ := hdrops hw
        refine ih hready ?_
        rw [hdel, hrep, List.length_append]
        omega

/-- **When no key event is lost between the boards.** From boards that agree
on the key events so far, the main board has passed on exactly what the
display reported, in its order, if and only if no command frame went out
while the display had a key event to report. -/
theorem delivered_eq_reported_iff (sts : List LinkStep) (s : Link) (h : s.2.Ready)
    (hagree : s.1.delivered = s.2.reported) :
    (linkRun sts s).1.delivered = (linkRun sts s).2.reported ↔ CommandsWait sts s := by
  induction sts generalizing s with
  | nil => exact ⟨fun _ => trivial, fun _ => hagree⟩
  | cons st sts ih =>
      obtain ⟨hrelays, hdrops⟩ := linkStep_spec h st
      by_cases hw : st.Waits s
      · obtain ⟨hready, evs, hdel, hrep⟩ := hrelays hw
        have hrest := ih (linkStep st s) hready (by rw [hdel, hrep, hagree])
        exact hrest.trans ⟨fun hc => ⟨hw, hc⟩, fun hc => hc.2⟩
      · obtain ⟨hready, hdel, ev, hrep⟩ := hdrops hw
        have hbehind := linkRun_behind sts hready (by
          rw [hdel, hrep, hagree, List.length_append]
          exact Nat.lt_succ_self _)
        refine ⟨fun heq => ?_, fun hc => absurd hc.1 hw⟩
        have heq' : (linkRun sts (linkStep st s)).1.delivered =
            (linkRun sts (linkStep st s)).2.reported := heq
        rw [heq'] at hbehind
        exact absurd hbehind (Nat.lt_irrefl _)

theorem ready_reset : Disp.reset.Ready := ⟨rfl, rfl, rfl⟩

theorem delivered_eq_reported_iff_reset :
    (linkRun [.press .power, .poll 0, .command 1 0x02 0] (Board.reset, Disp.reset)).1.delivered =
        (linkRun [.press .power, .poll 0, .command 1 0x02 0] (Board.reset, Disp.reset)).2.reported ↔
      CommandsWait [.press .power, .poll 0, .command 1 0x02 0] (Board.reset, Disp.reset) :=
  delivered_eq_reported_iff _ _ ready_reset rfl

/-- A key is pressed, and the next frame is a command. -/
theorem delivered_eq_reported_counterexample :
    (linkRun [.press .power, .command 0 0x03 1] (Board.reset, Disp.reset)).1.delivered ≠
      (linkRun [.press .power, .command 0 0x03 1] (Board.reset, Disp.reset)).2.reported := by
  have hready : (Disp.reset.press .power).Ready := ⟨rfl, rfl, rfl⟩
  obtain ⟨-, hdel, ev, hrep⟩ := (command_drops hready 0x03 1 0 Board.reset).2 (by decide)
  intro heq
  have hnil : ([] : List (UInt8 × UInt8)) = [ev] := hdel.symm.trans (heq.trans hrep)
  cases hnil

end Aclean
