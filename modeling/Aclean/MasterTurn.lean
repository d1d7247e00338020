import Aclean.MasterStage

/-!
# Whose turn it is on the RS485 master

From the run resource taken to the run resource released a request passes
through four hands: the caller prepares it, the poll thread sends it, the
transmit thread puts it on the line, and the timer ends the wait for the
answer, which the poll thread judges. The hand-overs are an event, the start
of the transmitter and the timer, and one of them at most is pending. So at
any moment of any run the master is in *one* hand, and what a thread finds in
the master's data follows from its own place.

This needs that nothing arrives on the line while the master does not listen
for an answer.
-/

namespace Aclean

/-! ## Turns -/

/-- Who has the master in hand. -/
inductive Turn where
  | free
  | thread (t : Nat) (l : Stage)
  | event (e : MasterEvent)
  | trans
  | timer
  deriving DecidableEq

namespace Turn

/-- The places of all threads: who has not got the turn is idle. -/
def stages : Turn → Nat → Stage
  | thread t l => Function.update idleStage t l
  | _ => idleStage

def transmits : Turn → Bool
  | thread _ l => l.transmits
  | trans => true
  | _ => false

end Turn

/-- The timer runs: for an answer, or for the end of one. -/
def Master.Waits (m : Master) : Prop :=
  (m.eRcvState = .idle ∧ m.eSndState = .xfwr ∧ m.eMasterCurTimerMode =
    if m.xFrameIsBroadcast then .convertDelay else .respondTimeout) ∨
  ((m.eRcvState = .rcv ∨ m.eRcvState = .error) ∧ m.eSndState = .idle ∧
    m.eMasterCurTimerMode = .t35)

/-- What a thread in its place relies on. -/
def Stage.Relies : Stage → Master → Prop
  | addressing a _ _, _ => a ≤ masterTotalSlaveNum
  | entered, m | counting, m | putting, m | advancing, m | decrementing, m => m.eSndState = .xmit
  | stopping b, m | stopped b, m => m.xFrameIsBroadcast = b
  | waiting b, m | timing b, m => m.xFrameIsBroadcast = b ∧ m.eSndState = .xfwr
  | _, _ => True

def Turn.Relies : Turn → Master → Prop
  | free, _ => True
  | thread _ l, m => l.Relies m
  | event e, _ => e ∈ [MasterEvent.frameReceived, .execute, .frameSent, .errorProcess]
  | trans, m => m.eSndState = .xmit
  | timer, m => m.Waits

/-- The master is in hand `u`. -/
structure Cycle (u : Turn) (m : Master) : Prop where
  runRes : m.runRes = if u = .free then 1 else 0
  event : ∀ e ∈ pollEvents, m.event e = true ↔ u = .event e
  transStart : m.transStart = u.transmits
  timer : m.timer = true ↔ u = .timer
  listening : u ≠ .timer → m.eRcvState = .idle
  dest : m.ucMBMasterDestAddress ≤ masterTotalSlaveNum
  active : ∀ t l, u = .thread t l → l.home = idleStage t ∧ l ≠ l.home
  relies : u.Relies m

/-- What a step does to the turn. -/
inductive Move : Turn → Nat → (o : BusOp) → BusAr o → Turn → Prop where
  | idle {u : Turn} {t : Nat} {o : BusOp} {x : BusAr o} (ht : idleStage t = .callerIdle)
      (h : Stage.callerIdle.Allows o) (hne : o ≠ .runResTake) : Move u t o x u
  | take {t : Nat} : Move .free t .runResTake () (.thread t .taken)
  | step {t : Nat} {l : Stage} {o : BusOp} {x : BusAr o} (ht : l.home = idleStage t)
      (h : l.Allows o) (hl : l ≠ l.home) (hnext : l.next o x ≠ l.home) :
      Move (.thread t l) t o x (.thread t (l.next o x))
  | post {t : Nat} {r : Request} :
      Move (.thread t (.prepared r)) t (.eventPost .frameSent) () (.event .frameSent)
  | poll {e : MasterEvent} :
      Move (.event e) pollThread (.eventRecv pollEvents) [e]
        (.thread pollThread (if [e] = [.frameSent] then .sending else .polling))
  | sendRTU {t n : Nat} {d : UInt8} :
      Move (.thread t (.sendingRTU d n)) t (.rtuSend d n) true .trans
  | sendRaw {t n : Nat} : Move (.thread t (.sendingRawOf n)) t (.sendNotDatas n) true .trans
  | pass {t : Nat} {e : MasterEvent} (h : e = .execute ∨ e = .errorProcess) :
      Move (.thread t .polling) t (.eventPost e) () (.event e)
  | release {t : Nat} : Move (.thread t .releasing) t .runResRelease () .free
  | enter : Move .trans transThread .transStartWait () (.thread transThread .entered)
  | decrement {t : Nat} : Move (.thread t .decrementing) t .decSndBufferCount () .trans
  | time {t : Nat} {b : Bool} {o : BusOp} {x : BusAr o} (h : (Stage.timing b).Allows o) :
      Move (.thread t (.timing b)) t o x .timer

/-! ## A step of a run -/

/-- What is to be shown of a step: the answer is one the thread may count on,
and the turn moves. -/
def Steps (u : Turn) (t : Nat) (o : BusOp) (s : Bus) : Prop :=
  (u.stages t).Answers o (Bus.exec t o s).1 ∧ ∃ u', Move u t o (Bus.exec t o s).1 u' ∧
    Function.update u.stages t ((u.stages t).next o (Bus.exec t o s).1) = u'.stages ∧
    Cycle u' (Bus.exec t o s).2.master

/-- The two agree in what tells the turn. -/
structure Master.SameTurn (m m' : Master) : Prop where
  runRes : m'.runRes = m.runRes
  event : ∀ e ∈ pollEvents, m'.event e = m.event e
  transStart : m'.transStart = m.transStart
  timer : m'.timer = m.timer
  eRcvState : m'.eRcvState = m.eRcvState

theorem Master.SameTurn.refl (m : Master) : m.SameTurn m := ⟨rfl, fun _ _ => rfl, rfl, rfl, rfl⟩

@[simp] theorem Turn.stages_self (t : Nat) (l : Stage) : (Turn.thread t l).stages t = l :=
  Function.update_self ..

theorem Turn.update_stages (t : Nat) (l l' : Stage) :
    Function.update (Turn.thread t l).stages t l' = (Turn.thread t l').stages :=
  Function.update_idem ..

section Step

variable {t : Nat} {l : Stage} {o : BusOp} {s : Bus}

theorem Cycle.update_home {m : Master} (h : Cycle (.thread t l) m) :
    Function.update (Turn.thread t l).stages t l.home = idleStage := by
  rw [Turn.update_stages, (h.active t l rfl).1]
  exact Function.update_eq_self ..

/-- The thread keeps the turn. -/
theorem Cycle.goOn {m m' : Master} (h : Cycle (.thread t l) m) (hm : m.SameTurn m')
    (hdest : m'.ucMBMasterDestAddress ≤ masterTotalSlaveNum) {l' : Stage}
    (hhome : l'.home = l.home) (hne : l' ≠ l.home) (htrans : l'.transmits = l.transmits)
    (hrelies : l'.Relies m') : Cycle (.thread t l') m' where
  runRes := hm.runRes.trans h.runRes
  event := fun e he => by
    rw [hm.event e he, h.event e he]
    exact ⟨nofun, nofun⟩
  transStart := hm.transStart.trans (h.transStart.trans htrans.symm)
  timer := by
    rw [hm.timer, h.timer]
    exact ⟨nofun, nofun⟩
  listening := fun _ => hm.eRcvState.trans (h.listening nofun)
  dest := hdest
  active := by
    intro t' l'' heq
    cases heq
    exact ⟨hhome.trans (h.active t l rfl).1, hhome ▸ hne⟩
  relies := hrelies

theorem Cycle.steps (h : Cycle (.thread t l) s.master) (hok : l.Allows o)
    (hm : s.master.SameTurn (Bus.exec t o s).2.master)
    (hdest : (Bus.exec t o s).2.master.ucMBMasterDestAddress ≤ masterTotalSlaveNum)
    (hanswers : l.Answers o (Bus.exec t o s).1) {l' : Stage}
    (hnext : l.next o (Bus.exec t o s).1 = l') (hhome : l'.home = l.home) (hne : l' ≠ l.home)
    (htrans : l'.transmits = l.transmits) (hrelies : l'.Relies (Bus.exec t o s).2.master) :
    Steps (.thread t l) t o s := by
  subst hnext
  refine ⟨by rwa [Turn.stages_self], _, .step (h.active t l rfl).1 hok (h.active t l rfl).2 hne, ?_, ?_⟩
  · rw [Turn.stages_self, Turn.update_stages]
  · exact h.goOn hm hdest hhome hne htrans hrelies

/-- An event hands the turn over. -/
theorem Cycle.postEvent {m : Master} (h : Cycle (.thread t l) m) (htrans : l.transmits = false)
    {e : MasterEvent} (he : e ∈ [MasterEvent.frameReceived, .execute, .frameSent, .errorProcess]) :
    Cycle (.event e) (m.eventPost e) where
  runRes := h.runRes
  event := fun e' he' => by
    by_cases heq : e' = e
    · subst heq
      simp [Master.eventPost]
    · have hnone := (h.event e' he').not.mpr nofun
      simp [Master.eventPost, Function.update_of_ne heq, hnone, Ne.symm heq]
  transStart := h.transStart.trans htrans
  timer := h.timer.trans ⟨nofun, nofun⟩
  listening := fun _ => h.listening nofun
  dest := h.dest
  active := nofun
  relies := he

theorem steps_post {r : Request} (h : Cycle (.thread t (.prepared r)) s.master) :
    Steps (.thread t (.prepared r)) t (.eventPost .frameSent) s := by
  refine ⟨by rw [Turn.stages_self]; trivial, _, .post, ?_, h.postEvent rfl (by decide)⟩
  rw [Turn.stages_self]
  exact h.update_home

theorem steps_pass {e : MasterEvent} (h : Cycle (.thread t .polling) s.master)
    (he : e = .execute ∨ e = .errorProcess) : Steps (.thread t .polling) t (.eventPost e) s := by
  have hnext : Stage.polling.next (.eventPost e) () = Stage.polling.home := by
    rcases he with rfl | rfl <;> rfl
  have hmem : e ∈ [MasterEvent.frameReceived, .execute, .frameSent, .errorProcess] := by
    rcases he with rfl | rfl <;> decide
  refine ⟨by rw [Turn.stages_self]; trivial, _, .pass he, ?_, h.postEvent rfl hmem⟩
  rw [Turn.stages_self, hnext]
  exact h.update_home

theorem steps_complete {e : MasterEvent} (h : Cycle (.thread t .polling) s.master)
    (he : e ∈ finishEvents) : Steps (.thread t .polling) t (.eventPost e) s := by
  refine h.steps (.complete he) ⟨rfl, fun e' he' => ?_, rfl, rfl, rfl⟩ h.dest trivial
    (if_pos he) rfl nofun rfl trivial
  refine Function.update_of_ne ?_ _ _
  rintro rfl
  revert he he'
  cases e' <;> decide

theorem steps_release (h : Cycle (.thread t .releasing) s.master) :
    Steps (.thread t .releasing) t .runResRelease s := by
  refine ⟨by rw [Turn.stages_self]; trivial, _, .release, ?_, ?_⟩
  · rw [Turn.stages_self]
    exact h.update_home
  · exact {
      runRes := congrArg (· + 1) h.runRes
      event := fun e he => (h.event e he).trans ⟨nofun, nofun⟩
      transStart := h.transStart
      timer := h.timer.trans ⟨nofun, nofun⟩
      listening := fun _ => h.listening nofun
      dest := h.dest
      active := nofun
      relies := trivial }

/-- The poll thread starts the transmitter. -/
theorem Cycle.activate (h : Cycle (.thread t l) s.master) (buf : SndBuf) (count : Nat) :
    Cycle .trans (s.activate buf count).master where
  runRes := h.runRes
  event := fun e he => (h.event e he).trans ⟨nofun, nofun⟩
  transStart := rfl
  timer := h.timer.trans ⟨nofun, nofun⟩
  listening := fun _ => h.listening nofun
  dest := h.dest
  active := nofun
  relies := rfl

theorem steps_sendRaw {n : Nat} (h : Cycle (.thread t (.sendingRawOf n)) s.master) :
    Steps (.thread t (.sendingRawOf n)) t (.sendNotDatas n) s := by
  have hexec : Bus.exec t (.sendNotDatas n) s = (true, s.activate .notModbus n) :=
    if_pos (h.listening nofun)
  unfold Steps
  rw [hexec]
  refine ⟨by rw [Turn.stages_self]; trivial, _, .sendRaw, ?_, h.activate _ _⟩
  rw [Turn.stages_self]
  exact h.update_home

theorem steps_sendRTU {d : UInt8} {n : Nat} (h : Cycle (.thread t (.sendingRTU d n)) s.master) :
    Steps (.thread t (.sendingRTU d n)) t (.rtuSend d n) s := by
  have hexec : Bus.exec t (.rtuSend d n) s = (true, (s.framed d n).activate .masterRTU (n + 3)) :=
    if_pos (h.listening nofun)
  unfold Steps
  rw [hexec]
  refine ⟨by rw [Turn.stages_self]; trivial, _, .sendRTU, ?_, ?_⟩
  · rw [Turn.stages_self]
    exact h.update_home
  · exact Cycle.activate (s := s.framed d n) h _ _

theorem steps_decrement (h : Cycle (.thread t .decrementing) s.master) :
    Steps (.thread t .decrementing) t .decSndBufferCount s := by
  refine ⟨by rw [Turn.stages_self]; trivial, _, .decrement, ?_, ?_⟩
  · rw [Turn.stages_self]
    exact h.update_home
  · exact {
      runRes := h.runRes
      event := fun e he => (h.event e he).trans ⟨nofun, nofun⟩
      transStart := h.transStart
      timer := h.timer.trans ⟨nofun, nofun⟩
      listening := fun _ => h.listening nofun
      dest := h.dest
      active := nofun
      relies := h.relies }

theorem steps_stop {b : Bool} (h : Cycle (.thread t (.stopping b)) s.master) :
    Steps (.thread t (.stopping b)) t .serialEnableRx s := by
  refine ⟨by rw [Turn.stages_self]; trivial, _, .step (h.active t _ rfl).1 .stop nofun nofun, ?_, ?_⟩
  · rw [Turn.stages_self]
    exact Turn.update_stages ..
  · exact {
      runRes := h.runRes
      event := fun e he => (h.event e he).trans ⟨nofun, nofun⟩
      transStart := rfl
      timer := h.timer.trans ⟨nofun, nofun⟩
      listening := fun _ => h.listening nofun
      dest := h.dest
      active := by
        intro t' l' heq
        cases heq
        exact ⟨(h.active t _ rfl).1, nofun⟩
      relies := h.relies }

/-- The timer is started in the mode for the kind of frame. -/
theorem steps_time {b : Bool} (h : Cycle (.thread t (.timing b)) s.master)
    (hok : (Stage.timing b).Allows o) : Steps (.thread t (.timing b)) t o s := by
  obtain ⟨hb, hsnd⟩ := h.relies
  have htimer : ∀ m', m'.runRes = s.master.runRes → m'.event = s.master.event →
      m'.transStart = s.master.transStart → m'.timer = true →
      m'.ucMBMasterDestAddress = s.master.ucMBMasterDestAddress → m'.Waits → Cycle .timer m' := by
    intro m' hrun hevent htrans htimer hdest hwaits
    exact {
      runRes := hrun.trans h.runRes
      event := fun e he => by
        rw [hevent]
        exact (h.event e he).trans ⟨nofun, nofun⟩
      transStart := htrans.trans h.transStart
      timer := ⟨fun _ => rfl, fun _ => htimer⟩
      listening := fun hne => absurd rfl hne
      dest := hdest ▸ h.dest
      active := nofun
      relies := hwaits }
  have hwaits : ∀ mode, mode = (if b then TimerMode.convertDelay else .respondTimeout) →
      Master.Waits { s.master with eMasterCurTimerMode := mode, timer := true } := by
    rintro mode rfl
    exact .inl ⟨h.listening nofun, hsnd, by rw [← hb]⟩
  have hstages : Function.update (Turn.thread t (.timing b)).stages t Stage.transIdle = idleStage :=
    h.update_home
  cases hok with
  | convertDelay =>
      refine ⟨by rw [Turn.stages_self]; trivial, _, .time .convertDelay, ?_, ?_⟩
      · rwa [Turn.stages_self]
      · exact htimer _ rfl rfl rfl rfl rfl (hwaits _ rfl)
  | respondTimeout =>
      refine ⟨by rw [Turn.stages_self]; trivial, _, .time .respondTimeout, ?_, ?_⟩
      · rwa [Turn.stages_self]
      · exact htimer _ rfl rfl rfl rfl rfl (hwaits _ rfl)

theorem steps_handle (h : Cycle (.thread t .polling) s.master) (ho : o.Polls) :
    Steps (.thread t .polling) t o s := by
  have hsteps := fun hm hdest hnext => h.steps (.handle ho) hm hdest trivial hnext rfl nofun rfl trivial
  cases o with
  | board o =>
      cases o with
      | load a => exact hsteps (.refl _) h.dest rfl
      | loadHoldBuf k r => exact hsteps (.refl _) h.dest rfl
      | _ => exact absurd ho id
  | setDestAddress a => exact hsteps ⟨rfl, fun _ _ => rfl, rfl, rfl, rfl⟩ ho rfl
  | setErrorType e => exact hsteps ⟨rfl, fun _ _ => rfl, rfl, rfl, rfl⟩ h.dest rfl
  | getErrorType => exact hsteps (.refl _) h.dest rfl
  | rtuReceive => exact hsteps (.refl _) h.dest rfl
  | storeHoldBuf k r v => exact hsteps (.refl _) h.dest rfl
  | getDestAddress => exact hsteps (.refl _) h.dest rfl
  | requestIsBroadcast => exact hsteps (.refl _) h.dest rfl
  | getPDUSndLength => exact hsteps (.refl _) h.dest rfl
  | _ => exact absurd ho id

/-- A step of the thread whose turn it is. -/
theorem Cycle.act (h : Cycle (.thread t l) s.master) (hok : l.Allows o) :
    Steps (.thread t l) t o s := by
  have hsame := Master.SameTurn.refl s.master
  have hactive := (h.active t l rfl).2
  cases hok with
  | control _ => exact absurd rfl hactive
  | clear => exact absurd rfl hactive
  | finish => exact absurd rfl hactive
  | take => exact absurd rfl hactive
  | poll => exact absurd rfl hactive
  | enter => exact absurd rfl hactive
  | issueRaw hlen => exact h.steps (.issueRaw hlen) hsame h.dest trivial rfl rfl nofun rfl trivial
  | issueHold ha => exact h.steps (.issueHold ha) hsame h.dest trivial rfl rfl nofun rfl ha
  | copyLoad => exact h.steps .copyLoad hsame h.dest trivial rfl rfl nofun rfl trivial
  | copyStore => exact h.steps .copyStore hsame h.dest trivial rfl rfl nofun rfl trivial
  | flag => exact h.steps .flag hsame h.dest trivial rfl rfl nofun rfl trivial
  | length => exact h.steps .length hsame h.dest trivial rfl rfl nofun rfl trivial
  | rawPDU => exact h.steps .rawPDU ⟨rfl, fun _ _ => rfl, rfl, rfl, rfl⟩ h.dest trivial rfl rfl nofun rfl trivial
  | address => exact h.steps .address ⟨rfl, fun _ _ => rfl, rfl, rfl, rfl⟩ h.relies trivial rfl rfl nofun rfl trivial
  | fill hk => exact h.steps (.fill hk) hsame h.dest trivial rfl rfl nofun rfl trivial
  | holdPDU => exact h.steps .holdPDU ⟨rfl, fun _ _ => rfl, rfl, rfl, rfl⟩ h.dest trivial rfl rfl nofun rfl trivial
  | post => exact steps_post h
  | getDest => exact h.steps .getDest hsame h.dest h.dest rfl rfl nofun rfl trivial
  | getLength => exact h.steps .getLength hsame h.dest trivial rfl rfl nofun rfl trivial
  | readFlag =>
      by_cases hflag : s.mem .mbSwitchFlag ≠ 0
      · exact h.steps .readFlag hsame h.dest trivial (if_pos hflag) rfl nofun rfl trivial
      · exact h.steps .readFlag hsame h.dest trivial (if_neg hflag) rfl nofun rfl trivial
  | sendRTU => exact steps_sendRTU h
  | readLength => exact h.steps .readLength hsame h.dest trivial rfl rfl nofun rfl trivial
  | sendRaw => exact steps_sendRaw h
  | handle ho => exact steps_handle h ho
  | pass he => exact steps_pass h he
  | complete he => exact steps_complete h he
  | release => exact steps_release h
  | sndState => exact h.steps .sndState hsame h.dest h.relies rfl rfl nofun rfl h.relies
  | count =>
      by_cases hcount : s.master.usMasterSndBufferCount ≠ 0
      · exact h.steps .count hsame h.dest trivial (if_pos hcount) rfl nofun rfl h.relies
      · exact h.steps .count hsame h.dest trivial (if_neg hcount) rfl nofun rfl trivial
  | put => exact h.steps .put hsame h.dest trivial rfl rfl nofun rfl h.relies
  | advance => exact h.steps .advance ⟨rfl, fun _ _ => rfl, rfl, rfl, rfl⟩ h.dest trivial rfl rfl nofun rfl h.relies
  | decrement => exact steps_decrement h
  | judge => exact h.steps .judge hsame h.dest trivial rfl rfl nofun rfl trivial
  | setBroadcast =>
      exact h.steps .setBroadcast ⟨rfl, fun _ _ => rfl, rfl, rfl, rfl⟩ h.dest trivial rfl rfl nofun rfl rfl
  | stop => exact steps_stop h
  | xfwr =>
      exact h.steps .xfwr ⟨rfl, fun _ _ => rfl, rfl, rfl, rfl⟩ h.dest trivial rfl rfl nofun rfl ⟨h.relies, rfl⟩
  | isBroadcast => exact h.steps .isBroadcast hsame h.dest h.relies.1 rfl rfl nofun rfl h.relies
  | convertDelay => exact steps_time h .convertDelay
  | respondTimeout => exact steps_time h .respondTimeout

/-- The poll thread takes the one event that is up. -/
theorem Cycle.poll {u : Turn} (h : Cycle u s.master)
    (hen : Bus.enabled pollThread (.eventRecv pollEvents) s = true) :
    ∃ e, u = .event e ∧ s.master.eventsUp pollEvents = [e] ∧
      e ∈ [MasterEvent.frameReceived, .execute, .frameSent, .errorProcess] := by
  obtain ⟨e, hup⟩ : ∃ e, e ∈ s.master.eventsUp pollEvents := by
    refine List.exists_mem_of_ne_nil _ fun hnil => ?_
    simp [Bus.enabled, hnil] at hen
  obtain ⟨he, hset⟩ := List.mem_filter.mp hup
  obtain rfl := (h.event e he).mp hset
  refine ⟨e, rfl, ?_, h.relies⟩
  have hfilter : s.master.eventsUp pollEvents = pollEvents.filter (· = e) := by
    refine List.filter_congr fun e' he' => ?_
    rw [Bool.eq_iff_iff, h.event e' he', decide_eq_true_eq]
    exact ⟨fun heq => (Turn.event.inj heq).symm, fun heq => by rw [heq]⟩
  rw [hfilter]
  have hmem : e ∈ pollEvents := he
  revert hmem
  cases e <;> decide

theorem steps_poll {u : Turn} (h : Cycle u s.master)
    (hen : Bus.enabled pollThread (.eventRecv pollEvents) s = true) :
    Steps u pollThread (.eventRecv pollEvents) s := by
  obtain ⟨e, rfl, hup, he⟩ := h.poll hen
  have hexec : Bus.exec pollThread (.eventRecv pollEvents) s =
      ([e], { s with master := s.master.eventsTake pollEvents }) := by rw [Bus.exec, hup]
  unfold Steps
  rw [hexec]
  refine ⟨⟨e, he, rfl⟩, _, .poll, rfl, ?_⟩
  exact {
    runRes := h.runRes
    event := fun e' he' => by
      simp [Master.eventsTake, he']
    transStart := h.transStart.trans (by split <;> rfl)
    timer := h.timer.trans ⟨nofun, nofun⟩
    listening := fun _ => h.listening nofun
    dest := h.dest
    active := by
      intro t l heq
      cases heq
      split
      · exact ⟨rfl, nofun⟩
      · exact ⟨rfl, nofun⟩
    relies := by
      show Stage.Relies _ _
      split <;> trivial }

theorem Stage.home_of_transmits (h : l.transmits = true) : l.home = .transIdle := by
  cases l <;> first | rfl | cases h

theorem eq_pollThread (h : idleStage t = .pollIdle) : t = pollThread := by
  unfold idleStage at h
  split at h
  · assumption
  · split at h
    · cases h
    · cases h

theorem eq_transThread (h : idleStage t = .transIdle) : t = transThread := by
  unfold idleStage at h
  split at h
  · cases h
  · split at h
    · assumption
    · cases h

theorem steps_enter {u : Turn} (h : Cycle u s.master) (hne : ∀ l, u ≠ .thread transThread l)
    (hen : Bus.enabled transThread .transStartWait s = true) :
    Steps u transThread .transStartWait s := by
  have htrans : u.transmits = true := h.transStart.symm.trans hen
  cases u with
  | trans =>
      refine ⟨trivial, _, .enter, rfl, ?_⟩
      exact {
        runRes := h.runRes
        event := fun e he => (h.event e he).trans ⟨nofun, nofun⟩
        transStart := h.transStart
        timer := h.timer.trans ⟨nofun, nofun⟩
        listening := fun _ => h.listening nofun
        dest := h.dest
        active := by
          intro t l heq
          cases heq
          exact ⟨rfl, nofun⟩
        relies := h.relies }
  | thread t l =>
      -- only the transmit thread is ever in such a place
      have hhome : idleStage t = .transIdle :=
        (h.active t l rfl).1.symm.trans (Stage.home_of_transmits htrans)
      obtain rfl := eq_transThread hhome
      exact absurd rfl (hne l)
  | free => cases htrans
  | event e => cases htrans
  | timer => cases htrans

theorem steps_take {u : Turn} (h : Cycle u s.master) (hidle : idleStage t = .callerIdle)
    (hen : Bus.enabled t .runResTake s = true) : Steps u t .runResTake s := by
  have hrun : 0 < s.master.runRes := of_decide_eq_true hen
  obtain rfl : u = .free := by
    by_contra hne
    rw [h.runRes, if_neg hne] at hrun
    exact absurd hrun (by decide)
  unfold Steps
  rw [show Turn.free.stages t = .callerIdle from hidle]
  refine ⟨trivial, _, .take, rfl, ?_⟩
  exact {
    runRes := congrArg (· - 1) h.runRes
    event := fun e he => (h.event e he).trans ⟨nofun, nofun⟩
    transStart := h.transStart
    timer := h.timer.trans ⟨nofun, nofun⟩
    listening := fun _ => h.listening nofun
    dest := h.dest
    active := by
      intro t' l heq
      cases heq
      exact ⟨hidle.symm, nofun⟩
    relies := trivial }

/-- A caller takes the completions; the events of the poll thread stay up. -/
theorem Cycle.takeFinish {u : Turn} {m : Master} (h : Cycle u m) :
    Cycle u (m.eventsTake finishEvents) where
  runRes := h.runRes
  event := fun e he => by
    have hkept : (m.eventsTake finishEvents).event e = m.event e := by
      revert he
      cases e <;> simp [Master.eventsTake, finishEvents, pollEvents]
    rw [hkept]
    exact h.event e he
  transStart := h.transStart
  timer := h.timer
  listening := h.listening
  dest := h.dest
  active := h.active
  relies := by
    have hrelies := h.relies
    cases u with
    | thread t l => cases l <;> exact hrelies
    | _ => exact hrelies

/-- A caller whose turn it is not leaves the turn where it is. -/
theorem steps_idle {u : Turn} (h : Cycle u s.master) (ht : idleStage t = .callerIdle)
    (hidle : u.stages t = .callerIdle) (hok : Stage.callerIdle.Allows o) (hne : o ≠ .runResTake) : Steps u t o s := by
  have hstay : ∀ x : BusAr o, Stage.callerIdle.next o x = .callerIdle := by
    intro x
    cases o with
    | runResTake => exact absurd rfl hne
    | _ => rfl
  refine ⟨by rw [hidle]; trivial, u, .idle ht hok hne, ?_, ?_⟩
  · rw [hidle, hstay, ← hidle]
    exact Function.update_eq_self ..
  · cases hok with
    | control _ => exact h
    | clear => exact h
    | finish => exact h.takeFinish
    | take => exact absurd rfl hne

/-- A step of a thread whose turn it is not: the poll thread and the transmit
thread can only take it over, a caller takes the run resource or leaves the
master alone. -/
theorem Cycle.wait {u : Turn} (h : Cycle u s.master) (hidle : u.stages t = idleStage t)
    (hne : ∀ l, u ≠ .thread t l) (hok : (idleStage t).Allows o)
    (hen : Bus.enabled t o s = true) : Steps u t o s := by
  by_cases hpoll : t = pollThread
  · subst hpoll
    cases (show Stage.pollIdle.Allows o from hok) with
    | poll => exact steps_poll h hen
  · by_cases htrans : t = transThread
    · subst htrans
      cases (show Stage.transIdle.Allows o from hok) with
      | enter => exact steps_enter h hne hen
    · have hcaller : idleStage t = .callerIdle := by
        unfold idleStage
        rw [if_neg hpoll, if_neg htrans]
      by_cases htake : o = .runResTake
      · subst htake
        exact steps_take h hcaller hen
      · exact steps_idle h hcaller (hidle.trans hcaller) (hcaller ▸ hok) htake

/-- Every step that the places allow. -/
theorem Cycle.step {u : Turn} (h : Cycle u s.master) (hok : (u.stages t).Allows o)
    (hen : Bus.enabled t o s = true) : Steps u t o s := by
  by_cases hu : ∃ l, u = .thread t l
  · obtain ⟨l, rfl⟩ := hu
    rw [Turn.stages_self] at hok
    exact h.act hok
  · have hne : ∀ l, u ≠ .thread t l := fun l hl => hu ⟨l, hl⟩
    have hidle : u.stages t = idleStage t := by
      cases u with
      | thread t' l => exact Function.update_of_ne (fun heq => hne l (by rw [heq])) _ _
      | _ => rfl
    exact h.wait hidle hne (hidle ▸ hok) hen

end Step

/-- What the timer's turn asks of the master. -/
theorem Cycle.of_waits {m m' : Master} (h : Cycle .timer m) (hrun : m'.runRes = m.runRes)
    (hevent : m'.event = m.event) (htrans : m'.transStart = m.transStart) (htimer : m'.timer = true)
    (hdest : m'.ucMBMasterDestAddress = m.ucMBMasterDestAddress) (hwaits : m'.Waits) :
    Cycle .timer m' where
  runRes := hrun.trans h.runRes
  event := fun e he => by
    rw [hevent]
    exact h.event e he
  transStart := htrans.trans h.transStart
  timer := ⟨fun _ => rfl, fun _ => htimer⟩
  listening := fun hne => absurd rfl hne
  dest := hdest ▸ h.dest
  active := nofun
  relies := hwaits

/-- A byte comes in while the master listens. -/
theorem Cycle.rxByte {s : Bus} (h : Cycle .timer s.master) (b : UInt8) :
    Cycle .timer (xMBMasterRTUReceiveFSM b s).master := by
  have hwaits : s.master.Waits := h.relies
  unfold xMBMasterRTUReceiveFSM
  rcases hwaits with ⟨hrcv, -, -⟩ | ⟨hrcv | hrcv, hsnd, -⟩
  · rw [hrcv]
    exact h.of_waits rfl rfl rfl rfl rfl (.inr ⟨.inl rfl, rfl, rfl⟩)
  · rw [hrcv]
    dsimp only
    split
    · exact h.of_waits rfl rfl rfl rfl rfl (.inr ⟨.inl hrcv, hsnd, rfl⟩)
    · exact h.of_waits rfl rfl rfl rfl rfl (.inr ⟨.inr rfl, hsnd, rfl⟩)
  · rw [hrcv]
    exact h.of_waits rfl rfl rfl rfl rfl (.inr ⟨.inr hrcv, hsnd, rfl⟩)

/-- The event that the timer posts. -/
theorem Master.timerExpired_event {m : Master} (h : m.Waits) :
    ∃ e ∈ [MasterEvent.frameReceived, .execute, .errorProcess],
      m.timerExpired.event = Function.update m.event e true := by
  rcases h with ⟨hrcv, hsnd, hmode⟩ | ⟨hrcv | hrcv, hsnd, hmode⟩
  · cases hb : m.xFrameIsBroadcast
    · refine ⟨.errorProcess, by decide, ?_⟩
      simp [timerExpired, rcvExpired, sndExpired, eventPost, timersDisable, hrcv, hsnd, hmode, hb]
    · refine ⟨.execute, by decide, ?_⟩
      simp [timerExpired, rcvExpired, sndExpired, eventPost, timersDisable, hrcv, hsnd, hmode, hb]
  · refine ⟨.frameReceived, by decide, ?_⟩
    simp [timerExpired, rcvExpired, sndExpired, eventPost, timersDisable, hrcv, hsnd, hmode]
  · refine ⟨.errorProcess, by decide, ?_⟩
    simp [timerExpired, rcvExpired, sndExpired, eventPost, timersDisable, hrcv, hsnd, hmode]

theorem Master.timerExpired_rest (m : Master) :
    m.timerExpired.runRes = m.runRes ∧ m.timerExpired.transStart = m.transStart ∧
      m.timerExpired.timer = false ∧ m.timerExpired.eRcvState = .idle ∧
      m.timerExpired.ucMBMasterDestAddress = m.ucMBMasterDestAddress := by
  have hrcv : m.rcvExpired.runRes = m.runRes ∧ m.rcvExpired.transStart = m.transStart ∧
      m.rcvExpired.ucMBMasterDestAddress = m.ucMBMasterDestAddress := by
    unfold rcvExpired
    split <;> exact ⟨rfl, rfl, rfl⟩
  have hsnd : ∀ m : Master, m.sndExpired.runRes = m.runRes ∧ m.sndExpired.transStart = m.transStart ∧
      m.sndExpired.eRcvState = m.eRcvState ∧
      m.sndExpired.ucMBMasterDestAddress = m.ucMBMasterDestAddress := by
    intro m
    unfold sndExpired
    split <;> exact ⟨rfl, rfl, rfl, rfl⟩
  obtain ⟨hrun, htrans, hidle, hdest⟩ := hsnd { m.rcvExpired with eRcvState := .idle }
  unfold timerExpired
  dsimp only
  split <;>
    exact ⟨hrun.trans hrcv.1, htrans.trans hrcv.2.1, rfl, hidle, hdest.trans hrcv.2.2⟩

/-- The timer expires and hands the turn to the poll thread. -/
theorem Cycle.timerExpired {m : Master} (h : Cycle .timer m) :
    ∃ e, e ≠ .frameSent ∧ Cycle (.event e) m.timerExpired := by
  obtain ⟨e, he, hevent⟩ := Master.timerExpired_event h.relies
  obtain ⟨hrun, htrans, htimer, hidle, hdest⟩ := m.timerExpired_rest
  have hmem : e ∈ [MasterEvent.frameReceived, .execute, .frameSent, .errorProcess] := by
    clear hevent
    revert he
    cases e <;> decide
  refine ⟨e, by rintro rfl; exact absurd he (by decide), ?_⟩
  exact {
    runRes := hrun.trans h.runRes
    event := fun e' he' => by
      rw [hevent]
      by_cases heq : e' = e
      · subst heq
        simp
      · have hnone := (h.event e' he').not.mpr nofun
        simp [Function.update_of_ne heq, hnone, Ne.symm heq]
    transStart := htrans.trans h.transStart
    timer := by
      rw [htimer]
      exact ⟨nofun, nofun⟩
    listening := fun _ => hidle
    dest := hdest ▸ h.dest
    active := nofun
    relies := hmem }

theorem Cycle.enabled : Cycle .free Master.enabled where
  runRes := rfl
  event := fun e _ => ⟨nofun, nofun⟩
  transStart := rfl
  timer := ⟨nofun, nofun⟩
  listening := fun _ => rfl
  dest := by decide
  active := nofun
  relies := trivial

end Aclean
