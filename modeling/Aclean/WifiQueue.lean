import Aclean.WifiRounds

/-!
# Frames between the receive and the decode thread

The receiver publishes into one shared buffer and releases a counting
semaphore; the decode thread takes it and looks at the buffer. The semaphore
counts what the buffer cannot hold: if the next publication begins before
the decode thread has looked its last at a frame, it looks at the wrong
bytes. As long as it does not, every frame is checked and decoded once, in
order and unmixed, whatever the order of steps.
-/

namespace Aclean

open Prog

/-! ## The two threads -/

/-- The receiver on the bytes of a sequence of frames, and the decode thread
for so many rounds of its loop. -/
def rxAndDecode (s : Board) (frames : List WifiFrame) (rounds : Nat) : Config Op Ar Board where
  state := s
  threads := fun t =>
    if t = rxThread then rxStream (wireBytes frames)
    else if t = decodeThread then Prog.calls (List.replicate rounds decodeRound)
    else .ret ()

abbrev WifiLabel := Label Op Ar Empty

/-- The length is stored before the bytes: a publication begins. -/
def isBegin : WifiLabel → Bool
  | .op t (.store .wifiRecieveDataLength _) _ => t == rxThread
  | _ => false

def isTake : WifiLabel → Bool
  | .op t .semTake _ => t == decodeThread
  | _ => false

/-- Publications begun, and rounds of the decode thread begun. -/
def begins (tr : List WifiLabel) : Nat := tr.countP isBegin

def takes (tr : List WifiLabel) : Nat := tr.countP isTake

/-- What a step shows the decode thread of it, in round `k`. -/
def look (k : Nat) : WifiLabel → Option (Nat × Addr × UInt8)
  | .op t (.load a) v => if t = decodeThread ∧ a.shared then some (k, a, v) else none
  | _ => none

/-- All that the decode thread has looked at, round by round. -/
def looksFrom : Nat → List WifiLabel → List (Nat × Addr × UInt8)
  | _, [] => []
  | k, l :: tr => (look k l).toList ++ looksFrom (if isTake l then k + 1 else k) tr

theorem looksFrom_snoc (k : Nat) (tr : List WifiLabel) (l : WifiLabel) :
    looksFrom k (tr ++ [l]) = looksFrom k tr ++ (look (k + takes tr) l).toList := by
  induction tr generalizing k with
  | nil => simp [looksFrom, takes]
  | cons x tr ih =>
      rw [List.cons_append, looksFrom, ih, looksFrom, List.append_assoc, takes, takes,
        List.countP_cons]
      by_cases hx : isTake x
      · simp [hx, Nat.add_assoc, Nat.add_comm 1]
      · simp [hx]

/-- The first round looks at the first frame and at nothing else, the second
at the second, and so on. -/
def LooksInOrder (frames : List WifiFrame) (tr : List WifiLabel) : Prop :=
  ∀ x ∈ looksFrom 0 tr, ∃ k f, x.1 = k + 1 ∧ frames[k]? = some f ∧ f.at x.2.1 = some x.2.2

/-- The decode thread's part of the history is a number of whole rounds, the
first of which has served the first frame, the second the second, and so on, and
behind them at most a part of one more. -/
structure Relayed (frames : List WifiFrame) (tr : List WifiLabel) : Prop where
  looks : LooksInOrder frames tr
  rounds : ∃ (rounds : List (List (Answered Op Ar))) (rest : List (Answered Op Ar)),
    own decodeThread tr = rounds.flatten ++ rest ∧
      takes tr = rounds.length + (if rest.isEmpty then 0 else 1) ∧
      ¬ decodeRound.Plays rest (.ret ()) ∧
      ∀ (k : Nat) (es), rounds[k]? = some es → ∃ f, frames[k]? = some f ∧ Served f es

/-- The decode thread looks at the shared data only while the frame it has
taken is the last one whose publication has begun. -/
def InTime : StepCond Op Ar Board Empty := fun tr _ l =>
  (look 0 l).isSome → begins tr = takes tr

/-! ## The discipline -/

/-- The receiver's own view of the board (no other thread writes what it
works on), with the publications begun and completed; the rounds of the
decode thread, and the length read in the present one. -/
inductive QueueRole where
  | rx (g : Board) (begun done : Nat)
  | decode (taken : Nat) (len : Option UInt8)
  | idle

/-- The receiver's static counters and its own buffer. -/
def Addr.RxOwn (a : Addr) : Prop := a.Rx ∧ a.shared = false

def queueDiscipline (frames : List WifiFrame) : Discipline Op Ar QueueRole where
  ok l o :=
    match l, o with
    | .rx _ _ _, .load a => a.RxOwn
    | .rx _ begun done, .store a _ =>
        a.RxOwn ∨ (a = .wifiRecieveDataLength ∧ begun = done) ∨
          ((∃ i, a = .wifiRecvPacketBufPub i) ∧ begun = done + 1)
    | .rx g begun done, .semRelease =>
        begun = done + 1 ∧ ∃ f, frames[done]? = some f ∧ PubHolds f.bytes g
    | .rx _ _ _, _ => False
    | .decode taken _, .load .wifiRecieveDataLength => 1 ≤ taken
    | .decode _ len, o => o = .semTake ∨ o.Looks (len.elim 0 UInt8.toNat)
    | .idle, _ => False
  answers l o a :=
    match l, o, a with
    | .rx g _ _, .load b, v => v = g.mem b
    | .decode _ _, .load .wifiRecieveDataLength, v => 6 ≤ UInt8.toNat v
    | _, _, _ => True
  next l o v :=
    match l, o, v with
    | .rx g begun done, .semRelease, _ => .rx (Board.exec rxThread .semRelease g).2 begun (done + 1)
    | .rx g begun done, .store a v, _ =>
        .rx (g.set a v) (if a = .wifiRecieveDataLength then begun + 1 else begun) done
    | .decode taken _, .semTake, _ => .decode (taken + 1) none
    | .decode taken _, .load .wifiRecieveDataLength, v => .decode taken (some v)
    | l, _, _ => l

/-! ## The receiver keeps to it -/

/-- Operations on the receiver's own data. -/
def Op.RxPrivate : Op → Prop
  | .load a => a.RxOwn
  | .store a _ => a.RxOwn
  | _ => False

/-- A store of one byte of a publication. -/
def Op.StoresPub : Op → Prop
  | .store (.wifiRecvPacketBufPub _) _ => True
  | _ => False

section Rx

variable (frames : List WifiFrame)

/-- Until a publication ends, the receiver runs as it does alone. -/
theorem ghost_follows {α : Type} {p : Code α} {g : Board} {begun done : Nat}
    (h : ∀ o ∈ p.trace Board.machine rxThread g,
      o.RxPrivate ∨ (o.StoresPub ∧ begun = done + 1)) :
    (queueDiscipline frames).Follows p
      (fun _ l => l = .rx (p.run Board.machine rxThread g).2 begun done) (.rx g begun done) := by
  induction p generalizing g with
  | ret a => exact .ret rfl
  | op o k ih =>
      have ho := h o (List.mem_cons_self ..)
      have hrest := fun o' ho' => h o' (List.mem_cons_of_mem _ ho')
      cases o with
      | load a =>
          rcases ho with hown | ⟨hpub, -⟩
          · refine .op hown fun v hv => ?_
            obtain rfl : v = g.mem a := hv
            exact ih _ hrest
          · exact absurd hpub id
      | store a v =>
          have hlen : a ≠ .wifiRecieveDataLength := by
            rintro rfl
            rcases ho with ⟨-, hown⟩ | ⟨hpub, -⟩
            · cases hown
            · exact absurd hpub id
          have hnext : ∀ u, (queueDiscipline frames).next (.rx g begun done) (.store a v) u =
              .rx (g.set a v) begun done := fun u => by simp only [queueDiscipline, if_neg hlen]
          refine .op ?_ fun u _ => ?_
          · rcases ho with hown | ⟨hpub, hin⟩
            · exact .inl hown
            · refine .inr (.inr ⟨?_, hin⟩)
              cases a with
              | wifiRecvPacketBufPub i => exact ⟨i, rfl⟩
              | _ => exact absurd hpub id
          · rw [hnext]
            exact ih _ hrest
      | _ =>
          rcases ho with hown | ⟨hpub, -⟩
          · exact absurd hown id
          · exact absurd hpub id

/-- A byte that publishes nothing leaves the shared data alone. -/
theorem silent_private {b : UInt8} {s : Board} (h : (rxByte b s).wifiUartSem = s.wifiUartSem)
    {o : Op} (ho : o ∈ (wifiRxIsr b).trace Board.machine rxThread s) : o.RxPrivate := by
  by_cases h0 : s.mem .recievedLen = 0
  · by_cases hb : b = 0xF1
    · simp [wifiRxIsr, h0, hb] at ho
      rcases ho with rfl | rfl | rfl <;> exact ⟨trivial, rfl⟩
    · simp [wifiRxIsr, h0, hb] at ho
      rcases ho with rfl | rfl <;> exact ⟨trivial, rfl⟩
  by_cases h1 : s.mem .recievedLen = 1
  · by_cases hb : b = 0xF1
    · simp [wifiRxIsr, h1, hb] at ho
      rcases ho with rfl | rfl | rfl <;> exact ⟨trivial, rfl⟩
    · simp [wifiRxIsr, h1, hb] at ho
      rcases ho with rfl | rfl <;> exact ⟨trivial, rfl⟩
  by_cases h3 : s.mem .recievedLen ≤ 3
  · by_cases h4 : s.mem .recievedLen + 1 = 4
    · simp [wifiRxIsr, h0, h1, h3, h4] at ho
      rcases ho with rfl | rfl | rfl | rfl | rfl <;> exact ⟨trivial, rfl⟩
    · simp [wifiRxIsr, h0, h1, h3, h4] at ho
      rcases ho with rfl | rfl | rfl <;> exact ⟨trivial, rfl⟩
  by_cases hle : s.mem .waitLenCnt ≤ s.mem .waitLen
  · simp [wifiRxIsr, h0, h1, h3, hle] at ho
    rcases ho with rfl | rfl | rfl | rfl | rfl | rfl <;> exact ⟨trivial, rfl⟩
  by_cases heq : (s.mem .waitLenCnt).toNat = (s.mem .waitLen).toNat + 1
  · simp [rxByte, wifiRxIsr, h0, h1, h3, hle, heq, publishFrame, run_copyToPub] at h
  · simp [wifiRxIsr, h0, h1, h3, hle, heq] at ho
    rcases ho with rfl | rfl | rfl <;> exact ⟨trivial, rfl⟩

theorem silent_stream_private {bs : List UInt8} {s : Board} (h : publications bs s = [])
    {o : Op} (ho : o ∈ rxTrace bs s) : o.RxPrivate := by
  induction bs generalizing s with
  | nil => cases ho
  | cons b bs ih =>
      rw [publications] at h
      split at h
      · next hsem =>
          rw [rxTrace_cons, List.mem_append] at ho
          exact ho.elim (silent_private hsem) (ih h)
      · cases h

/-- The stores of a publication behind its beginning. -/
def publishRest (recievedLen : UInt8) : Code Unit := do
  copyToPub (recievedLen + 1).toNat
  store .recievedLen 0
  store .waitLenCnt 0
  store .waitLen 0

theorem publishFrame_eq (udr0 recievedLen : UInt8) : publishFrame udr0 recievedLen = (do
    store (.wifiDataBufferRecvTmp recievedLen.toNat) udr0
    store .recievedLen (recievedLen + 1)
    store .wifiRecieveDataLength (recievedLen + 1)
    publishRest recievedLen
    semRelease) := by
  simp only [publishFrame, publishRest, bind_assoc]

theorem publishRest_only (recievedLen : UInt8) :
    (publishRest recievedLen).Only fun o => o.RxPrivate ∨ o.StoresPub := by
  unfold publishRest
  refine .bind (.forUpTo fun i _ => ?_) fun _ => ?_
  · simp [Op.RxPrivate, Op.StoresPub, Addr.RxOwn, Addr.Rx, Addr.shared]
  · simp [Op.RxPrivate, Addr.RxOwn, Addr.Rx, Addr.shared]

/-- The last byte of a frame. -/
theorem publish_follows {f : WifiFrame} {g : Board} {done : Nat} (hf : frames[done]? = some f)
    (h : RxHolds f.body g) :
    (queueDiscipline frames).Follows (wifiRxIsr f.t)
      (fun _ l => l = .rx (rxByte f.t g) (done + 1) (done + 1)) (.rx g done done) := by
  have hn := f.toNat_lengthByte
  have hshort := f.short
  have h4 : 4 ≤ f.body.length := by simp
  have hbody : f.body.length = f.body[3].toNat + 5 := by simp [hn, WifiFrame.body]
  obtain ⟨hpub, -⟩ := rx_publish f.t h h4 hbody (by simp; omega)
  obtain ⟨h0, h1, h3⟩ := h.behind h4
  obtain ⟨hw, hc⟩ := h.waits h4
  have hle : ¬ g.mem .waitLenCnt ≤ g.mem .waitLen := by
    rw [UInt8.le_iff_toNat_le, hc, hw]; omega
  have heq : (g.mem .waitLenCnt).toNat = (g.mem .waitLen).toNat + 1 := by
    rw [hc, hw]; omega
  refine .op ⟨trivial, rfl⟩ fun v hv => ?_
  obtain rfl : v = g.mem .recievedLen := hv
  show (queueDiscipline frames).Follows (if _ then _ else _) _ _
  rw [if_neg h0, if_neg h1, if_neg h3]
  refine .op ⟨trivial, rfl⟩ fun c hc' => .op ⟨trivial, rfl⟩ fun w hw' => ?_
  obtain rfl : c = g.mem .waitLenCnt := hc'
  obtain rfl : w = g.mem .waitLen := hw'
  show (queueDiscipline frames).Follows (if _ then _ else if _ then publishFrame _ _ else _) _ _
  rw [if_neg hle, if_pos heq, publishFrame_eq]
  refine .op (.inl ⟨trivial, rfl⟩) fun _ _ => .op (.inl ⟨trivial, rfl⟩) fun _ _ =>
    .op (.inr (.inl ⟨rfl, rfl⟩)) fun _ _ => ?_
  let g3 := ((g.set (.wifiDataBufferRecvTmp (g.mem .recievedLen).toNat) f.t).set .recievedLen
    (g.mem .recievedLen + 1)).set .wifiRecieveDataLength (g.mem .recievedLen + 1)
  show (queueDiscipline frames).Follows (publishRest (g.mem .recievedLen) >>= fun _ => semRelease) _
    (.rx g3 (done + 1) done)
  have hend : rxByte f.t g = (Board.exec rxThread .semRelease
      ((publishRest (g.mem .recievedLen)).run Board.machine rxThread g3).2).2 := by
    rw [rxByte, (wifiRxIsr_publish f.t h h4 hbody).1, publishFrame_eq]
    simp [g3]
  rw [Discipline.follows_bind]
  refine (ghost_follows frames fun o ho => ?_).mono ?_
  · exact ((publishRest_only _).trace _ _ ho).imp id fun hp => ⟨hp, rfl⟩
  · rintro _ l rfl
    refine .op ⟨rfl, f, hf, ?_⟩ fun _ _ => .ret ?_
    · exact ⟨by rw [hend] at hpub; exact hpub.len, by rw [hend] at hpub; exact hpub.bytes⟩
    · rw [hend]; rfl

theorem frame_follows {f : WifiFrame} {g : Board} {done : Nat} (hf : frames[done]? = some f)
    (h : RxIdle g) :
    (queueDiscipline frames).Follows (rxStream f.bytes)
      (fun _ l => l = .rx (rxFeed f.bytes g) (done + 1) (done + 1)) (.rx g done done) := by
  have hbody := rx_body f h
  have hprog : rxStream f.bytes = rxStream f.body >>= fun _ => rxStream [f.t] := by
    rw [rxStream, WifiFrame.bytes, List.map_append, calls_append]; rfl
  rw [hprog, Discipline.follows_bind]
  refine (ghost_follows frames fun o ho => .inl (silent_stream_private hbody.silent ho)).mono ?_
  rintro _ l rfl
  have hlast : rxStream [f.t] = wifiRxIsr f.t >>= fun _ => .ret () := rfl
  rw [hlast, Discipline.follows_bind]
  refine (publish_follows frames hf hbody.holds).mono ?_
  rintro _ l rfl
  refine .ret ?_
  rw [WifiFrame.bytes, rxFeed_append, rxFeed_cons, rxFeed_nil]

theorem stream_follows (fs : List WifiFrame) {g : Board} {done : Nat} (hfs : frames.drop done = fs)
    (h : RxIdle g) :
    (queueDiscipline frames).Follows (rxStream (wireBytes fs))
      (fun _ l => ∃ g', l = .rx g' (done + fs.length) (done + fs.length)) (.rx g done done) := by
  induction fs generalizing g done with
  | nil => exact .ret ⟨g, rfl⟩
  | cons f fs ih =>
      have hf : frames[done]? = some f := by
        rw [← List.head?_drop, hfs]; rfl
      have hprog : rxStream (wireBytes (f :: fs)) =
          rxStream f.bytes >>= fun _ => rxStream (wireBytes fs) := by
        rw [rxStream, rxStream, rxStream, ← calls_append, ← List.map_append]; rfl
      rw [hprog, Discipline.follows_bind]
      refine (frame_follows frames hf h).mono ?_
      rintro _ l rfl
      have hdrop : frames.drop (done + 1) = fs := by
        rw [← List.drop_drop, hfs]; rfl
      rw [List.length_cons, Nat.add_comm fs.length, ← Nat.add_assoc]
      exact ih hdrop (rx_frame f h).idle

end Rx

/-! ## So does the decode thread -/

theorem looks_next {frames : List WifiFrame} {o : Op} {k : Nat} (h : o.Looks k) (taken : Nat)
    (len : Option UInt8) (a : Ar o) :
    (queueDiscipline frames).next (.decode taken len) o a = .decode taken len := by
  cases o with
  | semTake => exact absurd h id
  | load b =>
      cases b with
      | wifiRecieveDataLength => exact absurd trivial h
      | _ => rfl
  | _ => rfl

theorem looks_follows (frames : List WifiFrame) {α : Type} {p : Code α} {taken : Nat} {n : UInt8}
    {k : Nat} (hk : k ≤ n.toNat) (h : p.Only (Op.Looks k)) :
    (queueDiscipline frames).Follows p (fun _ l => l = .decode taken (some n))
      (.decode taken (some n)) := by
  refine .of_only (J := fun l : QueueRole => l = .decode taken (some n)) h
    (fun l o hl ho => ?_) rfl
  subst hl
  refine ⟨?_, fun a _ => looks_next ho taken (some n) a⟩
  have hok : o = .semTake ∨ o.Looks n.toNat := .inr (ho.mono hk)
  cases o with
  | load b =>
      cases b with
      | wifiRecieveDataLength => exact absurd trivial ho
      | _ => exact hok
  | _ => exact hok

theorem decodeRound_follows (frames : List WifiFrame) (taken : Nat) (len : Option UInt8) :
    (queueDiscipline frames).Follows decodeRound (fun _ l => ∃ taken len, l = .decode taken len)
      (.decode taken len) := by
  refine .op (.inl rfl) fun _ _ => .op (Nat.succ_le_succ (Nat.zero_le taken)) fun n hn => ?_
  have hn : 6 ≤ n.toNat := hn
  show (queueDiscipline frames).Follows (wifiReceiveDataCheck n >>= fun _ => Prog.when _ _) _
    (.decode (taken + 1) (some n))
  rw [Discipline.follows_bind]
  refine (looks_follows frames (Nat.le_refl _) (wifiReceiveDataCheck_looks hn)).mono ?_
  rintro ok l rfl
  rw [Discipline.follows_when]
  refine ⟨fun _ => .op (Nat.succ_le_succ (Nat.zero_le taken)) fun n' hn' => ?_,
    fun _ => ⟨_, _, rfl⟩⟩
  have hn' : 6 ≤ n'.toNat := hn'
  refine (looks_follows frames hn' wifiReceiveDataDecode_looks).mono ?_
  rintro _ l rfl
  exact ⟨_, _, rfl⟩

/-! ## What a run keeps -/

/-- The frame published last lies in the shared data. -/
theorem PubHolds.at {f : WifiFrame} {g : Board} (h : PubHolds f.bytes g) {a : Addr}
    (ha : a.shared = true) (hin : ∀ i, a = .wifiRecvPacketBufPub i → 0 ≤ i ∧ i < f.bytes.length) :
    f.at a = some (g.mem a) := by
  cases a with
  | wifiRecieveDataLength =>
      rw [WifiFrame.at, ← h.len, UInt8.ofNat_toNat]
  | wifiRecvPacketBufPub i =>
      obtain ⟨h0, hlt⟩ := hin i rfl
      have hb := h.bytes i.toNat (by omega)
      rw [Int.toNat_of_nonneg h0] at hb
      rw [WifiFrame.at, if_pos h0, List.getElem?_eq_getElem (by omega), hb]
  | _ => cases ha

theorem begins_snoc (tr : List WifiLabel) (l : WifiLabel) :
    begins (tr ++ [l]) = begins tr + if isBegin l then 1 else 0 := by
  rw [begins, List.countP_append, List.countP_singleton, begins]

theorem takes_snoc (tr : List WifiLabel) (l : WifiLabel) :
    takes (tr ++ [l]) = takes tr + if isTake l then 1 else 0 := by
  rw [takes, List.countP_append, List.countP_singleton, takes]

theorem LooksInOrder.snoc {frames : List WifiFrame} {tr : List WifiLabel}
    (h : LooksInOrder frames tr)
    {l : WifiLabel} (hl : ∀ x, look (takes tr) l = some x →
      ∃ k f, x.1 = k + 1 ∧ frames[k]? = some f ∧ f.at x.2.1 = some x.2.2) :
    LooksInOrder frames (tr ++ [l]) := by
  intro x hx
  rw [looksFrom_snoc, Nat.zero_add, List.mem_append, Option.mem_toList] at hx
  exact hx.elim (h x) (hl x)

/-- The receiver's view agrees with the shared state; publications and rounds
are in step with the semaphore; the last complete publication is in the
buffer until the next begins. -/
structure QueueInv (frames : List WifiFrame) (roles : Nat → QueueRole) (tr : List WifiLabel)
    (s : Board) (g : Board) (begun done taken : Nat) (len : Option UInt8) : Prop where
  rx : roles rxThread = .rx g begun done
  decode : roles decodeThread = .decode taken len
  idle : ∀ t, t ≠ rxThread → t ≠ decodeThread → roles t = .idle
  own : ∀ a, a.Rx → s.mem a = g.mem a
  begins : begins tr = begun
  takes : takes tr = taken
  order : done ≤ begun ∧ begun ≤ done + 1
  count : taken + s.wifiUartSem = done
  last : begun = done → 0 < done → ∃ f, frames[done - 1]? = some f ∧ PubHolds f.bytes g
  round : ∀ n, len = some n → 1 ≤ taken ∧
    ∃ f, frames[taken - 1]? = some f ∧ n.toNat = f.bytes.length
  looks : LooksInOrder frames tr

theorem PubHolds.set_own {fr : List UInt8} {g : Board} (h : PubHolds fr g) {a : Addr}
    (ha : a.RxOwn) (v : UInt8) : PubHolds fr (g.set a v) := by
  have hne : ∀ b : Addr, b.shared = true → b ≠ a := by
    rintro b hb rfl
    rw [ha.2] at hb
    cases hb
  refine ⟨?_, fun i hi => ?_⟩
  · rw [Board.set_mem, if_neg (hne _ rfl)]; exact h.len
  · rw [Board.set_mem, if_neg (hne _ rfl)]; exact h.bytes i hi

theorem Addr.RxOwn.ne_length {a : Addr} (h : a.RxOwn) : a ≠ .wifiRecieveDataLength := by
  rintro rfl
  cases h.2

/-- A step of the receiver. -/
theorem queueInv_rx {frames : List WifiFrame} {roles : Nat → QueueRole} {tr : List WifiLabel}
    {s g : Board} {begun done taken : Nat} {len : Option UInt8}
    (h : QueueInv frames roles tr s g begun done taken len) {o : Op}
    (hok : (queueDiscipline frames).ok (roles rxThread) o) :
    (queueDiscipline frames).answers (roles rxThread) o (Board.exec rxThread o s).1 ∧
      ∃ g' begun' done', QueueInv frames
        (Function.update roles rxThread
          ((queueDiscipline frames).next (roles rxThread) o (Board.exec rxThread o s).1))
        (tr ++ [.op rxThread o (Board.exec rxThread o s).1]) (Board.exec rxThread o s).2
        g' begun' done' taken len := by
  have hdecode : ∀ r, Function.update roles rxThread r decodeThread = .decode taken len := fun r =>
    (Function.update_of_ne (by decide) ..).trans h.decode
  have hidle : ∀ r t, t ≠ rxThread → t ≠ decodeThread →
      Function.update roles rxThread r t = .idle := fun r t hr hd =>
    (Function.update_of_ne hr ..).trans (h.idle t hr hd)
  have hlook : ∀ (o : Op) (a : Ar o), look (takes tr) (.op rxThread o a : WifiLabel) = none := by
    intro o a
    cases o <;> rfl
  have htake : ∀ (o : Op) (a : Ar o), isTake (.op rxThread o a : WifiLabel) = false := by
    intro o a
    cases o <;> rfl
  have htakes : ∀ (o : Op) (a : Ar o), takes (tr ++ [.op rxThread o a]) = taken := fun o a => by
    rw [takes_snoc, htake, h.takes]; rfl
  have hlooks : ∀ (o : Op) (a : Ar o), LooksInOrder frames (tr ++ [.op rxThread o a]) := fun o a =>
    h.looks.snoc fun x hx => by rw [hlook] at hx; cases hx
  rw [h.rx] at hok ⊢
  cases o with
  | load a =>
      refine ⟨h.own a hok.1, g, begun, done, ?_⟩
      refine ⟨Function.update_self .., hdecode _, hidle _, h.own, ?_, htakes _ _, h.order, h.count,
        h.last, h.round, hlooks _ _⟩
      rw [begins_snoc, h.begins]; rfl
  | store a v =>
      refine ⟨trivial, g.set a v, if a = .wifiRecieveDataLength then begun + 1 else begun, done, ?_⟩
      have hbegin : isBegin (.op rxThread (.store a v) () : WifiLabel) =
          decide (a = .wifiRecieveDataLength) := by
        cases a <;> rfl
      refine ⟨Function.update_self .., hdecode _, hidle _, fun b hb => ?_, ?_, htakes _ _, ?_,
        h.count, ?_, h.round, hlooks _ _⟩
      · show (s.set a v).mem b = (g.set a v).mem b
        rw [Board.set_mem, Board.set_mem, h.own b hb]
      · rw [begins_snoc, h.begins, hbegin]
        by_cases ha : a = .wifiRecieveDataLength <;> simp [ha]
      · have horder := h.order
        rcases hok with hown | ⟨rfl, heq⟩ | ⟨⟨i, rfl⟩, -⟩
        · rw [if_neg hown.ne_length]; exact horder
        · rw [if_pos rfl]; omega
        · exact horder
      · rcases hok with hown | ⟨rfl, heq⟩ | ⟨⟨i, rfl⟩, hin⟩
        · rw [if_neg hown.ne_length]
          intro heq hpos
          obtain ⟨f, hf, hpub⟩ := h.last heq hpos
          exact ⟨f, hf, hpub.set_own hown v⟩
        · rw [if_pos rfl]
          intro hlt
          omega
        · rw [if_neg nofun]
          intro hlt
          omega
  | semRelease =>
      obtain ⟨hin, f, hf, hpub⟩ := hok
      have hcount := h.count
      refine ⟨trivial, (Board.exec rxThread .semRelease g).2, begun, done + 1, ?_⟩
      refine ⟨Function.update_self .., hdecode _, hidle _, h.own, ?_, htakes _ _, by omega, ?_,
        fun _ _ => ⟨f, hf, hpub.len, hpub.bytes⟩, h.round, hlooks _ _⟩
      · rw [begins_snoc, h.begins]; rfl
      · show taken + (s.wifiUartSem + 1) = done + 1
        omega
  | _ => exact absurd hok id

/-- Looking at the receive data changes none of it. -/
theorem looks_exec {o : Op} {k : Nat} (h : o.Looks k) (t : Nat) (s : Board) :
    (∀ a, a.Rx → (Board.exec t o s).2.mem a = s.mem a) ∧
      (Board.exec t o s).2.wifiUartSem = s.wifiUartSem := by
  cases o with
  | store b v =>
      refine ⟨fun a ha => ?_, rfl⟩
      have hne : a ≠ b := by rintro rfl; exact h ha
      show (s.set b v).mem a = s.mem a
      rw [Board.set_mem, if_neg hne]
  | exchange len =>
      refine ⟨fun a ha => ?_, rfl⟩
      cases a <;> first | rfl | exact absurd ha id
  | semTake => exact absurd h id
  | semRelease => exact absurd h id
  | _ => exact ⟨fun _ _ => rfl, rfl⟩

/-- Under the step condition a look finds the frame that was taken. -/
theorem QueueInv.look {frames : List WifiFrame} {roles : Nat → QueueRole} {tr : List WifiLabel}
    {s g : Board} {begun done taken : Nat} {len : Option UInt8}
    (h : QueueInv frames roles tr s g begun done taken len)
    (hin : Aclean.begins tr = Aclean.takes tr) (hpos : 1 ≤ taken) :
    ∃ f, frames[taken - 1]? = some f ∧ PubHolds f.bytes g := by
  have hb := h.begins
  have ht := h.takes
  have horder := h.order
  have hcount := h.count
  obtain rfl : done = taken := by omega
  exact h.last (by omega) hpos

section Decode

variable {frames : List WifiFrame} {roles : Nat → QueueRole} {tr : List WifiLabel} {s g : Board}
  {begun done taken : Nat} {len : Option UInt8}

/-- What is left to show when the decode thread has done something: its own part. -/
theorem queueInv_decodes (h : QueueInv frames roles tr s g begun done taken len) {o : Op} {a : Ar o}
    {s' : Board} {taken' : Nat} {len' : Option UInt8} (hown : ∀ a, a.Rx → s'.mem a = s.mem a)
    (htakes : taken' = taken + if isTake (.op decodeThread o a : WifiLabel) then 1 else 0)
    (hcount : taken' + s'.wifiUartSem = done)
    (hround : ∀ n, len' = some n → 1 ≤ taken' ∧
      ∃ f, frames[taken' - 1]? = some f ∧ n.toNat = f.bytes.length)
    (hlook : ∀ x, look (Aclean.takes tr) (.op decodeThread o a) = some x →
      ∃ k f, x.1 = k + 1 ∧ frames[k]? = some f ∧ f.at x.2.1 = some x.2.2) :
    QueueInv frames (Function.update roles decodeThread (.decode taken' len'))
      (tr ++ [.op decodeThread o a]) s' g begun done taken' len' where
  rx := (Function.update_of_ne (by decide) ..).trans h.rx
  decode := Function.update_self ..
  idle := fun t hr hd => (Function.update_of_ne hd ..).trans (h.idle t hr hd)
  own := fun a ha => (hown a ha).trans (h.own a ha)
  begins := by
    have hno : isBegin (.op decodeThread o a : WifiLabel) = false := by
      cases o with
      | store b v => cases b <;> rfl
      | _ => rfl
    rw [begins_snoc, hno, h.begins]
    rfl
  takes := by rw [takes_snoc, h.takes, htakes]
  order := h.order
  count := hcount
  last := h.last
  round := hround
  looks := h.looks.snoc hlook

/-- The round begins. -/
theorem queueInv_take (h : QueueInv frames roles tr s g begun done taken len)
    (hsem : 0 < s.wifiUartSem) :
    QueueInv frames (Function.update roles decodeThread (.decode (taken + 1) none))
      (tr ++ [.op decodeThread .semTake ()]) (Board.exec decodeThread .semTake s).2 g begun done
      (taken + 1) none := by
  refine queueInv_decodes h (fun _ _ => rfl) rfl ?_ nofun nofun
  have hcount := h.count
  show taken + 1 + (s.wifiUartSem - 1) = done
  omega

/-- The length that is read is that of the frame taken last. -/
theorem queueInv_length (h : QueueInv frames roles tr s g begun done taken len)
    (hin : Aclean.begins tr = Aclean.takes tr) (hpos : 1 ≤ taken) :
    6 ≤ (s.mem .wifiRecieveDataLength).toNat ∧
      QueueInv frames
        (Function.update roles decodeThread (.decode taken (some (s.mem .wifiRecieveDataLength))))
        (tr ++ [.op decodeThread (.load .wifiRecieveDataLength) (s.mem .wifiRecieveDataLength)])
        s g begun done taken (some (s.mem .wifiRecieveDataLength)) := by
  obtain ⟨f, hf, hpub⟩ := h.look hin hpos
  have hown : s.mem .wifiRecieveDataLength = g.mem .wifiRecieveDataLength := h.own _ trivial
  have hv : (s.mem .wifiRecieveDataLength).toNat = f.bytes.length := by rw [hown, hpub.len]
  refine ⟨?_, queueInv_decodes h (fun _ _ => rfl) rfl h.count ?_ ?_⟩
  · have hbytes := f.length_bytes
    omega
  · rintro n ⟨⟩
    exact ⟨hpos, f, hf, hv⟩
  · rintro x ⟨⟩
    refine ⟨taken - 1, f, ?_, hf, ?_⟩
    · show Aclean.takes tr = _
      rw [h.takes]
      omega
    · show f.at .wifiRecieveDataLength = some (s.mem .wifiRecieveDataLength)
      rw [hown]
      exact hpub.at rfl nofun

/-- A byte that is looked at lies in the frame taken last. -/
theorem QueueInv.byte (h : QueueInv frames roles tr s g begun done taken len)
    (hin : Aclean.begins tr = Aclean.takes tr) {i : Int} (hi : 0 ≤ i)
    (hlt : i < ((len.elim 0 UInt8.toNat : Nat) : Int)) :
    ∃ k f, Aclean.takes tr = k + 1 ∧ frames[k]? = some f ∧
      f.at (.wifiRecvPacketBufPub i) = some (s.mem (.wifiRecvPacketBufPub i)) := by
  cases len with
  | none =>
      have hlt : i < 0 := hlt
      omega
  | some n =>
      have hlt : i < (n.toNat : Int) := hlt
      obtain ⟨hpos, f, hf, hn⟩ := h.round n rfl
      obtain ⟨f', hf', hpub⟩ := h.look hin hpos
      rw [hf] at hf'
      cases hf'
      refine ⟨taken - 1, f, ?_, hf, ?_⟩
      · rw [h.takes]
        omega
      · rw [h.own (.wifiRecvPacketBufPub i) trivial]
        refine hpub.at rfl ?_
        rintro j ⟨⟩
        exact ⟨hi, by omega⟩

/-- The other steps of a round. -/
theorem queueInv_looks (h : QueueInv frames roles tr s g begun done taken len) {o : Op}
    (hlooks : o.Looks (len.elim 0 UInt8.toNat))
    (hin : InTime tr s (.op decodeThread o (Board.exec decodeThread o s).1)) :
    QueueInv frames (Function.update roles decodeThread (.decode taken len))
      (tr ++ [.op decodeThread o (Board.exec decodeThread o s).1]) (Board.exec decodeThread o s).2 g
      begun done taken len := by
  obtain ⟨hmem, hsem⟩ := looks_exec hlooks decodeThread s
  refine queueInv_decodes h hmem ?_ ?_ h.round fun x hx => ?_
  · cases o with
    | semTake => exact absurd hlooks id
    | _ => rfl
  · rw [hsem]
    exact h.count
  · cases o with
    | load a =>
        cases a with
        | wifiRecieveDataLength => exact absurd trivial hlooks
        | wifiRecvPacketBufPub i =>
            cases hx
            exact h.byte (hin rfl) hlooks.1 hlooks.2
        | _ => cases hx
    | _ => cases hx

/-- A step of the decode thread. -/
theorem queueInv_decode (h : QueueInv frames roles tr s g begun done taken len) {o : Op}
    (hfree : Board.enabled decodeThread o s = true)
    (hin : InTime tr s (.op decodeThread o (Board.exec decodeThread o s).1))
    (hok : (queueDiscipline frames).ok (roles decodeThread) o) :
    (queueDiscipline frames).answers (roles decodeThread) o (Board.exec decodeThread o s).1 ∧
      ∃ taken' len', QueueInv frames
        (Function.update roles decodeThread
          ((queueDiscipline frames).next (roles decodeThread) o (Board.exec decodeThread o s).1))
        (tr ++ [.op decodeThread o (Board.exec decodeThread o s).1])
        (Board.exec decodeThread o s).2 g begun done taken' len' := by
  rw [h.decode] at hok ⊢
  by_cases htk : o = .semTake
  · subst htk
    have hsem : 0 < s.wifiUartSem := by simpa [Board.enabled] using hfree
    exact ⟨trivial, taken + 1, none, queueInv_take h hsem⟩
  by_cases hlen : o = .load .wifiRecieveDataLength
  · subst hlen
    have hpos : 1 ≤ taken := hok
    obtain ⟨hsix, hinv⟩ := queueInv_length h (hin rfl) hpos
    exact ⟨hsix, taken, some (s.mem .wifiRecieveDataLength), hinv⟩
  have hlooks : o.Looks (len.elim 0 UInt8.toNat) := by
    cases o with
    | load a =>
        cases a with
        | wifiRecieveDataLength => exact absurd rfl hlen
        | _ => exact hok.resolve_left nofun
    | semTake => exact absurd rfl htk
    | _ => exact hok.resolve_left nofun
  have hinv := queueInv_looks h hlooks hin
  refine ⟨?_, taken, len, ?_⟩
  · cases o with
    | load a =>
        cases a with
        | wifiRecieveDataLength => exact absurd rfl hlen
        | _ => trivial
    | _ => trivial
  · rw [looks_next hlooks]
    exact hinv

end Decode

/-! ## Which round a look belongs to -/

theorem isTake_eq (o : Op) (v : Ar o) :
    isTake (.op decodeThread o v : WifiLabel) = o.isSemTake := by
  cases o <;> rfl

theorem isTake_of_ne {t : Nat} (ht : t ≠ decodeThread) (o : Op) (v : Ar o) :
    isTake (.op t o v : WifiLabel) = false := by
  cases o <;> simp [isTake, ht]

theorem takes_eq (tr : List WifiLabel) : takes tr = semTakes (own decodeThread tr) := by
  induction tr with
  | nil => rfl
  | cons l tr ih =>
      rw [takes, List.countP_cons, ← takes, ih]
      cases l with
      | env e => nomatch e
      | op t o v =>
          by_cases ht : t = decodeThread
          · subst ht
            rw [own_cons_self, isTake_eq, semTakes, semTakes, List.countP_cons]
          · rw [own_cons_of_ne ht, isTake_of_ne ht]
            rfl

/-- A look of the decode thread is one of round `k`, when it has taken the
semaphore `k` times before. -/
theorem mem_looksFrom {tr : List WifiLabel} {k : Nat} {es₁ es₂ : List (Answered Op Ar)} {a : Addr}
    {v : UInt8} (ha : a.shared = true)
    (h : own decodeThread tr = es₁ ++ ⟨.load a, v⟩ :: es₂) :
    (k + semTakes es₁, a, v) ∈ looksFrom k tr := by
  induction tr generalizing k es₁ with
  | nil => cases es₁ <;> cases h
  | cons l tr ih =>
      rw [looksFrom, List.mem_append]
      cases l with
      | env e => nomatch e
      | op t o b =>
          by_cases ht : t = decodeThread
          · subst ht
            rw [own_cons_self] at h
            cases es₁ with
            | nil =>
                cases h
                left
                simp [look, ha, semTakes]
            | cons e es₁ =>
                obtain ⟨rfl, htail⟩ := List.cons.inj h
                right
                have hcount : k + semTakes (⟨o, b⟩ :: es₁) =
                    (if isTake (.op decodeThread o b : WifiLabel) then k + 1 else k) +
                      semTakes es₁ := by
                  rw [semTakes, List.countP_cons, ← semTakes, isTake_eq]
                  cases o.isSemTake
                  · simp
                  · simp only [if_true]
                    omega
                rw [hcount]
                exact ih htail
          · rw [own_cons_of_ne ht] at h
            right
            rw [isTake_of_ne ht]
            exact ih h

/-- The rounds of the decode thread, when all its looks are in order. -/
theorem rounds_served {frames : List WifiFrame} {tr : List WifiLabel} {n : Nat} {q : Code Unit}
    (hplays : (Prog.calls (List.replicate n decodeRound)).Plays (own decodeThread tr) q)
    (hlooks : LooksInOrder frames tr) :
    ∃ (rounds : List (List (Answered Op Ar))) (rest : List (Answered Op Ar)),
      own decodeThread tr = rounds.flatten ++ rest ∧
      takes tr = rounds.length + (if rest.isEmpty then 0 else 1) ∧
      ¬ decodeRound.Plays rest (.ret ()) ∧
      ∀ (k : Nat) (es), rounds[k]? = some es → ∃ f, frames[k]? = some f ∧ Served f es := by
  obtain ⟨rounds, rest, o, k, heq, hrounds, hrest⟩ := Plays.of_replicate hplays
  refine ⟨rounds, rest, heq, ?_, fun hdone => ?_, fun i es hi => ?_⟩
  · rw [takes_eq, heq, semTakes_append, rounds_takes hrounds, rest_takes hrest]
  · cases hrest.unique hdone
  obtain ⟨hlt, rfl⟩ := List.getElem?_eq_some_iff.mp hi
  have hes := hrounds rounds[i] (List.getElem_mem hlt)
  have hsplit : rounds = rounds.take i ++ rounds[i] :: rounds.drop (i + 1) := by
    rw [← List.drop_eq_getElem_cons, List.take_append_drop]
  have hbefore : semTakes (rounds.take i).flatten = i := by
    rw [rounds_takes fun es hes => hrounds es (List.mem_of_mem_take hes), List.length_take]
    omega
  -- what round `i` looks at it looks at behind `i + 1` takes
  have hlook : ∀ a v, (⟨.load a, v⟩ : Answered Op Ar) ∈ rounds[i] → a.shared = true →
      ∃ f, frames[i]? = some f ∧ f.at a = some v := by
    intro a v hv ha
    obtain ⟨xs, ys, hround⟩ := List.append_of_mem hv
    rw [hround] at hes hsplit
    have hown : own decodeThread tr = ((rounds.take i).flatten ++ xs) ++
        ⟨.load a, v⟩ :: (ys ++ (rounds.drop (i + 1)).flatten ++ rest) := by
      rw [heq]
      conv_lhs => rw [hsplit]
      simp
    obtain ⟨j, f, hj, hf, hat⟩ := hlooks _ (mem_looksFrom (k := 0) ha hown)
    rw [semTakes_append, hbefore, round_takes_before hes] at hj
    obtain rfl : i = j := by simpa using hj
    exact ⟨f, hf, hat⟩
  obtain ⟨m, es', hround, -⟩ := decodeRound_length hes
  obtain ⟨f, hf, -⟩ := hlook .wifiRecieveDataLength m (by simp [hround]) rfl
  refine ⟨f, hf, served_of_looks hes fun a v hv ha => ?_⟩
  obtain ⟨f', hf', hat⟩ := hlook a v hv ha
  rw [hf] at hf'
  cases hf'
  exact hat

/-! ## The result -/

def startQueue (s : Board) (t : Nat) : QueueRole :=
  if t = rxThread then .rx s 0 0 else if t = decodeThread then .decode 0 none else .idle

theorem rxAndDecode_follows {s₀ : Board} (frames : List WifiFrame) (rounds : Nat)
    (hidle : RxIdle s₀) (t : Nat) :
    (queueDiscipline frames).Follows ((rxAndDecode s₀ frames rounds).threads t)
      (fun _ l => t = rxThread → ∃ g, l = .rx g frames.length frames.length) (startQueue s₀ t) := by
  by_cases hr : t = rxThread
  · subst hr
    refine (stream_follows frames frames rfl hidle).mono ?_
    rintro _ l ⟨g, rfl⟩ -
    exact ⟨g, by rw [Nat.zero_add]⟩
  · by_cases hd : t = decodeThread
    · subst hd
      have hrounds : (queueDiscipline frames).Follows
          (Prog.calls (List.replicate rounds decodeRound))
          (fun _ l => ∃ taken len, l = .decode taken len) (.decode 0 none) := by
        refine .calls ⟨0, none, rfl⟩ fun p hp l hl => ?_
        obtain rfl := List.eq_of_mem_replicate hp
        obtain ⟨taken, len, rfl⟩ := hl
        exact decodeRound_follows frames taken len
      exact hrounds.mono fun _ _ _ h => absurd h (by decide)
    · simp only [rxAndDecode, if_neg hr, if_neg hd]
      exact .ret fun h => absurd h hr

theorem queueInv_start {s₀ : Board} (frames : List WifiFrame) (hsem : s₀.wifiUartSem = 0) :
    QueueInv frames (startQueue s₀) [] s₀ s₀ 0 0 0 none :=
  ⟨rfl, rfl, fun t hr hd => by rw [startQueue, if_neg hr, if_neg hd], fun _ _ => rfl, rfl, rfl,
    by omega, by omega, fun _ h => absurd h (Nat.lt_irrefl 0), nofun, nofun⟩

/-- A step of either thread. -/
theorem queueInv_step {s₀ : Board} {frames : List WifiFrame} {tr : List WifiLabel} {s : Board}
    {t : Nat} {o : Op}
    (h : ∃ g b d k len, QueueInv frames ((queueDiscipline frames).locals (startQueue s₀) tr) tr s
      g b d k len)
    (hfree : Board.enabled t o s = true) (hin : InTime tr s (.op t o (Board.exec t o s).1))
    (hok : (queueDiscipline frames).ok ((queueDiscipline frames).locals (startQueue s₀) tr t) o) :
    (queueDiscipline frames).answers ((queueDiscipline frames).locals (startQueue s₀) tr t) o
        (Board.exec t o s).1 ∧
      ∃ g b d k len, QueueInv frames ((queueDiscipline frames).locals (startQueue s₀)
        (tr ++ [.op t o (Board.exec t o s).1])) (tr ++ [.op t o (Board.exec t o s).1])
        (Board.exec t o s).2 g b d k len := by
  obtain ⟨g, b, d, k, len, hinv⟩ := h
  rw [Discipline.locals_snoc_op]
  by_cases hr : t = rxThread
  · subst hr
    obtain ⟨hans, g', b', d', hinv'⟩ := queueInv_rx hinv hok
    exact ⟨hans, g', b', d', k, len, hinv'⟩
  · by_cases hd : t = decodeThread
    · subst hd
      obtain ⟨hans, k', len', hinv'⟩ := queueInv_decode hinv hfree hin hok
      exact ⟨hans, g, b, d, k', len', hinv'⟩
    · rw [hinv.idle t hr hd] at hok
      exact absurd hok id

/-- **No WiFi frame is lost, repeated or torn** in a run in which the decode
thread looks at the shared data only while the frame it has taken is the last
one whose publication has begun: its rounds look at the frames in order, one
each, and each complete round has read the length and the bytes of its own frame,
checked it and obeyed it; and of the frames published none is missing but those
the semaphore still counts. -/
theorem frames_relayed (s₀ : Board) (frames : List WifiFrame) (rounds : Nat) (hidle : RxIdle s₀)
    (hsem : s₀.wifiUartSem = 0) (tr : List WifiLabel) (c : Config Op Ar Board)
    (hrun : Run Board.system InTime (rxAndDecode s₀ frames rounds) tr c) :
    Relayed frames tr ∧
      (c.threads rxThread = .ret () → takes tr + c.state.wifiUartSem = frames.length) := by
  obtain ⟨⟨g, b, d, k, len, hinv⟩, hend⟩ := hrun.keeps (queueDiscipline frames)
    (I := fun tr s => ∃ g b d k len, QueueInv frames
      ((queueDiscipline frames).locals (startQueue s₀) tr) tr s g b d k len)
    (rxAndDecode_follows frames rounds hidle) ⟨_, _, _, _, _, queueInv_start frames hsem⟩
    (fun _ _ _ _ => queueInv_step) (fun _ _ e => nomatch e)
  refine ⟨⟨hinv.looks, rounds_served (hrun.plays decodeThread) hinv.looks⟩, fun hret => ?_⟩
  have hrx := hend rxThread
  rw [hret, Discipline.follows_ret] at hrx
  obtain ⟨g', hg'⟩ := hrx rfl
  have hrole := hinv.rx
  rw [hg'] at hrole
  cases hrole
  rw [hinv.takes]
  exact hinv.count

/-- Two frames, both well-formed: one asks for the product data, one for the
state of the device. -/
def twoFrames : List WifiFrame :=
  [⟨0xF7, [], 0xF7, 0x7E, by decide⟩, ⟨0x01, [], 0x01, 0x7E, by decide⟩]

theorem frames_relayed_two : ∃ tr c,
    Run Board.system InTime (rxAndDecode Board.reset twoFrames 2) tr c ∧
      c.threads rxThread = .ret () ∧ Relayed twoFrames tr ∧
      (c.threads rxThread = .ret () → takes tr + c.state.wifiUartSem = twoFrames.length) := by
  obtain ⟨tr, c, hrun, hdone⟩ := exists_run_of_endsWith Board.system
    (fun tr _ l => !(look 0 l).isSome || begins tr == takes tr)
    (List.replicate 42 (.thread rxThread) ++ List.replicate 34 (.thread decodeThread) ++
      List.replicate 42 (.thread rxThread) ++ List.replicate 34 (.thread decodeThread))
    (rxAndDecode Board.reset twoFrames 2) (fun _ c => (c.threads rxThread).finished)
    (by decide +kernel)
  have hin : Run Board.system InTime (rxAndDecode Board.reset twoFrames 2) tr c :=
    hrun.mono fun tr s l hl hsome => by simpa [hsome] using hl
  exact ⟨tr, c, hin, eq_ret_of_finished hdone,
    frames_relayed Board.reset twoFrames 2 rfl rfl tr c hin⟩

/-- Both frames are published before the decode thread gets to run: its first
round decodes the second frame. -/
theorem frames_relayed_counterexample : ∃ tr c,
    Run Board.system anyStep (rxAndDecode Board.reset twoFrames 2) tr c ∧
      ¬ Relayed twoFrames tr := by
  obtain ⟨tr, c, hrun, hlook⟩ := exists_run_of_endsWith Board.system (fun _ _ _ => true)
    (List.replicate 84 (.thread rxThread) ++ List.replicate 34 (.thread decodeThread))
    (rxAndDecode Board.reset twoFrames 2)
    (fun tr _ => (looksFrom 0 tr).contains (1, .wifiRecvPacketBufPub 2, 0x01))
    (by decide +kernel)
  refine ⟨tr, c, hrun.any, fun hrel => ?_⟩
  obtain ⟨k, f, hk, hf, hat⟩ := hrel.looks _ (List.contains_iff_mem.mp hlook)
  obtain rfl : k = 0 := by simpa using hk.symm
  cases hf
  exact absurd hat (by decide)

end Aclean
