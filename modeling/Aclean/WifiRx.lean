import Aclean.Wifi

/-!
# The WiFi receiver and its frame grammar

`RxHolds pre s` ties the receiver's static counters to the bytes `pre` of
the frame in progress: the receiver has stored exactly them, and from the
fourth on it waits for as many as the length byte announces. One lemma per
branch of `wifi_rx_isr` says how one more byte moves `pre`; everything about
streams is an induction over those.
-/

namespace Aclean

open Board

/-! ## Running the receiver on a stream -/

/-- The receive thread and the decode thread. -/
abbrev rxThread : Nat := 0
abbrev decodeThread : Nat := 1

def rxByte (b : UInt8) (s : Board) : Board := ((wifiRxIsr b).run machine rxThread s).2

/-- The receive thread on a stream: one call for each byte. -/
def rxStream (bs : List UInt8) : Code Unit := Prog.calls (bs.map wifiRxIsr)

def rxFeed (bs : List UInt8) (s : Board) : Board := ((rxStream bs).run machine rxThread s).2

def rxTrace (bs : List UInt8) (s : Board) : List Op := (rxStream bs).trace machine rxThread s

/-- The states right after each byte at which the receiver published. -/
def publications : List UInt8 → Board → List Board
  | [], _ => []
  | b :: bs, s =>
      if (rxByte b s).wifiUartSem = s.wifiUartSem then publications bs (rxByte b s)
      else rxByte b s :: publications bs (rxByte b s)

@[simp] theorem rxFeed_nil (s : Board) : rxFeed [] s = s := rfl

@[simp] theorem rxFeed_cons (b : UInt8) (bs : List UInt8) (s : Board) :
    rxFeed (b :: bs) s = rxFeed bs (rxByte b s) := by
  simp [rxFeed, rxStream, rxByte]

theorem rxFeed_append (as bs : List UInt8) (s : Board) :
    rxFeed (as ++ bs) s = rxFeed bs (rxFeed as s) := by
  induction as generalizing s with
  | nil => rfl
  | cons a as ih => rw [List.cons_append, rxFeed_cons, rxFeed_cons, ih]

@[simp] theorem rxTrace_nil (s : Board) : rxTrace [] s = [] := rfl

@[simp] theorem rxTrace_cons (b : UInt8) (bs : List UInt8) (s : Board) :
    rxTrace (b :: bs) s =
      (wifiRxIsr b).trace machine rxThread s ++ rxTrace bs (rxByte b s) := by
  simp [rxTrace, rxStream, rxByte]

theorem rxTrace_append (as bs : List UInt8) (s : Board) :
    rxTrace (as ++ bs) s = rxTrace as s ++ rxTrace bs (rxFeed as s) := by
  induction as generalizing s with
  | nil => rfl
  | cons a as ih =>
      rw [List.cons_append, rxTrace_cons, rxTrace_cons, rxFeed_cons, ih, List.append_assoc]

theorem publications_append (as bs : List UInt8) (s : Board) :
    publications (as ++ bs) s = publications as s ++ publications bs (rxFeed as s) := by
  induction as generalizing s with
  | nil => rfl
  | cons a as ih =>
      simp only [List.cons_append, publications, rxFeed_cons, ih]
      split <;> rfl

/-! ## The frame in progress -/

structure RxHolds (pre : List UInt8) (s : Board) : Prop where
  len : (s.mem .recievedLen).toNat = pre.length
  bytes : ∀ i (h : i < pre.length), s.mem (.wifiDataBufferRecvTmp i) = pre[i]
  waits : ∀ h : 4 ≤ pre.length,
    s.mem .waitLen = pre[3] ∧ (s.mem .waitLenCnt).toNat = pre.length - 4

/-- The receiver waits for the first header byte. -/
def RxIdle (s : Board) : Prop := s.mem .recievedLen = 0

theorem rxHolds_nil {s : Board} : RxHolds [] s ↔ RxIdle s := by
  constructor
  · intro h
    rw [RxIdle, ← UInt8.toNat_inj]
    exact h.len
  · intro h
    exact ⟨by rw [h]; rfl, fun i hi => absurd hi (Nat.not_lt_zero i), fun h4 => by simp at h4⟩

theorem recievedLen_eq {pre : List UInt8} {s : Board} (h : RxHolds pre s) :
    s.mem .recievedLen = UInt8.ofNat pre.length := by
  rw [← UInt8.toNat_inj, h.len, UInt8.toNat_ofNat']
  have := h.len ▸ (s.mem .recievedLen).toNat_lt
  omega

/-- Storing the next byte of a frame and counting it. -/
theorem RxHolds.push {pre : List UInt8} {s s' : Board} (h : RxHolds pre s) (b : UInt8)
    (hlt : pre.length < 255)
    (htmp : ∀ i, s'.mem (.wifiDataBufferRecvTmp i) =
      if i = pre.length then b else s.mem (.wifiDataBufferRecvTmp i))
    (hlen : s'.mem .recievedLen = s.mem .recievedLen + 1)
    (hwait : ∀ h4 : 4 ≤ (pre ++ [b]).length,
      s'.mem .waitLen = (pre ++ [b])[3] ∧ (s'.mem .waitLenCnt).toNat = pre.length + 1 - 4) :
    RxHolds (pre ++ [b]) s' := by
  refine ⟨?_, fun i hi => ?_, fun h4 => ?_⟩
  · rw [hlen, UInt8.toNat_add, h.len]
    simp only [UInt8.toNat_ofNat, List.length_append, List.length_singleton]
    omega
  · rw [htmp i]
    rw [List.length_append, List.length_singleton] at hi
    by_cases hp : i = pre.length
    · simp [hp]
    · rw [if_neg hp, h.bytes i (by omega), List.getElem_append_left (by omega)]
  · obtain ⟨hw, hc⟩ := hwait h4
    exact ⟨hw, by rw [hc]; simp⟩

/-! ## One byte, branch by branch -/

/-- A write into one of the receive buffers stays below index `k`. -/
def Op.WritesBelow (k : Nat) : Op → Prop
  | .store (.wifiDataBufferRecvTmp i) _ => i < k
  | .store (.wifiRecvPacketBufPub i) _ => 0 ≤ i ∧ i < k
  | _ => True

theorem Op.WritesBelow.mono {k k' : Nat} (hk : k ≤ k') {o : Op} (h : o.WritesBelow k) :
    o.WritesBelow k' := by
  unfold Op.WritesBelow at *
  split at h
  · exact Nat.lt_of_lt_of_le h hk
  · exact ⟨h.1, by omega⟩
  · trivial

/-- On the bytes `bs` the receiver publishes nothing, holds `pre` at the end
and writes below index `k` only. -/
structure RxQuiet (k : Nat) (bs : List UInt8) (s : Board) (pre : List UInt8) : Prop where
  holds : RxHolds pre (rxFeed bs s)
  silent : publications bs s = []
  writes : ∀ o ∈ rxTrace bs s, o.WritesBelow k

theorem RxQuiet.byte {k : Nat} {b : UInt8} {s : Board} {pre : List UInt8}
    (holds : RxHolds pre (rxByte b s)) (sem : (rxByte b s).wifiUartSem = s.wifiUartSem)
    (writes : ∀ o ∈ (wifiRxIsr b).trace machine rxThread s, o.WritesBelow k) :
    RxQuiet k [b] s pre :=
  ⟨by simpa using holds, by simp [publications, sem], by simpa using writes⟩

theorem RxQuiet.trans {k : Nat} {as bs : List UInt8} {s : Board} {pre pre' : List UInt8}
    (ha : RxQuiet k as s pre) (hb : RxQuiet k bs (rxFeed as s) pre') :
    RxQuiet k (as ++ bs) s pre' := by
  refine ⟨?_, ?_, fun o ho => ?_⟩
  · rw [rxFeed_append]; exact hb.holds
  · rw [publications_append, ha.silent, hb.silent]; rfl
  · rw [rxTrace_append, List.mem_append] at ho
    exact ho.elim (ha.writes o) (hb.writes o)

theorem RxQuiet.mono {k k' : Nat} (hk : k ≤ k') {bs : List UInt8} {s : Board}
    {pre : List UInt8} (h : RxQuiet k bs s pre) : RxQuiet k' bs s pre :=
  ⟨h.holds, h.silent, fun o ho => (h.writes o ho).mono hk⟩

theorem rx_noise {s : Board} {b : UInt8} (h : RxHolds [] s) (hb : b ≠ 0xF1) :
    RxQuiet 1 [b] s [] := by
  have h0 : s.mem .recievedLen = 0 := rxHolds_nil.mp h
  refine .byte (rxHolds_nil.mpr ?_) ?_ ?_
  all_goals simp [RxIdle, rxByte, wifiRxIsr, h0, hb, Op.WritesBelow]

theorem rx_head {s : Board} (h : RxHolds [] s) : RxQuiet 1 [0xF1] s [0xF1] := by
  have h0 : s.mem .recievedLen = 0 := rxHolds_nil.mp h
  refine .byte (h.push 0xF1 (by simp) (fun i => ?_) ?_ (fun h4 => by simp at h4)) ?_ ?_
  all_goals simp [rxByte, wifiRxIsr, h0, Op.WritesBelow]

theorem rx_unhead {s : Board} {x b : UInt8} (h : RxHolds [x] s) (hb : b ≠ 0xF1) :
    RxQuiet 2 [b] s [] := by
  have h1 : s.mem .recievedLen = 1 := recievedLen_eq h
  refine .byte (rxHolds_nil.mpr ?_) ?_ ?_
  all_goals simp [RxIdle, rxByte, wifiRxIsr, h1, hb, Op.WritesBelow]

theorem rx_lone_head {s : Board} {c : UInt8} (h : RxHolds [] s) (hc : c ≠ 0xF1) :
    RxQuiet 2 [0xF1, c] s [] :=
  ((rx_head h).mono (by omega)).trans (rx_unhead (rx_head h).holds hc)

theorem rx_head_again {s : Board} {x : UInt8} (h : RxHolds [x] s) :
    RxQuiet 2 [0xF1] s [x, 0xF1] := by
  have h1 : s.mem .recievedLen = 1 := recievedLen_eq h
  refine .byte (h.push 0xF1 (by simp) (fun i => ?_) ?_ (fun h4 => by simp at h4)) ?_ ?_
  all_goals simp [rxByte, wifiRxIsr, h1, Op.WritesBelow]

theorem rx_cmd {s : Board} {x y : UInt8} (b : UInt8) (h : RxHolds [x, y] s) :
    RxQuiet 3 [b] s [x, y, b] := by
  have h2 : s.mem .recievedLen = 2 := recievedLen_eq h
  refine .byte (h.push b (by simp) (fun i => ?_) ?_ (fun h4 => by simp at h4)) ?_ ?_
  all_goals simp [rxByte, wifiRxIsr, h2, Op.WritesBelow]

theorem rx_length {s : Board} {x y z : UInt8} (n : UInt8) (h : RxHolds [x, y, z] s) :
    RxQuiet 4 [n] s [x, y, z, n] := by
  have h3 : s.mem .recievedLen = 3 := recievedLen_eq h
  refine .byte (h.push n (by simp) (fun i => ?_) ?_ (fun _ => ?_)) ?_ ?_
  all_goals simp [rxByte, wifiRxIsr, h3, Op.WritesBelow]

/-- Behind the length byte none of the header branches is taken. -/
theorem RxHolds.behind {pre : List UInt8} {s : Board} (h : RxHolds pre s)
    (h4 : 4 ≤ pre.length) :
    s.mem .recievedLen ≠ 0 ∧ s.mem .recievedLen ≠ 1 ∧ ¬ s.mem .recievedLen ≤ 3 := by
  have hlen := h.len
  refine ⟨?_, ?_, ?_⟩
  · intro hc; rw [hc] at hlen; simp at hlen; omega
  · intro hc; rw [hc] at hlen; simp at hlen; omega
  · intro hc
    have : (s.mem .recievedLen).toNat ≤ 3 := UInt8.le_iff_toNat_le.mp hc
    omega

theorem rx_data {pre : List UInt8} {s : Board} (b : UInt8) (h : RxHolds pre s)
    (h4 : 4 ≤ pre.length) (hn : pre.length ≤ pre[3].toNat + 4) (hlt : pre.length < 255) :
    RxQuiet (pre.length + 1) [b] s (pre ++ [b]) := by
  obtain ⟨h0, h1, h3⟩ := h.behind h4
  obtain ⟨hw, hc⟩ := h.waits h4
  have hle : s.mem .waitLenCnt ≤ s.mem .waitLen := by
    rw [UInt8.le_iff_toNat_le, hc, hw]; omega
  refine .byte (h.push b hlt (fun i => ?_) ?_ (fun h5 => ⟨?_, ?_⟩)) ?_ ?_
  · simp [rxByte, wifiRxIsr, h0, h1, h3, hle, h.len]
  · simp [rxByte, wifiRxIsr, h0, h1, h3, hle]
  · rw [List.getElem_append_left (by omega), ← hw]
    simp [rxByte, wifiRxIsr, h0, h1, h3, hle]
  · simp [rxByte, wifiRxIsr, h0, h1, h3, hle, hc]
    omega
  · simp [rxByte, wifiRxIsr, h0, h1, h3, hle]
  · simp [wifiRxIsr, h0, h1, h3, hle, h.len, Op.WritesBelow]

/-! ## The byte that completes a frame -/

/-- The receiver's buffer copied to the shared one, up to index `n`. -/
def publishedMem (n : Nat) (mem : Addr → UInt8) : Addr → UInt8
  | .wifiRecvPacketBufPub i =>
      if 0 ≤ i ∧ i < n then mem (.wifiDataBufferRecvTmp i.toNat)
      else mem (.wifiRecvPacketBufPub i)
  | a => mem a

theorem publishedMem_succ (n : Nat) (mem : Addr → UInt8) :
    Function.update (publishedMem n mem) (.wifiRecvPacketBufPub n)
      (mem (.wifiDataBufferRecvTmp n)) = publishedMem (n + 1) mem := by
  funext a
  cases a with
  | wifiRecvPacketBufPub i =>
      by_cases hi : i = n
      · subst hi
        rw [Function.update_self, publishedMem, if_pos (by omega), Int.toNat_natCast]
      · have hne : Addr.wifiRecvPacketBufPub i ≠ .wifiRecvPacketBufPub n := by simpa using hi
        have hiff : (0 ≤ i ∧ i < n) ↔ (0 ≤ i ∧ i < (n + 1 : Nat)) := by omega
        simp only [Function.update_of_ne hne, publishedMem, hiff]
  | _ => rfl

theorem run_copyToPub (n t : Nat) (s : Board) :
    ((copyToPub n).run machine t s).2 = { s with mem := publishedMem n s.mem } := by
  induction n with
  | zero =>
      have h0 : publishedMem 0 s.mem = s.mem := by
        funext a
        cases a with
        | wifiRecvPacketBufPub i =>
            have : ¬ (0 ≤ i ∧ i < (0 : Nat)) := by omega
            simp only [publishedMem, this, if_false]
        | _ => rfl
      rw [h0]; rfl
  | succ n ih =>
      rw [copyToPub, Prog.run_forUpTo_succ, ← copyToPub, ih, ← publishedMem_succ]
      simp [Board.set, publishedMem]

theorem trace_copyToPub {n t : Nat} {s : Board} {o : Op}
    (ho : o ∈ (copyToPub n).trace machine t s) : o.WritesBelow n := by
  induction n with
  | zero => cases ho
  | succ n ih =>
      rw [copyToPub, Prog.forUpTo, Prog.trace_foldUpTo_succ, List.mem_append] at ho
      rcases ho with ho | ho
      · exact (ih ho).mono (Nat.le_succ n)
      · simp at ho
        rcases ho with rfl | rfl
        · trivial
        · exact ⟨by omega, by omega⟩

/-- The receiver published `fr`: the shared length and buffer are its, the
semaphore went up by one, and the receiver is idle again. -/
structure Published (fr : List UInt8) (s s' : Board) : Prop where
  idle : RxIdle s'
  sem : s'.wifiUartSem = s.wifiUartSem + 1
  len : (s'.mem .wifiRecieveDataLength).toNat = fr.length
  bytes : ∀ i (h : i < fr.length), s'.mem (.wifiRecvPacketBufPub i) = fr[i]

/-- Where the counters say the frame is complete, the byte is published. -/
theorem wifiRxIsr_publish {pre : List UInt8} {s : Board} (b : UInt8) (h : RxHolds pre s)
    (h4 : 4 ≤ pre.length) (hn : pre.length = pre[3].toNat + 5) :
    (wifiRxIsr b).run machine rxThread s =
        (publishFrame b (s.mem .recievedLen)).run machine rxThread s ∧
      ∀ o ∈ (wifiRxIsr b).trace machine rxThread s,
        o ∈ (publishFrame b (s.mem .recievedLen)).trace machine rxThread s ∨
          o.WritesBelow 0 := by
  obtain ⟨h0, h1, h3⟩ := h.behind h4
  obtain ⟨hw, hc⟩ := h.waits h4
  have hle : ¬ s.mem .waitLenCnt ≤ s.mem .waitLen := by
    rw [UInt8.le_iff_toNat_le, hc, hw]; omega
  have heq : (s.mem .waitLenCnt).toNat = (s.mem .waitLen).toNat + 1 := by
    rw [hc, hw]; omega
  constructor
  · simp [wifiRxIsr, h0, h1, h3, hle, heq]
  · intro o ho
    simp [wifiRxIsr, h0, h1, h3, hle, heq] at ho
    rcases ho with rfl | rfl | rfl | ho
    · exact .inr trivial
    · exact .inr trivial
    · exact .inr trivial
    · exact .inl ho

theorem rx_publish {pre : List UInt8} {s : Board} (b : UInt8) (h : RxHolds pre s)
    (h4 : 4 ≤ pre.length) (hn : pre.length = pre[3].toNat + 5) (hlt : pre.length < 255) :
    Published (pre ++ [b]) s (rxByte b s) ∧
      ∀ o ∈ rxTrace [b] s, o.WritesBelow (pre.length + 1) := by
  obtain ⟨hrun, htrace⟩ := wifiRxIsr_publish b h h4 hn
  have hsucc : (s.mem .recievedLen + 1).toNat = pre.length + 1 := by
    rw [UInt8.toNat_add, h.len, show (1 : UInt8).toNat = 1 from rfl]
    omega
  refine ⟨⟨?_, ?_, ?_, fun i hi => ?_⟩, fun o ho => ?_⟩
  · simp [RxIdle, rxByte, hrun, publishFrame, run_copyToPub]
  · simp [rxByte, hrun, publishFrame, run_copyToPub]
  · simp [rxByte, hrun, publishFrame, run_copyToPub, publishedMem, -UInt8.toNat_add, hsucc]
  · rw [List.length_append, List.length_singleton] at hi
    have hi' : (i : Int) < pre.length + 1 := by omega
    simp [rxByte, hrun, publishFrame, run_copyToPub, publishedMem, -UInt8.toNat_add, hsucc,
      h.len, hi']
    by_cases hp : i = pre.length
    · simp [hp]
    · rw [if_neg hp, h.bytes i (by omega), List.getElem_append_left (by omega)]
  · rw [rxTrace_cons, rxTrace_nil, List.append_nil] at ho
    rcases htrace o ho with ho | ho
    · simp [publishFrame, -UInt8.toNat_add, hsucc] at ho
      rcases ho with rfl | rfl | rfl | ho | rfl | rfl | rfl | rfl
      · exact Nat.lt_succ_of_le (Nat.le_of_eq h.len)
      · trivial
      · trivial
      · exact trace_copyToPub ho
      all_goals trivial
    · exact ho.mono (Nat.zero_le _)

/-! ## Whole frames -/

/-- A frame as it comes over the wire. -/
structure WifiFrame where
  cmd : UInt8
  data : List UInt8
  c : UInt8
  t : UInt8
  short : data.length ≤ 94

namespace WifiFrame

/-- All but the end byte. -/
def body (f : WifiFrame) : List UInt8 :=
  [0xF1, 0xF1, f.cmd, UInt8.ofNat f.data.length] ++ (f.data ++ [f.c])

def bytes (f : WifiFrame) : List UInt8 := f.body ++ [f.t]

@[simp] theorem length_body (f : WifiFrame) : f.body.length = f.data.length + 5 := by
  simp [body]

@[simp] theorem length_bytes (f : WifiFrame) : f.bytes.length = f.data.length + 6 := by
  simp [bytes]

theorem toNat_lengthByte (f : WifiFrame) :
    (UInt8.ofNat f.data.length).toNat = f.data.length := by
  rw [UInt8.toNat_ofNat']
  have := f.short
  omega

end WifiFrame

/-- The bytes of a frame behind its length byte, as many as it announces. -/
theorem rx_datas (ds : List UInt8) {pre : List UInt8} {s : Board} (h : RxHolds pre s) (h4 : 4 ≤ pre.length)
    (hn : pre.length + ds.length ≤ pre[3].toNat + 5) (hlt : pre.length + ds.length ≤ 255) :
    RxQuiet (pre.length + ds.length) ds s (pre ++ ds) := by
  induction ds generalizing pre s with
  | nil => exact ⟨by simpa using h, rfl, fun o ho => by cases ho⟩
  | cons d ds ih =>
      rw [List.length_cons] at hn hlt ⊢
      have hd := rx_data d h h4 (by omega) (by omega)
      have h5 : 4 ≤ (pre ++ [d]).length := by simp; omega
      have h3 : (pre ++ [d])[3] = pre[3] := List.getElem_append_left (by omega)
      have hds := ih hd.holds h5 (by rw [h3]; simp; omega) (by simp; omega)
      have hd' : RxQuiet (pre.length + (ds.length + 1)) [d] s (pre ++ [d]) :=
        hd.mono (by omega)
      simpa using hd'.trans (hds.mono (by simp; omega))

theorem rx_heads {s : Board} (h : RxIdle s) : RxQuiet 2 [0xF1, 0xF1] s [0xF1, 0xF1] :=
  have h1 := rx_head (rxHolds_nil.mpr h)
  (h1.mono (by omega)).trans (rx_head_again h1.holds)

theorem rx_header {s : Board} (h : RxIdle s) (cmd n : UInt8) :
    RxQuiet 4 [0xF1, 0xF1, cmd, n] s [0xF1, 0xF1, cmd, n] := by
  have h2 := rx_heads h
  have h3 := rx_cmd cmd h2.holds
  have h4 := rx_length n h3.holds
  exact (h2.mono (by omega)).trans ((h3.mono (by omega)).trans h4)

/-- The beginning of a frame, as far as it has come. -/
theorem rx_unfinished {s : Board} (h : RxIdle s) (cmd n : UInt8) (ds : List UInt8)
    (hn : ds.length ≤ n.toNat + 1) (hlt : ds.length ≤ 251) :
    RxQuiet (ds.length + 4) ([0xF1, 0xF1, cmd, n] ++ ds) s ([0xF1, 0xF1, cmd, n] ++ ds) := by
  have hhead := rx_header h cmd n
  have hdata := rx_datas ds hhead.holds (by simp) (by simp; omega) (by simp; omega)
  exact (hhead.mono (by omega)).trans (hdata.mono (by simp; omega))

theorem rx_body (f : WifiFrame) {s : Board} (h : RxIdle s) :
    RxQuiet f.body.length f.body s f.body := by
  have hn := f.toNat_lengthByte
  have hshort := f.short
  have := rx_unfinished h f.cmd (UInt8.ofNat f.data.length) (f.data ++ [f.c]) (by simp [hn])
    (by simp; omega)
  exact this.mono (by simp)

/-- The receiver publishes `fr`, on its last byte and once. -/
structure RxPublishes (fr : List UInt8) (s : Board) : Prop where
  once : publications fr s = [rxFeed fr s]
  idle : RxIdle (rxFeed fr s)
  len : ((rxFeed fr s).mem .wifiRecieveDataLength).toNat = fr.length
  bytes : ∀ i (h : i < fr.length), (rxFeed fr s).mem (.wifiRecvPacketBufPub i) = fr[i]
  writes : ∀ o ∈ rxTrace fr s, o.WritesBelow fr.length

theorem rx_frame (f : WifiFrame) {s : Board} (h : RxIdle s) : RxPublishes f.bytes s := by
  have hn := f.toNat_lengthByte
  have hshort := f.short
  have hbody := rx_body f h
  obtain ⟨hpub, hwrites⟩ := rx_publish f.t hbody.holds (by simp) (by simp [hn, WifiFrame.body])
    (by simp; omega)
  have hfeed : rxFeed f.bytes s = rxByte f.t (rxFeed f.body s) := by
    rw [WifiFrame.bytes, rxFeed_append]; simp
  refine ⟨?_, ?_, ?_, ?_, ?_⟩
  · rw [hfeed, WifiFrame.bytes, publications_append, hbody.silent]
    simp [publications, hpub.sem]
  · rw [hfeed]; exact hpub.idle
  · rw [hfeed]; exact hpub.len
  · rw [hfeed]; exact hpub.bytes
  · intro o ho
    rw [WifiFrame.bytes, rxTrace_append, List.mem_append] at ho
    rcases ho with ho | ho
    · exact (hbody.writes o ho).mono (by simp)
    · exact (hwrites o ho).mono (by simp)

/-! ## The frame check -/

/-- The shared buffer and length hold the frame `fr`. -/
structure PubHolds (fr : List UInt8) (s : Board) : Prop where
  len : (s.mem .wifiRecieveDataLength).toNat = fr.length
  bytes : ∀ i (h : i < fr.length), s.mem (.wifiRecvPacketBufPub i) = fr[i]

theorem RxPublishes.pubHolds {fr : List UInt8} {s : Board} (h : RxPublishes fr s) :
    PubHolds fr (rxFeed fr s) :=
  ⟨h.len, h.bytes⟩

/-- One more of the bytes that are summed. -/
theorem take_summed_succ {fr : List UInt8} {n : Nat} (hn : n + 2 < fr.length) :
    (fr.drop 2).take (n + 1) = (fr.drop 2).take n ++ [fr[n + 2]] := by
  have hd : (fr.drop 2)[n]? = some fr[n + 2] := by
    rw [List.getElem?_drop, Nat.add_comm, List.getElem?_eq_getElem]
  rw [List.take_add_one, hd, Option.toList_some]

theorem run_checksumRecv {fr : List UInt8} {s : Board} (h : PubHolds fr s) {n : Nat}
    (hn : n + 2 ≤ fr.length) (t : Nat) :
    (checksumRecv n).run machine t s = (((fr.drop 2).take n).sum, s) := by
  induction n with
  | zero => simp [checksumRecv]
  | succ n ih =>
      have hb : s.mem (recvPub (n + 2)) = fr[n + 2] := h.bytes (n + 2) (by omega)
      rw [checksumRecv, Prog.run_foldUpTo_succ, ← checksumRecv, ih (by omega),
        take_summed_succ (by omega)]
      simp [hb]

/-- The checksum that `f` should carry. -/
def WifiFrame.chk (f : WifiFrame) : UInt8 := f.cmd + UInt8.ofNat f.data.length + f.data.sum

theorem run_wifiReceiveDataCheck (f : WifiFrame) {s : Board} (h : PubHolds f.bytes s) (t : Nat) :
    ((wifiReceiveDataCheck (s.mem .wifiRecieveDataLength)).run machine t s).1 =
      if f.t = 0x7E ∧ f.chk = f.c then 1 else 0 := by
  have hlen := f.length_bytes
  have hc : s.mem (recvPub (f.data.length + 6 - 2)) = f.c := by
    have hb := h.bytes (f.data.length + 4) (by omega)
    rw [show (f.data.length + 6 - 2 : Int) = (f.data.length + 4 : Nat) by omega, hb]
    simp [WifiFrame.bytes, WifiFrame.body]
  have ht : s.mem (recvPub (f.data.length + 6 - 1)) = f.t := by
    have hb := h.bytes (f.data.length + 5) (by omega)
    rw [show (f.data.length + 6 - 1 : Int) = (f.data.length + 5 : Nat) by omega, hb]
    simp [WifiFrame.bytes, WifiFrame.body]
  have h0 : s.mem (recvPub 0) = 0xF1 := h.bytes 0 (by omega)
  have h1 : s.mem (recvPub 1) = 0xF1 := h.bytes 1 (by omega)
  have hsum : (checksumRecv (f.data.length + 2)).run machine t s = (f.chk, s) := by
    rw [run_checksumRecv h (by omega)]
    simp [WifiFrame.bytes, WifiFrame.body, WifiFrame.chk, UInt8.add_assoc]
  rw [wifiReceiveDataCheck, h.len, hlen]
  simp [hc, ht, h0, h1, hsum]
  by_cases hend : f.t = 0x7E
  · simp [hend]
  · simp [hend]

end Aclean
