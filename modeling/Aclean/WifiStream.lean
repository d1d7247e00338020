import Mathlib.Data.List.Forall2
import Aclean.Footprint
import Aclean.WifiRx

/-!
# Byte streams through the WiFi receiver

What the receiver does with whole streams: noise leaves it idle, every frame
of its grammar is published as it came, and the buffers hold as long as no
header announces more than they can take.
-/

namespace Aclean

open Board

/-! ## Noise and sequences of frames -/

/-- Bytes without a frame header that do not end in the middle of one. -/
theorem rx_noises : ∀ {bs : List UInt8} {s : Board}, RxIdle s → ¬ [0xF1, 0xF1] <:+: bs →
    bs.getLast? ≠ some 0xF1 → RxQuiet 2 bs s []
  | [], s, h, _, _ => ⟨rxHolds_nil.mpr h, rfl, fun o ho => by cases ho⟩
  | [b], s, h, _, hlast => by
      have hb : b ≠ 0xF1 := fun hb => hlast (by rw [hb]; rfl)
      exact (rx_noise (rxHolds_nil.mpr h) hb).mono (by omega)
  | b :: c :: bs, s, h, hinf, hlast => by
      by_cases hb : b = 0xF1
      · subst hb
        have hc : c ≠ 0xF1 := fun hc => hinf ⟨[], bs, by rw [hc]; rfl⟩
        have h2 := rx_lone_head (rxHolds_nil.mpr h) hc
        have hrest : RxQuiet 2 bs (rxFeed [0xF1, c] s) [] := by
          refine rx_noises (rxHolds_nil.mp h2.holds) (fun hi => hinf ?_) (fun hl => hlast ?_)
          · exact hi.trans ⟨[0xF1, c], [], by simp⟩
          · cases bs with
            | nil => cases hl
            | cons d ds => simpa using hl
        exact h2.trans hrest
      · have h1 := rx_noise (rxHolds_nil.mpr h) hb
        have hrest : RxQuiet 2 (c :: bs) (rxFeed [b] s) [] :=
          rx_noises (rxHolds_nil.mp h1.holds) (fun hi => hinf (hi.trans ⟨[b], [], by simp⟩))
            (fun hl => hlast (by simpa using hl))
        exact (h1.mono (by omega)).trans hrest

/-- The bytes of a sequence of frames. -/
def wireBytes (fs : List WifiFrame) : List UInt8 := fs.flatMap WifiFrame.bytes

theorem rx_frames : ∀ (fs : List WifiFrame) {s : Board}, RxIdle s →
    List.Forall₂ (fun f p => PubHolds f.bytes p) fs (publications (wireBytes fs) s) ∧
      RxIdle (rxFeed (wireBytes fs) s)
  | [], _, h => ⟨.nil, h⟩
  | f :: fs, s, h => by
      have hf := rx_frame f h
      obtain ⟨hpubs, hidle⟩ := rx_frames fs hf.idle
      have hbytes : wireBytes (f :: fs) = f.bytes ++ wireBytes fs := rfl
      rw [hbytes, publications_append, hf.once, rxFeed_append]
      exact ⟨.cons hf.pubHolds hpubs, hidle⟩

theorem PubHolds.frame {fr : List UInt8} {s : Board} (h : PubHolds fr s) :
    s.frame (fun i => recvPub i) fr.length = fr := by
  refine List.ext_getElem (by simp [Board.frame]) fun i _ hi => ?_
  simp [Board.frame, h.bytes i hi]

/-- The checksum in numbers. -/
theorem WifiFrame.toNat_chk (f : WifiFrame) :
    f.chk.toNat = (f.cmd.toNat + f.data.length + (f.data.map UInt8.toNat).sum) % 256 := by
  have hsum : ∀ ds : List UInt8, ds.sum.toNat = (ds.map UInt8.toNat).sum % 256 := by
    intro ds
    induction ds with
    | nil => rfl
    | cons d ds ih =>
        rw [List.sum_cons, UInt8.toNat_add, ih, List.map_cons, List.sum_cons]
        omega
  rw [chk, UInt8.toNat_add, UInt8.toNat_add, hsum, f.toNat_lengthByte]
  omega

/-- **The receiver accepts its frame grammar.** After any noise without a
header, a sequence of frames is published frame by frame, byte for byte,
and the check passes a published frame just if its end byte and its
checksum are right. -/
theorem wifiRxIsr_accepts (noise : List UInt8) (fs : List WifiFrame) (s : Board)
    (hidle : RxIdle s) (hpair : ¬ [0xF1, 0xF1] <:+: noise) (hlast : noise.getLast? ≠ some 0xF1) :
    List.Forall₂
        (fun f p =>
          (p.mem .wifiRecieveDataLength).toNat = f.data.length + 6 ∧
          p.frame (fun i => recvPub i) (f.data.length + 6) = f.bytes ∧
          (((wifiReceiveDataCheck (p.mem .wifiRecieveDataLength)).run machine decodeThread p).1
              = 1 ↔
            f.t = 0x7E ∧
              f.c.toNat =
                (f.cmd.toNat + f.data.length + (f.data.map UInt8.toNat).sum) % 256))
        fs (publications (noise ++ wireBytes fs) s) ∧
      RxIdle (rxFeed (noise ++ wireBytes fs) s) := by
  have hnoise := rx_noises hidle hpair hlast
  obtain ⟨hpubs, hend⟩ := rx_frames fs (rxHolds_nil.mp hnoise.holds)
  rw [publications_append, hnoise.silent, List.nil_append, rxFeed_append]
  refine ⟨hpubs.imp fun f p hp => ⟨?_, ?_, ?_⟩, hend⟩
  · rw [hp.len, f.length_bytes]
  · rw [← f.length_bytes]; exact hp.frame
  · rw [run_wifiReceiveDataCheck f hp, ← f.toNat_chk, UInt8.toNat_inj]
    by_cases hok : f.t = 0x7E ∧ f.chk = f.c
    · rw [if_pos hok]
      exact ⟨fun _ => ⟨hok.1, hok.2.symm⟩, fun _ => rfl⟩
    · rw [if_neg hok]
      exact ⟨fun h => absurd h (by decide), fun h => absurd ⟨h.1, h.2.symm⟩ hok⟩

theorem wifiRxIsr_accepts_reset :
    RxIdle (rxFeed ([0x00, 0xF1, 0x05] ++ wireBytes [⟨0x04, [0xF1, 0xF1], 0xE8, 0x7E, by decide⟩])
      Board.reset) :=
  (wifiRxIsr_accepts [0x00, 0xF1, 0x05] [⟨0x04, [0xF1, 0xF1], 0xE8, 0x7E, by decide⟩]
    Board.reset rfl (by decide) (by decide)).2

/-! ## Staying inside the buffers -/

/-- A read of the shared receive buffer stays within its first `k` bytes. -/
def Op.ReadsBelow (k : Nat) : Op → Prop
  | .load (.wifiRecvPacketBufPub i) => 0 ≤ i ∧ i < k
  | _ => True

theorem Op.ReadsBelow.mono {k k' : Nat} (hk : k ≤ k') {o : Op} (h : o.ReadsBelow k) :
    o.ReadsBelow k' := by
  unfold Op.ReadsBelow at *
  split at h
  · exact ⟨h.1, by omega⟩
  · trivial

/-- Of the receive data, only reads of the first `k` bytes of the shared buffer. -/
def Op.Looks (k : Nat) : Op → Prop
  | .load (.wifiRecvPacketBufPub i) => 0 ≤ i ∧ i < k
  | .load a => ¬ a.Rx
  | .store a _ => ¬ a.Rx
  | .semTake => False
  | .semRelease => False
  | _ => True

theorem Op.Looks.readsBelow {k : Nat} {o : Op} (h : o.Looks k) : o.ReadsBelow k := by
  unfold Op.ReadsBelow
  split
  · exact h
  · trivial

theorem Op.Looks.mono {k k' : Nat} (hk : k ≤ k') {o : Op} (h : o.Looks k) : o.Looks k' := by
  unfold Op.Looks at *
  split at h <;> first | exact ⟨h.1, by omega⟩ | exact h

theorem Op.Control.looks {o : Op} (h : o.Control) (k : Nat) : o.Looks k := by
  unfold Op.Looks
  split
  · exact absurd trivial h
  · exact h
  · exact h.1
  all_goals first | exact h | trivial

theorem wifiReceiveDataCheck_looks {len : UInt8} (h6 : 6 ≤ len.toNat) :
    (wifiReceiveDataCheck len).Only (Op.Looks len.toNat) := by
  have hsum : (checksumRecv (len.toNat - 4)).Only (Op.Looks len.toNat) := by
    unfold checksumRecv
    refine .foldUpTo fun i chk hi => ?_
    simp only [load, Prog.op_bind, Prog.ret_bind, Prog.only_op, Prog.only_pure, implies_true,
      and_true, Op.Looks]
    omega
  unfold wifiReceiveDataCheck
  simp only [load, Prog.op_bind, Prog.ret_bind, Prog.only_op, Prog.only_ite, Prog.only_pure,
    Op.Looks]
  refine ⟨by omega, fun _ => ⟨by omega, fun _ => ⟨by omega, fun _ => ⟨fun _ => ⟨by omega,
    fun _ => ⟨fun _ => .bind hsum fun _ => .ret _, fun _ => trivial⟩⟩, fun _ => trivial⟩⟩⟩⟩

theorem wifiReceiveDataDecode_looks : (wifiReceiveDataDecode exchange).Only (Op.Looks 6) := by
  have hwork : ∀ type data, (setDeviceWorkMode exchange type data 1).Only (Op.Looks 6) :=
    fun type data => setDeviceWorkMode_only (fun n _ => by simp [Op.Looks])
      (fun o h => h.looks 6) type data 1 trivial
  have hstate : returnCurrentDeviceState.Only (Op.Looks 6) :=
    returnCurrentDeviceState_plain.mono fun o h => h.control.looks 6
  have hf7 : sendF7Packet.Only (Op.Looks 6) :=
    (wifiSendPacketData_plain _).mono fun o h => h.control.looks 6
  unfold wifiReceiveDataDecode
  simp only [load, Prog.op_bind, Prog.ret_bind, Prog.only_op, Prog.only_ite, Prog.only_pure,
    Op.Looks]
  refine ⟨by omega, fun cmd => ⟨fun _ => hstate, fun _ => ⟨fun _ => ⟨by omega, fun type =>
    ⟨by omega, fun data => .bind (hwork type data) fun _ => hstate⟩⟩, fun _ =>
    ⟨fun _ => hf7, fun _ => trivial⟩⟩⟩⟩

/-- After a publication of at least an empty frame, the decode thread reads
inside it. -/
theorem wifiDecodeFrame_reads {s : Board} (h6 : 6 ≤ (s.mem .wifiRecieveDataLength).toNat)
    {t : Nat} {o : Op} (ho : o ∈ (wifiDecodeFrame exchange).trace machine t s) :
    o.ReadsBelow (s.mem .wifiRecieveDataLength).toNat := by
  rw [wifiDecodeFrame, Prog.trace_bind, List.mem_append] at ho
  rcases ho with ho | ho
  · simp at ho; subst ho; trivial
  · rw [Prog.trace_bind, List.mem_append] at ho
    rcases ho with ho | ho
    · exact ((wifiReceiveDataCheck_looks h6).trace _ _ ho).readsBelow
    · refine Prog.Only.trace _ _ ?_ ho
      rw [Prog.only_when]
      exact fun _ => .op trivial fun _ =>
        wifiReceiveDataDecode_looks.mono fun o h => (h.mono h6).readsBelow

/-- The receive path stays inside its buffers: nothing is written at or
beyond index 100 while the bytes come in, and what the decode thread reads
after a publication lies in the buffer and in the published frame. -/
structure StreamSafe (bs : List UInt8) (s : Board) : Prop where
  writes : ∀ o ∈ rxTrace bs s, o.WritesBelow 100
  reads : ∀ p ∈ publications bs s,
    ∀ o ∈ (wifiDecodeFrame exchange).trace machine decodeThread p,
      o.ReadsBelow 100 ∧ o.ReadsBelow (p.mem .wifiRecieveDataLength).toNat

/-- The stream has a frame header, where the receiver looks for one, whose
length byte is over 94 and that 97 bytes or more follow. -/
inductive Overruns : List UInt8 → Prop where
  | noise {b : UInt8} {bs : List UInt8} (hb : b ≠ 0xF1) (h : Overruns bs) : Overruns (b :: bs)
  | unhead {c : UInt8} {bs : List UInt8} (hc : c ≠ 0xF1) (h : Overruns bs) :
      Overruns (0xF1 :: c :: bs)
  | frame (f : WifiFrame) {bs : List UInt8} (h : Overruns bs) : Overruns (f.bytes ++ bs)
  | here {cmd n : UInt8} {bs : List UInt8} (hn : 94 < n.toNat) (hbs : 97 ≤ bs.length) :
      Overruns (0xF1 :: 0xF1 :: cmd :: n :: bs)

theorem StreamSafe.of_quiet {k : Nat} {bs : List UInt8} {s : Board} {pre : List UInt8}
    (h : RxQuiet k bs s pre) (hk : k ≤ 100) : StreamSafe bs s :=
  ⟨fun o ho => (h.writes o ho).mono hk, fun p hp => by rw [h.silent] at hp; cases hp⟩

theorem StreamSafe.of_frame (f : WifiFrame) {s : Board} (h : RxIdle s) :
    StreamSafe f.bytes s := by
  have hf := rx_frame f h
  have hlen := f.length_bytes
  have hshort := f.short
  refine ⟨fun o ho => (hf.writes o ho).mono (by omega), fun p hp o ho => ?_⟩
  rw [hf.once, List.mem_singleton] at hp
  subst hp
  have hreads := wifiDecodeFrame_reads (by rw [hf.len]; omega) ho
  exact ⟨hreads.mono (by rw [hf.len]; omega), hreads⟩

theorem StreamSafe.append {as bs : List UInt8} {s : Board} (ha : StreamSafe as s)
    (hb : StreamSafe bs (rxFeed as s)) : StreamSafe (as ++ bs) s := by
  refine ⟨fun o ho => ?_, fun p hp => ?_⟩
  · rw [rxTrace_append, List.mem_append] at ho
    exact ho.elim (ha.writes o) (hb.writes o)
  · rw [publications_append, List.mem_append] at hp
    exact hp.elim (ha.reads p) (hb.reads p)

theorem StreamSafe.of_append_right {as bs : List UInt8} {s : Board}
    (h : StreamSafe (as ++ bs) s) : StreamSafe bs (rxFeed as s) := by
  refine ⟨fun o ho => h.writes o ?_, fun p hp => h.reads p ?_⟩
  · rw [rxTrace_append]; exact List.mem_append_right _ ho
  · rw [publications_append]; exact List.mem_append_right _ hp

/-- Behind a header that announces more, the 101st byte of the frame goes to
index 100. -/
theorem rx_overrun {pre : List UInt8} {s : Board} (b : UInt8) (h : RxHolds pre s)
    (hpre : pre.length = 100) (hn : 94 < (pre[3]).toNat) :
    Op.store (.wifiDataBufferRecvTmp 100) b ∈ rxTrace [b] s := by
  obtain ⟨h0, h1, h3⟩ := h.behind (by omega)
  obtain ⟨hw, hc⟩ := h.waits (by omega)
  have hlen : (s.mem .recievedLen).toNat = 100 := by rw [h.len, hpre]
  by_cases hle : s.mem .waitLenCnt ≤ s.mem .waitLen
  · simp [wifiRxIsr, h0, h1, h3, hle, hlen]
  · have heq : (s.mem .waitLenCnt).toNat = (s.mem .waitLen).toNat + 1 := by
      rw [UInt8.le_iff_toNat_le, hc, hw] at hle
      rw [hc, hw]
      omega
    simp [wifiRxIsr, h0, h1, h3, hle, heq, publishFrame, hlen]

/-- Any stream that overruns writes index 100. -/
theorem Overruns.not_safe {bs : List UInt8} (h : Overruns bs) :
    ∀ {s : Board}, RxIdle s → ¬ StreamSafe bs s := by
  induction h with
  | @noise b bs hb _ ih =>
      intro s hidle hsafe
      have hq := rx_noise (rxHolds_nil.mpr hidle) hb
      have hsplit : StreamSafe ([b] ++ bs) s := hsafe
      exact ih (rxHolds_nil.mp hq.holds) hsplit.of_append_right
  | @unhead c bs hc _ ih =>
      intro s hidle hsafe
      have hq := rx_lone_head (rxHolds_nil.mpr hidle) hc
      have hsplit : StreamSafe ([0xF1, c] ++ bs) s := hsafe
      exact ih (rxHolds_nil.mp hq.holds) hsplit.of_append_right
  | @frame f bs _ ih =>
      intro s hidle hsafe
      exact ih (rx_frame f hidle).idle hsafe.of_append_right
  | @here cmd n bs hn hbs =>
      intro s hidle hsafe
      have htaken : (bs.take 96).length = 96 := by rw [List.length_take]; omega
      have hpart := rx_unfinished hidle cmd n (bs.take 96) (by omega) (by omega)
      obtain ⟨b, rest, hrest⟩ : ∃ b rest, bs.drop 96 = b :: rest := by
        cases hd : bs.drop 96 with
        | nil => have := congrArg List.length hd; simp at this; omega
        | cons b rest => exact ⟨b, rest, rfl⟩
      have hsplit : 0xF1 :: 0xF1 :: cmd :: n :: bs
          = ([0xF1, 0xF1, cmd, n] ++ bs.take 96) ++ ([b] ++ rest) := by
        simp [← hrest]
      have hover := rx_overrun b hpart.holds (by simp; omega) (by simpa using hn)
      rw [hsplit] at hsafe
      have := hsafe.of_append_right.writes _ (by rw [rxTrace_append]; exact List.mem_append_left _ hover)
      exact absurd this (by simp [Op.WritesBelow])

/-- A stream that begins with a whole short frame. -/
theorem exists_frame (cmd : UInt8) {n : UInt8} {bs : List UInt8} (hn : n.toNat ≤ 94)
    (hbs : n.toNat + 2 ≤ bs.length) :
    ∃ f : WifiFrame, 0xF1 :: 0xF1 :: cmd :: n :: bs = f.bytes ++ bs.drop (n.toNat + 2) := by
  have hlen : (bs.take n.toNat).length = n.toNat := by rw [List.length_take]; omega
  obtain ⟨c, t, hct⟩ : ∃ c t, (bs.drop n.toNat).take 2 = [c, t] := by
    rcases hd : (bs.drop n.toNat).take 2 with _ | ⟨c, _ | ⟨t, _ | ⟨_, _⟩⟩⟩
    all_goals have hl := congrArg List.length hd; simp at hl
    all_goals first | exact ⟨c, t, rfl⟩ | omega
  refine ⟨⟨cmd, bs.take n.toNat, c, t, by omega⟩, ?_⟩
  have hsplit : bs = bs.take n.toNat ++ ([c, t] ++ bs.drop (n.toNat + 2)) := by
    rw [← hct, ← List.drop_drop, List.take_append_drop, List.take_append_drop]
  have hnb : UInt8.ofNat (bs.take n.toNat).length = n := by rw [hlen]; simp
  calc 0xF1 :: 0xF1 :: cmd :: n :: bs
      = 0xF1 :: 0xF1 :: cmd :: n :: (bs.take n.toNat ++ ([c, t] ++ bs.drop (n.toNat + 2))) := by
        rw [← hsplit]
    _ = _ := by simp [-List.length_take, WifiFrame.bytes, WifiFrame.body, hnb]

/-- A stream that does not overrun is noise, whole short frames and at last the
beginning of a frame that fits; what holds of these and goes on from each to the
rest holds of the stream. -/
theorem stream_induction {P : List UInt8 → Board → Prop}
    (hquiet : ∀ {k bs s pre}, RxQuiet k bs s pre → k ≤ 100 → P bs s)
    (hskip : ∀ {k as bs s}, RxQuiet k as s [] → k ≤ 100 → P bs (rxFeed as s) → P (as ++ bs) s)
    (hframe : ∀ (f : WifiFrame) {bs s}, RxIdle s → P bs (rxFeed f.bytes s) → P (f.bytes ++ bs) s)
    (bs : List UInt8) : ∀ {s : Board}, RxIdle s → ¬ Overruns bs → P bs s := by
  -- by length: a whole frame is taken off in one step
  induction hlen : bs.length using Nat.strongRecOn generalizing bs with
  | ind m ih =>
    intro s h hover
    have h0 := rxHolds_nil.mpr h
    rcases bs with _ | ⟨b, bs⟩
    · exact hquiet ⟨h0, rfl, fun o ho => by cases ho⟩ (Nat.zero_le _)
    rw [List.length_cons] at hlen
    by_cases hb : b = 0xF1
    · subst hb
      rcases bs with _ | ⟨c, bs⟩
      · exact hquiet (rx_head h0) (by omega)
      rw [List.length_cons] at hlen
      by_cases hc : c = 0xF1
      · subst hc
        rcases bs with _ | ⟨cmd, _ | ⟨n, bs⟩⟩
        · exact hquiet (rx_heads h) (by omega)
        · have hq := (rx_heads h).mono (show 2 ≤ 3 by omega)
          exact hquiet (hq.trans (rx_cmd cmd (rx_heads h).holds)) (by omega)
        · rw [List.length_cons, List.length_cons] at hlen
          by_cases hn : n.toNat ≤ 94
          · by_cases hbs : n.toNat + 2 ≤ bs.length
            · obtain ⟨f, hf⟩ := exists_frame cmd hn hbs
              rw [hf] at hover ⊢
              exact hframe f h (ih _ (by rw [List.length_drop]; omega) _ rfl (rx_frame f h).idle
                fun hr => hover (.frame f hr))
            · exact hquiet (rx_unfinished h cmd n bs (by omega) (by omega)) (by omega)
          · have hbs : bs.length < 97 := by
              by_contra hge
              exact hover (.here (by omega) (by omega))
            exact hquiet (rx_unfinished h cmd n bs (by omega) (by omega)) (by omega)
      · have hq := rx_lone_head h0 hc
        exact hskip hq (by omega)
          (ih _ (by omega) bs rfl (rxHolds_nil.mp hq.holds) fun hr => hover (.unhead hc hr))
    · have hq := rx_noise h0 hb
      exact hskip hq (by omega)
        (ih _ (by omega) bs rfl (rxHolds_nil.mp hq.holds) fun hr => hover (.noise hb hr))

theorem streamSafe_of_not_overruns (bs : List UInt8) {s : Board} (h : RxIdle s)
    (hover : ¬ Overruns bs) : StreamSafe bs s := by
  refine stream_induction (P := StreamSafe) ?_ ?_ ?_ bs h hover
  · intro k bs s pre hq hk
    exact .of_quiet hq hk
  · intro k as bs s hq hk hbs
    exact (StreamSafe.of_quiet hq hk).append hbs
  · intro f bs s h hbs
    exact (StreamSafe.of_frame f h).append hbs

/-- What such a stream makes the receiver publish are frames of the stream. -/
theorem published_frames (bs : List UInt8) {s : Board} (h : RxIdle s) (hover : ¬ Overruns bs) :
    ∀ p ∈ publications bs s, ∃ f : WifiFrame, f.bytes <:+: bs ∧ PubHolds f.bytes p := by
  refine stream_induction (P := fun bs s =>
    ∀ p ∈ publications bs s, ∃ f : WifiFrame, f.bytes <:+: bs ∧ PubHolds f.bytes p) ?_ ?_ ?_ bs h hover
  · intro k bs s pre hq _ p hp
    rw [hq.silent] at hp
    cases hp
  · intro k as bs s hq _ ih p hp
    rw [publications_append, hq.silent, List.nil_append] at hp
    obtain ⟨f, hinf, hpub⟩ := ih p hp
    exact ⟨f, hinf.trans (List.suffix_append _ _).isInfix, hpub⟩
  · intro f bs s h ih p hp
    rw [publications_append, List.mem_append, (rx_frame f h).once, List.mem_singleton] at hp
    rcases hp with rfl | hp
    · exact ⟨f, (List.prefix_append _ _).isInfix, (rx_frame f h).pubHolds⟩
    · obtain ⟨g, hinf, hpub⟩ := ih p hp
      exact ⟨g, hinf.trans (List.suffix_append _ _).isInfix, hpub⟩

/-- **Where the receive path stays inside its buffers.** From reset, or any
idle receiver: exactly on the streams that do not overrun. -/
theorem streamSafe_iff (bs : List UInt8) (s : Board) (hidle : RxIdle s) :
    StreamSafe bs s ↔ ¬ Overruns bs := by
  exact ⟨fun hsafe hover => hover.not_safe hidle hsafe, streamSafe_of_not_overruns bs hidle⟩

theorem streamSafe_iff_reset :
    StreamSafe [0xF1, 0xF1, 0x01, 0x00, 0x01, 0x7E] Board.reset ↔
      ¬ Overruns [0xF1, 0xF1, 0x01, 0x00, 0x01, 0x7E] :=
  streamSafe_iff _ Board.reset rfl

/-- A header that announces 95 data bytes, and as many bytes as that takes. -/
theorem streamSafe_counterexample :
    ¬ StreamSafe ([0xF1, 0xF1, 0x04, 0x5F] ++ List.replicate 97 0) Board.reset :=
  (Overruns.here (by decide) (by decide)).not_safe rfl

end Aclean
