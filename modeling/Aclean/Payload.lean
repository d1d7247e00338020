import Aclean.DispLink
import Aclean.WifiStream

/-!
# Which byte a WiFi command acts on

A frame declares how many data bytes it carries. The decoder does not look: it
takes the byte behind the length, which in a frame without data is the checksum.
-/

namespace Aclean

open Board Prog

/-- The frame check passes what is published. -/
def CheckPasses (p : Board) : Prop :=
  ((wifiReceiveDataCheck (p.mem .wifiRecieveDataLength)).run machine decodeThread p).1 = 1

instance (p : Board) : Decidable (CheckPasses p) := inferInstanceAs (Decidable (_ = _))

/-- What the decode thread does with the frame published in `p`. -/
def decodeTrace (p : Board) : List Op := (wifiDecodeFrame exchange).trace machine decodeThread p

/-- The frame's declared data bytes are all that it acts on. -/
structure ActsOnPayload (f : WifiFrame) (p : Board) : Prop where
  value : ∀ type data signalCh,
    .note (.setDeviceWorkMode type data signalCh) ∈ decodeTrace p → data ∈ f.data
  settings : f.data = [] →
    ((wifiDecodeFrame exchange).run machine decodeThread p).2.settings = p.settings
  outputs : f.data = [] → ∀ pin on, .gpioWrite pin on ∉ decodeTrace p

/-- The byte that the decoder passes on. -/
def WifiFrame.passed (f : WifiFrame) : UInt8 := f.data.headD f.c

theorem PubHolds.passed {f : WifiFrame} {p : Board} (h : PubHolds f.bytes p) :
    p.mem (recvPub 4) = f.passed := by
  have hb : p.mem (recvPub (4 : Nat)) = f.bytes[4] := h.bytes 4 (by simp)
  refine hb.trans ?_
  rcases f with ⟨cmd, _ | ⟨d, ds⟩, c, t, short⟩ <;> rfl

theorem PubHolds.cmd {f : WifiFrame} {p : Board} (h : PubHolds f.bytes p) :
    p.mem (recvPub 2) = f.cmd :=
  h.bytes 2 (by simp)

theorem run_loads {α : Type} {q : Code α} (h : q.Only fun o => ∃ a, o = .load a) (t : Nat)
    (s : Board) :
    (q.run machine t s).2 = s := by
  induction h generalizing s with
  | ret a => rfl
  | op ho _ ih =>
      obtain ⟨a, rfl⟩ := ho
      exact ih _ s

/-- A command frame that is accepted: the check, two loads, the command, and the
state sent back. -/
theorem decodeTrace_command {f : WifiFrame} {p : Board} (h : PubHolds f.bytes p)
    (hok : CheckPasses p) (hcmd : 2 ≤ f.cmd ∧ f.cmd ≤ 7) :
    ∃ q s', decodeTrace p = q ++ ((setDeviceWorkMode exchange f.cmd f.passed 1).trace machine
        decodeThread p ++ returnCurrentDeviceState.trace machine decodeThread s') ∧
      ∀ o ∈ q, ∃ a, o = .load a := by
  have hloads := wifiReceiveDataCheck_loads (p.mem .wifiRecieveDataLength)
  have hstate := run_loads hloads decodeThread p
  have hne : f.cmd ≠ 1 := by
    intro h1
    rw [h1] at hcmd
    exact absurd hcmd.1 (by decide)
  have hdecode : (wifiReceiveDataDecode exchange).trace machine decodeThread p =
      [.load (recvPub 2), .load (recvPub 2), .load (recvPub 4)] ++
        ((setDeviceWorkMode exchange f.cmd f.passed 1).trace machine decodeThread p ++
          returnCurrentDeviceState.trace machine decodeThread
            ((setDeviceWorkMode exchange f.cmd f.passed 1).run machine decodeThread p).2) := by
    simp [wifiReceiveDataDecode, h.cmd, h.passed, hne, hcmd]
  have htrace : decodeTrace p = .load .wifiRecieveDataLength ::
      ((wifiReceiveDataCheck (p.mem .wifiRecieveDataLength)).trace machine decodeThread p ++
        (.load .wifiRecieveDataLength :: (wifiReceiveDataDecode exchange).trace machine
          decodeThread p)) := by
    have hone : (1 : UInt8) ≠ 0 := by decide
    rw [CheckPasses] at hok
    simp only [decodeTrace, wifiDecodeFrame, load, op_bind, ret_bind, trace_op, trace_bind,
      hok, hstate, trace_when, if_pos hone]
  refine ⟨.load .wifiRecieveDataLength ::
    ((wifiReceiveDataCheck (p.mem .wifiRecieveDataLength)).trace machine decodeThread p ++
      [.load .wifiRecieveDataLength, .load (recvPub 2), .load (recvPub 2), .load (recvPub 4)]),
    ((setDeviceWorkMode exchange f.cmd f.passed 1).run machine decodeThread p).2, ?_, ?_⟩
  · rw [htrace, hdecode]
    simp
  · intro o ho
    rcases List.mem_cons.mp ho with rfl | ho
    · exact ⟨_, rfl⟩
    · rcases List.mem_append.mp ho with ho | ho
      · exact hloads.trace _ _ ho
      · simp only [List.mem_cons, List.not_mem_nil, or_false] at ho
        rcases ho with rfl | rfl | rfl | rfl <;> exact ⟨_, rfl⟩

/-- The command switch is called with the frame's command and the byte behind the
length, and with nothing else. -/
theorem called_iff {f : WifiFrame} {p : Board} (h : PubHolds f.bytes p) (hok : CheckPasses p)
    (hcmd : 2 ≤ f.cmd ∧ f.cmd ≤ 7) (type data signalCh : UInt8) :
    .note (.setDeviceWorkMode type data signalCh) ∈ decodeTrace p ↔
      type = f.cmd ∧ data = f.passed ∧ signalCh = 1 := by
  obtain ⟨q, s', htrace, hq⟩ := decodeTrace_command h hok hcmd
  rw [htrace]
  constructor
  · intro ho
    rcases List.mem_append.mp ho with ho | ho
    · obtain ⟨a, ha⟩ := hq _ ho
      cases ha
    · rcases List.mem_append.mp ho with ho | ho
      · have hcalls : (setDeviceWorkMode exchange f.cmd f.passed 1).Only fun o =>
            ∀ type data ch, o = .note (.setDeviceWorkMode type data ch) →
              type = f.cmd ∧ data = f.passed ∧ ch = 1 := by
          refine setDeviceWorkMode_only (fun n _ => .op ?_ fun _ => .ret _) ?_ _ _ _ ?_
          · intro _ _ _ he
            cases he
          · rintro o hcontrol type data ch rfl
            exact absurd hcontrol id
          · intro type data ch he
            cases he
            exact ⟨rfl, rfl, rfl⟩
        exact hcalls.trace _ _ ho _ _ _ rfl
      · exact absurd rfl ((returnCurrentDeviceState_plain.trace _ _ ho).not_note _)
  · rintro ⟨rfl, rfl, rfl⟩
    refine List.mem_append_right _ (List.mem_append_left _ ?_)
    rw [setDeviceWorkMode, note, op_bind, trace_op]
    exact List.mem_cons_self ..

/-- **When a command acts on its payload only**: on every stream the receiver can
take, for every command frame in it that is accepted, exactly if the frame declares
a data byte. -/
theorem acts_on_payload_iff {bs : List UInt8} {s : Board} (hidle : RxIdle s)
    (hshort : ¬ Overruns bs) : ∀ p ∈ publications bs s, ∃ f : WifiFrame,
      f.bytes <:+: bs ∧ PubHolds f.bytes p ∧
        (CheckPasses p → 2 ≤ f.cmd → f.cmd ≤ 7 → (ActsOnPayload f p ↔ f.data ≠ [])) := by
  intro p hp
  obtain ⟨f, hinf, hpub⟩ := published_frames bs hidle hshort p hp
  refine ⟨f, hinf, hpub, fun hok h2 h7 => ?_⟩
  have hcalled := called_iff hpub hok ⟨h2, h7⟩
  constructor
  · intro hacts hnil
    have hmem := hacts.value f.cmd f.passed 1 ((hcalled _ _ _).mpr ⟨rfl, rfl, rfl⟩)
    rw [hnil] at hmem
    exact absurd hmem List.not_mem_nil
  · intro hne
    refine ⟨fun type data ch ho => ?_, fun hnil => absurd hnil hne, fun hnil => absurd hnil hne⟩
    obtain ⟨-, rfl, -⟩ := (hcalled _ _ _).mp ho
    rw [WifiFrame.passed]
    cases hdata : f.data with
    | nil => exact absurd hdata hne
    | cons d ds => exact List.mem_cons_self ..

theorem no_data_short : ([] : List UInt8).length ≤ 94 := Nat.zero_le 94

/-- "Power" with no data byte. -/
def bareFrame : WifiFrame := ⟨0x02, [], 0x02, 0x7E, no_data_short⟩

theorem acts_on_payload_reset :
    ∃ f : WifiFrame, f.bytes <:+: bareFrame.bytes ∧
      PubHolds f.bytes (rxFeed bareFrame.bytes Board.reset) ∧
      (CheckPasses (rxFeed bareFrame.bytes Board.reset) → 2 ≤ f.cmd → f.cmd ≤ 7 →
        (ActsOnPayload f (rxFeed bareFrame.bytes Board.reset) ↔ f.data ≠ [])) := by
  have hshort : ¬ Overruns bareFrame.bytes := fun h =>
    h.not_safe (s := Board.reset) rfl (StreamSafe.of_frame bareFrame rfl)
  have hidle : RxIdle Board.reset := rfl
  refine acts_on_payload_iff hidle hshort (rxFeed bareFrame.bytes Board.reset) ?_
  rw [(rx_frame bareFrame hidle).once]
  exact List.mem_cons_self ..

/-- The frame is accepted, and its checksum switches the device on. -/
theorem acts_on_payload_counterexample : ∃ p ∈ publications bareFrame.bytes Board.reset,
    PubHolds bareFrame.bytes p ∧ CheckPasses p ∧
      .note (.setDeviceWorkMode 0x02 0x02 1) ∈ decodeTrace p ∧
      ((wifiDecodeFrame exchange).run machine decodeThread p).2.settings.devicePowerState = 1 ∧
      p.settings.devicePowerState = 0 ∧ ¬ ActsOnPayload bareFrame p := by
  have hframe := rx_frame bareFrame (s := Board.reset) rfl
  have hpub := hframe.pubHolds
  have hok : CheckPasses (rxFeed bareFrame.bytes Board.reset) := by decide +kernel
  have hcalled := (called_iff hpub hok (by decide) 0x02 0x02 1).mpr ⟨rfl, rfl, rfl⟩
  refine ⟨rxFeed bareFrame.bytes Board.reset, ?_, hpub, hok, hcalled, by decide +kernel,
    by decide +kernel, fun h => ?_⟩
  · rw [hframe.once]
    exact List.mem_cons_self ..
  · exact absurd (h.value _ _ _ hcalled) List.not_mem_nil

end Aclean
