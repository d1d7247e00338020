import Aclean.Payload
import Aclean.Plays

/-!
# One round of the decode thread

The decode thread knows a frame by what it finds in the shared length and the
shared buffer. If all its looks in one round find the bytes of one frame, the
round is decided by that frame: it has read the whole of it, and does, command
for command, what the frame asks for.
-/

namespace Aclean

open Prog

/-- One round of `rt_wifi_decode_thread_entry`. -/
def decodeRound : Code Unit := do
  semTake
  wifiDecodeFrame exchange

/-- What a frame is passed in: the length and the bytes. -/
def Addr.shared : Addr → Bool
  | .wifiRecieveDataLength => true
  | .wifiRecvPacketBufPub _ => true
  | _ => false

/-- A frame as it lies in the shared data. -/
def WifiFrame.at (f : WifiFrame) : Addr → Option UInt8
  | .wifiRecieveDataLength => some (UInt8.ofNat f.bytes.length)
  | .wifiRecvPacketBufPub i => if 0 ≤ i then f.bytes[i.toNat]? else none
  | _ => none

/-- How a round gets at its frame; the rest of its operations is what it does with it. -/
def Op.fetches : Op → Bool
  | .semTake => true
  | .load a => a.shared
  | _ => false

/-- What a frame makes of a round that has it: the check, and the command. -/
def WifiFrame.obeyed (f : WifiFrame) : Code Unit :=
  Prog.when (f.t = 0x7E ∧ f.chk = f.c) <|
    if f.cmd = 0x01 then returnCurrentDeviceState
    else if 0x02 ≤ f.cmd ∧ f.cmd ≤ 0x07 then do
      setDeviceWorkMode exchange f.cmd f.passed 1
      returnCurrentDeviceState
    else if f.cmd = 0xF7 then sendF7Packet
    else pure ()

/-- What the frame tells of the answers in a round. -/
def WifiFrame.known (f : WifiFrame) : (o : Op) → Option (Ar o)
  | .semTake => some ()
  | .load a => f.at a
  | _ => none

/-! ## The round, given the frame -/

theorem WifiFrame.at_byte (f : WifiFrame) {i : Nat} {b : UInt8} (h : f.bytes[i]? = some b) :
    f.at (recvPub i) = some b := by
  rw [WifiFrame.at, if_pos (Int.natCast_nonneg i), Int.toNat_natCast, h]

/-- The length of a short frame fits its byte. -/
theorem WifiFrame.toNat_length (f : WifiFrame) :
    (UInt8.ofNat f.bytes.length).toNat = f.data.length + 6 := by
  rw [UInt8.toNat_ofNat', f.length_bytes]
  have := f.short
  omega

theorem Op.Control.unknown {o : Op} (h : o.Control) (f : WifiFrame) : f.known o = none := by
  cases o with
  | load a => cases a <;> first | rfl | exact absurd trivial h
  | semTake => exact absurd h id
  | _ => rfl

theorem checksumRecv_given (f : WifiFrame) {n : Nat} (hn : n + 2 ≤ f.bytes.length) :
    (checksumRecv n).given f.known = .ret ((f.bytes.drop 2).take n).sum := by
  induction n with
  | zero => rfl
  | succ n ih =>
      have hb : f.at (recvPub (n + 2)) = some f.bytes[n + 2] :=
        f.at_byte (i := n + 2) (List.getElem?_eq_getElem (by omega))
      rw [checksumRecv, foldUpTo, ← checksumRecv, given_bind, ih (by omega),
        take_summed_succ (by omega)]
      simp [given_some (show f.known (.load (recvPub (n + 2))) = _ from hb)]

theorem wifiReceiveDataCheck_given (f : WifiFrame) :
    (wifiReceiveDataCheck (UInt8.ofNat f.bytes.length)).given f.known =
      .ret (if f.t = 0x7E ∧ f.chk = f.c then 1 else 0) := by
  have hc : f.known (.load (recvPub ((f.data.length + 6 : Nat) - 2))) = some f.c := by
    rw [show (((f.data.length + 6 : Nat) : Int) - 2) = (f.data.length + 4 : Nat) by omega]
    exact f.at_byte (by simp [WifiFrame.bytes, WifiFrame.body])
  have ht : f.known (.load (recvPub ((f.data.length + 6 : Nat) - 1))) = some f.t := by
    rw [show (((f.data.length + 6 : Nat) : Int) - 1) = (f.data.length + 5 : Nat) by omega]
    exact f.at_byte (by simp [WifiFrame.bytes, WifiFrame.body])
  have h0 : f.known (.load (recvPub 0)) = some 0xF1 := f.at_byte (i := 0) rfl
  have h1 : f.known (.load (recvPub 1)) = some 0xF1 := f.at_byte (i := 1) rfl
  have hsum : (checksumRecv (f.data.length + 2)).given f.known = .ret f.chk := by
    rw [checksumRecv_given f (by simp)]
    simp [WifiFrame.bytes, WifiFrame.body, WifiFrame.chk, UInt8.add_assoc]
  rw [wifiReceiveDataCheck, f.toNat_length]
  simp only [load, op_bind, ret_bind, given_some hc, given_some ht, given_some h0, given_some h1,
    given_ite, given_bind, given_pure, if_true, true_and]
  by_cases hend : f.t = 0x7E
  · simp [hend, hsum]
  · simp [hend]

theorem wifiReceiveDataDecode_given (f : WifiFrame) :
    (wifiReceiveDataDecode exchange).given f.known =
      if f.cmd = 0x01 then returnCurrentDeviceState
      else if 0x02 ≤ f.cmd ∧ f.cmd ≤ 0x07 then do
        setDeviceWorkMode exchange f.cmd f.passed 1
        returnCurrentDeviceState
      else if f.cmd = 0xF7 then sendF7Packet
      else pure () := by
  have h2 : f.known (.load (recvPub 2)) = some f.cmd := f.at_byte (i := 2) rfl
  have h4 : f.known (.load (recvPub 4)) = some f.passed := by
    refine f.at_byte (i := 4) ?_
    rcases f with ⟨cmd, _ | ⟨d, ds⟩, c, t, short⟩ <;> rfl
  have hstate : returnCurrentDeviceState.given f.known = returnCurrentDeviceState :=
    given_of_only (returnCurrentDeviceState_plain.mono fun _ h => h.control.unknown f)
  have hf7 : sendF7Packet.given f.known = sendF7Packet :=
    given_of_only ((wifiSendPacketData_plain _).mono fun _ h => h.control.unknown f)
  have hwork : (setDeviceWorkMode exchange f.cmd f.passed 1).given f.known =
      setDeviceWorkMode exchange f.cmd f.passed 1 :=
    given_of_only (setDeviceWorkMode_only (fun n _ => by simp [WifiFrame.known])
      (fun _ h => h.unknown f) f.cmd f.passed 1 rfl)
  rw [wifiReceiveDataDecode]
  simp only [load, op_bind, ret_bind, given_some h2, given_some h4, given_ite, given_bind,
    given_pure, hstate, hf7, hwork]
  rfl

theorem decodeRound_given (f : WifiFrame) : decodeRound.given f.known = f.obeyed := by
  have htake : f.known .semTake = some () := rfl
  have hlen : f.known (.load .wifiRecieveDataLength) = some (UInt8.ofNat f.bytes.length) := rfl
  have hround : decodeRound.given f.known =
      ((wifiReceiveDataCheck (UInt8.ofNat f.bytes.length)).given f.known >>= fun ok =>
        Prog.when (ok ≠ 0) ((wifiReceiveDataDecode exchange).given f.known)) := by
    rw [decodeRound, wifiDecodeFrame]
    simp only [semTake, load, op_bind, ret_bind, given_some htake,
      given_some hlen, given_bind, given_when]
  rw [hround, wifiReceiveDataCheck_given, wifiReceiveDataDecode_given, ret_bind, WifiFrame.obeyed]
  by_cases hok : f.t = 0x7E ∧ f.chk = f.c
  · rw [if_pos hok, Prog.when, Prog.when, if_pos (by decide), if_pos hok]
  · rw [if_neg hok, Prog.when, Prog.when, if_neg (by decide), if_neg hok]

/-! ## The round, heard -/

section Rounds

variable {f : WifiFrame} {es : List (Answered Op Ar)}

theorem checksumRecv_hears {n : Nat} {c : UInt8} (h : (checksumRecv n).Plays es (.ret c)) (i : Nat)
    (hi : i < n) : ∃ v, (⟨.load (recvPub (i + 2)), v⟩ : Answered Op Ar) ∈ es := by
  induction n generalizing es c with
  | zero => exact absurd hi (Nat.not_lt_zero i)
  | succ n ih =>
      obtain ⟨es₁, es₂, chk, rfl, hbefore, hround⟩ := h.of_bind_ret
      obtain ⟨v, es₃, rfl, -⟩ := hround.of_op
      rcases Nat.lt_succ_iff_lt_or_eq.mp hi with hlt | rfl
      · obtain ⟨w, hw⟩ := ih hbefore hlt
        exact ⟨w, List.mem_append_left _ hw⟩
      · exact ⟨v, List.mem_append_right _ (List.mem_cons_self ..)⟩

/-- If every look finds the frame, and the frame ends as it should, the check
looks at every byte. -/
theorem wifiReceiveDataCheck_hears {ok : UInt8}
    (h : (wifiReceiveDataCheck (UInt8.ofNat f.bytes.length)).Plays es (.ret ok))
    (hown : ∀ a v, (⟨.load a, v⟩ : Answered Op Ar) ∈ es → a.shared = true → f.at a = some v)
    (hend : f.t = 0x7E) (i : Nat) (hi : i < f.bytes.length) :
    ∃ v, (⟨.load (recvPub i), v⟩ : Answered Op Ar) ∈ es := by
  have hheard : ∀ {j : Nat} {b v : UInt8}, f.bytes[j]? = some b →
      (⟨.load (recvPub j), v⟩ : Answered Op Ar) ∈ es → v = b := fun hj hv =>
    Option.some.inj ((hown _ _ hv rfl).symm.trans (f.at_byte hj))
  have hcheck : ((f.data.length + 6 : Nat) : Int) - 2 = (f.data.length + 4 : Nat) := by omega
  have hlast : ((f.data.length + 6 : Nat) : Int) - 1 = (f.data.length + 5 : Nat) := by omega
  rw [wifiReceiveDataCheck, f.toNat_length, hcheck, hlast] at h
  simp only [load, op_bind, ret_bind] at h
  obtain ⟨c, es₁, rfl, h₁⟩ := h.of_op
  obtain ⟨t, es₂, rfl, h₂⟩ := h₁.of_op
  obtain ⟨b0, es₃, rfl, h₃⟩ := h₂.of_op
  obtain rfl : t = 0x7E := by
    refine (hheard (j := f.data.length + 5) (b := f.t) ?_ (by simp)).trans hend
    simp [WifiFrame.bytes, WifiFrame.body]
  obtain rfl : b0 = 0xF1 := hheard (j := 0) rfl (by simp)
  rw [if_pos rfl] at h₃
  obtain ⟨b1, es₄, rfl, h₄⟩ := h₃.of_op
  obtain rfl : b1 = 0xF1 := hheard (j := 1) rfl (by simp)
  rw [if_pos ⟨rfl, rfl⟩] at h₄
  obtain ⟨es₅, es₆, chk, rfl, hsum, -⟩ := h₄.of_bind_ret
  rw [f.length_bytes] at hi
  by_cases h0 : i = 0
  · exact ⟨0xF1, by simp [h0]⟩
  by_cases h1 : i = 1
  · exact ⟨0xF1, by simp [h1]⟩
  by_cases h4 : i = f.data.length + 4
  · exact ⟨c, by simp [h4]⟩
  by_cases h5 : i = f.data.length + 5
  · exact ⟨0x7E, by simp [h5]⟩
  obtain ⟨v, hv⟩ := checksumRecv_hears hsum (i - 2) (by omega)
  rw [show ((i - 2 : Nat) : Int) + 2 = i by omega] at hv
  exact ⟨v, by simp [hv]⟩

/-- One completed round: it reads the length and the bytes of `f` (behind a wrong
end byte only those the check looks at), looks at nothing else, checks `f` and
obeys it. -/
structure Served (f : WifiFrame) (es : List (Answered Op Ar)) : Prop where
  whole : decodeRound.Plays es (.ret ())
  length : ⟨.load .wifiRecieveDataLength, UInt8.ofNat f.bytes.length⟩ ∈ es
  bytes : f.t = 0x7E → ∀ i (h : i < f.bytes.length), ⟨.load (recvPub i), f.bytes[i]⟩ ∈ es
  own : ∀ a v, (⟨.load a, v⟩ : Answered Op Ar) ∈ es → a.shared = true → f.at a = some v
  obeys : f.obeyed.Plays (es.filter fun e => !e.1.fetches) (.ret ())

theorem decodeRound_length (h : decodeRound.Plays es (.ret ())) :
    ∃ n es', es = ⟨.semTake, ()⟩ :: ⟨.load .wifiRecieveDataLength, n⟩ :: es' ∧
      (wifiReceiveDataCheck n >>= fun ok => Prog.when (ok ≠ 0) do
        let _ ← load .wifiRecieveDataLength
        wifiReceiveDataDecode exchange).Plays es' (.ret ()) := by
  obtain ⟨⟨⟩, es₁, rfl, h₁⟩ := Plays.of_op h
  obtain ⟨n, es₂, rfl, h₂⟩ := Plays.of_op h₁
  exact ⟨n, es₂, rfl, h₂⟩

/-- When every look finds the frame, what is known of it is what the thread has
fetched. -/
theorem known_of_looks
    (hown : ∀ a v, (⟨.load a, v⟩ : Answered Op Ar) ∈ es → a.shared = true → f.at a = some v)
    {e : Answered Op Ar} (he : e ∈ es) :
    f.known e.1 = if e.1.fetches then some e.2 else none := by
  obtain ⟨o, v⟩ := e
  cases o with
  | load a =>
      by_cases ha : a.shared = true
      · exact (hown a v he ha).trans (if_pos ha).symm
      · refine Eq.trans ?_ (if_neg ha).symm
        cases a <;> first | rfl | exact absurd rfl ha
  | _ => rfl

theorem served_of_looks (h : decodeRound.Plays es (.ret ()))
    (hown : ∀ a v, (⟨.load a, v⟩ : Answered Op Ar) ∈ es → a.shared = true → f.at a = some v) :
    Served f es := by
  obtain ⟨n, es₁, rfl, h₁⟩ := decodeRound_length h
  obtain rfl : UInt8.ofNat f.bytes.length = n :=
    Option.some.inj (hown .wifiRecieveDataLength n (by simp) rfl)
  obtain ⟨es₂, es₃, ok, rfl, hcheck, -⟩ := h₁.of_bind_ret
  refine ⟨h, by simp, fun hend i hi => ?_, hown, ?_⟩
  · obtain ⟨v, hv⟩ := wifiReceiveDataCheck_hears hcheck
      (fun a v hv => hown a v (by simp [hv])) hend i hi
    have hat := hown (recvPub i) v (by simp [hv]) rfl
    rw [f.at_byte (List.getElem?_eq_getElem hi)] at hat
    cases hat
    simp [hv]
  · have hknown : ∀ e ∈ ⟨.semTake, ()⟩ :: ⟨.load .wifiRecieveDataLength,
        UInt8.ofNat f.bytes.length⟩ :: (es₂ ++ es₃), ∀ v, f.known e.1 = some v → e.2 = v := by
      intro e he v hv
      rw [known_of_looks hown he] at hv
      split at hv
      · exact Option.some.inj hv
      · cases hv
    have hobeys := h.given hknown
    rw [decodeRound_given] at hobeys
    convert hobeys using 1
    refine List.filter_congr fun e he => ?_
    rw [known_of_looks hown he]
    cases e.1.fetches <;> rfl

/-! ## One take a round -/

def Op.isSemTake (o : Op) : Bool := o == .semTake

/-- How often the thread has taken the semaphore. -/
def semTakes (es : List (Answered Op Ar)) : Nat := es.countP fun e => e.1.isSemTake

theorem semTakes_append (es₁ es₂ : List (Answered Op Ar)) :
    semTakes (es₁ ++ es₂) = semTakes es₁ + semTakes es₂ :=
  List.countP_append

theorem Op.Control.isSemTake {o : Op} (h : o.Control) : o.isSemTake = false := by
  cases o <;> first | rfl | exact absurd h id

theorem wifiDecodeFrame_takes :
    (wifiDecodeFrame exchange).Only fun o => o.isSemTake = false := by
  have hload : ∀ a, (Op.load a).isSemTake = false := fun _ => rfl
  have hsum : ∀ n, (checksumRecv n).Only fun o => o.isSemTake = false := fun n =>
    .foldUpTo fun i chk _ => by simp [hload]
  have hstate : returnCurrentDeviceState.Only fun o => o.isSemTake = false :=
    returnCurrentDeviceState_plain.mono fun _ h => h.control.isSemTake
  have hwork : ∀ type data, (setDeviceWorkMode exchange type data 1).Only
      fun o => o.isSemTake = false := fun type data =>
    setDeviceWorkMode_only (fun n _ => by simp [Op.isSemTake]) (fun _ h => h.isSemTake)
      type data 1 rfl
  have hf7 : sendF7Packet.Only fun o => o.isSemTake = false :=
    (wifiSendPacketData_plain _).mono fun _ h => h.control.isSemTake
  have hcheck : ∀ n, (wifiReceiveDataCheck n).Only fun o => o.isSemTake = false := by
    intro n
    simp only [wifiReceiveDataCheck, load, op_bind, ret_bind, only_op, only_ite, only_pure, hload]
    refine ⟨trivial, fun _ => ⟨trivial, fun _ => ⟨trivial, fun _ => ⟨fun _ => ⟨trivial, fun _ =>
      ⟨fun _ => .bind (hsum _) fun _ => .ret _, fun _ => trivial⟩⟩, fun _ => trivial⟩⟩⟩⟩
  simp only [wifiDecodeFrame, wifiReceiveDataDecode, load, op_bind, ret_bind, only_op, hload]
  refine ⟨trivial, fun n => .bind (hcheck n) fun ok => ?_⟩
  simp only [only_when, only_op, only_ite, only_pure, hload]
  exact fun _ => ⟨trivial, fun _ => ⟨trivial, fun cmd => ⟨fun _ => hstate, fun _ =>
    ⟨fun _ => ⟨trivial, fun type => ⟨trivial, fun data => .bind (hwork type data) fun _ => hstate⟩⟩,
      fun _ => ⟨fun _ => hf7, fun _ => trivial⟩⟩⟩⟩⟩

/-- Of a round in progress only its beginning is a take. -/
theorem rest_takes {q : Code Unit} (h : decodeRound.Plays es q) :
    semTakes es = if es.isEmpty then 0 else 1 := by
  cases h with
  | start => rfl
  | @op _ _ _ es _ h =>
      have hrest : semTakes es = 0 := List.countP_eq_zero.mpr fun e he => by
        rw [h.only wifiDecodeFrame_takes e he]; decide
      rw [semTakes, List.countP_cons]
      exact congrArg (· + 1) hrest

theorem round_takes (h : decodeRound.Plays es (.ret ())) : semTakes es = 1 := by
  have htakes := rest_takes h
  obtain ⟨⟨⟩, es', rfl, -⟩ := Plays.of_op h
  exact htakes

theorem rounds_takes {rounds : List (List (Answered Op Ar))}
    (h : ∀ es ∈ rounds, decodeRound.Plays es (.ret ())) :
    semTakes rounds.flatten = rounds.length := by
  induction rounds with
  | nil => rfl
  | cons es rounds ih =>
      obtain ⟨hhead, htail⟩ := List.forall_mem_cons.mp h
      rw [List.flatten_cons, semTakes_append, round_takes hhead, ih htail, List.length_cons,
        Nat.add_comm]

/-- A look of a complete round comes behind its take. -/
theorem round_takes_before {xs ys : List (Answered Op Ar)} {a : Addr} {v : UInt8}
    (h : decodeRound.Plays (xs ++ ⟨.load a, v⟩ :: ys) (.ret ())) : semTakes xs = 1 := by
  have htotal := round_takes h
  obtain ⟨n, es', heq, -⟩ := decodeRound_length h
  cases xs with
  | nil => cases heq
  | cons e xs =>
      obtain ⟨rfl, -⟩ := List.cons.inj heq
      have hhead : semTakes (⟨.semTake, ()⟩ :: xs) = semTakes xs + 1 := List.countP_cons_of_pos rfl
      rw [semTakes_append] at htotal
      omega

end Rounds

end Aclean
