import Aclean.WifiRx
import Aclean.DispLink

/-!
# Packets and their checksums

Five packet builders, on the two boards, share one body: two header bytes,
the payload summed up on the way, the sum and an end byte. They differ in
the header, the buffer and in what the sum starts from: one of them clears
it, the others leave it to what the stack holds.
-/

namespace Aclean

open Board

/-! ## The builders of the main board -/

/-- The builders' loop: the payload is copied behind the header and summed up. -/
def packLoop (buf : Nat → Addr) (payload : List UInt8) (n : Nat) (chk : UInt8) : Code UInt8 :=
  Prog.foldUpTo (fun i chk => do
    store (buf (i + 2)) (payload.getD i 0)
    pure (chk + payload.getD i 0)) n chk

/-- What the builders do with their buffer, from a checksum that starts at `chk`. -/
def packFrame (buf : Nat → Addr) (head : UInt8) (payload : List UInt8) (chk : UInt8) :
    Code Unit := do
  store (buf 0) head
  store (buf 1) head
  let chk ← packLoop buf payload payload.length chk
  store (buf (payload.length + 2)) chk
  store (buf (payload.length + 3)) 0x7E

theorem wifiSendPacketData_eq (buf : List UInt8) : wifiSendPacketData buf = (do
    let chk ← undef
    packFrame .wifiSendPacketBufPub 0xF2 buf chk
    wifiSendData (buf.length + 4)) := by
  simp only [packFrame, bind_assoc]
  rfl

theorem sendPacketData_eq (buftmp : List UInt8) : sendPacketData buftmp = (do
    let chk ← undef
    packFrame .rs485SendBufNotModbus 0xF1 buftmp chk) := rfl

/-- A frame as the builders make it. -/
def packed (head : UInt8) (payload : List UInt8) (chk : UInt8) : List UInt8 :=
  head :: head :: (payload ++ [chk + payload.sum, 0x7E])

theorem frame_succ (s : Board) (buf : Nat → Addr) (n : Nat) :
    s.frame buf (n + 1) = s.frame buf n ++ [s.mem (buf n)] := by
  simp [Board.frame, List.range_succ]

section

variable {buf : Nat → Addr} (hbuf : Function.Injective buf)
include hbuf

theorem frame_store (s : Board) (n : Nat) (v : UInt8) :
    (s.set (buf n) v).frame buf (n + 1) = s.frame buf n ++ [v] := by
  have hlow : (List.range n).map (fun i => (s.set (buf n) v).mem (buf i)) = s.frame buf n := by
    refine List.map_congr_left fun i hi => ?_
    have hne : i ≠ n := Nat.ne_of_lt (List.mem_range.mp hi)
    rw [set_mem, if_neg fun h => hne (hbuf h)]
  rw [frame_succ, set_mem, if_pos rfl, ← hlow, Board.frame]

/-- After `n` rounds the buffer holds the header and `n` bytes of the payload. -/
theorem run_packLoop (head : UInt8) (payload : List UInt8) (chk : UInt8) (t : Nat) {s : Board}
    (hs : s.frame buf 2 = [head, head]) {n : Nat} (hn : n ≤ payload.length) :
    ((packLoop buf payload n chk).run machine t s).1 = chk + (payload.take n).sum ∧
      ((packLoop buf payload n chk).run machine t s).2.frame buf (n + 2) =
        head :: head :: payload.take n := by
  induction n with
  | zero => simpa [packLoop] using hs
  | succ n ih =>
      obtain ⟨hchk, hframe⟩ := ih (Nat.le_of_succ_le hn)
      have htake : payload.take (n + 1) = payload.take n ++ [payload.getD n 0] := by
        rw [List.take_add_one, List.getD_eq_getElem?_getD, List.getElem?_eq_getElem hn]
        rfl
      rw [packLoop, Prog.run_foldUpTo_succ, ← packLoop, htake]
      refine ⟨by simp [hchk, UInt8.add_assoc], ?_⟩
      show (Board.set _ (buf (n + 2)) (payload.getD n 0)).frame buf (n + 2 + 1) = _
      rw [frame_store hbuf, hframe]
      rfl

theorem run_packFrame (head : UInt8) (payload : List UInt8) (chk : UInt8) (t : Nat) (s : Board) :
    ((packFrame buf head payload chk).run machine t s).2.frame buf (payload.length + 4) =
      packed head payload chk := by
  have hhead : ((s.set (buf 0) head).set (buf 1) head).frame buf 2 = [head, head] := by
    have h0 : s.frame buf 0 = [] := rfl
    rw [frame_store hbuf, frame_store hbuf, h0]
    rfl
  obtain ⟨hchk, hframe⟩ := run_packLoop hbuf head payload chk t hhead (Nat.le_refl _)
  simp only [packFrame, store, Prog.run_bind, Prog.run_op, Prog.run_ret]
  rw [hchk, frame_store hbuf, frame_store hbuf, hframe, List.take_length, packed]
  simp

end

/-! ### What the builders read -/

/-- A loop that collects bytes of the shared memory leaves it as it is. -/
theorem run_loadLoop (buf : Nat → Addr) (n t : Nat) (s : Board) :
    (Prog.foldUpTo (fun i data => do
      let b ← load (buf i)
      pure (data ++ [b])) n [] : Code (List UInt8)).run machine t s = (s.frame buf n, s) := by
  induction n with
  | zero => rfl
  | succ n ih =>
      rw [Prog.run_foldUpTo_succ, ih, frame_succ]
      rfl

/-- The state after `n` uninitialised bytes have been read. -/
def Board.dropStack (n : Nat) (s : Board) : Board := { s with stack := fun i => s.stack (i + n) }

theorem run_undefLoop (n t : Nat) (s : Board) :
    (Prog.foldUpTo (fun _ data => do
      let b ← undef
      pure (data ++ [b])) n [] : Code (List UInt8)).run machine t s =
        ((List.range n).map s.stack, s.dropStack n) := by
  induction n with
  | zero => rfl
  | succ n ih =>
      rw [Prog.run_foldUpTo_succ, ih, List.range_succ, List.map_append]
      have hidx : ∀ i, i + 1 + n = i + (n + 1) := by omega
      simp [Board.dropStack, hidx]

/-- `buftmp` of `disp_board_packet_data`. -/
def Board.dispBuftmp (s : Board) : List UInt8 :=
  (0x01 :: 0x1b :: s.frame work 27) ++ (List.range 6).map s.stack

theorem length_dispBuftmp (s : Board) : s.dispBuftmp.length = 35 := by
  simp [Board.dispBuftmp, Board.frame]

theorem packLoop_take (buf : Nat → Addr) (payload : List UInt8) {n : Nat} (chk : UInt8) :
    packLoop buf payload n chk = packLoop buf (payload.take n) n chk := by
  have hloop : ∀ m, m ≤ n → packLoop buf payload m chk = packLoop buf (payload.take n) m chk := by
    intro m hm
    induction m with
    | zero => rfl
    | succ m ih =>
        have hget : (payload.take n).getD m 0 = payload.getD m 0 := by
          simp [List.getD_eq_getElem?_getD, Nat.lt_of_succ_le hm]
        rw [packLoop, packLoop, Prog.foldUpTo, Prog.foldUpTo, ← packLoop, ← packLoop,
          ih (Nat.le_of_succ_le hm), hget]
  exact hloop n (Nat.le_refl n)

theorem run_dispBoardPacketData {len : Nat} (hlen : len ≤ 35) (t : Nat) (s : Board) :
    (dispBoardPacketData len).run machine t s =
      (packFrame .rs485SendBufNotModbus 0xF2 (s.dispBuftmp.take len) (s.stack 6)).run machine t
        (s.dropStack 7) := by
  have htake : (s.dispBuftmp.take len).length = len := by
    rw [List.length_take, length_dispBuftmp, Nat.min_eq_left hlen]
  have hprog : dispBoardPacketData len = (Prog.foldUpTo (fun i data => do
      let b ← load (work i)
      pure (data ++ [b])) 27 [] >>= fun data => Prog.foldUpTo (fun _ rest => do
      let b ← undef
      pure (rest ++ [b])) 6 [] >>= fun rest => undef >>= fun chk =>
      store (.rs485SendBufNotModbus 0) 0xF2 >>= fun _ =>
      store (.rs485SendBufNotModbus 1) 0xF2 >>= fun _ =>
      packLoop .rs485SendBufNotModbus ((0x01 :: 0x1b :: data) ++ rest) len chk >>= fun chk =>
      store (.rs485SendBufNotModbus (len + 2)) chk >>= fun _ =>
      store (.rs485SendBufNotModbus (len + 3)) 0x7E) := rfl
  rw [hprog, Prog.run_bind, run_loadLoop, Prog.run_bind, run_undefLoop, packFrame, htake,
    ← packLoop_take]
  rfl

/-! ## The builders of the display -/

/-- An update beyond the range is not seen. -/
theorem map_update_range (f : Nat → UInt8) (n : Nat) (v : UInt8) :
    (List.range n).map (Function.update f n v) = (List.range n).map f := by
  refine List.map_congr_left fun i hi => ?_
  rw [Function.update_of_ne (Nat.ne_of_lt (List.mem_range.mp hi))]

theorem packBuffer_loop (head : UInt8) (buf : List UInt8) (chk : UInt8) (pub : Nat → UInt8)
    {n : Nat} (hn : n ≤ buf.length) :
    let r := (List.range n).foldl (fun (r : (Nat → UInt8) × UInt8) i =>
      (Function.update r.1 (i + 2) (buf.getD i 0), r.2 + buf.getD i 0))
      (Function.update (Function.update pub 0 head) 1 head, chk)
    r.2 = chk + (buf.take n).sum ∧
      (List.range (n + 2)).map r.1 = head :: head :: buf.take n := by
  induction n with
  | zero => simp [List.range, List.range.loop]
  | succ n ih =>
      obtain ⟨hchk, hpub⟩ := ih (Nat.le_of_succ_le hn)
      have htake : buf.take (n + 1) = buf.take n ++ [buf.getD n 0] := by
        rw [List.take_add_one, List.getD_eq_getElem?_getD, List.getElem?_eq_getElem hn]
        rfl
      rw [List.range_succ, List.foldl_append, List.foldl_cons, List.foldl_nil, htake]
      refine ⟨?_, ?_⟩
      · rw [hchk]
        simp [UInt8.add_assoc]
      · rw [List.range_succ, List.map_append, map_update_range, hpub]
        simp

theorem packBuffer_packed (head : UInt8) (buf : List UInt8) (chk : UInt8) (pub : Nat → UInt8) :
    (List.range (buf.length + 4)).map (packBuffer head buf chk pub) = packed head buf chk := by
  rw [packBuffer]
  obtain ⟨hchk, hpub⟩ := packBuffer_loop head buf chk pub (Nat.le_refl buf.length)
  generalize (List.range buf.length).foldl _ _ = r at hchk hpub
  rw [List.range_succ, List.map_append, map_update_range, List.range_succ, List.map_append,
    map_update_range, hpub, packed, hchk, List.take_length]
  simp

/-! ## What the checker accepts -/

/-- The rule of `wifi_receive_data_check`: the sum of bytes 2 to `len - 3` is
byte `len - 2`, and the last byte is the end code. -/
def CheckRule (fr : List UInt8) : Prop :=
  ((fr.drop 2).take (fr.length - 4)).sum = fr.getD (fr.length - 2) 0 ∧
    fr.getD (fr.length - 1) 0 = 0x7E

instance (fr : List UInt8) : Decidable (CheckRule fr) :=
  inferInstanceAs (Decidable (_ ∧ _))

/-- `wifi_receive_data_check` is this rule, and the header. -/
theorem wifiReceiveDataCheck_iff {fr : List UInt8} {s : Board} (h : PubHolds fr s)
    (h4 : 4 ≤ fr.length) (t : Nat) :
    ((wifiReceiveDataCheck (s.mem .wifiRecieveDataLength)).run machine t s).1 = 1 ↔
      fr.getD 0 0 = 0xF1 ∧ fr.getD 1 0 = 0xF1 ∧ CheckRule fr := by
  have hbyte : ∀ i, i < fr.length → s.mem (recvPub i) = fr.getD i 0 := by
    intro i hi
    rw [h.bytes i hi, List.getD_eq_getElem?_getD, List.getElem?_eq_getElem hi]
    rfl
  have hc := hbyte (fr.length - 2) (by omega)
  have ht := hbyte (fr.length - 1) (by omega)
  have h0 := hbyte 0 (by omega)
  have h1 := hbyte 1 (by omega)
  rw [show ((fr.length - 2 : Nat) : Int) = (fr.length : Int) - 2 by omega] at hc
  rw [show ((fr.length - 1 : Nat) : Int) = (fr.length : Int) - 1 by omega] at ht
  have hsum := run_checksumRecv h (n := fr.length - 4) (by omega) t
  have h0' : s.mem (recvPub 0) = fr.getD 0 0 := h0
  have h1' : s.mem (recvPub 1) = fr.getD 1 0 := h1
  rw [wifiReceiveDataCheck, h.len, CheckRule]
  generalize fr.getD (fr.length - 2) 0 = c at hc ⊢
  generalize fr.getD (fr.length - 1) 0 = e at ht ⊢
  generalize fr.getD 0 0 = b0 at h0' ⊢
  generalize fr.getD 1 0 = b1 at h1' ⊢
  by_cases hb0 : b0 = 0xF1
  · by_cases hb1 : b1 = 0xF1
    · by_cases he : e = 0x7E <;> simp [hc, ht, h0', h1', hsum, hb0, hb1, he]
    · simp [hc, ht, h0', h1', hb0, hb1]
  · simp [hc, ht, h0', hb0]

theorem checkRule_packed (head : UInt8) (payload : List UInt8) (chk : UInt8) :
    CheckRule (packed head payload chk) ↔ chk = 0 := by
  have hlen : (packed head payload chk).length = payload.length + 4 := by simp [packed]
  have htake : ((packed head payload chk).drop 2).take payload.length = payload := by
    simp [packed]
  rw [CheckRule, hlen, Nat.add_sub_cancel, htake]
  simp [packed]

/-! ## The five builders -/

/-- A packet builder with its argument: three of the main board (`.function`
is `send_packet_data`), two of the display. -/
inductive Packer where
  | wifi (buf : List UInt8)
  | dispBoard (len : Nat)
  | function (buftmp : List UInt8)
  | dispF1 (buf : List UInt8)
  | dispWifi (buf : List UInt8)

namespace Packer

/-- The payload fits: output buffers are 100 and, on the RS485 side of the
main board, 50 bytes long, and `buftmp` of `disp_board_packet_data` 35. -/
def Fits : Packer → Prop
  | .wifi buf => buf.length + 4 ≤ 100
  | .dispBoard len => len ≤ 35
  | .function buftmp => buftmp.length + 4 ≤ 50
  | .dispF1 buf => buf.length + 4 ≤ 100
  | .dispWifi buf => buf.length + 4 ≤ 100

def payload (s : Board) : Packer → List UInt8
  | .wifi buf => buf
  | .dispBoard len => s.dispBuftmp.take len
  | .function buftmp => buftmp
  | .dispF1 buf => buf
  | .dispWifi buf => buf

/-- The frame that the builder leaves in its buffer; `chk` is what the
display's uninitialised local happens to be. -/
def frame (t : Nat) (s : Board) (d : Disp) (chk : UInt8) : Packer → List UInt8
  | .wifi buf =>
      ((wifiSendPacketData buf).run machine t s).2.frame .wifiSendPacketBufPub (buf.length + 4)
  | .dispBoard len =>
      ((dispBoardPacketData len).run machine t s).2.frame .rs485SendBufNotModbus (len + 4)
  | .function buftmp =>
      ((sendPacketData buftmp).run machine t s).2.frame .rs485SendBufNotModbus (buftmp.length + 4)
  | .dispF1 buf =>
      (List.range (buf.length + 4)).map (d.comSendPacketDataF1 buf).tx.wifiSendPacketBufPub
  | .dispWifi buf =>
      (List.range (buf.length + 4)).map (d.wifiSendPacketData chk buf).tx.wifiSendPacketBufPub

/-- What the checksum starts from. -/
def start (s : Board) (chk : UInt8) : Packer → UInt8
  | .wifi _ => s.stack 0
  | .dispBoard _ => s.stack 6
  | .function _ => s.stack 0
  | .dispF1 _ => 0
  | .dispWifi _ => chk

theorem frame_packed {p : Packer} (h : p.Fits) (t : Nat) (s : Board) (d : Disp) (chk : UInt8) :
    ∃ head, p.frame t s d chk = packed head (p.payload s) (p.start s chk) := by
  have hwifi : Function.Injective Addr.wifiSendPacketBufPub := fun i j => Addr.wifiSendPacketBufPub.inj
  have hrs : Function.Injective Addr.rs485SendBufNotModbus := fun i j => Addr.rs485SendBufNotModbus.inj
  cases p with
  | wifi buf =>
      refine ⟨0xF2, ?_⟩
      rw [frame, wifiSendPacketData_eq, Prog.run_bind, Prog.run_bind]
      exact run_packFrame hwifi 0xF2 buf (s.stack 0) t _
  | dispBoard len =>
      refine ⟨0xF2, ?_⟩
      have htake : (s.dispBuftmp.take len).length = len := by
        rw [List.length_take, length_dispBuftmp, Nat.min_eq_left h]
      have hrun := run_packFrame hrs 0xF2 (s.dispBuftmp.take len) (s.stack 6) t (s.dropStack 7)
      rw [htake, ← run_dispBoardPacketData h] at hrun
      exact hrun
  | function buftmp =>
      refine ⟨0xF1, ?_⟩
      rw [frame, sendPacketData_eq, Prog.run_bind]
      exact run_packFrame hrs 0xF1 buftmp (s.stack 0) t _
  | dispF1 buf => exact ⟨0xF1, packBuffer_packed 0xF1 buf 0 _⟩
  | dispWifi buf => exact ⟨0xF2, packBuffer_packed 0xF2 buf chk _⟩

end Packer

/-- Right behind the payload the frame has the payload's sum and the end code,
and it meets the checker's rule. -/
def Checked (payload fr : List UInt8) : Prop :=
  fr.drop 2 = payload ++ [payload.sum, 0x7E] ∧ CheckRule fr

instance (payload fr : List UInt8) : Decidable (Checked payload fr) :=
  inferInstanceAs (Decidable (_ ∧ _))

theorem checked_packed (head : UInt8) (payload : List UInt8) (chk : UInt8) :
    Checked payload (packed head payload chk) ↔ chk = 0 := by
  rw [Checked, checkRule_packed]
  constructor
  · exact And.right
  · intro h
    subst h
    exact ⟨by simp [packed], rfl⟩

/-- **When a frame has the right checksum.** A builder makes a frame that its
checker accepts exactly if its checksum starts from zero. -/
theorem checked_frame_iff {p : Packer} (h : p.Fits) (t : Nat) (s : Board) (d : Disp)
    (chk : UInt8) : Checked (p.payload s) (p.frame t s d chk) ↔ p.start s chk = 0 := by
  obtain ⟨head, hframe⟩ := p.frame_packed h t s d chk
  rw [hframe]
  exact checked_packed head (p.payload s) (p.start s chk)

theorem checked_frame_iff_reset :
    Checked [0x02, 0x01, 0x01] ((Packer.function [0x02, 0x01, 0x01]).frame 0 Board.reset Disp.reset 0) ↔
      (0 : UInt8) = 0 :=
  checked_frame_iff (p := .function [0x02, 0x01, 0x01]) (show 3 + 4 ≤ 50 by decide) 0 Board.reset
    Disp.reset 0

/-- With a one left on the stack, the command `02 01 01` goes out with
checksum 5. -/
theorem checked_frame_counterexample :
    (Packer.function [0x02, 0x01, 0x01]).Fits ∧
      ¬ Checked [0x02, 0x01, 0x01] ((Packer.function [0x02, 0x01, 0x01]).frame 0
        { Board.reset with stack := fun _ => 1 } Disp.reset 0) := by
  refine ⟨show 3 + 4 ≤ 50 by decide, ?_⟩
  decide +kernel

end Aclean
