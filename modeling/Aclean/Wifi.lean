import Aclean.Monitor

/-!
# The WiFi serial link

`wifi_mod_uart.c`: the byte-at-a-time receiver `wifi_rx_isr` with its static
counters, the frame check, the decode thread, and the frames the board sends
back. The receiver publishes a complete frame by copying it into the shared
buffer, setting the shared length and releasing a semaphore; all of these are
separate steps.
-/

namespace Aclean

/-! ## Receiving -/

/-- The copy into the shared buffer, at the end of `wifi_rx_isr`. -/
def copyToPub (n : Nat) : Code Unit :=
  Prog.forUpTo n fun i => do
    let b ← load (.wifiDataBufferRecvTmp i)
    store (.wifiRecvPacketBufPub i) b

/-- The last branch of `wifi_rx_isr`: the byte completes a frame. -/
def publishFrame (udr0 recievedLen : UInt8) : Code Unit := do
  store (.wifiDataBufferRecvTmp recievedLen.toNat) udr0
  store .recievedLen (recievedLen + 1)
  store .wifiRecieveDataLength (recievedLen + 1)
  copyToPub (recievedLen + 1).toNat
  store .recievedLen 0
  store .waitLenCnt 0
  store .waitLen 0
  semRelease

def wifiRxIsr (udr0 : UInt8) : Code Unit := do
  let recievedLen ← load .recievedLen
  if recievedLen = 0 then
    if udr0 = 0xF1 then
      store (.wifiDataBufferRecvTmp recievedLen.toNat) 0xF1
      store .recievedLen (recievedLen + 1)
    else store .recievedLen 0
  else if recievedLen = 1 then
    if udr0 = 0xF1 then
      store (.wifiDataBufferRecvTmp recievedLen.toNat) 0xF1
      store .recievedLen (recievedLen + 1)
    else store .recievedLen 0
  else if recievedLen ≤ 3 then
    store (.wifiDataBufferRecvTmp recievedLen.toNat) udr0
    store .recievedLen (recievedLen + 1)
    Prog.when (recievedLen + 1 = 4) do
      store .waitLen udr0
      store .waitLenCnt 0
  else do
    let waitLenCnt ← load .waitLenCnt
    let waitLen ← load .waitLen
    if waitLenCnt ≤ waitLen then
      store .waitLenCnt (waitLenCnt + 1)
      store (.wifiDataBufferRecvTmp recievedLen.toNat) udr0
      store .recievedLen (recievedLen + 1)
    -- `wait_len+1` is an `int`: at 255 it does not wrap
    else if waitLenCnt.toNat = waitLen.toNat + 1 then publishFrame udr0 recievedLen
    else pure ()

/-! ## Sending -/

/-- `wifi_send_data` on the packet buffer. -/
def wifiSendData (len : Nat) : Code Unit := do
  mutexTake .wifiSend
  uartWrite len
  mutexRelease .wifiSend

/-- `wifi_send_packet_data`; `chk` is never initialised. -/
def wifiSendPacketData (buf : List UInt8) : Code Unit := do
  let chk ← undef
  store (.wifiSendPacketBufPub 0) 0xF2
  store (.wifiSendPacketBufPub 1) 0xF2
  let chk ← Prog.foldUpTo (fun i chk => do
    store (.wifiSendPacketBufPub (i + 2)) (buf.getD i 0)
    pure (chk + buf.getD i 0)) buf.length chk
  store (.wifiSendPacketBufPub (buf.length + 2)) chk
  store (.wifiSendPacketBufPub (buf.length + 3)) 0x7E
  wifiSendData (buf.length + 4)

def sendF7Packet : Code Unit :=
  wifiSendPacketData [0xF7, 0x0E, 0x01, 0x73, 0x01, 0x73, 0x01, 0x00,
    0x01, 0x01, 0x01, 0x01, 0x01, 0x01, 0x01, 0x01]

def returnCurrentDeviceState : Code Unit := do
  let data ← Prog.foldUpTo (fun i data => do
    let b ← load (work i)
    pure (data ++ [b])) 27 []
  let power ← load (work Field.devicePowerState)
  if power = 0 then
    wifiSendPacketData (0x01 :: 0x1b :: data.getD 0 0 :: 2 :: 0 :: 0 :: 0 :: 0 :: data.drop 6)
  else do
    let mode ← load (work Field.deviceMode)
    if mode = 1 then
      let w ← load (.deviceWorkDataAuto Field.windSpeedState)
      let hp ← load (.deviceWorkDataAuto Field.highPressurState)
      let pht ← load (.deviceWorkDataAuto Field.phtWorkState)
      wifiSendPacketData (0x01 :: 0x1b :: data.getD 0 0 :: data.getD 1 0 :: w :: hp :: pht ::
        data.drop 5)
    else wifiSendPacketData (0x01 :: 0x1b :: data)

/-! ## Checking and decoding -/

/-- `buf[i]` of `wifi_receive_data_check`, called on the shared buffer. -/
abbrev recvPub (i : Int) : Addr := .wifiRecvPacketBufPub i

/-- The summing loop of `wifi_receive_data_check`. -/
def checksumRecv (n : Nat) : Code UInt8 :=
  Prog.foldUpTo (fun i chk => do
    let b ← load (recvPub (i + 2))
    pure (chk + b)) n 0

def wifiReceiveDataCheck (len : UInt8) : Code UInt8 := do
  let chkSrc ← load (recvPub (len.toNat - 2))
  let endCode ← load (recvPub (len.toNat - 1))
  let b0 ← load (recvPub 0)
  if b0 = 0xF1 then
    let b1 ← load (recvPub 1)
    if b1 = 0xF1 ∧ endCode = 0x7E then
      let chk ← checksumRecv (len.toNat - 4)
      pure (if chk = chkSrc then 1 else 0)
    else pure 0
  else pure 0

section Requests

variable (request : Nat → Code eMBMasterReqErrCode)

/-- `wifi_receive_data_decode(&wifi_recv_packet_buf_pub[2], ..)`: `buf[i]` is
element `i + 2` of the shared buffer; the length is not used. -/
def wifiReceiveDataDecode : Code Unit := do
  let cmd ← load (recvPub 2)
  if cmd = 0x01 then returnCurrentDeviceState
  else if 0x02 ≤ cmd ∧ cmd ≤ 0x07 then
    let type ← load (recvPub 2)
    let data ← load (recvPub 4)
    setDeviceWorkMode request type data 1
    returnCurrentDeviceState
  else if cmd = 0xF7 then sendF7Packet
  else pure ()

/-- What `rt_wifi_decode_thread_entry` does for one release of the
semaphore; the length is read for the check and again for the call. -/
def wifiDecodeFrame : Code Unit := do
  let len ← load .wifiRecieveDataLength
  let ok ← wifiReceiveDataCheck len
  Prog.when (ok ≠ 0) do
    let _ ← load .wifiRecieveDataLength
    wifiReceiveDataDecode request

end Requests

end Aclean
