import Gts9Wifi.Lib.Bytes
import Gts9Wifi.Lib.Kernel
import Gts9Wifi.Lib.Prog

/-!
# The T=1 protocol of the secure element

`protocol/ese_iso7816_t1.c` with `protocol/ese_data.c` and `hal/ese_hal.c`: the host's side of the
block protocol of ISO 7816-3. A command leaves in chained I-blocks, the answer is put together from
the I-blocks of the card, and R- and S-blocks carry acknowledgements, repetitions and supervision.

The world answers for the bus, for the kernel heap, and for memory that a copy reads. A copy inside
of its source gets the bytes that stand there; a copy that runs past it, or that reads a command
whose memory has been given back, gets whatever the environment likes. The loop of
`iso7816_t1_receive` is as long as the card wants it to be, so it runs on fuel, and `none` says that
it is still running. Delays and log lines are left out, and so are `iso7816_t1_get_data`, which
nothing calls, and the check for a missing `proc_buf`, without which there is no protocol object.
-/

namespace Gts9Wifi.Snvm

open Driver

/-! ## The world -/

/-- `ESE_STATUS`, as far as it is used. -/
inductive EseStatus
  | success | failed | invalidDevice | invalidBuffer | notEnoughMemory | memoryAllocationFail
  | invalidFormat | invalidFrame | sendFailed | invalidSendLength | invalidReceiveLength
deriving DecidableEq

/-- A place in a command from user space. Commands are numbered. -/
structure Ptr where
  block : Nat
  off : Nat
deriving DecidableEq

/-- What a copy reads: a command, or the bytes that were received into `proc_buf`. -/
inductive Src
  | cmd (block : Nat)
  | frame (data : Bytes)
deriving DecidableEq

/-- Bytes of a known number. -/
abbrev Block (n : Nat) := { b : Bytes // b.length = n }

/-- The operations. `busSend` and `busReceive` are the transfers behind `ese_hal_send` and
`ese_hal_receive`; a reception writes `n` bytes at offset `off` of a buffer of `room` bytes.
`kzallocCmd` is the memory of a command, which `copyFromUser` fills and `kfreeCmd` gives back. The
last ones are the board's. -/
inductive Op
  | kzalloc (size : Nat)
  | load (src : Src) (off n : Nat)
  | busSend (buf : Bytes)
  | busReceive (room off n : Nat)
  | kzallocCmd (cmd : Bytes)
  | copyFromUser
  | kfreeCmd
  | copyToUser (data : Bytes)
  | getUser
  | powerOn
  | powerOff
  | chipReset
deriving DecidableEq

def Op.Ans : Op → Type
  | .kzalloc _ | .copyFromUser | .copyToUser _ => Bool
  | .load _ _ n => Block n
  | .busSend _ | .powerOn | .powerOff => Except Errno Unit
  | .busReceive _ _ n => Except Errno (Block n)
  | .kzallocCmd _ => Option Nat
  | .kfreeCmd | .chipReset => Unit
  | .getUser => Option Int

abbrev iface : Iface := ⟨Op, Op.Ans⟩

/-- What the environment decides about one operation: whether it fails, and what it brings. -/
structure Input where
  fault : Option Errno := none
  bytes : Bytes := []
  value : Int := 0

/-- An operation that can fail. -/
def Input.answer {α : Type} (i : Input) (a : α) : Except Errno α :=
  match i.fault with
  | some e => .error e
  | none => .ok a

/-- `n` bytes of what the environment brings. -/
def Input.block (i : Input) (n : Nat) : Block n :=
  ⟨(List.range n).map fun k => i.bytes.getD k 0, by simp⟩

/-- How many commands there have been, and the last one if its memory has not been given back. -/
structure Mem where
  serial : Nat
  live : Option Bytes

/-- What stands in a source. -/
def Mem.read (m : Mem) : Src → Option Bytes
  | .frame data => some data
  | .cmd block => if block = m.serial then m.live else none

/-- `KMALLOC_MAX_SIZE`. Larger requests are refused. -/
def kmallocMaxSize : Nat := 2 ^ 22

/-- The bytes a copy gets. -/
def copied (src : Option Bytes) (off n : Nat) (i : Input) : Block n :=
  if h : ∃ b, src = some b ∧ off + n ≤ b.length then
    ⟨slice (src.getD []) off n, by obtain ⟨b, rfl, hb⟩ := h; exact length_slice hb⟩
  else i.block n

def handle : (o : Op) → Input → Mem → o.Ans × Mem
  | .kzalloc size, i, m => (decide (size ≤ kmallocMaxSize) && i.fault.isNone, m)
  | .load src off n, i, m => (copied (m.read src) off n i, m)
  | .busSend _, i, m | .powerOn, i, m | .powerOff, i, m => (i.answer (), m)
  | .busReceive _ _ n, i, m => (i.answer (i.block n), m)
  | .kzallocCmd cmd, i, m =>
    if cmd.length ≤ kmallocMaxSize ∧ i.fault = none then
      (some (m.serial + 1), ⟨m.serial + 1, some cmd⟩)
    else (none, m)
  | .kfreeCmd, _, m => ((), { m with live := none })
  | .copyFromUser, i, m | .copyToUser _, i, m => (i.fault.isNone, m)
  | .getUser, i, m => (if i.fault.isNone then some i.value else none, m)
  | .chipReset, _, m => ((), m)

abbrev world : World iface := ⟨Mem, Input, handle⟩

/-! ## The hardware layer -/

/-- `ese_hal_send`. -/
def eseHalSend (buf : Bytes) : Prog iface Int := do
  if buf.length = 0 then return Errno.einval.toInt
  match ← Prog.perform (I := iface) (.busSend buf) with
  | .error e => return e.toInt
  | .ok () => return buf.length

/-- `ese_hal_receive` to offset `off` of a buffer, with what was received. -/
def eseHalReceive (room off n : Nat) : Prog iface (Except Errno (Block n)) := do
  if n = 0 then return .error .einval
  Prog.perform (I := iface) (.busReceive room off n)

/-! ## Lists of received data -/

/-- `data_list_t`: the size that the head keeps, a `uint32_t`, and the packets behind it. -/
structure DataList where
  size : Nat
  packets : List Bytes
deriving DecidableEq

/-- `sizeof(data_list_t)`. -/
def sizeofDataList : Nat := 24

/-- `ese_data_init`, which is also what is left by `ese_data_delete`. -/
def DataList.empty : DataList := ⟨0, []⟩

/-- `ese_data_store` of a packet that is handed over. -/
def eseDataStore (head : DataList) (data : Bytes) : Prog iface (EseStatus × DataList) := do
  if !(← Prog.perform (I := iface) (.kzalloc sizeofDataList)) then return (.memoryAllocationFail, head)
  return (.success, ⟨(head.size + data.length) % 2 ^ 32, head.packets ++ [data]⟩)

/-- `ese_data_store` of a packet that is copied. -/
def eseDataStoreCopy (head : DataList) (src : Src) (off dataSize : Nat) :
    Prog iface (EseStatus × DataList) := do
  if !(← Prog.perform (I := iface) (.kzalloc sizeofDataList)) then return (.memoryAllocationFail, head)
  if !(← Prog.perform (I := iface) (.kzalloc dataSize)) then return (.memoryAllocationFail, head)
  let packet ← Prog.perform (I := iface) (.load src off dataSize)
  return (.success, ⟨(head.size + dataSize) % 2 ^ 32, head.packets ++ [packet.1]⟩)

/-- `ese_data_t`, as it comes back. -/
structure EseData where
  size : Nat
  data : Option Bytes
deriving DecidableEq

/-- `ese_data_get`. `data` is what the caller's variables held before. -/
def eseDataGet (head : DataList) (data : EseData) : Prog iface (EseStatus × EseData × DataList) := do
  if head.size = 0 then return (.invalidBuffer, ⟨0, none⟩, head)
  if !(← Prog.perform (I := iface) (.kzalloc head.size)) then
    return (.memoryAllocationFail, data, .empty)
  let total := head.packets.flatten
  if total.length % 2 ^ 32 ≠ head.size then return (.invalidBuffer, data, .empty)
  return (.success, ⟨head.size, some total⟩, .empty)

/-! ## The protocol object -/

inductive SframeType
  | resynchReq | resynchRsp | ifscReq | ifscRes | abortReq | abortRes | wtxReq | wtxRsp
deriving DecidableEq

def SframeType.code : SframeType → UInt8
  | .resynchReq => 0x00
  | .resynchRsp => 0x20
  | .ifscReq => 0x01
  | .ifscRes => 0x21
  | .abortReq => 0x02
  | .abortRes => 0x22
  | .wtxReq => 0x03
  | .wtxRsp => 0x23

/-- `rframe_error_t`. -/
inductive RframeError
  | no | parity | other | sofMissed | undefined
deriving DecidableEq

def RframeError.code : RframeError → UInt8
  | .no => 0
  | .parity => 1
  | .other => 2
  | .sofMissed => 3
  | .undefined => 4

inductive FrameType
  | iframe | sframe | rframe | invalid | unknown
deriving DecidableEq

/-- `iframe_info_t`. Offset and sizes are `uint32_t`. -/
structure IframeInfo where
  data : Option Ptr := none
  offset : Nat := 0
  totalSize : Nat := 0
  sendSize : Nat := 0
  chain : Bool := false
  seqNo : UInt8 := 0
deriving DecidableEq

/-- `sframe_info_t`. What `data` points to is the caller's. -/
structure SframeInfo where
  data : Option Bytes := none
  sendSize : Nat := 0
  type : SframeType := .resynchReq
deriving DecidableEq

structure RframeInfo where
  seqNo : UInt8 := 0
  error : RframeError := .no
deriving DecidableEq

/-- `frame_info_t`, zeroed. -/
structure FrameInfo where
  iframe : IframeInfo := {}
  rframe : RframeInfo := {}
  sframe : SframeInfo := {}
  type : FrameType := .iframe
deriving DecidableEq

inductive ProtoState
  | idle | sendIframe | sendRframe | sendSframe
deriving DecidableEq

/-- `iso7816_t1_t`. -/
structure T1 where
  lastTx : FrameInfo := {}
  nextTx : FrameInfo := {}
  lastRx : FrameInfo := {}
  recvData : DataList := .empty
  wtxCounter : Nat := 0
  timeoutCounter : Nat := 0
  rnackCounter : Nat := 0
  recoveryCounter : Nat := 0
  lastFrame : FrameType := .iframe
  state : ProtoState := .idle
  sendAddress : UInt8
  receiveAddress : UInt8
deriving DecidableEq

def protocolAddressPollingCount : Nat := 100
def protocolTimeoutRetryCount : Nat := 3
def protocolPcbOffset : Nat := 1
def protocolSendSize : Nat := 254
def protocolChaining : UInt8 := 0x20
def protocolSBlockReq : UInt8 := 0xC0
def protocolSBlockRsp : UInt8 := 0xE0
def protocolFrameRetryCount : Nat := 3
def protocolMaxRnackRetryLimit : Nat := 2

def sframeMaxInfSize : Nat := 4

/-- The size of `proc_buf`. -/
def procBufSize : Nat := 260

/-- `ESE_BIT`. -/
def eseBit (val : UInt8) (bit : UInt8) : UInt8 := (val >>> bit) &&& 1

/-- `iso7816_t1_compute_lrc`. -/
def computeLrc (data : Bytes) (offset size : Nat) : UInt8 :=
  (slice data offset size).foldl (· ^^^ ·) 0

/-- `iso7816_t1_check_lrc` of the `data_size` bytes in `data`. -/
def checkLrc (data : Bytes) : EseStatus :=
  if data.getD (data.length - 1) 0 ≠ computeLrc data 0 (data.length - 1) then .failed else .success

/-- `iso7816_t1_reset_params`. -/
def resetParams (p : T1) : T1 :=
  { p with
    state := .idle
    lastRx := { p.lastRx with type := .invalid, iframe := { p.lastRx.iframe with seqNo := 1 } }
    nextTx := { p.nextTx with
      type := .invalid, iframe := { p.nextTx.iframe with data := none, seqNo := 1 }
      sframe := { p.nextTx.sframe with data := none, sendSize := 0 } }
    lastTx := { p.lastTx with
      type := .invalid, iframe := { p.lastTx.iframe with data := none, seqNo := 1 } }
    recoveryCounter := 0
    timeoutCounter := 0
    wtxCounter := 0
    lastFrame := .unknown
    rnackCounter := 0 }

/-- `iso7816_t1_init`, once both allocations have succeeded. -/
def T1.init (sendAddress receiveAddress : UInt8) : T1 := resetParams { sendAddress, receiveAddress }

/-- `iso7816_t1_set_iframe`. -/
def setIframe (p : T1) : T1 :=
  let iframe := { p.nextTx.iframe with offset := 0, seqNo := p.lastTx.iframe.seqNo ^^^ 1 }
  { p with
    state := .sendIframe
    nextTx := { p.nextTx with
      type := .iframe
      iframe :=
        if iframe.totalSize > protocolSendSize then
          { iframe with
            chain := true, sendSize := protocolSendSize
            totalSize := iframe.totalSize - protocolSendSize }
        else { iframe with sendSize := iframe.totalSize, chain := false } } }

/-- `iso7816_t1_next_iframe`. -/
def nextIframe (p : T1) : T1 :=
  let iframe := { p.nextTx.iframe with
    seqNo := p.lastTx.iframe.seqNo ^^^ 1
    offset := (p.lastTx.iframe.offset + protocolSendSize) % 2 ^ 32
    data := p.lastTx.iframe.data }
  { p with
    state := .sendIframe
    nextTx := { p.nextTx with
      type := .iframe
      iframe :=
        if p.lastTx.iframe.totalSize > protocolSendSize then
          { iframe with
            chain := true, sendSize := protocolSendSize
            totalSize := p.lastTx.iframe.totalSize - protocolSendSize }
        else { iframe with chain := false, sendSize := p.lastTx.iframe.totalSize } } }

/-- `iso7816_t1_finish_recovery`. -/
def finishRecovery (p : T1) : T1 := { p with state := .idle, recoveryCounter := 0 }

/-! ## Sending -/

/-- A frame: its header, the information field, and the checksum over both. -/
def frame (address pcb : UInt8) (inf : Bytes) : Bytes :=
  let head := address :: pcb :: UInt8.ofNat inf.length :: inf
  head ++ [computeLrc head 0 head.length]

/-- The end of all three send functions. -/
def transmit (buf : Bytes) : Prog iface EseStatus := do
  let ret ← eseHalSend buf
  if ret ≠ buf.length then return .sendFailed
  return .success

/-- The control byte of an S-block. -/
def sframePcb (type : SframeType) : UInt8 :=
  if type.code &&& 0x20 = 0 then protocolSBlockReq ||| type.code
  else protocolSBlockRsp ||| (type.code &&& 0x0F)

/-- The control byte of an R-block, from the number of the last I-block that came. -/
def rframePcb (seqNo : UInt8) (error : RframeError) : UInt8 :=
  (if error ≠ .no then 0x80 ||| error.code else 0x80) ||| ((seqNo ^^^ 1) <<< 4)

/-- The control byte of an I-block. -/
def iframePcb (chain : Bool) (seqNo : UInt8) : UInt8 :=
  (if chain then protocolChaining else 0) ||| (seqNo <<< 6)

/-- The information field of an S-block, cut to `SFRAME_MAX_INF_SIZE`. -/
def SframeInfo.inf (sframe : SframeInfo) : Bytes :=
  match sframe.data with
  | some data => if sframe.sendSize > 0 then data.take (min sframe.sendSize sframeMaxInfSize) else []
  | none => []

/-- `iso7816_t1_send_sframe`. Its two branches differ in the control byte only. -/
def sendSframe (p : T1) : Prog iface (EseStatus × T1) := do
  let sframe := p.nextTx.sframe
  -- the size is forgotten once a field of it has been copied
  let sendSize := if sframe.data.isSome then 0 else sframe.sendSize
  let p := { p with
    lastFrame := .sframe, nextTx := { p.nextTx with sframe := { sframe with sendSize } } }
  return (← transmit (frame p.sendAddress (sframePcb sframe.type) sframe.inf), p)

/-- `iso7816_t1_send_rframe`. -/
def sendRframe (p : T1) : Prog iface (EseStatus × T1) := do
  let error := p.nextTx.rframe.error
  let p := { p with lastFrame := if error ≠ .no then p.lastFrame else .rframe }
  return (← transmit (frame p.sendAddress (rframePcb p.lastRx.iframe.seqNo error) []), p)

/-- `iso7816_t1_send_iframe`. -/
def sendIframe (p : T1) : Prog iface (EseStatus × T1) := do
  let iframe := p.nextTx.iframe
  if iframe.sendSize = 0 then return (.invalidSendLength, p)
  match iframe.data with
  | none => return (.notEnoughMemory, p)
  | some ptr =>
    let p := { p with lastFrame := .iframe }
    let inf ← Prog.perform (I := iface) (.load (.cmd ptr.block) (ptr.off + iframe.offset) iframe.sendSize)
    return (← transmit (frame p.sendAddress (iframePcb iframe.chain iframe.seqNo) inf.1), p)

/-- The command of `iso7816_t1_send`. -/
structure CmdData where
  size : Nat
  data : Option Ptr
deriving DecidableEq

/-- The state in which `iso7816_t1_send` reaches its switch. -/
def prepare (p : T1) (data : Option CmdData) : T1 :=
  let p : T1 := match data with
    | some data =>
      if p.state = .idle then
        setIframe { p with nextTx := { p.nextTx with
          iframe := { p.nextTx.iframe with data := data.data, totalSize := data.size } } }
      else p
    | none => p
  { p with lastTx := p.nextTx }

/-- The switch of `iso7816_t1_send`. -/
def sendNext (p : T1) : Prog iface (EseStatus × T1) :=
  match p.state with
  | .sendIframe => sendIframe p
  | .sendRframe => sendRframe p
  | .sendSframe => sendSframe p
  | .idle => pure (.failed, { p with state := .idle })

/-- `iso7816_t1_send`. -/
def send (p : T1) (data : Option CmdData) : Prog iface (EseStatus × T1) := sendNext (prepare p data)

/-! ## Receiving -/

/-- `memcpy(&next_tx, &last_tx, sizeof(frame_info_t))`. -/
def repeatLast (p : T1) : T1 := { p with nextTx := p.lastTx }

/-- An R-block goes out next. -/
def T1.answer (p : T1) (error : RframeError) : T1 :=
  { p with
    nextTx := { p.nextTx with type := .rframe, rframe := { p.nextTx.rframe with error } }
    state := .sendRframe }

/-- An S-block without information goes out next. -/
def T1.supervise (p : T1) (type : SframeType) : T1 :=
  { p with
    nextTx := { p.nextTx with type := .sframe, sframe := ⟨none, 0, type⟩ }
    state := .sendSframe }

/-- A fault that the other side may be asked to repair `PROTOCOL_FRAME_RETRY_COUNT` times. -/
def T1.recover (p : T1) (repair : T1 → T1) : T1 :=
  if p.recoveryCounter < protocolFrameRetryCount then
    { repair p with recoveryCounter := (repair p).recoveryCounter + 1 }
  else finishRecovery p

/-- The control byte of a frame. -/
def pcb (data : Bytes) : UInt8 := data.getD protocolPcbOffset 0

/-- An I-block with the other number than the last one, in `iso7816_t1_decode_frame`: the number is
taken over, and if more is to come the block is acknowledged. -/
def newIframe (p : T1) (pcb : UInt8) : T1 :=
  let p := { p with
    recoveryCounter := 0
    lastRx := { p.lastRx with
      iframe := { p.lastRx.iframe with seqNo := eseBit pcb 6, chain := eseBit pcb 5 ≠ 0 } } }
  if eseBit pcb 5 ≠ 0 then p.answer .no else { p with state := .idle }

/-- The marks of any I-block. -/
def gotIframe (p : T1) : T1 := { p with wtxCounter := 0, lastRx := { p.lastRx with type := .iframe } }

/-- An I-block, in `iso7816_t1_decode_frame`. -/
def decodeIframe (p : T1) (data : Bytes) : Prog iface (EseStatus × T1) := do
  if p.lastRx.iframe.seqNo ≠ eseBit (pcb data) 6 then
    let p := newIframe (gotIframe p) (pcb data)
    -- without an information field or a checksum the size wraps around
    let (status, recvData) ←
      eseDataStoreCopy p.recvData (.frame data) 3 ((data.length + 2 ^ 32 - 4) % 2 ^ 32)
    return (status, { p with recvData })
  else return (.success, (gotIframe p).recover fun p => p.answer .other)

/-- An R-block that reports an error, in `iso7816_t1_decode_frame`. -/
def repeatFor (p : T1) : T1 :=
  match p.lastTx.type with
  | .iframe =>
    let p := repeatLast p
    { p with state := .sendIframe, nextTx := { p.nextTx with type := .iframe } }
  | .rframe =>
    if p.lastRx.rframe.seqNo = p.lastTx.iframe.seqNo ∧ p.lastFrame = .iframe then
      -- the I-block before our negative acknowledgement was not received
      let p := repeatLast p
      { p with state := .sendIframe, nextTx := { p.nextTx with type := .iframe } }
    else if p.lastRx.rframe.seqNo ≠ p.lastTx.iframe.seqNo ∧ p.lastFrame = .rframe then
      p.answer .no
    else p.answer .other
  | .sframe => repeatLast p
  | .invalid | .unknown => p

/-- The marks of any R-block. -/
def gotRframe (p : T1) (pcb : UInt8) : T1 :=
  { p with
    wtxCounter := 0
    lastRx := { p.lastRx with
      type := .rframe, rframe := { p.lastRx.rframe with seqNo := eseBit pcb 4 } } }

/-- The error of the last R-block is noted. -/
def T1.reported (p : T1) (error : RframeError) : T1 :=
  { p with lastRx := { p.lastRx with rframe := { p.lastRx.rframe with error } } }

/-- An R-block that reports no error. If its number is that of the I-block that was sent last, it is
passed over. -/
def acknowledged (p : T1) : T1 :=
  let p := { p.reported .no with recoveryCounter := 0 }
  if p.lastRx.rframe.seqNo ≠ p.lastTx.iframe.seqNo then nextIframe p else p

/-- An R-block, in `iso7816_t1_decode_frame`. -/
def decodeRframe (p : T1) (pcb : UInt8) : T1 :=
  let p := gotRframe p pcb
  if eseBit pcb 0 = 0 ∧ eseBit pcb 1 = 0 then acknowledged p
  else if eseBit pcb 0 = 1 ∧ eseBit pcb 1 = 0 ∨ eseBit pcb 0 = 0 ∧ eseBit pcb 1 = 1 then
    (p.reported (if eseBit pcb 0 = 0 then .other else .parity)).recover repeatFor
  else if eseBit pcb 0 = 1 ∧ eseBit pcb 1 = 1 then
    p.recover fun p => repeatLast (p.reported .sofMissed)
  else p.recover fun p => repeatLast (p.reported .undefined)

/-- The marks of any S-block. -/
def gotSframe (p : T1) (pcb : UInt8) : T1 :=
  { p with
    lastRx := { p.lastRx with type := .sframe }
    wtxCounter := if pcb &&& 0x3F ≠ SframeType.wtxReq.code then 0 else p.wtxCounter }

/-- The type of the last S-block is noted. -/
def T1.supervised (p : T1) (type : SframeType) : T1 :=
  { p with lastRx := { p.lastRx with sframe := { p.lastRx.sframe with type } } }

/-- There is nothing more to send. -/
def T1.rest (p : T1) : T1 := { p with state := .idle, nextTx := { p.nextTx with type := .unknown } }

/-- An S-block, in `iso7816_t1_decode_frame`. The waiting time is only waited for. -/
def decodeSframe (p : T1) (pcb : UInt8) : T1 :=
  let p := gotSframe p pcb
  let frameType := pcb &&& 0x3F
  if frameType = SframeType.resynchReq.code then
    ((resetParams p).supervised .resynchReq).supervise .resynchRsp
  else if frameType = SframeType.resynchRsp.code then (p.supervised .resynchRsp).rest
  else if frameType = SframeType.abortReq.code then p.supervised .abortReq
  else if frameType = SframeType.abortRes.code then (p.supervised .abortRes).rest
  else if frameType = SframeType.wtxReq.code then
    if p.lastTx.type = .sframe ∧ p.lastTx.sframe.type ≠ .wtxRsp then p.recover repeatLast
    else
      ({ p with wtxCounter := (p.wtxCounter + 1) % 2 ^ 32 }.supervised .wtxReq).supervise .wtxRsp
  else if frameType = SframeType.wtxRsp.code then p.supervised .wtxRsp
  else p

/-- `iso7816_t1_decode_frame`. Two bits tell the kinds of blocks apart, so none is unknown. -/
def decodeFrame (p : T1) (data : Bytes) : Prog iface (EseStatus × T1) :=
  let pcb := pcb data
  if eseBit pcb 7 = 0 then decodeIframe p data
  else if eseBit pcb 7 = 1 ∧ eseBit pcb 6 = 0 then pure (.success, decodeRframe p pcb)
  else if eseBit pcb 7 = 1 ∧ eseBit pcb 6 = 1 then pure (.success, decodeSframe p pcb)
  else pure (.invalidFormat, p)

/-- The loop of `iso7816_t1_process` that waits for the card's address. -/
def pollAddress (address : UInt8) : Nat → Prog iface (Except EseStatus Unit)
  | 0 => pure (.error .invalidFrame)
  | n + 1 => do
    match ← eseHalReceive procBufSize 0 1 with
    | .error _ => return .error .invalidReceiveLength
    | .ok data =>
      if data.1.getD 0 0 = address then return .ok ()
      if data.1.getD 0 0 ≠ 0 then return .error .invalidFrame
      pollAddress address n

/-- The receptions of `iso7816_t1_process`: the bytes it got, and the status if it got none. -/
def receiveFrame (p : T1) : Prog iface (Bytes × EseStatus) := do
  match ← pollAddress p.receiveAddress protocolAddressPollingCount with
  | .error status => return ([], status)
  | .ok () =>
    match ← eseHalReceive procBufSize 1 2 with
    | .error _ => return ([p.receiveAddress], .invalidReceiveLength)
    | .ok header =>
      match ← eseHalReceive procBufSize 3 ((header.1.getD 1 0).toNat + 1) with
      | .error _ => return (p.receiveAddress :: header.1, .invalidReceiveLength)
      | .ok rest => return (p.receiveAddress :: (header.1 ++ rest.1), .failed)

/-- A reception that was no good is answered with an R-block, `PROTOCOL_MAX_RNACK_RETRY_LIMIT` times
in a row. -/
def T1.reject (p : T1) (error : RframeError) : T1 :=
  if p.rnackCounter < protocolMaxRnackRetryLimit then
    { p with
      lastRx := { p.lastRx with type := .invalid }
      nextTx := { p.nextTx with
        type := .rframe
        rframe := ⟨(if p.lastRx.iframe.seqNo = 0 then 1 else 0 : UInt8) <<< 4, error⟩ }
      state := .sendRframe
      rnackCounter := p.rnackCounter + 1 }
  else { p with rnackCounter := 0, state := .idle }

/-- Nothing came, in `iso7816_t1_process`. -/
def T1.nothing (p : T1) (status : EseStatus) : T1 :=
  if p.lastTx.type = .sframe ∧
      (p.lastTx.sframe.type = .wtxRsp ∨ p.lastTx.sframe.type = .resynchRsp) ∨
      status = .invalidFrame then
    if p.rnackCounter < protocolMaxRnackRetryLimit then p.reject .other
    else { p.reject .other with timeoutCounter := 0 }
  else if p.timeoutCounter < protocolTimeoutRetryCount then
    repeatLast { p with timeoutCounter := p.timeoutCounter + 1 }
  else { p with state := .idle, timeoutCounter := 0 }

/-- The rest of `iso7816_t1_process`. -/
def settle (p : T1) (got : Bytes × EseStatus) : Prog iface (EseStatus × T1) := do
  let (data, status) := got
  if data.length > 0 then
    let p := { p with timeoutCounter := 0 }
    if checkLrc data = .success then
      let (_, p) ← decodeFrame { p with rnackCounter := 0 } data
      return (.success, p)
    else return (.failed, p.reject .parity)
  else return (status, p.nothing status)

/-- `iso7816_t1_process`. -/
def process (p : T1) : Prog iface (EseStatus × T1) := do settle p (← receiveFrame p)

/-- What one turn of the loop of `iso7816_t1_receive` makes of a reception. -/
def react (p : T1) (got : Bytes × EseStatus) : Prog iface (EseStatus × T1) := do
  let (status, p) ← settle p got
  if p.state ≠ .idle then
    let (status, p) ← send p none
    return (status, if status ≠ .success then { p with state := .idle } else p)
  return (status, p)

/-- One turn of the loop of `iso7816_t1_receive`. -/
def turn (p : T1) : Prog iface (EseStatus × T1) := do react p (← receiveFrame p)

/-- The loop of `iso7816_t1_receive`. `iso7816_t1_process` never returns `ESESTATUS_INVALID_DEVICE`,
the one status that would leave it early. -/
def receiveLoop : Nat → T1 → Prog iface (Option (EseStatus × T1))
  | 0, _ => pure none
  | fuel + 1, p => do
    let (status, p) ← turn p
    if p.state ≠ .idle then receiveLoop fuel p else return some (status, p)

/-- `iso7816_t1_receive`. -/
def receive (fuel : Nat) (p : T1) (data : EseData) : Prog iface (Option (EseStatus × EseData × T1)) := do
  match ← receiveLoop fuel p with
  | none => return none
  | some (status, p) =>
    let (wstatus, data, recvData) ← eseDataGet p.recvData data
    return some (if wstatus ≠ .success then wstatus else status, data, { p with recvData })

/-! ## Supervision by the host -/

/-- The host asks for something with an S-block: `iso7816_t1_resync_request` and
`iso7816_t1_wtx_request`. -/
def request (p : T1) (sframe : SframeInfo) : Prog iface (EseStatus × T1) :=
  send { p with state := .sendSframe, nextTx := { p.nextTx with type := .sframe, sframe } } none

/-- What comes back for it. The two conditions are joined as the source joins them. -/
def response (p : T1) (type : SframeType) : Prog iface (EseStatus × T1) := do
  let (status, p) ← process p
  let p := { p with state := .idle }
  if p.lastRx.type ≠ .sframe ∧ p.lastRx.sframe.type ≠ type then return (.invalidFrame, p)
  return (status, p)

/-- `iso7816_t1_resync_request`. -/
def resyncRequest (p : T1) : Prog iface (EseStatus × T1) := request p ⟨none, 0, .resynchReq⟩

/-- `iso7816_t1_resync_response`. -/
def resyncResponse (p : T1) : Prog iface (EseStatus × T1) := response p .resynchRsp

/-- `iso7816_t1_wtx_request`. -/
def wtxRequest (p : T1) (time : Nat) : Prog iface (EseStatus × T1) :=
  request p ⟨some (packLe32 time), 4, .wtxReq⟩

/-- `iso7816_t1_wtx_response`. -/
def wtxResponse (p : T1) : Prog iface (EseStatus × T1) := response p .wtxRsp

/-- `iso7816_t1_reset`. -/
def reset (p : T1) : T1 := resetParams p

end Gts9Wifi.Snvm
