import Gts9Wifi.Snvm.Iso7816T1

/-!
# The device node of the secure element

`sec_star.c`. User space writes a chain of commands, each with the answer it expects, and reads one
answer back, put together from those of the chain. With `direct` set, reads and writes go to the bus
as they are. Every call runs under one mutex, so a run of the device is a list of calls. The labels
`again`, `exit` and `error` of `star_transceive` are the ends of `Verdict`. The kernel passes no more
than `INT_MAX` bytes, so the size of a command is not cut.
-/

namespace Gts9Wifi.Snvm

open Driver

def apduChainNumSize : Nat := 4
def apduChainHeaderSize : Nat := 12
def apduChainExpFlag : Nat := 4
def expectedResponseAgain : Nat := 0x2
def apduChainMaxSize : Nat := 65536 / 256 + 1

/-- `BIGENDIAN_TO_UINT32` of the four bytes at `pos` of the command. -/
def bigEndian (block pos : Nat) : Prog iface Nat := do
  let b ← Prog.perform (I := iface) (.load (.cmd block) pos 4)
  return readBe32 b.1 0

/-! ## `star_transceive` -/

/-- How one command of the chain ends: with its answer, with the answer that was not expected as the
last packet, or in an error. -/
inductive Verdict
  | next | exit | error
deriving DecidableEq

/-- A response without its status word, if there is anything else in it. -/
def storeStripped (total : DataList) (rsp : EseData) : Prog iface (EseStatus × DataList) :=
  if rsp.size > 2 then eseDataStore total ((rsp.data.getD []).take (rsp.size - 2))
  else pure (.success, total)

/-- `expected_size - APDU_CHAIN_EXP_FLAG`, which wraps around. -/
def wantedSize (expectedSize : Nat) : Nat :=
  if apduChainExpFlag ≤ expectedSize then expectedSize - apduChainExpFlag
  else 2 ^ 32 - (apduChainExpFlag - expectedSize)

/-- Whether the answer ends as it is expected to, `memcmp` included. -/
def expected (block pos expectedSize : Nat) (rsp : EseData) : Prog iface Bool := do
  let want := wantedSize expectedSize
  if rsp.size < want then return false
  let wanted ← Prog.perform (I := iface) (.load (.cmd block) (pos + apduChainExpFlag) want)
  return decide (slice (rsp.data.getD []) (rsp.size - want) want = wanted.1)

/-- From `again` on: the exchange of one command, which stands at `cmd`, with what is expected at
`pos`. -/
def again (turns block pos expectedSize : Nat) (cmd : CmdData) :
    Nat → T1 → EseData → DataList → Prog iface (Option (Verdict × T1 × EseData × DataList))
  | 0, _, _, _ => pure none
  | fuel + 1, p, rsp, total => do
    let (status, p) ← send p (some cmd)
    if status ≠ .success then return some (.error, p, rsp, total)
    match ← receive turns p rsp with
    | none => return none
    | some (status, rsp, p) =>
      if status ≠ .success then return some (.error, p, rsp, total)
      if expectedSize = 0 then return some (.next, p, rsp, total)
      let expectedFlag ← bigEndian block pos
      if !(← expected block pos expectedSize rsp) then
        let (status, total) ← eseDataStore total (rsp.data.getD [])
        return some (if status ≠ .success then .error else .exit, p, rsp, total)
      if expectedFlag &&& expectedResponseAgain ≠ 0 then
        let (status, total) ← storeStripped total rsp
        if status ≠ .success then return some (.error, p, rsp, total)
        again turns block pos expectedSize cmd fuel p rsp total
      else return some (.next, p, rsp, total)

/-- The commands from the `i`-th on, `left` of them, in the `cmdSize` bytes from `pos` on. -/
def chain (turns fuel block : Nat) :
    (left i pos cmdSize : Nat) → T1 → DataList → Prog iface (Option (Bool × T1 × DataList))
  | 0, _, _, _, p, total => pure (some (true, p, total))
  | left + 1, i, pos, cmdSize, p, total => do
    if cmdSize ≤ apduChainHeaderSize then return some (false, p, total)
    let seq ← bigEndian block pos
    if seq ≠ i then return some (false, p, total)
    let dataSize ← bigEndian block (pos + 4)
    let expectedSize ← bigEndian block (pos + 8)
    let pos := pos + apduChainHeaderSize
    let cmdSize := cmdSize - apduChainHeaderSize
    let both := (dataSize + expectedSize) % 2 ^ 32
    if cmdSize < both ∨ dataSize > both then return some (false, p, total)
    let cmd : CmdData := ⟨dataSize, some ⟨block, pos⟩⟩
    let pos := pos + dataSize
    let cmdSize := cmdSize - dataSize
    match ← again turns block pos expectedSize cmd fuel p ⟨0, none⟩ total with
    | none => return none
    | some (.error, p, _, total) => return some (false, p, total)
    | some (.exit, p, _, total) => return some (true, p, total)
    | some (.next, p, rsp, total) =>
      let (status, total) ←
        if left > 0 then storeStripped total rsp else eseDataStore total (rsp.data.getD [])
      if status ≠ .success then return some (false, p, total)
      chain turns fuel block left (i + 1) (pos + expectedSize) (cmdSize - expectedSize) p total

/-- `star_transceive` of the command in `block`: the number it returns, and the answer. -/
def transceive (turns fuel block cmdSize : Nat) (p : T1) :
    Prog iface (Option (Int × EseData × T1)) := do
  if cmdSize = 0 then return some (-2, ⟨0, none⟩, p)
  if cmdSize < apduChainNumSize then return some (-3, ⟨0, none⟩, p)
  let chainNum ← bigEndian block 0
  if chainNum = 0 ∨ chainNum > apduChainMaxSize then return some (-4, ⟨0, none⟩, p)
  match ← chain turns fuel block chainNum 0 apduChainNumSize (cmdSize - apduChainNumSize) p .empty with
  | none => return none
  | some (false, p, _) => return some (-5, ⟨0, none⟩, p)
  | some (true, p, total) =>
    -- the status is not looked at
    let (_, rsp, _) ← eseDataGet total ⟨0, none⟩
    return some (0, rsp, p)

/-! ## The calls -/

/-- `sec_star_t`. -/
structure Star where
  protocol : T1
  rsp : Option Bytes := none
  rspSize : Nat := 0
  access : Bool := false
  direct : Int := 0
deriving DecidableEq

def sendAddress : UInt8 := 0x12
def receiveAddress : UInt8 := 0x21

/-- `star_open`, once it has succeeded. -/
def Star.probed : Star := { protocol := .init sendAddress receiveAddress }

/-- `ioctl` numbers. -/
inductive Ioctl
  | readSize | setDirect | resetProtocol | resetInterface | unknown | badMagic
deriving DecidableEq

inductive Call
  | devOpen
  | devClose
  | devWrite (buf : Bytes)
  | devRead (count : Nat)
  | devIoctl (cmd : Ioctl)
deriving DecidableEq

def Star.dropRsp (s : Star) : Star := { s with rsp := none, rspSize := 0 }

/-- `star_dev_open`. -/
def starDevOpen (s : Star) : Prog iface (Int × Star) := do
  if s.access then return (Errno.ebusy.toInt, s)
  let s := { s with protocol := reset s.protocol }
  match ← Prog.perform (I := iface) .powerOn with
  | .error e => return (e.toInt, s)
  | .ok () => return (0, { s with access := true })

/-- `star_dev_close`. -/
def starDevClose (s : Star) : Prog iface (Int × Star) := do
  if !s.access then return (0, s)
  match ← Prog.perform (I := iface) .powerOff with
  | .error e => return (e.toInt, { s with access := false })
  | .ok () => return (0, { s with access := false })

/-- `star_dev_write`, from the copy of the command to the label `error`. -/
def writeCmd (turns fuel block : Nat) (s : Star) (buf : Bytes) : Prog iface (Option (Int × Star)) := do
  if !(← Prog.perform (I := iface) .copyFromUser) then return some (Errno.efault.toInt, s)
  if s.direct > 0 then
    let ret ← eseHalSend buf
    if ret < 0 then return some (Errno.eio.toInt, s)
    return some (buf.length, { s with rsp := none, rspSize := 0 })
  match ← transceive turns fuel block buf.length s.protocol with
  | none => return none
  | some (ret, rsp, protocol) =>
    if ret ≠ 0 then return some (Errno.eio.toInt, { s with protocol })
    return some (buf.length, { s with protocol, rsp := rsp.data, rspSize := rsp.size })

/-- `star_dev_write`. -/
def starDevWrite (turns fuel : Nat) (s : Star) (buf : Bytes) : Prog iface (Option (Int × Star)) := do
  if buf.length = 0 then return some (Errno.einval.toInt, s)
  let s := if s.rsp.isSome ∧ s.rspSize > 0 then s.dropRsp else s
  match ← Prog.perform (I := iface) (.kzallocCmd buf) with
  | none => return some (Errno.enomem.toInt, s)
  | some block =>
    match ← writeCmd turns fuel block s buf with
    | none => return none
    | some (ret, s) =>
      Prog.perform (I := iface) .kfreeCmd
      return some (ret, s)

/-- `star_dev_read`, with what user space gets. -/
def starDevRead (s : Star) (count : Nat) : Prog iface (Except Errno Bytes × Star) := do
  if count = 0 then return (.error .einval, s)
  if s.direct > 0 then
    if !(← Prog.perform (I := iface) (.kzalloc count)) then return (.error .enomem, s)
    match ← eseHalReceive count 0 count with
    | .error _ => return (.error .eio, s)
    | .ok tmp =>
      if !(← Prog.perform (I := iface) (.copyToUser tmp.1)) then return (.error .enomem, s)
      return (.ok tmp.1, s)
  match s.rsp with
  | none => return (.error .enospc, s)
  | some rsp =>
    if s.rspSize = 0 then return (.error .enospc, s)
    if s.rspSize ≠ count then return (.error .e2big, s.dropRsp)
    if !(← Prog.perform (I := iface) (.copyToUser (rsp.take s.rspSize))) then
      return (.error .enomem, s.dropRsp)
    return (.ok (rsp.take s.rspSize), s.dropRsp)

/-- `star_dev_ioctl`. A failed `get_user` leaves zero, and nobody looks. -/
def starDevIoctl (s : Star) : Ioctl → Prog iface (Int × Star)
  | .readSize => do
    let _ ← Prog.perform (I := iface) (.copyToUser (packLe32 s.rspSize))
    return (0, s)
  | .setDirect => do
    let direct ← Prog.perform (I := iface) .getUser
    return (0, { s with direct := direct.getD 0 })
  | .resetProtocol => pure (0, { s with protocol := reset s.protocol })
  | .resetInterface => do
    Prog.perform (I := iface) .chipReset
    return (0, { s with protocol := reset s.protocol })
  | .unknown => pure (Errno.einval.toInt, s)
  | .badMagic => pure (Errno.enotty.toInt, s)

/-- One call. A write may go on for ever, with a card that never comes to an end. -/
def Call.run (turns fuel : Nat) : Call → Star → Prog iface (Option Star)
  | .devOpen, s => do return some (← starDevOpen s).2
  | .devClose, s => do return some (← starDevClose s).2
  | .devWrite buf, s => do return (← starDevWrite turns fuel s buf).map (·.2)
  | .devRead count, s => do return some (← starDevRead s count).2
  | .devIoctl cmd, s => do return some (← starDevIoctl s cmd).2

/-- A run of the device. -/
def session (turns fuel : Nat) : List Call → Star → Prog iface (Option Star)
  | [], s => pure (some s)
  | call :: calls, s => do
    match ← call.run turns fuel s with
    | none => return none
    | some s => session turns fuel calls s

end Gts9Wifi.Snvm
