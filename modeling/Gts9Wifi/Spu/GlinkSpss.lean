import Gts9Wifi.Lib.Bytes

/-!
# The pipes to the secure processor

`qcom_glink_spss.c`. Each direction is a FIFO in shared memory with two 32-bit indices: the side that
writes moves the head, the side that reads moves the tail. The G-Link core, which is the kernel's, asks
for what is available and keeps to it. A copy that would leave the FIFO has no result. The barrier
before the head is published, the byte order, the mailbox and the probing are left out.
-/

namespace Gts9Wifi.Spu

open Driver

def fifoFullReserve : Nat := 8
def txBlockedCmdReserve : Nat := 8

/-- `SPSS_TX_FIFO_SIZE` and `SPSS_RX_FIFO_SIZE`. -/
def spssFifoSize : Nat := 2048

/-- `struct glink_spss_pipe` with what its pointers point to. `native.length` is the FIFO's size. -/
structure Pipe where
  fifo : Bytes
  head : Nat
  tail : Nat
deriving DecidableEq

abbrev Pipe.length (pipe : Pipe) : Nat := pipe.fifo.length

/-- A difference of `size_t`. -/
def sizeSub (a b : Nat) : Nat := if b ≤ a then a - b else 2 ^ 64 - (b - a)

/-- An index brought back into the FIFO, once. -/
def Pipe.wrap (pipe : Pipe) (i : Nat) : Nat := if i ≥ pipe.length then i - pipe.length else i

/-- `memcpy_fromio` out of the FIFO, if there is something to copy. -/
def Pipe.copyOut (pipe : Pipe) (off n : Nat) : Option Bytes :=
  if n = 0 then some []
  else if off + n ≤ pipe.length then some (slice pipe.fifo off n) else none

/-- `memcpy` into the FIFO, if there is something to copy. -/
def Pipe.copyIn (pipe : Pipe) (off : Nat) (data : Bytes) : Option Pipe :=
  if data.length = 0 then some pipe
  else if off + data.length ≤ pipe.length then some { pipe with fifo := overwrite pipe.fifo off data }
  else none

/-! ## Reading -/

/-- `glink_spss_rx_avail`. -/
def glinkSpssRxAvail (pipe : Pipe) : Nat :=
  if pipe.head < pipe.tail then (sizeSub pipe.length pipe.tail + pipe.head) % 2 ^ 64
  else pipe.head - pipe.tail

/-- `glink_spss_rx_peak`. -/
def glinkSpssRxPeak (pipe : Pipe) (offset count : Nat) : Option Bytes := do
  let tail := pipe.wrap ((pipe.tail + offset) % 2 ^ 32)
  let len := min count (sizeSub pipe.length tail)
  let first ← pipe.copyOut tail len
  let rest ← pipe.copyOut 0 (count - len)
  return first ++ rest

/-- `glink_spss_rx_advance`. -/
def glinkSpssRxAdvance (pipe : Pipe) (count : Nat) : Pipe :=
  { pipe with tail := pipe.wrap ((pipe.tail + count) % 2 ^ 32) }

/-! ## Writing -/

/-- `glink_spss_tx_avail`. -/
def glinkSpssTxAvail (pipe : Pipe) : Nat :=
  let avail :=
    if pipe.tail ≤ pipe.head then (sizeSub pipe.length pipe.head + pipe.tail) % 2 ^ 32
    else pipe.tail - pipe.head
  if avail < fifoFullReserve + txBlockedCmdReserve then 0
  else avail - (fifoFullReserve + txBlockedCmdReserve)

/-- `glink_spss_tx_write_one`, with the head it returns. -/
def glinkSpssTxWriteOne (pipe : Pipe) (head : Nat) (data : Bytes) : Option (Pipe × Nat) := do
  let len := min data.length (sizeSub pipe.length head)
  let pipe ← pipe.copyIn head (data.take len)
  let pipe ← pipe.copyIn 0 (data.drop len)
  return (pipe, pipe.wrap ((head + data.length) % 2 ^ 32))

/-- `ALIGN(head, 8)`. -/
def align8 (head : Nat) : Nat := (head + 7) % 2 ^ 32 / 8 * 8

/-- The end of `glink_spss_tx_write`. -/
def publish (pipe : Pipe) (head : Nat) : Pipe := { pipe with head := pipe.wrap (align8 head) }

/-- `glink_spss_tx_write`. -/
def glinkSpssTxWrite (pipe : Pipe) (hdr data : Bytes) : Option Pipe := do
  let (pipe, head) ← glinkSpssTxWriteOne pipe pipe.head hdr
  let (pipe, head) ← glinkSpssTxWriteOne pipe head data
  return publish pipe head

/-- A pipe that both sides have set to its start. -/
def Pipe.reset (fifo : Bytes) : Pipe := ⟨fifo, 0, 0⟩

/-! ## Both ends of a pipe -/

/-- How far `glink_spss_tx_write` has got, with what it writes and its `head`. -/
inductive Writer
  | idle
  | entered (hdr data : Bytes) (head : Nat)
  | headed (hdr data : Bytes) (head : Nat)
  | filled (hdr data : Bytes) (head : Nat)
deriving DecidableEq

/-- A pipe with the side that writes and the side that reads. `frames` are the writes that have been
published, `consumed` counts the bytes that were passed over, and `peeked` keeps what was read, with
its place among all bytes. `notified` says that a `READ_NOTIF` has been sent for a wait that is not
over, as the core keeps track of it in `sent_read_notify`. -/
structure Link where
  pipe : Pipe
  writer : Writer := .idle
  notified : Bool := false
  frames : List (Bytes × Bytes) := []
  consumed : Nat := 0
  peeked : List (Nat × Bytes) := []

inductive Act
  /-- A write for which there is room. -/
  | enter (hdr data : Bytes)
  /-- A `READ_NOTIF` of a writer that waits, which nobody makes room for. -/
  | notify (hdr : Bytes)
  /-- The writer goes on. -/
  | proceed
  | peek (offset count : Nat)
  | advance (count : Nat)

/-- One step, if it can be taken. The core takes a lock for its writes, asks for room before each of
them but a `READ_NOTIF`, of which it sends one for each wait, and reads no more than is available. -/
def Link.step (link : Link) : Act → Option Link
  | .enter hdr data =>
    if link.writer = .idle ∧ hdr ≠ [] ∧ hdr.length + data.length ≤ glinkSpssTxAvail link.pipe then
      some { link with writer := .entered hdr data link.pipe.head, notified := false }
    else some link
  | .notify hdr =>
    if link.writer = .idle ∧ hdr.length = txBlockedCmdReserve ∧ link.notified = false then
      some { link with writer := .entered hdr [] link.pipe.head, notified := true }
    else some link
  | .proceed =>
    match link.writer with
    | .idle => some link
    | .entered hdr data head => do
      let (pipe, head) ← glinkSpssTxWriteOne link.pipe head hdr
      return { link with pipe, writer := .headed hdr data head }
    | .headed hdr data head => do
      let (pipe, head) ← glinkSpssTxWriteOne link.pipe head data
      return { link with pipe, writer := .filled hdr data head }
    | .filled hdr data head =>
      some { link with
        pipe := publish link.pipe head, writer := .idle, frames := link.frames ++ [(hdr, data)] }
  | .peek offset count =>
    if offset + count ≤ glinkSpssRxAvail link.pipe then do
      let data ← glinkSpssRxPeak link.pipe offset count
      return { link with peeked := link.peeked ++ [(link.consumed + offset, data)] }
    else some link
  | .advance count =>
    if count ≤ glinkSpssRxAvail link.pipe then
      some { link with
        pipe := glinkSpssRxAdvance link.pipe count, consumed := link.consumed + count }
    else some link

def Link.run : Link → List Act → Option Link
  | link, [] => some link
  | link, act :: acts => (link.step act).bind fun link => link.run acts

/-- A pipe after both sides have been probed. -/
def Link.probed (fifo : Bytes) : Link := { pipe := .reset fifo }

end Gts9Wifi.Spu
