import Gts9Wifi.Lib.Kernel
import Gts9Wifi.Lib.Ring

/-!
# The persistent console

`samsung-gts9wifi-sec-log.c`: the ring that the bootloader and the recovery share, with its header. A
flexible array member ends the header, so `data` is the rest of the reservation and its length is
`data_size`. The node's other properties and the line that the probe prints are left out.
-/

namespace Gts9Wifi.SecLog

open Driver

/-- `SEC_LOG_MAGIC`. -/
def secLogMagic : UInt32 := 0x4d474f4c

/-- `sizeof(struct sec_log_header)`. -/
def headerSize : Nat := 16

structure SecLogHeader where
  bootCount : UInt32
  magic : UInt32
  index : UInt32
  previousIndex : UInt32
  data : Bytes

/-- A piece of the console's text. Its length is an `unsigned int`. -/
structure Text where
  bytes : Bytes
  fits : bytes.length < 2 ^ 32

def Text.count (t : Text) : UInt32 := UInt32.ofNat t.bytes.length

/-- `gts9wifi_sec_log_write` once the log is there. -/
def SecLogHeader.write (log : SecLogHeader) (text : Text) : SecLogHeader :=
  let dataSize := log.data.length
  if text.count = 0 ∨ dataSize = 0 then log
  else
    let bytes := text.bytes.drop (text.bytes.length - dataSize)
    let index := log.index + UInt32.ofNat bytes.length
    { log with
      data := ringPut log.data (log.index.toNat % dataSize) bytes
      index := index
      previousIndex := index }

/-- `gts9wifi_sec_log_write`. There is no log before the probe and after the removal. -/
def write (secLog : Option SecLogHeader) (text : Text) : Option SecLogHeader :=
  secLog.map (·.write text)

/-- The reserved memory, and what stands there. -/
structure ReservedMem where
  size : Nat
  memory : SecLogHeader
  covers : memory.data.length = size - headerSize

/-- What the phandle leads to. -/
inductive MemoryRegion
  | missing
  | notReserved
  | reserved (r : ReservedMem)

/-- What the probe makes of the header it finds. -/
def SecLogHeader.start (log : SecLogHeader) : SecLogHeader :=
  let bootCount := if log.magic = secLogMagic then log.bootCount else 0
  { log with
    bootCount := bootCount + 1
    magic := secLogMagic
    previousIndex := log.index
    index := 0 }

/-- `gts9wifi_sec_log_probe`. A failure has a message, unless it is the allocation's. -/
def probe (region : MemoryRegion) (allocated : Bool) (unmapped : Option Errno) :
    Except (Errno × Option String) SecLogHeader :=
  match region with
  | .missing => throw (.einval, some "missing memory-region\n")
  | .notReserved => throw (.einval, some "invalid sec_log_buf reservation\n")
  | .reserved r =>
    if r.size ≤ headerSize then throw (.einval, some "invalid sec_log_buf reservation\n")
    else if !allocated then throw (.enomem, none)
    else match unmapped with
      | some e => throw (e, some "cannot map sec_log_buf\n")
      | none => return r.memory.start

end Gts9Wifi.SecLog
