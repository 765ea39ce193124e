import Gts9Wifi.Lib.Bytes
import Gts9Wifi.Lib.Fallible

/-!
# Provisioning the Bluetooth address

`gts9wifi-bt-provision`, on the bytes of the two partitions, from the moment the address has been
read from EFS. `fdtget` and `fdtput` are external and stand here as parameters. A partition cannot
grow: a write beyond its end stores what fits and fails.
-/

namespace Gts9Wifi.Boot

open Driver

/-! ## Constants -/

def page : Nat := 4096

def pageAlign (n : Nat) : Nat := (n + page - 1) / page * page

/-- `d00dfeed`. -/
def fdtMagic : Bytes := [0xd0, 0x0d, 0xfe, 0xed]

/-- `ANDROID!`. -/
def android : Bytes := [0x41, 0x4e, 0x44, 0x52, 0x4f, 0x49, 0x44, 0x21]

/-- `VNDRBOOT`. -/
def vndrboot : Bytes := [0x56, 0x4e, 0x44, 0x52, 0x42, 0x4f, 0x4f, 0x54]

/-! ## Ways to end -/

/-- How the two scripts that patch the boot images end early: their own exits, and the exceptions of
what they call. -/
inductive Exit
  | badMagic
  | noDtb (off : Nat)
  | doesNotFit
  | bootBadMagic
  | noAppendedDtb
  | bootDoesNotFit
  | notRoot
  | dtbGrew
  | bootEnvelope
  | vendorBootEnvelope
  | structError
  | toolFailed
  | noSpace
deriving DecidableEq

/-- The text of the scripts' own exits. -/
def Exit.message : Exit → Option String
  | .badMagic => some "vendor_boot: bad magic"
  | .noDtb off => some ("vendor_boot: no dtb at " ++ toString off)
  | .doesNotFit => some "vendor_boot: patched dtb does not fit its envelope"
  | .bootBadMagic => some "boot: bad magic"
  | .noAppendedDtb => some "boot: no appended dtb"
  | .bootDoesNotFit => some "boot: patched dtb does not fit the partition"
  | .notRoot => some "must run as root"
  | .dtbGrew => some "reclaimed dtb grew, refusing to write"
  | .bootEnvelope => some "boot: dtb envelope changed, refusing to write"
  | .vendorBootEnvelope => some "vendor_boot: dtb envelope changed, refusing to write"
  | _ => none

/-! ## The partition -/

/-- Code that works on one open partition. What it has written stays when it fails. -/
abbrev PartM (α : Type) := ExceptT Exit (StateM Bytes) α

def readAt (off len : Nat) : PartM Bytes := do return slice (← get) off len

def writeAt (off : Nat) (data : Bytes) : PartM Unit := do
  let part ← get
  if off + data.length ≤ part.length then
    set (overwrite part off data)
  else
    set (overwrite part off (data.take (part.length - off)))
    throw .noSpace

def unpackLe32 (b : Bytes) (off : Nat) : PartM Nat :=
  if off + 4 ≤ b.length then return le32 b off else throw .structError

def packIntoLe32 (b : Bytes) (off n : Nat) : PartM Bytes :=
  if off + 4 ≤ b.length ∧ n < 2 ^ 32 then return overwrite b off (packLe32 n)
  else throw .structError

/-- `struct.unpack_from('>I', b, off)[0]`. -/
def unpackBe32 (b : Bytes) (off : Nat) : Except Exit Nat :=
  if off + 4 ≤ b.length then return readBe32 b off else throw .structError

/-- The two partitions the scripts patch. -/
structure Disk where
  boot : Bytes
  vendorBoot : Bytes

/-- Code that works on both partitions. -/
abbrev DiskM (α : Type) := ExceptT Exit (StateM Disk) α

/-- Code that opens the one partition or the other. -/
def onBoot {α : Type} (p : PartM α) : DiskM α := zoom Disk.boot (fun d b => { d with boot := b }) p
def onVendorBoot {α : Type} (p : PartM α) : DiskM α :=
  zoom Disk.vendorBoot (fun d b => { d with vendorBoot := b }) p

/-! ## The functions -/

/-- `fdtget` and `fdtput` on the address property: the bytes the one prints, if it succeeds, and the
tree the other writes back. -/
structure Fdt where
  get : Bytes → Option Bytes
  put : Bytes → Bytes → Option Bytes

def patchDtb (fdt : Fdt) (dtb bdaddr : Bytes) : PartM (Option Bytes) :=
  if fdt.get dtb = some bdaddr then return none
  else
    match fdt.put dtb bdaddr with
    | some blob => return some blob
    | none => throw .toolFailed

/-- The search of `provision_boot` from `stop` down, for an FDT header whose size reaches to the end of
the kernel section. -/
def appendedDtb (kernel : Bytes) (ksize stop : Nat) : Except Exit Nat :=
  match h : rfind kernel fdtMagic stop with
  | none => throw .noAppendedDtb
  | some off => do
    let total ← unpackBe32 kernel (off + 4)
    if off + total = ksize then
      return off
    else
      appendedDtb kernel ksize off
termination_by stop
decreasing_by exact rfind_lt h (by decide)

/-- `provision_boot` up to where it knows its blob: the header page, the kernel section, and the
offset in it from which on the blob is taken. -/
def locateBoot : PartM (Bytes × Bytes × Nat) := do
  let head ← readAt 0 page
  if head.take 8 ≠ android then
    throw .bootBadMagic
  let ksize ← unpackLe32 head 8
  let kernel ← readAt page ksize
  let off ← appendedDtb kernel ksize ksize
  return (head, kernel, off)

/-- What the file object of a partition keeps of its last read: the bytes from `start` to `stop`. How
many these are is up to the buffer, whose size the device and the interpreter choose. -/
structure ReadAhead where
  start : Nat
  stop : Nat

/-- Where the write after a `seek` to `off` ends up once `os.lseek` has moved the descriptor to the end
of the partition. A `seek` beyond what is kept moves the descriptor. One within it moves the object
only, and the write stands as far before the end as it should before `stop`. -/
def ReadAhead.lands (ahead : ReadAhead) (size off : Nat) : Nat :=
  if ahead.start ≤ off ∧ off ≤ ahead.stop then size - (ahead.stop - off) else off

def provisionBoot (fdt : Fdt) (ahead : ReadAhead) (bdaddr : Bytes) : PartM Bool := do
  let (head, kernel, off) ← locateBoot
  match ← patchDtb fdt (kernel.drop off) bdaddr with
  | none => return false
  | some dtb =>
    let size := (← get).length
    if page + off + dtb.length > size - page then
      throw .bootDoesNotFit
    writeAt (ahead.lands size (page + off)) dtb
    let head ← packIntoLe32 head 8 (off + dtb.length)
    writeAt 0 head
    return true

def provisionVendorBoot (fdt : Fdt) (bdaddr : Bytes) : PartM Bool := do
  let head ← readAt 0 page
  if head.take 8 ≠ vndrboot then
    throw .badMagic
  let vrsize ← unpackLe32 head 24
  let hsize ← unpackLe32 head 2096
  let dtbSize ← unpackLe32 head 2100
  let dtbOff := pageAlign hsize + pageAlign vrsize
  -- the ramdisk table and bootconfig sit right after the dtb pages
  let envelope := pageAlign dtbSize
  let old ← readAt dtbOff dtbSize
  if old.take 4 ≠ fdtMagic then
    throw (.noDtb dtbOff)
  match ← patchDtb fdt old bdaddr with
  | none => return false
  | some dtb =>
    if dtb.length > envelope then
      throw .doesNotFit
    writeAt dtbOff (dtb ++ List.replicate (envelope - dtb.length) 0)
    let head ← packIntoLe32 head 2100 dtb.length
    writeAt 0 head
    return true

/-- `main`, as root and with the address of EFS. Returns whether anything changed. -/
def provision (fdt : Fdt) (ahead : ReadAhead) (bdaddr : Bytes) : DiskM Bool := do
  let boot ← onBoot (provisionBoot fdt ahead bdaddr)
  let vendorBoot ← onVendorBoot (provisionVendorBoot fdt bdaddr)
  return boot || vendorBoot

end Gts9Wifi.Boot
