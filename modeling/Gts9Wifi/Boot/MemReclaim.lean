import Gts9Wifi.Boot.BtProvision

/-!
# Reclaiming reserved memory

`gts9wifi-mem-reclaim` on the bytes of the two partitions. `fdtget` and `fdtput` are external: what
they answer and leave behind stands here as a parameter, and it may be different each time a blob is
handed to them. The wait for the partitions to appear is left out, and so is the temporary file, whose
contents are passed along instead.
-/

namespace Gts9Wifi.Boot.MemReclaim

open Driver

/-! ## Constants -/

def reserved : String := "/reserved-memory"

/-- The regions to drop. -/
def regions : List String :=
  ["mpss-region@8a800000", "mpss-dsm-region@d4d00000", "q6-mpss-dtb-region@9b000000",
    "rmtfs-region@d4a80000", "ipa-fw-region@9b080000", "ipa-gsi-region@9b090000",
    "spu-modem-shared-region@9b2e0000", "sec-qcom-rdx@880c00000", "sec-debug-bl@880400000",
    "sec-xbl-ramdump@a7d00000", "sec-pmsg@880900000", "sec-debug-pool@880100000",
    "sec-reset-info@8801ff000", "google-debug-kinfo@880b00000", "hdm@880b01000",
    "cdsp-secure-heap-region@82800000", "cdsp-region@9c900000", "q6-cdsp-dtb-region@9e900000",
    "splash_region", "camera-region@9b300000", "cvp-region@9c200000",
    "trust-ui-vm-region@f3600000", "trust-ui-vm-swiotlb-region@f8100000",
    "trust-ui-vm-dump-region@f80ee000", "trust-ui-vm-qrt-region@f80ef000",
    "trust-ui-vm-vblk0-ring-region@f80f8000", "trust-ui-vm-vblk1-ring-region@f80fc000",
    "oem-vm-region@f8400000", "oem-vm-swiotlb-region@fcc04000", "oem-vm-vblk0-ring-region@fcc00000"]

/-- The properties that are left dangling once the regions are gone. -/
def dangling : List (String × String) :=
  [("/soc@0/remoteproc@4080000", "memory-region"), ("/soc@0/remoteproc@32300000", "memory-region")]

/-! ## Patching a blob -/

/-- The tools on a file with these contents: `fdtget -l`, whether `fdtget` finds a property,
`fdtput -r` and `fdtput -d`. -/
structure Fdt where
  list : Bytes → String → Option (List String)
  hasProp : Bytes → String → String → Bool
  removeNode : Bytes → String → Option Bytes
  removeProp : Bytes → String → String → Option Bytes

def fdtNodes (fdt : Fdt) (dtb : Bytes) (node : String) : List String := (fdt.list dtb node).getD []

/-- The regions that are present, and the properties. -/
def victims (fdt : Fdt) (dtb : Bytes) : List String :=
  regions.filter fun r => (fdtNodes fdt dtb reserved).contains r
def stale (fdt : Fdt) (dtb : Bytes) : List (String × String) :=
  dangling.filter fun x => fdt.hasProp dtb x.1 x.2

/-- What the tools make of the file. -/
def edited (fdt : Fdt) (dtb : Bytes) : Option Bytes := do
  let dtb' ← (victims fdt dtb).foldlM (fun b name => fdt.removeNode b (reserved ++ "/" ++ name)) dtb
  (stale fdt dtb).foldlM (fun b x => fdt.removeProp b x.1 x.2) dtb'

/-- `struct.pack_into('>I', out, 4, n)`. -/
def packTotal (out : Bytes) (n : Nat) : Except Exit Bytes :=
  if 8 ≤ out.length ∧ n < 2 ^ 32 then return overwrite out 4 (packBe32 n) else throw .structError

/-- The reclaimed blob padded to the length it had, or nothing if there is nothing to reclaim. -/
def patchDtb (fdt : Fdt) (dtb : Bytes) : Except Exit (Option Bytes) := do
  if (victims fdt dtb).isEmpty && (stale fdt dtb).isEmpty then
    return none
  else
    match edited fdt dtb with
    | none => throw .toolFailed
    | some out =>
      if out.length > dtb.length then
        throw .dtbGrew
      else
        return some (← packTotal (out ++ List.replicate (dtb.length - out.length) 0) dtb.length)

/-! ## Finding blobs -/

/-- The search of `appended_dtbs` from `stop` down. -/
def appendedDtbsBelow (kernel : Bytes) (stop : Nat) : Except Exit (List (Nat × Nat)) :=
  match h : rfind kernel fdtMagic stop with
  | none => return []
  | some off => do
    let total ← unpackBe32 kernel (off + 4)
    let rest ← appendedDtbsBelow kernel off
    return if 8 ≤ total ∧ total ≤ kernel.length - off then (off, total) :: rest else rest
termination_by stop
decreasing_by exact rfind_lt h (by decide)

/-- Offsets and lengths of the FDT blobs of a kernel section, the last one first. -/
def appendedDtbs (kernel : Bytes) : Except Exit (List (Nat × Nat)) :=
  appendedDtbsBelow kernel kernel.length

/-! ## The partitions -/

/-- What the script prints. -/
inductive Notice
  | notAndroid
  | noAppendedDtb
  | alreadyReclaimed
  | reclaimed
  | stillPending
deriving DecidableEq

def Notice.message : Notice → String
  | .notAndroid => "boot: not an ANDROID! image, skipped"
  | .noAppendedDtb => "boot: no appended DTB, skipped"
  | .alreadyReclaimed => "boot: appended DTB already reclaimed"
  | .reclaimed => "reserved-memory reclaimed in the boot DTBs; reboot to apply"
  | .stillPending => "boot DTBs already reclaimed; reboot still pending"

/-- What a function returns, and what it has printed. -/
structure Report where
  changed : Bool
  printed : List Notice
deriving DecidableEq

/-- The loop of `reclaim_boot`: the first blob with something to reclaim is written back, and the
others are left for another run. -/
def reclaimFirst (fdt : Nat → Fdt) (kernel : Bytes) : List (Nat × Nat) → PartM Bool
  | [] => return false
  | (off, total) :: rest => do
    match ← patchDtb (fdt off) (slice kernel off total) with
    | none => reclaimFirst fdt kernel rest
    | some dtb =>
      if dtb.length ≠ total then
        throw .bootEnvelope
      writeAt (page + off) dtb
      return true

/-- `reclaim_boot`. The blob at offset `off` of the kernel section is handed to the tools `fdt off`. -/
def reclaimBoot (fdt : Nat → Fdt) : PartM Report := do
  let head ← readAt 0 page
  if head.take 8 ≠ android then
    return ⟨false, [.notAndroid]⟩
  else
    let ksize ← unpackLe32 head 8
    let kernel ← readAt page ksize
    let candidates ← appendedDtbs kernel
    if ← reclaimFirst fdt kernel candidates then
      return ⟨true, []⟩
    else
      return ⟨false, [if candidates.isEmpty then .noAppendedDtb else .alreadyReclaimed]⟩

def reclaimVendorBoot (fdt : Fdt) : PartM Bool := do
  let head ← readAt 0 page
  if head.take 8 ≠ vndrboot then
    throw .badMagic
  let vrsize ← unpackLe32 head 24
  let hsize ← unpackLe32 head 2096
  let dtbSize ← unpackLe32 head 2100
  let dtbOff := pageAlign hsize + pageAlign vrsize
  let old ← readAt dtbOff dtbSize
  if old.take 4 ≠ fdtMagic then
    throw (.noDtb dtbOff)
  match ← patchDtb fdt old with
  | none => return false
  | some dtb =>
    if dtb.length ≠ dtbSize then
      throw .vendorBootEnvelope
    writeAt dtbOff dtb
    return true

/-- What the script finds on the machine: whether it is root, the tools for the blob of `vendor_boot`
and for those of `boot`, and whether the running kernel's tree has been reclaimed. -/
structure Env where
  root : Bool
  vendorBootFdt : Fdt
  bootFdt : Nat → Fdt
  liveReclaimed : Bool

def main (env : Env) : DiskM Report := do
  if !env.root then
    throw .notRoot
  let vendorBoot ← onVendorBoot (reclaimVendorBoot env.vendorBootFdt)
  let boot ← onBoot (reclaimBoot env.bootFdt)
  let changed := vendorBoot || boot.changed
  let last := if changed then [.reclaimed] else if env.liveReclaimed then [] else [.stillPending]
  return ⟨changed, boot.printed ++ last⟩

end Gts9Wifi.Boot.MemReclaim
