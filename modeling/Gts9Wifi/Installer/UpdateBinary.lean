import Mathlib.Logic.Function.Basic
import Gts9Wifi.Lib.Fallible
import Gts9Wifi.Installer.MakeTwrpZip

/-!
# The installer

`mainline-update-binary` with the recovery it runs in: the checks, and one pipeline of `unzip` and
`dd` for each image. Both processes may fail after any number of bytes, but the status of a pipeline
is that of `dd`. Lines that are only shown to the user are left out, except for the reason of an
abort.
-/

namespace Gts9Wifi.Installer

open Driver

structure BlockDev where
  contents : Bytes
  readOnly : Bool

/-- The block devices by path. -/
abbrev Devs := String → Option BlockDev

/-- How a process ended that passes bytes on. It may fail after some of them. -/
inductive Stage
  | done
  | failed (after : Nat)
deriving DecidableEq

def Stage.pass : Stage → Bytes → Bytes
  | .done, b => b
  | .failed after, b => b.take after

/-- The two processes that write an image. -/
structure Pipeline where
  unzip : Stage
  dd : Stage

/-- What the script finds in the recovery, and how the processes it starts end. -/
structure Recovery where
  codename : String
  emModel : String
  bootloader : String
  slot : String
  zipPath : String
  zip : Zip
  sizeFails : String → Bool
  getroFails : Bool
  readFlags : Stage
  pipeline : Image → Pipeline

inductive Abort
  | wrongDevice (codename : String)
  | wrongModel (emModel : String)
  | unidentified
  | missingPartition (i : Image)
  | sizeMismatch (i : Image)
  | zipMissing (i : Image)
  | overlay
  | vbmetaLocked
  | disappeared (i : Image)
  | writeFailed (i : Image)
deriving DecidableEq

def Abort.message : Abort → String
  | .wrongDevice codename => "Expected gts9/gts9wifi; got '" ++ codename ++ "'"
  | .wrongModel emModel => "Expected SM-X710; got '" ++ emModel ++ "'"
  | .unidentified => "Cannot positively identify SM-X710"
  | .missingPartition i => "Missing partition " ++ i.part
  | .sizeMismatch i => i.part ++ " size mismatch"
  | .zipMissing i => "ZIP is missing " ++ i.file
  | .overlay => "This ZIP carries a microSD rootfs overlay; that layout is gone. " ++
    "Flash the boot bundle without an overlay and dd the userdata rootfs image."
  | .vbmetaLocked => "vbmeta is read-only and does not have AVB flags 2"
  | .disappeared i => "partition disappeared: " ++ i.part
  | .writeFailed i => "failed to write " ++ i.part

/-! ## The checks -/

/-- `BB`. -/
def blockByName : String := "/dev/block/by-name"

def partPath (part slot : String) : String := blockByName ++ "/" ++ part ++ slot

/-- `resolve_part`. -/
def resolvePart (r : Recovery) (devs : Devs) (i : Image) : Option String :=
  if r.slot ≠ "" ∧ (devs (partPath i.part r.slot)).isSome then some (partPath i.part r.slot)
  else if (devs (partPath i.part "")).isSome then some (partPath i.part "")
  else none

/-- `blkdev_size`. It is zero where `blockdev` fails. -/
def blkdevSize (r : Recovery) (devs : Devs) (i : Image) : Nat :=
  match resolvePart r devs i with
  | none => 0
  | some path => if r.sizeFails path then 0 else ((devs path).map (·.contents.length)).getD 0

/-- The size that each partition is expected to have. -/
def partSize : Image → Nat
  | .boot => 100663296
  | .initBoot => 8388608
  | .vendorBoot => 100663296
  | .dtbo => 16777216
  | .vbmeta => 131072

def require (c : Prop) [Decidable c] (e : Abort) : Except Abort Unit := if c then return else throw e

def identify (r : Recovery) : Except Abort Unit := do
  require (r.codename = "gts9" ∨ r.codename = "gts9wifi") (.wrongDevice r.codename)
  require (r.emModel = "" ∨ r.emModel = "SM-X710") (.wrongModel r.emModel)
  require (r.emModel ≠ "" ∨ "X710".toList <+: r.bootloader.toList) .unidentified

/-- The archive's own name is part of the listing. -/
def listed (r : Recovery) (text : String) : Prop :=
  ∃ name ∈ r.zipPath :: r.zip.map Prod.fst, text.toList <:+: name.toList

instance (r : Recovery) (text : String) : Decidable (listed r text) :=
  inferInstanceAs (Decidable (∃ name ∈ _, _))

/-- The digits that `od` and `tr` leave of some bytes. -/
def odText (b : Bytes) : List Char :=
  b.flatMap fun x => [x.toNat / 16, x.toNat % 16].map fun d => Char.ofNat (if d < 10 then 48 + d else 87 + d)

/-- Where vbmeta is to be written, nowhere if it is kept. Without the partition the flags cannot be
read either. -/
def vbmetaTarget (r : Recovery) (devs : Devs) : Except Abort (Option String) :=
  match resolvePart r devs .vbmeta with
  | none => throw .vbmetaLocked
  | some target =>
    let dev := (devs target).getD ⟨[], true⟩
    if r.getroFails || dev.readOnly then do
      require (odText (r.readFlags.pass (slice dev.contents 120 4)) = "00000002".toList) .vbmetaLocked
      return none
    else return some target

/-- Everything before the first write. -/
def checks (r : Recovery) (devs : Devs) : Except Abort (Option String) := do
  identify r
  Image.all.forM fun i => require ((resolvePart r devs i).isSome) (.missingPartition i)
  Image.all.forM fun i => require (blkdevSize r devs i = partSize i) (.sizeMismatch i)
  Image.all.forM fun i => require ((r.zip.lookup i.file).isSome) (.zipMissing i)
  require (¬ listed r "ROOTFS-OVERLAY-SHA256SUMS") .overlay
  vbmetaTarget r devs

/-! ## The writes -/

abbrev Script (α : Type) := ExceptT Abort (StateM Devs) α

/-- `dd` writes what it gets to the device. It fails if there is no room for it. -/
def dd (stage : Stage) (dev : BlockDev) (input : Bytes) : BlockDev × Bool :=
  ({ dev with contents := overwrite dev.contents 0 ((stage.pass input).take dev.contents.length) },
    stage = .done ∧ input.length ≤ dev.contents.length)

/-- The pipeline for an image. Only the second status is seen. -/
def writeImage (r : Recovery) (i : Image) (target : String) : Script Unit := do
  let devs ← get
  match devs target with
  | none => throw (.writeFailed i)
  | some dev =>
    let (dev', ok) :=
      dd (r.pipeline i).dd dev ((r.pipeline i).unzip.pass ((r.zip.lookup i.file).getD []))
    set (Function.update devs target (some dev'))
    if ok then return else throw (.writeFailed i)

/-- One round of the loop. -/
def writePart (r : Recovery) (i : Image) : Script Unit := do
  match resolvePart r (← get) i with
  | none => throw (.disappeared i)
  | some target => writeImage r i target

/-- The script. It exits with zero if it gets to its end. -/
def updateBinary (r : Recovery) : Script Unit := do
  let target? ← liftM (checks r (← get))
  [Image.boot, .initBoot, .vendorBoot, .dtbo].forM (writePart r)
  match target? with
  | none => return
  | some target => writeImage r .vbmeta target

end Gts9Wifi.Installer
