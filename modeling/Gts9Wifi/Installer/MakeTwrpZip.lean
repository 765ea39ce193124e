import Gts9Wifi.Lib.Bytes

/-!
# Packing the bundle

`make-twrp-zip.py`: the checks on the five images, the manifest, and the archive with its entries in
order. SHA-256 is a parameter. Compression, dates and modes of the entries do not show in what is read
back, and the line that is printed at the end is left out.
-/

namespace Gts9Wifi.Installer

open Driver

/-- The images of a bundle, in the order of `IMAGES`. -/
inductive Image
  | boot
  | initBoot
  | vendorBoot
  | dtbo
  | vbmeta
deriving DecidableEq

namespace Image

def all : List Image := [.boot, .initBoot, .vendorBoot, .dtbo, .vbmeta]

/-- The partition that the image is for. -/
def part : Image → String
  | .boot => "boot"
  | .initBoot => "init_boot"
  | .vendorBoot => "vendor_boot"
  | .dtbo => "dtbo"
  | .vbmeta => "vbmeta"

def file (i : Image) : String := i.part ++ ".img"

/-- `IMAGES`. -/
def size : Image → Nat
  | .boot => 100663296
  | .initBoot => 8388608
  | .vendorBoot => 100663296
  | .dtbo => 16777216
  | .vbmeta => 131072

theorem mem_all (i : Image) : i ∈ all := by cases i <;> decide

end Image

/-- The archive as its entries in order. -/
abbrev Zip := List (String × Bytes)

/-- A text as it stands in an entry. -/
def utf8 (s : String) : Bytes := s.toUTF8.data.toList

/-- A regular file of the overlay. -/
structure OverlayFile where
  relative : String
  mode : Nat
  contents : Bytes

/-- What the tool is called with, and finds there. A missing file has no contents, and an overlay that
is not a directory has no files. -/
structure Args where
  bundle : String
  image : Image → Option Bytes
  updateBinary : Option Bytes
  updaterScript : Option Bytes
  rootfsOverlay : Option (String × Option (List OverlayFile))
  label : String

inductive Refusal
  | missing (path : String)
  | wrongSize (name : String) (expected actual : Nat)
  | noInstaller
  | overlayNotDir (path : String)
  | overlayEmpty

def Refusal.message : Refusal → String
  | .missing path => "missing " ++ path
  | .wrongSize name expected actual =>
    name ++ ": expected " ++ toString expected ++ ", got " ++ toString actual
  | .noInstaller => "TWRP installer sources are missing"
  | .overlayNotDir path => "rootfs overlay is not a directory: " ++ path
  | .overlayEmpty => "rootfs overlay contains no regular files"

/-- The loop over `IMAGES`, for one of them. -/
def checkImage (args : Args) (i : Image) : Except Refusal (Image × Bytes) :=
  match args.image i with
  | none => throw (.missing (args.bundle ++ "/" ++ i.file))
  | some b => if b.length = i.size then return (i, b) else throw (.wrongSize i.file i.size b.length)

/-- `f"{mode:04o}"`. -/
def octal4 (mode : Nat) : String :=
  String.ofList ([512, 64, 8, 1].map fun d => Char.ofNat (48 + mode / d % 8))

def manifestLine (digest : Bytes → String) (x : Image × Bytes) : String :=
  digest x.2 ++ "  " ++ x.1.file ++ "\n"

def overlayLine (digest : Bytes → String) (f : OverlayFile) : String :=
  digest f.contents ++ " " ++ octal4 f.mode ++ " " ++ f.relative ++ "\n"

/-- The files of the overlay, none if it was not asked for. -/
def overlayFiles (args : Args) : Except Refusal (List OverlayFile) :=
  match args.rootfsOverlay with
  | none => return []
  | some (path, none) => throw (.overlayNotDir path)
  | some (_, some []) => throw .overlayEmpty
  | some (_, some files) => return files

def imageEntry (x : Image × Bytes) : String × Bytes := (x.1.file, x.2)

/-- `main`, up to the archive. -/
def makeTwrpZip (digest : Bytes → String) (args : Args) : Except Refusal Zip := do
  let images ← Image.all.mapM (checkImage args)
  match args.updateBinary, args.updaterScript with
  | some binary, some script =>
    let files ← overlayFiles args
    let overlay := files.map fun f => ("rootfs-overlay/" ++ f.relative, f.contents)
    let overlaySums :=
      if files.isEmpty then []
      else [("ROOTFS-OVERLAY-SHA256SUMS", utf8 (String.join (files.map (overlayLine digest))))]
    return images.map imageEntry ++
      [("META-INF/com/google/android/update-binary", binary),
        ("META-INF/com/google/android/updater-script", script),
        ("BUNDLE-LABEL", utf8 (args.label ++ "\n")),
        ("SHA256SUMS", utf8 (String.join (images.map (manifestLine digest))))] ++
      overlay ++ overlaySums
  | _, _ => throw .noInstaller

end Gts9Wifi.Installer
