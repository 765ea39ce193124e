import Gts9Wifi.Boot.BtProvision

/-!
# The layout of the boot images

A version 4 vendor_boot image with 4096-byte pages: the header, the vendor ramdisk, the dtb, the
ramdisk table and the bootconfig, each starting on the page after the last one ends. A reader finds
every section from the sizes in the header alone. Of a boot image only the header and the kernel
section that follows it matter here.
-/

namespace Gts9Wifi.Boot

open Driver

/-! ## Sizes and offsets -/

def vendorRamdiskSize (img : Bytes) : Nat := le32 img 24
def headerSize (img : Bytes) : Nat := le32 img 2096
def dtbSize (img : Bytes) : Nat := le32 img 2100
def ramdiskTableSize (img : Bytes) : Nat := le32 img 2112
def bootconfigSize (img : Bytes) : Nat := le32 img 2124

def vendorRamdiskOff (img : Bytes) : Nat := pageAlign (headerSize img)
def dtbOff (img : Bytes) : Nat := vendorRamdiskOff img + pageAlign (vendorRamdiskSize img)
def ramdiskTableOff (img : Bytes) : Nat := dtbOff img + pageAlign (dtbSize img)
def bootconfigOff (img : Bytes) : Nat := ramdiskTableOff img + pageAlign (ramdiskTableSize img)

/-! ## Sections -/

def vendorRamdisk (img : Bytes) : Bytes := slice img (vendorRamdiskOff img) (vendorRamdiskSize img)
def dtb (img : Bytes) : Bytes := slice img (dtbOff img) (dtbSize img)
def ramdiskTable (img : Bytes) : Bytes := slice img (ramdiskTableOff img) (ramdiskTableSize img)
def bootconfig (img : Bytes) : Bytes := slice img (bootconfigOff img) (bootconfigSize img)

/-- A version 4 image with a device tree, inside its partition. -/
structure VendorBoot (img : Bytes) : Prop where
  magic : slice img 0 8 = vndrboot
  header : 2128 ≤ headerSize img
  tree : slice (dtb img) 0 4 = fdtMagic
  fits : bootconfigOff img + bootconfigSize img ≤ img.length

/-! ## Alignment -/

theorem le_pageAlign (n : Nat) : n ≤ pageAlign n := by
  unfold pageAlign page
  omega

/-- What fits in whole pages takes no more pages. -/
theorem pageAlign_le_of_le {n m : Nat} (h : n ≤ pageAlign m) : pageAlign n ≤ pageAlign m := by
  unfold pageAlign page at *
  omega

/-! ## Assembling an image -/

/-- A section with the zeros that fill its last page. -/
def padPage (b : Bytes) : Bytes := b ++ List.replicate (pageAlign b.length - b.length) 0

/-- The header page for sections of these sizes, with one entry in the ramdisk table. -/
def headerPage (ramdisk tree table config : Nat) : Bytes :=
  (vndrboot ++ packLe32 4 ++ packLe32 page ++ List.replicate 8 0) ++ (packLe32 ramdisk ++
    (List.replicate 2068 0 ++ (packLe32 2128 ++ (packLe32 tree ++ (List.replicate 8 0 ++
      (packLe32 table ++ ((packLe32 1 ++ packLe32 108) ++ (packLe32 config ++
        List.replicate 1968 0))))))))

/-- The image of four sections. -/
def assemble (ramdisk tree table config : Bytes) : Bytes :=
  headerPage ramdisk.length tree.length table.length config.length ++
    (padPage ramdisk ++ (padPage tree ++ (padPage table ++ config)))

theorem length_padPage (b : Bytes) : (padPage b).length = pageAlign b.length := by
  have hle := le_pageAlign b.length
  unfold padPage
  rw [List.length_append, List.length_replicate]
  omega

theorem padPage_append (b c : Bytes) :
    padPage b ++ c = b ++ (List.replicate (pageAlign b.length - b.length) 0 ++ c) :=
  List.append_assoc _ _ _

theorem length_vndrboot : vndrboot.length = 8 := rfl

theorem length_headerPage (r t b c : Nat) : (headerPage r t b c).length = page := by
  unfold headerPage page
  simp only [List.length_append, List.length_replicate, length_packLe32, length_vndrboot]

section

variable {ramdisk tree table config : Bytes}

/-- The fields of the header are those of its page. -/
theorem le32_assemble {off : Nat} (h : off + 4 ≤ page) :
    le32 (assemble ramdisk tree table config) off =
      le32 (headerPage ramdisk.length tree.length table.length config.length) off := by
  unfold le32 assemble
  rw [slice_append_left (by rw [length_headerPage]; exact h)]

theorem vendorRamdiskSize_assemble (h : ramdisk.length < 2 ^ 32) :
    vendorRamdiskSize (assemble ramdisk tree table config) = ramdisk.length := by
  unfold vendorRamdiskSize
  rw [le32_assemble (by decide)]
  exact le32_append_middle (by decide) h

theorem headerSize_assemble : headerSize (assemble ramdisk tree table config) = 2128 := by
  unfold headerSize
  rw [le32_assemble (by decide)]
  unfold headerPage
  rw [← List.append_assoc, ← List.append_assoc]
  refine le32_append_middle ?_ (by decide)
  simp only [List.length_append, List.length_replicate, length_packLe32, length_vndrboot]

theorem dtbSize_assemble (h : tree.length < 2 ^ 32) :
    dtbSize (assemble ramdisk tree table config) = tree.length := by
  unfold dtbSize
  rw [le32_assemble (by decide)]
  unfold headerPage
  rw [← List.append_assoc, ← List.append_assoc, ← List.append_assoc]
  refine le32_append_middle ?_ h
  simp only [List.length_append, List.length_replicate, length_packLe32, length_vndrboot]

theorem ramdiskTableSize_assemble (h : table.length < 2 ^ 32) :
    ramdiskTableSize (assemble ramdisk tree table config) = table.length := by
  unfold ramdiskTableSize
  rw [le32_assemble (by decide)]
  unfold headerPage
  rw [← List.append_assoc, ← List.append_assoc, ← List.append_assoc, ← List.append_assoc,
    ← List.append_assoc]
  refine le32_append_middle ?_ h
  simp only [List.length_append, List.length_replicate, length_packLe32, length_vndrboot]

theorem bootconfigSize_assemble (h : config.length < 2 ^ 32) :
    bootconfigSize (assemble ramdisk tree table config) = config.length := by
  unfold bootconfigSize
  rw [le32_assemble (by decide)]
  unfold headerPage
  rw [← List.append_assoc, ← List.append_assoc, ← List.append_assoc, ← List.append_assoc,
    ← List.append_assoc, ← List.append_assoc, ← List.append_assoc]
  refine le32_append_middle ?_ h
  simp only [List.length_append, List.length_replicate, length_packLe32, length_vndrboot]

variable (hr : ramdisk.length < 2 ^ 32) (ht : tree.length < 2 ^ 32) (hb : table.length < 2 ^ 32)
  (hc : config.length < 2 ^ 32)

include hr

theorem dtbOff_assemble :
    dtbOff (assemble ramdisk tree table config) = page + pageAlign ramdisk.length := by
  unfold dtbOff vendorRamdiskOff
  rw [headerSize_assemble, vendorRamdiskSize_assemble hr]
  rfl

include ht

theorem dtb_assemble : dtb (assemble ramdisk tree table config) = tree := by
  unfold dtb
  rw [dtbOff_assemble hr, dtbSize_assemble ht]
  unfold assemble
  rw [← List.append_assoc, padPage_append tree]
  refine slice_append_middle ?_ rfl
  rw [List.length_append, length_headerPage, length_padPage]

theorem ramdiskTableOff_assemble : ramdiskTableOff (assemble ramdisk tree table config) =
    page + pageAlign ramdisk.length + pageAlign tree.length := by
  unfold ramdiskTableOff
  rw [dtbOff_assemble hr, dtbSize_assemble ht]

include hb

theorem ramdiskTable_assemble : ramdiskTable (assemble ramdisk tree table config) = table := by
  unfold ramdiskTable
  rw [ramdiskTableOff_assemble hr ht, ramdiskTableSize_assemble hb]
  unfold assemble
  rw [← List.append_assoc, ← List.append_assoc, padPage_append table]
  refine slice_append_middle ?_ rfl
  rw [List.length_append, List.length_append, length_headerPage, length_padPage, length_padPage]

include hc

/-- What is assembled is an image, whatever the sections, once the tree is one. -/
theorem vendorBoot_assemble (htree : slice tree 0 4 = fdtMagic) :
    VendorBoot (assemble ramdisk tree table config) where
  magic := by
    unfold assemble
    rw [slice_append_left (by rw [length_headerPage]; decide)]
    exact slice_append_left (by decide)
  header := Nat.le_of_eq headerSize_assemble.symm
  tree := by rw [dtb_assemble hr ht, htree]
  fits := by
    unfold bootconfigOff
    rw [ramdiskTableOff_assemble hr ht, ramdiskTableSize_assemble hb, bootconfigSize_assemble hc]
    unfold assemble
    simp only [List.length_append, length_headerPage, length_padPage]
    omega

end

/-! ## The boot image -/

def kernelSize (img : Bytes) : Nat := le32 img 8
def kernelSection (img : Bytes) : Bytes := slice img page (kernelSize img)

/-- An image whose kernel section lies inside its partition. -/
structure BootImage (img : Bytes) : Prop where
  magic : slice img 0 8 = android
  fits : page + kernelSize img ≤ img.length

theorem BootImage.length_kernelSection {img : Bytes} (h : BootImage img) :
    (kernelSection img).length = kernelSize img :=
  length_slice h.fits

/-- The header page for a kernel section of this size. -/
def bootPage (kernel : Nat) : Bytes := android ++ (packLe32 kernel ++ List.replicate 4084 0)

/-- The image of a kernel section and what follows it. -/
def assembleBoot (kernel rest : Bytes) : Bytes := bootPage kernel.length ++ (kernel ++ rest)

theorem length_bootPage (k : Nat) : (bootPage k).length = page := by
  unfold bootPage page
  simp only [List.length_append, List.length_replicate, length_packLe32]
  rfl

section

variable {kernel rest : Bytes}

theorem kernelSize_assembleBoot (h : kernel.length < 2 ^ 32) :
    kernelSize (assembleBoot kernel rest) = kernel.length := by
  unfold kernelSize assembleBoot bootPage
  rw [List.append_assoc, List.append_assoc]
  exact le32_append_middle rfl h

theorem kernelSection_assembleBoot (h : kernel.length < 2 ^ 32) :
    kernelSection (assembleBoot kernel rest) = kernel := by
  unfold kernelSection
  rw [kernelSize_assembleBoot h]
  exact slice_append_middle (length_bootPage _) rfl

theorem bootImage_assembleBoot (h : kernel.length < 2 ^ 32) : BootImage (assembleBoot kernel rest) where
  magic := rfl
  fits := by
    rw [kernelSize_assembleBoot h, assembleBoot, List.length_append, List.length_append,
      length_bootPage]
    omega

end

end Gts9Wifi.Boot
