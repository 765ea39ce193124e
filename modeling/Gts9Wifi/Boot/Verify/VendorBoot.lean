import Gts9Wifi.Boot.Layout

/-!
# Provisioning vendor_boot and its layout

The script pads the patched tree to the pages the old one had, but writes its bare length into the
header, and that length decides where the ramdisk table and the bootconfig are looked for. They are
found again precisely when the patched tree needs as many pages as the old one, unless what a reader
finds too early happens to look the same.
-/

namespace Gts9Wifi.Boot

open Driver

/-! ## Vocabulary -/

/-- Read from the header of the new image, the tree is the patched one and every other section is
what it was. -/
structure LayoutKept (img blob img' : Bytes) : Prop where
  dtb : dtb img' = blob
  vendorRamdisk : vendorRamdisk img' = vendorRamdisk img
  ramdiskTable : ramdiskTable img' = ramdiskTable img
  bootconfig : bootconfig img' = bootconfig img

/-- How far too early the last two sections are looked for. -/
def slack (img blob : Bytes) : Nat := pageAlign (dtbSize img) - pageAlign blob.length

/-- The image from the ramdisk table on, behind that many zeros. -/
def shiftedTail (img blob : Bytes) : Bytes :=
  List.replicate (slack img blob) 0 ++ img.drop (ramdiskTableOff img)

/-- The two last sections look the same when they are looked for `d` bytes early, after `d` zeros. -/
def LooksTheSame (img : Bytes) (d : Nat) : Prop :=
  (∀ x ∈ ramdiskTable img, x = 0) ∧
    bootconfig img = slice (List.replicate d 0 ++ img.drop (ramdiskTableOff img))
      (pageAlign (ramdiskTableSize img)) (bootconfigSize img)

/-- The image with the patched tree in the pages of the old one and its length in the header. -/
def provisioned (img blob : Bytes) : Bytes :=
  overwrite (overwrite img (dtbOff img)
    (blob ++ List.replicate (pageAlign (dtbSize img) - blob.length) 0)) 2100 (packLe32 blob.length)

/-! ## What the script does -/

section

variable {img : Bytes}

theorem run_readAt (off len : Nat) :
    (readAt off len).run.run img = (.ok (slice img off len), img) := rfl

theorem run_writeAt {off : Nat} {data : Bytes} (h : off + data.length ≤ img.length) :
    (writeAt off data).run.run img = (.ok (), overwrite img off data) := by
  show (if off + data.length ≤ img.length then _ else _ : PartM Unit).run.run img = _
  rw [if_pos h]
  rfl

theorem run_unpackLe32 {b : Bytes} {off : Nat} (h : off + 4 ≤ b.length) :
    (unpackLe32 b off).run.run img = (.ok (le32 b off), img) := by
  unfold unpackLe32
  rw [if_pos h]
  rfl

theorem run_packIntoLe32 {b : Bytes} {off n : Nat} (h : off + 4 ≤ b.length) (hn : n < 2 ^ 32) :
    (packIntoLe32 b off n).run.run img = (.ok (overwrite b off (packLe32 n)), img) := by
  unfold packIntoLe32
  rw [if_pos ⟨h, hn⟩]
  rfl

theorem run_packIntoLe32_error {b : Bytes} {off n : Nat} (hn : ¬ n < 2 ^ 32) :
    (packIntoLe32 b off n).run.run img = (.error .structError, img) := by
  unfold packIntoLe32
  rw [if_neg fun h => hn h.2]
  rfl

theorem run_patchDtb {fdt : Fdt} {old bdaddr blob : Bytes} (hget : fdt.get old ≠ some bdaddr)
    (hput : fdt.put old bdaddr = some blob) :
    (patchDtb fdt old bdaddr).run.run img = (.ok (some blob), img) := by
  unfold patchDtb
  rw [if_neg hget, hput]
  rfl

end

section

variable {fdt : Fdt} {bdaddr img blob : Bytes}

theorem VendorBoot.page_le (hv : VendorBoot img) : page ≤ vendorRamdiskOff img := by
  have hh := hv.header
  unfold vendorRamdiskOff pageAlign page
  omega

theorem VendorBoot.dtb_fits (hv : VendorBoot img) :
    dtbOff img + pageAlign (dtbSize img) ≤ img.length := by
  have hf := hv.fits
  unfold bootconfigOff ramdiskTableOff at hf
  omega

theorem VendorBoot.page_le_length (hv : VendorBoot img) : page ≤ img.length := by
  have hp := hv.page_le
  have hd := hv.dtb_fits
  unfold dtbOff at hd
  omega

theorem take_head : (slice img 0 page).take 8 = slice img 0 8 := List.take_take

/-- A field of the header, read from the first page. -/
theorem le32_head {off : Nat} (h : off + 4 ≤ page) : le32 (slice img 0 page) off = le32 img off := by
  unfold le32
  rw [slice_slice h, Nat.zero_add]

/-- Writing back the first page with a new field changes that field only. -/
theorem overwrite_head {b data : Bytes} {off : Nat} (hoff : off + data.length ≤ page)
    (hlen : page ≤ b.length) (hsame : slice b 0 page = slice img 0 page) :
    overwrite b 0 (overwrite (slice img 0 page) off data) = overwrite b off data := by
  rw [← hsame]
  have hhead : (slice b 0 page).length = page := length_slice (by omega)
  have hwhole : (overwrite (slice b 0 page) off data).length = page := by
    rw [length_overwrite (by omega), hhead]
  apply List.ext_getElem?
  intro i
  rw [getElem?_overwrite (by omega), getElem?_overwrite (by omega), if_neg (Nat.not_lt_zero i),
    hwhole, Nat.zero_add, Nat.sub_zero]
  by_cases hi : i < page
  · rw [if_pos hi, getElem?_overwrite (by omega), getElem?_slice, if_pos hi, Nat.zero_add]
  · rw [if_neg hi, getElem?_overwrite (by omega), if_neg (by omega), if_neg (by omega)]

/-- The padded tree fills the pages of the old one. -/
theorem length_padded (hlen : blob.length ≤ pageAlign (dtbSize img)) :
    (blob ++ List.replicate (pageAlign (dtbSize img) - blob.length) (0 : UInt8)).length =
      pageAlign (dtbSize img) := by
  rw [List.length_append, List.length_replicate]
  omega

theorem padded_fits (hv : VendorBoot img) (hlen : blob.length ≤ pageAlign (dtbSize img)) :
    dtbOff img + (blob ++
      List.replicate (pageAlign (dtbSize img) - blob.length) (0 : UInt8)).length ≤ img.length := by
  rw [length_padded hlen]
  exact hv.dtb_fits

/-- A run on an image in which the address has to be set. A length that its header field cannot hold
is noticed only after the tree has been written. -/
theorem provisionVendorBoot_run (hv : VendorBoot img) (hget : fdt.get (dtb img) ≠ some bdaddr)
    (hput : fdt.put (dtb img) bdaddr = some blob) (hlen : blob.length ≤ pageAlign (dtbSize img)) :
    (provisionVendorBoot fdt bdaddr).run.run img =
      if blob.length < 2 ^ 32 then (.ok true, provisioned img blob)
      else (.error .structError, overwrite img (dtbOff img)
        (blob ++ List.replicate (pageAlign (dtbSize img) - blob.length) 0)) := by
  have hpage := hv.page_le_length
  have hramdisk := hv.page_le
  have hhead : (slice img 0 page).length = page := length_slice (by omega)
  have hfits := padded_fits hv hlen
  have hmagic : (slice img 0 page).take 8 = vndrboot := by
    rw [take_head]
    exact hv.magic
  have hoff : pageAlign (le32 img 2096) + pageAlign (le32 img 24) = dtbOff img := rfl
  have hsize : le32 img 2100 = dtbSize img := rfl
  have hold : slice img (dtbOff img) (dtbSize img) = dtb img := rfl
  have htree : (dtb img).take 4 = fdtMagic := hv.tree
  unfold provisionVendorBoot
  rw [run_bind_of_ok (run_readAt _ _), if_neg (not_not.2 hmagic),
    run_bind_of_ok (run_unpackLe32 (by rw [hhead]; decide)),
    run_bind_of_ok (run_unpackLe32 (by rw [hhead]; decide)),
    run_bind_of_ok (run_unpackLe32 (by rw [hhead]; decide)),
    le32_head (by decide), le32_head (by decide), le32_head (by decide)]
  dsimp only
  rw [hoff, hsize, run_bind_of_ok (run_readAt _ _), hold, if_neg (not_not.2 htree),
    run_bind_of_ok (run_patchDtb hget hput)]
  dsimp only
  rw [if_neg (Nat.not_lt.2 hlen), run_bind_of_ok (run_writeAt hfits)]
  have hsame : slice (overwrite img (dtbOff img)
      (blob ++ List.replicate (pageAlign (dtbSize img) - blob.length) 0)) 0 page =
      slice img 0 page := by
    refine slice_overwrite_of_disjoint hfits (.inl ?_)
    unfold dtbOff
    omega
  have hwide := length_overwrite hfits
  by_cases h32 : blob.length < 2 ^ 32
  · rw [if_pos h32, run_bind_of_ok (run_packIntoLe32 (by rw [hhead]; decide) h32)]
    have hfield : 2100 + (packLe32 blob.length).length ≤ page := by
      rw [length_packLe32]
      decide
    have hwhole : (overwrite (slice img 0 page) 2100 (packLe32 blob.length)).length = page := by
      rw [length_overwrite (by omega), hhead]
    rw [run_bind_of_ok (run_writeAt (by omega)), overwrite_head hfield (by omega) hsame]
    rfl
  · rw [if_neg h32, run_bind_of_error (run_packIntoLe32_error h32)]

end

/-! ## The sections of the new image -/

section

variable {img blob : Bytes} (hv : VendorBoot img) (hlen : blob.length ≤ pageAlign (dtbSize img))

include hv hlen

theorem field_fits : 2100 + (packLe32 blob.length).length ≤ (overwrite img (dtbOff img)
    (blob ++ List.replicate (pageAlign (dtbSize img) - blob.length) 0)).length := by
  have hpage := hv.page_le_length
  rw [length_overwrite (padded_fits hv hlen), length_packLe32]
  unfold page at hpage
  omega

/-- Every field of the header but the length of the tree is what it was. -/
theorem le32_provisioned {off : Nat} (hoff : off + 4 ≤ page)
    (hd : off + 4 ≤ 2100 ∨ 2104 ≤ off) : le32 (provisioned img blob) off = le32 img off := by
  have hramdisk := hv.page_le
  unfold le32 provisioned
  rw [slice_overwrite_of_disjoint (field_fits hv hlen) hd,
    slice_overwrite_of_disjoint (padded_fits hv hlen) (.inl ?_)]
  unfold dtbOff
  omega

theorem dtbSize_provisioned (h32 : blob.length < 2 ^ 32) :
    dtbSize (provisioned img blob) = blob.length := by
  show leNat (slice (provisioned img blob) 2100 (packLe32 blob.length).length) = _
  unfold provisioned
  rw [slice_overwrite_all (field_fits hv hlen), leNat_packLe32 h32]

/-- Past the first page only the pages of the tree have changed. -/
theorem slice_provisioned {off len : Nat} (hoff : page ≤ off) :
    slice (provisioned img blob) off len = slice (overwrite img (dtbOff img)
      (blob ++ List.replicate (pageAlign (dtbSize img) - blob.length) 0)) off len := by
  unfold provisioned
  refine slice_overwrite_of_disjoint (field_fits hv hlen) (.inr ?_)
  rw [length_packLe32]
  unfold page at hoff
  omega

theorem dtbOff_provisioned : dtbOff (provisioned img blob) = dtbOff img := by
  unfold dtbOff vendorRamdiskOff headerSize vendorRamdiskSize
  rw [le32_provisioned hv hlen (by decide) (by decide),
    le32_provisioned hv hlen (by decide) (by decide)]

theorem dtb_provisioned (h32 : blob.length < 2 ^ 32) : dtb (provisioned img blob) = blob := by
  have hpage := hv.page_le
  have hoff : page ≤ dtbOff img := by
    unfold dtbOff
    omega
  unfold dtb
  rw [dtbSize_provisioned hv hlen h32, dtbOff_provisioned hv hlen, slice_provisioned hv hlen hoff]
  exact slice_overwrite_self (padded_fits hv hlen)

theorem vendorRamdisk_provisioned :
    vendorRamdisk (provisioned img blob) = vendorRamdisk img := by
  have hsize : vendorRamdiskSize (provisioned img blob) = vendorRamdiskSize img :=
    le32_provisioned hv hlen (by decide) (by decide)
  have hoff : vendorRamdiskOff (provisioned img blob) = vendorRamdiskOff img := by
    unfold vendorRamdiskOff headerSize
    rw [le32_provisioned hv hlen (by decide) (by decide)]
  have hbefore : vendorRamdiskOff img + vendorRamdiskSize img ≤ dtbOff img := by
    have hle := le_pageAlign (vendorRamdiskSize img)
    unfold dtbOff
    omega
  unfold vendorRamdisk
  rw [hsize, hoff, slice_provisioned hv hlen hv.page_le]
  exact slice_overwrite_of_disjoint (padded_fits hv hlen) (.inl hbefore)

omit hv in
theorem pageAlign_blob_add_slack : pageAlign blob.length + slack img blob = pageAlign (dtbSize img) := by
  have hle := pageAlign_le_of_le hlen
  unfold slack
  omega

/-- What stands in the new image from the new start of the table on: the slack, zeroed, and then the
old image from the old start of the table on. -/
theorem getElem?_provisioned_tail (i : Nat) :
    (provisioned img blob)[dtbOff img + pageAlign blob.length + i]? = (shiftedTail img blob)[i]? := by
  have hpage := hv.page_le
  have hslack := pageAlign_blob_add_slack hlen
  have hle := le_pageAlign blob.length
  have hpast : page ≤ dtbOff img + pageAlign blob.length + i := by
    unfold dtbOff
    omega
  unfold provisioned shiftedTail
  rw [getElem?_overwrite (field_fits hv hlen), length_packLe32]
  unfold page at hpast
  rw [if_neg (by omega), if_neg (by omega), getElem?_overwrite (padded_fits hv hlen),
    length_padded hlen, if_neg (by omega)]
  by_cases hi : i < slack img blob
  · rw [if_pos (by omega), List.getElem?_append_right (by omega),
      List.getElem?_append_left (by rw [List.length_replicate]; exact hi),
      List.getElem?_replicate_of_lt hi, List.getElem?_replicate_of_lt (by omega)]
  · have hidx : ramdiskTableOff img + (i - slack img blob) =
        dtbOff img + pageAlign blob.length + i := by
      unfold ramdiskTableOff
      omega
    rw [if_neg (by omega), List.getElem?_append_right (by rw [List.length_replicate]; omega),
      List.length_replicate, List.getElem?_drop, hidx]

theorem slice_provisioned_tail (off len : Nat) :
    slice (provisioned img blob) (dtbOff img + pageAlign blob.length + off) len =
      slice (shiftedTail img blob) off len := by
  rw [slice_eq_slice_iff]
  intro i _
  rw [Nat.add_assoc, getElem?_provisioned_tail hv hlen]

theorem ramdiskTable_provisioned (h32 : blob.length < 2 ^ 32) :
    ramdiskTable (provisioned img blob) = slice (shiftedTail img blob) 0 (ramdiskTableSize img) := by
  have hsize : ramdiskTableSize (provisioned img blob) = ramdiskTableSize img :=
    le32_provisioned hv hlen (by decide) (by decide)
  unfold ramdiskTable ramdiskTableOff
  rw [hsize, dtbOff_provisioned hv hlen, dtbSize_provisioned hv hlen h32,
    ← slice_provisioned_tail hv hlen, Nat.add_zero]

theorem bootconfig_provisioned (h32 : blob.length < 2 ^ 32) :
    bootconfig (provisioned img blob) =
      slice (shiftedTail img blob) (pageAlign (ramdiskTableSize img)) (bootconfigSize img) := by
  have htable : ramdiskTableSize (provisioned img blob) = ramdiskTableSize img :=
    le32_provisioned hv hlen (by decide) (by decide)
  have hsize : bootconfigSize (provisioned img blob) = bootconfigSize img :=
    le32_provisioned hv hlen (by decide) (by decide)
  unfold bootconfig bootconfigOff ramdiskTableOff
  rw [hsize, htable, dtbOff_provisioned hv hlen, dtbSize_provisioned hv hlen h32,
    slice_provisioned_tail hv hlen]

/-- The new image, judged by its header. -/
theorem layoutKept_provisioned_iff (h32 : blob.length < 2 ^ 32) :
    LayoutKept img blob (provisioned img blob) ↔
      pageAlign blob.length = pageAlign (dtbSize img) ∨ LooksTheSame img (slack img blob) := by
  have htable := ramdiskTable_provisioned hv hlen h32
  have hboot := bootconfig_provisioned hv hlen h32
  have holdTable : ramdiskTable img =
      slice (img.drop (ramdiskTableOff img)) 0 (ramdiskTableSize img) := by
    rw [slice_drop, Nat.add_zero, ramdiskTable]
  have holdBoot : bootconfig img = slice (img.drop (ramdiskTableOff img))
      (pageAlign (ramdiskTableSize img)) (bootconfigSize img) := by
    rw [slice_drop, bootconfig, bootconfigOff]
  by_cases hpages : pageAlign blob.length = pageAlign (dtbSize img)
  · have hzero : slack img blob = 0 := Nat.sub_eq_zero_of_le (Nat.le_of_eq hpages.symm)
    have htail : shiftedTail img blob = img.drop (ramdiskTableOff img) := by
      unfold shiftedTail
      rw [hzero, List.replicate_zero, List.nil_append]
    refine iff_of_true ⟨dtb_provisioned hv hlen h32, vendorRamdisk_provisioned hv hlen, ?_, ?_⟩
      (.inl hpages)
    · rw [htable, htail, holdTable]
    · rw [hboot, htail, holdBoot]
  · have hpos : 0 < slack img blob :=
      Nat.sub_pos_of_lt (Nat.lt_of_le_of_ne (pageAlign_le_of_le hlen) hpages)
    have hlong : ramdiskTableSize img ≤ (img.drop (ramdiskTableOff img)).length := by
      have hfits := hv.fits
      have hle := le_pageAlign (ramdiskTableSize img)
      rw [List.length_drop]
      unfold bootconfigOff at hfits
      omega
    have hzeros := slice_zeros_append_eq_iff hpos hlong
    rw [← holdTable] at hzeros
    constructor
    · intro hkept
      refine .inr ⟨hzeros.1 (htable.symm.trans hkept.ramdiskTable), ?_⟩
      exact hkept.bootconfig.symm.trans hboot
    · rintro (hsame | ⟨hz, hb⟩)
      · exact absurd hsame hpages
      · exact ⟨dtb_provisioned hv hlen h32, vendorRamdisk_provisioned hv hlen,
          htable.trans (hzeros.2 hz), hboot.trans hb.symm⟩

end

/-- **Provisioning keeps the layout of vendor_boot precisely when the patched tree takes as many
pages as the old one**, for every version 4 image, every address and every tree `fdtput` returns that
fits the pages of the old one. Two oddities aside: the length must be one its field can hold, and an
image in which both last sections look the same at the wrong place is not told apart. -/
theorem provisionVendorBoot_keeps_layout_iff {fdt : Fdt} {bdaddr img blob : Bytes}
    (hv : VendorBoot img) (hget : fdt.get (dtb img) ≠ some bdaddr)
    (hput : fdt.put (dtb img) bdaddr = some blob) (hlen : blob.length ≤ pageAlign (dtbSize img)) :
    ((provisionVendorBoot fdt bdaddr).run.run img).1 = .ok true ∧
        LayoutKept img blob ((provisionVendorBoot fdt bdaddr).run.run img).2 ↔
      blob.length < 2 ^ 32 ∧ (pageAlign blob.length = pageAlign (dtbSize img) ∨
        LooksTheSame img (pageAlign (dtbSize img) - pageAlign blob.length)) := by
  rw [provisionVendorBoot_run hv hget hput hlen]
  by_cases h32 : blob.length < 2 ^ 32
  · rw [if_pos h32]
    have hiff := layoutKept_provisioned_iff hv hlen h32
    exact ⟨fun h => ⟨h32, hiff.1 h.2⟩, fun h => ⟨rfl, hiff.2 h.2⟩⟩
  · rw [if_neg h32]
    exact ⟨fun h => (nomatch h.1), fun h => absurd h.1 h32⟩

/-! ### Two images

A tree with nothing but the node of the Bluetooth controller, without its address and with it, as
`fdtput` packs it, in images with a small ramdisk and one entry in the table. -/

def ascii (cs : List Char) : Bytes := cs.map fun c => UInt8.ofNat c.toNat

def be32 (n : Nat) : Bytes := (packLe32 n).reverse

/-- `FDT_BEGIN_NODE` with the name, padded. -/
def beginNode (name : List Char) : Bytes :=
  be32 1 ++ ascii name ++ List.replicate (4 - name.length % 4) 0

/-- The node's path, and its address if it has one. -/
def treeStruct (bdaddr : Option Bytes) : Bytes :=
  [beginNode [], beginNode ['s', 'o', 'c', '@', '0'],
    beginNode ['g', 'e', 'n', 'i', 'q', 'u', 'p', '@', '8', 'c', '0', '0', '0', '0'],
    beginNode ['s', 'e', 'r', 'i', 'a', 'l', '@', '8', '9', '8', '0', '0', '0'],
    beginNode ['b', 'l', 'u', 'e', 't', 'o', 'o', 't', 'h'],
    bdaddr.elim [] fun a => be32 3 ++ be32 6 ++ be32 0 ++ a ++ [0, 0],
    be32 2, be32 2, be32 2, be32 2, be32 2, be32 9].flatten

def treeStrings (bdaddr : Option Bytes) : Bytes :=
  bdaddr.elim [] fun _ => ascii ['l', 'o', 'c', 'a', 'l', '-', 'b', 'd', '-', 'a', 'd', 'd', 'r',
    'e', 's', 's'] ++ [0]

/-- The tree, with `pad` bytes of slack covered by its total size. -/
def bluetoothTree (bdaddr : Option Bytes) (pad : Nat) : Bytes :=
  let struct := treeStruct bdaddr
  let strings := treeStrings bdaddr
  [fdtMagic, be32 (56 + struct.length + strings.length + pad), be32 56, be32 (56 + struct.length),
    be32 40, be32 17, be32 16, be32 0, be32 strings.length, be32 struct.length,
    List.replicate 16 0, struct, strings, List.replicate pad 0].flatten

theorem slice_bluetoothTree (a : Option Bytes) (pad : Nat) :
    slice (bluetoothTree a pad) 0 4 = fdtMagic := rfl

theorem length_bluetoothTree (a : Option Bytes) (pad : Nat) : (bluetoothTree a pad).length =
    56 + (treeStruct a).length + (treeStrings a).length + pad := by
  have hbe (n : Nat) : (be32 n).length = 4 := rfl
  have hmagic : fdtMagic.length = 4 := rfl
  simp only [bluetoothTree, List.flatten_cons, List.flatten_nil, List.length_append,
    List.length_replicate, List.length_nil, hbe, hmagic]
  omega

/-- An image of a ramdisk of four bytes, a tree and one table entry. -/
def image (tree : Bytes) : Bytes :=
  assemble [1, 2, 3, 4] tree (packLe32 4 ++ packLe32 0 ++ packLe32 1 ++ List.replicate 96 0) []

def bdaddr : Bytes := [0x66, 0x55, 0x44, 0x33, 0x22, 0x11]

/-- The two tools on the trees above: no address yet, and the packed tree with it. -/
def bluetoothFdt : Fdt where
  get _ := none
  put _ addr := some (bluetoothTree (some addr) 0)

theorem length_freshTree (pad : Nat) : (bluetoothTree none pad).length = 156 + pad :=
  length_bluetoothTree none pad

theorem length_patchedTree : (bluetoothTree (some bdaddr) 0).length = 193 :=
  length_bluetoothTree (some bdaddr) 0

theorem vendorBoot_image {pad : Nat} (h : pad ≤ page) :
    VendorBoot (image (bluetoothTree none pad)) := by
  have hlen : (bluetoothTree none pad).length < 2 ^ 32 := by
    rw [length_freshTree]
    unfold page at h
    omega
  exact vendorBoot_assemble (by decide) hlen (by decide) (by decide) (slice_bluetoothTree none pad)

theorem dtbSize_image {pad : Nat} (h : pad ≤ page) :
    dtbSize (image (bluetoothTree none pad)) = 156 + pad := by
  have hlen := length_freshTree pad
  unfold page at h
  rw [image, dtbSize_assemble (by omega), hlen]

theorem provisionVendorBoot_keeps_layout_fresh :
    ((provisionVendorBoot bluetoothFdt bdaddr).run.run (image (bluetoothTree none 0))).1 =
        .ok true ∧
      LayoutKept (image (bluetoothTree none 0)) (bluetoothTree (some bdaddr) 0)
        ((provisionVendorBoot bluetoothFdt bdaddr).run.run (image (bluetoothTree none 0))).2 := by
  have hsize := dtbSize_image (Nat.zero_le page)
  have hnew := length_patchedTree
  have hlen : (bluetoothTree (some bdaddr) 0).length ≤
      pageAlign (dtbSize (image (bluetoothTree none 0))) := by
    rw [hnew, hsize]
    decide
  have hget : bluetoothFdt.get (dtb (image (bluetoothTree none 0))) ≠ some bdaddr := by
    intro h
    cases h
  refine (provisionVendorBoot_keeps_layout_iff (vendorBoot_image (Nat.zero_le page)) hget rfl
    hlen).2 ⟨by omega, .inl ?_⟩
  rw [hnew, hsize]
  decide

/-- The image whose tree has been padded beyond a page, as `gts9wifi-mem-reclaim` pads it. -/
def paddedImage : Bytes := image (bluetoothTree none 4000)

/-- The packed tree fits in one page, so the ramdisk table is looked for in the padding. -/
theorem table_lost_after_padding :
    VendorBoot paddedImage ∧
      (bluetoothTree (some bdaddr) 0).length ≤ pageAlign (dtbSize paddedImage) ∧
      ¬ LayoutKept paddedImage (bluetoothTree (some bdaddr) 0)
        ((provisionVendorBoot bluetoothFdt bdaddr).run.run paddedImage).2 := by
  have hv : VendorBoot paddedImage := vendorBoot_image (by decide)
  have hsize : dtbSize paddedImage = 4156 := dtbSize_image (by decide)
  have hnew := length_patchedTree
  have hlen : (bluetoothTree (some bdaddr) 0).length ≤ pageAlign (dtbSize paddedImage) := by
    rw [hnew, hsize]
    decide
  have hget : bluetoothFdt.get (dtb paddedImage) ≠ some bdaddr := by
    intro h
    cases h
  have h32 : (bluetoothTree (some bdaddr) 0).length < 2 ^ 32 := by omega
  have htable : ramdiskTable paddedImage =
      packLe32 4 ++ packLe32 0 ++ packLe32 1 ++ List.replicate 96 0 := by
    have hold := length_freshTree 4000
    exact ramdiskTable_assemble (by decide) (by omega) (by decide)
  refine ⟨hv, hlen, ?_⟩
  intro hkept
  rw [provisionVendorBoot_run hv hget rfl hlen, if_pos h32] at hkept
  rcases (layoutKept_provisioned_iff hv hlen h32).1 hkept with hpages | ⟨hzero, -⟩
  · rw [hnew, hsize] at hpages
    exact absurd hpages (by decide)
  · rw [htable] at hzero
    exact absurd (hzero 4 (List.mem_cons_self ..)) (by decide)

end Gts9Wifi.Boot
