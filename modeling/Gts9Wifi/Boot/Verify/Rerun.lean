import Gts9Wifi.Boot.Verify.MemReclaim

/-!
# A second run

The tree of vendor_boot is reclaimed by the first run, and a second one leaves it alone. In boot a run
writes back one blob only, the last one of the kernel section with something to reclaim. A second run
is quiet precisely when that was all there was: no blob that ends before it is left to reclaim, and
none that shares bytes with it in its new form.
-/

namespace Gts9Wifi.Boot.MemReclaim

open Driver

/-- The tools edit trees: what they leave behind is a tree again, and there is nothing more to reclaim
in it. -/
structure PureEdits (fdt : Fdt) : Prop where
  tree : ∀ {dtb blob}, patchDtb fdt dtb = .ok (some blob) → blob.take 4 = fdtMagic
  reclaimed : ∀ {dtb blob}, patchDtb fdt dtb = .ok (some blob) → patchDtb fdt blob = .ok none

/-! ## vendor_boot -/

section VendorBoot

variable {img data : Bytes} {off : Nat}

/-- The header page does not change when something is written behind it. -/
theorem le32_overwrite (hpage : page ≤ off) (hfits : off + data.length ≤ img.length) {k : Nat}
    (hk : k + 4 ≤ page) : le32 (overwrite img off data) k = le32 img k := by
  unfold le32
  rw [slice_overwrite_of_disjoint hfits (.inl (by omega))]

theorem hasTree_of_vendorBoot (hv : VendorBoot img) : HasTree img := by
  have hpage := hv.page_le_length
  unfold page at hpage
  exact ⟨by omega, hv.magic, hv.tree⟩

/-- A tree as long as the old one, in its place, is found by the same header. -/
theorem hasTree_overwrite {blob : Bytes} (h : HasTree img)
    (hfits : dtbOff img + blob.length ≤ img.length) (henv : blob.length = dtbSize img)
    (hblob : blob.take 4 = fdtMagic) :
    HasTree (overwrite img (dtbOff img) blob) ∧ dtb (overwrite img (dtbOff img) blob) = blob := by
  have hpage := h.page_le
  have hlong := h.length
  have hoff : dtbOff (overwrite img (dtbOff img) blob) = dtbOff img := by
    unfold dtbOff vendorRamdiskOff headerSize vendorRamdiskSize at *
    rw [le32_overwrite hpage hfits (by decide), le32_overwrite hpage hfits (by decide)]
  have hsize : dtbSize (overwrite img (dtbOff img) blob) = dtbSize img :=
    le32_overwrite hpage hfits (by decide)
  have htree : dtb (overwrite img (dtbOff img) blob) = blob := by
    rw [dtb, hoff, hsize, ← henv]
    exact slice_overwrite_all hfits
  refine ⟨⟨by rwa [length_overwrite hfits], ?_, by rwa [htree]⟩, htree⟩
  rw [slice_overwrite_of_disjoint hfits (.inl (by unfold page at hpage; omega))]
  exact h.magic

/-- What a run has left behind is left alone by the next one. -/
theorem reclaimVendorBoot_again {fdt : Fdt} (hpure : PureEdits fdt) {changed : Bool} {img' : Bytes}
    (hrun : (reclaimVendorBoot fdt).run.run img = (.ok changed, img')) :
    (reclaimVendorBoot fdt).run.run img' = (.ok false, img') := by
  by_cases h : HasTree img
  · have hfirst := hrun
    rw [reclaimVendorBoot_run h] at hfirst
    cases hpatch : patchDtb fdt (dtb img) with
    | error e =>
      rw [hpatch] at hfirst
      exact nomatch congrArg Prod.fst hfirst
    | ok blob =>
      cases blob with
      | none =>
        rw [hpatch] at hfirst
        obtain rfl : img = img' := congrArg Prod.snd hfirst
        rw [reclaimVendorBoot_run h, hpatch]
      | some blob =>
        rw [hpatch] at hfirst
        dsimp only at hfirst
        by_cases henv : blob.length = dtbSize img
        · rw [if_pos henv] at hfirst
          obtain rfl : overwrite img (dtbOff img) blob = img' := congrArg Prod.snd hfirst
          obtain ⟨hlen, h8, -⟩ := patchDtb_some hpatch
          have hfits := dtb_fits hlen henv (by omega)
          obtain ⟨hagain, htree⟩ := hasTree_overwrite h hfits henv (hpure.tree hpatch)
          rw [reclaimVendorBoot_run hagain, htree, hpure.reclaimed hpatch]
        · rw [if_neg henv] at hfirst
          exact nomatch congrArg Prod.fst hfirst
  · obtain ⟨e, he⟩ : ∃ e, (reclaimVendorBoot fdt).run.run img = (.error e, img) :=
      reclaimVendorBoot_error h
    rw [he] at hrun
    exact nomatch congrArg Prod.fst hrun

end VendorBoot

/-! ## One blob of a kernel section rewritten -/

/-- `kernel'` is `kernel` with the blob `c` replaced by a tree of the same length. -/
structure Replaced (kernel kernel' : Bytes) (c : Nat × Nat) : Prop where
  blob : Blob kernel c
  length : kernel'.length = kernel.length
  below : ∀ i < c.1 + 4, kernel'[i]? = kernel[i]?
  behind : ∀ i, c.1 + c.2 ≤ i → kernel'[i]? = kernel[i]?
  size : readBe32 kernel' (c.1 + 4) = c.2

theorem replaced_overwrite {kernel blob : Bytes} {c : Nat × Nat} (hc : Blob kernel c)
    (hlen : blob.length = c.2) (htree : blob.take 4 = fdtMagic) (htotal : readBe32 blob 4 = c.2) :
    Replaced kernel (overwrite kernel c.1 blob) c := by
  have hfits : c.1 + blob.length ≤ kernel.length := by
    rw [hlen]
    exact hc.fits
  have hleast := hc.least
  refine ⟨hc, length_overwrite hfits, fun i hi => ?_, fun i hi => ?_, ?_⟩
  · rw [getElem?_overwrite hfits]
    by_cases hlow : i < c.1
    · rw [if_pos hlow]
    · -- the magic was there before
      have hnew := congrArg (fun l => l[i - c.1]?) htree
      have hold := hc.magic.byte (k := i - c.1) (show i - c.1 < 4 by omega)
      simp only [List.getElem?_take] at hnew
      rw [if_pos (by omega)] at hnew
      rw [if_neg hlow, if_pos (by omega), hnew, ← hold]
      congr 1
      omega
  · rw [getElem?_overwrite hfits, if_neg (by omega), if_neg (by omega)]
  · rw [readBe32, slice_overwrite_within hfits (by omega)]
    exact htotal

section Replaced

variable {kernel kernel' : Bytes} {c d : Nat × Nat} {i : Nat} (h : Replaced kernel kernel' c)
include h

theorem Replaced.slice_below {off len : Nat} (hle : off + len ≤ c.1 + 4) :
    slice kernel' off len = slice kernel off len := by
  rw [slice_eq_slice_iff]
  exact fun i hi => h.below _ (by omega)

theorem Replaced.slice_behind {off len : Nat} (hle : c.1 + c.2 ≤ off) :
    slice kernel' off len = slice kernel off len := by
  rw [slice_eq_slice_iff]
  exact fun i _ => h.behind _ (by omega)

theorem Replaced.stands_below (hi : i ≤ c.1) :
    Stands kernel' fdtMagic i ↔ Stands kernel fdtMagic i := by
  have hfour : fdtMagic.length = 4 := rfl
  unfold Stands
  rw [hfour, h.slice_below (by omega)]

theorem Replaced.stands_behind (hi : c.1 + c.2 ≤ i) :
    Stands kernel' fdtMagic i ↔ Stands kernel fdtMagic i := by
  unfold Stands
  rw [h.slice_behind hi]

/-- A header before the blob has its size field before it too, or in its magic. -/
theorem Replaced.blob_below (hd : d.1 < c.1) : Blob kernel' d ↔ Blob kernel d := by
  have hstands := h.stands_below (Nat.le_of_lt hd)
  have hsize : Stands kernel fdtMagic d.1 → readBe32 kernel' (d.1 + 4) = readBe32 kernel (d.1 + 4) := by
    intro hmagic
    have hapart := magic_apart hmagic h.blob.magic hd
    rw [readBe32, readBe32, h.slice_below (by omega)]
  constructor
  · rintro ⟨hmagic, hsz, hleast, hfits⟩
    have hmagic := hstands.1 hmagic
    exact ⟨hmagic, hsz.trans (hsize hmagic), hleast, by rwa [← h.length]⟩
  · rintro ⟨hmagic, hsz, hleast, hfits⟩
    exact ⟨hstands.2 hmagic, hsz.trans (hsize hmagic).symm, hleast, by rwa [h.length]⟩

theorem Replaced.blob_behind (hd : c.1 + c.2 ≤ d.1) : Blob kernel' d ↔ Blob kernel d := by
  have hstands := h.stands_behind hd
  have hsize : readBe32 kernel' (d.1 + 4) = readBe32 kernel (d.1 + 4) := by
    rw [readBe32, readBe32, h.slice_behind (by omega)]
  constructor
  · rintro ⟨hmagic, hsz, hleast, hfits⟩
    exact ⟨hstands.1 hmagic, hsz.trans hsize, hleast, by rwa [← h.length]⟩
  · rintro ⟨hmagic, hsz, hleast, hfits⟩
    exact ⟨hstands.2 hmagic, hsz.trans hsize.symm, hleast, by rwa [h.length]⟩

/-- Where the old blob was, there is the new one. -/
theorem Replaced.blob_self (hd : Blob kernel' d) (heq : d.1 = c.1) : d = c := by
  refine Prod.ext heq ?_
  rw [hd.size, heq]
  exact h.size

end Replaced

/-! ## What is left to reclaim -/

section Left

variable {fdt : Fdt} {kernel : Bytes}

/-- There is nothing to reclaim in the section, and every header can be read. -/
def AllClean (fdt : Fdt) (kernel : Bytes) : Prop :=
  SizesWhole kernel kernel.length ∧ ∀ c, Blob kernel c → Clean (fun _ => fdt) kernel c

/-- Beside the blob `c`, which a run replaces by `blob`, there is nothing to reclaim: not in a blob
that ends before it, and not in one that shares bytes with it in its new form. -/
structure OnlyOne (fdt : Fdt) (kernel : Bytes) (c : Nat × Nat) (blob : Bytes) : Prop where
  before : ∀ d, Blob kernel d → d.1 + d.2 ≤ c.1 → Clean (fun _ => fdt) kernel d
  overlapping : ∀ d, Blob (overwrite kernel c.1 blob) d → d.1 ≠ c.1 → d.1 < c.1 + c.2 →
    c.1 < d.1 + d.2 → Clean (fun _ => fdt) (overwrite kernel c.1 blob) d
  cut : ∀ i, Stands (overwrite kernel c.1 blob) fdtMagic i → c.1 < i → i < c.1 + c.2 →
    i + 8 ≤ kernel.length

theorem clean_congr {kernel' : Bytes} {d : Nat × Nat} (h : slice kernel' d.1 d.2 = slice kernel d.1 d.2) :
    Clean (fun _ => fdt) kernel' d ↔ Clean (fun _ => fdt) kernel d := by
  unfold Clean
  rw [h]

/-- After a run that has replaced the last blob with something to reclaim. -/
theorem allClean_overwrite_iff (hpure : PureEdits fdt) {l₁ l₂ : List (Nat × Nat)} {c : Nat × Nat}
    {blob : Bytes} (hl : Found kernel kernel.length (l₁ ++ c :: l₂))
    (hclean : ∀ d ∈ l₁, Clean (fun _ => fdt) kernel d)
    (hpatch : patchDtb fdt (slice kernel c.1 c.2) = .ok (some blob)) :
    AllClean fdt (overwrite kernel c.1 blob) ↔ OnlyOne fdt kernel c blob := by
  have hc : Blob kernel c := ((hl.mem c).1 (by simp)).1
  obtain ⟨hlen, -, htotal⟩ := patchDtb_some hpatch
  rw [length_slice hc.fits] at hlen htotal
  have hrep := replaced_overwrite hc hlen (hpure.tree hpatch) htotal
  have hleast := hc.least
  have hfits := hc.fits
  constructor
  · rintro ⟨hwhole, hall⟩
    refine ⟨fun d hd hend => ?_, fun d hd _ _ _ => hall d hd, fun i hi _ _ => ?_⟩
    · have hleast := hd.least
      have hnew := hall d ((hrep.blob_below (by omega)).2 hd)
      exact (clean_congr (hrep.slice_below (by omega))).1 hnew
    · rw [← hrep.length]
      exact hwhole i hi (magic_le hi)
  · intro honly
    constructor
    · intro i hi _
      rw [hrep.length]
      rcases Nat.lt_trichotomy i c.1 with hlt | rfl | hgt
      · have hapart := magic_apart ((hrep.stands_below (Nat.le_of_lt hlt)).1 hi) hc.magic hlt
        omega
      · omega
      · by_cases hin : i < c.1 + c.2
        · exact honly.cut i hi hgt hin
        · have hold := (hrep.stands_behind (by omega)).1 hi
          exact hl.whole i hold (magic_le hold)
    · intro d hd
      rcases Nat.lt_trichotomy d.1 c.1 with hlt | heq | hgt
      · have hold := (hrep.blob_below hlt).1 hd
        by_cases hend : d.1 + d.2 ≤ c.1
        · exact (clean_congr (hrep.slice_below (by omega))).2 (honly.before d hold hend)
        · exact honly.overlapping d hd (by omega) (by omega) (by omega)
      · obtain rfl := hrep.blob_self hd heq
        have hnew : slice (overwrite kernel d.1 blob) d.1 d.2 = blob := by
          rw [← hlen]
          exact slice_overwrite_all (by omega)
        unfold Clean
        rw [hnew]
        exact hpure.reclaimed hpatch
      · by_cases hin : d.1 < c.1 + c.2
        · exact honly.overlapping d hd (by omega) hin (by omega)
        · -- behind the blob nothing has changed, and all was clean
          have hold := (hrep.blob_behind (by omega)).1 hd
          rcases hl.split hold (magic_le hold.magic) with ⟨hmem, -⟩ | rfl | ⟨-, hlt⟩
          · exact (clean_congr (hrep.slice_behind (by omega))).2 (hclean d hmem)
          · omega
          · omega

/-- Where blobs do not share bytes, that is to say that no other blob has anything to reclaim. -/
theorem onlyOne_iff_of_apart {c : Nat × Nat} {blob : Bytes}
    (hrep : Replaced kernel (overwrite kernel c.1 blob) c)
    (hbefore : ∀ d, Blob kernel d → d.1 < c.1 → d.1 + d.2 ≤ c.1)
    (hinside : ∀ i, c.1 < i → i < c.1 + c.2 → ¬ Stands (overwrite kernel c.1 blob) fdtMagic i) :
    OnlyOne fdt kernel c blob ↔ ∀ d, Blob kernel d → d.1 < c.1 → Clean (fun _ => fdt) kernel d := by
  constructor
  · exact fun h d hd hlt => h.before d hd (hbefore d hd hlt)
  · intro h
    refine ⟨fun d hd hend => ?_, fun d hd hne hlt hgt => ?_, fun i hi hgt hlt => ?_⟩
    · have hleast := hd.least
      exact h d hd (by omega)
    · rcases Nat.lt_or_gt_of_ne hne with hlow | hhigh
      · have hend := hbefore d ((hrep.blob_below hlow).1 hd) hlow
        omega
      · exact absurd hd.magic (hinside d.1 hhigh hlt)
    · exact absurd hi (hinside i hgt hlt)

/-- The blob `c` is the last one of the section with something to reclaim, and `blob` its new form. -/
structure LastDirty (fdt : Fdt) (kernel : Bytes) (c : Nat × Nat) (blob : Bytes) : Prop where
  isBlob : Blob kernel c
  patched : patchDtb fdt (slice kernel c.1 c.2) = .ok (some blob)
  last : ∀ d, Blob kernel d → c.1 < d.1 → Clean (fun _ => fdt) kernel d

theorem LastDirty.unique {c c' : Nat × Nat} {blob blob' : Bytes} (h : LastDirty fdt kernel c blob)
    (h' : LastDirty fdt kernel c' blob') : c = c' ∧ blob = blob' := by
  have hdirty : ∀ {c blob}, LastDirty fdt kernel c blob → ¬ Clean (fun _ => fdt) kernel c := by
    intro c blob h hclean
    exact nomatch hclean.symm.trans h.patched
  rcases Nat.lt_trichotomy c.1 c'.1 with hlt | heq | hgt
  · exact absurd (h.last c' h'.isBlob hlt) (hdirty h')
  · have hc : c = c' := Prod.ext heq (by rw [h.isBlob.size, h'.isBlob.size, heq])
    subst hc
    have hsame := h.patched.symm.trans h'.patched
    exact ⟨rfl, Option.some.inj (Except.ok.inj hsame)⟩
  · exact absurd (h'.last c h.isBlob hgt) (hdirty h)

/-- What the loop has passed over lies behind the blob it has written. -/
theorem lastDirty_of_found {l₁ l₂ : List (Nat × Nat)} {c : Nat × Nat} {blob : Bytes}
    (hl : Found kernel kernel.length (l₁ ++ c :: l₂))
    (hclean : ∀ d ∈ l₁, Clean (fun _ => fdt) kernel d)
    (hpatch : patchDtb fdt (slice kernel c.1 c.2) = .ok (some blob)) : LastDirty fdt kernel c blob := by
  refine ⟨((hl.mem c).1 (by simp)).1, hpatch, fun d hd hlt => ?_⟩
  rcases hl.split hd (magic_le hd.magic) with ⟨hmem, -⟩ | rfl | ⟨-, hgt⟩
  · exact hclean d hmem
  · omega
  · omega

end Left

/-! ## boot -/

section Boot

variable {fdt : Fdt} {img : Bytes}

/-- The run of `reclaim_boot` changes nothing and says so. -/
def BootQuiet (fdt : Fdt) (img : Bytes) : Prop :=
  ∃ report, (reclaimBoot fun _ => fdt).run.run img = (.ok report, img) ∧ report.changed = false

theorem reclaimBoot_skipped (h : slice img 0 8 ≠ android) :
    (reclaimBoot fun _ => fdt).run.run img = (.ok ⟨false, [.notAndroid]⟩, img) := by
  unfold reclaimBoot
  rw [run_bind_of_ok (run_readAt _ _), take_head, if_pos h]
  rfl

theorem reclaimBoot_run (h : HasKernel img) {l : List (Nat × Nat)} {changed : Bool} {img' : Bytes}
    (hl : appendedDtbs (kernelSection img) = .ok l)
    (hloop : (reclaimFirst (fun _ => fdt) (kernelSection img) l).run.run img = (.ok changed, img')) :
    (reclaimBoot fun _ => fdt).run.run img =
      (.ok (if changed then ⟨true, []⟩ else nothingToDo l), img') := by
  have hlen := h.length
  have hhead : 12 ≤ (slice img 0 page).length := by
    rw [length_head]
    unfold page
    omega
  have hkernel : slice img page (le32 img 8) = kernelSection img := rfl
  unfold reclaimBoot
  rw [run_bind_of_ok (run_readAt _ _), take_head, if_neg (not_not.2 h.magic),
    run_bind_of_ok (run_unpackLe32 (by omega)), le32_head (by decide),
    run_bind_of_ok (run_readAt _ _), hkernel, hl, run_bind_of_ok (run_lift _),
    run_bind_of_ok hloop]
  cases changed with
  | true => rfl
  | false => rfl

theorem bootQuiet_iff (h : HasKernel img) : BootQuiet fdt img ↔ AllClean fdt (kernelSection img) := by
  constructor
  · rintro ⟨report, hrun, hquiet⟩
    have hend := reclaimBoot_spec (fun _ => fdt) img
    have hok : ((reclaimBoot fun _ => fdt).run.run img).1 = .ok report := congrArg Prod.fst hrun
    unfold ends at hend
    rw [hok] at hend
    generalize ((reclaimBoot fun _ => fdt).run.run img).2 = img' at hend
    cases hend with
    | skipped hne => exact absurd h.magic hne
    | clean l _ hl hclean =>
      have hfound := appendedDtbs_eq_ok_iff.1 hl
      exact ⟨hfound.whole, fun c hc => hclean c ((hfound.mem c).2 ⟨hc, magic_le hc.magic⟩)⟩
    | written => exact nomatch hquiet
  · rintro ⟨hwhole, hall⟩
    rcases appendedDtbsBelow_spec (kernelSection img) (kernelSection img).length with
      ⟨l, hl, hfound⟩ | ⟨-, hcut⟩
    · have hclean : ∀ c ∈ l, Clean (fun _ => fdt) (kernelSection img) c :=
        fun c hc => hall c ((hfound.mem c).1 hc).1
      exact ⟨_, reclaimBoot_run h hl (reclaimFirst_clean hclean), rfl⟩
    · exact absurd hwhole hcut

/-- If the last blob with something to reclaim is the only one, or there is none at all, one run of
`reclaim_boot` is enough. -/
def SettlesAtOnce (fdt : Fdt) (img : Bytes) : Prop :=
  slice img 0 8 = android → ∀ c blob, LastDirty fdt (kernelSection img) c blob →
    OnlyOne fdt (kernelSection img) c blob

/-- The kernel section and the header once a blob has been written back. -/
theorem kernelSection_overwrite {c : Nat × Nat} {blob : Bytes} (himg : HasKernel img)
    (hc : Blob (kernelSection img) c) (hlen : blob.length = c.2) :
    HasKernel (overwrite img (page + c.1) blob) ∧
      kernelSection (overwrite img (page + c.1) blob) = overwrite (kernelSection img) c.1 blob := by
  have hfits : page + c.1 + blob.length ≤ img.length := by
    rw [hlen]
    exact (blob_fits hc).1
  have hlong := himg.length
  have hpage : page ≤ page + c.1 := Nat.le_add_right page c.1
  refine ⟨⟨by rwa [length_overwrite hfits], ?_⟩, ?_⟩
  · rw [slice_overwrite_of_disjoint hfits (.inl (by unfold page; omega))]
    exact himg.magic
  · have hsize : kernelSize (overwrite img (page + c.1) blob) = kernelSize img :=
      le32_overwrite hpage hfits (by decide)
    rw [kernelSection, hsize]
    refine slice_overwrite_inside ?_
    rw [hlen]
    exact hc.fits

theorem bootQuiet_again_iff (hpure : PureEdits fdt) {report : Report} {img' : Bytes}
    (hrun : (reclaimBoot fun _ => fdt).run.run img = (.ok report, img')) :
    BootQuiet fdt img' ↔ SettlesAtOnce fdt img := by
  have hend := reclaimBoot_spec (fun _ => fdt) img
  unfold ends at hend
  rw [hrun] at hend
  cases hend with
  | skipped hne =>
    exact iff_of_true ⟨_, reclaimBoot_skipped hne, rfl⟩ fun h => absurd h hne
  | clean l himg hl hclean =>
    have hfound := appendedDtbs_eq_ok_iff.1 hl
    refine iff_of_true ⟨_, hrun, rfl⟩ fun _ c blob hdirty => ?_
    have hc := hclean c ((hfound.mem c).2 ⟨hdirty.isBlob, magic_le hdirty.isBlob.magic⟩)
    exact nomatch hc.symm.trans hdirty.patched
  | written l₁ l₂ c blob himg hl hclean hpatch hw =>
    subst hw
    have hfound := appendedDtbs_eq_ok_iff.1 hl
    have hdirty := lastDirty_of_found hfound hclean hpatch
    have hlen : blob.length = c.2 :=
      (patchDtb_some hpatch).1.trans (length_slice hdirty.isBlob.fits)
    obtain ⟨himg', hkernel⟩ := kernelSection_overwrite himg hdirty.isBlob hlen
    rw [bootQuiet_iff himg', hkernel, allClean_overwrite_iff hpure hfound hclean hpatch]
    constructor
    · intro honly _ c' blob' hdirty'
      obtain ⟨rfl, rfl⟩ := hdirty.unique hdirty'
      exact honly
    · exact fun h => h himg.magic c blob hdirty

end Boot

/-! ## Two runs -/

/-- A run as root, with one and the same pair of tools throughout. -/
abbrev rootEnv (fdt : Fdt) (live : Bool) : Env := ⟨true, fdt, fun _ => fdt, live⟩

/-- A run ends well, writes nothing, and reports no change. -/
def Quiet (fdt : Fdt) (live : Bool) (disk : Disk) : Prop :=
  ∃ report, (main (rootEnv fdt live)).run.run disk = (.ok report, disk) ∧ report.changed = false

section Main

variable {fdt : Fdt} {live : Bool} {disk disk' : Disk}

/-- What a run reports, from what it did to the one partition and the other. -/
def reportOf (live vendorBoot : Bool) (boot : Report) : Report :=
  ⟨vendorBoot || boot.changed, boot.printed ++ if vendorBoot || boot.changed then [.reclaimed]
    else if live then [] else [.stillPending]⟩

/-- A run that ends well is a run on the one partition and one on the other. -/
theorem main_ok_iff {report : Report} :
    (main (rootEnv fdt live)).run.run disk = (.ok report, disk') ↔
      ∃ vendorBoot boot,
        (reclaimVendorBoot fdt).run.run disk.vendorBoot = (.ok vendorBoot, disk'.vendorBoot) ∧
        (reclaimBoot fun _ => fdt).run.run disk.boot = (.ok boot, disk'.boot) ∧
        report = reportOf live vendorBoot boot := by
  rw [← ends_run_iff]
  unfold main
  simp only [Bool.not_true, Bool.false_eq_true, if_false, ends_bind, onVendorBoot, onBoot, ends_zoom,
    ends_pure]
  unfold ends
  rcases (reclaimVendorBoot fdt).run.run disk.vendorBoot with ⟨v, vendorBoot⟩
  rcases (reclaimBoot fun _ => fdt).run.run disk.boot with ⟨b, boot⟩
  cases v with
  | error e =>
    refine iff_of_false (fun h => by cases h.1) ?_
    rintro ⟨_, _, hv, -⟩
    cases congrArg Prod.fst hv
  | ok v =>
    cases b with
    | error e =>
      refine iff_of_false (fun h => by cases h.1) ?_
      rintro ⟨_, _, -, hb, -⟩
      cases congrArg Prod.fst hb
    | ok b =>
      constructor
      · rintro ⟨hreport, rfl⟩
        exact ⟨v, b, rfl, rfl, (Except.ok.inj hreport).symm⟩
      · rintro ⟨_, _, hv, hb, rfl⟩
        cases hv
        cases hb
        exact ⟨rfl, rfl⟩

/-- After a run that ended well, the next one is quiet if it finds nothing to do in boot. -/
theorem quiet_iff (hpure : PureEdits fdt) {live' : Bool} {report : Report}
    (hrun : (main (rootEnv fdt live)).run.run disk = (.ok report, disk')) :
    Quiet fdt live' disk' ↔ BootQuiet fdt disk'.boot := by
  obtain ⟨v, b, hv, hb, -⟩ := main_ok_iff.1 hrun
  have hagain := reclaimVendorBoot_again hpure hv
  constructor
  · rintro ⟨report', hrun', hquiet⟩
    obtain ⟨v', b', -, hb', rfl⟩ := main_ok_iff.1 hrun'
    exact ⟨b', hb', (Bool.or_eq_false_iff.1 hquiet).2⟩
  · rintro ⟨b', hb', hquiet⟩
    exact ⟨_, main_ok_iff.2 ⟨false, b', hagain, hb', rfl⟩, by simpa [reportOf] using hquiet⟩

/-- **A second run is quiet precisely when the first one left nothing to reclaim in the kernel
section.** -/
theorem rerun_quiet_iff (hpure : PureEdits fdt) {live' : Bool} {report : Report}
    (hrun : (main (rootEnv fdt live)).run.run disk = (.ok report, disk')) :
    Quiet fdt live' disk' ↔ SettlesAtOnce fdt disk.boot := by
  obtain ⟨v, b, -, hb, -⟩ := main_ok_iff.1 hrun
  rw [quiet_iff hpure hrun, bootQuiet_again_iff hpure hb]

end Main

/-! ### One tree and two

A tree with one of the regions, and without it as `fdtput` packs it. -/

/-- `/reserved-memory`, with the splash region in it or not. -/
def reservedStruct (splash : Bool) : Bytes :=
  [beginNode [], beginNode ['r', 'e', 's', 'e', 'r', 'v', 'e', 'd', '-', 'm', 'e', 'm', 'o', 'r', 'y'],
    if splash then beginNode ['s', 'p', 'l', 'a', 's', 'h', '_', 'r', 'e', 'g', 'i', 'o', 'n'] ++ be32 2
      else [],
    be32 2, be32 2, be32 9].flatten

def reservedTree (splash : Bool) : Bytes :=
  let struct := reservedStruct splash
  [fdtMagic, be32 (56 + struct.length), be32 56, be32 (56 + struct.length), be32 40, be32 17, be32 16,
    be32 0, be32 0, be32 struct.length, List.replicate 16 0, struct].flatten

/-- The tools on these trees. -/
def splashFdt : Fdt where
  list b _ := some (if b = reservedTree true then ["splash_region"] else [])
  hasProp _ _ _ := false
  removeNode b _ := if b = reservedTree true then some (reservedTree false) else none
  removeProp _ _ _ := none

/-- The tree without the region, in the place of the one with it. -/
def reclaimedTree : Bytes :=
  overwrite (reservedTree false ++ List.replicate 24 0) 4 (packBe32 120)

theorem stale_splashFdt (dtb : Bytes) : stale splashFdt dtb = [] := by
  simp [stale, splashFdt]

theorem length_reservedTree : (reservedTree true).length = 120 ∧ (reservedTree false).length = 96 :=
  ⟨rfl, rfl⟩

theorem length_reclaimedTree : reclaimedTree.length = 120 := by
  rw [reclaimedTree, length_overwrite]
  · rw [List.length_append, List.length_replicate, length_reservedTree.2]
  · rw [List.length_append, List.length_replicate, length_reservedTree.2, length_packBe32]
    decide

theorem patchDtb_splash : patchDtb splashFdt (reservedTree true) = .ok (some reclaimedTree) := by
  have hvictims : victims splashFdt (reservedTree true) = ["splash_region"] := by
    simp [victims, fdtNodes, splashFdt, regions]
  have hedited : edited splashFdt (reservedTree true) = some (reservedTree false) := by
    unfold edited
    rw [hvictims, stale_splashFdt]
    simp [splashFdt]
  obtain ⟨hold, hnew⟩ := length_reservedTree
  have hfield : 8 ≤ (reservedTree false ++ List.replicate 24 (0 : UInt8)).length ∧ 120 < 2 ^ 32 := by
    rw [List.length_append, List.length_replicate, hnew]
    decide
  unfold patchDtb
  rw [hvictims, hedited, hold]
  dsimp only
  rw [hnew, if_neg (by decide), if_neg (by decide), packTotal, if_pos hfield]
  rfl

theorem patchDtb_other {dtb : Bytes} (h : dtb ≠ reservedTree true) :
    patchDtb splashFdt dtb = .ok none := by
  have hvictims : victims splashFdt dtb = [] := by
    simp [victims, fdtNodes, splashFdt, h]
  unfold patchDtb
  rw [hvictims, stale_splashFdt]
  rfl

theorem pureEdits_splashFdt : PureEdits splashFdt := by
  have hcase : ∀ {dtb blob}, patchDtb splashFdt dtb = .ok (some blob) → blob = reclaimedTree := by
    intro dtb blob h
    by_cases hd : dtb = reservedTree true
    · subst hd
      exact Option.some.inj (Except.ok.inj (h.symm.trans patchDtb_splash))
    · exact nomatch (patchDtb_other hd).symm.trans h
  refine ⟨fun h => ?_, fun h => ?_⟩
  · obtain rfl := hcase h
    decide
  · obtain rfl := hcase h
    exact patchDtb_other (by decide)

/-- One instruction and that many trees. -/
def treesKernel : Nat → Bytes
  | 0 => [0x1f, 0x20, 0x03, 0xd5]
  | n + 1 => treesKernel n ++ reservedTree true

theorem length_treesKernel (n : Nat) : (treesKernel n).length = 4 + 120 * n := by
  induction n with
  | zero => rfl
  | succ n ih =>
    rw [treesKernel, List.length_append, ih, length_reservedTree.1]
    omega

theorem slice_treesKernel (n : Nat) : slice (treesKernel (n + 1)) (4 + 120 * n) 120 = reservedTree true := by
  rw [treesKernel, ← List.append_nil (reservedTree true)]
  exact slice_append_middle (length_treesKernel n) length_reservedTree.1

/-- A disk with these trees in boot, and a reclaimed one in vendor_boot. -/
def treesDisk (n : Nat) : Disk :=
  ⟨assembleBoot (treesKernel n) (List.replicate page 0), image (reservedTree false)⟩

theorem vendorBoot_treesDisk (n : Nat) :
    (reclaimVendorBoot splashFdt).run.run (treesDisk n).vendorBoot =
      (.ok false, (treesDisk n).vendorBoot) := by
  have hlen : (reservedTree false).length < 2 ^ 32 := by
    rw [length_reservedTree.2]
    decide
  have hv : VendorBoot (image (reservedTree false)) :=
    vendorBoot_assemble (by decide) hlen (by decide) (by decide) (by decide)
  have hdtb : dtb (image (reservedTree false)) = reservedTree false := dtb_assemble (by decide) hlen
  have htree := hasTree_of_vendorBoot hv
  show (reclaimVendorBoot splashFdt).run.run (image (reservedTree false)) = _
  rw [reclaimVendorBoot_run htree, hdtb, patchDtb_other (by decide)]
  rfl

section

variable {n : Nat} (hlen : (treesKernel n).length < 2 ^ 32)
include hlen

theorem kernelSection_treesDisk : kernelSection (treesDisk n).boot = treesKernel n :=
  kernelSection_assembleBoot hlen

theorem hasKernel_treesDisk : HasKernel (treesDisk n).boot := by
  have himg : BootImage (treesDisk n).boot := bootImage_assembleBoot hlen
  have hfits := himg.fits
  unfold page at hfits
  exact ⟨by omega, himg.magic⟩

/-- The first run writes back the last tree. -/
theorem main_treesDisk {off : Nat} {l : List (Nat × Nat)}
    (hl : appendedDtbs (treesKernel n) = .ok ((off, 120) :: l))
    (htree : slice (treesKernel n) off 120 = reservedTree true) :
    (main (rootEnv splashFdt false)).run.run (treesDisk n) =
      (.ok (reportOf false false ⟨true, []⟩),
        ⟨overwrite (treesDisk n).boot (page + off) reclaimedTree, (treesDisk n).vendorBoot⟩) := by
  have hkernel := kernelSection_treesDisk hlen
  have hblob : Blob (kernelSection (treesDisk n).boot) (off, 120) := by
    rw [hkernel]
    exact (((appendedDtbs_eq_ok_iff.1 hl).mem _).1 List.mem_cons_self).1
  have hpatch : patchDtb splashFdt (slice (kernelSection (treesDisk n).boot) off 120) =
      .ok (some reclaimedTree) := by
    rw [hkernel, htree]
    exact patchDtb_splash
  have hloop : (reclaimFirst (fun _ => splashFdt) (kernelSection (treesDisk n).boot)
      ([] ++ (off, 120) :: l)).run.run (treesDisk n).boot =
        (.ok true, overwrite (treesDisk n).boot (page + off) reclaimedTree) :=
    reclaimFirst_written (by simp) hblob hpatch
  have hboot := reclaimBoot_run (hasKernel_treesDisk hlen) (by rw [hkernel]; exact hl) hloop
  exact main_ok_iff.2 ⟨false, ⟨true, []⟩, vendorBoot_treesDisk n, hboot, rfl⟩

end

/-- A finite check for the places of the magic. -/
theorem stands_iff_mem {kernel : Bytes} {l : List Nat} (hlt : ∀ i ∈ l, i < kernel.length)
    (hall : ∀ i < kernel.length, Stands kernel fdtMagic i ↔ i ∈ l) (i : Nat) :
    Stands kernel fdtMagic i ↔ i ∈ l := by
  by_cases hi : i < kernel.length
  · exact hall i hi
  · refine iff_of_false (fun h => ?_) fun h => hi (hlt i h)
    have hle := magic_le h
    omega

/-- Where the magic stands: before the first run, and behind the tree it wrote. -/
theorem stands_trees :
    (∀ i < 124, Stands (treesKernel 1) fdtMagic i ↔ i ∈ [4]) ∧
      (∀ i < 244, Stands (treesKernel 2) fdtMagic i ↔ i ∈ [124, 4]) ∧
      ∀ i < 124, 4 < i → ¬ Stands (overwrite (treesKernel 1) 4 reclaimedTree) fdtMagic i := by
  decide +kernel

theorem appendedDtbs_oneTree : appendedDtbs (treesKernel 1) = .ok [(4, 120)] := by
  have hlen := length_treesKernel 1
  refine appendedDtbs_of_stands (stands_iff_mem ?_ ?_) (fun c hc => ?_) (List.pairwise_singleton _ _)
  · rw [hlen]
    decide
  · rw [hlen]
    exact stands_trees.1
  · obtain rfl := List.mem_singleton.1 hc
    exact ⟨by decide, by decide, by decide, by rw [hlen]⟩

theorem appendedDtbs_twoTrees : appendedDtbs (treesKernel 2) = .ok [(124, 120), (4, 120)] := by
  have hlen := length_treesKernel 2
  refine appendedDtbs_of_stands (stands_iff_mem ?_ ?_) (fun c hc => ?_) (by decide)
  · rw [hlen]
    decide
  · rw [hlen]
    exact stands_trees.2.1
  · have hcases : c = (124, 120) ∨ c = (4, 120) := by simpa using hc
    rcases hcases with rfl | rfl
    · exact ⟨by decide, by decide, by decide, by rw [hlen]; decide⟩
    · exact ⟨by decide, by decide, by decide, by rw [hlen]; decide⟩

theorem patchDtb_tree {kernel : Bytes} {off : Nat} (h : slice kernel off 120 = reservedTree true) :
    patchDtb splashFdt (slice kernel off 120) = .ok (some reclaimedTree) := by
  rw [h]
  exact patchDtb_splash

/-- With one tree to reclaim, one run is enough. -/
theorem rerun_quiet_oneTree :
    ∃ report disk', (main (rootEnv splashFdt false)).run.run (treesDisk 1) = (.ok report, disk') ∧
      Quiet splashFdt false disk' := by
  have hlen : (treesKernel 1).length < 2 ^ 32 := by
    rw [length_treesKernel]
    decide
  have htree : slice (treesKernel 1) 4 120 = reservedTree true := slice_treesKernel 0
  have hkernel := kernelSection_treesDisk hlen
  have hrun := main_treesDisk hlen appendedDtbs_oneTree htree
  have hfound : Found (treesKernel 1) (treesKernel 1).length ([] ++ (4, 120) :: []) :=
    appendedDtbs_eq_ok_iff.1 appendedDtbs_oneTree
  have hlast : LastDirty splashFdt (treesKernel 1) (4, 120) reclaimedTree :=
    lastDirty_of_found hfound (by simp) (patchDtb_tree htree)
  have honly : OnlyOne splashFdt (treesKernel 1) (4, 120) reclaimedTree := by
    have hrep := replaced_overwrite hlast.isBlob length_reclaimedTree
      (pureEdits_splashFdt.tree patchDtb_splash) (by decide)
    refine (onlyOne_iff_of_apart hrep (fun d hd hlt => ?_) fun i hi hlt =>
      stands_trees.2.2 i hlt hi).2 ?_
    · have hd4 := (hfound.mem d).2 ⟨hd, magic_le hd.magic⟩
      obtain rfl := List.mem_singleton.1 hd4
      exact absurd hlt (by decide)
    · intro d hd hlt
      have hd4 := (hfound.mem d).2 ⟨hd, magic_le hd.magic⟩
      obtain rfl := List.mem_singleton.1 hd4
      exact absurd hlt (by decide)
  refine ⟨_, _, hrun, (rerun_quiet_iff pureEdits_splashFdt hrun).2 fun _ c blob hdirty => ?_⟩
  rw [hkernel] at hdirty ⊢
  obtain ⟨rfl, rfl⟩ := hlast.unique hdirty
  exact honly

/-- With two, the first run leaves the other one for the next. -/
theorem twoTrees_not_quiet :
    PureEdits splashFdt ∧
      ∃ report disk', (main (rootEnv splashFdt false)).run.run (treesDisk 2) = (.ok report, disk') ∧
        ¬ Quiet splashFdt false disk' := by
  have hlen : (treesKernel 2).length < 2 ^ 32 := by
    rw [length_treesKernel]
    decide
  have hfirst : slice (treesKernel 2) 4 120 = reservedTree true :=
    (slice_append_left (by rw [length_treesKernel])).trans (slice_treesKernel 0)
  have hsecond : slice (treesKernel 2) 124 120 = reservedTree true := slice_treesKernel 1
  have hkernel := kernelSection_treesDisk hlen
  have hmagic := (hasKernel_treesDisk hlen).magic
  have hrun := main_treesDisk hlen appendedDtbs_twoTrees hsecond
  have hfound : Found (treesKernel 2) (treesKernel 2).length ([] ++ (124, 120) :: [(4, 120)]) :=
    appendedDtbs_eq_ok_iff.1 appendedDtbs_twoTrees
  have hlast : LastDirty splashFdt (treesKernel 2) (124, 120) reclaimedTree :=
    lastDirty_of_found hfound (by simp) (patchDtb_tree hsecond)
  refine ⟨pureEdits_splashFdt, _, _, hrun, fun hquiet => ?_⟩
  obtain ⟨_, _, -, hboot, -⟩ := main_ok_iff.1 hrun
  have hsettles := (bootQuiet_again_iff pureEdits_splashFdt hboot).1
    ((quiet_iff pureEdits_splashFdt hrun).1 hquiet)
  have honly := hsettles hmagic (124, 120) reclaimedTree (by rw [hkernel]; exact hlast)
  rw [hkernel] at honly
  have hclean := honly.before (4, 120) ((hfound.mem _).1 (by simp)).1 (by decide)
  exact nomatch hclean.symm.trans (patchDtb_tree hfirst)

end Gts9Wifi.Boot.MemReclaim
