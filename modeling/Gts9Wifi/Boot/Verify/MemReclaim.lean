import Gts9Wifi.Boot.Verify.AppendedDtb

/-!
# Reclaiming rewrites trees in place

A patched blob has the length the old one had, with that length in its header, whatever the tools
return. The vendor_boot script writes it where the header says the tree is, the boot script where a
header was found in the kernel section, and nothing else is ever written.
-/

namespace Gts9Wifi.Boot.MemReclaim

open Driver

/-! ## Patching -/

/-- What a blob that was patched is like. -/
theorem patchDtb_some {fdt : Fdt} {dtb blob : Bytes} (h : patchDtb fdt dtb = .ok (some blob)) :
    blob.length = dtb.length ∧ 8 ≤ dtb.length ∧ readBe32 blob 4 = dtb.length := by
  unfold patchDtb at h
  split at h
  · exact nomatch h
  split at h
  · exact nomatch h
  split at h
  · exact nomatch h
  next out _ hgrew =>
  have hpadded : (out ++ List.replicate (dtb.length - out.length) (0 : UInt8)).length =
      dtb.length := by
    rw [List.length_append, List.length_replicate]
    omega
  unfold packTotal at h
  split at h
  · next hfield =>
    obtain rfl := Option.some.inj (Except.ok.inj h)
    rw [hpadded] at hfield
    refine ⟨?_, hfield.1, readBe32_overwrite (by omega) hfield.2⟩
    rw [length_overwrite (by rw [length_packBe32]; omega), hpadded]
  · exact nomatch h

/-! ## Reading -/

theorem ends_readAt_seq {α : Type} {off len : Nat} {img : Bytes} {f : Bytes → PartM α}
    {Q : Except Exit α → Bytes → Prop} (h : ends (f (slice img off len)) img Q) :
    ends (readAt off len >>= f) img Q := by
  rw [ends_bind]
  exact h

theorem ends_unpackLe32_seq {α : Type} {b : Bytes} {off : Nat} {img : Bytes} {f : Nat → PartM α}
    {Q : Except Exit α → Bytes → Prop}
    (hok : off + 4 ≤ b.length → ends (f (le32 b off)) img Q)
    (hcut : ¬ off + 4 ≤ b.length → Q (.error .structError) img) :
    ends (unpackLe32 b off >>= f) img Q := by
  rw [ends_bind]
  unfold unpackLe32
  split
  · next h => exact hok h
  · next h => exact hcut h

/-! ## Rewriting in place -/

/-- `img'` is `img` with `len` bytes at `off`, behind the header page, replaced by a blob whose header
says that it is `len` bytes long. -/
structure Rewritten (img img' : Bytes) (off len : Nat) : Prop where
  behindHeader : page ≤ off
  inside : off + len ≤ img.length
  located : Stands img fdtMagic off
  length : img'.length = img.length
  outside : ∀ i, i < off ∨ off + len ≤ i → img'[i]? = img[i]?
  total : readBe32 img' (off + 4) = len

theorem rewritten_overwrite {img blob : Bytes} {off : Nat} (hpage : page ≤ off)
    (hfits : off + blob.length ≤ img.length) (hlocated : Stands img fdtMagic off)
    (h8 : 8 ≤ blob.length) (htotal : readBe32 blob 4 = blob.length) :
    Rewritten img (overwrite img off blob) off blob.length where
  behindHeader := hpage
  inside := hfits
  located := hlocated
  length := length_overwrite hfits
  outside := by
    intro i hi
    rw [getElem?_overwrite hfits]
    rcases hi with hi | hi
    · rw [if_pos hi]
    · rw [if_neg (by omega), if_neg (by omega)]
  total := by
    rw [readBe32, slice_overwrite_within hfits h8]
    exact htotal

/-! ## vendor_boot -/

/-- The header of the partition says where the tree is, and one is there. -/
structure HasTree (img : Bytes) : Prop where
  length : 2104 ≤ img.length
  magic : slice img 0 8 = vndrboot
  tree : (dtb img).take 4 = fdtMagic

section VendorBoot

variable {fdt : Fdt} {img : Bytes}

theorem length_head : (slice img 0 page).length = min page img.length := by
  simp [slice]

/-- The tree is not the header page itself, which has another magic. -/
theorem HasTree.page_le (h : HasTree img) : page ≤ dtbOff img := by
  by_contra hlt
  have hoff : dtbOff img = 0 := by
    unfold dtbOff vendorRamdiskOff pageAlign page at *
    omega
  have htree := congrArg (fun l => l[0]?) h.tree
  have hmagic := congrArg (fun l => l[0]?) h.magic
  rw [dtb, hoff] at htree
  simp only [List.getElem?_take, getElem?_slice] at htree hmagic
  rw [if_pos (by decide)] at htree hmagic
  split at htree
  · exact absurd (htree.symm.trans hmagic) (by decide)
  · exact absurd htree (by decide)

theorem HasTree.stands (h : HasTree img) : Stands img fdtMagic (dtbOff img) := by
  have htree := h.tree
  rw [dtb, slice, List.take_take] at htree
  have hlen := congrArg List.length htree
  rw [List.length_take] at hlen
  have hfour : min 4 (dtbSize img) = 4 := by
    have hmagic : fdtMagic.length = 4 := rfl
    omega
  rw [hfour] at htree
  exact htree

/-- The part of the image that a whole tree takes. -/
theorem dtb_fits {blob : Bytes} (hlen : blob.length = (dtb img).length)
    (hsize : blob.length = dtbSize img) (hpos : 0 < blob.length) :
    dtbOff img + blob.length ≤ img.length := by
  rw [dtb, slice, List.length_take, List.length_drop] at hlen
  omega

/-- What the script does with a tree that is there. -/
theorem reclaimVendorBoot_run (h : HasTree img) :
    (reclaimVendorBoot fdt).run.run img =
      match patchDtb fdt (dtb img) with
      | .error e => (.error e, img)
      | .ok none => (.ok false, img)
      | .ok (some blob) =>
        if blob.length = dtbSize img then (.ok true, overwrite img (dtbOff img) blob)
        else (.error .vendorBootEnvelope, img) := by
  have hlen := h.length
  have hhead : 2104 ≤ (slice img 0 page).length := by
    rw [length_head]
    unfold page
    omega
  have hmagic : (slice img 0 page).take 8 = vndrboot := by
    rw [take_head]
    exact h.magic
  have hoff : pageAlign (le32 img 2096) + pageAlign (le32 img 24) = dtbOff img := rfl
  have hsize : le32 img 2100 = dtbSize img := rfl
  have hold : slice img (dtbOff img) (dtbSize img) = dtb img := rfl
  unfold reclaimVendorBoot
  rw [run_bind_of_ok (run_readAt _ _), if_neg (not_not.2 hmagic),
    run_bind_of_ok (run_unpackLe32 (by omega)), run_bind_of_ok (run_unpackLe32 (by omega)),
    run_bind_of_ok (run_unpackLe32 (by omega)), le32_head (by decide), le32_head (by decide),
    le32_head (by decide)]
  dsimp only
  rw [hoff, hsize, run_bind_of_ok (run_readAt _ _), hold, if_neg (not_not.2 h.tree)]
  cases hpatch : patchDtb fdt (dtb img) with
  | error e => rfl
  | ok blob =>
    cases blob with
    | none => rfl
    | some blob =>
      obtain ⟨hblob, h8, -⟩ := patchDtb_some hpatch
      rw [run_bind_of_ok (run_lift _)]
      dsimp only
      by_cases henv : blob.length = dtbSize img
      · have hfits := dtb_fits hblob henv (by omega)
        rw [if_pos henv, if_neg (not_not.2 henv), run_bind_of_ok (run_writeAt hfits)]
        rfl
      · rw [if_neg henv, if_pos henv]
        rfl

/-- Without one it gives up. -/
theorem reclaimVendorBoot_error (h : ¬ HasTree img) :
    ∃ e, (reclaimVendorBoot fdt).run.run img = (.error e, img) := by
  suffices hends : ends (reclaimVendorBoot fdt) img fun r img' => (∃ e, r = .error e) ∧ img' = img by
    obtain ⟨⟨e, he⟩, himg⟩ := hends
    exact ⟨e, Prod.ext he himg⟩
  have hstop : ∀ e : Exit, (∃ e' : Exit, (.error e : Except Exit Bool) = .error e') ∧ img = img :=
    fun e => ⟨⟨e, rfl⟩, rfl⟩
  unfold reclaimVendorBoot
  apply ends_readAt_seq
  refine ends_ite (fun _ => hstop _) fun hmagic => ?_
  refine ends_unpackLe32_seq (fun _ => ?_) fun _ => hstop _
  refine ends_unpackLe32_seq (fun _ => ?_) fun _ => hstop _
  refine ends_unpackLe32_seq (fun hlen => ?_) fun _ => hstop _
  apply ends_readAt_seq
  refine ends_ite (fun _ => hstop _) fun htree => ?_
  -- every check has been passed
  rw [le32_head (by decide), le32_head (by decide), le32_head (by decide)] at htree
  rw [length_head] at hlen
  have hhead : slice img 0 8 = vndrboot := by
    rw [← take_head]
    exact not_not.1 hmagic
  exact absurd ⟨by omega, hhead, not_not.1 htree⟩ h

/-- The script leaves the partition alone, or rewrites its tree. -/
theorem reclaimVendorBoot_frame (fdt : Fdt) (img : Bytes) :
    ends (reclaimVendorBoot fdt) img fun _ img' =>
      img' = img ∨ Rewritten img img' (dtbOff img) (dtbSize img) := by
  by_cases h : HasTree img
  · unfold ends
    rw [reclaimVendorBoot_run h]
    cases hpatch : patchDtb fdt (dtb img) with
    | error e => exact .inl rfl
    | ok blob =>
      cases blob with
      | none => exact .inl rfl
      | some blob =>
        dsimp only
        by_cases henv : blob.length = dtbSize img
        · obtain ⟨hlen, h8, htotal⟩ := patchDtb_some hpatch
          have hfits := dtb_fits hlen henv (by omega)
          rw [if_pos henv, ← henv]
          refine .inr (rewritten_overwrite h.page_le hfits h.stands (by omega) ?_)
          rw [htotal, hlen]
        · rw [if_neg henv]
          exact .inl rfl
  · obtain ⟨e, he⟩ : ∃ e, (reclaimVendorBoot fdt).run.run img = (.error e, img) :=
      reclaimVendorBoot_error h
    unfold ends
    rw [he]
    exact .inl rfl

end VendorBoot

/-! ## boot -/

section Boot

variable {fdt : Nat → Fdt} {img : Bytes}

/-- There is nothing to reclaim in a blob of the kernel section. -/
def Clean (fdt : Nat → Fdt) (kernel : Bytes) (c : Nat × Nat) : Prop :=
  patchDtb (fdt c.1) (slice kernel c.1 c.2) = .ok none

/-- A blob of the kernel section lies in the partition, and is as long as it says. -/
theorem blob_fits {c : Nat × Nat} (h : Blob (kernelSection img) c) :
    page + c.1 + c.2 ≤ img.length ∧ (slice (kernelSection img) c.1 c.2).length = c.2 := by
  have hfits := h.fits
  have hleast := h.least
  refine ⟨?_, length_slice hfits⟩
  have hlen : (kernelSection img).length = min (kernelSize img) (img.length - page) := by
    simp [kernelSection, slice]
  omega

theorem blob_stands {c : Nat × Nat} (h : Blob (kernelSection img) c) :
    Stands img fdtMagic (page + c.1) := by
  have hfits := h.fits
  have hleast := h.least
  have hmagic := h.magic
  have hlen : (kernelSection img).length ≤ kernelSize img := by
    simp [kernelSection, slice]
  unfold Stands at hmagic ⊢
  rwa [kernelSection, slice_slice] at hmagic
  show c.1 + 4 ≤ _
  omega

/-- How the loop over the blobs ends: all of them are clean, or the first one that is not has been
written back, or it has stopped before that. -/
inductive LoopEnd (fdt : Nat → Fdt) (img : Bytes) (l : List (Nat × Nat)) : Except Exit Bool → Bytes → Prop
  | stopped (e : Exit) : LoopEnd fdt img l (.error e) img
  | clean (h : ∀ c ∈ l, Clean fdt (kernelSection img) c) : LoopEnd fdt img l (.ok false) img
  | written (l₁ l₂ : List (Nat × Nat)) (c : Nat × Nat) (blob : Bytes) (hl : l = l₁ ++ c :: l₂)
    (h : ∀ d ∈ l₁, Clean fdt (kernelSection img) d)
    (hc : patchDtb (fdt c.1) (slice (kernelSection img) c.1 c.2) = .ok (some blob)) {img' : Bytes}
    (hw : img' = overwrite img (page + c.1) blob) : LoopEnd fdt img l (.ok true) img'

theorem reclaimFirst_spec {l : List (Nat × Nat)} (hl : ∀ c ∈ l, Blob (kernelSection img) c) :
    ends (reclaimFirst fdt (kernelSection img) l) img (LoopEnd fdt img l) := by
  induction l with
  | nil => exact .clean fun c hc => nomatch hc
  | cons c l ih =>
    have hblob := hl c List.mem_cons_self
    obtain ⟨hfits, hlen⟩ := blob_fits hblob
    rw [reclaimFirst, ends_bind, ends_lift]
    cases hpatch : patchDtb (fdt c.1) (slice (kernelSection img) c.1 c.2) with
    | error e => exact .stopped e
    | ok blob =>
      cases blob with
      | none =>
        refine ends_mono (ih fun d hd => hl d (List.mem_cons_of_mem c hd)) fun r img' hr => ?_
        cases hr with
        | stopped e => exact .stopped e
        | clean h =>
          refine .clean fun d hd => ?_
          rcases List.mem_cons.1 hd with rfl | hd
          · exact hpatch
          · exact h d hd
        | written l₁ l₂ d blob hl h hd hw =>
          refine .written (c :: l₁) l₂ d blob (by rw [hl]; rfl) (fun d hd => ?_) hd hw
          rcases List.mem_cons.1 hd with rfl | hd
          · exact hpatch
          · exact h d hd
      | some blob =>
        have hsame := (patchDtb_some hpatch).1
        have hwrite : page + c.1 + blob.length ≤ img.length := by omega
        refine ends_ite (fun hne => absurd (hsame.trans hlen) hne) fun _ => ?_
        unfold ends
        rw [run_bind_of_ok (run_writeAt hwrite)]
        exact .written [] l c blob rfl (fun d hd => nomatch hd) hpatch rfl

theorem reclaimFirst_clean {kernel : Bytes} {l : List (Nat × Nat)} (h : ∀ c ∈ l, Clean fdt kernel c) :
    (reclaimFirst fdt kernel l).run.run img = (.ok false, img) := by
  induction l with
  | nil => rfl
  | cons c l ih =>
    have hc : patchDtb (fdt c.1) (slice kernel c.1 c.2) = .ok none := h c List.mem_cons_self
    rw [reclaimFirst, hc, run_bind_of_ok (run_lift _)]
    exact ih fun d hd => h d (List.mem_cons_of_mem c hd)

theorem reclaimFirst_written {l₁ l₂ : List (Nat × Nat)} {c : Nat × Nat} {blob : Bytes}
    (h : ∀ d ∈ l₁, Clean fdt (kernelSection img) d) (hblob : Blob (kernelSection img) c)
    (hc : patchDtb (fdt c.1) (slice (kernelSection img) c.1 c.2) = .ok (some blob)) :
    (reclaimFirst fdt (kernelSection img) (l₁ ++ c :: l₂)).run.run img =
      (.ok true, overwrite img (page + c.1) blob) := by
  obtain ⟨hfits, hlen⟩ := blob_fits hblob
  have hsize : blob.length = c.2 := (patchDtb_some hc).1.trans hlen
  induction l₁ with
  | nil =>
    rw [List.nil_append, reclaimFirst, hc, run_bind_of_ok (run_lift _)]
    dsimp only
    rw [if_neg (not_not.2 hsize), run_bind_of_ok (run_writeAt (by omega))]
    rfl
  | cons d l₁ ih =>
    have hd : patchDtb (fdt d.1) (slice (kernelSection img) d.1 d.2) = .ok none :=
      h d List.mem_cons_self
    rw [List.cons_append, reclaimFirst, hd, run_bind_of_ok (run_lift _)]
    exact ih fun e he => h e (List.mem_cons_of_mem d he)

/-- The header of the partition has its magic and its size field. -/
structure HasKernel (img : Bytes) : Prop where
  length : 12 ≤ img.length
  magic : slice img 0 8 = android

/-- What the script says when it has nothing to write. -/
def nothingToDo (l : List (Nat × Nat)) : Report :=
  ⟨false, [if l.isEmpty then .noAppendedDtb else .alreadyReclaimed]⟩

/-- How `reclaim_boot` ends. -/
inductive BootEnd (fdt : Nat → Fdt) (img : Bytes) : Except Exit Report → Bytes → Prop
  | stopped (e : Exit) : BootEnd fdt img (.error e) img
  | skipped (h : slice img 0 8 ≠ android) : BootEnd fdt img (.ok ⟨false, [.notAndroid]⟩) img
  | clean (l : List (Nat × Nat)) (himg : HasKernel img)
    (hl : appendedDtbs (kernelSection img) = .ok l)
    (h : ∀ c ∈ l, Clean fdt (kernelSection img) c) : BootEnd fdt img (.ok (nothingToDo l)) img
  | written (l₁ l₂ : List (Nat × Nat)) (c : Nat × Nat) (blob : Bytes) (himg : HasKernel img)
    (hl : appendedDtbs (kernelSection img) = .ok (l₁ ++ c :: l₂))
    (h : ∀ d ∈ l₁, Clean fdt (kernelSection img) d)
    (hc : patchDtb (fdt c.1) (slice (kernelSection img) c.1 c.2) = .ok (some blob)) {img' : Bytes}
    (hw : img' = overwrite img (page + c.1) blob) : BootEnd fdt img (.ok ⟨true, []⟩) img'

theorem reclaimBoot_spec (fdt : Nat → Fdt) (img : Bytes) :
    ends (reclaimBoot fdt) img (BootEnd fdt img) := by
  unfold reclaimBoot
  apply ends_readAt_seq
  refine ends_ite (fun hne => .skipped (by rwa [take_head] at hne)) fun hmagic => ?_
  refine ends_unpackLe32_seq (fun hlen => ?_) fun _ => .stopped _
  apply ends_readAt_seq
  rw [length_head] at hlen
  have himg : HasKernel img := ⟨by omega, by rw [← take_head]; exact not_not.1 hmagic⟩
  have hkernel : slice img page (le32 (slice img 0 page) 8) = kernelSection img := by
    rw [le32_head (by decide)]
    rfl
  rw [hkernel, ends_bind, ends_lift]
  cases hl : appendedDtbs (kernelSection img) with
  | error e => exact .stopped e
  | ok l =>
    have hblobs : ∀ c ∈ l, Blob (kernelSection img) c :=
      fun c hc => (((appendedDtbs_eq_ok_iff.1 hl).mem c).1 hc).1
    dsimp only
    rw [ends_bind]
    refine ends_mono (reclaimFirst_spec hblobs) fun r img' hr => ?_
    cases hr with
    | stopped e => exact .stopped e
    | clean h => exact .clean l himg hl h
    | written l₁ l₂ c blob hcut h hc hw => exact .written l₁ l₂ c blob himg (hcut ▸ hl) h hc hw

/-- The script leaves the partition alone, or rewrites one tree of the kernel section. -/
theorem reclaimBoot_frame (fdt : Nat → Fdt) (img : Bytes) :
    ends (reclaimBoot fdt) img fun _ img' =>
      img' = img ∨ ∃ c, Blob (kernelSection img) c ∧ Rewritten img img' (page + c.1) c.2 := by
  refine ends_mono (reclaimBoot_spec fdt img) fun r img' hr => ?_
  cases hr with
  | stopped e => exact .inl rfl
  | skipped h => exact .inl rfl
  | clean l himg hl h => exact .inl rfl
  | written l₁ l₂ c blob himg hl h hc hw =>
    subst hw
    have hblob : Blob (kernelSection img) c :=
      (((appendedDtbs_eq_ok_iff.1 hl).mem c).1 (by simp)).1
    obtain ⟨hfits, hlen⟩ := blob_fits hblob
    obtain ⟨hsame, h8, htotal⟩ := patchDtb_some hc
    have hsize : blob.length = c.2 := hsame.trans hlen
    have hrewritten := rewritten_overwrite (Nat.le_add_right page c.1) (by omega)
      (blob_stands hblob) (by omega) (htotal.trans hsame.symm)
    rw [hsize] at hrewritten
    exact .inr ⟨c, hblob, hrewritten⟩

end Boot

/-! ## Both partitions -/

/-- Each partition is as it was, or one tree has been rewritten in place: in vendor_boot the one its
header names, in boot one that stands in the kernel section. -/
structure TreesRewritten (disk disk' : Disk) : Prop where
  vendorBoot : disk'.vendorBoot = disk.vendorBoot ∨
    Rewritten disk.vendorBoot disk'.vendorBoot (dtbOff disk.vendorBoot) (dtbSize disk.vendorBoot)
  boot : disk'.boot = disk.boot ∨
    ∃ c, Blob (kernelSection disk.boot) c ∧ Rewritten disk.boot disk'.boot (page + c.1) c.2

/-- **Reclaiming only rewrites trees**, whatever the partitions hold and whatever the tools do. -/
theorem main_rewrites (env : Env) (disk : Disk) :
    TreesRewritten disk ((main env).run.run disk).2 := by
  show ends (main env) disk fun _ disk' => TreesRewritten disk disk'
  unfold main
  refine ends_ite (fun _ => ⟨.inl rfl, .inl rfl⟩) fun _ => ?_
  rw [ends_bind, onVendorBoot, ends_zoom]
  refine ends_mono (reclaimVendorBoot_frame _ _) fun r v hv => ?_
  cases r with
  | error e => exact ⟨hv, .inl rfl⟩
  | ok changed =>
    show ends (onBoot _ >>= _) _ _
    rw [ends_bind, onBoot, ends_zoom]
    refine ends_mono (reclaimBoot_frame _ _) fun r b hb => ?_
    cases r with
    | error e => exact ⟨hv, hb⟩
    | ok report => exact ⟨hv, hb⟩

end Gts9Wifi.Boot.MemReclaim
