import Gts9Wifi.Boot.MemReclaim
import Gts9Wifi.Boot.Verify.VendorBoot
import Mathlib.Data.List.Sort

/-!
# Two searches for the appended tree

Both scripts walk from one FDT magic to the one before it. `gts9wifi-mem-reclaim` takes every header
whose size fits in what is left of the kernel section, `gts9wifi-bt-provision` only one whose size
reaches exactly to its end. So they find the same blob precisely when the last header that fits
reaches to the end, and not in a section that is padded. Both read a size before they check that it
is there, so that neither survives a section that ends right behind a magic.
-/

namespace Gts9Wifi.Boot

open Driver MemReclaim

/-! ## Headers -/

/-- An FDT header stands at `c.1` of the kernel section, and the size in it, which is `c.2`, fits in
what is left. -/
structure Blob (kernel : Bytes) (c : Nat × Nat) : Prop where
  magic : Stands kernel fdtMagic c.1
  size : c.2 = readBe32 kernel (c.1 + 4)
  least : 8 ≤ c.2
  fits : c.1 + c.2 ≤ kernel.length

/-- Every magic that ends by `stop` has a whole size field behind it. -/
def SizesWhole (kernel : Bytes) (stop : Nat) : Prop :=
  ∀ i, Stands kernel fdtMagic i → i + 4 ≤ stop → i + 8 ≤ kernel.length

/-- The magic does not overlap itself. -/
theorem magic_apart {kernel : Bytes} {i j : Nat} (hi : Stands kernel fdtMagic i)
    (hj : Stands kernel fdtMagic j) (hlt : i < j) : i + 4 ≤ j := by
  by_contra hnear
  have hfirst := hj.byte (k := 0) (by decide)
  have hinner := hi.byte (k := j - i) (show j - i < 4 by omega)
  rw [show i + (j - i) = j + 0 by omega, hfirst] at hinner
  obtain hd | hd | hd : j - i = 1 ∨ j - i = 2 ∨ j - i = 3 := by omega
  all_goals
    rw [hd] at hinner
    exact absurd hinner (by decide)

theorem magic_le {kernel : Bytes} {i : Nat} (h : Stands kernel fdtMagic i) : i + 4 ≤ kernel.length :=
  h.le_length (by decide)

/-- Zeros behind a section do not complete a magic. -/
theorem stands_append_zeros {kernel : Bytes} {pad i : Nat} :
    Stands (kernel ++ List.replicate pad 0) fdtMagic i ↔ Stands kernel fdtMagic i := by
  by_cases hi : i + 4 ≤ kernel.length
  · have hsame : slice (kernel ++ List.replicate pad 0) i fdtMagic.length =
        slice kernel i fdtMagic.length := slice_append_left hi
    unfold Stands
    rw [hsame]
  · refine iff_of_false (fun h => ?_) fun h => hi (magic_le h)
    -- its last byte would be one of the zeros
    have hle := magic_le h
    have hlast := h.byte (k := 3) (by decide)
    rw [List.length_append, List.length_replicate] at hle
    rw [List.getElem?_append_right (by omega), List.getElem?_replicate_of_lt (by omega)] at hlast
    exact absurd hlast (by decide)

/-- What a search from `stop` finds first, and what is left below it. -/
theorem rfind_magic {kernel : Bytes} {stop off : Nat} (h : rfind kernel fdtMagic stop = some off) :
    Stands kernel fdtMagic off ∧ off + 4 ≤ stop ∧
      ∀ i, Stands kernel fdtMagic i → i + 4 ≤ stop → i = off ∨ i + 4 ≤ off := by
  obtain ⟨hle, hoff, hlast⟩ := rfind_eq_some_iff.1 h
  refine ⟨hoff, hle, fun i hi hi4 => ?_⟩
  rcases Nat.lt_trichotomy i off with hlt | rfl | hgt
  · exact .inr (magic_apart hi hoff hlt)
  · exact .inl rfl
  · exact absurd hi (hlast i hgt hi4)

/-! ## The search of `appended_dtbs` -/

/-- What the search from `stop` down returns: all blobs there are, the last one first. -/
structure Found (kernel : Bytes) (stop : Nat) (l : List (Nat × Nat)) : Prop where
  whole : SizesWhole kernel stop
  mem : ∀ c, c ∈ l ↔ Blob kernel c ∧ c.1 + 4 ≤ stop
  order : l.Pairwise fun c d => d.1 < c.1

/-- There is only one such list. -/
theorem Found.unique {kernel : Bytes} {stop : Nat} {l l' : List (Nat × Nat)}
    (h : Found kernel stop l) (h' : Found kernel stop l') : l = l' := by
  have hirrefl : Std.Irrefl fun c d : Nat × Nat => d.1 < c.1 := ⟨fun c => Nat.lt_irrefl c.1⟩
  refine h.order.eq_of_mem_iff h'.order ?_
  intro c
  rw [h.mem, h'.mem]

/-- One more header, above those that were found. -/
theorem Found.cons {kernel : Bytes} {stop off : Nat} {l : List (Nat × Nat)} (h : Found kernel off l)
    (hoff : Stands kernel fdtMagic off) (hle : off + 4 ≤ stop)
    (hbelow : ∀ i, Stands kernel fdtMagic i → i + 4 ≤ stop → i = off ∨ i + 4 ≤ off)
    (h8 : off + 8 ≤ kernel.length) :
    Found kernel stop (if 8 ≤ readBe32 kernel (off + 4) ∧
      readBe32 kernel (off + 4) ≤ kernel.length - off then
        (off, readBe32 kernel (off + 4)) :: l else l) := by
  have hwhole : SizesWhole kernel stop := by
    intro i hi h4
    rcases hbelow i hi h4 with rfl | h4
    · exact h8
    · exact h.whole i hi h4
  -- a blob that ends by `stop` is the one at `off`, or one of those below it
  have hmem : ∀ c, Blob kernel c ∧ c.1 + 4 ≤ stop ↔
      c = (off, readBe32 kernel (off + 4)) ∧ Blob kernel c ∨ c ∈ l := by
    intro c
    rw [h.mem]
    constructor
    · rintro ⟨hc, h4⟩
      rcases hbelow c.1 hc.magic h4 with heq | h4
      · exact .inl ⟨Prod.ext heq (heq ▸ hc.size), hc⟩
      · exact .inr ⟨hc, h4⟩
    · rintro (⟨rfl, hc⟩ | ⟨hc, h4⟩)
      · exact ⟨hc, hle⟩
      · exact ⟨hc, by omega⟩
  split
  · next hfit =>
    refine ⟨hwhole, fun c => ?_, List.pairwise_cons.2 ⟨fun c hc => ?_, h.order⟩⟩
    · rw [hmem, List.mem_cons]
      refine or_congr_left ⟨?_, fun hc => hc.1⟩
      rintro rfl
      exact ⟨rfl, hoff, rfl, hfit.1, by simp only; omega⟩
    · have hlt := ((h.mem c).1 hc).2
      simp only
      omega
  · next hfit =>
    refine ⟨hwhole, fun c => ?_, h.order⟩
    rw [hmem, or_iff_right]
    rintro ⟨rfl, hc⟩
    have hleast := hc.least
    have hfits := hc.fits
    simp only at hleast hfits
    omega

theorem appendedDtbsBelow_spec (kernel : Bytes) (stop : Nat) :
    (∃ l, appendedDtbsBelow kernel stop = .ok l ∧ Found kernel stop l) ∨
      appendedDtbsBelow kernel stop = .error .structError ∧ ¬ SizesWhole kernel stop := by
  induction stop using Nat.strongRecOn with
  | ind stop ih =>
    rw [appendedDtbsBelow]
    split
    · next hnone =>
      rw [rfind_eq_none_iff] at hnone
      refine .inl ⟨[], rfl, fun i hi h4 => absurd hi (hnone i h4), fun c => ?_, .nil⟩
      exact iff_of_false List.not_mem_nil fun h => hnone c.1 h.2 h.1.magic
    · next off hsome =>
      obtain ⟨hoff, hle, hbelow⟩ := rfind_magic hsome
      unfold unpackBe32
      by_cases h8 : off + 4 + 4 ≤ kernel.length
      · rcases ih off (by omega) with ⟨l, hl, hfound⟩ | ⟨herr, hcut⟩
        · rw [if_pos h8, hl]
          exact .inl ⟨_, rfl, hfound.cons hoff hle hbelow h8⟩
        · rw [if_pos h8, herr]
          refine .inr ⟨rfl, fun hwhole => hcut fun i hi h4 => hwhole i hi (by omega)⟩
      · rw [if_neg h8]
        refine .inr ⟨rfl, fun hwhole => h8 ?_⟩
        exact hwhole off hoff hle

/-- All blobs of a kernel section, the last one first, if every header has its size field. -/
theorem appendedDtbs_eq_ok_iff {kernel : Bytes} {l : List (Nat × Nat)} :
    appendedDtbs kernel = .ok l ↔ Found kernel kernel.length l := by
  unfold appendedDtbs
  rcases appendedDtbsBelow_spec kernel kernel.length with ⟨l', hl', hfound⟩ | ⟨herr, hcut⟩
  · rw [hl']
    constructor
    · intro h
      obtain rfl := Except.ok.inj h
      exact hfound
    · intro h
      exact congrArg Except.ok (hfound.unique h)
  · rw [herr]
    exact iff_of_false (fun h => nomatch h) fun h => hcut h.whole

/-- A section in which every header is that of a blob. -/
theorem appendedDtbs_of_stands {kernel : Bytes} {l : List (Nat × Nat)}
    (hstands : ∀ i, Stands kernel fdtMagic i ↔ i ∈ l.map Prod.fst) (hblob : ∀ c ∈ l, Blob kernel c)
    (horder : l.Pairwise fun c d => d.1 < c.1) : appendedDtbs kernel = .ok l := by
  have hat : ∀ i, Stands kernel fdtMagic i → ∃ c ∈ l, c.1 = i :=
    fun i hi => List.mem_map.1 ((hstands i).1 hi)
  refine appendedDtbs_eq_ok_iff.2 ⟨fun i hi _ => ?_, fun c => ⟨fun hc => ?_, fun hc => ?_⟩, horder⟩
  · obtain ⟨c, hc, rfl⟩ := hat i hi
    have hleast := (hblob c hc).least
    have hfits := (hblob c hc).fits
    omega
  · exact ⟨hblob c hc, magic_le (hblob c hc).magic⟩
  · obtain ⟨d, hd, heq⟩ := hat c.1 hc.1.magic
    have hsame : d = c := Prod.ext heq (by rw [(hblob d hd).size, hc.1.size, heq])
    rwa [← hsame]

/-- Cutting the list at a blob: what stands before it lies behind it in the section. -/
theorem Found.split {kernel : Bytes} {stop : Nat} {l₁ l₂ : List (Nat × Nat)} {c : Nat × Nat}
    (h : Found kernel stop (l₁ ++ c :: l₂)) {d : Nat × Nat} (hd : Blob kernel d)
    (h4 : d.1 + 4 ≤ stop) : d ∈ l₁ ∧ c.1 < d.1 ∨ d = c ∨ d ∈ l₂ ∧ d.1 < c.1 := by
  obtain ⟨-, htail, hcross⟩ := List.pairwise_append.1 h.order
  rcases List.mem_append.1 ((h.mem d).2 ⟨hd, h4⟩) with h1 | h2
  · exact .inl ⟨h1, hcross d h1 c List.mem_cons_self⟩
  · rcases List.mem_cons.1 h2 with rfl | h2
    · exact .inr (.inl rfl)
    · exact .inr (.inr ⟨h2, (List.pairwise_cons.1 htail).1 d h2⟩)

/-! ## The search of `provision_boot` -/

/-- A whole header at `off`, whose size reaches to the end of the section. -/
def ReachesEnd (kernel : Bytes) (off : Nat) : Prop :=
  Stands kernel fdtMagic off ∧ off + 8 ≤ kernel.length ∧
    off + readBe32 kernel (off + 4) = kernel.length

theorem reachesEnd_iff {kernel : Bytes} {off : Nat} :
    ReachesEnd kernel off ↔ Blob kernel (off, kernel.length - off) := by
  constructor
  · rintro ⟨hoff, h8, hend⟩
    exact ⟨hoff, by simp only; omega, by simp only; omega, by simp only; omega⟩
  · rintro ⟨hoff, hsize, hleast, hfits⟩
    simp only at hoff hsize hleast hfits
    exact ⟨hoff, by omega, by omega⟩

section Rounds

variable {kernel : Bytes} {ksize stop : Nat}

theorem appendedDtb_of_none (h : rfind kernel fdtMagic stop = none) :
    appendedDtb kernel ksize stop = .error .noAppendedDtb := by
  rw [appendedDtb]
  split
  · rfl
  · next hsome => cases hsome.symm.trans h

/-- One round of the search. -/
theorem appendedDtb_of_some {off : Nat} (h : rfind kernel fdtMagic stop = some off) :
    appendedDtb kernel ksize stop =
      if off + 8 ≤ kernel.length then
        if off + readBe32 kernel (off + 4) = ksize then .ok off else appendedDtb kernel ksize off
      else .error .structError := by
  rw [appendedDtb]
  split
  · next hnone => cases hnone.symm.trans h
  · next off' hsome =>
    obtain rfl := Option.some.inj (hsome.symm.trans h)
    unfold unpackBe32
    by_cases h8 : off' + 8 ≤ kernel.length
    · rw [if_pos h8, if_pos h8]
      rfl
    · rw [if_neg h8, if_neg h8]
      rfl

end Rounds

/-- The search ends at the last header that reaches to the end, if all headers behind it have their
size field. -/
theorem appendedDtb_eq_ok_iff {kernel : Bytes} {stop off : Nat} :
    appendedDtb kernel kernel.length stop = .ok off ↔ ReachesEnd kernel off ∧ off + 4 ≤ stop ∧
      ∀ i, off < i → Stands kernel fdtMagic i → i + 4 ≤ stop →
        i + 8 ≤ kernel.length ∧ i + readBe32 kernel (i + 4) ≠ kernel.length := by
  induction stop using Nat.strongRecOn with
  | ind stop ih =>
    cases hfind : rfind kernel fdtMagic stop with
    | none =>
      rw [appendedDtb_of_none hfind]
      rw [rfind_eq_none_iff] at hfind
      exact iff_of_false (fun h => nomatch h) fun h => hfind off h.2.1 h.1.1
    | some last =>
      obtain ⟨hlast, hle, hbelow⟩ := rfind_magic hfind
      rw [appendedDtb_of_some hfind]
      by_cases h8 : last + 8 ≤ kernel.length
      · rw [if_pos h8]
        by_cases hend : last + readBe32 kernel (last + 4) = kernel.length
        · -- the search ends here, and there is no later header
          rw [if_pos hend]
          constructor
          · intro h
            obtain rfl := Except.ok.inj h
            refine ⟨⟨hlast, h8, hend⟩, hle, fun i hi hmagic h4 => ?_⟩
            rcases hbelow i hmagic h4 with rfl | h4
            · omega
            · omega
          · rintro ⟨hoff, h4, hlater⟩
            rcases hbelow off hoff.1 h4 with rfl | h4
            · rfl
            · exact absurd hend (hlater last (by omega) hlast hle).2
        · rw [if_neg hend, ih last (by omega)]
          constructor
          · rintro ⟨hoff, h4, hlater⟩
            refine ⟨hoff, by omega, fun i hi hmagic hi4 => ?_⟩
            rcases hbelow i hmagic hi4 with rfl | hi4
            · exact ⟨h8, hend⟩
            · exact hlater i hi hmagic hi4
          · rintro ⟨hoff, h4, hlater⟩
            rcases hbelow off hoff.1 h4 with rfl | h4
            · exact absurd hoff.2.2 hend
            · exact ⟨hoff, h4, fun i hi hmagic hi4 => hlater i hi hmagic (by omega)⟩
      · rw [if_neg h8]
        refine iff_of_false (fun h => nomatch h) ?_
        rintro ⟨hoff, h4, hlater⟩
        rcases hbelow off hoff.1 h4 with rfl | h4
        · exact h8 hoff.2.1
        · exact h8 (hlater last (by omega) hlast hle).1

/-! ## The same blob -/

/-- `provision_boot` locates the blob that `appended_dtbs` returns first, at the same offset and of
the same length. -/
def SameBlob (img : Bytes) : Prop :=
  ∃ head kernel off rest, locateBoot.run.run img = (.ok (head, kernel, off), img) ∧
    appendedDtbs kernel = .ok ((off, (kernel.drop off).length) :: rest)

/-- No header is cut short by the end of the section, and the last one whose size fits in what is left
reaches exactly to the end: no padding follows it. -/
def LastReachesEnd (kernel : Bytes) : Prop :=
  SizesWhole kernel kernel.length ∧
    ∃ c, Blob kernel c ∧ c.1 + c.2 = kernel.length ∧ ∀ d, Blob kernel d → d.1 ≤ c.1

/-- Where the first half of `provision_boot` gets to. -/
theorem locateBoot_run {img : Bytes} (h : BootImage img) :
    locateBoot.run.run img =
      ((appendedDtb (kernelSection img) (kernelSection img).length (kernelSection img).length).map
        fun off => (slice img 0 page, kernelSection img, off), img) := by
  have hpage : page ≤ img.length := by
    have hfits := h.fits
    omega
  have hhead : (slice img 0 page).length = page := length_slice (by omega)
  have hmagic : (slice img 0 page).take 8 = android := by
    rw [take_head]
    exact h.magic
  have hsize : (kernelSection img).length = le32 img 8 := h.length_kernelSection
  have hsection : slice img page (le32 img 8) = kernelSection img := rfl
  unfold locateBoot
  rw [run_bind_of_ok (run_readAt _ _), if_neg (not_not.2 hmagic),
    run_bind_of_ok (run_unpackLe32 (by rw [hhead]; decide)), le32_head (by decide),
    run_bind_of_ok (run_readAt _ _), hsection, hsize]
  cases appendedDtb (kernelSection img) (le32 img 8) (le32 img 8) with
  | ok off => rfl
  | error e => rfl

/-- The first blob of the list is the last one of the section. -/
theorem appendedDtbs_first_iff {kernel : Bytes} {c : Nat × Nat} :
    (∃ rest, appendedDtbs kernel = .ok (c :: rest)) ↔
      SizesWhole kernel kernel.length ∧ Blob kernel c ∧ ∀ d, Blob kernel d → d.1 ≤ c.1 := by
  constructor
  · rintro ⟨rest, hrest⟩
    have hfound := appendedDtbs_eq_ok_iff.1 hrest
    refine ⟨hfound.whole, ((hfound.mem c).1 List.mem_cons_self).1, fun d hd => ?_⟩
    have hcut : Found kernel kernel.length ([] ++ c :: rest) := hfound
    rcases hcut.split hd (magic_le hd.magic) with ⟨hnil, -⟩ | rfl | ⟨-, hlt⟩
    · exact nomatch hnil
    · exact Nat.le_refl _
    · exact Nat.le_of_lt hlt
  · rintro ⟨hwhole, hc, hlast⟩
    rcases appendedDtbsBelow_spec kernel kernel.length with ⟨l, hl, hfound⟩ | ⟨-, hcut⟩
    · obtain ⟨l₁, l₂, rfl⟩ := List.append_of_mem ((hfound.mem c).2 ⟨hc, magic_le hc.magic⟩)
      cases l₁ with
      | nil => exact ⟨l₂, hl⟩
      | cons d l₁ =>
        -- a blob in front of it would stand behind it in the section
        have hd := ((hfound.mem d).1 List.mem_cons_self).1
        have hlt := (List.pairwise_cons.1 hfound.order).1 c (by simp)
        have hle := hlast d hd
        omega
    · exact absurd hwhole hcut

/-- **The two scripts find the same blob precisely when the last header that fits reaches to the end
of the kernel section.** -/
theorem sameBlob_iff {img : Bytes} (h : BootImage img) :
    SameBlob img ↔ LastReachesEnd (kernelSection img) := by
  have hrun := locateBoot_run h
  constructor
  · rintro ⟨head, kernel, off, rest, hlocate, hfirst⟩
    rw [hrun] at hlocate
    cases hoff : appendedDtb (kernelSection img) (kernelSection img).length
        (kernelSection img).length with
    | error e =>
      rw [hoff] at hlocate
      exact nomatch congrArg Prod.fst hlocate
    | ok off' =>
      rw [hoff] at hlocate
      have hresult := Except.ok.inj (congrArg Prod.fst hlocate)
      simp only [Prod.mk.injEq] at hresult
      obtain ⟨-, rfl, rfl⟩ := hresult
      obtain ⟨hwhole, hblob, hlast⟩ := appendedDtbs_first_iff.1 ⟨rest, hfirst⟩
      have hend := (appendedDtb_eq_ok_iff.1 hoff).1.2.1
      refine ⟨hwhole, _, hblob, ?_, hlast⟩
      simp only [List.length_drop]
      omega
  · rintro ⟨hwhole, c, hc, hend, hlast⟩
    have hc2 : c = (c.1, ((kernelSection img).drop c.1).length) := by
      refine Prod.ext rfl ?_
      simp only [List.length_drop]
      omega
    obtain ⟨rest, hrest⟩ := appendedDtbs_first_iff.2 ⟨hwhole, hc, hlast⟩
    have hreach : ReachesEnd (kernelSection img) c.1 := by
      rw [reachesEnd_iff, ← List.length_drop, ← hc2]
      exact hc
    have hoff : appendedDtb (kernelSection img) (kernelSection img).length
        (kernelSection img).length = .ok c.1 := by
      refine appendedDtb_eq_ok_iff.2 ⟨hreach, magic_le hc.magic, fun i hi hmagic h4 => ?_⟩
      refine ⟨hwhole i hmagic h4, fun hiend => ?_⟩
      have hblob := reachesEnd_iff.1 ⟨hmagic, hwhole i hmagic h4, hiend⟩
      have hle := hlast _ hblob
      simp only at hle
      omega
    refine ⟨slice img 0 page, kernelSection img, c.1, rest, ?_, ?_⟩
    · rw [hrun, hoff]
      rfl
    · rw [← hc2]
      exact hrest

/-! ### A padded section

One instruction, a tree, and some zeros. -/

def paddedKernel (pad : Nat) : Bytes :=
  [0x1f, 0x20, 0x03, 0xd5] ++ bluetoothTree none 0 ++ List.replicate pad 0

def paddedBoot (pad : Nat) : Bytes := assembleBoot (paddedKernel pad) (List.replicate page 0)

theorem length_paddedKernel (pad : Nat) : (paddedKernel pad).length = 160 + pad := by
  have htree := length_freshTree 0
  simp only [paddedKernel, List.length_append, List.length_replicate, List.length_cons,
    List.length_nil, htree]

theorem bootImage_paddedBoot {pad : Nat} (h : pad ≤ page) : BootImage (paddedBoot pad) := by
  refine bootImage_assembleBoot ?_
  unfold page at h
  rw [length_paddedKernel]
  omega

theorem kernelSection_paddedBoot {pad : Nat} (h : pad ≤ page) :
    kernelSection (paddedBoot pad) = paddedKernel pad := by
  refine kernelSection_assembleBoot ?_
  unfold page at h
  rw [length_paddedKernel]
  omega

theorem paddedKernel_eq (pad : Nat) : paddedKernel pad = paddedKernel 0 ++ List.replicate pad 0 := by
  simp [paddedKernel]

theorem stands_paddedKernel {pad i : Nat} : Stands (paddedKernel pad) fdtMagic i ↔ i = 4 := by
  have hall : ∀ j < 157, Stands (paddedKernel 0) fdtMagic j ↔ j = 4 := by decide +kernel
  rw [paddedKernel_eq, stands_append_zeros]
  by_cases hi : i < 157
  · exact hall i hi
  · refine iff_of_false (fun h => ?_) (by omega)
    have hle := magic_le h
    rw [length_paddedKernel] at hle
    omega

theorem readBe32_paddedKernel (pad : Nat) : readBe32 (paddedKernel pad) 8 = 156 := by
  rw [paddedKernel_eq, readBe32, slice_append_left (by rw [length_paddedKernel]; omega)]
  decide

theorem appendedDtbs_paddedKernel (pad : Nat) : appendedDtbs (paddedKernel pad) = .ok [(4, 156)] := by
  have hlen := length_paddedKernel pad
  have hsize := readBe32_paddedKernel pad
  refine appendedDtbs_of_stands (fun i => ?_) (fun c hc => ?_) (List.pairwise_singleton _ _)
  · simpa using stands_paddedKernel
  · obtain rfl := List.mem_singleton.1 hc
    exact ⟨stands_paddedKernel.2 rfl, hsize.symm, by decide, by simp only; omega⟩

theorem sameBlob_unpadded : BootImage (paddedBoot 0) ∧ SameBlob (paddedBoot 0) := by
  have himg := bootImage_paddedBoot (Nat.zero_le page)
  refine ⟨himg, (sameBlob_iff himg).2 ?_⟩
  rw [kernelSection_paddedBoot (Nat.zero_le page)]
  obtain ⟨hwhole, hblob, hlast⟩ := appendedDtbs_first_iff.1 ⟨[], appendedDtbs_paddedKernel 0⟩
  exact ⟨hwhole, _, hblob, (length_paddedKernel 0).symm, hlast⟩

/-- With any padding at all, the search of `provision_boot` passes the tree by. -/
theorem appendedDtb_paddedKernel {pad : Nat} (h : 0 < pad) :
    appendedDtb (paddedKernel pad) (paddedKernel pad).length (paddedKernel pad).length =
      .error .noAppendedDtb := by
  have hlen := length_paddedKernel pad
  have hfirst : rfind (paddedKernel pad) fdtMagic (paddedKernel pad).length = some 4 := by
    refine rfind_eq_some_iff.2 ⟨?_, stands_paddedKernel.2 rfl, fun j hj _ hstands => ?_⟩
    · rw [hlen]
      show 8 ≤ _
      omega
    · have hj4 := stands_paddedKernel.1 hstands
      omega
  have hsecond : rfind (paddedKernel pad) fdtMagic 4 = none := by
    refine rfind_eq_none_iff.2 fun j hj hstands => ?_
    have hj4 := stands_paddedKernel.1 hstands
    have hj0 : j + 4 ≤ 4 := hj
    omega
  have hpast : ¬ 4 + readBe32 (paddedKernel pad) (4 + 4) = (paddedKernel pad).length := by
    rw [readBe32_paddedKernel]
    omega
  rw [appendedDtb_of_some hfirst, if_pos (by omega), if_neg hpast, appendedDtb_of_none hsecond]

/-- Where `provision_boot` finds no blob, the whole run ends. -/
theorem provision_of_not_located {img : Bytes} {e : Exit}
    (h : locateBoot.run.run img = (.error e, img)) (fdt : Fdt) (ahead : ReadAhead)
    (bdaddr vendorBoot : Bytes) :
    (provision fdt ahead bdaddr).run.run ⟨img, vendorBoot⟩ = (.error e, ⟨img, vendorBoot⟩) := by
  have hboot : (provisionBoot fdt ahead bdaddr).run.run img = (.error e, img) := run_bind_of_error h
  rw [← ends_run_iff, provision, ends_bind, onBoot, ends_zoom]
  unfold ends
  rw [hboot]
  exact ⟨rfl, rfl⟩

/-- Eight zeros behind the tree: the one script finds it, the other gives up before it has looked at
vendor_boot. -/
theorem padded_blob_missed :
    BootImage (paddedBoot 8) ∧
      kernelSection (paddedBoot 8) =
        [0x1f, 0x20, 0x03, 0xd5] ++ bluetoothTree none 0 ++ List.replicate 8 0 ∧
      appendedDtbs (kernelSection (paddedBoot 8)) = .ok [(4, 156)] ∧
      ¬ SameBlob (paddedBoot 8) ∧
      ∀ fdt ahead bdaddr vendorBoot, (provision fdt ahead bdaddr).run.run ⟨paddedBoot 8, vendorBoot⟩ =
        (.error .noAppendedDtb, ⟨paddedBoot 8, vendorBoot⟩) := by
  have himg : BootImage (paddedBoot 8) := bootImage_paddedBoot (by decide)
  have hkernel : kernelSection (paddedBoot 8) = paddedKernel 8 := kernelSection_paddedBoot (by decide)
  have hlocate : locateBoot.run.run (paddedBoot 8) = (.error .noAppendedDtb, paddedBoot 8) := by
    rw [locateBoot_run himg, hkernel, appendedDtb_paddedKernel (by decide)]
    rfl
  refine ⟨himg, hkernel, ?_, ?_, ?_⟩
  · rw [hkernel]
    exact appendedDtbs_paddedKernel 8
  · rintro ⟨head, kernel, off, rest, hfound, -⟩
    rw [hlocate] at hfound
    exact nomatch congrArg Prod.fst hfound
  · intro fdt ahead bdaddr vendorBoot
    exact provision_of_not_located hlocate fdt ahead bdaddr vendorBoot

/-! ## The write of the new tree -/

/-- The new tree is written where the old one stood unless the old one starts in what the file object
has read ahead, short of the end of the partition. -/
theorem lands_eq_iff {ahead : ReadAhead} {size off : Nat} (hstop : ahead.stop ≤ size) :
    ahead.lands size off = off ↔ (ahead.start ≤ off ∧ off ≤ ahead.stop → ahead.stop = size) := by
  unfold ReadAhead.lands
  split
  · next h =>
    rw [forall_prop_of_true h]
    omega
  · next h => exact iff_of_true rfl fun h' => absurd h' h

/-! ## Headers cut short

Both searches read the size behind a magic before they compare anything with the length of the
section. -/

/-- A search of `provision_boot` that reads no size beyond the end of the section ends as the script
means it to. -/
theorem appendedDtb_of_sizesWhole {kernel : Bytes} {ksize stop : Nat} (h : SizesWhole kernel stop) :
    (∃ off, appendedDtb kernel ksize stop = .ok off) ∨
      appendedDtb kernel ksize stop = .error .noAppendedDtb := by
  induction stop using Nat.strongRecOn with
  | ind stop ih =>
    cases hfind : rfind kernel fdtMagic stop with
    | none => exact .inr (appendedDtb_of_none hfind)
    | some off =>
      obtain ⟨hoff, hle, -⟩ := rfind_magic hfind
      rw [appendedDtb_of_some hfind, if_pos (h off hoff hle)]
      by_cases hend : off + readBe32 kernel (off + 4) = ksize
      · rw [if_pos hend]
        exact .inl ⟨off, rfl⟩
      · rw [if_neg hend]
        exact ih off (by omega) fun i hi h4 => h i hi (by omega)

/-- A magic with less than a whole size behind it is the last one, so it is the first one a search
meets. -/
theorem appendedDtb_of_cut {kernel : Bytes} {ksize stop : Nat} (h : ¬ SizesWhole kernel stop) :
    appendedDtb kernel ksize stop = .error .structError := by
  simp only [SizesWhole, not_forall, Nat.not_le] at h
  obtain ⟨i, hi, h4, hcut⟩ := h
  cases hfind : rfind kernel fdtMagic stop with
  | none => exact absurd hi (rfind_eq_none_iff.1 hfind i h4)
  | some off =>
    obtain ⟨hoff, -, hbelow⟩ := rfind_magic hfind
    have hlast : i = off := by
      refine (hbelow i hi h4).resolve_right fun hlow => ?_
      have hle := magic_le hoff
      omega
    rw [appendedDtb_of_some hfind, if_neg (by omega)]

theorem appendedDtbs_of_cut {kernel : Bytes} (h : ¬ SizesWhole kernel kernel.length) :
    appendedDtbs kernel = .error .structError := by
  rcases appendedDtbsBelow_spec kernel kernel.length with ⟨l, -, hfound⟩ | ⟨herr, -⟩
  · exact absurd hfound.whole h
  · exact herr

/-- The section ends inside no header: a size field follows each magic. -/
theorem sizesWhole_iff {kernel : Bytes} {stop : Nat} (h : kernel.length ≤ stop) :
    SizesWhole kernel stop ↔ ∀ off, Stands kernel fdtMagic off → off + 8 ≤ kernel.length := by
  constructor
  · intro hwhole off hoff
    have hle := magic_le hoff
    exact hwhole off hoff (by omega)
  · intro hwhole off hoff _
    exact hwhole off hoff

/-- **Both searches are total, and that of `appended_dtbs` exact, precisely when the section does not
end between a magic and the end of its size.** -/
theorem searches_exact_iff (kernel : Bytes) :
    ((∃ l, appendedDtbs kernel = .ok l ∧ l.Pairwise (fun c d => d.1 < c.1) ∧
        ∀ off total, (off, total) ∈ l ↔ Stands kernel fdtMagic off ∧ off + 8 ≤ kernel.length ∧
          total = readBe32 kernel (off + 4) ∧ 8 ≤ total ∧ total ≤ kernel.length - off) ∧
      ∀ ksize, kernel.length ≤ ksize → (∃ off, appendedDtb kernel ksize ksize = .ok off) ∨
        appendedDtb kernel ksize ksize = .error .noAppendedDtb) ↔
    ∀ off, Stands kernel fdtMagic off → off + 8 ≤ kernel.length := by
  constructor
  · rintro ⟨⟨l, hl, -⟩, -⟩
    exact (sizesWhole_iff (Nat.le_refl _)).1 (appendedDtbs_eq_ok_iff.1 hl).whole
  · intro hwhole
    constructor
    · rcases appendedDtbsBelow_spec kernel kernel.length with ⟨l, hl, hfound⟩ | ⟨-, hcut⟩
      · refine ⟨l, hl, hfound.order, fun off total => ?_⟩
        rw [hfound.mem]
        constructor
        · rintro ⟨⟨hoff, hsize, hleast, hfits⟩, -⟩
          simp only at hoff hsize hleast hfits
          exact ⟨hoff, hwhole off hoff, hsize, hleast, by omega⟩
        · rintro ⟨hoff, h8, hsize, hleast, hfits⟩
          exact ⟨⟨hoff, hsize, hleast, by simp only; omega⟩, by simp only; omega⟩
      · exact absurd ((sizesWhole_iff (Nat.le_refl _)).2 hwhole) hcut
    · intro ksize hle
      exact appendedDtb_of_sizesWhole ((sizesWhole_iff hle).2 hwhole)

/-- A magic in the last four bytes, behind a tree that is whole. -/
def cutKernel : Bytes := paddedKernel 0 ++ fdtMagic

/-- The tree is there to be found, and both scripts end with `struct.error`. -/
theorem cutKernel_raises :
    Blob cutKernel (4, 156) ∧ cutKernel.length = 164 ∧
      appendedDtbs cutKernel = .error .structError ∧
      appendedDtb cutKernel cutKernel.length cutKernel.length = .error .structError := by
  have hlen : cutKernel.length = 164 := by
    rw [cutKernel, List.length_append, length_paddedKernel]
    rfl
  have hcut : ¬ SizesWhole cutKernel cutKernel.length := by
    intro hwhole
    have h8 := hwhole 160 (by decide) (by omega)
    omega
  exact ⟨⟨by decide, by decide, by decide, by simp only; omega⟩, hlen, appendedDtbs_of_cut hcut,
    appendedDtb_of_cut hcut⟩

end Gts9Wifi.Boot
