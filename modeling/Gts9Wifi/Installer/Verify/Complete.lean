import Gts9Wifi.Installer.UpdateBinary

/-!
# Success means complete images

The status of a pipeline is that of `dd`, which is content with whatever it gets. So where the script
succeeds, a partition holds its image precisely when `unzip` passed all of it on, up to bytes that
stood there before.
-/

namespace Gts9Wifi.Installer

open Driver

/-! ## Vocabulary -/

/-- The partition that an image goes to, before the run. -/
def oldDev (r : Recovery) (devs : Devs) (i : Image) : Option BlockDev :=
  (resolvePart r devs i).bind devs

def oldContents (r : Recovery) (devs : Devs) (i : Image) : Bytes :=
  ((oldDev r devs i).map (·.contents)).getD []

def zipImage (zip : Zip) (i : Image) : Bytes := (zip.lookup i.file).getD []

/-- vbmeta is written if `blockdev` can tell that it is writable. -/
def VbmetaWritable (r : Recovery) (devs : Devs) : Prop :=
  r.getroFails = false ∧ (oldDev r devs .vbmeta).map (·.readOnly) = some false

/-- The images that are to be installed. -/
def ToInstall (r : Recovery) (devs : Devs) (i : Image) : Prop := i ≠ .vbmeta ∨ VbmetaWritable r devs

/-- The manifest has a line with the digest of these bytes for the image. -/
def Recorded (digest : Bytes → String) (zip : Zip) (i : Image) (b : Bytes) : Prop :=
  ∃ sums : String, zip.lookup "SHA256SUMS" = some (utf8 sums) ∧
    (manifestLine digest (i, b)).toList <:+: sums.toList

/-- If the script exits with zero, each partition holds the image of the archive, with the digest that
is in the manifest. -/
def Installs (digest : Bytes → String) (r : Recovery) (devs : Devs) : Prop :=
  ∀ devs', (updateBinary r).run.run devs = (.ok (), devs') → ∀ i, ToInstall r devs i →
    ∃ path dev, resolvePart r devs i = some path ∧ devs' path = some dev ∧
      r.zip.lookup i.file = some dev.contents ∧ Recorded digest r.zip i dev.contents

/-- What `unzip` did not pass on stood on the partition already. -/
def NothingMissed (r : Recovery) (devs : Devs) (i : Image) : Prop :=
  ∀ k, (r.pipeline i).unzip = .failed k → (zipImage r.zip i).drop k = (oldContents r devs i).drop k

/-! ## The archive -/

theorem Image.file_inj {i j : Image} (h : i.file = j.file) : i = j := by
  cases i <;> cases j <;> first | rfl | exact absurd h (by decide)

theorem Image.file_ne_sums (i : Image) : i.file ≠ "SHA256SUMS" := by
  cases i <;> decide

theorem checkImage_eq_ok {args : Args} {i : Image} {x : Image × Bytes}
    (h : checkImage args i = .ok x) : x.1 = i ∧ args.image i = some x.2 ∧ x.2.length = i.size := by
  unfold checkImage at h
  cases hb : args.image i with
  | none =>
    rw [hb] at h
    exact nomatch h
  | some b =>
    rw [hb] at h
    obtain ⟨hsize, hx⟩ := ite_throw_eq_ok_iff.1 h
    obtain rfl := Except.ok.inj hx
    exact ⟨rfl, rfl, hsize⟩

theorem mapM_checkImage {args : Args} {l : List Image} {images : List (Image × Bytes)}
    (h : l.mapM (checkImage args) = .ok images) :
    images.map Prod.fst = l ∧ ∀ x ∈ images, args.image x.1 = some x.2 ∧ x.2.length = x.1.size := by
  induction l generalizing images with
  | nil =>
    obtain rfl : [] = images := Except.ok.inj h
    simp
  | cons i l ih =>
    rw [List.mapM_cons] at h
    obtain ⟨x, hx, h⟩ := bind_eq_ok_iff.1 h
    obtain ⟨images', himages, h⟩ := bind_eq_ok_iff.1 h
    obtain rfl := Except.ok.inj h
    obtain ⟨rfl, hb, hsize⟩ := checkImage_eq_ok hx
    obtain ⟨hfst, hall⟩ := ih himages
    exact ⟨by rw [List.map_cons, hfst], List.forall_mem_cons.2 ⟨⟨hb, hsize⟩, hall⟩⟩

/-- An entry is found under its own name. -/
theorem lookup_images {images : List (Image × Bytes)} (hnodup : (images.map Prod.fst).Nodup)
    {x : Image × Bytes} (hx : x ∈ images) (rest : Zip) :
    (images.map imageEntry ++ rest).lookup x.1.file = some x.2 := by
  induction images with
  | nil => exact nomatch hx
  | cons y images ih =>
    rw [List.map_cons, List.nodup_cons] at hnodup
    rw [List.map_cons, List.cons_append, List.lookup_cons]
    rcases List.mem_cons.1 hx with rfl | hx
    · simp [imageEntry]
    · have hne : x.1.file ≠ y.1.file := by
        intro h
        apply hnodup.1
        rw [← Image.file_inj h]
        exact List.mem_map_of_mem hx
      rw [imageEntry, beq_false_of_ne hne]
      exact ih hnodup.2 hx

theorem lookup_images_of_ne {images : List (Image × Bytes)} {name : String}
    (h : ∀ i : Image, i.file ≠ name) (rest : Zip) :
    (images.map imageEntry ++ rest).lookup name = rest.lookup name := by
  induction images with
  | nil => rfl
  | cons x images ih =>
    rw [List.map_cons, List.cons_append, List.lookup_cons, imageEntry,
      beq_false_of_ne (h x.1).symm]
    exact ih

/-- A line of a text is found in it. -/
theorem isInfix_join {lines : List String} {line : String} (h : line ∈ lines) :
    line.toList <:+: (String.join lines).toList := by
  obtain ⟨before, after, rfl⟩ := List.append_of_mem h
  refine ⟨(String.join before).toList, (String.join after).toList, ?_⟩
  rw [String.join_append, String.join_cons, String.toList_append, String.toList_append,
    List.append_assoc]

/-- **What the packer promises**: each image has its size and is found in the archive, with its digest
in the manifest. -/
theorem makeTwrpZip_eq_ok {digest : Bytes → String} {args : Args} {zip : Zip}
    (h : makeTwrpZip digest args = .ok zip) (i : Image) :
    ∃ b, args.image i = some b ∧ zip.lookup i.file = some b ∧ b.length = i.size ∧
      Recorded digest zip i b := by
  unfold makeTwrpZip at h
  obtain ⟨images, himages, h⟩ := bind_eq_ok_iff.1 h
  obtain ⟨hfst, hall⟩ := mapM_checkImage himages
  obtain ⟨x, hx, hxi⟩ : ∃ x ∈ images, x.1 = i := by
    have hmem := i.mem_all
    rw [← hfst] at hmem
    exact List.mem_map.1 hmem
  subst hxi
  have hnodup : (images.map Prod.fst).Nodup := by
    rw [hfst]
    decide
  split at h
  next binary script _ _ =>
    obtain ⟨files, -, h⟩ := bind_eq_ok_iff.1 h
    obtain rfl := Except.ok.inj h
    refine ⟨x.2, (hall x hx).1, ?_, (hall x hx).2, _, ?_, isInfix_join (List.mem_map_of_mem hx)⟩
    · rw [List.append_assoc, List.append_assoc]
      exact lookup_images hnodup hx _
    · rw [List.append_assoc, List.append_assoc, lookup_images_of_ne Image.file_ne_sums]
      rfl
  next => exact nomatch h

/-! ## The checks -/

theorem require_eq_ok_iff {c : Prop} [Decidable c] {e : Abort} {u : Unit} :
    require c e = .ok u ↔ c := by
  unfold require
  rw [ite_throw_eq_ok_iff]
  exact and_iff_left rfl

theorem forM_require_eq_ok_iff {c : Image → Prop} [DecidablePred c] {e : Image → Abort} {u : Unit}
    {l : List Image} : (l.forM fun i => require (c i) (e i)) = .ok u ↔ ∀ i ∈ l, c i := by
  induction l with
  | nil => exact iff_of_true rfl fun i hi => nomatch hi
  | cons i l ih =>
    change require (c i) (e i) >>= (fun _ => l.forM fun i => require (c i) (e i)) = .ok u ↔ _
    rw [bind_eq_ok_iff, List.forall_mem_cons, ← ih]
    simp only [require_eq_ok_iff, exists_const]

/-- Packer and installer agree on the sizes. -/
theorem partSize_eq (i : Image) : partSize i = i.size := by cases i <;> rfl

/-- A partition of the right size. -/
def Ready (r : Recovery) (devs : Devs) (i : Image) : Prop :=
  ∃ dev, oldDev r devs i = some dev ∧ dev.contents.length = i.size

theorem oldDev_eq_some_iff {r : Recovery} {devs : Devs} {i : Image} {dev : BlockDev} :
    oldDev r devs i = some dev ↔ ∃ path, resolvePart r devs i = some path ∧ devs path = some dev :=
  Option.bind_eq_some_iff

theorem ready_of_blkdevSize {r : Recovery} {devs : Devs} {i : Image}
    (h : blkdevSize r devs i = partSize i) : Ready r devs i := by
  have hpos : 0 < partSize i := by cases i <;> decide
  unfold blkdevSize at h
  split at h
  · omega
  next path hpath =>
    split at h
    · omega
    · cases hdev : devs path with
      | none =>
        rw [hdev] at h
        exact absurd h (Nat.ne_of_lt hpos)
      | some dev =>
        rw [hdev] at h
        exact ⟨dev, oldDev_eq_some_iff.2 ⟨path, hpath, hdev⟩, h.trans (partSize_eq i)⟩

theorem vbmetaTarget_eq_ok {r : Recovery} {devs : Devs} {target? : Option String}
    (h : vbmetaTarget r devs = .ok target?) (hready : Ready r devs .vbmeta) :
    (target?.isSome ↔ VbmetaWritable r devs) ∧ ∀ t ∈ target?, resolvePart r devs .vbmeta = some t := by
  obtain ⟨dev, hold, -⟩ := hready
  obtain ⟨path, hpath, hdev⟩ := oldDev_eq_some_iff.1 hold
  unfold vbmetaTarget at h
  unfold VbmetaWritable
  rw [hpath] at h
  simp only [hdev, Option.getD_some] at h
  rw [hold, hpath]
  split at h
  next hro =>
    obtain ⟨u, -, h⟩ := bind_eq_ok_iff.1 h
    obtain rfl := Except.ok.inj h
    refine ⟨iff_of_false (by simp) ?_, by simp⟩
    rintro ⟨hfails, hwritable⟩
    simp [hfails, Option.some.inj hwritable] at hro
  next hro =>
    obtain rfl := Except.ok.inj h
    simp only [Bool.or_eq_true, not_or, Bool.not_eq_true] at hro
    exact ⟨iff_of_true rfl ⟨hro.1, congrArg some hro.2⟩, by simp⟩

/-- **What the checks establish**: every partition is there with the size of its image, and it is known
whether vbmeta is to be written. -/
theorem checks_eq_ok {r : Recovery} {devs : Devs} {target? : Option String}
    (h : checks r devs = .ok target?) :
    (∀ i, Ready r devs i) ∧ (target?.isSome ↔ VbmetaWritable r devs) ∧
      ∀ t ∈ target?, resolvePart r devs .vbmeta = some t := by
  unfold checks at h
  obtain ⟨_, -, h⟩ := bind_eq_ok_iff.1 h
  obtain ⟨_, -, h⟩ := bind_eq_ok_iff.1 h
  obtain ⟨_, hsize, h⟩ := bind_eq_ok_iff.1 h
  obtain ⟨_, -, h⟩ := bind_eq_ok_iff.1 h
  obtain ⟨_, -, h⟩ := bind_eq_ok_iff.1 h
  have hready : ∀ i, Ready r devs i :=
    fun i => ready_of_blkdevSize (forM_require_eq_ok_iff.1 hsize i i.mem_all)
  exact ⟨hready, vbmetaTarget_eq_ok h (hready .vbmeta)⟩

/-! ## The writes -/

/-- No name of a partition starts with another. -/
theorem partPath_inj {i j : Image} {s t : String} (h : partPath i.part s = partPath j.part t) : i = j := by
  have hchars := congrArg String.toList h
  simp only [partPath, String.toList_append, List.append_assoc, List.append_cancel_left_eq] at hchars
  cases i <;> cases j <;> first | rfl | simp [Image.part] at hchars

theorem resolvePart_eq_some {r : Recovery} {devs : Devs} {i : Image} {path : String}
    (h : resolvePart r devs i = some path) : ∃ s, path = partPath i.part s := by
  unfold resolvePart at h
  split at h
  · exact ⟨_, (Option.some.inj h).symm⟩
  · split at h
    · exact ⟨_, (Option.some.inj h).symm⟩
    · exact nomatch h

/-- A partition with the bytes that `unzip` passed on. -/
def BlockDev.install (dev : BlockDev) (r : Recovery) (i : Image) : BlockDev :=
  { dev with contents := overwrite dev.contents 0 ((r.pipeline i).unzip.pass (zipImage r.zip i)) }

/-- The devices after a pipeline whose `dd` succeeded. -/
def afterImage (r : Recovery) (devs : Devs) (i : Image) : Devs :=
  match resolvePart r devs i with
  | none => devs
  | some path => Function.update devs path ((devs path).map (·.install r i))

section

variable {r : Recovery} {devs : Devs} {i : Image}

theorem isSome_afterImage (path : String) : (afterImage r devs i path).isSome = (devs path).isSome := by
  cases hi : resolvePart r devs i with
  | none => simp [afterImage, hi]
  | some target =>
    by_cases h : path = target
    · simp [afterImage, hi, h]
    · simp [afterImage, hi, Function.update_of_ne h]

/-- Partitions stay where they are. -/
theorem resolvePart_afterImage (j : Image) : resolvePart r (afterImage r devs i) j = resolvePart r devs j := by
  simp only [resolvePart, isSome_afterImage]

theorem oldDev_afterImage_self :
    oldDev r (afterImage r devs i) i = (oldDev r devs i).map (·.install r i) := by
  rw [oldDev, oldDev, resolvePart_afterImage]
  cases hi : resolvePart r devs i with
  | none => rfl
  | some path => simp [afterImage, hi]

theorem oldDev_afterImage_of_ne {j : Image} (hne : j ≠ i) :
    oldDev r (afterImage r devs i) j = oldDev r devs j := by
  rw [oldDev, oldDev, resolvePart_afterImage]
  cases hj : resolvePart r devs j with
  | none => rfl
  | some path =>
    cases hi : resolvePart r devs i with
    | none => simp [afterImage, hi]
    | some target =>
      have hpath : path ≠ target := by
        rintro rfl
        obtain ⟨s, hs⟩ := resolvePart_eq_some hj
        obtain ⟨t, ht⟩ := resolvePart_eq_some hi
        exact hne (partPath_inj (hs.symm.trans ht))
      simp [afterImage, hi, Function.update_of_ne hpath]

theorem Stage.length_pass_le (s : Stage) (b : Bytes) : (s.pass b).length ≤ b.length := by
  cases s with
  | done => exact Nat.le_refl _
  | failed after =>
    rw [Stage.pass, List.length_take]
    exact Nat.min_le_right after b.length

theorem length_install {dev : BlockDev} (h : (zipImage r.zip i).length ≤ dev.contents.length) :
    (dev.install r i).contents.length = dev.contents.length := by
  have hle := (r.pipeline i).unzip.length_pass_le (zipImage r.zip i)
  exact length_overwrite (by omega)

variable (hsize : (zipImage r.zip i).length = i.size)
include hsize

theorem Ready.afterImage {j : Image} (h : Ready r devs j) : Ready r (afterImage r devs i) j := by
  obtain ⟨dev, hdev, hlen⟩ := h
  by_cases hji : j = i
  · subst hji
    refine ⟨dev.install r j, ?_, ?_⟩
    · rw [oldDev_afterImage_self, hdev]
      rfl
    · rw [length_install (by omega), hlen]
  · exact ⟨dev, (oldDev_afterImage_of_ne hji).trans hdev, hlen⟩

omit hsize in
theorem run_ite_throw_eq_ok_iff {ok : Bool} {e : Abort} {d d' : Devs} :
    (if ok = true then pure () else throw e : Script Unit).run.run d = (.ok (), d') ↔
      ok = true ∧ d' = d := by
  cases ok with
  | false => exact iff_of_false (fun h => nomatch congrArg Prod.fst h) fun h => nomatch h.1
  | true => exact ⟨fun h => ⟨rfl, (congrArg Prod.snd h).symm⟩, fun h => Prod.ext rfl h.2.symm⟩

/-- The pipeline succeeds if `dd` does. -/
theorem writeImage_run {target : String} (hready : Ready r devs i)
    (htarget : resolvePart r devs i = some target) {devs' : Devs} :
    (writeImage r i target).run.run devs = (.ok (), devs') ↔
      (r.pipeline i).dd = .done ∧ devs' = Installer.afterImage r devs i := by
  obtain ⟨dev, hold, hlen⟩ := hready
  obtain ⟨path, hpath, hdev⟩ := oldDev_eq_some_iff.1 hold
  obtain rfl : target = path := Option.some.inj (htarget.symm.trans hpath)
  have hle := (r.pipeline i).unzip.length_pass_le (zipImage r.zip i)
  have hafter : Installer.afterImage r devs i = Function.update devs target (some (dev.install r i)) := by
    simp [Installer.afterImage, hpath, hdev]
  have hdone : (dd .done dev ((r.pipeline i).unzip.pass (zipImage r.zip i))).1 = dev.install r i := by
    rw [dd, Stage.pass, List.take_of_length_le (by omega)]
    rfl
  have hget : (get : Script Devs).run.run devs = (.ok devs, devs) := rfl
  have hset : ∀ d : Devs, (set d : Script Unit).run.run devs = (.ok (), d) := fun d => rfl
  have hok : (dd (r.pipeline i).dd dev ((r.pipeline i).unzip.pass (zipImage r.zip i))).2 = true ↔
      (r.pipeline i).dd = .done := by
    simp only [dd, decide_eq_true_eq]
    exact and_iff_left (by omega)
  rw [writeImage, run_bind_of_ok hget, hdev]
  simp only []
  rw [run_bind_of_ok (hset _)]
  change (if (dd (r.pipeline i).dd dev ((r.pipeline i).unzip.pass (zipImage r.zip i))).2 = true then pure ()
    else throw (.writeFailed i) : Script Unit).run.run _ = _ ↔ _
  rw [run_ite_throw_eq_ok_iff, hok]
  refine and_congr_right fun hdd => ?_
  rw [hdd, hafter, ← hdone]
  rfl

theorem writePart_run (hready : Ready r devs i) {devs' : Devs} :
    (writePart r i).run.run devs = (.ok (), devs') ↔
      (r.pipeline i).dd = .done ∧ devs' = Installer.afterImage r devs i := by
  obtain ⟨dev, hold, hlen⟩ := id hready
  obtain ⟨path, hpath, -⟩ := oldDev_eq_some_iff.1 hold
  rw [← writeImage_run hsize hready hpath]
  have hget : (get : Script Devs).run.run devs = (.ok devs, devs) := rfl
  rw [writePart, run_bind_of_ok hget, hpath]

end

/-- The loop succeeds if each `dd` does, and leaves what the pipelines leave. -/
theorem forM_writePart_run {r : Recovery} (hsize : ∀ i, (zipImage r.zip i).length = i.size)
    {l : List Image} {devs devs' : Devs} (hready : ∀ i, Ready r devs i) :
    (l.forM (writePart r)).run.run devs = (.ok (), devs') ↔
      (∀ i ∈ l, (r.pipeline i).dd = .done) ∧ devs' = l.foldl (afterImage r) devs := by
  induction l generalizing devs with
  | nil => exact ⟨fun h => ⟨fun i hi => (nomatch hi), (congrArg Prod.snd h).symm⟩, fun h => Prod.ext rfl h.2.symm⟩
  | cons i l ih =>
    change (writePart r i >>= fun _ => l.forM (writePart r)).run.run devs = _ ↔ _
    rw [run_bind_eq_ok_iff, List.forall_mem_cons, List.foldl_cons, and_assoc,
      ← ih fun j => (hready j).afterImage (hsize i)]
    simp only [writePart_run (hsize i) (hready i)]
    constructor
    · rintro ⟨_, _, ⟨hdd, rfl⟩, hrest⟩
      exact ⟨hdd, hrest⟩
    · rintro ⟨hdd, hrest⟩
      exact ⟨(), _, ⟨hdd, rfl⟩, hrest⟩

theorem oldDev_foldl_afterImage {r : Recovery} {l : List Image} (hnodup : l.Nodup) {devs : Devs}
    (i : Image) :
    oldDev r (l.foldl (afterImage r) devs) i =
      if i ∈ l then (oldDev r devs i).map (·.install r i) else oldDev r devs i := by
  induction l generalizing devs with
  | nil => rfl
  | cons j l ih =>
    rw [List.foldl_cons, ih (List.nodup_cons.1 hnodup).2]
    by_cases hij : i = j
    · subst hij
      rw [if_neg (List.nodup_cons.1 hnodup).1, if_pos List.mem_cons_self, oldDev_afterImage_self]
    · rw [oldDev_afterImage_of_ne hij]
      simp [hij]

theorem resolvePart_foldl_afterImage {r : Recovery} (l : List Image) {devs : Devs} (i : Image) :
    resolvePart r (l.foldl (afterImage r) devs) i = resolvePart r devs i := by
  induction l generalizing devs with
  | nil => rfl
  | cons j l ih => rw [List.foldl_cons, ih, resolvePart_afterImage]

theorem Ready.foldl_afterImage {r : Recovery} (hsize : ∀ i, (zipImage r.zip i).length = i.size)
    (l : List Image) {devs : Devs} (h : ∀ i, Ready r devs i) (i : Image) :
    Ready r (l.foldl (Installer.afterImage r) devs) i := by
  induction l generalizing devs with
  | nil => exact h i
  | cons j l ih => exact ih fun i => (h i).afterImage (hsize j)

/-! ## The whole script -/

/-- The images that are written, in order. -/
def installed (target? : Option String) : List Image :=
  [.boot, .initBoot, .vendorBoot, .dtbo] ++ if target?.isSome then [.vbmeta] else []

theorem mem_installed_iff {target? : Option String} {i : Image} :
    i ∈ installed target? ↔ i ≠ .vbmeta ∨ target?.isSome := by
  cases target? <;> cases i <;> simp [installed]

theorem nodup_installed (target? : Option String) : (installed target?).Nodup := by
  cases target? with
  | none => decide
  | some target => simp [installed]

/-- When the script succeeds, and what it leaves. -/
theorem updateBinary_run {r : Recovery} (hsize : ∀ i, (zipImage r.zip i).length = i.size)
    {devs devs' : Devs} :
    (updateBinary r).run.run devs = (.ok (), devs') ↔ ∃ target?, checks r devs = .ok target? ∧
      (∀ i ∈ installed target?, (r.pipeline i).dd = .done) ∧
      devs' = (installed target?).foldl (afterImage r) devs := by
  have hget : (get : Script Devs).run.run devs = (.ok devs, devs) := rfl
  have hlift : (liftM (checks r devs) : Script (Option String)).run.run devs = (checks r devs, devs) :=
    run_lift _
  rw [updateBinary, run_bind_of_ok hget]
  cases hchecks : checks r devs with
  | error e =>
    rw [hchecks] at hlift
    rw [run_bind_of_error hlift]
    exact iff_of_false (fun h => nomatch congrArg Prod.fst h) fun ⟨_, h, _⟩ => nomatch h
  | ok target? =>
    obtain ⟨hready, -, htarget⟩ := checks_eq_ok hchecks
    rw [hchecks] at hlift
    rw [run_bind_of_ok hlift, run_bind_eq_ok_iff]
    simp only [forM_writePart_run hsize hready, Except.ok.injEq, exists_eq_left']
    cases target? with
    | none =>
      constructor
      · rintro ⟨_, _, ⟨hdd, rfl⟩, h⟩
        exact ⟨hdd, (congrArg Prod.snd h).symm⟩
      · rintro ⟨hdd, rfl⟩
        exact ⟨(), _, ⟨hdd, rfl⟩, rfl⟩
    | some target =>
      have hready' := Ready.foldl_afterImage hsize [Image.boot, .initBoot, .vendorBoot, .dtbo] hready
      have hwrite : ∀ devs', (writeImage r .vbmeta target).run.run _ = (.ok (), devs') ↔ _ :=
        fun devs' => writeImage_run (hsize .vbmeta) (hready' .vbmeta)
          ((resolvePart_foldl_afterImage _ _).trans (htarget target rfl))
      constructor
      · rintro ⟨_, _, ⟨hdd, rfl⟩, h⟩
        obtain ⟨hvbmeta, rfl⟩ := (hwrite _).1 h
        exact ⟨List.forall_mem_append.2 ⟨hdd, List.forall_mem_singleton.2 hvbmeta⟩, rfl⟩
      · rintro ⟨hdd, rfl⟩
        obtain ⟨hdd, hvbmeta⟩ := List.forall_mem_append.1 hdd
        exact ⟨(), _, ⟨hdd, rfl⟩, (hwrite _).2 ⟨hvbmeta .vbmeta (List.mem_singleton_self _), rfl⟩⟩

/-- The partition holds the image precisely when nothing was missed. -/
theorem install_contents_iff {r : Recovery} {devs : Devs} {i : Image} {dev : BlockDev}
    (hdev : oldDev r devs i = some dev) (hlen : (zipImage r.zip i).length = dev.contents.length) :
    (dev.install r i).contents = zipImage r.zip i ↔ NothingMissed r devs i := by
  have hold : oldContents r devs i = dev.contents := by
    rw [oldContents, hdev]
    rfl
  unfold NothingMissed
  rw [hold]
  cases hunzip : (r.pipeline i).unzip with
  | done =>
    refine iff_of_true ?_ fun k h => nomatch h
    simp [BlockDev.install, hunzip, Stage.pass, overwrite, hlen]
  | failed k =>
    simp only [Stage.failed.injEq, forall_eq']
    have hdrop : dev.contents.drop ((zipImage r.zip i).take k).length = dev.contents.drop k := by
      rw [List.length_take, hlen]
      by_cases hk : k ≤ dev.contents.length
      · rw [Nat.min_eq_left hk]
      · rw [List.drop_eq_nil_of_le (by omega), List.drop_eq_nil_of_le (by omega)]
    have hcontents : (dev.install r i).contents =
        (zipImage r.zip i).take k ++ dev.contents.drop k := by
      rw [BlockDev.install, hunzip, Stage.pass, overwrite, Nat.zero_add, hdrop]
      rfl
    rw [hcontents]
    constructor
    · intro h
      have heq : (zipImage r.zip i).take k ++ dev.contents.drop k =
          (zipImage r.zip i).take k ++ (zipImage r.zip i).drop k := by
        rw [h, List.take_append_drop]
      exact (List.append_cancel_left heq).symm
    · intro h
      rw [← h, List.take_append_drop]

section

variable {digest : Bytes → String} {args : Args} {r : Recovery} {devs : Devs}
  (hzip : makeTwrpZip digest args = .ok r.zip)
include hzip

theorem length_zipImage (i : Image) : (zipImage r.zip i).length = i.size := by
  obtain ⟨b, -, hb, hlen, -⟩ := makeTwrpZip_eq_ok hzip i
  rw [zipImage, hb]
  exact hlen

variable {target? : Option String} (hchecks : checks r devs = .ok target?)
include hchecks

omit hzip in
theorem mem_installed_iff_toInstall {i : Image} : i ∈ installed target? ↔ ToInstall r devs i := by
  rw [mem_installed_iff, (checks_eq_ok hchecks).2.1]
  rfl

/-- What stands on a partition after a successful run. -/
theorem contents_after_run {i : Image} (hi : ToInstall r devs i) :
    ∃ dev, oldDev r ((installed target?).foldl (afterImage r) devs) i = some dev ∧
      (dev.contents = zipImage r.zip i ↔ NothingMissed r devs i) := by
  obtain ⟨dev, hdev, hlen⟩ := (checks_eq_ok hchecks).1 i
  refine ⟨dev.install r i, ?_, install_contents_iff hdev ((length_zipImage hzip i).trans hlen.symm)⟩
  rw [oldDev_foldl_afterImage (nodup_installed target?),
    if_pos ((mem_installed_iff_toInstall hchecks).2 hi), hdev]
  rfl

theorem nothingMissed_of_installs (h : Installs digest r devs)
    (hdd : ∀ i, ToInstall r devs i → (r.pipeline i).dd = .done) {i : Image} (hi : ToInstall r devs i) :
    NothingMissed r devs i := by
  have hrun := (updateBinary_run (length_zipImage hzip)).2
    ⟨target?, hchecks, fun j hj => hdd j ((mem_installed_iff_toInstall hchecks).1 hj), rfl⟩
  obtain ⟨path, dev, hpath, hdev, hcontents, -⟩ := h _ hrun i hi
  obtain ⟨dev', hdev', hiff⟩ := contents_after_run hzip hchecks hi
  have hsame : dev' = dev := by
    have hold := oldDev_eq_some_iff.2 ⟨path, (resolvePart_foldl_afterImage _ _).trans hpath, hdev⟩
    exact Option.some.inj (hdev'.symm.trans hold)
  apply hiff.1
  rw [hsame, zipImage, hcontents]
  rfl

end

/-- **A successful run has installed every image precisely when no `unzip` missed a byte that was not
there already.** -/
theorem installs_iff {digest : Bytes → String} {args : Args} {r : Recovery} (devs : Devs)
    (hzip : makeTwrpZip digest args = .ok r.zip) :
    Installs digest r devs ↔ ∀ target?, checks r devs = .ok target? →
      (∀ i, ToInstall r devs i → (r.pipeline i).dd = .done) →
      ∀ i, ToInstall r devs i → NothingMissed r devs i := by
  constructor
  · exact fun h target? hchecks hdd i hi => nothingMissed_of_installs hzip hchecks h hdd hi
  · intro h devs' hrun i hi
    obtain ⟨target?, hchecks, hdd, rfl⟩ := (updateBinary_run (length_zipImage hzip)).1 hrun
    obtain ⟨dev, hdev, hiff⟩ := contents_after_run hzip hchecks hi
    obtain ⟨path, hpath, hat⟩ := oldDev_eq_some_iff.1 hdev
    rw [resolvePart_foldl_afterImage] at hpath
    have hcontents := hiff.2 (h target? hchecks
      (fun j hj => hdd j ((mem_installed_iff_toInstall hchecks).2 hj)) i hi)
    obtain ⟨b, -, hb, -, hrecorded⟩ := makeTwrpZip_eq_ok hzip i
    have hbytes : dev.contents = b := by
      rw [hcontents, zipImage, hb]
      rfl
    refine ⟨path, dev, hpath, hat, ?_, ?_⟩
    · rw [hbytes, hb]
    · rw [hbytes]
      exact hrecorded

/-! ## A bundle of zeros -/

def zeros (n : Nat) : Bytes := List.replicate n 0

/-- SHA-256 of the images of the bundle. -/
def zerosDigest (b : Bytes) : String :=
  match b.length with
  | 100663296 => "425382d5857f04fc49585cabbdef6fc647472ee26f52c54caaaeaad17320b3f8"
  | 8388608 => "2daeb1f36095b44b318410b3f4e8b5d989dcc7bb023d1426c492dab0a3053e74"
  | 16777216 => "080acf35a507ac9849cfcba47dc2ad83e01b75663a516279c8b9d243b719643e"
  | _ => "fa43239bcee7b97ca62f007cc68487560a39e19f74f3dde7486db3f98df8e471"

def zerosArgs : Args where
  bundle := "bundle"
  image i := some (zeros i.size)
  updateBinary := some []
  updaterScript := some []
  rootfsOverlay := none
  label := "zeros"

def zerosZip : Zip :=
  (Image.all.map fun i => imageEntry (i, zeros i.size)) ++
    [("META-INF/com/google/android/update-binary", []),
      ("META-INF/com/google/android/updater-script", []), ("BUNDLE-LABEL", utf8 "zeros\n"),
      ("SHA256SUMS", utf8 (String.join (Image.all.map fun i => manifestLine zerosDigest (i, zeros i.size))))]

/-- The recovery of a tablet whose `dd` works. -/
def tablet (unzip : Image → Stage) : Recovery where
  codename := "gts9wifi"
  emModel := "SM-X710"
  bootloader := ""
  slot := ""
  zipPath := "/sdcard/boot-bundle.zip"
  zip := zerosZip
  sizeFails _ := false
  getroFails := false
  readFlags := .done
  pipeline i := ⟨unzip i, .done⟩

/-- Its partitions are full of ones. -/
def ones : Devs := fun path =>
  (Image.all.find? fun i => path = partPath i.part "").map fun i => ⟨List.replicate i.size 1, false⟩

theorem makeTwrpZip_zeros : makeTwrpZip zerosDigest zerosArgs = .ok zerosZip := by
  have hcheck : ∀ i, checkImage zerosArgs i = .ok (i, zeros i.size) :=
    fun i => if_pos List.length_replicate
  unfold makeTwrpZip
  simp only [Image.all, List.mapM_cons, List.mapM_nil, hcheck]
  rfl

theorem ones_partPath (i : Image) : ones (partPath i.part "") = some ⟨List.replicate i.size 1, false⟩ := by
  have hfind : (Image.all.find? fun j => partPath i.part "" = partPath j.part "") = some i := by
    cases i <;> decide
  rw [ones, hfind]
  rfl

section

variable (unzip : Image → Stage)

theorem resolvePart_tablet (i : Image) : resolvePart (tablet unzip) ones i = some (partPath i.part "") := by
  simp [resolvePart, tablet, ones_partPath]

theorem oldDev_tablet (i : Image) :
    oldDev (tablet unzip) ones i = some ⟨List.replicate i.size 1, false⟩ := by
  rw [oldDev, resolvePart_tablet]
  exact ones_partPath i

theorem checks_tablet : checks (tablet unzip) ones = .ok (some (partPath "vbmeta" "")) := by
  have hparts : (Image.all.forM fun i =>
      require ((resolvePart (tablet unzip) ones i).isSome) (.missingPartition i)) = .ok () := by
    refine forM_require_eq_ok_iff.2 fun i _ => ?_
    rw [resolvePart_tablet]
    rfl
  have hsizes : (Image.all.forM fun i =>
      require (blkdevSize (tablet unzip) ones i = partSize i) (.sizeMismatch i)) = .ok () := by
    refine forM_require_eq_ok_iff.2 fun i _ => ?_
    rw [blkdevSize, resolvePart_tablet, partSize_eq]
    simp [ones_partPath, tablet]
  have hfiles : (Image.all.forM fun i =>
      require (((tablet unzip).zip.lookup i.file).isSome) (.zipMissing i)) = .ok () := by
    refine forM_require_eq_ok_iff.2 fun i _ => ?_
    obtain ⟨b, -, hb, -⟩ := makeTwrpZip_eq_ok makeTwrpZip_zeros i
    rw [show (tablet unzip).zip = zerosZip from rfl, hb]
    rfl
  have hoverlay : ¬ listed (tablet unzip) "ROOTFS-OVERLAY-SHA256SUMS" := by
    have hnames : (tablet unzip).zip.map Prod.fst = ["boot.img", "init_boot.img", "vendor_boot.img",
        "dtbo.img", "vbmeta.img", "META-INF/com/google/android/update-binary",
        "META-INF/com/google/android/updater-script", "BUNDLE-LABEL", "SHA256SUMS"] := rfl
    have hletter : ∀ name ∈ (tablet unzip).zipPath :: (tablet unzip).zip.map Prod.fst, 'V' ∉ name.toList := by
      rw [hnames, show (tablet unzip).zipPath = "/sdcard/boot-bundle.zip" from rfl]
      simp
    rintro ⟨name, hname, hinside⟩
    exact hletter name hname (hinside.subset (by simp))
  have htarget : vbmetaTarget (tablet unzip) ones = .ok (some (partPath "vbmeta" "")) := by
    rw [vbmetaTarget, resolvePart_tablet]
    simp only [ones_partPath]
    rfl
  rw [checks, hparts, hsizes, hfiles, (require_eq_ok_iff (u := ())).2 hoverlay, htarget]
  rfl

end

/-- With an `unzip` that works everything is installed. -/
theorem installs_tablet : Installs zerosDigest (tablet fun _ => .done) ones :=
  (installs_iff ones makeTwrpZip_zeros).2 fun _ _ _ _ _ _ h => nomatch h

/-- `unzip` fails after the first block of the boot image. -/
def firstBlock : Image → Stage
  | .boot => .failed 4194304
  | _ => .done

/-- The script reports success, and the rest of the boot partition is as it was. -/
theorem firstBlock_incomplete :
    makeTwrpZip zerosDigest zerosArgs = .ok (tablet firstBlock).zip ∧
      ¬ Installs zerosDigest (tablet firstBlock) ones := by
  refine ⟨makeTwrpZip_zeros, fun h => ?_⟩
  have hboot : ToInstall (tablet firstBlock) ones .boot := .inl (by decide)
  have hmissed := nothingMissed_of_installs makeTwrpZip_zeros (checks_tablet firstBlock) h
    (fun _ _ => rfl) hboot 4194304 rfl
  have hzero : zipImage (tablet firstBlock).zip .boot = zeros Image.boot.size := by
    obtain ⟨b, hargs, hb, -⟩ := makeTwrpZip_eq_ok makeTwrpZip_zeros .boot
    obtain rfl := Option.some.inj hargs
    exact congrArg (·.getD []) hb
  rw [oldContents, oldDev_tablet, hzero, zeros] at hmissed
  simp only [Option.map_some, Option.getD_some, List.drop_replicate] at hmissed
  have hbyte := (List.replicate_inj.1 hmissed).2
  exact absurd hbyte (by decide)

end Gts9Wifi.Installer
