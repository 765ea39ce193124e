import Gts9Wifi.Tools.Verify.Bdftool

/-!
# Swapping named boards

An element is named by all its name entries, but the tool looks at the first one only. What it writes
is the file with the data of the named elements replaced, and with nothing else changed, precisely
when nothing was lost in reading and the first name of each element selects the payload that all its
names select.
-/

namespace Gts9Wifi.Tools.Bdftool

open Driver

/-! ## Vocabulary -/

/-- All names of an element. -/
def names (sub : List Sub) : List (List Char) :=
  (sub.filter fun e => e.1 = 0).map fun e => nameText e.2

/-- The payload of the last pair whose target is selected. -/
def lastPayload (select : List Char → Bool) : List Pair → Option Bytes
  | [] => none
  | p :: pairs => (lastPayload select pairs).or (if select p.1 then some p.2 else none)

/-- The payload for an element with any of these names. -/
def namedPayload (pairs : List Pair) (sub : List Sub) : Option Bytes :=
  lastPayload (fun target => (names sub).any (nameMatches target)) pairs

/-- The payload that the first name selects. -/
def firstPayload (pairs : List Pair) (sub : List Sub) : Option Bytes :=
  (subToName sub).bind fun name => lastPayload (fun target => nameMatches target name) pairs

/-- The entries with their data replaced, if there is something to replace it with. -/
def replaceData : Option Bytes → List Sub → List Sub
  | none, sub => sub
  | some payload, sub => swapData payload sub

/-- The element as it should be after the swap. -/
def swapped (pairs : List Pair) (ie : Ie) : Ie := (ie.1, replaceData (namedPayload pairs ie.2) ie.2)

/-- Some element has a name that some pair asks for. -/
def Named (top : List Ie) (pairs : List Pair) : Prop := ∃ ie ∈ top, (namedPayload pairs ie.2).isSome

/-- If there is something to swap, and the new file can be written, then it is what `swap` writes. -/
def SwapsNamed (h : Header) (top : List Ie) (pairs : List Pair) (f : Bytes) : Prop :=
  Named top pairs → ∀ out, serialize h.bytes (top.map (swapped pairs)) = .ok out →
    swap f pairs = .ok out

/-- Nothing is lost in reading, the first name of each element selects for its data what all its names
select, and some first name is asked for. -/
structure FirstNamesDecide (top : List Ie) (pairs : List Pair) : Prop where
  nothingTrailing : NothingTrailing top
  sameData : ∀ ie ∈ top, ∀ e ∈ ie.2, e.1 = 1 →
    (firstPayload pairs ie.2).getD e.2 = (namedPayload pairs ie.2).getD e.2
  found : ∃ ie ∈ top, (firstPayload pairs ie.2).isSome

/-! ## The loop over the pairs -/

theorem length_swapData (payload : Bytes) (sub : List Sub) :
    (swapData payload sub).length = sub.length := List.length_map _

theorem length_replaceData (o : Option Bytes) (sub : List Sub) :
    (replaceData o sub).length = sub.length := by
  cases o with
  | none => rfl
  | some payload => exact length_swapData payload sub

/-- The later of two payloads counts. -/
theorem swapData_swapData (p q : Bytes) (sub : List Sub) :
    swapData q (swapData p sub) = swapData q sub := by
  unfold swapData
  rw [List.map_map]
  refine List.map_congr_left fun e _ => ?_
  by_cases he : e.1 = 1 <;> simp [he]

theorem replaceData_swapData (o : Option Bytes) (p : Bytes) (sub : List Sub) :
    replaceData o (swapData p sub) = replaceData (o.or (some p)) sub := by
  cases o with
  | none => rfl
  | some q => exact swapData_swapData p q sub

theorem swapPairs_fst (name : List Char) (pairs : List Pair) (sub : List Sub) :
    (swapPairs name pairs sub).1 =
      replaceData (lastPayload (fun target => nameMatches target name) pairs) sub := by
  induction pairs generalizing sub with
  | nil => rfl
  | cons p pairs ih =>
    rw [swapPairs, lastPayload]
    by_cases hp : nameMatches p.1 name = true
    · rw [if_pos hp, if_pos hp, ← replaceData_swapData]
      exact ih (swapData p.2 sub)
    · rw [if_neg hp, if_neg hp, Option.or_none]
      exact ih sub

theorem swapPairs_snd_eq_zero_iff (name : List Char) (pairs : List Pair) (sub : List Sub) :
    (swapPairs name pairs sub).2 = 0 ↔
      lastPayload (fun target => nameMatches target name) pairs = none := by
  induction pairs generalizing sub with
  | nil => exact iff_of_true rfl rfl
  | cons p pairs ih =>
    rw [swapPairs, lastPayload]
    by_cases hp : nameMatches p.1 name = true
    · rw [if_pos hp, if_pos hp]
      simp
    · rw [if_neg hp, if_neg hp, Option.or_none]
      exact ih sub

theorem swapIe_fst (pairs : List Pair) (ie : Ie) :
    (swapIe pairs ie).1 = (ie.1, replaceData (firstPayload pairs ie.2) ie.2) := by
  unfold swapIe firstPayload
  cases subToName ie.2 with
  | none => rfl
  | some name => exact Prod.ext rfl (swapPairs_fst name pairs ie.2)

theorem swapIe_snd_eq_zero_iff (pairs : List Pair) (ie : Ie) :
    (swapIe pairs ie).2 = 0 ↔ firstPayload pairs ie.2 = none := by
  unfold swapIe firstPayload
  cases subToName ie.2 with
  | none => exact iff_of_true rfl rfl
  | some name => exact swapPairs_snd_eq_zero_iff name pairs ie.2

theorem replaceData_eq_iff {o o' : Option Bytes} {sub : List Sub} :
    replaceData o sub = replaceData o' sub ↔ ∀ e ∈ sub, e.1 = 1 → o.getD e.2 = o'.getD e.2 := by
  have hmap : ∀ o : Option Bytes,
      replaceData o sub = sub.map fun e => if e.1 = 1 then (e.1, o.getD e.2) else e := by
    intro o
    cases o with
    | none => simp [replaceData]
    | some payload => rfl
  rw [hmap, hmap, List.map_inj_left]
  refine forall₂_congr fun e _ => ?_
  by_cases he : e.1 = 1
  · simp [he]
  · simp [he]

/-! ## The whole file -/

section

variable {h : Header} {top : List Ie} {pairs : List Pair}

/-- What `swap` does with a written file. -/
theorem swap_fileOf (hfits : Fits top) :
    swap (fileOf h top) pairs =
      if ∀ ie ∈ surviving top, firstPayload pairs ie.2 = none then .error .noEntriesMatched
      else serialize h.bytes ((surviving top).map fun ie =>
        (ie.1, replaceData (firstPayload pairs ie.2) ie.2)) := by
  have hcount : (((surviving top).map (swapIe pairs)).map Prod.snd).sum = 0 ↔
      ∀ ie ∈ surviving top, firstPayload pairs ie.2 = none := by
    rw [List.sum_eq_zero_iff_forall_eq_nat, List.map_map, List.forall_mem_map]
    exact forall₂_congr fun ie _ => swapIe_snd_eq_zero_iff pairs ie
  have hnew : ((surviving top).map (swapIe pairs)).map Prod.fst =
      (surviving top).map fun ie => (ie.1, replaceData (firstPayload pairs ie.2) ie.2) := by
    rw [List.map_map]
    exact List.map_congr_left fun ie _ => swapIe_fst pairs ie
  unfold swap
  rw [parse_fileOf hfits h]
  show (if _ then _ else _ : Except Exit Bytes) = _
  by_cases hnone : ∀ ie ∈ surviving top, firstPayload pairs ie.2 = none
  · rw [if_pos hnone, if_pos (hcount.2 hnone)]
    rfl
  · rw [if_neg hnone, if_neg fun h0 => hnone (hcount.1 h0), ← hnew]

/-- Where the elements that were read back agree with all of them up to their data, none was lost. -/
theorem surviving_of_map_eq {f g : List Sub → List Sub} (hf : ∀ sub, (f sub).length = sub.length)
    (hg : ∀ sub, (g sub).length = sub.length)
    (heq : ((surviving top).map fun ie => (ie.1, f ie.2)) = top.map fun ie => (ie.1, g ie.2)) :
    surviving top = top := by
  have hsub : ∀ ie : Ie, f (kept ie.2) = g ie.2 → (ie.1, kept ie.2) = ie := by
    intro ie hie
    have hlen := congrArg List.length hie
    rw [hf, hg] at hlen
    exact Prod.ext rfl (kept_eq_self_of_length hlen)
  induction top with
  | nil => rfl
  | cons ie top ih =>
    cases top with
    | nil =>
      by_cases hempty : ie.2 = []
      · simp [surviving, hempty] at heq
      · simp only [surviving, hempty, if_false, List.map_cons, List.map_nil, List.cons.injEq,
          Prod.mk.injEq, true_and, and_true] at heq
        simp only [surviving, hempty, if_false, hsub ie heq]
    | cons ie' top =>
      simp only [surviving, List.map_cons, List.cons.injEq, Prod.mk.injEq, true_and] at heq
      obtain ⟨hhead, htail⟩ := heq
      rw [surviving, hsub ie hhead, ih htail]

/-- **`swap` replaces the data of the named elements and nothing else precisely when nothing is lost in
reading and first names decide.** -/
theorem swap_iff {f : Bytes} (hf : serialize h.bytes top = .ok f) :
    SwapsNamed h top pairs f ↔
      (Named top pairs → Fits (top.map (swapped pairs)) → FirstNamesDecide top pairs) := by
  obtain ⟨hfits, rfl⟩ := serialize_eq_ok_iff.1 hf
  unfold SwapsNamed
  rw [swap_fileOf hfits]
  refine imp_congr_right fun _ => ⟨fun hswaps hout => ?_, fun hdecide out hout => ?_⟩
  · have hwritten := hswaps _ (serialize_ok hout h)
    split at hwritten
    · exact nomatch hwritten
    next hfound =>
    obtain ⟨hfits', hfile⟩ := serialize_eq_ok_iff.1 hwritten
    have htop := fileOf_inj hfits' hout hfile
    have hsame := surviving_of_map_eq (fun sub => length_replaceData _ sub)
      (fun sub => length_replaceData _ sub) htop
    rw [hsame] at htop hfound
    refine ⟨surviving_eq_self_iff.1 hsame, fun ie hie => ?_, ?_⟩
    · have hentry := List.map_inj_left.1 htop ie hie
      exact replaceData_eq_iff.1 (congrArg Prod.snd hentry)
    · simpa [Option.isSome_iff_ne_none] using hfound
  · obtain ⟨hfits', rfl⟩ := serialize_eq_ok_iff.1 hout
    obtain ⟨htrailing, hdata, ie, hie, hfound⟩ := hdecide hfits'
    have hsame := surviving_eq_self_iff.2 htrailing
    have htop : (top.map fun ie => (ie.1, replaceData (firstPayload pairs ie.2) ie.2)) =
        top.map (swapped pairs) :=
      List.map_congr_left fun ie hie => Prod.ext rfl (replaceData_eq_iff.2 (hdata ie hie))
    rw [hsame, if_neg, htop]
    · exact serialize_ok hfits' h
    · intro hnone
      rw [hnone ie hie] at hfound
      exact nomatch hfound

end

/-- New data for the board that is called `bus`. -/
def samplePair : Pair := (['b', 'u', 's'], [9, 9])

theorem swap_sampleBoard : Named [sampleBoard] [samplePair] ∧
    SwapsNamed sampleHeader [sampleBoard] [samplePair] (fileOf sampleHeader [sampleBoard]) := by
  have hfits : Fits [sampleBoard] := by
    simp only [Fits, List.forall_mem_singleton]
    decide
  have hnamed : Named [sampleBoard] [samplePair] := ⟨sampleBoard, List.mem_singleton_self _, by decide⟩
  refine ⟨hnamed, (swap_iff (serialize_ok hfits sampleHeader)).2 fun _ _ => ⟨⟨?_, ?_⟩, ?_, ?_⟩⟩
  · simp [sampleBoard]
  · simp [sampleBoard]
  · simp only [List.forall_mem_singleton]
    decide
  · exact ⟨sampleBoard, List.mem_singleton_self _, by decide⟩

/-- A board with two names, of which the second is `bus`. -/
def twoNameBoard : Ie := (0, [(0, [0x70, 0x63, 0x69]), (0, [0x62, 0x75, 0x73]), (1, [1, 2, 3])])

/-- It is not found by its second name. -/
theorem twoNameBoard_missed :
    serialize sampleHeader.bytes [twoNameBoard] = .ok (fileOf sampleHeader [twoNameBoard]) ∧
      Named [twoNameBoard] [samplePair] ∧
      ¬ SwapsNamed sampleHeader [twoNameBoard] [samplePair] (fileOf sampleHeader [twoNameBoard]) := by
  have hfits : Fits [twoNameBoard] := by
    simp only [Fits, List.forall_mem_singleton]
    decide
  have hout : Fits ([twoNameBoard].map (swapped [samplePair])) := by
    simp only [Fits, List.map_cons, List.map_nil, List.forall_mem_singleton]
    decide
  have hnamed : Named [twoNameBoard] [samplePair] :=
    ⟨twoNameBoard, List.mem_singleton_self _, by decide⟩
  have hmissed : ∀ ie ∈ surviving [twoNameBoard], firstPayload [samplePair] ie.2 = none := by decide
  refine ⟨serialize_ok hfits sampleHeader, hnamed, fun hswaps => ?_⟩
  have hwritten := hswaps hnamed _ (serialize_ok hout sampleHeader)
  rw [swap_fileOf hfits, if_pos hmissed] at hwritten
  cases hwritten

end Gts9Wifi.Tools.Bdftool
