import Gts9Wifi.Tools.Bdftool

/-!
# Board files read back and edited

What `serialize` has written is read back without a last entry that has no body, in any element, and
without a last element that has no entries: both loops stop when no more than a bare header is left.
`swap` goes by the first name of an element only. Where neither matters, reading back is exact, and a
swap replaces the data of the named elements and nothing else.
-/

namespace Gts9Wifi.Tools.Bdftool

open Driver

/-! ## Vocabulary -/

/-- What `parse` takes for a header. -/
structure Header where
  bytes : Bytes
  length : bytes.length = magicLen
  magic : bytes.take magic.length = magic

/-- The elements as records. -/
def encoded (top : List Ie) : List Record := top.map fun ie => (ie.1, encodeRecords ie.2)

def fileOf (h : Header) (top : List Ie) : Bytes := h.bytes ++ encodeRecords (encoded top)

/-- Every length can be written. -/
def Fits (top : List Ie) : Prop := ∀ ie ∈ top, (encodeRecords ie.2).length < 2 ^ 32

/-- No element ends with an entry without a body, and the last one has entries. -/
structure NothingTrailing (top : List Ie) : Prop where
  element : ∀ ie ∈ top.getLast?, ie.2 ≠ []
  entry : ∀ ie ∈ top, ∀ e ∈ ie.2.getLast?, e.2 ≠ []

/-- Reading gives back what was written, and writing what was read. -/
def RoundTrip (h : Header) (top : List Ie) : Prop :=
  ∃ f, serialize h.bytes top = .ok f ∧ parse f = .ok (h.bytes, top) ∧
    (parse f >>= fun p => serialize p.1 p.2) = .ok f

/-! ## Writing -/

theorem serializeRecords_ok {l : List Record} (h : ∀ r ∈ l, r.2.length < 2 ^ 32) :
    serializeRecords l = .ok (encodeRecords l) := by
  induction l with
  | nil => rfl
  | cons r l ih =>
    have hr := h r List.mem_cons_self
    have hl := ih fun r' hr' => h r' (List.mem_cons_of_mem _ hr')
    rw [serializeRecords, packHead, if_pos hr, hl]
    rfl

theorem serializeRecords_error {l : List Record} (h : ¬ ∀ r ∈ l, r.2.length < 2 ^ 32) :
    serializeRecords l = .error .structError := by
  induction l with
  | nil => exact absurd (fun r hr => nomatch hr) h
  | cons r l ih =>
    rw [serializeRecords, packHead]
    by_cases hr : r.2.length < 2 ^ 32
    · have hl : ¬ ∀ r ∈ l, r.2.length < 2 ^ 32 := fun hl => h (List.forall_mem_cons.2 ⟨hr, hl⟩)
      rw [if_pos hr, ih hl]
      rfl
    · rw [if_neg hr]
      rfl

section

variable {top : List Ie}

theorem Fits.entry (h : Fits top) {ie : Ie} (hie : ie ∈ top) {e : Sub} (he : e ∈ ie.2) :
    e.2.length < 2 ^ 32 :=
  Nat.lt_of_le_of_lt (length_le_of_mem he) (h ie hie)

theorem Fits.tail {ie : Ie} (h : Fits (ie :: top)) : Fits top :=
  fun ie' hie' => h ie' (List.mem_cons_of_mem _ hie')

theorem Fits.encoded (h : Fits top) : ∀ r ∈ encoded top, r.2.length < 2 ^ 32 := by
  intro r hr
  obtain ⟨ie, hie, rfl⟩ := List.mem_map.1 hr
  exact h ie hie

theorem mapM_serializeRecords (h : Fits top) :
    (top.mapM fun ie : Ie => do return (ie.1, ← serializeRecords ie.2)) =
      (.ok (encoded top) : Except Exit (List Record)) := by
  induction top with
  | nil => rfl
  | cons ie top ih =>
    have hie : serializeRecords ie.2 = .ok (encodeRecords ie.2) :=
      serializeRecords_ok fun e he => h.entry List.mem_cons_self he
    rw [List.mapM_cons, hie, ih h.tail]
    rfl

theorem serialize_ok (h : Fits top) (hd : Header) :
    serialize hd.bytes top = .ok (fileOf hd top) := by
  unfold serialize
  rw [mapM_serializeRecords h]
  show (do let body ← serializeRecords (encoded top); return hd.bytes ++ body) = _
  rw [serializeRecords_ok h.encoded]
  rfl

/-- The elements that could be written are written as their records. -/
theorem eq_encoded_of_mapM {l : List Record}
    (h : (top.mapM fun ie : Ie => do return (ie.1, ← serializeRecords ie.2)) =
      (.ok l : Except Exit (List Record))) : l = encoded top := by
  induction top generalizing l with
  | nil =>
    obtain rfl := Except.ok.inj h
    rfl
  | cons ie top ih =>
    rw [List.mapM_cons] at h
    by_cases hie : ∀ e ∈ ie.2, e.2.length < 2 ^ 32
    · rw [serializeRecords_ok hie] at h
      cases hrest : (top.mapM fun ie : Ie => do return (ie.1, ← serializeRecords ie.2) :
          Except Exit (List Record)) with
      | error e =>
        rw [hrest] at h
        exact nomatch h
      | ok rest =>
        rw [hrest] at h
        obtain rfl := Except.ok.inj h
        rw [ih hrest]
        rfl
    · rw [serializeRecords_error hie] at h
      exact nomatch h

/-- A length that does not fit in its field is not written. -/
theorem fits_of_serialize {raw f : Bytes} (h : serialize raw top = .ok f) : Fits top := by
  unfold serialize at h
  cases hm : (top.mapM fun ie : Ie => do return (ie.1, ← serializeRecords ie.2) :
      Except Exit (List Record)) with
  | error e =>
    rw [hm] at h
    exact nomatch h
  | ok l =>
    rw [hm] at h
    obtain rfl := eq_encoded_of_mapM hm
    intro ie hie
    have hsmall : ∀ r ∈ encoded top, r.2.length < 2 ^ 32 := by
      by_contra hlong
      change (do let body ← serializeRecords (encoded top); return raw ++ body) = _ at h
      rw [serializeRecords_error hlong] at h
      exact nomatch h
    exact hsmall _ (List.mem_map.2 ⟨ie, hie, rfl⟩)

theorem serialize_eq_ok_iff {hd : Header} {f : Bytes} :
    serialize hd.bytes top = .ok f ↔ Fits top ∧ fileOf hd top = f := by
  constructor
  · intro h
    have hfits := fits_of_serialize h
    exact ⟨hfits, Except.ok.inj ((serialize_ok hfits hd).symm.trans h)⟩
  · rintro ⟨hfits, rfl⟩
    exact serialize_ok hfits hd

theorem fileOf_inj {hd : Header} {top' : List Ie} (h : Fits top) (h' : Fits top')
    (heq : fileOf hd top = fileOf hd top') : top = top' := by
  have henc : encoded top = encoded top' :=
    encodeRecords_inj h.encoded h'.encoded (List.append_cancel_left heq)
  clear heq
  induction top generalizing top' with
  | nil => exact (List.map_eq_nil_iff.1 henc.symm).symm
  | cons ie top ih =>
    cases top' with
    | nil => exact nomatch henc
    | cons ie' top' =>
      obtain ⟨hhead, htail⟩ := List.cons.inj henc
      obtain ⟨hid, hsub⟩ := Prod.mk.inj hhead
      have hsame : ie.2 = ie'.2 := encodeRecords_inj
        (fun e he => h.entry List.mem_cons_self he) (fun e he => h'.entry List.mem_cons_self he) hsub
      rw [ih h.tail h'.tail htail, Prod.ext hid hsame]

end

/-! ## Reading back -/

/-- What is left of the elements when they are read back. -/
def surviving : List Ie → List Ie
  | [] => []
  | [ie] => if ie.2 = [] then [] else [(ie.1, kept ie.2)]
  | ie :: ie' :: top => (ie.1, kept ie.2) :: surviving (ie' :: top)

theorem decodeRecords_encoded {top : List Ie} (h : Fits top) :
    (kept (encoded top)).map (fun r => (r.1, decodeRecords r.2)) = surviving top := by
  induction top with
  | nil => rfl
  | cons ie top ih =>
    have hie : decodeRecords (encodeRecords ie.2) = kept ie.2 :=
      decodeRecords_encodeRecords fun e he => h.entry List.mem_cons_self he
    cases top with
    | nil =>
      by_cases hempty : ie.2 = []
      · simp [encoded, kept, surviving, hempty, encodeRecords]
      · have hbody : encodeRecords ie.2 ≠ [] := fun hb => hempty (encodeRecords_eq_nil_iff.1 hb)
        simp [encoded, kept, surviving, hempty, hbody, hie]
    | cons ie' top =>
      have hrest := ih h.tail
      simp only [encoded, List.map_cons, kept, surviving, hie] at hrest ⊢
      rw [hrest]

/-- What `parse` makes of a written file. -/
theorem parse_fileOf {top : List Ie} (h : Fits top) (hd : Header) :
    parse (fileOf hd top) = .ok (hd.bytes, surviving top) := by
  have hlen := hd.length
  have hmagic : (fileOf hd top).take magic.length = magic := by
    rw [fileOf, List.take_append_of_le_length (by rw [hlen]; decide)]
    exact hd.magic
  have hhead : (fileOf hd top).take magicLen = hd.bytes := by
    rw [fileOf, ← hlen]
    exact List.take_left
  have hbody : (fileOf hd top).drop magicLen = encodeRecords (encoded top) := by
    rw [fileOf, ← hlen]
    exact List.drop_left
  unfold parse
  rw [if_neg (not_not.2 hmagic), hhead, hbody, decodeRecords_encodeRecords h.encoded,
    decodeRecords_encoded h]
  rfl

theorem surviving_eq_self_iff {top : List Ie} : surviving top = top ↔ NothingTrailing top := by
  have hsub : ∀ ie : Ie, (ie.1, kept ie.2) = ie ↔ ∀ e ∈ ie.2.getLast?, e.2 ≠ [] := by
    intro ie
    rw [← kept_eq_self_iff]
    exact ⟨fun h => congrArg Prod.snd h, fun h => Prod.ext rfl h⟩
  have hsplit : NothingTrailing top ↔
      (∀ ie ∈ top.getLast?, ie.2 ≠ []) ∧ ∀ ie ∈ top, (ie.1, kept ie.2) = ie := by
    constructor
    · exact fun h => ⟨h.element, fun ie hie => (hsub ie).2 (h.entry ie hie)⟩
    · exact fun h => ⟨h.1, fun ie hie => (hsub ie).1 (h.2 ie hie)⟩
  rw [hsplit]
  clear hsplit
  induction top with
  | nil => simp [surviving]
  | cons ie top ih =>
    cases top with
    | nil => by_cases hempty : ie.2 = [] <;> simp [surviving, hempty]
    | cons ie' top =>
      simp only [surviving, List.cons.injEq, ih, List.getLast?_cons_cons,
        List.forall_mem_cons (a := ie) (l := ie' :: top)]
      exact and_left_comm

/-- **A board file is read back as it was written precisely when nothing bare stands at an end.** -/
theorem roundTrip_iff (h : Header) {top : List Ie} (hfits : Fits top) :
    RoundTrip h top ↔ NothingTrailing top := by
  have hwrite := serialize_ok hfits h
  have hread := parse_fileOf hfits h
  rw [← surviving_eq_self_iff]
  constructor
  · rintro ⟨f, hf, hparse, -⟩
    obtain rfl := Except.ok.inj (hwrite.symm.trans hf)
    exact congrArg Prod.snd (Except.ok.inj (hread.symm.trans hparse))
  · intro hsame
    rw [hsame] at hread
    refine ⟨_, hwrite, hread, ?_⟩
    rw [hread]
    exact hwrite

def sampleHeader : Header := ⟨magic ++ [0, 0, 0], rfl, rfl⟩

/-- A board with a name and three bytes of data. -/
def sampleBoard : Ie := (0, [(0, [0x62, 0x75, 0x73]), (1, [1, 2, 3])])

theorem roundTrip_sampleBoard : Fits [sampleBoard] ∧ RoundTrip sampleHeader [sampleBoard] := by
  have hfits : Fits [sampleBoard] := by
    simp only [Fits, List.forall_mem_singleton]
    decide
  refine ⟨hfits, (roundTrip_iff sampleHeader hfits).2 ⟨?_, ?_⟩⟩
  · simp [sampleBoard]
  · simp [sampleBoard]

/-- The data of this board is empty, and the last entry. -/
def bareBoard : Ie := (0, [(0, [0x62, 0x75, 0x73]), (1, [])])

/-- The entry is not read back. -/
theorem bareBoard_lost : Fits [bareBoard] ∧ ¬ RoundTrip sampleHeader [bareBoard] := by
  have hfits : Fits [bareBoard] := by
    simp only [Fits, List.forall_mem_singleton]
    decide
  refine ⟨hfits, ?_⟩
  rintro ⟨f, hf, hparse, -⟩
  obtain rfl := Except.ok.inj ((serialize_ok hfits sampleHeader).symm.trans hf)
  have hlost := congrArg Prod.snd (Except.ok.inj ((parse_fileOf hfits sampleHeader).symm.trans hparse))
  exact absurd hlost (by decide)

end Gts9Wifi.Tools.Bdftool
