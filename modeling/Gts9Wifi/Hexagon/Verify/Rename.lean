import Gts9Wifi.Hexagon.Fs

/-!
# A rename and its mapping

The daemon tells two parents apart by their table of operations alone. That keeps a rename out of the
virtual directories, but all mappings share one table, so a rename from one mapping to another goes
through. Everywhere else it is confined.
-/

namespace Gts9Wifi.Hexagon

open Driver

variable {V M D : Type}

/-! ## Vocabulary -/

/-- An open-file table with the root of the tree and the directory that relative names start from. -/
structure Session (V M D : Type) where
  fds : Table V M D
  rootfd : Nat
  dirfd : Nat
  root : Fd V M D
  dir : Fd V M D
  root_open : fds[rootfd]? = some (some root)
  dir_open : fds[dirfd]? = some (some dir)

section

variable (u : Upstream V M D) (host : Host D) (s : Session V M D)

/-- Where a path leads. -/
def resolve (path : Path) : Except Errno (Fd V M D) :=
  walk u host rdonly (if u.fromRoot path then s.root else s.dir) (u.segments path)

/-- Where the parent of a path leads. -/
def parentDir (path : Path) (mem : Bool) : Except Errno (Fd V M D) := do
  resolve u host s (← splitParent path mem).1

/-- A rename in the session. -/
def rename (oldPath newPath : Path) (mem : Bool × Bool) : Outcome V M D :=
  hexagonfsRename u host s.fds s.rootfd s.dirfd oldPath newPath mem

/-- Both parents lead into the mapping `m`. -/
def InOneMapping (oldPath newPath : Path) (mem : Bool × Bool) : Prop :=
  ∃ old new m d d', parentDir u host s oldPath mem.1 = .ok old ∧
    parentDir u host s newPath mem.2 = .ok new ∧ old.node = .mapped m d ∧ new.node = .mapped m d'

/-- The rename has failed, without a call of `renameat`, and the open-file table is what it was. -/
structure Refused (o : Outcome V M D) : Prop where
  error : ∃ e, o.result = .error e
  noCall : o.call = none
  fds : o.fds = s.fds

/-- `renameat` is called only if both parents lead into one mapping, and otherwise the rename is
refused. -/
structure Confined (oldPath newPath : Path) (mem : Bool × Bool) : Prop where
  performed : (rename u host s oldPath newPath mem).call ≠ none →
    InOneMapping u host s oldPath newPath mem
  refused : ¬ InOneMapping u host s oldPath newPath mem →
    Refused s (rename u host s oldPath newPath mem)

/-- The parents lead into two different mappings, and there is room in the open-file table for both. -/
def CrossesMappings (oldPath newPath : Path) (mem : Bool × Bool) : Prop :=
  ∃ old new m m' d d' n n', parentDir u host s oldPath mem.1 = .ok old ∧
    parentDir u host s newPath mem.2 = .ok new ∧ old.node = .mapped m d ∧ new.node = .mapped m' d' ∧
    m ≠ m' ∧ u.allocate s.fds = .ok n ∧ u.allocate (s.fds.set n (some old)) = .ok n'

end

/-! ## Opening the parents -/

section

variable {u : Upstream V M D} {host : Host D} {s : Session V M D}

theorem get_of_open {fds : Table V M D} {n : Nat} {fd : Fd V M D} (h : fds[n]? = some (some fd)) :
    fds.get n = .ok fd := by
  unfold Table.get
  rw [h]
  rfl

/-- What is open stays open when a free number is taken. -/
theorem open_set {fds : Table V M D} {n k : Nat} {fd : Fd V M D} {x : Option (Fd V M D)}
    (hn : fds[n]? = some none) (hk : fds[k]? = some (some fd)) : (fds.set n x)[k]? = some (some fd) := by
  have hne : n ≠ k := by
    rintro rfl
    exact nomatch hn.symm.trans hk
  rw [List.getElem?_set_ne hne]
  exact hk

theorem get_set_self {fds : Table V M D} {n : Nat} (fd : Fd V M D) (hn : fds[n]? = some none) :
    (fds.set n (some fd))[n]? = some (some fd) := by
  obtain ⟨hlt, -⟩ := List.getElem?_eq_some_iff.1 hn
  exact List.getElem?_set_self hlt

/-- Closing what was opened at a free number restores the table. -/
theorem close_set {fds : Table V M D} {n : Nat} (x : Option (Fd V M D)) (hn : fds[n]? = some none) :
    hexagonfsClose (fds.set n x) n = fds := by
  obtain ⟨hlt, hget⟩ := List.getElem?_eq_some_iff.1 hn
  unfold hexagonfsClose
  rw [List.set_set, ← hget, List.set_getElem_self]

/-- Opening a path in a table in which the two directories are still open. -/
theorem hexagonfsOpenat_eq {fds : Table V M D} (hroot : fds[s.rootfd]? = some (some s.root))
    (hdir : fds[s.dirfd]? = some (some s.dir)) (path : Path) :
    hexagonfsOpenat u host fds s.rootfd s.dirfd path = do
      let fd ← resolve u host s path
      let n ← u.allocate fds
      return (n, fds.set n (some fd)) := by
  have hstart : fds.get (if u.fromRoot path then s.rootfd else s.dirfd) =
      .ok (if u.fromRoot path then s.root else s.dir) := by
    split
    · exact get_of_open hroot
    · exact get_of_open hdir
  unfold hexagonfsOpenat hexagonfsOpenatFlags
  rw [hstart]
  rfl

/-! ## The rename -/

/-- An error before the parents are compared. -/
def refuse (s : Session V M D) (e : Errno) : Outcome V M D := ⟨.error e, none, s.fds⟩

theorem refused_refuse (e : Errno) : Refused s (refuse s e) := ⟨⟨e, rfl⟩, rfl, rfl⟩

/-- A rename whose parents can be opened does what is done with them, and the table is restored. -/
theorem rename_of_open {oldPath newPath oldParent newParent oldName newName : Path}
    {mem : Bool × Bool} {old new : Fd V M D} {n n' : Nat}
    (hsplit : splitParent oldPath mem.1 = .ok (oldParent, oldName))
    (hsplit' : splitParent newPath mem.2 = .ok (newParent, newName))
    (hold : resolve u host s oldParent = .ok old) (hnew : resolve u host s newParent = .ok new)
    (hn : u.allocate s.fds = .ok n) (hn' : u.allocate (s.fds.set n (some old)) = .ok n') :
    rename u host s oldPath newPath mem =
      ⟨(renameIn u host old.node new.node oldName newName).1,
        (renameIn u host old.node new.node oldName newName).2, s.fds⟩ := by
  have hfree := u.allocate_free hn
  have hfree' := u.allocate_free hn'
  have hopen : hexagonfsOpenat u host s.fds s.rootfd s.dirfd oldParent =
      .ok (n, s.fds.set n (some old)) := by
    rw [hexagonfsOpenat_eq s.root_open s.dir_open, hold, hn]
    rfl
  have hopen' : hexagonfsOpenat u host (s.fds.set n (some old)) s.rootfd s.dirfd newParent =
      .ok (n', (s.fds.set n (some old)).set n' (some new)) := by
    rw [hexagonfsOpenat_eq (open_set hfree s.root_open) (open_set hfree s.dir_open), hnew, hn']
    rfl
  have hget : Table.get ((s.fds.set n (some old)).set n' (some new)) n = .ok old :=
    get_of_open (open_set hfree' (get_set_self old hfree))
  have hget' : Table.get ((s.fds.set n (some old)).set n' (some new)) n' = .ok new :=
    get_of_open (get_set_self new hfree')
  unfold rename hexagonfsRename
  rw [hsplit, hsplit']
  dsimp only
  rw [hopen]
  dsimp only
  rw [hopen']
  dsimp only
  rw [hget, hget', close_set _ hfree', close_set _ hfree]

/-- Otherwise it is refused. -/
theorem rename_refused {oldPath newPath : Path} {mem : Bool × Bool}
    (h : ∀ oldParent oldName newParent newName old new n n',
      splitParent oldPath mem.1 = .ok (oldParent, oldName) →
      splitParent newPath mem.2 = .ok (newParent, newName) →
      resolve u host s oldParent = .ok old → resolve u host s newParent = .ok new →
      u.allocate s.fds = .ok n → u.allocate (s.fds.set n (some old)) ≠ .ok n') :
    Refused s (rename u host s oldPath newPath mem) := by
  unfold rename hexagonfsRename
  cases hsplit : splitParent oldPath mem.1 with
  | error e => exact refused_refuse e
  | ok old =>
    obtain ⟨oldParent, oldName⟩ := old
    dsimp only
    cases hsplit' : splitParent newPath mem.2 with
    | error e => exact refused_refuse e
    | ok new =>
      obtain ⟨newParent, newName⟩ := new
      dsimp only
      rw [hexagonfsOpenat_eq s.root_open s.dir_open]
      cases hold : resolve u host s oldParent with
      | error e => exact refused_refuse e
      | ok old =>
        cases hn : u.allocate s.fds with
        | error e => exact refused_refuse e
        | ok n =>
          have hfree := u.allocate_free hn
          have hclose := close_set (some old) hfree
          dsimp only [bind, Except.bind, pure, Except.pure]
          rw [hexagonfsOpenat_eq (open_set hfree s.root_open) (open_set hfree s.dir_open)]
          cases hnew : resolve u host s newParent with
          | error e => exact ⟨⟨e, rfl⟩, rfl, hclose⟩
          | ok new =>
            cases hn' : u.allocate (s.fds.set n (some old)) with
            | error e => exact ⟨⟨e, rfl⟩, rfl, hclose⟩
            | ok n' => exact absurd hn' (h _ _ _ _ old new n n' hsplit hsplit' hold hnew hn)

theorem parentDir_eq_ok_iff {path : Path} {mem : Bool} {fd : Fd V M D} :
    parentDir u host s path mem = .ok fd ↔
      ∃ dir base, splitParent path mem = .ok (dir, base) ∧ resolve u host s dir = .ok fd := by
  unfold parentDir
  cases hsplit : splitParent path mem with
  | error e =>
    refine iff_of_false (fun h => nomatch h) ?_
    rintro ⟨dir, base, h, -⟩
    exact nomatch h
  | ok p =>
    obtain ⟨dir, base⟩ := p
    constructor
    · exact fun h => ⟨dir, base, rfl, h⟩
    · rintro ⟨dir', base', h, hfd⟩
      obtain ⟨rfl, rfl⟩ := Prod.mk.inj (Except.ok.inj h)
      exact hfd

/-- Two parents that are not both mapped are refused. -/
theorem renameIn_refused {old new : Node V M D} (oldName newName : Path)
    (h : ∀ m d m' d', old = .mapped m d → new ≠ .mapped m' d') :
    ∃ e, renameIn u host old new oldName newName = (.error e, none) := by
  unfold renameIn
  split
  · exact ⟨_, rfl⟩
  · cases old with
    | unmapped v => exact ⟨_, rfl⟩
    | mapped m d =>
      cases new with
      | unmapped v => exact ⟨_, rfl⟩
      | mapped m' d' => exact absurd rfl (h m d m' d' rfl)

/-- Two that are mapped are renamed, whatever their mappings. -/
theorem renameIn_mapped (m m' : M) (d d' : D) (oldName newName : Path) :
    renameIn u host (.mapped m d) (.mapped m' d') oldName newName =
      (host.renameat d oldName d' newName, some ⟨d, oldName, d', newName⟩) := by
  unfold renameIn
  rw [if_neg fun h => h rfl]

/-- The parent of a path is in one mapping only. -/
theorem mapping_unique {path : Path} {mem : Bool} {fd fd' : Fd V M D} {m m' : M} {d d' : D}
    (h : parentDir u host s path mem = .ok fd) (h' : parentDir u host s path mem = .ok fd')
    (hm : fd.node = .mapped m d) (hm' : fd'.node = .mapped m' d') : m = m' := by
  obtain rfl := Except.ok.inj (h.symm.trans h')
  injection hm.symm.trans hm'

section Outcomes

variable {oldPath newPath : Path} {mem : Bool × Bool}

theorem confined_of_refused (h : Refused s (rename u host s oldPath newPath mem)) :
    Confined u host s oldPath newPath mem where
  performed hcall := absurd h.noCall hcall
  refused _ := h

/-- What a rename comes to: it is refused, or both parents are mapped and `renameat` is called. -/
theorem rename_cases :
    (Refused s (rename u host s oldPath newPath mem) ∧
      ¬ CrossesMappings u host s oldPath newPath mem) ∨
    ∃ old new m m' d d' n n', parentDir u host s oldPath mem.1 = .ok old ∧
      parentDir u host s newPath mem.2 = .ok new ∧ old.node = .mapped m d ∧
      new.node = .mapped m' d' ∧ u.allocate s.fds = .ok n ∧
      u.allocate (s.fds.set n (some old)) = .ok n' ∧
      (rename u host s oldPath newPath mem).call ≠ none := by
  by_cases hopen : ∃ oldParent oldName newParent newName old new n n',
      splitParent oldPath mem.1 = .ok (oldParent, oldName) ∧
      splitParent newPath mem.2 = .ok (newParent, newName) ∧
      resolve u host s oldParent = .ok old ∧ resolve u host s newParent = .ok new ∧
      u.allocate s.fds = .ok n ∧ u.allocate (s.fds.set n (some old)) = .ok n'
  · obtain ⟨oldParent, oldName, newParent, newName, old, new, n, n', hsplit, hsplit', hold, hnew, hn,
      hn'⟩ := hopen
    have hrename := rename_of_open hsplit hsplit' hold hnew hn hn'
    have hparent : parentDir u host s oldPath mem.1 = .ok old :=
      parentDir_eq_ok_iff.2 ⟨_, _, hsplit, hold⟩
    have hparent' : parentDir u host s newPath mem.2 = .ok new :=
      parentDir_eq_ok_iff.2 ⟨_, _, hsplit', hnew⟩
    by_cases hmapped : ∃ m d m' d', old.node = .mapped m d ∧ new.node = .mapped m' d'
    · obtain ⟨m, d, m', d', hm, hm'⟩ := hmapped
      refine .inr ⟨old, new, m, m', d, d', n, n', hparent, hparent', hm, hm', hn, hn', ?_⟩
      rw [hrename, hm, hm', renameIn_mapped]
      exact nofun
    · -- one of the parents is in no mapping
      obtain ⟨e, he⟩ : ∃ e, renameIn u host old.node new.node oldName newName = (.error e, none) :=
        renameIn_refused _ _ fun m d m' d' hm hm' => hmapped ⟨m, d, m', d', hm, hm'⟩
      refine .inl ⟨?_, ?_⟩
      · rw [hrename, he]
        exact refused_refuse e
      · rintro ⟨old₂, new₂, m, m', d, d', _, _, hold₂, hnew₂, hm, hm', -, -, -⟩
        obtain rfl := Except.ok.inj (hparent.symm.trans hold₂)
        obtain rfl := Except.ok.inj (hparent'.symm.trans hnew₂)
        exact hmapped ⟨m, d, m', d', hm, hm'⟩
  · refine .inl ⟨rename_refused fun _ _ _ _ old new n n' h1 h2 h3 h4 h5 h6 => ?_, ?_⟩
    · exact hopen ⟨_, _, _, _, old, new, n, n', h1, h2, h3, h4, h5, h6⟩
    · rintro ⟨old, new, m, m', d, d', n, n', hold, hnew, -, -, -, hn, hn'⟩
      obtain ⟨_, _, hsplit, hold⟩ := parentDir_eq_ok_iff.1 hold
      obtain ⟨_, _, hsplit', hnew⟩ := parentDir_eq_ok_iff.1 hnew
      exact hopen ⟨_, _, _, _, old, new, n, n', hsplit, hsplit', hold, hnew, hn, hn'⟩

end Outcomes

end

/-- **A rename is confined to one mapping precisely when its parents are not in two different ones**,
for every tree, every open-file table and every pair of paths. -/
theorem rename_confined_iff (u : Upstream V M D) (host : Host D) (s : Session V M D)
    (oldPath newPath : Path) (mem : Bool × Bool) :
    Confined u host s oldPath newPath mem ↔ ¬ CrossesMappings u host s oldPath newPath mem := by
  rcases rename_cases (u := u) (s := s) with ⟨hrefused, hnot⟩ |
    ⟨old, new, m, m', d, d', n, n', hold, hnew, hm, hm', hn, hn', hcall⟩
  · exact iff_of_true (confined_of_refused hrefused) hnot
  by_cases hsame : m = m'
  · subst hsame
    have hone : InOneMapping u host s oldPath newPath mem := ⟨old, new, m, d, d', hold, hnew, hm, hm'⟩
    refine iff_of_true ⟨fun _ => hone, fun h => absurd hone h⟩ ?_
    rintro ⟨old₂, new₂, m₂, m₂', _, _, _, _, hold₂, hnew₂, hm₂, hm₂', hne, -, -⟩
    have hleft := mapping_unique hold hold₂ hm hm₂
    have hright := mapping_unique hnew hnew₂ hm' hm₂'
    exact hne (hleft.symm.trans hright)
  · refine iff_of_false (fun hconf => ?_) fun h => h ?_
    · obtain ⟨old₂, new₂, m₂, _, _, hold₂, hnew₂, hm₂, hm₂'⟩ := hconf.performed hcall
      have hleft := mapping_unique hold hold₂ hm hm₂
      have hright := mapping_unique hnew hnew₂ hm' hm₂'
      exact hsame (hleft.trans hright.symm)
    · exact ⟨old, new, m, m', d, d', n, n', hold, hnew, hm, hm', hsame, hn, hn'⟩

/-! ### Two mappings

A root with two mapped directories, and the daemon's own ways of cutting a path and taking a number. -/

def registry : Path := ['r', 'e', 'g', 'i', 's', 't', 'r', 'y']
def config : Path := ['c', 'o', 'n', 'f', 'i', 'g']
def tempName : Path := ['t', 'e', 'm', 'p', '.', 'j', 's', 'o', 'n']

/-- The segments of a path, `acc` being what has been read of the first one, backwards. -/
def segmentsFrom (acc : Path) : Path → List (Path × Bool)
  | [] => [(acc.reverse, false)]
  | c :: cs => if c = '/' then (acc.reverse, true) :: segmentsFrom [] cs else segmentsFrom (c :: acc) cs

def twoMappings : Upstream Unit Nat Nat where
  ops _ := 0
  openat _ segment _ :=
    if segment = registry then .ok (.mapped 0 10)
    else if segment = config then .ok (.mapped 1 11)
    else .error .enoent
  fromRoot path := path.head? = some '/'
  segments := segmentsFrom []
  skips segment := segment = [] || segment = ['.']
  allocate fds :=
    match fds.findIdx? Option.isNone with
    | some n => .ok n
    | none => .error .emfile
  allocate_free := by
    intro fds n h
    split at h
    · next k hk =>
      obtain rfl := Except.ok.inj h
      obtain ⟨hlt, hnone, -⟩ := List.findIdx?_eq_some_iff_getElem.1 hk
      rw [List.getElem?_eq_getElem hlt, Option.isNone_iff_eq_none.1 hnone]
    · exact nomatch h

/-- A host on which every rename succeeds. -/
def obliging : Host Nat := ⟨fun _ _ _ _ => .error .enoent, fun _ _ _ _ => .ok ()⟩

/-- Only the root is open. -/
def freshSession : Session Unit Nat Nat where
  fds := [some ⟨.unmapped (), []⟩, none, none]
  rootfd := 0
  dirfd := 0
  root := ⟨.unmapped (), []⟩
  dir := ⟨.unmapped (), []⟩
  root_open := rfl
  dir_open := rfl

def registryTemp : Path := '/' :: registry ++ '/' :: tempName
def configTemp : Path := '/' :: config ++ '/' :: tempName

/-- A file moves from the one mapping to the other. -/
theorem crossing_rename_performed :
    (rename twoMappings obliging freshSession registryTemp configTemp (true, true)).result = .ok () ∧
      (rename twoMappings obliging freshSession registryTemp configTemp (true, true)).call =
        some ⟨10, tempName, 11, tempName⟩ ∧
      ¬ Confined twoMappings obliging freshSession registryTemp configTemp (true, true) := by
  have hold : parentDir twoMappings obliging freshSession registryTemp true =
      .ok ⟨.mapped 0 10, [.unmapped ()]⟩ := rfl
  have hnew : parentDir twoMappings obliging freshSession configTemp true =
      .ok ⟨.mapped 1 11, [.unmapped ()]⟩ := rfl
  have hcall : (rename twoMappings obliging freshSession registryTemp configTemp (true, true)).call =
      some ⟨10, tempName, 11, tempName⟩ := rfl
  refine ⟨rfl, hcall, fun hconf => ?_⟩
  obtain ⟨old, new, m, d, d', hold', hnew', hm, hm'⟩ := hconf.performed (by rw [hcall]; exact nofun)
  have hleft : 0 = m := mapping_unique hold hold' rfl hm
  have hright : 1 = m := mapping_unique hnew hnew' rfl hm'
  exact absurd (hleft.trans hright.symm) (by decide)

end Gts9Wifi.Hexagon
