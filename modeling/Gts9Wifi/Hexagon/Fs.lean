import Gts9Wifi.Lib.Kernel

/-!
# Renaming in HexagonFS

`split_parent`, `hexagonfs_rename` and `mapped_rename` as the sensor registry patch adds them to
`hexagonrpcd`, with the walk along a path that the patch changes. The DSP sees one tree: virtual
directories, in which some nodes are mapped to directories of the host. Below such a node every open
descriptor stays in the mapping, until `..` leads out of it again, up to the root of the tree at most.

The rest of the daemon is not part of this repository. What the walk needs of it is gathered in
`Upstream`, and what the kernel answers in `Host`; both are parameters.
-/

namespace Gts9Wifi.Hexagon

open Driver

/-! ## Descriptors -/

abbrev Path := List Char

/-- `O_RDONLY`. -/
def rdonly : Nat := 0

/-- What the kernel answers: `openat` on a directory with a name, whether it must be a directory, and
flags; and `renameat`. -/
structure Host (D : Type) where
  openat : D → Path → Bool → Nat → Except Errno D
  renameat : D → Path → D → Path → Except Errno Unit

/-- What a descriptor stands for: a node `v` of the tree that is not mapped, or an open file `d` of the
host in the mapping `m`. -/
inductive Node (V M D : Type)
  | unmapped (v : V)
  | mapped (m : M) (d : D)

/-- The operation tables: `hexagonfs_mapped_ops`, and the others. -/
inductive Ops
  | mapped
  | other (k : Nat)
deriving DecidableEq

/-- `struct hexagonfs_fd`, with the nodes that its `up` pointers lead to, the root being the last. -/
structure Fd (V M D : Type) where
  node : Node V M D
  up : List (Node V M D)

/-- The open-file table. -/
abbrev Table (V M D : Type) := List (Option (Fd V M D))

/-- What the walk uses of the daemon: the table of operations of a node that is not mapped, its
`openat`, where a path starts, its segments, each with whether a slash follows, which of them are passed
over, and a free number of the open-file table. -/
structure Upstream (V M D : Type) where
  ops : V → Nat
  openat : V → Path → Bool → Except Errno (Node V M D)
  fromRoot : Path → Bool
  segments : Path → List (Path × Bool)
  skips : Path → Bool
  allocate : Table V M D → Except Errno Nat
  allocate_free : ∀ {fds n}, allocate fds = .ok n → fds[n]? = some none

variable {V M D : Type}

def Node.ops (u : Upstream V M D) : Node V M D → Ops
  | .unmapped v => .other (u.ops v)
  | .mapped _ _ => .mapped

/-- `pop_dir`. -/
def popDir (fd : Fd V M D) : Fd V M D :=
  match fd.up with
  | [] => fd
  | node :: up => ⟨node, up⟩

/-! ## Walking a path -/

section Walk

variable (u : Upstream V M D) (host : Host D)

/-- `fd->ops->openat`. In a mapping it is the host that opens the file, and the mapping stays. -/
def openSegment (fd : Fd V M D) (segment : Path) (expectDir : Bool) (flags : Nat) :
    Except Errno (Fd V M D) :=
  match fd.node with
  | .unmapped v => do return ⟨← u.openat v segment expectDir, fd.node :: fd.up⟩
  | .mapped m d => do return ⟨.mapped m (← host.openat d segment expectDir flags), fd.node :: fd.up⟩

/-- `fd->ops->openat_flags`, which only a mapped file has. -/
def openSegmentFlags (fd : Fd V M D) (segment : Path) (flags : Nat) : Except Errno (Fd V M D) :=
  match fd.node with
  | .unmapped _ => throw .erofs
  | .mapped _ _ => openSegment u host fd segment false flags

/-- The loop of `hexagonfs_openat_flags`. -/
def walk (flags : Nat) : Fd V M D → List (Path × Bool) → Except Errno (Fd V M D)
  | fd, [] => return fd
  | fd, (segment, expectDir) :: rest => do
    if u.skips segment then
      walk flags fd rest
    else if segment = ['.', '.'] then
      walk flags (popDir fd) rest
    else if !expectDir && rest.isEmpty && flags != rdonly then
      walk flags (← openSegmentFlags u host fd segment flags) rest
    else
      walk flags (← openSegment u host fd segment expectDir rdonly) rest

/-- `fds[n]`; a number that is not open is not asked for. -/
def Table.get (fds : Table V M D) (n : Nat) : Except Errno (Fd V M D) :=
  match fds[n]? with
  | some (some fd) => return fd
  | _ => throw .ebadf

def hexagonfsOpenatFlags (fds : Table V M D) (rootfd dirfd : Nat) (name : Path) (flags : Nat) :
    Except Errno (Nat × Table V M D) := do
  let start ← fds.get (if u.fromRoot name then rootfd else dirfd)
  let fd ← walk u host flags start (u.segments name)
  let n ← u.allocate fds
  return (n, fds.set n (some fd))

def hexagonfsOpenat (fds : Table V M D) (rootfd dirfd : Nat) (name : Path) :
    Except Errno (Nat × Table V M D) :=
  hexagonfsOpenatFlags u host fds rootfd dirfd name rdonly

/-- `hexagonfs_close`. -/
def hexagonfsClose (fds : Table V M D) (n : Nat) : Table V M D := fds.set n none

end Walk

/-! ## Renaming -/

/-- The parent of a path, and the name in it; `mem` says whether there is memory for the former. -/
def splitParent (path : Path) (mem : Bool) : Except Errno (Path × Path) :=
  match path.reverse.span (· ≠ '/') with
  | (_, []) => throw .einval
  | (base, _ :: dir) =>
    if base = [] then throw .einval
    else if dir = [] then throw .eacces
    else if mem then return (dir.reverse, base.reverse)
    else throw .enomem

/-- A call of `renameat`. -/
structure Renameat (D : Type) where
  oldDir : D
  oldName : Path
  newDir : D
  newName : Path
deriving DecidableEq

/-- How a rename ends: what is returned, which call of `renameat` was made, if any, and the open-file
table. -/
structure Outcome (V M D : Type) where
  result : Except Errno Unit
  call : Option (Renameat D)
  fds : Table V M D

section Rename

variable (u : Upstream V M D) (host : Host D)

/-- What `hexagonfs_rename` does with the two parents: it compares their tables of operations, and
calls `mapped_rename` if that is what the table has. -/
def renameIn (oldDir newDir : Node V M D) (oldName newName : Path) :
    Except Errno Unit × Option (Renameat D) :=
  if oldDir.ops u ≠ newDir.ops u then (.error .exdev, none)
  else
    match oldDir, newDir with
    | .mapped _ old, .mapped _ new =>
      (host.renameat old oldName new newName, some ⟨old, oldName, new, newName⟩)
    | _, _ => (.error .erofs, none)

def hexagonfsRename (fds : Table V M D) (rootfd dirfd : Nat) (oldPath newPath : Path)
    (mem : Bool × Bool) : Outcome V M D :=
  match splitParent oldPath mem.1 with
  | .error e => ⟨.error e, none, fds⟩
  | .ok (oldParent, oldName) =>
    match splitParent newPath mem.2 with
    | .error e => ⟨.error e, none, fds⟩
    | .ok (newParent, newName) =>
      match hexagonfsOpenat u host fds rootfd dirfd oldParent with
      | .error e => ⟨.error e, none, fds⟩
      | .ok (oldno, fds₁) =>
        match hexagonfsOpenat u host fds₁ rootfd dirfd newParent with
        | .error e => ⟨.error e, none, hexagonfsClose fds₁ oldno⟩
        | .ok (newno, fds₂) =>
          let closed := hexagonfsClose (hexagonfsClose fds₂ newno) oldno
          match fds₂.get oldno, fds₂.get newno with
          | .ok oldDir, .ok newDir =>
            let r := renameIn u host oldDir.node newDir.node oldName newName
            ⟨r.1, r.2, closed⟩
          | _, _ => ⟨.error .ebadf, none, closed⟩

end Rename

end Gts9Wifi.Hexagon
