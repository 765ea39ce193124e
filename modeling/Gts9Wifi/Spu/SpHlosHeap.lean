import Gts9Wifi.Lib.Prog
import Gts9Wifi.Lib.Kernel
import Mathlib.Data.Nat.Log

/-!
# The heap shared with the secure processor

`qcom_sp_hlos_heap.c`: `sp_hlos_allocate` with its exits, and `sp_hlos_release`. The world they run
in has the CMA area the pages come from, the firmware's record of who may access each page, the live
DMA-BUFs, and a count of the objects on the kernel heap. The area picks the pages of an allocation,
and every operation that can fail does so when the environment says so.

What a buffer is mapped to, and its attachments, concern neither function and are left out, as are
log lines and the flags of the file descriptor.
-/

namespace Gts9Wifi.Spu

open Driver

/-! ## The world -/

inductive Vmid
  | hlos | cpSpssHlosShared
deriving DecidableEq

/-- A mask of owners, one bit for each VM. -/
structure Owners where
  hlos : Bool
  cpSpssHlosShared : Bool
deriving DecidableEq

/-- The mask of the VMs in a list. -/
def Owners.of (vms : List Vmid) : Owners := ⟨vms.contains .hlos, vms.contains .cpSpssHlosShared⟩

def pageShift : Nat := 12
def pageSize : Nat := 2 ^ pageShift

/-- `page_to_phys`, a page being named by its frame number. -/
def pageToPhys (page : Nat) : Nat := page * pageSize

/-- `struct sp_hlos_buffer`, as far as it says which pages it has. -/
structure Buffer where
  len : Nat
  cmaPages : Nat
  pagecount : Nat
deriving DecidableEq

/-- Page `p` is one of the `count` pages from `base` on. -/
def inRange (base count p : Nat) : Bool := base ≤ p ∧ p < base + count

def Buffer.holds (b : Buffer) (p : Nat) : Bool := inRange b.cmaPages b.pagecount p

/-- Which pages are free in the area, who owns each page, the live DMA-BUFs, and how many objects
are allocated on the kernel heap. -/
structure State where
  free : Nat → Bool
  owner : Nat → Owners
  live : List Buffer
  objects : Int

/-- The operations of the heap. `kalloc` is one object on the kernel heap, zeroed or not, and
`dmaBufPut` drops the last reference to the `k`-th DMA-BUF. -/
inductive Op
  | kalloc
  | kfree
  | cmaAlloc (count align : Nat)
  | cmaRelease (pages count : Nat)
  | pageHighMem (page : Nat)
  | clearHighpage (page : Nat)
  | clearPages (page count : Nat)
  | qcomScmAssignMem (addr size : Nat) (src : Owners) (newvm : List Vmid)
  | dmaBufExport (buffer : Buffer)
  | dmaBufPut (k : Nat)
  | vmapCount
  | vunmap

def Op.Ans : Op → Type
  | .kalloc | .pageHighMem _ => Bool
  | .kfree | .cmaRelease _ _ | .clearHighpage _ | .clearPages _ _ | .vunmap => Unit
  | .cmaAlloc _ _ => Option Nat
  | .qcomScmAssignMem _ _ _ _ => Except Errno Owners
  | .dmaBufExport _ => Except Errno Unit
  | .dmaBufPut _ => Option Buffer
  | .vmapCount => Nat

abbrev iface : Iface := ⟨Op, Op.Ans⟩

/-- What the environment decides about one operation: whether it fails, the page the area would
start an allocation at, and the answer to a question. -/
structure Input where
  fault : Option Errno := none
  page : Nat := 0
  count : Nat := 0

/-- `cma_alloc` hands out pages that are all free, from an aligned one on. -/
def State.cmaAlloc (s : State) (count align page : Nat) : Option State :=
  if page % 2 ^ align = 0 ∧ ∀ j < count, s.free (page + j) = true then
    some { s with free := fun p => s.free p && !inRange page count p }
  else none

def State.cmaRelease (s : State) (pages count : Nat) : State :=
  { s with free := fun p => s.free p || inRange pages count p }

/-- Page `p` lies in the `size` bytes from the physical address `addr` on. -/
def covers (addr size p : Nat) : Bool := addr ≤ pageToPhys p ∧ pageToPhys p < addr + size

def State.assignMem (s : State) (addr size : Nat) (owners : Owners) : State :=
  { s with owner := fun p => if covers addr size p then owners else s.owner p }

def State.addObjects (s : State) (n : Int) : State := { s with objects := s.objects + n }

/-- How the world answers an operation. A failed one has no effect. -/
def handle : (o : Op) → Input → State → o.Ans × State
  | .kalloc, i, s => if i.fault.isSome then (false, s) else (true, s.addObjects 1)
  | .kfree, _, s => ((), s.addObjects (-1))
  | .cmaAlloc count align, i, s =>
    match i.fault, s.cmaAlloc count align i.page with
    | none, some s' => (some i.page, s')
    | _, _ => (none, s)
  | .cmaRelease pages count, _, s => ((), s.cmaRelease pages count)
  | .pageHighMem _, i, s => (i.count != 0, s)
  | .clearHighpage _, _, s | .clearPages _ _, _, s | .vunmap, _, s => ((), s)
  | .qcomScmAssignMem addr size _ newvm, i, s =>
    match i.fault with
    | some e => (.error e, s)
    | none => (.ok (.of newvm), s.assignMem addr size (.of newvm))
  | .dmaBufExport buffer, i, s =>
    match i.fault with
    | some e => (.error e, s)
    | none => (.ok (), { s with live := buffer :: s.live })
  | .dmaBufPut k, _, s => (s.live[k]?, { s with live := s.live.eraseIdx k })
  | .vmapCount, i, s => (i.count, s)

section

variable (i : Input) (s : State)

theorem handle_kalloc :
    handle .kalloc i s = if i.fault.isSome then (false, s) else (true, s.addObjects 1) := rfl

theorem handle_cmaAlloc (count align : Nat) : handle (.cmaAlloc count align) i s =
    match i.fault, s.cmaAlloc count align i.page with
    | none, some s' => (some i.page, s')
    | _, _ => (none, s) := rfl

theorem handle_qcomScmAssignMem (addr size : Nat) (src : Owners) (newvm : List Vmid) :
    handle (.qcomScmAssignMem addr size src newvm) i s =
      match i.fault with
      | some e => (.error e, s)
      | none => (.ok (.of newvm), s.assignMem addr size (.of newvm)) := rfl

theorem handle_dmaBufExport (buffer : Buffer) : handle (.dmaBufExport buffer) i s =
    match i.fault with
    | some e => (.error e, s)
    | none => (.ok (), { s with live := buffer :: s.live }) := rfl

end

/-- The heap as a world. -/
abbrev spHlos : World iface := ⟨State, Input, handle⟩

abbrev Code (α : Type) := Prog iface α

def kzalloc : Code Bool := Prog.perform (I := iface) Op.kalloc
def kmalloc : Code Bool := Prog.perform (I := iface) Op.kalloc
def kfree : Code Unit := Prog.perform (I := iface) Op.kfree
def cmaAlloc (count align : Nat) : Code (Option Nat) :=
  Prog.perform (I := iface) (Op.cmaAlloc count align)
def cmaRelease (pages count : Nat) : Code Unit := Prog.perform (I := iface) (Op.cmaRelease pages count)
def pageHighMem (page : Nat) : Code Bool := Prog.perform (I := iface) (Op.pageHighMem page)
def clearHighpage (page : Nat) : Code Unit := Prog.perform (I := iface) (Op.clearHighpage page)
def clearPages (page count : Nat) : Code Unit := Prog.perform (I := iface) (Op.clearPages page count)
def qcomScmAssignMem (addr size : Nat) (src : Owners) (newvm : List Vmid) :
    Code (Except Errno Owners) :=
  Prog.perform (I := iface) (Op.qcomScmAssignMem addr size src newvm)
def dmaBufExport (buffer : Buffer) : Code (Except Errno Unit) :=
  Prog.perform (I := iface) (Op.dmaBufExport buffer)
def dmaBufPut (k : Nat) : Code (Option Buffer) := Prog.perform (I := iface) (Op.dmaBufPut k)
def vmapCount : Code Nat := Prog.perform (I := iface) Op.vmapCount
def vunmap : Code Unit := Prog.perform (I := iface) Op.vunmap

/-! ## Allocation -/

def maxSize : Nat := 16 * 2 ^ 20
def configCmaAlignment : Nat := 8

/-- `PAGE_ALIGN` on an `unsigned long`. -/
def pageAlign (len : Nat) : Nat := (len + pageSize - 1) % 2 ^ 64 / pageSize * pageSize

/-- `get_order`. -/
def getOrder (size : Nat) : Nat := Nat.clog 2 (size / pageSize)

/-- The pages are zeroed one by one in high memory, and at once elsewhere. -/
def clearAll (cmaPages pagecount : Nat) : Code Unit := do
  if ← pageHighMem cmaPages then
    (List.range pagecount).forM fun page => clearHighpage (cmaPages + page)
  else
    clearPages cmaPages pagecount

/-- The label `free_buffer`. -/
def freeBuffer (ret : Errno) : Code (Except Errno Buffer) := do
  kfree
  return .error ret

/-- The label `free_cma`, which falls through to `free_buffer`. -/
def freeCma (cmaPages pagecount : Nat) (ret : Errno) : Code (Except Errno Buffer) := do
  cmaRelease cmaPages pagecount
  freeBuffer ret

/-- The label `free_pages`, which falls through to `free_cma`. -/
def freePages (cmaPages pagecount : Nat) (ret : Errno) : Code (Except Errno Buffer) := do
  kfree
  freeCma cmaPages pagecount ret

/-- The label `free_pages_only`. -/
def freePagesOnly (ret : Errno) : Code (Except Errno Buffer) := do
  kfree
  kfree
  return .error ret

/-- `dma_buf_export` of the shared pages, and what follows if it fails. -/
def exportBuffer (buffer : Buffer) (owners : Owners) : Code (Except Errno Buffer) := do
  match ← dmaBufExport buffer with
  | .ok () => return .ok buffer
  | .error ret =>
    match ← qcomScmAssignMem (pageToPhys buffer.cmaPages) buffer.len owners [.hlos] with
    | .error _ => freePagesOnly ret
    | .ok _ => freePages buffer.cmaPages buffer.pagecount ret

/-- `sp_hlos_allocate` from the moment it has its pages. -/
def shareAndExport (size pagecount cmaPages : Nat) : Code (Except Errno Buffer) := do
  clearAll cmaPages pagecount
  if ← kmalloc then
    match ← qcomScmAssignMem (pageToPhys cmaPages) size (.of [.hlos]) [.hlos, .cpSpssHlosShared] with
    | .error ret => freePages cmaPages pagecount ret
    | .ok owners => exportBuffer ⟨size, cmaPages, pagecount⟩ owners
  else
    freeCma cmaPages pagecount .enomem

def spHlosAllocate (len heapFlags : Nat) : Code (Except Errno Buffer) := do
  let size := pageAlign len
  let pagecount := size >>> pageShift
  let align := min (getOrder size) configCmaAlignment
  if len = 0 ∨ len > maxSize ∨ heapFlags ≠ 0 then
    return .error .einval
  else if ← kzalloc then
    match ← cmaAlloc pagecount align with
    | none => freeBuffer .enomem
    | some cmaPages => shareAndExport size pagecount cmaPages
  else
    return .error .enomem

/-! ## Release -/

/-- A mapping that nobody dropped goes with the buffer. -/
def dropMapping : Code Unit := do
  if (← vmapCount) ≠ 0 then
    vunmap

/-- Memory that the firmware does not give back stays out of the area for good. -/
def spHlosRelease (buffer : Buffer) : Code Unit := do
  dropMapping
  match ← qcomScmAssignMem (pageToPhys buffer.cmaPages) buffer.len
      (.of [.hlos, .cpSpssHlosShared]) [.hlos] with
  | .error _ => pure ()
  | .ok _ => cmaRelease buffer.cmaPages buffer.pagecount
  kfree
  kfree

/-! ## Whole histories -/

/-- What userspace can make happen: an allocation, or the end of the `k`-th live DMA-BUF. -/
inductive Call
  | allocate (len heapFlags : Nat)
  | release (k : Nat)

def Call.prog : Call → Code Unit
  | .allocate len heapFlags => do
    let _ ← spHlosAllocate len heapFlags
  | .release k => do
    match ← dmaBufPut k with
    | none => pure ()
    | some buffer => spHlosRelease buffer

/-- One call after the other. -/
def history : List Call → Code Unit
  | [] => pure ()
  | c :: cs => do
    c.prog
    history cs

/-- Before the first call: the pages of the pool are free, and everything is HLOS's own. -/
def State.init (pool : Nat → Bool) : State := ⟨pool, fun _ => .of [.hlos], [], 0⟩

end Gts9Wifi.Spu
