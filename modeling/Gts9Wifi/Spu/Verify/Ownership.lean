import Gts9Wifi.Spu.SpHlosHeap
import Mathlib.Data.Bool.Basic

/-!
# Where each page is

A page of the pool is free, or in the hands of the call under way, or part of a live buffer, or
quarantined because the firmware would not give it back. `Custody` says so for one page by counting,
together with who owns the page while it is free or held; each operation moves the page from one
place to another, and every exit of `sp_hlos_allocate` and `sp_hlos_release` lets go of what the call
still held. The results hold for one page and so for all of them.
-/

namespace Gts9Wifi.Spu

open Driver

/-! ## Vocabulary -/

/-- The firmware was asked to make page `p` HLOS's own again, and failed. -/
def ReclaimFailed (p : Nat) (e : Event spHlos) : Bool :=
  match e.op with
  | .qcomScmAssignMem addr size _ [.hlos] => covers addr size p && e.input.fault.isSome
  | _ => false

/-- The operation returns page `p` to the pool. -/
def Releases (p : Nat) : Op → Bool
  | .cmaRelease pages count => inRange pages count p
  | _ => false

/-- In how many live buffers page `p` is. -/
def State.uses (s : State) (p : Nat) : Nat := s.live.countP (·.holds p)

/-- For one page: a free page is HLOS's own, the page is in at most one place, and it is only released
while it is not free. -/
structure Accounted (p : Nat) (quarantined : Bool) (e : Event spHlos) : Prop where
  hlos : e.pre.free p = true → e.pre.owner p = .of [.hlos]
  place : (e.pre.free p).toNat + e.pre.uses p + quarantined.toNat ≤ 1
  once : Releases p e.op = true → e.pre.free p = false

/-- Follows one page, and records whether it has been quarantined. -/
abbrev pageMonitor (p : Nat) : Monitor spHlos :=
  ⟨Bool, fun q e => q || ReclaimFailed p e, fun q e => Accounted p q e⟩

/-- Page `p` of a pool is in exactly one place. `held` says that it is in the hands of the call under
way, which knows its owners, and has allocated `n` objects. -/
structure Custody (pool : Bool) (p : Nat) (held : Bool) (owners : Owners) (n : Int) (q : Bool)
    (s : State) : Prop where
  place : (s.free p).toNat + s.uses p + q.toNat + held.toNat = pool.toNat
  hlos : s.free p = true → s.owner p = .of [.hlos]
  own : held = true → s.owner p = owners
  len : ∀ b ∈ s.live, b.len = b.pagecount * pageSize
  objects : s.objects = 2 * s.live.length + n

/-! ## Ranges -/

/-- The bytes of whole pages cover these pages and no others. -/
theorem covers_pages (base count p : Nat) :
    covers (pageToPhys base) (count * pageSize) p = inRange base count p := by
  have hpos : 0 < pageSize := by decide
  unfold covers inRange pageToPhys
  rw [← Nat.add_mul]
  congr 1
  simp [Nat.mul_le_mul_right_iff hpos, Nat.mul_lt_mul_right hpos]

theorem pageAlign_eq (len : Nat) : pageAlign len = (pageAlign len >>> pageShift) * pageSize := by
  rw [Nat.shiftRight_eq_div_pow]
  show _ = (_ / pageSize * pageSize / pageSize) * pageSize
  rw [Nat.mul_div_cancel _ (by decide)]
  rfl

theorem inRange_iff {base count p : Nat} :
    inRange base count p = true ↔ ∃ j < count, p = base + j := by
  simp only [inRange, decide_eq_true_eq]
  constructor
  · rintro ⟨h1, h2⟩
    exact ⟨p - base, by omega, by omega⟩
  · rintro ⟨j, hj, rfl⟩
    omega

/-- Taking one element out of a list takes its share out of a count. -/
theorem countP_eraseIdx {α : Type} (P : α → Bool) {l : List α} {k : Nat} (hk : k < l.length) :
    l.countP P = (l.eraseIdx k).countP P + (P l[k]).toNat := by
  induction l generalizing k with
  | nil => exact nomatch hk
  | cons a l ih =>
    cases k with
    | zero =>
      simp only [List.countP_cons, List.eraseIdx_zero, List.tail_cons, List.getElem_cons_zero]
      cases P a <;> rfl
    | succ k =>
      simp only [List.countP_cons, List.eraseIdx_cons_succ, List.getElem_cons_succ]
      rw [ih (Nat.lt_of_succ_lt_succ hk)]
      omega

/-! ## What one operation does to a page -/

section Moves

variable {pool : Bool} {p : Nat} {held : Bool} {owners : Owners} {n : Int} {q : Bool} {s : State}

/-- The page is not free while the call has it. -/
theorem Custody.free_of_held (h : Custody pool p held owners n q s) (hh : held = true) :
    s.free p = false := by
  have hplace := h.place
  have hpool := Bool.toNat_le pool
  subst hh
  cases hf : s.free p with
  | false => rfl
  | true =>
    simp only [hf, Bool.toNat_true] at hplace
    omega

theorem Custody.accounted (h : Custody pool p held owners n q s) {o : Op}
    (hrel : Releases p o = true → held = true) (i : Input) : Accounted p q ⟨o, i, s⟩ where
  hlos := h.hlos
  place := by
    have hplace := h.place
    have hpool := Bool.toNat_le pool
    show (s.free p).toNat + s.uses p + q.toNat ≤ 1
    omega
  once := fun hr => h.free_of_held (hrel hr)

theorem Custody.addObjects (h : Custody pool p held owners n q s) (d : Int) :
    Custody pool p held owners (n + d) q (s.addObjects d) :=
  { h with
    objects := by
      have hobj := h.objects
      simp only [State.addObjects]
      omega }

/-- An allocation takes the page out of the pool, or leaves it where it is. -/
theorem Custody.cmaAlloc (h : Custody pool p false owners n q s) {count align page : Nat} {s' : State}
    (hs : s.cmaAlloc count align page = some s') :
    Custody pool p (inRange page count p) (.of [.hlos]) n q s' := by
  unfold State.cmaAlloc at hs
  split at hs
  · next hc =>
    obtain rfl := Option.some.inj hs
    -- a page in the range was free before
    have hfree : inRange page count p = true → s.free p = true := by
      intro hr
      obtain ⟨j, hj, rfl⟩ := inRange_iff.1 hr
      exact hc.2 j hj
    refine ⟨?_, fun hf => h.hlos (by simp_all), fun hr => h.hlos (hfree hr), h.len, h.objects⟩
    have hplace := h.place
    show (s.free p && !inRange page count p).toNat + s.uses p + q.toNat + _ = _
    cases hr : inRange page count p with
    | false => simpa using hplace
    | true =>
      simp only [hfree hr, Bool.toNat_true, Bool.toNat_false] at hplace
      simp
      omega
  · exact nomatch hs

/-- A release puts what the call holds back into the pool, and that has to be HLOS's own. -/
theorem Custody.cmaRelease {pages count : Nat}
    (h : Custody pool p (inRange pages count p) (.of [.hlos]) n q s) :
    Custody pool p false (.of [.hlos]) n q (s.cmaRelease pages count) := by
  refine ⟨?_, ?_, fun hr => (nomatch hr), h.len, h.objects⟩
  · have hplace := h.place
    have hheld := h.free_of_held
    show (s.free p || inRange pages count p).toNat + s.uses p + q.toNat + _ = _
    cases hr : inRange pages count p with
    | false => simpa [hr] using hplace
    | true =>
      simp only [hr, hheld hr, Bool.toNat_true, Bool.toNat_false] at hplace
      simp
      omega
  · intro hf
    show s.owner p = _
    rcases Bool.or_eq_true_iff.1 hf with hf | hr
    · exact h.hlos hf
    · exact h.own hr

/-- An assignment of the held pages changes their owner and no other page's. -/
theorem Custody.assignMem {base count : Nat} {owners' : Owners}
    (h : Custody pool p (inRange base count p) owners n q s) :
    Custody pool p (inRange base count p) owners' n q
      (s.assignMem (pageToPhys base) (count * pageSize) owners') := by
  refine ⟨h.place, ?_, ?_, h.len, h.objects⟩
  · intro hf
    have hr : inRange base count p = false := by
      cases hr : inRange base count p with
      | false => rfl
      | true => exact absurd hf (by simp [State.assignMem, h.free_of_held hr])
    simpa [State.assignMem, covers_pages, hr] using h.hlos hf
  · intro hr
    simp [State.assignMem, covers_pages, hr]

/-- A failed reclaim quarantines what the call holds. -/
theorem Custody.quarantine (h : Custody pool p held owners n q s) :
    Custody pool p false owners n (q || held) s := by
  refine ⟨?_, h.hlos, fun hr => (nomatch hr), h.len, h.objects⟩
  have hplace := h.place
  have hpool := Bool.toNat_le pool
  cases q <;> cases held <;> simp at hplace ⊢ <;> omega

/-- An export hands the pages to a new buffer. -/
theorem Custody.dmaBufExport {b : Buffer} (h : Custody pool p (b.holds p) owners n q s)
    (hlen : b.len = b.pagecount * pageSize) :
    Custody pool p false owners (n - 2) q { s with live := b :: s.live } := by
  refine ⟨?_, h.hlos, fun hr => (nomatch hr), ?_, ?_⟩
  · have hplace := h.place
    simp only [State.uses, List.countP_cons] at hplace ⊢
    cases hb : b.holds p <;> simp [hb] at hplace ⊢ <;> omega
  · intro b' hb'
    rcases List.mem_cons.1 hb' with rfl | hb'
    · exact hlen
    · exact h.len b' hb'
  · have hobj := h.objects
    simp only [List.length_cons]
    omega

/-- The last reference to a buffer hands its pages to the call. -/
theorem Custody.dmaBufPut (h : Custody pool p false owners n q s) {k : Nat} {b : Buffer}
    (hk : s.live[k]? = some b) :
    ∃ o, Custody pool p (b.holds p) o (n + 2) q { s with live := s.live.eraseIdx k } := by
  obtain ⟨hlt, rfl⟩ := List.getElem?_eq_some_iff.1 hk
  have hsplit := countP_eraseIdx (·.holds p) hlt
  refine ⟨s.owner p, ?_, h.hlos, fun _ => rfl, ?_, ?_⟩
  · have hplace := h.place
    simp only [State.uses, hsplit, Bool.toNat_false] at hplace ⊢
    omega
  · exact fun b hb => h.len b (List.mem_of_mem_eraseIdx hb)
  · have hobj := h.objects
    have hlen := List.length_eraseIdx_of_lt hlt
    simp only [hlen]
    omega

end Moves

/-! ## Rules -/

section Rules

variable {A : Event spHlos → Prop} {pool : Bool} {p : Nat} {held : Bool} {owners : Owners} {n : Int}
  {q : Bool} {s : State}

/-- An operation that releases nothing but what the call holds is accepted. -/
theorem wp_op {o : Op} (h : Custody pool p held owners n q s)
    (hrel : Releases p o = true → held = true) {Q : o.Ans → Bool → State → Prop}
    (hQ : ∀ i, Q (handle o i s).1 (q || ReclaimFailed p ⟨o, i, s⟩) (handle o i s).2) :
    wp A (pageMonitor p) (Prog.perform (I := iface) o) Q q s :=
  fun i _ => ⟨h.accounted hrel i, hQ i⟩

/-- An operation that releases nothing, and does not ask for pages to be given back. -/
theorem wp_keeps {o : Op} (h : Custody pool p held owners n q s) (hrel : Releases p o = false)
    (hre : ∀ i, ReclaimFailed p ⟨o, i, s⟩ = false) {Q : o.Ans → Bool → State → Prop}
    (hQ : ∀ i, Q (handle o i s).1 q (handle o i s).2) :
    wp A (pageMonitor p) (Prog.perform (I := iface) o) Q q s := by
  refine wp_op h (fun hr => absurd (hrel.symm.trans hr) Bool.false_ne_true) fun i => ?_
  rw [hre i, Bool.or_false]
  exact hQ i

/-- The operations that ask, or touch the contents of pages only. -/
def Quiet : Op → Prop
  | .pageHighMem _ | .clearHighpage _ | .clearPages _ _ | .vmapCount | .vunmap => True
  | _ => False

theorem wp_quiet {α : Type} {c : Code α} (hc : Issues Quiet c) (h : Custody pool p held owners n q s) :
    wp A (pageMonitor p) c (fun _ q s => Custody pool p held owners n q s) q s := by
  refine hc.wp (W := spHlos) (M := pageMonitor p) (J := fun q s => Custody pool p held owners n q s)
    ?_ h
  intro o ho i q s _ h
  cases o with
  | pageHighMem _ | clearHighpage _ | clearPages _ _ | vmapCount | vunmap =>
    refine ⟨h.accounted ?_ i, ?_⟩
    · exact fun hr => absurd hr Bool.false_ne_true
    · show Custody pool p held owners n (q || false) s
      rw [Bool.or_false]
      exact h
  | _ => exact ho.elim

/-- `kzalloc` and `kmalloc` alike. -/
theorem wp_kalloc (h : Custody pool p held owners n q s) {Q : Bool → Bool → State → Prop}
    (hnull : Custody pool p held owners n q s → Q false q s)
    (hok : ∀ s, Custody pool p held owners (n + 1) q s → Q true q s) :
    wp A (pageMonitor p) (Prog.perform (I := iface) .kalloc) Q q s := by
  refine wp_keeps h rfl (fun _ => rfl) fun i => ?_
  rw [handle_kalloc]
  split
  · exact hnull h
  · exact hok _ (h.addObjects 1)

theorem wp_kfree (h : Custody pool p held owners n q s) :
    wp A (pageMonitor p) kfree (fun _ q s => Custody pool p held owners (n - 1) q s) q s := by
  refine wp_keeps h rfl (fun _ => rfl) fun i => ?_
  rw [Int.sub_eq_add_neg]
  exact h.addObjects (-1)

theorem wp_cmaAlloc (h : Custody pool p false owners n q s) {count align : Nat}
    {Q : Option Nat → Bool → State → Prop} (hnull : Q none q s)
    (hok : ∀ page s, Custody pool p (inRange page count p) (.of [.hlos]) n q s → Q (some page) q s) :
    wp A (pageMonitor p) (cmaAlloc count align) Q q s := by
  refine wp_keeps h rfl (fun _ => rfl) fun i => ?_
  rw [handle_cmaAlloc]
  split
  · next hs => exact hok _ _ (h.cmaAlloc hs)
  · exact hnull

theorem wp_cmaRelease {pages count : Nat}
    (h : Custody pool p (inRange pages count p) (.of [.hlos]) n q s) :
    wp A (pageMonitor p) (cmaRelease pages count)
      (fun _ q s => Custody pool p false (.of [.hlos]) n q s) q s := by
  refine wp_op h ?_ fun i => ?_
  · exact fun hr => hr
  · show Custody pool p false (.of [.hlos]) n (q || false) (s.cmaRelease pages count)
    rw [Bool.or_false]
    exact h.cmaRelease

/-- Sharing the held pages. If it fails they are still HLOS's own. -/
theorem wp_share {base count : Nat} {src : Owners}
    (h : Custody pool p (inRange base count p) owners n q s)
    {Q : Except Errno Owners → Bool → State → Prop} (herr : ∀ e, Q (.error e) q s)
    (hok : ∀ o s, Custody pool p (inRange base count p) o n q s → Q (.ok o) q s) :
    wp A (pageMonitor p) (qcomScmAssignMem (pageToPhys base) (count * pageSize) src
      [.hlos, .cpSpssHlosShared]) Q q s := by
  refine wp_keeps h rfl (fun _ => rfl) fun i => ?_
  rw [handle_qcomScmAssignMem]
  split
  · exact herr _
  · exact hok _ _ h.assignMem

/-- Reclaiming the held pages. They are HLOS's own again, or quarantined. -/
theorem wp_reclaim {base count : Nat} {src : Owners}
    (h : Custody pool p (inRange base count p) owners n q s)
    {Q : Except Errno Owners → Bool → State → Prop}
    (herr : ∀ e q, Custody pool p false owners n q s → Q (.error e) q s)
    (hok : ∀ o s, Custody pool p (inRange base count p) (.of [.hlos]) n q s → Q (.ok o) q s) :
    wp A (pageMonitor p) (qcomScmAssignMem (pageToPhys base) (count * pageSize) src [.hlos]) Q q s := by
  refine wp_op h ?_ fun i => ?_
  · exact fun hr => absurd hr Bool.false_ne_true
  rw [handle_qcomScmAssignMem]
  simp only [ReclaimFailed, covers_pages]
  cases i.fault with
  | some e =>
    simp only [Option.isSome_some, Bool.and_true]
    exact herr e _ h.quarantine
  | none =>
    simp only [Option.isSome_none, Bool.and_false, Bool.or_false]
    exact hok _ _ h.assignMem

theorem wp_dmaBufExport {b : Buffer} (h : Custody pool p (b.holds p) owners n q s)
    (hlen : b.len = b.pagecount * pageSize) {Q : Except Errno Unit → Bool → State → Prop}
    (herr : ∀ e, Q (.error e) q s)
    (hok : ∀ s, Custody pool p false owners (n - 2) q s → Q (.ok ()) q s) :
    wp A (pageMonitor p) (dmaBufExport b) Q q s := by
  refine wp_keeps h rfl (fun _ => rfl) fun i => ?_
  rw [handle_dmaBufExport]
  split
  · exact herr _
  · exact hok _ (h.dmaBufExport hlen)

theorem wp_dmaBufPut {k : Nat} (h : Custody pool p false owners n q s)
    {Q : Option Buffer → Bool → State → Prop}
    (hnone : ∀ s, Custody pool p false owners n q s → Q none q s)
    (hsome : ∀ b o s, b.len = b.pagecount * pageSize → Custody pool p (b.holds p) o (n + 2) q s →
      Q (some b) q s) :
    wp A (pageMonitor p) (dmaBufPut k) Q q s := by
  refine wp_keeps h rfl (fun _ => rfl) fun i => ?_
  show Q s.live[k]? q { s with live := s.live.eraseIdx k }
  cases hk : s.live[k]? with
  | none =>
    have hge := List.getElem?_eq_none_iff.1 hk
    rw [List.eraseIdx_of_length_le hge]
    exact hnone s h
  | some b =>
    obtain ⟨o, hb⟩ := h.dmaBufPut hk
    exact hsome b o _ (h.len b (List.mem_of_getElem? hk)) hb

end Rules

/-! ## The functions -/

section Functions

variable {A : Event spHlos → Prop} {pool : Bool} {p : Nat} {owners : Owners} {n : Int} {q : Bool}
  {s : State}

/-- The call under way has let go of everything. -/
abbrev Settled (pool : Bool) (p : Nat) (q : Bool) (s : State) : Prop :=
  Custody pool p false (.of [.hlos]) 0 q s

/-- Who owns a page that the call does not hold is none of its business. -/
theorem Custody.settled (h : Custody pool p false owners 0 q s) : Settled pool p q s :=
  { h with own := fun hr => nomatch hr }

theorem clearAll_quiet (cmaPages pagecount : Nat) : Issues Quiet (clearAll cmaPages pagecount) := by
  refine Issues.bind ⟨trivial, fun _ => trivial⟩ fun high => ?_
  split
  · have hloop : ∀ l : List Nat, Issues Quiet (l.forM fun page => clearHighpage (cmaPages + page)) := by
      intro l
      induction l with
      | nil => trivial
      | cons page l ih => exact Issues.bind ⟨trivial, fun _ => trivial⟩ fun _ => ih
    exact hloop _
  · exact ⟨trivial, fun _ => trivial⟩

theorem dropMapping_quiet : Issues Quiet dropMapping := by
  refine Issues.bind ⟨trivial, fun _ => trivial⟩ fun count => ?_
  split
  · exact ⟨trivial, fun _ => trivial⟩
  · trivial

theorem freeBuffer_spec {ret : Errno} (h : Custody pool p false owners 1 q s) :
    wp A (pageMonitor p) (freeBuffer ret) (fun _ q s => Settled pool p q s) q s := by
  refine wp_seq (wp_kfree h) fun _ q s h => ?_
  exact h.settled

theorem freeCma_spec {pages count : Nat} {ret : Errno}
    (h : Custody pool p (inRange pages count p) (.of [.hlos]) 1 q s) :
    wp A (pageMonitor p) (freeCma pages count ret) (fun _ q s => Settled pool p q s) q s :=
  wp_seq (wp_cmaRelease h) fun _ _ _ h => freeBuffer_spec h

theorem freePages_spec {pages count : Nat} {ret : Errno}
    (h : Custody pool p (inRange pages count p) (.of [.hlos]) 2 q s) :
    wp A (pageMonitor p) (freePages pages count ret) (fun _ q s => Settled pool p q s) q s :=
  wp_seq (wp_kfree h) fun _ _ _ h => freeCma_spec h

/-- Two objects go, and the pages, if any, do not come back. -/
theorem freePagesOnly_spec {ret : Errno} (h : Custody pool p false owners 2 q s) :
    wp A (pageMonitor p) (freePagesOnly ret) (fun _ q s => Settled pool p q s) q s := by
  refine wp_seq (wp_kfree h) fun _ q s h => ?_
  refine wp_seq (wp_kfree h) fun _ q s h => ?_
  exact h.settled

/-- An export that fails gives the pages back if the firmware does. -/
theorem exportBuffer_spec {b : Buffer} {src : Owners} (h : Custody pool p (b.holds p) owners 2 q s)
    (hlen : b.len = b.pagecount * pageSize) :
    wp A (pageMonitor p) (exportBuffer b src) (fun _ q s => Settled pool p q s) q s := by
  unfold exportBuffer
  rw [wp_bind]
  apply wp_dmaBufExport h hlen
  · intro ret
    simp only [hlen, wp_bind]
    apply wp_reclaim h
    · intro _ q h
      exact freePagesOnly_spec h
    · intro _ s h
      exact freePages_spec h
  · intro s h
    exact h.settled

/-- Every exit from the moment there are pages lets go of them in the way they can be let go of. -/
theorem shareAndExport_spec {count page : Nat}
    (h : Custody pool p (inRange page count p) (.of [.hlos]) 1 q s) :
    wp A (pageMonitor p) (shareAndExport (count * pageSize) count page)
      (fun _ q s => Settled pool p q s) q s := by
  refine wp_seq (wp_quiet (clearAll_quiet page count) h) fun _ q s h => ?_
  rw [wp_bind]
  apply wp_kalloc h
  · intro h
    exact freeCma_spec h
  · intro s h
    simp only [if_true, wp_bind]
    apply wp_share h
    · intro ret
      exact freePages_spec h
    · intro o s h
      exact exportBuffer_spec (b := ⟨count * pageSize, page, count⟩) h rfl

theorem spHlosAllocate_spec {len heapFlags : Nat} (h : Settled pool p q s) :
    wp A (pageMonitor p) (spHlosAllocate len heapFlags) (fun _ q s => Settled pool p q s) q s := by
  unfold spHlosAllocate
  refine wp_ite (fun _ => h) fun _ => ?_
  rw [wp_bind]
  apply wp_kalloc h
  · intro h
    exact h
  · intro s h
    simp only [if_true, wp_bind]
    apply wp_cmaAlloc h
    · exact freeBuffer_spec h
    · intro page s h
      have hshare := shareAndExport_spec (A := A) h
      rwa [← pageAlign_eq] at hshare

theorem spHlosRelease_spec {b : Buffer} (h : Custody pool p (b.holds p) owners 2 q s)
    (hlen : b.len = b.pagecount * pageSize) :
    wp A (pageMonitor p) (spHlosRelease b) (fun _ q s => Settled pool p q s) q s := by
  -- both branches end by freeing the two objects
  have hfree : ∀ {o q s}, Custody pool p false o 2 q s →
      wp A (pageMonitor p) (kfree >>= fun _ => kfree) (fun _ q s => Settled pool p q s) q s := by
    intro o q s h
    refine wp_seq (wp_kfree h) fun _ q s h => ?_
    refine wp_mono (wp_kfree h) fun _ q s h => ?_
    exact h.settled
  refine wp_seq (wp_quiet dropMapping_quiet h) fun _ q s h => ?_
  simp only [hlen]
  rw [wp_bind]
  apply wp_reclaim h
  · intro _ q h
    exact hfree h
  · intro _ s h
    exact wp_seq (wp_cmaRelease h) fun _ q s h => hfree h

/-- A call moves the page, and ends with nothing in its hands. -/
theorem call_spec (c : Call) (h : Settled pool p q s) :
    wp A (pageMonitor p) c.prog (fun _ q s => Settled pool p q s) q s := by
  cases c with
  | allocate len heapFlags => exact wp_void (spHlosAllocate_spec h)
  | release k =>
    simp only [Call.prog, wp_bind]
    apply wp_dmaBufPut h
    · intro s h
      exact h
    · intro b o s hlen h
      exact spHlosRelease_spec h hlen

theorem history_spec (cs : List Call) (h : Settled pool p q s) :
    wp A (pageMonitor p) (history cs) (fun _ q s => Settled pool p q s) q s := by
  induction cs generalizing q s with
  | nil => exact h
  | cons c cs ih => exact wp_seq (call_spec c h) fun _ _ _ h => ih h

end Functions

/-! ## Whole histories -/

/-- A page of the pool that is neither free nor part of a live buffer. -/
def Quarantined (pool : Nat → Bool) (s : State) (p : Nat) : Prop :=
  pool p = true ∧ s.free p = false ∧ s.uses p = 0

/-- Every free page is HLOS's own, every page of the pool is free, or part of exactly one live buffer,
or quarantined, and the quarantined pages are those that were not given back. -/
structure Sound (pool : Nat → Bool) (tr : List (Event spHlos)) (s : State) : Prop where
  hlos : ∀ p, s.free p = true → s.owner p = .of [.hlos]
  inside : ∀ p, s.free p = true ∨ s.uses p ≠ 0 → pool p = true
  place : ∀ p, pool p = true → s.free p = true ∧ s.uses p = 0 ∨ s.free p = false ∧ s.uses p = 1 ∨
    Quarantined pool s p
  reclaimFailed : ∀ p, Quarantined pool s p → ∃ e ∈ tr, ReclaimFailed p e = true
  kept : ∀ p, (∃ e ∈ tr, ReclaimFailed p e = true) → Quarantined pool s p

theorem after_pageMonitor (p : Nat) (q : Bool) (tr : List (Event spHlos)) :
    (pageMonitor p).after q tr = (q || tr.any (ReclaimFailed p)) := by
  induction tr generalizing q with
  | nil => simp [Monitor.after]
  | cons e tr ih =>
    have hstep := ih (q || ReclaimFailed p e)
    simpa [Monitor.after, Bool.or_assoc] using hstep

theorem settled_init (pool : Nat → Bool) (p : Nat) :
    Settled (pool p) p false (State.init pool) where
  place := by simp [State.init, State.uses]
  hlos := fun _ => rfl
  own := fun hr => nomatch hr
  len := fun b hb => nomatch hb
  objects := by simp [State.init]

section Run

variable (pool : Nat → Bool) (cs : List Call) (ι : Nat → Input)

/-- The state a history ends in, and the operations it issues. -/
abbrev finalState : State := ((history cs).run spHlos ι (.init pool)).2
abbrev events : List (Event spHlos) := (history cs).trace spHlos ι (.init pool)

theorem history_sound (p : Nat) :
    (pageMonitor p).Safe false (events pool cs ι) ∧
      Settled (pool p) p ((events pool cs ι).any (ReclaimFailed p)) (finalState pool cs ι) := by
  have hspec := history_spec (A := fun _ => True) cs (settled_init pool p)
  have hrun := wp_sound hspec ι fun _ _ => trivial
  rwa [after_pageMonitor, Bool.false_or] at hrun

/-- No call leaks an object of the kernel heap: there are two for each live buffer. -/
theorem objects_eq : (finalState pool cs ι).objects = 2 * (finalState pool cs ι).live.length := by
  simpa using (history_sound pool cs ι 0).2.objects

end Run

theorem sound_of_settled {pool : Nat → Bool} {tr : List (Event spHlos)} {s : State}
    (h : ∀ p, Settled (pool p) p (tr.any (ReclaimFailed p)) s) : Sound pool tr s := by
  have hfailed : ∀ p, tr.any (ReclaimFailed p) = true ↔ ∃ e ∈ tr, ReclaimFailed p e = true :=
    fun p => List.any_eq_true
  refine ⟨fun p => (h p).hlos, ?_, ?_, ?_, ?_⟩
  · intro p hp
    have hplace := (h p).place
    cases hpool : pool p with
    | true => rfl
    | false =>
      rcases hp with hf | hu
      · simp [hpool, hf] at hplace
      · simp [hpool, hu] at hplace
  · intro p hpool
    have hplace := (h p).place
    simp only [hpool, Bool.toNat_true, Bool.toNat_false] at hplace
    cases hf : s.free p with
    | true =>
      simp only [hf, Bool.toNat_true] at hplace
      exact .inl ⟨rfl, by omega⟩
    | false =>
      simp only [hf, Bool.toNat_false] at hplace
      by_cases hu : s.uses p = 0
      · exact .inr (.inr ⟨hpool, hf, hu⟩)
      · exact .inr (.inl ⟨rfl, by omega⟩)
  · rintro p ⟨hpool, hf, hu⟩
    have hplace := (h p).place
    rw [← hfailed]
    cases hq : tr.any (ReclaimFailed p) with
    | true => rfl
    | false => simp [hpool, hf, hu, hq] at hplace
  · intro p hq
    rw [← hfailed] at hq
    have hplace := (h p).place
    have hpool := Bool.toNat_le (pool p)
    simp only [hq, Bool.toNat_true, Bool.toNat_false] at hplace
    have hp : (pool p).toNat = 1 := by omega
    have hf : (s.free p).toNat = 0 := by omega
    exact ⟨Bool.toNat_eq_one.1 hp, Bool.toNat_eq_zero.1 hf, by omega⟩

/-- **Pages.** For every pool, every sequence of calls and every outcome of what they call, the pages
are accounted for at the end, and at each operation on the way no page is in two places, no free page
is anyone's but HLOS's, and none is released that is free already. -/
theorem pages_accounted (pool : Nat → Bool) (cs : List Call) (ι : Nat → Input) :
    Sound pool (events pool cs ι) (finalState pool cs ι) ∧
      ∀ pre e post, events pool cs ι = pre ++ e :: post →
        ∀ p, Accounted p (pre.any (ReclaimFailed p)) e := by
  refine ⟨sound_of_settled fun p => (history_sound pool cs ι p).2, ?_⟩
  intro pre e post htr p
  have hsafe := (history_sound pool cs ι p).1
  rw [htr] at hsafe
  have hok := (Monitor.safe_append.1 hsafe).2.1
  rwa [after_pageMonitor, Bool.false_or] at hok

end Gts9Wifi.Spu
