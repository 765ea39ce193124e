import Gts9Wifi.Lib.Prog
import Mathlib.Logic.Function.Iterate

/-!
# Threads of atomic sections

A `Thread` is a program cut into sections that the scheduler does not interrupt: a critical section
is one section, and code outside every lock is one section per operation (`Thread.interruptible`).
A section may wait for a guard (taking a mutex). `Thread.seq` forgets the cuts: it is the thread run
alone, so one text of a driver has both readings.

`Pool` is the interleaving semantics: threads of a given set are started at any time, and at every
step some thread runs its next section on the shared state, under inputs the environment chooses.
`Pool.Reachable.inv` is the invariant rule: if every section, started from any state the invariant
admits, keeps the invariant and is accepted by the thread's monitor, then the invariant holds in
every reachable state and the monitor accepts every thread's log.
-/

namespace Driver

/-- A program cut into atomic sections, each of which may wait for a guard on the state. -/
inductive Thread {I : Iface} (W : World I) (α : Type) : Type 1
  | ret (a : α)
  | sect {β : Type} (guard : W.State → Bool) (p : Prog I β) (k : β → Thread W α)

namespace Thread

variable {I : Iface} {W : World I} {α β : Type}

/-- Sequencing. -/
protected def bind : Thread W α → (α → Thread W β) → Thread W β
  | .ret a, f => f a
  | .sect g p k, f => .sect g p fun b => (k b).bind f

instance : Monad (Thread W) where
  pure := .ret
  bind := Thread.bind

/-- One section that never waits. -/
def atomic (p : Prog I α) : Thread W α := .sect (fun _ => true) p .ret

/-- One section that waits for `g`. -/
def await (g : W.State → Bool) (p : Prog I α) : Thread W α := .sect g p .ret

/-- A program outside every lock: each operation is a section of its own. -/
def interruptible : Prog I α → Thread W α
  | .ret a => .ret a
  | .call o k => .sect (fun _ => true) (Prog.perform o) fun x => interruptible (k x)

/-- The thread run alone. -/
def seq : Thread W α → Prog I α
  | .ret a => .ret a
  | .sect _ p k => p >>= fun b => (k b).seq

@[simp] theorem seq_bind (t : Thread W α) (f : α → Thread W β) :
    (t >>= f).seq = t.seq >>= fun a => (f a).seq := by
  induction t with
  | ret a => rfl
  | sect g p k ih =>
    show p >>= (fun b => (k b >>= f).seq) = (p >>= fun b => (k b).seq) >>= fun a => (f a).seq
    rw [bind_assoc]
    exact congrArg (p >>= ·) (funext ih)

@[simp] theorem seq_ite {c : Prop} [Decidable c] (t e : Thread W α) :
    (if c then t else e).seq = if c then t.seq else e.seq := by
  split <;> rfl

@[simp] theorem seq_atomic (p : Prog I α) : (atomic p : Thread W α).seq = p :=
  bind_pure p

@[simp] theorem seq_await (g : W.State → Bool) (p : Prog I α) : (await g p).seq = p :=
  bind_pure p

@[simp] theorem seq_interruptible (p : Prog I α) : (interruptible p : Thread W α).seq = p := by
  induction p with
  | ret a => rfl
  | call o k ih => exact congrArg (Prog.call o) (funext ih)

/-- Every section of the thread, started in a state the invariant admits, keeps the invariant and is
accepted by the monitor, and the thread ends with `Q`. Between two sections other threads may take
the state to any other state of the invariant, so `Q` is about the value and the monitor only. -/
def wp (A : Event W → Prop) (M : Monitor W) (J : W.State → Prop) :
    Thread W α → (α → M.St → Prop) → M.St → Prop
  | .ret a, Q, m => Q a m
  | .sect g p k, Q, m => ∀ s, J s → g s = true →
      Driver.wp A M p (fun b m s => J s ∧ (k b).wp A M J Q m) m s

variable {A : Event W → Prop} {M : Monitor W} {J : W.State → Prop}

theorem wp_mono {t : Thread W α} {Q R : α → M.St → Prop} {m : M.St} (h : t.wp A M J Q m)
    (hQR : ∀ a m, Q a m → R a m) : t.wp A M J R m := by
  induction t generalizing m with
  | ret a => exact hQR _ _ h
  | sect g p k ih =>
    intro s hs hg
    exact Driver.wp_mono (h s hs hg) fun b m s hb => ⟨hb.1, ih b hb.2⟩

@[simp] theorem wp_bind (t : Thread W α) (f : α → Thread W β) (Q : β → M.St → Prop) (m : M.St) :
    (t >>= f).wp A M J Q m ↔ t.wp A M J (fun a m => (f a).wp A M J Q m) m := by
  induction t generalizing m with
  | ret a => exact Iff.rfl
  | sect g p k ih =>
    refine forall_congr' fun s => imp_congr_right fun _ => imp_congr_right fun _ => ?_
    constructor <;> intro h <;> refine Driver.wp_mono h fun b m s hb => ⟨hb.1, ?_⟩
    · exact (ih b m).1 hb.2
    · exact (ih b m).2 hb.2

@[simp] theorem wp_atomic (p : Prog I α) (Q : α → M.St → Prop) (m : M.St) :
    (atomic p : Thread W α).wp A M J Q m ↔
      ∀ s, J s → Driver.wp A M p (fun a m s => J s ∧ Q a m) m s :=
  ⟨fun h s hs => h s hs rfl, fun h s hs _ => h s hs⟩

/-! ### Rules for a thread run alone -/

section Alone

variable {P : α → M.St → W.State → Prop} {Q : β → M.St → W.State → Prop} {m : M.St} {s : W.State}

theorem wp_seq_bind {t : Thread W α} {f : α → Thread W β} (ht : Driver.wp A M t.seq P m s)
    (hf : ∀ a m s, P a m s → Driver.wp A M (f a).seq Q m s) : Driver.wp A M (t >>= f).seq Q m s := by
  rw [seq_bind]
  exact wp_seq ht hf

theorem wp_seq_interruptible {p : Prog I α} {f : α → Thread W β} (hp : Driver.wp A M p P m s)
    (hf : ∀ a m s, P a m s → Driver.wp A M (f a).seq Q m s) :
    Driver.wp A M (interruptible p >>= f).seq Q m s := by
  refine wp_seq_bind ?_ hf
  rw [seq_interruptible]
  exact hp

theorem wp_seq_atomic {p : Prog I α} {f : α → Thread W β} (hp : Driver.wp A M p P m s)
    (hf : ∀ a m s, P a m s → Driver.wp A M (f a).seq Q m s) :
    Driver.wp A M (atomic p >>= f).seq Q m s := by
  refine wp_seq_bind ?_ hf
  rw [seq_atomic]
  exact hp

theorem wp_seq_ite {c : Prop} [Decidable c] {t e : Thread W β}
    (ht : c → Driver.wp A M t.seq Q m s) (he : ¬ c → Driver.wp A M e.seq Q m s) :
    Driver.wp A M (if c then t else e).seq Q m s := by
  rw [seq_ite]
  exact wp_ite ht he

end Alone

/-! ### All sections of a thread -/

/-- Every section of the thread satisfies `Φ`, whatever the sections before it were answered. -/
def Each (Φ : (β : Type) → Prog I β → Prop) : Thread W α → Prop
  | .ret _ => True
  | .sect _ p k => Φ _ p ∧ ∀ b, (k b).Each Φ

variable {Φ Ψ : (β : Type) → Prog I β → Prop}

theorem Each.imp {t : Thread W α} (h : t.Each Φ) (hΦ : ∀ β p, Φ β p → Ψ β p) : t.Each Ψ := by
  induction t with
  | ret a => trivial
  | sect g p k ih => exact ⟨hΦ _ _ h.1, fun b => ih b (h.2 b)⟩

theorem Each.bind {t : Thread W α} {f : α → Thread W β} (h : t.Each Φ)
    (hf : ∀ a, (f a).Each Φ) : (t >>= f).Each Φ := by
  induction t with
  | ret a => exact hf a
  | sect g p k ih => exact ⟨h.1, fun b => ih b (h.2 b)⟩

theorem Each.ite {c : Prop} [Decidable c] {t e : Thread W α} (ht : t.Each Φ) (he : e.Each Φ) :
    (if c then t else e).Each Φ := by
  split
  · exact ht
  · exact he

theorem Each.atomic {p : Prog I α} (h : Φ α p) : (atomic p : Thread W α).Each Φ :=
  ⟨h, fun _ => trivial⟩

theorem Each.await {g : W.State → Bool} {p : Prog I α} (h : Φ α p) : (await g p).Each Φ :=
  ⟨h, fun _ => trivial⟩

theorem Each.interruptible {P : I.Op → Prop} {p : Prog I α} (h : Issues P p)
    (hP : ∀ o, P o → Φ _ (Prog.perform o)) : (interruptible p : Thread W α).Each Φ := by
  induction p with
  | ret a => trivial
  | call o k ih => exact ⟨hP o h.1, fun x => ih x (h.2 x)⟩

/-- Run alone, a thread issues what its sections issue. -/
theorem Each.seq_issues {P : I.Op → Prop} {t : Thread W α} (h : t.Each fun _ => Issues P) :
    Issues P t.seq := by
  induction t with
  | ret a => trivial
  | sect g p k ih => exact h.1.bind fun b => ih b (h.2 b)

/-- A thread is safe when each of its sections is, on its own. -/
theorem Each.wp {t : Thread W α} (h : t.Each Φ) {K : M.St → Prop}
    (hΦ : ∀ β p, Φ β p → ∀ m s, K m → J s →
      Driver.wp A M p (fun _ m s => J s ∧ K m) m s)
    {m : M.St} (hm : K m) : t.wp A M J (fun _ m => K m) m := by
  induction t generalizing m with
  | ret a => exact hm
  | sect g p k ih =>
    intro s hs _
    exact Driver.wp_mono (hΦ _ p h.1 m s hm hs) fun b m s hb => ⟨hb.1, ih b (h.2 b) hb.2⟩

end Thread

/-- A thread that has been started, and the operations it has issued so far. -/
structure Proc {I : Iface} (W : World I) where
  rest : Thread W Unit
  log : List (Event W)

/-- The shared state and the started threads. -/
structure Pool {I : Iface} (W : World I) where
  shared : W.State
  procs : List (Proc W)

namespace Pool

variable {I : Iface} {W : World I}

/-- A thread is started, or a started thread runs its next section, under inputs that `A` admits. -/
inductive Step (starts : Thread W Unit → Prop) (A : Event W → Prop) : Pool W → Pool W → Prop
  | start {s : W.State} {ps : List (Proc W)} (t : Thread W Unit) (ht : starts t) :
      Step starts A ⟨s, ps⟩ ⟨s, ⟨t, []⟩ :: ps⟩
  | sect {s : W.State} {l r : List (Proc W)} {log : List (Event W)} {β : Type}
      (g : W.State → Bool) (p : Prog I β) (k : β → Thread W Unit) (ι : Nat → W.Input)
      (hg : g s = true) (hA : ∀ e ∈ p.trace W ι s, A e) :
      Step starts A ⟨s, l ++ ⟨.sect g p k, log⟩ :: r⟩
        ⟨(p.run W ι s).2, l ++ ⟨k (p.run W ι s).1, log ++ p.trace W ι s⟩ :: r⟩

/-- The pools that interleaving threads of `starts` can reach from `s₀`. -/
inductive Reachable (starts : Thread W Unit → Prop) (A : Event W → Prop) (s₀ : W.State) :
    Pool W → Prop
  | init : Reachable starts A s₀ ⟨s₀, []⟩
  | step {c c' : Pool W} (h : Reachable starts A s₀ c) (h' : Step starts A c c') :
      Reachable starts A s₀ c'

variable {starts : Thread W Unit → Prop} {A : Event W → Prop} {M : Monitor W} {m₀ : M.St}
  {J : W.State → Prop}

/-- What the invariant rule keeps about one thread: its log was accepted, and what is left of it
is safe. -/
structure ProcOk (A : Event W → Prop) (M : Monitor W) (m₀ : M.St) (J : W.State → Prop)
    (q : Proc W) : Prop where
  log_safe : M.Safe m₀ q.log
  rest_safe : q.rest.wp A M J (fun _ _ => True) (M.after m₀ q.log)

/-- One step of the pool keeps the invariant and every thread's share of it. -/
theorem Step.inv {c c' : Pool W} (h : Step starts A c c')
    (hstart : ∀ t, starts t → t.wp A M J (fun _ _ => True) m₀)
    (hc : J c.shared ∧ ∀ q ∈ c.procs, ProcOk A M m₀ J q) :
    J c'.shared ∧ ∀ q ∈ c'.procs, ProcOk A M m₀ J q := by
  obtain ⟨hJ, hq⟩ := hc
  cases h with
  | start t ht =>
    refine ⟨hJ, fun q hq' => ?_⟩
    rcases List.mem_cons.1 hq' with rfl | hq'
    · exact ⟨trivial, hstart t ht⟩
    · exact hq q hq'
  | @sect s l r log β g p k ι hg hA =>
    have hp := hq ⟨.sect g p k, log⟩ (by simp)
    obtain ⟨h1, h2, h3⟩ := wp_sound (hp.rest_safe s hJ hg) ι hA
    refine ⟨h2, fun q hq' => ?_⟩
    rcases List.mem_append.1 hq' with hq' | hq'
    · exact hq q (List.mem_append_left _ hq')
    · rcases List.mem_cons.1 hq' with rfl | hq'
      · refine ⟨Monitor.safe_append.2 ⟨hp.log_safe, h1⟩, ?_⟩
        rw [Monitor.after_append]
        exact h3
      · exact hq q (List.mem_append_right _ (List.mem_cons_of_mem _ hq'))

/-- **The invariant rule.** Threads whose sections keep `J` and satisfy the monitor leave `J` true
in every reachable state, and the monitor accepts every thread's log. -/
theorem Reachable.inv {s₀ : W.State} {c : Pool W} (h : Reachable starts A s₀ c) (h0 : J s₀)
    (hstart : ∀ t, starts t → t.wp A M J (fun _ _ => True) m₀) :
    J c.shared ∧ ∀ q ∈ c.procs, ProcOk A M m₀ J q := by
  induction h with
  | init => exact ⟨h0, by simp⟩
  | step _ h' ih => exact h'.inv hstart ih

/-- The first thread runs its next section, if it need not wait. -/
def advance (ι : Nat → W.Input) : Pool W → Pool W
  | ⟨s, ⟨.sect g p k, log⟩ :: ps⟩ =>
    if g s then ⟨(p.run W ι s).2, ⟨k (p.run W ι s).1, log ++ p.trace W ι s⟩ :: ps⟩
    else ⟨s, ⟨.sect g p k, log⟩ :: ps⟩
  | c => c

theorem Reachable.advance {s₀ : W.State} {c : Pool W} (h : Reachable starts A s₀ c)
    (hA : ∀ e, A e) (ι : Nat → W.Input) (n : Nat) :
    Reachable starts A s₀ ((Pool.advance ι)^[n] c) := by
  induction n generalizing c with
  | zero => exact h
  | succ n ih =>
    refine ih ?_
    unfold Pool.advance
    split
    · split
      · exact h.step (.sect (l := []) _ _ _ ι ‹_› fun e _ => hA e)
      · exact h
    · exact h

/-! ## Schedules -/

/-- What a scheduler does next: it starts a thread, or lets the `i`-th one run its next section. -/
inductive Move {I : Iface} (W : World I) : Type 1
  | start (t : Thread W Unit)
  | run (i : Nat) (ι : Nat → W.Input)

/-- The pool after a move. A thread that waits, or has ended, stays as it is. -/
def move : Move W → Pool W → Pool W
  | .start t, c => ⟨c.shared, ⟨t, []⟩ :: c.procs⟩
  | .run i ι, c =>
    match c.procs[i]? with
    | some ⟨.sect g p k, log⟩ =>
      if g c.shared then
        ⟨(p.run W ι c.shared).2,
          c.procs.set i ⟨k (p.run W ι c.shared).1, log ++ p.trace W ι c.shared⟩⟩
      else c
    | _ => c

/-- The operations of a thread's next section. -/
def next (ι : Nat → W.Input) (s : W.State) : Proc W → List (Event W)
  | ⟨.sect _ p _, _⟩ => p.trace W ι s
  | ⟨.ret _, _⟩ => []

/-- No thread has anything left to do. -/
def finished (c : Pool W) : Bool :=
  c.procs.all fun q =>
    match q with
    | ⟨.ret _, _⟩ => true
    | ⟨.sect _ _ _, _⟩ => false

/-- The move starts a thread in `starts`, or gives a thread inputs that `A` admits. -/
def Move.Allowed (starts : Thread W Unit → Prop) (A : Event W → Prop) (c : Pool W) : Move W → Prop
  | .start t => starts t
  | .run i ι => ∀ q ∈ c.procs[i]?, ∀ e ∈ next ι c.shared q, A e

instance [DecidablePred A] (c : Pool W) (i : Nat) (ι : Nat → W.Input) :
    Decidable ((Move.run i ι).Allowed starts A c) :=
  inferInstanceAs (Decidable (∀ q ∈ c.procs[i]?, ∀ e ∈ next ι c.shared q, A e))

theorem Reachable.move {s₀ : W.State} {c : Pool W} (h : Reachable starts A s₀ c) {m : Move W}
    (hm : m.Allowed starts A c) : Reachable starts A s₀ (Pool.move m c) := by
  cases m with
  | start t => exact h.step (.start t hm)
  | run i ι =>
    obtain ⟨s, procs⟩ := c
    rw [Pool.move]
    split
    next g p k log hi =>
      obtain ⟨hlt, hget⟩ := List.getElem?_eq_some_iff.1 hi
      split
      next hg =>
        have hprocs : procs = procs.take i ++ ⟨.sect g p k, log⟩ :: procs.drop (i + 1) := by
          rw [← hget, List.getElem_cons_drop, List.take_append_drop]
        have hset : ∀ q, procs.set i q = procs.take i ++ q :: procs.drop (i + 1) :=
          fun q => List.set_eq_take_append_cons_drop.trans (if_pos hlt)
        have hA : ∀ e ∈ p.trace W ι s, A e := hm _ hi
        rw [hset]
        rw [hprocs] at h
        exact h.step (.sect g p k ι hg hA)
      · exact h
    · exact h

/-- The pool after a whole schedule. -/
def play : List (Move W) → Pool W → Pool W
  | [], c => c
  | m :: ms, c => play ms (move m c)

/-- Every move of the schedule is allowed in the pool it meets. -/
def Plays (starts : Thread W Unit → Prop) (A : Event W → Prop) : List (Move W) → Pool W → Prop
  | [], _ => True
  | m :: ms, c => m.Allowed starts A c ∧ Plays starts A ms (move m c)

theorem Reachable.play {s₀ : W.State} {c : Pool W} (h : Reachable starts A s₀ c) {ms : List (Move W)}
    (hms : Plays starts A ms c) : Reachable starts A s₀ (Pool.play ms c) := by
  induction ms generalizing c with
  | nil => exact h
  | cons m ms ih => exact ih (h.move hms.1) hms.2

end Pool

end Driver
