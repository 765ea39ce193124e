import Gts9Wifi.Snvm.Verify.Exchange

/-!
# Every response is read once

Between calls the device keeps one response. In protocol mode it is a mailbox of one place: a write
leaves in it the response it got, or nothing if it failed, and a read takes out what is there, whether
or not it can hand it out. So the reads hand out responses of the writes, in their order and each of
them once at most.
-/

namespace Gts9Wifi.Snvm

open Driver

/-- The response that is kept. -/
def Star.response (s : Star) : Option Bytes :=
  match s.rsp with
  | some rsp => if s.rspSize = 0 then none else some (rsp.take s.rspSize)
  | none => none

/-- What is kept is all there. -/
def Star.Whole (s : Star) : Prop := ∀ rsp, s.rsp = some rsp → s.rspSize ≤ rsp.length

/-! ## The mailbox -/

/-- What user space sees of a write or a read that is not empty: the response that the write got, if
it succeeded and there was any, or the size that the read asked for and what came of it. -/
inductive Entry
  | wrote (got : Option Bytes)
  | read (count : Nat) (outcome : Except Errno Bytes)

/-- What a read of `count` bytes may find. -/
def Answers (kept : Option Bytes) (count : Nat) (outcome : Except Errno Bytes) : Prop :=
  match kept with
  | none => outcome = .error .enospc
  | some data =>
    if count = data.length then outcome = .ok data ∨ outcome = .error .enomem
    else outcome = .error .e2big

def Entry.response : Entry → Option Bytes
  | .wrote got => got
  | .read _ _ => none

theorem Answers.kept {kept : Option Bytes} {count : Nat} {data : Bytes}
    (h : Answers kept count (.ok data)) : kept = some data := by
  cases kept with
  | none => cases h
  | some data' =>
    unfold Answers at h
    dsimp only at h
    split at h
    · rcases h with h | h
      · cases h
        rfl
      · cases h
    · cases h

/-- One call, with what user space sees of it. -/
def Call.logged (turns fuel : Nat) : Call → Star → Prog iface (Option (List Entry × Star))
  | .devWrite buf, s => do
    return (← starDevWrite turns fuel s buf).map fun (ret, s) =>
      (if buf.length = 0 then [] else [.wrote (if ret > 0 then s.response else none)], s)
  | .devRead count, s => do
    let (outcome, s) ← starDevRead s count
    return some (if count = 0 then [] else [.read count outcome], s)
  | call, s => do return (← call.run turns fuel s).map fun s => ([], s)

/-- A run of the device, with what user space sees. -/
def logged (turns fuel : Nat) : List Call → Star → Prog iface (List Entry × Option Star)
  | [], s => pure ([], some s)
  | call :: calls, s => do
    match ← call.logged turns fuel s with
    | none => return ([], none)
    | some (log, s) =>
      let (rest, s) ← logged turns fuel calls s
      return (log ++ rest, s)

/-- The log changes nothing. -/
theorem logged_session (turns fuel : Nat) (calls : List Call) (s : Star) :
    (do return (← logged turns fuel calls s).2) = session turns fuel calls s := by
  induction calls generalizing s with
  | nil => rfl
  | cons call calls ih =>
    have hcall : call.run turns fuel s = (do return (← call.logged turns fuel s).map (·.2)) := by
      cases call <;> simp [Call.run, Call.logged, Function.comp_def]
    unfold logged session
    rw [hcall, bind_assoc, bind_assoc]
    refine bind_congr fun r => ?_
    rw [pure_bind]
    cases r with
    | none => rfl
    | some r =>
      dsimp only [Option.map_some]
      rw [← ih, bind_assoc]
      rfl

section Runs

variable {A : Event world → Prop} {m : Unit} {s : Mem} {turns fuel : Nat} {star : Star}

/-- What a call leaves as it was. -/
structure Unheard (s s' : Star) : Prop where
  direct : s'.direct = s.direct
  whole : s.Whole → s'.Whole

theorem Unheard.refl {s : Star} : Unheard s s := ⟨rfl, id⟩

theorem Unheard.trans {s s' s'' : Star} (h : Unheard s s') (h' : Unheard s' s'') : Unheard s s'' :=
  ⟨h'.direct.trans h.direct, fun hs => h'.whole (h.whole hs)⟩

end Runs

end Gts9Wifi.Snvm
