import Mathlib.Data.List.Basic

/-!
# The receiver of a stop-and-wait protocol

Messages carry a number, and a receiver that remembers the number of the last one takes a message for
new when its number is another. `delivered` is what it passes on of a list, and `lastNumber` the number
it remembers then. A sender that changes the number from message to message, and repeats each as often
as it likes, is understood (`delivered_repeated`).
-/

namespace Driver

/-- What a receiver hears: nothing of interest, a message, or that counting starts over. -/
inductive Heard (ν α : Type)
  | nothing
  | message (number : ν) (content : α)
  | restart (number : ν)

namespace Heard

variable {ν α : Type} [DecidableEq ν]

/-- The number to compare the next one with. -/
def next (last : ν) : Heard ν α → ν
  | .nothing => last
  | .message number _ => number
  | .restart number => number

/-- What is passed on. -/
def new (last : ν) : Heard ν α → List α
  | .message number content => if number ≠ last then [content] else []
  | _ => []

/-- There is something to hear. -/
def audible : Heard ν α → Bool
  | .nothing => false
  | _ => true

def lastNumber : ν → List (Heard ν α) → ν
  | last, [] => last
  | last, h :: hs => lastNumber (h.next last) hs

def delivered : ν → List (Heard ν α) → List α
  | _, [] => []
  | last, h :: hs => h.new last ++ delivered (h.next last) hs

variable {last : ν}

theorem delivered_cons (h : Heard ν α) (hs : List (Heard ν α)) :
    delivered last (h :: hs) = h.new last ++ delivered (h.next last) hs := rfl

theorem delivered_append (hs hs' : List (Heard ν α)) :
    delivered last (hs ++ hs') = delivered last hs ++ delivered (lastNumber last hs) hs' := by
  induction hs generalizing last with
  | nil => rfl
  | cons h hs ih =>
    rw [List.cons_append, delivered_cons, delivered_cons, ih, List.append_assoc]
    rfl

/-- A front of what is on the line is understood as a front of what is sent. -/
theorem delivered_prefix {hs hs' : List (Heard ν α)} (h : hs <+: hs') :
    delivered last hs <+: delivered last hs' := by
  obtain ⟨rest, rfl⟩ := h
  exact ⟨_, (delivered_append hs rest).symm⟩

theorem new_again (content : α) : (message last content).new last = [] := if_neg (not_not.2 rfl)

/-- Silence changes nothing. -/
theorem delivered_filter (hs : List (Heard ν α)) :
    delivered last (hs.filter audible) = delivered last hs := by
  induction hs generalizing last with
  | nil => rfl
  | cons h hs ih =>
    cases h with
    | nothing => exact ih
    | message number content =>
      exact congrArg ((message number content).new last ++ ·) ih
    | restart number => exact ih

/-- Repetitions of the last message are not passed on. -/
theorem delivered_replicate (number : ν) (content : α) (n : Nat) (hs : List (Heard ν α)) :
    delivered number (List.replicate n (.message number content) ++ hs) = delivered number hs := by
  induction n with
  | zero => rfl
  | succ n ih =>
    rw [List.replicate_succ, List.cons_append, delivered_cons, new_again, List.nil_append]
    exact ih

/-- What a sender puts on the line that numbers its messages by turns, from `number i` on, and repeats
the `i`-th `repeats i` times. -/
def repeated (number : Nat → ν) (repeats : Nat → Nat) : Nat → List α → List (Heard ν α)
  | _, [] => []
  | i, content :: contents =>
    List.replicate (repeats i + 1) (.message (number i) content) ++
      repeated number repeats (i + 1) contents

/-- **Each message once, in order.** -/
theorem delivered_repeated {number : Nat → ν} (hnumber : ∀ i, number (i + 1) ≠ number i)
    (repeats : Nat → Nat) (i : Nat) (contents : List α) (hlast : number i ≠ last) :
    delivered last (repeated number repeats i contents) = contents := by
  induction contents generalizing i last with
  | nil => rfl
  | cons content contents ih =>
    unfold repeated
    have hnew : (message (number i) content).new last = [content] := if_pos hlast
    rw [List.replicate_succ, List.cons_append, delivered_cons, hnew]
    refine congrArg (content :: ·) ?_
    exact (delivered_replicate _ _ _ _).trans (ih (i + 1) (hnumber i))

end Heard

end Driver
