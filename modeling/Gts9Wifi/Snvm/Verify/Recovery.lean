import Gts9Wifi.Snvm.Verify.Turns
import Mathlib.Data.List.Count

/-!
# Recovery comes to an end

Three counters bound what the host does about a card that does not get on with it: one for silence,
one for receptions that are no good, one for blocks that ask for a repetition. Each is reset by the
next one's event, so none of them alone bounds the loop of `iso7816_t1_receive`. Their weighted sum
does: a turn without progress lowers it or is the last one. An error-free R-block counts as
progress also where its number asks for nothing new.
-/

namespace Gts9Wifi.Snvm

open Driver

/-- An intact block came that is no matter of recovery: an I-block with a new number, an R-block that
reports no error, whatever its number, or an S-block. -/
def Progress (x : Met) : Prop :=
  x.data ≠ [] ∧ checkLrc x.data = .success ∧
    (News x.before x.data ∨
      eseBit (pcb x.data) 7 = 1 ∧ eseBit (pcb x.data) 6 = 0 ∧
        eseBit (pcb x.data) 0 = 0 ∧ eseBit (pcb x.data) 1 = 0 ∨
      eseBit (pcb x.data) 7 = 1 ∧ eseBit (pcb x.data) 6 = 1)

instance instDecidableProgress (x : Met) : Decidable (Progress x) :=
  inferInstanceAs (Decidable (_ ∧ _ ∧ (_ ∨ _ ∨ _)))

/-- The patience that is left. A repetition weighs more than all rejections, and a rejection more than
all silence. -/
def patience (p : T1) : Nat :=
  12 * (protocolFrameRetryCount - p.recoveryCounter) +
    4 * (protocolMaxRnackRetryLimit - p.rnackCounter) + (protocolTimeoutRetryCount - p.timeoutCounter)

theorem patience_lt (p : T1) : patience p < 48 := by
  unfold patience protocolFrameRetryCount protocolMaxRnackRetryLimit protocolTimeoutRetryCount
  omega

/-- The counters are the same, so is the patience. -/
def SameCounters (p q : T1) : Prop :=
  q.recoveryCounter = p.recoveryCounter ∧ q.rnackCounter = p.rnackCounter ∧
    q.timeoutCounter = p.timeoutCounter

theorem SameCounters.patience_eq {p q : T1} (h : SameCounters p q) : patience q = patience p := by
  unfold patience
  rw [h.1, h.2.1, h.2.2]

/-! ## A reception -/

theorem reject_patience {p : T1} {error : RframeError} (h : (p.reject error).state ≠ .idle) :
    (p.reject error).rnackCounter = p.rnackCounter + 1 ∧
      p.rnackCounter < protocolMaxRnackRetryLimit ∧
      (p.reject error).recoveryCounter = p.recoveryCounter ∧
      (p.reject error).timeoutCounter = p.timeoutCounter := by
  by_cases hlt : p.rnackCounter < protocolMaxRnackRetryLimit
  · rw [T1.reject, if_pos hlt]
    exact ⟨rfl, hlt, rfl, rfl⟩
  · rw [T1.reject, if_neg hlt] at h
    exact absurd rfl h

theorem recover_patience {p : T1} {repair : T1 → T1} (hrepair : SameCounters p (repair p))
    (h : (p.recover repair).state ≠ .idle) :
    (p.recover repair).recoveryCounter = p.recoveryCounter + 1 ∧
      p.recoveryCounter < protocolFrameRetryCount := by
  by_cases hlt : p.recoveryCounter < protocolFrameRetryCount
  · rw [T1.recover, if_pos hlt]
    exact ⟨congrArg (· + 1) hrepair.1, hlt⟩
  · rw [T1.recover, if_neg hlt] at h
    exact absurd rfl h

theorem repeatFor_counters (p : T1) : SameCounters p (repeatFor p) := by
  unfold repeatFor
  split
  · exact ⟨rfl, rfl, rfl⟩
  · split
    · exact ⟨rfl, rfl, rfl⟩
    · split <;> exact ⟨rfl, rfl, rfl⟩
  all_goals exact ⟨rfl, rfl, rfl⟩

/-- An R-block that reports an error is a matter of recovery. -/
theorem decodeRframe_counters (p : T1) {b : UInt8} (hb : ¬ (eseBit b 0 = 0 ∧ eseBit b 1 = 0)) :
    ∃ q repair, decodeRframe p b = T1.recover q repair ∧ SameCounters p q ∧
      SameCounters q (repair q) := by
  unfold decodeRframe
  dsimp only
  rw [if_neg hb]
  split
  · exact ⟨_, _, rfl, ⟨rfl, rfl, rfl⟩, repeatFor_counters _⟩
  · split <;> exact ⟨_, _, rfl, ⟨rfl, rfl, rfl⟩, ⟨rfl, rfl, rfl⟩⟩

/-- A repetition is asked for. -/
theorem heard_patience {p : T1} {b : UInt8}
    (hb : eseBit b 7 = 0 ∧ p.lastRx.iframe.seqNo = eseBit b 6 ∨
      eseBit b 7 ≠ 0 ∧ eseBit b 6 = 0 ∧ ¬ (eseBit b 0 = 0 ∧ eseBit b 1 = 0))
    (h : (heard p b).state ≠ .idle) :
    (heard p b).recoveryCounter = p.recoveryCounter + 1 ∧ p.recoveryCounter < protocolFrameRetryCount := by
  rcases hb with ⟨h7, hseq⟩ | ⟨h7, h6, herr⟩
  · have hheard : heard p b = (gotIframe p).recover fun p => p.answer .other :=
      (if_pos h7).trans (if_neg (not_not.2 hseq))
    rw [hheard] at h ⊢
    exact recover_patience ⟨rfl, rfl, rfl⟩ h
  · have hheard : heard p b = decodeRframe p b := (if_neg h7).trans (if_pos h6)
    rw [hheard] at h ⊢
    obtain ⟨q, repair, hq, hcount, hrepair⟩ := decodeRframe_counters p herr
    rw [hq] at h ⊢
    obtain ⟨h1, h2⟩ := recover_patience hrepair h
    rw [hcount.1] at h1 h2
    exact ⟨h1, h2⟩

/-- **A turn without progress lowers the patience, or is the last one.** -/
theorem settled_patience {x : Met} (hx : ¬ Progress x)
    (h : (settled x.before x.data x.status).state ≠ .idle) :
    patience (settled x.before x.data x.status) < patience x.before := by
  obtain ⟨p, data, status⟩ := x
  unfold patience protocolFrameRetryCount protocolMaxRnackRetryLimit protocolTimeoutRetryCount
  by_cases hpos : data.length > 0
  · by_cases hlrc : checkLrc data = .success
    · have hsettled : settled p data status =
          heard { p with timeoutCounter := 0, rnackCounter := 0 } (pcb data) :=
        (if_pos hpos).trans (if_pos hlrc)
      have hne : data ≠ [] := List.ne_nil_of_length_pos hpos
      simp only [Progress, News, ne_eq, hne, hlrc, not_false_eq_true, true_and] at hx
      have hask : eseBit (pcb data) 7 = 0 ∧ p.lastRx.iframe.seqNo = eseBit (pcb data) 6 ∨
          eseBit (pcb data) 7 ≠ 0 ∧ eseBit (pcb data) 6 = 0 ∧
            ¬ (eseBit (pcb data) 0 = 0 ∧ eseBit (pcb data) 1 = 0) := by
        rcases eseBit_cases (pcb data) 7 with h7 | h7
        · rw [h7] at hx ⊢
          exact .inl ⟨rfl, by_contra fun hseq => hx (.inl ⟨rfl, hseq⟩)⟩
        · rw [h7] at hx ⊢
          rcases eseBit_cases (pcb data) 6 with h6 | h6
          · exact .inr ⟨by decide, h6, fun herr => hx (.inr (.inl ⟨rfl, h6, herr⟩))⟩
          · exact absurd (.inr (.inr ⟨rfl, h6⟩)) hx
      simp only [hsettled] at h ⊢
      obtain ⟨h1, h2⟩ := heard_patience (p := { p with timeoutCounter := 0, rnackCounter := 0 }) hask h
      unfold protocolFrameRetryCount at h2
      dsimp only at h1 h2
      omega
    · have hsettled : settled p data status = { p with timeoutCounter := 0 }.reject .parity :=
        (if_pos hpos).trans (if_neg hlrc)
      simp only [hsettled] at h ⊢
      obtain ⟨h1, h2, h3, h4⟩ := reject_patience h
      unfold protocolMaxRnackRetryLimit at h2
      dsimp only at h1 h2 h3 h4
      omega
  · have hsettled : settled p data status = p.nothing status := if_neg hpos
    simp only [hsettled] at h ⊢
    unfold T1.nothing at *
    by_cases hrnack : p.lastTx.type = .sframe ∧
        (p.lastTx.sframe.type = .wtxRsp ∨ p.lastTx.sframe.type = .resynchRsp) ∨ status = .invalidFrame
    · rw [if_pos hrnack] at h ⊢
      by_cases hlt : p.rnackCounter < protocolMaxRnackRetryLimit
      · rw [if_pos hlt] at h ⊢
        obtain ⟨h1, h2, h3, h4⟩ := reject_patience h
        unfold protocolMaxRnackRetryLimit at h2
        omega
      · rw [if_neg hlt, T1.reject, if_neg hlt] at h
        exact absurd rfl h
    · rw [if_neg hrnack] at h ⊢
      by_cases hlt : p.timeoutCounter < protocolTimeoutRetryCount
      · rw [if_pos hlt]
        unfold protocolTimeoutRetryCount at hlt
        dsimp only [repeatLast]
        omega
      · rw [if_neg hlt] at h
        exact absurd rfl h

/-! ## The loop -/

/-- A turn keeps the patience that the reception left, or is the last one. -/
theorem wp_react_patience {A : Event world → Prop} {p : T1} {data : Bytes} {status : EseStatus}
    (hdata : data.length ≤ 259) {m : Unit} {s : Mem} :
    wp A (.idle world) (react p (data, status)) (fun r _ _ => r.2.state ≠ .idle →
      (settled p data status).state ≠ .idle ∧ patience r.2 = patience (settled p data status)) m s := by
  refine wp_react (fun _ _ _ _ _ => ⟨trivial, rfl⟩) hdata (fun recvData _ _ hidle _ hne => ?_)
    fun recvData _ _ hne => ?_
  · exact absurd hidle hne
  · refine wp_send (wp_emission_idle fun status' q hq _ => ⟨hne, ?_⟩)
    have hsame : SameCounters (settled p data status) q := hq.counters
    split
    · exact SameCounters.patience_eq hsame
    · exact SameCounters.patience_eq hsame

theorem wp_turns_patience {A : Event world → Prop} (fuel : Nat) (p : T1) {m : Unit} {s : Mem} :
    wp A (.idle world) (turns fuel p) (fun r _ _ =>
      r.1.length ≤ patience p + 1 + 48 * r.1.countP (Progress ·) ∧
        (r.2 = none → r.1.length = fuel)) m s := by
  induction fuel generalizing p s with
  | zero => exact ⟨by simp, fun _ => rfl⟩
  | succ fuel ih =>
    unfold turns
    rw [wp_bind]
    refine wp_receiveFrame (fun _ _ _ _ _ => ⟨trivial, rfl⟩) fun data status hdata => ?_
    rw [wp_bind]
    refine wp_mono (wp_react_patience hdata) fun r _ s' hr => ?_
    refine wp_ite (fun hne => ?_) fun _ => ?_
    · obtain ⟨hstate, hpat⟩ := hr hne
      rw [wp_bind]
      refine wp_mono (ih r.2) fun r' _ _ hr' => ?_
      refine ⟨?_, fun hnone => congrArg (· + 1) (hr'.2 hnone)⟩
      have hle := hr'.1
      rw [hpat] at hle
      rw [List.length_cons, List.countP_cons]
      by_cases hx : Progress ⟨p, data, status⟩
      · have hlt := patience_lt (settled p data status)
        rw [if_pos (decide_eq_true hx)]
        omega
      · have hlt : patience (settled p data status) < patience p := settled_patience hx hstate
        rw [if_neg (by simpa using hx)]
        omega
    · refine ⟨?_, fun hnone => absurd hnone (by simp)⟩
      simp only [List.length_singleton]
      omega

/-- **Bounded recovery.** Whatever the bus delivers and whatever state the protocol starts in, the
loop of `iso7816_t1_receive` takes no more than 48 turns, and 48 more for each turn in which a new
I-block, an error-free R-block or an S-block came. Silence, damaged frames, reported errors and repeated
I-blocks do not keep it longer; a card that goes on with error-free R-blocks or S-blocks may. It runs on
only as long as its turns do. -/
theorem receive_turns_le (fuel : Nat) (p : T1) (ι : Nat → Input) (m : Mem) :
    (((turns fuel p).run world ι m).1.1.length ≤
      48 * (((turns fuel p).run world ι m).1.1.countP (Progress ·) + 1)) ∧
    ((receiveLoop fuel p).run world ι m).1 = ((turns fuel p).run world ι m).1.2 ∧
    (((receiveLoop fuel p).run world ι m).1 = none →
      ((turns fuel p).run world ι m).1.1.length = fuel) := by
  have hrun := (wp_sound (A := fun _ => True) (M := .idle world) (m := ()) (s := m)
    (wp_turns_patience fuel p) ι fun _ _ => trivial).2
  have hlt := patience_lt p
  have hsame : ((receiveLoop fuel p).run world ι m).1 = ((turns fuel p).run world ι m).1.2 := by
    rw [← turns_receiveLoop, Prog.run_bind]
    rfl
  refine ⟨by omega, hsame, fun hnone => hrun.2 (hsame ▸ hnone)⟩

end Gts9Wifi.Snvm
