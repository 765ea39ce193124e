import Gts9Wifi.Snvm.Verify.Exchange

/-!
# What a command that was not sent leaves behind

`iso7816_t1_send` takes a command over in `STATE_IDLE` only, and its caller gives the command's memory
back whatever came of it. While every write finds the protocol idle, every copy from a command is one
from the command that is being processed. The state that an empty command leaves behind is never left
by a write: nothing is sent any more before the protocol is reset.
-/

namespace Gts9Wifi.Snvm

open Driver

/-! ## Copies from commands -/

/-- A copy from a command reads the one that is being processed. -/
def Live (e : Event world) : Prop :=
  match e.op with
  | .load (.cmd block) _ _ => Current block e.pre
  | _ => True

theorem lenient_live : Lenient (.each Live) := by
  refine lenient_each fun o i s ho => ?_
  cases o with
  | load src off n =>
    cases src with
    | cmd block => exact ho
    | frame data => trivial
  | _ => trivial

/-- No other command is referred to. -/
structure Owns (p : T1) (s : Mem) : Prop where
  last : ∀ ptr, p.lastTx.iframe.data = some ptr → Current ptr.block s
  next : ∀ ptr, p.nextTx.iframe.data = some ptr → Current ptr.block s

namespace Owns

variable {p q : T1} {s : Mem}

theorem of_eq (h : Owns p s) (h1 : q.lastTx = p.lastTx)
    (h2 : q.nextTx.iframe.data = p.nextTx.iframe.data) : Owns q s :=
  ⟨h1 ▸ h.last, h2 ▸ h.next⟩

theorem reset : Owns (resetParams p) s := ⟨fun _ h => (by cases h), fun _ h => (by cases h)⟩

theorem repeatLast (h : Owns p s) : Owns (repeatLast p) s := ⟨h.last, h.last⟩

theorem recover {repair : T1 → T1} (h : Owns p s) (hrepair : Owns (repair p) s) :
    Owns (p.recover repair) s := by
  unfold T1.recover
  split
  · exact hrepair.of_eq rfl rfl
  · exact h.of_eq rfl rfl

theorem nextIframe (h : Owns p s) : Owns (nextIframe p) s := by
  refine ⟨h.last, fun ptr hptr => h.last ptr ?_⟩
  rw [← hptr]
  unfold Snvm.nextIframe
  dsimp only
  split <;> rfl

theorem repeatFor (h : Owns p s) : Owns (repeatFor p) s := by
  unfold Snvm.repeatFor
  split
  · exact h.repeatLast.of_eq rfl rfl
  · split
    · exact h.repeatLast.of_eq rfl rfl
    · split <;> exact h.of_eq rfl rfl
  · exact h.repeatLast
  · exact h
  · exact h

theorem heard (h : Owns p s) (b : UInt8) : Owns (heard p b) s := by
  unfold Snvm.heard
  split
  · unfold heardIframe
    split
    · unfold newIframe
      dsimp only
      split <;> exact h.of_eq rfl rfl
    · have hgot : Owns (gotIframe p) s := h.of_eq rfl rfl
      exact hgot.recover (hgot.of_eq rfl rfl)
  · split
    · have hreported : ∀ error, Owns ((gotRframe p b).reported error) s := fun _ => h.of_eq rfl rfl
      unfold decodeRframe
      dsimp only
      split
      · have hack : Owns { (gotRframe p b).reported .no with recoveryCounter := 0 } s := h.of_eq rfl rfl
        unfold acknowledged
        dsimp only
        split
        · exact hack.nextIframe
        · exact hack
      · split
        · exact (hreported _).recover (hreported _).repeatFor
        · have hgot : Owns (gotRframe p b) s := h.of_eq rfl rfl
          split <;> exact hgot.recover (hreported _).repeatLast
    · have hgot : Owns (gotSframe p b) s := h.of_eq rfl rfl
      unfold decodeSframe
      dsimp only
      split_ifs
      · exact Owns.reset.of_eq (p := resetParams (gotSframe p b)) rfl rfl
      · exact hgot.of_eq rfl rfl
      · exact hgot.of_eq rfl rfl
      · exact hgot.of_eq rfl rfl
      · exact hgot.recover hgot.repeatLast
      · exact hgot.of_eq rfl rfl
      · exact hgot.of_eq rfl rfl
      · exact hgot

theorem reject (h : Owns p s) (error : RframeError) : Owns (p.reject error) s := by
  unfold T1.reject
  split <;> exact h.of_eq rfl rfl

theorem settled (h : Owns p s) (data : Bytes) (status : EseStatus) :
    Owns (settled p data status) s := by
  unfold Snvm.settled
  split
  · split
    · have hgood : Owns { p with timeoutCounter := 0, rnackCounter := 0 } s := h.of_eq rfl rfl
      exact hgood.heard _
    · exact (h.of_eq (q := { p with timeoutCounter := 0 }) rfl rfl).reject _
  · have hreject := h.reject .other
    unfold T1.nothing
    split
    · split
      · exact hreject
      · exact hreject.of_eq rfl rfl
    · split
      · exact (h.of_eq (q := { p with timeoutCounter := p.timeoutCounter + 1 }) rfl rfl).repeatLast
      · exact h.of_eq rfl rfl

theorem prepareNone (h : Owns p s) : Owns (prepare p none) s := ⟨h.next, h.next⟩

theorem sent (h : Owns p s) (hsent : Sent p q) : Owns q s :=
  h.of_eq hsent.lastTx (congrArg (·.data) hsent.iframe)

end Owns

section Runs

variable {A : Event world → Prop} {m : Unit} {s : Mem}

theorem wp_emission_live {p : T1} (h : Owns p s) {Q : EseStatus → Unit → Mem → Prop}
    (hQ : ∀ status, Q status m s) : wp A (.each Live) (emission p) Q m s := by
  have htransmit : ∀ buf, buf ≠ [] → wp A (.each Live) (transmit buf) Q m s :=
    fun buf hne => wp_transmit (fun _ _ => ⟨trivial, hQ⟩) hne
  unfold emission
  cases p.state with
  | idle => exact hQ _
  | sendRframe => exact htransmit _ (frame_ne_nil _ _ _)
  | sendSframe => exact htransmit _ (frame_ne_nil _ _ _)
  | sendIframe =>
    refine wp_ite (fun _ => hQ _) fun _ => ?_
    cases hdata : p.nextTx.iframe.data with
    | none => exact hQ _
    | some ptr =>
      dsimp only
      rw [wp_bind, wp_perform]
      exact fun i _ => ⟨h.next ptr hdata, htransmit _ (frame_ne_nil _ _ _)⟩

/-- An idle protocol takes the new command over, and refers to no other one then. -/
theorem owns_prepare {p : T1} {block : Nat} (pos size : Nat) (h : p.state = .idle ∨ Owns p s)
    (hcur : Current block s) : Owns (prepare p (some ⟨size, some ⟨block, pos⟩⟩)) s := by
  have hboth : ∀ q : T1, (∀ ptr, q.nextTx.iframe.data = some ptr → Current ptr.block s) →
      Owns { q with lastTx := q.nextTx } s := fun q hq => ⟨hq, hq⟩
  unfold prepare
  refine hboth _ ?_
  dsimp only
  split
  · intro ptr hptr
    have hsame : (setIframe { p with nextTx := { p.nextTx with iframe := { p.nextTx.iframe with
        data := some ⟨block, pos⟩, totalSize := size } } }).nextTx.iframe.data = some ⟨block, pos⟩ := by
      unfold setIframe
      dsimp only
      split <;> rfl
    rw [hsame] at hptr
    cases hptr
    exact hcur
  · next hne => exact (h.resolve_left hne).next

theorem exchange_live :
    Exchange A (.each Live) (fun p s => p.state = .idle ∨ Owns p s) Owns (fun _ => True) where
  send {p block pos size m s} hp hcur := by
    have hprep := owns_prepare pos size hp hcur
    exact wp_send (wp_emission_live hprep fun status q hq =>
      ⟨rfl, trivial, fun _ => hprep.sent hq⟩)
  react {p data status m s} hdata hp := by
    have hset : ∀ recvData, Owns ((settled p data status).hold recvData) s :=
      fun recvData => (hp.settled data status).of_eq rfl rfl
    refine wp_react lenient_live.tolerant hdata (fun recvData _ _ _ _ => ⟨rfl, hset recvData⟩)
      fun recvData _ _ _ => ?_
    have hprep := (hset recvData).prepareNone
    refine wp_send (wp_emission_live hprep fun status q hq => ⟨rfl, ?_⟩)
    have hsent := hprep.sent hq
    split
    · exact hsent.of_eq rfl rfl
    · exact hsent
  finish _ hidle := ⟨.inl hidle, trivial⟩
  start_done _ := trivial

end Runs

/-- What a call that is a write finds. -/
def Call.found (call : Call) (star : Star) : List T1 :=
  match call with
  | .devWrite _ => [star.protocol]
  | _ => []

/-- A run of the device, with what its writes found. -/
def writesFound (turns fuel : Nat) : List Call → Star → Prog iface (List T1 × Option Star)
  | [], s => pure ([], some s)
  | call :: calls, s => do
    match ← call.run turns fuel s with
    | none => return (call.found s, none)
    | some s' =>
      let (found, r) ← writesFound turns fuel calls s'
      return (call.found s ++ found, r)

/-- The record changes nothing. -/
theorem writesFound_session (turns fuel : Nat) (calls : List Call) (s : Star) :
    (do return (← writesFound turns fuel calls s).2) = session turns fuel calls s := by
  induction calls generalizing s with
  | nil => rfl
  | cons call calls ih =>
    unfold writesFound session
    rw [bind_assoc]
    refine bind_congr fun r => ?_
    cases r with
    | none => rfl
    | some s' =>
      dsimp only
      rw [← ih, bind_assoc]
      rfl

section Sessions

variable {A : Event world → Prop} {turns fuel : Nat}

/-- One call, seen by the monitor that waits for a copy from another command. -/
theorem wp_call_live {call : Call} {star : Star} {m : Prop} {s : Mem}
    (hcall : call ≠ .devIoctl .setDirect) (hdirect : star.direct ≤ 0)
    (hidle : ∀ p ∈ call.found star, p.state = .idle) :
    wp A (.seen fun e => ¬ Live e) (call.run turns fuel star) (fun r m' _ =>
      (m' ↔ m) ∧ ∀ star', r = some star' → star'.direct ≤ 0) m s := by
  refine wp_seen_of_each (wp_mono (wp_call lenient_live exchange_live (fun _ _ _ => trivial) hcall hdirect
    trivial fun buf hbuf => .inl ?_) fun r _ _ hr star' h => (hr star' h).2)
  subst hbuf
  exact hidle _ (List.mem_singleton.2 rfl)

theorem wp_writesFound {calls : List Call} {star : Star} {m : Prop} {s : Mem}
    (hcalls : ∀ call ∈ calls, call ≠ .devIoctl .setDirect) (hdirect : star.direct ≤ 0) :
    wp A (.seen fun e => ¬ Live e) (writesFound turns fuel calls star) (fun r m' _ =>
      (∀ p ∈ r.1, p.state = .idle) → (m' ↔ m)) m s := by
  induction calls generalizing star m s with
  | nil => exact fun _ => Iff.rfl
  | cons call calls ih =>
    obtain ⟨hcall, hcalls⟩ := List.forall_mem_cons.1 hcalls
    unfold writesFound
    rw [wp_bind]
    by_cases hidle : ∀ p ∈ call.found star, p.state = .idle
    · refine wp_mono (wp_call_live hcall hdirect hidle) fun r m' s' hr => ?_
      cases r with
      | none => exact fun _ => hr.1
      | some star' =>
        dsimp only
        rw [wp_bind]
        refine wp_mono (ih hcalls (hr.2 star' rfl)) fun r m'' _ h => fun hall => ?_
        exact (h fun p hp => hall p (List.mem_append_right _ hp)).trans hr.1
    · -- a write that found something else is part of the record, so there is nothing to show
      refine wp_mono (wp_true fun _ _ => trivial) fun r m' s' _ => ?_
      cases r with
      | none => exact fun hall => absurd hall hidle
      | some star' =>
        dsimp only
        rw [wp_bind]
        refine wp_mono (wp_true fun _ _ => trivial) fun r m'' _ _ => ?_
        exact fun hall => absurd (fun p hp => hall p (List.mem_append_left _ hp)) hidle

/-- **No copy from memory that has been given back.** In every run of the device in protocol mode in
which each write finds the protocol idle, every copy from a command is one from the command that is
being processed. -/
theorem session_live {calls : List Call} {star : Star} {ι : Nat → Input} {m : Mem}
    (hcalls : ∀ call ∈ calls, call ≠ .devIoctl .setDirect) (hdirect : star.direct ≤ 0)
    (hidle : ∀ p ∈ ((writesFound turns fuel calls star).run world ι m).1.1, p.state = .idle) :
    ∀ e ∈ (session turns fuel calls star).trace world ι m, Live e := by
  have hseen : ¬ ∃ e ∈ (writesFound turns fuel calls star).trace world ι m, ¬ Live e := by
    have hrule : wp (fun _ => True) (.seen fun e => ¬ Live e) (writesFound turns fuel calls star)
        (fun r m' _ => (∀ p ∈ r.1, p.state = .idle) → (m' ↔ False)) False m := wp_writesFound hcalls hdirect
    have hrun := (wp_sound hrule ι fun _ _ => trivial).2 hidle
    exact fun h => hrun.1 (Monitor.after_seen.2 (.inr h))
  have hsame : (session turns fuel calls star).trace world ι m =
      (writesFound turns fuel calls star).trace world ι m := by
    rw [← writesFound_session, Prog.trace_bind]
    exact List.append_nil _
  intro e he
  rw [hsame] at he
  by_contra hlive
  exact hseen ⟨e, he, hlive⟩

/-- A chain of one command of one byte. -/
def oneByte : Bytes := packBe32 1 ++ packBe32 0 ++ packBe32 1 ++ packBe32 0 ++ [7]

/-- A card that takes a frame and is gone. -/
def takesOne (n : Nat) : Input := { fault := if n < 9 then none else some .eio }

theorem session_live_oneByte :
    Live (((session 9 9 [.devOpen, .devWrite oneByte, .devClose] Star.probed).trace world takesOne
      ⟨0, none⟩).get ⟨7, by decide +kernel⟩) :=
  session_live (by decide) (Int.le_refl 0) (by decide +kernel) _ (List.get_mem _ _)

end Sessions

/-! ## The empty command -/

/-- An empty piece is next. -/
def Wedged (p : T1) : Prop := p.state = .sendIframe ∧ p.nextTx.iframe.sendSize = 0

/-- Nothing is put on the bus. -/
def NotSent (e : Event world) : Prop :=
  match e.op with
  | .busSend _ => False
  | _ => True

theorem lenient_notSent : Lenient (.each NotSent) := by
  refine lenient_each fun o i s ho => ?_
  cases o with
  | busSend buf => exact ho.elim
  | _ => trivial

/-- Calls that keep the protocol as it is, apart from writes. -/
def Call.Keeps (call : Call) : Prop := ¬ call.Resets ∧ call ≠ .devIoctl .setDirect

/-- The first command of the chain is empty, and all is well with it otherwise. -/
structure EmptyFirst (buf : Bytes) : Prop where
  count : 0 < readBe32 buf 0 ∧ readBe32 buf 0 ≤ apduChainMaxSize
  seq : readBe32 buf 4 = 0
  empty : readBe32 buf 8 = 0
  fits : 16 < buf.length ∧ readBe32 buf 12 + 16 ≤ buf.length

/-- The kernel takes commands over. -/
def Accepted (e : Event world) : Prop :=
  match e.op with
  | .kzallocCmd cmd => cmd.length ≤ kmallocMaxSize → e.input.fault = none
  | .copyFromUser => e.input.fault = none
  | _ => True

instance instDecidableAccepted : (e : Event world) → Decidable (Accepted e)
  | ⟨.kzallocCmd cmd, i, _⟩ => inferInstanceAs (Decidable (cmd.length ≤ kmallocMaxSize → i.fault = none))
  | ⟨.copyFromUser, i, _⟩ => inferInstanceAs (Decidable (i.fault = none))
  | ⟨.kzalloc _, _, _⟩ | ⟨.load _ _ _, _, _⟩ | ⟨.busSend _, _, _⟩ | ⟨.busReceive _ _ _, _, _⟩
  | ⟨.kfreeCmd, _, _⟩ | ⟨.copyToUser _, _, _⟩ | ⟨.getUser, _, _⟩ | ⟨.powerOn, _, _⟩
  | ⟨.powerOff, _, _⟩ | ⟨.chipReset, _, _⟩ => isTrue trivial

section Wedge

variable {A : Event world → Prop} {m : Unit} {s : Mem} {turns fuel : Nat}

/-- The send function refuses an empty piece. -/
theorem wp_send_wedged {p : T1} {data : Option CmdData} (hprep : Wedged (prepare p data)) :
    wp A (.each NotSent) (send p data) (fun r _ s' => s' = s ∧ r.1 ≠ .success ∧ Wedged r.2) m s := by
  refine wp_send ?_
  unfold emission
  rw [hprep.1]
  dsimp only
  refine wp_ite (fun _ => ?_) fun hne => absurd hprep.2 hne
  intro q hq
  refine ⟨rfl, (by decide), hq.state.trans hprep.1, ?_⟩
  rw [hq.iframe]
  exact hprep.2

/-- A write does not get it out of there. -/
theorem exchange_wedged :
    Exchange A (.each NotSent) (fun p _ => Wedged p) (fun _ _ => False) Wedged where
  send {p block pos size m s} hp _ := by
    have hprep : Wedged (prepare p (some ⟨size, some ⟨block, pos⟩⟩)) := by
      unfold prepare
      dsimp only
      rw [if_neg (fun hidle => by rw [hp.1] at hidle; cases hidle)]
      exact hp
    exact wp_mono (wp_send_wedged hprep) fun r _ s' h => ⟨h.1, h.2.2, fun hok => absurd hok h.2.1⟩
  react _ hp := hp.elim
  finish hp _ := hp.elim
  start_done hp := hp

theorem wp_bigEndian_read {block pos : Nat} {buf : Bytes} (hcur : block = s.serial)
    (hlive : s.live = some buf) (hpos : pos + 4 ≤ buf.length) {Q : Nat → Unit → Mem → Prop}
    (h : Q (readBe32 buf pos) m s) : wp A (.each NotSent) (bigEndian block pos) Q m s := by
  unfold bigEndian
  rw [wp_bind]
  refine wp_mild (o := .load (.cmd block) pos 4) lenient_notSent ⟨hcur, by rw [hlive]; rfl⟩ fun i _ => ?_
  have hread : s.read (.cmd block) = some buf := (if_pos hcur).trans hlive
  have hcopy : (copied (some buf) pos 4 i).1 = slice buf pos 4 := by
    unfold copied
    rw [dif_pos ⟨buf, rfl, hpos⟩]
    rfl
  have hvalue : readBe32 (slice buf pos 4) 0 = readBe32 buf pos := by
    unfold readBe32
    rw [slice_slice (Nat.le_refl 4), Nat.add_zero]
  show Q (readBe32 (copied (s.read (.cmd block)) pos 4 i).1 0) m s
  rw [hread, hcopy, hvalue]
  exact h

/-- An empty command is refused, after the protocol has taken it over. -/
theorem wp_again_empty {p : T1} {block pos expectedSize at_ : Nat} {rsp : EseData} {total : DataList}
    (hidle : p.state = .idle) :
    wp A (.each NotSent) (again turns block pos expectedSize ⟨0, some ⟨block, at_⟩⟩ fuel p rsp total)
      (fun r _ _ => ∀ verdict p' rsp total, r = some (verdict, p', rsp, total) →
        verdict = .error ∧ Wedged p') m s := by
  cases fuel with
  | zero =>
    intro verdict p' rsp total h
    cases h
  | succ fuel =>
    have hprep : Wedged (prepare p (some ⟨0, some ⟨block, at_⟩⟩)) := by
      unfold prepare
      dsimp only
      rw [if_pos hidle]
      exact ⟨rfl, rfl⟩
    unfold again
    rw [wp_bind]
    refine wp_mono (wp_send_wedged hprep) fun r _ s' h => ?_
    refine wp_ite (fun _ => ?_) fun hok => absurd (not_not.1 hok) h.2.1
    intro verdict p' rsp total heq
    cases heq
    exact ⟨rfl, h.2.2⟩

theorem wp_transceive_empty {p : T1} {block : Nat} {buf : Bytes} (hbuf : EmptyFirst buf)
    (hidle : p.state = .idle) (hcur : block = s.serial) (hlive : s.live = some buf) :
    wp A (.each NotSent) (transceive turns fuel block buf.length p)
      (fun r _ _ => ∀ ret rsp p', r = some (ret, rsp, p') → Wedged p') m s := by
  obtain ⟨⟨hcount, hmax⟩, hseq, hempty, hlong, hfits⟩ := hbuf
  unfold transceive
  refine wp_ite (fun h => by omega) fun _ => ?_
  refine wp_ite (fun h => by unfold apduChainNumSize at h; omega) fun _ => ?_
  rw [wp_bind]
  refine wp_bigEndian_read hcur hlive (by omega) ?_
  refine wp_ite (fun h => by omega) fun _ => ?_
  rw [wp_bind]
  obtain ⟨left, hleft⟩ : ∃ left, readBe32 buf 0 = left + 1 := ⟨readBe32 buf 0 - 1, by omega⟩
  rw [hleft]
  unfold chain
  refine wp_ite (fun h => by unfold apduChainHeaderSize apduChainNumSize at h; omega) fun _ => ?_
  rw [wp_bind]
  refine wp_bigEndian_read hcur hlive (by unfold apduChainNumSize; omega) ?_
  refine wp_ite (fun h => absurd hseq h) fun _ => ?_
  rw [wp_bind]
  refine wp_bigEndian_read hcur hlive (by unfold apduChainNumSize; omega) ?_
  rw [wp_bind]
  refine wp_bigEndian_read hcur hlive (by unfold apduChainNumSize; omega) ?_
  have hdata : readBe32 buf (apduChainNumSize + 4) = 0 := hempty
  have hexpected : readBe32 buf (apduChainNumSize + 8) + 16 ≤ buf.length := hfits
  rw [hdata]
  dsimp only
  generalize hboth : (0 + readBe32 buf (apduChainNumSize + 8)) % 2 ^ 32 = both
  have hle : both ≤ readBe32 buf (apduChainNumSize + 8) := by
    rw [← hboth, Nat.zero_add]
    exact Nat.mod_le _ _
  refine wp_ite (fun h => by unfold apduChainHeaderSize apduChainNumSize at *; omega) fun _ => ?_
  rw [wp_bind]
  refine wp_mono (wp_again_empty hidle) fun r m' s' hr => ?_
  cases r with
  | none =>
    intro ret rsp p' h
    cases h
  | some r =>
    obtain ⟨verdict, p', rsp, total⟩ := r
    obtain ⟨rfl, hwedged⟩ := hr verdict p' rsp total rfl
    intro ret rsp q h
    cases h
    exact hwedged

theorem wp_kzallocCmd_accepted {buf : Bytes} (hlen : buf.length ≤ kmallocMaxSize)
    {Q : Option Nat → Unit → Mem → Prop} (h : Q (some (s.serial + 1)) m ⟨s.serial + 1, some buf⟩) :
    wp Accepted (.each NotSent) (Prog.perform (I := iface) (.kzallocCmd buf)) Q m s := by
  refine wp_mild (o := .kzallocCmd buf) lenient_notSent trivial fun i hi => ?_
  have hout : ∀ r : Option Nat × Mem, r = (some (s.serial + 1), ⟨s.serial + 1, some buf⟩) →
      Q r.1 m r.2 := by
    rintro r rfl
    exact h
  exact hout _ (if_pos ⟨hlen, hi hlen⟩)

/-- The write that does it. -/
theorem wp_write_empty {star : Star} {buf : Bytes} (hbuf : EmptyFirst buf)
    (hlen : buf.length ≤ kmallocMaxSize) (hidle : star.protocol.state = .idle)
    (hdirect : star.direct ≤ 0) :
    wp Accepted (.each NotSent) (starDevWrite turns fuel star buf) (fun r _ _ =>
      ∀ ret star', r = some (ret, star') → Wedged star'.protocol ∧ star'.direct ≤ 0) m s := by
  have hdrop : ∀ c : Prop, ∀ _ : Decidable c,
      (if c then star.dropRsp else star).protocol = star.protocol ∧
        (if c then star.dropRsp else star).direct = star.direct := by
    intro c _
    split <;> exact ⟨rfl, rfl⟩
  unfold starDevWrite
  refine wp_ite (fun h => by have := hbuf.fits.1; omega) fun _ => ?_
  obtain ⟨h1, h2⟩ := hdrop (star.rsp.isSome ∧ star.rspSize > 0) inferInstance
  dsimp only
  generalize (if star.rsp.isSome ∧ star.rspSize > 0 then star.dropRsp else star) = star₁ at *
  rw [wp_bind]
  refine wp_kzallocCmd_accepted hlen ?_
  dsimp only
  rw [wp_bind]
  have hwrite : wp Accepted (.each NotSent) (writeCmd turns fuel (s.serial + 1) star₁ buf)
      (fun r _ _ => ∀ ret star', r = some (ret, star') → Wedged star'.protocol ∧ star'.direct ≤ 0)
      m ⟨s.serial + 1, some buf⟩ := by
    unfold writeCmd
    rw [wp_bind, wp_perform]
    intro i hi
    refine ⟨trivial, ?_⟩
    have hcopied : (handle .copyFromUser i ⟨s.serial + 1, some buf⟩).1 = true :=
      Option.isNone_iff_eq_none.2 hi
    refine wp_ite (fun h => ?_) fun _ => ?_
    · rw [hcopied] at h
      cases h
    refine wp_ite (fun hpos => absurd hpos (Int.not_lt.2 (h2 ▸ hdirect))) fun _ => ?_
    dsimp only
    rw [wp_bind]
    refine wp_mono (wp_transceive_empty hbuf (h1 ▸ hidle) rfl rfl) fun r m' s' hr => ?_
    cases r with
    | none =>
      intro ret star' h
      cases h
    | some r =>
      obtain ⟨ret, rsp, p'⟩ := r
      have hwedged := hr ret rsp p' rfl
      refine wp_ite (fun _ => ?_) fun _ => ?_
      · intro ret star' h
        cases h
        exact ⟨hwedged, h2 ▸ hdirect⟩
      · intro ret star' h
        cases h
        exact ⟨hwedged, h2 ▸ hdirect⟩
  refine wp_mono hwrite fun r m' s' hr => ?_
  cases r with
  | none =>
    intro ret star' h
    cases h
  | some r =>
    obtain ⟨ret, star'⟩ := r
    refine (wp_bind _ _ _ _ _).2 (wp_mild (o := .kfreeCmd) lenient_notSent trivial fun i _ => ?_)
    intro ret' star'' h
    cases h
    exact hr ret star' rfl

/-- **An empty command is the last one.** When an idle protocol takes over a chain that begins with an
empty command, nothing is put on the bus by that write, and nothing by any call after it, whatever
comes of the calls, until the device is opened anew, the protocol is reset or `direct` is set. -/
theorem session_wedged {star : Star} {buf : Bytes} {calls : List Call} {ι : Nat → Input} {s : Mem}
    (hbuf : EmptyFirst buf) (hlen : buf.length ≤ kmallocMaxSize) (hidle : star.protocol.state = .idle)
    (hdirect : star.direct ≤ 0) (hcalls : ∀ call ∈ calls, call.Keeps)
    (hA : ∀ e ∈ (starDevWrite turns fuel star buf).trace world ι s, Accepted e) :
    ∀ e ∈ (session turns fuel (.devWrite buf :: calls) star).trace world ι s, NotSent e := by
  have hrest : ∀ {star₁ : Star} {s : Mem}, Wedged star₁.protocol → star₁.direct ≤ 0 → ∀ ι,
      ∀ e ∈ (session turns fuel calls star₁).trace world ι s, NotSent e := by
    intro star₁ s hwedged hdirect ι
    have hrule : wp (fun _ => True) (.each NotSent) (session turns fuel calls star₁)
        (fun _ _ _ => True) () s :=
      wp_mono (wp_session lenient_notSent exchange_wedged
        (fun call hcall hresets => absurd hresets (hcalls call hcall).1) (fun _ _ h => h)
        (fun call hcall => (hcalls call hcall).2) hdirect hwedged) fun _ _ _ _ => trivial
    exact Monitor.safe_each.1 (wp_sound hrule ι fun _ _ => trivial).1
  obtain ⟨hsafe, hpost⟩ := wp_sound (wp_write_empty (m := ()) hbuf hlen hidle hdirect) ι hA
  intro e he
  unfold session Call.run at he
  rw [bind_assoc, Prog.trace_bind] at he
  rcases List.mem_append.1 he with he | he
  · exact Monitor.safe_each.1 hsafe e he
  · cases hr : ((starDevWrite turns fuel star buf).run world ι s).1 with
    | none =>
      rw [hr] at he
      cases he
    | some r =>
      rw [hr] at he
      have hw := hpost r.1 r.2 hr
      exact hrest hw.1 hw.2 _ e he

/-- A chain of one empty command, of which one byte is expected. -/
def emptyCommand : Bytes := packBe32 1 ++ packBe32 0 ++ packBe32 0 ++ packBe32 1 ++ [7]

theorem session_wedged_emptyCommand :
    NotSent (((session 9 9 [.devWrite emptyCommand, .devWrite oneByte] Star.probed).trace world
      (fun _ => {}) ⟨0, none⟩).get ⟨12, by decide +kernel⟩) :=
  session_wedged ⟨by decide, by decide, by decide, by decide⟩ (by decide) rfl (Int.le_refl 0)
    (by
      intro call hcall
      rw [List.mem_singleton] at hcall
      subst hcall
      exact ⟨id, by decide⟩)
    (by decide +kernel) _ (List.get_mem _ _)

end Wedge

end Gts9Wifi.Snvm
