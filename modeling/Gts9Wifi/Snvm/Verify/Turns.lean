import Gts9Wifi.Snvm.Iso7816T1

/-!
# What a reception does to the protocol

All of `iso7816_t1_process` but its bus transfers and the copy of the information field is a function
of the bytes that came: `settled`, beside the received data, which `taken` adds to. `wp_settle` says
so once for every monitor that does not mind transfers and copies inside of their buffers. `turns` is
the loop of `iso7816_t1_receive` with a record of what each turn met.
-/

namespace Gts9Wifi.Snvm

open Driver

/-! ## Receptions -/

/-- The operations of a reception, inside of their buffers. -/
def Quiet : Op → Prop
  | .kzalloc _ => True
  | .busReceive room off n => off + n ≤ room
  | .load (.frame data) off n => off + n ≤ data.length
  | _ => False

/-- The monitor accepts receptions and stays where it is. -/
def Tolerant (M : Monitor world) : Prop :=
  ∀ m o i s, Quiet o → M.ok m ⟨o, i, s⟩ ∧ M.step m ⟨o, i, s⟩ = m

/-- Small requests for memory are granted. -/
def Ample (A : Event world → Prop) : Prop := ∀ size i s, A ⟨.kzalloc size, i, s⟩ → i.fault = none

section Reception

variable {A : Event world → Prop} {M : Monitor world} {m : M.St} {s : Mem}

theorem wp_quiet {o : Op} (hM : Tolerant M) (ho : Quiet o) {Q : o.Ans → M.St → Mem → Prop}
    (h : ∀ i, A ⟨o, i, s⟩ → Q (handle o i s).1 m (handle o i s).2) :
    wp A M (Prog.perform (I := iface) o) Q m s := by
  intro i hi
  obtain ⟨hok, hstep⟩ := hM m o i s ho
  refine ⟨hok, ?_⟩
  rw [hstep]
  exact h i hi

/-- A reception into a buffer that holds it. -/
theorem wp_eseHalReceive (hM : Tolerant M) {room off n : Nat} (hroom : off + n ≤ room)
    {Q : Except Errno (Block n) → M.St → Mem → Prop} (h : ∀ r, Q r m s) :
    wp A M (eseHalReceive room off n) Q m s := by
  unfold eseHalReceive
  exact wp_ite (fun _ => h _) fun _ => wp_quiet (o := .busReceive room off n) hM hroom fun i _ => h _

theorem wp_pollAddress (hM : Tolerant M) {address : UInt8} {n : Nat}
    {Q : Except EseStatus Unit → M.St → Mem → Prop} (h : ∀ r, Q r m s) :
    wp A M (pollAddress address n) Q m s := by
  induction n with
  | zero => exact h _
  | succ n ih =>
    unfold pollAddress
    rw [wp_bind]
    refine wp_eseHalReceive hM (by decide) fun r => ?_
    cases r with
    | error e => exact h _
    | ok data =>
      refine wp_ite (fun _ => h _) fun _ => ?_
      exact wp_ite (fun _ => h _) fun _ => ih

/-- Whatever comes is no longer than a frame. -/
theorem wp_receiveFrame (hM : Tolerant M) {p : T1} {Q : Bytes × EseStatus → M.St → Mem → Prop}
    (h : ∀ data status, data.length ≤ 259 → Q (data, status) m s) :
    wp A M (receiveFrame p) Q m s := by
  unfold receiveFrame
  rw [wp_bind]
  refine wp_pollAddress hM fun r => ?_
  cases r with
  | error status => exact h _ _ (by simp)
  | ok u =>
    simp only
    rw [wp_bind]
    refine wp_eseHalReceive hM (by decide) fun r => ?_
    cases r with
    | error e => exact h _ _ (by simp)
    | ok header =>
      have hlen : (header.1.getD 1 0).toNat < 256 := (header.1.getD 1 0).toNat_lt
      simp only
      rw [wp_bind]
      refine wp_eseHalReceive hM (by unfold procBufSize; omega) fun r => ?_
      cases r with
      | error e => exact h _ _ (by simp [header.2])
      | ok rest =>
        refine h _ _ ?_
        simp only [List.length_cons, List.length_append, header.2, rest.2]
        omega

end Reception

/-! ## Blocks that came -/

/-- An I-block with the other number than the last one. -/
def News (p : T1) (data : Bytes) : Prop :=
  checkLrc data = .success ∧ eseBit (pcb data) 7 = 0 ∧ p.lastRx.iframe.seqNo ≠ eseBit (pcb data) 6

instance instDecidableNews (p : T1) (data : Bytes) : Decidable (News p data) :=
  inferInstanceAs (Decidable (_ ∧ _ ∧ _))

/-- The information field of a frame. -/
def infField (data : Bytes) : Bytes := slice data 3 (data.length - 4)

/-- The received data after a frame, if there is memory for it. The field of an I-block of which no
more than the header came is lost, for want of 4 GiB of memory. -/
def taken (p : T1) (data : Bytes) : DataList :=
  if News p data ∧ 4 ≤ data.length then
    ⟨(p.recvData.size + (infField data).length) % 2 ^ 32, p.recvData.packets ++ [infField data]⟩
  else p.recvData

theorem taken_of_not_news {p : T1} {data : Bytes} (h : ¬ News p data) : taken p data = p.recvData :=
  if_neg fun hnews => h hnews.1

/-- The protocol object with other received data. -/
def T1.hold (p : T1) (recvData : DataList) : T1 := { p with recvData }

theorem hold_of_eq {p : T1} {recvData : DataList} (h : p.recvData = recvData) :
    p.hold recvData = p := by
  rw [← h]
  rfl

/-- An I-block. -/
def heardIframe (p : T1) (pcb : UInt8) : T1 :=
  if p.lastRx.iframe.seqNo ≠ eseBit pcb 6 then newIframe (gotIframe p) pcb
  else (gotIframe p).recover fun p => p.answer .other

/-- Any block. -/
def heard (p : T1) (pcb : UInt8) : T1 :=
  if eseBit pcb 7 = 0 then heardIframe p pcb
  else if eseBit pcb 6 = 0 then decodeRframe p pcb
  else decodeSframe p pcb

/-- Any reception. -/
def settled (p : T1) (data : Bytes) (status : EseStatus) : T1 :=
  if data.length > 0 then
    if checkLrc data = .success then heard { p with timeoutCounter := 0, rnackCounter := 0 } (pcb data)
    else { p with timeoutCounter := 0 }.reject .parity
  else p.nothing status

theorem eseBit_cases (b n : UInt8) : eseBit b n = 0 ∨ eseBit b n = 1 := by
  have h : (eseBit b n).toNat = (b >>> n).toNat % 2 := by
    unfold eseBit
    rw [UInt8.toNat_and]
    exact Nat.and_two_pow_sub_one_eq_mod _ 1
  rcases Nat.mod_two_eq_zero_or_one (b >>> n).toNat with h' | h'
  · exact .inl (UInt8.toNat_inj.1 (h.trans h'))
  · exact .inr (UInt8.toNat_inj.1 (h.trans h'))

theorem eseBit_eq_one_iff {b n : UInt8} : eseBit b n = 1 ↔ eseBit b n ≠ 0 := by
  rcases eseBit_cases b n with h | h <;> simp [h]

/-! ## The received data is nobody else's -/

section Kept

variable (p : T1)

theorem recover_recvData {p : T1} {repair : T1 → T1} (h : (repair p).recvData = p.recvData) :
    (p.recover repair).recvData = p.recvData := by
  unfold T1.recover
  split
  · exact h
  · rfl

theorem repeatFor_recvData : (repeatFor p).recvData = p.recvData := by
  unfold repeatFor
  split
  · rfl
  · split
    · rfl
    · split <;> rfl
  · rfl
  · rfl
  · rfl

theorem newIframe_recvData (b : UInt8) : (newIframe p b).recvData = p.recvData := by
  unfold newIframe
  dsimp only
  split <;> rfl

theorem heardIframe_recvData (b : UInt8) : (heardIframe p b).recvData = p.recvData := by
  unfold heardIframe
  split
  · exact newIframe_recvData _ b
  · exact recover_recvData rfl

theorem acknowledged_recvData : (acknowledged p).recvData = p.recvData := by
  unfold acknowledged
  dsimp only
  split <;> rfl

theorem decodeRframe_recvData (b : UInt8) : (decodeRframe p b).recvData = p.recvData := by
  unfold decodeRframe
  dsimp only
  split
  · exact acknowledged_recvData _
  · split
    · exact recover_recvData (repeatFor_recvData _)
    · split <;> exact recover_recvData rfl

theorem decodeSframe_recvData (b : UInt8) : (decodeSframe p b).recvData = p.recvData := by
  unfold decodeSframe
  dsimp only
  split_ifs
  all_goals first | rfl | exact recover_recvData rfl

theorem heard_recvData (b : UInt8) : (heard p b).recvData = p.recvData := by
  unfold heard
  split
  · exact heardIframe_recvData p b
  · split
    · exact decodeRframe_recvData p b
    · exact decodeSframe_recvData p b

theorem reject_recvData (error : RframeError) : (p.reject error).recvData = p.recvData := by
  unfold T1.reject
  split <;> rfl

theorem nothing_recvData (status : EseStatus) : (p.nothing status).recvData = p.recvData := by
  unfold T1.nothing
  split
  · split <;> exact reject_recvData p _
  · split <;> rfl

end Kept

section Process

variable {A : Event world → Prop} {M : Monitor world} {m : M.St} {s : Mem}

/-- What memory there is for a packet decides whether it is stored. -/
theorem wp_eseDataStoreCopy (hM : Tolerant M) {head : DataList} {data : Bytes} {off n : Nat}
    (hn : n ≤ kmallocMaxSize → off + n ≤ data.length) {Q : EseStatus × DataList → M.St → Mem → Prop}
    (hkept : (Ample A → kmallocMaxSize < n) → Q (.memoryAllocationFail, head) m s)
    (hstored : n ≤ kmallocMaxSize →
      Q (.success, ⟨(head.size + n) % 2 ^ 32, head.packets ++ [slice data off n]⟩) m s) :
    wp A M (eseDataStoreCopy head (.frame data) off n) Q m s := by
  unfold eseDataStoreCopy
  rw [wp_bind]
  refine wp_quiet (o := .kzalloc sizeofDataList) hM trivial fun i hi => ?_
  refine wp_ite (fun hfail => hkept fun hA => ?_) fun _ => ?_
  · simp [handle, hA _ _ _ hi, sizeofDataList, kmallocMaxSize] at hfail
  · rw [wp_bind]
    refine wp_quiet (o := .kzalloc n) hM trivial fun i hi => ?_
    refine wp_ite (fun hfail => hkept fun hA => ?_) fun hgot => ?_
    · simpa [handle, hA _ _ _ hi] using hfail
    · have hle : n ≤ kmallocMaxSize := by
        simp only [handle, Bool.not_eq_true', Bool.not_eq_false, Bool.and_eq_true,
          decide_eq_true_eq] at hgot
        exact hgot.1
      rw [wp_bind]
      refine wp_quiet (o := .load (.frame data) off n) hM (hn hle) fun i hi => ?_
      have hcopy : (copied (some data) off n i).1 = slice data off n := by
        unfold copied
        rw [dif_pos ⟨data, rfl, hn hle⟩]
        rfl
      have hpacket := hstored hle
      rw [← hcopy] at hpacket
      exact hpacket

theorem wp_decodeIframe (hM : Tolerant M) {p : T1} {data : Bytes} (hdata : data.length ≤ 259)
    (hpos : 0 < data.length) (hlrc : checkLrc data = .success) (h7 : eseBit (pcb data) 7 = 0)
    {Q : EseStatus × T1 → M.St → Mem → Prop}
    (h : ∀ status recvData, recvData = p.recvData ∨ recvData = taken p data →
      (Ample A → recvData = taken p data) →
      Q (status, (heardIframe p (pcb data)).hold recvData) m s) :
    wp A M (decodeIframe p data) Q m s := by
  unfold decodeIframe
  refine wp_ite (fun hseq => ?_) fun hseq => ?_
  · have hheard : heardIframe p (pcb data) = newIframe (gotIframe p) (pcb data) := if_pos hseq
    have hnews : News p data := ⟨hlrc, h7, hseq⟩
    rw [hheard] at h
    dsimp only
    rw [newIframe_recvData, wp_bind]
    refine wp_eseDataStoreCopy hM (fun hn => ?_) (fun hn => ?_) fun hn => ?_
    · unfold kmallocMaxSize at hn
      omega
    · refine h _ _ (.inl rfl) fun hA => ?_
      have hshort := hn hA
      unfold kmallocMaxSize at hshort
      unfold taken
      rw [if_neg]
      · rfl
      · omega
    · unfold kmallocMaxSize at hn
      have hsize : (data.length + 2 ^ 32 - 4) % 2 ^ 32 = data.length - 4 := by omega
      have htaken : taken p data = ⟨(p.recvData.size + (data.length - 4)) % 2 ^ 32,
          p.recvData.packets ++ [infField data]⟩ := by
        unfold taken
        rw [if_pos ⟨hnews, by omega⟩, infField, length_slice (by omega)]
      rw [hsize]
      refine h _ _ (.inr ?_) fun _ => ?_
      · exact htaken.symm
      · exact htaken.symm
  · have hold : taken p data = p.recvData := taken_of_not_news fun hnews => hseq hnews.2.2
    have hheard : heardIframe p (pcb data) = (gotIframe p).recover fun p => p.answer .other :=
      if_neg hseq
    have hrun := h .success p.recvData (.inl rfl) fun _ => hold.symm
    rw [hold_of_eq (heardIframe_recvData _ _), hheard] at hrun
    exact hrun

/-- A good frame. -/
theorem wp_decodeFrame (hM : Tolerant M) {p : T1} {data : Bytes} (hdata : data.length ≤ 259)
    (hpos : 0 < data.length) (hlrc : checkLrc data = .success)
    {Q : EseStatus × T1 → M.St → Mem → Prop}
    (h : ∀ status recvData, recvData = p.recvData ∨ recvData = taken p data →
      (Ample A → recvData = taken p data) → Q (status, (heard p (pcb data)).hold recvData) m s) :
    wp A M (decodeFrame p data) Q m s := by
  unfold decodeFrame
  refine wp_ite (fun h7 => ?_) fun h7 => ?_
  · have hheard : heard p (pcb data) = heardIframe p (pcb data) := if_pos h7
    rw [hheard] at h
    exact wp_decodeIframe hM hdata hpos hlrc h7 h
  · have hold : taken p data = p.recvData := taken_of_not_news fun hnews => h7 hnews.2.1
    have hrun := h .success p.recvData (.inl rfl) fun _ => hold.symm
    have hheard : heard p (pcb data) =
        if eseBit (pcb data) 6 = 0 then decodeRframe p (pcb data) else decodeSframe p (pcb data) :=
      if_neg h7
    rw [hold_of_eq (heard_recvData _ _), hheard] at hrun
    refine wp_ite (fun h6 => ?_) fun h6 => ?_
    · rw [if_pos h6.2] at hrun
      exact hrun
    · have h6' : eseBit (pcb data) 6 ≠ 0 := fun h6' => h6 ⟨eseBit_eq_one_iff.2 h7, h6'⟩
      rw [if_neg h6'] at hrun
      refine wp_ite (fun _ => hrun) fun h67 => ?_
      exact absurd ⟨eseBit_eq_one_iff.2 h7, eseBit_eq_one_iff.2 h6'⟩ h67

/-- **What a reception does.** The state is a function of what came; the received data is that of
`taken`, or for want of memory what it was. -/
theorem wp_settle (hM : Tolerant M) {p : T1} {data : Bytes} {status : EseStatus}
    (hdata : data.length ≤ 259) {Q : EseStatus × T1 → M.St → Mem → Prop}
    (h : ∀ recvData, recvData = p.recvData ∨ recvData = taken p data →
      (Ample A → recvData = taken p data) →
      Q (if data.length > 0 then checkLrc data else status, (settled p data status).hold recvData) m s) :
    wp A M (settle p (data, status)) Q m s := by
  unfold settle
  refine wp_ite (fun hpos => ?_) fun hpos => ?_
  · refine wp_ite (fun hlrc => ?_) fun hlrc => ?_
    · have hsettled : settled p data status =
          heard { p with timeoutCounter := 0, rnackCounter := 0 } (pcb data) :=
        (if_pos hpos).trans (if_pos hlrc)
      rw [wp_bind]
      refine wp_decodeFrame hM hdata hpos hlrc fun status' recvData h1 h2 => ?_
      have hrun := h recvData h1 h2
      rw [if_pos hpos, hlrc, hsettled] at hrun
      exact hrun
    · have hold : taken p data = p.recvData := taken_of_not_news fun hnews => hlrc hnews.1
      have hfailed : checkLrc data = .failed := by
        unfold checkLrc at hlrc ⊢
        split
        · rfl
        · next heq => exact absurd (if_neg heq) hlrc
      have hsettled : settled p data status = { p with timeoutCounter := 0 }.reject .parity :=
        (if_pos hpos).trans (if_neg hlrc)
      have hrun := h p.recvData (.inl rfl) fun _ => hold.symm
      rw [if_pos hpos, hfailed, hsettled, hold_of_eq (reject_recvData _ _)] at hrun
      exact hrun
  · have hempty : data = [] := List.length_eq_zero_iff.1 (Nat.eq_zero_of_not_pos hpos)
    have hold : taken p data = p.recvData := by
      unfold taken
      rw [if_neg]
      rintro ⟨-, hlen⟩
      rw [hempty] at hlen
      exact absurd hlen (by decide)
    have hsettled : settled p data status = p.nothing status := if_neg hpos
    have hrun := h p.recvData (.inl rfl) fun _ => hold.symm
    rw [if_neg hpos, hsettled, hold_of_eq (nothing_recvData _ _)] at hrun
    exact hrun

/-- A transfer to the card is one operation, whose failure is only reported. -/
theorem wp_transmit {buf : Bytes} {Q : EseStatus → M.St → Mem → Prop}
    (h : ∀ i, A ⟨.busSend buf, i, s⟩ →
      M.ok m ⟨.busSend buf, i, s⟩ ∧ ∀ status, Q status (M.step m ⟨.busSend buf, i, s⟩) s)
    (hne : buf ≠ []) : wp A M (transmit buf) Q m s := by
  unfold transmit eseHalSend
  rw [wp_bind]
  refine wp_ite (fun hlen => absurd (List.length_eq_zero_iff.1 hlen) hne) fun _ => ?_
  rw [wp_bind, wp_perform]
  intro i hi
  obtain ⟨hok, hQ⟩ := h i hi
  refine ⟨hok, ?_⟩
  simp only [handle, Input.answer]
  cases i.fault with
  | some e => exact wp_ite (fun _ => hQ _) fun _ => hQ _
  | none => exact wp_ite (fun _ => hQ _) fun _ => hQ _

theorem frame_ne_nil (address pcb : UInt8) (inf : Bytes) : frame address pcb inf ≠ [] := by
  simp [frame]

end Process

/-! ## Transmissions -/

/-- What a transmission puts on the bus. -/
def emission (p : T1) : Prog iface EseStatus :=
  match p.state with
  | .idle => pure .failed
  | .sendRframe =>
    transmit (frame p.sendAddress (rframePcb p.lastRx.iframe.seqNo p.nextTx.rframe.error) [])
  | .sendSframe => transmit (frame p.sendAddress (sframePcb p.nextTx.sframe.type) p.nextTx.sframe.inf)
  | .sendIframe =>
    if p.nextTx.iframe.sendSize = 0 then pure .invalidSendLength
    else match p.nextTx.iframe.data with
      | none => pure .notEnoughMemory
      | some ptr => do
        let inf ← Prog.perform (I := iface)
          (.load (.cmd ptr.block) (ptr.off + p.nextTx.iframe.offset) p.nextTx.iframe.sendSize)
        transmit (frame p.sendAddress (iframePcb p.nextTx.iframe.chain p.nextTx.iframe.seqNo) inf.1)

/-- What it leaves behind: little is changed. -/
structure Sent (p q : T1) : Prop where
  lastTx : q.lastTx = p.lastTx
  iframe : q.nextTx.iframe = p.nextTx.iframe
  rframe : q.nextTx.rframe = p.nextTx.rframe
  lastRx : q.lastRx = p.lastRx
  recvData : q.recvData = p.recvData
  counters : q.recoveryCounter = p.recoveryCounter ∧ q.rnackCounter = p.rnackCounter ∧
    q.timeoutCounter = p.timeoutCounter
  state : q.state = p.state
  addresses : q.sendAddress = p.sendAddress ∧ q.receiveAddress = p.receiveAddress

/-- The protocol object with a frame sent. -/
def T1.sent (p : T1) (lastFrame : FrameType) (sendSize : Nat) : T1 :=
  { p with
    lastFrame
    nextTx := { p.nextTx with sframe := { p.nextTx.sframe with sendSize } } }

theorem sent_sent (p : T1) (lastFrame : FrameType) (sendSize : Nat) :
    Sent p (p.sent lastFrame sendSize) where
  lastTx := rfl
  iframe := rfl
  rframe := rfl
  lastRx := rfl
  recvData := rfl
  counters := ⟨rfl, rfl, rfl⟩
  state := rfl
  addresses := ⟨rfl, rfl⟩

theorem sendNext_eq (p : T1) : ∃ q, Sent p q ∧ sendNext p = (do return (← emission p, q)) := by
  unfold sendNext emission
  cases hstate : p.state with
  | idle =>
    refine ⟨_, sent_sent p p.lastFrame p.nextTx.sframe.sendSize, ?_⟩
    have hsame : ({ p with state := .idle } : T1) = p := by rw [← hstate]
    exact congrArg (fun q => (pure (EseStatus.failed, q) : Prog iface _)) hsame
  | sendRframe => exact ⟨_, sent_sent p _ p.nextTx.sframe.sendSize, rfl⟩
  | sendSframe => exact ⟨_, sent_sent p .sframe _, rfl⟩
  | sendIframe =>
    unfold sendIframe
    dsimp only
    by_cases hsize : p.nextTx.iframe.sendSize = 0
    · refine ⟨_, sent_sent p p.lastFrame p.nextTx.sframe.sendSize, ?_⟩
      rw [if_pos hsize, if_pos hsize]
      rfl
    · rw [if_neg hsize, if_neg hsize]
      cases p.nextTx.iframe.data with
      | none => exact ⟨_, sent_sent p p.lastFrame p.nextTx.sframe.sendSize, rfl⟩
      | some ptr => exact ⟨_, sent_sent p .iframe p.nextTx.sframe.sendSize, rfl⟩

/-- **A transmission** is the emission of the frame that is next. -/
theorem wp_send {A : Event world → Prop} {M : Monitor world} {m : M.St} {s : Mem} {p : T1}
    {data : Option CmdData} {Q : EseStatus × T1 → M.St → Mem → Prop}
    (h : wp A M (emission (prepare p data)) (fun status m s =>
      ∀ q, Sent (prepare p data) q → Q (status, q) m s) m s) :
    wp A M (send p data) Q m s := by
  obtain ⟨q, hq, hsend⟩ := sendNext_eq (prepare p data)
  rw [send, hsend, wp_bind]
  exact wp_mono h fun status m s hQ => hQ q hq

theorem wp_emission_idle {A : Event world → Prop} {m : Unit} {s : Mem} {p : T1}
    {Q : EseStatus → Unit → Mem → Prop} (h : ∀ status, Q status m s) :
    wp A (.idle world) (emission p) Q m s := by
  have htransmit : ∀ buf, buf ≠ [] → wp A (.idle world) (transmit buf) Q m s :=
    fun buf hne => wp_transmit (fun _ _ => ⟨trivial, h⟩) hne
  unfold emission
  cases p.state with
  | idle => exact h _
  | sendRframe => exact htransmit _ (frame_ne_nil _ _ _)
  | sendSframe => exact htransmit _ (frame_ne_nil _ _ _)
  | sendIframe =>
    refine wp_ite (fun _ => h _) fun _ => ?_
    cases p.nextTx.iframe.data with
    | none => exact h _
    | some ptr =>
      dsimp only
      rw [wp_bind, wp_perform]
      exact fun i _ => ⟨trivial, htransmit _ (frame_ne_nil _ _ _)⟩

/-! ## The loop with a record -/

/-- What one turn met: the state before it, and what came. -/
structure Met where
  before : T1
  data : Bytes
  status : EseStatus

/-- The loop of `iso7816_t1_receive` with a record of its turns. -/
def turns : Nat → T1 → Prog iface (List Met × Option (EseStatus × T1))
  | 0, _ => pure ([], none)
  | fuel + 1, p => do
    let got ← receiveFrame p
    let (status, p') ← react p got
    if p'.state ≠ .idle then
      let (met, result) ← turns fuel p'
      return (⟨p, got.1, got.2⟩ :: met, result)
    else return ([⟨p, got.1, got.2⟩], some (status, p'))

/-- The record changes nothing. -/
theorem turns_receiveLoop (fuel : Nat) (p : T1) :
    (do return (← turns fuel p).2) = receiveLoop fuel p := by
  induction fuel generalizing p with
  | zero => rfl
  | succ fuel ih =>
    simp only [turns, receiveLoop, turn, bind_assoc]
    refine bind_congr fun got => bind_congr fun r => ?_
    split
    · rw [← ih, bind_assoc]
      rfl
    · rfl

section Loop

variable {A : Event world → Prop} {M : Monitor world}

/-- One turn of the loop keeps a property `J` of the state and the monitor, or ends it. -/
theorem wp_react (hM : Tolerant M) {m : M.St} {s : Mem} {p : T1} {data : Bytes} {status : EseStatus}
    (hdata : data.length ≤ 259) {Q : EseStatus × T1 → M.St → Mem → Prop}
    (hidle : ∀ recvData, recvData = p.recvData ∨ recvData = taken p data →
      (Ample A → recvData = taken p data) → (settled p data status).state = .idle →
      ∀ status', Q (status', (settled p data status).hold recvData) m s)
    (hsend : ∀ recvData, recvData = p.recvData ∨ recvData = taken p data →
      (Ample A → recvData = taken p data) → (settled p data status).state ≠ .idle →
      wp A M (send ((settled p data status).hold recvData) none)
        (fun r m s => Q (r.1, if r.1 ≠ .success then { r.2 with state := .idle } else r.2) m s) m s) :
    wp A M (react p (data, status)) Q m s := by
  unfold react
  rw [wp_bind]
  refine wp_settle hM hdata fun recvData h1 h2 => ?_
  refine wp_ite (fun hne => ?_) fun heq => ?_
  · rw [wp_bind]
    exact hsend recvData h1 h2 hne
  · exact hidle recvData h1 h2 (not_not.1 heq) _

end Loop

end Gts9Wifi.Snvm
