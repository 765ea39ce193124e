import Gts9Wifi.Snvm.Verify.Exchange

/-!
# What goes over the bus

`Blk` is a block of ISO 7816-3 in the standard's own terms, with the control byte it is written with,
and `Blk.read` reads one back with the tests that `iso7816_t1_decode_frame` makes. Every frame of the
driver is such a block, in whatever state the protocol is, and no reception runs past its buffer.
-/

namespace Gts9Wifi.Snvm

open Driver

/-! ## Blocks -/

/-- A block: information with its number and whether more follows, a receipt with the number that is
expected next, or supervision. -/
inductive Blk
  | info (number more : Bool) (inf : Bytes)
  | receipt (number : Bool) (error : RframeError)
  | supervision (type : SframeType) (inf : Bytes)
deriving DecidableEq

namespace Blk

/-- The control byte. -/
def pcb : Blk → UInt8
  | .info number more _ => (if more then 0x20 else 0) ||| (if number then 0x40 else 0)
  | .receipt number error => 0x80 ||| error.code ||| (if number then 0x10 else 0)
  | .supervision type _ => 0xC0 ||| type.code

/-- The information field. -/
def inf : Blk → Bytes
  | .info _ _ inf => inf
  | .receipt _ _ => []
  | .supervision _ inf => inf

/-- What a host may send. -/
def Valid : Blk → Prop
  | .info _ _ inf => 0 < inf.length ∧ inf.length ≤ protocolSendSize
  | .receipt _ error => error = .no ∨ error = .parity ∨ error = .other
  | .supervision _ inf => inf.length ≤ sframeMaxInfSize

/-- The error that the lowest bits of an R-block report. -/
def readError (pcb : UInt8) : RframeError :=
  if eseBit pcb 0 = 0 then if eseBit pcb 1 = 0 then .no else .other
  else if eseBit pcb 1 = 0 then .parity else .sofMissed

/-- The type of an S-block. -/
def readType (pcb : UInt8) : Option SframeType :=
  [.resynchReq, .resynchRsp, .ifscReq, .ifscRes, .abortReq, .abortRes, .wtxReq, .wtxRsp].find?
    fun type => pcb &&& 0x3F = type.code

/-- A frame read back: its length byte and its checksum are right, and the control byte is taken apart
bit by bit. -/
def read (data : Bytes) : Option Blk :=
  if checkLrc data = .success ∧ data.length = (data.getD 2 0).toNat + 4 then
    if eseBit (Snvm.pcb data) 7 = 0 then
      some (.info (eseBit (Snvm.pcb data) 6 ≠ 0) (eseBit (Snvm.pcb data) 5 ≠ 0) (infField data))
    else if eseBit (Snvm.pcb data) 6 = 0 then
      some (.receipt (eseBit (Snvm.pcb data) 4 ≠ 0) (readError (Snvm.pcb data)))
    else (readType (Snvm.pcb data)).map fun type => .supervision type (infField data)
  else none

end Blk

section Wire

variable {address b : UInt8} {inf : Bytes}

theorem length_frame : (frame address b inf).length = inf.length + 4 := by
  simp [frame]

theorem pcb_frame : pcb (frame address b inf) = b := rfl

theorem infField_frame : infField (frame address b inf) = inf := by
  unfold infField
  rw [length_frame]
  simp [frame, slice]

/-- The checksum of what was sent is right. -/
theorem checkLrc_frame : checkLrc (frame address b inf) = .success := by
  have hlast : (frame address b inf).getD ((frame address b inf).length - 1) 0 =
      computeLrc (address :: b :: UInt8.ofNat inf.length :: inf) 0 (inf.length + 3) := by
    rw [length_frame]
    simp [frame]
  have hhead : computeLrc (frame address b inf) 0 ((frame address b inf).length - 1) =
      computeLrc (address :: b :: UInt8.ofNat inf.length :: inf) 0 (inf.length + 3) := by
    unfold computeLrc
    rw [length_frame]
    simp [frame, slice]
  unfold checkLrc
  rw [if_neg (not_not.2 (hlast.trans hhead.symm))]

theorem Blk.length_inf_le {blk : Blk} (h : blk.Valid) : blk.inf.length ≤ protocolSendSize := by
  cases blk with
  | info number more inf => exact h.2
  | receipt number error => exact Nat.zero_le _
  | supervision type inf => exact Nat.le_trans h (by decide)

theorem info_bits (number more : Bool) (inf : Bytes) :
    eseBit (Blk.info number more inf).pcb 7 = 0 ∧
      decide (eseBit (Blk.info number more inf).pcb 6 ≠ 0) = number ∧
      decide (eseBit (Blk.info number more inf).pcb 5 ≠ 0) = more := by
  have hbits : ∀ number more : Bool,
      eseBit ((if more then 0x20 else 0) ||| (if number then 0x40 else 0)) 7 = 0 ∧
        decide (eseBit ((if more then 0x20 else 0) ||| (if number then 0x40 else 0)) 6 ≠ 0) = number ∧
        decide (eseBit ((if more then 0x20 else 0) ||| (if number then 0x40 else 0)) 5 ≠ 0) = more := by
    decide
  exact hbits number more

theorem receipt_bits (number : Bool) {error : RframeError}
    (h : error = .no ∨ error = .parity ∨ error = .other) :
    eseBit (Blk.receipt number error).pcb 7 ≠ 0 ∧ eseBit (Blk.receipt number error).pcb 6 = 0 ∧
      decide (eseBit (Blk.receipt number error).pcb 4 ≠ 0) = number ∧
      Blk.readError (Blk.receipt number error).pcb = error := by
  rcases h with rfl | rfl | rfl <;> cases number <;> decide

theorem supervision_bits (type : SframeType) (inf : Bytes) :
    eseBit (Blk.supervision type inf).pcb 7 ≠ 0 ∧ eseBit (Blk.supervision type inf).pcb 6 ≠ 0 ∧
      Blk.readType (Blk.supervision type inf).pcb = some type := by
  have hbits : eseBit (0xC0 ||| type.code) 7 ≠ 0 ∧ eseBit (0xC0 ||| type.code) 6 ≠ 0 ∧
      Blk.readType (0xC0 ||| type.code) = some type := by
    cases type <;> decide
  exact hbits

/-- **Reading back.** -/
theorem Blk.read_frame {blk : Blk} (h : blk.Valid) : Blk.read (frame address blk.pcb blk.inf) = some blk := by
  have hlen : (frame address blk.pcb blk.inf).length =
      ((frame address blk.pcb blk.inf).getD 2 0).toNat + 4 := by
    have hle := Blk.length_inf_le h
    unfold protocolSendSize at hle
    have hbyte : (frame address blk.pcb blk.inf).getD 2 0 = UInt8.ofNat blk.inf.length := rfl
    rw [length_frame, hbyte, UInt8.toNat_ofNat']
    omega
  unfold Blk.read
  rw [if_pos ⟨checkLrc_frame, hlen⟩, pcb_frame, infField_frame]
  cases blk with
  | info number more inf =>
    obtain ⟨h7, h6, h5⟩ := info_bits number more inf
    rw [if_pos h7, h6, h5]
    rfl
  | receipt number error =>
    obtain ⟨h7, h6, h4, herr⟩ := receipt_bits number h
    rw [if_neg h7, if_pos h6, h4, herr]
  | supervision type inf =>
    obtain ⟨h7, h6, htype⟩ := supervision_bits type inf
    rw [if_neg h7, if_neg h6, htype]
    rfl

end Wire

/-! ## The invariant -/

/-- A bit. -/
def Bit (b : UInt8) : Prop := b = 0 ∨ b = 1

theorem bit_xor {b : UInt8} (h : Bit b) : Bit (b ^^^ 1) := by
  rcases h with rfl | rfl
  · exact .inr rfl
  · exact .inl rfl

/-- What is next, or was last, can be sent as a block. -/
structure FrameInfo.Proper (f : FrameInfo) : Prop where
  seqNo : Bit f.iframe.seqNo
  sendSize : f.iframe.sendSize ≤ protocolSendSize
  error : f.rframe.error = .no ∨ f.rframe.error = .parity ∨ f.rframe.error = .other

/-- **The invariant** behind the format. -/
structure Framed (p : T1) : Prop where
  next : p.nextTx.Proper
  last : p.lastTx.Proper
  heard : Bit p.lastRx.iframe.seqNo
  address : p.sendAddress = sendAddress

namespace Framed

variable {p q : T1}

/-- What the invariant looks at. -/
theorem of_eq (h : Framed p) (h1 : q.nextTx.iframe = p.nextTx.iframe)
    (h2 : q.nextTx.rframe = p.nextTx.rframe) (h3 : q.lastTx = p.lastTx)
    (h4 : Bit q.lastRx.iframe.seqNo) (h5 : q.sendAddress = p.sendAddress) : Framed q where
  next := ⟨h1 ▸ h.next.seqNo, h1 ▸ h.next.sendSize, h2 ▸ h.next.error⟩
  last := h3 ▸ h.last
  heard := h4
  address := h5.trans h.address

theorem resetParams (h : Framed p) : Framed (resetParams p) where
  next := ⟨.inr rfl, h.next.sendSize, h.next.error⟩
  last := ⟨.inr rfl, h.last.sendSize, h.last.error⟩
  heard := .inr rfl
  address := h.address

theorem answer (h : Framed p) {error : RframeError}
    (herr : error = .no ∨ error = .parity ∨ error = .other) : Framed (p.answer error) :=
  ⟨⟨h.next.seqNo, h.next.sendSize, herr⟩, h.last, h.heard, h.address⟩

theorem supervise (h : Framed p) (type : SframeType) : Framed (p.supervise type) :=
  h.of_eq rfl rfl rfl h.heard rfl

theorem repeatLast (h : Framed p) : Framed (repeatLast p) := ⟨h.last, h.last, h.heard, h.address⟩

theorem recover {repair : T1 → T1} (h : Framed p) (hrepair : Framed (repair p)) :
    Framed (p.recover repair) := by
  unfold T1.recover
  split
  · exact hrepair.of_eq rfl rfl rfl hrepair.heard rfl
  · exact h.of_eq rfl rfl rfl h.heard rfl

theorem nextIframe (h : Framed p) : Framed (nextIframe p) := by
  unfold Snvm.nextIframe
  refine ⟨⟨?_, ?_, h.next.error⟩, h.last, h.heard, h.address⟩
  · dsimp only
    split <;> exact bit_xor h.last.seqNo
  · dsimp only
    split
    · exact Nat.le_refl _
    · next hle => exact Nat.le_of_not_lt hle

theorem repeatFor (h : Framed p) : Framed (repeatFor p) := by
  have hrepeat : Framed { Snvm.repeatLast p with
      state := .sendIframe, nextTx := { (Snvm.repeatLast p).nextTx with type := .iframe } } :=
    h.repeatLast.of_eq rfl rfl rfl h.heard rfl
  unfold Snvm.repeatFor
  split
  · exact hrepeat
  · split
    · exact hrepeat
    · split
      · exact h.answer (.inl rfl)
      · exact h.answer (.inr (.inr rfl))
  · exact h.repeatLast
  · exact h
  · exact h

theorem decodeRframe (h : Framed p) (b : UInt8) : Framed (decodeRframe p b) := by
  have hgot : Framed (gotRframe p b) := h.of_eq rfl rfl rfl h.heard rfl
  have hreported : ∀ error, Framed ((gotRframe p b).reported error) :=
    fun error => hgot.of_eq rfl rfl rfl hgot.heard rfl
  unfold Snvm.decodeRframe
  dsimp only
  split
  · unfold acknowledged
    dsimp only
    have hack : Framed { (gotRframe p b).reported .no with recoveryCounter := 0 } :=
      (hreported .no).of_eq rfl rfl rfl hgot.heard rfl
    split
    · exact hack.nextIframe
    · exact hack
  · split
    · exact (hreported _).recover (hreported _).repeatFor
    · split
      · exact hgot.recover (hreported _).repeatLast
      · exact hgot.recover (hreported _).repeatLast

theorem decodeSframe (h : Framed p) (b : UInt8) : Framed (decodeSframe p b) := by
  have hgot : Framed (gotSframe p b) := h.of_eq rfl rfl rfl h.heard rfl
  have hnoted : ∀ {q}, Framed q → ∀ type, Framed (q.supervised type) :=
    fun hq type => hq.of_eq rfl rfl rfl hq.heard rfl
  have hrest : ∀ type, Framed ((gotSframe p b).supervised type).rest :=
    fun type => (hnoted hgot type).of_eq rfl rfl rfl hgot.heard rfl
  unfold Snvm.decodeSframe
  dsimp only
  split_ifs
  · exact (hnoted hgot.resetParams _).supervise _
  · exact hrest _
  · exact hnoted hgot _
  · exact hrest _
  · exact hgot.recover hgot.repeatLast
  · exact (hnoted (hgot.of_eq (q := { gotSframe p b with
      wtxCounter := ((gotSframe p b).wtxCounter + 1) % 2 ^ 32 }) rfl rfl rfl hgot.heard rfl) _).supervise _
  · exact hnoted hgot _
  · exact hgot

theorem heardIframe (h : Framed p) (b : UInt8) : Framed (heardIframe p b) := by
  have hgot : Framed (gotIframe p) := h.of_eq rfl rfl rfl h.heard rfl
  unfold Snvm.heardIframe
  split
  · have hnew : Framed { gotIframe p with
        recoveryCounter := 0
        lastRx := { (gotIframe p).lastRx with
          iframe := { (gotIframe p).lastRx.iframe with
            seqNo := eseBit b 6, chain := eseBit b 5 ≠ 0 } } } :=
      hgot.of_eq rfl rfl rfl (eseBit_cases b 6) rfl
    unfold newIframe
    dsimp only
    split
    · exact hnew.answer (.inl rfl)
    · exact hnew.of_eq rfl rfl rfl (eseBit_cases b 6) rfl
  · exact hgot.recover (hgot.answer (.inr (.inr rfl)))

theorem reject (h : Framed p) {error : RframeError}
    (herr : error = .no ∨ error = .parity ∨ error = .other) : Framed (p.reject error) := by
  unfold T1.reject
  split
  · exact ⟨⟨h.next.seqNo, h.next.sendSize, herr⟩, h.last, h.heard, h.address⟩
  · exact h.of_eq rfl rfl rfl h.heard rfl

theorem nothing (h : Framed p) (status : EseStatus) : Framed (p.nothing status) := by
  have hreject : Framed (p.reject .other) := h.reject (.inr (.inr rfl))
  unfold T1.nothing
  split
  · split
    · exact hreject
    · exact hreject.of_eq rfl rfl rfl hreject.heard rfl
  · split
    · exact (h.of_eq (q := { p with timeoutCounter := p.timeoutCounter + 1 })
        rfl rfl rfl h.heard rfl).repeatLast
    · exact h.of_eq rfl rfl rfl h.heard rfl

theorem settled (h : Framed p) (data : Bytes) (status : EseStatus) : Framed (settled p data status) := by
  unfold Snvm.settled
  split
  · split
    · have hgood : Framed { p with timeoutCounter := 0, rnackCounter := 0 } :=
        h.of_eq rfl rfl rfl h.heard rfl
      unfold Snvm.heard
      split
      · exact hgood.heardIframe _
      · split
        · exact hgood.decodeRframe _
        · exact hgood.decodeSframe _
    · exact (h.of_eq (q := { p with timeoutCounter := 0 }) rfl rfl rfl h.heard rfl).reject
        (.inr (.inl rfl))
  · exact h.nothing _

theorem setIframe (hlast : p.lastTx.Proper)
    (herror : p.nextTx.rframe.error = .no ∨ p.nextTx.rframe.error = .parity ∨
      p.nextTx.rframe.error = .other)
    (hheard : Bit p.lastRx.iframe.seqNo) (haddress : p.sendAddress = Snvm.sendAddress) :
    Framed (setIframe p) := by
  unfold Snvm.setIframe
  refine ⟨⟨?_, ?_, herror⟩, hlast, hheard, haddress⟩
  · dsimp only
    split <;> exact bit_xor hlast.seqNo
  · dsimp only
    split
    · exact Nat.le_refl _
    · next hle => exact Nat.le_of_not_lt hle

theorem prepare (h : Framed p) (data : Option CmdData) : Framed (prepare p data) := by
  have hlast : ∀ {q : T1}, Framed q → Framed { q with lastTx := q.nextTx } :=
    fun hq => ⟨hq.next, hq.next, hq.heard, hq.address⟩
  unfold Snvm.prepare
  cases data with
  | none => exact hlast h
  | some data =>
    refine hlast ?_
    dsimp only
    split
    · exact setIframe h.last h.next.error h.heard h.address
    · exact h

theorem sent (h : Framed p) (hsent : Sent p q) : Framed q :=
  h.of_eq hsent.iframe hsent.rframe hsent.lastTx (hsent.lastRx ▸ h.heard) hsent.addresses.1

end Framed

/-! ## On the bus -/

/-- A frame that is a block, and a reception within its buffer. -/
def WireOk (e : Event world) : Prop :=
  match e.op with
  | .busSend buf =>
    ∃ blk : Blk, blk.Valid ∧ buf = frame sendAddress blk.pcb blk.inf ∧ Blk.read buf = some blk
  | .busReceive room off n => off + n ≤ room
  | .load (.frame data) off n => off + n ≤ data.length
  | _ => True

theorem lenient_wire : Lenient (.each WireOk) := by
  refine lenient_each fun o i s ho => ?_
  cases o with
  | load src off n =>
    cases src with
    | cmd block => trivial
    | frame data => exact ho
  | busReceive room off n => exact ho
  | busSend buf => exact ho.elim
  | _ => trivial

theorem iframePcb_eq {chain : Bool} {seqNo : UInt8} (h : Bit seqNo) (inf : Bytes) :
    iframePcb chain seqNo = (Blk.info (seqNo ≠ 0) chain inf).pcb := by
  have hbits : ∀ chain : Bool, iframePcb chain 0 = (if chain then 0x20 else 0) ||| 0 ∧
      iframePcb chain 1 = (if chain then 0x20 else 0) ||| 0x40 := by decide
  rcases h with rfl | rfl
  · exact (hbits chain).1
  · exact (hbits chain).2

theorem rframePcb_eq {seqNo : UInt8} {error : RframeError} (h : Bit seqNo)
    (herr : error = .no ∨ error = .parity ∨ error = .other) :
    rframePcb seqNo error = (Blk.receipt (seqNo = 0) error).pcb := by
  rcases h with rfl | rfl <;> rcases herr with rfl | rfl | rfl <;> decide

theorem sframePcb_eq (type : SframeType) (inf : Bytes) :
    sframePcb type = (Blk.supervision type inf).pcb := by
  have hbits : sframePcb type = 0xC0 ||| type.code := by cases type <;> decide
  exact hbits

theorem length_sframe_inf (sframe : SframeInfo) : sframe.inf.length ≤ sframeMaxInfSize := by
  unfold SframeInfo.inf
  split
  · split
    · exact Nat.le_trans (List.length_take_le _ _) (Nat.min_le_right _ _)
    · exact Nat.zero_le _
  · exact Nat.zero_le _

section Runs

variable {A : Event world → Prop} {m : Unit} {s : Mem}

theorem wp_transmit_block (blk : Blk) (h : blk.Valid) {buf : Bytes}
    (hbuf : buf = frame sendAddress blk.pcb blk.inf) {Q : EseStatus → Unit → Mem → Prop}
    (hQ : ∀ status, Q status m s) : wp A (.each WireOk) (transmit buf) Q m s := by
  have hok : ∀ i, WireOk ⟨.busSend buf, i, s⟩ := by
    intro i
    refine ⟨blk, h, hbuf, ?_⟩
    rw [hbuf]
    exact Blk.read_frame h
  refine wp_transmit (fun i _ => ⟨hok i, hQ⟩) ?_
  rw [hbuf]
  exact frame_ne_nil _ _ _

theorem wp_emission_framed {p : T1} (h : Framed p) {Q : EseStatus → Unit → Mem → Prop}
    (hQ : ∀ status, Q status m s) : wp A (.each WireOk) (emission p) Q m s := by
  unfold emission
  cases p.state with
  | idle => exact hQ _
  | sendRframe =>
    refine wp_transmit_block (.receipt (p.lastRx.iframe.seqNo = 0) p.nextTx.rframe.error)
      h.next.error ?_ hQ
    rw [h.address, rframePcb_eq h.heard h.next.error]
    rfl
  | sendSframe =>
    refine wp_transmit_block (.supervision p.nextTx.sframe.type p.nextTx.sframe.inf)
      (length_sframe_inf _) ?_ hQ
    rw [h.address, sframePcb_eq]
    rfl
  | sendIframe =>
    refine wp_ite (fun _ => hQ _) fun hsize => ?_
    cases p.nextTx.iframe.data with
    | none => exact hQ _
    | some ptr =>
      dsimp only
      rw [wp_bind, wp_perform]
      intro i _
      refine ⟨trivial, ?_⟩
      generalize (handle (.load (.cmd ptr.block) (ptr.off + p.nextTx.iframe.offset)
        p.nextTx.iframe.sendSize) i s).1 = inf
      obtain ⟨inf, hinf⟩ := inf
      refine wp_transmit_block (.info (p.nextTx.iframe.seqNo ≠ 0) p.nextTx.iframe.chain inf)
        ⟨?_, ?_⟩ ?_ hQ
      · rw [hinf]
        exact Nat.pos_of_ne_zero hsize
      · rw [hinf]
        exact h.next.sendSize
      · rw [h.address, iframePcb_eq h.next.seqNo inf]
        rfl

theorem exchange_framed :
    Exchange A (.each WireOk) (fun p _ => Framed p) (fun p _ => Framed p) Framed where
  send {p block pos size m s} hp _ := by
    have hprep := hp.prepare (some ⟨size, some ⟨block, pos⟩⟩)
    exact wp_send (wp_emission_framed hprep fun status q hq =>
      ⟨rfl, hprep.sent hq, fun _ => hprep.sent hq⟩)
  react {p data status m s} hdata hp := by
    have hsettled := hp.settled data status
    have hset : ∀ recvData, Framed ((settled p data status).hold recvData) :=
      fun recvData => hsettled.of_eq rfl rfl rfl hsettled.heard rfl
    refine wp_react lenient_wire.tolerant hdata (fun recvData _ _ _ _ => ⟨rfl, hset recvData⟩)
      fun recvData _ _ _ => ?_
    have hprep := (hset recvData).prepare none
    refine wp_send (wp_emission_framed hprep fun status q hq => ⟨rfl, ?_⟩)
    have hsent := hprep.sent hq
    split
    · exact hsent.of_eq rfl rfl rfl hsent.heard rfl
    · exact hsent
  finish hp _ := ⟨hp.of_eq rfl rfl rfl hp.heard rfl, hp.of_eq rfl rfl rfl hp.heard rfl⟩
  start_done hp := hp

end Runs

theorem framed_probed : Framed Star.probed.protocol where
  next := ⟨.inr rfl, Nat.zero_le _, .inl rfl⟩
  last := ⟨.inr rfl, Nat.zero_le _, .inl rfl⟩
  heard := .inr rfl
  address := rfl

/-- **Only blocks go over the bus.** In every run of the device in protocol mode, whatever the card and
the kernel do, each frame that is sent is a block of the standard with the host's address, which the
host's own reader would take for that block; and no reception and no copy of one leaves its buffer. -/
theorem session_frames {turns fuel : Nat} {calls : List Call}
    (hcalls : ∀ call ∈ calls, call ≠ .devIoctl .setDirect) (ι : Nat → Input) (m : Mem) :
    ∀ e ∈ (session turns fuel calls Star.probed).trace world ι m, WireOk e := by
  have hsession : wp (fun _ => True) (.each WireOk) (session turns fuel calls Star.probed)
      (fun r _ _ => ∀ star', r = some star' → Framed star'.protocol) () m :=
    wp_session lenient_wire exchange_framed (fun _ _ _ _ h => h.resetParams) (fun _ _ h => h) hcalls
      (Int.le_refl 0) framed_probed
  exact Monitor.safe_each.1 (wp_sound hsession ι fun _ _ => trivial).1

/-- A write of which the only frame cannot be sent. -/
def failedWrite : List (Event world) :=
  (session 9 9 [.devOpen, .devWrite (packBe32 1 ++ packBe32 0 ++ packBe32 1 ++ packBe32 0 ++ [7]), .devClose]
    Star.probed).trace world (fun n => { fault := if n < 8 then none else some .eio }) ⟨0, none⟩

theorem session_frames_failedWrite : WireOk (failedWrite.get ⟨8, by decide +kernel⟩) :=
  session_frames (by decide) _ _ _ (List.get_mem _ _)

end Gts9Wifi.Snvm
