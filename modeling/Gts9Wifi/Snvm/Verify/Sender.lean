import Gts9Wifi.Snvm.Verify.Frames
import Gts9Wifi.Lib.AlternatingBit
import Gts9Wifi.Lib.Pieces

/-!
# The command arrives in pieces

The I-blocks of one exchange, as a card hears them that goes by their numbers. While the card does not
acknowledge the last piece as if there were another, it hears the pieces of the command in order, one
more for each acknowledgement, and all copies from the command stay inside of it. An acknowledgement
of the last piece makes the driver go on behind the command's end.
-/

namespace Gts9Wifi.Snvm

open Driver

/-! ## Pieces -/

/-- A piece of a command, and whether more follows. -/
def segment (cmd : Bytes) (k : Nat) : Bytes × Bool :=
  (piece protocolSendSize cmd k, decide (protocolSendSize * (k + 1) < cmd.length))

def segments (cmd : Bytes) : List (Bytes × Bool) :=
  (List.range (pieceCount protocolSendSize cmd)).map (segment cmd)

/-- The pieces of a command are the command. -/
theorem segments_flatten (cmd : Bytes) : ((segments cmd).map (·.1)).flatten = cmd := by
  rw [segments, List.map_map]
  exact flatten_pieces (by decide)

theorem drop_segments {cmd : Bytes} {k : Nat} (h : protocolSendSize * k < cmd.length) :
    (segments cmd).drop k = segment cmd k :: (segments cmd).drop (k + 1) :=
  drop_map_range _ ((lt_pieceCount_iff (by decide)).2 h)

/-- What is next when the `k`-th piece of a command is. -/
def pieceInfo (ptr : Ptr) (size k : Nat) (seqNo : UInt8) : IframeInfo where
  data := some ptr
  offset := protocolSendSize * k
  totalSize :=
    if protocolSendSize * (k + 1) < size then size - protocolSendSize * (k + 1)
    else size - protocolSendSize * k
  sendSize := min protocolSendSize (size - protocolSendSize * k)
  chain := decide (protocolSendSize * (k + 1) < size)
  seqNo

theorem setIframe_piece (p : T1) {ptr : Ptr} {size : Nat} (hdata : p.nextTx.iframe.data = some ptr)
    (hsize : p.nextTx.iframe.totalSize = size) :
    (setIframe p).nextTx.iframe = pieceInfo ptr size 0 (p.lastTx.iframe.seqNo ^^^ 1) := by
  subst hsize
  unfold setIframe pieceInfo protocolSendSize
  dsimp only
  split
  · next h => simp [hdata, h, Nat.min_eq_left (Nat.le_of_lt h)]
  · next h => simp [hdata, h, Nat.min_eq_right (Nat.le_of_not_lt h)]

theorem nextIframe_piece (p : T1) {ptr : Ptr} {size k : Nat} {seqNo : UInt8}
    (h : p.lastTx.iframe = pieceInfo ptr size k seqNo) (hnext : p.nextTx.iframe = p.lastTx.iframe)
    (hmore : protocolSendSize * (k + 1) < size) (hsize : size ≤ kmallocMaxSize) :
    (nextIframe p).nextTx.iframe = pieceInfo ptr size (k + 1) (seqNo ^^^ 1) := by
  unfold kmallocMaxSize at hsize
  unfold protocolSendSize at hmore
  unfold nextIframe
  dsimp only
  rw [hnext, h]
  unfold pieceInfo protocolSendSize
  dsimp only
  rw [if_pos hmore]
  have hoff : (254 * k + 254) % 2 ^ 32 = 254 * (k + 1) := by omega
  rw [hoff]
  split
  · next hlt =>
    have h2 : 254 * (k + 1 + 1) < size := by omega
    simp only [IframeInfo.mk.injEq, h2, decide_true, if_true, true_and, and_true]
    omega
  · next hge =>
    have h2 : ¬ 254 * (k + 1 + 1) < size := by omega
    simp only [IframeInfo.mk.injEq, h2, decide_false, if_false, true_and, and_true]
    omega

/-- Behind the last piece. -/
theorem nextIframe_behind (p : T1) {ptr : Ptr} {size k : Nat} {seqNo : UInt8}
    (h : p.lastTx.iframe = pieceInfo ptr size k seqNo) (hk : protocolSendSize * k < size)
    (hend : ¬ protocolSendSize * (k + 1) < size) (hsize : size ≤ kmallocMaxSize) :
    (nextIframe p).nextTx.iframe.data = some ptr ∧
      (nextIframe p).nextTx.iframe.offset = protocolSendSize * (k + 1) ∧
      (nextIframe p).nextTx.iframe.sendSize = size - protocolSendSize * k := by
  unfold kmallocMaxSize at hsize
  unfold protocolSendSize at hk hend
  have hoff : (254 * k + 254) % 2 ^ 32 = 254 * (k + 1) := by omega
  have hle : ¬ 254 < size - 254 * k := by omega
  unfold nextIframe
  dsimp only
  rw [h]
  unfold pieceInfo protocolSendSize
  dsimp only
  rw [if_neg hend, if_neg hle, hoff]
  exact ⟨rfl, rfl, rfl⟩

/-! ## The card's side -/

/-- What a card hears of a frame: information with its number, and whether more follows. -/
def asCommand (buf : Bytes) : Heard Bool (Bytes × Bool) :=
  match Blk.read buf with
  | some (.info number more inf) => .message number (inf, more)
  | _ => .nothing

/-- The frame that an operation puts on the bus. -/
def onBus (e : Event world) : Option Bytes :=
  match e.op with
  | .busSend buf => some buf
  | _ => none

/-- What the card hears of a run. -/
def commands (tr : List (Event world)) : List (Heard Bool (Bytes × Bool)) :=
  (tr.filterMap onBus).map asCommand

/-- A copy from the command stays inside of the `size` bytes from `ptr` on. -/
def Inside (ptr : Ptr) (size : Nat) (e : Event world) : Prop :=
  match e.op with
  | .load (.cmd block) off n => block = ptr.block ∧ ptr.off ≤ off ∧ off + n ≤ ptr.off + size
  | _ => True

/-- The card, and whether there was a copy outside of the command. -/
structure Card where
  last : Bool
  got : List (Bytes × Bool)
  outside : Prop

def Card.hear (c : Card) (h : Heard Bool (Bytes × Bool)) : Card :=
  { c with last := h.next c.last, got := c.got ++ h.new c.last }

@[simp] theorem Card.hear_nothing (c : Card) : c.hear .nothing = c := by
  simp [Card.hear, Heard.next, Heard.new]

/-- One operation, for the card. -/
def Card.step (ptr : Ptr) (size : Nat) (c : Card) (e : Event world) : Card :=
  match e.op with
  | .busSend buf => c.hear (asCommand buf)
  | .load (.cmd _) _ _ => { c with outside := c.outside ∨ ¬ Inside ptr size e }
  | _ => c

abbrev card (ptr : Ptr) (size : Nat) : Monitor world := ⟨Card, Card.step ptr size, fun _ _ => True⟩

section

variable {ptr : Ptr} {size : Nat}

theorem tolerant_card : Tolerant (card ptr size) := by
  intro m o i s ho
  refine ⟨trivial, ?_⟩
  cases o with
  | load src off n =>
    cases src with
    | cmd block => exact ho.elim
    | frame data => rfl
  | busSend buf => exact ho.elim
  | _ => rfl

theorem outside_step (c : Card) (e : Event world) :
    (c.step ptr size e).outside ↔ c.outside ∨ ¬ Inside ptr size e := by
  obtain ⟨o, i, s⟩ := e
  cases o with
  | load src off n =>
    cases src with
    | cmd block => rfl
    | frame data => simp [Card.step, Inside]
  | _ => simp [Card.step, Inside, Card.hear]

/-- The monitor is the receiver of the library. -/
theorem after_card (ptr : Ptr) (size : Nat) (c : Card) (tr : List (Event world)) :
    ((card ptr size).after c tr).last = Heard.lastNumber c.last (commands tr) ∧
      ((card ptr size).after c tr).got = c.got ++ Heard.delivered c.last (commands tr) ∧
      (((card ptr size).after c tr).outside ↔ c.outside ∨ ∃ e ∈ tr, ¬ Inside ptr size e) := by
  induction tr generalizing c with
  | nil => simp [Monitor.after, commands, Heard.lastNumber, Heard.delivered]
  | cons e tr ih =>
    obtain ⟨h1, h2, h3⟩ := ih (c.step ptr size e)
    have houtside : (c.step ptr size e).outside ∨ (∃ e ∈ tr, ¬ Inside ptr size e) ↔
        c.outside ∨ ∃ e' ∈ e :: tr, ¬ Inside ptr size e' := by
      rw [outside_step, or_assoc, List.exists_mem_cons_iff]
    refine ⟨h1.trans ?_, h2.trans ?_, h3.trans houtside⟩
    · obtain ⟨o, i, s⟩ := e
      cases o with
      | load src off n => cases src <;> rfl
      | _ => rfl
    · obtain ⟨o, i, s⟩ := e
      cases o with
      | load src off n => cases src <;> rfl
      | busSend buf => exact List.append_assoc _ _ _
      | _ => rfl

end

/-! ## Receptions -/

/-- An acknowledgement with another number than that of the last I-block. -/
def Acks (x : Met) : Prop :=
  x.data ≠ [] ∧ checkLrc x.data = .success ∧ eseBit (pcb x.data) 7 ≠ 0 ∧ eseBit (pcb x.data) 6 = 0 ∧
    eseBit (pcb x.data) 0 = 0 ∧ eseBit (pcb x.data) 1 = 0 ∧
    eseBit (pcb x.data) 4 ≠ x.before.lastTx.iframe.seqNo

/-- ... while there is a command. -/
def Advances (x : Met) : Prop := Acks x ∧ x.before.lastTx.iframe.data ≠ none

/-- ... of which the last piece has been sent. -/
def Stray (x : Met) : Prop := Advances x ∧ x.before.lastTx.iframe.chain = false

instance instDecidableAcks (x : Met) : Decidable (Acks x) :=
  inferInstanceAs (Decidable (_ ∧ _ ∧ _ ∧ _ ∧ _ ∧ _ ∧ _))

instance instDecidableAdvances (x : Met) : Decidable (Advances x) :=
  inferInstanceAs (Decidable (_ ∧ _))

instance instDecidableStray (x : Met) : Decidable (Stray x) := inferInstanceAs (Decidable (_ ∧ _))

/-- What was sent last and what is next are the same piece. -/
structure Holds (f : IframeInfo) (p : T1) : Prop where
  last : p.lastTx.iframe = f
  next : p.nextTx.iframe = f

/-- There is no command any more. -/
def Dropped (p : T1) : Prop := ∃ f : IframeInfo, Holds f p ∧ f.data = none

/-- An acknowledgement goes on to the next piece. -/
theorem settled_of_acks {p : T1} {data : Bytes} {status : EseStatus} (h : Acks ⟨p, data, status⟩) :
    ∃ q : T1, settled p data status = nextIframe q ∧ q.lastTx = p.lastTx ∧ q.nextTx = p.nextTx := by
  obtain ⟨hne, hlrc, h7, h6, h0, h1, h4⟩ := h
  have hpos : data.length > 0 := List.length_pos_iff.2 hne
  unfold settled heard decodeRframe
  dsimp only
  rw [if_pos hpos, if_pos hlrc, if_neg h7, if_pos h6, if_pos ⟨h0, h1⟩]
  exact ⟨_, if_pos h4, rfl, rfl⟩

namespace Holds

variable {f : IframeInfo} {p q : T1}

theorem of_eq (h : Holds f p) (h1 : q.lastTx = p.lastTx) (h2 : q.nextTx.iframe = p.nextTx.iframe) :
    Holds f q := ⟨h1 ▸ h.last, h2.trans h.next⟩

theorem repeatLast (h : Holds f p) : Holds f (repeatLast p) := ⟨h.last, h.last⟩

theorem recover {repair : T1 → T1} (h : Holds f p) (hrepair : Holds f (repair p)) :
    Holds f (p.recover repair) := by
  unfold T1.recover
  split
  · exact hrepair.of_eq rfl rfl
  · exact h.of_eq rfl rfl

theorem repeatFor (h : Holds f p) : Holds f (repeatFor p) := by
  have hrepeat := h.repeatLast
  unfold Snvm.repeatFor
  split
  · exact hrepeat.of_eq rfl rfl
  · split
    · exact hrepeat.of_eq rfl rfl
    · split <;> exact h.of_eq rfl rfl
  · exact hrepeat
  · exact h
  · exact h

theorem reject (h : Holds f p) (error : RframeError) : Holds f (p.reject error) := by
  unfold T1.reject
  split <;> exact h.of_eq rfl rfl

theorem nothing (h : Holds f p) (status : EseStatus) : Holds f (p.nothing status) := by
  have hreject := h.reject .other
  unfold T1.nothing
  split
  · split
    · exact hreject
    · exact hreject.of_eq rfl rfl
  · split
    · exact (h.of_eq (q := { p with timeoutCounter := p.timeoutCounter + 1 }) rfl rfl).repeatLast
    · exact h.of_eq rfl rfl

theorem heardIframe (h : Holds f p) (b : UInt8) : Holds f (heardIframe p b) := by
  unfold Snvm.heardIframe
  split
  · unfold newIframe
    dsimp only
    split <;> exact h.of_eq rfl rfl
  · have hgot : Holds f (gotIframe p) := h.of_eq rfl rfl
    exact hgot.recover (hgot.of_eq rfl rfl)

theorem decodeRframe (h : Holds f p) {b : UInt8}
    (hack : ¬ (eseBit b 0 = 0 ∧ eseBit b 1 = 0 ∧ eseBit b 4 ≠ p.lastTx.iframe.seqNo)) :
    Holds f (decodeRframe p b) := by
  have hgot : Holds f (gotRframe p b) := h.of_eq rfl rfl
  have hreported : ∀ error, Holds f ((gotRframe p b).reported error) := fun _ => hgot.of_eq rfl rfl
  unfold Snvm.decodeRframe
  dsimp only
  split
  · next h01 =>
    unfold acknowledged
    dsimp only
    split
    · next h4 => exact absurd ⟨h01.1, h01.2, h4⟩ hack
    · exact hgot.of_eq rfl rfl
  · split
    · exact (hreported _).recover (hreported _).repeatFor
    · split <;> exact hgot.recover (hreported _).repeatLast

/-- Only a request to resynchronise drops the command. -/
theorem decodeSframe (h : Holds f p) (b : UInt8) :
    Holds f (decodeSframe p b) ∨ Dropped (decodeSframe p b) := by
  have hgot : Holds f (gotSframe p b) := h.of_eq rfl rfl
  unfold Snvm.decodeSframe
  dsimp only
  split_ifs
  · refine .inr ⟨{ f with data := none, seqNo := 1 }, ⟨?_, ?_⟩, rfl⟩
    · exact congrArg (fun f : IframeInfo => { f with data := none, seqNo := 1 }) hgot.last
    · exact congrArg (fun f : IframeInfo => { f with data := none, seqNo := 1 }) hgot.next
  · exact .inl (hgot.of_eq rfl rfl)
  · exact .inl (hgot.of_eq rfl rfl)
  · exact .inl (hgot.of_eq rfl rfl)
  · exact .inl (hgot.recover hgot.repeatLast)
  · exact .inl (hgot.of_eq rfl rfl)
  · exact .inl (hgot.of_eq rfl rfl)
  · exact .inl hgot

theorem settled (h : Holds f p) {data : Bytes} {status : EseStatus} (hack : ¬ Acks ⟨p, data, status⟩) :
    Holds f (settled p data status) ∨ Dropped (settled p data status) := by
  unfold Snvm.settled
  split
  · next hpos =>
    have hne : data ≠ [] := List.length_pos_iff.1 hpos
    split
    · next hlrc =>
      have hgood : Holds f { p with timeoutCounter := 0, rnackCounter := 0 } := h.of_eq rfl rfl
      unfold Snvm.heard
      split
      · exact .inl (hgood.heardIframe _)
      · next h7 =>
        split
        · next h6 =>
          refine .inl (hgood.decodeRframe fun hack' => hack ?_)
          exact ⟨hne, hlrc, h7, h6, hack'⟩
        · exact hgood.decodeSframe _
    · exact .inl ((h.of_eq (q := { p with timeoutCounter := 0 }) rfl rfl).reject _)
  · exact .inl (h.nothing _)

end Holds

/-! ## The loop -/

section Loop

variable {A : Event world → Prop} {ptr : Ptr} {size : Nat}

/-- What an emission is to the card. -/
theorem wp_emission_card {p : T1} (hp : Framed p) {c : Card} {s : Mem}
    {Q : EseStatus → Card → Mem → Prop}
    (hquiet : (p.state = .sendIframe → p.nextTx.iframe.sendSize ≠ 0 → p.nextTx.iframe.data = none) →
      ∀ status, Q status c s)
    (hinfo : ∀ at_ i, p.state = .sendIframe → p.nextTx.iframe.data = some at_ →
      ∀ status, Q status
        (({ c with outside := c.outside ∨ ¬ Inside ptr size ⟨.load (.cmd at_.block)
          (at_.off + p.nextTx.iframe.offset) p.nextTx.iframe.sendSize, i, s⟩ } : Card).hear
          (.message (decide (p.nextTx.iframe.seqNo ≠ 0))
            ((copied (s.read (.cmd at_.block)) (at_.off + p.nextTx.iframe.offset)
              p.nextTx.iframe.sendSize i).1, p.nextTx.iframe.chain))) s) :
    wp A (card ptr size) (emission p) Q c s := by
  have htransmit : ∀ (blk : Blk) (c : Card), blk.Valid →
      (∀ status, Q status (c.hear (asCommand (frame sendAddress blk.pcb blk.inf))) s) →
      wp A (card ptr size) (transmit (frame sendAddress blk.pcb blk.inf)) Q c s :=
    fun blk c _ hQ => wp_transmit (fun i _ => ⟨trivial, hQ⟩) (frame_ne_nil _ _ _)
  have hother : ∀ blk : Blk, blk.Valid → (∀ number more inf, blk ≠ .info number more inf) →
      (∀ status, Q status c s) →
      wp A (card ptr size) (transmit (frame sendAddress blk.pcb blk.inf)) Q c s := by
    intro blk hblk hne hQ
    refine htransmit blk c hblk ?_
    have hnothing : asCommand (frame sendAddress blk.pcb blk.inf) = .nothing := by
      unfold asCommand
      rw [Blk.read_frame hblk]
      cases blk with
      | info number more inf => exact absurd rfl (hne number more inf)
      | _ => rfl
    rw [hnothing, Card.hear_nothing]
    exact hQ
  unfold emission
  rw [hp.address]
  cases hstate : p.state with
  | idle => exact hquiet (fun h => by rw [hstate] at h; cases h) _
  | sendRframe =>
    rw [rframePcb_eq hp.heard hp.next.error]
    refine hother (.receipt _ _) hp.next.error (fun _ _ _ h => by cases h) (hquiet fun h => ?_)
    rw [hstate] at h
    cases h
  | sendSframe =>
    rw [sframePcb_eq _ p.nextTx.sframe.inf]
    refine hother (.supervision _ _) (length_sframe_inf _) (fun _ _ _ h => by cases h) (hquiet fun h => ?_)
    rw [hstate] at h
    cases h
  | sendIframe =>
    dsimp only
    refine wp_ite (fun hsize => hquiet (fun _ hne => absurd hsize hne) _) fun hsize => ?_
    cases hdata : p.nextTx.iframe.data with
    | none => exact hquiet (fun _ _ => hdata) _
    | some at_ =>
      dsimp only
      rw [wp_bind, wp_perform]
      intro i _
      refine ⟨trivial, ?_⟩
      have hvalid : (Blk.info (p.nextTx.iframe.seqNo ≠ 0) p.nextTx.iframe.chain
          (copied (s.read (.cmd at_.block)) (at_.off + p.nextTx.iframe.offset)
            p.nextTx.iframe.sendSize i).1).Valid := by
        refine ⟨?_, ?_⟩
        · rw [(copied _ _ _ _).2]
          exact Nat.pos_of_ne_zero hsize
        · rw [(copied _ _ _ _).2]
          exact hp.next.sendSize
      have hsays := hinfo at_ i hstate hdata
      rw [iframePcb_eq hp.next.seqNo (copied (s.read (.cmd at_.block))
        (at_.off + p.nextTx.iframe.offset) p.nextTx.iframe.sendSize i).1]
      refine htransmit _ _ hvalid ?_
      unfold asCommand
      rw [Blk.read_frame hvalid]
      exact hsays

/-- What a copy of a piece gets. -/
theorem copied_piece {bytes : Bytes} (hbytes : ptr.off + size ≤ bytes.length) {k : Nat}
    (hk : protocolSendSize * k < size) (i : Input) :
    (copied (some bytes) (ptr.off + protocolSendSize * k) (min protocolSendSize (size - protocolSendSize * k))
      i).1 = piece protocolSendSize (slice bytes ptr.off size) k := by
  have hfits : ptr.off + protocolSendSize * k + min protocolSendSize (size - protocolSendSize * k) ≤
      bytes.length := by
    have hle := Nat.min_le_right protocolSendSize (size - protocolSendSize * k)
    omega
  unfold copied
  rw [dif_pos ⟨bytes, rfl, hfits⟩]
  show slice bytes _ _ = _
  unfold piece slice
  rw [List.drop_take, List.drop_drop, List.take_take]

variable {cmd : Bytes} {k : Nat} {p : T1} {c : Card} {s : Mem}

/-- The command stands in memory. -/
structure Loaded (ptr : Ptr) (size : Nat) (cmd : Bytes) (s : Mem) : Prop where
  bytes : ∃ bytes, s.read (.cmd ptr.block) = some bytes ∧ ptr.off + size ≤ bytes.length ∧
    cmd = slice bytes ptr.off size
  size_le : size ≤ kmallocMaxSize

theorem Loaded.length {ptr : Ptr} (h : Loaded ptr size cmd s) : cmd.length = size := by
  obtain ⟨bytes, -, hle, rfl⟩ := h.bytes
  exact length_slice hle

/-- A piece is said while the state is `STATE_SEND_IFRAME`. -/
theorem wp_emission_piece (hp : Framed p) (hs : Loaded ptr size cmd s) {seqNo : UInt8}
    (hholds : Holds (pieceInfo ptr size k seqNo) p) (hk : protocolSendSize * k < size) :
    wp A (card ptr size) (emission p) (fun _ c' s' => s' = s ∧ c' = if p.state = .sendIframe then
      c.hear (.message (decide (seqNo ≠ 0)) (segment cmd k)) else c) c s := by
  have hnext := hholds.next
  have hsize : p.nextTx.iframe.sendSize ≠ 0 := by
    rw [hnext]
    unfold pieceInfo protocolSendSize at *
    dsimp only
    omega
  have hdata : p.nextTx.iframe.data = some ptr := by
    rw [hnext]
    rfl
  refine wp_emission_card hp (fun hquiet status => ⟨rfl, (if_neg fun hstate => ?_).symm⟩)
    fun at_ i hstate hat status => ⟨rfl, ?_⟩
  · have hnone := hquiet hstate hsize
    rw [hdata] at hnone
    cases hnone
  · rw [hdata] at hat
    cases hat
    obtain ⟨bytes, hread, hbytes, hcmd⟩ := hs.bytes
    have hlen := hs.length
    rw [if_pos hstate, hread, hnext]
    have hinside : Inside ptr size ⟨.load (.cmd ptr.block) (ptr.off + (pieceInfo ptr size k seqNo).offset)
        (pieceInfo ptr size k seqNo).sendSize, i, s⟩ := by
      refine ⟨rfl, Nat.le_add_right _ _, ?_⟩
      have hle := Nat.min_le_right protocolSendSize (size - protocolSendSize * k)
      unfold pieceInfo
      dsimp only
      omega
    have hout : (c.outside ∨ ¬ Inside ptr size ⟨.load (.cmd ptr.block)
        (ptr.off + (pieceInfo ptr size k seqNo).offset) (pieceInfo ptr size k seqNo).sendSize, i, s⟩) =
        c.outside := propext (or_iff_left (not_not.2 hinside))
    rw [hout]
    have hpiece := copied_piece hbytes hk i
    unfold segment
    rw [hlen, hcmd, ← hpiece]
    rfl

theorem wp_emission_dropped (hp : Framed p) (h : Dropped p) :
    wp A (card ptr size) (emission p) (fun _ c' s' => s' = s ∧ c' = c) c s := by
  obtain ⟨f, hholds, hnone⟩ := h
  refine wp_emission_card hp (fun _ _ => ⟨rfl, rfl⟩) fun at_ i _ hat _ => ?_
  rw [hholds.next, hnone] at hat
  cases hat

/-- What the card has been told while the turns `met` were taken, the `k`-th piece being the last one
before. -/
structure Told (cmd : Bytes) (k : Nat) (c c' : Card) (met : List Met) : Prop where
  outside : c'.outside ↔ c.outside ∨ ∃ x ∈ met, Stray x
  got : (∀ x ∈ met, ¬ Stray x) →
    c'.got = c.got ++ ((segments cmd).drop (k + 1)).take (met.countP (Advances ·))

theorem told_nil : Told cmd k c c [] where
  outside := by simp
  got _ := by simp

theorem told_steady {c' : Card} {x : Met} {met : List Met} (hx : ¬ Advances x) (h : Told cmd k c c' met) :
    Told cmd k c c' (x :: met) where
  outside := by
    rw [List.exists_mem_cons_iff, or_iff_right (fun hstray : Stray x => hx hstray.1)]
    exact h.outside
  got hstray := by
    rw [List.countP_cons_of_neg (by simpa using hx)]
    exact h.got fun y hy => hstray y (List.mem_cons_of_mem _ hy)

theorem told_next {c₁ c' : Card} {x : Met} {met : List Met} (hx : Advances x) (hstray : ¬ Stray x)
    (hk : protocolSendSize * (k + 1) < cmd.length) (hout : c₁.outside = c.outside)
    (hgot : c₁.got = c.got ++ [segment cmd (k + 1)]) (h : Told cmd (k + 1) c₁ c' met) :
    Told cmd k c c' (x :: met) where
  outside := by
    rw [List.exists_mem_cons_iff, or_iff_right hstray, ← hout]
    exact h.outside
  got hno := by
    rw [List.countP_cons_of_pos (by simpa using hx), drop_segments hk, List.take_succ_cons,
      h.got fun y hy => hno y (List.mem_cons_of_mem _ hy), hgot, List.append_assoc]
    rfl

/-- Once there was a copy outside, there was one. -/
theorem told_stray {c' : Card} {x : Met} {met : List Met} (hx : Stray x) (h : c'.outside) :
    Told cmd k c c' (x :: met) where
  outside := iff_of_true h (.inr ⟨x, List.mem_cons_self, hx⟩)
  got hno := absurd hx (hno x List.mem_cons_self)

/-- What the driver is about to send in the turn after the `k`-th piece. -/
def Ready (ptr : Ptr) (size k : Nat) (c : Card) (p : T1) : Prop :=
  (∃ seqNo, Holds (pieceInfo ptr size k seqNo) p ∧ c.last = decide (seqNo ≠ 0)) ∧
    protocolSendSize * k < size ∨ Dropped p

theorem Ready.of_eq {q : T1} (h : Ready ptr size k c p) (h1 : q.lastTx = p.lastTx)
    (h2 : q.nextTx.iframe = p.nextTx.iframe) : Ready ptr size k c q := by
  rcases h with ⟨⟨seqNo, hholds, hlast⟩, hk⟩ | ⟨f, hholds, hnone⟩
  · exact .inl ⟨⟨seqNo, hholds.of_eq h1 h2, hlast⟩, hk⟩
  · exact .inr ⟨f, hholds.of_eq h1 h2, hnone⟩

theorem holds_prepare {f : IframeInfo} (h : p.nextTx.iframe = f) : Holds f (prepare p none) := ⟨h, h⟩

theorem framed_turn (hp : Framed p) (data : Bytes) (status : EseStatus) (recvData : DataList) :
    Framed (prepare ((settled p data status).hold recvData) none) := by
  have hsettled := hp.settled data status
  have hhold : Framed ((settled p data status).hold recvData) :=
    hsettled.of_eq rfl rfl rfl hsettled.heard rfl
  exact hhold.prepare none

/-- The same piece is still the one to send, or none is. -/
theorem wp_repeat {x : Met} {recvData : DataList} (hp : Framed x.before) (hs : Loaded ptr size cmd s)
    (hready : Ready ptr size k c x.before) (hx : ¬ Advances x)
    (hstate : (settled x.before x.data x.status).state ≠ .idle) :
    wp A (card ptr size) (emission (prepare ((settled x.before x.data x.status).hold recvData) none))
      (fun _ c' s' => s' = s ∧ c' = c ∧
        Ready ptr size k c (prepare ((settled x.before x.data x.status).hold recvData) none)) c s := by
  obtain ⟨p, data, status⟩ := x
  have hframed := framed_turn hp data status recvData
  have hdropped : ∀ {q : T1}, Framed (prepare q none) → q.nextTx.iframe.data = none →
      wp A (card ptr size) (emission (prepare q none))
        (fun _ c' s' => s' = s ∧ c' = c ∧ Ready ptr size k c (prepare q none)) c s := by
    intro q hq hnone
    have hdrop : Dropped (prepare q none) := ⟨_, holds_prepare rfl, hnone⟩
    exact wp_mono (wp_emission_dropped hq hdrop) fun _ _ _ h => ⟨h.1, h.2, .inr hdrop⟩
  rcases hready with ⟨⟨seqNo, hholds, hlast⟩, hk⟩ | ⟨f, hholds, hnone⟩
  · have hack : ¬ Acks ⟨p, data, status⟩ := by
      refine fun hack => hx ⟨hack, ?_⟩
      show p.lastTx.iframe.data ≠ none
      rw [hholds.last]
      exact Option.some_ne_none _
    rcases hholds.settled hack with hsame | ⟨f, hholds', hnone⟩
    · have hprep : Holds (pieceInfo ptr size k seqNo)
          (prepare ((settled p data status).hold recvData) none) := holds_prepare hsame.next
      refine wp_mono (wp_emission_piece hframed hs hprep hk) fun _ c' s' h => ⟨h.1, h.2.trans ?_, ?_⟩
      · split
        · unfold Card.hear
          rw [← hlast, Heard.new_again, List.append_nil]
          rfl
        · rfl
      · exact .inl ⟨⟨seqNo, hprep, hlast⟩, hk⟩
    · refine hdropped hframed ?_
      show (settled p data status).nextTx.iframe.data = none
      rw [hholds'.next]
      exact hnone
  · refine hdropped hframed ?_
    by_cases hack : Acks ⟨p, data, status⟩
    · obtain ⟨q, hq, h1, h2⟩ := settled_of_acks hack
      have hnext : (nextIframe q).nextTx.iframe.data = q.lastTx.iframe.data := by
        unfold nextIframe
        dsimp only
        split <;> rfl
      show (settled p data status).nextTx.iframe.data = none
      rw [hq, hnext, h1, hholds.last]
      exact hnone
    · show (settled p data status).nextTx.iframe.data = none
      rcases hholds.settled hack with hsame | ⟨f', hholds', hnone'⟩
      · rw [hsame.next]
        exact hnone
      · rw [hholds'.next]
        exact hnone'

theorem bit_flip {b : UInt8} (h : Bit b) : decide (b ^^^ 1 ≠ 0) ≠ decide (b ≠ 0) := by
  rcases h with rfl | rfl <;> decide

/-- An acknowledgement is answered with the next piece. -/
theorem wp_advance {x : Met} {recvData : DataList} (hp : Framed x.before) (hs : Loaded ptr size cmd s)
    (hready : Ready ptr size k c x.before) (hx : Advances x) (hstray : ¬ Stray x) :
    protocolSendSize * (k + 1) < size ∧
    wp A (card ptr size) (emission (prepare ((settled x.before x.data x.status).hold recvData) none))
      (fun _ c' s' => s' = s ∧ c'.outside = c.outside ∧ c'.got = c.got ++ [segment cmd (k + 1)] ∧
        Ready ptr size (k + 1) c' (prepare ((settled x.before x.data x.status).hold recvData) none)) c s := by
  obtain ⟨p, data, status⟩ := x
  rcases hready with ⟨⟨seqNo, hholds, hlast⟩, hk⟩ | ⟨f, hholds, hnone⟩
  · have hmore : protocolSendSize * (k + 1) < size := by
      by_contra hend
      refine hstray ⟨hx, ?_⟩
      show p.lastTx.iframe.chain = false
      rw [hholds.last]
      exact decide_eq_false hend
    obtain ⟨q, hq, h1, h2⟩ := settled_of_acks hx.1
    have hnext : (settled p data status).nextTx.iframe = pieceInfo ptr size (k + 1) (seqNo ^^^ 1) := by
      rw [hq]
      exact nextIframe_piece q (h1 ▸ hholds.last) (by rw [h1, h2, hholds.last, hholds.next]) hmore hs.size_le
    have hprep : Holds (pieceInfo ptr size (k + 1) (seqNo ^^^ 1))
        (prepare ((settled p data status).hold recvData) none) := holds_prepare hnext
    have hstate : (prepare ((settled p data status).hold recvData) none).state = .sendIframe := by
      show (settled p data status).state = .sendIframe
      rw [hq]
      rfl
    have hseq : Bit seqNo := by
      have hbit := hp.last.seqNo
      rw [hholds.last] at hbit
      exact hbit
    refine ⟨hmore, wp_mono (wp_emission_piece (framed_turn hp data status recvData) hs hprep hmore)
      fun _ c' s' h => ?_⟩
    obtain ⟨rfl, hc⟩ := h
    rw [if_pos hstate] at hc
    subst hc
    refine ⟨rfl, rfl, ?_, .inl ⟨⟨_, hprep, rfl⟩, hmore⟩⟩
    have hnew : (Heard.message (decide (seqNo ^^^ 1 ≠ 0)) (segment cmd (k + 1))).new c.last =
        [segment cmd (k + 1)] := if_pos (hlast ▸ bit_flip hseq)
    exact congrArg (c.got ++ ·) hnew
  · refine absurd ?_ hx.2
    show p.lastTx.iframe.data = none
    rw [hholds.last]
    exact hnone

/-- An acknowledgement of the last piece is answered with what stands behind the command. -/
theorem wp_stray {x : Met} {recvData : DataList} (hp : Framed x.before) (hs : Loaded ptr size cmd s)
    (hready : Ready ptr size k c x.before) (hx : Stray x) :
    wp A (card ptr size) (emission (prepare ((settled x.before x.data x.status).hold recvData) none))
      (fun _ c' s' => s' = s ∧ c'.outside) c s := by
  obtain ⟨p, data, status⟩ := x
  rcases hready with ⟨⟨seqNo, hholds, hlast⟩, hk⟩ | ⟨f, hholds, hnone⟩
  · have hend : ¬ protocolSendSize * (k + 1) < size := by
      have hchain : p.lastTx.iframe.chain = false := hx.2
      rw [hholds.last] at hchain
      exact of_decide_eq_false hchain
    obtain ⟨q, hq, h1, h2⟩ := settled_of_acks hx.1.1
    obtain ⟨hdata, hoff, hsend⟩ := nextIframe_behind q (h1 ▸ hholds.last) hk hend hs.size_le
    rw [← hq] at hdata hoff hsend
    have hstate : (settled p data status).state = .sendIframe := by
      rw [hq]
      rfl
    have hpos : (settled p data status).nextTx.iframe.sendSize ≠ 0 := by
      rw [hsend]
      omega
    refine wp_emission_card (framed_turn hp data status recvData) (fun hquiet _ => ?_)
      fun at_ i _ hat _ => ⟨rfl, .inr ?_⟩
    · have hnone : (settled p data status).nextTx.iframe.data = none := hquiet hstate hpos
      rw [hdata] at hnone
      cases hnone
    · have hat' : (settled p data status).nextTx.iframe.data = some at_ := hat
      rw [hdata] at hat'
      cases hat'
      rintro ⟨-, -, hle⟩
      have hle' : ptr.off + (settled p data status).nextTx.iframe.offset +
          (settled p data status).nextTx.iframe.sendSize ≤ ptr.off + size := hle
      rw [hoff, hsend] at hle'
      omega
  · refine absurd ?_ hx.1.2
    show p.lastTx.iframe.data = none
    rw [hholds.last]
    exact hnone

/-- The loop, with its record. -/
theorem wp_turns_card {fuel : Nat} (hp : Framed p) (hs : Loaded ptr size cmd s)
    (hready : Ready ptr size k c p) :
    wp A (card ptr size) (turns fuel p) (fun r c' _ => Told cmd k c c' r.1) c s := by
  induction fuel generalizing p k c with
  | zero => exact told_nil
  | succ fuel ih =>
    unfold turns
    rw [wp_bind]
    refine wp_receiveFrame tolerant_card fun data status hdata => ?_
    rw [wp_bind]
    -- the turns after this one
    have hgo : ∀ {c₁ : Card} {k' : Nat} {q q' : T1} {status' : EseStatus}, Framed q → Sent q q' →
        Ready ptr size k' c₁ q →
        (∀ c' met, Told cmd k' c₁ c' met → Told cmd k c c' (⟨p, data, status⟩ :: met)) →
        wp A (card ptr size)
          (if (if status' ≠ .success then { q' with state := .idle } else q').state ≠ .idle then do
            let rest ← turns fuel (if status' ≠ .success then { q' with state := .idle } else q')
            return (⟨p, data, status⟩ :: rest.1, rest.2)
          else return ([⟨p, data, status⟩],
            some (status', if status' ≠ .success then { q' with state := .idle } else q')))
          (fun r c' _ => Told cmd k c c' r.1) c₁ s := by
      intro c₁ k' q q' status' hq hsent hready' hcons
      have hq' : Framed (if status' ≠ .success then { q' with state := .idle } else q') := by
        have h := hq.sent hsent
        split
        · exact h.of_eq rfl rfl rfl h.heard rfl
        · exact h
      have hready'' : Ready ptr size k' c₁ (if status' ≠ .success then { q' with state := .idle } else q') := by
        have h := hready'.of_eq hsent.lastTx hsent.iframe
        split
        · exact h.of_eq rfl rfl
        · exact h
      refine wp_ite (fun _ => ?_) fun _ => hcons _ _ told_nil
      rw [wp_bind]
      exact wp_mono (ih hq' hready'') fun r c' _ h => hcons _ _ h
    refine wp_react tolerant_card hdata (fun recvData _ _ hidle status' => ?_) fun recvData _ _ hne => ?_
    · have hack : ¬ Advances ⟨p, data, status⟩ := by
        intro hx
        obtain ⟨q, hq, -, -⟩ := settled_of_acks hx.1
        rw [hq] at hidle
        cases hidle
      refine wp_ite (fun hne => absurd hidle hne) fun _ => told_steady hack told_nil
    · have hframed := framed_turn hp data status recvData
      refine wp_send ?_
      by_cases hx : Advances ⟨p, data, status⟩
      · by_cases hstray : Stray ⟨p, data, status⟩
        · refine wp_mono (wp_stray hp hs hready hstray) fun status' c₁ s' h q hq => ?_
          refine wp_ite (fun _ => ?_) fun _ => told_stray hstray h.2
          rw [wp_bind]
          exact wp_mono (wp_stable (J := Card.outside) (fun _ _ => trivial)
            (fun c e hc => (outside_step c e).2 (.inl hc)) h.2) fun r c' _ h => told_stray hstray h
        · obtain ⟨hmore, hsay⟩ := wp_advance hp hs hready hx hstray
          refine wp_mono hsay fun status' c₁ s' h q hq => ?_
          obtain ⟨rfl, hout, hgot, hready'⟩ := h
          exact hgo hframed hq hready' fun c' met => told_next hx hstray (hs.length ▸ hmore) hout hgot
      · refine wp_mono (wp_repeat hp hs hready hx hne) fun status' c₁ s' h q hq => ?_
        obtain ⟨rfl, rfl, hready'⟩ := h
        exact hgo hframed hq hready' fun c' met => told_steady hx

/-- The first piece. -/
theorem wp_emission_first (hp : Framed p) (hs : Loaded ptr size cmd s) (hidle : p.state = .idle)
    (hpos : 0 < size) (hlast : c.last = decide (p.lastTx.iframe.seqNo ≠ 0)) :
    wp A (card ptr size) (emission (prepare p (some ⟨size, some ptr⟩))) (fun _ c' s' =>
      s' = s ∧ c'.outside = c.outside ∧ c'.got = c.got ++ [segment cmd 0] ∧
        Ready ptr size 0 c' (prepare p (some ⟨size, some ptr⟩))) c s := by
  have hprep : Holds (pieceInfo ptr size 0 (p.lastTx.iframe.seqNo ^^^ 1))
      (prepare p (some ⟨size, some ptr⟩)) := by
    have hfirst := setIframe_piece { p with nextTx := { p.nextTx with
      iframe := { p.nextTx.iframe with data := some ptr, totalSize := size } } } rfl rfl
    unfold prepare
    dsimp only
    rw [if_pos hidle]
    exact ⟨hfirst, hfirst⟩
  have hstate : (prepare p (some ⟨size, some ptr⟩)).state = .sendIframe := by
    unfold prepare
    dsimp only
    rw [if_pos hidle]
    rfl
  refine wp_mono (wp_emission_piece (hp.prepare _) hs hprep hpos) fun _ c' s' h => ?_
  obtain ⟨rfl, hc⟩ := h
  rw [if_pos hstate] at hc
  subst hc
  refine ⟨rfl, rfl, ?_, .inl ⟨⟨_, hprep, rfl⟩, hpos⟩⟩
  have hnew : (Heard.message (decide (p.lastTx.iframe.seqNo ^^^ 1 ≠ 0)) (segment cmd 0)).new c.last =
      [segment cmd 0] := if_pos (hlast ▸ bit_flip hp.last.seqNo)
  exact congrArg (c.got ++ ·) hnew

end Loop

/-! ## A whole exchange -/

/-- A command and the reception that follows it, with the record of its turns. -/
def exchange (fuel : Nat) (p : T1) (cmd : CmdData) : Prog iface (List Met) := do
  let (status, p) ← send p (some cmd)
  if status ≠ .success then return []
  return (← turns fuel p).1

section Exchange

variable {fuel : Nat} {p : T1} {ptr : Ptr} {size : Nat} {cmd : Bytes} {ι : Nat → Input} {m : Mem}

theorem exchange_told (hp : Framed p) (hidle : p.state = .idle) (hpos : 0 < size)
    (hs : Loaded ptr size cmd m) :
    ((∃ e ∈ (exchange fuel p ⟨size, some ptr⟩).trace world ι m, ¬ Inside ptr size e) ↔
      ∃ x ∈ ((exchange fuel p ⟨size, some ptr⟩).run world ι m).1, Stray x) ∧
    ((∀ x ∈ ((exchange fuel p ⟨size, some ptr⟩).run world ι m).1, ¬ Stray x) →
      Heard.delivered (decide (p.lastTx.iframe.seqNo ≠ 0))
          (commands ((exchange fuel p ⟨size, some ptr⟩).trace world ι m)) =
        (segments cmd).take
          (1 + ((exchange fuel p ⟨size, some ptr⟩).run world ι m).1.countP (Advances ·))) := by
  have hfirst : (segments cmd).take 1 = [segment cmd 0] := by
    have hdrop : (segments cmd).drop 0 = segment cmd 0 :: (segments cmd).drop 1 :=
      drop_segments (hs.length ▸ hpos)
    rw [List.drop_zero] at hdrop
    rw [hdrop]
    rfl
  have hrule : wp (fun _ => True) (card ptr size) (exchange fuel p ⟨size, some ptr⟩)
      (fun met c' _ => (c'.outside ↔ ∃ x ∈ met, Stray x) ∧ ((∀ x ∈ met, ¬ Stray x) →
        c'.got = (segments cmd).take (1 + met.countP (Advances ·))))
      ⟨decide (p.lastTx.iframe.seqNo ≠ 0), [], False⟩ m := by
    unfold exchange
    rw [wp_bind]
    refine wp_send (wp_mono (wp_emission_first hp hs hidle hpos rfl) fun status c₁ s' h q hq => ?_)
    obtain ⟨rfl, hout, hgot, hready⟩ := h
    refine wp_ite (fun _ => ?_) fun _ => ?_
    · refine ⟨?_, fun _ => hgot.trans hfirst.symm⟩
      simp [hout]
    · rw [wp_bind]
      refine wp_mono (wp_turns_card ((hp.prepare _).sent hq) hs
        (hready.of_eq hq.lastTx hq.iframe)) fun r c' _ h => ⟨?_, fun hno => ?_⟩
      · rw [h.outside, hout, false_or]
      · rw [h.got hno, hgot, List.take_add, hfirst]
        rfl
  have hsound := (wp_sound hrule ι fun _ _ => trivial).2
  obtain ⟨-, hgot, hout⟩ := after_card ptr size
    ⟨decide (p.lastTx.iframe.seqNo ≠ 0), [], False⟩ ((exchange fuel p ⟨size, some ptr⟩).trace world ι m)
  rw [hgot, hout] at hsound
  exact ⟨(or_iff_right id).symm.trans hsound.1, hsound.2⟩

/-- **The command, piece by piece.** As long as the card does not acknowledge the last piece as if there
were another, a card that goes by the numbers hears the first piece and one more for each
acknowledgement, in order and each of them once, and whether more follows. -/
theorem exchange_segments (hp : Framed p) (hidle : p.state = .idle) (hpos : 0 < size)
    (hs : Loaded ptr size cmd m)
    (hstray : ∀ x ∈ ((exchange fuel p ⟨size, some ptr⟩).run world ι m).1, ¬ Stray x) :
    Heard.delivered (decide (p.lastTx.iframe.seqNo ≠ 0))
        (commands ((exchange fuel p ⟨size, some ptr⟩).trace world ι m)) =
      (segments cmd).take
        (1 + ((exchange fuel p ⟨size, some ptr⟩).run world ι m).1.countP (Advances ·)) :=
  (exchange_told hp hidle hpos hs).2 hstray

/-- **Copies outside of the command.** All copies stay inside of the command if and only if the card
never acknowledges the last piece as if there were another. -/
theorem exchange_inside_iff (hp : Framed p) (hidle : p.state = .idle) (hpos : 0 < size)
    (hs : Loaded ptr size cmd m) :
    (∀ e ∈ (exchange fuel p ⟨size, some ptr⟩).trace world ι m, Inside ptr size e) ↔
      ∀ x ∈ ((exchange fuel p ⟨size, some ptr⟩).run world ι m).1, ¬ Stray x := by
  have htold : (∃ e ∈ (exchange fuel p ⟨size, some ptr⟩).trace world ι m, ¬ Inside ptr size e) ↔
      ∃ x ∈ ((exchange fuel p ⟨size, some ptr⟩).run world ι m).1, Stray x :=
    (exchange_told hp hidle hpos hs).1
  constructor
  · intro hinside x hx hstray
    obtain ⟨e, he, hout⟩ := htold.2 ⟨x, hx, hstray⟩
    exact hout (hinside e he)
  · intro hno e he
    by_contra hout
    obtain ⟨x, hx, hstray⟩ := htold.1 ⟨e, he, hout⟩
    exact hno x hx hstray

end Exchange

/-- A command of one piece and one byte. -/
def longCommand : Bytes := List.replicate 254 7 ++ [9]

/-- A card that acknowledges the first piece, and with `again` the last one too. -/
def acknowledging (again : Bool) (n : Nat) : Input :=
  match n with
  | 2 => { bytes := [0x21] }
  | 3 => { bytes := [0x90, 0] }
  | 4 => { bytes := [0xB1] }
  | 7 => { bytes := [0x21], fault := if again then none else some .eio }
  | 8 => { bytes := [0x80, 0], fault := if again then none else some .eio }
  | 9 => { bytes := [0xA1], fault := if again then none else some .eio }
  | n => { fault := if n < 7 then none else some .eio }

theorem loaded_longCommand : Loaded ⟨1, 0⟩ 255 longCommand ⟨1, some longCommand⟩ where
  bytes := ⟨longCommand, rfl, by decide +kernel, by decide +kernel⟩
  size_le := by decide

theorem exchange_segments_longCommand :
    Heard.delivered true (commands ((exchange 9 Star.probed.protocol ⟨255, some ⟨1, 0⟩⟩).trace world
      (acknowledging false) ⟨1, some longCommand⟩)) = segments longCommand :=
  (exchange_segments framed_probed rfl (by decide) loaded_longCommand (by decide +kernel)).trans
    (by decide +kernel)

theorem exchange_inside_iff_longCommand :
    ¬ ∀ e ∈ (exchange 9 Star.probed.protocol ⟨255, some ⟨1, 0⟩⟩).trace world
      (acknowledging true) ⟨1, some longCommand⟩, Inside ⟨1, 0⟩ 255 e := by
  rw [exchange_inside_iff framed_probed rfl (by decide) loaded_longCommand]
  decide +kernel

end Gts9Wifi.Snvm
