import Gts9Wifi.Snvm.Verify.Turns
import Gts9Wifi.Lib.AlternatingBit

/-!
# The response is put together once and in order

What `iso7816_t1_decode_frame` makes of the frames is the receiver of an alternating-bit channel: an
I-block with another number than the last is new, any other frame brings nothing, and the card's
request to resynchronise starts the numbers over. The data that `iso7816_t1_receive` hands out is
what that receiver delivers of the frames of this reception, and nothing of an earlier one.
-/

namespace Gts9Wifi.Snvm

open Driver

/-- What the receiver hears of a frame. -/
def asHeard (data : Bytes) : Heard UInt8 Bytes :=
  if data.length > 0 ∧ checkLrc data = .success then
    if eseBit (pcb data) 7 = 0 then
      .message (eseBit (pcb data) 6) (if 4 ≤ data.length then infField data else [])
    else if eseBit (pcb data) 6 ≠ 0 ∧ pcb data &&& 0x3F = SframeType.resynchReq.code then .restart 1
    else .nothing
  else .nothing

/-- The information fields that arrive with the frames. -/
def arrived (p : T1) (met : List Met) : List Bytes :=
  Heard.delivered p.lastRx.iframe.seqNo (met.map fun x => asHeard x.data)

/-- The size that the head of a list keeps. -/
def DataList.Whole (l : DataList) : Prop := l.size = l.packets.flatten.length % 2 ^ 32

/-- No packet is left over, or only empty ones. -/
def DataList.Drained (l : DataList) : Prop := l.size = 0 ∧ l.packets.flatten = []

/-! ## The number of the last block -/

section Numbers

variable (p : T1)

theorem recover_seqNo {p : T1} {repair : T1 → T1}
    (h : (repair p).lastRx.iframe.seqNo = p.lastRx.iframe.seqNo) :
    (p.recover repair).lastRx.iframe.seqNo = p.lastRx.iframe.seqNo := by
  unfold T1.recover
  split
  · exact h
  · rfl

theorem repeatFor_lastRx : (repeatFor p).lastRx = p.lastRx := by
  unfold repeatFor
  split
  · rfl
  · split
    · rfl
    · split <;> rfl
  all_goals rfl

theorem decodeRframe_seqNo (b : UInt8) :
    (decodeRframe p b).lastRx.iframe.seqNo = p.lastRx.iframe.seqNo := by
  unfold decodeRframe
  dsimp only
  split
  · unfold acknowledged
    dsimp only
    split <;> rfl
  · split
    · refine recover_seqNo (p := (gotRframe p b).reported _) ?_
      rw [repeatFor_lastRx]
    · split
      · exact recover_seqNo (p := gotRframe p b) rfl
      · exact recover_seqNo (p := gotRframe p b) rfl

theorem decodeSframe_seqNo (b : UInt8) :
    (decodeSframe p b).lastRx.iframe.seqNo =
      if b &&& 0x3F = SframeType.resynchReq.code then 1 else p.lastRx.iframe.seqNo := by
  unfold decodeSframe
  dsimp only
  split_ifs
  all_goals first | rfl | exact recover_seqNo (p := gotSframe p b) rfl

theorem heardIframe_seqNo (b : UInt8) : (heardIframe p b).lastRx.iframe.seqNo = eseBit b 6 := by
  unfold heardIframe
  split
  · unfold newIframe
    dsimp only
    split <;> rfl
  · next heq =>
    rw [← not_not.1 heq]
    exact recover_seqNo (p := gotIframe p) rfl

theorem reject_seqNo (error : RframeError) :
    (p.reject error).lastRx.iframe.seqNo = p.lastRx.iframe.seqNo := by
  unfold T1.reject
  split <;> rfl

theorem nothing_seqNo (status : EseStatus) :
    (p.nothing status).lastRx.iframe.seqNo = p.lastRx.iframe.seqNo := by
  unfold T1.nothing
  split
  · split <;> exact reject_seqNo p _
  · split <;> rfl

end Numbers

/-- The number after a reception is the receiver's. -/
theorem settled_seqNo (p : T1) (data : Bytes) (status : EseStatus) :
    (settled p data status).lastRx.iframe.seqNo = (asHeard data).next p.lastRx.iframe.seqNo := by
  unfold settled asHeard
  by_cases hpos : data.length > 0
  · by_cases hlrc : checkLrc data = .success
    · rw [if_pos hpos, if_pos hlrc, if_pos ⟨hpos, hlrc⟩]
      unfold heard
      by_cases h7 : eseBit (pcb data) 7 = 0
      · rw [if_pos h7, if_pos h7]
        exact heardIframe_seqNo _ _
      · rw [if_neg h7, if_neg h7]
        by_cases h6 : eseBit (pcb data) 6 = 0
        · rw [if_pos h6, if_neg (fun h => h.1 h6)]
          exact decodeRframe_seqNo _ _
        · rw [if_neg h6, decodeSframe_seqNo]
          by_cases hre : pcb data &&& 0x3F = SframeType.resynchReq.code
          · rw [if_pos hre, if_pos ⟨h6, hre⟩]
            rfl
          · rw [if_neg hre, if_neg (fun h => hre h.2)]
            rfl
    · rw [if_pos hpos, if_neg hlrc, if_neg (fun h => hlrc h.2)]
      exact reject_seqNo _ _
  · rw [if_neg hpos, if_neg (fun h => hpos h.1)]
    exact nothing_seqNo _ _

theorem asHeard_of_news {p : T1} {data : Bytes} (h : News p data) (hpos : data.length > 0) :
    asHeard data = .message (eseBit (pcb data) 6) (if 4 ≤ data.length then infField data else []) :=
  (if_pos ⟨hpos, h.1⟩).trans (if_pos h.2.1)

/-- A frame without news delivers nothing. -/
theorem new_of_not_news {p : T1} {data : Bytes} (h : ¬ News p data) :
    (asHeard data).new p.lastRx.iframe.seqNo = [] := by
  unfold asHeard
  by_cases hgood : data.length > 0 ∧ checkLrc data = .success
  · rw [if_pos hgood]
    by_cases h7 : eseBit (pcb data) 7 = 0
    · have hseq : p.lastRx.iframe.seqNo = eseBit (pcb data) 6 :=
        by_contra fun hseq => h ⟨hgood.2, h7, hseq⟩
      rw [if_pos h7, hseq]
      exact Heard.new_again _
    · rw [if_neg h7]
      split <;> rfl
  · rw [if_neg hgood]
    rfl

/-- What a reception stores is what the receiver delivers. -/
theorem taken_flatten (p : T1) (data : Bytes) :
    (taken p data).packets.flatten =
      p.recvData.packets.flatten ++ ((asHeard data).new p.lastRx.iframe.seqNo).flatten := by
  by_cases hnews : News p data
  · by_cases hpos : data.length > 0
    · have hnew : (asHeard data).new p.lastRx.iframe.seqNo =
          [if 4 ≤ data.length then infField data else []] := by
        rw [asHeard_of_news hnews hpos]
        exact if_pos (Ne.symm hnews.2.2)
      rw [hnew, List.flatten_singleton]
      unfold taken
      by_cases hlen : 4 ≤ data.length
      · rw [if_pos hlen, if_pos ⟨hnews, hlen⟩, List.flatten_append, List.flatten_singleton]
      · rw [if_neg hlen, if_neg (fun h => hlen h.2), List.append_nil]
    · have hnothing : asHeard data = .nothing := if_neg fun h => hpos h.1
      have hkept : taken p data = p.recvData := if_neg fun h => hpos (Nat.lt_of_lt_of_le (by decide) h.2)
      rw [hnothing, hkept]
      exact (List.append_nil _).symm
  · rw [taken_of_not_news hnews, new_of_not_news hnews]
    exact (List.append_nil _).symm

theorem taken_whole {p : T1} {data : Bytes} (h : p.recvData.Whole) : (taken p data).Whole := by
  unfold taken DataList.Whole at *
  split
  · simp only [List.flatten_append, List.flatten_singleton, List.length_append]
    omega
  · exact h

/-! ## The loop -/

section Loop

variable {A : Event world → Prop} {m : Unit} {s : Mem}

theorem wp_react_receiver (hA : Ample A) {p : T1} {data : Bytes} {status : EseStatus}
    (hdata : data.length ≤ 259) :
    wp A (.idle world) (react p (data, status)) (fun r _ _ =>
      r.2.recvData = taken p data ∧
        r.2.lastRx.iframe.seqNo = (asHeard data).next p.lastRx.iframe.seqNo) m s := by
  refine wp_react (fun _ _ _ _ _ => ⟨trivial, rfl⟩) hdata (fun recvData _ h _ status' => ?_)
    fun recvData _ h _ => ?_
  · exact ⟨h hA, settled_seqNo p data status⟩
  · -- a transmission touches neither the received data nor the number of the last block
    refine wp_send (wp_emission_idle fun status' q hq => ?_)
    have hseq : q.lastRx.iframe.seqNo = (asHeard data).next p.lastRx.iframe.seqNo := by
      rw [hq.lastRx]
      exact settled_seqNo p data status
    split
    · exact ⟨hq.recvData.trans (h hA), hseq⟩
    · exact ⟨hq.recvData.trans (h hA), hseq⟩

/-- The loop collects what arrives. -/
theorem wp_turns_receiver (hA : Ample A) (fuel : Nat) (p : T1) (hp : p.recvData.Whole) :
    wp A (.idle world) (turns fuel p) (fun r _ _ => ∀ status p', r.2 = some (status, p') →
      p'.recvData.Whole ∧
        p'.recvData.packets.flatten = p.recvData.packets.flatten ++ (arrived p r.1).flatten) m s := by
  induction fuel generalizing p s with
  | zero =>
    intro status p' h
    cases h
  | succ fuel ih =>
    unfold turns
    rw [wp_bind]
    refine wp_receiveFrame (fun _ _ _ _ _ => ⟨trivial, rfl⟩) fun data status hdata => ?_
    rw [wp_bind]
    refine wp_mono (wp_react_receiver hA hdata) fun r _ s' hr => ?_
    obtain ⟨hrecv, hseq⟩ := hr
    have hwhole : r.2.recvData.Whole := hrecv ▸ taken_whole hp
    refine wp_ite (fun _ => ?_) fun _ => ?_
    · rw [wp_bind]
      refine wp_mono (ih r.2 hwhole) fun r' _ _ hr' => ?_
      intro status' p' hres
      obtain ⟨h1, h2⟩ := hr' status' p' hres
      refine ⟨h1, ?_⟩
      have harrived : arrived p (⟨p, data, status⟩ :: r'.1) =
          (asHeard data).new p.lastRx.iframe.seqNo ++ arrived r.2 r'.1 := by
        unfold arrived
        rw [List.map_cons, Heard.delivered_cons, hseq]
      rw [h2, hrecv, taken_flatten, harrived, List.flatten_append, List.append_assoc]
    · intro status' p' hres
      cases hres
      refine ⟨hwhole, ?_⟩
      have harrived : arrived p [⟨p, data, status⟩] = (asHeard data).new p.lastRx.iframe.seqNo :=
        List.append_nil _
      rw [hrecv, taken_flatten, harrived]

end Loop

/-! ## The whole reception -/

/-- The kernel heap gives what is asked for. -/
def Granted (e : Event world) : Prop :=
  match e.op with
  | .kzalloc _ => e.input.fault = none
  | _ => True

instance instDecidableGranted : (e : Event world) → Decidable (Granted e)
  | ⟨.kzalloc _, i, _⟩ => inferInstanceAs (Decidable (i.fault = none))
  | ⟨.load _ _ _, _, _⟩ | ⟨.busSend _, _, _⟩ | ⟨.busReceive _ _ _, _, _⟩ | ⟨.kzallocCmd _, _, _⟩
  | ⟨.copyFromUser, _, _⟩ | ⟨.kfreeCmd, _, _⟩ | ⟨.copyToUser _, _, _⟩ | ⟨.getUser, _, _⟩
  | ⟨.powerOn, _, _⟩ | ⟨.powerOff, _, _⟩ | ⟨.chipReset, _, _⟩ => isTrue trivial

theorem ample_granted : Ample Granted := fun _ _ _ h => h

/-- What a caller finds after a reception of `inf`, with `before` in its variables. -/
def responseOf (inf : Bytes) (before : EseData) : EseData :=
  if inf = [] then ⟨0, none⟩
  else if inf.length ≤ kmallocMaxSize then ⟨inf.length, some inf⟩
  else before

/-- `ese_data_get` hands out everything and leaves nothing. -/
theorem wp_eseDataGet {A : Event world → Prop} (hA : Ample A) {head : DataList} (hhead : head.Whole)
    (hlen : head.packets.flatten.length < 2 ^ 32) {before : EseData} {m : Unit} {s : Mem} :
    wp A (.idle world) (eseDataGet head before) (fun r _ _ =>
      r.2.1 = responseOf head.packets.flatten before ∧ r.2.2.Drained) m s := by
  have hsize : head.size = head.packets.flatten.length := hhead.trans (Nat.mod_eq_of_lt hlen)
  have hempty : DataList.empty.Drained := ⟨rfl, rfl⟩
  unfold eseDataGet responseOf
  refine wp_ite (fun hzero => ?_) fun hpos => ?_
  · have hnil : head.packets.flatten = [] := List.length_eq_zero_iff.1 (hsize ▸ hzero)
    exact ⟨(if_pos hnil).symm, hzero, hnil⟩
  · have hne : head.packets.flatten ≠ [] := fun hnil => hpos (hsize.trans (by rw [hnil]; rfl))
    rw [if_neg hne, wp_bind, wp_perform]
    intro i hi
    refine ⟨trivial, wp_ite (fun hfail => ?_) fun hgot => ?_⟩
    · have hbig : ¬ head.packets.flatten.length ≤ kmallocMaxSize := by
        simpa [handle, hA _ _ _ hi, hsize] using hfail
      rw [if_neg hbig]
      exact ⟨rfl, hempty⟩
    · have hfits : head.packets.flatten.length ≤ kmallocMaxSize := by
        simpa [handle, hA _ _ _ hi, hsize] using hgot
      rw [if_pos hfits]
      refine wp_ite (fun hbad => ?_) fun _ => ⟨?_, hempty⟩
      · exact absurd ((Nat.mod_eq_of_lt hlen).trans hsize.symm) hbad
      · show EseData.mk head.size _ = _
        rw [hsize]

/-- The end of `iso7816_t1_receive`. -/
def conclude (data : EseData) : Option (EseStatus × T1) → Prog iface (Option (EseStatus × EseData × T1))
  | none => pure none
  | some (status, p) => do
    let (wstatus, data, recvData) ← eseDataGet p.recvData data
    return some (if wstatus ≠ .success then wstatus else status, data, { p with recvData })

theorem receive_eq (fuel : Nat) (p : T1) (data : EseData) :
    receive fuel p data = (do conclude data (← turns fuel p).2) := by
  unfold receive
  rw [← turns_receiveLoop, bind_assoc]
  refine bind_congr fun r => ?_
  rw [pure_bind]
  cases r.2 <;> rfl

/-- **Each byte once, in order.** With memory to be had, what `iso7816_t1_receive` hands out is what
the receiver of an alternating-bit channel delivers of the frames that came, whatever else came
between them, and nothing is kept for the next reception. -/
theorem receive_response {fuel : Nat} {p : T1} {before : EseData} {ι : Nat → Input} {m : Mem}
    (hp : p.recvData.Drained)
    (hA : ∀ e ∈ (receive fuel p before).trace world ι m, Granted e)
    (hlen : (arrived p ((turns fuel p).run world ι m).1.1).flatten.length < 2 ^ 32)
    {status : EseStatus} {response : EseData} {p' : T1}
    (hrun : ((receive fuel p before).run world ι m).1 = some (status, response, p')) :
    response = responseOf (arrived p ((turns fuel p).run world ι m).1.1).flatten before ∧
      p'.recvData.Drained := by
  rw [receive_eq, Prog.trace_bind] at hA
  rw [receive_eq, Prog.run_bind] at hrun
  have hloop := (wp_sound (M := .idle world) (m := ()) (wp_turns_receiver ample_granted fuel p (by
    rw [DataList.Whole, hp.1, hp.2]
    rfl)) ι fun e he => hA e (List.mem_append_left _ he)).2
  generalize hr : ((turns fuel p).run world ι m).1 = r at *
  obtain ⟨met, result⟩ := r
  cases result with
  | none => cases hrun
  | some result =>
    obtain ⟨status', q⟩ := result
    obtain ⟨hwhole, hflat⟩ := hloop status' q rfl
    rw [hp.2, List.nil_append] at hflat
    have hget := (wp_sound (M := .idle world) (m := ()) (p := conclude before (some (status', q)))
      (Q := fun r _ _ => ∀ status response p', r = some (status, response, p') →
        response = responseOf q.recvData.packets.flatten before ∧ p'.recvData.Drained)
      (by
        unfold conclude
        rw [wp_bind]
        refine wp_mono (wp_eseDataGet ample_granted hwhole (hflat ▸ hlen)) fun r _ _ hr => ?_
        intro status response p' heq
        cases heq
        exact hr) _ fun e he => hA e (List.mem_append_right _ he)).2
    rw [hflat] at hget
    exact hget status response p' hrun

/-- A card that sends `[1, 2]` with more to come, the same again, and `[3]`. -/
def twoBlocks (n : Nat) : Input :=
  { bytes := match n with
      | 0 | 7 | 11 => [0x21]
      | 1 | 8 => [0x20, 2]
      | 2 | 9 => [1, 2, 0x00]
      | 12 => [0x40, 1]
      | 13 => [3, 0x63]
      | _ => [] }

/-- The host that it answers. -/
def listener : T1 := .init 0x12 0x21

theorem receive_twoBlocks_isSome :
    ((receive 3 listener ⟨0, none⟩).run world twoBlocks ⟨0, none⟩).1.isSome = true := by
  decide +kernel

theorem receive_response_twoBlocks :
    (((receive 3 listener ⟨0, none⟩).run world twoBlocks ⟨0, none⟩).1.get
      receive_twoBlocks_isSome).2.1 = responseOf [1, 2, 3] ⟨0, none⟩ :=
  (receive_response ⟨rfl, rfl⟩ (by decide +kernel) (by decide +kernel)
    (Option.some_get receive_twoBlocks_isSome).symm).1.trans (by decide +kernel)

/-- **Nothing lost, nothing twice.** A card sends its response in blocks with numbers by turns, and
each of them any number of times, among silence, damaged frames and R-blocks. However much of this a
reception meets before it ends, what it hands out is a front of the response, block by block, and it
is all of the response if it met all of this. -/
theorem receive_repeated {fuel : Nat} {p : T1} {before : EseData} {ι : Nat → Input} {m : Mem}
    (hp : p.recvData.Drained)
    (hA : ∀ e ∈ (receive fuel p before).trace world ι m, Granted e)
    (number : Nat → UInt8) (hnumber : ∀ i, number (i + 1) ≠ number i)
    (hfirst : number 0 ≠ p.lastRx.iframe.seqNo) (repeats : Nat → Nat) {blocks : List Bytes}
    (hcard : (((turns fuel p).run world ι m).1.1.map fun x => asHeard x.data).filter Heard.audible <+:
      Heard.repeated number repeats 0 blocks)
    (hlen : blocks.flatten.length < 2 ^ 32)
    {status : EseStatus} {response : EseData} {p' : T1}
    (hrun : ((receive fuel p before).run world ι m).1 = some (status, response, p')) :
    ∃ got, got <+: blocks ∧ response = responseOf got.flatten before ∧
      ((((turns fuel p).run world ι m).1.1.map fun x => asHeard x.data).filter Heard.audible =
        Heard.repeated number repeats 0 blocks → got = blocks) := by
  have hblocks : Heard.delivered p.lastRx.iframe.seqNo (Heard.repeated number repeats 0 blocks) =
      blocks := Heard.delivered_repeated hnumber repeats 0 blocks hfirst
  have hfront : arrived p ((turns fuel p).run world ι m).1.1 <+: blocks := by
    unfold arrived
    rw [← Heard.delivered_filter, ← hblocks]
    exact Heard.delivered_prefix hcard
  have hshort : (arrived p ((turns fuel p).run world ι m).1.1).flatten.length < 2 ^ 32 := by
    obtain ⟨rest, hrest⟩ := hfront
    rw [← hrest, List.flatten_append, List.length_append] at hlen
    omega
  refine ⟨_, hfront, (receive_response hp hA hshort hrun).1, fun hall => ?_⟩
  unfold arrived
  rw [← Heard.delivered_filter, hall, hblocks]

theorem receive_repeated_twoBlocks :
    ∃ got, got <+: [[1, 2], [3]] ∧
      (((receive 3 listener ⟨0, none⟩).run world twoBlocks ⟨0, none⟩).1.get
        receive_twoBlocks_isSome).2.1 = responseOf got.flatten ⟨0, none⟩ ∧
      got = [[1, 2], [3]] := by
  let number : Nat → UInt8 := fun i => if i % 2 = 0 then 0 else 1
  have hnumber : ∀ i, number (i + 1) ≠ number i := fun i => by
    rcases Nat.mod_two_eq_zero_or_one i with h | h <;> simp [number, Nat.add_mod, h]
  have hlen : ([[1, 2], [3]] : List Bytes).flatten.length < 2 ^ 32 := by decide
  obtain ⟨got, hgot, hresponse, hall⟩ := receive_repeated (p := listener) ⟨rfl, rfl⟩
    (by decide +kernel) number hnumber (by decide) (fun i => if i = 0 then 1 else 0) ⟨[], rfl⟩ hlen
    (Option.some_get receive_twoBlocks_isSome).symm
  exact ⟨got, hgot, hresponse, hall rfl⟩

end Gts9Wifi.Snvm
