import Gts9Wifi.Snvm.Verify.Turns
import Gts9Wifi.Snvm.Star

/-!
# Invariants of an exchange

`star_transceive` is commands and receptions in alternation. `Exchange` says what it takes for a
property to be kept by it: `Start` holds where a command is handed to `iso7816_t1_send`, `Going` during
the reception after it, and `Done` of whatever is left. From that, `wp_starDevWrite` is the rule for a
whole write. All other operations of a write are accepted by a monitor that accepts `Mild` ones.
-/

namespace Gts9Wifi.Snvm

open Driver

/-- An operation that concerns no one but the call that issues it: a reception within its buffer, or a
copy from the command that is being processed. -/
def Mild (s : Mem) : Op → Prop
  | .load (.cmd block) _ _ => block = s.serial ∧ s.live.isSome
  | .load (.frame data) off n => off + n ≤ data.length
  | .busReceive room off n => off + n ≤ room
  | .busSend _ => False
  | _ => True

/-- The monitor accepts mild operations and stays where it is. -/
def Lenient (M : Monitor world) : Prop :=
  ∀ m o i s, Mild s o → M.ok m ⟨o, i, s⟩ ∧ M.step m ⟨o, i, s⟩ = m

theorem Lenient.tolerant {M : Monitor world} (hM : Lenient M) : Tolerant M := by
  intro m o i s ho
  refine hM m o i s ?_
  cases o with
  | load src off n =>
    cases src with
    | cmd block => exact ho.elim
    | frame data => exact ho
  | busReceive room off n => exact ho
  | busSend buf => exact ho.elim
  | _ => trivial

/-- A monitor of single operations that accepts mild ones. -/
theorem lenient_each {P : Event world → Prop} (hP : ∀ o i s, Mild s o → P ⟨o, i, s⟩) :
    Lenient (.each P) := fun _ o i s ho => ⟨hP o i s ho, rfl⟩

/-- Calls that reset the protocol. -/
def Call.Resets : Call → Prop
  | .devOpen | .devIoctl .resetProtocol | .devIoctl .resetInterface => True
  | _ => False

/-- The command that is being processed. -/
def Current (block : Nat) (s : Mem) : Prop := block = s.serial ∧ s.live.isSome

section

variable (A : Event world → Prop) (M : Monitor world) (Start Going : T1 → Mem → Prop) (Done : T1 → Prop)

/-- What an exchange has to keep. -/
structure Exchange : Prop where
  send : ∀ {p block pos size} {m : M.St} {s}, Start p s → Current block s →
    wp A M (send p (some ⟨size, some ⟨block, pos⟩⟩)) (fun r _ s' =>
      s' = s ∧ Done r.2 ∧ (r.1 = .success → Going r.2 s)) m s
  react : ∀ {p data status} {m : M.St} {s}, data.length ≤ 259 → Going p s →
    wp A M (react p (data, status)) (fun r _ s' => s' = s ∧ Going r.2 s) m s
  finish : ∀ {p recvData s}, Going p s → p.state = .idle →
    Start { p with recvData } s ∧ Done { p with recvData }
  start_done : ∀ {p s}, Start p s → Done p

end

section Rules

variable {A : Event world → Prop} {M : Monitor world} {Start Going : T1 → Mem → Prop}
  {Done : T1 → Prop} {m : M.St} {s : Mem}

theorem wp_mild (hM : Lenient M) {o : Op} (ho : Mild s o) {Q : o.Ans → M.St → Mem → Prop}
    (h : ∀ i, A ⟨o, i, s⟩ → Q (handle o i s).1 m (handle o i s).2) :
    wp A M (Prog.perform (I := iface) o) Q m s := by
  intro i hi
  obtain ⟨hok, hstep⟩ := hM m o i s ho
  refine ⟨hok, ?_⟩
  rw [hstep]
  exact h i hi

theorem wp_kzalloc (hM : Lenient M) {size : Nat} {Q : Bool → M.St → Mem → Prop} (h : ∀ b, Q b m s) :
    wp A M (Prog.perform (I := iface) (.kzalloc size)) Q m s :=
  wp_mild (o := .kzalloc size) hM trivial fun _ _ => h _

/-- A command that has been taken over is the current one. -/
theorem wp_kzallocCmd (hM : Lenient M) {buf : Bytes} {Q : Option Nat → M.St → Mem → Prop}
    (hnone : Q none m s) (hsome : Q (some (s.serial + 1)) m ⟨s.serial + 1, some buf⟩) :
    wp A M (Prog.perform (I := iface) (.kzallocCmd buf)) Q m s := by
  refine wp_mild (o := .kzallocCmd buf) hM trivial fun i _ => ?_
  have hout : ∀ r : Option Nat × Mem, r = (none, s) ∨ r = (some (s.serial + 1), ⟨s.serial + 1, some buf⟩) →
      Q r.1 m r.2 := by
    rintro r (rfl | rfl)
    · exact hnone
    · exact hsome
  refine hout _ ?_
  by_cases h : buf.length ≤ kmallocMaxSize ∧ i.fault = none
  · exact .inr (if_pos h)
  · exact .inl (if_neg h)

theorem wp_eseDataStore (hM : Lenient M) {head : DataList} {data : Bytes}
    {Q : EseStatus × DataList → M.St → Mem → Prop} (h : ∀ r, Q r m s) :
    wp A M (eseDataStore head data) Q m s := by
  unfold eseDataStore
  rw [wp_bind]
  exact wp_kzalloc hM fun b => wp_ite (fun _ => h _) fun _ => h _

theorem wp_storeStripped (hM : Lenient M) {total : DataList} {rsp : EseData}
    {Q : EseStatus × DataList → M.St → Mem → Prop} (h : ∀ r, Q r m s) :
    wp A M (storeStripped total rsp) Q m s := by
  unfold storeStripped
  exact wp_ite (fun _ => wp_eseDataStore hM h) fun _ => h _

theorem wp_eseDataGet_mild (hM : Lenient M) {head : DataList} {before : EseData}
    {Q : EseStatus × EseData × DataList → M.St → Mem → Prop} (h : ∀ r, Q r m s) :
    wp A M (eseDataGet head before) Q m s := by
  unfold eseDataGet
  refine wp_ite (fun _ => h _) fun _ => ?_
  rw [wp_bind]
  refine wp_kzalloc hM fun b => wp_ite (fun _ => h _) fun _ => ?_
  dsimp only
  refine wp_ite ?_ ?_
  · intro _
    exact h _
  · intro _
    exact h _

theorem wp_bigEndian (hM : Lenient M) {block pos : Nat} (hcur : Current block s)
    {Q : Nat → M.St → Mem → Prop} (h : ∀ n, Q n m s) : wp A M (bigEndian block pos) Q m s := by
  unfold bigEndian
  rw [wp_bind]
  exact wp_mild (o := .load (.cmd block) pos 4) hM hcur fun _ _ => h _

theorem wp_expected (hM : Lenient M) {block pos expectedSize : Nat} {rsp : EseData}
    (hcur : Current block s) {Q : Bool → M.St → Mem → Prop} (h : ∀ b, Q b m s) :
    wp A M (expected block pos expectedSize rsp) Q m s := by
  unfold expected
  generalize wantedSize expectedSize = want
  refine wp_ite (fun _ => h _) fun _ => ?_
  rw [wp_bind]
  exact wp_mild (o := .load (.cmd block) (pos + apduChainExpFlag) _) hM hcur fun _ _ => h _

variable (hM : Lenient M) (hE : Exchange A M Start Going Done)
include hM hE

/-- The loop of a reception. -/
theorem wp_receiveLoop {fuel : Nat} {p : T1} (hp : Going p s) :
    wp A M (receiveLoop fuel p) (fun r _ s' => ∀ status p', r = some (status, p') →
      s' = s ∧ Going p' s ∧ p'.state = .idle) m s := by
  induction fuel generalizing p m with
  | zero =>
    intro status p' h
    cases h
  | succ fuel ih =>
    unfold receiveLoop turn
    rw [wp_bind, wp_bind]
    refine wp_receiveFrame hM.tolerant fun data status hdata => ?_
    refine wp_mono (hE.react hdata hp) fun r m' s' hr => ?_
    obtain ⟨rfl, hgoing⟩ := hr
    refine wp_ite (fun _ => ih hgoing) fun hidle => ?_
    intro status' p' h
    cases h
    exact ⟨rfl, hgoing, not_not.1 hidle⟩

/-- A whole reception ends where the next command can be sent. -/
theorem wp_receive {fuel : Nat} {p : T1} {data : EseData} (hp : Going p s) :
    wp A M (receive fuel p data) (fun r _ s' => ∀ status data p', r = some (status, data, p') →
      s' = s ∧ Start p' s ∧ Done p') m s := by
  unfold receive
  rw [wp_bind]
  refine wp_mono (wp_receiveLoop hM hE hp) fun r m' s' hr => ?_
  cases r with
  | none =>
    intro status data p' h
    cases h
  | some r =>
    obtain ⟨status, p'⟩ := r
    obtain ⟨rfl, hgoing, hidle⟩ := hr status p' rfl
    dsimp only
    rw [wp_bind]
    refine wp_eseDataGet_mild hM fun r => ?_
    intro status' data' p'' h
    cases h
    exact ⟨rfl, hE.finish hgoing hidle⟩

/-- The exchange of one command. -/
theorem wp_again {turns block pos expectedSize size at_ fuel : Nat} {p : T1} {rsp : EseData}
    {total : DataList} (hp : Start p s) (hcur : Current block s) :
    wp A M (again turns block pos expectedSize ⟨size, some ⟨block, at_⟩⟩ fuel p rsp total)
      (fun r _ s' => ∀ verdict p' rsp total, r = some (verdict, p', rsp, total) →
        s' = s ∧ Done p' ∧ (verdict = .next → Start p' s)) m s := by
  induction fuel generalizing p rsp total m with
  | zero =>
    intro verdict p' rsp total h
    cases h
  | succ fuel ih =>
    unfold again
    rw [wp_bind]
    refine wp_mono (hE.send hp hcur) fun r m' s' hr => ?_
    obtain ⟨rfl, hdone, hgoing⟩ := hr
    refine wp_ite (fun _ => ?_) fun hok => ?_
    · intro verdict p' rsp total h
      cases h
      exact ⟨rfl, hdone, fun h => by cases h⟩
    rw [wp_bind]
    refine wp_mono (wp_receive hM hE (hgoing (not_not.1 hok))) fun r m' s'' hr => ?_
    cases r with
    | none =>
      intro verdict p' rsp total h
      cases h
    | some r =>
      obtain ⟨status, rsp', p'⟩ := r
      obtain ⟨rfl, hstart, hdone⟩ := hr status rsp' p' rfl
      -- every way out from here leaves the protocol as it is
      have hout : ∀ {verdict : Verdict} {total : DataList},
          wp A M (pure (some (verdict, p', rsp', total)) : Prog iface _)
            (fun r _ s' => ∀ verdict p' rsp total, r = some (verdict, p', rsp, total) →
              s' = s'' ∧ Done p' ∧ (verdict = .next → Start p' s'')) m' s'' := by
        intro verdict total verdict' q rsp'' total' h
        cases h
        exact ⟨rfl, hdone, fun _ => hstart⟩
      dsimp only
      refine wp_ite (fun _ => hout) fun _ => ?_
      refine wp_ite (fun _ => hout) fun _ => ?_
      rw [wp_bind]
      refine wp_bigEndian hM hcur fun flag => ?_
      rw [wp_bind]
      refine wp_expected hM hcur fun b => ?_
      refine wp_ite (fun _ => ?_) fun _ => ?_
      · rw [wp_bind]
        exact wp_eseDataStore hM fun r => hout
      refine wp_ite (fun _ => ?_) fun _ => hout
      rw [wp_bind]
      exact wp_storeStripped hM fun r => wp_ite (fun _ => hout) fun _ => ih hstart

/-- The commands of a chain. -/
theorem wp_chain {turns fuel block left i pos cmdSize : Nat} {p : T1} {total : DataList}
    (hp : Start p s) (hcur : Current block s) :
    wp A M (chain turns fuel block left i pos cmdSize p total)
      (fun r _ s' => ∀ ok p' total, r = some (ok, p', total) → s' = s ∧ Done p') m s := by
  induction left generalizing i pos cmdSize p total m with
  | zero =>
    intro ok p' total h
    cases h
    exact ⟨rfl, hE.start_done hp⟩
  | succ left ih =>
    have hout : ∀ {m : M.St}, wp A M (pure (some (false, p, total)) : Prog iface _)
        (fun r _ s' => ∀ ok p' total, r = some (ok, p', total) → s' = s ∧ Done p') m s := by
      intro m ok p' total h
      cases h
      exact ⟨rfl, hE.start_done hp⟩
    unfold chain
    refine wp_ite (fun _ => hout) fun _ => ?_
    rw [wp_bind]
    refine wp_bigEndian hM hcur fun seq => ?_
    refine wp_ite (fun _ => hout) fun _ => ?_
    rw [wp_bind]
    refine wp_bigEndian hM hcur fun dataSize => ?_
    rw [wp_bind]
    refine wp_bigEndian hM hcur fun expectedSize => ?_
    dsimp only
    generalize (dataSize + expectedSize) % 2 ^ 32 = both
    refine wp_ite (fun _ => hout) fun _ => ?_
    rw [wp_bind]
    refine wp_mono (wp_again hM hE hp hcur) fun r m' s' hr => ?_
    cases r with
    | none =>
      intro ok p' total h
      cases h
    | some r =>
      obtain ⟨verdict, p', rsp, total'⟩ := r
      obtain ⟨rfl, hdone, hstart⟩ := hr verdict p' rsp total' rfl
      have hout' : ∀ {ok : Bool} {total : DataList} {m : M.St},
          wp A M (pure (some (ok, p', total)) : Prog iface _)
            (fun r _ s'' => ∀ ok p' total, r = some (ok, p', total) → s'' = s' ∧ Done p') m s' := by
        intro ok total m ok' q total' h
        cases h
        exact ⟨rfl, hdone⟩
      cases verdict with
      | error => exact hout'
      | exit => exact hout'
      | next =>
        have hrest : ∀ r : EseStatus × DataList, wp A M
            (if r.1 ≠ .success then pure (some (false, p', r.2))
              else chain turns fuel block left (i + 1) (pos + apduChainHeaderSize + dataSize + expectedSize)
                (cmdSize - apduChainHeaderSize - dataSize - expectedSize) p' r.2)
            (fun r _ s'' => ∀ ok p' total, r = some (ok, p', total) → s'' = s' ∧ Done p') m' s' :=
          fun r => wp_ite (fun _ => hout') fun _ => ih (hstart rfl)
        refine wp_ite (fun _ => ?_) fun _ => ?_
        · rw [wp_bind]
          exact wp_storeStripped hM hrest
        · rw [wp_bind]
          exact wp_eseDataStore hM hrest

/-- A whole transceive. -/
theorem wp_transceive {turns fuel block cmdSize : Nat} {p : T1} (hp : Start p s)
    (hcur : Current block s) :
    wp A M (transceive turns fuel block cmdSize p)
      (fun r _ s' => ∀ ret rsp p', r = some (ret, rsp, p') → s' = s ∧ Done p') m s := by
  have hout : ∀ {ret : Int} {m : M.St}, wp A M
      (pure (some (ret, (⟨0, none⟩ : EseData), p)) : Prog iface _)
      (fun r _ s' => ∀ ret rsp p', r = some (ret, rsp, p') → s' = s ∧ Done p') m s := by
    intro ret m ret' rsp p' h
    cases h
    exact ⟨rfl, hE.start_done hp⟩
  unfold transceive
  refine wp_ite (fun _ => hout) fun _ => ?_
  refine wp_ite (fun _ => hout) fun _ => ?_
  rw [wp_bind]
  refine wp_bigEndian hM hcur fun chainNum => ?_
  refine wp_ite (fun _ => hout) fun _ => ?_
  rw [wp_bind]
  refine wp_mono (wp_chain hM hE hp hcur) fun r m' s' hr => ?_
  cases r with
  | none =>
    intro ret rsp p' h
    cases h
  | some r =>
    obtain ⟨ok, p', total⟩ := r
    obtain ⟨rfl, hdone⟩ := hr ok p' total rfl
    cases ok with
    | false =>
      intro ret rsp q h
      cases h
      exact ⟨rfl, hdone⟩
    | true =>
      dsimp only
      rw [wp_bind]
      refine wp_eseDataGet_mild hM fun r => ?_
      intro ret rsp q h
      cases h
      exact ⟨rfl, hdone⟩

theorem wp_writeCmd {turns fuel block : Nat} {star : Star} {buf : Bytes} (hdirect : star.direct ≤ 0)
    (hp : Start star.protocol s) (hcur : Current block s) :
    wp A M (writeCmd turns fuel block star buf) (fun r _ _ => ∀ ret star', r = some (ret, star') →
      Done star'.protocol ∧ star'.direct = star.direct) m s := by
  unfold writeCmd
  rw [wp_bind]
  refine wp_mild (o := .copyFromUser) hM trivial fun i _ => wp_ite (fun _ => ?_) fun _ => ?_
  · intro ret star' h
    cases h
    exact ⟨hE.start_done hp, rfl⟩
  refine wp_ite (fun hpos => absurd hpos (Int.not_lt.2 hdirect)) fun _ => ?_
  dsimp only
  rw [wp_bind]
  refine wp_mono (wp_transceive hM hE hp hcur) fun r m' s' hr => ?_
  cases r with
  | none =>
    intro ret star' h
    cases h
  | some r =>
    obtain ⟨ret, rsp, p'⟩ := r
    obtain ⟨-, hdone⟩ := hr ret rsp p' rfl
    refine wp_ite (fun _ => ?_) fun _ => ?_
    · intro ret star' h
      cases h
      exact ⟨hdone, rfl⟩
    · intro ret star' h
      cases h
      exact ⟨hdone, rfl⟩

/-- **A whole write in protocol mode.** The protocol is in order afterwards if it was where the command
had been taken over. -/
theorem wp_starDevWrite {turns fuel : Nat} {star : Star} {buf : Bytes} (hdirect : star.direct ≤ 0)
    (hdone : Done star.protocol) (hp : Start star.protocol ⟨s.serial + 1, some buf⟩) :
    wp A M (starDevWrite turns fuel star buf) (fun r _ _ => ∀ ret star', r = some (ret, star') →
      Done star'.protocol ∧ star'.direct = star.direct) m s := by
  have hdrop : ∀ c : Prop, ∀ _ : Decidable c,
      (if c then star.dropRsp else star).protocol = star.protocol ∧
        (if c then star.dropRsp else star).direct = star.direct := by
    intro c _
    split <;> exact ⟨rfl, rfl⟩
  unfold starDevWrite
  refine wp_ite (fun _ => ?_) fun _ => ?_
  · intro ret star' h
    cases h
    exact ⟨hdone, rfl⟩
  obtain ⟨h1, h2⟩ := hdrop (star.rsp.isSome ∧ star.rspSize > 0) inferInstance
  dsimp only
  generalize (if star.rsp.isSome ∧ star.rspSize > 0 then star.dropRsp else star) = star₁ at *
  rw [wp_bind]
  refine wp_kzallocCmd hM ?_ ?_
  · intro ret star' h
    cases h
    exact ⟨h1 ▸ hdone, h2⟩
  · dsimp only
    rw [wp_bind]
    have hp₁ : Start star₁.protocol ⟨s.serial + 1, some buf⟩ := h1 ▸ hp
    refine wp_mono (wp_writeCmd hM hE (h2 ▸ hdirect) hp₁ ⟨rfl, rfl⟩) fun r m' s' hr => ?_
    cases r with
    | none =>
      intro ret star' h
      cases h
    | some r =>
      obtain ⟨ret, star'⟩ := r
      refine (wp_bind _ _ _ _ _).2 (wp_mild (o := .kfreeCmd) hM trivial fun i _ => ?_)
      intro ret' star'' h
      cases h
      obtain ⟨h3, h4⟩ := hr ret star' rfl
      exact ⟨h3, h4.trans h2⟩

omit hE in
theorem wp_starDevRead {star : Star} {count : Nat} (hdirect : star.direct ≤ 0) :
    wp A M (starDevRead star count) (fun r _ _ =>
      r.2.protocol = star.protocol ∧ r.2.direct = star.direct) m s := by
  unfold starDevRead
  refine wp_ite (fun _ => ⟨rfl, rfl⟩) fun _ => ?_
  refine wp_ite (fun hpos => absurd hpos (Int.not_lt.2 hdirect)) fun _ => ?_
  dsimp only
  cases star.rsp with
  | none => exact ⟨rfl, rfl⟩
  | some rsp =>
    refine wp_ite (fun _ => ⟨rfl, rfl⟩) fun _ => ?_
    refine wp_ite (fun _ => ⟨rfl, rfl⟩) fun _ => ?_
    rw [wp_bind]
    refine wp_mild (o := .copyToUser _) hM trivial fun i _ => ?_
    exact wp_ite (fun _ => ⟨rfl, rfl⟩) fun _ => ⟨rfl, rfl⟩

/-- **One call in protocol mode**, where a write meets the protocol ready for a command. -/
theorem wp_call {turns fuel : Nat} {call : Call} {star : Star}
    (hreset : call.Resets → ∀ p, Done p → Done (reset p)) (hcall : call ≠ .devIoctl .setDirect)
    (hdirect : star.direct ≤ 0) (hdone : Done star.protocol)
    (hwrite : ∀ buf, call = .devWrite buf → Start star.protocol ⟨s.serial + 1, some buf⟩) :
    wp A M (call.run turns fuel star) (fun r _ _ => ∀ star', r = some star' →
      Done star'.protocol ∧ star'.direct ≤ 0) m s := by
  have hkept : ∀ {star₁ : Star}, star₁.direct = star.direct →
      Done star₁.protocol → ∀ star', some star₁ = some star' → Done star'.protocol ∧ star'.direct ≤ 0 := by
    intro star₁ h1 h2 star' h
    cases h
    exact ⟨h2, h1 ▸ hdirect⟩
  cases call with
  | devOpen =>
    unfold Call.run starDevOpen
    rw [wp_bind]
    refine wp_ite (fun _ => hkept rfl hdone) fun _ => ?_
    rw [wp_bind]
    refine wp_mild (o := .powerOn) hM trivial fun i _ => ?_
    split
    · exact hkept rfl (hreset trivial _ hdone)
    · exact hkept rfl (hreset trivial _ hdone)
  | devClose =>
    unfold Call.run starDevClose
    rw [wp_bind]
    refine wp_ite (fun _ => hkept rfl hdone) fun _ => ?_
    rw [wp_bind]
    refine wp_mild (o := .powerOff) hM trivial fun i _ => ?_
    split
    · exact hkept rfl hdone
    · exact hkept rfl hdone
  | devWrite buf =>
    unfold Call.run
    rw [wp_bind]
    refine wp_mono (wp_starDevWrite hM hE hdirect hdone (hwrite buf rfl)) fun r _ _ hr => ?_
    cases r with
    | none =>
      intro star' h
      cases h
    | some r => exact hkept (hr r.1 r.2 rfl).2 (hr r.1 r.2 rfl).1
  | devRead count =>
    unfold Call.run
    rw [wp_bind]
    refine wp_mono (wp_starDevRead hM hdirect) fun r _ _ hr => ?_
    exact hkept hr.2 (hr.1 ▸ hdone)
  | devIoctl cmd =>
    unfold Call.run starDevIoctl
    rw [wp_bind]
    cases cmd with
    | readSize =>
      dsimp only
      rw [wp_bind]
      exact wp_mild (o := .copyToUser _) hM trivial fun i _ => hkept rfl hdone
    | setDirect => exact absurd rfl hcall
    | resetProtocol => exact hkept rfl (hreset trivial _ hdone)
    | resetInterface =>
      refine (wp_bind _ _ _ _ _).2 (wp_mild (o := .chipReset) hM trivial fun i _ => ?_)
      exact hkept rfl (hreset trivial _ hdone)
    | unknown => exact hkept rfl hdone
    | badMagic => exact hkept rfl hdone

/-- **A whole run in protocol mode**, for a property that leaves the protocol ready for a command. -/
theorem wp_session {turns fuel : Nat} {calls : List Call} {star : Star}
    (hreset : ∀ call ∈ calls, call.Resets → ∀ p, Done p → Done (reset p))
    (hstart : ∀ p s, Done p → Start p s) (hcalls : ∀ call ∈ calls, call ≠ .devIoctl .setDirect) (hdirect : star.direct ≤ 0)
    (hdone : Done star.protocol) :
    wp A M (session turns fuel calls star) (fun r _ _ => ∀ star', r = some star' →
      Done star'.protocol) m s := by
  induction calls generalizing star m s with
  | nil =>
    intro star' h
    cases h
    exact hdone
  | cons call calls ih =>
    obtain ⟨hcall, hcalls⟩ := List.forall_mem_cons.1 hcalls
    obtain ⟨hthis, hreset⟩ := List.forall_mem_cons.1 hreset
    unfold session
    rw [wp_bind]
    refine wp_mono (wp_call hM hE hthis hcall hdirect hdone fun buf _ => hstart _ _ hdone) fun r _ _ hr => ?_
    cases r with
    | none =>
      intro star' h
      cases h
    | some star₁ => exact ih hreset hcalls (hr star₁ rfl).2 (hr star₁ rfl).1

end Rules

end Gts9Wifi.Snvm
