import Gts9Wifi.Shim.Verify.Format
import Mathlib.Logic.Relation

/-!
# No buffer of the shim overflows

The shim fills its arrays by hand: `msg` and `b` through an `outbuf`, whose end leaves room for the
closing NUL, `line` and `buf` by loops that stop a few characters short of the end, so that what is
added behind them fits, and `tmp` by a division loop that checks nothing at all. The formatter is
followed round by round, so that a run that ends at an argument that is not there is covered as well.
-/

namespace Gts9Wifi.Shim

open Driver Relation

/-! ## Lines -/

/-- A line of `emit`: the tag and the text, each cut where the room for it ends. -/
theorem emit_eq (tag text : Option (List Char)) :
    emit tag text = some ('[' :: (tag.getD []).take 1017 ++ [']', ' '] ++
      (text.getD []).take (1019 - ((tag.getD []).take 1017).length) ++ ['\n']) := by
  have htag : ((tag.getD []).take 1017).length ≤ 1017 := List.length_take_le _ _
  unfold emit logBuf
  rw [push_bind (by decide), pushAll_bind (by decide)]
  simp only [List.nil_append, List.length_singleton, List.singleton_append, Nat.add_one_sub_one]
  generalize (tag.getD []).take 1017 = t at htag
  rw [push_bind (by simp only [List.length_cons]; omega),
    push_bind (by simp only [List.length_append, List.length_cons, List.length_nil]; omega),
    pushAll_bind (by decide), push_of_lt]
  · simp
  · simp
    omega

theorem wakeLog_eq (what : List Char) (id : Option (List Char)) :
    wakeLog what id = some ("[wakelock] ".toList ++ what.take 83 ++ [' '] ++
      (id.getD []).take (82 - (what.take 83).length) ++ ['\n']) := by
  have hwhat : (what.take 83).length ≤ 83 := List.length_take_le _ _
  have hhead : "[wakelock] ".toList.take 94 = "[wakelock] ".toList := by decide
  have hlen : "[wakelock] ".toList.length = 11 := by decide
  unfold wakeLog
  rw [pushAll_bind (by decide)]
  simp only [List.nil_append, List.length_nil, Nat.sub_zero, Nat.reduceSub, hhead]
  generalize "[wakelock] ".toList = head at hlen
  rw [pushAll_bind (by decide), hlen]
  generalize what.take 83 = w at hwhat
  have hroom : 96 - 2 - (head ++ w ++ [' ']).length = 82 - w.length := by
    simp only [List.length_append, List.length_singleton]
    omega
  rw [push_bind (by simp only [List.length_append]; omega), pushAll_bind (by decide), hroom, push_of_lt]
  simp only [List.length_append, List.length_singleton, List.length_take]
  omega

theorem emit_line (tag text : Option (List Char)) :
    ∃ line, emit tag text = some line ∧ line.length ≤ 1024 ∧ line.getLast? = some '\n' := by
  refine ⟨_, emit_eq tag text, ?_, List.getLast?_concat⟩
  simp only [List.cons_append, List.length_cons, List.length_append, List.length_take, List.length_nil]
  omega

/-- The longest line fills the array to its last character. -/
theorem wakeLog_line (what : List Char) (id : Option (List Char)) :
    ∃ line, wakeLog what id = some line ∧ line.length ≤ 96 ∧ line.getLast? = some '\n' := by
  have hlen : "[wakelock] ".toList.length = 11 := by decide
  refine ⟨_, wakeLog_eq what id, ?_, List.getLast?_concat⟩
  simp only [List.length_append, List.length_singleton, List.length_take, hlen]
  omega

/-! ## Numbers -/

/-- Twenty digits in base 10 are the most there are. -/
theorem length_tmp (v : BitVec 64) {base : Nat} (h10 : 10 ≤ base) (h16 : base ≤ 16) :
    (tmp v base).length ≤ 20 := by
  rw [← List.length_reverse, reverse_tmp v (by omega) h16,
    Nat.length_toDigits_le_iff (by omega) (by decide)]
  calc v.toNat < 2 ^ 64 := v.isLt
    _ ≤ 10 ^ 20 := by decide
    _ ≤ base ^ 20 := Nat.pow_le_pow_left h10 20

/-! ## The formatter -/

/-- An `outbuf` over an array of `size` characters: its end is before the last one, and it has not been
passed. -/
structure Outbuf.Fits (size : Nat) (o : Outbuf) : Prop where
  room : o.room < size
  text : o.text.length ≤ o.room

namespace Outbuf.Fits

variable {size : Nat} {o : Outbuf}

theorem oput (h : o.Fits size) (c : Char) : (oput o c).Fits size where
  room := h.room
  text := by
    simp only [Shim.oput]
    split
    · simp only [List.length_append, List.length_singleton]
      omega
    · exact h.text

theorem play (h : o.Fits size) (l : List Event) : (l.foldl Outbuf.play o).Fits size := by
  induction l generalizing o with
  | nil => exact h
  | cons e l ih =>
    cases e with
    | put c => exact ih (h.oput c)
    | arg c v => exact ih ⟨h.room, h.text⟩

theorem oputs (h : o.Fits size) (s : Option (List Char)) : (oputs o s).Fits size := by
  rw [Shim.oputs, foldl_oput]
  exact h.play _

theorem ounum (h : o.Fits size) (v : BitVec 64) (base : Nat) (neg : Bool) :
    (ounum o v base neg).Fits size := by
  rw [ounum_tmp, foldl_oput]
  cases neg with
  | true => exact (h.oput '-').play _
  | false => exact h.play _

/-- The closing NUL has its place. -/
theorem close (h : o.Fits size) : o.close size = some (o.text ++ ['\x00']) :=
  push_of_lt (Nat.lt_of_le_of_lt h.text h.room)

theorem closed (h : o.Fits size) :
    ∃ dst, o.close size = some dst ∧ dst.length ≤ size ∧ dst.getLast? = some '\x00' := by
  refine ⟨_, h.close, ?_, List.getLast?_concat⟩
  have hroom := h.room
  have htext := h.text
  simp only [List.length_append, List.length_singleton]
  omega

end Outbuf.Fits

/-- What `vm_log` does once its text stands in `b`. -/
theorem vmLog_emitted {o : Outbuf} (h : o.Fits 160) :
    ∃ b line, (do
        let b ← o.close 160
        let line ← emit (some "vmmem".toList) (some (cString b))
        return (b, line)) = some (b, line) ∧
      (b.length ≤ 160 ∧ b.getLast? = some '\x00') ∧
      line.length ≤ 1024 ∧ line.getLast? = some '\n' := by
  obtain ⟨b, hb, hclosed⟩ := h.closed
  obtain ⟨line, hline, hemitted⟩ := emit_line (some "vmmem".toList) (some (cString b))
  refine ⟨b, line, ?_, hclosed, hemitted⟩
  rw [hb, Option.bind_eq_bind, Option.bind_some, hline]
  rfl

theorem vmLog_line (msg name : Option (List Char)) (val : BitVec 64) (hasVal : Bool) :
    ∃ b line, vmLog msg name val hasVal = some (b, line) ∧
      (b.length ≤ 160 ∧ b.getLast? = some '\x00') ∧
      line.length ≤ 1024 ∧ line.getLast? = some '\n' := by
  have hmsg : (oputs ⟨[], 160 - 1, []⟩ msg).Fits 160 :=
    Outbuf.Fits.oputs ⟨by decide, by decide⟩ msg
  cases name with
  | none =>
    cases hasVal with
    | false => exact vmLog_emitted hmsg
    | true => exact vmLog_emitted ((hmsg.oput ' ').ounum _ _ _)
  | some name =>
    have hname := (hmsg.oput ' ').oputs (some name)
    cases hasVal with
    | false => exact vmLog_emitted hname
    | true => exact vmLog_emitted ((hname.oput ' ').ounum _ _ _)

/-! ### Round by round -/

/-- One round of the loop over the format. -/
inductive Round (mem : Memory) : List Char × State → List Char × State → Prop
  | literal {c : Char} {fmt : List Char} {s : State} (h : c ≠ '%') :
    Round mem (c :: fmt, s) (fmt, { s with o := oput s.o c })
  | percent {fmt : List Char} {s : State} :
    Round mem ('%' :: '%' :: fmt, s) (fmt, { s with o := oput s.o '%' })
  | conversion {fmt rest : List Char} {d : Char} {s s' : State} (h : fmt.head? ≠ some '%')
    (hd : fmt.dropWhile skipped = d :: rest) (hs : convert mem d s = some s') :
    Round mem ('%' :: fmt, s) (rest, s')

/-- The loop gets on in rounds until it returns, or comes to a conversion whose argument is not there. -/
theorem rounds_end (mem : Memory) (fmt : List Char) (s : State) :
    ∃ rest s', ReflTransGen (Round mem) (fmt, s) (rest, s') ∧
      (scan mem fmt s = some s' ∨ scan mem fmt s = none ∧
        ∃ body d rest', rest = '%' :: body ∧ body.dropWhile skipped = d :: rest' ∧
          convert mem d s' = none) := by
  induction fmt, s using scan.induct mem with
  | case1 s =>
    rw [scan]
    exact ⟨[], s, .refl, .inl rfl⟩
  | case2 c fmt s hc ih =>
    rw [scan, if_pos hc]
    obtain ⟨rest, s', hrest, hend⟩ := ih
    exact ⟨rest, s', .head (.literal hc) hrest, hend⟩
  | case3 c fmt s hc hp ih =>
    obtain rfl : c = '%' := not_not.1 hc
    cases fmt with
    | nil => cases hp
    | cons d fmt =>
      obtain rfl := Option.some.inj hp
      rw [scan_percent]
      obtain ⟨rest, s', hrest, hend⟩ := ih
      exact ⟨rest, s', .head .percent hrest, hend⟩
  | case4 c fmt s hc hp hd =>
    -- flags up to the end of the format
    rw [scan, if_neg hc, if_neg hp]
    split
    · exact ⟨_, s, .refl, .inl rfl⟩
    · next heq => cases hd.symm.trans heq
  | case5 c fmt s hc hp d rest hd hs =>
    obtain rfl : c = '%' := not_not.1 hc
    rw [scan_directive mem hp hd, hs]
    exact ⟨_, s, .refl, .inr ⟨rfl, fmt, d, rest, rfl, hd, hs⟩⟩
  | case6 c fmt s hc hp d rest hd s' hs ih =>
    obtain rfl : c = '%' := not_not.1 hc
    rw [scan_directive mem hp hd, hs]
    obtain ⟨rest', s'', hrest, hend⟩ := ih
    exact ⟨rest', s'', .head (.conversion hp hd hs) hrest, hend⟩

/-- A conversion takes at most one argument, and whatever it prints goes through `oput`. -/
theorem convert_play {mem : Memory} {d : Char} {s s' : State} (h : convert mem d s = some s') :
    (∃ l : List Event, s'.o = l.foldl Outbuf.play s.o) ∧ s.ap.length ≤ s'.ap.length + 1 := by
  by_cases hd : ∃ l : Letter, d = l.char
  · obtain ⟨l, rfl⟩ := hd
    obtain ⟨v, ap, hap, rfl⟩ := convert_letter_eq_some h
    exact ⟨⟨_, rfl⟩, by simp only [hap, List.length_cons, Nat.le_refl]⟩
  · rw [convert_of_not_letter mem (not_exists.1 hd)] at h
    obtain rfl := Option.some.inj h
    exact ⟨⟨_, rfl⟩, Nat.le_succ _⟩

/-- A round leaves the buffer within its array. -/
theorem Round.fits {mem : Memory} {a b : List Char × State} {size : Nat} (h : Round mem a b)
    (hfits : a.2.o.Fits size) : b.2.o.Fits size := by
  cases h with
  | literal hc => exact hfits.oput _
  | percent => exact hfits.oput _
  | conversion hp hd hs =>
    obtain ⟨⟨l, hl⟩, -⟩ := convert_play hs
    simp only [hl]
    exact hfits.play l

theorem rounds_fits {mem : Memory} {a b : List Char × State} {size : Nat}
    (h : ReflTransGen (Round mem) a b) (hfits : a.2.o.Fits size) : b.2.o.Fits size := by
  induction h with
  | refl => exact hfits
  | tail _ hround ih => exact hround.fits ih

/-- What `vformat` starts from. -/
def start (dstlen : Nat) (ap : List Slot) : State := ⟨⟨[], dstlen - 1, []⟩, ap⟩

theorem start_fits {dstlen : Nat} (h : 0 < dstlen) (ap : List Slot) : (start dstlen ap).o.Fits dstlen :=
  ⟨Nat.sub_one_lt_of_lt h, Nat.zero_le _⟩

theorem vformat_fits {mem : Memory} {dstlen : Nat} {fmt : Option (List Char)} {ap : List Slot}
    {s : State} (hpos : 0 < dstlen) (h : vformat mem dstlen fmt ap = some s) : s.o.Fits dstlen := by
  have hstart := start_fits hpos ap
  cases fmt with
  | none =>
    obtain rfl := Option.some.inj h
    exact hstart.oputs _
  | some fmt =>
    have hscan : scan mem fmt (start dstlen ap) = some s := h
    obtain ⟨rest, s', hrest, hend⟩ := rounds_end mem fmt (start dstlen ap)
    rcases hend with hs' | ⟨hnone, -⟩
    · obtain rfl := Option.some.inj (hs'.symm.trans hscan)
      exact rounds_fits hrest hstart
    · exact nomatch hnone.symm.trans hscan

/-! ### Runs that return -/

/-- There is a string at every address but `NULL`. -/
def Readable (mem : Memory) : Prop := ∀ v, v ≠ 0 → (mem v).isSome

theorem convert_isSome {mem : Memory} (hmem : Readable mem) (d : Char) {s : State} (h : s.ap ≠ []) :
    ∃ s', convert mem d s = some s' := by
  by_cases hd : ∃ l : Letter, d = l.char
  · obtain ⟨l, rfl⟩ := hd
    obtain ⟨o, ap⟩ := s
    cases ap with
    | nil => exact absurd rfl h
    | cons v ap =>
      refine ⟨_, convert_letter mem l v o ap fun _ => ?_⟩
      unfold string
      split
      · rfl
      · next hv => simpa using hmem v hv
  · exact ⟨_, convert_of_not_letter mem (not_exists.1 hd) s⟩

/-- A round takes no more arguments than it takes characters of the format. -/
theorem Round.args_left {mem : Memory} {a b : List Char × State} (h : Round mem a b)
    (ha : a.1.length ≤ a.2.ap.length) : b.1.length ≤ b.2.ap.length := by
  cases h with
  | literal hc =>
    simp only [List.length_cons] at ha ⊢
    omega
  | percent =>
    simp only [List.length_cons] at ha ⊢
    omega
  | @conversion fmt rest d s s' hp hd hs =>
    have hap := (convert_play hs).2
    have hdrop := (List.dropWhile_suffix (l := fmt) skipped).length_le
    simp only [hd, List.length_cons] at ha hdrop ⊢
    omega

theorem rounds_args_left {mem : Memory} {a b : List Char × State} (h : ReflTransGen (Round mem) a b)
    (ha : a.1.length ≤ a.2.ap.length) : b.1.length ≤ b.2.ap.length := by
  induction h with
  | refl => exact ha
  | tail _ hround ih => exact hround.args_left ih

/-- With an argument for each character of the format there are enough of them. -/
theorem scan_isSome {mem : Memory} (hmem : Readable mem) {fmt : List Char} {s : State}
    (h : fmt.length ≤ s.ap.length) : (scan mem fmt s).isSome := by
  obtain ⟨rest, s', hrest, hend⟩ := rounds_end mem fmt s
  rcases hend with hs' | ⟨-, body, d, rest', rfl, hd, hnone⟩
  · rw [hs']
    rfl
  · have hleft : ('%' :: body).length ≤ s'.ap.length := rounds_args_left hrest h
    have hap : s'.ap ≠ [] := by
      intro hnil
      simp [hnil] at hleft
    obtain ⟨s'', hs''⟩ := convert_isSome hmem d hap
    exact nomatch hnone.symm.trans hs''

theorem vformat_isSome {mem : Memory} (hmem : Readable mem) {fmt : Option (List Char)} {ap : List Slot}
    (h : (fmt.getD []).length ≤ ap.length) (dstlen : Nat) : (vformat mem dstlen fmt ap).isSome := by
  cases fmt with
  | none => rfl
  | some fmt => exact scan_isSome (s := start dstlen ap) hmem h

/-! ## The result -/

/-- **No array of the shim is written outside.** `vformat` stays below its destination's length in every
round, also in a run that breaks off, and closes what it returns; `tmp` holds every number; and what
`emit`, `wake_log` and `vm_log` write fits and ends its line. -/
theorem buffers_hold :
    (∀ mem dstlen ap, 0 < dstlen →
      (∀ fmt rest s, ReflTransGen (Round mem) (fmt, start dstlen ap) (rest, s) →
        s.o.text.length < dstlen) ∧
      (∀ fmt s, vformat mem dstlen fmt ap = some s →
        ∃ dst, s.o.close dstlen = some dst ∧ dst.length ≤ dstlen ∧ dst.getLast? = some '\x00') ∧
      (Readable mem → ∀ fmt, (fmt.getD []).length ≤ ap.length →
        (vformat mem dstlen fmt ap).isSome)) ∧
    (∀ o v base neg, base = 10 ∨ base = 16 →
      ounum o v base neg = (tmp v base).reverse.foldl oput (if neg then oput o '-' else o) ∧
      (tmp v base).length ≤ 24 ∧ (tmp v base).reverse = Nat.toDigits base v.toNat) ∧
    (∀ tag text, ∃ line, emit tag text = some line ∧ line.length ≤ 1024 ∧
      line.getLast? = some '\n') ∧
    (∀ what id, ∃ line, wakeLog what id = some line ∧ line.length ≤ 96 ∧
      line.getLast? = some '\n') ∧
    ∀ msg name val hasVal, ∃ b line, vmLog msg name val hasVal = some (b, line) ∧
      (b.length ≤ 160 ∧ b.getLast? = some '\x00') ∧
      line.length ≤ 1024 ∧ line.getLast? = some '\n' := by
  refine ⟨?_, ?_, emit_line, wakeLog_line, vmLog_line⟩
  · intro mem dstlen ap hpos
    refine ⟨fun fmt rest s hrest => ?_, fun fmt s hs => ?_, fun hmem fmt hle => ?_⟩
    · have hfits : s.o.Fits dstlen := rounds_fits hrest (start_fits hpos ap)
      exact Nat.lt_of_le_of_lt hfits.text hfits.room
    · exact (vformat_fits hpos hs).closed
    · exact vformat_isSome hmem hle dstlen
  · intro o v base neg hbase
    have h10 : 10 ≤ base := by omega
    have h16 : base ≤ 16 := by omega
    exact ⟨ounum_tmp o v base neg, (length_tmp v h10 h16).trans (by decide),
      reverse_tmp v (by omega) h16⟩

/-- A string and a number, in a buffer that is too short for the string alone. -/
theorem buffers_hold_shortBuffer : ∃ s dst,
    vformat (fun _ => some (List.replicate 20 'x')) 8 (some ['%', 's', '%', 'd']) [1, 2, 3, 4] = some s ∧
      s.o.close 8 = some dst ∧ dst.length ≤ 8 ∧ dst.getLast? = some '\x00' := by
  obtain ⟨-, hclosed, hreturns⟩ :=
    buffers_hold.1 (fun _ => some (List.replicate 20 'x')) 8 [1, 2, 3, 4] (by decide)
  have hsome := hreturns (fun _ _ => rfl) (some ['%', 's', '%', 'd']) (by decide)
  obtain ⟨s, hs⟩ := Option.isSome_iff_exists.1 hsome
  obtain ⟨dst, hdst⟩ := hclosed _ s hs
  exact ⟨s, dst, hs, hdst⟩

end Gts9Wifi.Shim
