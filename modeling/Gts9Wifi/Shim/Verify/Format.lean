import Mathlib.Data.List.Basic
import Mathlib.Data.List.Induction
import Mathlib.Data.List.TakeWhile
import Gts9Wifi.Shim.AndroidShim

/-!
# Each conversion is printed from its own argument

A call of the formatter is a list of pieces, each with the arguments that belong to it: its format is
their text in a row, and its `va_list` their arguments in a row. What C says of a piece is which
arguments it takes and what it prints of them; flags, width and precision lay the text out, which this
formatter leaves alone on purpose. It passes by flags and numbers, but it knows neither the length
modifiers nor `*`: there it prints what it does not know, takes nothing, and every later conversion gets
an argument that is not its own. And it takes every number as one of 64 bits, whatever the caller left
above an `int`.
-/

namespace Gts9Wifi.Shim

/-! ## Calls -/

/-- A width or a precision: in the format, or an `int` among the arguments. -/
inductive Amount
  | number (n : Nat)
  | star (v : Slot)

def Amount.text : Amount → List Char
  | .number n => Nat.toDigits 10 n
  | .star _ => ['*']

def Amount.args : Amount → List Slot
  | .number _ => []
  | .star v => [v]

inductive Flag
  | minus | plus | space | hash | zero

def Flag.char : Flag → Char
  | .minus => '-'
  | .plus => '+'
  | .space => ' '
  | .hash => '#'
  | .zero => '0'

inductive Length
  | h | l | ll | z

def Length.text : Length → List Char
  | .h => ['h']
  | .l => ['l']
  | .ll => ['l', 'l']
  | .z => ['z']

/-- How many bits the argument has: of an `int` if there is no modifier. -/
def bits : Option Length → Nat
  | none => 32
  | some .h => 16
  | some _ => 64

inductive Letter
  | d | i | u | x | p | s | c
deriving DecidableEq

def Letter.char : Letter → Char
  | .d => 'd'
  | .i => 'i'
  | .u => 'u'
  | .x => 'x'
  | .p => 'p'
  | .s => 's'
  | .c => 'c'

/-- A conversion and the argument it prints. -/
structure Conversion where
  flags : List Flag
  width : Option Amount
  precision : Option (Option Amount)
  length : Option Length
  letter : Letter
  arg : Slot

namespace Conversion

def precisionText (v : Conversion) : List Char :=
  match v.precision with
  | none => []
  | some a => '.' :: (a.elim [] Amount.text)

/-- What stands between `%` and the letter. -/
def layout (v : Conversion) : List Char :=
  v.flags.map Flag.char ++ v.width.elim [] Amount.text ++ v.precisionText ++ v.length.elim [] Length.text

def text (v : Conversion) : List Char :=
  '%' :: (v.layout ++ [v.letter.char])

/-- The arguments that `*` stands for. -/
def stars (v : Conversion) : List Slot :=
  v.width.elim [] Amount.args ++ (v.precision.join).elim [] Amount.args

def args (v : Conversion) : List Slot :=
  v.stars ++ [v.arg]

def readable (mem : Memory) (v : Conversion) : Bool :=
  v.letter ≠ .s ∨ (string mem v.arg).isSome

end Conversion

/-- A number in decimal. -/
def signed (n : Int) : List Char :=
  if n < 0 then '-' :: Nat.toDigits 10 n.natAbs else Nat.toDigits 10 n.natAbs

/-- What C prints of the argument. -/
def Conversion.printed (mem : Memory) (v : Conversion) : List Char :=
  match v.letter with
  | .d | .i => signed (v.arg.setWidth (bits v.length)).toInt
  | .u => Nat.toDigits 10 (v.arg.setWidth (bits v.length)).toNat
  | .x => Nat.toDigits 16 (v.arg.setWidth (bits v.length)).toNat
  | .p => "0x".toList ++ Nat.toDigits 16 v.arg.toNat
  | .s => ((string mem v.arg).join).getD "(null)".toList
  | .c => [Char.ofNat (v.arg.toNat % 256)]

/-- A character of the format that stands for itself, `%%`, or a conversion. -/
inductive Piece
  | lit (c : Char) (h : c ≠ '%' ∧ c ≠ '\x00')
  | percent
  | conv (v : Conversion)

namespace Piece

def text : Piece → List Char
  | lit c _ => [c]
  | percent => ['%', '%']
  | conv v => v.text

def args : Piece → List Slot
  | conv v => v.args
  | _ => []

/-- What C says of a piece: the arguments are taken, and the last one of them is printed. -/
def events (mem : Memory) : Piece → List Event
  | lit c _ => [.put c]
  | percent => [.put '%']
  | conv v => v.stars.map (.arg '*') ++ .arg v.letter.char v.arg :: (v.printed mem).map .put

end Piece

def format (call : List Piece) : List Char := call.flatMap Piece.text
def args (call : List Piece) : List Slot := call.flatMap Piece.args

/-- Every `%s` has a string to print. -/
def Matching (mem : Memory) (call : List Piece) : Prop :=
  ∀ v, .conv v ∈ call → v.readable mem

/-- What has been printed, whether it fitted or not. -/
def puts (tape : List Event) : List Char :=
  tape.filterMap fun
    | .put c => some c
    | .arg _ _ => none

/-- The formatter takes and prints what C says, as far as the buffer goes. -/
def Faithful (mem : Memory) (dstlen : Nat) (call : List Piece) : Prop :=
  ∃ s, vformat mem dstlen (format call) (args call) = some s
    ∧ s.o.tape = call.flatMap (Piece.events mem)
    ∧ s.o.text = (puts (call.flatMap (Piece.events mem))).take (dstlen - 1)

/-- Nothing the formatter does not know. -/
def Conversion.Plain (v : Conversion) : Prop :=
  v.stars = [] ∧ v.length = none

/-- The caller has extended an `int` to the 64 bits that are taken. -/
def Conversion.Extended (v : Conversion) : Prop :=
  match v.letter with
  | .d | .i => v.arg = (v.arg.setWidth 32).signExtend 64
  | .u | .x => v.arg = (v.arg.setWidth 32).setWidth 64
  | _ => True

/-! ## The buffer -/

/-- What an event does to the buffer. -/
def Outbuf.play (o : Outbuf) : Event → Outbuf
  | .put c => oput o c
  | .arg c v => { o with tape := o.tape ++ [.arg c v] }

@[simp] theorem foldl_oput (o : Outbuf) (l : List Char) :
    l.foldl oput o = (l.map .put).foldl Outbuf.play o := by
  rw [List.foldl_map]
  rfl

@[simp] theorem play_tape (o : Outbuf) (l : List Event) : (l.foldl Outbuf.play o).tape = o.tape ++ l := by
  induction l generalizing o with
  | nil => simp
  | cons e l ih => cases e <;> simp [ih, Outbuf.play, oput]

@[simp] theorem play_room (o : Outbuf) (l : List Event) : (l.foldl Outbuf.play o).room = o.room := by
  induction l generalizing o with
  | nil => rfl
  | cons e l ih => cases e <;> simp [ih, Outbuf.play, oput]

/-- Nothing is lost before the buffer is full. -/
def Outbuf.Full (o : Outbuf) : Prop :=
  o.text = (puts o.tape).take o.room

theorem Outbuf.Full.oput {o : Outbuf} (h : o.Full) (c : Char) : (oput o c).Full := by
  have hl : o.text.length = min o.room (puts o.tape).length := by
    rw [h, List.length_take]
  have hp : puts (o.tape ++ [.put c]) = puts o.tape ++ [c] := by
    simp [puts]
  simp only [Outbuf.Full, Shim.oput, hp]
  split
  · have hall : o.text = puts o.tape := by
      rw [h, List.take_of_length_le (by omega)]
    rw [hall, List.take_of_length_le]
    simp only [List.length_append, List.length_singleton]
    omega
  · rw [List.take_append_of_le_length (by omega)]
    exact h

theorem Outbuf.Full.play {o : Outbuf} (h : o.Full) (l : List Event) : (l.foldl Outbuf.play o).Full := by
  induction l generalizing o with
  | nil => exact h
  | cons e l ih =>
    cases e with
    | put c => exact ih (h.oput c)
    | arg c v =>
      apply ih
      simpa [Outbuf.Full, Outbuf.play, puts] using h

/-! ## Numbers -/

theorem digit_eq (d : Nat) (h : d < 16) : digit d = Nat.digitChar d := by
  decide +revert

theorem digitChar_inj : ∀ a < 16, ∀ b < 16, Nat.digitChar a = Nat.digitChar b → a = b := by
  decide

theorem reverse_digits {base : Nat} (h2 : 2 ≤ base) (h16 : base ≤ 16) (v : Nat) (hv : v ≠ 0) :
    (digits base v).reverse = Nat.toDigits base v := by
  induction v using Nat.strongRecOn with
  | ind v ih =>
    have hd : digit (v % base) = Nat.digitChar (v % base) :=
      digit_eq _ (Nat.lt_of_lt_of_le (Nat.mod_lt v (by omega)) h16)
    rw [digits, if_neg (by omega), List.reverse_cons, hd]
    by_cases hlt : v < base
    · rw [Nat.div_eq_of_lt hlt, digits, Nat.mod_eq_of_lt hlt, Nat.toDigits_of_lt_base hlt]
      simp
    · have hq : v / base ≠ 0 := Nat.ne_of_gt (Nat.div_pos (by omega) (by omega))
      rw [ih _ (Nat.div_lt_self (by omega) (by omega)) hq,
        ← Nat.toDigits_of_base_le (by omega) (Nat.le_of_not_lt hlt)]

/-- The digits that `ounum` has in `tmp`, the last one first. -/
def tmp (v : BitVec 64) (base : Nat) : List Char :=
  if v = 0 then ['0'] else digits base v.toNat

theorem ounum_tmp (o : Outbuf) (v : BitVec 64) (base : Nat) (neg : Bool) :
    ounum o v base neg = (tmp v base).reverse.foldl oput (if neg then oput o '-' else o) := rfl

theorem reverse_tmp (v : BitVec 64) {base : Nat} (h2 : 2 ≤ base) (h16 : base ≤ 16) :
    (tmp v base).reverse = Nat.toDigits base v.toNat := by
  unfold tmp
  by_cases hv : v = 0
  · simp [hv]
  · rw [if_neg hv]
    exact reverse_digits h2 h16 _ fun h0 => hv (BitVec.eq_of_toNat_eq h0)

theorem ounum_eq (o : Outbuf) (v : BitVec 64) {base : Nat} (neg : Bool) (h2 : 2 ≤ base)
    (h16 : base ≤ 16) :
    ounum o v base neg
      = ((if neg then ['-'] else []) ++ Nat.toDigits base v.toNat).foldl oput o := by
  rw [ounum_tmp, reverse_tmp v h2 h16, List.foldl_append]
  cases neg <;> rfl

/-- Also of the least number, which has no negative in 64 bits. -/
theorem ounum_signed (o : Outbuf) (v : BitVec 64) :
    (if v.toInt < 0 then ounum o (-v) 10 true else ounum o v 10 false)
      = (signed v.toInt).foldl oput o := by
  have hn := BitVec.toInt_eq_toNat_cond v
  have hlt := v.isLt
  unfold signed
  split
  · have hneg : (-v).toNat = v.toInt.natAbs := by
      rw [BitVec.toNat_neg]
      split at hn <;> omega
    rw [ounum_eq _ _ _ (by decide) (by decide), hneg]
    rfl
  · have hpos : v.toNat = v.toInt.natAbs := by
      split at hn <;> omega
    rw [ounum_eq _ _ _ (by decide) (by decide), hpos]
    rfl

theorem toDigits_inj {base : Nat} (h2 : 2 ≤ base) (h16 : base ≤ 16) {a b : Nat}
    (h : Nat.toDigits base a = Nat.toDigits base b) : a = b := by
  induction a using Nat.strongRecOn generalizing b with
  | ind a ih =>
    rw [Nat.toDigits_eq_if (by omega), Nat.toDigits_eq_if (n := b) (by omega)] at h
    split at h <;> split at h
    · exact digitChar_inj _ (by omega) _ (by omega) (by simpa using h)
    · simp [List.singleton_eq_append_iff] at h
    · simp [List.append_eq_singleton_iff] at h
    · obtain ⟨hq, hr⟩ := List.append_inj' h rfl
      have hlt (n : Nat) : n % base < 16 := Nat.lt_of_lt_of_le (Nat.mod_lt n (by omega)) h16
      have hmod : a % base = b % base := digitChar_inj _ (hlt a) _ (hlt b) (by simpa using hr)
      have hdiv : a / base = b / base := ih _ (Nat.div_lt_self (by omega) (by omega)) hq
      rw [← Nat.div_add_mod a base, ← Nat.div_add_mod b base, hmod, hdiv]

theorem signed_inj {a b : Int} (h : signed a = signed b) : a = b := by
  have hd (n : Nat) : '-' ∉ Nat.toDigits 10 n := fun hm =>
    absurd (Nat.isDigit_of_mem_toDigits (by decide) (by decide) hm) (by decide)
  unfold signed at h
  split at h <;> split at h
  · have := toDigits_inj (by decide) (by decide) (List.cons.inj h).2
    omega
  · exact absurd (h ▸ List.mem_cons_self) (hd _)
  · exact absurd (h ▸ List.mem_cons_self) (hd _)
  · have := toDigits_inj (by decide) (by decide) h
    omega

/-! ## The scan -/

theorem scan_literals (mem : Memory) {t : List Char} (h : '%' ∉ t) (rest : List Char) (s : State) :
    scan mem (t ++ rest) s = scan mem rest { s with o := (t.map .put).foldl Outbuf.play s.o } := by
  induction t generalizing s with
  | nil => rfl
  | cons c t ih =>
    rw [List.mem_cons, not_or] at h
    rw [List.cons_append, scan, if_pos (Ne.symm h.1), ih h.2]
    rfl

theorem scan_directive (mem : Memory) {fmt rest : List Char} {d : Char} (h : fmt.head? ≠ some '%')
    (hd : fmt.dropWhile skipped = d :: rest) (s : State) :
    scan mem ('%' :: fmt) s = (convert mem d s).bind (scan mem rest) := by
  rw [scan, if_neg (by simp), if_neg h]
  split
  · simp_all
  · rename_i d' rest' heq
    rw [hd] at heq
    obtain ⟨rfl, rfl⟩ := List.cons.inj heq
    cases convert mem d s <;> rfl

/-- A conversion: what decides is the first character that is not passed by. What follows it up to the
next piece is printed as it stands. -/
theorem scan_conversion (mem : Memory) {body t : List Char} {d : Char} (hb : '%' ∉ body)
    (hd : body.dropWhile skipped = d :: t) (rest : List Char) (s : State) :
    scan mem ('%' :: (body ++ rest)) s = (convert mem d s).bind fun s =>
      scan mem rest { s with o := (t.map .put).foldl Outbuf.play s.o } := by
  have hne : body ≠ [] := by
    rintro rfl
    simp at hd
  have hhead : (body ++ rest).head? ≠ some '%' := by
    cases body with
    | nil => contradiction
    | cons b body =>
      intro h
      exact hb (Option.some.inj h ▸ List.mem_cons_self)
  have hdrop : (body ++ rest).dropWhile skipped = d :: (t ++ rest) := by
    simp [List.dropWhile_append, hd]
  have ht : '%' ∉ t := fun h =>
    hb ((List.dropWhile_suffix skipped).subset (hd ▸ List.mem_cons_of_mem d h))
  rw [scan_directive mem hhead hdrop]
  exact congrArg (Option.bind _) (funext fun s => scan_literals mem ht rest s)

/-! ## What is passed by -/

theorem skipped_of_isDigit {c : Char} (h : c.isDigit) : skipped c := by
  rw [Char.isDigit_iff_toNat] at h
  by_cases h0 : c = '0'
  · simp [skipped, h0]
  · have hn : c.toNat ≠ '0'.toNat := fun hn => h0 (Char.toNat_inj.mp hn)
    have h1 : '1' ≤ c := by
      rw [Char.le_def, UInt32.le_iff_toNat_le]
      change '0'.toNat + 1 ≤ c.toNat
      omega
    have h9 : c ≤ '9' := by
      rw [Char.le_def, UInt32.le_iff_toNat_le]
      exact h.2
    simp [skipped, h1, h9]

/-- The characters of a conversion that the formatter does not know. -/
def unknown : List Char := ['*', 'h', 'l', 'z']

theorem skipped_number (n : Nat) : ∀ c ∈ Nat.toDigits 10 n, skipped c :=
  fun _ h => skipped_of_isDigit (Nat.isDigit_of_mem_toDigits (by decide) (by decide) h)

theorem skipped_amount_iff (a : Option Amount) :
    (∀ c ∈ a.elim [] Amount.text, skipped c) ↔ a.elim [] Amount.args = [] := by
  rcases a with _ | n | v
  · simp
  · exact ⟨fun _ => rfl, fun _ => skipped_number n⟩
  · simp [Amount.text, Amount.args, skipped]

theorem skipped_precision_iff (v : Conversion) :
    (∀ c ∈ v.precisionText, skipped c) ↔ v.precision.join.elim [] Amount.args = [] := by
  unfold Conversion.precisionText
  rcases v.precision with _ | a
  · simp
  · rw [List.forall_mem_cons, skipped_amount_iff]
    exact and_iff_right (by decide)

theorem skipped_length_iff (l : Option Length) :
    (∀ c ∈ l.elim [] Length.text, skipped c) ↔ l = none := by
  rcases l with _ | _ | _ | _ | _ <;> simp [Length.text, skipped]

theorem skipped_flags (l : List Flag) : ∀ c ∈ l.map Flag.char, skipped c := by
  rw [List.forall_mem_map]
  intro f _
  cases f <;> decide

/-- A conversion is plain if all of it is passed by. -/
theorem skipped_layout_iff (v : Conversion) : (∀ c ∈ v.layout, skipped c) ↔ v.Plain := by
  simp only [Conversion.layout, List.forall_mem_append, skipped_amount_iff, skipped_precision_iff,
    skipped_length_iff, Conversion.Plain, Conversion.stars, List.append_eq_nil_iff]
  exact and_congr_left fun _ => and_congr_left fun _ => and_iff_right (skipped_flags v.flags)

theorem known_amount (a : Option Amount) : ∀ c ∈ a.elim [] Amount.text, skipped c ∨ c ∈ unknown := by
  rcases a with _ | n | v
  · simp
  · exact fun c h => .inl (skipped_number n c h)
  · simp [Amount.text, unknown]

theorem known_layout (v : Conversion) : ∀ c ∈ v.layout, skipped c ∨ c ∈ unknown := by
  have hp : ∀ c ∈ v.precisionText, skipped c ∨ c ∈ unknown := by
    unfold Conversion.precisionText
    rcases v.precision with _ | a
    · simp
    · exact List.forall_mem_cons.mpr ⟨by decide, known_amount a⟩
  have hl : ∀ c ∈ v.length.elim [] Length.text, skipped c ∨ c ∈ unknown := by
    rcases v.length with _ | _ | _ | _ | _ <;> simp [Length.text, unknown]
  simp only [Conversion.layout, List.forall_mem_append]
  exact ⟨⟨⟨fun c h => .inl (skipped_flags v.flags c h), known_amount v.width⟩, hp⟩, hl⟩

theorem percent_notMem_layout (v : Conversion) : '%' ∉ v.layout := fun h =>
  absurd (known_layout v '%' h) (by decide)

theorem percent_notMem_body (v : Conversion) : '%' ∉ v.layout ++ [v.letter.char] := by
  rw [List.mem_append, not_or]
  exact ⟨percent_notMem_layout v, by cases v.letter <;> decide⟩

theorem not_skipped_letter (l : Letter) : skipped l.char = false := by
  cases l <;> decide

/-- The formatter gets as far as the letter. -/
theorem dropWhile_of_plain {v : Conversion} (h : v.Plain) :
    (v.layout ++ [v.letter.char]).dropWhile skipped = [v.letter.char] := by
  have hnil : v.layout.dropWhile skipped = [] :=
    List.dropWhile_eq_nil_iff.mpr ((skipped_layout_iff v).mpr h)
  simp [List.dropWhile_append, hnil, not_skipped_letter]

/-- The formatter stops at what it does not know. -/
theorem dropWhile_of_not_plain {v : Conversion} (h : ¬v.Plain) :
    ∃ d t, (v.layout ++ [v.letter.char]).dropWhile skipped = d :: t ∧ d ∈ unknown := by
  have hne : v.layout.dropWhile skipped ≠ [] := fun h0 =>
    h ((skipped_layout_iff v).mp (List.dropWhile_eq_nil_iff.mp h0))
  cases hd : v.layout.dropWhile skipped with
  | nil => contradiction
  | cons d t =>
    refine ⟨d, t ++ [v.letter.char], by simp [List.dropWhile_append, hd], ?_⟩
    have hmem : d ∈ v.layout := (List.dropWhile_suffix skipped).subset (hd ▸ List.mem_cons_self)
    have hns : skipped d = false := by
      have := List.head_dropWhile_not skipped hne
      simpa [hd] using this
    exact (known_layout v d hmem).resolve_left (by simp [hns])

/-! ## What the formatter does -/

/-- What is printed of the slot that is taken for a letter. -/
def taken (mem : Memory) (l : Letter) (v : Slot) : List Char :=
  match l with
  | .d | .i => signed v.toInt
  | .u => Nat.toDigits 10 v.toNat
  | .x => Nat.toDigits 16 v.toNat
  | .p => "0x".toList ++ Nat.toDigits 16 v.toNat
  | .s => ((string mem v).join).getD "(null)".toList
  | .c => [Char.ofNat (v.toNat % 256)]

theorem convert_letter (mem : Memory) (l : Letter) (v : Slot) (o : Outbuf) (ap : List Slot)
    (h : l = .s → (string mem v).isSome) :
    convert mem l.char ⟨o, v :: ap⟩
      = some ⟨(.arg l.char v :: (taken mem l v).map .put).foldl Outbuf.play o, ap⟩ := by
  have hd (o : Outbuf) : (if v.toInt < 0 then
      some (State.mk (ounum o (-v) 10 true) ap) else some (State.mk (ounum o v 10 false) ap))
      = some ⟨(signed v.toInt).foldl oput o, ap⟩ := by
    rw [← ounum_signed]
    split <;> rfl
  cases l with
  | d => simp [convert, Letter.char, vaArg, taken, hd, Outbuf.play]
  | i => simp [convert, Letter.char, vaArg, taken, hd, Outbuf.play]
  | u => simp [convert, Letter.char, vaArg, taken, ounum_eq, Outbuf.play]
  | x => simp [convert, Letter.char, vaArg, taken, ounum_eq, Outbuf.play]
  | p => simp [convert, Letter.char, vaArg, taken, ounum_eq, oputs, Outbuf.play]
  | s =>
    obtain ⟨t, ht⟩ := Option.isSome_iff_exists.mp (h rfl)
    simp [convert, Letter.char, vaArg, taken, oputs, Outbuf.play, ht]
  | c => simp [convert, Letter.char, vaArg, taken, Outbuf.play]

/-- A letter takes the next argument, which has to be there. -/
theorem convert_letter_eq_some {mem : Memory} {l : Letter} {s s' : State}
    (h : convert mem l.char s = some s') :
    ∃ v ap, s.ap = v :: ap ∧
      s' = ⟨(.arg l.char v :: (taken mem l v).map .put).foldl Outbuf.play s.o, ap⟩ := by
  obtain ⟨o, ap⟩ := s
  cases ap with
  | nil => cases l <;> simp [convert, Letter.char, vaArg] at h
  | cons v ap =>
    have hs : l = .s → (string mem v).isSome := by
      rintro rfl
      cases hv : string mem v with
      | none => simp [convert, Letter.char, vaArg, hv] at h
      | some t => rfl
    rw [convert_letter mem l v o ap hs] at h
    exact ⟨v, ap, rfl, (Option.some.inj h).symm⟩

/-- Anything else is printed as it stands. -/
theorem convert_of_not_letter (mem : Memory) {d : Char} (h : ∀ l : Letter, d ≠ l.char) (s : State) :
    convert mem d s = some { s with o := [.put '%', .put d].foldl Outbuf.play s.o } := by
  unfold convert
  split
  · exact absurd rfl (h .s)
  · exact absurd rfl (h .d)
  · exact absurd rfl (h .i)
  · exact absurd rfl (h .u)
  · exact absurd rfl (h .x)
  · exact absurd rfl (h .p)
  · exact absurd rfl (h .c)
  · rfl

theorem not_letter_of_unknown {d : Char} (h : d ∈ unknown) (l : Letter) : d ≠ l.char := by
  rintro rfl
  revert h
  cases l <;> decide

theorem scan_plain (mem : Memory) {v : Conversion} (h : v.Plain) (rest : List Char) (s : State) :
    scan mem (v.text ++ rest) s = (convert mem v.letter.char s).bind (scan mem rest) :=
  scan_conversion mem (percent_notMem_body v) (dropWhile_of_plain h) rest s

/-- Of any other conversion nothing is taken. -/
theorem scan_not_plain (mem : Memory) {v : Conversion} (h : ¬v.Plain) :
    ∃ t : List Char, ∀ rest s,
      scan mem (v.text ++ rest) s = scan mem rest { s with o := (t.map .put).foldl Outbuf.play s.o } := by
  obtain ⟨d, t, hd, hu⟩ := dropWhile_of_not_plain h
  refine ⟨'%' :: d :: t, fun rest s => ?_⟩
  rw [Conversion.text, List.cons_append, scan_conversion mem (percent_notMem_body v) hd,
    convert_of_not_letter mem (not_letter_of_unknown hu)]
  rfl

theorem scan_percent (mem : Memory) (rest : List Char) (s : State) :
    scan mem ('%' :: '%' :: rest) s = scan mem rest { s with o := oput s.o '%' } := by
  rw [scan, if_neg (by simp), if_pos (by rfl)]
  rfl

/-! ## Calls of plain conversions -/

/-- What the formatter does to a plain piece. -/
def Piece.does (mem : Memory) : Piece → List Event
  | conv v => .arg v.letter.char v.arg :: (taken mem v.letter v.arg).map .put
  | p => p.events mem

theorem scan_call (mem : Memory) {call : List Piece} (hm : Matching mem call)
    (hp : ∀ v, .conv v ∈ call → v.Plain) (o : Outbuf) :
    scan mem (format call) ⟨o, args call⟩
      = some ⟨(call.flatMap (Piece.does mem)).foldl Outbuf.play o, []⟩ := by
  induction call generalizing o with
  | nil => simp [format, args, scan]
  | cons p call ih =>
    have ih := ih (fun v hv => hm v (List.mem_cons_of_mem p hv))
      (fun v hv => hp v (List.mem_cons_of_mem p hv))
    simp only [format, args, List.flatMap_cons, List.foldl_append] at ih ⊢
    cases p with
    | lit c h =>
      rw [Piece.text, scan_literals mem (by simpa using Ne.symm h.1)]
      exact ih _
    | percent =>
      rw [Piece.text, List.cons_append, List.cons_append, scan_percent]
      exact ih _
    | conv v =>
      have hpl := hp v List.mem_cons_self
      have hr : v.letter = .s → (string mem v.arg).isSome := by
        intro hs
        simpa [Conversion.readable, hs] using hm v List.mem_cons_self
      rw [Piece.text, scan_plain mem hpl, Piece.args, Conversion.args, hpl.1, List.nil_append,
        List.singleton_append, convert_letter mem v.letter v.arg o _ hr]
      exact ih _

/-! ## Counting the arguments -/

def reads (tape : List Event) : Nat :=
  tape.countP fun
    | .arg _ _ => true
    | .put _ => false

@[simp] theorem reads_append (a b : List Event) : reads (a ++ b) = reads a + reads b :=
  List.countP_append

@[simp] theorem reads_puts (t : List Char) : reads (t.map .put) = 0 := by
  simp [reads, List.countP_eq_zero]

theorem reads_conv (mem : Memory) (v : Conversion) : 1 ≤ reads ((Piece.conv v).events mem) := by
  rw [Piece.events, ← List.singleton_append, reads_append, reads_append]
  simp [reads]
  omega

theorem reads_convert {mem : Memory} {l : Letter} {s s' : State} (h : convert mem l.char s = some s') :
    reads s'.o.tape = reads s.o.tape + 1 := by
  obtain ⟨v, ap, -, rfl⟩ := convert_letter_eq_some h
  rw [play_tape, ← List.singleton_append, reads_append, reads_append, reads_puts]
  rfl

/-- No more arguments are taken than C takes, and fewer unless all conversions are plain. -/
theorem reads_scan {mem : Memory} {call : List Piece} {s s' : State}
    (h : scan mem (format call) s = some s') :
    reads s'.o.tape ≤ reads s.o.tape + reads (call.flatMap (Piece.events mem))
      ∧ (reads s'.o.tape = reads s.o.tape + reads (call.flatMap (Piece.events mem)) →
        ∀ v, .conv v ∈ call → v.Plain) := by
  induction call generalizing s with
  | nil =>
    simp only [format, List.flatMap_nil, scan, Option.some.injEq] at h
    subst h
    simp [reads]
  | cons p call ih =>
    simp only [format, List.flatMap_cons, reads_append] at h ih ⊢
    cases p with
    | lit c hc =>
      rw [Piece.text, scan_literals mem (by simpa using Ne.symm hc.1)] at h
      simpa [Piece.events, Outbuf.play, oput, reads] using ih h
    | percent =>
      rw [Piece.text, List.cons_append, List.cons_append, scan_percent] at h
      simpa [Piece.events, oput, reads] using ih h
    | conv v =>
      have hv := reads_conv mem v
      by_cases hpl : v.Plain
      · rw [Piece.text, scan_plain mem hpl] at h
        obtain ⟨s₁, hc, h⟩ := Option.bind_eq_some_iff.mp h
        have h1 := reads_convert hc
        obtain ⟨hle, hall⟩ := ih h
        refine ⟨by omega, fun heq w hw => ?_⟩
        rcases List.mem_cons.mp hw with hw | hw
        · cases hw
          exact hpl
        · exact hall (by omega) w hw
      · obtain ⟨t, ht⟩ := scan_not_plain mem hpl
        rw [Piece.text, ht] at h
        have h1 := (ih h).1
        simp only [play_tape, reads_append, reads_puts] at h1
        exact ⟨by omega, fun heq => by omega⟩

/-! ## The arguments of a plain call -/

/-- The tape tells the conversions apart. -/
theorem tape_inj {a b : List Event} {c : Char} {v : Slot} {s t : List Char}
    (h : a ++ .arg c v :: s.map .put = b ++ .arg c v :: t.map .put) : a = b ∧ s = t := by
  have hnil {m y : List Event} {l : List Char} (h : .arg c v :: l.map .put = m ++ .arg c v :: y) :
      m = [] := by
    cases m with
    | nil => rfl
    | cons e m =>
      have hmem : Event.arg c v ∈ l.map .put := by
        rw [(List.cons.inj h).2]
        simp
      simp at hmem
  have hab : a = b := by
    rcases List.append_eq_append_iff.mp h with ⟨m, hm, hs⟩ | ⟨m, hm, hs⟩
    · simp [hm, hnil hs]
    · simp [hm, hnil hs]
  subst hab
  have hst := (List.cons.inj (List.append_cancel_left h)).2
  exact ⟨rfl, (List.map_inj_right fun _ _ h => Event.put.inj h).mp hst⟩

theorem taken_eq_of_tape {mem : Memory} {call : List Piece} (hp : ∀ v, .conv v ∈ call → v.Plain)
    (h : call.flatMap (Piece.does mem) = call.flatMap (Piece.events mem)) :
    ∀ v, .conv v ∈ call → taken mem v.letter v.arg = v.printed mem := by
  -- from the end of the call, since it is the end of the tape that tells where a text starts
  induction call using List.reverseRecOn with
  | nil => simp
  | append_singleton call p ih =>
    have hp' : ∀ v, .conv v ∈ call → v.Plain := fun v hv => hp v (List.mem_append_left _ hv)
    simp only [List.flatMap_append, List.flatMap_singleton] at h
    intro v hv
    rw [List.mem_append, List.mem_singleton] at hv
    cases p with
    | lit c hc =>
      exact ih hp' (List.append_cancel_right h) v (hv.resolve_right nofun)
    | percent =>
      exact ih hp' (List.append_cancel_right h) v (hv.resolve_right nofun)
    | conv w =>
      have hw : w.stars = [] := (hp w (by simp)).1
      rw [Piece.does, Piece.events, hw] at h
      obtain ⟨hcall, htext⟩ := tape_inj h
      rcases hv with hv | hv
      · exact ih hp' hcall v hv
      · cases hv
        exact htext

theorem taken_eq_iff (mem : Memory) {v : Conversion} (h : v.Plain) :
    taken mem v.letter v.arg = v.printed mem ↔ v.Extended := by
  obtain ⟨flags, width, precision, length, letter, arg⟩ := v
  obtain rfl : length = none := h.2
  have hd : signed arg.toInt = signed (arg.setWidth 32).toInt ↔ arg = (arg.setWidth 32).signExtend 64 := by
    rw [← BitVec.toInt_inj, BitVec.toInt_signExtend_of_le (by decide)]
    exact ⟨signed_inj, congrArg signed⟩
  have hu {base : Nat} (h2 : 2 ≤ base) (h16 : base ≤ 16) :
      Nat.toDigits base arg.toNat = Nat.toDigits base (arg.setWidth 32).toNat
        ↔ arg = (arg.setWidth 32).setWidth 64 := by
    have hw : ((arg.setWidth 32).setWidth 64).toNat = (arg.setWidth 32).toNat :=
      BitVec.toNat_setWidth_of_le (by decide)
    rw [← BitVec.toNat_inj, hw]
    exact ⟨toDigits_inj h2 h16, congrArg (Nat.toDigits base)⟩
  cases letter with
  | d => exact hd
  | i => exact hd
  | u => exact hu (by decide) (by decide)
  | x => exact hu (by decide) (by decide)
  | p => simp [taken, Conversion.printed, Conversion.Extended]
  | s => simp [taken, Conversion.printed, Conversion.Extended]
  | c => simp [taken, Conversion.printed, Conversion.Extended]

theorem events_of_taken {mem : Memory} {p : Piece}
    (h : ∀ v, p = .conv v → v.Plain ∧ taken mem v.letter v.arg = v.printed mem) :
    p.does mem = p.events mem := by
  cases p with
  | lit c hc => rfl
  | percent => rfl
  | conv v =>
    obtain ⟨hp, ht⟩ := h v rfl
    rw [Piece.does, Piece.events, hp.1, ht]
    rfl

/-! ## The result -/

/-- **The formatter does what C says if and only if no conversion has a length modifier or a `*`, and
every `int` has been extended to 64 bits by the caller.** -/
theorem faithful_iff (mem : Memory) (dstlen : Nat) (call : List Piece) (hm : Matching mem call) :
    Faithful mem dstlen call ↔ ∀ v, .conv v ∈ call → v.Plain ∧ v.Extended := by
  constructor
  · rintro ⟨s, hs, htape, -⟩
    have hreads := (reads_scan hs).2 (by simp [htape, reads])
    have hscan := scan_call mem hm hreads ⟨[], dstlen - 1, []⟩
    have hdoes : call.flatMap (Piece.does mem) = call.flatMap (Piece.events mem) := by
      rw [← htape]
      cases hs.symm.trans hscan
      simp
    intro v hv
    exact ⟨hreads v hv, (taken_eq_iff mem (hreads v hv)).mp (taken_eq_of_tape hreads hdoes v hv)⟩
  · intro h
    have hscan := scan_call mem hm (fun v hv => (h v hv).1) ⟨[], dstlen - 1, []⟩
    have hdoes : call.flatMap (Piece.does mem) = call.flatMap (Piece.events mem) := by
      refine List.flatMap_congr fun p hp => events_of_taken fun v hv => ?_
      obtain ⟨hpl, hx⟩ := h v (hv ▸ hp)
      exact ⟨hpl, (taken_eq_iff mem hpl).mpr hx⟩
    rw [hdoes] at hscan
    refine ⟨_, hscan, by simp, ?_⟩
    have hfull : Outbuf.Full ⟨[], dstlen - 1, []⟩ := by
      simp [Outbuf.Full, puts]
    simpa [Outbuf.Full] using hfull.play (call.flatMap (Piece.events mem))

/-- `"%s: %-4d%%"` of a string and the number -7, extended. -/
def statusCall : List Piece :=
  [.conv ⟨[], none, none, none, .s, 0x1000⟩, .lit ':' (by decide), .lit ' ' (by decide),
    .conv ⟨[.minus], some (.number 4), none, none, .d, -7⟩, .percent]

/-- `"%ld %s"` of the number 5 and a string. -/
def longCall : List Piece :=
  [.conv ⟨[], none, none, some .l, .d, 5⟩, .lit ' ' (by decide), .conv ⟨[], none, none, none, .s, 0x1000⟩]

def oneString : Memory := fun v => if v = 0x1000 then some "spu".toList else none

theorem faithful_statusCall :
    format statusCall = "%s: %-4d%%".toList ∧ Matching oneString statusCall
      ∧ Faithful oneString 1024 statusCall := by
  have hm : Matching oneString statusCall := by
    simp [Matching, statusCall, Conversion.readable, string, oneString]
  refine ⟨by decide, hm, (faithful_iff oneString 1024 statusCall hm).mpr ?_⟩
  simp [statusCall, Conversion.Plain, Conversion.stars, Conversion.Extended, Amount.args]

/-- The 5 is taken for the address of the string. -/
theorem unfaithful_longCall :
    format longCall = "%ld %s".toList ∧ args longCall = [5, 0x1000] ∧ Matching oneString longCall
      ∧ vformat oneString 1024 (format longCall) (args longCall) = none
      ∧ ¬Faithful oneString 1024 longCall := by
  have hnone : vformat oneString 1024 (format longCall) (args longCall) = none := by
    have hf : format longCall = '%' :: (['l', 'd'] ++ ([' '] ++ '%' :: (['s'] ++ []))) := by decide
    have ha : args longCall = [5, 0x1000] := by decide
    have hld : ['l', 'd'].dropWhile skipped = 'l' :: ['d'] := by decide
    have hs (o : Outbuf) : scan oneString ('%' :: (['s'] ++ [])) ⟨o, [5, 0x1000]⟩ = none := by
      rw [scan_conversion oneString (by decide) (by decide : ['s'].dropWhile skipped = 's' :: [])]
      simp [convert, vaArg, string, oneString]
    simp only [vformat, hf, ha]
    rw [scan_conversion oneString (by decide) hld, convert_of_not_letter oneString (not_letter_of_unknown (by decide))]
    exact (scan_literals oneString (by decide : '%' ∉ [' ']) _ _).trans (hs _)
  refine ⟨by decide, by decide, ?_, hnone, ?_⟩
  · simp [Matching, longCall, Conversion.readable, string, oneString]
  · rintro ⟨s, hs, -⟩
    rw [hnone] at hs
    cases hs

end Gts9Wifi.Shim
