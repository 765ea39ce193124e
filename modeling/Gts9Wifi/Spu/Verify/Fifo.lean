import Gts9Wifi.Lib.RingQueue
import Gts9Wifi.Spu.GlinkSpss

/-!
# A pipe is a queue

The two sides of a pipe take turns in any order, the reader also in the middle of a write. All bytes
that are published make one stream, of which the indices are places, reduced modulo the FIFO's size:
the reader sees this stream from where it stands, nothing of a write that is not published yet, and
nothing is overwritten that it has not passed over. The reserves of `glink_spss_tx_avail` are what it
takes that a full FIFO is never mistaken for an empty one.
-/

namespace Gts9Wifi.Spu

open Driver

/-- The size of a FIFO. -/
structure Sized (n : Nat) : Prop where
  aligned : 8 ∣ n
  pos : 16 ≤ n
  small : n ≤ 2 ^ 30

section Ops

variable {pipe : Pipe} {data : Bytes} {w r : Nat} (hsize : Sized pipe.length)
include hsize

omit hsize in
theorem wrap_congr {pipe' : Pipe} {a : Nat} (h : pipe'.length = pipe.length) :
    pipe'.wrap a = pipe.wrap a := by
  unfold Pipe.wrap
  rw [h]

theorem wrap_mod {a : Nat} (h : a < 2 * pipe.length) : pipe.wrap (a % 2 ^ 32) = a % pipe.length := by
  obtain ⟨-, hpos, hsmall⟩ := hsize
  rw [Nat.mod_eq_of_lt (show a < 2 ^ 32 by omega), mod_of_lt_two_mul h]
  unfold Pipe.wrap
  by_cases hlt : a < pipe.length
  · rw [if_neg (Nat.not_le_of_lt hlt), if_pos hlt]
  · rw [if_pos (Nat.le_of_not_lt hlt), if_neg hlt]

omit hsize in
theorem copyIn_eq {off : Nat} (h : off + data.length ≤ pipe.length) :
    pipe.copyIn off data = some { pipe with fifo := overwrite pipe.fifo off data } := by
  unfold Pipe.copyIn
  split
  · next hzero =>
    have hnil : data = [] := List.length_eq_zero_iff.1 hzero
    simp [hnil, overwrite]
  · rfl

omit hsize in
theorem copyOut_eq {off n : Nat} (h : off + n ≤ pipe.length) :
    pipe.copyOut off n = some (slice pipe.fifo off n) := by
  unfold Pipe.copyOut
  split
  · next hzero => simp [hzero, slice]
  · rfl

/-- A write goes round the ring. -/
theorem glinkSpssTxWriteOne_eq {head : Nat} (hhead : head < pipe.length)
    (hdata : data.length ≤ pipe.length) :
    glinkSpssTxWriteOne pipe head data =
      some ({ pipe with fifo := ringPut pipe.fifo head data }, (head + data.length) % pipe.length) := by
  have hsub : sizeSub pipe.length head = pipe.length - head := if_pos (Nat.le_of_lt hhead)
  have hwrap : pipe.wrap ((head + data.length) % 2 ^ 32) = (head + data.length) % pipe.length :=
    wrap_mod hsize (by omega)
  have hput : ringPut pipe.fifo head data =
      overwrite (overwrite pipe.fifo head (data.take (min data.length (pipe.length - head)))) 0
        (data.drop (min data.length (pipe.length - head))) := by
    unfold ringPut
    dsimp only
    split
    · rfl
    · next hall =>
      rw [show pipe.length = pipe.fifo.length from rfl, not_not.1 hall]
      simp [overwrite]
  have hfirst : head + (data.take (min data.length (pipe.length - head))).length ≤ pipe.length := by
    rw [List.length_take]
    omega
  have hsame : (overwrite pipe.fifo head (data.take (min data.length (pipe.length - head)))).length =
      pipe.length := length_overwrite hfirst
  have hsecond : 0 + (data.drop (min data.length (pipe.length - head))).length ≤ pipe.length := by
    rw [List.length_drop]
    omega
  have hlast : Pipe.length { pipe with
      fifo := overwrite (overwrite pipe.fifo head (data.take (min data.length (pipe.length - head)))) 0
        (data.drop (min data.length (pipe.length - head))) } = pipe.length :=
    (length_overwrite (by rw [hsame]; exact hsecond)).trans hsame
  unfold glinkSpssTxWriteOne
  rw [hsub]
  dsimp only
  rw [copyIn_eq hfirst, Option.bind_eq_bind, Option.bind_some, copyIn_eq (by
    show _ ≤ (overwrite _ _ _).length
    rw [hsame]
    exact hsecond), Option.bind_some, hput, ← hwrap, ← wrap_congr hlast]
  rfl

/-- A look from `tail` on. -/
theorem glinkSpssRxPeak_eq {offset count : Nat} (htail : pipe.tail < pipe.length)
    (hcount : offset + count ≤ pipe.length) :
    glinkSpssRxPeak pipe offset count = some (ringGet pipe.fifo (pipe.tail + offset) count) := by
  have hwrap : pipe.wrap ((pipe.tail + offset) % 2 ^ 32) = (pipe.tail + offset) % pipe.length :=
    wrap_mod hsize (by omega)
  have hlt : (pipe.tail + offset) % pipe.length < pipe.length := Nat.mod_lt _ (by omega)
  have hsub : sizeSub pipe.length ((pipe.tail + offset) % pipe.length) =
      pipe.length - (pipe.tail + offset) % pipe.length := if_pos (Nat.le_of_lt hlt)
  unfold glinkSpssRxPeak
  rw [hwrap]
  dsimp only
  rw [hsub, copyOut_eq (by omega), Option.bind_eq_bind, Option.bind_some, copyOut_eq (by omega),
    Option.bind_some]
  refine congrArg some ?_
  rw [← ringGet_mod]
  exact (ringGet_eq_pieces hlt (by show count ≤ pipe.length; omega)).symm

section Indices

variable (htail : pipe.tail = r % pipe.length) (hhead : pipe.head = w % pipe.length) (hrw : r ≤ w)
  (hfull : w < r + pipe.length)
include htail hhead hrw hfull

/-- The two indices, and how far they are apart. -/
theorem head_tail : pipe.tail < pipe.length ∧ pipe.head < pipe.length ∧
    (pipe.head + (if pipe.head < pipe.tail then pipe.length else 0) = pipe.tail + (w - r)) := by
  have hpos : 0 < pipe.length := by have := hsize.pos; omega
  have ht : pipe.tail < pipe.length := htail ▸ Nat.mod_lt _ hpos
  have hh : pipe.head < pipe.length := hhead ▸ Nat.mod_lt _ hpos
  have hw : pipe.head = (pipe.tail + (w - r)) % pipe.length := by
    rw [hhead, htail, Nat.mod_add_mod, Nat.add_sub_cancel' hrw]
  rw [mod_of_lt_two_mul (by omega)] at hw
  refine ⟨ht, hh, ?_⟩
  split at hw
  · rw [if_neg (by omega)]
    omega
  · rw [if_pos (by omega)]
    omega

theorem glinkSpssRxAvail_eq : glinkSpssRxAvail pipe = w - r := by
  obtain ⟨ht, hh, hdist⟩ := head_tail hsize htail hhead hrw hfull
  have hsmall := hsize.small
  have hsub : sizeSub pipe.length pipe.tail = pipe.length - pipe.tail := if_pos (Nat.le_of_lt ht)
  unfold glinkSpssRxAvail
  rw [hsub]
  split at hdist
  · next hlt =>
    rw [if_pos hlt, Nat.mod_eq_of_lt (by omega)]
    omega
  · next hge =>
    rw [if_neg hge]
    omega

/-- What is left but for the two reserves. -/
theorem glinkSpssTxAvail_eq : glinkSpssTxAvail pipe = pipe.length - (w - r) - 16 := by
  obtain ⟨ht, hh, hdist⟩ := head_tail hsize htail hhead hrw hfull
  have hsmall := hsize.small
  have hsub : sizeSub pipe.length pipe.head = pipe.length - pipe.head := if_pos (Nat.le_of_lt hh)
  have havail : (if pipe.tail ≤ pipe.head then (sizeSub pipe.length pipe.head + pipe.tail) % 2 ^ 32
      else pipe.tail - pipe.head) = pipe.length - (w - r) := by
    rw [hsub]
    split at hdist
    · next hlt =>
      rw [if_neg (Nat.not_le_of_lt hlt)]
      omega
    · next hge =>
      rw [if_pos (Nat.le_of_not_lt hge), Nat.mod_eq_of_lt (by omega)]
      omega
  unfold glinkSpssTxAvail
  rw [havail]
  unfold fifoFullReserve txBlockedCmdReserve
  dsimp only
  split <;> omega

end Indices

theorem glinkSpssRxAdvance_eq {count : Nat} (htail : pipe.tail = r % pipe.length)
    (hcount : count < pipe.length) :
    glinkSpssRxAdvance pipe count = { pipe with tail := (r + count) % pipe.length } := by
  have hlt : pipe.tail < pipe.length := htail ▸ Nat.mod_lt _ (by omega)
  unfold glinkSpssRxAdvance
  rw [wrap_mod hsize (by omega), htail, Nat.mod_add_mod]

end Ops

/-- The room that `n` bytes take. -/
def padded (n : Nat) : Nat := (n + 7) / 8 * 8

theorem padded_spec (n : Nat) : n ≤ padded n ∧ padded n < n + 8 ∧ 8 ∣ padded n :=
  ⟨by unfold padded; omega, by unfold padded; omega, Nat.dvd_mul_left 8 _⟩

/-- The head is published at the next multiple of eight. -/
theorem publish_eq {pipe : Pipe} {w n : Nat} (hsize : Sized pipe.length) (hw : 8 ∣ w) :
    publish pipe ((w + n) % pipe.length) = { pipe with head := (w + padded n) % pipe.length } := by
  obtain ⟨haligned, hpos, hsmall⟩ := hsize
  have hlt : (w + n) % pipe.length < pipe.length := Nat.mod_lt _ (by omega)
  have hdiv := Nat.div_add_mod (w + n) pipe.length
  have hround : 8 ∣ pipe.length * ((w + n) / pipe.length) := Nat.dvd_mul_right_of_dvd haligned _
  generalize (w + n) % pipe.length = h at *
  generalize hq : pipe.length * ((w + n) / pipe.length) = q at *
  have halign : align8 h = (h + 7) / 8 * 8 := by
    unfold align8
    rw [Nat.mod_eq_of_lt (by omega)]
  have hsum : w + padded n = q + (h + 7) / 8 * 8 := by
    unfold padded
    omega
  have hmod : (w + padded n) % pipe.length = ((h + 7) / 8 * 8) % pipe.length := by
    rw [hsum, ← hq, Nat.mul_add_mod]
  have hle : (h + 7) / 8 * 8 < 2 * pipe.length := by omega
  unfold publish
  rw [hmod, halign, mod_of_lt_two_mul hle]
  unfold Pipe.wrap
  split
  · next hge => rw [if_neg (Nat.not_lt_of_le hge)]
  · next hge => rw [if_pos (Nat.lt_of_not_le hge)]

/-! ## The stream -/

/-- A stream of frames, each with what was left in the FIFO up to the next multiple of eight. -/
inductive Streams : List (Bytes × Bytes) → Bytes → Prop
  | nil : Streams [] []
  | frame {frames : List (Bytes × Bytes)} {stream pad : Bytes} {hdr data : Bytes}
      (h : Streams frames stream) (hpad : pad.length < 8) (haligned : 8 ∣ (hdr ++ data ++ pad).length) :
      Streams (frames ++ [(hdr, data)]) (stream ++ (hdr ++ data ++ pad))

theorem Streams.aligned {frames : List (Bytes × Bytes)} {stream : Bytes} (h : Streams frames stream) :
    8 ∣ stream.length := by
  induction h with
  | nil => exact Nat.dvd_zero 8
  | frame h hpad haligned ih =>
    rw [List.length_append]
    exact Nat.dvd_add ih haligned

/-- What the writer has done, at `w` bytes of the stream. -/
def Writer.Done (fifo : Bytes) (w : Nat) : Writer → Prop
  | .idle => True
  | .entered _ _ head => head = w % fifo.length
  | .headed hdr _ head => head = (w + hdr.length) % fifo.length ∧ ringGet fifo w hdr.length = hdr
  | .filled hdr data head => head = (w + (hdr ++ data).length) % fifo.length ∧
      ringGet fifo w (hdr ++ data).length = hdr ++ data

/-- The room that it takes up. -/
def Writer.room : Writer → Nat
  | .idle => 0
  | .entered hdr data _ | .headed hdr data _ | .filled hdr data _ => padded (hdr ++ data).length

/-- **The invariant** of a pipe, with the stream that has been published. -/
structure Inv (cap : Nat) (link : Link) (stream : Bytes) : Prop where
  size : link.pipe.length = cap
  sized : Sized link.pipe.length
  tail : link.pipe.tail = link.consumed % link.pipe.length
  head : link.pipe.head = stream.length % link.pipe.length
  behind : link.consumed ≤ stream.length
  room : stream.length + link.writer.room + (if link.notified then 1 else 9) ≤
    link.consumed + link.pipe.length
  pending : ringGet link.pipe.fifo link.consumed (stream.length - link.consumed) =
    stream.drop link.consumed
  frames : Streams link.frames stream
  writer : link.writer.Done link.pipe.fifo stream.length
  peeked : ∀ x ∈ link.peeked, x.1 + x.2.length ≤ stream.length ∧ slice stream x.1 x.2.length = x.2

namespace Inv

variable {cap : Nat} {link : Link} {stream : Bytes}

theorem lt_full (h : Inv cap link stream) : stream.length < link.consumed + link.pipe.length := by
  have hroom := h.room
  split at hroom <;> omega

theorem rxAvail (h : Inv cap link stream) : glinkSpssRxAvail link.pipe = stream.length - link.consumed :=
  glinkSpssRxAvail_eq h.sized h.tail h.head h.behind h.lt_full

theorem txAvail (h : Inv cap link stream) :
    glinkSpssTxAvail link.pipe = link.pipe.length - (stream.length - link.consumed) - 16 :=
  glinkSpssTxAvail_eq h.sized h.tail h.head h.behind h.lt_full

theorem tail_lt (h : Inv cap link stream) : link.pipe.tail < link.pipe.length := by
  have hpos := h.sized.pos
  rw [h.tail]
  exact Nat.mod_lt _ (by omega)

/-- A write that there is room for. -/
theorem enter (h : Inv cap link stream) {hdr data : Bytes} (hne : hdr ≠ [])
    (hroom : hdr.length + data.length ≤ glinkSpssTxAvail link.pipe) :
    Inv cap { link with writer := .entered hdr data link.pipe.head, notified := false } stream where
  size := h.size
  sized := h.sized
  tail := h.tail
  head := h.head
  behind := h.behind
  room := by
    have hpos : 0 < hdr.length := List.length_pos_iff.2 hne
    have hpad := padded_spec (hdr ++ data).length
    have hbehind := h.behind
    rw [h.txAvail] at hroom
    rw [List.length_append] at hpad
    show stream.length + padded (hdr ++ data).length + 9 ≤ link.consumed + link.pipe.length
    rw [List.length_append]
    omega
  pending := h.pending
  frames := h.frames
  writer := h.head
  peeked := h.peeked

/-- The reserve is what a notification takes. -/
theorem notify (h : Inv cap link stream) {hdr : Bytes} (hidle : link.writer = .idle)
    (hlen : hdr.length = txBlockedCmdReserve) (hfirst : link.notified = false) :
    Inv cap { link with writer := .entered hdr [] link.pipe.head, notified := true } stream where
  size := h.size
  sized := h.sized
  tail := h.tail
  head := h.head
  behind := h.behind
  room := by
    have hroom := h.room
    rw [hidle, hfirst] at hroom
    show stream.length + padded (hdr ++ []).length + 1 ≤ link.consumed + link.pipe.length
    rw [List.append_nil, hlen]
    unfold padded txBlockedCmdReserve
    unfold Writer.room at hroom
    simp only [Bool.false_eq_true, if_false] at hroom
    omega
  pending := h.pending
  frames := h.frames
  writer := h.head
  peeked := h.peeked

/-- A copy behind the stream leaves the stream alone. -/
theorem put (h : Inv cap link stream) (text : Bytes) (m : Nat) (writer : Writer)
    (hroom : writer.room = link.writer.room) (hfits : m + text.length ≤ link.writer.room)
    (hdone : writer.Done (ringPut link.pipe.fifo ((stream.length + m) % link.pipe.length) text)
      stream.length) :
    Inv cap { link with
      pipe := { link.pipe with fifo := ringPut link.pipe.fifo ((stream.length + m) % link.pipe.length) text }
      writer } stream := by
  have hpos := h.sized.pos
  have hbehind := h.behind
  have htext : stream.length - link.consumed + m + text.length ≤ link.pipe.length := by
    have hall := h.room
    split at hall <;> omega
  have hlen : (ringPut link.pipe.fifo ((stream.length + m) % link.pipe.length) text).length =
      link.pipe.length := length_ringPut (Nat.mod_lt _ (by omega)) (by
        show text.length ≤ link.pipe.length
        omega)
  exact {
    size := hlen.trans h.size
    sized := by
      show Sized (ringPut _ _ _).length
      rw [hlen]
      exact h.sized
    tail := by
      show link.pipe.tail = link.consumed % (ringPut _ _ _).length
      rw [hlen]
      exact h.tail
    head := by
      show link.pipe.head = stream.length % (ringPut _ _ _).length
      rw [hlen]
      exact h.head
    behind := h.behind
    room := by
      show stream.length + writer.room + _ ≤ link.consumed + (ringPut _ _ _).length
      rw [hlen, hroom]
      exact h.room
    pending := by
      have hplace : stream.length + m = link.consumed + (stream.length - link.consumed + m) := by omega
      show ringGet (ringPut _ _ _) _ _ = _
      rw [← h.pending, ← take_ringGet (Nat.le_add_right _ m), hplace, Pipe.length]
      rw [ringGet_ringPut_front (by show 0 < link.pipe.length; omega) htext, take_ringGet (Nat.le_add_right _ m)]
    frames := h.frames
    writer := hdone
    peeked := h.peeked }

theorem headed (h : Inv cap link stream) {hdr data : Bytes} {head : Nat}
    (hwriter : link.writer = .entered hdr data head) :
    ∃ link', link.step .proceed = some link' ∧ Inv cap link' stream := by
  have hdone := h.writer
  rw [hwriter] at hdone
  have hpos := h.sized.pos
  have hroom : hdr.length + data.length ≤ link.writer.room := by
    rw [hwriter, ← List.length_append]
    exact (padded_spec _).1
  have hall : link.writer.room ≤ link.pipe.length := by
    have hroom := h.room
    have hbehind := h.behind
    split at hroom <;> omega
  have hhead : head = (stream.length + 0) % link.pipe.length := hdone
  have hput := h.put hdr 0 (.headed hdr data ((head + hdr.length) % link.pipe.length))
    (by rw [hwriter]; rfl) (by omega) ⟨?_, ?_⟩
  · refine ⟨_, ?_, hput⟩
    unfold Link.step
    rw [hwriter]
    dsimp only
    rw [glinkSpssTxWriteOne_eq h.sized (hhead ▸ Nat.mod_lt _ (by omega)) (by omega), ← hhead]
    rfl
  · rw [length_ringPut (Nat.mod_lt _ (by show 0 < link.pipe.length; omega)) (by show _ ≤ link.pipe.length; omega),
      hhead, Nat.add_zero]
    exact Nat.mod_add_mod _ _ _
  · exact ringGet_ringPut (by show 0 < link.pipe.length; omega) (by show _ ≤ link.pipe.length; omega)

theorem filled (h : Inv cap link stream) {hdr data : Bytes} {head : Nat}
    (hwriter : link.writer = .headed hdr data head) :
    ∃ link', link.step .proceed = some link' ∧ Inv cap link' stream := by
  have hdone := h.writer
  rw [hwriter] at hdone
  obtain ⟨hhead, hhdr⟩ := hdone
  have hpos := h.sized.pos
  have hroom : hdr.length + data.length ≤ link.writer.room := by
    rw [hwriter, ← List.length_append]
    exact (padded_spec _).1
  have hall : link.writer.room ≤ link.pipe.length := by
    have hroom := h.room
    have hbehind := h.behind
    split at hroom <;> omega
  have hring : 0 < link.pipe.fifo.length := by
    show 0 < link.pipe.length
    omega
  have hboth : hdr.length + data.length ≤ link.pipe.fifo.length := by
    show _ ≤ link.pipe.length
    omega
  have hlen : (ringPut link.pipe.fifo ((stream.length + hdr.length) % link.pipe.fifo.length) data).length =
      link.pipe.fifo.length := length_ringPut (Nat.mod_lt _ hring) (by omega)
  have hput := h.put data hdr.length (.filled hdr data ((head + data.length) % link.pipe.length))
    (by rw [hwriter]; rfl) hroom ⟨?_, ?_⟩
  · refine ⟨_, ?_, hput⟩
    unfold Link.step
    rw [hwriter]
    dsimp only
    rw [glinkSpssTxWriteOne_eq h.sized (hhead ▸ Nat.mod_lt _ hring) (by omega), hhead]
    rfl
  · rw [hlen, hhead, List.length_append, ← Nat.add_assoc]
    exact Nat.mod_add_mod _ _ _
  · rw [List.length_append, ringGet_add (by rw [hlen]; exact hboth)]
    show ringGet (ringPut _ ((stream.length + hdr.length) % link.pipe.fifo.length) _) _ _ ++ _ = _
    rw [ringGet_ringPut_front hring hboth, hhdr]
    exact congrArg (hdr ++ ·) (ringGet_ringPut hring (by omega))

/-- The whole write becomes visible at once. -/
theorem published (h : Inv cap link stream) {hdr data : Bytes} {head : Nat}
    (hwriter : link.writer = .filled hdr data head) :
    ∃ link' stream', link.step .proceed = some link' ∧ Inv cap link' stream' := by
  have hdone := h.writer
  rw [hwriter] at hdone
  obtain ⟨hhead, hwritten⟩ := hdone
  have hroom : link.writer.room = padded (hdr ++ data).length := by
    rw [hwriter]
    rfl
  have hall := h.room
  have hbehind := h.behind
  obtain ⟨hle, hlt, hdvd⟩ := padded_spec (hdr ++ data).length
  have hpending := h.pending
  generalize hn : (hdr ++ data).length = n at *
  -- the padding is what stood in the FIFO
  generalize hpad : ringGet link.pipe.fifo (stream.length + n) (padded n - n) = pad
  have hfull : stream.length - link.consumed + padded n ≤ link.pipe.fifo.length := by
    show _ ≤ link.pipe.length
    split at hall <;> omega
  have hpadlen : pad.length = padded n - n := by
    rw [← hpad]
    exact length_ringGet (by omega)
  have hframe : (hdr ++ data ++ pad).length = padded n := by
    rw [List.length_append, hn, hpadlen]
    omega
  have hring : ringGet link.pipe.fifo stream.length (padded n) = hdr ++ data ++ pad := by
    have hsplit : ringGet link.pipe.fifo stream.length (n + (padded n - n)) = _ := ringGet_add (by omega)
    rw [Nat.add_sub_cancel' hle, hwritten, hpad] at hsplit
    exact hsplit
  have hnew : (stream ++ (hdr ++ data ++ pad)).length = stream.length + padded n := by
    rw [List.length_append, hframe]
  refine ⟨{ link with
    pipe := publish link.pipe head, writer := .idle, frames := link.frames ++ [(hdr, data)] },
    stream ++ (hdr ++ data ++ pad), ?_, ?_⟩
  · unfold Link.step
    rw [hwriter]
  · have hpub := publish_eq (n := n) h.sized h.frames.aligned
    rw [← show head = (stream.length + n) % link.pipe.length from hhead] at hpub
    rw [hpub]
    exact {
      size := h.size
      sized := h.sized
      tail := h.tail
      head := by rw [hnew]
      behind := by
        rw [hnew]
        exact Nat.le_add_right_of_le h.behind
      room := by
        rw [hnew]
        show stream.length + padded n + 0 + _ ≤ _
        rw [hroom] at hall
        exact hall
      pending := by
        rw [hnew, List.drop_append_of_le_length h.behind, ← hring, ← hpending]
        have hsplit : ringGet link.pipe.fifo link.consumed
            (stream.length - link.consumed + padded n) = _ := ringGet_add hfull
        rw [Nat.add_sub_cancel' h.behind] at hsplit
        rw [← hsplit]
        show ringGet link.pipe.fifo link.consumed (stream.length + padded n - link.consumed) = _
        congr 1
        omega
      frames := .frame h.frames (by omega) (by rw [hframe]; exact hdvd)
      writer := trivial
      peeked := fun x hx => by
        obtain ⟨h1, h2⟩ := h.peeked x hx
        exact ⟨by rw [hnew]; omega, (slice_append_left h1).trans h2⟩ }

theorem peek (h : Inv cap link stream) {offset count : Nat}
    (hcount : offset + count ≤ glinkSpssRxAvail link.pipe) :
    ∃ data, glinkSpssRxPeak link.pipe offset count = some data ∧
      link.consumed + offset + data.length ≤ stream.length ∧
      slice stream (link.consumed + offset) data.length = data := by
  have hbehind := h.behind
  have hfull := h.lt_full
  rw [h.rxAvail] at hcount
  have hle : offset + count ≤ link.pipe.fifo.length := by
    show _ ≤ link.pipe.length
    omega
  have hplace : ringGet link.pipe.fifo (link.pipe.tail + offset) count =
      ringGet link.pipe.fifo (link.consumed + offset) count := by
    rw [← ringGet_mod, h.tail]
    show ringGet _ ((_ % link.pipe.length + _) % link.pipe.length) _ = _
    rw [Nat.mod_add_mod]
    exact ringGet_mod
  have hdata : ringGet link.pipe.fifo (link.consumed + offset) count =
      slice stream (link.consumed + offset) count := by
    rw [← drop_ringGet hle, ← take_ringGet hcount, h.pending]
    unfold slice
    rw [List.drop_take, List.drop_drop, Nat.add_sub_cancel_left]
  have hlen : (ringGet link.pipe.fifo (link.consumed + offset) count).length = count :=
    length_ringGet (by omega)
  refine ⟨_, (glinkSpssRxPeak_eq h.sized h.tail_lt hle).trans (congrArg some hplace), ?_, ?_⟩
  · rw [hlen]
    omega
  · rw [hlen, hdata]

theorem advance (h : Inv cap link stream) {count : Nat} (hcount : count ≤ glinkSpssRxAvail link.pipe) :
    Inv cap { link with
      pipe := glinkSpssRxAdvance link.pipe count, consumed := link.consumed + count } stream := by
  have hbehind := h.behind
  have hfull := h.lt_full
  rw [h.rxAvail] at hcount
  rw [glinkSpssRxAdvance_eq h.sized h.tail (by omega)]
  exact {
    size := h.size
    sized := h.sized
    tail := rfl
    head := h.head
    behind := by
      show link.consumed + count ≤ stream.length
      omega
    room := by
      have hroom := h.room
      show stream.length + link.writer.room + (if link.notified then 1 else 9) ≤
        link.consumed + count + link.pipe.length
      omega
    pending := by
      have hsplit : (ringGet link.pipe.fifo link.consumed
          (count + (stream.length - (link.consumed + count)))).drop count = _ :=
        drop_ringGet (by show _ ≤ link.pipe.length; omega)
      rw [show count + (stream.length - (link.consumed + count)) = stream.length - link.consumed by omega,
        h.pending, List.drop_drop] at hsplit
      exact hsplit.symm
    frames := h.frames
    writer := h.writer
    peeked := h.peeked }

/-- **Every step** goes well and keeps the invariant. -/
theorem step (h : Inv cap link stream) (act : Act) :
    ∃ link' stream', link.step act = some link' ∧ Inv cap link' stream' := by
  cases act with
  | enter hdr data =>
    unfold Link.step
    dsimp only
    split
    · next hcond => exact ⟨_, stream, rfl, h.enter hcond.2.1 hcond.2.2⟩
    · exact ⟨_, stream, rfl, h⟩
  | notify hdr =>
    unfold Link.step
    dsimp only
    split
    · next hcond => exact ⟨_, stream, rfl, h.notify hcond.1 hcond.2.1 hcond.2.2⟩
    · exact ⟨_, stream, rfl, h⟩
  | proceed =>
    cases hwriter : link.writer with
    | idle =>
      refine ⟨link, stream, ?_, h⟩
      unfold Link.step
      rw [hwriter]
    | entered hdr data head =>
      obtain ⟨link', hstep, h'⟩ := h.headed hwriter
      exact ⟨link', stream, hstep, h'⟩
    | headed hdr data head =>
      obtain ⟨link', hstep, h'⟩ := h.filled hwriter
      exact ⟨link', stream, hstep, h'⟩
    | filled hdr data head => exact h.published hwriter
  | peek offset count =>
    unfold Link.step
    dsimp only
    split
    · next hcond =>
      obtain ⟨data, hdata, hle, hslice⟩ := h.peek hcond
      rw [hdata]
      refine ⟨_, stream, rfl, { h with peeked := fun x hx => ?_ }⟩
      rcases List.mem_append.1 hx with hx | hx
      · exact h.peeked x hx
      · rw [List.mem_singleton.1 hx]
        exact ⟨hle, hslice⟩
    · exact ⟨_, stream, rfl, h⟩
  | advance count =>
    unfold Link.step
    dsimp only
    split
    · next hcond => exact ⟨_, stream, rfl, h.advance hcond⟩
    · exact ⟨_, stream, rfl, h⟩

theorem run (h : Inv cap link stream) (acts : List Act) :
    ∃ link' stream', link.run acts = some link' ∧ Inv cap link' stream' := by
  induction acts generalizing link stream with
  | nil => exact ⟨link, stream, rfl, h⟩
  | cons act acts ih =>
    obtain ⟨link₁, stream₁, hstep, h₁⟩ := h.step act
    obtain ⟨link₂, stream₂, hrun, h₂⟩ := ih h₁
    refine ⟨link₂, stream₂, ?_, h₂⟩
    unfold Link.run
    rw [hstep]
    exact hrun

end Inv

theorem inv_probed {fifo : Bytes} (hsize : Sized fifo.length) : Inv fifo.length (.probed fifo) [] where
  size := rfl
  sized := hsize
  tail := (Nat.zero_mod _).symm
  head := (Nat.zero_mod _).symm
  behind := Nat.le_refl 0
  room := by
    have hpos := hsize.pos
    show 0 + 0 + 9 ≤ 0 + fifo.length
    omega
  pending := rfl
  frames := .nil
  writer := trivial
  peeked := fun x hx => by cases hx

/-- A whole write is what the steps of it do. -/
theorem run_write {link : Link} {hdr data : Bytes} (hidle : link.writer = .idle) (hne : hdr ≠ [])
    (hroom : hdr.length + data.length ≤ glinkSpssTxAvail link.pipe) :
    (link.run [.enter hdr data, .proceed, .proceed, .proceed]).map (·.pipe) =
      glinkSpssTxWrite link.pipe hdr data := by
  have henter : link.step (.enter hdr data) =
      some { link with writer := .entered hdr data link.pipe.head, notified := false } :=
    if_pos ⟨hidle, hne, hroom⟩
  unfold Link.run
  rw [henter]
  simp only [Link.run, Link.step, glinkSpssTxWrite, Option.bind_some]
  cases glinkSpssTxWriteOne link.pipe link.pipe.head hdr with
  | none => rfl
  | some r =>
    obtain ⟨pipe, head⟩ := r
    simp only [Option.bind_eq_bind, Option.bind_some, Option.pure_def]
    cases glinkSpssTxWriteOne pipe head data with
    | none => rfl
    | some r => rfl

section Results

variable {fifo : Bytes} (hsize : Sized fifo.length) (acts : List Act)
include hsize

/-- **First in, first out.** However the writer, in the middle of a write too, and the reader take turns,
no copy leaves the FIFO, and there is one stream of all frames published so far, whole and in order,
such that the reader has passed over a front of it, has all the rest and nothing else before it, and
never saw a byte that was not the stream's. -/
theorem link_fifo : ∃ link stream, (Link.probed fifo).run acts = some link ∧
    Streams link.frames stream ∧ link.consumed + glinkSpssRxAvail link.pipe = stream.length ∧
    glinkSpssRxPeak link.pipe 0 (glinkSpssRxAvail link.pipe) = some (stream.drop link.consumed) ∧
    ∀ x ∈ link.peeked, x.1 + x.2.length ≤ stream.length ∧ slice stream x.1 x.2.length = x.2 := by
  obtain ⟨link, stream, hrun, h⟩ := (inv_probed hsize).run acts
  refine ⟨link, stream, hrun, h.frames, ?_, ?_, h.peeked⟩
  · rw [h.rxAvail]
    exact Nat.add_sub_cancel' h.behind
  · have hfull := h.lt_full
    rw [h.rxAvail, glinkSpssRxPeak_eq h.sized h.tail_lt (by omega), ← h.pending, h.tail, Nat.add_zero]
    exact congrArg some ringGet_mod

end Results

/-- Two frames, read in the middle of their writes and at the end. -/
def twoFrames : List Act :=
  [.enter [1, 2, 3, 4, 5, 6, 7, 8] [9], .proceed, .peek 0 0, .proceed, .proceed, .peek 0 9, .advance 16,
    .enter [10, 11] (List.replicate 12 12), .proceed, .proceed, .peek 0 1, .proceed, .peek 0 2, .advance 2]

theorem sized_spssFifoSize : Sized (List.replicate spssFifoSize (0 : UInt8)).length := by
  rw [List.length_replicate]
  exact ⟨by decide, by decide, by decide⟩

theorem link_fifo_twoFrames : ∃ link stream,
    (Link.probed (List.replicate spssFifoSize 0)).run twoFrames = some link ∧
    Streams link.frames stream ∧ link.consumed + glinkSpssRxAvail link.pipe = stream.length ∧
    glinkSpssRxPeak link.pipe 0 (glinkSpssRxAvail link.pipe) = some (stream.drop link.consumed) ∧
    ∀ x ∈ link.peeked, x.1 + x.2.length ≤ stream.length ∧ slice stream x.1 x.2.length = x.2 :=
  link_fifo sized_spssFifoSize twoFrames

end Gts9Wifi.Spu
