import Mathlib.Data.List.Basic
import Mathlib.Logic.Function.Basic

/-! # UTF-8 as a stream

The encoder of a text and the decoder of the encoding standard, one byte at a time. What comes out
depends only on the bytes, not on where they are cut, and the decoder takes an encoded text back.
-/
namespace HermesEnterprise.Foundation.Utf8

/-- What stands for bytes that encode nothing. -/
def replacement : Char := Char.ofNat 0xFFFD

/-- The byte order mark. -/
def mark : Char := Char.ofNat 0xFEFF

def encode (text : List Char) : List UInt8 := text.flatMap String.utf8EncodeChar

/-- The decoder between two bytes: how many it still needs, where the next one has to lie, and the
code point so far. -/
structure Decoder where
  needed : Nat
  lower : Nat
  upper : Nat
  point : Nat
  deriving DecidableEq

def Decoder.idle : Decoder := ⟨0,0x80,0xBF,0⟩

/-- The first byte of a character. -/
def lead (b : Nat) : Decoder × List Char :=
  if b ≤ 0x7F then (.idle, [Char.ofNat b])
  else if 0xC2 ≤ b ∧ b ≤ 0xDF then (⟨1,0x80,0xBF,b % 0x20⟩, [])
  else if 0xE0 ≤ b ∧ b ≤ 0xEF then
    (⟨2,if b = 0xE0 then 0xA0 else 0x80,if b = 0xED then 0x9F else 0xBF,b % 0x10⟩, [])
  else if 0xF0 ≤ b ∧ b ≤ 0xF4 then
    (⟨3,if b = 0xF0 then 0x90 else 0x80,if b = 0xF4 then 0x8F else 0xBF,b % 0x08⟩, [])
  else (.idle, [replacement])

/-- One byte. A byte that does not continue a character ends it and is read again as a first one. -/
def Decoder.step (d : Decoder) (byte : UInt8) : Decoder × List Char :=
  let b := byte.toNat
  if d.needed = 0 then lead b
  else if d.lower ≤ b ∧ b ≤ d.upper then
    let point := d.point * 0x40 + b % 0x40
    if d.needed = 1 then (.idle, [Char.ofNat point])
    else (⟨d.needed - 1,0x80,0xBF,point⟩, [])
  else ((lead b).1, replacement :: (lead b).2)

def Decoder.feed (d : Decoder) : List UInt8 → Decoder × List Char
  | [] => (d, [])
  | byte :: rest =>
    let next := d.step byte
    let last := next.1.feed rest
    (last.1, next.2 ++ last.2)

/-- The end of the stream inside a character. -/
def Decoder.flush (d : Decoder) : List Char :=
  if d.needed = 0 then [] else [replacement]

variable {d : Decoder} {xs ys : List UInt8} {text : List Char} {c : Char}

@[simp] theorem feed_nil : d.feed [] = (d, []) := rfl

theorem feed_cons (byte : UInt8) :
    d.feed (byte :: xs) =
      (((d.step byte).1.feed xs).1, (d.step byte).2 ++ ((d.step byte).1.feed xs).2) := rfl

/-- Two pieces of a stream in a row are read as their concatenation. -/
theorem feed_append :
    d.feed (xs ++ ys) = (((d.feed xs).1.feed ys).1, (d.feed xs).2 ++ ((d.feed xs).1.feed ys).2) := by
  induction xs generalizing d with
  | nil => simp
  | cons byte xs ih => simp only [List.cons_append, feed_cons, ih, List.append_assoc]

@[simp] theorem encode_nil : encode [] = [] := rfl

theorem encode_cons : encode (c :: text) = String.utf8EncodeChar c ++ encode text := rfl

theorem encode_append (s t : List Char) : encode (s ++ t) = encode s ++ encode t :=
  List.flatMap_append

section Characters

theorem toNat_ofNat {n : Nat} (h : n < 256) : (UInt8.ofNat n).toNat = n := by
  rw [UInt8.toNat_ofNat']
  exact Nat.mod_eq_of_lt h

theorem idle_needed : Decoder.idle.needed = 0 := rfl

theorem idle_step (byte : UInt8) : Decoder.idle.step byte = lead byte.toNat := rfl

/-- A byte that continues a character and does not end it. -/
theorem step_more {needed lower upper point b : Nat} (hb : b < 256) (hneeded : 1 < needed)
    (hlower : lower ≤ b) (hupper : b ≤ upper) :
    (Decoder.mk needed lower upper point).step (UInt8.ofNat b) =
      (⟨needed - 1,0x80,0xBF,point * 0x40 + b % 0x40⟩, []) := by
  simp [Decoder.step, toNat_ofNat hb, hlower, hupper, show needed ≠ 0 by omega, show needed ≠ 1 by omega]

/-- The last byte of a character. -/
theorem step_last {lower upper point b : Nat} (hb : b < 256) (hlower : lower ≤ b) (hupper : b ≤ upper) :
    (Decoder.mk 1 lower upper point).step (UInt8.ofNat b) =
      (.idle, [Char.ofNat (point * 0x40 + b % 0x40)]) := by
  simp [Decoder.step, toNat_ofNat hb, hlower, hupper]

/-- The code points that a character can have. -/
theorem toNat_cases (c : Char) : c.toNat < 0xD800 ∨ (0xDFFF < c.toNat ∧ c.toNat < 0x110000) :=
  c.valid

theorem feed_char (c : Char) : Decoder.idle.feed (String.utf8EncodeChar c) = (.idle, [c]) := by
  have hc : Char.ofNat c.toNat = c := Char.ofNat_toNat c
  have hv : c.val.toNat = c.toNat := rfl
  have hrange := toNat_cases c
  generalize hn : c.toNat = n at hc hv hrange
  unfold String.utf8EncodeChar
  simp only [hv]
  split
  · rename_i h
    have hlt : n < 256 := by omega
    simp [feed_cons, idle_step, toNat_ofNat hlt, lead, h, hc]
  · split
    · rename_i h₁ h₂
      have hlead : lead (n / 64 % 32 + 192) = (⟨1,0x80,0xBF,n / 64⟩, []) := by
        have : (n / 64 % 32 + 192) % 32 = n / 64 := by omega
        simp [lead, this, show ¬n / 64 % 32 + 192 ≤ 127 by omega, show 2 ≤ n / 64 % 32 by omega,
          show n / 64 % 32 ≤ 31 by omega]
      have hpoint : n / 64 * 64 + (n % 64 + 128) % 64 = n := by omega
      rw [feed_cons, idle_step, toNat_ofNat (by omega), hlead, feed_cons,
        step_last (by omega) (by omega) (by omega), hpoint, hc]
      rfl
    · split
      · rename_i h₁ h₂ h₃
        have hlead : lead (n / 4096 % 16 + 224) =
            (⟨2,if n / 4096 = 0 then 0xA0 else 0x80,if n / 4096 = 13 then 0x9F else 0xBF,n / 4096⟩, []) := by
          have hmod : (n / 4096 % 16 + 224) % 16 = n / 4096 := by omega
          have hzero : n / 4096 % 16 + 224 = 224 ↔ n / 4096 = 0 := by omega
          have hthirteen : n / 4096 % 16 + 224 = 237 ↔ n / 4096 = 13 := by omega
          simp only [lead, hmod, hzero, hthirteen, if_neg (show ¬n / 4096 % 16 + 224 ≤ 127 by omega),
            if_neg (show ¬(194 ≤ n / 4096 % 16 + 224 ∧ n / 4096 % 16 + 224 ≤ 223) by omega),
            if_pos (show 224 ≤ n / 4096 % 16 + 224 ∧ n / 4096 % 16 + 224 ≤ 239 by omega)]
        have hsecond : (if n / 4096 = 0 then 0xA0 else 0x80) ≤ n / 64 % 64 + 128 ∧
            n / 64 % 64 + 128 ≤ if n / 4096 = 13 then 0x9F else 0xBF := by
          split <;> split <;> omega
        have hpoint : (n / 4096 * 64 + (n / 64 % 64 + 128) % 64) * 64 + (n % 64 + 128) % 64 = n := by omega
        rw [feed_cons, idle_step, toNat_ofNat (by omega), hlead, feed_cons,
          step_more (by omega) (by omega) hsecond.1 hsecond.2, feed_cons,
          step_last (by omega) (by omega) (by omega), hpoint, hc]
        rfl
      · rename_i h₁ h₂ h₃
        have hlead : lead (n / 262144 % 8 + 240) =
            (⟨3,if n / 262144 = 0 then 0x90 else 0x80,if n / 262144 = 4 then 0x8F else 0xBF,n / 262144⟩, []) := by
          have hmod : (n / 262144 % 8 + 240) % 8 = n / 262144 := by omega
          have hzero : n / 262144 % 8 + 240 = 240 ↔ n / 262144 = 0 := by omega
          have hfour : n / 262144 % 8 + 240 = 244 ↔ n / 262144 = 4 := by omega
          simp only [lead, hmod, hzero, hfour, if_neg (show ¬n / 262144 % 8 + 240 ≤ 127 by omega),
            if_neg (show ¬(194 ≤ n / 262144 % 8 + 240 ∧ n / 262144 % 8 + 240 ≤ 223) by omega),
            if_neg (show ¬(224 ≤ n / 262144 % 8 + 240 ∧ n / 262144 % 8 + 240 ≤ 239) by omega),
            if_pos (show 240 ≤ n / 262144 % 8 + 240 ∧ n / 262144 % 8 + 240 ≤ 244 by omega)]
        have hsecond : (if n / 262144 = 0 then 0x90 else 0x80) ≤ n / 4096 % 64 + 128 ∧
            n / 4096 % 64 + 128 ≤ if n / 262144 = 4 then 0x8F else 0xBF := by
          split <;> split <;> omega
        have hpoint : ((n / 262144 * 64 + (n / 4096 % 64 + 128) % 64) * 64 + (n / 64 % 64 + 128) % 64) * 64 +
            (n % 64 + 128) % 64 = n := by omega
        rw [feed_cons, idle_step, toNat_ofNat (by omega), hlead, feed_cons,
          step_more (by omega) (by omega) hsecond.1 hsecond.2, feed_cons,
          step_more (by omega) (by omega) (by omega) (by omega), feed_cons,
          step_last (by omega) (by omega) (by omega), hpoint, hc]
        rfl

end Characters

/-- The decoder takes an encoded text back. -/
theorem feed_encode (text : List Char) : Decoder.idle.feed (encode text) = (.idle, text) := by
  induction text with
  | nil => rfl
  | cons c text ih => rw [encode_cons, feed_append, feed_char, ih, List.singleton_append]

theorem encode_injective : Function.Injective encode := by
  intro s t h
  have hfeed := congrArg (fun bytes => (Decoder.idle.feed bytes).2) h
  simpa only [feed_encode] using hfeed

/-! ## The stream decoder -/

/-- A text decoder in the middle of a stream. `started` says that something has come out. -/
structure TextDecoder where
  decoder : Decoder
  started : Bool
  deriving DecidableEq

def TextDecoder.fresh : TextDecoder := ⟨.idle,false⟩

/-- A byte order mark at the start of the stream is dropped. -/
def unmark (started : Bool) : List Char → Bool × List Char
  | [] => (started, [])
  | c :: rest => (true, if !started && c == mark then rest else c :: rest)

/-- `decode(chunk, {stream: true})`. -/
def TextDecoder.push (t : TextDecoder) (chunk : List UInt8) : TextDecoder × List Char :=
  let fed := t.decoder.feed chunk
  let kept := unmark t.started fed.2
  (⟨fed.1,kept.1⟩, kept.2)

/-- `decode()` at the end of the stream. -/
def TextDecoder.finish (t : TextDecoder) : List Char := (unmark t.started t.decoder.flush).2

/-- `decode(bytes)` of a whole stream. -/
def decode (bytes : List UInt8) : List Char :=
  let t := TextDecoder.fresh.push bytes
  t.2 ++ t.1.finish

@[simp] theorem unmark_true (t : List Char) : unmark true t = (true, t) := by
  cases t with
  | nil => rfl
  | cons c t => simp [unmark]

theorem unmark_cons (started : Bool) (c : Char) (s : List Char) :
    unmark started (c :: s) = (true, if !started && c == mark then s else c :: s) := rfl

theorem unmark_append (started : Bool) (s t : List Char) :
    unmark started (s ++ t) =
      ((unmark (unmark started s).1 t).1, (unmark started s).2 ++ (unmark (unmark started s).1 t).2) := by
  cases s with
  | nil => simp [unmark]
  | cons c s =>
    rw [List.cons_append, unmark_cons, unmark_cons, unmark_true]
    split <;> simp

theorem push_append {t : TextDecoder} :
    t.push (xs ++ ys) = (((t.push xs).1.push ys).1, (t.push xs).2 ++ ((t.push xs).1.push ys).2) := by
  simp only [TextDecoder.push, feed_append, unmark_append]

/-- The chunks of a stream one after the other. -/
def TextDecoder.pushAll (t : TextDecoder) : List (List UInt8) → TextDecoder × List Char
  | [] => (t, [])
  | chunk :: rest =>
    let next := t.push chunk
    let last := next.1.pushAll rest
    (last.1, next.2 ++ last.2)

theorem push_nil (t : TextDecoder) : t.push [] = (t, []) := rfl

/-- Where a stream is cut does not show. -/
theorem pushAll_eq (t : TextDecoder) (chunks : List (List UInt8)) : t.pushAll chunks = t.push chunks.flatten := by
  induction chunks generalizing t with
  | nil => rfl
  | cons chunk rest ih => simp only [TextDecoder.pushAll, ih, List.flatten_cons, push_append]

theorem decode_encode (text : List Char) : decode (encode text) = (unmark false text).2 := by
  simp [decode, TextDecoder.push, TextDecoder.fresh, feed_encode, TextDecoder.finish, Decoder.flush, idle_needed, unmark]

/-- A text comes back as it was, unless it starts with the mark. -/
theorem decode_encode_eq_iff (text : List Char) : decode (encode text) = text ↔ text.head? ≠ some mark := by
  rw [decode_encode]
  cases text with
  | nil => simp [unmark]
  | cons c rest =>
    by_cases hc : c = mark
    · simp [unmark, hc]
    · simp [unmark, hc]

end HermesEnterprise.Foundation.Utf8
