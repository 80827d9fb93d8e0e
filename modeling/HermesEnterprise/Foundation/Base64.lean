import Mathlib.Data.List.Basic
import Mathlib.Tactic

/-! # Base64

Three bytes are four letters of six bits. The reader passes over what is no letter, so line breaks
and padding do not matter to it, and it takes every encoded list of bytes back.
-/
namespace HermesEnterprise.Foundation.Base64

/-- Sixty-four letters and the value of each. -/
structure Alphabet where
  letter : ℕ → Char
  value : Char → Option ℕ
  value_letter : ∀ n < 64, value (letter n) = some n

/-- The letters, with the last two given. -/
def letterWith (plus slash : Char) (n : ℕ) : Char :=
  if n < 26 then Char.ofNat (65 + n) else if n < 52 then Char.ofNat (71 + n) else
    if n < 62 then Char.ofNat (n - 4) else if n = 62 then plus else slash

def valueWith (plus slash : Char) (c : Char) : Option ℕ :=
  if 65 ≤ c.toNat ∧ c.toNat ≤ 90 then some (c.toNat - 65) else
    if 97 ≤ c.toNat ∧ c.toNat ≤ 122 then some (c.toNat - 71) else
      if 48 ≤ c.toNat ∧ c.toNat ≤ 57 then some (c.toNat + 4) else
        if c = plus then some 62 else if c = slash then some 63 else none

def standard : Alphabet := ⟨letterWith '+' '/',valueWith '+' '/',by decide⟩

def url : Alphabet := ⟨letterWith '-' '_',valueWith '-' '_',by decide⟩

/-- The padding of a standard encoding is no letter of it. -/
theorem standard_pad : ∀ c ∈ ['='], standard.value c = none := by
  intro c hc
  obtain rfl := List.mem_singleton.mp hc
  decide

variable (a : Alphabet) (pad : List Char)

/-- The letters of a list of bytes. `pad` stands for each byte missing in the last three. -/
def encode : List UInt8 → List Char
  | [] => []
  | [x] => a.letter (x.toNat / 4) :: a.letter (x.toNat % 4 * 16) :: (pad ++ pad)
  | [x,y] => a.letter (x.toNat / 4) :: a.letter (x.toNat % 4 * 16 + y.toNat / 16) ::
      a.letter (y.toNat % 16 * 4) :: pad
  | x :: y :: z :: rest => a.letter (x.toNat / 4) :: a.letter (x.toNat % 4 * 16 + y.toNat / 16) ::
      a.letter (y.toNat % 16 * 4 + z.toNat / 64) :: a.letter (z.toNat % 64) :: encode rest

/-- The bytes of the values of letters. Bits that make no whole byte are left over. -/
def bytes : List ℕ → List UInt8
  | u :: v :: w :: x :: rest => UInt8.ofNat (u * 4 + v / 16) :: UInt8.ofNat (v % 16 * 16 + w / 4) ::
      UInt8.ofNat (w % 4 * 64 + x) :: bytes rest
  | [u,v,w] => [UInt8.ofNat (u * 4 + v / 16),UInt8.ofNat (v % 16 * 16 + w / 4)]
  | [u,v] => [UInt8.ofNat (u * 4 + v / 16)]
  | _ => []

def decode (s : List Char) : List UInt8 := bytes (s.filterMap a.value)

variable {a pad}

theorem filterMap_letter {n : ℕ} (h : n < 64) (s : List Char) :
    (a.letter n :: s).filterMap a.value = n :: s.filterMap a.value :=
  List.filterMap_cons_some (a.value_letter n h)

theorem filterMap_pad (hpad : ∀ c ∈ pad, a.value c = none) : pad.filterMap a.value = [] :=
  List.filterMap_eq_nil_iff.mpr hpad

/-- The reader takes encoded bytes back. -/
theorem decode_encode (hpad : ∀ c ∈ pad, a.value c = none) (b : List UInt8) : decode a (encode a pad b) = b := by
  unfold decode
  induction b using encode.induct with
  | case1 => rfl
  | case2 x =>
    have hx := x.toNat_lt
    rw [encode, filterMap_letter (by omega), filterMap_letter (by omega), List.filterMap_append, filterMap_pad hpad,
      List.append_nil]
    have hbyte : x.toNat / 4 * 4 + x.toNat % 4 * 16 / 16 = x.toNat := by omega
    rw [bytes, hbyte, UInt8.ofNat_toNat]
  | case3 x y =>
    have hx := x.toNat_lt
    have hy := y.toNat_lt
    rw [encode, filterMap_letter (by omega), filterMap_letter (by omega), filterMap_letter (by omega), filterMap_pad hpad]
    have hfirst : x.toNat / 4 * 4 + (x.toNat % 4 * 16 + y.toNat / 16) / 16 = x.toNat := by omega
    have hsecond : (x.toNat % 4 * 16 + y.toNat / 16) % 16 * 16 + y.toNat % 16 * 4 / 4 = y.toNat := by omega
    rw [bytes, hfirst, hsecond, UInt8.ofNat_toNat, UInt8.ofNat_toNat]
  | case4 x y z rest ih =>
    have hx := x.toNat_lt
    have hy := y.toNat_lt
    have hz := z.toNat_lt
    rw [encode, filterMap_letter (by omega), filterMap_letter (by omega), filterMap_letter (by omega),
      filterMap_letter (by omega)]
    have hfirst : x.toNat / 4 * 4 + (x.toNat % 4 * 16 + y.toNat / 16) / 16 = x.toNat := by omega
    have hsecond : (x.toNat % 4 * 16 + y.toNat / 16) % 16 * 16 + (y.toNat % 16 * 4 + z.toNat / 64) / 4 = y.toNat := by
      omega
    have hthird : (y.toNat % 16 * 4 + z.toNat / 64) % 4 * 64 + z.toNat % 64 = z.toNat := by omega
    rw [bytes, hfirst, hsecond, hthird, UInt8.ofNat_toNat, UInt8.ofNat_toNat, UInt8.ofNat_toNat, ih]

/-- What is no letter does not matter to the reader. -/
theorem decode_filter (keep : Char → Bool) (s : List Char) (h : ∀ c ∈ s, keep c = false → a.value c = none) :
    decode a (s.filter keep) = decode a s := by
  unfold decode
  congr 1
  induction s with
  | nil => rfl
  | cons c s ih =>
    have hrest := ih fun d hd => h d (List.mem_cons_of_mem c hd)
    cases hc : keep c with
    | true => rw [List.filter_cons_of_pos hc, List.filterMap_cons, List.filterMap_cons, hrest]
    | false => rw [List.filter_cons_of_neg (by simp [hc]), hrest, List.filterMap_cons_none (h c List.mem_cons_self hc)]

/-- Four letters for each three bytes or part of three. -/
theorem length_encode (hpad : pad.length = 1) (b : List UInt8) : (encode a pad b).length = 4 * ((b.length + 2) / 3) := by
  induction b using encode.induct with
  | case1 => rfl
  | case2 x => simp [encode, hpad]
  | case3 x y => simp [encode, hpad]
  | case4 x y z rest ih =>
    simp only [encode, List.length_cons, ih]
    omega

/-- Encoded bytes are letters and padding. -/
theorem mem_encode {c : Char} (b : List UInt8) (h : c ∈ encode a pad b) : (∃ n < 64, c = a.letter n) ∨ c ∈ pad := by
  induction b using encode.induct with
  | case1 => cases h
  | case2 x =>
    have hx := x.toNat_lt
    simp only [encode, List.mem_cons, List.mem_append, or_self] at h
    rcases h with rfl | rfl | h
    · exact Or.inl ⟨_,by omega,rfl⟩
    · exact Or.inl ⟨_,by omega,rfl⟩
    · exact Or.inr h
  | case3 x y =>
    have hx := x.toNat_lt
    have hy := y.toNat_lt
    simp only [encode, List.mem_cons] at h
    rcases h with rfl | rfl | rfl | h
    · exact Or.inl ⟨_,by omega,rfl⟩
    · exact Or.inl ⟨_,by omega,rfl⟩
    · exact Or.inl ⟨_,by omega,rfl⟩
    · exact Or.inr h
  | case4 x y z rest ih =>
    have hx := x.toNat_lt
    have hy := y.toNat_lt
    have hz := z.toNat_lt
    simp only [encode, List.mem_cons] at h
    rcases h with rfl | rfl | rfl | rfl | h
    · exact Or.inl ⟨_,by omega,rfl⟩
    · exact Or.inl ⟨_,by omega,rfl⟩
    · exact Or.inl ⟨_,by omega,rfl⟩
    · exact Or.inl ⟨_,by omega,rfl⟩
    · exact ih h

end HermesEnterprise.Foundation.Base64
