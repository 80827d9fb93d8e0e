import Mathlib.Data.List.Basic

/-! # Authenticated encryption

An ideal cipher with associated data: what was encrypted opens only under the key, the nonce and the
associated data that it was encrypted with.
-/
namespace HermesEnterprise.Foundation

structure Aead (Key Nonce Data Text Sealed : Type) where
  encrypt : Key → Nonce → Data → Text → Sealed
  decrypt : Key → Nonce → Data → Sealed → Option Text
  decrypt_encrypt : ∀ key nonce data text, decrypt key nonce data (encrypt key nonce data text) = some text
  decrypt_only : ∀ {key nonce data text key' nonce' data' text'},
    decrypt key' nonce' data' (encrypt key nonce data text) = some text' → key' = key ∧ nonce' = nonce ∧ data' = data

namespace Aead

variable {Key Nonce Data Text Sealed : Type} (cipher : Aead Key Nonce Data Text Sealed)
  {key key' : Key} {nonce nonce' : Nonce} {data data' : Data} {text : Text}

theorem decrypt_other_data (h : data' ≠ data) :
    cipher.decrypt key' nonce' data' (cipher.encrypt key nonce data text) = none := by
  cases hopen : cipher.decrypt key' nonce' data' (cipher.encrypt key nonce data text) with
  | none => rfl
  | some text' => exact absurd (cipher.decrypt_only hopen).2.2 h

theorem decrypt_other_key (h : key' ≠ key) :
    cipher.decrypt key' nonce' data' (cipher.encrypt key nonce data text) = none := by
  cases hopen : cipher.decrypt key' nonce' data' (cipher.encrypt key nonce data text) with
  | none => rfl
  | some text' => exact absurd (cipher.decrypt_only hopen).1 h

end Aead

section Transparent

/-- A byte string that marks its own end: each byte after a one, and a zero. -/
def delimited (bytes : List UInt8) : List UInt8 := bytes.flatMap (fun b => [1,b]) ++ [0]

theorem delimited_cons (b : UInt8) (bytes : List UInt8) : delimited (b :: bytes) = 1 :: b :: delimited bytes := rfl

theorem delimited_append_inj {xs ys r s : List UInt8} (h : delimited xs ++ r = delimited ys ++ s) :
    xs = ys ∧ r = s := by
  induction xs generalizing ys with
  | nil =>
    cases ys with
    | nil => exact ⟨rfl,(List.cons.inj h).2⟩
    | cons b ys => exact absurd (List.cons.inj h).1 (by decide)
  | cons a xs ih =>
    cases ys with
    | nil => exact absurd (List.cons.inj h).1 (by decide)
    | cons b ys =>
      simp only [delimited_cons, List.cons_append, List.cons.injEq, true_and] at h
      obtain ⟨hxs,hr⟩ := ih h.2
      exact ⟨by rw [h.1, hxs],hr⟩

def header (key nonce data : List UInt8) : List UInt8 := delimited key ++ (delimited nonce ++ delimited data)

/-- The cipher that only notes what a text was encrypted with. -/
def Aead.transparent : Aead (List UInt8) (List UInt8) (List UInt8) (List UInt8) (List UInt8) where
  encrypt key nonce data text := header key nonce data ++ text
  decrypt key nonce data box :=
    if (header key nonce data).isPrefixOf box then some (box.drop (header key nonce data).length) else none
  decrypt_encrypt := by
    intro key nonce data text
    have hbegin : (header key nonce data).isPrefixOf (header key nonce data ++ text) = true :=
      List.isPrefixOf_iff_prefix.mpr (List.prefix_append _ _)
    rw [if_pos hbegin, List.drop_left]
  decrypt_only := by
    intro key nonce data text key' nonce' data' text' h
    split at h
    · rename_i hbegin
      obtain ⟨rest,hrest⟩ := List.isPrefixOf_iff_prefix.mp hbegin
      simp only [header, List.append_assoc] at hrest
      obtain ⟨hkey,hrest⟩ := delimited_append_inj hrest
      obtain ⟨hnonce,hrest⟩ := delimited_append_inj hrest
      exact ⟨hkey,hnonce,(delimited_append_inj hrest).1⟩
    · cases h

end Transparent

end HermesEnterprise.Foundation
