import Yggdrasil.Foundation.Codec

/-!
# Ideal authenticated encryption

An `Aead` is a pair of sealing and opening functions with empty associated
data.  Opening succeeds exactly on the sealed form of a plaintext under the
same key and nonce, and sealed forms under different keys, nonces or
plaintexts differ.
-/

namespace Yggdrasil.Foundation

def aeadTagLen : Nat := 16

structure Aead (Key : Type) where
  encrypt : Key → UInt64 → Bytes → Bytes
  decrypt : Key → UInt64 → Bytes → Option Bytes
  decrypt_eq_some_iff : ∀ key nonce ciphertext plaintext,
    decrypt key nonce ciphertext = some plaintext ↔
      ciphertext = encrypt key nonce plaintext
  encrypt_inj : ∀ {key key' nonce nonce' plaintext plaintext'},
    encrypt key nonce plaintext = encrypt key' nonce' plaintext' →
      key = key' ∧ nonce = nonce' ∧ plaintext = plaintext'
  length_encrypt : ∀ key nonce plaintext,
    (encrypt key nonce plaintext).length = plaintext.length + aeadTagLen

namespace Aead

variable {Key : Type} (A : Aead Key)

@[simp] theorem decrypt_encrypt (key : Key) (nonce : UInt64) (plaintext : Bytes) :
    A.decrypt key nonce (A.encrypt key nonce plaintext) = some plaintext :=
  (A.decrypt_eq_some_iff _ _ _ _).2 rfl

theorem eq_encrypt_of_decrypt {key : Key} {nonce : UInt64} {ciphertext plaintext : Bytes}
    (h : A.decrypt key nonce ciphertext = some plaintext) :
    ciphertext = A.encrypt key nonce plaintext :=
  (A.decrypt_eq_some_iff _ _ _ _).1 h

theorem nonce_unique {key : Key} {nonce nonce' : UInt64}
    {ciphertext plaintext plaintext' : Bytes}
    (h : A.decrypt key nonce ciphertext = some plaintext)
    (h' : A.decrypt key nonce' ciphertext = some plaintext') : nonce = nonce' := by
  have hcipher : A.encrypt key nonce plaintext = A.encrypt key nonce' plaintext' :=
    (A.eq_encrypt_of_decrypt h).symm.trans (A.eq_encrypt_of_decrypt h')
  exact (A.encrypt_inj hcipher).2.1

/--
The transparent instance: the sixteen-byte tag spells out key and nonce.  It is
the executable stand-in with which concrete runs are evaluated.
-/
def transparent : Aead UInt64 where
  encrypt key nonce plaintext := u64ToBe key ++ u64ToBe nonce ++ plaintext
  decrypt key nonce ciphertext :=
    if ciphertext.take aeadTagLen = u64ToBe key ++ u64ToBe nonce then
      some (ciphertext.drop aeadTagLen)
    else none
  decrypt_eq_some_iff := by
    intro key nonce ciphertext plaintext
    have hlen : (u64ToBe key ++ u64ToBe nonce).length = aeadTagLen := by
      simp [aeadTagLen]
    constructor
    · intro h
      split at h
      · rename_i htag
        rw [Option.some.injEq] at h
        rw [← h, ← htag, List.take_append_drop]
      · simp at h
    · rintro rfl
      rw [if_pos (List.take_left' hlen), List.drop_left' hlen]
  encrypt_inj := by
    intro key key' nonce nonce' plaintext plaintext' h
    obtain ⟨htag, hplain⟩ := List.append_inj h (by simp)
    obtain ⟨hkey, hnonce⟩ := List.append_inj htag (by simp)
    exact ⟨u64ToBe_injective hkey, u64ToBe_injective hnonce, hplain⟩
  length_encrypt := by
    intro key nonce plaintext
    simp [aeadTagLen]
    omega

end Aead

end Yggdrasil.Foundation
