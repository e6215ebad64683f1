import Nexad.Base.Slice

/-!
# Authenticated encryption

A cipher that encrypts under a key and a nonce, and authenticates associated
data along with what it encrypts. It is a function of all four: only the nonce
tells two encryptions of the same plaintext apart.
-/

open Slice

/-- A cipher with keys and nonces of fixed lengths. -/
structure Aead (keyLength nonceLength : Nat) where
  encrypt : ArrayOf UInt8 keyLength → ArrayOf UInt8 nonceLength →
    (associated plaintext : List UInt8) → Except String (List UInt8)
  decrypt : ArrayOf UInt8 keyLength → ArrayOf UInt8 nonceLength →
    (associated ciphertext : List UInt8) → Except String (List UInt8)

namespace Aead

variable {keyLength nonceLength : Nat}

/-- Decryption inverts encryption. -/
def Inverts (A : Aead keyLength nonceLength) : Prop :=
  ∀ key nonce associated plaintext ciphertext,
    A.encrypt key nonce associated plaintext = .ok ciphertext →
      A.decrypt key nonce associated ciphertext = .ok plaintext

/-- The ideal cipher: it decrypts what it encrypted under the same key and
nonce with the same associated data, and nothing else. -/
def Authentic (A : Aead keyLength nonceLength) : Prop :=
  ∀ key nonce associated ciphertext plaintext,
    A.decrypt key nonce associated ciphertext = .ok plaintext →
      ∃ plaintext', A.encrypt key nonce associated plaintext' = .ok ciphertext

/-- An ideal cipher decrypts exactly what it encrypted. -/
theorem decrypt_eq_ok_iff {A : Aead keyLength nonceLength} (inverts : A.Inverts)
    (authentic : A.Authentic) {key : ArrayOf UInt8 keyLength} {nonce : ArrayOf UInt8 nonceLength}
    {associated ciphertext plaintext : List UInt8} :
    A.decrypt key nonce associated ciphertext = .ok plaintext ↔
      A.encrypt key nonce associated plaintext = .ok ciphertext := by
  constructor
  · intro h
    obtain ⟨plaintext', hencrypt⟩ := authentic _ _ _ _ _ h
    have hsame := inverts _ _ _ _ _ hencrypt
    rw [h] at hsame
    rwa [Except.ok.inj hsame]
  · exact inverts _ _ _ _ _

/-- A cipher that hides nothing and authenticates everything. -/
def plain (keyLength nonceLength : Nat) : Aead keyLength nonceLength where
  encrypt key nonce associated plaintext := .ok (key.1 ++ (nonce.1 ++ (associated ++ plaintext)))
  decrypt key nonce associated ciphertext :=
    if key.1 ++ (nonce.1 ++ associated) <+: ciphertext then
      .ok (ciphertext.drop (key.1 ++ (nonce.1 ++ associated)).length)
    else .error "aead::Error"

theorem plain_inverts : (plain keyLength nonceLength).Inverts := by
  intro key nonce associated plaintext ciphertext h
  cases h
  rw [plain, ← List.append_assoc nonce.1, ← List.append_assoc key.1]
  dsimp only
  rw [if_pos (List.prefix_append _ _), List.drop_left]

theorem plain_authentic : (plain keyLength nonceLength).Authentic := by
  intro key nonce associated ciphertext plaintext h
  rw [plain] at h
  dsimp only at h
  split at h
  · next hfront =>
    obtain ⟨rest, rfl⟩ := hfront
    exact ⟨rest, by rw [plain, List.append_assoc, List.append_assoc]⟩
  · cases h

end Aead
