import Shh.Wire

/-!
# What the source takes from its crates

Curve arithmetic, hashing, the stream and authenticated ciphers and the key
encapsulation come from crates outside the repository, so they are a parameter:
the operations, and the laws the source relies on. The laws are sizes, that a
signature verifies under its own key, that decryption undoes encryption, and that
the two halves of a key exchange agree. Nothing here assumes unforgeability or
secrecy.

Poly1305 is a function of the full blocks it absorbed and of the final partial
one, which is all its incremental interface can express.
-/

namespace Shh

open Wire

/-- The outside operations and their laws. -/
structure Primitives where
  /-- `VerifyingKey::from_bytes` accepts these 32 bytes. -/
  validPoint : Bytes → Bool
  /-- Raw verification: point, message, 64-byte signature. -/
  verifyRaw : Bytes → Bytes → Bytes → Bool
  /-- The point of a 32-byte seed. -/
  publicOf : Bytes → Bytes
  /-- Raw signature by a seed over a message. -/
  signRaw : Bytes → Bytes → Bytes
  sha256 : Bytes → Bytes
  /-- Keystream: key, nonce, offset and number of bytes. -/
  chacha20 : Bytes → Bytes → Nat → Nat → Bytes
  /-- Tag: key, full blocks and the final partial block. -/
  poly1305 : Bytes → List Bytes → Bytes → Bytes
  /-- Ciphertext and tag: key, nonce, associated data and plaintext. -/
  gcmSeal : Bytes → Bytes → Bytes → Bytes → Bytes × Bytes
  /-- Plaintext, if the tag is right: key, nonce, associated data, ciphertext and tag. -/
  gcmOpen : Bytes → Bytes → Bytes → Bytes → Bytes → Option Bytes
  x25519Public : Bytes → Bytes
  /-- The shared secret of a secret and a peer's public key. -/
  x25519 : Bytes → Bytes → Bytes
  /-- Decapsulation and encapsulation key of a seed. -/
  mlkemKeys : Bytes → Bytes × Bytes
  mlkemValid : Bytes → Bool
  /-- Ciphertext and shared secret: encapsulation key and seed. -/
  mlkemEncapsulate : Bytes → Bytes → Bytes × Bytes
  mlkemDecapsulate : Bytes → Bytes → Bytes
  public_size : ∀ seed, (publicOf seed).length = 32
  public_valid : ∀ seed, validPoint (publicOf seed) = true
  sign_size : ∀ seed message, (signRaw seed message).length = 64
  sign_verifies : ∀ seed message, verifyRaw (publicOf seed) message (signRaw seed message) = true
  sha256_size : ∀ message, (sha256 message).length = 32
  chacha20_size : ∀ key nonce offset count, (chacha20 key nonce offset count).length = count
  poly1305_size : ∀ key blocks tail, (poly1305 key blocks tail).length = 16
  gcm_size : ∀ key nonce aad plain, (gcmSeal key nonce aad plain).1.length = plain.length
  gcm_tag_size : ∀ key nonce aad plain, (gcmSeal key nonce aad plain).2.length = 16
  gcm_opens : ∀ key nonce aad plain,
    gcmOpen key nonce aad (gcmSeal key nonce aad plain).1 (gcmSeal key nonce aad plain).2 = some plain
  x25519_public_size : ∀ secret, (x25519Public secret).length = 32
  x25519_agrees : ∀ left right, x25519 left (x25519Public right) = x25519 right (x25519Public left)
  mlkem_key_size : ∀ seed, (mlkemKeys seed).2.length = 1184
  mlkem_ciphertext_size : ∀ key seed, (mlkemEncapsulate key seed).1.length = 1088
  mlkem_agrees : ∀ seed other, mlkemDecapsulate (mlkemKeys seed).1
    (mlkemEncapsulate (mlkemKeys seed).2 other).1 = (mlkemEncapsulate (mlkemKeys seed).2 other).2

/-- The laws are consistent: any 32 bytes are a point, a hash is the low bytes of
its message, a signature names its signer and the hash, encryption is the
identity and shared secrets are constant. Concrete runs are evaluated over it. -/
def Primitives.transparent : Primitives where
  validPoint _ := true
  verifyRaw point message signature := signature == point ++ beBytes 32 (fromBe message)
  publicOf seed := beBytes 32 (fromBe seed)
  signRaw seed message := beBytes 32 (fromBe seed) ++ beBytes 32 (fromBe message)
  sha256 message := beBytes 32 (fromBe message)
  chacha20 _ _ _ count := List.replicate count 0
  poly1305 _ _ _ := List.replicate 16 0
  gcmSeal _ _ _ plain := (plain, List.replicate 16 0)
  gcmOpen _ _ _ ciphertext _ := some ciphertext
  x25519Public secret := beBytes 32 (fromBe secret)
  x25519 _ _ := List.replicate 32 1
  mlkemKeys _ := ([], List.replicate 1184 0)
  mlkemValid _ := true
  mlkemEncapsulate _ _ := (List.replicate 1088 0, List.replicate 32 1)
  mlkemDecapsulate _ _ := List.replicate 32 1
  public_size seed := be_bytes_length 32 _
  public_valid _ := rfl
  sign_size seed message := by simp [be_bytes_length]
  sign_verifies seed message := by simp
  sha256_size message := be_bytes_length 32 _
  chacha20_size _ _ _ count := by simp
  poly1305_size _ _ _ := by simp
  gcm_size _ _ _ _ := rfl
  gcm_tag_size _ _ _ _ := by simp
  gcm_opens _ _ _ _ := rfl
  x25519_public_size secret := be_bytes_length 32 _
  x25519_agrees _ _ := rfl
  mlkem_key_size _ := List.length_replicate
  mlkem_ciphertext_size _ _ := List.length_replicate
  mlkem_agrees _ _ := rfl

end Shh
