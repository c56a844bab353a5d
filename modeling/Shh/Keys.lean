import Shh.Primitives

/-!
# Ed25519 keys, security keys and their SSH encodings

A `PublicKey` carries the size and validity of its point, so every key in the
model is one the source could hold. Blobs are canonical: a key is read from a
blob exactly when the blob is that key's own encoding.
-/

namespace Shh

open List Wire Reader Computations

/-- The plain Ed25519 algorithm name. -/
def algo : String := "ssh-ed25519"

/-- The security-key algorithm name. -/
def skAlgo : String := "sk-ssh-ed25519@openssh.com"

def base64Alphabet : List Char :=
  "ABCDEFGHIJKLMNOPQRSTUVWXYZabcdefghijklmnopqrstuvwxyz0123456789+/".toList

def base64Digit (value : Nat) : Char := base64Alphabet.getD (value % 64) 'A'

/-- Standard base64 without padding. -/
def base64NoPad : Bytes → List Char
  | [] => []
  | [a] => [base64Digit (a.toNat / 4), base64Digit (a.toNat * 16)]
  | [a, b] =>
    let value := a.toNat * 256 + b.toNat
    [base64Digit (value / 1024), base64Digit (value / 16), base64Digit (value * 4)]
  | a :: b :: c :: rest =>
    let value := (a.toNat * 256 + b.toNat) * 256 + c.toNat
    base64Digit (value / 262144) :: base64Digit (value / 4096) :: base64Digit (value / 64) ::
      base64Digit value :: base64NoPad rest

variable {prim : Primitives}

/-- A public key: a valid 32-byte point. -/
structure PublicKey (prim : Primitives) where
  raw : Bytes
  size : raw.length = 32
  valid : prim.validPoint raw = true
deriving DecidableEq

namespace PublicKey

def toBlob (key : PublicKey prim) : Bytes := Writer.utf8 algo ++ Writer.string key.raw

def fingerprint (key : PublicKey prim) : String :=
  s!"SHA256:{String.ofList (base64NoPad (prim.sha256 key.toBlob))}"

/-- `VerifyingKey::from_bytes` on 32 bytes. -/
def fromBytes (raw : Bytes) : Except Error (PublicKey prim) :=
  if checked : raw.length = 32 ∧ prim.validPoint raw = true then .ok ⟨raw, checked.1, checked.2⟩
  else .error (.crypto "bad ed25519 point")

def fromBlob (blob : Bytes) : Except Error (PublicKey prim) :=
  Reader.parse (do
    let name ← Reader.utf8
    Reader.require (name = algo) (.protocol s!"unsupported key algorithm {debug name}")
    let raw ← Reader.string
    Reader.require (raw.length = 32) (.protocol "ed25519 public key must be 32 bytes")
    Reader.finish
    Reader.lift (fromBytes raw)) blob

/-- The 64 raw bytes inside an SSH signature blob. -/
def readSignature (signature : Bytes) : Except Error Bytes :=
  Reader.parse (do
    let name ← Reader.utf8
    Reader.require (name = algo) (.protocol s!"unsupported sig algorithm {debug name}")
    let raw ← Reader.string
    Reader.require (raw.length = 64) (.protocol "ed25519 signature must be 64 bytes")
    Reader.finish
    return raw) signature

def verify (key : PublicKey prim) (message signature : Bytes) : Except Error Unit :=
  match readSignature signature with
  | .error reason => .error reason
  | .ok raw =>
    if prim.verifyRaw key.raw message raw then .ok ()
    else .error (.crypto "signature verification failed")

theorem from_bytes_ok (raw : Bytes) (key : PublicKey prim) :
    fromBytes raw = .ok key ↔ key.raw = raw := by
  unfold fromBytes
  constructor
  · intro accepted
    split at accepted
    · exact (congrArg PublicKey.raw (Except.ok.inj accepted)).symm
    · simp at accepted
  · rintro rfl
    simp [key.size, key.valid]

/-- A blob is accepted exactly when it is the key's own encoding. -/
theorem from_blob_ok (blob : Bytes) (key : PublicKey prim) :
    fromBlob blob = .ok key ↔ blob = key.toBlob := by
  simp only [fromBlob, parse_ok, utf8_bind_ok, require_bind_ok,
    string_bind_ok, finish_bind_ok, lift_ok, from_bytes_ok, toBlob]
  constructor
  · rintro ⟨left, name, afterName, ⟨rfl, -⟩, rfl, raw, afterRaw, ⟨rfl, -⟩, -, rfl, rfl, -⟩
    simp
  · rintro rfl
    exact ⟨[], algo, Writer.string key.raw, ⟨rfl, by decide⟩, rfl, key.raw, [],
      ⟨by simp, by rw [key.size]; decide⟩, key.size, rfl, rfl, rfl⟩

/-- Distinct keys have distinct blobs. -/
theorem to_blob_injective (left right : PublicKey prim) (same : left.toBlob = right.toBlob) :
    left = right := by
  have decoded : fromBlob right.toBlob = .ok left := (from_blob_ok _ _).mpr same.symm
  rw [(from_blob_ok right.toBlob right).mpr rfl] at decoded
  exact (Except.ok.inj decoded).symm

/-- Verification accepts exactly a well-formed blob around a raw signature that
verifies under this key. -/
theorem verify_ok (key : PublicKey prim) (message signature : Bytes) :
    key.verify message signature = .ok () ↔
      ∃ raw, raw.length = 64 ∧ signature = Writer.utf8 algo ++ Writer.string raw ∧
        prim.verifyRaw key.raw message raw = true := by
  have decoded (raw : Bytes) : readSignature signature = .ok raw ↔
      raw.length = 64 ∧ signature = Writer.utf8 algo ++ Writer.string raw := by
    simp only [readSignature, parse_ok, utf8_bind_ok, require_bind_ok,
      string_bind_ok, finish_bind_ok, pure_ok, Prod.mk.injEq]
    constructor
    · rintro ⟨left, name, afterName, ⟨rfl, -⟩, rfl, inner, afterRaw, ⟨rfl, -⟩, size, rfl, rfl, -⟩
      exact ⟨size, by simp⟩
    · rintro ⟨size, rfl⟩
      exact ⟨[], algo, Writer.string raw, ⟨rfl, by decide⟩, rfl, raw, [],
        ⟨by simp, by rw [size]; decide⟩, size, rfl, rfl, rfl⟩
  unfold verify
  cases parsed : readSignature signature with
  | error reason =>
    simp only [reduceCtorEq, false_iff]
    rintro ⟨raw, size, encoded, -⟩
    rw [(decoded raw).mpr ⟨size, encoded⟩] at parsed
    simp at parsed
  | ok raw =>
    obtain ⟨size, encoded⟩ := (decoded raw).mp parsed
    constructor
    · intro accepted
      refine ⟨raw, size, encoded, ?_⟩
      by_contra refused
      simp [refused] at accepted
    · rintro ⟨other, otherSize, otherEncoded, holds⟩
      have same := (decoded other).mpr ⟨otherSize, otherEncoded⟩
      rw [parsed] at same
      cases same
      simp [holds]

end PublicKey

/-- A private key: the 32-byte seed. -/
structure PrivateKey where
  seed : Bytes
  size : seed.length = 32
deriving DecidableEq

namespace PrivateKey

def publicKey (key : PrivateKey) : PublicKey prim :=
  ⟨prim.publicOf key.seed, prim.public_size key.seed, prim.public_valid key.seed⟩

def sign (prim : Primitives) (key : PrivateKey) (message : Bytes) : Bytes :=
  Writer.utf8 algo ++ Writer.string (prim.signRaw key.seed message)

/-- A signature verifies under the signer's own public key. -/
theorem verify_sign (key : PrivateKey) (message : Bytes) :
    (key.publicKey : PublicKey prim).verify message (key.sign prim message) = .ok () :=
  (PublicKey.verify_ok _ _ _).mpr ⟨prim.signRaw key.seed message, prim.sign_size _ _, rfl,
    prim.sign_verifies _ _⟩

end PrivateKey

/-- A security-key credential: the point and the application it is scoped to. -/
structure SkPublicKey (prim : Primitives) where
  key : PublicKey prim
  application : String
deriving DecidableEq

namespace SkPublicKey

def toBlob (key : SkPublicKey prim) : Bytes :=
  Writer.utf8 skAlgo ++ Writer.string key.key.raw ++ Writer.utf8 key.application

def fromBlob (blob : Bytes) : Except Error (SkPublicKey prim) :=
  Reader.parse (do
    let name ← Reader.utf8
    Reader.require (name = skAlgo) (.protocol "not an sk-ssh-ed25519 key")
    let raw ← Reader.string
    Reader.require (raw.length = 32) (.protocol "sk ed25519 key must be 32 bytes")
    let application ← Reader.utf8
    Reader.finish
    let key ← Reader.lift (PublicKey.fromBytes raw)
    return ⟨key, application⟩) blob

/-- The authenticator sets this bit when the user touched it. -/
def flagUserPresent : UInt8 := 0x01

/-- What an authenticator signs: both digests around the flags and counter. -/
def authenticatorData (prim : Primitives) (application : String) (flags : UInt8) (counter : Nat)
    (message : Bytes) : Bytes :=
  prim.sha256 (utf8Bytes application) ++ [flags] ++ beBytes 4 counter ++ prim.sha256 message

/-- The fields of an assertion blob: raw signature, flags and counter. -/
def readAssertion (signature : Bytes) : Except Error (Bytes × UInt8 × Nat) :=
  Reader.parse (do
    let name ← Reader.utf8
    Reader.require (name = skAlgo) (.protocol "not an sk-ssh-ed25519 signature")
    let raw ← Reader.string
    Reader.require (raw.length = 64) (.protocol "sk signature must be 64 bytes")
    let flags ← Reader.byte
    let counter ← Reader.u32
    Reader.finish
    return (raw, flags, counter)) signature

def verify (key : SkPublicKey prim) (message signature : Bytes) : Except Error Unit :=
  match readAssertion signature with
  | .error reason => .error reason
  | .ok (raw, flags, counter) =>
    if flags &&& flagUserPresent = 0 then
      .error (.auth "security key did not assert user presence")
    else if prim.verifyRaw key.key.raw
        (authenticatorData prim key.application flags counter message) raw then .ok ()
    else .error (.crypto "sk signature verification failed")

/-- An accepted assertion carries the user-presence flag and a raw signature
over the authenticator data for this message. -/
theorem verify_ok (key : SkPublicKey prim) (message signature : Bytes)
    (accepted : key.verify message signature = .ok ()) :
    ∃ raw flags counter, readAssertion signature = .ok (raw, flags, counter) ∧
      flags &&& flagUserPresent ≠ 0 ∧
      prim.verifyRaw key.key.raw
        (authenticatorData prim key.application flags counter message) raw = true := by
  unfold verify at accepted
  cases parsed : readAssertion signature with
  | error reason => simp [parsed] at accepted
  | ok fields =>
    obtain ⟨raw, flags, counter⟩ := fields
    simp only [parsed] at accepted
    split at accepted
    · simp at accepted
    · rename_i present
      split at accepted
      · rename_i holds
        exact ⟨raw, flags, counter, rfl, present, holds⟩
      · simp at accepted

/-- A security key's blob is accepted exactly when it is the key's own encoding. -/
theorem from_blob_ok {blob} {key : SkPublicKey prim} :
    fromBlob blob = .ok key ↔ blob = key.toBlob ∧ (utf8Bytes key.application).length < 2 ^ 32 := by
  simp only [fromBlob, parse_ok, utf8_bind_ok, require_bind_ok, string_bind_ok,
    finish_bind_ok, lift_bind_ok, PublicKey.from_bytes_ok, pure_ok, Prod.mk.injEq, toBlob]
  constructor
  · rintro ⟨_, _, _, ⟨rfl, -⟩, rfl, raw, _, ⟨rfl, -⟩, -, application, _, ⟨rfl, short⟩, rfl, point, rfl, rfl, -⟩
    exact ⟨by simp, short⟩
  · rintro ⟨rfl, short⟩
    exact ⟨[], skAlgo, _, ⟨append_assoc _ _ _, by decide⟩, rfl, key.key.raw, _, ⟨rfl, by rw [key.key.size]; decide⟩,
      key.key.size, key.application, [], ⟨(append_nil _).symm, short⟩, rfl, key.key, rfl, rfl, rfl⟩

end SkPublicKey

/-- A user's authentication key, in the two accepted forms. -/
inductive UserKey (prim : Primitives) where
  | ed25519 (key : PublicKey prim)
  | sk (key : SkPublicKey prim)
deriving DecidableEq

namespace UserKey

def fromBlob (blob : Bytes) : Except Error (UserKey prim) := do
  let name ← Reader.utf8.parse blob
  if name = Shh.algo then return .ed25519 (← PublicKey.fromBlob blob)
  else if name = skAlgo then return .sk (← SkPublicKey.fromBlob blob)
  else throw (.protocol s!"unsupported user key algorithm {debug name}")

def toBlob : UserKey prim → Bytes
  | .ed25519 key => key.toBlob
  | .sk key => key.toBlob

def algo : UserKey prim → String
  | .ed25519 _ => Shh.algo
  | .sk _ => skAlgo

def verify : UserKey prim → Bytes → Bytes → Except Error Unit
  | .ed25519 key, message, signature => key.verify message signature
  | .sk key, message, signature => key.verify message signature

/-- The same credential, compared by encoded blob. -/
def keyMatches (left right : UserKey prim) : Bool :=
  left.toBlob.length == right.toBlob.length && left.toBlob == right.toBlob

/-- The encodings of a bare key and of a security key start differently. -/
theorem forms_differ (left : PublicKey prim) (right : SkPublicKey prim) :
    left.toBlob ≠ right.toBlob := by
  intro same
  have lengths := congrArg (List.take 4) same
  have bare : left.toBlob.take 4 = [0, 0, 0, 11] := by
    rw [PublicKey.toBlob, Writer.utf8, Writer.string, append_assoc,
      take_left' (Writer.u32_length _)]
    decide
  have hardware : right.toBlob.take 4 = [0, 0, 0, 26] := by
    rw [SkPublicKey.toBlob, Writer.utf8, Writer.string, append_assoc, append_assoc,
      take_left' (Writer.u32_length _)]
    decide
  rw [bare, hardware] at lengths
  exact absurd lengths (by decide)

/-- Distinct credentials have distinct encodings. -/
theorem to_blob_injective (left right : UserKey prim) (same : left.toBlob = right.toBlob) :
    left = right := by
  cases left with
  | ed25519 left =>
    cases right with
    | ed25519 right => exact congrArg _ (PublicKey.to_blob_injective left right same)
    | sk right => exact absurd same (forms_differ left right)
  | sk left =>
    cases right with
    | ed25519 right => exact absurd same.symm (forms_differ right left)
    | sk right =>
      obtain ⟨⟨leftRaw, leftSize, leftValid⟩, leftApplication⟩ := left
      obtain ⟨⟨rightRaw, rightSize, rightValid⟩, rightApplication⟩ := right
      simp only [toBlob, SkPublicKey.toBlob, append_assoc, append_cancel_left_eq] at same
      obtain ⟨points, applications⟩ := append_inj same (by simp [leftSize, rightSize])
      have rawSame : leftRaw = rightRaw := (append_inj points (by simp)).2
      have textSame : leftApplication = rightApplication :=
        utf8_bytes_injective _ _ (append_inj applications (by simp)).2
      subst rawSame textSame
      rfl

/-- Comparing encodings compares credentials. -/
theorem key_matches_iff (left right : UserKey prim) : keyMatches left right = true ↔ left = right := by
  simp only [keyMatches, Bool.and_eq_true, beq_iff_eq]
  constructor
  · rintro ⟨-, same⟩
    exact to_blob_injective left right same
  · rintro rfl
    exact ⟨rfl, rfl⟩

/-- A user key's strings fit their length fields. -/
def Fits : UserKey prim → Prop
  | .ed25519 _ => True
  | .sk key => (utf8Bytes key.application).length < 2 ^ 32

/-- A user key's encoding starts with its algorithm. -/
theorem to_blob_leads (key : UserKey prim) : Reader.utf8.parse key.toBlob = .ok key.algo := by
  rw [parse_ok]
  cases key with
  | ed25519 key => exact ⟨_, (utf8_ok _ _ Shh.algo).mpr ⟨rfl, by decide⟩⟩
  | sk key => exact ⟨_, (utf8_ok _ _ skAlgo).mpr ⟨append_assoc _ _ _, by decide⟩⟩

/-- A user key's blob is accepted exactly when it is the key's own encoding. -/
theorem from_blob_ok {blob} {key : UserKey prim} :
    fromBlob blob = .ok key ↔ blob = key.toBlob ∧ key.Fits := by
  unfold fromBlob
  rw [except_bind_ok]
  constructor
  · rintro ⟨name, -, read⟩
    split at read
    · obtain ⟨bare, parsed, same⟩ := except_bind_ok.mp read
      cases same
      exact ⟨(PublicKey.from_blob_ok _ _).mp parsed, trivial⟩
    · split at read
      · obtain ⟨hardware, parsed, same⟩ := except_bind_ok.mp read
        cases same
        exact SkPublicKey.from_blob_ok.mp parsed
      · cases read
  · rintro ⟨rfl, fits⟩
    refine ⟨key.algo, key.to_blob_leads, ?_⟩
    cases key with
    | ed25519 key =>
      simp only [algo, if_true]
      exact except_bind_ok.mpr ⟨key, (PublicKey.from_blob_ok _ _).mpr rfl, rfl⟩
    | sk key =>
      have other : skAlgo ≠ Shh.algo := by decide
      simp only [algo, other, if_false, if_true]
      exact except_bind_ok.mpr ⟨key, SkPublicKey.from_blob_ok.mpr ⟨rfl, fits⟩, rfl⟩

end UserKey

end Shh
