import Shh.Keys
import Shh.SourceAddress

/-!
# OpenSSH Ed25519 certificates

A certificate is a CA signature over a key and a policy: a type, a validity
window, principals and critical options. A `Certificate` carries the fact that
the signature in its blob verified under the CA the blob names, so a certificate
in the model is always one some CA signed. Trust in that CA, the window, the principals and the
source address are separate checks.

Unknown critical options refuse the certificate.
-/

namespace Shh

open Wire Computations

variable {prim : Primitives}

def certAlgo : String := "ssh-ed25519-cert-v01@openssh.com"
def skCertAlgo : String := "sk-ssh-ed25519-cert-v01@openssh.com"
def certTypeUser : Nat := 1
def certTypeHost : Nat := 2

namespace Certificate

/-- A known option's value is one string nested in its data, and nothing more. -/
def readOptionValue (data : Bytes) : Except Error String :=
  Reader.parse (do
    let value ← Reader.utf8
    Reader.finish
    return value) data

/-- The options seen so far and the name of the last one. -/
structure Options where
  forceCommand : Option String
  sourceAddress : Option String
  last : Option String

/-- One entry of the critical-options buffer. Names must be strictly ascending
as byte strings, and only the two known ones are accepted. -/
def readOption (seen : Options) : Reader Options := do
  let name ← Reader.utf8
  Reader.require (∀ previous ∈ seen.last, utf8Bytes previous < utf8Bytes name)
    (.auth "certificate critical options are not sorted and unique")
  let data ← Reader.string
  if name = "force-command" then
    let value ← Reader.lift (readOptionValue data)
    return { seen with forceCommand := some value, last := some name }
  else if name = "source-address" then
    let value ← Reader.lift (readOptionValue data)
    return { seen with sourceAddress := some value, last := some name }
  else throw (.auth s!"certificate carries unsupported critical option: {name}")

def parseCriticalOptions (bytes : Bytes) : Except Error (Option String × Option String) := do
  let options ← (Reader.drain readOption ⟨none, none, none⟩).parse bytes
  return (options.forceCommand, options.sourceAddress)

def readStringList (bytes : Bytes) : Except Error (List String) :=
  (Reader.drain (fun out => do
    let item ← Reader.utf8
    return out ++ [item]) []).parse bytes

def readEd25519Point (raw : Bytes) : Except Error (PublicKey prim) :=
  if raw.length ≠ 32 then .error (.protocol "cert key must be 32 bytes")
  else PublicKey.fromBytes raw

/-- The fields a CA signs, the signed bytes' length and the signature. -/
structure Fields (prim : Primitives) where
  key : PublicKey prim
  skApplication : Option String
  serial : Nat
  certType : Nat
  keyId : String
  principals : List String
  validAfter : Nat
  validBefore : Nat
  critical : Bytes
  signerBlob : Bytes
  signedLength : Nat
  signature : Bytes

/-- The fields after the key and its application. -/
def readLater (length : Nat) (key : PublicKey prim) (skApplication : Option String) : Reader (Fields prim) := do
  let serial ← Reader.u64
  let certType ← Reader.u32
  let keyId ← Reader.utf8
  let packed ← Reader.string
  let principals ← Reader.lift (readStringList packed)
  let validAfter ← Reader.u64
  let validBefore ← Reader.u64
  let critical ← Reader.string
  let _extensions ← Reader.string
  let _reserved ← Reader.string
  let signerBlob ← Reader.string
  let unread ← Reader.remaining
  let signature ← Reader.string
  Reader.finish
  return { key, skApplication, serial, certType, keyId, principals, validAfter, validBefore,
           critical, signerBlob, signedLength := length - unread, signature }

def readFields (length : Nat) : Reader (Fields prim) := do
  let name ← Reader.utf8
  Reader.require (name = certAlgo ∨ name = skCertAlgo) (.protocol "not an ssh-ed25519 certificate")
  let _nonce ← Reader.string
  let raw ← Reader.string
  let key ← Reader.lift (readEd25519Point raw)
  if name = skCertAlgo then
    let application ← Reader.utf8
    readLater length key (some application)
  else readLater length key none

/-- The blob's own signature verifies, over the bytes before it, under the CA key
the blob names. -/
def CaSigned (caKey : PublicKey prim) (blob : Bytes) : Prop :=
  ∃ fields : Fields prim, (readFields blob.length).parse blob = .ok fields ∧
    PublicKey.fromBlob fields.signerBlob = .ok caKey ∧
    caKey.verify (blob.take fields.signedLength) fields.signature = .ok ()

end Certificate

/-- A parsed certificate whose CA signature verified. -/
structure Certificate (prim : Primitives) where
  key : PublicKey prim
  skApplication : Option String
  serial : Nat
  certType : Nat
  keyId : String
  /-- Empty means any principal. -/
  principals : List String
  validAfter : Nat
  validBefore : Nat
  forceCommand : Option String
  sourceAddress : Option String
  caKey : PublicKey prim
  blob : Bytes
  signed : Certificate.CaSigned caKey blob

namespace Certificate

def parseAndVerify (blob : Bytes) : Except Error (Certificate prim) :=
  match parsed : (readFields blob.length : Reader (Fields prim)).parse blob with
  | .error reason => .error reason
  | .ok fields =>
    match signer : (PublicKey.fromBlob fields.signerBlob : Except Error (PublicKey prim)) with
    | .error reason => .error reason
    | .ok caKey =>
      if verified : caKey.verify (blob.take fields.signedLength) fields.signature = .ok () then
        match parseCriticalOptions fields.critical with
        | .error reason => .error reason
        | .ok (forceCommand, sourceAddress) =>
          .ok { key := fields.key, skApplication := fields.skApplication, serial := fields.serial,
                certType := fields.certType, keyId := fields.keyId,
                principals := fields.principals, validAfter := fields.validAfter,
                validBefore := fields.validBefore, forceCommand, sourceAddress, caKey, blob,
                signed := ⟨fields, parsed, signer, verified⟩ }
      else .error (.auth "certificate signature is invalid")

/-- A certificate keeps the blob it was read from. -/
theorem parse_and_verify_blob (blob : Bytes) (cert : Certificate prim)
    (accepted : parseAndVerify blob = .ok cert) : cert.blob = blob := by
  unfold parseAndVerify at accepted
  split at accepted
  · simp at accepted
  · split at accepted
    · simp at accepted
    · split at accepted
      · split at accepted
        · simp at accepted
        · exact (congrArg Certificate.blob (Except.ok.inj accepted)).symm
      · simp at accepted

/-- The certified key: a security key when an application is named. -/
def certifiedUserKey (cert : Certificate prim) : UserKey prim :=
  match cert.skApplication with
  | some application => .sk ⟨cert.key, application⟩
  | none => .ed25519 cert.key

/-- The upper bound is exclusive. -/
def validAt (cert : Certificate prim) (now : Nat) : Bool :=
  decide (cert.validAfter ≤ now) && decide (now < cert.validBefore)

theorem valid_at_iff (cert : Certificate prim) (now : Nat) :
    cert.validAt now = true ↔ cert.validAfter ≤ now ∧ now < cert.validBefore := by
  simp [validAt]

def permitsPrincipal (cert : Certificate prim) (principal : String) : Bool :=
  cert.principals.isEmpty || cert.principals.any (· == principal)

/-- An option without a known peer address is refused. -/
def permitsSource (cert : Certificate prim) (peer : Option IpAddr) : Bool :=
  match cert.sourceAddress with
  | none => true
  | some list =>
    match peer with
    | some address => SourceAddress.sourceAddressPermits list address
    | none => false

end Certificate

end Shh
