import Shh.Certificates
import Shh.Cipher

/-!
# Negotiation, key agreement and key derivation

What the two ends of a key exchange compute between their messages: the
KEXINIT each sends, the algorithms both choose from the pair, the shared secret,
the exchange hash and the keys derived from it.

The agreement laws say that the two ends compute the same thing from the same
messages: negotiation is symmetric in who reads which KEXINIT, and the client's
finish of a server's answer gives the server's secret.
-/

namespace Shh

open Wire Computations

variable {prim : Primitives}

inductive Side where
  | client
  | server
deriving DecidableEq, Repr

def Side.other : Side → Side
  | .client => .server
  | .server => .client

inductive KexAlgorithm where
  | mlKem768X25519Sha256
  | curve25519Sha256
deriving DecidableEq, Repr

def KexAlgorithm.fromName (name : String) : Option KexAlgorithm :=
  if name = "mlkem768x25519-sha256" then some .mlKem768X25519Sha256
  else if name = "curve25519-sha256" then some .curve25519Sha256
  else none

def kexAlgorithms : List String := ["mlkem768x25519-sha256", "curve25519-sha256"]
def ciphers : List String := ["chacha20-poly1305@openssh.com", "aes256-gcm@openssh.com"]
def macs : List String := ["hmac-sha2-256"]
def compression : List String := ["none"]

def strictClient : String := "kex-strict-c-v00@openssh.com"
def strictServer : String := "kex-strict-s-v00@openssh.com"
def extInfoClient : String := "ext-info-c"
def extInfoServer : String := "ext-info-s"

structure KexInit where
  cookie : Bytes
  kex : List String
  hostKeys : List String
  encC2s : List String
  encS2c : List String
  macC2s : List String
  macS2c : List String
  compC2s : List String
  compS2c : List String
  langC2s : List String
  langS2c : List String
  firstPacketFollows : Bool
deriving DecidableEq, Repr

namespace KexInit

/-- Our own KEXINIT, given its random cookie. The strict marker is always there. -/
def ours (side : Side) (hostKeys : List String) (cookie : Bytes) : KexInit where
  cookie := cookie
  kex := kexAlgorithms ++ match side with
    | .client => [extInfoClient, strictClient]
    | .server => [extInfoServer, strictServer]
  hostKeys := hostKeys
  encC2s := ciphers
  encS2c := ciphers
  macC2s := macs
  macS2c := macs
  compC2s := compression
  compS2c := compression
  langC2s := []
  langS2c := []
  firstPacketFollows := false

/-- The name-lists in wire order. -/
def lists (init : KexInit) : List (List String) :=
  [init.kex, init.hostKeys, init.encC2s, init.encS2c, init.macC2s, init.macS2c, init.compC2s,
    init.compS2c, init.langC2s, init.langS2c]

/-- The whole payload, which is also what enters the exchange hash. -/
def encode (init : KexInit) : Bytes :=
  Writer.byte Msg.kexInit ++ init.cookie ++ init.lists.flatMap Writer.nameList ++
    Writer.boolean init.firstPacketFollows ++ Writer.u32 0

def read : Reader KexInit := do
  let kind ← Reader.byte
  Reader.require (kind = Msg.kexInit) (.protocol "expected KEXINIT")
  let cookie ← Reader.take 16
  let kex ← Reader.nameList
  let hostKeys ← Reader.nameList
  let encC2s ← Reader.nameList
  let encS2c ← Reader.nameList
  let macC2s ← Reader.nameList
  let macS2c ← Reader.nameList
  let compC2s ← Reader.nameList
  let compS2c ← Reader.nameList
  let langC2s ← Reader.nameList
  let langS2c ← Reader.nameList
  let firstPacketFollows ← Reader.boolean
  let _reserved ← Reader.u32
  Reader.finish
  return { cookie, kex, hostKeys, encC2s, encS2c, macC2s, macS2c, compC2s, compS2c, langC2s,
           langS2c, firstPacketFollows }

def parse (payload : Bytes) : Except Error KexInit := read.parse payload

end KexInit

/-- What the rest of an exchange needs to know. -/
structure Negotiated where
  kex : KexAlgorithm
  hostKeyAlgo : String
  cipherC2s : CipherAlgorithm
  cipherS2c : CipherAlgorithm
  peerExtInfo : Bool
  /-- The peer guessed wrong and its next packet must be dropped. -/
  discardGuess : Bool
deriving DecidableEq, Repr

/-- The first entry of the client's list that the server lists too. -/
def choose (kind : String) (client server : List String) : Except Error String :=
  match client.find? (fun name => server.contains name) with
  | some name => .ok name
  | none => .error (.negotiation kind (",".intercalate client))

/-- A name that must denote a usable algorithm. -/
def usable {α : Type} (kind name : String) (found : Option α) : Except Error α :=
  match found with
  | some algorithm => .ok algorithm
  | none => .error (.protocol s!"negotiated unusable {kind} {debug name}")

/-- The algorithms both ends choose, by the client's preference. -/
def chooseAll (client server : KexInit) :
    Except Error (KexAlgorithm × String × CipherAlgorithm × CipherAlgorithm) := do
  let kexName ← choose "key exchange" client.kex server.kex
  let kex ← usable "kex" kexName (KexAlgorithm.fromName kexName)
  let hostKey ← choose "host key" client.hostKeys server.hostKeys
  let hostKeyAlgo ← usable "host key algorithm" hostKey
    (if hostKey = "ssh-ed25519" ∨ hostKey = certAlgo then some hostKey else none)
  let c2s ← choose "cipher (client→server)" client.encC2s server.encC2s
  let s2c ← choose "cipher (server→client)" client.encS2c server.encS2c
  let cipherC2s ← usable "cipher" c2s (CipherAlgorithm.fromName c2s)
  let cipherS2c ← usable "cipher" s2c (CipherAlgorithm.fromName s2c)
  let _ ← choose "compression (client→server)" client.compC2s server.compC2s
  let _ ← choose "compression (server→client)" client.compS2c server.compS2c
  return (kex, hostKeyAlgo, cipherC2s, cipherS2c)

/-- Negotiate; `side` is who we are. A peer without strict key exchange is
refused. -/
def negotiate (side : Side) (ours theirs : KexInit) : Except Error Negotiated :=
  let (client, server) := match side with
    | .client => (ours, theirs)
    | .server => (theirs, ours)
  let (peerFlag, peerExt) := match side with
    | .client => (strictServer, extInfoServer)
    | .server => (strictClient, extInfoClient)
  if theirs.kex.contains peerFlag then
    match chooseAll client server with
    | .error reason => .error reason
    | .ok (kex, hostKeyAlgo, cipherC2s, cipherS2c) =>
      let guessRight :=
        client.kex.head? = server.kex.head? ∧ client.hostKeys.head? = server.hostKeys.head?
      .ok { kex, hostKeyAlgo, cipherC2s, cipherS2c, peerExtInfo := theirs.kex.contains peerExt,
            discardGuess := theirs.firstPacketFollows && !decide guessRight }
  else
    .error (.protocol ("peer does not support strict key exchange (kex-strict, the " ++
      "Terrapin countermeasure); refusing to continue"))

def mlkemEkLen : Nat := 1184
def mlkemCtLen : Nat := 1088
def x25519Len : Nat := 32

/-- The X25519 secret, unless the peer's point is malformed or of low order. -/
def x25519Shared (prim : Primitives) (secret peer : Bytes) : Except Error Bytes :=
  if peer.length ≠ x25519Len then .error (.crypto "x25519 public key must be 32 bytes")
  else
    let shared := prim.x25519 secret peer
    if shared = List.replicate 32 0 then .error (.crypto "x25519 peer sent a low-order point")
    else .ok shared

/-- The hash of the two halves of the hybrid secret. -/
def hybridSecret (prim : Primitives) (mlkem shared : Bytes) : Bytes := prim.sha256 (mlkem ++ shared)

/-- The client's half of an exchange: its ephemeral secrets. -/
structure ClientKex where
  algo : KexAlgorithm
  xSecret : Bytes
  mlkemSeed : Bytes
deriving DecidableEq, Repr

namespace ClientKex

/-- `Q_C`. -/
def publicKey (prim : Primitives) (kex : ClientKex) : Bytes :=
  match kex.algo with
  | .curve25519Sha256 => prim.x25519Public kex.xSecret
  | .mlKem768X25519Sha256 => (prim.mlkemKeys kex.mlkemSeed).2 ++ prim.x25519Public kex.xSecret

/-- The encoded shared secret from the server's `Q_S`. -/
def finish (prim : Primitives) (kex : ClientKex) (qS : Bytes) : Except Error Bytes :=
  match kex.algo with
  | .curve25519Sha256 => do
    let shared ← x25519Shared prim kex.xSecret qS
    return Writer.mpint shared
  | .mlKem768X25519Sha256 =>
    if qS.length ≠ mlkemCtLen + x25519Len then .error (.crypto "hybrid KEX reply has wrong length")
    else do
      let mlkem := prim.mlkemDecapsulate (prim.mlkemKeys kex.mlkemSeed).1 (qS.take mlkemCtLen)
      let shared ← x25519Shared prim kex.xSecret (qS.drop mlkemCtLen)
      return Writer.string (hybridSecret prim mlkem shared)

end ClientKex

/-- The server's half: `Q_S` and the encoded shared secret, from the client's
`Q_C` and its own randomness. -/
def serverExchange (prim : Primitives) (algo : KexAlgorithm) (xSecret mlkemSeed qC : Bytes) :
    Except Error (Bytes × Bytes) :=
  match algo with
  | .curve25519Sha256 => do
    let shared ← x25519Shared prim xSecret qC
    return (prim.x25519Public xSecret, Writer.mpint shared)
  | .mlKem768X25519Sha256 =>
    if qC.length ≠ mlkemEkLen + x25519Len then .error (.crypto "hybrid KEX init has wrong length")
    else if !prim.mlkemValid (qC.take mlkemEkLen) then .error (.crypto "bad ML-KEM encapsulation key")
    else do
      let (ciphertext, mlkem) := prim.mlkemEncapsulate (qC.take mlkemEkLen) mlkemSeed
      let shared ← x25519Shared prim xSecret (qC.drop mlkemEkLen)
      return (ciphertext ++ prim.x25519Public xSecret, Writer.string (hybridSecret prim mlkem shared))

/-- What an exchange's signature covers and its keys are derived from. -/
def exchangeHash (prim : Primitives) (vC vS : String) (iC iS kS qC qS kEncoded : Bytes) : Bytes :=
  prim.sha256 (Writer.utf8 vC ++ Writer.utf8 vS ++ Writer.string iC ++ Writer.string iS ++
    Writer.string kS ++ Writer.string qC ++ Writer.string qS ++ kEncoded)

inductive Usage where
  | ivClientToServer
  | ivServerToClient
  | keyClientToServer
  | keyServerToClient
deriving DecidableEq, Repr

def Usage.letter : Usage → UInt8
  | .ivClientToServer => 65
  | .ivServerToClient => 66
  | .keyClientToServer => 67
  | .keyServerToClient => 68

/-- Extend key material until it is long enough. Each round adds a hash, so a
budget of the wanted length suffices. -/
def extendKey (prim : Primitives) (kEncoded h : Bytes) (length : Nat) : Nat → Bytes → Bytes
  | 0, out => out
  | budget + 1, out =>
    if out.length < length then
      extendKey prim kEncoded h length budget (out ++ prim.sha256 (kEncoded ++ h ++ out))
    else out

/-- Key material of a given length for a usage. -/
def derive (prim : Primitives) (kEncoded h sessionId : Bytes) (usage : Usage) (length : Nat) : Bytes :=
  (extendKey prim kEncoded h length length
    (prim.sha256 (kEncoded ++ h ++ [usage.letter] ++ sessionId))).take length

/-- Extension reaches the wanted length. -/
theorem extend_key_length (kEncoded h : Bytes) (length budget : Nat) (out : Bytes)
    (enough : length ≤ out.length + budget) :
    length ≤ (extendKey prim kEncoded h length budget out).length := by
  induction budget generalizing out with
  | zero => simpa [extendKey] using enough
  | succ budget ih =>
    unfold extendKey
    split
    · apply ih
      rw [List.length_append, prim.sha256_size]
      omega
    · omega

theorem derive_length (kEncoded h sessionId : Bytes) (usage : Usage) (length : Nat) :
    (derive prim kEncoded h sessionId usage length).length = length := by
  have reached := @extend_key_length prim kEncoded h length length
    (prim.sha256 (kEncoded ++ h ++ [usage.letter] ++ sessionId)) (Nat.le_add_left _ _)
  rw [derive, List.length_take]
  omega

/-- The cipher of one direction of an exchange. -/
def makeCipher (prim : Primitives) (algorithm : CipherAlgorithm) (kEncoded h sessionId : Bytes)
    (keyUsage ivUsage : Usage) : Cipher :=
  match algorithm with
  | .chaChaPoly =>
    let key := derive prim kEncoded h sessionId keyUsage CipherAlgorithm.chaChaPoly.keyLen
    .chachaPoly (key.take 32) (key.drop 32)
  | .aes256Gcm =>
    .gcm ⟨derive prim kEncoded h sessionId keyUsage CipherAlgorithm.aes256Gcm.keyLen,
      derive prim kEncoded h sessionId ivUsage CipherAlgorithm.aes256Gcm.ivLen, derive_length _ _ _ _ _⟩

section Agreement

/-- Both ends of a negotiation choose the same algorithms. -/
theorem negotiate_agrees (client server : KexInit) (atClient atServer : Negotiated)
    (clientChose : negotiate .client client server = .ok atClient)
    (serverChose : negotiate .server server client = .ok atServer) :
    atClient.kex = atServer.kex ∧ atClient.hostKeyAlgo = atServer.hostKeyAlgo ∧
      atClient.cipherC2s = atServer.cipherC2s ∧ atClient.cipherS2c = atServer.cipherS2c := by
  simp only [negotiate] at clientChose serverChose
  split at clientChose
  · split at serverChose
    · cases chosen : chooseAll client server with
      | error reason => simp [chosen] at clientChose
      | ok algorithms =>
        obtain ⟨kex, hostKeyAlgo, cipherC2s, cipherS2c⟩ := algorithms
        simp only [chosen, Except.ok.injEq] at clientChose serverChose
        rw [← clientChose, ← serverChose]
        exact ⟨rfl, rfl, rfl, rfl⟩
    · simp at serverChose
  · simp at clientChose

/-- Without a guess there is none to drop. -/
theorem negotiate_guess {side} {ours theirs : KexInit} {neg : Negotiated}
    (chosen : negotiate side ours theirs = .ok neg) (guessed : theirs.firstPacketFollows = false) :
    neg.discardGuess = false := by
  cases side with
  | client | server =>
    simp only [negotiate, guessed, Bool.false_and] at chosen
    split at chosen
    · split at chosen
      · simp at chosen
      · rw [← Except.ok.inj chosen]
    · simp at chosen

theorem ClientKex.public_key_short (kex : ClientKex) : (kex.publicKey prim).length ≤ 1216 := by
  have point := prim.x25519_public_size kex.xSecret
  have encapsulation := prim.mlkem_key_size kex.mlkemSeed
  unfold ClientKex.publicKey
  split
  · rw [point]
    decide
  · exact Nat.le_of_eq (by rw [List.length_append, point, encapsulation])

/-- The X25519 halves agree. -/
theorem x25519_shared_agrees (left right leftShared rightShared : Bytes)
    (leftRan : x25519Shared prim left (prim.x25519Public right) = .ok leftShared)
    (rightRan : x25519Shared prim right (prim.x25519Public left) = .ok rightShared) :
    leftShared = rightShared := by
  simp only [x25519Shared, x25519Len, prim.x25519_public_size, ne_eq, not_true_eq_false, if_false]
    at leftRan rightRan
  split at leftRan
  · simp at leftRan
  · split at rightRan
    · simp at rightRan
    · rw [← Except.ok.inj leftRan, ← Except.ok.inj rightRan, prim.x25519_agrees]

theorem server_exchange_short {algo} {xSecret mlkemSeed qC qS k : Bytes}
    (answered : serverExchange prim algo xSecret mlkemSeed qC = .ok (qS, k)) :
    qS.length ≤ 1120 := by
  have point := prim.x25519_public_size xSecret
  have ciphertext := prim.mlkem_ciphertext_size (qC.take mlkemEkLen) mlkemSeed
  cases algo with
  | curve25519Sha256 =>
    obtain ⟨shared, _, result⟩ := except_bind_ok.mp answered
    rw [← (Prod.mk.inj (Except.ok.inj result)).1, point]
    decide
  | mlKem768X25519Sha256 =>
    simp only [serverExchange] at answered
    split at answered
    · simp at answered
    · split at answered
      · simp at answered
      · obtain ⟨shared, _, result⟩ := except_bind_ok.mp answered
        exact Nat.le_of_eq (by rw [← (Prod.mk.inj (Except.ok.inj result)).1, List.length_append, point, ciphertext])

/-- The client's finish of the server's answer to its own `Q_C` is the server's
secret. -/
theorem secrets_agree (kex : ClientKex) (xSecret mlkemSeed qS clientSecret serverSecret : Bytes)
    (answered : serverExchange prim kex.algo xSecret mlkemSeed (kex.publicKey prim) =
      .ok (qS, serverSecret))
    (finished : kex.finish prim qS = .ok clientSecret) : clientSecret = serverSecret := by
  cases algorithm : kex.algo with
  | curve25519Sha256 =>
    simp only [serverExchange, ClientKex.publicKey, algorithm, except_bind_ok] at answered
    simp only [ClientKex.finish, algorithm, except_bind_ok] at finished
    obtain ⟨atServer, serverRan, serverResult⟩ := answered
    obtain ⟨atClient, clientRan, clientResult⟩ := finished
    obtain ⟨answer, secret⟩ := Prod.mk.inj (Except.ok.inj serverResult)
    rw [← answer] at clientRan
    rw [← secret, ← Except.ok.inj clientResult,
      x25519_shared_agrees _ _ _ _ clientRan serverRan]
  | mlKem768X25519Sha256 =>
    have keySize : (prim.mlkemKeys kex.mlkemSeed).2.length = mlkemEkLen := prim.mlkem_key_size _
    have front : (kex.publicKey prim).take mlkemEkLen = (prim.mlkemKeys kex.mlkemSeed).2 := by
      simp only [ClientKex.publicKey, algorithm]
      exact List.take_left' keySize
    have back : (kex.publicKey prim).drop mlkemEkLen = prim.x25519Public kex.xSecret := by
      simp only [ClientKex.publicKey, algorithm]
      exact List.drop_left' keySize
    simp only [serverExchange, algorithm, front, back] at answered
    split at answered
    · simp at answered
    · split at answered
      · simp at answered
      · obtain ⟨atServer, serverRan, serverResult⟩ := except_bind_ok.mp answered
        obtain ⟨answer, secret⟩ := Prod.mk.inj (Except.ok.inj serverResult)
        have ciphertextSize : (prim.mlkemEncapsulate (prim.mlkemKeys kex.mlkemSeed).2
            mlkemSeed).1.length = mlkemCtLen := prim.mlkem_ciphertext_size _ _
        simp only [ClientKex.finish, algorithm, ← answer, List.take_left' ciphertextSize,
          List.drop_left' ciphertextSize] at finished
        split at finished
        · simp at finished
        · obtain ⟨atClient, clientRan, clientResult⟩ := except_bind_ok.mp finished
          rw [← secret, ← Except.ok.inj clientResult, prim.mlkem_agrees,
            x25519_shared_agrees _ _ _ _ clientRan serverRan]

/-- A KEXINIT whose names can be joined and whose lists fit their fields. -/
structure KexInit.WellFormed (init : KexInit) : Prop where
  cookie : init.cookie.length = 16
  names : ∀ names ∈ init.lists,
    Reader.Separable names ∧ (utf8Bytes (Writer.joinNames names)).length < 2 ^ 32

/-- What an end sends is what its peer reads. -/
theorem parse_encode (init : KexInit) (wellFormed : init.WellFormed) :
    KexInit.parse init.encode = .ok init := by
  have list (names : List String) (left : Bytes) (member : names ∈ init.lists) :
      Reader.nameList (Writer.nameList names ++ left) = .ok (names, left) :=
    Reader.name_list_read names left (wellFormed.names names member).1 (wellFormed.names names member).2
  have flag (left : Bytes) : Reader.boolean (Writer.boolean init.firstPacketFollows ++ left) =
      .ok (init.firstPacketFollows, left) :=
    (Reader.boolean_ok _ _ _).mpr ⟨_, rfl, by cases init.firstPacketFollows <;> rfl⟩
  have cookie (left : Bytes) : Reader.take 16 (init.cookie ++ left) = .ok (init.cookie, left) :=
    (Reader.take_ok _ _ _ _).mpr ⟨rfl, wellFormed.cookie⟩
  have reserved : Reader.u32 (Writer.u32 0) = .ok (0, []) :=
    (Reader.u32_ok _ _ _).mpr ⟨by simp, by decide⟩
  have body : init.encode = Msg.kexInit :: (init.cookie ++ (Writer.nameList init.kex ++
      (Writer.nameList init.hostKeys ++ (Writer.nameList init.encC2s ++ (Writer.nameList init.encS2c ++
      (Writer.nameList init.macC2s ++ (Writer.nameList init.macS2c ++ (Writer.nameList init.compC2s ++
      (Writer.nameList init.compS2c ++ (Writer.nameList init.langC2s ++ (Writer.nameList init.langS2c ++
      (Writer.boolean init.firstPacketFollows ++ Writer.u32 0)))))))))))) := by
    simp [KexInit.encode, KexInit.lists, Writer.byte]
  rw [KexInit.parse, Reader.parse_ok]
  refine ⟨[], ?_⟩
  rw [body, KexInit.read]
  simp only [Reader.byte_bind_ok, Reader.require_bind_ok]
  refine ⟨_, _, rfl, rfl, ?_⟩
  rw [bind_of_ok (cookie _)]
  iterate 10 rw [bind_of_ok (list _ _ (by simp [KexInit.lists]))]
  rw [bind_of_ok (flag _), bind_of_ok reserved]
  rfl

end Agreement

end Shh
