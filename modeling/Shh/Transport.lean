import Shh.KeyExchange
import Shh.Runs

/-!
# The transport as a machine with explicit waiting points

A transport call runs until it has to wait for bytes from the peer, and resumes
when they have arrived. The waiting points and what is held at each are the
constructors of `Phase`; between two of them the code is a routine over the
transport's fields that keeps what it did when it fails.

The trace records, in order, what others could see or would want to know: every
sealed and opened packet, verifier calls, established secrets, installed ciphers,
and the packets that applications passed in and got back. The code never reads
it.

The outside of one step is an `Env`: randomness, the two clocks, the answers of
the host-key verifier and of the host signer, and write failures.
-/

namespace Shh.Transport

open Wire Computations

variable {prim : Primitives}

def ident : String := "SSH-2.0-SHH_0.1.0"

/-- Rekey thresholds: traffic in bytes, age in nanoseconds, packets. -/
def rekeyBytes : Nat := 2 ^ 30
def rekeyInterval : Nat := 3600 * 1000000000
def rekeyPackets : Nat := 2 ^ 28

/-- Cap on packets held back while waiting for the peer's KEXINIT. -/
def maxRekeyQueue : Nat := 256

/-- Host-key algorithms to advertise. -/
def hostKeyAlgos (withCert : Bool) : List String := if withCert then [certAlgo, algo] else [algo]

/-- What the outside supplies during one step. `fault` may stop the write made
when the trace has a given length, after some of its bytes. -/
structure Env (prim : Primitives) where
  random : Nat → UInt8
  instant : Nat
  now : Nat
  verifier : PublicKey prim → Except Error Unit
  signer : Bytes → Bytes
  fault : Nat → Option (Nat × Error)

/-- The fields of a transport. -/
structure Fields (prim : Primitives) where
  side : Side
  vPeer : String
  tx : Cipher
  rx : Cipher
  txSeq : Nat
  rxSeq : Nat
  traffic : Nat
  kexedAt : Nat
  rekeyBytes : Nat
  rekeyInterval : Nat
  sessionId : Bytes
  queued : List Bytes
  /-- Server: the blob presented when no certificate is. -/
  publicBlob : Bytes
  hostCert : Option Bytes
  /-- Client: trusted host-certificate CAs and the name they must certify. -/
  hostCas : List (PublicKey prim)
  hostname : String
  hostKeyAlgos : List String
  peerHostKey : Option (PublicKey prim)
  peerHostBlob : Bytes
  peerHostSig : Bytes
  peerExtInfo : Bool
  serverSigAlgs : Option (List String)

/-- One key exchange whose secret is established, with everything it hashed. -/
structure Exchange (prim : Primitives) where
  neg : Negotiated
  first : Bool
  vC : String
  vS : String
  iC : Bytes
  iS : Bytes
  kS : Bytes
  qC : Bytes
  qS : Bytes
  signature : Bytes
  k : Bytes
  h : Bytes
  hashed : h = exchangeHash prim vC vS iC iS kS qC qS k
  /-- Client: the key the signature was checked under, and when. -/
  hostKey : Option (PublicKey prim)
  now : Nat

/-- What happened, in order. -/
inductive Effect (prim : Primitives) where
  /-- With the cipher state and sequence number it was sealed under. -/
  | sealed (cipher : Cipher) (seq : Nat) (payload pad : Bytes)
  | opened (payload : Bytes)
  | asked (key : PublicKey prim) (accepted : Bool)
  | keyed (exchange : Exchange prim)
  | txInstalled (cipher : Cipher)
  | rxInstalled (cipher : Cipher)
  | completed (exchange : Exchange prim)
  | submitted (payload : Bytes)
  | returned (payload : Bytes)

/-- What a running call does once its key exchange is over. -/
inductive Resume where
  | handshake
  | rekey
  | send (payload : Bytes)
  | recv
deriving DecidableEq, Repr

/-- The locals of a key exchange after negotiation. -/
structure Kex where
  ours : KexInit
  theirsBytes : Bytes
  neg : Negotiated
deriving DecidableEq, Repr

/-- Where the transport waits. `idle` is between calls, `polling` is the
multiplexer's cancellable wait, `finished` follows the peer's disconnect. -/
inductive Phase (prim : Primitives) where
  | created
  | idents (lines total : Nat)
  | firstKexInit (ours : KexInit)
  | peerKexInit (ours : KexInit) (resume : Resume)
  | guess (kex : Kex) (resume : Resume)
  | ecdhReply (kex : Kex) (first : Bool) (eph : ClientKex) (resume : Resume)
  | ecdhInit (kex : Kex) (first : Bool) (resume : Resume)
  | newKeys (exchange : Exchange prim) (resume : Resume)
  | receiving
  | polling
  | idle
  | finished
  | failed (reason : Error)

/-- The state a routine works on: fields, bytes written, trace and the randomness
left. -/
structure World (prim : Primitives) where
  t : Fields prim
  out : Bytes
  trace : List (Effect prim)
  random : Nat → UInt8

abbrev Act (prim : Primitives) := EStateM Error (World prim)

/-- The first byte of a packet. -/
def kind (payload : Bytes) : UInt8 := payload.headD 0

section Routines

def fill (count : Nat) : Act prim Bytes := fun world =>
  .ok ((List.range count).map world.random)
    { world with random := fun index => world.random (index + count) }

def World.noted (world : World prim) (effect : Effect prim) : World prim :=
  { world with trace := world.trace ++ [effect] }

def World.changed (world : World prim) (change : Fields prim → Fields prim) : World prim :=
  { world with t := change world.t }

def emit (effect : Effect prim) : Act prim Unit := modify fun world => world.noted effect

def update (change : Fields prim → Fields prim) : Act prim Unit := modify fun world => world.changed change

def fields : Act prim (Fields prim) := do
  let world ← get
  return world.t

/-- A computation that touches nothing but may fail. -/
def attempt {α : Type} : Except Error α → Act prim α
  | .ok value => pure value
  | .error reason => throw reason

/-- Seal a packet and write what the outside lets through. -/
def World.sent (world : World prim) (payload : Bytes) (through : Bytes → Bytes) : World prim :=
  let pad := (List.range (world.t.tx.padFor payload.length)).map world.random
  let wire := world.t.tx.sealPacket prim world.t.txSeq payload pad
  { t := { world.t with
      tx := world.t.tx.advance
      txSeq := (world.t.txSeq + 1) % 2 ^ 32
      traffic := world.t.traffic + wire.length }
    out := world.out ++ through wire
    trace := world.trace ++
      [.sealed world.t.tx world.t.txSeq payload pad]
    random := fun index => world.random (index + world.t.tx.padFor payload.length) }

def sendRaw (env : Env prim) (payload : Bytes) : Act prim Unit := fun world =>
  match env.fault world.trace.length with
  | none => .ok () (world.sent payload id)
  | some (count, reason) => .error reason (world.sent payload (List.take count))

def Fields.shouldRekey (t : Fields prim) (instant : Nat) : Bool :=
  decide (t.rekeyBytes ≤ t.traffic) || decide (t.rekeyInterval ≤ instant - t.kexedAt) ||
    decide (rekeyPackets ≤ t.txSeq) || decide (rekeyPackets ≤ t.rxSeq)

/-- Check a presented host certificate and return the key it certifies. -/
def Fields.verifyHostCert (t : Fields prim) (now : Nat) (blob : Bytes) : Except Error (PublicKey prim) :=
  match (Certificate.parseAndVerify blob : Except Error (Certificate prim)) with
  | .error reason => .error (.hostKey s!"host certificate: {reason.display}")
  | .ok cert =>
    if cert.certType ≠ certTypeHost then .error (.hostKey "presented a non-host certificate")
    else if cert.skApplication.isSome then
      .error (.hostKey "security-key certificate presented as a host key")
    else if cert.caKey ∉ t.hostCas then
      .error (.hostKey s!"host certificate signed by an untrusted CA ({cert.caKey.fingerprint})")
    else if !cert.validAt now then
      .error (.hostKey "host certificate is expired or not yet valid")
    else if cert.principals.isEmpty then .error (.hostKey "host certificate lists no hostnames")
    else if !cert.permitsPrincipal t.hostname then
      .error (.hostKey s!"host certificate is not valid for {debug t.hostname}")
    else .ok cert.key

/-- The reason carried by a DISCONNECT; garbled parts get placeholders. -/
def parseDisconnect (payload : Bytes) : Error :=
  let body := payload.drop 1
  match Reader.u32 body with
  | .error _ => .disconnect "reason 0: <garbled>"
  | .ok (reason, rest) =>
    match Reader.utf8.parse rest with
    | .error _ => .disconnect s!"reason {reason}: <garbled>"
    | .ok text => .disconnect s!"reason {reason}: {text}"

/-- Extensions after the count: exactly that many pairs. -/
def readExtensions : Nat → Option (List String) → Reader (Option (List String))
  | 0, found => return found
  | count + 1, found => do
    let name ← Reader.utf8
    let value ← Reader.string
    if name = "server-sig-algs" then
      match ofUtf8 value with
      | none => throw (.protocol "server-sig-algs is not UTF-8")
      | some text => readExtensions count (some ((text.toList.splitOn ',').map String.ofList))
    else readExtensions count found

def readExtInfo (found : Option (List String)) (payload : Bytes) : Except Error (Option (List String)) :=
  Reader.parse (do
    let _kind ← Reader.byte
    let count ← Reader.u32
    let found ← readExtensions count found
    Reader.finish
    return found) payload

def noteExtInfo (payload : Bytes) : Act prim Unit := do
  let t ← fields
  let found ← attempt (readExtInfo t.serverSigAlgs payload)
  update fun t => { t with serverSigAlgs := found }

/-- Send our KEXINIT. -/
def sendKexInit (env : Env prim) : Act prim KexInit := do
  let cookie ← fill 16
  let t ← fields
  let ours := KexInit.ours t.side t.hostKeyAlgos cookie
  sendRaw env ours.encode
  return ours

def ecdhInitPacket (qC : Bytes) : Bytes := Writer.byte Msg.kexEcdhInit ++ Writer.string qC

def ecdhReplyPacket (kS qS signature : Bytes) : Bytes :=
  Writer.byte Msg.kexEcdhReply ++ Writer.string kS ++ Writer.string qS ++ Writer.string signature

def readEcdhInit (payload : Bytes) : Except Error Bytes :=
  Reader.parse (do
    let kind ← Reader.byte
    Reader.require (kind = Msg.kexEcdhInit) (.protocol "expected KEX_ECDH_INIT")
    let qC ← Reader.string
    Reader.finish
    return qC) payload

def readEcdhReply (payload : Bytes) : Except Error (Bytes × Bytes × Bytes) :=
  Reader.parse (do
    let kind ← Reader.byte
    Reader.require (kind = Msg.kexEcdhReply) (.protocol "expected KEX_ECDH_REPLY")
    let kS ← Reader.string
    let qS ← Reader.string
    let signature ← Reader.string
    Reader.finish
    return (kS, qS, signature)) payload

/-- Randomness of the encapsulation half, drawn only by the hybrid exchange. -/
def mlkemSeedLen : KexAlgorithm → Nat
  | .mlKem768X25519Sha256 => 64
  | .curve25519Sha256 => 0

/-- The part of an exchange after a wrong guess, if any, was dropped. -/
def beginExchange (env : Env prim) (kex : Kex) (resume : Resume) : Act prim (Phase prim) := do
  let t ← fields
  match t.side with
  | .client =>
    let xSecret ← fill 32
    let mlkemSeed ← fill (mlkemSeedLen kex.neg.kex)
    let eph : ClientKex := ⟨kex.neg.kex, xSecret, mlkemSeed⟩
    sendRaw env (ecdhInitPacket (eph.publicKey prim))
    return .ecdhReply kex t.sessionId.isEmpty eph resume
  | .server => return .ecdhInit kex t.sessionId.isEmpty resume

/-- Both KEXINITs are known: negotiate and begin. -/
def runKex (env : Env prim) (ours : KexInit) (theirsBytes : Bytes) (resume : Resume) :
    Act prim (Phase prim) := do
  let t ← fields
  let theirs ← attempt (KexInit.parse theirsBytes)
  let neg ← attempt (negotiate t.side ours theirs)
  let kex : Kex := ⟨ours, theirsBytes, neg⟩
  if neg.discardGuess then return .guess kex resume else beginExchange env kex resume

def rekeyInitiate (env : Env prim) (resume : Resume) : Act prim (Phase prim) := do
  let ours ← sendKexInit env
  return .peerKexInit ours resume

def rekeyRespond (env : Env prim) (theirsBytes : Bytes) (resume : Resume) : Act prim (Phase prim) := do
  let ours ← sendKexInit env
  runKex env ours theirsBytes resume

/-- The cipher each side sends with after an exchange. -/
def Exchange.txCipher (exchange : Exchange prim) (side : Side) (sessionId : Bytes) : Cipher :=
  match side with
  | .client => makeCipher prim exchange.neg.cipherC2s exchange.k exchange.h sessionId
      .keyClientToServer .ivClientToServer
  | .server => makeCipher prim exchange.neg.cipherS2c exchange.k exchange.h sessionId
      .keyServerToClient .ivServerToClient

/-- The cipher each side receives with. -/
def Exchange.rxCipher (exchange : Exchange prim) (side : Side) (sessionId : Bytes) : Cipher :=
  match side with
  | .client => makeCipher prim exchange.neg.cipherS2c exchange.k exchange.h sessionId
      .keyServerToClient .ivServerToClient
  | .server => makeCipher prim exchange.neg.cipherC2s exchange.k exchange.h sessionId
      .keyClientToServer .ivClientToServer

/-- Each side receives with what the other sends with. -/
theorem Exchange.rx_cipher_mirrors (exchange : Exchange prim) (side : Side) (sessionId : Bytes) :
    exchange.rxCipher side sessionId = exchange.txCipher side.other sessionId := by
  cases side <;> rfl

/-- The first exchange names the session. -/
def Fields.keyed (exchange : Exchange prim) (t : Fields prim) : Fields prim :=
  { t with
    sessionId := if exchange.first then exchange.h else t.sessionId
    peerExtInfo := exchange.neg.peerExtInfo }

def Fields.withTx (cipher : Cipher) (t : Fields prim) : Fields prim := { t with tx := cipher, txSeq := 0 }

def Fields.withRx (cipher : Cipher) (instant : Nat) (t : Fields prim) : Fields prim :=
  { t with rx := cipher, rxSeq := 0, traffic := 0, kexedAt := instant }

/-- The secret is established: announce and install the sending keys. -/
def installTx (env : Env prim) (exchange : Exchange prim) (resume : Resume) : Act prim (Phase prim) := do
  emit (.keyed exchange)
  update (Fields.keyed exchange)
  sendRaw env [Msg.newKeys]
  let t ← fields
  update (Fields.withTx (exchange.txCipher t.side t.sessionId))
  emit (.txInstalled (exchange.txCipher t.side t.sessionId))
  return .newKeys exchange resume

/-- The verifier is asked about a bare key, and its answer obeyed. -/
def askVerifier (env : Env prim) (key : PublicKey prim) : Act prim Unit := do
  emit (.asked key (env.verifier key).isOk)
  attempt (env.verifier key)

/-- The host key of a reply: certified, or bare and put to the verifier in the
first exchange. -/
def trustedHostKey (env : Env prim) (kex : Kex) (first : Bool) (kS : Bytes) :
    Act prim (PublicKey prim) := do
  let t ← fields
  if kex.neg.hostKeyAlgo = certAlgo then attempt (t.verifyHostCert env.now kS)
  else
    let key ← attempt (PublicKey.fromBlob kS)
    if first then askVerifier env key
    return key

/-- The exchange as the client sees it. -/
def Kex.asClient (kex : Kex) (first : Bool) (eph : ClientKex) (vPeer : String) (kS qS signature k : Bytes)
    (hostKey : PublicKey prim) (now : Nat) : Exchange prim where
  neg := kex.neg
  first := first
  vC := ident
  vS := vPeer
  iC := kex.ours.encode
  iS := kex.theirsBytes
  kS := kS
  qC := eph.publicKey prim
  qS := qS
  signature := signature
  k := k
  h := exchangeHash prim ident vPeer kex.ours.encode kex.theirsBytes kS (eph.publicKey prim) qS k
  hashed := rfl
  hostKey := some hostKey
  now := now

/-- The exchange as the server sees it, signed. -/
def Kex.asServer (kex : Kex) (first : Bool) (vPeer : String) (kS qC qS k : Bytes) (signer : Bytes → Bytes)
    (now : Nat) : Exchange prim where
  neg := kex.neg
  first := first
  vC := vPeer
  vS := ident
  iC := kex.theirsBytes
  iS := kex.ours.encode
  kS := kS
  qC := qC
  qS := qS
  signature := signer (exchangeHash prim vPeer ident kex.theirsBytes kex.ours.encode kS qC qS k)
  k := k
  h := exchangeHash prim vPeer ident kex.theirsBytes kex.ours.encode kS qC qS k
  hashed := rfl
  hostKey := none
  now := now

/-- The host is known by the key that signed; its blob and signature are kept from
the first exchange. -/
def Fields.withHost (exchange : Exchange prim) (t : Fields prim) : Fields prim :=
  { t with
    peerHostKey := exchange.hostKey
    peerHostBlob := if exchange.first then exchange.kS else t.peerHostBlob
    peerHostSig := if exchange.first then exchange.signature else t.peerHostSig }

/-- The blob a server presents: the certificate is negotiated only if there is one. -/
def Fields.presented (t : Fields prim) (kex : Kex) : Bytes :=
  if kex.neg.hostKeyAlgo = certAlgo then t.hostCert.getD [] else t.publicBlob

/-- The client's half on a reply: trust, continuity, secret, signature. -/
def onEcdhReply (env : Env prim) (kex : Kex) (first : Bool) (eph : ClientKex) (resume : Resume)
    (reply : Bytes) : Act prim (Phase prim) := do
  let (kS, qS, signature) ← attempt (readEcdhReply reply)
  let hostKey ← trustedHostKey env kex first kS
  let t ← fields
  if !first ∧ t.peerHostKey ≠ some hostKey then throw (.hostKey "host key changed during rekey")
  else
    let k ← attempt (eph.finish prim qS)
    let exchange := kex.asClient first eph t.vPeer kS qS signature k hostKey env.now
    if hostKey.verify exchange.h signature = .ok () then
      update (Fields.withHost exchange)
      installTx env exchange resume
    else throw (.hostKey "host key signature invalid")

/-- The server's half on an init: secret, signature, reply. -/
def onEcdhInit (env : Env prim) (kex : Kex) (first : Bool) (resume : Resume) (packet : Bytes) :
    Act prim (Phase prim) := do
  let qC ← attempt (readEcdhInit packet)
  let xSecret ← fill 32
  let mlkemSeed ← fill (mlkemSeedLen kex.neg.kex)
  let (qS, k) ← attempt (serverExchange prim kex.neg.kex xSecret mlkemSeed qC)
  let t ← fields
  let exchange := kex.asServer first t.vPeer (t.presented kex) qC qS k env.signer env.now
  sendRaw env (ecdhReplyPacket exchange.kS qS exchange.signature)
  installTx env exchange resume

def extInfoPacket : Bytes :=
  Writer.byte Msg.extInfo ++ Writer.u32 1 ++ Writer.utf8 "server-sig-algs" ++
    Writer.utf8 "ssh-ed25519,ssh-ed25519-cert-v01@openssh.com"

/-- One turn of the receive loop before it waits: held-back packets first, then a
due rekey. -/
def recvLoop (env : Env prim) : Act prim (Phase prim) := do
  let t ← fields
  match t.queued with
  | packet :: rest =>
    update fun t => { t with queued := rest }
    emit (.returned packet)
    return .idle
  | [] => if t.shouldRekey env.instant then rekeyInitiate env .recv else return .receiving

/-- The call that was waiting for the exchange goes on. -/
def resumeCall (env : Env prim) : Resume → Act prim (Phase prim)
  | .handshake => return .idle
  | .rekey => return .idle
  | .send payload => do
    sendRaw env payload
    return .idle
  | .recv => recvLoop env

/-- Whether the server announces its signature algorithms now. -/
def announces (t : Fields prim) (exchange : Exchange prim) : Bool :=
  exchange.first && decide (t.side = .server) && t.peerExtInfo

/-- The peer's NEWKEYS: install the receiving keys and end the exchange. -/
def onNewKeys (env : Env prim) (exchange : Exchange prim) (resume : Resume) (packet : Bytes) :
    Act prim (Phase prim) := do
  if packet ≠ [Msg.newKeys] then throw (.protocol "expected NEWKEYS")
  else
    let t ← fields
    update (Fields.withRx (exchange.rxCipher t.side t.sessionId) env.instant)
    emit (.rxInstalled (exchange.rxCipher t.side t.sessionId))
    if announces t exchange then sendRaw env extInfoPacket
    emit (.completed exchange)
    resumeCall env resume

/-- Messages that only belong inside a key exchange. -/
def isKexMessage (packet : Bytes) : Bool :=
  kind packet = Msg.newKeys || kind packet = Msg.kexEcdhInit || kind packet = Msg.kexEcdhReply

/-- Messages without effect. -/
def isChatter (packet : Bytes) : Bool :=
  kind packet = Msg.ignore || kind packet = Msg.debug || kind packet = Msg.unimplemented

/-- A packet while waiting for the peer's KEXINIT: in-flight data is held back. -/
def onPeerKexInit (env : Env prim) (ours : KexInit) (resume : Resume) (packet : Bytes) :
    Act prim (Phase prim) := do
  if kind packet = Msg.kexInit then runKex env ours packet resume
  else if isChatter packet then return .peerKexInit ours resume
  else if kind packet = Msg.disconnect then throw (parseDisconnect packet)
  else if isKexMessage packet then throw (.protocol "kex message before peer KEXINIT")
  else
    let t ← fields
    if maxRekeyQueue ≤ t.queued.length then
      throw (.protocol "peer sent too much data without completing rekey")
    else
      update fun t => { t with queued := t.queued ++ [packet] }
      return .peerKexInit ours resume

/-- A packet for a waiting `recv`. -/
def onReceiving (env : Env prim) (packet : Bytes) : Act prim (Phase prim) := do
  if isChatter packet then recvLoop env
  else if kind packet = Msg.disconnect then throw (parseDisconnect packet)
  else if kind packet = Msg.extInfo then
    noteExtInfo packet
    recvLoop env
  else if kind packet = Msg.kexInit then rekeyRespond env packet .recv
  else if isKexMessage packet then throw (.protocol "key exchange message outside key exchange")
  else
    emit (.returned packet)
    return .idle

/-- A packet for the multiplexer, which does its own dispatch. -/
def onPolling (env : Env prim) (packet : Bytes) : Act prim (Phase prim) := do
  if isChatter packet then return .idle
  else if kind packet = Msg.extInfo then
    noteExtInfo packet
    return .idle
  else if kind packet = Msg.kexInit then rekeyRespond env packet .rekey
  else if kind packet = Msg.disconnect then return .finished
  else if isKexMessage packet then throw (.protocol "key exchange message outside key exchange")
  else
    emit (.returned packet)
    return .idle

/-- What each waiting point does with an opened packet. -/
def onPacket (env : Env prim) (phase : Phase prim) (packet : Bytes) : Act prim (Phase prim) :=
  match phase with
  | .firstKexInit ours =>
    if kind packet = Msg.kexInit then runKex env ours packet .handshake
    else throw (.protocol "first packet was not KEXINIT")
  | .peerKexInit ours resume => onPeerKexInit env ours resume packet
  | .guess kex resume => beginExchange env kex resume
  | .ecdhReply kex first eph resume => onEcdhReply env kex first eph resume packet
  | .ecdhInit kex first resume => onEcdhInit env kex first resume packet
  | .newKeys exchange resume => onNewKeys env exchange resume packet
  | .receiving => onReceiving env packet
  | .polling => onPolling env packet
  | other => return other

def Fields.counting (size : Nat) (t : Fields prim) : Fields prim :=
  { t with rx := t.rx.advance, rxSeq := (t.rxSeq + 1) % 2 ^ 32, traffic := t.traffic + size }

/-- The end of `recv_raw`: count the packet and refuse an empty one. -/
def receive (env : Env prim) (phase : Phase prim) (payload : Bytes) (size : Nat) :
    Act prim (Phase prim) := do
  update (Fields.counting size)
  emit (.opened payload)
  if payload = [] then throw (.protocol "empty packet payload") else onPacket env phase payload

end Routines

section Machine

/-- One end of a connection: its fields and waiting point, the bytes that arrived
and were not read, the bytes written and not yet carried away, and the trace. -/
structure Endpoint (prim : Primitives) where
  t : Fields prim
  phase : Phase prim
  input : Bytes
  out : Bytes
  trace : List (Effect prim)

/-- What differs between transports when they are made. -/
inductive Config (prim : Primitives) where
  | client (hostCas : List (PublicKey prim)) (hostname : String)
  | server (publicBlob : Bytes) (hostCert : Option Bytes)

def Config.side : Config prim → Side
  | .client _ _ => .client
  | .server _ _ => .server

/-- A transport before its constructor has written anything. -/
def Endpoint.create (config : Config prim) (instant : Nat) : Endpoint prim where
  t :=
    { side := config.side
      vPeer := ""
      tx := .plain
      rx := .plain
      txSeq := 0
      rxSeq := 0
      traffic := 0
      kexedAt := instant
      rekeyBytes := Transport.rekeyBytes
      rekeyInterval := Transport.rekeyInterval
      sessionId := []
      queued := []
      publicBlob := match config with
        | .client _ _ => []
        | .server publicBlob _ => publicBlob
      hostCert := match config with
        | .client _ _ => none
        | .server _ hostCert => hostCert
      hostCas := match config with
        | .client hostCas _ => hostCas
        | .server _ _ => []
      hostname := match config with
        | .client _ hostname => hostname
        | .server _ _ => ""
      hostKeyAlgos := match config with
        | .client hostCas _ => Transport.hostKeyAlgos (!hostCas.isEmpty)
        | .server _ hostCert => Transport.hostKeyAlgos hostCert.isSome
      peerHostKey := none
      peerHostBlob := []
      peerHostSig := []
      peerExtInfo := false
      serverSigAlgs := none }
  phase := .created
  input := []
  out := []
  trace := []

/-- Run a routine to its next waiting point, or to its failure. -/
def Endpoint.run (endpoint : Endpoint prim) (env : Env prim) (input : Bytes)
    (routine : Act prim (Phase prim)) : Endpoint prim :=
  match routine ⟨endpoint.t, endpoint.out, endpoint.trace, env.random⟩ with
  | .ok phase world => ⟨world.t, phase, input, world.out, world.trace⟩
  | .error reason world => ⟨world.t, .failed reason, input, world.out, world.trace⟩

/-- The outcome of reading a line from the bytes that have arrived. -/
inductive LineResult where
  | needMore
  | failed (reason : Error)
  | line (text : String) (rest : Bytes)
deriving DecidableEq, Repr

/-- One line without its end; carriage returns are dropped wherever they are. -/
def readLine (line : Bytes) : Bytes → LineResult
  | [] => .needMore
  | byte :: rest =>
    if byte = 10 then
      match ofUtf8 line with
      | some text => .line text rest
      | none => .failed (.protocol "identification line is not UTF-8")
    else if byte = 13 then readLine line rest
    else if 1024 ≤ line.length then .failed (.protocol "identification line too long")
    else readLine (line ++ [byte]) rest

def startsWith (text start : String) : Bool := start.toList.isPrefixOf text.toList

/-- A line before the identification: only a server may preface its own. -/
def onLine (env : Env prim) (lines total : Nat) (text : String) : Act prim (Phase prim) := do
  let t ← fields
  let total := total + (utf8Bytes text).length
  let lines := lines + 1
  if startsWith text "SSH-" then
    if !startsWith text "SSH-2.0-" then
      throw (.protocol s!"peer speaks {debug (String.ofList (text.toList.take 16))}, not SSH 2.0")
    else
      update fun t => { t with vPeer := text }
      let ours ← sendKexInit env
      return .firstKexInit ours
  else if t.side = .server ∨ 32 < lines ∨ 8192 < total then
    throw (.protocol "junk before identification string")
  else return .idents lines total

/-- The identification line, written first. -/
def identLine : Bytes := utf8Bytes ident ++ [13, 10]

/-- Calls made when no other call is running. `poll`, `drain` and `rekey` are the
multiplexer's: wait for one packet, take a held-back packet, start a rekey. -/
inductive Call where
  | send (payload : Bytes)
  | recv
  | poll
  | drain
  | rekey
  | tighten (bytes interval : Nat)
deriving DecidableEq, Repr

def beginCall (env : Env prim) : Call → Act prim (Phase prim)
  | .send payload => do
    emit (.submitted payload)
    let t ← fields
    if t.shouldRekey env.instant then rekeyInitiate env (.send payload)
    else
      sendRaw env payload
      return .idle
  | .recv => recvLoop env
  | .poll => do
    let t ← fields
    -- The multiplexer drains what was held back before it waits.
    if t.queued = [] then return .polling else return .idle
  | .drain => do
    let t ← fields
    match t.queued with
    | packet :: rest =>
      update fun t => { t with queued := rest }
      -- `on_packet` takes it. Of the transport's own messages only this one is ever held back.
      if kind packet = Msg.extInfo then
        noteExtInfo packet
        return .idle
      else
        emit (.returned packet)
        return .idle
    | [] => return .idle
  | .rekey => rekeyInitiate env .rekey
  | .tighten bytes interval => do
    update fun t => { t with
      rekeyBytes := min t.rekeyBytes bytes, rekeyInterval := min t.rekeyInterval interval }
    return .idle

def disconnectPacket (reason : Nat) (description : String) : Bytes :=
  Writer.byte Msg.disconnect ++ Writer.u32 reason ++ Writer.utf8 description ++ Writer.utf8 ""

/-- What can happen to an endpoint. -/
inductive Input where
  /-- The constructor starts by identifying itself. -/
  | start
  /-- Bytes arrive from the peer. -/
  | arrive (bytes : Bytes)
  /-- A waiting call looks at the bytes that have arrived. -/
  | wake
  /-- The peer closed the stream. -/
  | close
  /-- The multiplexer turns to something else. -/
  | cancel
  | call (call : Call)
  /-- A disconnect, also sent as the last word after a failure. -/
  | disconnect (reason : Nat) (description : String)
deriving DecidableEq, Repr

/-- The waiting points at which a packet is read. -/
def Phase.awaitsPacket : Phase prim → Bool
  | .created | .idents _ _ | .idle | .finished | .failed _ => false
  | _ => true

def Endpoint.wake (endpoint : Endpoint prim) (env : Env prim) : Endpoint prim :=
  match endpoint.phase with
  | .idents lines total =>
    match readLine [] endpoint.input with
    | .needMore => endpoint
    | .failed reason => { endpoint with phase := .failed reason }
    | .line text rest => endpoint.run env rest (onLine env lines total text)
  | phase =>
    if phase.awaitsPacket then
      match readPacket prim endpoint.t.rx endpoint.t.rxSeq endpoint.input with
      | .needMore => endpoint
      | .failed reason => { endpoint with phase := .failed reason }
      | .packet payload size rest => endpoint.run env rest (receive env phase payload size)
    else endpoint

/-- Write the identification line. -/
def writeIdent (env : Env prim) : Act prim (Phase prim) := fun world =>
  match env.fault world.trace.length with
  | none => .ok (.idents 0 0) { world with out := world.out ++ identLine }
  | some (count, reason) => .error reason { world with out := world.out ++ identLine.take count }

/-- One step of an endpoint. What is not possible at its waiting point changes
nothing. -/
def Endpoint.step (endpoint : Endpoint prim) (env : Env prim) : Input → Endpoint prim
  | .start =>
    match endpoint.phase with
    | .created => endpoint.run env endpoint.input (writeIdent env)
    | _ => endpoint
  | .arrive bytes => { endpoint with input := endpoint.input ++ bytes }
  | .wake => endpoint.wake env
  | .close =>
    match endpoint.phase with
    | .idents _ _ => { endpoint with phase := .failed (.io "unexpected end of file") }
    | phase =>
      if phase.awaitsPacket then
        { endpoint with phase := .failed (.protocol "connection closed mid-packet") }
      else endpoint
  | .cancel =>
    match endpoint.phase with
    | .polling => { endpoint with phase := .idle }
    | _ => endpoint
  | .call call =>
    match endpoint.phase with
    | .idle => endpoint.run env endpoint.input (beginCall env call)
    | _ => endpoint
  | .disconnect reason description =>
    match endpoint.phase with
    | .idle => endpoint.run env endpoint.input (do
        sendRaw env (disconnectPacket reason description)
        return .idle)
    | .failed error => endpoint.run env endpoint.input (do
        sendRaw env (disconnectPacket reason description)
        return .failed error)
    | _ => endpoint

/-- An endpoint after a history of what happened to it. -/
def Endpoint.after (config : Config prim) (instant : Nat) (past : List (Env prim × Input)) : Endpoint prim :=
  Runs.run (fun endpoint event => endpoint.step event.1 event.2) (Endpoint.create config instant) past

theorem Endpoint.after_snoc (config : Config prim) (instant : Nat) (past : List (Env prim × Input))
    (event : Env prim × Input) :
    Endpoint.after config instant (past ++ [event]) =
      (Endpoint.after config instant past).step event.1 event.2 :=
  Runs.run_snoc _ _ past event

end Machine

section Rules

variable {world : World prim}

/-! Weakest preconditions of the basic operations. -/

variable {α : Type} {post : α → World prim → Prop} {done : Unit → World prim → Prop}
  {fail : Error → World prim → Prop}

theorem wp_attempt {result} (succeeds : ∀ value, result = .ok value → post value world)
    (fails : ∀ reason, result = .error reason → fail reason world) :
    wp (attempt result) post fail world := by
  cases result with
  | error reason => exact fails reason rfl
  | ok value => exact succeeds value rfl

theorem wp_fill {post : Bytes → World prim → Prop} {count}
    (drawn : ∀ bytes random, bytes.length = count → post bytes { world with random := random }) :
    wp (fill count) post fail world :=
  drawn _ _ (by rw [List.length_map, List.length_range])

/-- A packet is sealed whether or not the write succeeds. -/
theorem wp_send_raw {env : Env prim} {payload}
    (sent : env.fault world.trace.length = none → done () (world.sent payload id))
    (cut : ∀ count reason, env.fault world.trace.length = some (count, reason) →
      fail reason (world.sent payload (List.take count))) :
    wp (sendRaw env payload) done fail world := by
  unfold wp sendRaw
  cases fault : env.fault world.trace.length with
  | none => exact sent fault
  | some stop => exact cut stop.1 stop.2 fault

/-- What holds of a routine's ends holds of the endpoint it ran on. -/
theorem wp_run {routine} {ends : Phase prim → World prim → Prop}
    (endpoint : Endpoint prim) (env : Env prim) (input : Bytes)
    (holds : wp routine ends (fun reason => ends (.failed reason))
      ⟨endpoint.t, endpoint.out, endpoint.trace, env.random⟩) :
    ∃ phase world, endpoint.run env input routine = ⟨world.t, phase, input, world.out, world.trace⟩ ∧
      ends phase world := by
  unfold wp at holds
  unfold Endpoint.run
  cases ran : routine ⟨endpoint.t, endpoint.out, endpoint.trace, env.random⟩ with
  | ok phase world =>
    rw [ran] at holds
    exact ⟨phase, world, rfl, holds⟩
  | error reason world =>
    rw [ran] at holds
    exact ⟨.failed reason, world, rfl, holds⟩

end Rules

namespace Sample

theorem host_sized : (List.replicate 32 (9 : UInt8)).length = 32 := by decide

def host : PrivateKey := ⟨List.replicate 32 9, host_sized⟩
def hostBlob : Bytes := (host.publicKey : PublicKey .transparent).toBlob

def env : Env .transparent where
  random _ := 0
  instant := 0
  now := 0
  verifier _ := .ok ()
  signer := host.sign .transparent
  fault _ := none

/-- A packet before the first keys. -/
def plainPacket (seq : Nat) (payload : Bytes) : Bytes :=
  Cipher.plain.sealPacket .transparent seq payload (List.replicate (Cipher.plain.padFor payload.length) 0)

def clientInit : KexInit := KexInit.ours .client [algo] (List.replicate 16 0)

/-- A server that knows the older exchange only, and gcm towards it. -/
def serverInit : KexInit :=
  { KexInit.ours .server [algo] (List.replicate 16 0) with
    kex := ["curve25519-sha256", strictServer], encC2s := ["aes256-gcm@openssh.com"] }

def point : Bytes := List.replicate 32 0

def sharedSecret : Bytes := List.replicate 32 1

def hash : Bytes :=
  exchangeHash .transparent ident ident clientInit.encode serverInit.encode hostBlob point point sharedSecret

/-- A client's first exchange, two packets under the new keys and a disconnect. -/
def session : List (Env .transparent × Input) :=
  [.start, .arrive identLine, .wake, .arrive (plainPacket 0 serverInit.encode), .wake,
    .arrive (plainPacket 1 (ecdhReplyPacket hostBlob point (host.sign .transparent hash))), .wake,
    .arrive (plainPacket 2 [Msg.newKeys]), .wake, .call (.send [80, 1]), .call (.send [80, 2]),
    .disconnect 11 "bye"].map (Prod.mk env)

def client : Endpoint .transparent := Endpoint.after (.client [] "host") 0 session

end Sample

end Shh.Transport
