import Shh.Primitives

/-!
# Packet sealing and opening

A packet is a length field and a block of padding length, payload and padding,
in one of three framings: plaintext before the first keys, chacha20-poly1305 with
an encrypted length, and aes256-gcm with the length as associated data. One
direction of a stream is a cipher value that each packet advances; only the gcm
invocation counter actually moves.

The receiver works on whatever bytes have arrived. `readPacket` either needs more
of them, refuses the packet, or returns the payload, the advanced cipher and the
bytes that follow. Its law is that a sealed packet reads back under the same
cipher and sequence number, unless it is longer than the receiver allows.
-/

namespace Shh

open List Wire

/-- Ceiling on the length field of an incoming packet. -/
def maxPacket : Nat := 256 * 1024

def tagLen : Nat := 16

def minPad : Nat := 4

inductive CipherAlgorithm where
  | chaChaPoly
  | aes256Gcm
deriving DecidableEq, Repr

namespace CipherAlgorithm

def fromName (name : String) : Option CipherAlgorithm :=
  if name = "chacha20-poly1305@openssh.com" then some .chaChaPoly
  else if name = "aes256-gcm@openssh.com" then some .aes256Gcm
  else none

def keyLen : CipherAlgorithm → Nat
  | .chaChaPoly => 64
  | .aes256Gcm => 32

def ivLen : CipherAlgorithm → Nat
  | .chaChaPoly => 0
  | .aes256Gcm => 12

end CipherAlgorithm

/-- Sanity-check a length field before anything is allocated for it. -/
def checkLength (length align : Nat) : Except Error Nat :=
  if (1 + minPad ≤ length ∧ length ≤ maxPacket) ∧ length % align = 0 then .ok length
  else .error (.protocol s!"bad packet length {length}")

/-- How much padding a payload gets: at least the minimum, up to alignment. -/
def padLength (payload align : Nat) (lengthCounts : Bool) : Nat :=
  let base := (if lengthCounts then 4 else 0) + 1 + payload
  let pad := align - base % align
  if pad < minPad then pad + align else pad

/-- Padding length, payload and padding. -/
def paddedBlock (payload pad : Bytes) : Bytes := UInt8.ofNat pad.length :: payload ++ pad

/-- Strip a block down to its payload. -/
def unpad : Bytes → Except Error Bytes
  | [] => .error (.protocol "empty packet")
  | padlen :: rest =>
    if padlen.toNat < minPad ∨ rest.length < padlen.toNat then .error (.protocol "bad padding length")
    else .ok (rest.take (rest.length - padlen.toNat))

/-- Apply a keystream. -/
def xorBytes (bytes keystream : Bytes) : Bytes := List.zipWith (· ^^^ ·) bytes keystream

/-- The full 16-byte blocks of a message. -/
def polyBlocks (message : Bytes) : List Bytes :=
  (List.range (message.length / 16)).map fun index => (message.drop (16 * index)).take 16

/-- What is left after the full blocks. -/
def polyTail (message : Bytes) : Bytes := message.drop (16 * (message.length / 16))

/-- The aes256-gcm state: the invocation counter is the low eight bytes of the
initialization vector. -/
structure GcmCipher where
  key : Bytes
  iv : Bytes
  size : iv.length = 12
deriving DecidableEq, Repr

/-- Count one invocation. -/
def GcmCipher.bump (cipher : GcmCipher) : GcmCipher where
  key := cipher.key
  iv := cipher.iv.take 4 ++ beBytes 8 (fromBe (cipher.iv.drop 4) + 1)
  size := by simp [be_bytes_length, cipher.size]

/-- One direction of a packet stream. -/
inductive Cipher where
  | plain
  | chachaPoly (kMain kLen : Bytes)
  | gcm (cipher : GcmCipher)
deriving DecidableEq, Repr

namespace Cipher

/-- Block alignment, and whether the length field takes part in it. -/
def framing : Cipher → Nat × Bool
  | .plain => (8, true)
  | .chachaPoly _ _ => (8, false)
  | .gcm _ => (16, false)

/-- The padding a payload of this size gets. -/
def padFor (cipher : Cipher) (payload : Nat) : Nat :=
  padLength payload cipher.framing.1 cipher.framing.2

/-- The nonce the next packet is protected with; plaintext has none. -/
def nonce (cipher : Cipher) (seq : Nat) : Option Bytes :=
  match cipher with
  | .plain => none
  | .chachaPoly _ _ => some (beBytes 8 seq)
  | .gcm state => some state.iv

/-- The cipher after one packet. -/
def advance : Cipher → Cipher
  | .plain => .plain
  | .chachaPoly kMain kLen => .chachaPoly kMain kLen
  | .gcm state => .gcm state.bump

end Cipher

namespace Cipher

variable (prim : Primitives)

/-- The one-time tag key: the first keystream block of the main key. -/
def polyKey (kMain : Bytes) (seq : Nat) : Bytes := prim.chacha20 kMain (beBytes 8 seq) 0 32

/-- The wire bytes of a payload, given its random padding. -/
def sealPacket (cipher : Cipher) (seq : Nat) (payload pad : Bytes) : Bytes :=
  let block := paddedBlock payload pad
  let lengthField := beBytes 4 block.length
  match cipher with
  | .plain => lengthField ++ block
  | .chachaPoly kMain kLen =>
    let out := xorBytes lengthField (prim.chacha20 kLen (beBytes 8 seq) 0 4) ++
      xorBytes block (prim.chacha20 kMain (beBytes 8 seq) 64 block.length)
    out ++ prim.poly1305 (polyKey prim kMain seq) (polyBlocks out) (polyTail out)
  | .gcm state =>
    let (ciphertext, tag) := prim.gcmSeal state.key state.iv lengthField block
    lengthField ++ ciphertext ++ tag

/-- The length field in the first four wire bytes. -/
def packetLength (cipher : Cipher) (seq : Nat) (first4 : Bytes) : Except Error Nat :=
  match cipher with
  | .plain =>
    -- The length field itself counts toward the plaintext alignment.
    let length := fromBe first4
    if (1 + minPad ≤ length ∧ length ≤ maxPacket) ∧ (length + 4) % 8 = 0 then .ok length
    else .error (.protocol s!"bad packet length {length}")
  | .chachaPoly _ kLen =>
    checkLength (fromBe (xorBytes first4 (prim.chacha20 kLen (beBytes 8 seq) 0 4))) 8
  | .gcm _ => checkLength (fromBe first4) 16

/-- Bytes that follow the first four. -/
def bodyLen (cipher : Cipher) (packetLength : Nat) : Nat :=
  match cipher with
  | .plain => packetLength
  | .chachaPoly _ _ => packetLength + tagLen
  | .gcm _ => packetLength + tagLen

/-- The tag over header and ciphertext as the receiver computes it: a short
message at once, a longer one block by block without joining the two. -/
def incrementalTag (key first4 ciphertext : Bytes) : Bytes :=
  if ciphertext.length < 12 then
    prim.poly1305 key (polyBlocks (first4 ++ ciphertext)) (polyTail (first4 ++ ciphertext))
  else
    let rest := ciphertext.drop 12
    let aligned := rest.length / 16 * 16
    let full := rest.take aligned
    let tail := rest.drop aligned
    prim.poly1305 key ((first4 ++ ciphertext.take 12) :: polyBlocks full ++ polyBlocks tail)
      (polyTail tail)

/-- Authenticate and decrypt a body. -/
def openPacket (cipher : Cipher) (seq : Nat) (first4 body : Bytes) : Except Error Bytes :=
  match cipher with
  | .plain => unpad body
  | .chachaPoly kMain _ =>
    let ciphertext := body.take (body.length - tagLen)
    let tag := body.drop (body.length - tagLen)
    if incrementalTag prim (polyKey prim kMain seq) first4 ciphertext = tag then
      unpad (xorBytes ciphertext (prim.chacha20 kMain (beBytes 8 seq) 64 ciphertext.length))
    else .error (.crypto "packet authentication failed")
  | .gcm state =>
    let ciphertext := body.take (body.length - tagLen)
    let tag := body.drop (body.length - tagLen)
    match prim.gcmOpen state.key state.iv first4 ciphertext tag with
    | some block => unpad block
    | none => .error (.crypto "packet authentication failed")

end Cipher

/-- The outcome of reading a packet from the bytes that have arrived. -/
inductive ReadResult where
  | needMore
  | failed (reason : Error)
  | packet (payload : Bytes) (size : Nat) (rest : Bytes)
deriving DecidableEq, Repr

/-- Read one packet: header, body, then authentication. -/
def readPacket (prim : Primitives) (cipher : Cipher) (seq : Nat) (input : Bytes) : ReadResult :=
  if input.length < 4 then .needMore
  else
    let first4 := input.take 4
    match cipher.packetLength prim seq first4 with
    | .error reason => .failed reason
    | .ok length =>
      let body := (input.drop 4).take (cipher.bodyLen length)
      if body.length < cipher.bodyLen length then .needMore
      else
        match cipher.openPacket prim seq first4 body with
        | .error reason => .failed reason
        | .ok payload =>
          .packet payload (4 + body.length) ((input.drop 4).drop (cipher.bodyLen length))

section Nonces

/-- The invocation counter after some invocations, within its eight bytes. -/
theorem bump_counter (state : GcmCipher) (count : Nat) :
    fromBe ((GcmCipher.bump^[count] state).iv.drop 4) = (fromBe (state.iv.drop 4) + count) % 256 ^ 8 := by
  induction count with
  | zero =>
    have bound := from_be_bound (state.iv.drop 4)
    rw [length_drop, state.size] at bound
    simp only [Function.iterate_zero, id, Nat.add_zero]
    exact (Nat.mod_eq_of_lt bound).symm
  | succ count ih =>
    have fixed : ((GcmCipher.bump^[count] state).iv.take 4).length = 4 := by
      rw [length_take, (GcmCipher.bump^[count] state).size]
      rfl
    rw [Function.iterate_succ_apply']
    simp only [GcmCipher.bump, drop_left' fixed, from_be_bytes, ih]
    omega

theorem advance_gcm (state : GcmCipher) (count : Nat) :
    Cipher.advance^[count] (.gcm state) = .gcm (GcmCipher.bump^[count] state) := by
  induction count with
  | zero => rfl
  | succ count ih =>
    rw [Function.iterate_succ_apply', ih, Function.iterate_succ_apply']
    rfl

theorem advance_chacha (kMain kLen : Bytes) (count : Nat) :
    Cipher.advance^[count] (.chachaPoly kMain kLen) = .chachaPoly kMain kLen :=
  Function.iterate_fixed rfl count

theorem advance_plain (count : Nat) : Cipher.advance^[count] .plain = .plain :=
  Function.iterate_fixed rfl count

/-- One cipher never uses a nonce at two sequence numbers, as long as neither its
counter nor the number runs past eight bytes. -/
theorem nonces_distinct (start : Cipher) (first second : Nat) (earlier : first < second)
    (bound : second < 256 ^ 8) (nonce : Bytes)
    (used : (Cipher.advance^[first] start).nonce first = some nonce) :
    (Cipher.advance^[second] start).nonce second ≠ some nonce := by
  intro again
  have same := used.trans again.symm
  cases start with
  | plain => simp [advance_plain, Cipher.nonce] at used
  | chachaPoly kMain kLen =>
    rw [advance_chacha, advance_chacha] at same
    have numbers := congrArg fromBe (Option.some.inj same)
    rw [from_be_bytes, from_be_bytes, Nat.mod_eq_of_lt bound, Nat.mod_eq_of_lt (by omega)] at numbers
    omega
  | gcm state =>
    rw [advance_gcm, advance_gcm] at same
    have counters := congrArg (fun iv => fromBe (List.drop 4 iv)) (Option.some.inj same)
    simp only [bump_counter] at counters
    omega

end Nonces

section Laws

variable (prim : Primitives)

theorem xor_bytes_length (bytes keystream : Bytes) (same : keystream.length = bytes.length) :
    (xorBytes bytes keystream).length = bytes.length := by
  simp [xorBytes, same]

/-- Applying a keystream twice changes nothing. -/
theorem xor_bytes_involutive (bytes keystream : Bytes) (same : keystream.length = bytes.length) :
    xorBytes (xorBytes bytes keystream) keystream = bytes := by
  induction bytes generalizing keystream with
  | nil => simp [xorBytes]
  | cons byte rest ih =>
    cases keystream with
    | nil => simp at same
    | cons key keys =>
      have tails : keys.length = rest.length := by simpa using same
      have head : byte ^^^ key ^^^ key = byte := by
        rw [UInt8.xor_assoc, UInt8.xor_self, UInt8.xor_zero]
      have tail := ih keys tails
      simp only [xorBytes] at tail
      simp only [xorBytes, zipWith_cons_cons, head, tail]

/-- Blocks of a message that starts with whole blocks. -/
theorem poly_blocks_append (front back : Bytes) (whole : front.length % 16 = 0) :
    polyBlocks (front ++ back) = polyBlocks front ++ polyBlocks back := by
  have count : (front ++ back).length / 16 = front.length / 16 + back.length / 16 := by
    rw [length_append]
    omega
  have size : 16 * (front.length / 16) = front.length := by omega
  unfold polyBlocks
  rw [count, range_add, map_append, map_map]
  congr 1
  · apply map_congr_left
    intro index inside
    have bound : 16 * index + 16 ≤ front.length := by
      have below := mem_range.mp inside
      omega
    rw [drop_append_of_le_length (by omega), take_append_of_le_length]
    rw [length_drop]
    omega
  · apply map_congr_left
    intro index _
    have offset : 16 * (front.length / 16 + index) = front.length + 16 * index := by omega
    simp only [Function.comp_apply, offset, drop_append, drop_eq_nil_of_le (Nat.le_add_right _ _),
      nil_append, Nat.add_sub_cancel_left]

theorem poly_tail_append (front back : Bytes) (whole : front.length % 16 = 0) :
    polyTail (front ++ back) = polyTail back := by
  have offset : 16 * ((front ++ back).length / 16) = front.length + 16 * (back.length / 16) := by
    rw [length_append]
    omega
  unfold polyTail
  rw [offset, drop_append, drop_eq_nil_of_le (Nat.le_add_right _ _), nil_append,
    Nat.add_sub_cancel_left]

/-- The receiver's copy-free tag is the tag of header and ciphertext joined. -/
theorem incremental_tag_eq (key first4 ciphertext : Bytes) (header : first4.length = 4) :
    Cipher.incrementalTag prim key first4 ciphertext =
      prim.poly1305 key (polyBlocks (first4 ++ ciphertext)) (polyTail (first4 ++ ciphertext)) := by
  unfold Cipher.incrementalTag
  split
  · rfl
  · rename_i long
    simp only [Nat.not_lt] at long
    have joined : first4 ++ ciphertext = (first4 ++ ciphertext.take 12) ++
        ((ciphertext.drop 12).take ((ciphertext.drop 12).length / 16 * 16) ++
          (ciphertext.drop 12).drop ((ciphertext.drop 12).length / 16 * 16)) := by
      rw [take_append_drop, append_assoc, take_append_drop]
    have firstSize : (first4 ++ ciphertext.take 12).length = 16 := by
      rw [length_append, length_take, header]
      omega
    have firstBlock : polyBlocks (first4 ++ ciphertext.take 12) = [first4 ++ ciphertext.take 12] := by
      have kept : (first4 ++ ciphertext.take 12).take 16 = first4 ++ ciphertext.take 12 :=
        take_of_length_le (by omega)
      simp [polyBlocks, firstSize, kept]
    have fullSize : ((ciphertext.drop 12).take ((ciphertext.drop 12).length / 16 * 16)).length % 16 = 0 := by
      rw [length_take]
      omega
    rw [joined, poly_blocks_append _ _ (by omega), poly_tail_append _ _ (by omega),
      poly_blocks_append _ _ fullSize, poly_tail_append _ _ fullSize, firstBlock]
    rfl

/-- Padding is at least the minimum, fits its length byte and aligns the block. -/
theorem pad_length_spec (payload align : Nat) (lengthCounts : Bool) (aligned : align = 8 ∨ align = 16) :
    minPad ≤ padLength payload align lengthCounts ∧ padLength payload align lengthCounts < 256 ∧
      ((if lengthCounts then 4 else 0) + 1 + payload + padLength payload align lengthCounts) % align = 0 := by
  unfold padLength minPad
  rcases aligned with rfl | rfl <;> cases lengthCounts <;> simp only [if_true, if_false,
    Bool.false_eq_true] <;> split <;> omega

theorem Cipher.framing_aligned (cipher : Cipher) : cipher.framing.1 = 8 ∨ cipher.framing.1 = 16 := by
  cases cipher <;> simp [Cipher.framing]

theorem Cipher.pad_for_short (cipher : Cipher) (payload : Nat) : cipher.padFor payload < 256 :=
  (pad_length_spec payload _ cipher.framing.2 cipher.framing_aligned).2.1

theorem unpad_padded (payload pad : Bytes) (enough : minPad ≤ pad.length) (fits : pad.length < 256) :
    unpad (paddedBlock payload pad) = .ok payload := by
  have recovered : (UInt8.ofNat pad.length).toNat = pad.length := by
    have truncated : (UInt8.ofNat pad.length).toNat = pad.length % 256 := UInt8.toNat_ofNat'
    omega
  have inside : ¬ (pad.length < minPad ∨ (payload ++ pad).length < pad.length) := by
    rw [length_append]
    omega
  have cut : (payload ++ pad).length - pad.length = payload.length := by
    rw [length_append]
    omega
  simp only [paddedBlock, cons_append, unpad, recovered, if_neg inside, cut, take_left]

theorem padded_block_length (payload pad : Bytes) :
    (paddedBlock payload pad).length = 1 + payload.length + pad.length := by
  simp only [paddedBlock, cons_append, length_cons, length_append]
  omega

/-- The first bytes and the body of a sealed packet, as the receiver will see
them: the length field announces the block, or is refused for its size, and the
body opens to the payload. -/
structure Frames (cipher : Cipher) (seq : Nat) (payload wire first4 body : Bytes) (length : Nat) :
    Prop where
  split : wire = first4 ++ body
  header : first4.length = 4
  announced : cipher.packetLength prim seq first4 =
    if length ≤ maxPacket then .ok length else .error (.protocol s!"bad packet length {length}")
  size : body.length = cipher.bodyLen length
  opens : cipher.openPacket prim seq first4 body = .ok payload

/-- The length check accepts a padded block up to the ceiling. -/
theorem check_length_block (length align : Nat) (large : 1 + minPad ≤ length)
    (aligned : length % align = 0) :
    checkLength length align =
      if length ≤ maxPacket then .ok length else .error (.protocol s!"bad packet length {length}") := by
  unfold checkLength
  by_cases fits : length ≤ maxPacket
  · rw [if_pos ⟨⟨large, fits⟩, aligned⟩, if_pos fits]
  · rw [if_neg (fun accepted => fits accepted.1.2), if_neg fits]

/-- A length below `2 ^ 32` survives its four-byte field. -/
theorem length_field (length : Nat) (short : length < 2 ^ 32) : fromBe (beBytes 4 length) = length := by
  rw [from_be_bytes]
  omega

/-- The body splits back into ciphertext and tag. -/
theorem split_tag (ciphertext tag : Bytes) (size : tag.length = tagLen) :
    (ciphertext ++ tag).take ((ciphertext ++ tag).length - tagLen) = ciphertext ∧
      (ciphertext ++ tag).drop ((ciphertext ++ tag).length - tagLen) = tag := by
  have cut : (ciphertext ++ tag).length - tagLen = ciphertext.length := by
    rw [length_append, size]
    omega
  rw [cut]
  exact ⟨take_left, drop_left⟩

/-- Framing of plaintext packets. -/
theorem plain_frames (seq : Nat) (payload block : Bytes) (opened : unpad block = .ok payload)
    (short : block.length < 2 ^ 32) (large : 1 + minPad ≤ block.length)
    (aligned : (block.length + 4) % 8 = 0) :
    Frames prim .plain seq payload (beBytes 4 block.length ++ block) (beBytes 4 block.length) block
      block.length := by
  refine ⟨rfl, be_bytes_length 4 _, ?_, rfl, opened⟩
  simp only [Cipher.packetLength, length_field _ short]
  by_cases small : block.length ≤ maxPacket
  · rw [if_pos ⟨⟨large, small⟩, aligned⟩, if_pos small]
  · rw [if_neg (fun accepted => small accepted.1.2), if_neg small]

/-- Framing of chacha20-poly1305 packets: both keystreams cancel, and the tags
agree because the incremental one is the joined one. -/
theorem chacha_frames (kMain kLen : Bytes) (seq : Nat) (payload block : Bytes)
    (opened : unpad block = .ok payload) (short : block.length < 2 ^ 32)
    (large : 1 + minPad ≤ block.length) (aligned : block.length % 8 = 0) :
    let header := xorBytes (beBytes 4 block.length) (prim.chacha20 kLen (beBytes 8 seq) 0 4)
    let ciphertext := xorBytes block (prim.chacha20 kMain (beBytes 8 seq) 64 block.length)
    let tag := prim.poly1305 (Cipher.polyKey prim kMain seq) (polyBlocks (header ++ ciphertext))
      (polyTail (header ++ ciphertext))
    Frames prim (.chachaPoly kMain kLen) seq payload (header ++ ciphertext ++ tag) header
      (ciphertext ++ tag) block.length := by
  intro header ciphertext tag
  have headerKey : (prim.chacha20 kLen (beBytes 8 seq) 0 4).length = (beBytes 4 block.length).length := by
    rw [prim.chacha20_size, be_bytes_length]
  have blockKey : (prim.chacha20 kMain (beBytes 8 seq) 64 block.length).length = block.length :=
    prim.chacha20_size _ _ _ _
  have headerSize : header.length = 4 := by
    rw [xor_bytes_length _ _ headerKey, be_bytes_length]
  have ciphertextSize : ciphertext.length = block.length := xor_bytes_length _ _ blockKey
  have tagSize : tag.length = tagLen := prim.poly1305_size _ _ _
  refine ⟨append_assoc _ _ _, headerSize, ?_, ?_, ?_⟩
  · have decrypted : xorBytes header (prim.chacha20 kLen (beBytes 8 seq) 0 4) = beBytes 4 block.length :=
      xor_bytes_involutive _ _ headerKey
    rw [Cipher.packetLength, decrypted, length_field _ short]
    exact check_length_block _ 8 large aligned
  · rw [length_append, ciphertextSize, tagSize]
    rfl
  · obtain ⟨front, back⟩ := split_tag ciphertext tag tagSize
    have authentic : Cipher.incrementalTag prim (Cipher.polyKey prim kMain seq) header ciphertext = tag :=
      incremental_tag_eq prim _ _ _ headerSize
    have decrypted : xorBytes ciphertext (prim.chacha20 kMain (beBytes 8 seq) 64 block.length) = block :=
      xor_bytes_involutive _ _ blockKey
    simp only [Cipher.openPacket]
    rw [front, back, if_pos authentic, ciphertextSize, decrypted]
    exact opened

/-- Framing of aes256-gcm packets, by the law of the outside cipher. -/
theorem gcm_frames (state : GcmCipher) (seq : Nat) (payload block : Bytes)
    (opened : unpad block = .ok payload) (short : block.length < 2 ^ 32)
    (large : 1 + minPad ≤ block.length) (aligned : block.length % 16 = 0) :
    let header := beBytes 4 block.length
    let ciphertext := (prim.gcmSeal state.key state.iv header block).1
    let tag := (prim.gcmSeal state.key state.iv header block).2
    Frames prim (.gcm state) seq payload (header ++ ciphertext ++ tag) header (ciphertext ++ tag)
      block.length := by
  intro header ciphertext tag
  have ciphertextSize : ciphertext.length = block.length := prim.gcm_size _ _ _ _
  have tagSize : tag.length = tagLen := prim.gcm_tag_size _ _ _ _
  refine ⟨append_assoc _ _ _, be_bytes_length 4 _, ?_, ?_, ?_⟩
  · rw [Cipher.packetLength, length_field _ short]
    exact check_length_block _ 16 large aligned
  · rw [length_append, ciphertextSize, tagSize]
    rfl
  · obtain ⟨front, back⟩ := split_tag ciphertext tag tagSize
    have decrypted : prim.gcmOpen state.key state.iv header ciphertext tag = some block :=
      prim.gcm_opens _ _ _ _
    simp only [Cipher.openPacket]
    rw [front, back, decrypted]
    exact opened

section

variable (cipher : Cipher) (seq : Nat)

/-- Whatever the cipher, a sealed packet is framed as the receiver expects. -/
theorem seal_frames (payload pad : Bytes) (padded : pad.length = cipher.padFor payload.length)
    (short : 1 + payload.length + pad.length < 2 ^ 32) :
    ∃ first4 body, Frames prim cipher seq payload (cipher.sealPacket prim seq payload pad) first4 body
      (1 + payload.length + pad.length) := by
  have fits := cipher.pad_for_short payload.length
  obtain ⟨enough, _, aligned⟩ := pad_length_spec payload.length _ cipher.framing.2 cipher.framing_aligned
  change minPad ≤ cipher.padFor payload.length at enough
  change (_ + 1 + payload.length + cipher.padFor payload.length) % _ = 0 at aligned
  rw [← padded] at enough fits aligned
  have opened := unpad_padded payload pad enough fits
  rw [← padded_block_length payload pad] at short ⊢
  have large : 1 + minPad ≤ (paddedBlock payload pad).length := by
    rw [padded_block_length]
    omega
  have size := padded_block_length payload pad
  cases cipher with
  | plain =>
    simp only [Cipher.framing, if_true] at aligned
    exact ⟨_, _, plain_frames prim seq payload _ opened short large (by omega)⟩
  | chachaPoly kMain kLen =>
    simp only [Cipher.framing, Bool.false_eq_true, if_false] at aligned
    exact ⟨_, _, chacha_frames prim kMain kLen seq payload _ opened short large (by omega)⟩
  | gcm state =>
    simp only [Cipher.framing, Bool.false_eq_true, if_false] at aligned
    exact ⟨_, _, gcm_frames prim state seq payload _ opened short large (by omega)⟩

/-- A sealed packet reads back under the same cipher and sequence number,
whatever follows it, unless it is larger than the receiver allows. -/
theorem read_sealed (payload pad rest : Bytes)
    (padded : pad.length = cipher.padFor payload.length)
    (short : 1 + payload.length + pad.length < 2 ^ 32) :
    readPacket prim cipher seq (cipher.sealPacket prim seq payload pad ++ rest) =
      if 1 + payload.length + pad.length ≤ maxPacket then
        .packet payload (cipher.sealPacket prim seq payload pad).length rest
      else .failed (.protocol s!"bad packet length {1 + payload.length + pad.length}") := by
  obtain ⟨first4, body, frames⟩ := seal_frames prim cipher seq payload pad padded short
  obtain ⟨split, header, announced, size, opens⟩ := frames
  have long : ¬ (first4 ++ (body ++ rest)).length < 4 := by
    rw [length_append]
    omega
  rw [split, append_assoc, readPacket, if_neg long]
  simp only [take_left' header, drop_left' header, announced]
  by_cases small : 1 + payload.length + pad.length ≤ maxPacket
  · simp only [if_pos small, take_left' size, drop_left' size, size, Nat.lt_irrefl, if_false,
      opens, length_append, header]
  · simp only [if_neg small]

/-- A decision made on the bytes so far stands when more arrive. -/
theorem read_more (input more : Bytes) :
    readPacket prim cipher seq input = .needMore ∨
      readPacket prim cipher seq (input ++ more) =
        match readPacket prim cipher seq input with
        | .packet payload size rest => .packet payload size (rest ++ more)
        | decision => decision := by
  by_cases short : input.length < 4
  · left
    rw [readPacket, if_pos short]
  · have header : (input ++ more).take 4 = input.take 4 := take_append_of_le_length (by omega)
    have tail : (input ++ more).drop 4 = input.drop 4 ++ more := drop_append_of_le_length (by omega)
    have long : ¬ (input ++ more).length < 4 := by
      rw [length_append]
      omega
    simp only [readPacket, if_neg short, if_neg long, header, tail]
    cases cipher.packetLength prim seq (input.take 4) with
    | error reason => exact .inr rfl
    | ok length =>
      by_cases partialBody : ((input.drop 4).take (cipher.bodyLen length)).length < cipher.bodyLen length
      · left
        simp only [if_pos partialBody]
      · right
        have whole : cipher.bodyLen length ≤ (input.drop 4).length := by
          rw [length_take] at partialBody
          omega
        simp only [take_append_of_le_length whole, drop_append_of_le_length whole,
          if_neg partialBody]
        cases cipher.openPacket prim seq (input.take 4)
            ((input.drop 4).take (cipher.bodyLen length)) with
        | error | ok => rfl

/-- A packet read from the first bytes of a stream that begins with a sealed packet
is that packet. -/
theorem read_first {payload pad input more tail found rest : Bytes} {size}
    (padded : pad.length = cipher.padFor payload.length)
    (short : 1 + payload.length + pad.length < 2 ^ 32)
    (stream : input ++ more = cipher.sealPacket prim seq payload pad ++ tail)
    (read : readPacket prim cipher seq input = .packet found size rest) :
    found = payload ∧ rest ++ more = tail := by
  have later := (read_more prim cipher seq input more).resolve_left (by rw [read]; exact nofun)
  rw [stream, read_sealed prim cipher seq payload pad tail padded short, read] at later
  split at later
  · obtain ⟨same, _, left⟩ := ReadResult.packet.inj later
    exact ⟨same.symm, left.symm⟩
  · cases later

end

end Laws

end Shh
