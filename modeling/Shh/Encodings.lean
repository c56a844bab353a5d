import Shh.KeyExchange

/-!
# Encodings determine what they encode

A message is a row of typed fields. Reading the types in order gives the values back, a
message that was cut is refused, and one that goes on is noticed at its end. A shared secret
is written as the shortest two's-complement integer, so that both ends write the same bytes.
Keys derived from one secret are first parts of one stream.
-/

namespace Shh

open List Wire Computations

namespace Wire

open Reader

/-- The types of which messages are made. -/
inductive Kind where
  | byte | boolean | u32 | u64 | string | utf8 | nameList

namespace Kind

abbrev Value : Kind → Type
  | byte => UInt8
  | boolean => Bool
  | u32 | u64 => Nat
  | string => Bytes
  | utf8 => String
  | nameList => List String

def write : (kind : Kind) → kind.Value → Bytes
  | byte => Writer.byte
  | boolean => Writer.boolean
  | u32 => Writer.u32
  | u64 => Writer.u64
  | string => Writer.string
  | utf8 => Writer.utf8
  | nameList => Writer.nameList

def read : (kind : Kind) → Reader kind.Value
  | byte => Reader.byte
  | boolean => Reader.boolean
  | u32 => Reader.u32
  | u64 => Reader.u64
  | string => Reader.string
  | utf8 => Reader.utf8
  | nameList => Reader.nameList

/-- Numbers are in the range of their types, strings have a length that can be written,
and names are neither empty nor have commas in them. -/
def Valid : (kind : Kind) → kind.Value → Prop
  | byte, _ | boolean, _ => True
  | u32, value => value < 2 ^ 32
  | u64, value => value < 2 ^ 64
  | string, value => value.length < 2 ^ 32
  | utf8, text => (utf8Bytes text).length < 2 ^ 32
  | nameList, names => Reader.Separable names ∧ (utf8Bytes (Writer.joinNames names)).length < 2 ^ 32

end Kind

/-- A value that can be written. -/
structure Field where
  kind : Kind
  value : kind.Value
  valid : kind.Valid value

/-- The types of a message, read in order. -/
def readAll : List Kind → Reader (List (Sigma Kind.Value))
  | [] => return []
  | kind :: rest => do
    let first ← kind.read
    let others ← readAll rest
    return ⟨kind, first⟩ :: others

abbrev Row := List Field

namespace Row

def kinds (row : Row) : List Kind := row.map Field.kind

def values (row : Row) : List (Sigma Kind.Value) := row.map fun field => ⟨field.kind, field.value⟩

def written (row : Row) : Bytes := row.flatMap fun field => field.kind.write field.value

end Row

section Fields

variable {α β : Type} {reader : Reader α}

/-- A value is read back, and nothing after it. -/
theorem Kind.read_write {kind : Kind} {value} (valid : kind.Valid value) (left : Bytes) :
    kind.read (kind.write value ++ left) = .ok (value, left) := by
  cases kind with
  | byte => exact (byte_ok _ _ _).mpr rfl
  | boolean =>
    refine (boolean_ok _ left value).mpr ⟨_, rfl, ?_⟩
    cases value <;> rfl
  | u32 => exact (u32_ok _ _ _).mpr ⟨rfl, valid⟩
  | u64 => exact (u64_ok _ _ _).mpr ⟨rfl, valid⟩
  | string => exact (string_ok _ _ _).mpr ⟨rfl, valid⟩
  | utf8 => exact (utf8_ok _ _ _).mpr ⟨rfl, valid⟩
  | nameList => exact name_list_read _ left valid.1 valid.2

theorem read_all_written (row : Row) (left : Bytes) :
    readAll row.kinds (row.written ++ left) = .ok (row.values, left) := by
  induction row with
  | nil => rfl
  | cons field rest ih =>
    simp only [Row.kinds, Row.written] at ih ⊢
    rw [flatMap_cons, append_assoc, map_cons, readAll, bind_of_ok (Kind.read_write field.valid _), bind_of_ok ih]
    rfl

/-- A reader that succeeds has not looked at what it leaves. -/
def Reader.Local (reader : Reader α) : Prop :=
  ∀ body value left more, reader body = .ok (value, left) → reader (body ++ more) = .ok (value, left ++ more)

theorem local_pure (value : α) : Reader.Local (pure value) := by
  intro body found left more read
  cases read
  rfl

theorem local_throw (reason : Error) : Reader.Local (throw reason : Reader α) := by
  intro body found left more read
  cases read

theorem local_take (count : Nat) : (Reader.take count).Local := by
  intro body taken left more read
  obtain ⟨rfl, size⟩ := (take_ok _ _ _ _).mp read
  exact (take_ok _ _ _ _).mpr ⟨append_assoc _ _ _, size⟩

theorem Reader.Local.bind {next : α → Reader β} (first : reader.Local) (later : ∀ value, (next value).Local) :
    Reader.Local (reader >>= next) := by
  intro body found left more read
  obtain ⟨value, between, head, tail⟩ := bind_ok.mp read
  rw [bind_of_ok (first _ _ _ more head)]
  exact later value _ _ _ more tail

theorem Reader.Local.returns {result : α → β} (first : reader.Local) :
    Reader.Local (reader >>= fun value => pure (result value)) :=
  first.bind fun _ => local_pure _

theorem Kind.read_local (kind : Kind) : kind.read.Local := by
  have byte : Reader.byte.Local := (local_take 1).returns
  have u32 : Reader.u32.Local := (local_take 4).returns
  have string : Reader.string.Local := u32.bind local_take
  have utf8 : Reader.utf8.Local := string.bind fun bytes => by
    cases ofUtf8 bytes with
    | none => exact local_throw _
    | some text => exact local_pure _
  cases kind with
  | byte => exact byte
  | boolean => exact byte.returns
  | u32 => exact u32
  | u64 => exact (local_take 8).returns
  | string => exact string
  | utf8 => exact utf8
  | nameList =>
    refine utf8.bind fun text => ?_
    split
    · exact local_pure _
    · dsimp only
      split
      · exact (local_throw _).returns
      · exact local_pure _

theorem read_all_local (kinds : List Kind) : (readAll kinds).Local := by
  induction kinds with
  | nil => exact local_pure _
  | cons kind rest ih => exact kind.read_local.bind fun _ => ih.returns

/-- A message reads back as it was written. Cut short, it is refused by some read; with
bytes after it, every read succeeds and its end is not accepted. -/
theorem messages_read_back (row : Row) :
    (readAll row.kinds row.written = .ok (row.values, []) ∧ Reader.finish [] = .ok ((), [])) ∧
    (∀ cut, cut <+: row.written → cut ≠ row.written → ∃ reason, readAll row.kinds cut = .error reason) ∧
    ∀ more, more ≠ [] → readAll row.kinds (row.written ++ more) = .ok (row.values, more) ∧
      ∃ reason, Reader.finish more = .error reason := by
  have whole := read_all_written row []
  rw [append_nil] at whole
  refine ⟨⟨whole, rfl⟩, ?_, ?_⟩
  · rintro cut ⟨more, rest⟩ shorter
    cases read : readAll row.kinds cut with
    | error reason => exact ⟨reason, rfl⟩
    | ok result =>
      -- What could be read from the cut message would leave what was cut off.
      have again := read_all_local row.kinds _ _ _ more read
      rw [rest, whole] at again
      have none := (append_eq_nil_iff.mp (Prod.mk.inj (Except.ok.inj again)).2.symm).2
      rw [none, append_nil] at rest
      exact absurd rest shorter
  · intro more some_
    refine ⟨read_all_written row more, ?_⟩
    cases ends : Reader.finish more with
    | error reason => exact ⟨reason, rfl⟩
    | ok result => exact absurd ((finish_ok _ _).mp ends).1 some_

end Fields

section Integers

open Shh.Wire.Writer (stripZeros)

/-- The integer that a body denotes, big-endian in two's complement. -/
def twosComplement (body : Bytes) : Int :=
  if 128 ≤ (body.headD 0).toNat then fromBe body - 256 ^ body.length else fromBe body

theorem from_be_cons (first : UInt8) (rest : Bytes) :
    fromBe (first :: rest) = first.toNat * 256 ^ rest.length + fromBe rest := by
  induction rest using List.reverseRecOn with
  | nil => simp [fromBe]
  | append_singleton front last ih =>
    rw [← cons_append, from_be_snoc, from_be_snoc, ih, length_append, length_singleton, Nat.pow_succ]
    ring

theorem from_be_strip (value : Bytes) : fromBe (stripZeros value) = fromBe value := by
  induction value with
  | nil => rfl
  | cons first rest ih =>
    rw [stripZeros]
    split
    · rename_i zero
      rw [ih, zero, from_be_cons]
      simp
    · rfl

theorem strip_eq_drop_while (value : Bytes) : stripZeros value = value.dropWhile (· = 0) := by
  induction value with
  | nil => rfl
  | cons first rest ih => by_cases zero : first = 0 <;> simp [stripZeros, zero, ih]

/-- The sign bit of a byte. -/
theorem sign_bit (first : UInt8) : first &&& 0x80 ≠ 0 ↔ 128 ≤ first.toNat := by
  have all : ∀ bits : BitVec 8, bits &&& 0x80 ≠ 0 ↔ 128 ≤ bits.toNat := by decide
  rw [← UInt8.toNat_toBitVec, ← all, ne_eq, ne_eq, ← UInt8.toBitVec_inj]
  rfl

/-- What stands after the length. -/
def mpintBody (value : Bytes) : Bytes :=
  match stripZeros value with
  | [] => []
  | first :: rest => if first &&& 0x80 ≠ 0 then 0 :: first :: rest else first :: rest

theorem mpint_eq (value : Bytes) : Writer.mpint value = Writer.string (mpintBody value) := by
  unfold Writer.mpint mpintBody
  cases stripZeros value with
  | nil => rfl
  | cons first rest => by_cases sign : first &&& 0x80 = 0 <;> simp [sign, Writer.string]

/-- A body denotes what it was made of, and has no sign. -/
theorem mpint_body_denotes (value : Bytes) : twosComplement (mpintBody value) = fromBe value := by
  rw [← from_be_strip, mpintBody]
  cases stripZeros value with
  | nil => rfl
  | cons first rest =>
    dsimp only
    split
    · simp [twosComplement, from_be_cons]
    · rename_i small
      rw [sign_bit] at small
      simp [twosComplement, small]

/-- What a body of a given length can denote at most. -/
theorem twos_complement_bound {body : Bytes} {amount : Nat} (denotes : twosComplement body = amount) :
    fromBe body = amount ∧ (body = [] ∨ amount < 128 * 256 ^ (body.length - 1)) := by
  have bound := from_be_bound body
  cases body with
  | nil => exact ⟨by simpa [twosComplement] using denotes, .inl rfl⟩
  | cons first rest =>
    unfold twosComplement at denotes
    rw [headD_cons] at denotes
    split at denotes
    · have big : (fromBe (first :: rest) : Int) < 256 ^ (first :: rest).length := by exact_mod_cast bound
      omega
    · rename_i small
      have same : fromBe (first :: rest) = amount := by exact_mod_cast denotes
      refine ⟨same, .inr ?_⟩
      rw [← same, from_be_cons]
      have low := from_be_bound rest
      calc first.toNat * 256 ^ rest.length + fromBe rest
          < first.toNat * 256 ^ rest.length + 256 ^ rest.length := by omega
        _ = (first.toNat + 1) * 256 ^ rest.length := by ring
        _ ≤ 128 * 256 ^ rest.length := Nat.mul_le_mul_right _ (by omega)

/-- No shorter body denotes the same number. -/
theorem mpint_body_shortest {value other : Bytes} (denotes : twosComplement other = fromBe value) :
    (mpintBody value).length ≤ other.length := by
  obtain ⟨same, bound⟩ := twos_complement_bound denotes
  rw [← from_be_strip value] at same bound
  rw [mpintBody]
  cases stripped : stripZeros value with
  | nil => exact Nat.zero_le _
  | cons first rest =>
    rw [stripped, from_be_cons] at same bound
    have nonzero : 1 ≤ first.toNat := by
      have head := head?_dropWhile_not (· = 0) value
      rw [← strip_eq_drop_while, stripped] at head
      exact Nat.one_le_iff_ne_zero.mpr fun zero => of_decide_eq_false head (UInt8.toNat_inj.mp zero)
    have least : 256 ^ rest.length ≤ first.toNat * 256 ^ rest.length := Nat.le_mul_of_pos_left _ nonzero
    by_contra shorter
    rw [Nat.not_le] at shorter
    dsimp only at shorter
    split at shorter
    · rename_i sign
      have signed : 128 * 256 ^ rest.length ≤ first.toNat * 256 ^ rest.length := Nat.mul_le_mul_right _ ((sign_bit first).mp sign)
      have fits : other.length - 1 ≤ rest.length := Nat.sub_le_of_le_add (Nat.lt_succ_iff.mp shorter)
      have power := Nat.pow_le_pow_right (show 0 < 256 by decide) fits
      rcases bound with rfl | bound
      · have positive : 0 < 256 ^ rest.length := Nat.pow_pos (by decide)
        simp [fromBe] at same
        omega
      · omega
    · have fits : other.length ≤ rest.length := Nat.lt_succ_iff.mp shorter
      have power := Nat.pow_le_pow_right (show 0 < 256 by decide) fits
      have low := from_be_bound other
      omega

/-- An mpint is the shortest two's-complement form of the number its bytes denote, and two
mpints are the same exactly for the same number. -/
theorem mpint_canonical :
    (∀ value : Bytes, value.length < 2 ^ 32 - 1 →
      ∃ body, Reader.string (Writer.mpint value) = .ok (body, []) ∧ twosComplement body = fromBe value ∧
        ∀ other, twosComplement other = fromBe value → body.length ≤ other.length) ∧
    ∀ left right : Bytes, Writer.mpint left = Writer.mpint right ↔ fromBe left = fromBe right := by
  refine ⟨fun value short => ⟨mpintBody value, ?_, mpint_body_denotes value, fun other => mpint_body_shortest⟩, ?_⟩
  · refine (string_ok _ _ _).mpr ⟨by rw [mpint_eq, append_nil], ?_⟩
    have size : (stripZeros value).length ≤ value.length := by
      rw [strip_eq_drop_while]
      exact length_dropWhile_le _ _
    rw [mpintBody]
    cases stripped : stripZeros value with
    | nil => simp
    | cons first rest =>
      rw [stripped] at size
      dsimp only
      split <;> simp only [length_cons] at size ⊢ <;> omega
  · intro left right
    rw [mpint_eq, mpint_eq]
    constructor
    · intro same
      have bodies := append_inj_right same (by simp)
      have denoted := mpint_body_denotes left
      rw [bodies, mpint_body_denotes] at denoted
      exact_mod_cast denoted.symm
    · intro same
      -- Both bodies are shortest, so they have one length and one value.
      have forth := mpint_body_denotes left
      have back := mpint_body_denotes right
      rw [same] at forth
      have size := Nat.le_antisymm (mpint_body_shortest (back.trans (by rw [same]))) (mpint_body_shortest forth)
      have values := (twos_complement_bound forth).1.trans (twos_complement_bound back).1.symm
      rw [← be_bytes_from_be (mpintBody left), ← be_bytes_from_be (mpintBody right), values, size]

end Integers

end Wire

/-- The first blocks of the stream that keys are taken from: each block is a hash over all
that is before it. -/
def keyStream (prim : Primitives) (kEncoded h first : Bytes) : Nat → Bytes
  | 0 => []
  | 1 => first
  | count + 2 =>
    let before := keyStream prim kEncoded h first (count + 1)
    before ++ prim.sha256 (kEncoded ++ h ++ before)

variable {prim : Primitives} {kEncoded h first : Bytes}

/-- The source's loop goes on with the stream. -/
theorem extend_key_stream (length budget count : Nat) : ∃ more,
    extendKey prim kEncoded h length budget (keyStream prim kEncoded h first (count + 1)) =
      keyStream prim kEncoded h first more := by
  induction budget generalizing count with
  | zero => exact ⟨_, rfl⟩
  | succ budget ih =>
    rw [extendKey]
    split
    · exact ih (count + 1)
    · exact ⟨_, rfl⟩

variable (start : first.length = 32)

include start

/-- One more block makes the stream longer by a hash. -/
theorem key_stream_grows (count : Nat) : ∃ block, block.length = 32 ∧
    keyStream prim kEncoded h first (count + 1) = keyStream prim kEncoded h first count ++ block := by
  cases count with
  | zero => exact ⟨first, start, rfl⟩
  | succ count => exact ⟨_, prim.sha256_size _, rfl⟩

theorem key_stream_length (count : Nat) : (keyStream prim kEncoded h first count).length = 32 * count := by
  induction count with
  | zero => rfl
  | succ count ih =>
    obtain ⟨block, size, grown⟩ := key_stream_grows start count
    rw [grown, length_append, ih, size, Nat.mul_succ]

/-- More blocks do not change what is taken of the stream. -/
theorem key_stream_take {length count : Nat} (enough : length ≤ 32 * count) (more : Nat) :
    (keyStream prim kEncoded h first (count + more)).take length =
    (keyStream prim kEncoded h first count).take length := by
  induction more with
  | zero => rfl
  | succ more ih =>
    obtain ⟨block, _, grown⟩ := key_stream_grows start (count + more)
    rw [← Nat.add_assoc, grown, take_append_of_le_length (by rw [key_stream_length start]; omega), ih]

omit start

/-- A derived key is as long as it should be and the first part of the key stream, so a
shorter one is the first part of a longer one. -/
theorem derived_keys_are_prefixes (prim : Primitives) (kEncoded h sessionId : Bytes) (usage : Usage) (length : Nat) :
    let stream := keyStream prim kEncoded h (prim.sha256 (kEncoded ++ h ++ [usage.letter] ++ sessionId))
    (derive prim kEncoded h sessionId usage length).length = length ∧
    (∀ count, length ≤ 32 * count → derive prim kEncoded h sessionId usage length = (stream count).take length) ∧
    ∀ shorter ≤ length, derive prim kEncoded h sessionId usage shorter <+:
      derive prim kEncoded h sessionId usage length := by
  intro stream
  have part (length count : Nat) (enough : length ≤ 32 * count) :
      derive prim kEncoded h sessionId usage length = (stream count).take length := by
    have start := prim.sha256_size (kEncoded ++ h ++ [usage.letter] ++ sessionId)
    obtain ⟨more, reached⟩ : ∃ more, extendKey prim kEncoded h length length (stream 1) = stream more :=
      extend_key_stream length length 0
    have long := @extend_key_length prim kEncoded h length length (stream 1) (Nat.le_add_left _ _)
    rw [reached, key_stream_length start] at long
    show (extendKey prim kEncoded h length length (stream 1)).take length = _
    rw [reached, ← key_stream_take start long count, Nat.add_comm, key_stream_take start enough]
  refine ⟨derive_length _ _ _ _ _, part length, ?_⟩
  intro shorter less
  rw [part shorter length (by omega), part length length (by omega)]
  exact take_prefix_take_left less

end Shh
