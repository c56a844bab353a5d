import Shh.Computations

/-!
# SSH wire primitives

Message bodies are byte lists. Reading consumes the unread suffix of a body and
refuses rather than reads past its end; writing appends. Each reader has two
laws: it reads back what its writer wrote, and whatever it accepts is exactly
what its writer would have written, so a decoded message determines its bytes.
Booleans are the one exception: any nonzero byte reads as true.

Unsigned 32- and 64-bit fields are natural numbers; the writers keep the low
bytes and the readers return values below the field's bound. The source's
writer panics on a string of `2 ^ 32` bytes or more, so the writing laws are
stated below that length.
-/

namespace Shh

open List

abbrev Bytes := List UInt8

/-- How `{:?}` writes a character of a string. Beyond the controls every one is taken to be
printable. -/
def debugChar (c : Char) : List Char :=
  if c = '\x00' then ['\\', '0'] else if c = '\t' then ['\\', 't'] else if c = '\r' then ['\\', 'r']
  else if c = '\n' then ['\\', 'n'] else if c = '"' ∨ c = '\\' then ['\\', c]
  else if c.toNat < 0x20 ∨ (0x7f ≤ c.toNat ∧ c.toNat < 0xa0) then
    ['\\', 'u', '\x7b'] ++ Nat.toDigits 16 c.toNat ++ ['\x7d']
  else [c]

/-- How `{:?}` writes a string. -/
def debug (text : String) : String := String.ofList ('"' :: text.toList.flatMap debugChar ++ ['"'])

/-- Errors from decoding wire data. -/
inductive WireError where
  | truncated (needed : Nat)
  | oversized (len limit : Nat)
  | badUtf8
  | badBool
  | badNameList
  | trailingBytes (count : Nat)
deriving DecidableEq, Repr

def WireError.display : WireError → String
  | .truncated needed => s!"truncated: needed {needed} more bytes"
  | .oversized len limit => s!"length {len} exceeds limit {limit}"
  | .badUtf8 => "invalid UTF-8 in string field"
  | .badBool => "invalid boolean byte"
  | .badNameList => "name-list contains an empty name"
  | .trailingBytes count => s!"trailing garbage: {count} bytes left after message"

/-- Errors produced anywhere in the protocol stack. -/
inductive Error where
  | io (reason : String)
  | wire (error : WireError)
  | protocol (reason : String)
  | negotiation (kind offered : String)
  | crypto (reason : String)
  | hostKey (reason : String)
  | auth (reason : String)
  | disconnect (reason : String)
  | channel (reason : String)
  | keyFile (reason : String)
  | agent (reason : String)
  | sftp (reason : String)
deriving DecidableEq, Repr

def Error.display : Error → String
  | .io reason => s!"i/o: {reason}"
  | .wire error => s!"wire format: {error.display}"
  | .protocol reason => s!"protocol violation: {reason}"
  | .negotiation kind offered => s!"no common {kind} algorithm; peer offered [{offered}]"
  | .crypto reason => s!"cryptographic failure: {reason}"
  | .hostKey reason => s!"host key verification failed: {reason}"
  | .auth reason => s!"authentication failed: {reason}"
  | .disconnect reason => s!"peer disconnected: {reason}"
  | .channel reason => s!"channel: {reason}"
  | .keyFile reason => s!"bad key file: {reason}"
  | .agent reason => s!"agent: {reason}"
  | .sftp reason => s!"sftp: {reason}"

namespace Msg

def disconnect : UInt8 := 1
def ignore : UInt8 := 2
def unimplemented : UInt8 := 3
def debug : UInt8 := 4
def serviceRequest : UInt8 := 5
def serviceAccept : UInt8 := 6
def extInfo : UInt8 := 7
def kexInit : UInt8 := 20
def newKeys : UInt8 := 21
def kexEcdhInit : UInt8 := 30
def kexEcdhReply : UInt8 := 31
def userauthRequest : UInt8 := 50
def userauthFailure : UInt8 := 51
def userauthSuccess : UInt8 := 52
def userauthBanner : UInt8 := 53
def userauthPkOk : UInt8 := 60
def globalRequest : UInt8 := 80
def requestSuccess : UInt8 := 81
def requestFailure : UInt8 := 82
def channelOpen : UInt8 := 90
def channelOpenConfirmation : UInt8 := 91
def channelOpenFailure : UInt8 := 92
def channelWindowAdjust : UInt8 := 93
def channelData : UInt8 := 94
def channelExtendedData : UInt8 := 95
def channelEof : UInt8 := 96
def channelClose : UInt8 := 97
def channelRequest : UInt8 := 98
def channelSuccess : UInt8 := 99
def channelFailure : UInt8 := 100

end Msg

namespace Wire

open Computations

/-- The UTF-8 bytes of a string. -/
def utf8Bytes (text : String) : Bytes := text.toByteArray.data.toList

/-- The string a byte sequence encodes, when it is valid UTF-8. -/
def ofUtf8 (bytes : Bytes) : Option String := String.fromUTF8? ⟨bytes.toArray⟩

/-- Decoding the encoding of a string returns it. -/
theorem of_utf8_bytes (text : String) : ofUtf8 (utf8Bytes text) = some text := by
  have same : (⟨(text.toByteArray.data.toList).toArray⟩ : ByteArray) = text.toByteArray := by
    simp
  simp only [ofUtf8, utf8Bytes, same, String.fromUTF8?, text.isValidUTF8, dite_true]
  rfl

/-- Accepted bytes are the encoding of the string they decode to. -/
theorem bytes_of_utf8 (bytes : Bytes) (text : String) (decoded : ofUtf8 bytes = some text) :
    bytes = utf8Bytes text := by
  simp only [ofUtf8, String.fromUTF8?] at decoded
  split at decoded
  · have same := Option.some.inj decoded
    subst same
    simp [utf8Bytes, String.fromUTF8]
  · simp at decoded

/-- Distinct strings have distinct encodings. -/
theorem utf8_bytes_injective (left right : String) (same : utf8Bytes left = utf8Bytes right) :
    left = right := by
  have decoded := congrArg ofUtf8 same
  simpa only [of_utf8_bytes, Option.some.injEq] using decoded

/-- The low `width` bytes of a number, most significant first. -/
def beBytes : Nat → Nat → Bytes
  | 0, _ => []
  | width + 1, value => beBytes width (value / 256) ++ [UInt8.ofNat value]

/-- The number a big-endian byte sequence denotes. -/
def fromBe (bytes : Bytes) : Nat := bytes.foldl (fun acc byte => acc * 256 + byte.toNat) 0

theorem be_bytes_length (width value : Nat) : (beBytes width value).length = width := by
  induction width generalizing value with
  | zero => rfl
  | succ width ih => simp [beBytes, ih]

theorem from_be_snoc (bytes : Bytes) (last : UInt8) :
    fromBe (bytes ++ [last]) = fromBe bytes * 256 + last.toNat := by
  simp [fromBe]

/-- A field narrower than its value keeps only the low bytes. -/
theorem from_be_bytes (width value : Nat) : fromBe (beBytes width value) = value % 256 ^ width := by
  induction width generalizing value with
  | zero => simp [beBytes, fromBe, Nat.mod_one]
  | succ width ih =>
    have split : value % 256 ^ (width + 1) = value % 256 + 256 * (value / 256 % 256 ^ width) := by
      rw [Nat.pow_succ', Nat.mod_mul]
    have lowByte : (UInt8.ofNat value).toNat = value % 256 := UInt8.toNat_ofNat'
    rw [beBytes, from_be_snoc, ih, lowByte, split]
    omega

/-- A byte sequence denotes less than its width allows. -/
theorem from_be_bound (bytes : Bytes) : fromBe bytes < 256 ^ bytes.length := by
  induction bytes using List.reverseRecOn with
  | nil => decide
  | append_singleton front last ih =>
    have byteBound : last.toNat < 256 := last.toNat_lt
    rw [from_be_snoc, length_append, length_singleton, Nat.pow_succ]
    omega

/-- A byte sequence is the encoding, at its own width, of what it denotes. -/
theorem be_bytes_from_be (bytes : Bytes) : beBytes bytes.length (fromBe bytes) = bytes := by
  induction bytes using List.reverseRecOn with
  | nil => rfl
  | append_singleton front last ih =>
    have byteBound : last.toNat < 256 := last.toNat_lt
    have quotient : (fromBe front * 256 + last.toNat) / 256 = fromBe front := by omega
    have lowByte : UInt8.ofNat (fromBe front * 256 + last.toNat) = last := by
      have truncated : (UInt8.ofNat (fromBe front * 256 + last.toNat)).toNat =
          (fromBe front * 256 + last.toNat) % 256 := UInt8.toNat_ofNat'
      apply UInt8.toNat_inj.mp
      rw [truncated]
      omega
    rw [from_be_snoc, length_append, length_singleton, beBytes, quotient,
      ih, lowByte]

namespace Writer

def byte (value : UInt8) : Bytes := [value]

def boolean (value : Bool) : Bytes := [if value then 1 else 0]

def u32 (value : Nat) : Bytes := beBytes 4 value

def u64 (value : Nat) : Bytes := beBytes 8 value

def string (value : Bytes) : Bytes := u32 value.length ++ value

def utf8 (text : String) : Bytes := string (utf8Bytes text)

/-- Names joined by single commas. -/
def joinNames (names : List String) : String :=
  String.ofList ([','].intercalate (names.map String.toList))

def nameList (names : List String) : Bytes := utf8 (joinNames names)

/-- Leading zero bytes carry no magnitude. -/
def stripZeros : Bytes → Bytes
  | [] => []
  | first :: rest => if first = 0 then stripZeros rest else first :: rest

/-- A sign byte is prepended when the high bit of the magnitude is set. -/
def mpint (value : Bytes) : Bytes :=
  match stripZeros value with
  | [] => u32 0
  | first :: rest =>
    let sign := if first &&& 0x80 ≠ 0 then 1 else 0
    u32 ((first :: rest).length + sign) ++ (if sign = 1 then [0] else []) ++ first :: rest

@[simp] theorem u32_length (value : Nat) : (u32 value).length = 4 := be_bytes_length 4 value

@[simp] theorem u64_length (value : Nat) : (u64 value).length = 8 := be_bytes_length 8 value

@[simp] theorem string_length (value : Bytes) : (string value).length = 4 + value.length := by
  simp [string]

end Writer

/-- A reader consumes a prefix of the unread body and returns the rest. -/
abbrev Reader (α : Type) := StateT Bytes (Except Error) α

namespace Reader

variable {α : Type}

/-- Run a reader over a whole body and discard what it left unread. -/
def parse (reader : Reader α) (body : Bytes) : Except Error α := (reader body).map Prod.fst

def remaining : Reader Nat := fun body => .ok (body.length, body)

def take (count : Nat) : Reader Bytes := fun body =>
  if body.length < count then .error (.wire (.truncated (count - body.length)))
  else .ok (body.take count, body.drop count)

def byte : Reader UInt8 := do
  let bytes ← take 1
  return bytes.headD 0

def boolean : Reader Bool := do
  let value ← byte
  return value != 0

def u32 : Reader Nat := do
  let bytes ← take 4
  return fromBe bytes

def u64 : Reader Nat := do
  let bytes ← take 8
  return fromBe bytes

def string : Reader Bytes := do
  let length ← u32
  take length

def utf8 : Reader String := do
  let bytes ← string
  match ofUtf8 bytes with
  | some text => return text
  | none => throw (.wire .badUtf8)

/-- An empty string is the empty list; otherwise every name between commas must
be nonempty. -/
def nameList : Reader (List String) := do
  let text ← utf8
  if text.toList = [] then return []
  let names := text.toList.splitOn ','
  if names.any List.isEmpty then throw (.wire .badNameList)
  return names.map String.ofList

def rest : Reader Bytes := fun body => .ok (body, [])

def finish : Reader Unit := fun body =>
  if body.length = 0 then .ok ((), body) else .error (.wire (.trailingBytes body.length))

/-- The source's early return: refuse unless the condition holds. -/
def require (condition : Prop) [Decidable condition] (reason : Error) : Reader Unit :=
  if condition then pure () else throw reason

/-- A fallible step that reads nothing. -/
def lift (result : Except Error α) : Reader α := fun body => result.map (fun value => (value, body))

/-- The source's loops of the form `while r.remaining() > 0`. The step budget is
the number of unread bytes, which suffices whenever each step reads something. -/
def whileRemaining (step : α → Reader α) : Nat → α → Reader α
  | 0, state => fun body =>
      if body.length = 0 then .ok (state, body)
      else .error (.wire (.trailingBytes body.length))
  | budget + 1, state => fun body =>
      if body.length = 0 then .ok (state, body)
      else (step state >>= whileRemaining step budget) body

def drain (step : α → Reader α) (initial : α) : Reader α :=
  fun body => whileRemaining step body.length initial body

/-- Taking succeeds exactly by splitting off a prefix of the requested length. -/
theorem take_ok (count : Nat) (body taken left : Bytes) :
    take count body = .ok (taken, left) ↔ body = taken ++ left ∧ taken.length = count := by
  unfold take
  split
  · rename_i short
    constructor
    · intro impossible
      simp at impossible
    · rintro ⟨rfl, length⟩
      rw [length_append] at short
      omega
  · rename_i enough
    simp only [Except.ok.injEq, Prod.mk.injEq]
    constructor
    · rintro ⟨rfl, rfl⟩
      exact ⟨(take_append_drop count body).symm, by rw [length_take]; omega⟩
    · rintro ⟨rfl, rfl⟩
      simp

theorem byte_ok (body left : Bytes) (value : UInt8) :
    byte body = .ok (value, left) ↔ body = value :: left := by
  simp only [byte, bind_ok, pure_ok, take_ok, Prod.mk.injEq]
  constructor
  · rintro ⟨taken, between, ⟨rfl, single⟩, rfl, rfl⟩
    obtain ⟨only, rfl⟩ := length_eq_one_iff.mp single
    rfl
  · rintro rfl
    exact ⟨[value], left, ⟨rfl, rfl⟩, rfl, rfl⟩

/-- Any nonzero byte reads as true. -/
theorem boolean_ok (body left : Bytes) (value : Bool) :
    boolean body = .ok (value, left) ↔ ∃ encoded, body = encoded :: left ∧ value = (encoded != 0) := by
  simp only [boolean, bind_ok, pure_ok, byte_ok, Prod.mk.injEq]
  constructor
  · rintro ⟨encoded, between, rfl, rfl, rfl⟩
    exact ⟨encoded, rfl, rfl⟩
  · rintro ⟨encoded, rfl, rfl⟩
    exact ⟨encoded, left, rfl, rfl, rfl⟩

/-- A fixed-width field accepts exactly the writer's encoding of an in-range value. -/
theorem field_ok (width : Nat) (body left : Bytes) (value : Nat) :
    (do let bytes ← take width; return fromBe bytes : Reader Nat) body = .ok (value, left) ↔
      body = beBytes width value ++ left ∧ value < 256 ^ width := by
  simp only [bind_ok, pure_ok, take_ok, Prod.mk.injEq]
  constructor
  · rintro ⟨taken, between, ⟨rfl, rfl⟩, rfl, rfl⟩
    rw [be_bytes_from_be]
    exact ⟨rfl, from_be_bound taken⟩
  · rintro ⟨rfl, bound⟩
    refine ⟨beBytes width value, left, ⟨rfl, be_bytes_length width value⟩, ?_, rfl⟩
    rw [from_be_bytes, Nat.mod_eq_of_lt bound]

theorem u32_ok (body left : Bytes) (value : Nat) :
    u32 body = .ok (value, left) ↔ body = Writer.u32 value ++ left ∧ value < 2 ^ 32 :=
  field_ok 4 body left value

theorem u64_ok (body left : Bytes) (value : Nat) :
    u64 body = .ok (value, left) ↔ body = Writer.u64 value ++ left ∧ value < 2 ^ 64 :=
  field_ok 8 body left value

theorem string_ok (body left value : Bytes) :
    string body = .ok (value, left) ↔ body = Writer.string value ++ left ∧ value.length < 2 ^ 32 := by
  simp only [string, bind_ok, u32_ok, take_ok]
  constructor
  · rintro ⟨length, between, ⟨rfl, bound⟩, rfl, rfl⟩
    exact ⟨by rw [Writer.string, append_assoc], bound⟩
  · rintro ⟨rfl, bound⟩
    exact ⟨value.length, value ++ left, ⟨by rw [Writer.string, append_assoc], bound⟩, rfl, rfl⟩

theorem utf8_ok (body left : Bytes) (text : String) :
    utf8 body = .ok (text, left) ↔
      body = Writer.utf8 text ++ left ∧ (utf8Bytes text).length < 2 ^ 32 := by
  simp only [utf8, bind_ok, string_ok]
  constructor
  · rintro ⟨bytes, between, ⟨rfl, bound⟩, decoded⟩
    cases valid : ofUtf8 bytes with
    | none =>
      rw [valid] at decoded
      exact (throw_ok.mp decoded).elim
    | some accepted =>
      rw [valid] at decoded
      obtain ⟨rfl, rfl⟩ := Prod.mk.inj (pure_ok.mp decoded)
      rw [← bytes_of_utf8 bytes text valid, Writer.utf8, ← bytes_of_utf8 bytes text valid]
      exact ⟨rfl, bound⟩
  · rintro ⟨rfl, bound⟩
    refine ⟨utf8Bytes text, left, ⟨rfl, bound⟩, ?_⟩
    rw [of_utf8_bytes]
    exact pure_ok.mpr rfl

theorem finish_ok (body : Bytes) (result : Unit × Bytes) :
    finish body = .ok result ↔ body = [] ∧ result = ((), []) := by
  unfold finish
  split
  · rename_i empty
    simp only [length_eq_zero_iff] at empty
    simp [empty, eq_comm]
  · rename_i nonempty
    simp only [length_eq_zero_iff] at nonempty
    simp [nonempty]

theorem rest_ok (body value left : Bytes) :
    rest body = .ok (value, left) ↔ value = body ∧ left = [] := by
  simp [rest, eq_comm]

theorem remaining_ok (body left : Bytes) (count : Nat) :
    remaining body = .ok (count, left) ↔ count = body.length ∧ left = body := by
  simp [remaining, eq_comm]

theorem require_ok (condition : Prop) [Decidable condition] (reason : Error) (body : Bytes)
    (left : Unit × Bytes) :
    require condition reason body = .ok left ↔ condition ∧ left = ((), body) := by
  unfold require
  split
  · rename_i holds
    simp only [pure_ok, holds, true_and]
  · rename_i fails
    simp only [throw_ok, fails, false_and]

theorem lift_ok (result : Except Error α) (body left : Bytes) (value : α) :
    lift result body = .ok (value, left) ↔ result = .ok value ∧ left = body := by
  cases result with
  | error reason => simp [lift, Except.map]
  | ok accepted => simp [lift, Except.map, eq_comm]

theorem drain_nil (step : α → Reader α) (initial : α) : drain step initial [] = .ok (initial, []) := rfl

/-- A loop over something takes a first step. -/
theorem drain_cons (step : α → Reader α) (initial : α) (first : UInt8) (rest : Bytes) :
    drain step initial (first :: rest) =
      (step initial >>= whileRemaining step rest.length) (first :: rest) := by
  simp only [drain, length_cons, whileRemaining, Nat.add_one_ne_zero, if_false]

/-- What every step keeps, the whole loop keeps. -/
theorem while_remaining_keeps (step : α → Reader α) (Inv : α → Prop)
    (keeps : ∀ state body next left, Inv state → step state body = .ok (next, left) → Inv next)
    (budget : Nat) (state result : α) (body left : Bytes) (initial : Inv state)
    (ran : whileRemaining step budget state body = .ok (result, left)) : Inv result := by
  induction budget generalizing state body with
  | zero =>
    simp only [whileRemaining] at ran
    split at ran
    · exact (Prod.mk.inj (Except.ok.inj ran)).1 ▸ initial
    · simp at ran
  | succ budget ih =>
    simp only [whileRemaining] at ran
    split at ran
    · exact (Prod.mk.inj (Except.ok.inj ran)).1 ▸ initial
    · obtain ⟨next, between, stepped, rest⟩ := bind_ok.mp ran
      exact ih next between (keeps _ _ _ _ initial stepped) rest

/-- Every step of the loop reads at least one byte. -/
def Consumes (step : α → Reader α) : Prop :=
  ∀ state body next left, step state body = .ok (next, left) → left.length < body.length

/-- A consuming loop never notices its budget, as long as it covers the input. -/
theorem while_remaining_budget (step : α → Reader α) (consumes : Consumes step)
    (budget : Nat) (state : α) (body : Bytes) (enough : body.length ≤ budget) :
    whileRemaining step budget state body = drain step state body := by
  unfold drain
  induction budget using Nat.strongRecOn generalizing state body with
  | ind budget ih =>
    by_cases empty : body.length = 0
    · cases budget <;> simp [whileRemaining, length_eq_zero_iff.mp empty]
    · obtain ⟨larger, rfl⟩ : ∃ larger, budget = larger + 1 := ⟨budget - 1, by omega⟩
      obtain ⟨exact, exactLength⟩ : ∃ exact, body.length = exact + 1 := ⟨body.length - 1, by omega⟩
      simp only [whileRemaining, exactLength, Nat.add_one_ne_zero, if_false]
      cases stepped : step state body with
      | error reason => rw [bind_of_error stepped, bind_of_error stepped]
      | ok pair =>
        obtain ⟨next, left⟩ := pair
        have shorter : left.length < body.length := consumes state body next left stepped
        rw [bind_of_ok stepped, bind_of_ok stepped,
          ih larger (by omega) next left (by omega),
          ih exact (by omega) next left (by omega)]

/-- The loop equation, with no budget in sight. -/
theorem drain_step (step : α → Reader α) (consumes : Consumes step) (state : α) (body : Bytes) :
    drain step state body =
      if body.length = 0 then .ok (state, body) else (step state >>= drain step) body := by
  by_cases empty : body.length = 0
  · simp [drain, whileRemaining, length_eq_zero_iff.mp empty]
  · obtain ⟨budget, exactLength⟩ : ∃ budget, body.length = budget + 1 := ⟨body.length - 1, by omega⟩
    conv_lhs => rw [drain, exactLength, whileRemaining]
    simp only [empty, if_false]
    cases stepped : step state body with
    | error reason => rw [bind_of_error stepped, bind_of_error stepped]
    | ok pair =>
      obtain ⟨next, left⟩ := pair
      have shorter : left.length < body.length := consumes state body next left stepped
      rw [bind_of_ok stepped, bind_of_ok stepped,
        while_remaining_budget step consumes budget next left (by omega)]

/-- A loop ends at the end of its input, or goes on after a step. -/
theorem drain_ok {step : α → Reader α} (consumes : Consumes step) {state result : α} {body left : Bytes} :
    drain step state body = .ok (result, left) ↔
      (body = [] ∧ result = state ∧ left = []) ∨
        ∃ next between, step state body = .ok (next, between) ∧ body ≠ [] ∧
        drain step next between = .ok (result, left) := by
  cases body with
  | nil =>
    rw [drain_nil]
    constructor
    · intro done
      cases done
      exact .inl ⟨rfl, rfl, rfl⟩
    · rintro (⟨_, rfl, rfl⟩ | ⟨_, _, _, some_, _⟩)
      · rfl
      · exact absurd rfl some_
  | cons first rest =>
    rw [drain_step step consumes, if_neg (by simp), bind_ok]
    constructor
    · rintro ⟨next, between, stepped, rest⟩
      exact .inr ⟨next, between, stepped, cons_ne_nil _ _, rest⟩
    · rintro (⟨clash, _, _⟩ | ⟨next, between, stepped, _, rest⟩)
      · cases clash
      · exact ⟨next, between, stepped, rest⟩

/-- A loop over the encodings of a list takes them up one by one. -/
theorem drain_flat_map {ι : Type} (step : α → Reader α) (consumes : Consumes step) (encode : ι → Bytes)
    (update : α → ι → α) (items : List ι) (state : α)
    (reads : ∀ item ∈ items, ∀ state left, step state (encode item ++ left) = .ok (update state item, left)) :
    drain step state (items.flatMap encode) = .ok (items.foldl update state, []) := by
  induction items generalizing state with
  | nil => rfl
  | cons item items ih =>
    have first := reads item mem_cons_self state (items.flatMap encode)
    have shorter := consumes _ _ _ _ first
    rw [flatMap_cons, drain_step step consumes, if_neg (by omega), bind_of_ok first,
      ih _ fun other member => reads other (mem_cons_of_mem item member)]
    rfl

/-- A loop that reads items to the end of its input has read their encodings. -/
theorem drain_items {ι : Type} {step : α → Reader α} (consumes : Consumes step) {encode : ι → Bytes}
    {update : α → ι → α} {Good : ι → Prop} {state result : α} {body left : Bytes}
    (reads : ∀ state body next left, step state body = .ok (next, left) →
      ∃ item, Good item ∧ body = encode item ++ left ∧ next = update state item)
    (drained : drain step state body = .ok (result, left)) :
    ∃ items : List ι, (∀ item ∈ items, Good item) ∧ body = items.flatMap encode ∧ result = items.foldl update state ∧
      left = [] := by
  -- Each step leaves a shorter input.
  induction bound : body.length using Nat.strongRecOn generalizing state body with
  | ind size ih =>
    rcases (drain_ok consumes).mp drained with ⟨rfl, rfl, rfl⟩ | ⟨next, between, read, -, rest⟩
    · exact ⟨[], by simp, rfl, rfl, rfl⟩
    · have shorter := consumes _ _ _ _ read
      obtain ⟨items, good, rfl, rfl, rfl⟩ := ih between.length (by omega) rest rfl
      obtain ⟨item, first, rfl, rfl⟩ := reads _ _ _ _ read
      exact ⟨item :: items, forall_mem_cons.mpr ⟨first, good⟩, rfl, rfl, rfl⟩

section Sequencing

variable {β : Type} (body : Bytes) (result : β × Bytes)

theorem byte_bind_ok (next : UInt8 → Reader β) :
    (byte >>= next) body = .ok result ↔
      ∃ value left, body = value :: left ∧ next value left = .ok result := by
  simp only [bind_ok, byte_ok]

theorem boolean_bind_ok (next : Bool → Reader β) :
    (boolean >>= next) body = .ok result ↔
      ∃ encoded left, body = encoded :: left ∧ next (encoded != 0) left = .ok result := by
  simp only [bind_ok, boolean_ok]
  constructor
  · rintro ⟨-, left, ⟨encoded, rfl, rfl⟩, continued⟩
    exact ⟨encoded, left, rfl, continued⟩
  · rintro ⟨encoded, left, rfl, continued⟩
    exact ⟨_, left, ⟨encoded, rfl, rfl⟩, continued⟩

theorem u32_bind_ok (next : Nat → Reader β) :
    (u32 >>= next) body = .ok result ↔ ∃ value left,
      (body = Writer.u32 value ++ left ∧ value < 2 ^ 32) ∧ next value left = .ok result := by
  simp only [bind_ok, u32_ok]

theorem u64_bind_ok (next : Nat → Reader β) :
    (u64 >>= next) body = .ok result ↔ ∃ value left,
      (body = Writer.u64 value ++ left ∧ value < 2 ^ 64) ∧ next value left = .ok result := by
  simp only [bind_ok, u64_ok]

theorem string_bind_ok (next : Bytes → Reader β) :
    (string >>= next) body = .ok result ↔ ∃ value left,
      (body = Writer.string value ++ left ∧ value.length < 2 ^ 32) ∧ next value left = .ok result := by
  simp only [bind_ok, string_ok]

theorem utf8_bind_ok (next : String → Reader β) :
    (utf8 >>= next) body = .ok result ↔ ∃ text left,
      (body = Writer.utf8 text ++ left ∧ (utf8Bytes text).length < 2 ^ 32) ∧
        next text left = .ok result := by
  simp only [bind_ok, utf8_ok]

theorem require_bind_ok (condition : Prop) [Decidable condition] (reason : Error)
    (next : Unit → Reader β) :
    (require condition reason >>= next) body = .ok result ↔
      condition ∧ next () body = .ok result := by
  simp only [bind_ok, require_ok, Prod.mk.injEq]
  constructor
  · rintro ⟨⟨⟩, left, ⟨holds, -, rfl⟩, continued⟩
    exact ⟨holds, continued⟩
  · rintro ⟨holds, continued⟩
    exact ⟨(), body, ⟨holds, trivial, rfl⟩, continued⟩

theorem lift_bind_ok (attempt : Except Error α) (next : α → Reader β) :
    (lift attempt >>= next) body = .ok result ↔
      ∃ value, attempt = .ok value ∧ next value body = .ok result := by
  simp [bind_ok, lift_ok]

theorem finish_bind_ok (next : Unit → Reader β) :
    (finish >>= next) body = .ok result ↔ body = [] ∧ next () [] = .ok result := by
  simp only [bind_ok, finish_ok, Prod.mk.injEq]
  constructor
  · rintro ⟨⟨⟩, left, ⟨rfl, -, rfl⟩, continued⟩
    exact ⟨rfl, continued⟩
  · rintro ⟨rfl, continued⟩
    exact ⟨(), [], ⟨rfl, trivial, rfl⟩, continued⟩

theorem rest_bind_ok (next : Bytes → Reader β) :
    (rest >>= next) body = .ok result ↔ next body [] = .ok result := by
  simp [bind_ok, rest_ok]

theorem remaining_bind_ok (next : Nat → Reader β) :
    (remaining >>= next) body = .ok result ↔ next body.length body = .ok result := by
  simp [bind_ok, remaining_ok]

end Sequencing

/-- Names survive joining: none is empty and none contains the separator. -/
def Separable (names : List String) : Prop := ∀ name ∈ names, name ≠ "" ∧ ',' ∉ name.toList

instance (names : List String) : Decidable (Separable names) :=
  inferInstanceAs (Decidable (∀ name ∈ names, name ≠ "" ∧ ',' ∉ name.toList))

/-- A name-list reads back as written. -/
theorem name_list_read (names : List String) (left : Bytes) (separable : Separable names)
    (short : (utf8Bytes (Writer.joinNames names)).length < 2 ^ 32) :
    nameList (Writer.nameList names ++ left) = .ok (names, left) := by
  have read : utf8 (Writer.nameList names ++ left) = .ok (Writer.joinNames names, left) :=
    (utf8_ok _ _ _).mpr ⟨rfl, short⟩
  have joined : (Writer.joinNames names).toList = [','].intercalate (names.map String.toList) :=
    String.toList_ofList
  rw [nameList, bind_of_ok read, joined]
  cases names with
  | nil => rfl
  | cons first rest =>
    have noComma : ∀ name ∈ (first :: rest).map String.toList, ',' ∉ name := by
      intro name member
      obtain ⟨source, sourceMember, rfl⟩ := mem_map.mp member
      exact (separable source sourceMember).2
    have noEmpty : ∀ name ∈ (first :: rest).map String.toList, name ≠ [] := by
      intro name member
      obtain ⟨source, sourceMember, rfl⟩ := mem_map.mp member
      intro empty
      exact (separable source sourceMember).1 (String.toList_eq_nil_iff.mp empty)
    have split := splitOn_intercalate ',' noComma (by simp)
    have nonempty : [','].intercalate ((first :: rest).map String.toList) ≠ [] := by
      intro empty
      rw [empty] at split
      have single : (first :: rest).map String.toList = [[]] := by rw [← split]; rfl
      exact noEmpty [] (by rw [single]; simp) rfl
    have allNonempty : ((first :: rest).map String.toList).any List.isEmpty = false := by
      rw [any_eq_false]
      intro name member
      simpa using noEmpty name member
    have restored : ((first :: rest).map String.toList).map String.ofList = first :: rest := by
      simp
    rw [if_neg nonempty]
    simp only [split, allNonempty, Bool.false_eq_true, if_false, restored]
    rfl

/-- A string at the front of a text is determined by it, and so is what follows. -/
theorem string_append_injective {left right after later : Bytes} (short : left.length < 2 ^ 32)
    (short' : right.length < 2 ^ 32)
    (same : Writer.string left ++ after = Writer.string right ++ later) : left = right ∧ after = later := by
  have read := (string_ok (Writer.string left ++ after) after left).mpr ⟨rfl, short⟩
  rw [same, (string_ok _ later right).mpr ⟨rfl, short'⟩] at read
  cases read
  exact ⟨rfl, rfl⟩

theorem utf8_append_injective {left right after later} (short : (utf8Bytes left).length < 2 ^ 32)
    (short' : (utf8Bytes right).length < 2 ^ 32) (same : Writer.utf8 left ++ after = Writer.utf8 right ++ later) :
    left = right ∧ after = later := by
  obtain ⟨bytes, rest⟩ := string_append_injective short short' same
  exact ⟨utf8_bytes_injective left right bytes, rest⟩

/-- A body parses when the reader accepts it, whatever is left unread. -/
theorem parse_ok {reader : Reader α} {body : Bytes} {value : α} :
    parse reader body = .ok value ↔ ∃ left, reader body = .ok (value, left) := by
  unfold parse
  cases reader body with
  | error reason => simp [Except.map]
  | ok pair =>
    obtain ⟨result, left⟩ := pair
    simp [Except.map]

end Reader

end Wire

end Shh
