import Shh.Keys
import Shh.SavedHosts
import Shh.Texts

/-!
# Known hosts

A client pins the key of every host it trusts with a line of a text file, and asks the
file when it meets the host again. The file is the user's: it may hold anything, and other
programs write to it. What is read from a line is said once, in terms of its words. From
that follow what a pinned key is worth, which is less than it should be for a file that is
not UTF-8 as a whole, and when a recorded key is found again.
-/

namespace Shh

open List Wire Texts SavedHosts

variable {prim : Primitives}

section Base64

/-- Standard base64, with padding. -/
def base64 (bytes : Bytes) : List Char :=
  base64NoPad bytes ++ List.replicate ((3 - bytes.length % 3) % 3) '='

def base64Value (digit : Char) : Option Nat := base64Alphabet.idxOf? digit

/-- The bytes of standard base64. Padding is required and only the last group has it, and
bits that are cut off must be zero. -/
def base64Decode : List Char → Option Bytes
  | [] => some []
  | a :: b :: c :: d :: rest =>
    if d = '=' ∧ rest = [] then
      if c = '=' then do
        let w ← base64Value a
        let x ← base64Value b
        if x % 16 = 0 then some [UInt8.ofNat (w * 4 + x / 16)] else none
      else do
        let w ← base64Value a
        let x ← base64Value b
        let y ← base64Value c
        if y % 4 = 0 then
          let value := (w * 64 + x) * 16 + y / 4
          some [UInt8.ofNat (value / 256), UInt8.ofNat value]
        else none
    else do
      let w ← base64Value a
      let x ← base64Value b
      let y ← base64Value c
      let z ← base64Value d
      let value := ((w * 64 + x) * 64 + y) * 64 + z
      let more ← base64Decode rest
      return UInt8.ofNat (value / 65536) :: UInt8.ofNat (value / 256) :: UInt8.ofNat value :: more
  | _ => none

theorem base64_alphabet_length : base64Alphabet.length = 64 := by decide +kernel

theorem base64_digit_mem (value : Nat) : base64Digit value ∈ base64Alphabet := by
  have inside : value % 64 < base64Alphabet.length := by
    rw [base64_alphabet_length]
    exact Nat.mod_lt _ (by decide)
  rw [base64Digit, getD_eq_getElem?_getD, List.getElem?_eq_getElem inside, Option.getD_some]
  exact getElem_mem inside

theorem base64_value_digit (value : Nat) : base64Value (base64Digit value) = some (value % 64) := by
  have all : ∀ value : Fin 64, base64Value (base64Alphabet.getD value 'A') = some value.val := by decide +kernel
  exact all ⟨value % 64, Nat.mod_lt _ (by decide)⟩

theorem base64_digit_value {digit value} (read : base64Value digit = some value) :
    value < 64 ∧ digit = base64Digit value := by
  obtain ⟨inside, found, _⟩ := List.findIdx?_eq_some_iff_getElem.mp read
  have small : value < 64 := base64_alphabet_length ▸ inside
  refine ⟨small, ?_⟩
  rw [base64Digit, Nat.mod_eq_of_lt small, getD_eq_getElem?_getD, List.getElem?_eq_getElem inside,
    Option.getD_some, beq_iff_eq.mp found]

theorem base64_digit_ne (value : Nat) : base64Digit value ≠ '=' := by
  have all : base64Alphabet.all (fun digit => digit != '=') = true := by decide +kernel
  exact bne_iff_ne.mp (all_eq_true.mp all _ (base64_digit_mem value))

theorem base64_digit_mod {left right} (same : left % 64 = right % 64) : base64Digit left = base64Digit right := by
  rw [base64Digit, base64Digit, same]

theorem base64_one (a : UInt8) : base64 [a] = [base64Digit (a.toNat / 4), base64Digit (a.toNat * 16), '=', '='] := rfl

theorem base64_two (a b : UInt8) :
    base64 [a, b] =
      let value := a.toNat * 256 + b.toNat
      [base64Digit (value / 1024), base64Digit (value / 16), base64Digit (value * 4), '='] := rfl

theorem base64_cons (a b c : UInt8) (rest : Bytes) :
    base64 (a :: b :: c :: rest) =
      let value := (a.toNat * 256 + b.toNat) * 256 + c.toNat
      base64Digit (value / 262144) :: base64Digit (value / 4096) :: base64Digit (value / 64) :: base64Digit value ::
        base64 rest := by
  have pad : (3 - (rest.length + 1 + 1 + 1) % 3) % 3 = (3 - rest.length % 3) % 3 := by omega
  simp only [base64, base64NoPad, length_cons, pad, cons_append]

theorem base64_length (bytes : Bytes) : (base64 bytes).length = (bytes.length + 2) / 3 * 4 := by
  fun_induction base64NoPad bytes with
  | case1 => rfl
  | case2 a => simp [base64_one]
  | case3 a b => simp [base64_two]
  | case4 a b c rest value ih =>
    rw [base64_cons]
    simp only [length_cons, ih]
    omega

/-- Decoding undoes encoding. -/
theorem base64_decode_encode (bytes : Bytes) : base64Decode (base64 bytes) = some bytes := by
  have byte {value} {a : UInt8} (same : value % 256 = a.toNat) : UInt8.ofNat value = a := by
    rw [← UInt8.toNat_inj, UInt8.toNat_ofNat']
    exact same
  fun_induction base64NoPad bytes with
  | case1 => rfl
  | case2 a =>
    have zero : a.toNat * 16 % 64 % 16 = 0 := by omega
    have small := a.toNat_lt
    simp only [base64_one, base64Decode, base64_value_digit, and_self, if_true, Option.bind_eq_bind, Option.bind_some,
      zero]
    rw [byte (a := a) (by omega)]
  | case3 a b value =>
    have zero : (a.toNat * 256 + b.toNat) * 4 % 64 % 4 = 0 := by omega
    have small := a.toNat_lt
    have small' := b.toNat_lt
    simp only [base64_two, base64Decode, base64_value_digit, and_self, if_true, base64_digit_ne,
      if_false, Option.bind_eq_bind,
      Option.bind_some, zero]
    rw [byte (a := a) (by omega), byte (a := b) (by omega)]
  | case4 a b c rest value ih =>
    have small := a.toNat_lt
    have small' := b.toNat_lt
    have small'' := c.toNat_lt
    simp only [base64_cons, base64Decode, base64_value_digit, base64_digit_ne, false_and, if_false, Option.bind_eq_bind,
      Option.bind_some, ih, Option.pure_def]
    rw [byte (a := a) (by omega), byte (a := b) (by omega), byte (a := c) (by omega)]

/-- What is decoded is an encoding. -/
theorem base64_encode_decode {text bytes} (decoded : base64Decode text = some bytes) :
    text = base64 bytes := by
  have low (value : Nat) : (UInt8.ofNat value).toNat = value % 256 := UInt8.toNat_ofNat'
  induction text using base64Decode.induct generalizing bytes with
  | case1 =>
    cases decoded
    rfl
  | case2 a b d rest last =>
    obtain ⟨rfl, rfl⟩ := last
    simp only [base64Decode, and_self, if_true, Option.bind_eq_bind, Option.bind_eq_some_iff] at decoded
    obtain ⟨w, first, x, second, decoded⟩ := decoded
    obtain ⟨smallW, digitW⟩ := base64_digit_value first
    obtain ⟨smallX, digitX⟩ := base64_digit_value second
    split at decoded
    · cases decoded
      rw [digitW, digitX]
      simp only [base64_one, low]
      simp only [List.cons.injEq, and_true]
      exact ⟨base64_digit_mod (by omega), base64_digit_mod (by omega)⟩
    · cases decoded
  | case3 a b c d rest last pad =>
    obtain ⟨rfl, rfl⟩ := last
    simp only [base64Decode, and_self, if_true, if_neg pad, Option.bind_eq_bind, Option.bind_eq_some_iff] at decoded
    obtain ⟨w, first, x, second, y, third, decoded⟩ := decoded
    obtain ⟨smallW, digitW⟩ := base64_digit_value first
    obtain ⟨smallX, digitX⟩ := base64_digit_value second
    obtain ⟨smallY, digitY⟩ := base64_digit_value third
    split at decoded
    · cases decoded
      rw [digitW, digitX, digitY]
      simp only [base64_two, low, List.cons.injEq, and_true]
      exact ⟨base64_digit_mod (by omega), base64_digit_mod (by omega), base64_digit_mod (by omega)⟩
    · cases decoded
  | case4 a b c d rest last ih =>
    simp only [base64Decode, if_neg last, Option.bind_eq_bind, Option.bind_eq_some_iff, Option.pure_def] at decoded
    obtain ⟨w, first, x, second, y, third, z, fourth, more, decoded, whole⟩ := decoded
    cases whole
    obtain ⟨smallW, digitW⟩ := base64_digit_value first
    obtain ⟨smallX, digitX⟩ := base64_digit_value second
    obtain ⟨smallY, digitY⟩ := base64_digit_value third
    obtain ⟨smallZ, digitZ⟩ := base64_digit_value fourth
    rw [digitW, digitX, digitY, digitZ, base64_cons, ← ih decoded]
    simp only [low, List.cons.injEq, and_true]
    exact ⟨base64_digit_mod (by omega), base64_digit_mod (by omega), base64_digit_mod (by omega),
      base64_digit_mod (by omega)⟩
  | case5 text empty short =>
    rw [base64Decode.eq_3 _ empty short] at decoded
    cases decoded

end Base64

/-- The control characters, the Unicode category Cc. -/
def control (c : Char) : Bool := c.toNat ≤ 0x1F || (0x7F ≤ c.toNat && c.toNat ≤ 0x9F)

section Lines

variable {line : List Char} {key : PublicKey prim}

def bad (reason : String) : Error := .keyFile reason

/-- A line with a public key and a comment. -/
def encodePublic (key : PublicKey prim) (comment : List Char) : List Char :=
  if comment = [] then algo.toList ++ ' ' :: base64 key.toBlob ++ ['\n']
  else algo.toList ++ ' ' :: base64 key.toBlob ++ ' ' :: comment ++ ['\n']

/-- The key of such a line and its comment. -/
def decodePublic (line : List Char) : Except Error (PublicKey prim × List Char) :=
  match words whitespace line with
  | [] => .error (bad "empty public key line")
  | name :: rest =>
    if name ≠ algo.toList then
      .error (bad s!"unsupported key type {debug (String.ofList name)} (Ed25519 only)")
    else
      match rest with
      | [] => .error (bad "missing key material")
      | material :: comment =>
        match base64Decode material with
        | none => .error (bad "base64")
        | some blob => (PublicKey.fromBlob blob).map fun key => (key, [' '].intercalate comment)

/-- The name of a host in the file: alone on the default port, with the port otherwise. -/
def hostLabel (host : String) (port : Nat) : String :=
  if port = 22 then host else s!"[{host}]:{port}"

/-- The key that a line has for a host. Comments and marked lines have none. -/
def lineKeyBy (accepts : List Char → Bool) (line : List Char) : Option (PublicKey prim) :=
  let line := trim whitespace line
  if line = [] ∨ line.head? = some '#' ∨ line.head? = some '@' then none
  else
    match splitOnce whitespace line with
    | none => none
    | some (hosts, rest) =>
      if (hosts.splitOn ',').any accepts then (decodePublic (rest.dropWhile whitespace)).toOption.map Prod.fst else none

/-- The key on a line that lists a label as one of its hosts. -/
def lineKey (label line : List Char) : Option (PublicKey prim) := lineKeyBy (· == label) line

def lines (text : List Char) : List (List Char) := text.splitOn '\n'

/-- The first key that a text has for a host. -/
def knownHostsLookup (text label : List Char) : Option (PublicKey prim) := (lines text).findSome? (lineKey label)

def knownHostsLine (label : List Char) (key : PublicKey prim) : List Char := label ++ ' ' :: encodePublic key []

/-- The names of hosts that a line is for, if it is not marked as something else. -/
def Lists (hosts label : List Char) : Prop :=
  hosts.head? ≠ some '#' ∧ hosts.head? ≠ some '@' ∧ label ∈ hosts.splitOn ','

instance (hosts label : List Char) : Decidable (Lists hosts label) :=
  inferInstanceAs (Decidable (hosts.head? ≠ some '#' ∧ hosts.head? ≠ some '@' ∧ label ∈ hosts.splitOn ','))

theorem base64_blob_length (key : PublicKey prim) : (base64 key.toBlob).length = 68 := by
  have size : key.toBlob.length = 51 := by
    rw [PublicKey.toBlob, length_append, Writer.string_length, key.size, show (Writer.utf8 algo).length = 15 by decide]
  rw [base64_length, size]

theorem base64_blob_injective {left right : PublicKey prim} (same : base64 left.toBlob = base64 right.toBlob) :
    left = right := by
  have decoded := congrArg base64Decode same
  rw [base64_decode_encode, base64_decode_encode] at decoded
  exact PublicKey.to_blob_injective _ _ (Option.some.inj decoded)

/-- A public key line holds the key its second word is the encoding of. -/
theorem decode_public_ok :
    (decodePublic line).toOption.map Prod.fst = some key ↔
      ∃ comment, words whitespace line = algo.toList :: base64 key.toBlob :: comment := by
  have refused (reason : Error) : ¬(Except.toOption (.error reason : Except Error (PublicKey prim × List Char))).map
      Prod.fst = some key := nofun
  unfold decodePublic
  split
  · rename_i empty
    simp only [refused, false_iff, empty]
    exact nofun
  · rename_i name rest found
    rw [found]
    split
    · rename_i other
      simp only [refused, false_iff]
      rintro ⟨comment, same⟩
      exact other (List.cons.inj same).1
    · rename_i named
      obtain rfl := not_not.mp named
      split
      · simp only [refused, false_iff]
        exact nofun
      · rename_i material comment
        split
        · rename_i undecoded
          simp only [refused, false_iff]
          rintro ⟨comment, same⟩
          obtain ⟨rfl, _⟩ := List.cons.inj (List.cons.inj same).2
          rw [base64_decode_encode] at undecoded
          cases undecoded
        · rename_i blob decoded
          rw [base64_encode_decode decoded]
          have same_blob (blob' : Bytes) (same : base64 blob = base64 blob') : blob = blob' := by
            have decoded := congrArg base64Decode same
            rw [base64_decode_encode, base64_decode_encode] at decoded
            exact Option.some.inj decoded
          cases read : (PublicKey.fromBlob blob : Except Error (PublicKey prim)) with
          | error reason =>
            simp only [Except.map, refused, false_iff]
            rintro ⟨_, same⟩
            have blob_ := same_blob _ (List.cons.inj (List.cons.inj same).2).1
            rw [(PublicKey.from_blob_ok blob key).mpr blob_] at read
            cases read
          | ok other =>
            obtain rfl := (PublicKey.from_blob_ok blob other).mp read
            simp only [Except.map, Except.toOption, Option.map_some, Option.some.injEq]
            constructor
            · rintro rfl
              exact ⟨comment, rfl⟩
            · rintro ⟨_, same⟩
              exact base64_blob_injective (List.cons.inj (List.cons.inj same).2).1

/-- What a line has for the accepted hosts, in its words. -/
theorem line_key_by_ok {accepts : List Char → Bool} :
    lineKeyBy accepts line = some key ↔
      ∃ hosts comment, words whitespace line = hosts :: algo.toList :: base64 key.toBlob :: comment ∧
        hosts.head? ≠ some '#' ∧ hosts.head? ≠ some '@' ∧ (hosts.splitOn ',').any accepts = true := by
  rw [← words_trim]
  unfold lineKeyBy
  generalize trimmed : trim whitespace line = core
  dsimp only
  cases split : splitOnce whitespace core with
  | none =>
    rw [words_clean (split_once_none split)]
    simp only [ite_self, reduceCtorEq, false_iff]
    rintro ⟨hosts, comment, found, _⟩
    split at found <;> cases found
  | some parts =>
    obtain ⟨hosts, rest⟩ := parts
    obtain ⟨clean, space, separates, rfl⟩ := split_once_some split
    -- What was trimmed does not start with a separator, so the first word is what comes before one.
    have nonempty : hosts ≠ [] := by
      rintro rfl
      exact absurd separates (by rw [trim_starts trimmed]; exact Bool.false_ne_true)
    have found : words whitespace (hosts ++ space :: rest) = hosts :: words whitespace (rest.dropWhile whitespace) := by
      rw [words_separated separates, words_clean clean, if_neg nonempty, words_drop_start, singleton_append]
    have first : (hosts ++ space :: rest).head? = hosts.head? := List.head?_append_of_ne_nil _ nonempty
    rw [found, first]
    dsimp only
    constructor
    · intro read
      split at read
      · cases read
      · rename_i unmarked
        split at read
        · rename_i listed
          obtain ⟨comment, words_⟩ := decode_public_ok.mp read
          exact ⟨hosts, comment, by rw [words_], fun marked => unmarked (.inr (.inl marked)),
            fun marked => unmarked (.inr (.inr marked)), listed⟩
        · cases read
    · rintro ⟨hosts', comment, words_, unmarked, unmarked', listed⟩
      obtain ⟨rfl, others⟩ := List.cons.inj words_
      rw [if_neg (by simp [unmarked, unmarked']), if_pos listed]
      exact decode_public_ok.mpr ⟨comment, others⟩

/-- What a line has for a host, in its words. -/
theorem line_key_ok {label} :
    lineKey label line = some key ↔
      ∃ hosts comment, words whitespace line = hosts :: algo.toList :: base64 key.toBlob :: comment ∧
        Lists hosts label := by
  rw [lineKey, line_key_by_ok]
  simp only [Lists, any_eq_true, beq_iff_eq, exists_eq_right]

end Lines

section Verifying

variable {label : String} {key : PublicKey prim}

/-- What the client finds around it: whether the file can be read, whether there is a
terminal and what is answered there, whether the file can be opened for appending, and after
how many bytes writing to it fails, if it does. -/
structure World where
  readable : Bool
  terminal : Bool
  answer : Option String
  opened : Except String Unit
  cut : Option (Nat × String)

/-- A key that is not known is accepted when the caller or the user says so. -/
def World.accepts (world : World) (acceptNew : Bool) : Bool :=
  acceptNew || world.terminal && world.answer.any fun answer => trim whitespace answer.toList = "yes".toList

/-- What the file is found to record. A file that cannot be read as text records nothing. -/
def recorded (world : World) (file : Option Bytes) (label : String) : Option (PublicKey prim) := do
  let bytes ← if world.readable then file else none
  let text ← ofUtf8 bytes
  knownHostsLookup text.toList label.toList

/-- The trust decision for a host key, and the file after it. -/
def verifyHostKey (key : PublicKey prim) (label path : String) (acceptNew : Bool) (world : World)
    (file : Option Bytes) :
    Except Error Unit × Option Bytes :=
  match recorded world file label with
  | some known =>
    if known = key then (.ok (), file)
    else
      (.error (.hostKey (s!"HOST KEY MISMATCH for {label}!\nrecorded: {known.fingerprint}\n" ++
        s!"presented: {key.fingerprint}\nSomeone could be intercepting this connection. If the host\n" ++
        s!"key really changed, remove the old line from {path}.")), file)
  | none =>
    if world.accepts acceptNew = false then
      (.error (.hostKey (s!"unknown host {label} (fingerprint {key.fingerprint}); " ++
        "rerun with --accept-new to trust it")), file)
    else
      match world.opened with
      | .error reason => (.error (.hostKey s!"cannot record host key: {reason}"), file)
      | .ok () =>
        let line := encode (knownHostsLine label.toList key)
        match world.cut with
        | some (count, reason) =>
          (.error (.hostKey s!"cannot record host key: {reason}"), some (file.getD [] ++ line.take count))
        | none => (.ok (), some (file.getD [] ++ line))

theorem utf8_bytes_eq (text : String) : utf8Bytes text = encode text.toList := by
  rw [utf8Bytes, ← String.utf8Encode_toList]
  exact toList_data_toByteArray

theorem encode_append (left right : List Char) : encode (left ++ right) = encode left ++ encode right :=
  flatMap_append

theorem of_utf8_encode (text : List Char) : ofUtf8 (encode text) = some (String.ofList text) := by
  have decoded := of_utf8_bytes (String.ofList text)
  rwa [utf8_bytes_eq, String.toList_ofList] at decoded

/-- A line of a file pins a key for a host. -/
def Pins (label : String) (key : PublicKey prim) (line : Bytes) : Prop :=
  ∃ text, ofUtf8 line = some text ∧ lineKey label.toList text.toList = some key

/-- In a text the lines that pin a key are those that have it. -/
theorem pins_line {text : String} :
    (∃ line ∈ (utf8Bytes text).splitOn 10, Pins label key line) ↔
      ∃ line ∈ lines text.toList, lineKey label.toList line = some key := by
  rw [utf8_bytes_eq, splitOn_eq_splitOnP, lines_encode]
  constructor
  · rintro ⟨bytes, member, found, decoded, has⟩
    obtain ⟨line, there, rfl⟩ := mem_map.mp member
    cases (of_utf8_encode line).symm.trans decoded
    rw [String.toList_ofList] at has
    exact ⟨line, there, has⟩
  · rintro ⟨line, there, has⟩
    refine ⟨encode line, mem_map_of_mem there, String.ofList line, of_utf8_encode line, ?_⟩
    rw [String.toList_ofList]
    exact has

/-- The lookup of a host for which the text pins a key finds one that the text pins. -/
theorem lookup_pinned {text label : List Char} {known : PublicKey prim}
    (pinned : ∃ line ∈ lines text, lineKey label line = some known) :
    ∃ first : PublicKey prim, knownHostsLookup text label = some first ∧
      ∃ line ∈ lines text, lineKey label line = some first := by
  cases found : (knownHostsLookup text label : Option (PublicKey prim)) with
  | none =>
    obtain ⟨line, there, has⟩ := pinned
    rw [List.findSome?_eq_none_iff.mp found line there] at has
    cases has
  | some first =>
    obtain ⟨line, there, has⟩ := exists_of_findSome?_eq_some found
    exact ⟨first, rfl, line, there, has⟩

/-- A key that contradicts the recorded one is refused. -/
theorem verify_mismatch {file path acceptNew world known}
    (found : recorded world file label = some known) (other : known ≠ key) :
    ∃ reason, verifyHostKey key label path acceptNew world file = (.error reason, file) := by
  simp only [verifyHostKey, found, if_neg other, Prod.mk.injEq, and_true]
  exact ⟨_, rfl⟩

/-- On first contact the file is left alone exactly when nothing is accepted or written. -/
theorem verify_unknown_refused {file path acceptNew} {world : World}
    (found : recorded world (some file) label = (none : Option (PublicKey prim))) :
    (∃ reason, verifyHostKey key label path acceptNew world (some file) = (.error reason, some file)) ↔
      world.accepts acceptNew = false ∨ (∃ reason, world.opened = .error reason) ∨
        ∃ reason, world.cut = some (0, reason) := by
  have accepted {after} : ¬∃ reason, ((.ok (), after) : Except Error Unit × Option Bytes) =
      (.error reason, some file) := by
    rintro ⟨reason, same⟩
    exact absurd (Prod.mk.inj same).1 nofun
  have refused (reason : Error) : ∃ reason', ((.error reason, some file) : Except Error Unit × Option Bytes) =
      (.error reason', some file) := ⟨reason, rfl⟩
  have line : encode (knownHostsLine label.toList key) ≠ [] := by
    simp [encode, knownHostsLine, String.utf8EncodeChar_ne_nil]
  simp only [verifyHostKey, found]
  by_cases accepts : world.accepts acceptNew = false
  · simp only [accepts, if_true, refused, true_or]
  · rw [if_neg accepts, or_iff_right accepts]
    cases opened : world.opened with
    | error reason => simp only [refused, Except.error.injEq, exists_eq', true_or]
    | ok =>
      cases cut : world.cut with
      | none => simp only [accepted, reduceCtorEq, exists_const, or_self]
      | some failure =>
        obtain ⟨count, reason⟩ := failure
        simp [take_eq_nil_iff, line]

/-- A host with a pinned key, and another key that it presents. The key is refused and the
file left alone exactly when the file is read as text, or the key is not accepted, or
nothing can be written. -/
theorem pinned_key_kept_iff {file : Bytes} {label path : String} {acceptNew : Bool} {world : World}
    {known key : PublicKey prim} (pinned : ∃ line ∈ file.splitOn 10, Pins label known line)
    (unlisted : ∀ line ∈ file.splitOn 10, ¬Pins label key line) :
    (∃ reason, verifyHostKey key label path acceptNew world (some file) = (.error reason, some file)) ↔
      (world.readable = true ∧ (ofUtf8 file).isSome = true) ∨ world.accepts acceptNew = false ∨
        (∃ reason, world.opened = .error reason) ∨ ∃ reason, world.cut = some (0, reason) := by
  by_cases read : world.readable = true ∧ (ofUtf8 file).isSome = true
  · simp only [read, and_self, true_or, iff_true]
    obtain ⟨text, decoded⟩ := Option.isSome_iff_exists.mp read.2
    obtain rfl := bytes_of_utf8 _ _ decoded
    obtain ⟨first, found, listed⟩ := lookup_pinned (pins_line.mp pinned)
    have recorded_ : recorded world (some (utf8Bytes text)) label = some first := by
      simp only [recorded, read.1, if_true, Option.bind_eq_bind, Option.bind_some, decoded, found]
    refine verify_mismatch recorded_ ?_
    rintro rfl
    obtain ⟨line, there, pins⟩ := pins_line.mpr listed
    exact unlisted line there pins
  · rw [verify_unknown_refused, or_iff_right read]
    -- What cannot be read, or not as text, is taken for an empty file.
    by_cases readable : world.readable = true
    · have undecoded := Option.not_isSome_iff_eq_none.mp fun text => read ⟨readable, text⟩
      simp only [recorded, readable, if_true, Option.bind_eq_bind, Option.bind_some, undecoded, Option.bind_none]
    · simp only [recorded, if_neg readable, Option.bind_eq_bind, Option.bind_none]

/-- A key made of one byte. -/
def sampleKey (byte : UInt8) : PublicKey .transparent := ⟨List.replicate 32 byte, rfl, rfl⟩

def quietWorld : World := ⟨true, false, none, .ok (), none⟩

/-- A file that pins a key, and ends with a byte that is not UTF-8. -/
def damagedFile : Bytes := encode (knownHostsLine "host".toList (sampleKey 1)) ++ [0xFF]

instance (label : String) (key : PublicKey prim) (line : Bytes) : Decidable (Pins label key line) :=
  decidable_of_iff ((ofUtf8 line).any (fun text => lineKey label.toList text.toList = some key) = true) (by
    simp [Pins, Option.any_eq_true])

theorem damaged_file_pins : (∃ line ∈ damagedFile.splitOn 10, Pins "host" (sampleKey 1) line) ∧
    ∀ line ∈ damagedFile.splitOn 10, ¬Pins "host" (sampleKey 2) line := by
  decide +kernel

theorem pinned_key_overridden : (∃ line ∈ damagedFile.splitOn 10, Pins "host" (sampleKey 1) line) ∧
    (∀ line ∈ damagedFile.splitOn 10, ¬Pins "host" (sampleKey 2) line) ∧
    verifyHostKey (sampleKey 2) "host" "known_hosts" true quietWorld (some damagedFile) =
      (.ok (), some (damagedFile ++ encode (knownHostsLine "host".toList (sampleKey 2)))) :=
  ⟨damaged_file_pins.1, damaged_file_pins.2, by decide +kernel⟩

theorem pinned_key_kept_sample : ∃ reason,
    verifyHostKey (sampleKey 2) "host" "known_hosts" false quietWorld (some damagedFile) =
      (.error reason, some damagedFile) :=
  (pinned_key_kept_iff damaged_file_pins.1 damaged_file_pins.2).mpr (.inr (.inl rfl))

end Verifying

section Recording

variable {known : PublicKey prim}

def validateHost (host : Host) : Except String Unit :=
  if trim whitespace host.name.toList = [] ∨ trim whitespace host.hostname.toList = [] ∨
      trim whitespace host.user.toList = [] then
    .error "name, hostname, and user are required"
  else if ([host.name, host.hostname, host.user] ++ host.identity.toList).any fun field => field.toList.any control then
    .error "fields may not contain control characters"
  else if host.hostname.toList.any whitespace || host.user.toList.any whitespace then
    .error "hostname and user may not contain whitespace"
  else .ok ()

/-- The label that a saved host is recorded under. -/
def SavedHosts.Host.label (host : Host) : String := hostLabel host.hostname host.port.toNat

/-- The digits of a number are ASCII digits. -/
theorem digit_range {number} {c : Char} (member : c ∈ Nat.toDigits 10 number) : 48 ≤ c.toNat ∧ c.toNat ≤ 57 := by
  have digit := Nat.isDigit_of_mem_toDigits (by decide) (by decide) member
  simp only [Char.isDigit, Bool.and_eq_true, decide_eq_true_eq, ge_iff_le, UInt32.le_iff_toNat_le] at digit
  exact digit

theorem digits_clean (number : Nat) : Clean whitespace (Nat.toDigits 10 number) := by
  intro c member
  have range := digit_range member
  simp only [whitespace, Bool.or_eq_false_iff, Bool.and_eq_false_iff, decide_eq_false_iff_not, beq_eq_false_iff_ne]
  omega

/-- A saved host's label is a word. -/
theorem label_is_word {host : Host} (valid : validateHost host = .ok ()) :
    Clean whitespace host.label.toList ∧ host.label.toList ≠ [] := by
  have checked : trim whitespace host.hostname.toList ≠ [] ∧ Clean whitespace host.hostname.toList := by
    unfold validateHost at valid
    split at valid
    · cases valid
    · rename_i named
      split at valid
      · cases valid
      · split at valid
        · cases valid
        · rename_i clean
          simp only [Bool.or_eq_true, any_eq_true, not_or, not_exists, not_and, Bool.not_eq_true] at clean
          exact ⟨fun blank => named (.inr (.inl blank)), clean.1⟩
  have port : Clean whitespace (Nat.toDigits 10 host.port.toNat) := digits_clean host.port.toNat
  unfold Host.label hostLabel
  split
  · refine ⟨checked.2, ?_⟩
    intro blank
    rw [blank] at checked
    exact checked.1 rfl
  · have parts : (s!"[{host.hostname}]:{host.port.toNat}").toList =
        ['['] ++ (host.hostname.toList ++ ([']', ':'] ++ Nat.toDigits 10 host.port.toNat)) := by
      simp [toString]
    rw [parts]
    have bracket : Clean whitespace ['['] := by decide
    have colon : Clean whitespace [']', ':'] := by decide
    exact ⟨bracket.append (checked.2.append (colon.append port)), by simp⟩

/-- The line that a text leaves unfinished. -/
def lastLine (text : List Char) : List Char := started (fun c => c == '\n') text

/-- Where a text that goes on with a recorded key has its host names and its key. Usually
it begins a line, or the names at its start. An unfinished line may also lack just the end of
its key. -/
inductive Completes (text label : List Char) (key : PublicKey prim) : List Char → PublicKey prim → Prop
  | names (begins : finished whitespace (lastLine text) = []) :
    Completes text label key (started whitespace (lastLine text) ++ label) key
  | material {hosts : List Char} {other : PublicKey prim}
    (begins : finished whitespace (lastLine text) = [hosts, algo.toList])
    (ends : started whitespace (lastLine text) ++ label = base64 other.toBlob) : Completes text label key hosts other

/-- A key can be recorded for a host: the names of the line it is recorded in include the
host, and all others on that line are pinned already. -/
def Recordable (text label : List Char) (key : PublicKey prim) : Prop :=
  ∃ hosts, Completes text label key hosts key ∧ Lists hosts label ∧
    ∀ other ∈ hosts.splitOn ',', other ≠ label → (knownHostsLookup text other : Option (PublicKey prim)) ≠ none

variable {text label : List Char} {key : PublicKey prim}

/-- Base64 is made of its digits and of padding. -/
theorem base64_chars {bytes char} (member : char ∈ base64 bytes) : char ∈ base64Alphabet ∨ char = '=' := by
  fun_induction base64NoPad bytes with
  | case1 => cases member
  | case2 a =>
    simp only [base64_one, mem_cons, not_mem_nil, or_false] at member
    rcases member with rfl | rfl | rfl | rfl
    · exact .inl (base64_digit_mem _)
    · exact .inl (base64_digit_mem _)
    all_goals exact .inr rfl
  | case3 a b =>
    simp only [base64_two, mem_cons, not_mem_nil, or_false] at member
    rcases member with rfl | rfl | rfl | rfl
    · exact .inl (base64_digit_mem _)
    · exact .inl (base64_digit_mem _)
    · exact .inl (base64_digit_mem _)
    · exact .inr rfl
  | case4 a b c rest value ih =>
    rw [base64_cons] at member
    simp only [mem_cons] at member
    rcases member with rfl | rfl | rfl | rfl | more
    · exact .inl (base64_digit_mem _)
    · exact .inl (base64_digit_mem _)
    · exact .inl (base64_digit_mem _)
    · exact .inl (base64_digit_mem _)
    · exact ih more

theorem base64_clean (bytes : Bytes) : Clean whitespace (base64 bytes) := by
  have digits : base64Alphabet.all (fun digit => !whitespace digit) = true := by decide +kernel
  intro char member
  rcases base64_chars member with digit | rfl
  · exact (Bool.not_eq_true' _).mp (all_eq_true.mp digits _ digit)
  · rfl

/-- The words of the line in which a key is recorded. -/
theorem recorded_words (clean : Clean whitespace label) (nonempty : label ≠ []) (line : List Char) :
    words whitespace (line ++ label ++ ' ' :: (algo.toList ++ ' ' :: base64 key.toBlob)) =
      finished whitespace line ++ [started whitespace line ++ label, algo.toList, base64 key.toBlob] := by
  have material : base64 key.toBlob ≠ [] := by
    intro empty
    have size := base64_blob_length key
    rw [empty] at size
    exact absurd size (by decide)
  have algo_ : Clean whitespace algo.toList := by decide
  rw [words_append clean nonempty (by decide), words_separated (by decide), words_clean algo_, if_neg (by decide),
    words_clean (base64_clean _), if_neg material]
  rfl

theorem algo_not_material (known : PublicKey prim) : algo.toList ≠ base64 known.toBlob := by
  intro same
  have size := congrArg List.length same
  rw [base64_blob_length] at size
  exact absurd size (by decide)

theorem Completes.same_hosts {hosts hosts' known'}
    (left : Completes text label key hosts known)
    (right : Completes text label key hosts' known') : hosts' = hosts := by
  cases left with
  | names begins =>
    cases right with
    | names => rfl
    | material begins' _ => cases begins.symm.trans begins'
  | material begins _ =>
    cases right with
    | names begins' => cases begins.symm.trans begins'
    | material begins' _ => exact (List.cons.inj (begins'.symm.trans begins)).1

/-- An unfinished line that a key is recorded in had no key before. -/
theorem completes_keyless {hosts} (nonempty : label ≠ [])
    (completes : Completes text label key hosts known) (other : List Char) :
    (lineKey other (lastLine text) : Option (PublicKey prim)) = none := by
  refine Option.eq_none_iff_forall_ne_some.mpr fun found has => ?_
  obtain ⟨hosts', comment, words_, _⟩ := line_key_ok.mp has
  rw [words_eq] at words_
  cases completes with
  | names begins =>
    rw [begins] at words_
    split at words_ <;> exact absurd words_ (by simp)
  | material begins ends =>
    rw [begins] at words_
    split at words_
    · exact absurd words_ (by simp)
    · -- The unfinished word is shorter than any key.
      obtain ⟨same, _⟩ := List.cons.inj (List.cons.inj (List.cons.inj words_).2).2
      have size := congrArg List.length ends
      rw [length_append, same, base64_blob_length, base64_blob_length] at size
      exact nonempty (length_eq_zero_iff.mp (by omega))

/-- What a recorded line has for a host: a key it completes, or what was there before. -/
theorem recorded_key (clean : Clean whitespace label) (nonempty : label ≠ []) {other : List Char} :
    lineKey other (lastLine text ++ label ++ ' ' :: (algo.toList ++ ' ' :: base64 key.toBlob)) = some known ↔
      (∃ hosts, Completes text label key hosts known ∧ Lists hosts other) ∨
        (3 ≤ (finished whitespace (lastLine text)).length ∧ lineKey other (lastLine text) = some known) := by
  rw [line_key_ok, line_key_ok, recorded_words clean nonempty, words_eq]
  constructor
  · rintro ⟨hosts, comment, words_, lists⟩
    cases before : finished whitespace (lastLine text) with
    | nil =>
      rw [before] at words_
      simp only [nil_append, List.cons.injEq] at words_
      obtain ⟨rfl, _, same, _⟩ := words_
      obtain rfl := base64_blob_injective same
      exact .inl ⟨_, .names before, lists⟩
    | cons first rest =>
      cases rest with
      | nil =>
        rw [before] at words_
        simp only [cons_append, nil_append, List.cons.injEq] at words_
        exact absurd words_.2.2.1 (algo_not_material known)
      | cons second rest =>
        cases rest with
        | nil =>
          rw [before] at words_
          simp only [cons_append, nil_append, List.cons.injEq] at words_
          obtain ⟨rfl, rfl, same, _⟩ := words_
          exact .inl ⟨_, .material before same, lists⟩
        | cons third rest =>
          rw [before] at words_
          simp only [cons_append, List.cons.injEq] at words_
          obtain ⟨rfl, rfl, rfl, _⟩ := words_
          exact .inr ⟨by simp, _, _, rfl, lists⟩
  · rintro (⟨hosts, completes, lists⟩ | ⟨long, hosts, comment, words_, lists⟩)
    · cases completes with
      | names begins => exact ⟨_, _, by rw [begins, nil_append], lists⟩
      | material begins ends => exact ⟨_, _, by rw [begins, ends]; rfl, lists⟩
    · obtain ⟨first, second, third, rest, before⟩ :
          ∃ first second third rest, finished whitespace (lastLine text) = first :: second :: third :: rest := by
        match finished whitespace (lastLine text), long with
        | first :: second :: third :: rest, _ => exact ⟨_, _, _, _, rfl⟩
      rw [before] at words_ ⊢
      simp only [cons_append, List.cons.injEq] at words_
      obtain ⟨rfl, rfl, rfl, _⟩ := words_
      exact ⟨_, _, rfl, lists⟩

/-- What is recorded for a word stays on its line. -/
theorem line_clean {word : List Char} (clean : Clean whitespace word) (key : PublicKey prim) :
    Clean (fun c => c == '\n') (word ++ ' ' :: (algo.toList ++ ' ' :: base64 key.toBlob)) := by
  have newline {word} (clean : Clean whitespace word) : Clean (fun c => c == '\n') word :=
    clean_iff_not_mem.mpr fun member => absurd (clean _ member) (by decide)
  have space : Clean (fun c => c == '\n') [' '] := by decide
  have algo_ : Clean (fun c => c == '\n') algo.toList := by decide
  exact (newline clean).append (space.append (algo_.append (space.append (newline (base64_clean _)))))

/-- Recording a key changes nothing but the last line. -/
theorem lookup_recorded (clean : Clean whitespace label) : ∃ earlier : List (List Char), ∀ other,
    (knownHostsLookup text other : Option (PublicKey prim)) =
      (earlier.findSome? (lineKey other)).or (lineKey other (lastLine text)) ∧
    (knownHostsLookup (text ++ knownHostsLine label key) other : Option (PublicKey prim)) =
      (earlier.findSome? (lineKey other)).or
        (lineKey other (lastLine text ++ label ++ ' ' :: (algo.toList ++ ' ' :: base64 key.toBlob))) := by
  let more := label ++ ' ' :: (algo.toList ++ ' ' :: base64 key.toBlob)
  have within : Clean (fun c => c == '\n') more := line_clean clean key
  have line : text ++ knownHostsLine label key = text ++ more ++ ['\n'] := by
    simp [knownHostsLine, encodePublic, more]
  have blank (other : List Char) : (lineKey other [] : Option (PublicKey prim)) = none := rfl
  obtain ⟨earlier, before, after⟩ := @lines_append _ (fun c => c == '\n') text
  refine ⟨earlier, fun other => ⟨?_, ?_⟩⟩
  · rw [knownHostsLookup, lines, splitOn_eq_splitOnP, before, List.findSome?_append]
    simp [lastLine]
  · rw [knownHostsLookup, lines, splitOn_eq_splitOnP, line, after more '\n' within rfl, List.findSome?_append]
    simp only [List.findSome?_cons, List.findSome?_nil, blank, lastLine, more, append_assoc]
    congr 1
    split
    · rename_i found
      exact found.symm
    · rename_i missing
      exact missing.symm

/-- What the appended line does to the lookups of all hosts. -/
theorem appended_pins_iff (clean : Clean whitespace label) (nonempty : label ≠ [])
    (fresh : knownHostsLookup text label = (none : Option (PublicKey prim))) :
    (knownHostsLookup (text ++ knownHostsLine label key) label = some key ∧
      ∀ other ≠ label, (knownHostsLookup (text ++ knownHostsLine label key) other : Option (PublicKey prim)) =
        knownHostsLookup text other) ↔ Recordable text label key := by
  obtain ⟨earlier, lookups⟩ : ∃ earlier : List (List Char), ∀ other,
      (knownHostsLookup text other : Option (PublicKey prim)) = _ ∧
      knownHostsLookup (text ++ knownHostsLine label key) other = _ := lookup_recorded clean
  constructor
  · rintro ⟨pinned, others⟩
    rw [(lookups label).1, Option.or_eq_none_iff] at fresh
    rw [(lookups label).2, fresh.1, Option.none_or] at pinned
    rcases (recorded_key clean nonempty).mp pinned with ⟨hosts, completes, lists⟩ | ⟨_, before⟩
    · refine ⟨hosts, completes, lists, fun other listed apart unpinned => ?_⟩
      -- A host that shares the line and had no key would have got this one.
      have same := others other apart
      rw [unpinned, (lookups other).2, Option.or_eq_none_iff] at same
      have has := (recorded_key clean nonempty).mpr (.inl ⟨hosts, completes, lists.1, lists.2.1, listed⟩)
      rw [same.2] at has
      cases has
    · rw [fresh.2] at before
      cases before
  · rintro ⟨hosts, completes, lists, pinned⟩
    constructor
    · rw [(lookups label).1, Option.or_eq_none_iff] at fresh
      rw [(lookups label).2, fresh.1, Option.none_or]
      exact (recorded_key clean nonempty).mpr (.inl ⟨hosts, completes, lists⟩)
    · intro other apart
      rw [(lookups other).1, (lookups other).2]
      cases found : earlier.findSome? (lineKey other) with
      | some known => rfl
      | none =>
        rw [Option.none_or, Option.none_or, completes_keyless nonempty completes]
        refine Option.eq_none_iff_forall_ne_some.mpr fun known has => ?_
        rcases (recorded_key clean nonempty).mp has with ⟨hosts', completes', lists'⟩ | ⟨_, before⟩
        · have unpinned : knownHostsLookup text other = (none : Option (PublicKey prim)) := by
            rw [(lookups other).1, found, completes_keyless nonempty completes, Option.none_or]
          exact pinned other (completes.same_hosts completes' ▸ lists'.2.2) apart unpinned
        · rw [completes_keyless nonempty completes] at before
          cases before

/-- A key that is accepted on first contact is appended to the file. -/
theorem verify_unknown_accepted {file after : Option Bytes} {label path : String} {acceptNew world}
    (found : recorded world file label = (none : Option (PublicKey prim)))
    (accepted : verifyHostKey key label path acceptNew world file = (.ok (), after)) :
    after = some (file.getD [] ++ encode (knownHostsLine label.toList key)) := by
  simp only [verifyHostKey, found] at accepted
  split at accepted
  · exact absurd (Prod.mk.inj accepted).1 nofun
  · split at accepted
    · exact absurd (Prod.mk.inj accepted).1 nofun
    · split at accepted
      · exact absurd (Prod.mk.inj accepted).1 nofun
      · exact (Prod.mk.inj accepted).2.symm

/-- A key is recorded for a saved host that the file has no key for. The file then pins it
for that host, and every other host as before, exactly when it can be recorded there. -/
theorem recording_pins_host_iff {host : Host} {path : String} {acceptNew : Bool} {world : World}
    {file after : Option Bytes} (valid : validateHost host = .ok ()) (content : file.getD [] = encode text)
    (fresh : knownHostsLookup text host.label.toList = (none : Option (PublicKey prim)))
    (accepted : verifyHostKey key host.label path acceptNew world file = (.ok (), after)) :
    (∃ bytes next, after = some bytes ∧ ofUtf8 bytes = some next ∧
      knownHostsLookup next.toList host.label.toList = some key ∧
      ∀ other ≠ host.label.toList, (knownHostsLookup next.toList other : Option (PublicKey prim)) =
        knownHostsLookup text other) ↔
      Recordable text host.label.toList key := by
  obtain ⟨clean, nonempty⟩ := label_is_word valid
  have unknown : recorded world file host.label = (none : Option (PublicKey prim)) := by
    cases file with
    | none => simp only [recorded, ite_self, Option.bind_eq_bind, Option.bind_none]
    | some bytes =>
      obtain rfl : bytes = encode text := content
      by_cases readable : world.readable = true
      · simp only [recorded, readable, if_true, Option.bind_eq_bind, Option.bind_some, of_utf8_encode,
          String.toList_ofList, fresh]
      · simp only [recorded, if_neg readable, Option.bind_eq_bind, Option.bind_none]
  have written := verify_unknown_accepted unknown accepted
  rw [content, ← encode_append] at written
  subst written
  rw [← appended_pins_iff clean nonempty fresh]
  constructor
  · rintro ⟨bytes, next, same, decoded, pins⟩
    cases same
    cases (of_utf8_encode _).symm.trans decoded
    rwa [String.toList_ofList] at pins
  · intro pins
    refine ⟨_, _, rfl, of_utf8_encode _, ?_⟩
    rwa [String.toList_ofList]

def sampleHost : Host := ⟨"1", "box", "host", 22, "user", none⟩

/-- A file with the key of another host. -/
def otherPinned : List Char := knownHostsLine "other".toList (sampleKey 1)

/-- Without the end of its last line the file swallows what is recorded. -/
theorem recorded_key_lost : ∃ next : List Char, validateHost sampleHost = .ok () ∧
    knownHostsLookup otherPinned.dropLast sampleHost.label.toList = (none : Option (PublicKey .transparent)) ∧
    verifyHostKey (sampleKey 2) sampleHost.label "known_hosts" true quietWorld (some (encode otherPinned.dropLast)) =
      (.ok (), some (encode next)) ∧
    knownHostsLookup next sampleHost.label.toList = (none : Option (PublicKey .transparent)) ∧
    knownHostsLookup otherPinned.dropLast "other".toList = some (sampleKey 1) ∧
    knownHostsLookup next "other".toList = (none : Option (PublicKey .transparent)) :=
  ⟨otherPinned.dropLast ++ knownHostsLine "host".toList (sampleKey 2), by decide +kernel⟩

theorem recording_pins_sample : ∃ next : String,
    knownHostsLookup next.toList sampleHost.label.toList = some (sampleKey 2) ∧
    (knownHostsLookup next.toList "other".toList : Option (PublicKey .transparent)) =
      knownHostsLookup otherPinned "other".toList := by
  have facts : validateHost sampleHost = .ok () ∧
      knownHostsLookup otherPinned sampleHost.label.toList = (none : Option (PublicKey .transparent)) ∧
      verifyHostKey (sampleKey 2) sampleHost.label "known_hosts" true quietWorld (some (encode otherPinned)) =
        (.ok (), some (encode (otherPinned ++ knownHostsLine "host".toList (sampleKey 2)))) ∧
      finished whitespace (lastLine otherPinned) = [] ∧ started whitespace (lastLine otherPinned) = [] := by
    decide +kernel
  obtain ⟨valid, fresh, accepted, begins, blank⟩ := facts
  have recordable : Recordable otherPinned sampleHost.label.toList (sampleKey 2) :=
    ⟨_, .names begins, by rw [blank]; decide⟩
  obtain ⟨_, next, _, _, pinned, others⟩ := (recording_pins_host_iff valid rfl fresh accepted).mpr recordable
  exact ⟨next, pinned, others _ (by decide)⟩

end Recording

end Shh
