import Shh.Certificates

/-!
# Issuing certificates

A certificate authority writes the fields of a certificate and signs them. What it writes
is read back as what it meant, and the reader accepts nothing else where a restriction is
at stake: the critical options have one encoding, and the signature covers everything
before it.

The source's writer panics on a string whose length does not fit its length field, so
issuing gives nothing there.
-/

namespace Shh

open List Option Wire Reader Writer Computations

variable {prim : Primitives}

/-- The critical options a signer can put on a user certificate. -/
structure CertOptions where
  forceCommand : Option String
  sourceAddress : Option String
deriving DecidableEq, Repr

namespace CertOptions

/-- One option: its value is a string nested in its data. -/
def entry (name value : String) : Bytes := Writer.utf8 name ++ Writer.string (Writer.utf8 value)

/-- An option that may be absent. -/
def part (name : String) : Option String → Bytes
  | some value => entry name value
  | none => []

/-- The options in ascending order of their names. -/
def critical (options : CertOptions) : Bytes :=
  part "force-command" options.forceCommand ++ part "source-address" options.sourceAddress

/-- The values fit the length fields around them. -/
def Fits (options : CertOptions) : Prop :=
  (∀ value ∈ options.forceCommand, (Writer.utf8 value).length < 2 ^ 32) ∧
    ∀ value ∈ options.sourceAddress, (Writer.utf8 value).length < 2 ^ 32

instance (options : CertOptions) : Decidable options.Fits :=
  inferInstanceAs (Decidable (_ ∧ _))

/-- The critical options as they are signed, unless the writer panics. -/
def encode (options : CertOptions) : Option Bytes := if options.Fits then some options.critical else none

end CertOptions

/-- Pack principals into the inner bytes of the list of valid principals. -/
def packStringList (items : List String) : Bytes := items.flatMap Writer.utf8

/-- The extensions on a user certificate; the source does not enforce them. -/
def defaultExtensions : List String :=
  ["permit-X11-forwarding", "permit-agent-forwarding", "permit-port-forwarding", "permit-pty", "permit-user-rc"]

/-- What a certificate authority is asked to sign. -/
structure Draft (prim : Primitives) where
  key : PublicKey prim
  skApplication : Option String
  certType : UInt32
  options : CertOptions
  serial : UInt64
  keyId : String
  principals : List String
  validAfter : UInt64
  validBefore : UInt64

namespace Draft

/-- Extensions apply to user certificates only, each with empty data. -/
def extensions (draft : Draft prim) : Bytes :=
  if draft.certType.toNat = certTypeUser then
    defaultExtensions.flatMap fun name => Writer.utf8 name ++ Writer.string []
  else []

/-- The signed bytes, around a fresh nonce. -/
def body (ca : PrivateKey) (nonce : Fin 32 → UInt8) (draft : Draft prim) : Bytes :=
  Writer.utf8 (if draft.skApplication.isSome then skCertAlgo else certAlgo) ++
  Writer.string (List.ofFn nonce) ++
  Writer.string draft.key.raw ++
  draft.skApplication.elim [] Writer.utf8 ++
  Writer.u64 draft.serial.toNat ++
  Writer.u32 draft.certType.toNat ++
  Writer.utf8 draft.keyId ++
  Writer.string (packStringList draft.principals) ++
  Writer.u64 draft.validAfter.toNat ++
  Writer.u64 draft.validBefore.toNat ++
  Writer.string draft.options.critical ++
  Writer.string draft.extensions ++
  Writer.string [] ++
  Writer.string (ca.publicKey : PublicKey prim).toBlob

/-- Every string written has a length that fits its length field. -/
def Fits (draft : Draft prim) : Prop :=
  (∀ text ∈ draft.skApplication, (utf8Bytes text).length < 2 ^ 32) ∧ (utf8Bytes draft.keyId).length < 2 ^ 32 ∧
    (∀ item ∈ draft.principals, (utf8Bytes item).length < 2 ^ 32) ∧ (packStringList draft.principals).length < 2 ^ 32 ∧
    draft.options.Fits ∧ draft.options.critical.length < 2 ^ 32

instance (draft : Draft prim) : Decidable draft.Fits :=
  inferInstanceAs (Decidable (_ ∧ _ ∧ _ ∧ _ ∧ _ ∧ _))

end Draft

/-- The signed bytes and the authority's signature over them, unless the writer panics. -/
def signCert (ca : PrivateKey) (nonce : Fin 32 → UInt8) (draft : Draft prim) : Option Bytes :=
  if draft.Fits then
    some (draft.body ca nonce ++ Writer.string (ca.sign prim (draft.body ca nonce)))
  else none

namespace Certificate

section Options

open CertOptions

variable {seen next : Options} {body left : Bytes}

theorem read_option_value_ok {data value} :
    readOptionValue data = .ok value ↔ data = Writer.utf8 value ∧ (utf8Bytes value).length < 2 ^ 32 := by
  simp only [readOptionValue, parse_ok, utf8_bind_ok, finish_bind_ok, pure_ok, Prod.mk.injEq]
  constructor
  · rintro ⟨left, text, rest, ⟨rfl, short⟩, rfl, rfl, -⟩
    exact ⟨append_nil _, short⟩
  · rintro ⟨rfl, short⟩
    exact ⟨[], value, [], ⟨(append_nil _).symm, short⟩, rfl, rfl, rfl⟩

/-- A known option in its place, and nothing else, is read. -/
theorem read_option_ok :
    readOption seen body = .ok (next, left) ↔
      ∃ name value, (∀ previous ∈ seen.last, utf8Bytes previous < utf8Bytes name) ∧
        body = entry name value ++ left ∧ (Writer.utf8 value).length < 2 ^ 32 ∧
        (name = "force-command" ∧ next = { seen with forceCommand := some value, last := some name } ∨
          name = "source-address" ∧ next = { seen with sourceAddress := some value, last := some name }) := by
  simp only [readOption, utf8_bind_ok, require_bind_ok, string_bind_ok]
  constructor
  · rintro ⟨name, afterName, ⟨rfl, -⟩, ascending, data, afterData, ⟨rfl, short⟩, known⟩
    split at known
    · rename_i command
      obtain ⟨value, inner, done⟩ := (lift_bind_ok _ _ _ _).mp known
      cases pure_ok.mp done
      obtain ⟨rfl, -⟩ := read_option_value_ok.mp inner
      exact ⟨name, value, ascending, by simp [entry], short, .inl ⟨command, rfl⟩⟩
    · split at known
      · rename_i source
        obtain ⟨value, inner, done⟩ := (lift_bind_ok _ _ _ _).mp known
        cases pure_ok.mp done
        obtain ⟨rfl, -⟩ := read_option_value_ok.mp inner
        exact ⟨name, value, ascending, by simp [entry], short, .inr ⟨source, rfl⟩⟩
      · exact (throw_ok.mp known).elim
  · rintro ⟨name, value, ascending, rfl, short, known⟩
    have nested : readOptionValue (Writer.utf8 value) = .ok value :=
      read_option_value_ok.mpr ⟨rfl, by rw [Writer.utf8, string_length] at short; omega⟩
    have named : (utf8Bytes name).length < 2 ^ 32 := by
      rcases known with ⟨rfl, -⟩ | ⟨rfl, -⟩ <;> decide
    refine ⟨name, _, ⟨append_assoc _ _ _, named⟩, ascending, _, left, ⟨rfl, short⟩, ?_⟩
    rcases known with ⟨rfl, rfl⟩ | ⟨rfl, rfl⟩
    · rw [if_pos rfl]
      exact (lift_bind_ok _ _ _ _).mpr ⟨value, nested, rfl⟩
    · rw [if_neg (by decide), if_pos rfl]
      exact (lift_bind_ok _ _ _ _).mpr ⟨value, nested, rfl⟩

theorem read_option_consumes : Reader.Consumes readOption := by
  intro seen body next left read
  obtain ⟨name, value, -, rfl, -, -⟩ := read_option_ok.mp read
  simp only [entry, Writer.utf8, length_append, string_length]
  omega

/-- The rest of the options, read after some, leaves these two values. -/
def Reads (seen : Options) (body : Bytes) (command source : Option String) : Prop :=
  ∃ last left, Reader.drain readOption seen body = .ok (⟨command, source, last⟩, left)

variable {command source : Option String}

theorem reads_iff :
    Reads seen body command source ↔
      (body = [] ∧ command = seen.forceCommand ∧ source = seen.sourceAddress) ∨
        ∃ next between, readOption seen body = .ok (next, between) ∧ Reads next between command source := by
  constructor
  · rintro ⟨last, left, drained⟩
    rcases (drain_ok read_option_consumes).mp drained with
      ⟨empty, same, -⟩ | ⟨next, between, read, -, rest⟩
    · exact .inl ⟨empty, congrArg Options.forceCommand same, congrArg Options.sourceAddress same⟩
    · exact .inr ⟨next, between, read, last, left, rest⟩
  · rintro (⟨rfl, rfl, rfl⟩ | ⟨next, between, read, last, left, rest⟩)
    · exact ⟨seen.last, [], rfl⟩
    · refine ⟨last, left, (drain_ok read_option_consumes).mpr (.inr ⟨next, between, read, ?_, rest⟩)⟩
      have shorter := read_option_consumes _ _ _ _ read
      exact ne_nil_of_length_pos (by omega)

/-- Nothing may follow the source address: no known name is greater. -/
theorem reads_after_source (last : seen.last = some "source-address") :
    Reads seen body command source ↔ body = [] ∧ command = seen.forceCommand ∧ source = seen.sourceAddress := by
  rw [reads_iff]
  refine or_iff_left ?_
  rintro ⟨next, between, read, -⟩
  obtain ⟨name, value, ascending, -, -, ⟨rfl, -⟩ | ⟨rfl, -⟩⟩ := read_option_ok.mp read
  all_goals exact absurd (ascending _ last) (by decide)

/-- After the forced command, at most a source address. -/
theorem reads_after_command (last : seen.last = some "force-command") (none_yet : seen.sourceAddress = none) :
    Reads seen body command source ↔
      command = seen.forceCommand ∧ body = part "source-address" source ∧
        ∀ value ∈ source, (Writer.utf8 value).length < 2 ^ 32 := by
  rw [reads_iff, none_yet]
  constructor
  · rintro (⟨rfl, rfl, rfl⟩ | ⟨next, between, read, rest⟩)
    · exact ⟨rfl, rfl, by simp⟩
    · obtain ⟨name, value, ascending, rfl, short, ⟨rfl, -⟩ | ⟨rfl, rfl⟩⟩ := read_option_ok.mp read
      · exact absurd (ascending _ last) (by decide)
      · obtain ⟨rfl, rfl, rfl⟩ := (reads_after_source rfl).mp rest
        exact ⟨rfl, append_nil _, by simpa using short⟩
  · rintro ⟨rfl, rfl, short⟩
    cases source with
    | none => exact .inl ⟨rfl, rfl, rfl⟩
    | some value =>
      refine .inr ⟨_, [], read_option_ok.mpr ⟨"source-address", value, ?_, (append_nil _).symm, short value rfl,
        .inr ⟨rfl, rfl⟩⟩, (reads_after_source rfl).mpr ⟨rfl, rfl, rfl⟩⟩
      intro previous known
      cases last.symm.trans known
      decide

/-- From the start, the two options in their order. -/
theorem reads_from_start :
    Reads ⟨none, none, none⟩ body command source ↔
      body = critical ⟨command, source⟩ ∧ Fits ⟨command, source⟩ := by
  rw [reads_iff]
  constructor
  · rintro (⟨rfl, rfl, rfl⟩ | ⟨next, between, read, rest⟩)
    · exact ⟨rfl, by simp [Fits]⟩
    · obtain ⟨name, value, -, rfl, short, ⟨rfl, rfl⟩ | ⟨rfl, rfl⟩⟩ := read_option_ok.mp read
      · obtain ⟨rfl, rfl, fits⟩ := (reads_after_command rfl rfl).mp rest
        exact ⟨rfl, by simpa using short, fits⟩
      · obtain ⟨rfl, rfl, rfl⟩ := (reads_after_source rfl).mp rest
        exact ⟨append_nil _, by simp, by simpa using short⟩
  · rintro ⟨rfl, commandFits, sourceFits⟩
    cases command with
    | some value =>
      exact .inr ⟨_, _, read_option_ok.mpr ⟨"force-command", value,
        by simp, rfl, commandFits value rfl, .inl ⟨rfl, rfl⟩⟩,
        (reads_after_command rfl rfl).mpr ⟨rfl, rfl, sourceFits⟩⟩
    | none =>
      cases source with
      | none => exact .inl ⟨rfl, rfl, rfl⟩
      | some value =>
        exact .inr ⟨_, [], read_option_ok.mpr ⟨"source-address", value,
          by simp, (append_nil _).symm, sourceFits value rfl,
          .inr ⟨rfl, rfl⟩⟩, (reads_after_source rfl).mpr ⟨rfl, rfl, rfl⟩⟩

/-- The parser accepts what the signer writes for two values, and nothing else. -/
theorem parse_critical_ok :
    parseCriticalOptions body = .ok (command, source) ↔ encode ⟨command, source⟩ = some body := by
  have read : parseCriticalOptions body = .ok (command, source) ↔ Reads ⟨none, none, none⟩ body command source := by
    simp only [parseCriticalOptions, except_bind_ok, parse_ok]
    constructor
    · rintro ⟨⟨_, _, last⟩, ⟨left, drained⟩, same⟩
      cases Except.ok.inj same
      exact ⟨last, left, drained⟩
    · rintro ⟨last, left, drained⟩
      exact ⟨⟨command, source, last⟩, ⟨left, drained⟩, rfl⟩
  rw [read, reads_from_start, encode, ite_none_right_eq_some, Option.some.injEq, eq_comm, and_comm]

/-- The encoding determines the options. -/
theorem encode_determines {options options' : CertOptions} (encoded : options.encode = some body)
    (encoded' : options'.encode = some body) : options = options' := by
  obtain ⟨command, source⟩ := options
  obtain ⟨command', source'⟩ := options'
  have parsed := parse_critical_ok.mpr encoded
  rw [parse_critical_ok.mpr encoded'] at parsed
  cases Except.ok.inj parsed
  rfl

end Options

section Lists

/-- A packed list is read back, and nothing else is read as one. -/
theorem read_string_list_ok {bytes items} :
    readStringList bytes = .ok items ↔
      bytes = packStringList items ∧ ∀ item ∈ items, (utf8Bytes item).length < 2 ^ 32 := by
  have step (out next : List String) (body left : Bytes) :
      (Reader.utf8 >>= fun item => pure (out ++ [item]) : Reader (List String)) body = .ok (next, left) ↔
        ∃ item, (utf8Bytes item).length < 2 ^ 32 ∧ body = Writer.utf8 item ++ left ∧ next = out ++ [item] := by
    simp only [utf8_bind_ok, pure_ok, Prod.mk.injEq]
    constructor
    · rintro ⟨item, _, ⟨rfl, short⟩, rfl, rfl⟩
      exact ⟨item, short, rfl, rfl⟩
    · rintro ⟨item, short, rfl, rfl⟩
      exact ⟨item, left, ⟨rfl, short⟩, rfl, rfl⟩
  have consumes : Reader.Consumes fun out : List String => Reader.utf8 >>= fun item => pure (out ++ [item]) := by
    intro out body next left read
    obtain ⟨item, -, rfl, -⟩ := (step out next body left).mp read
    simp only [Writer.utf8, length_append, string_length]
    omega
  have gathered (items : List String) : items.foldl (fun out item => out ++ [item]) [] = items := by
    simp only [foldl_append_eq_append, nil_append, ← flatMap_def, flatMap_singleton']
  simp only [readStringList, parse_ok]
  constructor
  · rintro ⟨left, drained⟩
    obtain ⟨items, short, rfl, rfl, -⟩ := drain_items consumes
      (fun out body next left read => (step out next body left).mp read) drained
    rw [gathered]
    exact ⟨rfl, short⟩
  · rintro ⟨rfl, short⟩
    refine ⟨[], ?_⟩
    have drained := drain_flat_map _ consumes Writer.utf8 (fun out item => out ++ [item]) items []
      fun item member out left => (step out _ _ left).mpr ⟨item, short item member, rfl, rfl⟩
    rwa [gathered] at drained

end Lists

section Reading

variable {length : Nat} {fields : Fields prim} {body left blob : Bytes}

/-- The values of the fields after the application fit where they are written. -/
structure Fields.Fit (fields : Fields prim) : Prop where
  serial : fields.serial < 2 ^ 64
  certType : fields.certType < 2 ^ 32
  keyId : (utf8Bytes fields.keyId).length < 2 ^ 32
  packed : (packStringList fields.principals).length < 2 ^ 32
  principals : ∀ item ∈ fields.principals, (utf8Bytes item).length < 2 ^ 32
  validAfter : fields.validAfter < 2 ^ 64
  validBefore : fields.validBefore < 2 ^ 64
  critical : fields.critical.length < 2 ^ 32
  signerBlob : fields.signerBlob.length < 2 ^ 32
  signature : fields.signature.length < 2 ^ 32

/-- What the reader passes over without keeping it. -/
structure Passed where
  nonce : Bytes
  extensions : Bytes
  reserved : Bytes

/-- The bytes of the fields after the key and its application, up to the signature. -/
def Fields.later (fields : Fields prim) (passed : Passed) : Bytes :=
  Writer.u64 fields.serial ++ (Writer.u32 fields.certType ++ (Writer.utf8 fields.keyId ++
    (Writer.string (packStringList fields.principals) ++ (Writer.u64 fields.validAfter ++
    (Writer.u64 fields.validBefore ++
      (Writer.string fields.critical ++ (Writer.string passed.extensions ++ (Writer.string passed.reserved ++
        Writer.string fields.signerBlob))))))))

/-- The bytes of all the fields up to the signature. -/
def Fields.signed (fields : Fields prim) (passed : Passed) : Bytes :=
  Writer.utf8 (if fields.skApplication.isSome then skCertAlgo else certAlgo) ++ (Writer.string passed.nonce ++
    (Writer.string fields.key.raw ++ ((fields.skApplication.elim [] Writer.utf8) ++ fields.later passed)))

theorem read_later_ok {key application} :
    readLater length key application body = .ok (fields, left) ↔
      left = [] ∧ fields.key = key ∧ fields.skApplication = application ∧
        fields.signedLength = length - (Writer.string fields.signature).length ∧ fields.Fit ∧
        ∃ extensions reserved, body = fields.later ⟨[], extensions, reserved⟩ ++ Writer.string fields.signature ∧
          extensions.length < 2 ^ 32 ∧ reserved.length < 2 ^ 32 := by
  simp only [readLater, u64_bind_ok, u32_bind_ok, utf8_bind_ok, string_bind_ok,
    lift_bind_ok, remaining_bind_ok, finish_bind_ok, pure_ok, Prod.mk.injEq, read_string_list_ok]
  constructor
  · rintro ⟨serial, _, ⟨rfl, serialFits⟩, certType, _, ⟨rfl, typeFits⟩, keyId, _, ⟨rfl, idFits⟩,
      packed, _, ⟨rfl, packedFits⟩,
      principals, ⟨rfl, itemsFit⟩, validAfter, _, ⟨rfl, afterFits⟩, validBefore, _, ⟨rfl, beforeFits⟩, critical, _,
      ⟨rfl, criticalFits⟩, extensions, _, ⟨rfl, extensionsFit⟩, reserved, _, ⟨rfl,
        reservedFits⟩, signer, _, ⟨rfl, signerFits⟩,
      signature, _, ⟨rfl, signatureFits⟩, rfl, rfl, rfl⟩
    refine ⟨rfl, rfl, rfl,
      by simp, ⟨serialFits, typeFits, idFits, packedFits, itemsFit, afterFits, beforeFits, criticalFits,
      signerFits, signatureFits⟩, extensions, reserved, ?_, extensionsFit, reservedFits⟩
    simp only [Fields.later, append_assoc, append_nil]
  · rintro ⟨rfl, rfl, rfl, signedLength, fit, extensions, reserved, rfl, extensionsFit, reservedFits⟩
    simp only [Fields.later, append_assoc]
    refine ⟨_, _, ⟨rfl, fit.serial⟩, _, _, ⟨rfl, fit.certType⟩, _, _, ⟨rfl, fit.keyId⟩, _, _, ⟨rfl, fit.packed⟩, _,
      ⟨rfl, fit.principals⟩, _, _, ⟨rfl, fit.validAfter⟩, _, _, ⟨rfl, fit.validBefore⟩, _, _, ⟨rfl, fit.critical⟩, _, _,
      ⟨rfl, extensionsFit⟩, _, _, ⟨rfl, reservedFits⟩, _, _, ⟨rfl, fit.signerBlob⟩, _, [],
      ⟨(append_nil _).symm, fit.signature⟩, rfl, ?_, trivial⟩
    rw [← signedLength]

theorem read_ed25519_point_ok {raw} {key : PublicKey prim} : readEd25519Point raw = .ok key ↔ raw = key.raw := by
  unfold readEd25519Point
  constructor
  · intro accepted
    split at accepted
    · simp at accepted
    · exact ((PublicKey.from_bytes_ok _ _).mp accepted).symm
  · rintro rfl
    rw [if_neg (not_not.mpr key.size)]
    exact (PublicKey.from_bytes_ok _ _).mpr rfl

/-- A blob is read as these fields when it is their encoding, around some nonce,
extensions and reserved bytes, with the signature behind. -/
theorem read_fields_ok :
    (readFields length).parse blob = .ok fields ↔
      ∃ passed : Passed, blob = fields.signed passed ++ Writer.string fields.signature ∧
        fields.signedLength = length - (Writer.string fields.signature).length ∧ fields.Fit ∧
        (∀ text ∈ fields.skApplication, (utf8Bytes text).length < 2 ^ 32) ∧
        passed.nonce.length < 2 ^ 32 ∧ passed.extensions.length < 2 ^ 32 ∧ passed.reserved.length < 2 ^ 32 := by
  simp only [readFields, parse_ok, utf8_bind_ok, require_bind_ok, string_bind_ok,
    lift_bind_ok, read_ed25519_point_ok]
  constructor
  · rintro ⟨left, name, _, ⟨rfl, -⟩, known, nonce, _, ⟨rfl, nonceFits⟩, _, afterKey, ⟨rfl, -⟩, key, rfl, rest⟩
    split at rest
    · rename_i hardware
      obtain ⟨application, later, ⟨rfl, short⟩, read⟩ := (utf8_bind_ok _ _ _).mp rest
      obtain ⟨-, rfl, named, signedLength, fit, extensions, reserved, rfl, extensionsFit,
        reservedFits⟩ := read_later_ok.mp read
      refine ⟨⟨nonce, extensions, reserved⟩, ?_, signedLength, fit,
        by simpa [named] using short, nonceFits, extensionsFit,
        reservedFits⟩
      simp [Fields.signed, Fields.later, named, hardware]
    · rename_i bare
      obtain ⟨-, rfl, named, signedLength, fit, extensions, reserved, rfl, extensionsFit,
        reservedFits⟩ := read_later_ok.mp rest
      refine ⟨⟨nonce, extensions, reserved⟩, ?_, signedLength, fit,
        by simp [named], nonceFits, extensionsFit, reservedFits⟩
      simp [Fields.signed, Fields.later, named, known.resolve_right bare]
  · rintro ⟨⟨nonce, extensions, reserved⟩, rfl, signedLength, fit, short, nonceFits, extensionsFit, reservedFits⟩
    have point : fields.key.raw.length < 2 ^ 32 := by
      rw [fields.key.size]
      decide
    simp only [Fields.signed, append_assoc]
    refine ⟨[], _, _, ⟨rfl, ?_⟩, ?_, nonce, _, ⟨rfl, nonceFits⟩, _, _, ⟨rfl, point⟩, fields.key, rfl, ?_⟩
    · split <;> decide
    · split
      · exact .inr rfl
      · exact .inl rfl
    · cases named : fields.skApplication with
      | none =>
        rw [if_neg (by decide)]
        exact read_later_ok.mpr ⟨rfl, rfl, named, signedLength, fit, extensions, reserved, rfl,
          extensionsFit, reservedFits⟩
      | some application =>
        rw [if_pos (by simp)]
        exact (utf8_bind_ok _ _ _).mpr ⟨application, _, ⟨rfl, short _ named⟩,
          read_later_ok.mpr ⟨rfl, rfl, named, signedLength, fit, extensions, reserved, rfl,
          extensionsFit, reservedFits⟩⟩

end Reading

section Verifying

variable {fields : Fields prim}

/-- What a certificate states, apart from its bytes. -/
structure Terms (prim : Primitives) where
  key : PublicKey prim
  skApplication : Option String
  serial : Nat
  certType : Nat
  keyId : String
  principals : List String
  validAfter : Nat
  validBefore : Nat
  options : CertOptions
  caKey : PublicKey prim

def terms (cert : Certificate prim) : Terms prim where
  key := cert.key
  skApplication := cert.skApplication
  serial := cert.serial
  certType := cert.certType
  keyId := cert.keyId
  principals := cert.principals
  validAfter := cert.validAfter
  validBefore := cert.validBefore
  options := ⟨cert.forceCommand, cert.sourceAddress⟩
  caKey := cert.caKey

/-- The terms of fields whose options and signer are known. -/
def Fields.terms (fields : Fields prim) (options : CertOptions) (caKey : PublicKey prim) : Terms prim where
  key := fields.key
  skApplication := fields.skApplication
  serial := fields.serial
  certType := fields.certType
  keyId := fields.keyId
  principals := fields.principals
  validAfter := fields.validAfter
  validBefore := fields.validBefore
  options := options
  caKey := caKey

variable {blob : Bytes} {cert : Certificate prim}

/-- A blob is accepted for its fields, when the key it names signed the bytes before the
signature and its critical options are the encoding of the two values. -/
theorem parse_and_verify_ok :
    parseAndVerify blob = .ok cert ↔
      cert.blob = blob ∧ ∃ (fields : Fields prim) (options : CertOptions) (caKey : PublicKey prim),
        (readFields blob.length).parse blob = .ok fields ∧ fields.signerBlob = caKey.toBlob ∧
        caKey.verify (blob.take fields.signedLength) fields.signature = .ok () ∧ options.encode = some fields.critical ∧
        cert.terms = fields.terms options caKey := by
  constructor
  · intro accepted
    refine ⟨parse_and_verify_blob blob cert accepted, ?_⟩
    unfold parseAndVerify at accepted
    split at accepted
    · cases accepted
    · rename_i fields parsed
      split at accepted
      · cases accepted
      · rename_i caKey signer
        split at accepted
        · rename_i verified
          split at accepted
          · cases accepted
          · rename_i command source restricted
            cases accepted
            exact ⟨fields, ⟨command, source⟩, caKey, parsed, (PublicKey.from_blob_ok _ _).mp signer, verified,
              parse_critical_ok.mp restricted, rfl⟩
        · cases accepted
  · rintro ⟨rfl, fields, options, caKey, parsed, signer, verified, restricted, same⟩
    obtain ⟨command, source⟩ := options
    have restricted' := parse_critical_ok.mpr restricted
    unfold parseAndVerify
    split
    · rename_i reason failed
      cases parsed.symm.trans failed
    · rename_i found foundFields
      cases parsed.symm.trans foundFields
      split
      · rename_i reason failed
        cases ((PublicKey.from_blob_ok _ _).mpr signer).symm.trans failed
      · rename_i foundKey foundSigner
        cases ((PublicKey.from_blob_ok _ _).mpr signer).symm.trans foundSigner
        rw [dif_pos verified]
        split
        · rename_i reason failed
          cases restricted'.symm.trans failed
        · rename_i foundCommand foundSource foundOptions
          cases Except.ok.inj (restricted'.symm.trans foundOptions)
          cases cert
          simp only [terms, Fields.terms, Terms.mk.injEq, CertOptions.mk.injEq] at same
          obtain ⟨rfl, rfl, rfl, rfl, rfl, rfl, rfl, rfl, ⟨rfl, rfl⟩, rfl⟩ := same
          rfl

/-- The bytes before the signature are the encoding of the fields. -/
theorem read_signed (parsed : (readFields blob.length).parse blob = .ok fields) :
    blob = blob.take fields.signedLength ++ Writer.string fields.signature ∧
      ∃ passed, blob.take fields.signedLength = fields.signed passed := by
  obtain ⟨passed, layout, signedLength, -⟩ := read_fields_ok.mp parsed
  have span : fields.signedLength = (fields.signed passed).length := by
    rw [signedLength, layout, length_append]
    omega
  have taken : blob.take fields.signedLength = fields.signed passed := by
    rw [span, layout, take_left]
  exact ⟨taken.symm ▸ layout, passed, taken⟩

/-- A certificate starts with the algorithm of its form. -/
theorem read_leads (parsed : (readFields blob.length).parse blob = .ok fields) :
    Reader.utf8.parse blob = .ok (if fields.skApplication.isSome then skCertAlgo else certAlgo) := by
  obtain ⟨passed, layout, -⟩ := read_fields_ok.mp parsed
  have short : (utf8Bytes (if fields.skApplication.isSome then skCertAlgo else certAlgo)).length < 2 ^ 32 := by
    split <;> decide
  rw [layout, Fields.signed, append_assoc, parse_ok]
  exact ⟨_, (utf8_ok _ _ _).mpr ⟨rfl, short⟩⟩

/-- An accepted certificate starts with the name of the form of key it certifies. -/
theorem accepted_leads (accepted : parseAndVerify blob = .ok cert) :
    Reader.utf8.parse blob = .ok (if cert.skApplication.isSome then skCertAlgo else certAlgo) := by
  obtain ⟨-, fields, options, caKey, parsed, -, -, -, stated⟩ := parse_and_verify_ok.mp accepted
  have application : cert.skApplication = fields.skApplication := congrArg Terms.skApplication stated
  rw [application]
  exact read_leads parsed

/-- With an empty signature behind them, the signed bytes give the same other fields. -/
theorem read_unsigned (parsed : (readFields blob.length).parse blob = .ok fields) :
    (readFields (blob.take fields.signedLength ++ Writer.string []).length).parse
      (blob.take fields.signedLength ++ Writer.string []) = .ok { fields with signature := [] } := by
  obtain ⟨passed, layout, signedLength, fit, short, fits⟩ := read_fields_ok.mp parsed
  have span : fields.signedLength = (fields.signed passed).length := by
    rw [signedLength, layout, length_append]
    omega
  have taken : blob.take fields.signedLength = fields.signed passed := by
    rw [span, layout, take_left]
  refine read_fields_ok.mpr ⟨passed,
    by rw [taken]; rfl, ?_, ⟨fit.serial, fit.certType, fit.keyId, fit.packed, fit.principals,
    fit.validAfter, fit.validBefore, fit.critical, fit.signerBlob, by simp⟩, short, fits⟩
  rw [taken, length_append, Nat.add_sub_cancel]
  exact span

/-- The signed bytes determine what an accepted certificate says. -/
theorem signed_determines {other : Bytes} {cert' : Certificate prim} {fields' : Fields prim}
    (accepted : parseAndVerify blob = .ok cert) (accepted' : parseAndVerify other = .ok cert')
    (parsed : (readFields blob.length).parse blob = .ok fields)
      (parsed' : (readFields other.length).parse other = .ok fields')
    (same : blob.take fields.signedLength = other.take fields'.signedLength) : cert.terms = cert'.terms := by
  obtain ⟨-, found, options, caKey, found_parsed, signer, -, restricted, said⟩ := parse_and_verify_ok.mp accepted
  obtain ⟨-, found', options', caKey', found_parsed', signer', -, restricted', said'⟩ :=
    parse_and_verify_ok.mp accepted'
  cases parsed.symm.trans found_parsed
  cases parsed'.symm.trans found_parsed'
  have unsigned := read_unsigned parsed
  rw [same, read_unsigned parsed'] at unsigned
  have fieldsSame := Except.ok.inj unsigned
  have critical : fields'.critical = fields.critical := (congrArg Fields.critical fieldsSame :)
  have issuer : fields'.signerBlob = fields.signerBlob := (congrArg Fields.signerBlob fieldsSame :)
  have others : fields'.terms options caKey = fields.terms options caKey :=
    (congrArg (Fields.terms · options caKey) fieldsSame :)
  obtain rfl := PublicKey.to_blob_injective _ _ (signer.symm.trans (issuer.symm.trans signer'))
  obtain rfl := encode_determines restricted (critical ▸ restricted')
  rw [said, said', others]

end Verifying

section Issued

variable {ca : PrivateKey} {nonce : Fin 32 → UInt8} {draft : Draft prim} {blob : Bytes}

/-- The terms a certificate for the draft states. -/
def issuedTerms (ca : PrivateKey) (draft : Draft prim) : Terms prim where
  key := draft.key
  skApplication := draft.skApplication
  serial := draft.serial.toNat
  certType := draft.certType.toNat
  keyId := draft.keyId
  principals := draft.principals
  validAfter := draft.validAfter.toNat
  validBefore := draft.validBefore.toNat
  options := draft.options
  caKey := ca.publicKey

/-- The fields a reader finds in a certificate for the draft. -/
def issuedFields (ca : PrivateKey) (nonce : Fin 32 → UInt8) (draft : Draft prim) : Fields prim where
  key := draft.key
  skApplication := draft.skApplication
  serial := draft.serial.toNat
  certType := draft.certType.toNat
  keyId := draft.keyId
  principals := draft.principals
  validAfter := draft.validAfter.toNat
  validBefore := draft.validBefore.toNat
  critical := draft.options.critical
  signerBlob := (ca.publicKey : PublicKey prim).toBlob
  signedLength := (draft.body ca nonce).length
  signature := ca.sign prim (draft.body ca nonce)

theorem issued_span : (issuedFields ca nonce draft).signedLength = (draft.body ca nonce).length := by
  simp only [issuedFields]

theorem issued_signature : (issuedFields ca nonce draft).signature = ca.sign prim (draft.body ca nonce) := by
  simp only [issuedFields]

theorem extensions_length : draft.extensions.length ≤ 130 := by
  unfold Draft.extensions
  split
  · decide +kernel
  · decide

/-- What the signer writes is read field by field. -/
theorem issued_read (issued : signCert ca nonce draft = some blob) :
    blob = draft.body ca nonce ++ Writer.string (ca.sign prim (draft.body ca nonce)) ∧
      (readFields blob.length).parse blob = .ok (issuedFields ca nonce draft) := by
  obtain ⟨⟨application, keyId, items, packed, options, critical⟩, same⟩ := ite_none_right_eq_some.mp issued
  obtain rfl := Option.some.inj same
  refine ⟨rfl, read_fields_ok.mpr ⟨⟨List.ofFn nonce, draft.extensions, []⟩, ?_, ?_,
    ⟨draft.serial.toNat_lt, draft.certType.toNat_lt, keyId, packed,
    items, draft.validAfter.toNat_lt, draft.validBefore.toNat_lt, critical, ?_, ?_⟩, application, ?_, ?_, by simp⟩⟩
  · simp only [issuedFields, Fields.signed, Fields.later, Draft.body, append_assoc]
  · rw [length_append, issued_signature, issued_span, Nat.add_sub_cancel]
  · simp only [issuedFields, PublicKey.toBlob, Writer.utf8, length_append, string_length, PublicKey.size]
    decide
  · simp only [issuedFields, PrivateKey.sign, Writer.utf8, length_append, string_length, prim.sign_size]
    decide
  · simp
  · exact Nat.lt_of_le_of_lt extensions_length (by decide)

/-- What an authority issues is accepted, and states what it was asked to state. -/
theorem issued_accepted (issued : signCert ca nonce draft = some blob) :
    ∃ cert : Certificate prim, parseAndVerify blob = .ok cert ∧ cert.terms = issuedTerms ca draft := by
  obtain ⟨layout, parsed⟩ := issued_read issued
  obtain ⟨⟨-, -, -, -, options, -⟩, -⟩ := ite_none_right_eq_some.mp issued
  have covered : blob.take (issuedFields ca nonce draft).signedLength = draft.body ca nonce := by
    rw [layout, issued_span, take_left]
  have signed : (ca.publicKey : PublicKey prim).verify (blob.take (issuedFields ca nonce draft).signedLength)
      (issuedFields ca nonce draft).signature = .ok () := by
    rw [covered, issued_signature]
    exact ca.verify_sign _
  let cert : Certificate prim :=
    { key := draft.key, skApplication := draft.skApplication, serial := draft.serial.toNat,
      certType := draft.certType.toNat, keyId := draft.keyId, principals := draft.principals,
      validAfter := draft.validAfter.toNat, validBefore := draft.validBefore.toNat,
      forceCommand := draft.options.forceCommand, sourceAddress := draft.options.sourceAddress, caKey := ca.publicKey, blob
      signed := ⟨_, parsed, (PublicKey.from_blob_ok _ _).mpr rfl, signed⟩ }
  refine ⟨cert, parse_and_verify_ok.mpr ⟨rfl, _, draft.options, ca.publicKey, parsed, rfl, signed, ?_, rfl⟩, rfl⟩
  exact if_pos options

/-- The certified key has the form the terms give it. -/
theorem certified_key_of_terms {cert : Certificate prim} :
    cert.certifiedUserKey = cert.terms.skApplication.elim (.ed25519 cert.terms.key) fun application =>
      .sk ⟨cert.terms.key, application⟩ := by
  unfold certifiedUserKey terms
  cases cert.skApplication with
  | none | some => rfl

/-- **Certificates parse back to what was signed.** A certificate an authority issues is
accepted with exactly the values asked for, the authority's key and a user key of the
right kind. In every accepted blob the signature covers all the bytes before it, and those
bytes determine the fields. -/
theorem certificates_round_trip (prim : Primitives) :
    (∀ (ca : PrivateKey) (nonce : Fin 32 → UInt8) (draft : Draft prim), signCert ca nonce draft ≠ none ↔ draft.Fits) ∧
    (∀ (ca : PrivateKey) (nonce : Fin 32 → UInt8) (draft : Draft prim) (blob : Bytes),
      signCert ca nonce draft = some blob →
      ∃ cert : Certificate prim, parseAndVerify blob = .ok cert ∧ cert.key = draft.key ∧
        cert.skApplication = draft.skApplication ∧ cert.certType = draft.certType.toNat ∧
        cert.serial = draft.serial.toNat ∧ cert.keyId = draft.keyId ∧ cert.principals = draft.principals ∧
        cert.validAfter = draft.validAfter.toNat ∧ cert.validBefore = draft.validBefore.toNat ∧
        cert.forceCommand = draft.options.forceCommand ∧ cert.sourceAddress = draft.options.sourceAddress ∧
        cert.caKey = ca.publicKey ∧
        cert.certifiedUserKey = draft.skApplication.elim (.ed25519 draft.key) fun application => .sk
          ⟨draft.key, application⟩) ∧
    (∀ (blob : Bytes) (cert : Certificate prim), parseAndVerify blob = .ok cert →
      ∃ fields : Fields prim, (readFields blob.length).parse blob = .ok fields ∧
        blob = blob.take fields.signedLength ++ Writer.string fields.signature ∧
        cert.caKey.verify (blob.take fields.signedLength) fields.signature = .ok () ∧
        ∀ (other : Bytes) (cert' : Certificate prim) (fields' : Fields prim), parseAndVerify other = .ok cert' →
          (readFields other.length).parse other = .ok fields' →
          blob.take fields.signedLength = other.take fields'.signedLength → cert.terms = cert'.terms) := by
  refine ⟨?_, ?_, ?_⟩
  · intro ca nonce draft
    simp [signCert]
  · intro ca nonce draft blob issued
    obtain ⟨cert, accepted, stated⟩ := issued_accepted issued
    have userKey := @certified_key_of_terms _ cert
    rw [stated] at userKey
    simp only [terms, issuedTerms, Terms.mk.injEq] at stated
    obtain ⟨key, application, serial, certType, keyId, principals, after, before, options, caKey⟩ := stated
    exact ⟨cert, accepted, key, application, certType, serial, keyId, principals, after, before,
      congrArg CertOptions.forceCommand options, congrArg CertOptions.sourceAddress options, caKey, userKey⟩
  · intro blob cert accepted
    obtain ⟨-, fields, options, caKey, parsed, -, verified, -, stated⟩ := parse_and_verify_ok.mp accepted
    have issuer : cert.caKey = caKey := congrArg Terms.caKey stated
    refine ⟨fields, parsed, (read_signed parsed).1, issuer.symm ▸ verified, ?_⟩
    intro other cert' fields' accepted' parsed' same
    exact signed_determines accepted accepted' parsed parsed' same

/-- A security-key certificate with both options and an empty principal among others. -/
def sampleDraft : Draft Primitives.transparent where
  key := ⟨List.replicate 32 7, rfl, rfl⟩
  skApplication := some "ssh:"
  certType := 1
  options := ⟨some "uptime", some "10.0.0.0/8"⟩
  serial := 5
  keyId := "laptop"
  principals := ["", "alice"]
  validAfter := 10
  validBefore := 20

def sampleAuthority : PrivateKey := ⟨List.replicate 32 9, rfl⟩

theorem sample_round_trip :
    ∃ (blob : Bytes) (cert : Certificate Primitives.transparent),
      signCert sampleAuthority (fun _ => 3) sampleDraft = some blob ∧ parseAndVerify blob = .ok cert ∧
        cert.principals = ["", "alice"] ∧ cert.sourceAddress = some "10.0.0.0/8" := by
  obtain ⟨issues, reads, -⟩ := certificates_round_trip Primitives.transparent
  have issued := (issues sampleAuthority (fun _ => 3) sampleDraft).mpr (by decide +kernel)
  obtain ⟨blob, issued⟩ := ne_none_iff_exists'.mp issued
  obtain ⟨cert, accepted, -, -, -, -, -, principals, -, -, -, source, -⟩ := reads _ _ _ blob issued
  exact ⟨blob, cert, issued, accepted, principals, source⟩

/-- **Critical options are accepted in exactly one encoding.** The parser accepts a byte
string with two values exactly when it is what the signer writes for them. So a
certificate whose critical options are anything else is refused, and an accepted
certificate carries every restriction its authority signed. -/
theorem critical_options_canonical (prim : Primitives) :
    (∀ (body : Bytes) (command source : Option String),
      parseCriticalOptions body = .ok (command, source) ↔ CertOptions.encode ⟨command, source⟩ = some body) ∧
    (∀ (blob : Bytes) (cert : Certificate prim) (fields : Fields prim), parseAndVerify blob = .ok cert →
      (readFields blob.length).parse blob = .ok fields →
      CertOptions.encode ⟨cert.forceCommand, cert.sourceAddress⟩ = some fields.critical) ∧
    (∀ (ca : PrivateKey) (nonce : Fin 32 → UInt8) (draft : Draft prim) (blob : Bytes),
      signCert ca nonce draft = some blob →
      ∃ fields : Fields prim, (readFields blob.length).parse blob = .ok fields ∧
        draft.options.encode = some fields.critical) := by
  refine ⟨fun body command source => parse_critical_ok, ?_, ?_⟩
  · intro blob cert fields accepted parsed
    obtain ⟨-, found, options, caKey, foundParsed, -, -, restricted, stated⟩ := parse_and_verify_ok.mp accepted
    cases parsed.symm.trans foundParsed
    have carried : ⟨cert.forceCommand, cert.sourceAddress⟩ = options := congrArg Terms.options stated
    rw [carried, restricted]
  · intro ca nonce draft blob issued
    obtain ⟨⟨-, -, -, -, options, -⟩, -⟩ := ite_none_right_eq_some.mp issued
    exact ⟨_, (issued_read issued).2, if_pos options⟩

end Issued

end Certificate

end Shh
