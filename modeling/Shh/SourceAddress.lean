import Shh.Texts
import Shh.Wire

/-!
# Source-address lists of certificates

A certificate may restrict the addresses it is used from to a comma-separated
list of addresses and CIDR blocks. Matching masks both addresses to the block's
prefix length. A negated entry that matches refuses outright; otherwise some
positive entry must match. A malformed entry matches nothing.

Address and number texts are parsed as the standard library parses them: dotted
quads without leading zeros, colon groups with one `::` and an optional embedded
dotted quad, and decimal numbers with an optional plus sign. Whitespace is the
Unicode property the standard library trims.
-/

namespace Shh

/-- An address of either family, as its bits. -/
inductive IpAddr where
  | v4 (bits : BitVec 32)
  | v6 (bits : BitVec 128)
deriving DecidableEq, Repr

namespace IpAddr

/-- How many bits an address of this family has. -/
def width : IpAddr → Nat
  | .v4 _ => 32
  | .v6 _ => 128

/-- Fold an IPv4-mapped IPv6 address back to IPv4. -/
def toCanonical : IpAddr → IpAddr
  | .v4 bits => .v4 bits
  | .v6 bits => if bits >>> 32 = 0xffff then .v4 (bits.setWidth 32) else .v6 bits

/-- A text parser returns what it read and the unread characters. -/
abbrev TextParser (α : Type) := List Char → Option (α × List Char)

def readGivenChar (expected : Char) : TextParser Unit
  | first :: rest => if first = expected then some ((), rest) else none
  | [] => none

/-- The value of a digit in the given radix, upper or lower case. -/
def toDigit (radix : Nat) (digit : Char) : Option Nat :=
  let value :=
    if '0' ≤ digit ∧ digit ≤ '9' then some (digit.toNat - '0'.toNat)
    else if 'a' ≤ digit ∧ digit ≤ 'z' then some (digit.toNat - 'a'.toNat + 10)
    else if 'A' ≤ digit ∧ digit ≤ 'Z' then some (digit.toNat - 'A'.toNat + 10)
    else none
  value.filter (· < radix)

/-- The longest run of digits at the front of the text. -/
def readDigits (radix : Nat) : List Char → List Nat × List Char
  | [] => ([], [])
  | first :: rest =>
    match toDigit radix first with
    | some digit => ((digit :: (readDigits radix rest).1), (readDigits radix rest).2)
    | none => ([], first :: rest)

def digitsValue (radix : Nat) (digits : List Nat) : Nat :=
  digits.foldl (fun acc digit => acc * radix + digit) 0

/-- A number of at most `maxDigits` digits and at most `bound`. -/
def readNumber (radix maxDigits bound : Nat) (allowZeroPrefix : Bool) : TextParser Nat := fun text =>
  let (digits, rest) := readDigits radix text
  if digits.length = 0 ∨ maxDigits < digits.length then none
  else if !allowZeroPrefix && text.head? = some '0' && decide (1 < digits.length) then none
  else if bound < digitsValue radix digits then none
  else some (digitsValue radix digits, rest)

/-- A group is preceded by the separator unless it is the first. -/
def readSeparator {α : Type} (separator : Char) (index : Nat) (inner : TextParser α) :
    TextParser α := fun text =>
  if index = 0 then inner text
  else (readGivenChar separator text).bind (fun separated => inner separated.2)

def readIpv4Addr : TextParser (BitVec 32) := fun text => do
  let (one, text) ← readNumber 10 3 255 false text
  let (two, text) ← readSeparator '.' 1 (readNumber 10 3 255 false) text
  let (three, text) ← readSeparator '.' 2 (readNumber 10 3 255 false) text
  let (four, text) ← readSeparator '.' 3 (readNumber 10 3 255 false) text
  some (BitVec.ofNat 32 (one * 2 ^ 24 + two * 2 ^ 16 + three * 2 ^ 8 + four), text)

/-- Colon-separated groups up to a limit, with whether an embedded dotted quad
ended them. `index` counts the groups already read. -/
def readGroups : Nat → Nat → List Char → List Nat × Bool × List Char
  | 0, _, text => ([], false, text)
  | limit + 1, index, text =>
    match (if 1 ≤ limit then readSeparator ':' index readIpv4Addr text else none) with
    | some (quad, rest) => ([quad.toNat / 2 ^ 16, quad.toNat % 2 ^ 16], true, rest)
    | none =>
      match readSeparator ':' index (readNumber 16 4 0xffff true) text with
      | none => ([], false, text)
      | some (group, rest) =>
        let (groups, embedded, left) := readGroups limit (index + 1) rest
        (group :: groups, embedded, left)

def groupsValue (groups : List Nat) : BitVec 128 :=
  BitVec.ofNat 128 (groups.foldl (fun acc group => acc * 2 ^ 16 + group) 0)

def readIpv6Addr : TextParser (BitVec 128) := fun text =>
  let (front, embedded, text) := readGroups 8 0 text
  if front.length = 8 then some (groupsValue front, text)
  else if embedded then none
  else do
    let (_, text) ← readGivenChar ':' text
    let (_, text) ← readGivenChar ':' text
    let (back, _, text) := readGroups (8 - (front.length + 1)) 0 text
    some (groupsValue (front ++ List.replicate (8 - front.length - back.length) 0 ++ back), text)

def readIpAddr : TextParser IpAddr := fun text =>
  match readIpv4Addr text with
  | some (bits, rest) => some (.v4 bits, rest)
  | none => (readIpv6Addr text).map (fun parsed => (.v6 parsed.1, parsed.2))

/-- `str::parse::<IpAddr>`: the whole text must be one address. -/
def parse (text : List Char) : Option IpAddr :=
  match readIpAddr text with
  | some (address, []) => some address
  | _ => none

end IpAddr

namespace SourceAddress

open Texts

/-- `str::parse::<u32>`: decimal digits after an optional plus sign. -/
def parseU32 (text : List Char) : Option Nat :=
  let digits := match text with
    | '+' :: rest => rest
    | other => other
  let (read, rest) := IpAddr.readDigits 10 digits
  if read = [] ∨ rest ≠ [] ∨ 2 ^ 32 ≤ IpAddr.digitsValue 10 read then none
  else some (IpAddr.digitsValue 10 read)

/-- The text before and after the first slash. -/
def splitOnceSlash (text : List Char) : List Char × Option (List Char) :=
  match text.span (· ≠ '/') with
  | (address, []) => (address, none)
  | (address, _ :: bits) => (address, some bits)

/-- The prefix length of a block: the whole width when none is written, nothing
when it is not a number or exceeds the width. -/
def prefixBits (width : Nat) : Option (List Char) → Option Nat
  | none => some width
  | some text => (parseU32 text).filter (· ≤ width)

/-- Ones in the leading `bits` positions. -/
def mask (width bits : Nat) : BitVec width :=
  if bits = 0 then 0 else BitVec.allOnes width <<< (width - bits)

def cidrContains (spec : List Char) (address : IpAddr) : Bool :=
  let (addressText, bits) := splitOnceSlash spec
  match IpAddr.parse addressText, address with
  | some (.v4 net), .v4 peer =>
    match prefixBits 32 bits with
    | some bits => net &&& mask 32 bits = peer &&& mask 32 bits
    | none => false
  | some (.v6 net), .v6 peer =>
    match prefixBits 128 bits with
    | some bits => net &&& mask 128 bits = peer &&& mask 128 bits
    | none => false
  | _, _ => false

/-- An entry with its negation mark split off. -/
def negation (entry : List Char) : Bool × List Char :=
  match entry with
  | '!' :: rest => (true, trim whitespace rest)
  | other => (false, other)

/-- The entries in order, with whether a positive one has matched so far. -/
def permitsEntries (address : IpAddr) : List (List Char) → Bool → Bool
  | [], matched => matched
  | raw :: rest, matched =>
    let entry := trim whitespace raw
    if entry = [] then permitsEntries address rest matched
    else
      let (negated, spec) := negation entry
      if cidrContains spec address then
        if negated then false else permitsEntries address rest true
      else permitsEntries address rest matched

def sourceAddressPermits (list : String) (address : IpAddr) : Bool :=
  permitsEntries address.toCanonical (list.toList.splitOn ',') false

/-- Bounds of a block are inclusive, a negated match beats any positive one, and
a mapped address is matched as IPv4. -/
example : sourceAddressPermits "10.0.0.0/8, !10.1.0.0/16" (.v4 0x0affffff) = true ∧
    sourceAddressPermits "10.0.0.0/8, !10.1.0.0/16" (.v4 0x0a010203) = false ∧
    sourceAddressPermits "10.0.0.0/8" (.v6 0xffff0a000001) = true ∧
    sourceAddressPermits "2001:db8::/32" (.v6 0x20010db8000000000000000000000001) = true := by
  decide

/-- A block of addresses: a network and how many leading bits belong to it. -/
structure Block where
  network : IpAddr
  bits : Nat
deriving DecidableEq, Repr

/-- An address is in a block of its own family that it shares the leading bits with. -/
def Block.Contains (block : Block) : IpAddr → Prop
  | .v4 peer => ∃ net, block.network = .v4 net ∧
      net.toNat / 2 ^ (32 - block.bits) = peer.toNat / 2 ^ (32 - block.bits)
  | .v6 peer => ∃ net, block.network = .v6 net ∧
      net.toNat / 2 ^ (128 - block.bits) = peer.toNat / 2 ^ (128 - block.bits)

/-- The block that an entry spells, if it is well formed. -/
def parseBlock (spec : List Char) : Option Block :=
  match IpAddr.parse (splitOnceSlash spec).1 with
  | none => none
  | some network => (prefixBits network.width (splitOnceSlash spec).2).map (⟨network, ·⟩)

/-- The entries of a list that say anything, each with whether it is negated. -/
def entries (list : String) : List (Bool × List Char) :=
  (((list.toList.splitOn ',').map (trim whitespace)).filter (· ≠ [])).map negation

section Blocks

theorem mask_bit (width bits index : Nat) (fits : bits ≤ width) :
    (mask width bits).getLsbD index = decide (width - bits ≤ index ∧ index < width) := by
  unfold mask
  split
  · rename_i unmasked
    subst unmasked
    rw [BitVec.ofNat_eq_ofNat, BitVec.getLsbD_zero, eq_comm, decide_eq_false_iff_not]
    omega
  · rw [BitVec.getLsbD_shiftLeft, BitVec.getLsbD_allOnes, Bool.eq_iff_iff]
    simp only [Bool.and_eq_true, decide_eq_true_eq, Bool.not_eq_true', decide_eq_false_iff_not]
    omega

/-- Masking keeps exactly the leading bits. -/
theorem masked_eq_iff {width : Nat} (bits : Nat) (fits : bits ≤ width) (left right : BitVec width) :
    left &&& mask width bits = right &&& mask width bits ↔
      left.toNat / 2 ^ (width - bits) = right.toNat / 2 ^ (width - bits) := by
  constructor
  · intro same
    apply Nat.eq_of_testBit_eq
    intro index
    rw [Nat.testBit_div_two_pow, Nat.testBit_div_two_pow]
    by_cases inside : index + (width - bits) < width
    · have agree := congrArg (BitVec.getLsbD · (index + (width - bits))) same
      simp only [BitVec.getLsbD_and, mask_bit _ _ _ fits, Nat.le_add_left, inside, and_self, decide_true,
        Bool.and_true] at agree
      exact agree
    · have outside : ∀ value : BitVec width, value.toNat.testBit (index + (width - bits)) = false := fun value =>
        BitVec.getLsbD_of_ge value _ (by omega)
      rw [outside, outside]
  · intro same
    apply BitVec.eq_of_getLsbD_eq
    intro index within
    rw [BitVec.getLsbD_and, BitVec.getLsbD_and, mask_bit _ _ _ fits]
    by_cases leading : width - bits ≤ index
    · have agree := congrArg (Nat.testBit · (index - (width - bits))) same
      simp only [Nat.testBit_div_two_pow, Nat.sub_add_cancel leading] at agree
      rw [BitVec.getLsbD, BitVec.getLsbD, agree]
    · simp [leading]

theorem prefix_bits_le {width text bits}
    (read : prefixBits width text = some bits) : bits ≤ width := by
  cases text with
  | none => exact (Option.some.inj read).ge
  | some text => simpa using (Option.filter_eq_some_iff.mp read).2

/-- The code's test decides membership in the block that the entry spells. A
malformed entry spells none. -/
theorem cidr_contains_iff (spec : List Char) (address : IpAddr) :
    cidrContains spec address = true ↔ ∃ block ∈ parseBlock spec, block.Contains address := by
  unfold cidrContains parseBlock
  generalize splitOnceSlash spec = parts
  obtain ⟨addressText, suffix⟩ := parts
  dsimp only
  generalize IpAddr.parse addressText = parsed
  rcases parsed with _ | ⟨net⟩ | ⟨net⟩
  · simp
  · cases read : prefixBits 32 suffix with
    | none => cases address <;> simp [IpAddr.width, read]
    | some bits =>
      cases address with
      | v4 peer => simp [IpAddr.width, read, Block.Contains, masked_eq_iff bits (prefix_bits_le read)]
      | v6 peer => simp [IpAddr.width, read, Block.Contains]
  · cases read : prefixBits 128 suffix with
    | none => cases address <;> simp [IpAddr.width, read]
    | some bits =>
      cases address with
      | v4 peer => simp [IpAddr.width, read, Block.Contains]
      | v6 peer => simp [IpAddr.width, read, Block.Contains, masked_eq_iff bits (prefix_bits_le read)]

/-- Some entry of one polarity spells a block with the address in it. -/
def Matches (entries : List (Bool × List Char)) (negated : Bool) (address : IpAddr) : Prop :=
  ∃ spec, (negated, spec) ∈ entries ∧ ∃ block ∈ parseBlock spec, block.Contains address

/-- The walk over a list admits what a positive entry matched and no negated one does. -/
theorem permits_entries_iff (address : IpAddr) (raws : List (List Char)) (matched : Bool) :
    permitsEntries address raws matched = true ↔
      (matched = true ∨ Matches (((raws.map (trim whitespace)).filter (· ≠ [])).map negation) false address) ∧
        ¬ Matches (((raws.map (trim whitespace)).filter (· ≠ [])).map negation) true address := by
  induction raws generalizing matched with
  | nil => simp [permitsEntries, Matches]
  | cons raw rest ih =>
    rw [permitsEntries]
    by_cases blank : trim whitespace raw = []
    · simp only [blank, if_true, List.map_cons, ne_eq, not_true_eq_false, decide_false, Bool.false_eq_true,
        not_false_eq_true, List.filter_cons_of_neg]
      exact ih matched
    · simp only [blank, if_false, List.map_cons, ne_eq, not_false_eq_true, decide_true, List.filter_cons_of_pos]
      generalize ((rest.map (trim whitespace)).filter (· ≠ [])).map negation = others at ih ⊢
      obtain ⟨negated, spec⟩ := negation (trim whitespace raw)
      have contains := cidr_contains_iff spec address
      cases inside : cidrContains spec address with
      | false =>
        rw [inside] at contains
        have absent : ¬ ∃ block ∈ parseBlock spec, block.Contains address :=
          fun found => Bool.false_ne_true (contains.mpr found)
        have skipped (polarity : Bool) :
            Matches ((negated, spec) :: others) polarity address ↔ Matches others polarity address := by
          constructor
          · rintro ⟨other, member, found⟩
            rcases List.mem_cons.mp member with same | later
            · cases same
              exact absurd found absent
            · exact ⟨other, later, found⟩
          · rintro ⟨other, member, found⟩
            exact ⟨other, List.mem_cons_of_mem _ member, found⟩
        rw [skipped, skipped]
        exact ih matched
      | true =>
        have found := contains.mp inside
        cases negated with
        | true =>
          simp only [if_true, Bool.false_eq_true, false_iff, not_and_or]
          right
          exact not_not.mpr ⟨spec, List.mem_cons_self, found⟩
        | false =>
          have matches_ : Matches ((false, spec) :: others) false address := ⟨spec, List.mem_cons_self, found⟩
          have unnegated : Matches ((false, spec) :: others) true address ↔ Matches others true address := by
            simp [Matches]
          simp only [if_true, Bool.false_eq_true, if_false, matches_, or_true, true_and, unnegated]
          rw [ih true]
          simp

/-- A list admits an address exactly when it is in the block of some well-formed
positive entry and in that of no well-formed negated one. -/
theorem source_address_permits_iff (list : String) (address : IpAddr) :
    sourceAddressPermits list address = true ↔
      Matches (entries list) false address.toCanonical ∧ ¬ Matches (entries list) true address.toCanonical := by
  simp [sourceAddressPermits, permits_entries_iff, entries]

end Blocks

/-- Some entry is not an address or a block. -/
def Malformed (list : String) : Prop := ∃ entry ∈ entries list, parseBlock entry.2 = none

instance (list : String) : Decidable (Malformed list) :=
  inferInstanceAs (Decidable (∃ entry ∈ entries list, parseBlock entry.2 = none))

/-- A list with a malformed entry does not admit this address. -/
def FailsClosed (list : String) (address : IpAddr) : Prop :=
  Malformed list → sourceAddressPermits list address = false

/-- A malformed entry is skipped. So a list that has one still refuses exactly the
addresses that the other entries refuse: those in no positive block, and those in a
negated one. -/
theorem fails_closed_iff (list : String) (address : IpAddr) :
    FailsClosed list address ↔ (Malformed list →
      ¬ Matches (entries list) false address.toCanonical ∨ Matches (entries list) true address.toCanonical) := by
  unfold FailsClosed
  rw [← Bool.not_eq_true, source_address_permits_iff, not_and_or, not_not]

/-- An exclusion that is one bit too long excludes nobody: the block around it
admits the host. -/
theorem malformed_exclusion_admits :
    Malformed "10.0.0.0/8,!10.0.0.0/33" ∧
      sourceAddressPermits "10.0.0.0/8,!10.0.0.0/33" (.v4 0x0a000001) = true ∧
      ¬ FailsClosed "10.0.0.0/8,!10.0.0.0/33" (.v4 0x0a000001) := by
  have malformed : Malformed "10.0.0.0/8,!10.0.0.0/33" := by decide +kernel
  have admitted : sourceAddressPermits "10.0.0.0/8,!10.0.0.0/33" (.v4 0x0a000001) = true := by decide +kernel
  refine ⟨malformed, admitted, ?_⟩
  intro closed
  cases (closed malformed).symm.trans admitted

section Membership

/-- The blocks that a list spells, each with whether it is negated. A malformed entry spells
none. -/
def blocks (list : String) : List (Bool × Block) :=
  (entries list).filterMap fun entry => (parseBlock entry.2).map fun block => (entry.1, block)

/-- The address is of the block's family and agrees with it on the leading bits, the first
of them the most significant. -/
def Block.Agrees (block : Block) : IpAddr → Prop
  | .v4 peer => ∃ net, block.network = .v4 net ∧ ∀ index < block.bits, net.getMsbD index = peer.getMsbD index
  | .v6 peer => ∃ net, block.network = .v6 net ∧ ∀ index < block.bits, net.getMsbD index = peer.getMsbD index

/-- The mask as the source computes it, with the checks that its arithmetic makes: the
difference must not fall below zero, and the shift must stay below the width. -/
def checkedMask (width bits : Nat) : Option (BitVec width) :=
  if bits = 0 then some 0
  else if bits ≤ width ∧ width - bits < width then some (BitVec.allOnes width <<< (width - bits))
  else none

/-- Masked words are equal when their leading bits are. -/
theorem masked_agree_iff {width} (bits : Nat) (fits : bits ≤ width) (left right : BitVec width) :
    left &&& mask width bits = right &&& mask width bits ↔
    ∀ index < bits, left.getMsbD index = right.getMsbD index := by
  constructor
  · intro same index leading
    have agree := congrArg (BitVec.getLsbD · (width - 1 - index)) same
    simp only [BitVec.getLsbD_and, mask_bit _ _ _ fits] at agree
    have inside : width - bits ≤ width - 1 - index ∧ width - 1 - index < width := by omega
    rw [BitVec.getMsbD_eq_getLsbD, BitVec.getMsbD_eq_getLsbD]
    simpa [inside] using congrArg (decide (index < width) && ·) agree
  · intro agree
    apply BitVec.eq_of_getLsbD_eq
    intro index within
    rw [BitVec.getLsbD_and, BitVec.getLsbD_and, mask_bit _ _ _ fits]
    by_cases leading : width - bits ≤ index
    · have same := agree (width - 1 - index) (by omega)
      rw [BitVec.getMsbD_eq_getLsbD, BitVec.getMsbD_eq_getLsbD,
        show width - 1 - (width - 1 - index) = index by omega] at same
      simpa [show width - 1 - index < width by omega] using congrArg (· && decide
        (width - bits ≤ index ∧ index < width)) same
    · simp [leading]

theorem contains_iff_agrees {block : Block} (fits : block.bits ≤ block.network.width) (address : IpAddr) :
    block.Contains address ↔ block.Agrees address := by
  obtain ⟨network, bits⟩ := block
  cases address with
  | v4 peer | v6 peer =>
    refine exists_congr fun net => and_congr_right ?_
    rintro rfl
    exact (masked_eq_iff bits fits net peer).symm.trans (masked_agree_iff bits fits net peer)

/-- An entry's prefix length is at most the width of its family. -/
theorem parse_block_fits {spec} {block : Block} (spelled : parseBlock spec = some block) :
    block.bits ≤ block.network.width := by
  unfold parseBlock at spelled
  split at spelled
  · cases spelled
  · obtain ⟨bits, read, rfl⟩ := Option.map_eq_some_iff.mp spelled
    exact prefix_bits_le read

theorem matches_iff_blocks (list : String) (negated : Bool) (address : IpAddr) :
    Matches (entries list) negated address ↔ ∃ block, (negated, block) ∈ blocks list ∧ block.Agrees address := by
  unfold Matches blocks
  constructor
  · rintro ⟨spec, member, block, spelled, inside⟩
    refine ⟨block, List.mem_filterMap.mpr ⟨_, member, ?_⟩, (contains_iff_agrees (parse_block_fits spelled) _).mp inside⟩
    exact Option.map_eq_some_iff.mpr ⟨block, spelled, rfl⟩
  · rintro ⟨block, member, agrees⟩
    obtain ⟨⟨_, spec⟩, entry, read⟩ := List.mem_filterMap.mp member
    obtain ⟨found, spelled, same⟩ := Option.map_eq_some_iff.mp read
    obtain ⟨rfl, rfl⟩ := Prod.mk.inj same
    exact ⟨spec, entry, found, spelled, (contains_iff_agrees (parse_block_fits spelled) _).mpr agrees⟩

/-- **Source-address matching is CIDR membership.** A list admits an address exactly when the
address, folded to IPv4 if it is a mapped one, agrees on the leading bits with some positive
block of its family and with no negated one. Lists of the same entries in any order admit the
same addresses, every entry of a well-formed list spells a block, and no prefix length makes
the shift overflow. -/
theorem source_address_membership :
    (∀ (list : String) (address : IpAddr), sourceAddressPermits list address = true ↔
      (∃ block, (false, block) ∈ blocks list ∧ block.Agrees address.toCanonical) ∧
        ∀ block, (true, block) ∈ blocks list → ¬ block.Agrees address.toCanonical) ∧
    (∀ (list other : String) (address : IpAddr), (entries list).Perm (entries other) →
      sourceAddressPermits list address = sourceAddressPermits other address) ∧
    (∀ list : String, ¬ Malformed list → (blocks list).length = (entries list).length) ∧
    ∀ (spec : List Char) (block : Block), parseBlock spec = some block →
      checkedMask block.network.width block.bits = some (mask block.network.width block.bits) := by
  have membership (list : String) (address : IpAddr) : sourceAddressPermits list address = true ↔
      (∃ block, (false, block) ∈ blocks list ∧ block.Agrees address.toCanonical) ∧
        ∀ block, (true, block) ∈ blocks list → ¬ block.Agrees address.toCanonical := by
    rw [source_address_permits_iff, matches_iff_blocks, matches_iff_blocks]
    simp only [not_exists, not_and]
  refine ⟨membership, ?_, ?_, ?_⟩
  · intro list other address same
    have spelled (entry : Bool × Block) : entry ∈ blocks list ↔ entry ∈ blocks other :=
      (same.filterMap _).mem_iff
    rw [Bool.eq_iff_iff, membership, membership]
    simp only [spelled]
  · intro list wellFormed
    refine List.filterMap_length_eq_length.mpr fun entry member => ?_
    rw [Option.isSome_map, ← Option.ne_none_iff_isSome]
    exact fun missing => wellFormed ⟨entry, member, missing⟩
  · intro spec block spelled
    have fits := parse_block_fits spelled
    unfold checkedMask mask
    split
    · rfl
    · rw [if_pos (by omega)]

end Membership

end SourceAddress

end Shh
