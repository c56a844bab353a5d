import Shh.KnownHosts

/-!
# Destinations among the known hosts

An agent's key can be restricted to destinations. The keys that a destination may have are taken
from the known hosts file, by two readers that look for the bare name of a host: a name is cut
out of the pattern of a line, and compared as it stands or with wildcards. The client itself
looks for the whole label.

The readers agree on every label whose bare name is the host's own. A colon or a bracket in
the name of a host, as in the literal of an IPv6 address, is taken for the start of a port.
-/

namespace Shh

open List Wire Texts

variable {prim : Primitives}

section Readers

/-- What comes before the last colon, if there is one. -/
def beforePort (pattern : List Char) : List Char :=
  if ':' ∈ pattern then (pattern.rdropWhile (· ≠ ':')).dropLast else pattern

/-- The bare name of a host: without the brackets and the port after them, or without the port
after the last colon. -/
def labelHost (pattern : List Char) : List Char :=
  match pattern with
  | '[' :: inner =>
    match splitOnce (· == ']') inner with
    | some (host, _) => host
    | none => beforePort pattern
  | _ => beforePort pattern

/-- Every key recorded for a host, by its bare name. -/
def knownHostsKeysFor (text host : List Char) : List (PublicKey prim) :=
  (lines text).filterMap (lineKeyBy fun pattern => labelHost pattern == host)

/-- The loop over a pattern and a host name, as what is left of both, with the rest of the pattern
after the last star and the rest of the name that matching resumed from there. -/
def matchLoop (pattern host : Bytes) (star : Option (Bytes × Bytes)) : Bool :=
  match host with
  | [] => pattern.all (· == 42)
  | byte :: later =>
    if pattern.head? = some 63 ∨ pattern.head? = some byte then matchLoop pattern.tail later star
    else if pattern.head? = some 42 then matchLoop pattern.tail (byte :: later) (some (pattern.tail, byte :: later))
    else
      match star with
      | some (after, _ :: resumed) => matchLoop after resumed (some (after, resumed))
      | _ => false
termination_by
  (star.elim (host.length + 1) fun retry => max retry.2.length host.length, host.length, pattern.length)
decreasing_by
  · cases star <;> simp only [Prod.lex_def, Option.elim, List.length_cons, List.length_tail] <;> omega
  · rename_i starred
    have shorter : pattern.tail.length < pattern.length := by
      cases pattern with
      | nil => cases starred
      | cons first rest => exact Nat.lt_succ_self _
    cases star <;> simp only [Prod.lex_def, Option.elim, List.length_cons, true_and] <;> omega
  · simp only [Prod.lex_def, Option.elim, List.length_cons]
    omega

/-- A pattern matches a host name, with `*` for any bytes and `?` for one, after its port is
taken off. -/
def hostPatternMatches (pattern host : List Char) : Bool := matchLoop (encode (labelHost pattern)) (encode host) none

def certAuthority : List Char := "@cert-authority".toList

/-- What a line has for a destination: a key recorded for the host, or the key of an authority for
the host. Other marked lines have nothing. -/
def constraintKey (host line : List Char) : Option (PublicKey prim × Bool) :=
  let line := trim whitespace line
  if line = [] ∨ line.head? = some '#' then none
  else if certAuthority <+: line then
    match splitOnce whitespace ((line.drop certAuthority.length).dropWhile whitespace) with
    | none => none
    | some (patterns, material) =>
      if (patterns.splitOn ',').any (hostPatternMatches · host) then
        (decodePublic (material.dropWhile whitespace)).toOption.map fun found => (found.1, true)
      else none
  else if line.head? = some '@' then none
  else
    match splitOnce whitespace line with
    | none => none
    | some (hosts, rest) =>
      if (hosts.splitOn ',').any (hostPatternMatches · host) then
        (decodePublic (rest.dropWhile whitespace)).toOption.map fun found => (found.1, false)
      else none

/-- The keys that a destination may have, each with whether it is an authority's. -/
def knownHostsConstraintKeys (text host : List Char) : List (PublicKey prim × Bool) :=
  (lines text).filterMap (constraintKey host)

end Readers

section Agreement

variable {line label : List Char} {key : PublicKey prim}

/-- A name matches itself: every byte of the pattern is the next one of the name. -/
theorem match_loop_self (name : Bytes) (star : Option (Bytes × Bytes)) : matchLoop name name star = true := by
  induction name with
  | nil =>
    rw [matchLoop]
    rfl
  | cons first rest ih =>
    unfold matchLoop
    rw [if_pos (.inr rfl)]
    exact ih

/-- An unmarked line that has a key for the host has it for the destination. -/
theorem constraint_key_plain {host}
    (has : lineKeyBy (hostPatternMatches · host) line = some key) : constraintKey host line = some (key, false) := by
  unfold lineKeyBy at has
  unfold constraintKey
  generalize trim whitespace line = core at has ⊢
  dsimp only at has ⊢
  split at has
  · cases has
  · rename_i unmarked
    have noAuthority : ¬ certAuthority <+: core := by
      rintro ⟨rest, rfl⟩
      exact unmarked (.inr (.inr rfl))
    rw [if_neg (fun marked => unmarked (marked.imp_right .inl)), if_neg noAuthority,
      if_neg fun marked => unmarked (.inr (.inr marked))]
    generalize splitOnce whitespace core = parts at has ⊢
    cases parts with
    | none => cases has
    | some parts =>
      obtain ⟨hosts, rest⟩ := parts
      dsimp only at has ⊢
      split at has
      · rename_i listed
        obtain ⟨found, decoded, rfl⟩ := Option.map_eq_some_iff.mp has
        rw [if_pos listed, decoded]
        rfl
      · cases has

/-- Cutting off a port changes every name with a colon. -/
theorem before_port_eq (pattern : List Char) : beforePort pattern = pattern ↔ ':' ∉ pattern := by
  unfold beforePort
  split
  · rename_i colon
    refine iff_of_false ?_ (not_not_intro colon)
    intro same
    have start := rdropWhile_prefix (· ≠ ':') pattern
    have shorter : (pattern.rdropWhile (· ≠ ':')).length ≤ pattern.length := start.length_le
    have nonempty : pattern.rdropWhile (· ≠ ':') ≠ [] := by
      intro empty
      simpa using rdropWhile_eq_nil_iff.mp empty ':' colon
    have size := congrArg List.length same
    rw [length_dropLast] at size
    have positive := length_pos_of_ne_nil nonempty
    omega
  · rename_i plain
    exact iff_of_true rfl plain

/-- A name in brackets, with anything after them. -/
def Bracketed (name : List Char) : Prop := ∃ inner, name = '[' :: inner ∧ ']' ∈ inner

/-- A name is its own bare name when it has neither brackets nor a colon. -/
theorem label_host_self (name : List Char) : labelHost name = name ↔ ':' ∉ name ∧ ¬ Bracketed name := by
  unfold labelHost
  split
  · rename_i inner
    cases cut : splitOnce (· == ']') inner with
    | none =>
      have open_ : ¬ Bracketed ('[' :: inner) := by
        rintro ⟨other, same, closes⟩
        obtain ⟨-, rfl⟩ := List.cons.inj same
        exact absurd (split_once_none cut _ closes) (by decide)
      simp only [before_port_eq, open_, not_false_eq_true, and_true]
    | some parts =>
      obtain ⟨host, rest⟩ := parts
      obtain ⟨-, close, closes, rfl⟩ := split_once_some cut
      obtain rfl := beq_iff_eq.mp closes
      have bracketed : Bracketed ('[' :: (host ++ ']' :: rest)) := ⟨_, rfl, by simp⟩
      refine iff_of_false ?_ fun kept => kept.2 bracketed
      intro same
      have size := congrArg List.length same
      simp only [length_cons, length_append] at size
      omega
  · rename_i unbracketed
    have open_ : ¬ Bracketed name := by
      rintro ⟨inner, rfl, -⟩
      exact unbracketed inner rfl
    simp only [before_port_eq, open_, not_false_eq_true, and_true]

/-- A name in brackets of its own is cut at its first closing one. -/
theorem label_host_bracketed (name port : List Char) :
    labelHost ('[' :: (name ++ ']' :: port)) = name ↔ ']' ∉ name := by
  cases cut : splitOnce (· == ']') (name ++ ']' :: port) with
  | none => exact absurd (split_once_none cut ']' (by simp)) (by decide)
  | some parts =>
    obtain ⟨host, rest⟩ := parts
    have bare : labelHost ('[' :: (name ++ ']' :: port)) = host := by simp only [labelHost, cut]
    rw [bare]
    constructor
    · rintro rfl closes
      exact absurd ((split_once_some cut).1 ']' closes) (by decide)
    · intro closed
      rw [split_once_clean (clean_iff_not_mem.mpr closed) (by decide)] at cut
      exact (Prod.mk.inj (Option.some.inj cut)).1.symm

/-- The bare name of a host's label is the host. -/
def KeepsName (host : String) (port : Nat) : Prop :=
  if port = 22 then ':' ∉ host.toList ∧ ¬ Bracketed host.toList else ']' ∉ host.toList

theorem host_label_kept (host : String) (port : Nat) :
    labelHost (hostLabel host port).toList = host.toList ↔ KeepsName host port := by
  unfold hostLabel KeepsName
  split
  · exact label_host_self _
  · have parts : (s!"[{host}]:{port}").toList = '[' :: (host.toList ++ ']' :: (':' :: Nat.toDigits 10 port)) := by
      simp [toString]
    rw [parts]
    exact label_host_bracketed _ _

/-- A name that no line can have: a line's names are words between commas. -/
def Unwritable (name : List Char) : Prop := ∃ c ∈ name, whitespace c = true ∨ c = ','

theorem host_label_unwritable (host : String) (port : Nat) :
    Unwritable (hostLabel host port).toList ↔ Unwritable host.toList := by
  unfold hostLabel
  split
  · exact Iff.rfl
  · have parts : (s!"[{host}]:{port}").toList = '[' :: (host.toList ++ ']' :: (':' :: Nat.toDigits 10 port)) := by
      simp [toString]
    have digits : ¬ Unwritable (Nat.toDigits 10 port) := by
      rintro ⟨c, member, space | rfl⟩
      · rw [digits_clean port c member] at space
        cases space
      · exact absurd (digit_range member) (by decide)
    have brackets : ¬ Unwritable ['[', ']', ':'] := by
      rintro ⟨c, member, bad_⟩
      fin_cases member <;> revert bad_ <;> decide
    rw [parts]
    constructor
    · rintro ⟨c, member, found⟩
      simp only [mem_cons, mem_append] at member
      rcases member with rfl | inside | rfl | rfl | port_
      · exact absurd ⟨_, by simp, found⟩ brackets
      · exact ⟨c, inside, found⟩
      · exact absurd ⟨_, by simp, found⟩ brackets
      · exact absurd ⟨_, by simp, found⟩ brackets
      · exact absurd ⟨c, port_, found⟩ digits
    · rintro ⟨c, member, found⟩
      exact ⟨c, by simp [member], found⟩

/-- A line's names can be written. -/
theorem listed_writable (has : lineKey label line = some key) :
    ¬ Unwritable label := by
  obtain ⟨hosts, comment, words_, -, -, listed⟩ := line_key_ok.mp has
  have clean : Clean whitespace hosts := words_member_clean (words_ ▸ mem_cons_self)
  rw [splitOn_eq_splitOnP] at listed
  obtain ⟨single, inside⟩ := pieces_clean listed
  rintro ⟨c, member, space | rfl⟩
  · rw [clean c (inside c member)] at space
    cases space
  · exact absurd (single _ member) (by decide)

/-- The client and the two readers of destinations agree on a host: a key that the client has
recorded for it is among the keys of the host, and one of the keys that the destination may
have. -/
def Agree (prim : Primitives) (host : String) (port : Nat) : Prop :=
  ∀ (text : List Char) (key : PublicKey prim), knownHostsLookup text (hostLabel host port).toList = some key →
    key ∈ (knownHostsKeysFor text host.toList : List (PublicKey prim)) ∧
      (key, false) ∈ knownHostsConstraintKeys text host.toList

/-- A line with the label has its key for every reader that accepts the label. -/
theorem line_key_accepted {accepts : List Char → Bool}
    (has : lineKey label line = some key) (accepted : accepts label = true) : lineKeyBy accepts line = some key := by
  obtain ⟨hosts, comment, words_, plain, unmarked, listed⟩ := line_key_ok.mp has
  exact line_key_by_ok.mpr ⟨hosts, comment, words_, plain, unmarked, any_eq_true.mpr ⟨label, listed, accepted⟩⟩

/-- Readers agree on a label whose bare name is the host. -/
theorem agree_of_name {host : String} {port} (kept : labelHost (hostLabel host port).toList = host.toList) :
    Agree prim host port := by
  intro text key found
  obtain ⟨line, member, has⟩ := exists_of_findSome?_eq_some found
  constructor
  · exact mem_filterMap.mpr ⟨line, member, line_key_accepted has (by simp [kept])⟩
  · refine mem_filterMap.mpr ⟨line, member, constraint_key_plain (line_key_accepted has ?_)⟩
    rw [hostPatternMatches, kept]
    exact match_loop_self _ _

/-- A line for a label, behind an empty name. -/
def labelLine (label : List Char) (key : PublicKey prim) : List Char :=
  ',' :: label ++ ' ' :: (algo.toList ++ ' ' :: base64 key.toBlob)

theorem label_line_keys (writable : ¬ Unwritable label) (key : PublicKey prim) :
    lines (labelLine label key) = [labelLine label key] ∧
      words whitespace (labelLine label key) = [',' :: label, algo.toList, base64 key.toBlob] ∧
      (',' :: label).splitOn ',' = [[], label] := by
  have clean : Clean whitespace (',' :: label) := by
    refine forall_mem_cons.mpr ⟨by decide, fun c member => ?_⟩
    by_contra space
    exact writable ⟨c, member, .inl (by simpa using space)⟩
  have single : Clean (· == ',') label := clean_iff_not_mem.mpr fun member => writable ⟨_, member, .inr rfl⟩
  refine ⟨?_, ?_, ?_⟩
  · have whole := line_clean clean key
    rw [lines, splitOn_eq_splitOnP]
    exact splitOnP_eq_singleton whole
  · have words_ := @recorded_words _ _ key clean (by simp) []
    exact words_
  · rw [splitOn_eq_splitOnP, splitOnP_cons_eq_if_modifyHead, if_pos (by decide)]
    exact congrArg _ (splitOnP_eq_singleton single)

/-- **Destination pins know every host the client knows**, exactly for a host whose bare name is
kept by its label, or that no line can name: on the default port a name without a colon that
is not in brackets, on another port one without a closing bracket. -/
theorem destination_pins_iff (prim : Primitives) (host : String) (port : Nat) :
    Agree prim host port ↔ Unwritable host.toList ∨ KeepsName host port := by
  rw [← host_label_unwritable host port, ← host_label_kept]
  constructor
  · intro agree
    by_contra neither
    obtain ⟨writable, changed⟩ := not_or.mp neither
    have key : PublicKey prim := (⟨List.replicate 32 0, rfl⟩ : PrivateKey).publicKey
    obtain ⟨alone, words_, names⟩ := label_line_keys writable key
    have listed : Lists (',' :: (hostLabel host port).toList) (hostLabel host port).toList :=
      ⟨by simp, by simp, by rw [names]; simp⟩
    have found : knownHostsLookup (labelLine (hostLabel host port).toList key)
      (hostLabel host port).toList = some key := by
      rw [knownHostsLookup, alone, List.findSome?_cons, line_key_ok.mpr ⟨_, [], words_, listed⟩]
    obtain ⟨line, member, has⟩ := mem_filterMap.mp (agree _ _ found).1
    rw [alone, mem_singleton] at member
    subst member
    -- The only other name on the line is empty, and an empty host would have kept its name.
    obtain ⟨hosts, comment, words', -, -, accepted⟩ := line_key_by_ok.mp has
    obtain ⟨rfl, -⟩ := List.cons.inj (words_.symm.trans words')
    rw [names] at accepted
    simp only [any_cons, any_nil, Bool.or_false, Bool.or_eq_true, beq_iff_eq] at accepted
    rcases accepted with blank | same
    · obtain rfl : host = "" := String.toList_inj.mp blank.symm
      refine changed ((host_label_kept "" port).mpr ?_)
      unfold KeepsName
      split
      · simp [Bracketed]
      · simp
    · exact changed same
  · rintro (unwritable | kept)
    · intro text key found
      obtain ⟨line, -, has⟩ := exists_of_findSome?_eq_some found
      exact absurd unwritable (listed_writable has)
    · exact agree_of_name kept

/-- The file that records the host `::1` on the default port. -/
def loopbackFile : List Char := knownHostsLine (hostLabel "::1" 22).toList (sampleKey 1)

/-- The client finds the key of `::1`, and the destination `::1` has none. -/
theorem loopback_unpinned :
    knownHostsLookup loopbackFile (hostLabel "::1" 22).toList = some (sampleKey 1) ∧
      (knownHostsKeysFor loopbackFile "::1".toList : List (PublicKey .transparent)) = [] := by
  constructor <;> decide +kernel

end Agreement

end Shh
