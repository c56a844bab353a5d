import Mathlib

/-!
# Words and lines of a text

A text is cut at separators: into lines at every separator, and into words at runs of
them. Much is known about texts that are put together of whole lines and words. The lemmas
here say what happens to the line and the word that a text leaves unfinished when more is
appended to it, and that cutting into lines commutes with UTF-8.
-/

namespace Texts

open List

variable {α : Type*} (sep : α → Bool)

variable {a : α} {word text : List α}

/-- What is between the separators at the start and at the end. -/
def trim (text : List α) : List α := (text.dropWhile sep).rdropWhile sep

/-- What comes before the first separator, and after it. -/
def splitOnce (text : List α) : Option (List α × List α) :=
  match text.dropWhile (fun a => !sep a) with
  | [] => none
  | _ :: rest => some (text.takeWhile (fun a => !sep a), rest)

/-- The characters with the Unicode property White_Space. -/
def whitespace (c : Char) : Bool :=
  let code := c.toNat
  (9 ≤ code && code ≤ 13) || code == 0x20 || code == 0x85 || code == 0xA0 || code == 0x1680 ||
    (0x2000 ≤ code && code ≤ 0x200A) || code == 0x2028 || code == 0x2029 || code == 0x202F || code == 0x205F ||
    code == 0x3000

/-- The maximal runs without a separator. -/
def words (text : List α) : List (List α) := (text.splitOnP sep).filter fun word => !word.isEmpty

/-- The word at the end that no separator follows, which may be empty. -/
def started (text : List α) : List α := text.rtakeWhile fun a => !sep a

/-- The words that a separator follows. -/
def finished (text : List α) : List (List α) := words sep (text.rdropWhile fun a => !sep a)

variable {sep}

/-- No separator occurs. -/
def Clean (sep : α → Bool) (word : List α) : Prop := ∀ a ∈ word, sep a = false

instance (word : List α) : Decidable (Clean sep word) := inferInstanceAs (Decidable (∀ a ∈ word, sep a = false))

theorem Clean.append {left right : List α} (first : Clean sep left) (second : Clean sep right) :
    Clean sep (left ++ right) := by
  intro a member
  rcases mem_append.mp member with before | after
  · exact first a before
  · exact second a after

theorem started_clean (text : List α) : Clean sep (started sep text) := by
  intro a member
  simpa using mem_rtakeWhile_imp member

@[simp] theorem words_nil : words sep ([] : List α) = [] := rfl

theorem words_separated (separates : sep a = true) (left right : List α) :
    words sep (left ++ a :: right) = words sep left ++ words sep right := by
  rw [words, splitOnP_append_cons left right separates, filter_append]
  rfl

theorem words_cons (separates : sep a = true) (text : List α) : words sep (a :: text) = words sep text :=
  words_separated separates [] text

theorem words_concat (separates : sep a = true) (text : List α) :
    words sep (text ++ [a]) = words sep text := by
  rw [words_separated separates, words_nil, append_nil]

theorem words_clean (clean : Clean sep word) :
    words sep word = if word = [] then [] else [word] := by
  rw [words, splitOnP_eq_singleton clean]
  cases word <;> rfl

theorem words_drop_start (text : List α) : words sep (text.dropWhile sep) = words sep text := by
  induction text with
  | nil => rfl
  | cons a rest ih =>
    by_cases separates : sep a = true
    · rw [dropWhile_cons_of_pos separates, ih, words_cons separates]
    · rw [dropWhile_cons_of_neg separates]

theorem words_drop_end (text : List α) : words sep (text.rdropWhile sep) = words sep text := by
  induction text using List.reverseRecOn with
  | nil => rfl
  | append_singleton rest a ih =>
    by_cases separates : sep a = true
    · rw [rdropWhile_concat_pos _ _ _ separates, ih, words_concat separates]
    · rw [rdropWhile_concat_neg _ _ _ separates]

/-- Trimming changes no word. -/
theorem words_trim (text : List α) : words sep (trim sep text) = words sep text := by
  rw [trim, words_drop_end, words_drop_start]

/-- A trimmed text starts with a word, or is empty. -/
theorem trim_starts {rest} (trimmed : trim sep text = a :: rest) : sep a = false := by
  cases dropped : text.dropWhile sep with
  | nil =>
    rw [trim, dropped] at trimmed
    exact absurd trimmed (by simp)
  | cons first others =>
    have kept : (a :: rest) <+: first :: others := by
      rw [← trimmed, trim, dropped]
      exact rdropWhile_prefix _ _
    obtain ⟨rfl, _⟩ := cons_prefix_cons.mp kept
    have nonempty : text.dropWhile sep ≠ [] := by rw [dropped]; exact cons_ne_nil _ _
    have first_ := head_dropWhile_not sep nonempty
    simpa only [dropped, head_cons] using first_

theorem split_once_some {before after} (split : splitOnce sep text = some (before, after)) :
    Clean sep before ∧ ∃ a, sep a = true ∧ text = before ++ a :: after := by
  unfold splitOnce at split
  split at split
  · cases split
  · rename_i a rest dropped
    cases split
    refine ⟨fun b member => by simpa using mem_takeWhile_imp member, a, ?_, ?_⟩
    · have nonempty : text.dropWhile (fun a => !sep a) ≠ [] := by rw [dropped]; exact cons_ne_nil _ _
      have first := head_dropWhile_not (fun a => !sep a) nonempty
      simpa only [dropped, head_cons, Bool.not_eq_false'] using first
    · rw [← dropped, takeWhile_append_dropWhile]

theorem split_once_none (split : splitOnce sep text = none) : Clean sep text := by
  unfold splitOnce at split
  split at split
  · rename_i dropped
    intro a member
    simpa using dropWhile_eq_nil_iff.mp dropped a member
  · cases split

/-- What a text is made of: nothing or something that ends with a separator, and its
unfinished word. -/
theorem started_cases (text : List α) :
    (text = started sep text ∧ finished sep text = []) ∨
      ∃ whole a, sep a = true ∧ text = whole ++ a :: started sep text ∧ finished sep text = words sep whole := by
  have parts : text.rdropWhile (fun a => !sep a) ++ started sep text = text := rdropWhile_append_rtakeWhile
  rcases eq_nil_or_concat' (text.rdropWhile fun a => !sep a) with none_ | ⟨whole, a, ends⟩
  · left
    rw [none_, nil_append] at parts
    exact ⟨parts.symm, by rw [finished, none_, words_nil]⟩
  · right
    have nonempty : text.rdropWhile (fun a => !sep a) ≠ [] := by simp [ends]
    have separates : sep a = true := by
      have last := rdropWhile_last_not (fun a => !sep a) text nonempty
      simpa [ends] using last
    refine ⟨whole, a, separates, ?_, by rw [finished, ends, words_concat separates]⟩
    rw [ends, append_assoc] at parts
    exact parts.symm

/-- The words of a text are the finished ones and the one it leaves unfinished. -/
theorem words_eq (text : List α) :
    words sep text = finished sep text ++ if started sep text = [] then [] else [started sep text] := by
  have clean : Clean sep (started sep text) := started_clean text
  rcases @started_cases _ sep text with ⟨whole, none_⟩ | ⟨whole, a, separates, parts, done⟩
  · rw [none_, nil_append, ← words_clean clean, ← whole]
  · rw [done, ← words_clean clean, ← words_separated separates, ← parts]

/-- A word that is appended to a text ends its unfinished one. -/
theorem words_append {rest} (clean : Clean sep word) (nonempty : word ≠ [])
    (separates : sep a = true) (text : List α) :
    words sep (text ++ word ++ a :: rest) = finished sep text ++ (started sep text ++ word) :: words sep rest := by
  have joined : words sep (started sep text ++ word) = [started sep text ++ word] := by
    rw [words_clean ((started_clean text).append clean), if_neg (by simp [nonempty])]
  rw [words_separated separates]
  rcases @started_cases _ sep text with ⟨whole, none_⟩ | ⟨whole, b, ends, parts, done⟩
  · rw [none_, nil_append, ← singleton_append, ← joined, ← whole]
  · have cut : text ++ word = whole ++ b :: (started sep text ++ word) := by
      nth_rewrite 1 [parts]
      simp
    rw [cut, words_separated ends, joined, done, append_assoc, singleton_append]

/-- A text that goes on with more of its last line, and ends it, has the same lines before. -/
theorem lines_append (text : List α) : ∃ before, text.splitOnP sep = before ++ [started sep text] ∧
    ∀ more a, Clean sep more → sep a = true →
      (text ++ more ++ [a]).splitOnP sep = before ++ [started sep text ++ more, []] := by
  have single {word : List α} (clean : Clean sep word) : word.splitOnP sep = [word] := splitOnP_eq_singleton clean
  have ended {word : List α} {a} (clean : Clean sep word) (separates : sep a = true) :
      (word ++ [a]).splitOnP sep = [word, []] := by
    rw [splitOnP_append_cons _ _ separates, single clean]
    rfl
  have clean : Clean sep (started sep text) := started_clean text
  rcases @started_cases _ sep text with ⟨whole, _⟩ | ⟨whole, b, ends, parts, _⟩
  · refine ⟨[], ?_, ?_⟩
    · nth_rewrite 1 [whole]
      exact single clean
    · intro more a fresh separates
      nth_rewrite 1 [whole]
      exact ended (clean.append fresh) separates
  · refine ⟨whole.splitOnP sep, ?_, ?_⟩
    · nth_rewrite 1 [parts]
      rw [splitOnP_append_cons _ _ ends, single clean]
    · intro more a fresh separates
      have cut : text ++ more ++ [a] = whole ++ b :: (started sep text ++ more ++ [a]) := by
        nth_rewrite 1 [parts]
        simp
      rw [cut, splitOnP_append_cons _ _ ends, ended (clean.append fresh) separates]

/-- What has no line end goes to the front of the first line. -/
theorem lines_front {front : List α} (clean : Clean sep front) (text : List α) :
    (front ++ text).splitOnP sep = (text.splitOnP sep).modifyHead (front ++ ·) := by
  induction front with
  | nil =>
    rw [nil_append]
    cases text.splitOnP sep <;> rfl
  | cons a front ih =>
    have first := clean a mem_cons_self
    have others := ih fun b member => clean b (mem_cons_of_mem _ member)
    rw [cons_append, splitOnP_cons_eq_if_modifyHead, if_neg (by simp [first]), others,
      modifyHead_modifyHead]
    rfl

/-- A piece between separators has none, and is part of the text. -/
theorem pieces_clean {piece} (member : piece ∈ text.splitOnP sep) :
    Clean sep piece ∧ ∀ a ∈ piece, a ∈ text := by
  induction text generalizing piece with
  | nil =>
    rw [splitOnP_nil, mem_singleton] at member
    subst member
    exact ⟨by simp [Clean], by simp⟩
  | cons first rest ih =>
    rw [splitOnP_cons_eq_if_modifyHead] at member
    split at member
    · rcases mem_cons.mp member with rfl | later
      · exact ⟨by simp [Clean], by simp⟩
      · obtain ⟨clean, inside⟩ := ih later
        exact ⟨clean, fun a found => mem_cons_of_mem _ (inside a found)⟩
    · rename_i other
      -- The first character goes to the front of the first piece.
      cases pieces : rest.splitOnP sep with
      | nil => exact absurd pieces (splitOnP_ne_nil _ _)
      | cons head tail =>
        rw [pieces, modifyHead_cons] at member
        rcases mem_cons.mp member with rfl | later
        · obtain ⟨clean, inside⟩ := ih (pieces ▸ mem_cons_self)
          refine ⟨forall_mem_cons.mpr ⟨by simpa using other, clean⟩, ?_⟩
          exact forall_mem_cons.mpr ⟨mem_cons_self, fun a found => mem_cons_of_mem _ (inside a found)⟩
        · obtain ⟨clean, inside⟩ := ih (pieces ▸ mem_cons_of_mem _ later)
          exact ⟨clean, fun a found => mem_cons_of_mem _ (inside a found)⟩

/-- A word has no separator. -/
theorem words_member_clean (member : word ∈ words sep text) : Clean sep word :=
  (pieces_clean (mem_filter.mp member).1).1

/-- What comes before the first separator is cut off at it. -/
theorem split_once_clean {before after : List α} (clean : Clean sep before) (separates : sep a = true) :
    splitOnce sep (before ++ a :: after) = some (before, after) := by
  have passed : ∀ b ∈ before, (!sep b) = true := fun b member => by simp [clean b member]
  unfold splitOnce
  rw [dropWhile_append_of_pos passed, takeWhile_append_of_pos passed]
  simp [separates]

/-- Lines that are put together with their ends are the lines of the text. -/
theorem lines_join {pieces : List (List α)} (separates : sep a = true) (clean : ∀ piece ∈ pieces, Clean sep piece) :
    (pieces.flatMap (· ++ [a])).splitOnP sep = pieces ++ [[]] := by
  induction pieces with
  | nil => rfl
  | cons piece pieces ih =>
    obtain ⟨first, others⟩ := forall_mem_cons.mp clean
    rw [flatMap_cons, append_assoc, singleton_append, splitOnP_append_cons _ _ separates,
      splitOnP_eq_singleton first, ih others]
    rfl

theorem trim_clean (clean : Clean sep word) : trim sep word = word := by
  have start : word.dropWhile sep = word := by
    cases word with
    | nil => rfl
    | cons first rest => exact dropWhile_cons_of_neg (by simp [clean first mem_cons_self])
  rw [trim, start]
  refine rdropWhile_eq_self_iff.mpr fun nonempty ends => ?_
  rw [clean _ (getLast_mem nonempty)] at ends
  cases ends

/-- No separator occurs that is a given character. -/
theorem clean_iff_not_mem {word : List Char} {c : Char} : Clean (· == c) word ↔ c ∉ word := by
  constructor
  · intro clean member
    exact absurd (clean c member) (by simp)
  · intro absent other member
    refine beq_false_of_ne ?_
    rintro rfl
    exact absent member

section Encodings

/-- The bytes of a text. -/
def encode (text : List Char) : List UInt8 := text.flatMap String.utf8EncodeChar

/-- Beyond ASCII no byte is that of an ASCII character. -/
theorem encode_char_high {c : Char} (beyond : 127 < c.val.toNat) :
    ∀ byte ∈ String.utf8EncodeChar c, 128 ≤ byte.toNat := by
  have high (value : Nat) (low : 128 ≤ value) (small : value < 256) : 128 ≤ (UInt8.ofNat value).toNat := by
    rw [UInt8.toNat_ofNat', Nat.mod_eq_of_lt small]
    exact low
  intro byte member
  unfold String.utf8EncodeChar at member
  simp only [if_neg (Nat.not_le.mpr beyond)] at member
  split at member
  · simp only [mem_cons, not_mem_nil, or_false] at member
    rcases member with rfl | rfl <;> exact high _ (by omega) (by omega)
  · split at member
    · simp only [mem_cons, not_mem_nil, or_false] at member
      rcases member with rfl | rfl | rfl <;> exact high _ (by omega) (by omega)
    · simp only [mem_cons, not_mem_nil, or_false] at member
      rcases member with rfl | rfl | rfl | rfl <;> exact high _ (by omega) (by omega)

/-- The byte of a line end is found only where the character is one. -/
theorem encode_char_clean {c} (other : c ≠ '\n') :
    Clean (fun byte : UInt8 => byte == 10) (String.utf8EncodeChar c) := by
  intro byte member
  by_cases ascii : c.val.toNat ≤ 127
  · unfold String.utf8EncodeChar at member
    simp only [if_pos ascii, mem_singleton] at member
    subst member
    refine beq_false_of_ne fun same => other ?_
    have value := congrArg UInt8.toNat same
    rw [UInt8.toNat_ofNat', Nat.mod_eq_of_lt (by omega)] at value
    exact Char.ext (UInt32.toNat_inj.mp value)
  · have high := encode_char_high (Nat.not_le.mp ascii) byte member
    refine beq_false_of_ne ?_
    rintro rfl
    exact absurd high (by decide)

/-- Cutting the bytes of a text into lines gives the bytes of its lines. -/
theorem lines_encode (text : List Char) :
    (encode text).splitOnP (fun byte => byte == 10) = (text.splitOnP fun c => c == '\n').map encode := by
  induction text with
  | nil => rfl
  | cons c rest ih =>
    by_cases newline : c = '\n'
    · subst newline
      have line : encode ('\n' :: rest) = [] ++ 10 :: encode rest := rfl
      have cut : '\n' :: rest = [] ++ '\n' :: rest := rfl
      rw [line, cut, splitOnP_append_cons _ _ rfl, splitOnP_append_cons _ _ rfl, ih, map_append]
      rfl
    · have clean := encode_char_clean newline
      have line : encode (c :: rest) = String.utf8EncodeChar c ++ encode rest := flatMap_cons
      rw [line, lines_front clean, ih, splitOnP_cons_eq_if_modifyHead, if_neg (by simpa using newline)]
      cases rest.splitOnP fun c => c == '\n' with
      | nil => rfl
      | cons first others => simp [encode]

end Encodings

end Texts
