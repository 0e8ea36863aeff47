import Mathlib

/-!
# Text files of lines

The bytes of a text, the text that bytes stand for, and files that hold one
record a line.  A file that was cut off anywhere between two characters holds
some of its lines in full and a prefix of the next one.
-/

namespace Mentra.Foundation.TextFile

open List

abbrev Bytes := List UInt8

/-- The byte of a line feed. -/
def newline : UInt8 := 10

/-- The bytes of a text. -/
def encode (text : List Char) : Bytes :=
  text.flatMap String.utf8EncodeChar

/-- The text that bytes stand for, if they are UTF-8. -/
def decode (bytes : Bytes) : Option (List Char) :=
  bytes.toByteArray.utf8Decode?.map Array.toList

/-- The lines of a file, each ended by a line feed. -/
def joinLines (lines : List (List Char)) : List Char :=
  lines.flatMap (· ++ ['\n'])

/-- The last position at which a test holds. -/
def rposition {α : Type} (test : α → Bool) : List α → Option Nat
  | [] => none
  | value :: rest =>
    match rposition test rest with
    | some position => some (position + 1)
    | none => if test value then some 0 else none

theorem rposition_eq_none {α : Type} {test : α → Bool} {values : List α}
    (fails : ∀ value ∈ values, test value = false) : rposition test values = none := by
  induction values with
  | nil => rfl
  | cons value rest ih =>
    have restFails := ih fun other mem => fails other (mem_cons_of_mem _ mem)
    rw [rposition, restFails]
    simp [fails value mem_cons_self]

theorem rposition_append_cons {α : Type} {test : α → Bool} {value : α} (front : List α)
    {back : List α} (holds : test value = true) (fails : ∀ other ∈ back, test other = false) :
    rposition test (front ++ value :: back) = some front.length := by
  induction front with
  | nil => simp [rposition, rposition_eq_none fails, holds]
  | cons other front ih => simp [rposition, ih]

/-! ## Bytes -/

@[simp]
theorem encode_append (front back : List Char) : encode (front ++ back) =
    encode front ++ encode back :=
  flatMap_append

theorem toByteArray_encode (text : List Char) : (encode text).toByteArray = text.utf8Encode :=
  rfl

@[simp]
theorem decode_encode (text : List Char) : decode (encode text) = some text := by
  rw [decode, toByteArray_encode, utf8Decode?_utf8Encode]
  rfl

variable {text : List Char}

theorem eq_encode_of_decode {bytes : Bytes} (decoded : decode bytes = some text) :
    bytes = encode text := by
  obtain ⟨chars, found, rfl⟩ := Option.map_eq_some_iff.mp decoded
  have isSome : bytes.toByteArray.utf8Decode?.isSome := by simp [found]
  have encoded : (bytes.toByteArray.utf8Decode?.get isSome).toList.utf8Encode =
      bytes.toByteArray := ByteArray.utf8Encode_get_utf8Decode?
  simp only [found, Option.get_some] at encoded
  have same := congrArg (fun array => array.data.toList) encoded
  simpa [List.utf8Encode, encode] using same.symm

/-- What the first bytes of a text stand for is the start of the text. -/
theorem prefix_of_decode_take {cut : List Char} {count : Nat}
    (decoded : decode ((encode text).take count) = some cut) : cut <+: text := by
  have front := eq_encode_of_decode decoded
  apply isPrefix_of_utf8Encode_append_eq_utf8Encode ((encode text).drop count).toByteArray
  rw [← toByteArray_encode, ← toByteArray_encode, ← front, ← toByteArray_append, take_append_drop]

/-- Bytes that are no text stay so behind a text. -/
theorem decode_encode_append {bytes : Bytes} (broken : decode bytes = none) :
    decode (encode text ++ bytes) = none := by
  cases decoded : decode (encode text ++ bytes) with
  | none => rfl
  | some whole =>
    have same := eq_encode_of_decode decoded
    have front : text <+: whole := by
      apply isPrefix_of_utf8Encode_append_eq_utf8Encode bytes.toByteArray
      rw [← toByteArray_encode, ← toByteArray_encode, ← same, toByteArray_append]
    obtain ⟨rest, rfl⟩ := front
    rw [encode_append, append_cancel_left_eq] at same
    rw [same, decode_encode] at broken
    cases broken

/-- The bytes of a character past ASCII are 128 and more. -/
theorem le_of_mem_encodeChar {char : Char} {byte : UInt8} (mem : byte ∈ String.utf8EncodeChar char)
    (wide : 127 < char.val.toNat) : 128 ≤ byte.toNat := by
  rw [String.utf8EncodeChar, if_neg (Nat.not_le.mpr wide)] at mem
  split at mem
  · rcases mem_pair.mp mem with rfl | rfl
    · simp
      omega
    · simp
      omega
  · split at mem
    · simp only [mem_cons, not_mem_nil, or_false] at mem
      rcases mem with rfl | rfl | rfl <;>
      · simp
        omega
    · simp only [mem_cons, not_mem_nil, or_false] at mem
      rcases mem with rfl | rfl | rfl | rfl <;>
      · simp
        omega

theorem newline_mem_encodeChar_iff (char : Char) :
    newline ∈ String.utf8EncodeChar char ↔ char = '\n' := by
  constructor
  · intro mem
    have narrow : char.val.toNat ≤ 127 := by
      by_contra wide
      have large := le_of_mem_encodeChar mem (Nat.lt_of_not_le wide)
      exact absurd large (by decide)
    rw [String.utf8EncodeChar, if_pos narrow, mem_singleton] at mem
    have code := congrArg UInt8.toNat mem
    rw [UInt8.toNat_ofNat', Nat.mod_eq_of_lt (Nat.lt_of_le_of_lt narrow (by decide))] at code
    exact Char.ext (UInt32.toNat_inj.mp code.symm)
  · rintro rfl
    decide

theorem newline_mem_encode_iff (text : List Char) : newline ∈ encode text ↔ '\n' ∈ text := by
  simp [encode, mem_flatMap, newline_mem_encodeChar_iff]

/-! ## Lines -/

@[simp]
theorem joinLines_nil : joinLines [] = [] :=
  rfl

@[simp]
theorem joinLines_cons (line : List Char) (lines : List (List Char)) :
    joinLines (line :: lines) = line ++ '\n' :: joinLines lines := by
  simp [joinLines]

@[simp]
theorem joinLines_append (front back : List (List Char)) :
    joinLines (front ++ back) = joinLines front ++ joinLines back :=
  flatMap_append

variable {lines : List (List Char)}

theorem splitOn_joinLines {tail : List Char}
    (plain : ∀ line ∈ lines, '\n' ∉ line) (plainTail : '\n' ∉ tail) :
    (joinLines lines ++ tail).splitOn '\n' = lines ++ [tail] := by
  induction lines with
  | nil => exact splitOn_eq_singleton plainTail
  | cons line lines ih =>
    have first := plain line mem_cons_self
    have rest := ih fun other mem => plain other (mem_cons_of_mem _ mem)
    rw [joinLines_cons, append_assoc, cons_append,
      splitOn_append_cons_self_of_not_mem first, rest]
    rfl

/-- A file cut off between two characters: some whole lines, and a part of the
next one. -/
theorem exists_of_prefix_joinLines {cut : List Char} (isPrefix : cut <+: joinLines lines) :
    ∃ front tail, cut = joinLines front ++ tail ∧
      (front = lines ∧ tail = [] ∨ ∃ line back, lines = front ++ line :: back ∧ tail <+: line) := by
  induction lines generalizing cut with
  | nil => exact ⟨[], [], prefix_nil.mp isPrefix, .inl ⟨rfl, rfl⟩⟩
  | cons line lines ih =>
    rw [joinLines_cons, ← singleton_append, ← append_assoc] at isPrefix
    rcases prefix_or_prefix_of_prefix isPrefix (prefix_append _ _) with
      within | ⟨later, rfl⟩
    · rcases prefix_concat_iff.mp within with rfl | part
      · cases lines with
        | nil => exact ⟨[line], [], by simp, .inl ⟨rfl, rfl⟩⟩
        | cons next lines =>
          exact ⟨[line], [], by simp, .inr ⟨next, lines, rfl, nil_prefix⟩⟩
      · exact ⟨[], cut, rfl, .inr ⟨line, lines, rfl, part⟩⟩
    · obtain ⟨front, tail, rfl, ending⟩ := ih ((prefix_append_right_inj _).mp isPrefix)
      refine ⟨line :: front, tail, by simp, ?_⟩
      rcases ending with ⟨rfl, rfl⟩ | ⟨next, back, rfl, part⟩
      · exact .inl ⟨rfl, rfl⟩
      · exact .inr ⟨next, back, rfl, part⟩

end Mentra.Foundation.TextFile
