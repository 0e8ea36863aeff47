import Mathlib

/-!
# Byte positions in a text

Rust indexes a `str` by bytes, and an index is only usable on a character
boundary.  `splitAtByte` is that index as a split of the character list; it
fails inside a character and past the end, where the source panics.
-/

namespace Mentra.Foundation.Utf8

open List Option

open String (utf8Len utf8Len_nil utf8Len_cons utf8Len_append)

/-- Split after a number of bytes. -/
def splitAtByte : List Char → Nat → Option (List Char × List Char)
  | chars, 0 => some ([], chars)
  | [], _ + 1 => none
  | char :: chars, bytes + 1 =>
    if char.utf8Size ≤ bytes + 1 then
      (splitAtByte chars (bytes + 1 - char.utf8Size)).map fun parts =>
        (char :: parts.1, parts.2)
    else none

def isCharBoundary (text : String) (index : Nat) : Bool :=
  (splitAtByte text.toList index).isSome

/-- `&text[..stop]`. -/
def sliceTo (text : String) (stop : Nat) : Option String :=
  (splitAtByte text.toList stop).map fun parts => String.ofList parts.1

/-- `&text[start..]`. -/
def sliceFrom (text : String) (start : Nat) : Option String :=
  (splitAtByte text.toList start).map fun parts => String.ofList parts.2

/-- `&text[start..stop]`. -/
def slice (text : String) (start stop : Nat) : Option String := do
  let (front, _) ← splitAtByte text.toList stop
  let (_, middle) ← splitAtByte front start
  pure (String.ofList middle)

/-- Lower an index to a character boundary. -/
def floorBoundary (text : String) : Nat → Nat
  | 0 => 0
  | index + 1 => if isCharBoundary text (index + 1) then index + 1 else floorBoundary text index

/-- Raise an index at most `room` times to a character boundary. -/
def ceilLoop (text : String) : Nat → Nat → Nat
  | 0, index => index
  | room + 1, index => if isCharBoundary text index then index else ceilLoop text room (index + 1)

/-- Raise an index to a character boundary, stopping at the end of the text. -/
def ceilBoundary (text : String) (index : Nat) : Nat :=
  ceilLoop text (text.utf8ByteSize - index) index

/-- `str::from_utf8`. -/
def fromUtf8? (bytes : List UInt8) : Option String :=
  String.fromUTF8? ⟨bytes.toArray⟩

theorem utf8Len_toList (text : String) : utf8Len text.toList = text.utf8ByteSize := by
  rw [← String.utf8ByteSize_ofList, String.ofList_toList]

variable {front back : List Char}

/-- A split is a decomposition whose front has the given number of bytes. -/
theorem splitAtByte_eq_some_iff {chars : List Char} {bytes : Nat} :
    splitAtByte chars bytes = some (front, back) ↔
      chars = front ++ back ∧ utf8Len front = bytes := by
  induction chars generalizing bytes front with
  | nil =>
    cases bytes with
    | zero =>
      rw [splitAtByte, String.utf8Len_eq_zero]
      constructor
      · rintro ⟨⟩
        exact ⟨rfl, rfl⟩
      · rintro ⟨split, rfl⟩
        rw [split, nil_append]
    | succ bytes =>
      simp only [splitAtByte, reduceCtorEq, false_iff, not_and, nil_eq, append_eq_nil_iff]
      rintro ⟨rfl, -⟩
      simp
  | cons char chars ih =>
    cases bytes with
    | zero =>
      rw [splitAtByte, String.utf8Len_eq_zero]
      constructor
      · rintro ⟨⟩
        exact ⟨rfl, rfl⟩
      · rintro ⟨split, rfl⟩
        rw [split, nil_append]
    | succ bytes =>
      have positive := char.utf8Size_pos
      rw [splitAtByte]
      cases front with
      | nil =>
        have noSplit : ∀ parts : List Char × List Char,
            (char :: parts.1, parts.2) ≠ ([], back) := by simp
        split <;> simp [noSplit]
      | cons first front =>
        split
        · rename_i fits
          simp only [map_eq_some_iff, Prod.exists, Prod.mk.injEq, List.cons.injEq,
            cons_append, utf8Len_cons]
          constructor
          · rintro ⟨front', back', split, ⟨rfl, rfl⟩, rfl⟩
            obtain ⟨rfl, size⟩ := ih.mp split
            exact ⟨⟨rfl, rfl⟩, by omega⟩
          · rintro ⟨⟨rfl, rfl⟩, size⟩
            exact ⟨front, back, ih.mpr ⟨rfl, by omega⟩, ⟨rfl, rfl⟩, rfl⟩
        · rename_i long
          simp only [reduceCtorEq, cons_append, List.cons.injEq, utf8Len_cons, false_iff, not_and]
          rintro ⟨rfl, -⟩
          omega

variable {text : String}

theorem isCharBoundary_iff {index : Nat} :
    isCharBoundary text index ↔
      ∃ front back, text.toList = front ++ back ∧ utf8Len front = index := by
  simp only [isCharBoundary, isSome_iff_exists, Prod.exists, splitAtByte_eq_some_iff]

theorem isCharBoundary_zero (text : String) : isCharBoundary text 0 :=
  isCharBoundary_iff.mpr ⟨[], text.toList, rfl, rfl⟩

theorem isCharBoundary_size (text : String) : isCharBoundary text text.utf8ByteSize :=
  isCharBoundary_iff.mpr ⟨text.toList, [], by simp, utf8Len_toList text⟩

/-- Of two fronts of a text the one with fewer bytes begins the other. -/
theorem prefix_of_utf8Len_le {chars early : List Char} (isEarly : early <+: chars)
    (isFront : front <+: chars) (ordered : utf8Len early ≤ utf8Len front) : early <+: front := by
  obtain ⟨afterEarly, rfl⟩ := isEarly
  obtain ⟨back, split⟩ := isFront
  rcases append_eq_append_iff.mp split with ⟨extra, rfl, -⟩ | ⟨middle, frontEq, -⟩
  · rw [utf8Len_append] at ordered
    have none : extra = [] := String.utf8Len_eq_zero.mp (by omega)
    simp [none]
  · exact ⟨middle, frontEq.symm⟩

/-! ## Rounding an index -/

theorem isCharBoundary_floorBoundary (text : String) (index : Nat) :
    isCharBoundary text (floorBoundary text index) := by
  induction index with
  | zero => exact isCharBoundary_zero text
  | succ index ih =>
    rw [floorBoundary]
    split
    · assumption
    · exact ih

/-- Raising stops on a boundary, at the latest at the end of the text. -/
theorem ceilLoop_spec (text : String) (room index : Nat)
    (bound : index + room = text.utf8ByteSize) :
    isCharBoundary text (ceilLoop text room index) := by
  induction room generalizing index with
  | zero =>
    rw [ceilLoop, ← Nat.add_zero index, bound]
    exact isCharBoundary_size text
  | succ room ih =>
    rw [ceilLoop]
    split
    · assumption
    · exact ih (index + 1) (by omega)

theorem isCharBoundary_ceilBoundary {index : Nat}
    (bound : index ≤ text.utf8ByteSize) : isCharBoundary text (ceilBoundary text index) :=
  ceilLoop_spec text _ index (by omega)

/-! ## Slices at boundaries exist -/

theorem exists_sliceTo {stop : Nat} (boundary : isCharBoundary text stop) :
    ∃ front, sliceTo text stop = some front := by
  obtain ⟨parts, split⟩ := isSome_iff_exists.mp boundary
  exact ⟨_, by rw [sliceTo, split, map_some]⟩

theorem exists_sliceFrom {start : Nat} (boundary : isCharBoundary text start) :
    ∃ back, sliceFrom text start = some back := by
  obtain ⟨parts, split⟩ := isSome_iff_exists.mp boundary
  exact ⟨_, by rw [sliceFrom, split, map_some]⟩

theorem slice_of_append {middle : List Char} (split : text.toList = front ++ middle ++ back) :
    slice text (utf8Len front) (utf8Len front + utf8Len middle) = some (String.ofList middle) := by
  have outerSplit := splitAtByte_eq_some_iff.mpr ⟨split, utf8Len_append front middle⟩
  have innerSplit : splitAtByte (front ++ middle) (utf8Len front) = some (front, middle) :=
    splitAtByte_eq_some_iff.mpr ⟨rfl, rfl⟩
  simp only [slice, outerSplit, innerSplit, bind_eq_bind, bind_some]
  rfl

/-- Two boundaries in order delimit a slice. -/
theorem exists_slice {start stop : Nat} (startBoundary : isCharBoundary text start)
    (stopBoundary : isCharBoundary text stop) (ordered : start ≤ stop) :
    ∃ middle, slice text start stop = some middle := by
  obtain ⟨early, afterEarly, earlySplit, rfl⟩ := isCharBoundary_iff.mp startBoundary
  obtain ⟨front, back, frontSplit, rfl⟩ := isCharBoundary_iff.mp stopBoundary
  obtain ⟨middle, rfl⟩ :=
    prefix_of_utf8Len_le ⟨_, earlySplit.symm⟩ ⟨_, frontSplit.symm⟩ ordered
  rw [utf8Len_append]
  exact ⟨_, slice_of_append frontSplit⟩

end Mentra.Foundation.Utf8
