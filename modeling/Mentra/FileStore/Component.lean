import Mentra.Foundation.Text
import Mentra.Foundation.TextFile

/-!
# Directory names of identifiers

Model of `encode_component` in `mentra/src/runtime/file_store/fs_util.rs`.  An identifier that
is a harmless lower-case file name stands for itself; of any other the bytes are written out in
hexadecimal behind `x-`, which no harmless name starts with.
-/

namespace Mentra.FileStore

open Foundation List
open Foundation.Text
open Foundation.TextFile

def isWindowsReservedDevice (stem : String) : Bool :=
  stem ∈ ["con", "prn", "aux", "nul"] ||
    (stem.utf8ByteSize = 4 && (["com", "lpt"].any fun port => port.toList <+: stem.toList) &&
      (stem.toList[3]?).any fun digit => '1' ≤ digit ∧ digit ≤ '9')

/-- A character of a harmless name. -/
def isTame (char : Char) : Bool :=
  char.isLower || char.isDigit || char ∈ ['-', '_', '.']

/-- A name without its extensions. -/
def stemOf (id : String) : String :=
  String.ofList (id.toList.takeWhile (· ≠ '.'))

def isPlainComponent (id : String) : Bool :=
  if id.isEmpty || id.toList.head? = some '.' || id.toList.getLast? = some '.' ||
      ['x', '-'] <+: id.toList then false
  else id.toList.all isTame && !isWindowsReservedDevice (stemOf id)

/-- The bytes of an identifier in lower-case hexadecimal. -/
def hexBytes (bytes : Bytes) : List Char :=
  bytes.flatMap fun byte => hexDigits 2 byte.toNat

def encodeComponent (id : String) : String :=
  if isPlainComponent id then id
  else String.ofList ('x' :: '-' :: hexBytes (encode id.toList))

/-! ## The two forms -/

variable {id first second : String}

theorem isPlainComponent_iff :
    isPlainComponent id ↔
      id ≠ "" ∧ id.toList.head? ≠ some '.' ∧ id.toList.getLast? ≠ some '.' ∧
        ¬ ['x', '-'] <+: id.toList ∧ (∀ char ∈ id.toList, isTame char) ∧
          isWindowsReservedDevice (stemOf id) = false := by
  rw [isPlainComponent]
  split
  · rename_i refused
    simp only [Bool.or_eq_true, String.isEmpty_iff, decide_eq_true_eq] at refused
    tauto
  · rename_i accepted
    simp only [Bool.or_eq_true, String.isEmpty_iff, decide_eq_true_eq, not_or] at accepted
    simp only [Bool.and_eq_true, all_eq_true, Bool.not_eq_true']
    tauto

theorem isTame_digitChar : ∀ digit : Fin 16, isTame (Nat.digitChar digit) := by
  decide

theorem isTame_of_mem_hexBytes {bytes : Bytes} {char : Char} (mem : char ∈ hexBytes bytes) :
    isTame char := by
  obtain ⟨byte, -, digit⟩ := mem_flatMap.mp mem
  have digits (number : Nat) : isTame (Nat.digitChar (number % 16)) :=
    isTame_digitChar ⟨number % 16, Nat.mod_lt _ (by decide)⟩
  simp only [hexDigits, nil_append, singleton_append, mem_cons, not_mem_nil, or_false] at digit
  rcases digit with rfl | rfl
  · exact digits _
  · exact digits _

theorem hexBytes_inj {bytes others : Bytes} (same : hexBytes bytes = hexBytes others) :
    bytes = others := by
  induction bytes generalizing others with
  | nil =>
    cases others with
    | nil => rfl
    | cons other others => cases same
  | cons byte bytes ih =>
    cases others with
    | nil => cases same
    | cons other others =>
      obtain ⟨digits, rest⟩ := append_inj same rfl
      have sameByte := hexDigits_inj byte.toNat_lt other.toNat_lt digits
      rw [UInt8.toNat_inj.mp sameByte, ih rest]

theorem encode_inj (same : encode first.toList = encode second.toList) : first = second := by
  have decoded := congrArg decode same
  rw [decode_encode, decode_encode] at decoded
  exact String.toList_inj.mp (Option.some.inj decoded)

theorem isTame_of_mem_encodeComponent {char : Char} (mem : char ∈ (encodeComponent id).toList) :
    isTame char := by
  rw [encodeComponent] at mem
  split at mem
  · rename_i plain
    exact (isPlainComponent_iff.mp plain).2.2.2.2.1 char mem
  · rw [String.toList_ofList, mem_cons, mem_cons] at mem
    obtain rfl | rfl | mem := mem
    · decide
    · decide
    · exact isTame_of_mem_hexBytes mem

theorem toLower_of_isTame {char : Char} (tame : isTame char) : char.toLower = char := by
  rw [Char.toLower, dif_neg]
  rintro ⟨above, below⟩
  simp only [isTame, Char.isLower, Char.isDigit, Bool.or_eq_true, Bool.and_eq_true,
    decide_eq_true_eq, mem_cons, not_mem_nil, or_false, ge_iff_le, UInt32.le_iff_toNat_le]
    at tame above below
  obtain (⟨lower, -⟩ | ⟨-, upper⟩) | rfl | rfl | rfl := tame
  · exact absurd (lower.trans below) (by decide)
  · exact absurd (above.trans upper) (by decide)
  · exact absurd above (by decide)
  · exact absurd below (by decide)
  · exact absurd above (by decide)

theorem map_toLower_encodeComponent (id : String) :
    (encodeComponent id).toList.map Char.toLower = (encodeComponent id).toList := by
  conv_rhs => rw [← map_id (encodeComponent id).toList]
  exact map_congr_left fun _ mem => toLower_of_isTame (isTame_of_mem_encodeComponent mem)

theorem encodeComponent_inj (same : encodeComponent first = encodeComponent second) :
    first = second := by
  -- A harmless name does not start with `x-`, so the two forms never meet.
  have apart {plain other : String} (isPlain : isPlainComponent plain) :
      plain ≠ String.ofList ('x' :: '-' :: hexBytes (encode other.toList)) := by
    rintro rfl
    apply (isPlainComponent_iff.mp isPlain).2.2.2.1
    rw [String.toList_ofList]
    exact prefix_append ['x', '-'] _
  unfold encodeComponent at same
  split at same
  · rename_i firstPlain
    split at same
    · exact same
    · exact absurd same (apart firstPlain)
  · split at same
    · rename_i secondPlain
      exact absurd same.symm (apart secondPlain)
    · have digits := String.ofList_inj.mp same
      exact encode_inj (hexBytes_inj (List.cons.inj (List.cons.inj digits).2).2)

/-- A directory name starts with no dot, and without its extensions it is no device. -/
theorem encodeComponent_front (id : String) :
    (∃ char rest, (encodeComponent id).toList = char :: rest ∧ char ≠ '.') ∧
      isWindowsReservedDevice (stemOf (encodeComponent id)) = false := by
  rw [encodeComponent]
  split
  · rename_i plain
    obtain ⟨nonempty, front, -, -, -, free⟩ := isPlainComponent_iff.mp plain
    refine ⟨?_, free⟩
    cases chars : id.toList with
    | nil => exact absurd (String.toList_eq_nil_iff.mp chars) nonempty
    | cons char rest =>
      rw [chars, head?_cons] at front
      exact ⟨char, rest, rfl, fun dot => front (congrArg some dot)⟩
  · refine ⟨⟨'x', _, String.toList_ofList, by decide⟩, ?_⟩
    rw [stemOf, String.toList_ofList, takeWhile_cons_of_pos (by decide)]
    simp [isWindowsReservedDevice, ← String.toList_inj]

/-- Directory names of different identifiers differ even if case is ignored, and each of them
can be used on every file system. -/
theorem encodeComponent_safe :
    (∀ first second, (encodeComponent first).toList.map Char.toLower =
        (encodeComponent second).toList.map Char.toLower → first = second) ∧
      ∀ id, encodeComponent id ≠ "" ∧ encodeComponent id ≠ "." ∧ encodeComponent id ≠ ".." ∧
        '/' ∉ (encodeComponent id).toList ∧ '\\' ∉ (encodeComponent id).toList ∧
          isWindowsReservedDevice
            (stemOf (String.ofList ((encodeComponent id).toList.map Char.toLower))) = false := by
  constructor
  · intro first second same
    rw [map_toLower_encodeComponent, map_toLower_encodeComponent] at same
    exact encodeComponent_inj (String.toList_inj.mp same)
  · intro id
    have absent {char : Char} (wild : isTame char = false) :
        char ∉ (encodeComponent id).toList := by
      intro mem
      rw [isTame_of_mem_encodeComponent mem] at wild
      cases wild
    obtain ⟨⟨char, rest, front, noDot⟩, free⟩ := encodeComponent_front id
    have apart {name : String} (dotted : name.toList.head? ≠ some char) :
        encodeComponent id ≠ name := by
      rintro rfl
      exact dotted (by rw [front]; rfl)
    refine ⟨apart nofun, apart ?_, apart ?_, absent rfl, absent rfl, ?_⟩
    · exact fun dot => noDot (Option.some.inj dot).symm
    · exact fun dot => noDot (Option.some.inj dot).symm
    · rw [map_toLower_encodeComponent, String.ofList_toList]
      exact free

end Mentra.FileStore
