import Mathlib

/-!
# White space, lines and fixed-width numbers

Rust's `str` methods classify characters by the Unicode `White_Space` property, which is
wider than Lean's `Char.isWhitespace`.  Numbers that fit into the width they are padded to
can be told apart by their text.
-/

namespace Mentra.Foundation.Text

open List

/-- The Unicode `White_Space` property. -/
def isWhiteSpace (c : Char) : Bool :=
  let n := c.toNat
  (0x9 ≤ n && n ≤ 0xD) || n == 0x20 || n == 0x85 || n == 0xA0 || n == 0x1680 ||
    (0x2000 ≤ n && n ≤ 0x200A) || n == 0x2028 || n == 0x2029 || n == 0x202F ||
    n == 0x205F || n == 0x3000

variable (text : String)

/-- `str::trim`: drop white space from both ends. -/
def trim : String :=
  String.ofList ((((text.toList.dropWhile isWhiteSpace).reverse).dropWhile isWhiteSpace).reverse)

/-- `str::trim_end`: drop white space from the end. -/
def trimEnd : String :=
  String.ofList ((text.toList.reverse.dropWhile isWhiteSpace).reverse)

/-- `str::trim_start`: drop white space from the start. -/
def trimStart : String :=
  String.ofList (text.toList.dropWhile isWhiteSpace)

def stripPrefix? (opening text : String) : Option String :=
  (text.toList.dropPrefix? opening.toList).map String.ofList

theorem stripPrefix?_eq_some_iff {opening text rest : String} :
    stripPrefix? opening text = some rest ↔ text = opening ++ rest := by
  simp only [stripPrefix?, Option.map_eq_some_iff, dropPrefix?_eq_some_iff, beq_iff_eq,
    ← String.toList_inj, String.toList_append]
  constructor
  · rintro ⟨chars, ⟨front, split, rfl⟩, ending⟩
    rw [split, ← ending, String.toList_ofList]
  · intro split
    exact ⟨rest.toList, ⟨_, split, rfl⟩, String.toList_ofList⟩

/-- `str::strip_suffix('\r')` with the text itself if there is none. -/
def stripReturn : String :=
  if text.toList.getLast? = some '\r' then String.ofList text.toList.dropLast else text

/-- `str::lines`: split at line feeds, drop a carriage return before one, and
do not report the empty piece after a final line feed. -/
def lines : List String :=
  let pieces := (text.toList.splitOn '\n').map String.ofList
  pieces.dropLast.map stripReturn ++ pieces.getLast?.toList.filter (· ≠ "")

/-! ## Pieces -/

section Pieces

variable {α : Type} {separates : α → Bool}

/-- The first piece starts the text, all of them lie in it, and none has a separator. -/
theorem splitOnP_pieces (separates : α → Bool) (text : List α) :
    ∃ first rest, text.splitOnP separates = first :: rest ∧ first <+: text ∧
      (∀ item ∈ first, ¬ separates item) ∧
      ∀ piece ∈ rest, piece <:+: text ∧ ∀ item ∈ piece, ¬ separates item := by
  induction text with
  | nil => exact ⟨[], [], rfl, nil_prefix, by simp, by simp⟩
  | cons head text ih =>
    obtain ⟨first, rest, split, starts, plain, others⟩ := ih
    rw [splitOnP_cons_eq_if_modifyHead, split]
    have later : ∀ piece ∈ rest, piece <:+: head :: text ∧ ∀ item ∈ piece, ¬ separates item :=
      fun piece mem => ⟨infix_cons (others piece mem).1, (others piece mem).2⟩
    by_cases cut : separates head
    · refine ⟨[], first :: rest, by rw [if_pos cut], nil_prefix, by simp, ?_⟩
      exact forall_mem_cons.mpr ⟨⟨infix_cons starts.isInfix, plain⟩, later⟩
    · refine ⟨head :: first, rest, by rw [if_neg cut, modifyHead_cons], ?_, ?_, later⟩
      · exact cons_prefix_cons.mpr ⟨rfl, starts⟩
      · exact forall_mem_cons.mpr ⟨cut, plain⟩

theorem of_mem_splitOnP {text piece : List α} (mem : piece ∈ text.splitOnP separates) :
    piece <:+: text ∧ ∀ item ∈ piece, ¬ separates item := by
  obtain ⟨first, rest, split, starts, plain, others⟩ := splitOnP_pieces separates text
  rw [split] at mem
  rcases mem_cons.mp mem with rfl | mem
  · exact ⟨starts.isInfix, plain⟩
  · exact others piece mem

end Pieces

/-- `str::split_whitespace`, on characters. -/
def splitWhitespace (text : List Char) : List (List Char) :=
  (text.splitOnP isWhiteSpace).filter (· ≠ [])

theorem of_mem_splitWhitespace {text word : List Char} (mem : word ∈ splitWhitespace text) :
    word <:+: text ∧ word ≠ [] := by
  obtain ⟨isPiece, nonempty⟩ := mem_filter.mp mem
  exact ⟨(of_mem_splitOnP isPiece).1, of_decide_eq_true nonempty⟩

/-! ## Numbers of a fixed width -/

/-- The last `width` hexadecimal digits of a number. -/
def hexDigits : Nat → Nat → List Char
  | 0, _ => []
  | width + 1, number => hexDigits width (number / 16) ++ [Nat.digitChar (number % 16)]

@[simp]
theorem length_hexDigits (width number : Nat) : (hexDigits width number).length = width := by
  induction width generalizing number with
  | zero => rfl
  | succ width ih => rw [hexDigits, length_append, ih, length_singleton]

theorem digitChar_inj {first second : Nat} (firstLt : first < 16) (secondLt : second < 16)
    (same : Nat.digitChar first = Nat.digitChar second) : first = second := by
  have inj : ∀ first second : Fin 16,
      Nat.digitChar first = Nat.digitChar second → first = second := by decide
  exact congrArg Fin.val (inj ⟨first, firstLt⟩ ⟨second, secondLt⟩ same)

theorem hexDigits_inj {width first second : Nat} (firstLt : first < 16 ^ width)
    (secondLt : second < 16 ^ width) (same : hexDigits width first = hexDigits width second) :
    first = second := by
  induction width generalizing first second with
  | zero => rw [Nat.lt_one_iff.mp firstLt, Nat.lt_one_iff.mp secondLt]
  | succ width ih =>
    obtain ⟨front, last⟩ := append_inj' same rfl
    rw [Nat.pow_succ] at firstLt secondLt
    have sameFront := ih (Nat.div_lt_of_lt_mul (Nat.mul_comm _ _ ▸ firstLt))
      (Nat.div_lt_of_lt_mul (Nat.mul_comm _ _ ▸ secondLt)) front
    have sameLast := digitChar_inj (Nat.mod_lt _ (by decide)) (Nat.mod_lt _ (by decide))
      (singleton_inj.mp last)
    rw [← Nat.div_add_mod first 16, ← Nat.div_add_mod second 16, sameFront, sameLast]

end Mentra.Foundation.Text
