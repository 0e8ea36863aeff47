import Mentra.Foundation.FileTree

/-!
# Texts of paths

How a text is read as a path: cut at slashes, with empty parts and dots left out,
but for a dot at the start of a relative path.  The text of an absolute path of
names is read back as those names.
-/

namespace Mentra.Foundation.PathText

open List

open FileTree (Component)

variable (text : String)

/-- A text that stands for itself between two slashes. -/
def Plain : Prop :=
  text ≠ "" ∧ text ≠ "." ∧ text ≠ ".." ∧ '/' ∉ text.toList

instance (text : String) : Decidable (Plain text) :=
  inferInstanceAs (Decidable (text ≠ "" ∧ text ≠ "." ∧ text ≠ ".." ∧ '/' ∉ text.toList))

structure Name where
  text : String
  plain : Plain text
  deriving DecidableEq

/-- The parts of a text between slashes. -/
def pieces : List String :=
  (text.toList.splitOn '/').map String.ofList

/-- What a part between slashes stands for; empty parts and dots stand for nothing. -/
def ofPiece (piece : String) : Option (Component Name) :=
  if piece = ".." then some .parentDir
  else if plain : Plain piece then some (.normal ⟨piece, plain⟩)
  else none

def isAbsolute : Bool :=
  text.toList.head? = some '/'

def components : List (Component Name) :=
  let body := (pieces text).filterMap ofPiece
  if isAbsolute text then .rootDir :: body
  else if (pieces text).head? = some "." then .curDir :: body
  else body

/-- The text of the absolute path with the given names. -/
def ofNames (names : List Name) : String :=
  if names = [] then "/"
  else String.ofList (['/'].intercalate ([] :: names.map fun name => name.text.toList))

/-- A path, taken from a base unless it is absolute. -/
def join (base path : String) : String :=
  if isAbsolute path then path
  else if base = "" ∨ base.toList.getLast? = some '/' then base ++ path
  else base ++ "/" ++ path

/-- The components of a path begin with those of another. -/
def startsWith (path root : String) : Bool :=
  components root <+: components path

/-! ## Reading a text back -/

theorem ofPiece_name (name : Name) : ofPiece name.text = some (.normal name) := by
  rw [ofPiece, if_neg name.plain.2.2.1, dif_pos name.plain]

variable (names : List Name)

theorem filterMap_ofPiece_names : (names.map Name.text).filterMap ofPiece = names.map .normal := by
  induction names with
  | nil => rfl
  | cons name names ih =>
    rw [map_cons, filterMap_cons_some (ofPiece_name name), ih, map_cons]

theorem isAbsolute_ofNames : isAbsolute (ofNames names) := by
  cases names with
  | nil => rfl
  | cons name names => simp [isAbsolute, ofNames, List.intercalate]

theorem pieces_ofNames {names : List Name} (nonempty : names ≠ []) :
    pieces (ofNames names) = "" :: names.map Name.text := by
  have noSlash : ∀ part ∈ [] :: names.map (fun name => name.text.toList), '/' ∉ part := by
    intro part mem
    rcases mem_cons.mp mem with rfl | isName
    · exact not_mem_nil
    · obtain ⟨name, -, rfl⟩ := mem_map.mp isName
      exact name.plain.2.2.2
  rw [pieces, ofNames, if_neg nonempty, String.toList_ofList,
    splitOn_intercalate '/' noSlash (cons_ne_nil _ _), map_cons, map_map]
  congr 1
  exact map_congr_left fun name _ => String.ofList_toList

theorem components_ofNames : components (ofNames names) = .rootDir :: names.map .normal := by
  rw [components, if_pos (isAbsolute_ofNames names)]
  congr 1
  by_cases empty : names = []
  · rw [empty]
    rfl
  · rw [pieces_ofNames empty, filterMap_cons_none (by rfl), filterMap_ofPiece_names]

theorem startsWith_ofNames {front names : List Name} :
    startsWith (ofNames names) (ofNames front) ↔ front <+: names := by
  rw [startsWith, decide_eq_true_eq, components_ofNames, components_ofNames, cons_prefix_cons]
  constructor
  · rintro ⟨-, isFront⟩
    exact (prefix_map_iff_of_injective fun _ _ same => Component.normal.inj same).mp isFront
  · intro isFront
    exact ⟨rfl, isFront.map _⟩

end Mentra.Foundation.PathText
