import Mathlib

/-!
# File trees with symbolic links

The resolution of a path in a tree of directories, files and symbolic links, component by
component from the root: a link is replaced by its target, `..` goes up from where the walk
has got to, and only so many links are followed.

A walk that succeeds ends at a settled path, one that names a node through directories only.
Walking on from there finds the same as walking on, unless links run out.
-/

namespace Mentra.Foundation.FileTree

open List

universe u

variable {α : Type u}

/-- A part of a path. -/
inductive Component (α : Type u)
  | rootDir
  | curDir
  | parentDir
  | normal (name : α)
  deriving DecidableEq

inductive Node (α : Type u)
  | file
  | directory (searchable : Bool) (entries : List (α × Node α))
  | symlink (target : List (Component α))

inductive Kind
  | file
  | directory
  | symlink
  deriving DecidableEq

inductive PathError
  | notFound
  | notADirectory
  | permissionDenied
  | tooManyLinks
  deriving DecidableEq

namespace Node

variable [DecidableEq α]

def kind : Node α → Kind
  | file => .file
  | directory _ _ => .directory
  | symlink _ => .symlink

/-- An entry of a directory. -/
def entry (name : α) : Node α → Option (Node α)
  | directory _ entries => (entries.find? fun entry => entry.1 = name).map Prod.snd
  | _ => none

/-- The node at a path, with no link followed. -/
def lookup (node : Node α) : List α → Option (Node α)
  | [] => some node
  | name :: rest => (node.entry name).bind fun next => next.lookup rest

/-- What stands under a name in the directory at a path, if one may look. -/
def look (root : Node α) (here : List α) (name : α) : Except PathError (Node α) :=
  match root.lookup here with
  | some (.directory true _) =>
    match root.lookup (here ++ [name]) with
    | some node => .ok node
    | none => .error .notFound
  | some (.directory false _) => .error .permissionDenied
  | _ => .error .notADirectory

/-- One may go on from a path: it is a directory, and one may search it. -/
def enter (root : Node α) (here : List α) : Except PathError Unit :=
  match root.lookup here with
  | some (.directory true _) => .ok ()
  | some (.directory false _) => .error .permissionDenied
  | _ => .error .notADirectory

/-- Walk along a path until a link has to be followed. -/
def walkWith (root : Node α) (follow : List α → List (Component α) → Except PathError (List α)) :
    List α → List (Component α) → Except PathError (List α)
  | here, [] => .ok here
  | _, .rootDir :: rest => walkWith root follow [] rest
  | here, .curDir :: rest =>
    match root.enter here with
    | .ok _ => walkWith root follow here rest
    | .error error => .error error
  | here, .parentDir :: rest =>
    match root.enter here with
    | .ok _ => walkWith root follow here.dropLast rest
    | .error error => .error error
  | here, .normal name :: rest =>
    match root.look here name with
    | .ok (.symlink target) => follow here (target ++ rest)
    | .ok _ => walkWith root follow (here ++ [name]) rest
    | .error error => .error error

/-- Walk along a path and follow at most `links` links. -/
def walk (root : Node α) : Nat → List α → List (Component α) → Except PathError (List α)
  | 0 => root.walkWith fun _ _ => .error .tooManyLinks
  | links + 1 => root.walkWith (root.walk links)

/-- What stands at a path, the last component not followed. -/
def stat (root : Node α) (links : Nat) (names : List α) : Except PathError Kind :=
  match names.getLast? with
  | none => .ok root.kind
  | some name =>
    match root.walk links [] (names.dropLast.map .normal) with
    | .ok here =>
      match root.look here name with
      | .ok node => .ok node.kind
      | .error error => .error error
    | .error error => .error error

/-! ## Settled paths -/

/-- A path through directories to something that is not a link. -/
inductive Settled (root : Node α) : List α → Prop
  | root (isRoot : root.kind ≠ .symlink) : Settled root []
  | child {here : List α} {name : α} {node : Node α} (settled : Settled root here)
      (found : root.look here name = .ok node) (isNode : node.kind ≠ .symlink) :
      Settled root (here ++ [name])

variable {root : Node α}

theorem Settled.dropLast {path : List α} (settled : root.Settled path) :
    root.Settled path.dropLast := by
  cases settled with
  | root isRoot => exact .root isRoot
  | child settled => rwa [dropLast_concat]

theorem Settled.of_prefix {front path : List α} (settled : root.Settled path)
    (isFront : front <+: path) : root.Settled front := by
  induction settled with
  | root isRoot =>
    rw [prefix_nil.mp isFront]
    exact .root isRoot
  | child settled found isNode ih =>
    rcases prefix_concat_iff.mp isFront with rfl | shorter
    · exact .child settled found isNode
    · exact ih shorter

theorem Settled.last {here : List α} {name : α} (settled : root.Settled (here ++ [name])) :
    ∃ node, root.look here name = .ok node ∧ node.kind ≠ .symlink := by
  generalize isPath : here ++ [name] = path at settled
  cases settled with
  | root => exact absurd isPath (append_ne_nil_of_right_ne_nil _ (cons_ne_nil _ _))
  | child _ found isNode =>
    obtain ⟨rfl, isName⟩ := append_inj' isPath rfl
    cases isName
    exact ⟨_, found, isNode⟩

/-! ## Walks -/

variable {follow : List α → List (Component α) → Except PathError (List α)} {here there : List α}
  {links : Nat}

theorem walkWith_normal {name : α} {node : Node α} (found : root.look here name = .ok node)
    (isNode : node.kind ≠ .symlink) (rest : List (Component α)) :
    root.walkWith follow here (.normal name :: rest) =
      root.walkWith follow (here ++ [name]) rest := by
  rw [walkWith, found]
  cases node with
  | file | directory => rfl
  | symlink => exact absurd rfl isNode

variable {rest : List (Component α)}

/-- A walk ends where nothing is a link. -/
theorem walkWith_settled
    (follows : ∀ here rest there, root.Settled here → follow here rest = .ok there →
      root.Settled there) (isRoot : root.kind ≠ .symlink)
    (settled : root.Settled here) (walked : root.walkWith follow here rest = .ok there) :
    root.Settled there := by
  induction rest generalizing here with
  | nil =>
    cases walked
    exact settled
  | cons component rest ih =>
    cases component with
    | rootDir => exact ih (.root isRoot) walked
    | curDir =>
      rw [walkWith] at walked
      split at walked
      · exact ih settled walked
      · cases walked
    | parentDir =>
      rw [walkWith] at walked
      split at walked
      · exact ih settled.dropLast walked
      · cases walked
    | normal name =>
      cases found : root.look here name with
      | error error =>
        rw [walkWith, found] at walked
        cases walked
      | ok node =>
        by_cases isLink : node.kind = .symlink
        · cases node with
          | symlink target =>
            rw [walkWith, found] at walked
            exact follows here _ there settled walked
          | file | directory => cases isLink
        · rw [walkWith_normal found isLink] at walked
          exact ih (.child settled found isLink) walked

theorem walk_settled (isRoot : root.kind ≠ .symlink)
    (settled : root.Settled here) (walked : root.walk links here rest = .ok there) :
    root.Settled there := by
  induction links generalizing here rest there with
  | zero =>
    refine walkWith_settled (fun _ _ _ _ followed => ?_) isRoot settled walked
    cases followed
  | succ links ih =>
    exact walkWith_settled (fun _ _ _ settled walked => ih settled walked) isRoot settled walked

variable {names : List α}

theorem walkWith_names (settled : root.Settled (here ++ names)) (rest : List (Component α)) :
    root.walkWith follow here (names.map .normal ++ rest) =
      root.walkWith follow (here ++ names) rest := by
  induction names generalizing here with
  | nil => rw [map_nil, nil_append, append_nil]
  | cons name names ih =>
    rw [append_cons] at settled ⊢
    obtain ⟨node, found, isNode⟩ := (settled.of_prefix (prefix_append _ _)).last
    rw [map_cons, cons_append, walkWith_normal found isNode]
    exact ih settled

theorem walk_names (links : Nat) (here : List α)
    (settled : root.Settled (here ++ names)) (rest : List (Component α)) :
    root.walk links here (names.map .normal ++ rest) = root.walk links (here ++ names) rest := by
  cases links with
  | zero | succ links => exact walkWith_names settled rest

theorem walk_nil (root : Node α) (links : Nat) (here : List α) :
    root.walk links here [] = .ok here := by
  cases links with
  | zero | succ links => rfl

theorem walk_settled_names (links : Nat) (settled : root.Settled names) :
    root.walk links [] (names.map .normal) = .ok names := by
  have walked := walk_names links [] settled []
  rwa [append_nil, walk_nil] at walked

/-! ## Walking on -/

variable {first : List (Component α)} {middle : List α}

/-- With a rule for what follows a link, a walk along two paths is one after the
other, with the links that are left. -/
theorem walkWith_append
    (isWalk : ∀ here rest, root.walkWith follow here rest = root.walk links here rest)
    (follows : ∀ here first middle, follow here first = .ok middle →
      ∃ left ≤ links, ∀ second, follow here (first ++ second) = root.walk left middle second)
    (walked : root.walkWith follow here first = .ok middle) :
    ∃ left ≤ links, ∀ second,
      root.walkWith follow here (first ++ second) = root.walk left middle second := by
  induction first generalizing here with
  | nil =>
    cases walked
    exact ⟨links, Nat.le_refl links, fun second => isWalk _ second⟩
  | cons component first ih =>
    simp only [cons_append]
    cases component with
    | rootDir => exact ih walked
    | curDir | parentDir =>
      simp only [walkWith] at walked ⊢
      split at walked
      · exact ih walked
      · cases walked
    | normal name =>
      simp only [walkWith] at walked ⊢
      split at walked
      · obtain ⟨left, fewer, rest⟩ := follows _ _ _ walked
        refine ⟨left, fewer, fun second => ?_⟩
        rw [← append_assoc]
        exact rest second
      · exact ih walked
      · cases walked

theorem walk_append (walked : root.walk links here first = .ok middle) :
    ∃ left ≤ links, ∀ second,
      root.walk links here (first ++ second) = root.walk left middle second := by
  induction links generalizing here first middle with
  | zero => exact walkWith_append (fun _ _ => rfl) (fun _ _ _ followed => by cases followed) walked
  | succ links ih =>
    refine walkWith_append (fun _ _ => rfl) (fun _ _ _ followed => ?_) walked
    obtain ⟨left, fewer, rest⟩ := ih followed
    exact ⟨left, Nat.le_succ_of_le fewer, rest⟩

/-- More links change nothing unless they ran out. -/
theorem walkWith_mono {more : List α → List (Component α) → Except PathError (List α)}
    (follows : ∀ here rest, follow here rest ≠ .error .tooManyLinks →
      more here rest = follow here rest)
    (enough : root.walkWith follow here rest ≠ .error .tooManyLinks) :
    root.walkWith more here rest = root.walkWith follow here rest := by
  induction rest generalizing here with
  | nil => rfl
  | cons component rest ih =>
    cases component with
    | rootDir => exact ih enough
    | curDir | parentDir =>
      simp only [walkWith] at enough ⊢
      split at enough
      · exact ih enough
      · rfl
    | normal name =>
      simp only [walkWith] at enough ⊢
      split at enough
      · exact follows _ _ enough
      · exact ih enough
      · rfl

theorem walk_succ (enough : root.walk links here rest ≠ .error .tooManyLinks) :
    root.walk (links + 1) here rest = root.walk links here rest := by
  induction links generalizing here rest with
  | zero => exact walkWith_mono (fun _ _ ranOut => absurd rfl ranOut) enough
  | succ links ih => exact walkWith_mono (fun _ _ enough => ih enough) enough

theorem walk_mono {fewer : Nat} (isFewer : fewer ≤ links)
    (enough : root.walk fewer here rest ≠ .error .tooManyLinks) :
    root.walk links here rest = root.walk fewer here rest := by
  induction links, isFewer using Nat.le_induction with
  | base => rfl
  | succ links _ ih =>
    rw [walk_succ, ih]
    rw [ih]
    exact enough

/-- Walking on from the path that a walk ended at. -/
theorem walk_resume (isRoot : root.kind ≠ .symlink) {second : List (Component α)}
    (walked : root.walk links [] first = .ok middle)
    (enough : root.walk links [] (first ++ second) ≠ .error .tooManyLinks) :
    root.walk links [] (middle.map .normal ++ second) = root.walk links [] (first ++ second) := by
  have settled := walk_settled isRoot (.root isRoot) walked
  obtain ⟨left, fewer, rest⟩ := walk_append walked
  rw [rest] at enough ⊢
  rw [walk_names links [] settled]
  exact walk_mono fewer enough

/-! ## What stands at a path -/

theorem stat_concat (root : Node α) (links : Nat) (names : List α) (name : α) :
    root.stat links (names ++ [name]) =
      match root.walk links [] (names.map .normal) with
      | .ok here =>
        match root.look here name with
        | .ok node => .ok node.kind
        | .error error => .error error
      | .error error => .error error := by
  rw [stat, getLast?_concat, dropLast_concat]

theorem stat_settled (settled : root.Settled names) :
    ∃ kind, root.stat links names = .ok kind ∧ kind ≠ .symlink := by
  cases settled with
  | root isRoot => exact ⟨_, rfl, isRoot⟩
  | child settled found isNode =>
    rw [stat_concat, walk_settled_names links settled]
    dsimp only
    rw [found]
    exact ⟨_, rfl, isNode⟩

/-- What is not there is not there when one starts from where a walk ended. -/
theorem stat_resume (isRoot : root.kind ≠ .symlink) {front back : List α}
    (walked : root.walk links [] (front.map .normal) = .ok middle) (nonempty : back ≠ [])
    (missing : root.stat links (front ++ back) = .error .notFound) :
    root.stat links (middle ++ back) = .error .notFound := by
  obtain ⟨names, name, rfl⟩ := (eq_nil_or_concat back).resolve_left nonempty
  rw [concat_eq_append, ← append_assoc, stat_concat] at missing ⊢
  have enough : root.walk links [] (front.map .normal ++ names.map .normal) ≠
      .error .tooManyLinks := by
    intro ranOut
    rw [map_append, ranOut] at missing
    cases missing
  have resumed := walk_resume isRoot walked enough
  rw [map_append] at missing ⊢
  rw [resumed]
  exact missing

end Node

end Mentra.Foundation.FileTree
