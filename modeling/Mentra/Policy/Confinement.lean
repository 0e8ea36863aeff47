import Mentra.Foundation.Outcome
import Mentra.Policy.Core

/-!
# Where an authorized write goes

What the normal form of a path is, without the loop that finds it: the longest
part that exists, as the operating system resolves it, and the rest as it stands.
It is its own normal form, and so is every part of it from the root.
-/

namespace Mentra.Policy

open Foundation List
open Foundation.FileTree
open Foundation.PathText
open Foundation.Outcome (bind_eq_ok_iff)

variable {disk : Disk} {names location : List Name}

namespace Disk

theorem root_kind (disk : Disk) : disk.root.kind ≠ .symlink :=
  nofun

theorem canonicalize_ofNames (disk : Disk) (names : List Name) :
    disk.canonicalize (ofNames names) = disk.root.walk disk.linkLimit [] (names.map .normal) := by
  rw [canonicalize, components_ofNames, if_neg (cons_ne_nil _ _)]
  cases disk.linkLimit with
  | zero | succ links => rfl

/-- Neither the path itself nor what it leads to is found. -/
structure Missing (disk : Disk) (names : List Name) : Prop where
  target : disk.canonicalize (ofNames names) = .error .notFound
  itself : disk.symlinkMetadata names = .error .notFound

/-- A path resolves to a location: a part of it exists and is resolved, and nothing
of the rest exists. -/
structure Splits (disk : Disk) (front back middle : List Name) : Prop where
  resolved : disk.canonicalize (ofNames front) = .ok middle
  missing : ∀ part, part ≠ [] → part <+: back → disk.Missing (front ++ part)

def Resolves (disk : Disk) (names location : List Name) : Prop :=
  ∃ front back middle, names = front ++ back ∧ location = middle ++ back ∧
    disk.Splits front back middle

variable {front back middle : List Name}

theorem Splits.settled (splits : disk.Splits front back middle) : disk.root.Settled middle := by
  have walked := splits.resolved
  rw [canonicalize_ofNames] at walked
  exact Node.walk_settled disk.root_kind (.root disk.root_kind) walked

theorem canonicalize_of_settled (settled : disk.root.Settled names) :
    disk.canonicalize (ofNames names) = .ok names := by
  rw [canonicalize_ofNames]
  exact Node.walk_settled_names _ settled

/-- The missing rest is missing from the resolved part too. -/
theorem Splits.self (splits : disk.Splits front back middle) : disk.Splits middle back middle where
  resolved := canonicalize_of_settled splits.settled
  missing part nonempty isPart := by
    obtain ⟨target, itself⟩ := splits.missing part nonempty isPart
    have walked := splits.resolved
    rw [canonicalize_ofNames] at walked target
    rw [map_append] at target
    have enough : disk.root.walk disk.linkLimit [] (front.map .normal ++ part.map .normal) ≠
        .error .tooManyLinks := by
      rw [target]
      nofun
    constructor
    · rw [canonicalize_ofNames, map_append, Node.walk_resume disk.root_kind walked enough]
      exact target
    · exact Node.stat_resume disk.root_kind walked nonempty itself

variable {part : List Name}

/-- A part of a location from the root is in the resolved part or goes beyond it. -/
theorem prefix_append_cases (isPart : part <+: middle ++ back) :
    part <+: middle ∨ ∃ beyond, part = middle ++ beyond ∧ beyond <+: back := by
  rcases prefix_or_prefix_of_prefix isPart (prefix_append middle back) with
    inside | ⟨beyond, rfl⟩
  · exact .inl inside
  · exact .inr ⟨beyond, rfl, (prefix_append_right_inj middle).mp isPart⟩

/-- Every part of a location from the root resolves to itself. -/
theorem Resolves.of_prefix (resolves : disk.Resolves names location)
    (isPart : part <+: location) : disk.Resolves part part := by
  obtain ⟨front, back, middle, -, rfl, splits⟩ := resolves
  rcases prefix_append_cases isPart with inside | ⟨beyond, rfl, isBeyond⟩
  · have settled := splits.settled.of_prefix inside
    refine ⟨part, [], part, (append_nil _).symm, (append_nil _).symm,
      canonicalize_of_settled settled, ?_⟩
    intro rest nonempty isRest
    exact absurd (prefix_nil.mp isRest) nonempty
  · have again := splits.self
    exact ⟨middle, beyond, middle, rfl, rfl, again.resolved,
      fun rest nonempty isRest => again.missing rest nonempty (isRest.trans isBeyond)⟩

theorem Resolves.not_symlink (resolves : disk.Resolves names location)
    (isPart : part <+: location) : disk.symlinkMetadata part ≠ .ok .symlink := by
  obtain ⟨front, back, middle, -, rfl, splits⟩ := resolves
  have settledPart (settled : disk.root.Settled part) :
      disk.symlinkMetadata part ≠ .ok .symlink := by
    obtain ⟨kind, isKind, notLink⟩ := Node.stat_settled settled
    rw [symlinkMetadata, isKind]
    intro isLink
    cases isLink
    exact notLink rfl
  rcases prefix_append_cases isPart with inside | ⟨beyond, rfl, isBeyond⟩
  · exact settledPart (splits.settled.of_prefix inside)
  · by_cases nothing : beyond = []
    · rw [nothing, append_nil] at settledPart ⊢
      exact settledPart splits.settled
    · rw [(splits.self.missing beyond nothing isBeyond).itself]
      nofun

end Disk

/-! ## The loop -/

section Loop

variable {path existing missing shorter : List Name} {name : Name}

theorem resolveRound_of_canonicalize {middle : List Name}
    (resolved : disk.canonicalize (ofNames existing) = .ok middle) :
    resolveRound disk path existing missing = .inl (.ok (middle ++ missing)) := by
  rw [resolveRound, resolved]

theorem resolveRound_of_missing (isMissing : disk.Missing (shorter ++ [name])) :
    resolveRound disk path (shorter ++ [name]) missing = .inr (shorter, name :: missing) := by
  rw [resolveRound, isMissing.target]
  dsimp only
  rw [isMissing.itself]
  dsimp only
  rw [getLast?_concat, dropLast_concat]

/-- A link that leads nowhere, or something that cannot be looked at. -/
theorem resolveRound_of_present (target : disk.canonicalize (ofNames existing) = .error .notFound)
    (itself : disk.symlinkMetadata existing ≠ .error .notFound) :
    ∃ text, resolveRound disk path existing missing = .inl (.error text) := by
  rw [resolveRound, target]
  dsimp only
  cases metadata : disk.symlinkMetadata existing with
  | ok kind => exact ⟨_, rfl⟩
  | error error =>
    cases error with
    | notFound => exact absurd metadata itself
    | _ => exact ⟨_, rfl⟩

theorem resolveRound_cases (disk : Disk) (path existing missing : List Name) :
    (∃ middle, disk.canonicalize (ofNames existing) = .ok middle ∧
      resolveRound disk path existing missing = .inl (.ok (middle ++ missing))) ∨
    (∃ error, resolveRound disk path existing missing = .inl (.error error)) ∨
    ∃ shorter name, existing = shorter ++ [name] ∧ disk.Missing existing ∧
      resolveRound disk path existing missing = .inr (shorter, name :: missing) := by
  cases target : disk.canonicalize (ofNames existing) with
  | ok middle => exact .inl ⟨middle, rfl, resolveRound_of_canonicalize target⟩
  | error error =>
    right
    cases error with
    | notFound =>
      by_cases itself : disk.symlinkMetadata existing = .error .notFound
      · rcases eq_nil_or_concat existing with rfl | ⟨shorter, name, rfl⟩
        · -- The root directory is there.
          cases itself
        · rw [concat_eq_append] at target itself ⊢
          have isMissing : disk.Missing (shorter ++ [name]) := ⟨target, itself⟩
          exact .inr ⟨shorter, name, rfl, isMissing, resolveRound_of_missing isMissing⟩
      · exact .inl (resolveRound_of_present target itself)
    | _ =>
      rw [resolveRound, target]
      exact .inl ⟨_, rfl⟩

/-- Each round takes a component away, so the loop ends. -/
theorem resolveRounds_isSome (disk : Disk) (path missing : List Name) {rounds : Nat}
    (enough : existing.length < rounds) :
    (resolveRounds disk path rounds existing missing).isSome := by
  induction rounds generalizing existing missing with
  | zero => exact absurd enough (Nat.not_lt_zero _)
  | succ rounds ih =>
    rcases resolveRound_cases disk path existing missing with
      ⟨middle, -, round⟩ | ⟨error, round⟩ | ⟨shorter, name, rfl, -, round⟩
    · rw [resolveRounds, round]
      rfl
    · rw [resolveRounds, round]
      rfl
    · rw [resolveRounds, round]
      apply ih
      rw [length_append, length_singleton] at enough
      exact Nat.lt_of_succ_lt_succ enough

/-- What the loop finds, when nothing of the suffix exists. -/
theorem resolves_of_resolveRounds {rounds : Nat}
    (nothing : ∀ part, part ≠ [] → part <+: missing → disk.Missing (existing ++ part))
    (found : resolveRounds disk path rounds existing missing = some (.ok location)) :
    disk.Resolves (existing ++ missing) location := by
  induction rounds generalizing existing missing with
  | zero => cases found
  | succ rounds ih =>
    rcases resolveRound_cases disk path existing missing with
      ⟨middle, resolved, round⟩ | ⟨error, round⟩ | ⟨shorter, name, rfl, isMissing, round⟩
    · rw [resolveRounds, round] at found
      cases found
      exact ⟨existing, missing, middle, rfl, rfl, resolved, nothing⟩
    · rw [resolveRounds, round] at found
      cases found
    · rw [resolveRounds, round] at found
      rw [append_assoc, singleton_append]
      apply ih _ found
      intro part nonempty isPart
      cases part with
      | nil => exact absurd rfl nonempty
      | cons first part =>
        obtain ⟨rfl, isRest⟩ := cons_prefix_cons.mp isPart
        rw [append_cons]
        by_cases last : part = []
        · rw [last, append_nil]
          exact isMissing
        · exact nothing part last isRest

/-- The loop comes to the part that exists. -/
theorem resolveRounds_of_splits {front back middle part : List Name} {rounds : Nat}
    (splits : disk.Splits front back middle) (whole : part ++ missing = back)
    (enough : part.length < rounds) :
    resolveRounds disk path rounds (front ++ part) missing = some (.ok (middle ++ back)) := by
  induction rounds generalizing part missing with
  | zero => exact absurd enough (Nat.not_lt_zero _)
  | succ rounds ih =>
    rcases eq_nil_or_concat part with rfl | ⟨shorter, name, rfl⟩
    · rw [nil_append] at whole
      rw [resolveRounds, append_nil, resolveRound_of_canonicalize splits.resolved, whole]
    · rw [concat_eq_append] at whole enough ⊢
      have isMissing : disk.Missing (front ++ (shorter ++ [name])) :=
        splits.missing _ (by simp) ⟨missing, whole⟩
      rw [← append_assoc] at isMissing ⊢
      rw [resolveRounds, resolveRound_of_missing isMissing]
      apply ih
      · rw [← whole, append_assoc, singleton_append]
      · rw [length_append, length_singleton] at enough
        exact Nat.lt_of_succ_lt_succ enough

end Loop

/-- The loop finds exactly what the path resolves to. -/
theorem resolveExistingComponents_eq_ok_iff :
    resolveExistingComponents disk names = .ok location ↔ disk.Resolves names location := by
  constructor
  · intro found
    have ended := resolveRounds_isSome disk names [] (Nat.lt_succ_self names.length)
    obtain ⟨result, isResult⟩ := Option.isSome_iff_exists.mp ended
    rw [resolveExistingComponents, isResult, Option.getD_some] at found
    rw [found] at isResult
    have resolves := resolves_of_resolveRounds (fun part nonempty isPart =>
      absurd (prefix_nil.mp isPart) nonempty) isResult
    rwa [append_nil] at resolves
  · rintro ⟨front, back, middle, rfl, rfl, splits⟩
    have enough : back.length < (front ++ back).length + 1 := by
      rw [length_append]
      omega
    rw [resolveExistingComponents,
      resolveRounds_of_splits splits (append_nil back) enough, Option.getD_some]

/-! ## Roots -/

/-- Where a root is: what its folded path resolves to or, failing that, where the operating
system finds it. -/
inductive Locates (disk : Disk) (root : String) : List Name → Prop
  | resolved {names location : List Name} (folds : normalizeAbsolutePath root = .ok names)
      (resolves : disk.Resolves names location) : Locates disk root location
  | canonical {location : List Name}
      (unresolved : ∀ names, normalizeAbsolutePath root = .ok names →
        ∀ location, ¬ disk.Resolves names location)
      (found : disk.canonicalize root = .ok location) : Locates disk root location

/-- A path of names lies under a root of the policy. -/
def LiesUnder (disk : Disk) (names : List Name) (root : String) : Prop :=
  ∃ location, Locates disk root location ∧ location <+: names

theorem normalizePolicyRoot_cases (disk : Disk) (root : String) :
    (∃ location, Locates disk root location ∧ normalizePolicyRoot disk root = ofNames location) ∨
    (∀ location, ¬ Locates disk root location) ∧ normalizePolicyRoot disk root = root := by
  rw [normalizePolicyRoot]
  cases normal : normalizeAbsolutePath root >>= resolveExistingComponents disk with
  | ok location =>
    obtain ⟨names, folds, resolves⟩ := bind_eq_ok_iff.mp normal
    exact .inl ⟨location, .resolved folds (resolveExistingComponents_eq_ok_iff.mp resolves), rfl⟩
  | error error =>
    have unresolved (names : List Name) (folds : normalizeAbsolutePath root = .ok names)
        (location : List Name) : ¬ disk.Resolves names location := by
      intro resolves
      have succeeded : normalizeAbsolutePath root >>= resolveExistingComponents disk =
          .ok location :=
        bind_eq_ok_iff.mpr ⟨names, folds, resolveExistingComponents_eq_ok_iff.mpr resolves⟩
      rw [normal] at succeeded
      cases succeeded
    cases found : disk.canonicalize root with
    | ok location => exact .inl ⟨location, .canonical unresolved found, rfl⟩
    | error error =>
      refine .inr ⟨?_, rfl⟩
      intro location locates
      cases locates with
      | resolved folds resolves => exact unresolved _ folds _ resolves
      | canonical _ isFound =>
        rw [found] at isFound
        cases isFound

/-! ## Spellings -/

theorem foldlM_names (path : String) (front names : List Name) :
    (names.map .normal).foldlM (foldComponent path) front = .ok (front ++ names) := by
  induction names generalizing front with
  | nil =>
    rw [append_nil]
    rfl
  | cons name names ih =>
    rw [map_cons, foldlM_cons, append_cons]
    exact ih _

theorem normalizeAbsolutePath_of_components {path : String}
    (isPath : components path = .rootDir :: names.map .normal) (absolute : isAbsolute path) :
    normalizeAbsolutePath path = .ok names := by
  rw [normalizeAbsolutePath, if_pos absolute, isPath]
  exact foldlM_names path [] names

theorem resolve_location (resolves : disk.Resolves names location) :
    normalizeAbsolutePath (ofNames location) >>= resolveExistingComponents disk = .ok location := by
  have folds := normalizeAbsolutePath_of_components (components_ofNames location)
    (isAbsolute_ofNames location)
  have self := resolveExistingComponents_eq_ok_iff.mpr (resolves.of_prefix (prefix_refl _))
  exact bind_eq_ok_iff.mpr ⟨location, folds, self⟩

theorem normalizePolicyRoot_location (resolves : disk.Resolves names location) :
    normalizePolicyRoot disk (ofNames location) = ofNames location := by
  rw [normalizePolicyRoot, resolve_location resolves]

theorem isAbsolute_of_rootDir {path : String} {rest : List (Component Name)}
    (isPath : components path = .rootDir :: rest) : isAbsolute path := by
  by_contra relative
  have inBody : Component.rootDir ∈ (pieces path).filterMap ofPiece := by
    rw [components, if_neg relative] at isPath
    split at isPath
    · cases isPath
    · rw [isPath]
      exact mem_cons_self
  obtain ⟨piece, -, isRoot⟩ := mem_filterMap.mp inBody
  rw [ofPiece] at isRoot
  split at isRoot
  · cases isRoot
  · split at isRoot
    · cases isRoot
    · cases isRoot

variable {root : String}

/-- A location that begins with a root as it is spelled lies under that root. -/
theorem liesUnder_of_spelled (resolves : disk.Resolves names location)
    (spelled : startsWith (ofNames location) root) (nonempty : components root ≠ []) :
    LiesUnder disk location root := by
  rw [startsWith, decide_eq_true_eq, components_ofNames] at spelled
  cases isRoot : components root with
  | nil => exact absurd isRoot nonempty
  | cons first rest =>
    rw [isRoot] at spelled
    obtain ⟨rfl, isRest⟩ := cons_prefix_cons.mp spelled
    obtain ⟨front, isFront, rfl⟩ := prefix_map_iff.mp isRest
    have folds := normalizeAbsolutePath_of_components isRoot (isAbsolute_of_rootDir isRoot)
    exact ⟨front, .resolved folds (resolves.of_prefix isFront), isFront⟩

/-! ## Writes -/

/-- A location lies under a root when the comparison of normal forms says so, the
empty path apart. -/
theorem liesUnder_of_startsWith (resolves : disk.Resolves names location)
    (under : startsWith (ofNames location) (normalizePolicyRoot disk root))
    (nonempty : components root ≠ []) : LiesUnder disk location root := by
  rcases normalizePolicyRoot_cases disk root with ⟨form, locates, isForm⟩ | ⟨-, spelled⟩
  · rw [isForm] at under
    exact ⟨form, locates, startsWith_ofNames.mp under⟩
  · rw [spelled] at under
    exact liesUnder_of_spelled resolves under nonempty

theorem normalizePolicyRoot_of_locates (locates : Locates disk root location) :
    normalizePolicyRoot disk root = ofNames location := by
  rw [normalizePolicyRoot]
  cases locates with
  | resolved folds resolves =>
    have normal : normalizeAbsolutePath root >>= resolveExistingComponents disk = .ok location :=
      bind_eq_ok_iff.mpr ⟨_, folds, resolveExistingComponents_eq_ok_iff.mpr resolves⟩
    rw [normal]
  | canonical unresolved found =>
    cases normal : normalizeAbsolutePath root >>= resolveExistingComponents disk with
    | ok other =>
      obtain ⟨names, folds, resolves⟩ := bind_eq_ok_iff.mp normal
      exact absurd (resolveExistingComponents_eq_ok_iff.mp resolves) (unresolved names folds other)
    | error error =>
      dsimp only
      rw [found]

theorem startsWith_of_liesUnder (under : LiesUnder disk location root) :
    startsWith (ofNames location) (normalizePolicyRoot disk root) := by
  obtain ⟨form, locates, isFront⟩ := under
  rw [normalizePolicyRoot_of_locates locates]
  exact startsWith_ofNames.mpr isFront

theorem normalizePolicyRoot_empty (empty : components root = []) :
    normalizePolicyRoot disk root = root := by
  have relative : ¬ isAbsolute root := by
    intro absolute
    rw [components, if_pos absolute] at empty
    cases empty
  have fails : normalizeAbsolutePath root >>= resolveExistingComponents disk =
      .error ("Path '" ++ root ++ "' must resolve to an absolute path") := by
    rw [normalizeAbsolutePath, if_neg relative]
    rfl
  rw [normalizePolicyRoot, fails]
  dsimp only
  rw [Disk.canonicalize, if_pos empty]

theorem resolveAuthorizedPath_ok {baseDir path : String}
    (resolved : resolveAuthorizedPath disk baseDir path = .ok location) :
    ∃ names, disk.Resolves names location := by
  obtain ⟨names, -, resolves⟩ := bind_eq_ok_iff.mp resolved
  exact ⟨names, resolveExistingComponents_eq_ok_iff.mp resolves⟩

/-- The search for the part of a path that exists ends.  A path that may be written is absolute,
of names only, and passes through no existing link; it lies under the base directory or an
allowed root, and under no denied root, neither by where the root is nor by how it is spelled. -/
theorem authorized_write_confined (disk : Disk) (policy : RuntimePolicy) (baseDir path : String) :
    (∀ names, (resolveRounds disk names (names.length + 1) names []).isSome) ∧
    ∀ resolved, authorizeFileWrite disk policy baseDir path = .ok resolved →
      ∃ names, resolved = ofNames names ∧
        components resolved = .rootDir :: names.map .normal ∧
        (∀ part, part <+: names → disk.symlinkMetadata part ≠ .ok .symlink) ∧
        (∃ root ∈ baseDir :: policy.allowedWriteRoots,
          startsWith resolved (normalizePolicyRoot disk root) ∧
            (components root ≠ [] → LiesUnder disk names root)) ∧
        ∀ root ∈ policy.deniedWriteRoots,
          ¬ LiesUnder disk names root ∧
            ¬ startsWith resolved (normalizePolicyRoot disk root) ∧ ¬ startsWith resolved root := by
  refine ⟨fun names => resolveRounds_isSome disk names [] (Nat.lt_succ_self _), ?_⟩
  intro resolved authorized
  rw [authorizeFileWrite] at authorized
  split at authorized
  · cases authorized
  · rename_i location isResolved
    obtain ⟨names, resolves⟩ := resolveAuthorizedPath_ok isResolved
    have self := normalizePolicyRoot_location resolves
    dsimp only at authorized
    split at authorized
    · cases authorized
    · rename_i notDenied
      split at authorized
      · rename_i allowed
        cases authorized
        have denied (root : String) (isDenied : root ∈ policy.deniedWriteRoots) :
            ¬ startsWith (ofNames location) (normalizePolicyRoot disk root) := by
          intro under
          apply notDenied
          rw [pathIsUnderAny, self]
          exact any_eq_true.mpr ⟨root, isDenied, under⟩
        refine ⟨location, rfl, components_ofNames location, fun part => resolves.not_symlink, ?_,
          ?_⟩
        · have isAllowed : ∃ root ∈ baseDir :: policy.allowedWriteRoots,
              startsWith (ofNames location) (normalizePolicyRoot disk root) := by
            rw [pathIsAllowed, self, Bool.or_eq_true] at allowed
            rcases allowed with isBase | isExtra
            · exact ⟨baseDir, mem_cons_self, isBase⟩
            · obtain ⟨root, isRoot, under⟩ := any_eq_true.mp isExtra
              exact ⟨root, mem_cons_of_mem _ isRoot, under⟩
          obtain ⟨root, isRoot, under⟩ := isAllowed
          exact ⟨root, isRoot, under, liesUnder_of_startsWith resolves under⟩
        · intro root isDenied
          refine ⟨fun under => denied root isDenied (startsWith_of_liesUnder under),
            denied root isDenied, ?_⟩
          intro spelled
          by_cases empty : components root = []
          · apply denied root isDenied
            rw [normalizePolicyRoot_empty empty]
            exact spelled
          · exact denied root isDenied
              (startsWith_of_liesUnder (liesUnder_of_spelled resolves spelled empty))
      · cases authorized

/-- A workspace with a directory, a link to it, and a directory that is denied. -/
def workspaceDisk : Disk where
  entries :=
    let source : Name := ⟨"src", by decide +kernel⟩
    [(⟨"ws", by decide +kernel⟩, .directory true
      [(source, .directory true []), (⟨".git", by decide +kernel⟩, .directory true []),
        (⟨"link", by decide +kernel⟩, .symlink [.normal source])])]
  linkLimit := 40
  workingDirectory := []

theorem authorized_write_confined_link :
    authorizeFileWrite workspaceDisk { deniedWriteRoots := ["/ws/.git"] } "/ws"
        "link/./old/../new.txt" = .ok "/ws/src/new.txt" ∧
      ∃ names, "/ws/src/new.txt" = ofNames names ∧
        (∀ part, part <+: names → workspaceDisk.symlinkMetadata part ≠ .ok .symlink) ∧
        ¬ LiesUnder workspaceDisk names "/ws/.git" := by
  have authorized : authorizeFileWrite workspaceDisk { deniedWriteRoots := ["/ws/.git"] } "/ws"
      "link/./old/../new.txt" = .ok "/ws/src/new.txt" := by
    decide +kernel
  obtain ⟨names, isNames, -, noLink, -, denied⟩ :=
    (authorized_write_confined _ _ _ _).2 _ authorized
  exact ⟨authorized, names, isNames, noLink, (denied "/ws/.git" mem_cons_self).1⟩

/-- To authorize a path that was authorized, for reading or for writing, changes nothing: it is
granted again, as it is. -/
theorem authorized_path_stands (disk : Disk) (policy : RuntimePolicy) (baseDir path : String) :
    (authorizeFileRead disk policy baseDir path >>= authorizeFileRead disk policy baseDir) =
        authorizeFileRead disk policy baseDir path ∧
      (authorizeFileWrite disk policy baseDir path >>= authorizeFileWrite disk policy baseDir) =
        authorizeFileWrite disk policy baseDir path := by
  cases resolved : resolveAuthorizedPath disk baseDir path with
  | error error =>
    rw [authorizeFileRead, authorizeFileWrite, resolved]
    exact ⟨rfl, rfl⟩
  | ok location =>
    obtain ⟨names, resolves⟩ := resolveAuthorizedPath_ok resolved
    have again : resolveAuthorizedPath disk baseDir (ofNames location) = .ok location := by
      rw [resolveAuthorizedPath, join, if_pos (isAbsolute_ofNames location)]
      exact resolve_location resolves
    constructor
    · rw [authorizeFileRead, resolved]
      dsimp only
      split
      · rename_i allowed
        change authorizeFileRead disk policy baseDir (ofNames location) = _
        rw [authorizeFileRead, again]
        exact if_pos allowed
      · rfl
    · rw [authorizeFileWrite, resolved]
      dsimp only
      split
      · rfl
      · rename_i denied
        split
        · rename_i allowed
          change authorizeFileWrite disk policy baseDir (ofNames location) = _
          rw [authorizeFileWrite, again]
          exact (if_neg denied).trans (if_pos allowed)
        · rfl

end Mentra.Policy
