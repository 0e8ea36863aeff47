import Mentra.Foundation.PathText

/-!
# The file roots of the runtime policy

Model of the file part of `mentra/src/runtime/control/policy.rs`: a requested path is made
absolute, its dots are folded, what exists of it is resolved by the operating system, and the
result is compared with the roots of the policy.  Paths are those of Unix, and the disk does
not change during a call.
-/

namespace Mentra.Policy

open Foundation
open Foundation.FileTree
open Foundation.PathText

/-- The entries of the root directory, how many links are followed, and where relative paths
start. -/
structure Disk where
  entries : List (Name × Node Name)
  linkLimit : Nat
  workingDirectory : List Name

namespace Disk

def root (disk : Disk) : Node Name :=
  .directory true disk.entries

/-- `fs::canonicalize`; the empty path is not found. -/
def canonicalize (disk : Disk) (path : String) : Except PathError (List Name) :=
  if components path = [] then .error .notFound
  else disk.root.walk disk.linkLimit disk.workingDirectory (components path)

/-- `fs::symlink_metadata` of an absolute path. -/
def symlinkMetadata (disk : Disk) (path : List Name) : Except PathError Kind :=
  disk.root.stat disk.linkLimit path

end Disk

/-- The text of an error of the operating system. -/
def displayError : PathError → String
  | .notFound => "No such file or directory (os error 2)"
  | .notADirectory => "Not a directory (os error 20)"
  | .permissionDenied => "Permission denied (os error 13)"
  | .tooManyLinks => "Too many levels of symbolic links (os error 40)"

/-- The roots that the policy adds to the base directory, and those it takes out. -/
structure RuntimePolicy where
  allowedReadRoots : List String := []
  allowedWriteRoots : List String := []
  deniedWriteRoots : List String := []

/-! ## Normal forms -/

/-- The path so far after one more component. -/
def foldComponent (path : String) (names : List Name) :
    Component Name → Except String (List Name)
  | .rootDir => .ok []
  | .curDir => .ok names
  | .parentDir =>
    if names = [] then .error ("Path '" ++ path ++ "' escapes the filesystem root")
    else .ok names.dropLast
  | .normal name => .ok (names ++ [name])

def normalizeAbsolutePath (path : String) : Except String (List Name) :=
  if isAbsolute path then (components path).foldlM (foldComponent path) []
  else .error ("Path '" ++ path ++ "' must resolve to an absolute path")

variable (disk : Disk)

/-- One round of the search for the part of a path that exists: a result, or the
part and the suffix of the next round. -/
def resolveRound (path existing missing : List Name) :
    Except String (List Name) ⊕ List Name × List Name :=
  match disk.canonicalize (ofNames existing) with
  | .ok resolved => .inl (.ok (resolved ++ missing))
  | .error .notFound =>
    match disk.symlinkMetadata existing with
    | .ok _ =>
      .inl (.error ("Failed to resolve existing path '" ++ ofNames existing ++ "': " ++
        displayError .notFound))
    | .error .notFound =>
      match existing.getLast? with
      | some component => .inr (existing.dropLast, component :: missing)
      | none =>
        .inl (.error ("Path '" ++ ofNames path ++ "' has no existing prefix to resolve"))
    | .error error =>
      .inl (.error ("Failed to inspect '" ++ ofNames existing ++ "': " ++ displayError error))
  | .error error =>
    .inl (.error ("Failed to resolve existing path '" ++ ofNames existing ++ "': " ++
      displayError error))

/-- The loop of `resolve_existing_components`; `none` if it did not come to an end. -/
def resolveRounds (disk : Disk) (path : List Name) :
    Nat → List Name → List Name → Option (Except String (List Name))
  | 0, _, _ => none
  | rounds + 1, existing, missing =>
    match resolveRound disk path existing missing with
    | .inl result => some result
    | .inr (shorter, longer) => resolveRounds disk path rounds shorter longer

def resolveExistingComponents (path : List Name) : Except String (List Name) :=
  (resolveRounds disk path (path.length + 1) path []).getD (.error "")

def normalizePolicyRoot (path : String) : String :=
  match normalizeAbsolutePath path >>= resolveExistingComponents disk with
  | .ok names => ofNames names
  | .error _ =>
    match disk.canonicalize path with
    | .ok names => ofNames names
    | .error _ => path

/-! ## Authorization -/

def pathIsUnderAny (path : String) (roots : List String) : Bool :=
  let candidate := normalizePolicyRoot disk path
  roots.any fun root => startsWith candidate (normalizePolicyRoot disk root)

def pathIsAllowed (path defaultRoot : String) (extraRoots : List String) : Bool :=
  let candidate := normalizePolicyRoot disk path
  startsWith candidate (normalizePolicyRoot disk defaultRoot) ||
    extraRoots.any fun root => startsWith candidate (normalizePolicyRoot disk root)

def resolveAuthorizedPath (baseDir path : String) : Except String (List Name) :=
  normalizeAbsolutePath (join baseDir path) >>= resolveExistingComponents disk

def authorizeFileRead (policy : RuntimePolicy) (baseDir path : String) : Except String String :=
  match resolveAuthorizedPath disk baseDir path with
  | .error error => .error error
  | .ok names =>
    let resolved := ofNames names
    if pathIsAllowed disk resolved baseDir policy.allowedReadRoots then .ok resolved
    else .error ("Path '" ++ resolved ++ "' is outside the runtime policy read roots")

def authorizeFileWrite (policy : RuntimePolicy) (baseDir path : String) : Except String String :=
  match resolveAuthorizedPath disk baseDir path with
  | .error error => .error error
  | .ok names =>
    let resolved := ofNames names
    if pathIsUnderAny disk resolved policy.deniedWriteRoots then
      .error ("Path '" ++ resolved ++ "' is inside a runtime policy denied write root")
    else if pathIsAllowed disk resolved baseDir policy.allowedWriteRoots then .ok resolved
    else .error ("Path '" ++ resolved ++ "' is outside the runtime policy write roots")

end Mentra.Policy
