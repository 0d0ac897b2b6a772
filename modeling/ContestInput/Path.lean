import ContestInput.FileError
/-!
# Paths

Where a path leads to from a folder that holds no other folders: to a file in that folder, in
one around it or at the root. Slashes stand between the names on a path, a name of one dot leads
nowhere else and a name of two dots to the folder around.
-/

namespace ContestInput

/-- A folder that a path can lead through. -/
inductive Ground where
  /-- The folder that encloses the path's start in so many levels; none is the start itself. -/
  | around (levels : Nat)
  | root
  deriving DecidableEq, Repr

/-- The folder around a folder. The root is its own. -/
def Ground.parent : Ground → Ground
  | .around levels => .around (levels + 1)
  | .root => .root

structure Spot where
  ground : Ground
  name : String
  deriving DecidableEq, Repr

namespace Path

/-- The names on a path. More than one slash may stand between two of them. -/
def names (path : String) : List String :=
  ((path.toList.splitBy fun a b => a ≠ '/' && b ≠ '/').filter (· ≠ ['/'])).map String.ofList

def start (path : String) : Ground :=
  if path.toList.head? = some '/' then .root else .around 0

def isTooLong (name : String) : Bool :=
  255 < name.utf8ByteSize

/-- Follows names that have to be folders. Dots are the only ones that are, so any other name
ends the way, at a file if `isFile` knows one there. -/
def follow (isFile : Spot → Bool) (ground : Ground) : List String → Except FileError Ground
  | [] => .ok ground
  | name :: names =>
    if name = "." then follow isFile ground names
    else if name = ".." then follow isFile ground.parent names
    else if isTooLong name then .error .nameTooLong
    else if isFile ⟨ground, name⟩ then .error .notFolder
    else .error .notFound

/-- The place of a file at the end of a path, be it there or not. A path that ends in dots or in
a slash is a folder's. -/
def locate (isFile : Spot → Bool) (path : String) : Except FileError Spot :=
  if 4095 < path.utf8ByteSize then .error .nameTooLong
  else if path.isEmpty then .error .notFound
  else do
    let ground ← follow isFile (start path) (names path).dropLast
    match (names path).getLast? with
    | none => .error .isFolder
    | some name =>
      if name = "." || name = ".." || path.toList.getLast? = some '/' then .error .isFolder
      else if isTooLong name then .error .nameTooLong
      else .ok ⟨ground, name⟩

example : names "./a//../b" = [".", "a", "..", "b"] := by decide +kernel

example : (locate (fun _ => false) ".//o.txt").toOption = some ⟨.around 0, "o.txt"⟩ := by
  decide +kernel

end Path

end ContestInput
