import ContestInput.CommandLine
import ContestInput.Path
/-!
# Folders

A folder of files without further folders in it, as a place for the command line to work in. The
folders around it hold files as well, by their places as seen from the folder.
-/

namespace ContestInput

/-- The files of a folder and of those around it. -/
structure Folder where
  files : List (Spot × String)
  deriving DecidableEq, Repr

namespace Folder

def ofList (files : List (String × String)) : Folder :=
  ⟨files.map fun (name, content) => (⟨.around 0, name⟩, content)⟩

def get? (f : Folder) (spot : Spot) : Option String :=
  f.files.lookup spot

def put (f : Folder) (spot : Spot) (content : String) : Folder :=
  ⟨(spot, content) :: f.files.filter (·.1 ≠ spot)⟩

def locate (f : Folder) (path : String) : Except FileError Spot :=
  Path.locate (fun spot => (f.get? spot).isSome) path

def contentAt (f : Folder) (path : String) : Except FileError String := do
  let spot ← f.locate path
  match f.get? spot with
  | some content => .ok content
  | none => .error .notFound

def putAt (f : Folder) (path content : String) : Except FileError Folder := do
  return f.put (← f.locate path) content

def place : CommandLine.Files (StateM Folder) where
  read path := do
    return (← get).contentAt path
  write path content := do
    match (← get).putAt path content with
    | .ok f =>
      set f
      return .ok ()
    | .error e => return .error e

theorem get?_put_self (f : Folder) (spot : Spot) (content : String) :
    (f.put spot content).get? spot = some content := by
  simp [get?, put]

theorem get?_put_of_ne (f : Folder) {spot other : Spot} (content : String)
    (h : other ≠ spot) : (f.put spot content).get? other = f.get? other := by
  have hne : (other == spot) = false := by simpa using h
  simp only [get?, put, List.lookup_cons, hne]
  induction f.files with
  | nil => rfl
  | cons file files ih =>
    by_cases hk : file.1 = spot
    · rw [List.filter_cons_of_neg (by simpa using hk), List.lookup_cons, hk, hne]
      exact ih
    · rw [List.filter_cons_of_pos (by simpa using hk), List.lookup_cons, List.lookup_cons, ih]

end Folder

end ContestInput
