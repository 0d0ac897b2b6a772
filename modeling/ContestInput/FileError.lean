/-!
# File errors

Why a file cannot be read or written.
-/

namespace ContestInput

inductive FileError where
  /-- No file of the name exists, or no folder on the way to it. -/
  | notFound
  | permissionDenied
  /-- A file stands on the way to it where a folder should. -/
  | notFolder
  /-- The name is a folder's. -/
  | isFolder
  | nameTooLong
  /-- Any other reason, in the words of the machine. -/
  | other (reason : String)
  deriving DecidableEq, Repr

def FileError.message : FileError → String
  | .notFound => "No such file or directory (os error 2)"
  | .permissionDenied => "Permission denied (os error 13)"
  | .notFolder => "Not a directory (os error 20)"
  | .isFolder => "Is a directory (os error 21)"
  | .nameTooLong => "File name too long (os error 36)"
  | .other reason => reason

end ContestInput
