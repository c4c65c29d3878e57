import Recalc.Csv.Reader

/-!
# Files that cannot be used
-/

namespace Recalc

/-- Why the system refuses to open, read or write a file. -/
inductive FileError where
  | missing
  | notDirectory
  | directory
  | denied
  | nameTooLong
  | other (text : String)
  deriving DecidableEq, Repr

def FileError.message : FileError → String
  | missing => "No such file or directory (os error 2)"
  | notDirectory => "Not a directory (os error 20)"
  | directory => "Is a directory (os error 21)"
  | denied => "Permission denied (os error 13)"
  | nameTooLong => "File name too long (os error 36)"
  | other text => text

namespace Csv

inductive Error where
  /-- The file could not be opened. -/
  | file (cause : FileError)
  /-- The file could be opened, but not read. -/
  | reading (cause : FileError)
  | notText (cause : Utf8Error)
  deriving DecidableEq, Repr

namespace Error

def message : Error → String
  | file cause => "IO error: " ++ cause.message
  | reading cause => "CSV error: " ++ cause.message
  | notText cause => "CSV error: " ++ cause.message

/-- What led to the error. -/
def causes : Error → List String
  | file cause | reading cause => [cause.message]
  | notText cause => [cause.message]

end Error

end Csv

end Recalc
