/-!
# Faults of file access

What can go wrong when a path is looked up, read or written, with the system's wording of it.
-/

namespace ModuleBundler

/-- Why a file or directory cannot be used. -/
inductive FileFault where
  | notFound
  | isDirectory
  | notDirectory
  | alreadyExists
  | tooManyLinks
  | nameTooLong
  /-- The bytes are no text. -/
  | invalidText
deriving DecidableEq

def FileFault.message : FileFault → String
  | .notFound => "No such file or directory (os error 2)"
  | .isDirectory => "Is a directory (os error 21)"
  | .notDirectory => "Not a directory (os error 20)"
  | .alreadyExists => "File exists (os error 17)"
  | .tooManyLinks => "Too many levels of symbolic links (os error 40)"
  | .nameTooLong => "File name too long (os error 36)"
  | .invalidText => "stream did not contain valid UTF-8"

end ModuleBundler
