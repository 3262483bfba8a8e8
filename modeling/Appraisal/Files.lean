/-!
# Files

What a program may do with files, and why it can fail. The operations are those of a monad, so that a program
runs alike on the files of a machine and on a tree of files that is only a value.
-/

namespace Appraisal

/-- Why a file cannot be read or written. -/
inductive FileError where
  | notFound
  | notDirectory
  | isDirectory
  | nameTooLong
  | nulInName
  | notText
  | other (text : String)
deriving DecidableEq, Repr

def FileError.message : FileError → String
  | notFound => "No such file or directory (os error 2)"
  | notDirectory => "Not a directory (os error 20)"
  | isDirectory => "Is a directory (os error 21)"
  | nameTooLong => "File name too long (os error 36)"
  | nulInName => "file name contained an unexpected NUL byte"
  | notText => "stream did not contain valid UTF-8"
  | other t => t

class Files (m : Type → Type) where
  /-- Whether a file or a directory stands at a path. -/
  present : String → m Bool
  read : String → m (Except FileError String)
  /-- Writes a text in place of what the file held. Directories are not made. -/
  write : String → String → m (Except FileError Unit)

end Appraisal
