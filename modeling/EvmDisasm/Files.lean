import EvmDisasm.Basic

/-!
# What the program asks of files

The three things that the program does to files, for any way to carry them out: on a disk, or on a
tree of files that is a value (`FileTree.files`). Each of them can fail, for the reasons that the
operating system gives and in its words.
-/

namespace EvmDisasm

inductive FileError where
  /-- The path names nothing. -/
  | notFound
  /-- The path leads through something that is no directory. -/
  | notDirectory
  /-- The path names a directory where a file is wanted. -/
  | isDirectory
  /-- The path names something that is there already. -/
  | alreadyExists
  /-- The path or a name on it has too many bytes. -/
  | nameTooLong
  /-- The path holds the character that ends texts for the system. -/
  | zeroCharacter
  /-- The contents are no text. -/
  | notText
  /-- The other end takes no more bytes. -/
  | writeRefused
  /-- Any other reason that the system gives. -/
  | other (reason : String)
deriving DecidableEq, Repr

def FileError.message : FileError → String
  | .notFound => "No such file or directory (os error 2)"
  | .notDirectory => "Not a directory (os error 20)"
  | .isDirectory => "Is a directory (os error 21)"
  | .alreadyExists => "File exists (os error 17)"
  | .nameTooLong => "File name too long (os error 36)"
  | .zeroCharacter => "file name contained an unexpected NUL byte"
  | .notText => "stream did not contain valid UTF-8"
  | .writeRefused => "failed to write whole buffer"
  | .other reason => reason

/-- The operations on files. A path is a text with slashes between its names. -/
structure Files (m : Type → Type) where
  /-- The contents of a file. -/
  read : String → m (Except FileError Bytes)
  /-- Make the directory that is to hold the file at the path, with those above it, unless it is
  there. -/
  ensureParent : String → m (Except FileError Unit)
  /-- Give a file new contents; it is made if it is not there. -/
  write : String → Bytes → m (Except FileError Unit)

end EvmDisasm
