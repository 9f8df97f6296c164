/-!
# File stores

Generation reads earlier modules from a file store and writes its artifacts there.
It asks no more of the store than reading a file whole and replacing one whole,
and it learns of every failure.

Main definitions:

- {lit}`FileError`, {lit}`FileError.message`: how an access fails.
- {lit}`FileStore`: the two accesses.
-/

namespace CommandSet

/-- How an access to a file fails. -/
inductive FileError where
  | notFound
  | alreadyExists
  | notADirectory
  | isADirectory
  /-- A name on the path, or the path itself, is too long. -/
  | nameTooLong
  /-- The path holds the character that ends a path. -/
  | nulInPath
  /-- The content is no text. -/
  | notUtf8
  /-- A failure of the system in its own words. -/
  | other (text : String)
deriving Repr, DecidableEq

/-- The wording of a failure. -/
def FileError.message : FileError → String
  | notFound => "No such file or directory (os error 2)"
  | alreadyExists => "File exists (os error 17)"
  | notADirectory => "Not a directory (os error 20)"
  | isADirectory => "Is a directory (os error 21)"
  | nameTooLong => "File name too long (os error 36)"
  | nulInPath => "file name contained an unexpected NUL byte"
  | notUtf8 => "stream did not contain valid UTF-8"
  | other text => text

/-- Access to files by path. -/
class FileStore (m : Type → Type) where
  /-- The content of a file. -/
  read : String → m (Except FileError ByteArray)
  /-- Make a file hold a text, and the directories on its path exist. -/
  write : String → String → m (Except FileError Unit)

end CommandSet
