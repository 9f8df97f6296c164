import CommandSet.CommandLine

/-!
# The program

The command line on the file system of the system.

Main definition:

- {lit}`main`: runs the program and prints its messages.
-/

namespace CommandSet

/-- The failure that an error of the system stands for, when a directory on the way to
{lit}`directory` may be what is in the way. -/
def FileError.ofSystem (directory : String) : IO.Error → FileError
  | .noFileOrDirectory .. => .notFound
  | .alreadyExists blocked _ _ =>
      if blocked == some directory then .alreadyExists else .notADirectory
  | .inappropriateType _ code _ => if code == 21 then .isADirectory else .notADirectory
  | .invalidArgument _ 36 _ => .nameTooLong
  | error => .other (toString error)

/-- The file system of the system. -/
instance : FileStore IO where
  read path := do
    try
      pure (.ok (← IO.FS.readBinFile path))
    catch error => pure (.error (FileError.ofSystem "" error))
  write path text := do
    let directory := Path.parent path
    try
      if !directory.isEmpty then
        IO.FS.createDirAll directory
      IO.FS.writeFile path text
      pure (.ok ())
    catch error => pure (.error (FileError.ofSystem directory error))

end CommandSet

/-- Run the program on its arguments. -/
def main (args : List String) : IO UInt32 := do
  let outDir := CommandSet.Options.defaultOutDir (← IO.getEnv "LCSFGEN_OUT_DIR")
  let outcome : CommandSet.CommandLine.Outcome ← CommandSet.CommandLine.run outDir args
  for message in outcome.messages do
    IO.eprintln message
  pure outcome.exitCode.toUInt32
