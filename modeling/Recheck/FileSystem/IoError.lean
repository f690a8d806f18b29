/-!
# Failures of input and output

Why reading, writing or starting something fails, and the text that is shown for it.
-/
namespace Recheck

inductive IoError where
  /-- Nothing is there. -/
  | notFound
  /-- What is there cannot be executed. -/
  | permissionDenied
  | alreadyExists
  | notADirectory
  | isADirectory
  /-- A name of more than 255 bytes, or a path of 4096 or more. -/
  | nameTooLong
  /-- More than forty links on the way. -/
  | tooManyLinks
  /-- An executable file that is neither a script nor a program. -/
  | notAProgram
  /-- Bytes read as text are not valid UTF-8. -/
  | notText
  /-- A path with a NUL character in it. -/
  | nulInPath
  /-- An argument with a NUL character in it. -/
  | nulInArgument
  /-- A directory whose missing parents have no end. -/
  | treeNotCreated
  /-- There is nothing to run. -/
  | emptyCommandLine
  /-- The developer directory could not be asked for. -/
  | noDeveloperDirectory
  /-- The receiving end is gone. -/
  | brokenPipe (text : String)
  /-- A failure reported in words. -/
  | other (text : String)
  deriving DecidableEq, Repr

def IoError.message : IoError → String
  | notFound             => "No such file or directory (os error 2)"
  | permissionDenied     => "Permission denied (os error 13)"
  | alreadyExists        => "File exists (os error 17)"
  | notADirectory        => "Not a directory (os error 20)"
  | isADirectory         => "Is a directory (os error 21)"
  | nameTooLong          => "File name too long (os error 36)"
  | tooManyLinks         => "Too many levels of symbolic links (os error 40)"
  | notAProgram          => "Exec format error (os error 8)"
  | notText              => "stream did not contain valid UTF-8"
  | nulInPath            => "file name contained an unexpected NUL byte"
  | nulInArgument        => "nul byte found in provided data"
  | treeNotCreated       => "failed to create whole tree"
  | emptyCommandLine     => "empty command line"
  | noDeveloperDirectory => "xcode-select -p failed; is Xcode installed?"
  | brokenPipe text      => text
  | other text           => text

end Recheck
