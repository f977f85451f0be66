/-!
# Errors of file operations

Most errors come from the operating system and carry its number. A few are found before or after
the system is asked: a path with a null character, a source that cannot be copied, and bytes that
are not text.
-/

namespace SketchApk

/-- Why an operation on files failed. -/
inductive FileError where
  | notFound
  | permissionDenied
  | busy
  | alreadyExists
  | notADirectory
  | isADirectory
  | invalidArgument
  | nameTooLong
  | directoryNotEmpty
  | tooManyLinks
  | notExecutable
  /-- A descriptor does not lead anywhere, or not for this purpose. -/
  | badDescriptor
  /-- Nobody reads what is written. -/
  | brokenPipe
  | noSpace
  /-- The bytes of the file are not well-formed UTF-8. -/
  | notText
  /-- The path contains a null character. -/
  | nullInPath
  /-- An argument of a program contains a null character. -/
  | nullInArgument
  /-- The source of a copy is not a regular file. -/
  | notRegular
  deriving DecidableEq, Repr

/-- The wording of an error of the operating system with its number. -/
def osMessage (text : String) (number : Nat) : String :=
  text ++ " (os error " ++ toString number ++ ")"

namespace FileError

/-- The number by which the operating system knows an error. -/
def number? : FileError → Option Nat
  | notFound => some 2
  | notExecutable => some 8
  | badDescriptor => some 9
  | permissionDenied => some 13
  | busy => some 16
  | alreadyExists => some 17
  | notADirectory => some 20
  | isADirectory => some 21
  | invalidArgument => some 22
  | noSpace => some 28
  | brokenPipe => some 32
  | nameTooLong => some 36
  | directoryNotEmpty => some 39
  | tooManyLinks => some 40
  | notText | nullInPath | nullInArgument | notRegular => none

/-- What has gone wrong, in words. -/
def reason : FileError → String
  | notFound => "No such file or directory"
  | notExecutable => "Exec format error"
  | badDescriptor => "Bad file descriptor"
  | permissionDenied => "Permission denied"
  | busy => "Device or resource busy"
  | alreadyExists => "File exists"
  | notADirectory => "Not a directory"
  | isADirectory => "Is a directory"
  | invalidArgument => "Invalid argument"
  | noSpace => "No space left on device"
  | brokenPipe => "Broken pipe"
  | nameTooLong => "File name too long"
  | directoryNotEmpty => "Directory not empty"
  | tooManyLinks => "Too many levels of symbolic links"
  | notText => "stream did not contain valid UTF-8"
  | nullInPath => "file name contained an unexpected NUL byte"
  | nullInArgument => "nul byte found in provided data"
  | notRegular => "the source path is neither a regular file nor a symlink to a regular file"

/-- The wording of an error of a file operation, with its number if it has one. -/
def message (error : FileError) : String :=
  match error.number? with
  | some number => osMessage error.reason number
  | none => error.reason

end FileError

end SketchApk
