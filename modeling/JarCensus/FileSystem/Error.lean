import JarCensus.Text.Numeral

/-! Why a request to the operating system fails. -/
namespace JarCensus

inductive OsError where
  | notFound
  | permissionDenied
  | alreadyExists
  | noDevice
  | notDirectory
  | isDirectory
  | nameTooLong
  | tooManyLinks
  deriving DecidableEq, Repr

namespace OsError

def code : OsError → Nat
  | .notFound => 2
  | .permissionDenied => 13
  | .alreadyExists => 17
  | .noDevice => 19
  | .notDirectory => 20
  | .isDirectory => 21
  | .nameTooLong => 36
  | .tooManyLinks => 40

def description : OsError → String
  | .notFound => "No such file or directory"
  | .permissionDenied => "Permission denied"
  | .alreadyExists => "File exists"
  | .noDevice => "No such device"
  | .notDirectory => "Not a directory"
  | .isDirectory => "Is a directory"
  | .nameTooLong => "File name too long"
  | .tooManyLinks => "Too many levels of symbolic links"

end OsError

inductive IoError where
  | os (error : OsError)
  /-- A path that holds a NUL byte names nothing. -/
  | nulInPath
  /-- An argument that holds a NUL byte cannot be passed on. -/
  | nulInArgument
  | notUtf8
  | badChecksum
  | corruptDeflate
  | incompleteDeflate
  deriving DecidableEq, Repr

def IoError.message : IoError → String
  | .os error => error.description ++ " (os error " ++ Text.decimal error.code ++ ")"
  | .nulInPath => "file name contained an unexpected NUL byte"
  | .nulInArgument => "nul byte found in provided data"
  | .notUtf8 => "stream did not contain valid UTF-8"
  | .badChecksum => "Invalid checksum"
  | .corruptDeflate => "corrupt deflate stream"
  | .incompleteDeflate => "incomplete deflate stream"

end JarCensus
