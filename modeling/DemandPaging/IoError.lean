import DemandPaging.Text.Quoted

/-!
# Input and output errors

What can go wrong between the machine and the files and extents of its host: each cause with the
text a reader sees.
-/

namespace DemandPaging

/-- Why a file or an extent could not be used. -/
inductive IoError where
  /-- no file has this name -/
  | notFound
  /-- a file stands where a directory is needed -/
  | notDirectory
  /-- a directory stands where a file is needed -/
  | isDirectory
  /-- the host cannot do this with the file -/
  | invalidArgument
  /-- a file name that holds a zero byte -/
  | zeroInName
  /-- a file name, or a whole path, with too many bytes -/
  | nameTooLong
  /-- a file length that the host cannot count -/
  | lengthTooLarge
  /-- the bytes are not text -/
  | notText
  /-- `count` bytes from `offset` run past the end of the extent -/
  | pastExtent (count offset extent : Nat)
  /-- the extent has been deleted -/
  | extentRemoved
  /-- the file ends before the bytes asked for -/
  | endOfFile
  /-- the device itself reports a failure -/
  | device (text : String)
deriving DecidableEq

/-- The classes that input and output errors fall into. -/
inductive IoError.Kind where
  | notFound
  | notDirectory
  | isDirectory
  | invalidName
  | invalidInput
  | invalidData
  | unexpectedEnd
  | other
deriving DecidableEq

namespace IoError

/-- The class of an error. -/
def kind : IoError → Kind
  | notFound | extentRemoved => .notFound
  | notDirectory => .notDirectory
  | isDirectory => .isDirectory
  | nameTooLong => .invalidName
  | invalidArgument | zeroInName | lengthTooLarge | pastExtent .. => .invalidInput
  | notText => .invalidData
  | endOfFile => .unexpectedEnd
  | device _ => .other

/-- The text of an error. -/
def message : IoError → String
  | notFound => "No such file or directory (os error 2)"
  | notDirectory => "Not a directory (os error 20)"
  | isDirectory => "Is a directory (os error 21)"
  | invalidArgument => "Invalid argument (os error 22)"
  | zeroInName => "file name contained an unexpected NUL byte"
  | nameTooLong => "File name too long (os error 36)"
  | lengthTooLarge => "number too large to fit in target type"
  | notText => "stream did not contain valid UTF-8"
  | pastExtent count offset extent =>
      s!"{count} bytes at offset {offset} run past a {extent}-byte extent"
  | extentRemoved => "swap file already removed"
  | endOfFile => "failed to fill whole buffer"
  | device text => text

/-- The name of a class in diagnostics. -/
def Kind.name : Kind → String
  | notFound => "NotFound"
  | notDirectory => "NotADirectory"
  | isDirectory => "IsADirectory"
  | invalidName => "InvalidFilename"
  | invalidInput => "InvalidInput"
  | invalidData => "InvalidData"
  | unexpectedEnd => "UnexpectedEof"
  | other => "Other"

/-- The form an error takes inside a diagnostic: its class and its quoted text. -/
def diagnostic (e : IoError) : String :=
  s!"Custom \x7b kind: {e.kind.name}, error: {Text.quote e.message} \x7d"

end IoError

end DemandPaging
