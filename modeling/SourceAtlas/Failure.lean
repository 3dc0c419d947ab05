/-!
What can go wrong, and how it is worded.

* `FileError`: a file or directory could not be read.
* `RunError`: a whole run is given up. Only the root of a walk and the settings can cause one.
* `FileFailure`: a single file could not be analysed. Its wording becomes part of the file's record.
* `Crash`: a computation breaks off, so that there is no answer at all, not even an error.
-/

namespace SourceAtlas

inductive FileError where
  | notFound
  | permissionDenied
  | notDirectory
  | isDirectory
  | linkLoop
  | nameTooLong
  /-- Nobody reads what is written. -/
  | brokenPipe
  /-- The path has a character in it that no path can have. -/
  | nulInName
  | other (text : String)
deriving DecidableEq, Repr

def FileError.message : FileError → String
  | notFound => "No such file or directory (os error 2)"
  | permissionDenied => "Permission denied (os error 13)"
  | notDirectory => "Not a directory (os error 20)"
  | isDirectory => "Is a directory (os error 21)"
  | linkLoop => "Too many levels of symbolic links (os error 40)"
  | nameTooLong => "File name too long (os error 36)"
  | brokenPipe => "Broken pipe (os error 32)"
  | nulInName => "file name contained an unexpected NUL byte"
  | other text => text

inductive RunError where
  | io (cause : FileError)
  | settings (text : String)
  | rootNotFound (path : String)
  | rootNotDirectory (path : String)
  | rootPermissionDenied (path : String)
  | rootUnreadable (path : String) (cause : FileError)
deriving DecidableEq, Repr

namespace RunError

/-- The root of a walk could not be read. -/
def ofRoot (path : String) : FileError → RunError
  | .notFound => rootNotFound path
  | .permissionDenied => rootPermissionDenied path
  | .notDirectory => rootNotDirectory path
  | cause => rootUnreadable path cause

/-- The error is about the root of a walk. -/
def isAboutRoot : RunError → Bool
  | io _ | settings _ => false
  | _ => true

def message : RunError → String
  | io cause => "IO error: " ++ cause.message
  | settings text => "Config error: " ++ text
  | rootNotFound path => "Root path not found: " ++ path
  | rootNotDirectory path => "Root path is not a directory: " ++ path
  | rootPermissionDenied path => "Permission denied reading root path: " ++ path
  | rootUnreadable path cause => "Cannot read root path " ++ path ++ ": " ++ cause.message

end RunError

inductive FileFailure where
  | unsupported (ext : String)
  | unreadable (text : String)
  | unparsed (strategy text : String)
  | unwalked (path text : String)
deriving DecidableEq, Repr

def FileFailure.message : FileFailure → String
  | unsupported ext => "unsupported extension: " ++ ext
  | unreadable text => text
  | unparsed strategy text => strategy ++ " parse failed: " ++ text
  | unwalked path text => "cannot read " ++ path ++ ": " ++ text

/-- Why a computation breaks off. Sums are checked: one that does not fit is no sum. -/
inductive Crash where
  /-- A sum of offsets does not fit a machine word. -/
  | offsetOverflow
  /-- A text would have more bytes than any text can have. -/
  | textOverflow
deriving DecidableEq, Repr

end SourceAtlas
