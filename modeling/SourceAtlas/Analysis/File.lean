import SourceAtlas.Analysis.Basic
import SourceAtlas.FileSystem
import SourceAtlas.Text.Utf8

/-!
The analysis of one file. What goes wrong becomes part of the record, unless the analysis breaks
off.

* `readBounded`: the bytes of a file that is not too large.
* `analyzeFile`: the record of a file.
-/

namespace SourceAtlas.Analysis

/-- The bytes of the file at a path, unless there are more than the settings allow. -/
def readBounded (fs : FileSystem) (settings : AnalysisSettings) (path : OsText) :
    Except FileFailure (List UInt8) :=
  match fs.find path with
  | .error cause => .error (.unreadable cause.message)
  | .ok item =>
    if settings.maxFileBytes < item.size then
      .error (.unreadable ("file too large: " ++ toString item.size ++ " bytes exceeds limit of " ++
        toString settings.maxFileBytes ++ " bytes"))
    else
      match fs.read path with
      | .ok bytes => .ok bytes
      | .error cause => .error (.unreadable cause.message)

/-- What is known of a file that is not read: its size, if it is there. -/
def sizeMetadata (fs : FileSystem) (path : OsText) : Metadata :=
  match fs.find path with
  | .ok item => .ofSize 0 item.size
  | .error _ => .blank

/-- What is known of a file that is not parsed. -/
def rawMetadata (fs : FileSystem) (settings : AnalysisSettings) (path : OsText) : Metadata :=
  match readBounded fs settings path with
  | .ok bytes => .ofContent (Text.Utf8.decodeLossy bytes) bytes.length
  | .error _ => sizeMetadata fs path

/-- What stands for the extension of a path that has none. -/
def noExtension : String := "(none)"

/-- The record of the file at a path, under the name `name`. -/
def analyzeFile (tools : Toolchain) (fs : FileSystem) (settings : AnalysisSettings)
    (path : OsText) (name : String) : Except Crash Record :=
  match settings.languageOf? path with
  | none =>
    .ok (.failed name .unknown (.unsupported ((dottedExtension? path).getD noExtension))
      (rawMetadata fs settings path))
  | some language =>
    match readBounded fs settings path with
    | .error failure => .ok (.failed name language failure (sizeMetadata fs path))
    | .ok bytes =>
      analyzeContent tools settings name language (Text.Utf8.decodeLossy bytes) bytes.length

end SourceAtlas.Analysis
