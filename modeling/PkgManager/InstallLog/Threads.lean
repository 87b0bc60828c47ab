import PkgManager.Bytes.Ring
import PkgManager.Http.Index
import PkgManager.Scanner.Folders
import PkgManager.Transition.ThreadPool

/-!
# The installation log

The log keeps the last lines in a ring of arrays, and the errors and warnings among them
in a file, which is moved away when it has grown too long.  The ring and the file are
guarded by a mutex each, so that a thread may log between the two sections of another.
-/

namespace PkgManager
namespace InstallLog

open CString
open Transition
open PkgManager.Parser (Text)
open Http (startsWithCi strcasestr)
open Scanner (isAlnum)

def maxLogLines : Nat := 2048

def maxLogLineLen : Nat := 512

def maxLogFileSize : Nat := 512 * 1024

def defaultLogFilePath : Text := ascii "/data/pkgmgr/install.log"

/-- What an array of this size takes of a text. -/
def fits (size : Nat) (text : Text) : Text := text.take (size - 1)

/-!
# Errors and warnings
-/

/-- The search goes on from every place at which the target stands, {lit}`before` is
the byte in front of the rest. -/
def wordOrPrefixFrom (target : String) (allowPrefix : Bool) : Option UInt8 -> Text -> Bool
  | _, [] => false
  | before, b :: rest =>
      (startsWithCi target (b :: rest) && !(before.any isAlnum) &&
        (allowPrefix || !(((b :: rest)[target.length]?).any isAlnum))) ||
      wordOrPrefixFrom target allowPrefix (some b) rest

def isWordOrPrefix (msg : Text) (target : String) (allowPrefix : Bool) : Bool :=
  wordOrPrefixFrom target allowPrefix none msg

def isLogWarningOrError (msg : Text) : Bool :=
  ["[error]", "error:", "[warn", "warning:", "warn:", "[fail"].any
      (fun tag => (strcasestr tag msg).isSome) ||
    [("error", false), ("errors", false), ("warn", false), ("warned", false),
      ("warning", false), ("warnings", false), ("fail", true), ("timed out", false),
      ("timeout", false), ("underflow", false), ("wrong disc", false),
      ("wrong part", false), ("reject", true)].any
      (fun word => isWordOrPrefix msg word.1 word.2)

/-!
# The ring, the path and the files
-/

structure LogWorld where
  buffer : Nat -> Text
  head : Nat
  count : Nat
  filePath : Text
  files : Text -> Option Text

/-- What the system answers to a section. -/
structure LogAnswer where
  time : Text := ascii "2026-01-31 12:00:00"
  envLogFile : Option Text := none
  envNoFileLog : Bool := false
  allocates : Bool := true
  opens : Bool := true
  renames : Bool := true
  /-- The same for {lit}`<log>.1`. -/
  oldAllocates : Bool := true
  oldOpens : Bool := true
deriving DecidableEq

/-- The message of {lit}`install_log`, as its array takes it. -/
def stripped (text : Text) : Text :=
  (fits (maxLogLineLen - 40) text).rdropWhile (fun b => b == 10 || b == 13)

def fullLine (time buf : Text) : Text :=
  fits maxLogLineLen (ascii "[" ++ fits 32 time ++ ascii "] " ++ buf)

/-- {lit}`s_log_buffer[s_log_head]` is filled. -/
def store (w : LogWorld) (line : Text) : LogWorld :=
  { w with
    buffer := Function.update w.buffer w.head (fits maxLogLineLen line)
    head := (w.head + 1) % maxLogLines
    count := if w.count < maxLogLines then w.count + 1 else w.count }

def logFilePathOf (a : LogAnswer) : Option Text -> Text
  | none =>
      match a.envLogFile with
      | some env =>
          if env ≠ [] then if env = ascii "none" then [] else fits 256 env
          else if a.envNoFileLog then [] else defaultLogFilePath
      | none => if a.envNoFileLog then [] else defaultLogFilePath
  | some path => if path = [] ∨ path = ascii "none" then [] else fits 256 path

/-- The lines of the ring, each with its line feed. -/
def logText (w : LogWorld) : Text :=
  (List.range w.count).flatMap (fun i =>
    w.buffer ((w.head + maxLogLines - w.count + i) % maxLogLines) ++ [10])

/-!
# The file
-/

def oldPathOf (filepath : Text) : Text := fits 300 (filepath ++ ascii ".1")

def rotationNotice (filepath : Text) : Text :=
  ascii "[LOG ROTATED: previous 524288 bytes in " ++ oldPathOf filepath ++ ascii "]\n"

def appendTo (files : Text -> Option Text) (path more : Text) : Text -> Option Text :=
  Function.update files path (some ((files path).getD [] ++ more))

/-- {lit}`unlink(old_path)` and {lit}`rename(filepath, old_path)` -/
def rotated (a : LogAnswer) (files : Text -> Option Text) (filepath : Text) :
    Text -> Option Text :=
  let removed := Function.update files (oldPathOf filepath) none
  if a.renames then
    Function.update (Function.update removed (oldPathOf filepath) (files filepath)) filepath none
  else removed

def appendToLogFile (a : LogAnswer) (files : Text -> Option Text) (filepath line : Text) :
    Text -> Option Text :=
  if filepath = [] ∨ filepath = ascii "none" then files
  else if ((files filepath).getD []).length > maxLogFileSize then
    if a.opens then
      appendTo (Function.update (rotated a files filepath) filepath (some [])) filepath
        (rotationNotice filepath ++ line ++ [10])
    else rotated a files filepath
  else if a.opens then appendTo files filepath (line ++ [10])
  else files

/-- The bytes at the end of a file, at most so many. -/
def fileTail (max : Nat) (file : Text) : Text := file.drop (file.length - max)

def appendFileTail (reads : Bool) (files : Text -> Option Text) (buf : Option Text)
    (path : Text) (max : Nat) : Option Text :=
  match files path with
  | none => buf
  | some file =>
      if reads = true ∧ file ≠ [] then some (buf.getD [] ++ fileTail max file) else buf

/-!
# Threads
-/

inductive LogCall where
  | log (text : Text)
  | clear
  | setFilePath (path : Option Text)
  | getText
  | getFileText
deriving DecidableEq

inductive LogPoint where
  | logs (text : Text)
  | appends (filepath line : Text)
  | clears
  | setsFilePath (path : Option Text)
  | readsText
  | readsFallback (path : Text)
  | readsPath
  | readsFiles (path : Text)
  | returned (text : Text)
  | ended
deriving DecidableEq

def LogCall.entry : LogCall -> LogPoint
  | log text => LogPoint.logs text
  | clear => LogPoint.clears
  | setFilePath path => LogPoint.setsFilePath path
  | getText => LogPoint.readsText
  | getFileText => LogPoint.readsPath

/-- The line that a message gives, if anything is left of it. -/
def lineOf (a : LogAnswer) (text : Text) : Option Text :=
  if stripped text = [] then none else some (fullLine a.time (stripped text))

def installLog (w : LogWorld) (a : LogAnswer) (text : Text) : Section LogWorld LogPoint :=
  match lineOf a text with
  | none => { shared := w, point := LogPoint.ended }
  | some line =>
      { shared := store w line
        point :=
          if fits 256 w.filePath ≠ [] ∧ isLogWarningOrError (stripped text) = true then
            LogPoint.appends (fits 256 w.filePath) line
          else LogPoint.ended }

def noLogFile : Text := ascii "No log file.\n"

def noLogs : Text := ascii "No logs recorded yet.\n"

def outOfMemory : Text := ascii "Out of memory reading logs\n"

/-- {lit}`install_log_get_text`, while it holds the mutex of the ring -/
def installLogGetText (w : LogWorld) (a : LogAnswer) : LogPoint :=
  if w.count = 0 then LogPoint.readsFallback (fits 256 w.filePath)
  else if a.allocates then LogPoint.returned (logText w)
  else LogPoint.returned outOfMemory

/-- The file, when the ring is empty. -/
def fallbackText (w : LogWorld) (a : LogAnswer) (path : Text) : Text :=
  if path = [] ∨ path = ascii "none" then noLogs
  else
    match w.files path with
    | none => noLogs
    | some file =>
        if a.opens = true ∧ file ≠ [] ∧ a.allocates = true then fileTail (256 * 1024) file
        else noLogs

def logFileText (w : LogWorld) (a : LogAnswer) (path : Text) : Text :=
  if path = [] ∨ path = ascii "none" then noLogFile
  else
    let buf := appendFileTail (a.oldOpens && a.oldAllocates) w.files none (oldPathOf path)
      maxLogFileSize
    (appendFileTail (a.opens && a.allocates) w.files buf path maxLogFileSize).getD noLogFile

def logStep (w : LogWorld) (a : LogAnswer) : LogPoint -> Option (Section LogWorld LogPoint)
  | LogPoint.logs text => some (installLog w a text)
  | LogPoint.appends filepath line =>
      some
        { shared := { w with files := appendToLogFile a w.files filepath line }
          point := LogPoint.ended }
  | LogPoint.clears => some { shared := { w with head := 0, count := 0 }, point := LogPoint.ended }
  | LogPoint.setsFilePath path =>
      some { shared := { w with filePath := logFilePathOf a path }, point := LogPoint.ended }
  | LogPoint.readsText => some { shared := w, point := installLogGetText w a }
  | LogPoint.readsFallback path =>
      some { shared := w, point := LogPoint.returned (fallbackText w a path) }
  | LogPoint.readsPath => some { shared := w, point := LogPoint.readsFiles (fits 256 w.filePath) }
  | LogPoint.readsFiles path =>
      some { shared := w, point := LogPoint.returned (logFileText w a path) }
  | LogPoint.returned _ => none
  | LogPoint.ended => none

def logProgram : Program LogWorld LogPoint LogCall LogAnswer where
  entry := LogCall.entry
  step p _ point a := logStep p.shared a point

/-- The daemon has just started, the files are those of earlier runs. -/
def freshLog (files : Text -> Option Text) : Pool LogWorld LogPoint where
  shared :=
    { buffer := fun _ => [], head := 0, count := 0, filePath := defaultLogFilePath,
      files := files }
  threads := []

end InstallLog
end PkgManager
