import BountyBoard.CommandLine.Folder
import BountyBoard.CommandLine.Usage
import BountyBoard.Store.Text
import Std.Time.DateTime.Timestamp

/-!
# The program

Runs on the disk. A directory that keeps a board has the same entries as in a
folder in memory: the file `conf`, the directory `blobs`, and the file `db`,
which holds the text of the store and is replaced as a whole.
-/

namespace BountyBoard.CommandLine.Disk

/-- The fault of a code of the operating system, which may come as its negative. -/
def faultOfCode? (code : UInt32) : Option FileFault :=
  match min code (-code) with
  | 20 => some .notDirectory
  | 21 => some .isDirectory
  | 36 => some .nameTooLong
  | _ => none

/-- What kept an action on the disk from being done. -/
def faultOf (e : IO.Error) : FileFault :=
  match e with
  | .noFileOrDirectory .. => .missing
  | .alreadyExists .. => .exists
  | .inappropriateType _ code _ | .invalidArgument _ code _ =>
    (faultOfCode? code).getD (.other (toString e))
  | _ => .other (toString e)

/-- The result of an action on the disk. -/
def attempt {α : Type} (action : IO α) : IO (Except FileFault α) := do
  try
    return .ok (← action)
  catch e =>
    return .error (faultOf e)

def read (path : String) : IO (Except FileFault String) := do
  match ← attempt (IO.FS.readBinFile path) with
  | .error fault => return .error fault
  | .ok bytes =>
    match String.fromUTF8? bytes with
    | some text => return .ok text
    | none => return .error .notText

def makeDirectory (path : String) : IO (Except FileFault Unit) :=
  attempt (IO.FS.createDir path)

/-- A path leads to a directory: the directory itself is there under the dot
behind it, and cannot be made again. -/
def isDirectory (path : String) : IO Bool := do
  match ← makeDirectory (Path.join path ".") with
  | .error .exists => return true
  | _ => return false

/-- Makes the directory `blobs` of a board, where nothing has that name. -/
def addBlobs (directory : String) : IO (Except FileFault Unit) := do
  match ← makeDirectory (Path.join directory "blobs") with
  | .error .exists => return .ok ()
  | result => return result

def addFile (path : String) : IO (Except FileFault Unit) :=
  attempt (IO.FS.withFile path .append fun _ => return ())

def storeFile (directory : String) : String :=
  Path.join directory "db"

/-- The store that a file holds. A new file holds the empty one. -/
def readStore (path : String) : IO (Except FileFault Store) := do
  match ← read path with
  | .error fault => return .error fault
  | .ok "" => return .ok .empty
  | .ok text =>
    match Store.ofText? text with
    | some s => return .ok s
    | none => return .error (.other (path ++ " does not hold a store"))

/-- The store of the board in a directory, with the entries of a board in place. -/
def openBoard (directory : String) : IO (Except FileFault Store) := ExceptT.run do
  ExceptT.mk (addBlobs directory)
  ExceptT.mk (addFile (Path.join directory "conf"))
  ExceptT.mk (addFile (storeFile directory))
  ExceptT.mk (readStore (storeFile directory))

def keepBoard (directory : String) (s : Store) : IO (Except FileFault Unit) :=
  attempt do
    IO.FS.writeFile (storeFile directory ++ ".new") s.text
    IO.FS.rename (storeFile directory ++ ".new") (storeFile directory)

def host : Host IO where
  environment name := IO.getEnv name
  clock := do
    let now ← Std.Time.Timestamp.now
    return Int64.ofInt now.toSecondsSinceUnixEpoch.val
  makeDirectory := makeDirectory
  isDirectory := isDirectory
  openBoard := openBoard
  keepBoard := keepBoard
  read := read
  write path text := attempt (IO.FS.writeFile path text)

def showEnding : Ending → IO Unit
  | .printed text => IO.print text
  | .help => IO.print usage
  | .refused => IO.eprint usage
  | .failed report => IO.eprint report.text
  | .broken => IO.eprint "the result does not fit its form\n"

end BountyBoard.CommandLine.Disk

def main (args : List String) : IO UInt32 := do
  let ending ← BountyBoard.CommandLine.perform BountyBoard.CommandLine.Disk.host args
  BountyBoard.CommandLine.Disk.showEnding ending
  return ending.code
