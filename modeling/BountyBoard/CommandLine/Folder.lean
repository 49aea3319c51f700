import BountyBoard.CommandLine.Host

/-!
# Folders in memory

Files and directories held in memory, for runs that leave the disk alone. A
place is the list of names that lead to it, the innermost first, and the
root is always there. A directory that keeps a board has three entries for
it: the file `conf`, the file `db` with the store, and the directory `blobs`.
-/

namespace BountyBoard.CommandLine

inductive Entry where
  | directory
  | text (s : String)
  | board (s : Store)
deriving DecidableEq

/-- Files and directories, and where runs start from. -/
structure Folder where
  /-- The place that relative paths lead on from. -/
  current : List String
  entries : List (List String × Entry)
  environment : List (String × String)
  clock : Time

namespace Folder

/-! ## Places -/

def entry? (f : Folder) : List String → Option Entry
  | [] => some .directory
  | place => (f.entries.find? fun e => e.1 == place).map (·.2)

/-- Puts an entry at a place, for the one that stood there. -/
def put (f : Folder) (place : List String) (e : Entry) : Folder :=
  { f with entries := (place, e) :: f.entries.filter fun other => other.1 != place }

/-- Puts an entry at a place where there is none. -/
def putNew (f : Folder) (place : List String) (e : Entry) : Folder :=
  if (f.entry? place).isSome then f else f.put place e

def next (place : List String) (part : String) : List String :=
  if Path.isIdle part then place
  else if part = ".." then place.tail
  else part :: place

/-- The place that a part leads to, which has to start at a directory. -/
def step (f : Folder) (place : List String) (part : String) :
    Except FileFault (List String) :=
  match f.entry? place with
  | none => .error .missing
  | some .directory => if Path.isLongName part then .error .nameTooLong else .ok (next place part)
  | some _ => .error .notDirectory

def start (f : Folder) (path : String) : List String :=
  if path.startsWith "/" then [] else f.current

/-- The place that parts of a path lead to. Nothing has to be there, but what
is before it has to be a directory. -/
def follow (f : Folder) (path : String) (parts : List String) :
    Except FileFault (List String) :=
  if Path.isLong path then .error .nameTooLong else parts.foldlM f.step (f.start path)

/-! ## Files -/

def read (f : Folder) (path : String) : Except FileFault String := do
  let place ← f.follow path (Path.parts path)
  match f.entry? place with
  | none => .error .missing
  | some .directory => .error .isDirectory
  | some (.text s) => .ok s
  | some (.board _) => .error .notText

/-- Puts a text in the file that a path leads to. With a slash at its end a
path that can be followed leads to a directory, whatever its last name. -/
def write (f : Folder) (path text : String) : Except FileFault Folder := do
  if path.endsWith "/" then
    let _ ← f.follow path ((Path.names path).dropLast ++ ["."])
    .error .isDirectory
  else
    let place ← f.follow path (Path.parts path)
    match f.entry? place with
    | some .directory => .error .isDirectory
    | _ => .ok (f.put place (.text text))

/-! ## Directories -/

def isDirectory (f : Folder) (path : String) : Bool :=
  match f.follow path (Path.parts path) with
  | .ok place => f.entry? place = some .directory
  | .error _ => false

/-- Makes the directory of a path's last name. -/
def makeDirectory (f : Folder) (path : String) : Except FileFault Folder := do
  let place ← f.follow path (Path.names path)
  if (f.entry? place).isSome then .error .exists else .ok (f.put place .directory)

/-! ## Boards -/

/-- Makes the directory `blobs` of a board, where nothing has that name. -/
def addBlobs (f : Folder) (directory : String) : Except FileFault Folder :=
  match f.makeDirectory (Path.join directory "blobs") with
  | .error .exists => .ok f
  | result => result

/-- The store of the board in a directory, and the folder with the entries
of a board in place. -/
def openBoard (f : Folder) (directory : String) : Except FileFault Store × Folder :=
  match f.addBlobs directory, f.follow directory (Path.parts directory) with
  | .error fault, _ => (.error fault, f)
  | .ok f, .error fault => (.error fault, f)
  | .ok f, .ok place =>
    match f.entry? ("conf" :: place) with
    | some .directory => (.error .isDirectory, f)
    | _ =>
      let f := f.putNew ("conf" :: place) (.text "")
      match f.entry? ("db" :: place) with
      | some .directory => (.error .isDirectory, f)
      | some (.board s) => (.ok s, f)
      | _ => (.ok .empty, f.put ("db" :: place) (.board .empty))

def keepBoard (f : Folder) (directory : String) (s : Store) : Except FileFault Folder := do
  let place ← f.follow directory (Path.parts directory)
  .ok (f.put ("db" :: place) (.board s))

/-! ## Runs -/

def change (action : Folder → Except FileFault Folder) :
    StateM Folder (Except FileFault Unit) :=
  fun f =>
    match action f with
    | .ok after => (.ok (), after)
    | .error fault => (.error fault, f)

def host : Host (StateM Folder) where
  environment name f := ((f.environment.find? fun v => v.1 == name).map (·.2), f)
  clock f := (f.clock, f)
  makeDirectory path := change (·.makeDirectory path)
  isDirectory path f := (f.isDirectory path, f)
  openBoard directory f := f.openBoard directory
  keepBoard directory s := change (·.keepBoard directory s)
  read path f := (f.read path, f)
  write path text := change (·.write path text)

def perform (f : Folder) (args : List String) : Ending × Folder :=
  (CommandLine.perform host args).run f

end Folder

end BountyBoard.CommandLine
