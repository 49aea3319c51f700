/-!
# Paths

Paths as they are written on the command line: names between slashes, where
`~` in front stands for the home directory. A path has a way: the paths to
the directories that it leads through.
-/

namespace BountyBoard.CommandLine.Path

/-- The parts of a path, which stand between its slashes. -/
def parts (path : String) : List String :=
  path.splitOn "/"

/-- The names of a path: its parts without the empty ones, which stand where
slashes follow each other and at an end with a slash. -/
def names (path : String) : List String :=
  (parts path).filter (· ≠ "")

/-- A part that leads nowhere: an empty one or a single dot. -/
def isIdle (part : String) : Bool :=
  part = "" || part = "."

/-- The parts without the idle ones behind them. -/
def dropIdleEnd (parts : List String) : List String :=
  (parts.reverse.dropWhile isIdle).reverse

/-- The parts without the idle ones in front of and behind them. -/
def trimIdle (parts : List String) : List String :=
  dropIdleEnd (parts.dropWhile isIdle)

/-- The paths that end at the parts of a path, the longest first. None ends
at an idle part. The parts are in reverse order. -/
def endings : List String → List String
  | [] => []
  | part :: before =>
    if isIdle part then endings before
    else String.intercalate "/" (part :: before).reverse :: endings before

/-- A path, and after it the paths to the directories on its way, the one
next to its end first. The empty path leads nowhere and has no way. -/
def way (path : String) : List String :=
  if path.isEmpty then [] else path :: (endings (parts path).reverse).tail

/-- A name that no file or directory can have: it is longer than 255 bytes. -/
def isLongName (name : String) : Bool :=
  255 < name.utf8ByteSize

/-- A path that leads nowhere because it is longer than 4095 bytes. -/
def isLong (path : String) : Bool :=
  4095 < path.utf8ByteSize

def join (directory path : String) : String :=
  if directory.isEmpty || directory.endsWith "/" then directory ++ path
  else directory ++ "/" ++ path

/-- The path with the home directory in place of a `~` that is its whole
first part. Without a home directory it stays as it is. -/
def expandHome (home : Option String) (path : String) : String :=
  match parts path, home with
  | "~" :: rest, some home => join home (String.intercalate "/" (trimIdle rest))
  | _, _ => path

end BountyBoard.CommandLine.Path
