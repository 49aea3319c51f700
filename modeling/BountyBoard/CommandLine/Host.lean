import BountyBoard.CommandLine.Path
import BountyBoard.CommandLine.Run

/-!
# Runs

A whole run, from its arguments to its ending. What is outside the program,
such as the disk and the clock, is reached through a `Host`, so that the same
run can be made on a disk and on a folder held in memory.
-/

namespace BountyBoard.CommandLine

/-- What a run needs from outside the program. -/
structure Host (m : Type → Type) where
  environment : String → m (Option String)
  clock : m Time
  /-- Makes a directory in one that is there. -/
  makeDirectory : String → m (Except FileFault Unit)
  isDirectory : String → m Bool
  /-- The store of the board kept in a directory, empty where there is none yet. -/
  openBoard : String → m (Except FileFault Store)
  keepBoard : String → Store → m (Except FileFault Unit)
  read : String → m (Except FileFault String)
  write : String → String → m (Except FileFault Unit)

def Command.source? : Command → Option String
  | .init _ genesis => genesis
  | .setParams file => some file
  | _ => none

section

variable {m : Type → Type} [Monad m] (host : Host m)

def homeDirectory : m (Option String) := do
  match ← host.environment "HOME" with
  | some home => return some home
  | none => host.environment "USERPROFILE"

/-- Makes a directory in one that is there, if it is not there itself. -/
def addDirectory (path : String) : m (Except FileFault Unit) := do
  match ← host.makeDirectory path with
  | .error .exists => return if ← host.isDirectory path then .ok () else .error .exists
  | result => return result

/-- Adds the directory at the front of a way. Where it has no place to stand,
the rest of the way is made before. What was made on the way stays, also if
the directory itself cannot be made. -/
def makeWay : List String → m (Except FileFault Unit)
  | [] => return .ok ()
  | path :: before => do
    match ← addDirectory host path with
    | .error .missing =>
      match ← makeWay before with
      | .ok () => addDirectory host path
      | .error fault => return .error fault
    | result => return result

def surroundings (settings : Settings) (command : Command) : m Surroundings := do
  let now ← match settings.now with
    | some now => pure now
    | none => host.clock
  let text ← match command.source? with
    | some path => host.read path
    | none => pure (.error .missing)
  return { read := fun _ => text, sender := settings.sender, now := now }

def putOut : Output → m Ending
  | .line text => return .printed (text ++ "\n")
  | .file path text => return .ofWrite path (← host.write path text)
  | .broken => return .broken

def finish (directory : String) (before : Store) :
    Except Report (Store × Output) → m Ending
  | .error report => return .failed report
  | .ok (after, output) => do
    let kept ← if after = before then pure (.ok ()) else host.keepBoard directory after
    match kept with
    | .error fault =>
      return .failed ((Report.plain fault.message).within "flushing state database")
    | .ok () => putOut host output

/-- Runs a command on the board kept in the data directory, which is made
where it is missing. -/
def runIn (directory : String) (settings : Settings) (command : Command) : m Ending := do
  match ← makeWay host (Path.way directory) with
  | .error fault =>
    return .failed ((Report.plain fault.message).within ("creating data dir " ++ directory))
  | .ok () =>
    match ← host.openBoard directory with
    | .error fault =>
      return .failed
        ((Report.plain ("storage error: IO error: " ++ fault.message)).within
          "opening state database")
    | .ok store =>
      let around ← surroundings host settings command
      finish host directory store (run store around command)

/-- Runs a command. The address of a seed needs no data directory. -/
def runCommand (settings : Settings) (command : Command) : m Ending := do
  match command with
  | .address _ =>
    let around ← surroundings host settings command
    match run .empty around command with
    | .error report => return .failed report
    | .ok (_, output) => putOut host output
  | _ =>
    let home ← homeDirectory host
    runIn host (Path.expandHome home settings.dataDir) settings command

def perform (args : List String) : m Ending :=
  match request args with
  | .refused => return .refused
  | .help => return .help
  | .version => return .printed versionText
  | .run settings command => runCommand host settings command

end

end BountyBoard.CommandLine
