import BountyBoard.Proofs.CommandLine.Report

/-!
# How a run ends

Whatever a run is told to do, it ends in one of two ways (`Ends`): it fails,
and the board is the same, or the command is done, and the board is what the
command makes of it. The two cover every point at which a run can stop: on
the way to the board, while it is opened, in the command itself, and when the
file of an export cannot be written, which changes no board. Where the board can
be opened, the command has its turn (`runIn_of_opened`), and one that prints is
always done (`finish_line`).

The command is run on the store that was kept when the run began. What it gets
to see around it was there as well, since a run adds only directories and
entries of the board before the command has its turn (`Prepares.shows`).
-/

namespace BountyBoard.CommandLine

/-- The file that a command is given, to read or to write. -/
def Command.file? : Command → Option String
  | .exportTo out => out
  | command => command.source?

theorem Command.file?_of_source? {command : Command} {path : String}
    (h : path ∈ command.source?) : path ∈ command.file? := by
  cases command with
  | init => exact h
  | setParams => exact h
  | _ => cases h

/-- The code that a run ends with after putting this out. -/
def Output.code : Output → UInt32
  | .broken => 101
  | _ => 0

namespace Folder

/-- The home directory that the environment names. -/
def home (f : Folder) : Option String :=
  (homeDirectory host f).1

/-- What a command with these settings can see around a board in the folder:
the sender and the time that are given, or else the time of the clock, and
the text of its file, if it can be read. -/
structure Shows (f : Folder) (settings : Settings) (command : Command) (around : Surroundings) :
    Prop where
  sender : around.sender = settings.sender
  now : around.now = settings.now.getD f.clock
  text : ∀ path ∈ command.source?, ∀ text, around.read path = .ok text →
    f.entry? (f.placeOf path) = some (.text text)

theorem bind_run {α β : Type} (x : StateM Folder α) (k : α → StateM Folder β) (f : Folder) :
    (x >>= k) f = k (x f).1 (x f).2 :=
  rfl

theorem homeDirectory_run (f : Folder) : homeDirectory host f = (f.home, f) := by
  have hfolder : (homeDirectory host f).2 = f := by
    rw [homeDirectory, bind_run]
    cases (host.environment "HOME" f).1 <;> rfl
  exact Prod.ext rfl hfolder

/-- What a command gets to see in this folder. -/
def around (f : Folder) (settings : Settings) (command : Command) : Surroundings where
  read _ :=
    match command.source? with
    | some path => f.read path
    | none => .error .missing
  sender := settings.sender
  now := settings.now.getD f.clock

variable {f f' : Folder} {d : List String} {settings : Settings} {command : Command}

theorem surroundings_run :
    surroundings host settings command f = (f.around settings command, f) := by
  rw [surroundings, around]
  cases settings.now <;> cases command.source? <;> rfl

theorem fixed_of_around {path : String} {fault : FileFault}
    (h : (f.around settings command).read path = .error fault) : fault.Fixed := by
  simp only [around] at h
  split at h
  · exact fixed_of_read h
  · cases h
    exact nofun

/-- What a command sees after the preparations was there before them. -/
theorem Prepares.shows (h : Prepares d f f')
    (hfile : ∀ path ∈ command.source?, ¬d <:+ f.placeOf path) :
    f.Shows settings command (f'.around settings command) where
  sender := rfl
  now := by rw [around, h.clock]
  text path hpath text hread := by
    have hsource : command.source? = some path := hpath
    simp only [around, hsource] at hread
    have htext := read_eq_ok hread
    rw [h.placeOf] at htext
    exact h.text _ text (hfile path hpath) htext

/-! ## How a run ends -/

/-- How a run can end, and what it leaves of the board at the place `d`. -/
inductive Ends (d : List String) (f : Folder) (settings : Settings) (command : Command)
    (result : Ending × Folder) : Prop
  | failed {report : Report}
      (ending : result.1 = .failed report)
      (same : result.2.boardAt d = f.boardAt d)
      (clear : ((f.boardAt d).authority ≠ none → (f.boardAt d).params ≠ none) →
        ¬report.BlamesParams)
  | done {around : Surroundings} {out : Output}
      (shown : f.Shows settings command around)
      (done : run (f.boardAt d) around command = .ok (result.2.boardAt d, out))
      (code : result.1.code = out.code)
      (shows : ∀ text, out = .line text → result.1 = .printed (text ++ "\n"))

theorem Ends.of_fault {failure doing : String} (same : f'.boardAt d = f.boardAt d)
    (hfailure : Departs failure) (hdoing : Departs doing) :
    Ends d f settings command (.failed ((Report.plain failure).within doing), f') :=
  .failed rfl same fun _ => Report.not_blames_within (Report.not_blames_plain hfailure) hdoing

/-- What the command leaves is put out, and a file goes to a place outside. -/
theorem ends_of_putOut {around : Surroundings} {out : Output}
    (hfile : ∀ path ∈ command.file?, ¬d <:+ f'.placeOf path)
    (shown : f.Shows settings command around)
    (done : run (f.boardAt d) around command = .ok (f'.boardAt d, out)) :
    Ends d f settings command (putOut host out f') := by
  cases out with
  | line text =>
      refine .done shown done rfl fun other hother => ?_
      cases hother
      rfl
  | broken => exact .done shown done rfl fun _ h => by cases h
  | file path text =>
      obtain rfl := run_file done
      have hsame : f'.boardAt d = f.boardAt d := run_asks rfl done
      have hplace : f'.placeOf path ≠ "db" :: d := by
        intro heq
        refine hfile path rfl ?_
        rw [heq]
        exact List.suffix_cons "db" d
      rw [putOut, bind_run]
      cases hwrite : f'.write path text with
      | ok f'' =>
          have hrun : host.write path text f' = (.ok (), f'') :=
            change_ok (·.write path text) hwrite
          have hboard : f''.boardAt d = f'.boardAt d := by
            rw [write_eq_ok hwrite, boardAt_put_of_ne hplace]
          rw [hrun]
          exact .done shown (hboard ▸ done) rfl fun _ h => by cases h
      | error fault =>
          have hrun : host.write path text f' = (.error fault, f') :=
            change_error (·.write path text) hwrite
          rw [hrun]
          exact .of_fault hsame (fixed_of_write hwrite).departs (.append (by decide) _)

theorem ends_of_finish {directory : String} {around : Surroundings}
    (hprepares : Prepares d f f')
    (hfollow : f'.follow directory (Path.parts directory) = .ok d)
    (hfile : ∀ path ∈ command.file?, ¬d <:+ f.placeOf path)
    (shown : f.Shows settings command around)
    (hread : ∀ path fault, around.read path = .error fault → fault.Fixed) :
    Ends d f settings command
      (finish host directory (f.boardAt d) (run (f.boardAt d) around command) f') := by
  cases hresult : run (f.boardAt d) around command with
  | error report =>
      refine .failed rfl hprepares.board fun hstored => ?_
      exact clear_run hread hstored command report hresult
  | ok result =>
      obtain ⟨after, out⟩ := result
      have houtside : ∀ path ∈ command.file?, ¬d <:+ f'.placeOf path := by
        intro path hpath
        rw [hprepares.placeOf]
        exact hfile path hpath
      rw [finish]
      split
      · rename_i hsame
        subst hsame
        exact ends_of_putOut houtside shown (hprepares.board.symm ▸ hresult)
      · have hdone : run (f.boardAt d) around command
            = .ok ((f'.put ("db" :: d) (.board after)).boardAt d, out) := by
          rw [boardAt_put, hresult]
        rw [bind_run, keepBoard_run hfollow]
        exact ends_of_putOut houtside shown hdone

/-- Where the way can be made and the board be opened, the command has its turn. -/
theorem runIn_of_opened {directory : String} {f₁ f₂ : Folder} {s : Store}
    (hway : makeWay host (Path.way directory) f = (.ok (), f₁))
    (hopen : f₁.openBoard directory = (.ok s, f₂)) :
    runIn host directory settings command f
      = finish host directory s (run s (f₂.around settings command) command) f₂ := by
  have hrun : host.openBoard directory f₁ = (.ok s, f₂) := hopen
  rw [runIn, bind_run, hway]
  show (host.openBoard directory >>= _) f₁ = _
  rw [bind_run, hrun]
  show (surroundings host settings command >>= _) f₂ = _
  rw [bind_run, surroundings_run]

theorem ends_of_runIn {directory : String} (hplace : f.placeOf directory = d)
    (hfile : ∀ path ∈ command.file?, ¬d <:+ f.placeOf path) :
    Ends d f settings command (runIn host directory settings command f) := by
  obtain ⟨hway, hfault⟩ := safe_makeWay d (Path.way directory) f
  cases hmade : makeWay host (Path.way directory) f with | mk result f₁
  rw [hmade] at hway hfault
  cases result with
  | error fault =>
      rw [runIn, bind_run, hmade]
      exact .of_fault hway.board (hfault fault rfl).departs (.append (by decide) _)
  | ok _ =>
      have hplace₁ : f₁.placeOf directory = d := (hway.placeOf directory).trans hplace
      rcases openBoard_cases f₁ directory with ⟨fault, f₂, hopen, hprepares, hfixed⟩
        | ⟨f₂, hopen, hprepares, hfollow⟩
      · have hrun : host.openBoard directory f₁ = (.error fault, f₂) := hopen
        rw [hplace₁] at hprepares
        rw [runIn, bind_run, hmade]
        show Ends d f settings command ((host.openBoard directory >>= _) f₁)
        rw [bind_run, hrun]
        exact .of_fault (hway.trans hprepares).board (.append (by decide) _)
          (by decide)
      · rw [hplace₁] at hopen hprepares hfollow
        rw [hway.board] at hopen
        have hprepared := hway.trans hprepares
        rw [runIn_of_opened hmade hopen]
        refine ends_of_finish hprepared hfollow hfile (hprepared.shows fun path hpath => ?_)
          fun _ _ => fixed_of_around
        exact hfile path (Command.file?_of_source? hpath)

/-- What a command leaves of the board can be kept where the board was opened, so
a command that prints is the end of the run. -/
theorem finish_line {directory text : String} {before after : Store} {place : List String}
    (hfollow : f.follow directory (Path.parts directory) = .ok place) :
    (finish host directory before (.ok (after, .line text)) f).1 = .printed (text ++ "\n") := by
  rw [finish]
  split
  · rfl
  · rw [bind_run, keepBoard_run hfollow]
    rfl

end Folder

end BountyBoard.CommandLine
