import Mathlib.Data.List.Chain
import Mathlib.Data.List.Induction
import BountyBoard.Proofs.CommandLine.Root
import BountyBoard.Proofs.Governance

/-!
# Runs of the program on one board

A board lives from run to run in its data directory. Each run finds the
directory as the last one left it (`Successive`), while everything outside,
the other files, the environment and the clock, may be another each time.

From run to run, the authority and the parameters are either both there or
both missing, and they came with the one `init` that succeeded (`Founded`). A
board that has no authority is not looked at any further, and this is why no
report ever says that the parameters are missing.
-/

namespace BountyBoard

namespace Store

/-- The board was started, or was not: authority and parameters came together. -/
structure Founded (s : Store) (started : Prop) : Prop where
  authority : s.authority ≠ none ↔ started
  params : s.params ≠ none ↔ started

theorem founded_empty {started : Prop} (h : ¬started) : empty.Founded started where
  authority := iff_of_false (fun hne => hne rfl) h
  params := iff_of_false (fun hne => hne rfl) h

variable {s s' : Store} {started : Prop}

/-- A snapshot founds a board, and only one that was not founded before. -/
theorem Founded.initialise {g : Snapshot} {authority : String} (h : s.Founded started)
    (hinit : s.initialise g authority = .ok s') :
    ¬started ∧ ∀ {now : Prop}, now → s'.Founded now := by
  obtain ⟨hblank, -, -, rfl⟩ := initialise_eq_ok.mp hinit
  refine ⟨fun hs => h.params.mpr hs hblank, fun hnow => ⟨?_, ?_⟩⟩
  · exact iff_of_true (Option.some_ne_none _) hnow
  · exact iff_of_true (Option.some_ne_none _) hnow

theorem Founded.apply {authority sender : String} {m : Message} {now : Time} {answer : Response}
    (h : s.Founded started) (hstored : s.authority ≠ none)
    (happly : s.apply authority sender m now = .ok (s', answer)) : s'.Founded started := by
  have hnext : s.next (.message authority sender m now) = s' :=
    next_of_take (take_message.mpr ⟨answer, happly⟩)
  rw [← hnext]
  cases s.governs (.message authority sender m now) with
  | founds start => cases start
  | stays params authority =>
      refine ⟨?_, ?_⟩
      · rw [authority, h.authority]
      · rw [params, h.params]
  | replaces _ _ _ params authority =>
      refine ⟨?_, ?_⟩
      · rw [authority, h.authority]
      · rw [params]
        exact iff_of_true (Option.some_ne_none _) (h.authority.mp hstored)

end Store

namespace CommandLine

/-- A command that is done founds a board that was not founded yet, if it is
`init`, and leaves the board founded as it was otherwise. -/
theorem founded_run {s s' : Store} {around : Surroundings} {command : Command} {out : Output}
    {started : Prop} (h : s.Founded started) (done : run s around command = .ok (s', out)) :
    (∀ authority genesis, command = .init authority genesis → ¬started ∧ out.code = 0)
    ∧ s'.Founded (started ∨ ∃ authority genesis, command = .init authority genesis) := by
  by_cases hinit : ∃ authority genesis, command = .init authority genesis
  · obtain ⟨authority, genesis, rfl⟩ := hinit
    obtain ⟨text, rfl⟩ := line_of_run (by rintro _ _ ⟨⟩) (by rintro _ ⟨⟩) done
    rw [run_init] at done
    obtain ⟨g, -, hstart⟩ := initialise_ok_iff.mp ⟨_, done⟩
    obtain ⟨hblank, hfounded⟩ := h.initialise hstart
    exact ⟨fun _ _ _ => ⟨hblank, rfl⟩, hfounded (.inr ⟨authority, genesis, rfl⟩)⟩
  · rw [or_iff_left hinit]
    replace hinit : ∀ authority genesis, command ≠ .init authority genesis :=
      fun authority genesis heq => hinit ⟨authority, genesis, heq⟩
    refine ⟨fun authority genesis heq => absurd heq (hinit authority genesis), ?_⟩
    cases hasks : command.asks with
    | true =>
        rw [run_asks hasks done]
        exact h
    | false =>
        obtain ⟨event, hevent, htake⟩ := (run_ok_iff hasks).mp ⟨out, done⟩
        obtain ⟨authority, sender, m, hstored, -, -, rfl⟩ := (event?_eq_some hinit).mp hevent
        obtain ⟨answer, happly⟩ := Store.take_message.mp htake
        exact h.apply (hstored ▸ Option.some_ne_none _) happly

/-! ## One run -/

/-- A run of the program: the files that it finds and its arguments. -/
structure Run where
  found : Folder
  args : List String

namespace Run

def ending (r : Run) : Ending :=
  (r.found.perform r.args).1

/-- The files that the run leaves. -/
def left (r : Run) : Folder :=
  (r.found.perform r.args).2

/-- The run keeps its board at the place `d` and has its other file outside.
An address is computed without a board. -/
def At (d : List String) (r : Run) : Prop :=
  ∀ settings command, request r.args = .run settings command →
    (∀ seed, command ≠ .address seed) →
      r.found.placeOf (Path.expandHome r.found.home settings.dataDir) = d
      ∧ ∀ path ∈ command.file?, ¬d <:+ r.found.placeOf path

/-- The run is an `init` that succeeds. -/
def Starts (r : Run) : Prop :=
  ∃ settings authority genesis, request r.args = .run settings (.init authority genesis)
    ∧ r.ending.code = 0

variable {r : Run} {d : List String} {settings : Settings} {command : Command}

theorem perform_eq (h : request r.args = .run settings command) :
    r.found.perform r.args = runCommand Folder.host settings command r.found := by
  show perform Folder.host r.args r.found = _
  rw [perform, h]

theorem runCommand_eq (f : Folder) (haddress : ∀ seed, command ≠ .address seed) :
    runCommand Folder.host settings command f
      = runIn Folder.host (Path.expandHome f.home settings.dataDir) settings command f := by
  cases command with
  | address seed => exact absurd rfl (haddress seed)
  | _ =>
      show (homeDirectory Folder.host >>= _) f = _
      rw [Folder.bind_run, Folder.homeDirectory_run]

theorem ends (hr : r.At d) (h : request r.args = .run settings command) :
    Folder.Ends d r.found settings command (r.found.perform r.args) := by
  rw [perform_eq h]
  by_cases haddress : ∃ seed, command = .address seed
  · obtain ⟨seed, rfl⟩ := haddress
    obtain ⟨j, hrun⟩ : ∃ j, ∀ s around, run s around (.address seed) = .ok (s, printed j) := by
      refine ⟨.object [("address", .string (Address.ofSeed seed).text)], fun s around => ?_⟩
      rw [run]
      cases s.authority <;> rfl
    show Folder.Ends d r.found settings _
      ((surroundings Folder.host settings (.address seed) >>= _) r.found)
    rw [Folder.bind_run, Folder.surroundings_run]
    simp only [hrun]
    refine .done ⟨rfl, rfl, fun _ h => by cases h⟩
      (hrun _ (r.found.around settings (.address seed))) rfl fun text htext => ?_
    cases htext
    rfl
  · have hother : ∀ seed, command ≠ .address seed := fun seed heq => haddress ⟨seed, heq⟩
    obtain ⟨hplace, hfile⟩ := hr settings command h hother
    rw [runCommand_eq r.found hother]
    exact Folder.ends_of_runIn hplace hfile

/-- With the root as its data directory, the run is one on a board in the root. -/
theorem perform_root (h : request r.args = .run settings command)
    (hroot : settings.dataDir = "/") (haddress : ∀ seed, command ≠ .address seed) :
    r.found.perform r.args = runIn Folder.host "/" settings command r.found := by
  rw [perform_eq h, runCommand_eq _ haddress, hroot, expandHome_root]

theorem at_root (hcurrent : r.found.current = []) (h : request r.args = .run settings command)
    (hroot : settings.dataDir = "/") (hfile : command.file? = none) : r.At [] := by
  intro settings' command' hrequest _
  cases h.symm.trans hrequest
  rw [hroot, expandHome_root]
  refine ⟨Folder.placeOf_root hcurrent, fun path hpath => ?_⟩
  rw [hfile] at hpath
  cases hpath

/-- On a board in the root with nothing in its way, a request without a file ends
with 0 if it succeeds, unless it is a rejection. -/
theorem code_root (hfree : r.found.RootFree) (h : request r.args = .run settings command)
    (hroot : settings.dataDir = "/") (hasks : command.asks = false)
    (hsource : command.source? = none) (hreject : ∀ id reason, command ≠ .reject id reason)
    (hdone : ∀ around, r.found.Shows settings command around →
      ∃ s' out, run (r.found.boardAt []) around command = .ok (s', out)) :
    r.ending.code = 0 := by
  have hother : (∀ seed, command ≠ .address seed) ∧ ∀ path, command ≠ .exportTo path := by
    constructor <;> rintro _ rfl <;> cases hasks
  obtain ⟨text, hprinted⟩ := hfree.prints hsource hreject hother.2 hdone
  rw [ending, perform_root h hroot hother.1, hprinted, Ending.code]

/-- Without a command there is nothing to do. -/
theorem idle (h : ∀ settings command, request r.args ≠ .run settings command) :
    r.left = r.found ∧ (request r.args = .refused → r.ending = .refused)
      ∧ ∀ report, r.ending ≠ .failed report := by
  have hperform : ∃ ending, r.found.perform r.args = (ending, r.found)
      ∧ (request r.args = .refused → ending = .refused) ∧ ∀ report, ending ≠ .failed report := by
    show ∃ ending, perform Folder.host r.args r.found = _ ∧ _
    rw [perform]
    cases hrequest : request r.args with
    | refused => exact ⟨_, rfl, fun _ => rfl, nofun⟩
    | help | version => exact ⟨_, rfl, nofun, nofun⟩
    | run settings command => exact absurd hrequest (h settings command)
  obtain ⟨ending, hperform, hending⟩ := hperform
  rw [left, Run.ending, hperform]
  exact ⟨rfl, hending⟩

/-- How a run goes: it has no command, or its command fails or is done. -/
inductive Outcome (d : List String) (r : Run) : Prop
  | idle
      (without : ∀ settings command, request r.args ≠ .run settings command)
      (same : r.left = r.found)
      (refused : request r.args = .refused → r.ending = .refused)
      (silent : ∀ report, r.ending ≠ .failed report)
  | failed {settings : Settings} {command : Command} {report : Report}
      (requested : request r.args = .run settings command)
      (ending : r.ending = .failed report)
      (same : r.left.boardAt d = r.found.boardAt d)
      (clear : ((r.found.boardAt d).authority ≠ none → (r.found.boardAt d).params ≠ none) →
        ¬report.BlamesParams)
  | done {settings : Settings} {command : Command} {around : Surroundings} {out : Output}
      (requested : request r.args = .run settings command)
      (shown : r.found.Shows settings command around)
      (done : run (r.found.boardAt d) around command = .ok (r.left.boardAt d, out))
      (code : r.ending.code = out.code)
      (shows : ∀ text, out = .line text → r.ending = .printed (text ++ "\n"))

theorem outcome (hr : r.At d) : r.Outcome d := by
  by_cases hcommand : ∃ settings command, request r.args = .run settings command
  · obtain ⟨settings, command, hrequest⟩ := hcommand
    cases r.ends hr hrequest with
    | failed ending same clear => exact .failed hrequest ending same clear
    | done shown done code shows => exact .done hrequest shown done code shows
  · have hnone := fun settings command heq => hcommand ⟨settings, command, heq⟩
    obtain ⟨hsame, hrefused, hsilent⟩ := r.idle hnone
    exact .idle hnone hsame hrefused hsilent

theorem left_of_failed (hr : r.At d) (hcode : r.ending.code = 1 ∨ r.ending.code = 2) :
    r.left.boardAt d = r.found.boardAt d := by
  cases r.outcome hr with
  | idle _ same => rw [same]
  | failed _ _ same => exact same
  | @done _ _ _ out _ _ _ code =>
      rw [code] at hcode
      cases out <;> exact hcode.elim nofun nofun

theorem left_of_asks (hr : r.At d)
    (hasks : ∀ settings command, request r.args = .run settings command → command.asks = true) :
    r.left.boardAt d = r.found.boardAt d := by
  cases r.outcome hr with
  | idle _ same => rw [same]
  | failed _ _ same => exact same
  | done requested _ done => exact run_asks (hasks _ _ requested) done

/-- The board takes the event of a command that does not fail. -/
theorem acts (hr : r.At d) (hrequest : request r.args = .run settings command)
    (hasks : command.asks = false) (hcode : r.ending.code ≠ 1) :
    ∃ around event, r.found.Shows settings command around
      ∧ command.event? (r.found.boardAt d) around = some event
      ∧ (r.found.boardAt d).take event = .ok (r.left.boardAt d) := by
  cases r.outcome hr with
  | idle without => exact absurd hrequest (without settings command)
  | failed _ ending =>
      rw [ending] at hcode
      exact absurd rfl hcode
  | done requested shown done =>
      cases requested.symm.trans hrequest
      obtain ⟨event, hevent, htake⟩ := (run_ok_iff hasks).mp ⟨_, done⟩
      exact ⟨_, event, shown, hevent, htake⟩

theorem fails_unstarted (hr : r.At d) (hblank : (r.found.boardAt d).authority = none)
    (hrequest : request r.args = .run settings command) (hneeds : command.needsNoBoard = false) :
    r.ending.code = 1 := by
  cases r.outcome hr with
  | idle without => exact absurd hrequest (without settings command)
  | failed _ ending => rw [ending, Ending.code]
  | @done _ _ around _ requested _ done =>
      cases requested.symm.trans hrequest
      obtain ⟨report, hreport⟩ : ∃ report, run _ around command = .error report :=
        run_unstarted hblank hneeds
      cases hreport.symm.trans done

theorem refuses (hr : r.At d) (hrequest : request r.args = .refused) : r.ending.code = 2 := by
  cases r.outcome hr with
  | idle _ _ refused => rw [refused hrequest, Ending.code]
  | failed requested => cases hrequest.symm.trans requested
  | done requested => cases hrequest.symm.trans requested

/-- No report says that the parameters are missing, as long as they come with the authority. -/
theorem silent (hr : r.At d)
    (hstored : (r.found.boardAt d).authority ≠ none → (r.found.boardAt d).params ≠ none)
    {report : Report} (hreport : r.ending = .failed report) : ¬report.BlamesParams := by
  cases r.outcome hr with
  | idle _ _ _ silent => exact absurd hreport (silent report)
  | failed _ ending _ clear =>
      cases ending.symm.trans hreport
      exact clear hstored
  | @done _ _ _ out _ _ _ code =>
      rw [hreport] at code
      cases out <;> cases code

/-- A run that starts the board finds it not started, and every run leaves it
founded as it should be then. -/
theorem founded_left (hr : r.At d) {started : Prop}
    (h : (r.found.boardAt d).Founded started) :
    (r.Starts → ¬started) ∧ (r.left.boardAt d).Founded (started ∨ r.Starts) := by
  -- a run that leaves the board alone does not start it
  have alone : ¬r.Starts → r.left.boardAt d = r.found.boardAt d →
      (r.Starts → ¬started) ∧ (r.left.boardAt d).Founded (started ∨ r.Starts) := by
    intro hstarts hsame
    rw [or_iff_left hstarts, hsame]
    exact ⟨fun hs => absurd hs hstarts, h⟩
  cases r.outcome hr with
  | idle without same =>
      refine alone ?_ (by rw [same])
      rintro ⟨settings, _, _, hrequest, -⟩
      exact without settings _ hrequest
  | failed _ ending same =>
      refine alone ?_ same
      rintro ⟨_, _, _, -, hcode⟩
      rw [ending] at hcode
      exact absurd hcode (by decide : (1 : UInt32) ≠ 0)
  | @done settings command _ _ requested _ done code =>
      obtain ⟨hinit, hleft⟩ := founded_run h done
      have hstarts : r.Starts ↔ ∃ authority genesis, command = .init authority genesis := by
        constructor
        · rintro ⟨_, authority, genesis, hstart, -⟩
          cases requested.symm.trans hstart
          exact ⟨authority, genesis, rfl⟩
        · rintro ⟨authority, genesis, rfl⟩
          exact ⟨settings, authority, genesis, requested,
            code.trans (hinit authority genesis rfl).2⟩
      rw [hstarts]
      refine ⟨?_, hleft⟩
      rintro ⟨authority, genesis, heq⟩
      exact (hinit authority genesis heq).1

end Run

/-- One run after another on the board at the place `d`. The first one finds
the data directory empty, and each finds it as the one before has left it. -/
structure Successive (d : List String) (runs : List Run) : Prop where
  place : ∀ r ∈ runs, r.At d
  vacant : ∀ r ∈ runs.head?, ∀ place, d <:+ place → place ≠ d → r.found.entry? place = none
  kept : runs.IsChain fun r next =>
    ∀ place, d <:+ place → next.found.entry? place = r.left.entry? place

/-- What holds of a run `r` on the board at the place `d` after the runs `before`. -/
structure Run.Lawful (d : List String) (before : List Run) (r : Run) : Prop where
  failed : r.ending.code = 1 ∨ r.ending.code = 2 → r.left.boardAt d = r.found.boardAt d
  asked : (∀ settings command, request r.args = .run settings command → command.asks = true) →
    r.left.boardAt d = r.found.boardAt d
  /-- A run that does not fail ends with 0, or with 101 where it breaks off
  when it prints. In both cases the command was done. -/
  acted : ∀ settings command, request r.args = .run settings command → command.asks = false →
    r.ending.code ≠ 1 → ∃ around event, r.found.Shows settings command around
      ∧ command.event? (r.found.boardAt d) around = some event
      ∧ (r.found.boardAt d).take event = .ok (r.left.boardAt d)
  foundedBefore : (r.found.boardAt d).Founded (∃ q ∈ before, q.Starts)
  foundedAfter : (r.left.boardAt d).Founded (∃ q ∈ before ++ [r], q.Starts)
  once : r.Starts → ∀ q ∈ before, ¬q.Starts
  needs : (∀ q ∈ before, ¬q.Starts) → ∀ settings command,
    request r.args = .run settings command → command.needsNoBoard = false → r.ending.code = 1
  refused : request r.args = .refused → r.ending.code = 2
  silent : ∀ report, r.ending = .failed report → ¬report.BlamesParams

theorem Successive.left_of_append {d : List String} {runs more : List Run}
    (h : Successive d (runs ++ more)) : Successive d runs where
  place r hr := h.place r (List.mem_append_left more hr)
  vacant r hr := h.vacant r (by
    cases runs with
    | nil => cases hr
    | cons => exact hr)
  kept := h.kept.left_of_append

/-- What a run finds is founded if one of the runs before it started the board. -/
theorem Successive.founded {d : List String} {before : List Run} {r : Run}
    (h : Successive d (before ++ [r])) :
    (r.found.boardAt d).Founded (∃ q ∈ before, q.Starts) := by
  induction before using List.reverseRecOn generalizing r with
  | nil =>
      have hblank : r.found.boardAt d = .empty := by
        have hdb := h.vacant r rfl ("db" :: d) (List.suffix_cons "db" d) (List.cons_ne_self "db" d)
        rw [Folder.boardAt, hdb]
      rw [hblank]
      exact Store.founded_empty (by simp)
  | append_singleton earlier q ih =>
      have hearlier : Successive d (earlier ++ [q]) := h.left_of_append
      have hboard : r.found.boardAt d = q.left.boardAt d := by
        have hkept := h.kept
        simp only [List.append_assoc, List.singleton_append] at hkept
        have hsame := hkept.right_of_append.rel ("db" :: d) (List.suffix_cons "db" d)
        rw [Folder.boardAt, hsame, Folder.boardAt]
      obtain ⟨-, hleft⟩ := Run.founded_left (h.place q (by simp)) (ih hearlier)
      rw [hboard]
      simpa [or_and_right, exists_or] using hleft

theorem Run.lawful {d : List String} {before : List Run} {r : Run} (hr : r.At d)
    (h : (r.found.boardAt d).Founded (∃ q ∈ before, q.Starts)) : r.Lawful d before where
  failed := r.left_of_failed hr
  asked := r.left_of_asks hr
  acted _ _ := r.acts hr
  foundedBefore := h
  foundedAfter := by
    obtain ⟨-, hleft⟩ := r.founded_left hr h
    simpa [or_and_right, exists_or] using hleft
  once hstarts q hq hbefore := (r.founded_left hr h).1 hstarts ⟨q, hq, hbefore⟩
  needs hbefore _ _ hrequest hneeds := by
    refine r.fails_unstarted hr ?_ hrequest hneeds
    by_contra hne
    obtain ⟨q, hq, hstarts⟩ := h.authority.mp hne
    exact hbefore q hq hstarts
  refused := r.refuses hr
  silent _ := r.silent hr fun hne => h.params.mpr (h.authority.mp hne)

/-- Every run is lawful, in every sequence of runs on one board. A command whose
event the board takes never fails, because whatever it reads after its message
was accepted is there to be read. So nothing was accepted in a run that fails,
and that it leaves the board alone does not depend on when the store is written. -/
theorem runs_lawful :
    (∀ d before r after, Successive d (before ++ r :: after) → Run.Lawful d before r)
    ∧ ∀ (s s' : Store) (around : Surroundings) (command : Command) (event : Event),
      command.event? s around = some event → s.take event = .ok s' →
        ∃ out, run s around command = .ok (s', out) := by
  refine ⟨?_, ?_⟩
  · intro d before r after h
    have hplace : r.At d := h.place r (by simp)
    have hruns : Successive d ((before ++ [r]) ++ after) := by simpa using h
    exact Run.lawful hplace (hruns.left_of_append.founded)
  · intro s s' around command event hevent htake
    exact (run_ok_iff (asks_eq_false hevent)).mpr ⟨event, hevent, htake⟩

end CommandLine

open CommandLine

namespace Sample

/-- A task is asked for in the root, where no board has been started yet. -/
def early : Run where
  found := { current := [], entries := [], environment := [], clock := 5 }
  args := ["--data-dir", "/", "show", "0"]

/-- The board is started in what the early run has left. -/
def starting : Run where
  found := { early.left with current := [], environment := [], clock := 6 }
  args := ["--data-dir", "/", "init", "--authority", alice]

/-- A task is posted on the board that was started. -/
def posting : Run where
  found := { starting.left with current := [], environment := [], clock := 7 }
  args := ["--data-dir", "/", "--from", bob, "create", "--title", "Fix the pump",
    "--description", "It leaks.", "--bounty", "1500stake"]

/-- The board that the default snapshot leaves. -/
def startedBoard : Store where
  tasks := Table.empty
  rewards := Table.empty
  params := some .default
  nextId := 0
  authority := some alice

theorem request_early : request early.args = .run ⟨"/", none, none⟩ (.showTask 0) := by
  decide +kernel

theorem request_starting : request starting.args = .run ⟨"/", none, none⟩ (.init alice none) := by
  decide +kernel

theorem request_posting : request posting.args
    = .run ⟨"/", some bob, none⟩ (.create "Fix the pump" "It leaks." bounty) := by
  decide +kernel

theorem successive : Successive [] [early, starting, posting] where
  place := by
    intro r hr
    simp only [List.mem_cons, List.not_mem_nil, or_false] at hr
    rcases hr with rfl | rfl | rfl
    · exact Run.at_root rfl request_early rfl rfl
    · exact Run.at_root rfl request_starting rfl rfl
    · exact Run.at_root rfl request_posting rfl rfl
  vacant := by
    rintro r ⟨⟩ place - hne
    cases place with
    | nil => exact absurd rfl hne
    | cons => rfl
  kept := by
    simp only [List.isChain_cons_cons, List.isChain_singleton, and_true]
    constructor <;> rintro place - <;> cases place <;> rfl

theorem free_starting : starting.found.RootFree := by
  have hearly : early.found.RootFree := ⟨rfl, by rintro ⟨⟩, by rintro ⟨⟩⟩
  have hleft : early.left.RootFree := by
    rw [Run.left, Run.perform_root request_early rfl fun _ h => by cases h]
    exact hearly.left _ _
  exact ⟨rfl, hleft.conf, hleft.db⟩

theorem free_posting : posting.found.RootFree := by
  have hleft : starting.left.RootFree := by
    rw [Run.left, Run.perform_root request_starting rfl fun _ h => by cases h]
    exact free_starting.left _ _
  exact ⟨rfl, hleft.conf, hleft.db⟩

theorem take_starting : Store.empty.take (.start .default alice) = .ok startedBoard :=
  Store.initialise_eq_ok.mpr ⟨rfl, isText_alice,
    ⟨by decide, .nil, by rintro _ ⟨⟩, by rintro _ ⟨⟩⟩, rfl⟩

theorem take_posting :
    ∃ s', startedBoard.take (sent bob (.create "Fix the pump" "It leaks." bounty) 7) = .ok s'
      ∧ s'.tasks.get? 0 = some (Task.posted 0 bob "Fix the pump" "It leaks." bounty 7) := by
  have hanswer : startedBoard.answer? (sent bob (.create "Fix the pump" "It leaks." bounty) 7)
      = some (.created 0) := by
    decide +kernel
  obtain ⟨e, haccepts, hresponse⟩ := Store.answer?_eq_some.mp hanswer
  have htake := Store.take_message.mpr ⟨_, Store.apply_eq_ok.mpr ⟨e, haccepts, rfl, hresponse⟩⟩
  refine ⟨_, htake, ?_⟩
  rw [← Store.next_of_take htake]
  decide +kernel

end Sample

/-- The early run fails and leaves an empty board, the second one starts the
board, and the third one posts a task on it. Both end with 0, as their boards
take their events. -/
theorem CommandLine.runs_lawful_sample :
    Successive [] [Sample.early, Sample.starting, Sample.posting]
    ∧ Sample.early.ending.code = 1 ∧ Sample.early.left.boardAt [] = .empty
    ∧ Sample.starting.ending.code = 0 ∧ Sample.starting.left.boardAt [] = Sample.startedBoard
    ∧ Sample.posting.ending.code = 0
    ∧ (Sample.posting.left.boardAt []).tasks.get? 0
      = some (Task.posted 0 Sample.bob "Fix the pump" "It leaks." Sample.bounty 7) := by
  have hearly : Sample.early.Lawful [] [] :=
    runs_lawful.1 [] [] Sample.early [Sample.starting, Sample.posting] Sample.successive
  have hstarting : Sample.starting.Lawful [] [Sample.early] :=
    runs_lawful.1 [] [Sample.early] Sample.starting [Sample.posting] Sample.successive
  have hposting : Sample.posting.Lawful [] [Sample.early, Sample.starting] :=
    runs_lawful.1 [] [Sample.early, Sample.starting] Sample.posting [] Sample.successive
  -- the early run finds nothing and changes nothing
  have hfailed : Sample.early.ending.code = 1 :=
    hearly.needs (by simp) _ _ Sample.request_early rfl
  have hblank : Sample.starting.found.boardAt [] = .empty := hearly.failed (.inl hfailed)
  -- the second one is done, and what it leaves is what its event leads to
  have hstarted : Sample.starting.ending.code = 0 := by
    refine Run.code_root Sample.free_starting Sample.request_starting rfl rfl rfl
      (fun _ _ h => by cases h) ?_
    intro around _
    rw [hblank]
    exact ⟨_, runs_lawful.2 _ _ around (.init Sample.alice none) _ rfl Sample.take_starting⟩
  obtain ⟨_, event, -, hevent, htake⟩ :=
    hstarting.acted _ _ Sample.request_starting rfl (by rw [hstarted]; decide)
  have hboard : Sample.posting.found.boardAt [] = Sample.startedBoard := by
    rw [hblank] at htake
    cases hevent
    exact (Except.ok.inj (Sample.take_starting.symm.trans htake)).symm
  -- and so is the third one
  obtain ⟨posted, hposted, hrow⟩ := Sample.take_posting
  have hevent : ∀ around, Sample.posting.found.Shows ⟨"/", some Sample.bob, none⟩
      (.create "Fix the pump" "It leaks." Sample.bounty) around →
        (Command.create "Fix the pump" "It leaks." Sample.bounty).event? Sample.startedBoard around
          = some (Sample.sent Sample.bob (.create "Fix the pump" "It leaks." Sample.bounty) 7) := by
    intro around hshows
    rw [Command.event?, hshows.sender, hshows.now]
    · rfl
    · rintro _ _ ⟨⟩
  have hdone : Sample.posting.ending.code = 0 := by
    refine Run.code_root Sample.free_posting Sample.request_posting rfl rfl rfl
      (fun _ _ h => by cases h) ?_
    intro around hshows
    rw [hboard]
    exact ⟨_, runs_lawful.2 _ _ around _ _ (hevent around hshows) hposted⟩
  obtain ⟨around, other, hshows, hother, htaken⟩ :=
    hposting.acted _ _ Sample.request_posting rfl (by rw [hdone]; decide)
  rw [hboard] at hother htaken
  cases (hevent around hshows).symm.trans hother
  obtain rfl := Except.ok.inj (hposted.symm.trans htaken)
  exact ⟨Sample.successive, hfailed, hblank, hstarted, hboard, hdone, hrow⟩

end BountyBoard
