import BountyBoard.CommandLine.Command

/-!
# Arguments

How a list of arguments is read as a command. Arguments stand either at
their place or behind an option, `--name value` or `--name=value`. The
options in `shared` can stand before and after the name of the command, and
the one after it counts. Arguments are read from left to right, and the
first one that does not fit decides; so does a request for help or for the
version. Behind `--` every argument stands at its place, whatever it looks
like.
-/

namespace BountyBoard.CommandLine

/-- What the text of an argument has to be. -/
inductive Shape where
  | text
  /-- A path is not empty. -/
  | path
  | id
  | time
  | amount
  | coin
deriving Repr, DecidableEq

def readId (s : String) : Option TaskId :=
  (Text.readUnsigned s).bind Count.ofNat?

def readTime (s : String) : Option Time :=
  (Text.readSigned s).bind Time.ofInt?

def readAmount (s : String) : Option Amount :=
  (Text.readUnsigned s).bind Amount.ofNat?

def readCoin (s : String) : Option Coin :=
  (Coin.ofText s).toOption

def Shape.accepts : Shape → String → Bool
  | .text, _ => true
  | .path, s => !s.isEmpty
  | .id, s => (readId s).isSome
  | .time, s => (readTime s).isSome
  | .amount, s => (readAmount s).isSome
  | .coin, s => (readCoin s).isSome

/-- The arguments that a command takes. -/
structure Grammar where
  name : String
  /-- Arguments that stand at their place; all are needed. -/
  places : List (String × Shape)
  needed : List (String × Shape)
  optional : List (String × Shape)
  flags : List String
deriving Repr, DecidableEq

/-- Options that every command takes. -/
def shared : List (String × Shape) :=
  [("data-dir", .path), ("from", .text), ("now", .time)]

def grammars : List Grammar := [
  ⟨"init", [], [("authority", .text)], [("genesis", .path)], []⟩,
  ⟨"address", [("seed", .text)], [], [], []⟩,
  ⟨"create", [], [("title", .text), ("description", .text), ("bounty", .coin)], [], []⟩,
  ⟨"update", [("id", .id)], [("status", .text)],
    [("title", .text), ("description", .text), ("bounty", .coin)], ["clear-claim"]⟩,
  ⟨"delete", [("id", .id)], [], [], []⟩,
  ⟨"claim", [("id", .id)], [], [], []⟩,
  ⟨"submit", [("id", .id)], [("hash", .text), ("proof-type", .text)], [("data", .text)], []⟩,
  ⟨"approve", [("id", .id)], [], [], []⟩,
  ⟨"reject", [("id", .id)], [("reason", .text)], [], []⟩,
  ⟨"show", [("id", .id)], [], [], []⟩,
  ⟨"list", [], [],
    [("creator", .text), ("claimant", .text), ("approver", .text), ("status", .text),
      ("min-bounty", .amount), ("max-bounty", .amount), ("sort", .text)], ["desc"]⟩,
  ⟨"reward", [("id", .id)], [], [], []⟩,
  ⟨"rewards", [], [], [("claimant", .text)], []⟩,
  ⟨"params", [], [], [], []⟩,
  ⟨"set-params", [("file", .path)], [], [], []⟩,
  ⟨"export", [], [], [("out", .path)], []⟩]

def grammar? (name : String) : Option Grammar :=
  grammars.find? fun g => g.name == name

/-- The arguments read so far. -/
structure Given where
  values : List (String × String)
  flags : List String
deriving Repr, DecidableEq

namespace Given

def none : Given := ⟨[], []⟩

def value? (g : Given) (name : String) : Option String :=
  (g.values.find? fun v => v.1 == name).map (·.2)

/-- Takes a value in, once and only in its shape. -/
def put? (g : Given) (name : String) (shape : Shape) (value : String) : Option Given :=
  if (g.value? name).isNone ∧ shape.accepts value then
    some { g with values := (name, value) :: g.values }
  else Option.none

/-- Takes a flag in, once. -/
def raise? (g : Given) (name : String) : Option Given :=
  if g.flags.contains name then Option.none else some { g with flags := name :: g.flags }

end Given

inductive Look where
  /-- Two dashes, behind which all arguments stand at their place. -/
  | escape
  /-- An option, `--name` or `--name=value`. -/
  | long (name : String) (value : Option String)
  /-- A dash and at least one letter. -/
  | short (letter : Char)
  /-- Anything else, a single dash too. -/
  | plain
deriving Repr, DecidableEq

def look (arg : String) : Look :=
  match arg.toList with
  | ['-', '-'] => .escape
  | '-' :: '-' :: cs =>
    match cs.dropWhile (· != '=') with
    | [] => .long (String.ofList cs) none
    | _ :: value => .long (String.ofList (cs.takeWhile (· != '='))) (some (String.ofList value))
  | '-' :: letter :: _ => .short letter
  | _ => .plain

/-- The value of an option, attached to it or in the next argument, and the
arguments after it. The next argument is no value if it looks like an option. -/
def valueOf? : Option String → List String → Option (String × List String)
  | some value, rest => some (value, rest)
  | none, next :: rest => if look next = .plain then some (next, rest) else none
  | none, [] => none

theorem length_of_valueOf? {attached : Option String} {rest after : List String} {value : String}
    (h : valueOf? attached rest = some (value, after)) : after.length ≤ rest.length := by
  cases attached with
  | some v =>
    simp only [valueOf?, Option.some.injEq, Prod.mk.injEq] at h
    exact h.2 ▸ Nat.le_refl _
  | none =>
    cases rest with
    | nil => simp [valueOf?] at h
    | cons next rest =>
      simp only [valueOf?] at h
      split at h
      · simp only [Option.some.injEq, Prod.mk.injEq] at h
        rw [← h.2]
        exact Nat.le_succ _
      · cases h

/-- What a list of arguments asks for. -/
inductive Request where
  | refused
  | help
  | version
  | run (settings : Settings) (command : Command)
deriving Repr, DecidableEq

inductive Reading where
  | refused
  | help
  | complete (given : Given)
deriving Repr, DecidableEq

def readPlaces (given : Given) (places : List (String × Shape)) : List String → Reading
  | [] => if places.isEmpty then .complete given else .refused
  | arg :: rest =>
    match places with
    | [] => .refused
    | (name, shape) :: places =>
      match given.put? name shape arg with
      | none => .refused
      | some given => readPlaces given places rest

def readArguments (g : Grammar) (given : Given) (places : List (String × Shape))
    (args : List String) : Reading :=
  match args with
  | [] => if places.isEmpty then .complete given else .refused
  | arg :: rest =>
    match look arg with
    | .escape => readPlaces given places rest
    | .short letter => if letter = 'h' then .help else .refused
    | .long name attached =>
      if name = "help" ∧ attached.isNone then .help
      else if g.flags.contains name then
        match attached, given.raise? name with
        | none, some given => readArguments g given places rest
        | _, _ => .refused
      else
        match (g.needed ++ g.optional ++ shared).find? fun option => option.1 == name with
        | none => .refused
        | some (_, shape) =>
          match _h : valueOf? attached rest with
          | none => .refused
          | some (value, after) =>
            match given.put? name shape value with
            | none => .refused
            | some given => readArguments g given places after
    | .plain =>
      match places with
      | [] => .refused
      | (name, shape) :: places =>
        match given.put? name shape arg with
        | none => .refused
        | some given => readArguments g given places rest
termination_by args.length
decreasing_by
  · simp
  · have := length_of_valueOf? _h
    simp only [List.length_cons]
    omega
  · simp

/-- The settings that were given before (`outer`) and behind the name of the
command. -/
def settingsOf (outer given : Given) : Settings where
  dataDir := ((given.value? "data-dir").or (outer.value? "data-dir")).getD "~/.bountyd/data"
  sender := (given.value? "from").or (outer.value? "from")
  now := ((given.value? "now").or (outer.value? "now")).bind readTime

def commandOf (name : String) (given : Given) : Option Command :=
  let text := given.value?
  let id := (given.value? "id").bind readId
  let coin := (given.value? "bounty").bind readCoin
  let amount (name : String) := ((given.value? name).bind readAmount).getD .zero
  match name with
  | "init" => return .init (← text "authority") (text "genesis")
  | "address" => return .address (← text "seed")
  | "create" => return .create (← text "title") (← text "description") (← coin)
  | "update" =>
    return .update (← id) (← text "status") (text "title") (text "description") coin
      (given.flags.contains "clear-claim")
  | "delete" => return .delete (← id)
  | "claim" => return .claim (← id)
  | "submit" => return .submit (← id) (← text "hash") (← text "proof-type") (text "data")
  | "approve" => return .approve (← id)
  | "reject" => return .reject (← id) (← text "reason")
  | "show" => return .showTask (← id)
  | "list" =>
    return .list (text "creator") (text "claimant") (text "approver") (text "status")
      (amount "min-bounty") (amount "max-bounty") (text "sort") (given.flags.contains "desc")
  | "reward" => return .reward (← id)
  | "rewards" => return .rewards (text "claimant")
  | "params" => return .params
  | "set-params" => return .setParams (← text "file")
  | "export" => return .exportTo (text "out")
  | _ => none

/-- Reads a command from its name on. A needed option that is missing leaves
no command. -/
def readCommand (outer : Given) (g : Grammar) (args : List String) : Request :=
  match readArguments g .none g.places args with
  | .refused => .refused
  | .help => .help
  | .complete given =>
    match commandOf g.name given with
    | none => .refused
    | some command => .run (settingsOf outer given) command

/-- A request for help names at most one command. -/
def readHelp : List String → Request
  | [] => .help
  | [name] => if (grammar? name).isSome ∨ name = "help" then .help else .refused
  | _ => .refused

/-- Reads the arguments before the name of a command, and the command. -/
def readRequest (outer : Given) (args : List String) : Request :=
  match args with
  | [] => .refused
  | arg :: rest =>
    match grammar? arg with
    | some g => readCommand outer g rest
    | none =>
      match look arg with
      | .escape => .refused
      | .plain => if arg = "help" then readHelp rest else .refused
      | .short letter =>
        if letter = 'h' then .help else if letter = 'V' then .version else .refused
      | .long name attached =>
        if name = "help" ∧ attached.isNone then .help
        else if name = "version" ∧ attached.isNone then .version
        else
          match shared.find? fun option => option.1 == name with
          | none => .refused
          | some (_, shape) =>
            match _h : valueOf? attached rest with
            | none => .refused
            | some (value, after) =>
              match outer.put? name shape value with
              | none => .refused
              | some outer => readRequest outer after
termination_by args.length
decreasing_by
  have := length_of_valueOf? _h
  simp only [List.length_cons]
  omega

def request (args : List String) : Request :=
  readRequest .none args

end BountyBoard.CommandLine
