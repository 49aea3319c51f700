import BountyBoard.CommandLine.Arguments

/-!
# Usage

The text that tells how to use the program, read off the grammars of its
commands.
-/

namespace BountyBoard.CommandLine

/-- What to give for a value, in a word. -/
def Shape.hint : Shape → String
  | .text => "text"
  | .path => "path"
  | .id => "id"
  | .time => "seconds"
  | .amount => "amount"
  | .coin => "coin"

def optionUsage (option : String × Shape) : String :=
  "--" ++ option.1 ++ " <" ++ option.2.hint ++ ">"

def bracketed (usage : String) : String :=
  "[" ++ usage ++ "]"

def Grammar.usage (g : Grammar) : String :=
  String.intercalate " " (g.name :: (g.places.map fun place => "<" ++ place.1 ++ ">")
    ++ g.needed.map optionUsage
    ++ g.optional.map (fun option => bracketed (optionUsage option))
    ++ g.flags.map fun flag => bracketed ("--" ++ flag))

def usage : String :=
  "usage: bountyd " ++ String.intercalate " " (shared.map fun o => bracketed (optionUsage o))
    ++ " <command>\n\n"
    ++ String.join (grammars.map fun g => "  " ++ g.usage ++ "\n")

end BountyBoard.CommandLine
