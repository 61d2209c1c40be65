/-!
# Refused command lines

Why a command line is refused, the tips that may follow, and the text written for it:

```text
error: <message>

  tip: <tip>

Usage: <usage line>

For more information, try '--help'.
```

The tips and the usage line are left out when there are none, and the last line when the
command refused has no help flag to point to.
-/

namespace DocStore.Cli

/-- Why a command line was refused. -/
inductive Refusal
  /-- A word that is neither an option of the command nor a value it takes. -/
  | unexpectedArgument (word : String)
  /-- A word where a command name was expected. -/
  | unknownCommand (word : String)
  /-- Required positionals that were left out, by their spellings. -/
  | missingArguments (specs : List String)
  /-- An option given without its value, or with an empty value where that is refused. -/
  | missingValue (spec : String)
  /-- A value attached to a flag. -/
  | valueForFlag (value spec : String)
  /-- An option given twice. -/
  | repeated (spec : String)
  /-- Options given but no command. -/
  | missingCommand (tool : String) (names : List String)
  deriving DecidableEq, Repr

/-- The first line of the text, and the lines that belong to it. -/
def Refusal.message : Refusal → String
  | .unexpectedArgument w => "unexpected argument '" ++ w ++ "' found"
  | .unknownCommand w => "unrecognized subcommand '" ++ w ++ "'"
  | .missingArguments specs =>
    "the following required arguments were not provided:" ++ String.join (specs.map ("\n  " ++ ·))
  | .missingValue spec => "a value is required for '" ++ spec ++ "' but none was supplied"
  | .valueForFlag v spec =>
    "unexpected value '" ++ v ++ "' for '" ++ spec ++ "' found; no more were expected"
  | .repeated spec => "the argument '" ++ spec ++ "' cannot be used multiple times"
  | .missingCommand tool names =>
    "'" ++ tool ++ "' requires a subcommand but one was not provided\n  [subcommands: " ++
      ", ".intercalate names ++ "]"

/-- A hint after a refusal. -/
inductive Tip
  /-- An option spelled like the mistyped one. -/
  | similarOption (spelling : String)
  /-- Command names spelled like the mistyped one, the likeliest last. -/
  | similarCommands (names : List String)
  /-- How to pass a word that looks like an option as a value: after `--`, behind `lead`. -/
  | asValue (word lead : String)
  /-- The mistyped option is like one of a command named further on. -/
  | optionOfCommand (command spelling : String)
  /-- A command name was given after `--`. -/
  | needlessEscape (command : String)
  deriving DecidableEq, Repr

/-- The names between quotes, separated by commas. -/
def quoted (names : List String) : String := ", ".intercalate (names.map ("'" ++ · ++ "'"))

/-- The text of a tip. -/
def Tip.text : Tip → String
  | .similarOption s => "a similar argument exists: '" ++ s ++ "'"
  | .similarCommands [n] => "a similar subcommand exists: '" ++ n ++ "'"
  | .similarCommands ns => "some similar subcommands exist: " ++ quoted ns
  | .asValue w lead => "to pass '" ++ w ++ "' as a value, use '" ++ lead ++ "-- " ++ w ++ "'"
  | .optionOfCommand c s => "'" ++ c ++ " " ++ s ++ "' exists"
  | .needlessEscape c => "subcommand '" ++ c ++ "' exists; to use it, remove the '--' before it"

/-- A refusal with its tips and the usage line shown after them. -/
structure Complaint where
  refusal : Refusal
  tips : List Tip
  usage : Option String
  /-- Whether the text ends by pointing to `--help`. -/
  hint : Bool
  deriving DecidableEq, Repr

/-- The text written for a refused command line. -/
def Complaint.render (c : Complaint) : String :=
  "error: " ++ c.refusal.message ++
    (if c.tips.isEmpty then "" else "\n" ++ String.join (c.tips.map ("\n  tip: " ++ ·.text))) ++
    (match c.usage with | some u => "\n\nUsage: " ++ u | none => "") ++
    (if c.hint then "\n\nFor more information, try '--help'.\n" else "\n")

example : (Complaint.mk (.unexpectedArgument "--x") [.asValue "--x" ""] (some "t c <A>") true).render =
    "error: unexpected argument '--x' found\n\n  tip: to pass '--x' as a value, use '-- --x'\n\n" ++
      "Usage: t c <A>\n\nFor more information, try '--help'.\n" := by decide +kernel
example : (Complaint.mk (.unknownCommand "x") [] (some "t help [COMMAND]...") false).render =
    "error: unrecognized subcommand 'x'\n\nUsage: t help [COMMAND]...\n" := by decide +kernel

end DocStore.Cli
