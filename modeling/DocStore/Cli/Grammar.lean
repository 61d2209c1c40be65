/-!
# Command-line grammar

A tool is a program name, a one-line description, global options that every command accepts,
and commands, each with positional arguments and options of its own. Every command but `help`
also accepts `-h` and `--help`; the `help` command names the command whose help is wanted.

Options are written `--name`, `--name value` or `--name=value`; a flag takes no value. Help
lists options by their listing rank, then by name, and the help flag last; positionals in
their order.

The spellings used in messages and usage lines: an option is `--name <VALUE>` or `--name`, a
required positional `<NAME>`, an optional one `[NAME]`, and one that takes several values
ends in `...`.

Arguments declared together form a group. A group only changes how some usage lines are
written: `<A|B|...>` in place of its members.
-/

namespace DocStore.Cli

/-- An option: a flag, or one that takes a value. -/
structure Opt where
  long : String
  short : Option Char
  /-- The name of its value, for an option that takes one. -/
  valueName : Option String
  help : String
  /-- The value it has when not given, shown in help. -/
  default : Option String
  /-- Its rank in help listings. -/
  rank : Nat
  /-- Whether an empty value is refused, as for a file path. -/
  nonEmpty : Bool
  deriving DecidableEq, Repr

/-- A positional argument. -/
structure Positional where
  valueName : String
  required : Bool
  /-- Whether it takes every remaining value. -/
  many : Bool
  help : String
  deriving DecidableEq, Repr

/-- An argument of a command: an option, or the positional at an index. -/
inductive Given
  | option (o : Opt)
  | positional (index : Nat)
  deriving DecidableEq, Repr

/-- A command of a tool. -/
structure Command where
  name : String
  about : String
  positionals : List Positional
  options : List Opt
  /-- Its groups of arguments. -/
  groups : List (List Given)
  deriving DecidableEq, Repr

/-- A tool: its name, description, global options and commands; a command is required. -/
structure Tool where
  name : String
  about : String
  globals : List Opt
  /-- The groups of arguments of the words before a command. -/
  groups : List (List Given)
  commands : List Command
  deriving DecidableEq, Repr

/-- The help flag that every command but `help` accepts. -/
def helpFlag : Opt :=
  ⟨"help", some 'h', none, "Print help", none, 999, false⟩

/-- The command that prints the help of other commands. -/
def helpCommand : Command :=
  ⟨"help", "Print this message or the help of the given subcommand(s)",
    [⟨"COMMAND", false, true, "Print help for the subcommand(s)"⟩], [], []⟩

namespace Opt

/-- Whether the option takes a value. -/
def takesValue (o : Opt) : Bool := o.valueName.isSome

/-- `--name <VALUE>` or `--name`. -/
def spec (o : Opt) : String :=
  "--" ++ o.long ++ (match o.valueName with | some v => " <" ++ v ++ ">" | none => "")

/-- The key that orders options of one rank in help: the one-letter name in lower case with
`0` for a lower-case letter and `1` otherwise, else the long name. -/
def sortKey (o : Opt) : String :=
  match o.short with
  | some c => String.ofList [c.toLower, if c.isLower then '0' else '1']
  | none => o.long

end Opt

namespace Positional

/-- `<NAME>` when `required`, else `[NAME]`; `...` after one that takes several values. -/
def specAs (p : Positional) (required : Bool) : String :=
  (if required then "<" ++ p.valueName ++ ">" else "[" ++ p.valueName ++ "]") ++
    (if p.many then "..." else "")

/-- The spelling in help listings. -/
def spec (p : Positional) : String := p.specAs p.required

end Positional

namespace Tool

/-- The words that start a command line for `c`: `tool c`. -/
def binOf (t : Tool) (c : Command) : String := t.name ++ " " ++ c.name

/-- Every command, `help` last. -/
def allCommands (t : Tool) : List Command := t.commands ++ [helpCommand]

/-- The command of a name. -/
def command? (t : Tool) (name : String) : Option Command :=
  t.allCommands.find? (·.name == name)

/-- The options of the command line before any command: the globals and the help flag. -/
def topOptions (t : Tool) : List Opt := t.globals ++ [helpFlag]

/-- The options a command accepts: its own, the globals and the help flag; `help` takes none. -/
def optionsOf (t : Tool) (c : Command) : List Opt :=
  if c.name = helpCommand.name then [] else c.options ++ t.globals ++ [helpFlag]

/-- Whether a refusal of the command's words may point to its help flag. -/
def hasHelpFlag (t : Tool) (c : Command) : Bool := (t.optionsOf c).contains helpFlag

end Tool

end DocStore.Cli
