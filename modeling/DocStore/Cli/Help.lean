import DocStore.Cli.Grammar
import DocStore.Text

/-!
# Usage lines and help text

The usage line in help names the command, `[OPTIONS]` when it has options besides the help
flag, each positional, and `<COMMAND>` for a tool, whose command is required. After a refused
command line the usage line may be narrowed to what was used: the options used, then the
groups used, then every positional, required ones and used ones as `<NAME>`, the rest as
`[NAME]`. An argument of a group that is shown is left to the group.

Help is the description, the usage line, and the sections `Commands:`, `Arguments:` and
`Options:` that are not empty, a blank line between them. A section lists one entry per line:
two spaces, the entry's spelling, and its help in a column two spaces right of the longest
spelling. An option is indented four more places, where a one-letter name stands as `-h, `.
An option's help ends with its default value, quoted when it is empty or holds a blank.

When the help column would start past 40 of a 100-character line and some help would not fit
in the rest, every help of that section goes instead on the line below its entry, indented by
ten spaces.
-/

namespace DocStore.Cli

/-- The width of a line that help is laid out for. -/
def lineWidth : Nat := 100

/-- `n` spaces. -/
def spaces (n : Nat) : String := String.ofList (List.replicate n ' ')

/-- The words joined by single spaces. -/
def words (ws : List String) : String := " ".intercalate ws

/-- The usage line of a tool in its help. -/
def Tool.usage (t : Tool) : String :=
  words ([t.name] ++ (if t.globals.isEmpty then [] else ["[OPTIONS]"]) ++ ["<COMMAND>"])

/-- The usage line of a command in its help. -/
def Tool.usageOf (t : Tool) (c : Command) : String :=
  let options := (t.optionsOf c).filter (· != helpFlag)
  words ([t.binOf c] ++ (if options.isEmpty then [] else ["[OPTIONS]"]) ++
    c.positionals.map Positional.spec)

/-- What a refused command line used: an argument, or a group that one of its arguments
belongs to. -/
inductive Used
  | arg (g : Given)
  | group (members : List Given)
  deriving DecidableEq, Repr

/-- Whether it is an argument rather than a group. -/
def Used.isArg : Used → Bool
  | .arg _ => true
  | .group _ => false

/-- An argument as a usage line names it: an option by its spelling, a positional by its
value name. -/
def Given.spelling (positionals : List Positional) : Given → String
  | .option o => o.spec
  | .positional i => ((positionals[i]?).map (·.valueName)).getD ""

/-- A group as a usage line shows it: `<A|B|...>`. -/
def groupSpelling (positionals : List Positional) (members : List Given) : String :=
  "<" ++ "|".intercalate (members.map (Given.spelling positionals)) ++ ">"

/-- The usage line narrowed to what was `used`, with the required positionals: first the
options, then the groups, each once, then the positionals in order; an argument of a group
shown stands only in the group. A positional is `<NAME>` when required or used, and
`[NAME]` otherwise. -/
def narrowUsage (bin : String) (positionals : List Positional) (used : List Used)
    (commandRequired : Bool) : String :=
  let required := positionals.zipIdx.filterMap fun (p, i) =>
    if p.required then some (Used.arg (.positional i)) else none
  let all := required ++ used
  let groups := all.filterMap fun
    | .group ms => some ms
    | .arg _ => none
  let members := groups.flatten
  let args := all.filterMap fun
    | .arg g => if members.contains g then none else some g
    | .group _ => none
  let options := (args.filterMap fun
    | .option o => some o.spec
    | .positional _ => none).eraseDups
  let shown := positionals.zipIdx.filterMap fun (p, i) =>
    if members.contains (.positional i) then none
    else some (p.specAs (args.contains (.positional i)))
  words ([bin] ++ options ++ (groups.map (groupSpelling positionals)).eraseDups ++ shown ++
    (if commandRequired then ["<COMMAND>"] else []))

/-- The usage line after a refused command line of the tool itself: the help's line when
nothing was used. -/
def Tool.usageGiven (t : Tool) (used : List Used) : String :=
  if used.isEmpty then t.usage else narrowUsage t.name [] used true

/-- The usage line after a refused command line of a command. -/
def Tool.usageGivenOf (t : Tool) (c : Command) (used : List Used) : String :=
  if used.isEmpty then t.usageOf c else narrowUsage (t.binOf c) c.positionals used false

/-- A default value as help shows it. -/
def showDefault (v : String) : String :=
  if v.isEmpty || v.any Text.isBlank then "\"" ++ v ++ "\"" else v

/-- The help of an option: its text, then its default value for one that takes a value. -/
def Opt.helpText (o : Opt) : String :=
  match o.default, o.takesValue with
  | some v, true =>
    let shown := "[default: " ++ showDefault v ++ "]"
    if o.help.isEmpty then shown else o.help ++ " " ++ shown
  | _, _ => o.help

/-- The width help counts for an option's text: without the space before its default. -/
def Opt.helpWidth (o : Opt) : Nat :=
  match o.default, o.takesValue with
  | some v, true => o.help.length + ("[default: " ++ showDefault v ++ "]").length
  | _, _ => o.help.length

/-- One entry of a help section. -/
structure Entry where
  /-- What stands between the two-space margin and the spelling. -/
  lead : String
  spelling : String
  help : String
  /-- The width of the help counted when deciding on the layout. -/
  helpWidth : Nat

/-- Whether a section's help goes below its entries: the help column, `taken` places in, is
past 40 of the line, and some help is wider than what is left. -/
def helpBelow (taken : Nat) (entries : List Entry) : Bool :=
  taken ≤ lineWidth && taken > 40 && entries.any (·.helpWidth > lineWidth - taken)

/-- The lines of a section; `extra` is the width of the leads. -/
def Entry.lines (entries : List Entry) (extra : Nat) : String :=
  let longest := entries.foldl (fun m e => max m e.spelling.length) 2
  let below := helpBelow (longest + extra + 4) entries
  "\n".intercalate (entries.map fun e =>
    if below then "  " ++ e.lead ++ e.spelling ++ "\n" ++ spaces 10 ++ e.help
    else "  " ++ e.lead ++ e.spelling ++ spaces (longest + 2 - e.spelling.length) ++ e.help)

/-- Options in listing order: by rank, then by key. -/
def sortOptions (os : List Opt) : List Opt :=
  os.mergeSort fun a b => a.rank < b.rank || (a.rank == b.rank && a.sortKey ≤ b.sortKey)

/-- The entries of options. -/
def optionEntries (os : List Opt) : List Entry :=
  (sortOptions os).map fun o =>
    ⟨match o.short with | some c => String.ofList ['-', c, ',', ' '] | none => spaces 4,
      o.spec, o.helpText, o.helpWidth⟩

/-- The entries of positionals. -/
def positionalEntries (ps : List Positional) : List Entry :=
  ps.map fun p => ⟨"", p.spec, p.help, p.help.length⟩

/-- The entries of commands. -/
def commandEntries (cs : List Command) : List Entry :=
  cs.map fun c => ⟨"", c.name, c.about, c.about.length⟩

/-- A section: its heading and lines; nothing when it has no entries. -/
def sectionText (heading : String) (entries : List Entry) (extra : Nat) : List String :=
  if entries.isEmpty then [] else [heading ++ ":\n" ++ Entry.lines entries extra]

/-- A help text from its description, usage line and sections. -/
def helpPage (about usage : String) (sections : List String) : String :=
  Text.trimEnd (about ++ "\n\nUsage: " ++ usage ++ "\n\n" ++ "\n\n".intercalate sections) ++ "\n"

/-- The help of a tool. -/
def Tool.help (t : Tool) : String :=
  helpPage t.about t.usage
    (sectionText "Commands" (commandEntries t.allCommands) 0 ++
      sectionText "Options" (optionEntries t.topOptions) 4)

/-- The help of a command. -/
def Tool.helpOf (t : Tool) (c : Command) : String :=
  helpPage c.about (t.usageOf c)
    (sectionText "Arguments" (positionalEntries c.positionals) 0 ++
      sectionText "Options" (optionEntries (t.optionsOf c)) 4)

end DocStore.Cli
