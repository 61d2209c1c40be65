import DocStore.Cli.Help
import DocStore.Cli.Refusal
import DocStore.Cli.Similar

/-!
# Reading a command line

`Tool.read` turns the words of a command line into what they ask for: a command to run with
its options and values, a help text, or a refusal.

Words are read left to right. A word `--` makes every later word a positional. `--name` and
`--name=value` are options, and a word of a dash and letters is a cluster of one-letter flags.
Any other word is the value of an option waiting for one, or else, before a command, a
command name, where `help` shows the help named by the words after it, or else the next
positional; the last positional may take every remaining value.

A value is checked when the next option, flag or positional arrives, or at the end: an
option needs a value, may be given once, and a path must not be empty. Problems with the
words read so far are found before problems with the words after them, except that a command
is read to its end before the options ahead of it are checked. An option given both before
and after the command name takes the value given after it.
-/

namespace DocStore.Cli

/-- A command line that was accepted. -/
structure Invocation where
  command : String
  /-- Options given, by long name, with their values; flags have none. Options given after
  the command name come first. -/
  options : List (String × Option String)
  /-- Positional values in order. -/
  values : List String
  deriving DecidableEq, Repr

/-- What a command line asks for. -/
inductive Outcome
  | run (inv : Invocation)
  /-- Help, asked for: written to standard output. -/
  | help (text : String)
  /-- A refusal, or help when nothing at all was given: written to standard error. -/
  | refused (text : String)
  deriving DecidableEq, Repr

/-- Values gathered for an option or a positional, not yet checked. -/
structure Pending where
  target : Given
  values : List String
  deriving DecidableEq, Repr

/-- What has been read of one command's words. -/
structure Reading where
  options : List (String × Option String)
  values : List String
  /-- Arguments and groups used, in the order of their first use. -/
  used : List Used
  pending : Option Pending
  /-- The number of positionals started. -/
  started : Nat
  /-- Whether `--` was read. -/
  escaped : Bool
  deriving DecidableEq, Repr

/-- Nothing read yet. -/
def Reading.empty : Reading := ⟨[], [], [], none, 0, false⟩

namespace Reading

/-- Whether an option was used. -/
def has (r : Reading) (o : Opt) : Bool := r.used.contains (.arg (.option o))

/-- Notes an argument or group as used, once. -/
def note (r : Reading) (u : Used) : Reading :=
  if r.used.contains u then r else { r with used := r.used ++ [u] }

/-- Forgets an option, leaving its groups. -/
def forget (r : Reading) (o : Opt) : Reading :=
  { r with used := r.used.filter (· != .arg (.option o)),
           options := r.options.filter (·.1 != o.long) }

/-- The arguments used, without the groups. -/
def args (r : Reading) : List Used := r.used.filter Used.isArg

/-- Whether an option waits for its value. -/
def waiting (r : Reading) : Option Opt :=
  match r.pending with
  | some ⟨.option o, []⟩ => some o
  | _ => none

end Reading

/-- What the reader knows of the command whose words it reads. -/
structure Level where
  /-- The words that start the command line. -/
  bin : String
  options : List Opt
  positionals : List Positional
  groups : List (List Given)
  /-- The commands that may follow; none inside a command. -/
  commands : List Command
  /-- The long option names of each command that may follow. -/
  commandOptions : List (String × List String)
  helpText : String
  /-- The usage line of its help. -/
  usage : String
  /-- The usage line narrowed to what was used. -/
  usageGiven : List Used → String

/-- A refusal with its tips and usage line, pointing to `--help`. -/
def refuse (r : Refusal) (tips : List Tip) (usage : Option String) : Outcome :=
  .refused (Complaint.mk r tips usage true).render

namespace Level

/-- Notes an argument as used, then each group that holds it. -/
def use (lv : Level) (r : Reading) (g : Given) : Reading :=
  (lv.groups.filter (·.contains g)).foldl (fun r ms => r.note (.group ms)) (r.note (.arg g))

/-- Records an option with its value. -/
def record (lv : Level) (r : Reading) (o : Opt) (v : Option String) : Reading :=
  { lv.use r (.option o) with options := r.options ++ [(o.long, v)] }

/-- Whether a use is of a required positional. -/
def isRequired (lv : Level) : Used → Bool
  | .arg (.positional i) => ((lv.positionals[i]?).map (·.required)).getD false
  | _ => false

/-- Checks and records the pending values. -/
def settle (lv : Level) (r : Reading) : Except Outcome Reading :=
  match r.pending with
  | none => .ok r
  | some ⟨.option o, vs⟩ =>
    let r := { r with pending := none }
    match vs with
    | [] => .error (refuse (.missingValue o.spec) [] none)
    | v :: _ =>
      if r.has o then .error (refuse (.repeated o.spec) [] (some lv.usage))
      else if o.nonEmpty && v.isEmpty then .error (refuse (.missingValue o.spec) [] none)
      else .ok (lv.record r o (some v))
  | some ⟨.positional i, vs⟩ =>
    .ok { lv.use r (.positional i) with pending := none, values := r.values ++ vs }

/-- The pending values checked on the way to a refusal, whose own problems give way to it: a
missing value is dropped, a repeated option is forgotten, and an empty path is noted as used. -/
def settleAnyway (lv : Level) (r : Reading) : Reading :=
  match r.pending with
  | none => r
  | some ⟨.option _, []⟩ => { r with pending := none }
  | some ⟨.option o, v :: _⟩ =>
    let r := { r with pending := none }
    if r.has o then r.forget o
    else if o.nonEmpty && v.isEmpty then lv.use r (.option o)
    else lv.record r o (some v)
  | some ⟨.positional i, vs⟩ =>
    { lv.use r (.positional i) with pending := none, values := r.values ++ vs }

/-- A flag given: help stops reading; another flag is recorded once. -/
def flag (lv : Level) (o : Opt) (r : Reading) : Except Outcome Reading :=
  if o = helpFlag then .error (.help lv.helpText)
  else if r.has o then .error (refuse (.repeated o.spec) [] (some lv.usage))
  else .ok (lv.record r o none)

/-- An option that takes a value, with the value attached to it or not. -/
def withValue (lv : Level) (o : Opt) (attached : Option String) (r : Reading) :
    Except Outcome Reading := do
  let r ← lv.settle r
  match attached with
  | some v => lv.settle { r with pending := some ⟨.option o, [v]⟩ }
  | none => pure { r with pending := some ⟨.option o, []⟩ }

/-- A value attached to a flag. The usage line names what was used before it, groups
included and required positionals left to their own place, and the flag; values still
pending are left out. -/
def valueForFlag (lv : Level) (o : Opt) (v : String) (r : Reading) : Outcome :=
  let used := (r.used.filter fun u => !lv.isRequired u) ++ [.arg (.option o)]
  refuse (.valueForFlag v o.spec) [] (some (lv.usageGiven used))

/-- The command named further on whose option is most like `name`, with that option. -/
def optionElsewhere (lv : Level) (name : String) (rest : List String) :
    Option (String × String) :=
  let found := lv.commandOptions.filterMap fun (c, longs) =>
    (mostSimilar name longs).bind fun s => (rest.idxOf? c).map fun place => (place, c, s)
  (found.foldl (fun best x => match best with
    | some b => if x.1 < b.1 then some x else some b
    | none => some x) none).map (·.2)

/-- A long option that the command does not have. The usage line names the arguments used,
with the option suggested in its place when the command has it. -/
def unknownLong (lv : Level) (name : String) (rest : List String) (r : Reading) : Outcome :=
  let r := lv.settleAnyway r
  let word := "--" ++ name
  let (tips, suggested) : List Tip × Option String :=
    match mostSimilar name (lv.options.map (·.long)) with
    | some s => ([.similarOption ("--" ++ s)], some s)
    | none =>
      match lv.optionElsewhere name rest with
      | some (c, s) => ([.optionOfCommand c ("--" ++ s)], some s)
      | none => (if lv.positionals.isEmpty then [] else [.asValue word ""], none)
  let r := match suggested.bind fun s => lv.options.find? (·.long == s) with
    | some o => lv.use r (.option o)
    | none => r
  refuse (.unexpectedArgument word) tips (some (lv.usageGiven r.args))

/-- A word `--name` or `--name=value`. -/
def long (lv : Level) (body : String) (rest : List String) (r : Reading) :
    Except Outcome Reading :=
  let parts := body.toList.splitOn '='
  let name := String.ofList (parts.headD [])
  let attached := if parts.length ≤ 1 then none else some (String.ofList ("=".toList.intercalate parts.tail))
  match lv.options.find? (·.long == name) with
  | some o =>
    if o.takesValue then lv.withValue o attached r
    else match attached with
      | some v => .error (lv.valueForFlag o v r)
      | none => do
        let r ← lv.settle r
        lv.flag o r
  | none => .error (lv.unknownLong name rest r)

/-- A cluster of one-letter flags; an option that takes a value takes the rest of the cluster,
after an optional `=`, or else the next word. -/
def short (lv : Level) : List Char → Reading → Except Outcome Reading
  | [], r => .ok r
  | c :: cs, r =>
    match lv.options.find? (·.short == some c) with
    | some o =>
      if o.takesValue then
        let v := match cs with
          | '=' :: vs => some (String.ofList vs)
          | [] => none
          | vs => some (String.ofList vs)
        lv.withValue o v r
      else do
        let r ← lv.settle r
        let r ← lv.flag o r
        lv.short cs r
    | none =>
      let word := String.ofList ['-', c]
      .error (refuse (.unexpectedArgument word)
        (if lv.positionals.isEmpty then [] else [.asValue word ""]) (some lv.usage))

/-- Whether a word looks like an option: a dash and more, or two dashes and more. -/
def looksLikeOption (w : String) : Bool := w.startsWith "-" && w ≠ "-" && w ≠ "--"

/-- A word that no positional takes. Passing it after `--` is suggested when the command takes
positionals and the word looks like an option. -/
def unmatched (lv : Level) (w : String) (r : Reading) : Outcome :=
  let names := lv.commands.map (·.name)
  let asValue := !r.escaped && !lv.positionals.isEmpty && looksLikeOption w
  if r.escaped && names.contains w then
    refuse (.unexpectedArgument w) [.needlessEscape w] (some lv.usage)
  else if lv.commands.isEmpty then
    refuse (.unexpectedArgument w) (if asValue then [.asValue w ""] else []) (some lv.usage)
  else match similar w names with
    | [] =>
      if lv.positionals.isEmpty then refuse (.unknownCommand w) [] (some lv.usage)
      else refuse (.unexpectedArgument w) (if asValue then [.asValue w ""] else []) (some lv.usage)
    | found =>
      refuse (.unknownCommand w)
        (.similarCommands found :: if asValue then [.asValue w (lv.bin ++ " ")] else [])
        (some lv.usage)

/-- A value for the next positional. -/
def positional (lv : Level) (w : String) (r : Reading) : Except Outcome Reading :=
  match lv.positionals[r.started]? with
  | some p => do
    let same := match r.pending with
      | some ⟨.positional i, _⟩ => i == r.started && p.many
      | _ => false
    let r ← if same then pure r else lv.settle r
    let gathered := match r.pending with
      | some ⟨.positional _, vs⟩ => vs
      | _ => []
    pure { r with pending := some ⟨.positional r.started, gathered ++ [w]⟩,
                  started := if p.many then r.started else r.started + 1 }
  | none => .error (lv.unmatched w r)

/-- Reads one word that is not a command name; `rest` are the words after it. After `--`
every word is a positional; the values pending then wait for the next check. -/
def step (lv : Level) (w : String) (rest : List String) (r : Reading) :
    Except Outcome Reading :=
  if r.escaped then lv.positional w r
  else if w = "--" then .ok { r with escaped := true }
  else if w.startsWith "--" then lv.long (String.ofList (w.toList.drop 2)) rest r
  else if w.startsWith "-" && w ≠ "-" then lv.short (w.toList.drop 1) r
  else match r.waiting with
    | some o => .ok { r with pending := some ⟨.option o, [w]⟩ }
    | none => lv.positional w r

end Level

namespace Tool

/-- The reader's view of the words before a command. -/
def topLevel (t : Tool) : Level :=
  ⟨t.name, t.topOptions, [], t.groups, t.allCommands,
    t.allCommands.map (fun c => (c.name, (t.optionsOf c).map (·.long))),
    t.help, t.usage, t.usageGiven⟩

/-- The reader's view of a command's words. -/
def levelOf (t : Tool) (c : Command) : Level :=
  ⟨t.binOf c, t.optionsOf c, c.positionals, c.groups, [], [], t.helpOf c, t.usageOf c,
    t.usageGivenOf c⟩

/-- The help named by the words after `help`, each naming a command of the one before: the
tool's help, or a command's. -/
def helpNamed (t : Tool) : List String → Outcome
  | [] => .help t.help
  | n :: rest =>
    match t.command? n with
    | none => refuse (.unknownCommand n) [] (some t.usage)
    | some c =>
      match rest with
      | [] => .help (t.helpOf c)
      | m :: _ =>
        .refused (Complaint.mk (.unknownCommand m) [] (some (t.usageOf c)) (t.hasHelpFlag c)).render

/-- The end of a command's words: the pending values are checked and every required
positional must have been given. -/
def finishCommand (t : Tool) (c : Command) (r : Reading) : Except Outcome Invocation := do
  let lv := t.levelOf c
  let r ← lv.settle r
  let missing := (c.positionals.zipIdx.filter fun (p, i) =>
    p.required && !r.used.contains (.arg (.positional i))).map (·.2)
  if missing.isEmpty then pure ⟨c.name, r.options, r.values⟩
  else .error (refuse (.missingArguments (missing.filterMap fun i => (c.positionals[i]?).map (·.spec)))
    [] (some (narrowUsage lv.bin c.positionals (r.args ++ missing.map (.arg ∘ .positional)) false)))

/-- Reads a command's words. -/
def readCommand (t : Tool) (c : Command) : List String → Reading → Except Outcome Invocation
  | [], r => t.finishCommand c r
  | w :: ws, r =>
    match (t.levelOf c).step w ws r with
    | .ok r => t.readCommand c ws r
    | .error o => .error o

/-- The end of the words with no command: help when nothing was given, else a refusal. -/
def finishTop (t : Tool) (r : Reading) : Outcome :=
  match t.topLevel.settle r with
  | .error o => o
  | .ok r =>
    if r.used.isEmpty then .refused t.help
    else refuse (.missingCommand t.name (t.allCommands.map (·.name))) [] (some t.usage)

/-- Reads the words before a command, then the command's. A command name is a value when an
option waits for one, and a positional after `--`. -/
def readTop (t : Tool) : List String → Reading → Outcome
  | [], r => t.finishTop r
  | w :: ws, r =>
    match (if r.escaped || r.waiting.isSome then none else t.command? w) with
    | some c =>
      if c.name = helpCommand.name then t.helpNamed ws
      else match t.readCommand c ws Reading.empty with
        | .error o => o
        | .ok inv =>
          match t.topLevel.settle r with
          | .error o => o
          | .ok r => .run { inv with options := inv.options ++ r.options }
    | none =>
      match t.topLevel.step w ws r with
      | .ok r => t.readTop ws r
      | .error o => o

/-- What the words of a command line ask for. -/
def read (t : Tool) (args : List String) : Outcome := t.readTop args Reading.empty

end Tool

/-- The value of an option of an accepted command line, if given. -/
def Invocation.value? (inv : Invocation) (long : String) : Option String :=
  (inv.options.find? (·.1 == long)).bind (·.2)

/-- Whether a flag of an accepted command line was given. -/
def Invocation.flag (inv : Invocation) (long : String) : Bool :=
  inv.options.any (·.1 == long)

end DocStore.Cli
