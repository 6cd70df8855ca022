import NodeFamily.CommandLine.Flag
import NodeFamily.Text.EditDistance
import NodeFamily.Text.Lowercase

/-!
# Commands

The commands with their flags, and the pages of help about them. `Command.find` decides which
command a command line is for: the first argument that is no flag names it.
-/

namespace NodeFamily.CommandLine

/-- The commands. -/
inductive Command
  /-- The program itself, without a command. -/
  | root
  | generate
  | check
  | version
  | help
  | completion
deriving DecidableEq, Repr

/-- The flag that asks for more log lines, which every command has. -/
def verboseFlag : Flag := ⟨"verbose", some 'v', .switch, "enable verbose logs"⟩

/-- The flags that say what to generate, and from what. -/
def schemaFlags : List Flag := [
  ⟨"config", some 'c', .text,
    "schema file (.yaml, .json, .toml, or one declaration per line)"⟩,
  ⟨"decl", some 'd', .texts,
    "declaration \"Name : Type field, ...\" (repeatable, appended after the file's)"⟩,
  ⟨"output", some 'o', .text, "output Go file (default: schema output, or stdout)"⟩,
  ⟨"package", some 'p', .text, "package name of the generated file"⟩,
  ⟨"import", none, .texts, "import path needed by qualified leaf types (repeatable)"⟩,
  ⟨"export-fields", none, .switch, "title-case struct field names"⟩,
  ⟨"fail-fast", none, .switch, "stop at the first schema error"⟩]

/-- The flag that asks for the schema in place of the file. -/
def dumpFlag : Flag :=
  ⟨"dump-ir", none, .switch, "print the classified schema as JSON instead of Go source"⟩

namespace Command

/-- The name of the program. -/
def program : String := "astgen"

/-- The name of a command. -/
def name : Command → String
  | .root => program
  | .generate => "generate"
  | .check => "check"
  | .version => "version"
  | .help => "help"
  | .completion => "completion"

/-- The commands that can be named, in the order in which they are looked through. -/
def named : List Command := [.generate, .check, .version, .help, .completion]

/-- The names that lead to a command. -/
def path : Command → String
  | .root => program
  | c => program ++ " " ++ c.name

/-- A command in one line. -/
def summary : Command → String
  | .root => "Generates Go expression AST types and a visitor contract from a schema"
  | .generate => "Generates the expression AST file"
  | .check => "Fails when the generated file differs from what the schema produces"
  | .version => "Prints the version of " ++ program
  | .help => "Help about any command"
  | .completion => "Generate the autocompletion script for the specified shell"

/-- What a page of help begins with. -/
def description : Command → String
  | .help => "Help provides help for any command in the application.\nSimply type " ++ program ++
    " help [path to command] for full details."
  | .completion => "Generate the autocompletion script for " ++ program ++
    " for the specified shell.\nSee each sub-command's help for details on how to use the " ++
    "generated script."
  | c => c.summary

/-- The commands below a command, as a page of help lists them. -/
def listed : Command → List (String × String)
  | .root =>
    [Command.check, .completion, .generate, .help, .version].map fun c => (c.name, c.summary)
  | .completion =>
    ["bash", "fish", "powershell", "zsh"].map fun shell =>
      (shell, "Generate the autocompletion script for " ++ shell)
  | _ => []

/-- Whether a command does something itself; the others only have commands below them. -/
def isRunnable (c : Command) : Bool := c.listed.isEmpty

/-- Whether a command takes operands. -/
def takesOperands (c : Command) : Bool := c = .help

/-- The flags that only this command has, but for the one that asks for help. -/
def ownFlags : Command → List Flag
  | .generate => schemaFlags ++ [dumpFlag]
  | .check => schemaFlags
  | _ => []

/-- The flag that asks for help on a command. -/
def helpFlag (c : Command) : Flag := ⟨"help", some 'h', .switch, "help for " ++ c.name⟩

/-- All flags of a command. -/
def flags (c : Command) : List Flag := c.ownFlags ++ [verboseFlag, c.helpFlag]

/-- The name of what a flag takes. -/
def valueName : FlagKind → String
  | .text => " string"
  | .texts => " stringArray"
  | .switch => ""

/-- The forms of a flag with what it takes. -/
def flagForms (f : Flag) : String :=
  (match f.letter? with
    | some c => "  -" ++ String.singleton c ++ ", --"
    | none => "      --") ++ f.name ++ valueName f.kind

/-- A text filled up with spaces to a width. -/
def padded (width : Nat) (s : String) : String :=
  s ++ String.ofList (List.replicate (width - s.length) ' ')

/-- The lines about flags, sorted by name, with their purposes below one another. -/
def flagLines (flags : List Flag) : List String :=
  let sorted := flags.mergeSort fun a b => decide (a.name ≤ b.name)
  let width := (sorted.map fun f => (flagForms f).length).foldl max 0
  sorted.map fun f => padded (width + 3) (flagForms f) ++ f.purpose

/-- The lines under a title, after an empty line; nothing where there are none. -/
def titled (title : String) (lines : List String) : List String :=
  if lines.isEmpty then [] else "" :: title :: lines

/-- How a command is used. The flag that asks for help is shown where `withHelp` says so. -/
def usageLines (c : Command) (withHelp : Bool) : List String :=
  let helpFlags := if withHelp then [c.helpFlag] else []
  let suffix := if c = .help then " [command] [flags]" else " [flags]"
  let use := if c.isRunnable then "  " ++ c.path ++ suffix else "  " ++ c.path ++ " [command]"
  let (here, inherited) :=
    if c = .root then (verboseFlag :: helpFlags, []) else (c.ownFlags ++ helpFlags, [verboseFlag])
  ["Usage:", use] ++
    titled "Available Commands:" (c.listed.map fun (n, s) => "  " ++ padded 12 n ++ s) ++
    titled "Flags:" (flagLines here) ++
    titled "Global Flags:" (flagLines inherited) ++
    (if c.isRunnable then []
      else ["", "Use \"" ++ c.path ++ " [command] --help\" for more information about a command."])

/-- Lines as a text, each with its end. -/
def unlines (lines : List String) : String := String.join (lines.map (· ++ "\n"))

/-- How a command is used. -/
def usage (c : Command) (withHelp : Bool) : String := unlines (c.usageLines withHelp)

/-- The page of help about a command. -/
def helpPage (c : Command) : String := c.description ++ "\n\n" ++ c.usage true

/-- The names close to a name that is no command: those that differ by at most two octets, and those
that begin with it. Case does not count, and `help` is not proposed. -/
def proposals (s : String) : List String :=
  let s := Text.lower s
  ((named.filter (· ≠ .help)).map name).filter fun n =>
    Text.distance s.toUTF8.toList n.toUTF8.toList ≤ 2 || s.toList.isPrefixOf n.toList

/-- The command that a command line is for, with the arguments that are left without its name; or
the name that no command has. -/
def find (arguments : List String) : Except String (Command × List String) :=
  match (Flag.strip [verboseFlag] arguments).head? with
  | none => .ok (.root, arguments)
  | some n =>
    match named.find? (·.name = n) with
    | some c => .ok (c, Flag.without [verboseFlag] n arguments)
    | none => .error n

end Command

end NodeFamily.CommandLine
