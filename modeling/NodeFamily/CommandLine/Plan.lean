import NodeFamily.CommandLine.Command
import NodeFamily.Difference.Report
import NodeFamily.FileTree
import NodeFamily.SchemaFile.Content

/-!
# Plans

What a command does is a `Plan`: it ends with an outcome, or it asks for an operation on files and
goes on with the answer. A plan can be carried out on a `FileTree` (`Plan.run`) as well as on the
files of a machine, and it does the same on both.
-/

namespace NodeFamily.CommandLine

/-- How important a log line is. -/
inductive LogLevel
  | info
  /-- Shown only on demand. -/
  | verbose
deriving DecidableEq, Repr

/-- The name of a level. -/
def LogLevel.name : LogLevel → String
  | .info => "info"
  | .verbose => "verbose"

/-- A log line. -/
structure LogLine where
  /-- How important it is. -/
  level : LogLevel
  /-- What it says, in parts. -/
  parts : List String
deriving DecidableEq, Repr

/-- The text of a log line: the parts with a space before each. -/
def LogLine.text (l : LogLine) : String :=
  l.level.name ++ ":" ++ String.join (l.parts.map (" " ++ ·))

/-- A fault of a schema with the file and the line of its declaration, where they are known. -/
structure Diagnosis where
  /-- The file and the line. -/
  origin? : Option (String × Nat)
  /-- The fault. -/
  fault : Fault
deriving DecidableEq, Repr

/-- A diagnosis in words. -/
def Diagnosis.message (w : Wording) (d : Diagnosis) : String :=
  match d.origin? with
  | some (file, line) => file ++ ":" ++ toString line ++ ": " ++ d.fault.message w
  | none => d.fault.message w

/-- Why a command fails. -/
inductive Complaint
  /-- The arguments are wrong. -/
  | arguments (e : FlagError)
  /-- There is no such command. -/
  | unknownCommand (name : String)
  /-- A command takes no operands. -/
  | operand (value : String) (command : Command)
  /-- The schema file cannot be opened. -/
  | schemaFile (path : String) (e : FileError)
  /-- The content of the schema file cannot be read. -/
  | schemaContent (path : String) (e : Unreadable)
  /-- The schema breaks rules. -/
  | faulty (diagnoses : List Diagnosis)
  /-- No file is generated for another reason. -/
  | failure (f : Failure)
  /-- There is no file to check. -/
  | noOutput
  /-- The file to check cannot be read. -/
  | unreadableOutput (path : String) (e : FileError)
  /-- The directory of the file cannot be made. -/
  | directory (e : FileError)
  /-- The file cannot be written. -/
  | unwritableOutput (e : FileError)
  /-- The file to check is missing. -/
  | missingOutput (path : String)
  /-- The file to check differs from what is generated. -/
  | staleOutput (path : String)
  /-- The file to check differs from what is generated, and comparing the two broke off. -/
  | brokenOff (e : Difference.OutOfRange)
deriving DecidableEq, Repr

namespace Complaint

/-- The proposals after the name of a command that does not exist. -/
def proposalText (name : String) : String :=
  match Command.proposals name with
  | [] => ""
  | names => "\n\nDid you mean this?\n" ++ String.join (names.map fun n => "\t" ++ n ++ "\n")

/-- What is said of a file that is not what it should be. -/
def outOfDate : String := "generated file is out of date"

/-- A complaint in words. -/
def message (w : Wording) : Complaint → String
  | .arguments e => e.message
  | .unknownCommand n =>
    "unknown command " ++ Text.quote n ++ " for " ++ Text.quote Command.root.path ++ proposalText n
  | .operand v c => "unknown command " ++ Text.quote v ++ " for " ++ Text.quote c.path
  | .schemaFile p e => "config: read " ++ p ++ ": " ++ e.message
  | .schemaContent p e => "config: " ++ p ++ ": " ++ e.message
  | .faulty ds => "\n".intercalate (ds.map (·.message w))
  | .failure f => f.message w
  | .noOutput => "check needs an output file (-o or schema output)"
  | .unreadableOutput p e => "reading " ++ p ++ ": " ++ e.message
  | .directory e => "creating output dir: " ++ e.message
  | .unwritableOutput e => "writing output: " ++ e.message
  | .missingOutput p => p ++ " does not exist: " ++ outOfDate
  | .staleOutput p => p ++ ": " ++ outOfDate
  | .brokenOff e => e.message

/-- Whether a complaint says that the file is not what it should be. -/
def isStale : Complaint → Bool
  | .missingOutput _ | .staleOutput _ => true
  | _ => false

/-- The operation on files that failed, if one did. -/
def fileError? : Complaint → Option FileError
  | .schemaFile _ e | .unreadableOutput _ e | .directory e | .unwritableOutput e => some e
  | _ => none

/-- Whether a complaint says that some file is not there. -/
def isNotFound (c : Complaint) : Bool := c.fileError?.any (·.cause = .notFound)

end Complaint

/-- What a command comes to. -/
structure Outcome where
  /-- What it prints. -/
  output : String := ""
  /-- The log lines that it shows. -/
  log : List LogLine := []
  /-- Why it fails, if it does. -/
  complaint? : Option Complaint := none
deriving DecidableEq, Repr

/-- What a command does. -/
inductive Plan
  /-- It ends. -/
  | finish (outcome : Outcome)
  /-- It asks for the content of a file. -/
  | read (path : String) (next : Except FileError String → Plan)
  /-- It asks for a directory to be there, given by its names. -/
  | makeDirectories (names : List String) (next : Except FileError Unit → Plan)
  /-- It asks for a file to be written. -/
  | write (path content : String) (next : Except FileError Unit → Plan)

namespace Plan

/-- Changes a tree if that succeeds, and says whether it did. -/
def change (t : FileTree) : Except FileError FileTree → Except FileError Unit × FileTree
  | .ok t' => (.ok (), t')
  | .error e => (.error e, t)

/-- Carries a plan out on a tree of files. The answer has the tree after it. -/
def run (t : FileTree) : Plan → Outcome × FileTree
  | .finish o => (o, t)
  | .read path next => run t (next (t.read path))
  | .makeDirectories names next =>
    let (answer, t) := t.makeDirectories names
    run t (next answer)
  | .write path content next =>
    let (answer, t) := change t (t.write path content)
    run t (next answer)

/-- The plan of a command that only prints. -/
def print (s : String) : Plan := .finish { output := s }

/-- The plan of a command that fails after some log lines. -/
def fail (log : List LogLine) (c : Complaint) : Plan := .finish { log := log, complaint? := some c }

end Plan

end NodeFamily.CommandLine
