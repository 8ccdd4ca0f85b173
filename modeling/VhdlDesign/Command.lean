import VhdlDesign.Design.Dump
import VhdlDesign.Design.Outline
import VhdlDesign.Report.Report
import VhdlDesign.Workspace.FileTree

/-!
The command line: its arguments, and what a command prints. The log, which goes to the same stream
as the diagnostics, and the texts of usage and help are no part of it.
-/
namespace VhdlDesign

inductive Task
  | outline | dump | check
  deriving DecidableEq

def Task.ofName? (s : String) : Option Task :=
  if s = "outline" then some .outline
  else if s = "dump" then some .dump
  else if s = "check" then some .check
  else none

structure Command where
  task : Task
  file : String
  limits : Limits
  deriving DecidableEq

namespace Command

def isVerbosity (s : String) : Bool :=
  s == "--verbose" ||
    match s.toList with
    | '-' :: 'v' :: rest => rest.all (· == 'v')
    | _ => false

/-- A number of 64 bits in decimal digits, with or without a plus sign. -/
def count? (s : String) : Option Nat :=
  let digits := match s.toList with
    | '+' :: rest => rest
    | cs => cs
  if digits.isEmpty || !digits.all Char.isDigit then none
  else
    let n := digits.foldl (fun n c => n * 10 + (c.toNat - '0'.toNat)) 0
    if n < 18446744073709551616 then some n else none

structure Given where
  file : Option String := none
  chainLength : Option Nat := none
  depth : Option Nat := none

namespace Given

def setFile (g : Given) (s : String) : Option Given :=
  if s.isEmpty ∨ g.file.isSome then none else some { g with file := some s }

/-- Sets the limit that an option names. Each may be given once. -/
def setLimit (g : Given) (option value : String) : Option Given := do
  let n ← count? value
  if option = "--max-depth" ∧ g.depth.isNone then some { g with depth := some n }
  else if option = "--max-chain-length" ∧ g.chainLength.isNone then
    some { g with chainLength := some n }
  else none

end Given

def splitOption (s : String) : Option (String × String) :=
  let cs := s.toList
  if cs.contains '=' then
    some (String.ofList (cs.takeWhile (· != '=')), String.ofList ((cs.dropWhile (· != '=')).drop 1))
  else none

def isOption (s : String) : Bool := s.startsWith "-" && s != "-"

/-- Reads the arguments after the task. After `--` no argument is an option. -/
def arguments (g : Given) : List String → Option Given
  | [] => some g
  | arg :: rest =>
    if arg = "--" then rest.foldlM Given.setFile g
    else if isVerbosity arg then arguments g rest
    else if isOption arg then
      match splitOption arg, rest with
      | some (option, value), rest => (g.setLimit option value).bind fun g => arguments g rest
      | none, value :: rest =>
        if value.startsWith "-" then none
        else (g.setLimit arg value).bind fun g => arguments g rest
      | none, [] => none
    else (g.setFile arg).bind fun g => arguments g rest

/-- The command that a list of arguments asks for. Only requests for more log output may stand
before the task. They have no effect here. -/
def parse : List String → Option Command
  | [] => none
  | arg :: rest =>
    if isVerbosity arg then parse rest
    else do
      let task ← Task.ofName? arg
      let given ← arguments {} rest
      let file ← given.file
      let limits : Limits := {}
      some { task, file, limits :=
        { chainLength := given.chainLength.getD limits.chainLength
          depth := given.depth.getD limits.depth } }

structure Outcome where
  success : Bool
  output : String
  errors : String
  deriving DecidableEq

def display : Task → DesignFile → String
  | .outline, design => design.outline
  | .dump, design => design.dump.text ++ "\n"
  | .check, _ => ""

/-- Reports on the text of a file. The command succeeds if nothing in it is an error. The errors are
the lines of the diagnostics only. The log, which goes to the same stream and by default has a line
for a refused image and one for each unit that is left out, is not modelled. -/
def report (c : Command) (r : Report) : Outcome :=
  { success := !r.hasErrors
    output := (r.design.map (display c.task)).getD ""
    errors := String.join (r.diagnostics.map fun d => d.text ++ "\n") }

def unreadable (c : Command) (e : FileError) : Outcome :=
  { success := false, output := "", errors := "Error reading " ++ c.file ++ ": " ++ e.text ++ "\n" }

def run (c : Command) : Except FileError String → Outcome
  | .ok text => c.report (Report.ofText text c.limits)
  | .error e => c.unreadable e

end Command

end VhdlDesign
