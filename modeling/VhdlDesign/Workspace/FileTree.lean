/-! A tree of files, directories and symbolic links, and how paths lead through it. -/
namespace VhdlDesign

inductive FileError
  | notFound
  | notDirectory
  | isDirectory
  | nameTooLong
  | tooManyLinks
  | invalidName
  | invalidText
  deriving DecidableEq

def FileError.text : FileError → String
  | .notFound => "No such file or directory (os error 2)"
  | .notDirectory => "Not a directory (os error 20)"
  | .isDirectory => "Is a directory (os error 21)"
  | .nameTooLong => "File name too long (os error 36)"
  | .tooManyLinks => "Too many levels of symbolic links (os error 40)"
  | .invalidName => "file name contained an unexpected NUL byte"
  | .invalidText => "stream did not contain valid UTF-8"

/-- The names from the top of the tree down to a place, the innermost first. -/
abbrev Location := List String

def absolutePath (place : Location) : String := "/" ++ "/".intercalate place.reverse

inductive Entry
  | file (content : ByteArray)
  | directory
  | link (target : String)

/-- What stands at each place, and the directory from which relative paths lead. The top is a
directory. -/
structure FileTree where
  home : Location := []
  entries : List (Location × Entry) := []

def pathSteps (path : String) : List String := (path.split (· == '/')).toStringList

namespace FileTree

def directories : Location → List (Location × Entry)
  | [] => []
  | step :: place => (step :: place, .directory) :: directories place

def empty (home : Location) : FileTree := { home, entries := directories home }

def entry? (t : FileTree) : Location → Option Entry
  | [] => some .directory
  | place => t.entries.lookup place

def linkLimit : Nat := 40

def stepLimit : Nat := 255

def pathLimit : Nat := 4095

/-- The place from which a path leads: an absolute one starts at the top, another one where it is
asked for. -/
def origin (place : Location) (path : String) : Location :=
  if path.startsWith "/" then [] else place

def isName (step : String) : Bool := step != "" && step != "." && step != ".."

inductive Purpose
  /-- Spelling out the path. Each place is looked up by its absolute path. -/
  | spell
  | reach
  /-- Making something at the end, where nothing needs to stand yet. -/
  | make
  deriving DecidableEq

def tooLong (purpose : Purpose) (place : Location) : Bool :=
  purpose == .spell && (absolutePath place).utf8ByteSize > pathLimit

/-- Follows the steps of a path from a place. The target of a link leads on from the directory of
the link. -/
def follow (t : FileTree) (purpose : Purpose) (links : Nat) (place : Location)
    (steps : List String) : Except FileError Location :=
  match steps with
  | [] => .ok place
  | step :: rest =>
    if isName step && tooLong purpose (step :: place) then .error .nameTooLong
    else
      match t.entry? place with
      | none => .error .notFound
      | some .directory =>
        if step = ".." then t.follow purpose links place.tail rest
        else if !isName step then t.follow purpose links place rest
        else if step.utf8ByteSize > stepLimit then .error .nameTooLong
        else
          match t.entry? (step :: place) with
          | none =>
            if purpose = .make ∧ rest = [] then .ok (step :: place) else .error .notFound
          | some (.link target) =>
            match links with
            | 0 => .error .tooManyLinks
            | links + 1 => t.follow purpose links (origin place target) (pathSteps target ++ rest)
          | some _ => t.follow purpose links (step :: place) rest
      | some _ => .error .notDirectory
termination_by (links, steps.length)

def canonical (t : FileTree) (path : String) : Except FileError Location :=
  if path.contains '\x00' then .error .invalidName
  else t.follow .spell linkLimit (origin t.home path) (pathSteps path)

def read (t : FileTree) (place : Location) : Except FileError String :=
  match t.entry? place with
  | none => .error .notFound
  | some .directory => .error .isDirectory
  | some (.link _) => .error .notFound
  | some (.file content) =>
    match String.fromUTF8? content with
    | some text => .ok text
    | none => .error .invalidText

/-! ### Changes

A change that cannot be made leaves the tree as it is. -/

def put (t : FileTree) (place : Location) (e : Entry) : FileTree :=
  { t with entries := (place, e) :: t.entries.filter fun p => p.1 ≠ place }

def makeDirectories (t : FileTree) (place : Location) : List String → Except FileError FileTree
  | [] => .ok t
  | step :: rest =>
    if step = ".." then t.makeDirectories place.tail rest
    else if !isName step then t.makeDirectories place rest
    else
      match t.entry? (step :: place) with
      | none => (t.put (step :: place) .directory).makeDirectories (step :: place) rest
      | some _ => do
        let inner ← t.follow .reach linkLimit place [step]
        match t.entry? inner with
        | some .directory => t.makeDirectories inner rest
        | _ => .error .notDirectory

def properSteps (path : String) : List String :=
  ((pathSteps path).reverse.dropWhile fun s => s = "" ∨ s = ".").reverse

def prepare (t : FileTree) (path : String) : Except FileError FileTree :=
  t.makeDirectories (origin t.home path) (properSteps path).dropLast

/-- The place that a path names for an entry of its own: links on the way are followed, one at the
last step is not. -/
def target (t : FileTree) (path : String) : Except FileError Location := do
  let steps := properSteps path
  let place ← t.follow .reach linkLimit (origin t.home path) steps.dropLast
  match steps.getLast? with
  | none => .ok place
  | some ".." => .ok place.tail
  | some step => .ok (step :: place)

/-- Writes a file, also through a link at whose end nothing stands yet. -/
def write (t : FileTree) (path : String) (content : ByteArray) : FileTree :=
  let written : Except FileError FileTree := do
    let t ← t.prepare path
    let place ← t.follow .make linkLimit (origin t.home path) (pathSteps path)
    match t.entry? place with
    | some .directory => .error .isDirectory
    | _ => .ok (t.put place (.file content))
  written.toOption.getD t

def makeDirectory (t : FileTree) (path : String) : FileTree :=
  (t.makeDirectories (origin t.home path) (pathSteps path)).toOption.getD t

def makeLink (t : FileTree) (path target : String) : FileTree :=
  let linked : Except FileError FileTree := do
    let t ← t.prepare path
    let place ← t.target path
    .ok (t.put place (.link target))
  linked.toOption.getD t

def remove (t : FileTree) (path : String) : FileTree :=
  match t.target path with
  | .ok place => { t with entries := t.entries.filter fun p => !place.isSuffixOf p.1 }
  | .error _ => t

end FileTree

def fileName (path : String) : Option String :=
  match ((pathSteps path).filter fun s => s ≠ "" ∧ s ≠ ".").getLast? with
  | some ".." => none
  | last => last

end VhdlDesign
