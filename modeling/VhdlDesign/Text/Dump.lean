/-! Dumps: labelled trees and their indented text. -/
namespace VhdlDesign

/-- A value on one line, or a block of labelled items between two brackets. -/
inductive Dump
  | atom (text : String)
  | block (opening closing : String) (items : List (String × Dump))

namespace Dump

def record (name : String) (members : List (String × Dump)) : Dump :=
  .block (name ++ " \x7b") "\x7d" (members.map fun (label, d) => (label ++ ": ", d))

def tagged (name : String) (d : Dump) : Dump := .block (name ++ "(") ")" [("", d)]

def list : List Dump → Dump
  | [] => .atom "[]"
  | ds => .block "[" "]" (ds.map fun d => ("", d))

def option : Option Dump → Dump
  | none => .atom "None"
  | some d => tagged "Some" d

def bool (b : Bool) : Dump := .atom (if b then "true" else "false")

/-- The lines of one item of a block: the label before the first line, a comma after the last, all
indented by four spaces. -/
def itemLines (label : String) : List String → List String
  | [] => []
  | [line] => ["    " ++ label ++ line ++ ","]
  | line :: rest => ("    " ++ label ++ line) :: itemLines "" rest

mutual
def lines : Dump → List String
  | .atom text => [text]
  | .block opening closing items => opening :: blockLines items ++ [closing]

def blockLines : List (String × Dump) → List String
  | [] => []
  | (label, d) :: rest => itemLines label d.lines ++ blockLines rest
end

def text (d : Dump) : String := "\n".intercalate d.lines

end Dump

end VhdlDesign
