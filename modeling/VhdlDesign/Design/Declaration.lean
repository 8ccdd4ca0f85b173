import VhdlDesign.Design.Expression

/-! Interface items, type definitions, subprograms and declarations. -/
namespace VhdlDesign

structure GenericItem where
  name : String
  subtype : Symbol
  defaultValue : Option Expression

inductive ParameterClass
  | const | var | signal | file
  deriving DecidableEq

def ParameterClass.label : ParameterClass → String
  | .const => "Constant"
  | .var => "Variable"
  | .signal => "Signal"
  | .file => "File"

def ParameterClass.text : ParameterClass → String
  | .const => "constant"
  | .var => "variable"
  | .signal => "signal"
  | .file => "file"

structure ParameterItem where
  objectClass : ParameterClass
  name : String
  mode : Mode
  subtype : Symbol
  defaultValue : Option Expression

structure PortItem where
  name : String
  mode : Mode
  subtype : Symbol
  defaultValue : Option Expression

structure RecordElement where
  name : String
  subtype : Symbol

inductive TypeDefinition
  | enumeration (literals : List String)
  | integer (range : Range)
  | floating (range : Range)
  | array (indices : List Symbol) (element : Symbol)
  | record (elements : List RecordElement)
  | access (designated : Symbol)

namespace TypeDefinition

def kindName : TypeDefinition → String
  | .enumeration _ => "enumeration"
  | .integer _ => "integer"
  | .floating _ => "floating"
  | .array _ _ => "array"
  | .record _ => "record"
  | .access _ => "access"

def text : TypeDefinition → String
  | .enumeration literals => "(" ++ commaSeparated literals ++ ")"
  | .integer range => "range " ++ range.text
  | .floating range => "range " ++ range.text
  | .array indices element =>
    "array (" ++ commaSeparated (indices.map Symbol.name) ++ ") of " ++ element.name
  | .record elements =>
    let parts := elements.map fun e => " " ++ e.name ++ " : " ++ e.subtype.name ++ ";"
    "record" ++ String.join parts ++ " end record"
  | .access designated => "access " ++ designated.name

end TypeDefinition

structure Function where
  name : String
  isPure : Bool
  generics : List GenericItem
  parameters : List ParameterItem
  returnType : Symbol

structure Procedure where
  name : String
  generics : List GenericItem
  parameters : List ParameterItem

inductive SubprogramKind
  | function | procedure
  deriving DecidableEq

def SubprogramKind.label : SubprogramKind → String
  | .function => "Function"
  | .procedure => "Procedure"

def SubprogramKind.text : SubprogramKind → String
  | .function => "function"
  | .procedure => "procedure"

/-- A constant, a signal or the common part of a variable. A constant without a value is a deferred
one. -/
structure ObjectDeclaration where
  name : String
  subtype : Symbol
  defaultValue : Option Expression

structure VariableDeclaration extends ObjectDeclaration where
  shared : Bool

structure TypeDeclaration where
  name : String
  definition : TypeDefinition

structure SubtypeDeclaration where
  name : String
  subtype : Symbol

structure AliasDeclaration where
  name : String
  subtype : Option Symbol
  target : Symbol

structure ComponentDeclaration where
  name : String
  generics : List GenericItem
  ports : List PortItem

structure AttributeDeclaration where
  name : String
  typeMark : Symbol

structure UseClause where
  names : List Symbol

inductive Declaration
  | function (f : Function)
  | procedure (p : Procedure)
  | subprogramBody (kind : SubprogramKind) (name : String) (declarations : List Declaration)
  | constantDecl (d : ObjectDeclaration)
  | signalDecl (d : ObjectDeclaration)
  | variableDecl (d : VariableDeclaration)
  | typeDecl (d : TypeDeclaration)
  | subtypeDecl (d : SubtypeDeclaration)
  | aliasDecl (d : AliasDeclaration)
  | componentDecl (d : ComponentDeclaration)
  | attributeDecl (d : AttributeDeclaration)
  | useClause (c : UseClause)

structure SubprogramBody where
  kind : SubprogramKind
  name : String
  declarations : List Declaration

namespace Declaration

def name? : Declaration → Option String
  | .function f => some f.name
  | .procedure p => some p.name
  | .subprogramBody _ name _ => some name
  | .constantDecl d => some d.name
  | .signalDecl d => some d.name
  | .variableDecl d => some d.name
  | .typeDecl d => some d.name
  | .subtypeDecl d => some d.name
  | .aliasDecl d => some d.name
  | .componentDecl d => some d.name
  | .attributeDecl d => some d.name
  | .useClause _ => none

def kindName : Declaration → String
  | .function _ => "function"
  | .procedure _ => "procedure"
  | .subprogramBody .. => "subprogram body"
  | .constantDecl _ => "constant"
  | .signalDecl _ => "signal"
  | .variableDecl d => if d.shared then "shared variable" else "variable"
  | .typeDecl _ => "type"
  | .subtypeDecl _ => "subtype"
  | .aliasDecl _ => "alias"
  | .componentDecl _ => "component"
  | .attributeDecl _ => "attribute"
  | .useClause _ => "use"

end Declaration

end VhdlDesign
