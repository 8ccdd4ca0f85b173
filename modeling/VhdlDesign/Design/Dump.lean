import VhdlDesign.Design.File
import VhdlDesign.Text.Dump
import VhdlDesign.Text.Quoted

/-! Dumps of designs, which show every member of every value. -/
namespace VhdlDesign

open Dump

def nameDump (s : String) : Dump := .atom (quoteString s)

def Symbol.dump (s : Symbol) : Dump := record "Symbol" [("name", nameDump s.name)]

mutual
def Expression.dump : Expression → Dump
  | .integer value => tagged "Integer" (.atom (toString value))
  | .real value => tagged "Float" (tagged "FloatBits" (.atom value.text))
  | .character value => tagged "Character" (.atom (quoteChar value))
  | .string value => tagged "String" (nameDump value)
  | .name symbol => tagged "Name" symbol.dump
  | .unary op operand => record "Unary" [("op", .atom op.label), ("operand", operand.dump)]
  | .binary op left right =>
    record "Binary" [("op", .atom op.label), ("left", left.dump), ("right", right.dump)]
  | .parenthesis inner => tagged "Parenthesis" inner.dump
  | .aggregate elements => tagged "Aggregate" (list (elementDumps elements))
  | .call name arguments =>
    record "Call" [("name", name.dump), ("arguments", list (argumentDumps arguments))]

def AggregateElement.dump : AggregateElement → Dump
  | .positional value =>
    record "AggregateElement" [("choice", .atom "Positional"), ("value", value.dump)]
  | .chosen choice value =>
    record "AggregateElement" [("choice", tagged "Expression" choice.dump), ("value", value.dump)]
  | .others value => record "AggregateElement" [("choice", .atom "Others"), ("value", value.dump)]

def Argument.dump : Argument → Dump
  | .positional actual => record "Argument" [("formal", option none), ("actual", actual.dump)]
  | .named formal actual =>
    record "Argument" [("formal", option (some formal.dump)), ("actual", actual.dump)]

def elementDumps : List AggregateElement → List Dump
  | [] => []
  | e :: rest => e.dump :: elementDumps rest

def argumentDumps : List Argument → List Dump
  | [] => []
  | a :: rest => a.dump :: argumentDumps rest
end

def defaultDump (e : Option Expression) : Dump := option (e.map Expression.dump)

def Range.dump (r : Range) : Dump :=
  record "Range" [("left", r.left.dump), ("direction", .atom r.direction.label),
    ("right", r.right.dump)]

def GenericItem.dump (i : GenericItem) : Dump :=
  record "GenericInterfaceItem" [("name", nameDump i.name), ("subtype", i.subtype.dump),
    ("default_value", defaultDump i.defaultValue)]

def ParameterItem.dump (i : ParameterItem) : Dump :=
  record "ParameterInterfaceItem" [("class", .atom i.objectClass.label),
    ("name", nameDump i.name), ("mode", .atom i.mode.label), ("subtype", i.subtype.dump),
    ("default_value", defaultDump i.defaultValue)]

def PortItem.dump (i : PortItem) : Dump :=
  record "PortInterfaceItem" [("name", nameDump i.name), ("mode", .atom i.mode.label),
    ("subtype", i.subtype.dump), ("default_value", defaultDump i.defaultValue)]

def RecordElement.dump (e : RecordElement) : Dump :=
  record "RecordElement" [("name", nameDump e.name), ("subtype", e.subtype.dump)]

def TypeDefinition.dump : TypeDefinition → Dump
  | .enumeration literals => tagged "Enumeration" (list (literals.map nameDump))
  | .integer range => tagged "Integer" range.dump
  | .floating range => tagged "Floating" range.dump
  | .array indices element =>
    Dump.record "Array" [("indices", list (indices.map Symbol.dump)), ("element", element.dump)]
  | .record elements => tagged "Record" (list (elements.map RecordElement.dump))
  | .access designated => tagged "Access" designated.dump

def genericsDump (items : List GenericItem) : Dump := list (items.map GenericItem.dump)

def parametersDump (items : List ParameterItem) : Dump := list (items.map ParameterItem.dump)

def portsDump (items : List PortItem) : Dump := list (items.map PortItem.dump)

def symbolsDump (names : List Symbol) : Dump := list (names.map Symbol.dump)

def Function.dump (f : Function) : Dump :=
  record "Function" [("name", nameDump f.name), ("is_pure", bool f.isPure),
    ("generics", genericsDump f.generics), ("parameters", parametersDump f.parameters),
    ("return_type", f.returnType.dump)]

def Procedure.dump (p : Procedure) : Dump :=
  record "Procedure" [("name", nameDump p.name), ("generics", genericsDump p.generics),
    ("parameters", parametersDump p.parameters)]

def ObjectDeclaration.members (d : ObjectDeclaration) : List (String × Dump) :=
  [("name", nameDump d.name), ("subtype", d.subtype.dump),
    ("default_value", defaultDump d.defaultValue)]

def ObjectDeclaration.constantDump (d : ObjectDeclaration) : Dump :=
  record "ConstantDeclaration" d.members

def ObjectDeclaration.signalDump (d : ObjectDeclaration) : Dump :=
  record "SignalDeclaration" d.members

def VariableDeclaration.dump (d : VariableDeclaration) : Dump :=
  record "VariableDeclaration" (d.members ++ [("shared", bool d.shared)])

def TypeDeclaration.dump (d : TypeDeclaration) : Dump :=
  record "TypeDeclaration" [("name", nameDump d.name), ("definition", d.definition.dump)]

def SubtypeDeclaration.dump (d : SubtypeDeclaration) : Dump :=
  record "SubtypeDeclaration" [("name", nameDump d.name), ("subtype", d.subtype.dump)]

def AliasDeclaration.dump (d : AliasDeclaration) : Dump :=
  record "AliasDeclaration" [("name", nameDump d.name),
    ("subtype", option (d.subtype.map Symbol.dump)), ("target", d.target.dump)]

def ComponentDeclaration.dump (d : ComponentDeclaration) : Dump :=
  record "ComponentDeclaration" [("name", nameDump d.name), ("generics", genericsDump d.generics),
    ("ports", portsDump d.ports)]

def AttributeDeclaration.dump (d : AttributeDeclaration) : Dump :=
  record "AttributeDeclaration" [("name", nameDump d.name), ("type_mark", d.typeMark.dump)]

def UseClause.dump (c : UseClause) : Dump := record "UseClause" [("names", symbolsDump c.names)]

def bodyDump (kind : SubprogramKind) (name : String) (declarations : Dump) : Dump :=
  record "SubprogramBody" [("kind", .atom kind.label), ("name", nameDump name),
    ("declarations", declarations)]

mutual
def Declaration.dump : Declaration → Dump
  | .function f => tagged "Function" f.dump
  | .procedure p => tagged "Procedure" p.dump
  | .subprogramBody kind name declarations =>
    tagged "SubprogramBody" (bodyDump kind name (list (declarationDumps declarations)))
  | .constantDecl d => tagged "Constant" d.constantDump
  | .signalDecl d => tagged "Signal" d.signalDump
  | .variableDecl d => tagged "Variable" d.dump
  | .typeDecl d => tagged "Type" d.dump
  | .subtypeDecl d => tagged "Subtype" d.dump
  | .aliasDecl d => tagged "Alias" d.dump
  | .componentDecl d => tagged "Component" d.dump
  | .attributeDecl d => tagged "Attribute" d.dump
  | .useClause c => tagged "Use" c.dump

def declarationDumps : List Declaration → List Dump
  | [] => []
  | d :: rest => d.dump :: declarationDumps rest
end

def declarationsDump (ds : List Declaration) : Dump := list (declarationDumps ds)

def SubprogramBody.dump (b : SubprogramBody) : Dump :=
  bodyDump b.kind b.name (declarationsDump b.declarations)

def LibraryClause.dump (c : LibraryClause) : Dump :=
  record "LibraryClause" [("name", nameDump c.name)]

def ContextReference.dump (c : ContextReference) : Dump :=
  record "ContextReference" [("names", symbolsDump c.names)]

def ContextItem.dump : ContextItem → Dump
  | .library c => tagged "Library" c.dump
  | .useClause c => tagged "Use" c.dump
  | .reference c => tagged "ContextReference" c.dump

def contextDump (items : List ContextItem) : Dump := list (items.map ContextItem.dump)

def Entity.dump (u : Entity) : Dump :=
  record "Entity" [("name", nameDump u.name), ("generics", genericsDump u.generics),
    ("ports", portsDump u.ports), ("declarations", declarationsDump u.declarations)]

def Architecture.dump (u : Architecture) : Dump :=
  record "Architecture" [("name", nameDump u.name), ("entity", u.entity.dump),
    ("declarations", declarationsDump u.declarations)]

def Package.dump (u : Package) : Dump :=
  record "Package" [("name", nameDump u.name), ("generics", genericsDump u.generics),
    ("declarations", declarationsDump u.declarations)]

def PackageBody.dump (u : PackageBody) : Dump :=
  record "PackageBody" [("name", nameDump u.name),
    ("declarations", declarationsDump u.declarations)]

def ContextDeclaration.dump (u : ContextDeclaration) : Dump :=
  record "ContextDeclaration" [("name", nameDump u.name), ("items", contextDump u.items)]

def Configuration.dump (u : Configuration) : Dump :=
  record "Configuration" [("name", nameDump u.name), ("entity", u.entity.dump)]

def LibraryUnit.dump : LibraryUnit → Dump
  | .entity u => tagged "Entity" u.dump
  | .architecture u => tagged "Architecture" u.dump
  | .package u => tagged "Package" u.dump
  | .packageBody u => tagged "PackageBody" u.dump
  | .context u => tagged "Context" u.dump
  | .configuration u => tagged "Configuration" u.dump

def DesignUnit.dump (u : DesignUnit) : Dump :=
  record "DesignUnit" [("context", contextDump u.context), ("unit", u.unit.dump)]

def DesignFile.dump (f : DesignFile) : Dump :=
  record "DesignFile" [("units", list (f.units.map DesignUnit.dump))]

def DesignNode.dump : DesignNode → Dump
  | .designFile f => tagged "DesignFile" f.dump
  | .designUnit u => tagged "DesignUnit" u.dump
  | .libraryUnit u => tagged "LibraryUnit" u.dump
  | .contextItem i => tagged "ContextItem" i.dump
  | .declaration d => tagged "Declaration" d.dump
  | .expression e => tagged "Expression" e.dump

end VhdlDesign
