import VhdlDesign.Design.File

/-! Outlines: one line for each part of a design, indented by its depth. -/
namespace VhdlDesign

structure OutlineItem where
  depth : Nat
  text : String
  deriving DecidableEq

def OutlineItem.line (i : OutlineItem) : String :=
  String.join (List.replicate i.depth "  ") ++ i.text ++ "\n"

def defaultText : Option Expression → String
  | some e => " := " ++ e.text
  | none => ""

def GenericItem.text (i : GenericItem) : String :=
  "generic " ++ i.name ++ " : " ++ i.subtype.name ++ defaultText i.defaultValue

def PortItem.text (i : PortItem) : String :=
  "port " ++ i.name ++ " : " ++ i.mode.text ++ " " ++ i.subtype.name
    ++ defaultText i.defaultValue

/-- The class of a parameter is shown unless it is `constant`. -/
def ParameterItem.text (i : ParameterItem) : String :=
  let objectClass := if i.objectClass = .const then "" else i.objectClass.text ++ " "
  objectClass ++ i.name ++ " : " ++ i.mode.text ++ " " ++ i.subtype.name
    ++ defaultText i.defaultValue

def parametersText : List ParameterItem → String
  | [] => ""
  | items => " (" ++ "; ".intercalate (items.map ParameterItem.text) ++ ")"

namespace Outline

def leaves (depth : Nat) (texts : List String) : List OutlineItem :=
  texts.map fun text => ⟨depth, text⟩

def interface (depth : Nat) (generics : List GenericItem) (ports : List PortItem) :
    List OutlineItem :=
  leaves depth (generics.map GenericItem.text) ++ leaves depth (ports.map PortItem.text)

def function (f : Function) : String :=
  (if f.isPure then "" else "impure ") ++ "function " ++ f.name ++ parametersText f.parameters
    ++ " return " ++ f.returnType.name

def procedure (p : Procedure) : String := "procedure " ++ p.name ++ parametersText p.parameters

def object (keyword : String) (d : ObjectDeclaration) : String :=
  keyword ++ " " ++ d.name ++ " : " ++ d.subtype.name ++ defaultText d.defaultValue

def aliased (d : AliasDeclaration) : String :=
  match d.subtype with
  | some subtype => "alias " ++ d.name ++ " : " ++ subtype.name ++ " is " ++ d.target.name
  | none => "alias " ++ d.name ++ " is " ++ d.target.name

mutual
def declaration (depth : Nat) : Declaration → List OutlineItem
  | .function f => ⟨depth, function f⟩ :: interface (depth + 1) f.generics []
  | .procedure p => ⟨depth, procedure p⟩ :: interface (depth + 1) p.generics []
  | .subprogramBody kind name ds =>
    ⟨depth, kind.text ++ " body " ++ name⟩ :: declarations (depth + 1) ds
  | .constantDecl d => [⟨depth, object "constant" d⟩]
  | .signalDecl d => [⟨depth, object "signal" d⟩]
  | .variableDecl d =>
    [⟨depth, object (if d.shared then "shared variable" else "variable") d.toObjectDeclaration⟩]
  | .typeDecl d => [⟨depth, "type " ++ d.name ++ " is " ++ d.definition.text⟩]
  | .subtypeDecl d => [⟨depth, "subtype " ++ d.name ++ " is " ++ d.subtype.name⟩]
  | .aliasDecl d => [⟨depth, aliased d⟩]
  | .componentDecl d =>
    ⟨depth, "component " ++ d.name⟩ :: interface (depth + 1) d.generics d.ports
  | .attributeDecl d => [⟨depth, "attribute " ++ d.name ++ " : " ++ d.typeMark.name⟩]
  | .useClause c => [⟨depth, "use " ++ symbolTexts c.names⟩]

def declarations (depth : Nat) : List Declaration → List OutlineItem
  | [] => []
  | d :: rest => declaration depth d ++ declarations depth rest
end

def heading : LibraryUnit → String
  | .architecture u => "architecture " ++ u.name ++ " of " ++ u.entity.name
  | .configuration u => "configuration " ++ u.name ++ " of " ++ u.entity.name
  | u => u.kindName ++ " " ++ u.name

def header (depth : Nat) : LibraryUnit → List OutlineItem
  | .entity u => interface depth u.generics u.ports
  | .package u => interface depth u.generics []
  | .context u => leaves depth (u.items.map ContextItem.text)
  | _ => []

def designUnit (u : DesignUnit) : List OutlineItem :=
  ⟨0, heading u.unit⟩ :: leaves 1 (u.context.map ContextItem.text) ++ header 1 u.unit
    ++ declarations 1 u.unit.declarations

end Outline

namespace DesignFile

def outlineItems (f : DesignFile) : List OutlineItem := f.units.flatMap Outline.designUnit

def outline (f : DesignFile) : String := String.join (f.outlineItems.map OutlineItem.line)

end DesignFile

end VhdlDesign
