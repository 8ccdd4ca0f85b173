import VhdlDesign.Design.Declaration

/-! Design files, design units, library units and context clauses. -/
namespace VhdlDesign

structure LibraryClause where
  name : String

structure ContextReference where
  names : List Symbol

inductive ContextItem
  | library (c : LibraryClause)
  | useClause (c : UseClause)
  | reference (c : ContextReference)

def symbolTexts (names : List Symbol) : String := commaSeparated (names.map Symbol.name)

def ContextItem.text : ContextItem → String
  | .library c => "library " ++ c.name
  | .useClause c => "use " ++ symbolTexts c.names
  | .reference c => "context " ++ symbolTexts c.names

structure Entity where
  name : String
  generics : List GenericItem
  ports : List PortItem
  declarations : List Declaration

structure Architecture where
  name : String
  entity : Symbol
  declarations : List Declaration

structure Package where
  name : String
  generics : List GenericItem
  declarations : List Declaration

structure PackageBody where
  name : String
  declarations : List Declaration

structure ContextDeclaration where
  name : String
  items : List ContextItem

structure Configuration where
  name : String
  entity : Symbol

inductive LibraryUnit
  | entity (u : Entity)
  | architecture (u : Architecture)
  | package (u : Package)
  | packageBody (u : PackageBody)
  | context (u : ContextDeclaration)
  | configuration (u : Configuration)

namespace LibraryUnit

def name : LibraryUnit → String
  | .entity u => u.name
  | .architecture u => u.name
  | .package u => u.name
  | .packageBody u => u.name
  | .context u => u.name
  | .configuration u => u.name

def kindName : LibraryUnit → String
  | .entity _ => "entity"
  | .architecture _ => "architecture"
  | .package _ => "package"
  | .packageBody _ => "package body"
  | .context _ => "context"
  | .configuration _ => "configuration"

def declarations : LibraryUnit → List Declaration
  | .entity u => u.declarations
  | .architecture u => u.declarations
  | .package u => u.declarations
  | .packageBody u => u.declarations
  | .context _ => []
  | .configuration _ => []

end LibraryUnit

structure DesignUnit where
  context : List ContextItem
  unit : LibraryUnit

structure DesignFile where
  units : List DesignUnit

inductive DesignNode
  | designFile (f : DesignFile)
  | designUnit (u : DesignUnit)
  | libraryUnit (u : LibraryUnit)
  | contextItem (i : ContextItem)
  | declaration (d : Declaration)
  | expression (e : Expression)

end VhdlDesign
