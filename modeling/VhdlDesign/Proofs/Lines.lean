import VhdlDesign.Image.Load
import VhdlDesign.Proofs.Unbroken

/-!
The lines of an outline.

A design unit, a context item, a generic, a port and a declaration are the parts of an outline. They
are visited depth first, and each is written with two spaces for every level above it and a line
feed behind it. A part has more than one line just where it shows a character or string literal with
a line feed between its quotes.
-/
namespace VhdlDesign

/-! ### The parts of an outline -/

/-- What has a line of its own in an outline. -/
inductive OutlinePart
  | unit (u : DesignUnit)
  | contextItem (i : ContextItem)
  | generic (i : GenericItem)
  | port (i : PortItem)
  | declaration (d : Declaration)

namespace OutlinePart

def interface (generics : List GenericItem) (ports : List PortItem) : List OutlinePart :=
  generics.map .generic ++ ports.map .port

def header : LibraryUnit → List OutlinePart
  | .entity u => interface u.generics u.ports
  | .package u => interface u.generics []
  | .context u => u.items.map .contextItem
  | _ => []

def below : OutlinePart → List OutlinePart
  | .unit u => u.context.map .contextItem ++ header u.unit ++ u.unit.declarations.map .declaration
  | .declaration (.function f) => interface f.generics []
  | .declaration (.procedure p) => interface p.generics []
  | .declaration (.componentDecl d) => interface d.generics d.ports
  | .declaration (.subprogramBody _ _ ds) => ds.map .declaration
  | _ => []

/-- The text of a part without what is below it. -/
def text : OutlinePart → String
  | .unit u => Outline.heading u.unit
  | .contextItem i => i.text
  | .generic i => i.text
  | .port i => i.text
  | .declaration (.function f) => Outline.function f
  | .declaration (.procedure p) => Outline.procedure p
  | .declaration (.subprogramBody kind name _) => kind.text ++ " body " ++ name
  | .declaration (.constantDecl d) => Outline.object "constant" d
  | .declaration (.signalDecl d) => Outline.object "signal" d
  | .declaration (.variableDecl d) =>
    Outline.object (if d.shared then "shared variable" else "variable") d.toObjectDeclaration
  | .declaration (.typeDecl d) => "type " ++ d.name ++ " is " ++ d.definition.text
  | .declaration (.subtypeDecl d) => "subtype " ++ d.name ++ " is " ++ d.subtype.name
  | .declaration (.aliasDecl d) => Outline.aliased d
  | .declaration (.componentDecl d) => "component " ++ d.name
  | .declaration (.attributeDecl d) => "attribute " ++ d.name ++ " : " ++ d.typeMark.name
  | .declaration (.useClause c) => "use " ++ symbolTexts c.names

/-- The expressions that the text of a part shows: default values, and the bounds of ranges. -/
def expressions : OutlinePart → List Expression
  | .generic i => i.defaultValue.toList
  | .port i => i.defaultValue.toList
  | .declaration (.function f) => parameterValues f.parameters
  | .declaration (.procedure p) => parameterValues p.parameters
  | .declaration (.constantDecl d) => d.defaultValue.toList
  | .declaration (.signalDecl d) => d.defaultValue.toList
  | .declaration (.variableDecl d) => d.defaultValue.toList
  | .declaration (.typeDecl d) => d.definition.bounds
  | _ => []

def anatomy : OutlinePart → Piece
  | .unit u => u.anatomy
  | .contextItem i => i.anatomy
  | .generic i => i.anatomy
  | .port i => i.anatomy
  | .declaration d => d.anatomy

def line (depth : Nat) (part : OutlinePart) : String :=
  String.join (List.replicate depth "  ") ++ part.text

end OutlinePart

/-- The parts that are met, and how deep they are, when some parts at a depth are visited one after
the other, each with all that is below it before the next. -/
inductive DepthFirst : Nat → List OutlinePart → List (Nat × OutlinePart) → Prop
  | done (depth : Nat) : DepthFirst depth [] []
  | visit {depth : Nat} {part : OutlinePart} {rest : List OutlinePart}
      {inside after : List (Nat × OutlinePart)} (down : DepthFirst (depth + 1) part.below inside)
      (onward : DepthFirst depth rest after) :
      DepthFirst depth (part :: rest) ((depth, part) :: inside ++ after)

/-! ### What the parts show -/

namespace OutlinePart

open Declaration

theorem oneLine_declaration {d : Declaration} (unbroken : d.anatomy.Unbroken) :
    '\n' ∉ (text (.declaration d)).toList ↔
      ∀ e ∈ expressions (.declaration d), '\n' ∉ e.text.toList := by
  cases d with
  | function f =>
    obtain ⟨name, _, parameters, result⟩ := unbroken_function.mp unbroken
    have word : '\n' ∉ (if f.isPure then "" else "impure ").toList := by split <;> simp
    rw [expressions, ← oneLine_parametersText parameters]
    simp [text, Outline.function, word, name, result]
  | procedure p =>
    obtain ⟨name, _, parameters⟩ := unbroken_procedure.mp unbroken
    rw [expressions, ← oneLine_parametersText parameters]
    simp [text, Outline.procedure, name]
  | subprogramBody kind name ds =>
    obtain ⟨named, _⟩ := (unbroken_subprogramBody kind).mp unbroken
    simp [text, expressions, kind.text_oneLine, named]
  | constantDecl d => exact Outline.oneLine_object (by simp) unbroken
  | signalDecl d => exact Outline.oneLine_object (by simp) unbroken
  | variableDecl d => exact Outline.oneLine_object (by split <;> simp) unbroken
  | typeDecl d =>
    obtain ⟨name, definition⟩ := unbroken_typeDecl.mp unbroken
    rw [expressions, ← TypeDefinition.oneLine_text definition]
    simp [text, name]
  | subtypeDecl d => simpa [text, expressions, Declaration.anatomy] using unbroken
  | aliasDecl d =>
    obtain ⟨name, subtype, target⟩ := unbroken_aliasDecl.mp unbroken
    rw [text, Outline.aliased]
    split
    next named => simp [expressions, name, target, subtype _ named]
    next => simp [expressions, name, target]
  | componentDecl d =>
    obtain ⟨name, _, _⟩ := unbroken_componentDecl.mp unbroken
    simp [text, expressions, name]
  | attributeDecl d => simpa [text, expressions, Declaration.anatomy] using unbroken
  | useClause c => simp [text, expressions, UseClause.oneLine_names unbroken]

theorem unbroken_unit {u : DesignUnit} :
    (unit u).anatomy.Unbroken ↔
      (∀ i ∈ u.context, i.anatomy.Unbroken) ∧ u.unit.anatomy.Unbroken := by
  simp [anatomy, DesignUnit.anatomy]

theorem oneLine_text {part : OutlinePart} (unbroken : part.anatomy.Unbroken) :
    '\n' ∉ part.text.toList ↔ ∀ e ∈ part.expressions, '\n' ∉ e.text.toList := by
  cases part with
  | unit u =>
    have heading := Outline.oneLine_heading (unbroken_unit.mp unbroken).2
    simp [text, expressions, heading]
  | contextItem i => simp [text, expressions, ContextItem.oneLine_text unbroken]
  | generic i => exact GenericItem.oneLine_text unbroken
  | port i => exact PortItem.oneLine_text unbroken
  | declaration d => exact oneLine_declaration unbroken

theorem unbroken_expressions {part : OutlinePart} (unbroken : part.anatomy.Unbroken) :
    ∀ e ∈ part.expressions, e.anatomy.Unbroken := by
  cases part with
  | unit u => simp [expressions]
  | contextItem i => simp [expressions]
  | generic i => exact (unbroken_object.mp unbroken).2.2
  | port i => exact (unbroken_object.mp unbroken).2.2
  | declaration d =>
    cases d with
    | function f => exact unbroken_parameterValues (unbroken_function.mp unbroken).2.2.1
    | procedure p => exact unbroken_parameterValues (unbroken_procedure.mp unbroken).2.2
    | constantDecl d => exact (unbroken_object.mp unbroken).2.2
    | signalDecl d => exact (unbroken_object.mp unbroken).2.2
    | variableDecl d => exact (unbroken_object.mp unbroken).2.2
    | typeDecl d => exact TypeDefinition.unbroken_bounds (unbroken_typeDecl.mp unbroken).2
    | _ => simp [expressions]

theorem unbroken_interface {generics : List GenericItem} {ports : List PortItem}
    (first : ∀ i ∈ generics, i.anatomy.Unbroken) (second : ∀ i ∈ ports, i.anatomy.Unbroken) :
    ∀ q ∈ interface generics ports, q.anatomy.Unbroken := by
  rw [interface, List.forall_mem_append, List.forall_mem_map, List.forall_mem_map]
  exact ⟨first, second⟩

theorem unbroken_header {u : LibraryUnit} (unbroken : u.anatomy.Unbroken) :
    ∀ q ∈ header u, q.anatomy.Unbroken := by
  cases u with
  | entity u =>
    obtain ⟨_, generics, ports, _⟩ := LibraryUnit.unbroken_entity.mp unbroken
    exact unbroken_interface generics ports
  | package u =>
    obtain ⟨_, generics, _⟩ := LibraryUnit.unbroken_package.mp unbroken
    exact unbroken_interface generics (by simp)
  | context u =>
    obtain ⟨_, items⟩ := LibraryUnit.unbroken_context.mp unbroken
    rw [header, List.forall_mem_map]
    exact items
  | _ => simp [header]

theorem unbroken_below {part : OutlinePart} (unbroken : part.anatomy.Unbroken) :
    ∀ q ∈ part.below, q.anatomy.Unbroken := by
  cases part with
  | unit u =>
    obtain ⟨context, library⟩ := unbroken_unit.mp unbroken
    simp only [below, List.forall_mem_append, List.forall_mem_map]
    exact ⟨⟨context, unbroken_header library⟩, LibraryUnit.unbroken_declarations library⟩
  | contextItem i => simp [below]
  | generic i => simp [below]
  | port i => simp [below]
  | declaration d =>
    cases d with
    | function f => exact unbroken_interface (unbroken_function.mp unbroken).2.1 (by simp)
    | procedure p => exact unbroken_interface (unbroken_procedure.mp unbroken).2.1 (by simp)
    | subprogramBody kind name ds =>
      obtain ⟨_, declarations⟩ := (unbroken_subprogramBody kind).mp unbroken
      rw [below, List.forall_mem_map]
      exact declarations
    | componentDecl d =>
      obtain ⟨_, generics, ports⟩ := unbroken_componentDecl.mp unbroken
      exact unbroken_interface generics ports
    | _ => simp [below]

end OutlinePart

/-! ### Depth first -/

namespace DepthFirst

variable {depth : Nat} {parts others : List OutlinePart}
variable {visited further : List (Nat × OutlinePart)}

theorem append (first : DepthFirst depth parts visited) (second : DepthFirst depth others further) :
    DepthFirst depth (parts ++ others) (visited ++ further) := by
  induction first with
  | done => exact second
  | visit down _ _ ih =>
    rw [List.cons_append, List.append_assoc]
    exact .visit down (ih second)

theorem unique (run : DepthFirst depth parts visited) (again : DepthFirst depth parts further) :
    visited = further := by
  induction run generalizing further with
  | done =>
    cases again
    rfl
  | visit _ _ inner outer =>
    cases again with
    | visit down onward => rw [inner down, outer onward]

end DepthFirst

/-- The items are those of the parts, visited depth first. -/
def Outlines (depth : Nat) (parts : List OutlinePart) (items : List OutlineItem) : Prop :=
  ∃ visited, DepthFirst depth parts visited ∧ items = visited.map fun v => ⟨v.1, v.2.text⟩

namespace Outlines

variable {depth : Nat} {parts others : List OutlinePart} {items further : List OutlineItem}

theorem nil : Outlines depth [] [] := ⟨[], .done depth, rfl⟩

theorem append (first : Outlines depth parts items) (second : Outlines depth others further) :
    Outlines depth (parts ++ others) (items ++ further) := by
  obtain ⟨visited, run, rfl⟩ := first
  obtain ⟨visited', run', rfl⟩ := second
  exact ⟨visited ++ visited', run.append run', List.map_append.symm⟩

theorem single {part : OutlinePart} (inside : Outlines (depth + 1) part.below items) :
    Outlines depth [part] (⟨depth, part.text⟩ :: items) := by
  obtain ⟨visited, run, rfl⟩ := inside
  exact ⟨_, .visit run (.done depth), by simp⟩

theorem leaf {part : OutlinePart} (alone : part.below = []) :
    Outlines depth [part] [⟨depth, part.text⟩] := single (alone ▸ nil)

theorem leaves {α : Type} {make : α → OutlinePart} {text : α → String}
    (alone : ∀ x, (make x).below = []) (written : ∀ x, (make x).text = text x) (xs : List α) :
    Outlines depth (xs.map make) (Outline.leaves depth (xs.map text)) := by
  induction xs with
  | nil => exact nil
  | cons x xs ih =>
    have first : Outlines depth [make x] [⟨depth, (make x).text⟩] := leaf (alone x)
    rw [written] at first
    exact first.append ih

theorem interface (generics : List GenericItem) (ports : List PortItem) :
    Outlines depth (OutlinePart.interface generics ports)
      (Outline.interface depth generics ports) :=
  (leaves (fun _ => rfl) (fun _ => rfl) generics).append
    (leaves (fun _ => rfl) (fun _ => rfl) ports)

theorem contextItems (is : List ContextItem) :
    Outlines depth (is.map .contextItem) (Outline.leaves depth (is.map ContextItem.text)) :=
  leaves (fun _ => rfl) (fun _ => rfl) is

mutual
theorem declaration (depth : Nat) :
    ∀ d : Declaration, Outlines depth [.declaration d] (Outline.declaration depth d)
  | .function f => single (interface f.generics [])
  | .procedure p => single (interface p.generics [])
  | .subprogramBody _ _ ds => single (declarations (depth + 1) ds)
  | .constantDecl _ => leaf rfl
  | .signalDecl _ => leaf rfl
  | .variableDecl _ => leaf rfl
  | .typeDecl _ => leaf rfl
  | .subtypeDecl _ => leaf rfl
  | .aliasDecl _ => leaf rfl
  | .componentDecl d => single (interface d.generics d.ports)
  | .attributeDecl _ => leaf rfl
  | .useClause _ => leaf rfl

theorem declarations (depth : Nat) :
    ∀ ds : List Declaration, Outlines depth (ds.map .declaration) (Outline.declarations depth ds)
  | [] => nil
  | d :: ds => (declaration depth d).append (declarations depth ds)
end

theorem header (u : LibraryUnit) :
    Outlines depth (OutlinePart.header u) (Outline.header depth u) := by
  cases u with
  | entity u => exact interface u.generics u.ports
  | package u => exact interface u.generics []
  | context u => exact contextItems u.items
  | architecture u => exact nil
  | packageBody u => exact nil
  | configuration u => exact nil

theorem designUnit (u : DesignUnit) : Outlines 0 [.unit u] (Outline.designUnit u) :=
  single (((contextItems u.context).append (header u.unit)).append
    (declarations 1 u.unit.declarations))

theorem designFile (file : DesignFile) :
    Outlines 0 (file.units.map .unit) file.outlineItems := by
  unfold DesignFile.outlineItems
  induction file.units with
  | nil => exact nil
  | cons u us ih => exact (designUnit u).append ih

end Outlines

/-! ### One line for each part -/

theorem splitOn_lines (lines : List (List Char)) :
    (lines.flatMap fun l => l ++ ['\n']).splitOn '\n' =
      lines.flatMap (List.splitOn '\n') ++ [[]] := by
  induction lines with
  | nil => rfl
  | cons l lines ih =>
    rw [List.flatMap_cons, List.append_assoc, List.singleton_append, List.splitOn_append_cons_self,
      ih, List.flatMap_cons, List.append_assoc]

theorem splitOn_lines_iff (lines : List (List Char)) :
    (lines.flatMap fun l => l ++ ['\n']).splitOn '\n' = lines ++ [[]] ↔
      ∀ l ∈ lines, '\n' ∉ l := by
  rw [splitOn_lines, List.append_cancel_right_eq]
  induction lines with
  | nil => simp
  | cons l lines ih =>
    by_cases broken : '\n' ∈ l
    · -- the first piece of a broken line is shorter than the line
      obtain ⟨before, after, rfl, free⟩ := List.eq_append_cons_of_mem broken
      rw [List.flatMap_cons, List.splitOn_append_cons_self_of_not_mem free]
      simp
    · rw [List.flatMap_cons, List.splitOn_eq_singleton broken]
      simp [ih, broken]

theorem DepthFirst.unbroken {depth : Nat} {parts : List OutlinePart}
    {visited : List (Nat × OutlinePart)} (run : DepthFirst depth parts visited)
    (start : ∀ part ∈ parts, part.anatomy.Unbroken) : ∀ v ∈ visited, v.2.anatomy.Unbroken := by
  induction run with
  | done => nofun
  | visit down onward inner outer =>
    obtain ⟨first, rest⟩ := List.forall_mem_cons.mp start
    rw [List.cons_append, List.forall_mem_cons, List.forall_mem_append]
    exact ⟨first, inner (OutlinePart.unbroken_below first), outer rest⟩

theorem OutlinePart.oneLine_line (depth : Nat) (part : OutlinePart) :
    '\n' ∉ (part.line depth).toList ↔ '\n' ∉ part.text.toList := by
  simp [line, String.toList_join]

theorem DesignFile.outline_eq {file : DesignFile} {visited : List (Nat × OutlinePart)}
    (listed : file.outlineItems = visited.map fun v => ⟨v.1, v.2.text⟩) :
    file.outline = String.join (visited.map fun v => v.2.line v.1 ++ "\n") := by
  rw [outline, listed, List.map_map]
  rfl

/-- The outline of a design that was built has the parts of the design depth first, each with two
spaces for every level and a line feed behind it. Cut at its line feeds, it falls into one line for
each part, and nothing behind the last, unless a part shows a literal that is itself broken. -/
theorem outlines_have_a_line_for_each_part (g : Graph) (limits : Limits) (root : NodeRef)
    (file : DesignFile) (built : buildDesignFile g limits root = .ok file) :
    ∃ visited, DepthFirst 0 (file.units.map .unit) visited ∧
      file.outline = String.join (visited.map fun v => v.2.line v.1 ++ "\n") ∧
      (file.outline.toList.splitOn '\n' = (visited.map fun v => (v.2.line v.1).toList) ++ [[]] ↔
        ∀ v ∈ visited, ∀ e ∈ v.2.expressions, ∀ p, e.Contains p → '\n' ∉ p.quoted) := by
  obtain ⟨visited, run, listed⟩ := Outlines.designFile file
  have named := (Builder.build_regular (f := .designFile) built).wellNamed
  have start : ∀ part ∈ file.units.map OutlinePart.unit, part.anatomy.Unbroken := by
    have units : file.anatomy.Unbroken := named.unbroken
    simpa [DesignFile.anatomy, OutlinePart.anatomy] using units
  have unbroken := run.unbroken start
  have written := DesignFile.outline_eq listed
  have characters : file.outline.toList =
      (visited.map fun v => (v.2.line v.1).toList).flatMap fun l => l ++ ['\n'] := by
    simp [written, String.toList_join, List.flatMap_map]
  refine ⟨visited, run, written, ?_⟩
  rw [characters, splitOn_lines_iff, List.forall_mem_map]
  refine forall₂_congr fun v member => ?_
  rw [OutlinePart.oneLine_line, OutlinePart.oneLine_text (unbroken v member)]
  refine forall₂_congr fun e shown => ?_
  exact e.oneLine_text_iff (OutlinePart.unbroken_expressions (unbroken v member) e shown)

def typeInBody : Graph
  | ⟨0⟩ => some { kind := .designFile,
                  field := fun f => if f = .designUnits then some ⟨1⟩ else none }
  | ⟨1⟩ => some { kind := .designUnit,
                  field := fun f => if f = .libraryUnit then some ⟨2⟩ else none }
  | ⟨2⟩ => some { kind := .packageBody, name := some "p",
                  field := fun f => if f = .declarationChain then some ⟨3⟩ else none }
  | ⟨3⟩ => some { kind := .procedureBody,
                  field := fun f => if f = .subprogramSpecification then some ⟨4⟩ else
                    if f = .declarationChain then some ⟨5⟩ else none }
  | ⟨4⟩ => some { kind := .procedureDeclaration, name := some "f" }
  | ⟨5⟩ => some { kind := .typeDeclaration, name := some "t",
                  field := fun f => if f = .typeDefinition then some ⟨6⟩ else none }
  | ⟨6⟩ => some { kind := .integerTypeDefinition,
                  field := fun f => if f = .rangeConstraint then some ⟨7⟩ else none }
  | ⟨7⟩ => some { kind := .rangeExpression, direction := some .ascending,
                  field := fun f => if f = .left then some ⟨8⟩ else
                    if f = .right then some ⟨9⟩ else none }
  | ⟨8⟩ => some { kind := .characterLiteral, literal := some (.character 'a') }
  | ⟨9⟩ => some { kind := .characterLiteral, literal := some (.character 'b') }
  | _ => none

def typeDesign : DesignFile :=
  ⟨[⟨[], .packageBody ⟨"p", [.subprogramBody .procedure "f" [
    .typeDecl ⟨"t", .integer ⟨.character 'a', .ascending, .character 'b'⟩⟩]]⟩⟩]⟩

theorem typeInBody_outlined :
    buildDesignFile typeInBody {} ⟨0⟩ = .ok typeDesign ∧
      typeDesign.outline.toList.splitOn '\n' =
        ["package body p".toList, "  procedure body f".toList,
          "    type t is range 'a' to 'b'".toList, []] := by
  have built : buildDesignFile typeInBody {} ⟨0⟩ = .ok typeDesign := rfl
  refine ⟨built, ?_⟩
  obtain ⟨visited, run, _, lines⟩ := outlines_have_a_line_for_each_part _ _ _ _ built
  have order := run.unique (.visit (.visit (.visit (.done _) (.done _)) (.done _)) (.done _))
  subst order
  refine (lines.mpr ?_).trans (by decide +kernel)
  intro v member e shown p contained
  -- Only the type, visited last, shows expressions, and its two bounds are characters.
  have bound : e = .character 'a' ∨ e = .character 'b' := by
    simp only [List.append_nil, List.mem_cons, List.not_mem_nil, or_false] at member
    rcases member with rfl | rfl | rfl
    · cases shown
    · cases shown
    · simpa [OutlinePart.expressions, TypeDefinition.bounds] using shown
  rcases bound with rfl | rfl
  all_goals
    rw [contained.eq_of_leaf rfl]
    decide

def brokenString : Image where
  root := 1
  records := [
    { id := 1, kind := .designFile, field := fun f => if f = .designUnits then some 2 else none },
    { id := 2, kind := .designUnit, field := fun f => if f = .libraryUnit then some 3 else none },
    { id := 3, kind := .packageDeclaration, name := some "p",
      field := fun f => if f = .declarationChain then some 4 else none },
    { id := 4, kind := .constantDeclaration, name := some "c",
      field := fun f => if f = .subtypeIndication then some 5 else
        if f = .defaultValue then some 6 else none },
    { id := 5, kind := .simpleName, name := some "string" },
    { id := 6, kind := .stringLiteral, literal := some (.string "a\nb") }]

/-- The outline has two parts and three lines. -/
theorem brokenString_outlined :
    ∃ image file, brokenString.resolve = .ok image ∧
      buildDesignFile image.arena.graph {} image.root = .ok file ∧
      file.outlineItems.length = 2 ∧
      file.outline.toList.splitOn '\n' =
        ["package p".toList, "  constant c : string := \"a".toList, "b\"".toList, []] := by
  have shown : (brokenString.resolve.toOption.bind fun image =>
      (buildDesignFile image.arena.graph {} image.root).toOption.map fun file =>
        (file.outlineItems.length, file.outline.toList.splitOn '\n')) =
      some (2, ["package p".toList, "  constant c : string := \"a".toList, "b\"".toList, []]) := by
    decide +kernel
  cases loaded : brokenString.resolve with
  | error e =>
    rw [loaded] at shown
    cases shown
  | ok image =>
    rw [loaded] at shown
    change Option.map _ _ = _ at shown
    cases built : buildDesignFile image.arena.graph {} image.root with
    | error e =>
      rw [built] at shown
      cases shown
    | ok file =>
      rw [built] at shown
      obtain ⟨parts, lines⟩ := Prod.mk.inj (Option.some.inj shown)
      exact ⟨image, file, rfl, built, parts, lines⟩

end VhdlDesign
