import VhdlDesign.Proofs.History

/-!
Ways to build the same node.

A node can be built as whatever it is, as a value of the one type that its kind stands for, or in
one of the four places that take several kinds. These ways agree on values and on faults, wherever
they take the node at all; and a place that does not take its kind says so before anything else.
-/
namespace VhdlDesign

/-- A form that is built, and what its values are as design nodes. -/
abbrev Way := (f : Form) × (f.Value → DesignNode)

/-- The type of value that stands for nodes of a kind alone. The two kinds of subprogram bodies
share theirs. -/
def Kind.way? : Kind → Option Way
  | .designFile => some ⟨.designFile, .designFile⟩
  | .designUnit => some ⟨.designUnit, .designUnit⟩
  | .entityDeclaration => some ⟨.entity, fun u => .libraryUnit (.entity u)⟩
  | .architectureBody => some ⟨.architecture, fun u => .libraryUnit (.architecture u)⟩
  | .packageDeclaration => some ⟨.package, fun u => .libraryUnit (.package u)⟩
  | .packageBody => some ⟨.packageBody, fun u => .libraryUnit (.packageBody u)⟩
  | .contextDeclaration => some ⟨.contextDeclaration, fun u => .libraryUnit (.context u)⟩
  | .configurationDeclaration => some ⟨.configuration, fun u => .libraryUnit (.configuration u)⟩
  | .libraryClause => some ⟨.libraryClause, fun c => .contextItem (.library c)⟩
  | .useClause => some ⟨.useClause, fun c => .contextItem (.useClause c)⟩
  | .contextReference => some ⟨.contextReference, fun c => .contextItem (.reference c)⟩
  | .functionDeclaration => some ⟨.function, fun d => .declaration (.function d)⟩
  | .procedureDeclaration => some ⟨.procedure, fun d => .declaration (.procedure d)⟩
  | .functionBody | .procedureBody =>
    some ⟨.subprogramBody, fun d => .declaration (.subprogramBody d.kind d.name d.declarations)⟩
  | .constantDeclaration => some ⟨.constantDecl, fun d => .declaration (.constantDecl d)⟩
  | .signalDeclaration => some ⟨.signalDecl, fun d => .declaration (.signalDecl d)⟩
  | .variableDeclaration => some ⟨.variableDecl, fun d => .declaration (.variableDecl d)⟩
  | .typeDeclaration => some ⟨.typeDecl, fun d => .declaration (.typeDecl d)⟩
  | .subtypeDeclaration => some ⟨.subtypeDecl, fun d => .declaration (.subtypeDecl d)⟩
  | .aliasDeclaration => some ⟨.aliasDecl, fun d => .declaration (.aliasDecl d)⟩
  | .componentDeclaration => some ⟨.componentDecl, fun d => .declaration (.componentDecl d)⟩
  | .attributeDeclaration => some ⟨.attributeDecl, fun d => .declaration (.attributeDecl d)⟩
  | _ => none

def Category.way? : Category → Option Way
  | .libraryUnit => some ⟨.libraryUnit, .libraryUnit⟩
  | .contextItem => some ⟨.contextItem, .contextItem⟩
  | .declaration => some ⟨.declaration, .declaration⟩
  | .name | .literal | .operator | .expression => some ⟨.expression, .expression⟩
  | .structural | .interface | .typeDefinition | .typeComponent | .association | .statement => none

def Form.places : List Form := [.libraryUnit, .contextItem, .declaration, .expression]

/-! ### The place by what a node becomes -/

def Construction.way? : Construction → Option Way
  | .designFile | .designUnit => none
  | .libraryUnit _ => some ⟨.libraryUnit, .libraryUnit⟩
  | .contextItem _ => some ⟨.contextItem, .contextItem⟩
  | .declaration _ => some ⟨.declaration, .declaration⟩
  | .expression _ => some ⟨.expression, .expression⟩

theorem Kind.category_way? (k : Kind) {c : Construction} (built : k.construction = some c) :
    k.category.way? = c.way? := by
  cases k <;> cases built <;> rfl

theorem Category.way?_mem_places {category : Category} {w : Way}
    (placed : category.way? = some w) : w.1 ∈ Form.places := by
  cases category <;> cases placed <;> decide

theorem Kind.construction_eq_useClause {k : Kind} :
    k.construction = some (.contextItem .useClause) ↔ k = .useClause := by
  cases k <;> decide

theorem Kind.construction_isSome {k : Kind} {w : Way} (typed : k.way? = some w) :
    k.construction.isSome := by
  cases k <;> first | rfl | cases typed

theorem Kind.screen_typed {k : Kind} {w : Way} (typed : k.way? = some w) : w.1.screen = none := by
  cases k <;> cases typed <;> rfl

/-- A place takes what stands there, and the place for declarations takes use clauses besides. -/
theorem Form.screen_place {place : Form} (member : place ∈ places) (k : Kind) :
    ∃ takes, place.screen = some takes ∧ (takes k = true ↔
      (k.construction.bind Construction.way?).map Sigma.fst = some place ∨
        k = .useClause ∧ place = .declaration) := by
  rw [← Kind.construction_eq_useClause]
  simp only [places, List.mem_cons, List.not_mem_nil, or_false] at member
  rcases member with rfl | rfl | rfl | rfl
  · refine ⟨takesUnit, rfl, ?_⟩
    unfold takesUnit
    rcases k.construction with _ | _ | _ | _ | _ | _ | _ <;> simp [Construction.way?]
  · refine ⟨takesContextItem, rfl, ?_⟩
    unfold takesContextItem
    rcases k.construction with _ | _ | _ | _ | _ | _ | _ <;> simp [Construction.way?]
  · refine ⟨takesDeclaration, rfl, ?_⟩
    unfold takesDeclaration
    rcases k.construction with _ | _ | _ | _ | form | _ | _
    case some.contextItem => cases form <;> simp [Construction.way?]
    all_goals simp [Construction.way?]
  · refine ⟨takesExpression, rfl, ?_⟩
    unfold takesExpression
    rcases k.construction with _ | _ | _ | _ | _ | _ | _ <;> simp [Construction.way?]

/-! ### Recipes that agree -/

namespace Builder

variable {α β : Type} {b : Builder} {n : NodeRef} {x : Node}
variable {enter : (f : Form) → NodeRef → Except Fault f.Value}

theorem carryOut_map (w : α → β) (r : Recipe α) :
    b.carryOut n x enter (w <$> r) = w <$> b.carryOut n x enter r := by
  rw [← bind_pure_comp, ← bind_pure_comp]
  exact carryOut_bind b n x enter r _

theorem carryOut_attributed (k : Attributes → Recipe α) :
    b.carryOut n x enter (Recipe.attributes >>= k) = b.carryOut n x enter (k x.toAttributes) := rfl

/-- A body that is read as a declaration, by the kind that is already known, is the body that its
own type reads after looking at the kind. -/
theorem carryOut_body {kind : SubprogramKind}
    (body : x.kind.construction = some (.declaration (.subprogramBody kind))) :
    b.carryOut n x enter Grammar.subprogramBody = b.carryOut n x enter (Grammar.bodyOf kind) := by
  rw [Grammar.subprogramBody, carryOut_attributed]
  cases known : x.kind <;> rw [known] at body <;> cases body <;> rfl

/-- Whatever a node is, it is what its own type makes of it. -/
theorem carryOut_typed {f : Form} {asNode : f.Value → DesignNode}
    (typed : x.kind.way? = some ⟨f, asNode⟩) :
    b.carryOut n x enter Grammar.anyNode = asNode <$> b.carryOut n x enter (Grammar.recipe f) := by
  rw [Grammar.anyNode, carryOut_attributed]
  cases kind : x.kind <;> rw [kind] at typed <;> cases typed
  case designFile => exact carryOut_map _ _
  case designUnit => exact carryOut_map _ _
  case functionBody =>
    rw [Grammar.recipe, carryOut_body (by rw [kind]; rfl), ← carryOut_map]
    rfl
  case procedureBody =>
    rw [Grammar.recipe, carryOut_body (by rw [kind]; rfl), ← carryOut_map]
    rfl
  all_goals
    rw [← carryOut_map]
    exact congrArg (b.carryOut n x enter) (Functor.map_map _ _ _)

theorem carryOut_placed {place : Form} {asNode : place.Value → DesignNode}
    (placed : x.kind.construction.bind Construction.way? = some ⟨place, asNode⟩) :
    b.carryOut n x enter Grammar.anyNode =
      asNode <$> b.carryOut n x enter (Grammar.recipe place) := by
  obtain ⟨c, built, placed⟩ := Option.bind_eq_some_iff.mp placed
  rw [Grammar.anyNode, carryOut_attributed, built]
  cases c <;> cases placed
  case libraryUnit =>
    rw [Grammar.recipe, Grammar.libraryUnit, carryOut_attributed, built]
    exact carryOut_map _ _
  case contextItem =>
    rw [Grammar.recipe, Grammar.contextItem, carryOut_attributed, built]
    exact carryOut_map _ _
  case declaration =>
    rw [Grammar.recipe, Grammar.declaration, carryOut_attributed, built]
    exact carryOut_map _ _
  case expression =>
    rw [Grammar.recipe, Grammar.expression, carryOut_attributed, built]
    exact carryOut_map _ _

theorem carryOut_used (kind : x.kind = .useClause) :
    b.carryOut n x enter Grammar.contextItem =
        .useClause <$> b.carryOut n x enter Grammar.useClause ∧
      b.carryOut n x enter Grammar.declaration =
        .useClause <$> b.carryOut n x enter Grammar.useClause := by
  rw [Grammar.contextItem, Grammar.declaration, carryOut_attributed, carryOut_attributed, kind]
  exact ⟨carryOut_map _ _, carryOut_map _ _⟩

/-! ### Builds that agree -/

theorem screen_takes (found : b.graph n = some x) {f : Form}
    (takes : ∀ t, f.screen = some t → t x.kind = true) : b.screen f n = .ok () := by
  unfold screen
  cases screened : f.screen with
  | none => rfl
  | some t =>
    rw [node_eq_ok.mpr found]
    exact if_pos (takes t screened)

/-- Two forms that take a node and whose recipes agree at it give the same, whether the node can be
opened or not. -/
theorem build_map (found : b.graph n = some x) {f f' : Form} {w : f'.Value → f.Value}
    (takes : ∀ t, f.screen = some t → t x.kind = true)
    (takes' : ∀ t, f'.screen = some t → t x.kind = true)
    (agree : (b.push n).carryOut n x (b.push n).build (Grammar.recipe f) =
      w <$> (b.push n).carryOut n x (b.push n).build (Grammar.recipe f')) :
    b.build f n = w <$> b.build f' n := by
  have entered : (b.push n).node n = .ok x := node_eq_ok.mpr found
  rw [build_eq, build_eq, screen_takes found takes, screen_takes found takes', entered]
  by_cases met : n ∈ b.path
  · simp only [if_pos met, refuse, node_eq_ok.mpr found]
    rfl
  by_cases room : b.path.length < b.limits.depth
  · simp only [if_neg met, if_pos room]
    exact agree
  · simp only [if_neg met, if_neg room, refuse, node_eq_ok.mpr found]
    rfl

theorem build_turned_away (found : b.graph n = some x) {f : Form} {takes : Kind → Bool}
    (screened : f.screen = some takes) (other : takes x.kind ≠ true) :
    b.build f n = .error (x.issue n (.unsupportedKind x.kind)) := by
  rw [build_eq, screen, screened, node_eq_ok.mpr found]
  change (if takes x.kind = true then _ else _) >>= _ = _
  rw [if_neg other]
  rfl

theorem build_typed (found : b.graph n = some x) {f : Form} {asNode : f.Value → DesignNode}
    (typed : x.kind.way? = some ⟨f, asNode⟩) : b.build .anyNode n = asNode <$> b.build f n := by
  refine build_map found ?_ ?_ (carryOut_typed typed)
  · rintro _ ⟨⟩
    exact Kind.construction_isSome typed
  · intro t screened
    cases (Kind.screen_typed typed).symm.trans screened

theorem build_placed (found : b.graph n = some x) {place : Form}
    {asNode : place.Value → DesignNode} (member : place ∈ Form.places)
    (placed : x.kind.construction.bind Construction.way? = some ⟨place, asNode⟩) :
    b.build .anyNode n = asNode <$> b.build place n := by
  obtain ⟨takes, screened, exactly⟩ := Form.screen_place member x.kind
  refine build_map found ?_ ?_ (carryOut_placed placed)
  · rintro _ ⟨⟩
    obtain ⟨c, built, _⟩ := Option.bind_eq_some_iff.mp placed
    exact Option.isSome_of_eq_some built
  · intro t again
    cases screened.symm.trans again
    exact exactly.mpr (.inl (by rw [placed]; rfl))

theorem build_used (found : b.graph n = some x) (kind : x.kind = .useClause) :
    b.build .contextItem n = .useClause <$> b.build .useClause n ∧
      b.build .declaration n = .useClause <$> b.build .useClause n := by
  constructor
  · refine build_map found ?_ nofun (carryOut_used kind).1
    rintro _ ⟨⟩
    rw [kind]
    rfl
  · refine build_map found ?_ nofun (carryOut_used kind).2
    rintro _ ⟨⟩
    rw [kind]
    rfl

theorem build_elsewhere (found : b.graph n = some x) {place : Form} (member : place ∈ Form.places)
    (elsewhere : (x.kind.construction.bind Construction.way?).map Sigma.fst ≠ some place)
    (unused : ¬ (x.kind = .useClause ∧ place = .declaration)) :
    b.build place n = .error (x.issue n (.unsupportedKind x.kind)) := by
  obtain ⟨takes, screened, exactly⟩ := Form.screen_place member x.kind
  refine build_turned_away found screened fun taken => ?_
  exact (exactly.mp taken).elim elsewhere unused

end Builder

/-- The ways to build a node agree. A node of a kind from which nothing is built is unsupported.
Where a type of value stands for a kind alone, building whatever the node is and building that type
give the same. A node that stands in a place is there what it is anywhere, and is unsupported in the
other places, except that a use clause also stands among declarations, where it is the same use
clause. Any other node is unsupported in every place. -/
theorem ways_to_build_agree (g : Graph) (limits : Limits) {n : NodeRef} {x : Node}
    (found : g n = some x) :
    let fresh : Builder := { graph := g, limits }
    let unsupported := x.issue n (.unsupportedKind x.kind)
    (x.kind.construction = none → buildNode g limits n = .error unsupported) ∧
    (∀ f asNode, x.kind.way? = some ⟨f, asNode⟩ →
      buildNode g limits n = asNode <$> fresh.build f n) ∧
    (∀ place asNode, x.kind.construction ≠ none → x.kind.category.way? = some ⟨place, asNode⟩ →
      buildNode g limits n = asNode <$> fresh.build place n ∧
        ∀ other ∈ Form.places, other ≠ place → ¬ (x.kind = .useClause ∧ other = .declaration) →
          fresh.build other n = .error unsupported) ∧
    (x.kind = .useClause →
      fresh.build .contextItem n = .useClause <$> fresh.build .useClause n ∧
        fresh.build .declaration n = .useClause <$> fresh.build .useClause n) ∧
    (x.kind.construction = none ∨ x.kind.category.way? = none →
      ∀ place ∈ Form.places, fresh.build place n = .error unsupported) := by
  intro fresh unsupported
  have present : fresh.graph n = some x := found
  refine ⟨?_, ?_, ?_, ?_, ?_⟩
  · intro nothing
    exact Builder.build_turned_away present rfl (by rw [nothing]; decide)
  · intro f asNode typed
    exact Builder.build_typed present typed
  · intro place asNode something placed
    obtain ⟨c, built⟩ := Option.ne_none_iff_exists'.mp something
    have stands : x.kind.construction.bind Construction.way? = some ⟨place, asNode⟩ := by
      rw [built, Option.bind_some, ← x.kind.category_way? built, placed]
    refine ⟨Builder.build_placed present (Category.way?_mem_places placed) stands, ?_⟩
    intro other member differs unused
    refine Builder.build_elsewhere present member ?_ unused
    rw [stands]
    exact fun same => differs (Option.some.inj same).symm
  · exact Builder.build_used present
  · intro nowhere place member
    have absent : x.kind.construction.bind Construction.way? = none := by
      cases built : x.kind.construction with
      | none => rfl
      | some c =>
        rw [Option.bind_some, ← x.kind.category_way? built]
        simpa [built] using nowhere
    refine Builder.build_elsewhere present member (by rw [absent]; exact nofun) ?_
    rintro ⟨kind, _⟩
    rw [kind] at absent
    cases absent

def usingBody : Graph
  | ⟨0⟩ => some { kind := .procedureBody,
                  field := fun
                    | .subprogramSpecification => some ⟨1⟩
                    | .declarationChain => some ⟨2⟩
                    | _ => none }
  | ⟨1⟩ => some { kind := .procedureDeclaration, name := some "reset" }
  | ⟨2⟩ => some { kind := .useClause,
                  field := fun f => if f = .nameChain then some ⟨3⟩ else none }
  | ⟨3⟩ => some { kind := .simpleName, name := some "work" }
  | _ => none

theorem usingBody_agrees :
    (∃ x, usingBody ⟨0⟩ = some x ∧ x.kind = .procedureBody) ∧
      buildNode usingBody {} ⟨0⟩ =
        (fun d => .declaration (.subprogramBody d.kind d.name d.declarations)) <$>
          ({ graph := usingBody } : Builder).build .subprogramBody ⟨0⟩ ∧
      ({ graph := usingBody } : Builder).build .subprogramBody ⟨0⟩ =
        .ok ⟨.procedure, "reset", [.useClause ⟨[⟨"work"⟩]⟩]⟩ ∧
      ({ graph := usingBody } : Builder).build .declaration ⟨2⟩ =
        .useClause <$> ({ graph := usingBody } : Builder).build .useClause ⟨2⟩ ∧
      ({ graph := usingBody } : Builder).build .expression ⟨2⟩ =
        .error (.issue ⟨.unsupportedKind .useClause, ⟨2⟩, .useClause, none⟩) := by
  obtain ⟨_, typed, _⟩ := ways_to_build_agree usingBody {} (n := ⟨0⟩) rfl
  obtain ⟨_, _, placed, used, _⟩ := ways_to_build_agree usingBody {} (n := ⟨2⟩) rfl
  refine ⟨⟨_, rfl, rfl⟩, typed _ _ rfl, rfl, (used rfl).2, ?_⟩
  exact (placed _ _ nofun rfl).2 .expression (by decide) nofun (by decide)

end VhdlDesign
