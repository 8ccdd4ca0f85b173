import VhdlDesign.Proofs.History
import VhdlDesign.Proofs.Naming

/-!
Names are flattened along their qualifiers.

From a selected name, qualifiers lead from node to node until a simple name ends the way. A name can
be built exactly if this way can be gone, and its text is what the nodes on it contribute, from the
last one back to the first. A subtype indication is such a name, or a constraint around one.
-/
namespace VhdlDesign

open Relation

/-! ### Where following successors ends -/

namespace Leads

variable {next : NodeRef → Option NodeRef} {n m : NodeRef} {ns : List NodeRef}

theorem from_successor (led : Leads next (some n) ns none) (step : next n = some m) :
    ∃ ms, Leads next (some m) ms none ∧ ms.length < ns.length := by
  cases led with
  | @step _ ms _ rest =>
    rw [step] at rest
    exact ⟨ms, rest, Nat.lt_succ_self _⟩

theorem from_reached (led : Leads next (some n) ns none)
    (reached : ReflTransGen (fun k l => next k = some l) n m) :
    ∃ ms, Leads next (some m) ms none := by
  induction reached with
  | refl => exact ⟨ns, led⟩
  | tail _ step ih =>
    obtain ⟨ms, led⟩ := ih
    obtain ⟨ms', led, _⟩ := led.from_successor step
    exact ⟨ms', led⟩

theorem not_around (led : Leads next (some n) ns none) :
    ¬ TransGen (fun k l => next k = some l) n n := by
  intro around
  -- each step leaves fewer nodes to pass, but from the same node they are as many as before
  have fewer : ∀ m, TransGen (fun k l => next k = some l) n m →
      ∃ ms, Leads next (some m) ms none ∧ ms.length < ns.length := by
    intro m reached
    induction reached with
    | single step => exact led.from_successor step
    | tail _ step ih =>
      obtain ⟨ms, led, less⟩ := ih
      obtain ⟨ms', led, less'⟩ := led.from_successor step
      exact ⟨ms', led, Nat.lt_trans less' less⟩
  obtain ⟨ms, again, less⟩ := fewer n around
  rw [again.unique led] at less
  exact Nat.lt_irrefl _ less

end Leads

/-! ### The way along the qualifiers of a name -/

namespace Graph

def qualifier (g : Graph) (n : NodeRef) : Option NodeRef :=
  (g n).bind fun x => if x.kind.defines .qualifier then x.field .qualifier else none

def IsSelected (g : Graph) (n : NodeRef) : Prop :=
  ∃ x, g n = some x ∧ (x.kind = .selectedName ∨ x.kind = .selectedByAllName)

def IsSimple (g : Graph) (n : NodeRef) : Prop := ∃ x, g n = some x ∧ x.kind = .simpleName

/-- What a node contributes to a dotted name: its identifier, or the word `all`. -/
def Contributes (g : Graph) (n : NodeRef) (part : String) : Prop :=
  ∃ x, g n = some x ∧
    ((x.kind = .simpleName ∨ x.kind = .selectedName) ∧ x.name = some part ∧ IsIdentifier part ∨
      x.kind = .selectedByAllName ∧ part = "all")

/-- The qualifiers lead from `n` over selected names to a simple name, which is the last of
`n :: ms`, and each of these nodes contributes its part. -/
structure NamePath (g : Graph) (n : NodeRef) (ms : List NodeRef) (parts : List String) : Prop where
  leads : Leads g.qualifier (some n) (n :: ms) none
  selected : ∀ m ∈ (n :: ms).dropLast, g.IsSelected m
  simple : ∀ m ∈ (n :: ms).getLast?, g.IsSimple m
  contributed : List.Forall₂ g.Contributes (n :: ms) parts

variable {g : Graph} {n m : NodeRef} {x : Node} {ms : List NodeRef} {parts : List String}

theorem qualifier_eq (found : g n = some x) (defined : x.kind.defines .qualifier = true) :
    g.qualifier n = x.field .qualifier := by
  simp only [qualifier, found, Option.bind_some, if_pos defined]

theorem isSimple_iff (found : g n = some x) : g.IsSimple n ↔ x.kind = .simpleName := by
  simp [IsSimple, found]

theorem isSelected_iff (found : g n = some x) :
    g.IsSelected n ↔ x.kind = .selectedName ∨ x.kind = .selectedByAllName := by
  simp [IsSelected, found]

theorem contributes_iff (found : g n = some x) {part : String} :
    g.Contributes n part ↔
      (x.kind = .simpleName ∨ x.kind = .selectedName) ∧ x.name = some part ∧ IsIdentifier part ∨
        x.kind = .selectedByAllName ∧ part = "all" := by
  simp [Contributes, found]

theorem IsSimple.qualifier_eq_none (simple : g.IsSimple n) : g.qualifier n = none := by
  obtain ⟨x, found, kind⟩ := simple
  simp only [qualifier, found, Option.bind_some, kind]
  rfl

theorem namePath_nil :
    g.NamePath n [] parts ↔ g.IsSimple n ∧ ∃ part, g.Contributes n part ∧ parts = [part] := by
  constructor
  · intro path
    have simple : g.IsSimple n := path.simple n rfl
    cases path.contributed with
    | cons first rest =>
      cases rest
      exact ⟨simple, _, first, rfl⟩
  · rintro ⟨simple, part, contributed, rfl⟩
    refine ⟨.step ?_, by simp, ?_, .cons contributed .nil⟩
    · rw [simple.qualifier_eq_none]
      exact .here none
    · intro m last
      cases last
      exact simple

theorem namePath_cons :
    g.NamePath n (m :: ms) parts ↔ g.IsSelected n ∧ g.qualifier n = some m ∧
      ∃ part rest, g.Contributes n part ∧ g.NamePath m ms rest ∧ parts = part :: rest := by
  constructor
  · rintro ⟨led, selected, simple, contributed⟩
    rw [List.dropLast_cons_cons, List.forall_mem_cons] at selected
    rw [List.getLast?_cons_cons] at simple
    cases led with
    | step led =>
      have held : g.qualifier n = some m := by
        generalize g.qualifier n = held at led
        cases led
        rfl
      cases contributed with
      | cons first rest =>
        refine ⟨selected.1, held, _, _, first, ⟨?_, selected.2, simple, rest⟩, rfl⟩
        rw [held] at led
        exact led
  · rintro ⟨selected, held, part, rest, first, path, rfl⟩
    refine ⟨.step ?_, ?_, ?_, .cons first path.contributed⟩
    · rw [held]
      exact path.leads
    · rw [List.dropLast_cons_cons, List.forall_mem_cons]
      exact ⟨selected, path.selected⟩
    · rw [List.getLast?_cons_cons]
      exact path.simple

theorem NamePath.nodup (path : g.NamePath n ms parts) : (n :: ms).Nodup := path.leads.nodup

theorem NamePath.parts_ne_nil (path : g.NamePath n ms parts) : parts ≠ [] := by
  cases path.contributed
  exact List.cons_ne_nil _ _

end Graph

/-! ### Building a name -/

namespace Builder

variable {α : Type} {b : Builder} {n m : NodeRef} {x : Node} {s : Symbol}
variable {enter : (f : Form) → NodeRef → Except Fault f.Value}

theorem refuse_ne_ok {c : Cause} {v : α} : b.refuse n c ≠ .ok v := by
  intro built
  obtain ⟨_, _, built⟩ := bind_eq_ok built
  cases built

theorem build_name_eq_ok :
    b.build .name n = .ok s ↔
      n ∉ b.path ∧ b.path.length < b.limits.depth ∧ (b.push n).buildOpen .name n = .ok s := by
  rw [build_eq]
  change (if n ∈ b.path then _ else if b.path.length < b.limits.depth then
    (b.push n).buildOpen .name n else _) = Except.ok s ↔ _
  by_cases opened : n ∈ b.path
  · rw [if_pos opened]
    exact iff_of_false refuse_ne_ok fun built => built.1 opened
  rw [if_neg opened]
  by_cases room : b.path.length < b.limits.depth
  · rw [if_pos room]
    exact ⟨fun built => ⟨opened, room, built⟩, fun built => built.2.2⟩
  · rw [if_neg room]
    exact iff_of_false refuse_ne_ok fun built => room built.2.1

theorem carryOut_identifier {k : String → Recipe α} {v : α} :
    b.carryOut n x enter (Recipe.identifier >>= k) = .ok v ↔
      ∃ part, (x.name = some part ∧ IsIdentifier part) ∧ b.carryOut n x enter (k part) = .ok v := by
  simp only [← Attributes.identifier_eq_ok]
  change b.carryOut n x enter ((Recipe.ofExcept x.identifier).bind k) = .ok v ↔ _
  cases read : x.identifier with
  | error c => exact iff_of_false nofun (by simp)
  | ok part => simp [Recipe.ofExcept, Recipe.bind]

theorem carryOut_part {field : Field} {form : Form} {k : form.Value → Recipe α} {v : α}
    (defined : x.kind.defines field = true) :
    b.carryOut n x enter (Recipe.part field form >>= k) = .ok v ↔
      ∃ m w, x.field field = some m ∧ enter form m = .ok w ∧
        b.carryOut n x enter (k w) = .ok v := by
  change (x.edge n field >>= fun m => enter form m >>= fun w => b.carryOut n x enter (k w)) =
    .ok v ↔ _
  constructor
  · intro built
    obtain ⟨m, held, built⟩ := bind_eq_ok built
    obtain ⟨w, entered, built⟩ := bind_eq_ok built
    exact ⟨m, w, Node.edge_eq_ok held, entered, built⟩
  · rintro ⟨m, w, held, entered, built⟩
    have edge : x.edge n field = .ok m := by
      rw [Node.edge, Node.edge?_eq defined, held]
      rfl
    rw [edge]
    change (enter form m >>= fun w => b.carryOut n x enter (k w)) = .ok v
    rw [entered]
    exact built

theorem buildOpen_of_found (found : b.graph n = some x) (f : Form) :
    b.buildOpen f n = b.carryOut n x b.build (Grammar.recipe f) := by
  rw [buildOpen, node_eq_ok.mpr found]
  rfl

theorem buildOpen_of_missing (missing : b.graph n = none) (f : Form) :
    b.buildOpen f n = .error (.absent n b.path) := by
  rw [buildOpen, node, missing]
  rfl

theorem carryOut_attributes {k : Attributes → Recipe α} :
    b.carryOut n x enter (Recipe.attributes >>= k) = b.carryOut n x enter (k x.toAttributes) := rfl

theorem carryOut_simpleName (kind : x.kind = .simpleName) :
    b.carryOut n x enter Grammar.name = .ok s ↔ x.name = some s.name ∧ IsIdentifier s.name := by
  rw [Grammar.name, carryOut_attributes]
  simp only [kind, carryOut_identifier]
  constructor
  · rintro ⟨part, named, built⟩
    cases built
    exact named
  · intro named
    exact ⟨s.name, named, rfl⟩

theorem carryOut_selectedName (kind : x.kind = .selectedName) :
    b.carryOut n x enter Grammar.name = .ok s ↔ ∃ m q part, x.field .qualifier = some m ∧
      enter .name m = .ok q ∧ (x.name = some part ∧ IsIdentifier part) ∧
        s.name = q.name ++ "." ++ part := by
  have defined : x.kind.defines .qualifier = true := by
    rw [kind]
    rfl
  rw [Grammar.name, carryOut_attributes]
  simp only [kind, carryOut_part defined, carryOut_identifier]
  constructor
  · rintro ⟨m, q, held, entered, part, named, built⟩
    cases built
    exact ⟨m, q, part, held, entered, named, rfl⟩
  · rintro ⟨m, q, part, held, entered, named, spelled⟩
    exact ⟨m, q, held, entered, part, named, congrArg (Except.ok ∘ Symbol.mk) spelled.symm⟩

theorem carryOut_selectedByAllName (kind : x.kind = .selectedByAllName) :
    b.carryOut n x enter Grammar.name = .ok s ↔ ∃ m q, x.field .qualifier = some m ∧
      enter .name m = .ok q ∧ s.name = q.name ++ "." ++ "all" := by
  have defined : x.kind.defines .qualifier = true := by
    rw [kind]
    rfl
  rw [Grammar.name, carryOut_attributes]
  simp only [kind, carryOut_part defined, String.append_assoc]
  constructor
  · rintro ⟨m, q, held, entered, built⟩
    cases built
    exact ⟨m, q, held, entered, rfl⟩
  · rintro ⟨m, q, held, entered, spelled⟩
    exact ⟨m, q, held, entered, congrArg (Except.ok ∘ Symbol.mk) spelled.symm⟩

theorem carryOut_noName
    (kind : x.kind ∉ [.simpleName, .selectedName, .selectedByAllName]) :
    b.carryOut n x enter Grammar.name ≠ .ok s := by
  rw [Grammar.name, carryOut_attributes]
  split
  all_goals simp_all [carryOut, Recipe.violate]

theorem buildOpen_name_eq_ok :
    b.buildOpen .name n = .ok s ↔
      (b.graph.IsSimple n ∧ b.graph.Contributes n s.name) ∨
      (b.graph.IsSelected n ∧ ∃ m q part, b.graph.qualifier n = some m ∧
        b.build .name m = .ok q ∧ b.graph.Contributes n part ∧ s.name = q.name ++ "." ++ part) := by
  cases found : b.graph n with
  | none =>
    rw [buildOpen_of_missing found]
    simp [Graph.IsSimple, Graph.IsSelected, found]
  | some x =>
    rw [buildOpen_of_found found, Graph.isSimple_iff found, Graph.isSelected_iff found]
    simp only [Graph.contributes_iff found]
    change b.carryOut n x b.build Grammar.name = .ok s ↔ _
    by_cases name : x.kind ∈ [.simpleName, .selectedName, .selectedByAllName]
    · simp only [List.mem_cons, List.not_mem_nil, or_false] at name
      rcases name with kind | kind | kind
      · rw [carryOut_simpleName kind]
        simp [kind]
      · rw [carryOut_selectedName kind, Graph.qualifier_eq found (by rw [kind]; rfl)]
        simp [kind]
      · rw [carryOut_selectedByAllName kind, Graph.qualifier_eq found (by rw [kind]; rfl)]
        simp [kind]
    · refine iff_of_false (carryOut_noName name) ?_
      simp_all

theorem intercalate_reverse_cons {part : String} {rest : List String} (more : rest ≠ []) :
    ".".intercalate (part :: rest).reverse = ".".intercalate rest.reverse ++ "." ++ part := by
  rw [List.reverse_cons, String.intercalate_append_of_ne_nil (by simpa using more) (by simp)]
  simp

theorem namePath_of_buildOpen (built : b.buildOpen .name n = .ok s) :
    ∃ ms parts, b.graph.NamePath n ms parts ∧ (∀ m ∈ ms, m ∉ b.path) ∧
      (ms = [] ∨ b.path.length + ms.length ≤ b.limits.depth) ∧
        s.name = ".".intercalate parts.reverse := by
  -- every qualifier that is entered takes one of the room
  induction left : b.room using Nat.strongRecOn generalizing b n s with
  | ind room ih =>
    rcases buildOpen_name_eq_ok.mp built with
      ⟨simple, contributed⟩ | ⟨selected, m, q, part, held, entered, contributed, spelled⟩
    · exact ⟨[], [s.name], Graph.namePath_nil.mpr ⟨simple, _, contributed, rfl⟩, by simp⟩
    obtain ⟨closed, free, inner⟩ := build_name_eq_ok.mp entered
    have less : (b.push m).room < room := by
      simp only [Builder.room, push, List.length_cons] at left ⊢
      omega
    obtain ⟨ms, parts, path, apart, deep, spelled'⟩ := ih _ less inner rfl
    refine ⟨m :: ms, part :: parts,
      Graph.namePath_cons.mpr ⟨selected, held, part, parts, contributed, path, rfl⟩, ?_, ?_, ?_⟩
    · refine List.forall_mem_cons.mpr ⟨closed, fun k member => ?_⟩
      exact fun opened => apart k member (List.mem_cons_of_mem m opened)
    · right
      simp only [push, List.length_cons] at deep ⊢
      rcases deep with rfl | deep
      · exact free
      · omega
    · rw [intercalate_reverse_cons path.parts_ne_nil, ← spelled', spelled]

theorem buildOpen_of_namePath {ms : List NodeRef} {parts : List String}
    (path : b.graph.NamePath n ms parts) (apart : ∀ m ∈ ms, m ∉ b.path)
    (deep : ms = [] ∨ b.path.length + ms.length ≤ b.limits.depth) :
    b.buildOpen .name n = .ok ⟨".".intercalate parts.reverse⟩ := by
  induction ms generalizing b n parts with
  | nil =>
    obtain ⟨simple, part, contributed, rfl⟩ := Graph.namePath_nil.mp path
    refine buildOpen_name_eq_ok.mpr (.inl ⟨simple, ?_⟩)
    simpa using contributed
  | cons m ms ih =>
    obtain ⟨selected, held, part, rest, contributed, onward, rfl⟩ := Graph.namePath_cons.mp path
    obtain ⟨closed, apart⟩ := List.forall_mem_cons.mp apart
    obtain ⟨once, _⟩ := List.nodup_cons.mp onward.nodup
    have room : b.path.length + (ms.length + 1) ≤ b.limits.depth := by simpa using deep
    have inner := ih (b := b.push m) onward ?_ ?_
    · rw [intercalate_reverse_cons onward.parts_ne_nil]
      refine buildOpen_name_eq_ok.mpr (.inr ⟨selected, m, _, part, held, ?_, contributed, rfl⟩)
      exact build_name_eq_ok.mpr ⟨closed, by omega, inner⟩
    · -- the nodes of the path are distinct, since it comes to an end
      intro k member opened
      rcases List.mem_cons.mp opened with rfl | opened
      · exact once member
      · exact apart k member opened
    · right
      simp only [push, List.length_cons]
      omega

/-- A name is built exactly along a path of qualifiers of which no node is open, if there is room
for all of them. -/
theorem buildOpen_name_iff :
    b.buildOpen .name n = .ok s ↔ ∃ ms parts, b.graph.NamePath n ms parts ∧
      (∀ m ∈ ms, m ∉ b.path) ∧ (ms = [] ∨ b.path.length + ms.length ≤ b.limits.depth) ∧
        s.name = ".".intercalate parts.reverse := by
  refine ⟨namePath_of_buildOpen, ?_⟩
  rintro ⟨ms, parts, path, apart, deep, spelled⟩
  rw [buildOpen_of_namePath path apart deep, ← spelled]

end Builder

/-- A name is flattened exactly: in whatever context, it is built if and only if its qualifiers lead
over selected names to a simple name, all that is to be contributed is there, none of the nodes that
have to be entered is open, and there is room for them. The symbol is then what the nodes
contribute, from the last to the first, with points between. In every other case it fails, as it
does wherever qualifiers lead around. -/
theorem names_flatten_exactly (s : Setting) (stack : List NodeRef) (n : NodeRef) :
    (∀ symbol : Symbol, ((s.buildOpen .name n).run.run stack).1 = .ok symbol ↔
      ∃ ms parts, s.graph.NamePath n ms parts ∧ (∀ m ∈ ms, m ∉ stack) ∧
        (ms = [] ∨ stack.length + ms.length ≤ s.limits.depth) ∧
          symbol.name = ".".intercalate parts.reverse) ∧
    ((¬ ∃ ms parts, s.graph.NamePath n ms parts ∧ (∀ m ∈ ms, m ∉ stack) ∧
        (ms = [] ∨ stack.length + ms.length ≤ s.limits.depth)) →
      ∃ e, ((s.buildOpen .name n).run.run stack).1 = .error e) ∧
    ∀ m, ReflTransGen (fun k l => s.graph.qualifier k = some l) n m →
      TransGen (fun k l => s.graph.qualifier k = some l) m m →
        ∃ e, ((s.buildOpen .name n).run.run stack).1 = .error e := by
  have answer : ((s.buildOpen .name n).run.run stack).1 = (s.builder stack).buildOpen .name n :=
    congrArg Prod.fst (Setting.buildOpen_comes .name)
  have exactly := fun symbol =>
    Builder.buildOpen_name_iff (b := s.builder stack) (n := n) (s := symbol)
  have fails : (¬ ∃ ms parts, s.graph.NamePath n ms parts ∧ (∀ m ∈ ms, m ∉ stack) ∧
      (ms = [] ∨ stack.length + ms.length ≤ s.limits.depth)) →
      ∃ e, (s.builder stack).buildOpen .name n = .error e := by
    intro none
    cases built : (s.builder stack).buildOpen .name n with
    | error e => exact ⟨e, rfl⟩
    | ok symbol =>
      obtain ⟨ms, parts, path, apart, deep, _⟩ := (exactly symbol).mp built
      exact absurd ⟨ms, parts, path, apart, deep⟩ none
  rw [answer]
  refine ⟨exactly, fails, fun m reached around => fails ?_⟩
  rintro ⟨ms, parts, path, _⟩
  obtain ⟨ms', led⟩ := path.leads.from_reached reached
  exact led.not_around around

def qualifiedNames : Setting where
  limits := ⟨0, 3⟩
  graph
    | ⟨0⟩ => some { kind := .selectedByAllName,
                    field := fun f => if f = .qualifier then some ⟨1⟩ else none }
    | ⟨1⟩ => some { kind := .selectedName, name := some "std",
                    field := fun f => if f = .qualifier then some ⟨2⟩ else none }
    | ⟨2⟩ => some { kind := .simpleName, name := some "ieee" }
    | ⟨3⟩ => some { kind := .selectedName, name := some "x",
                    field := fun f => if f = .qualifier then some ⟨4⟩ else none }
    | ⟨4⟩ => some { kind := .selectedName, name := some "y",
                    field := fun f => if f = .qualifier then some ⟨3⟩ else none }
    | _ => none

theorem qualifiedNames_path :
    qualifiedNames.graph.NamePath ⟨0⟩ [⟨1⟩, ⟨2⟩] ["all", "std", "ieee"] := by
  refine ⟨.step (.step (.step (.here none))), ?_, ?_, .cons ?_ (.cons ?_ (.cons ?_ .nil))⟩
  · simp [Graph.IsSelected, qualifiedNames]
  · simp [Graph.IsSimple, qualifiedNames]
  · exact ⟨_, rfl, .inr ⟨rfl, rfl⟩⟩
  · exact ⟨_, rfl, .inl ⟨.inr rfl, rfl, by decide +kernel⟩⟩
  · exact ⟨_, rfl, .inl ⟨.inl rfl, rfl, by decide +kernel⟩⟩

theorem qualifiedNames_flatten :
    qualifiedNames.graph.NamePath ⟨0⟩ [⟨1⟩, ⟨2⟩] ["all", "std", "ieee"] ∧
      ((qualifiedNames.buildOpen .name ⟨0⟩).run.run [⟨0⟩]).1 = .ok ⟨"ieee.std.all"⟩ ∧
      ∃ e, ((qualifiedNames.buildOpen .name ⟨3⟩).run.run []).1 = .error e := by
  refine ⟨qualifiedNames_path, ?_, ?_⟩
  · refine ((names_flatten_exactly qualifiedNames [⟨0⟩] ⟨0⟩).1 _).mpr ?_
    exact ⟨_, _, qualifiedNames_path, by decide, .inr (by decide), by decide +kernel⟩
  · refine (names_flatten_exactly qualifiedNames [] ⟨3⟩).2.2 ⟨4⟩ (.single rfl) ?_
    exact .head (b := ⟨3⟩) rfl (.single rfl)

/-! ### Subtype indications -/

namespace Builder

variable {b : Builder} {n m : NodeRef} {x : Node} {s : Symbol}

theorem buildOpen_subtype_name (found : b.graph n = some x)
    (kind : x.kind = .simpleName ∨ x.kind = .selectedName) :
    b.buildOpen .subtype n = b.buildOpen .name n := by
  rw [buildOpen_of_found found, buildOpen_of_found found]
  change b.carryOut n x b.build Grammar.subtype = b.carryOut n x b.build Grammar.name
  rw [Grammar.subtype, carryOut_attributes]
  rcases kind with kind | kind
  all_goals simp only [kind]

theorem buildOpen_subtype_all (found : b.graph n = some x) (kind : x.kind = .selectedByAllName) :
    b.buildOpen .subtype n ≠ .ok s := by
  rw [buildOpen_of_found found]
  change b.carryOut n x b.build Grammar.subtype ≠ .ok s
  rw [Grammar.subtype, carryOut_attributes]
  simp only [kind]
  exact nofun

theorem buildOpen_subtype_mark (found : b.graph n = some x)
    (kind : x.kind = .subtypeDefinition ∨ x.kind = .arraySubtypeDefinition)
    (mark : x.field .subtypeTypeMark = some m) :
    b.buildOpen .subtype n = .ok s ↔ b.build .name m = .ok s := by
  have defined : x.kind.defines .subtypeTypeMark = true := by
    rcases kind with kind | kind
    all_goals
      rw [kind]
      rfl
  have marked : b.carryOut n x b.build Grammar.subtype =
      b.carryOut n x b.build (Recipe.part .subtypeTypeMark .name >>= pure) := by
    rw [Grammar.subtype, carryOut_attributes, bind_pure]
    rcases kind with kind | kind
    all_goals simp only [kind]
  rw [buildOpen_of_found found]
  change b.carryOut n x b.build Grammar.subtype = .ok s ↔ _
  rw [marked, carryOut_part defined, mark]
  constructor
  · rintro ⟨_, w, held, entered, built⟩
    cases held
    cases built
    exact entered
  · intro entered
    exact ⟨m, s, rfl, entered, rfl⟩

/-- Entering a name makes no difference to it where all of its path fits. -/
theorem build_name_iff_buildOpen (closed : n ∉ b.path)
    (deep : ∀ ms, Leads b.graph.qualifier (some n) ms none →
      b.path.length + ms.length ≤ b.limits.depth) :
    b.build .name n = .ok s ↔ b.buildOpen .name n = .ok s := by
  rw [build_name_eq_ok]
  constructor
  · rintro ⟨_, _, built⟩
    obtain ⟨ms, parts, path, apart, _, spelled⟩ := buildOpen_name_iff.mp built
    have room := deep _ path.leads
    rw [List.length_cons] at room
    refine buildOpen_name_iff.mpr ⟨ms, parts, path, ?_, .inr (by omega), spelled⟩
    exact fun k member opened => apart k member (List.mem_cons_of_mem n opened)
  · intro built
    obtain ⟨ms, parts, path, apart, _, spelled⟩ := buildOpen_name_iff.mp built
    have room := deep _ path.leads
    rw [List.length_cons] at room
    have once := (List.nodup_cons.mp path.nodup).1
    refine ⟨closed, by omega, buildOpen_name_iff.mpr ⟨ms, parts, path, ?_, .inr ?_, spelled⟩⟩
    · intro k member opened
      rcases List.mem_cons.mp opened with rfl | opened
      · exact once member
      · exact apart k member opened
    · simp only [push, List.length_cons]
      omega

end Builder

/-- A constraint is dropped: a constrained subtype is the name that is its type mark. The name by
itself is the same subtype indication, unless it ends in `all` and can be built; it is then none,
although it can be constrained. -/
theorem constraints_are_dropped_unless_all (s : Setting) (stack : List NodeRef) {w n : NodeRef}
    {x y : Node} (constrained : s.graph w = some x)
    (constraint : x.kind = .subtypeDefinition ∨ x.kind = .arraySubtypeDefinition)
    (mark : x.field .subtypeTypeMark = some n) (named : s.graph n = some y)
    (name : y.kind ∈ [.simpleName, .selectedName, .selectedByAllName]) (closed : n ∉ stack)
    (deep : ∀ ms, Leads s.graph.qualifier (some n) ms none →
      stack.length + ms.length ≤ s.limits.depth) :
    (∀ symbol, ((s.buildOpen .subtype w).run.run stack).1 = .ok symbol ↔
      ((s.buildOpen .name n).run.run stack).1 = .ok symbol) ∧
    ((∀ symbol, ((s.buildOpen .subtype w).run.run stack).1 = .ok symbol ↔
        ((s.buildOpen .subtype n).run.run stack).1 = .ok symbol) ↔
      ¬ (y.kind = .selectedByAllName ∧
        ∃ symbol, ((s.buildOpen .name n).run.run stack).1 = .ok symbol)) := by
  have answer : ∀ f m, ((s.buildOpen f m).run.run stack).1 = (s.builder stack).buildOpen f m :=
    fun f m => congrArg Prod.fst (Setting.buildOpen_comes f)
  simp only [answer]
  have dropped : ∀ symbol, (s.builder stack).buildOpen .subtype w = .ok symbol ↔
      (s.builder stack).buildOpen .name n = .ok symbol := fun symbol =>
    (Builder.buildOpen_subtype_mark constrained constraint mark).trans
      (Builder.build_name_iff_buildOpen closed deep)
  refine ⟨dropped, ?_⟩
  simp only [dropped]
  by_cases all : y.kind = .selectedByAllName
  · have never : ∀ symbol, (s.builder stack).buildOpen .subtype n ≠ .ok symbol :=
      fun symbol => Builder.buildOpen_subtype_all named all
    simp [all, never]
  · have bare : y.kind = .simpleName ∨ y.kind = .selectedName := by simpa [all] using name
    simp [all, Builder.buildOpen_subtype_name (b := s.builder stack) named bare]

def constrainedNames : Setting where
  graph
    | ⟨0⟩ => some { kind := .simpleName, name := some "x" }
    | ⟨1⟩ => some { kind := .selectedByAllName,
                    field := fun f => if f = .qualifier then some ⟨0⟩ else none }
    | ⟨2⟩ => some { kind := .subtypeDefinition,
                    field := fun f => if f = .subtypeTypeMark then some ⟨1⟩ else none }
    | ⟨3⟩ => some { kind := .arraySubtypeDefinition,
                    field := fun f => if f = .subtypeTypeMark then some ⟨0⟩ else none }
    | _ => none

theorem constrainedNames_simple :
    ((constrainedNames.buildOpen .subtype ⟨0⟩).run.run []).1 = .ok ⟨"x"⟩ ∧
      ((constrainedNames.buildOpen .subtype ⟨3⟩).run.run []).1 = .ok ⟨"x"⟩ := by
  have deep : ∀ ms, Leads constrainedNames.graph.qualifier (some ⟨0⟩) ms none →
      0 + ms.length ≤ constrainedNames.limits.depth := by
    intro ms led
    rw [led.unique (.step (.here none))]
    decide
  have exactly := (constraints_are_dropped_unless_all constrainedNames [] (w := ⟨3⟩) (n := ⟨0⟩) rfl
    (.inr rfl) rfl rfl (by decide) (by decide) deep).2
  exact ⟨rfl, (exactly.mpr nofun ⟨"x"⟩).mpr rfl⟩

/-- `x.all` can be constrained, but is no subtype indication by itself. -/
theorem constrainedNames_all :
    ((constrainedNames.buildOpen .subtype ⟨2⟩).run.run []).1 = .ok ⟨"x.all"⟩ ∧
      ((constrainedNames.buildOpen .subtype ⟨1⟩).run.run []).1 =
        .error (.issue ⟨.contractViolation (.unexpectedKind "a subtype indication"), ⟨1⟩,
          .selectedByAllName, none⟩) := ⟨rfl, rfl⟩

end VhdlDesign
