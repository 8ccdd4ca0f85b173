import VhdlDesign.Proofs.Drawing
import VhdlDesign.Proofs.Ending

/-!
Every design can be built.

A design is planted in a table from the inside out: first what the edges of its node lead to, then
the node. Nodes are only ever added, so that what a part of the table spells out it still spells out
when the table has grown; and since the edges of a node lead to older nodes, no node is met inside
itself.
-/
namespace VhdlDesign

/-! ### Tables that grow -/

namespace Arena

/-- The second table is the first with nodes added at the end, one after the other, each with edges
to nodes that are there already. -/
inductive Grows (a : Arena) : Arena → Prop
  | refl : Grows a a
  | add {b : Arena} (before : Grows a b) (x : Node) (next : ∀ m ∈ x.next, b.Has m)
      (field : ∀ f, ∀ m ∈ x.field f, b.Has m) : Grows a (b.add x).1

theorem size_add (a : Arena) (x : Node) : (a.add x).1.size = a.size + 1 := by
  simp [add, size]

theorem graph_add_self (a : Arena) (x : Node) : (a.add x).1.graph (a.add x).2 = some x := by
  rw [graph_add]
  exact if_pos rfl

namespace Grows

variable {a b c : Arena} {n : NodeRef} {x : Node}

theorem trans (first : a.Grows b) (second : b.Grows c) : a.Grows c := by
  induction second with
  | refl => exact first
  | add _ x next field ih => exact .add ih x next field

theorem graph (grown : a.Grows b) (found : a.graph n = some x) : b.graph n = some x := by
  induction grown with
  | refl => exact found
  | @add b _ y _ _ ih =>
    have old : n.index ≠ b.size := by
      have less := has_iff_index.mp (has_of_graph ih)
      omega
    rw [graph_add, if_neg old]
    exact ih

theorem has (grown : a.Grows b) (held : a.Has n) : b.Has n := by
  obtain ⟨x, found⟩ := has_iff_graph.mp held
  exact has_of_graph (grown.graph found)

end Grows

/-! ### What a table spells out -/

/-- The node becomes the value, in this table and in every one that it grows into, as long as the
open nodes are younger than it. -/
def Spells (a : Arena) (f : Form) (n : NodeRef) (v : f.Value) : Prop :=
  a.Has n ∧ ∀ b, a.Grows b → ∀ (limits : Limits) room path, b.size ≤ limits.chainLength →
    n.index < room → (∀ m ∈ path, n.index < m.index) →
    Builder.enter room ⟨b.graph, limits, path⟩ f n = .ok v

def Labels (a : Arena) (read : Attributes → Except Cause String) (n : NodeRef) (s : String) :
    Prop := ∃ x, a.graph n = some x ∧ read x.toAttributes = .ok s

/-- From `head` on, the chain of the table has one node for each value, and they are related. -/
def Row {β : Type} (a : Arena) (T : NodeRef → β → Prop) : Option NodeRef → List β → Prop
  | head, [] => head = none
  | head, v :: vs => ∃ n x, head = some n ∧ a.graph n = some x ∧ T n v ∧ Row a T x.next vs

section

variable {a b : Arena} {f : Form} {n : NodeRef} {β : Type} {T T' : NodeRef → β → Prop}
variable {head : Option NodeRef} {vs : List β}

theorem Spells.grow {v : f.Value} (spelled : a.Spells f n v) (grown : a.Grows b) :
    b.Spells f n v :=
  ⟨grown.has spelled.1, fun c later => spelled.2 c (grown.trans later)⟩

theorem Labels.grow {read : Attributes → Except Cause String} {s : String}
    (labelled : a.Labels read n s) (grown : a.Grows b) : b.Labels read n s := by
  obtain ⟨x, found, given⟩ := labelled
  exact ⟨x, grown.graph found, given⟩

theorem Row.grow (row : a.Row T head vs) (grown : a.Grows b)
    (kept : ∀ n v, T n v → T' n v) : b.Row T' head vs := by
  induction vs generalizing head with
  | nil => exact row
  | cons v vs ih =>
    obtain ⟨n, x, first, found, related, rest⟩ := row
    exact ⟨n, x, first, grown.graph found, kept n v related, ih rest⟩

theorem Row.leads (row : a.Row T head vs) :
    ∃ ms, Leads a.graph.next head ms none ∧ List.Forall₂ T ms vs ∧ ∀ m ∈ ms, a.Has m := by
  induction vs generalizing head with
  | nil =>
    obtain rfl : head = none := row
    exact ⟨[], .here none, .nil, by simp⟩
  | cons v vs ih =>
    obtain ⟨n, x, rfl, found, related, rest⟩ := row
    obtain ⟨ms, led, pairs, present⟩ := ih rest
    have onward : a.graph.next n = x.next := by simp [Graph.next, found]
    refine ⟨n :: ms, .step ?_, .cons related pairs, ?_⟩
    · rw [onward]
      exact led
    · exact List.forall_mem_cons.mpr ⟨has_of_graph found, present⟩

theorem Row.elements (row : a.Row T head vs) {limits : Limits} (cover : a.size ≤ limits.chainLength)
    (path : List NodeRef) :
    ∃ ms, Builder.elements ⟨a.graph, limits, path⟩ head = .ok ms ∧ List.Forall₂ T ms vs := by
  obtain ⟨ms, led, pairs, present⟩ := row.leads
  have short : ms.length ≤ limits.chainLength :=
    Nat.le_trans (length_le_size led.nodup present) cover
  refine ⟨ms, Builder.elements_of_leads (b := ⟨a.graph, limits, path⟩) led short ?_, pairs⟩
  exact fun m member => has_iff_graph.mp (present m member)

end

end Arena

def Reading.HeldBy (a : Arena) (held : Option NodeRef) : Reading → Prop
  | ⟨.touch _, _⟩ => True
  | ⟨.child _ form, v⟩ => ∃ m, held = some m ∧ a.Spells form m v
  | ⟨.optional _ form, v⟩ =>
    (held = none ∧ v = none) ∨ ∃ m w, held = some m ∧ v = some w ∧ a.Spells form m w
  | ⟨.chain _ form, vs⟩ => a.Row (a.Spells form) held vs
  | ⟨.label _ read, s⟩ => ∃ m, held = some m ∧ a.Labels read m s
  | ⟨.labels _ read, ss⟩ => a.Row (a.Labels read) held ss

theorem Reading.HeldBy.grow {a b : Arena} {held : Option NodeRef} {r : Reading}
    (answers : r.HeldBy a held) (grown : a.Grows b) : r.HeldBy b held := by
  obtain ⟨q, w⟩ := r
  cases q with
  | touch field => trivial
  | child field form =>
    obtain ⟨m, only, spelled⟩ := answers
    exact ⟨m, only, spelled.grow grown⟩
  | optional field form =>
    rcases answers with none | ⟨m, v, only, same, spelled⟩
    · exact .inl none
    · exact .inr ⟨m, v, only, same, spelled.grow grown⟩
  | chain field form => exact Arena.Row.grow answers grown fun _ _ spelled => spelled.grow grown
  | label field read =>
    obtain ⟨m, only, labelled⟩ := answers
    exact ⟨m, only, labelled.grow grown⟩
  | labels field read => exact Arena.Row.grow answers grown fun _ _ labelled => labelled.grow grown

/-! ### A node spells out what it was drawn for -/

namespace Builder

theorem carryOut_of_gives {α : Type} {b : Builder} {n : NodeRef} {x : Node}
    {enter : (f : Form) → NodeRef → Except Fault f.Value} {r : Recipe α} {rs : List Reading} {v : α}
    {C : Cause → Prop} {Q : Question → Prop} (given : r.Gives x.toAttributes rs v)
    (kept : r.Keeps x.toAttributes C Q)
    (touched : ∀ field, Q (.touch field) → b.answer n x enter (.touch field) = .ok ())
    (answers : ∀ r ∈ rs, b.answer n x enter r.question = .ok r.answer) :
    b.carryOut n x enter r = .ok v := by
  induction r using Recipe.askInduction generalizing rs with
  | done value =>
    obtain ⟨_, rfl⟩ := given
    rfl
  | refuse cause => exact given.elim
  | look rest ih => exact ih x.toAttributes given kept answers
  | ask q rest ih =>
    obtain ⟨fits, kept⟩ := (Recipe.keeps_ask q rest).mp kept
    rw [carryOut_ask]
    rcases Recipe.gives_ask given with ⟨field, rfl, later⟩ | ⟨w, taken, rfl, later⟩
    · rw [touched field fits]
      exact ih () (later ()) (kept ()) answers
    · obtain ⟨first, answers⟩ := List.forall_mem_cons.mp answers
      rw [first]
      exact ih w later (kept w) answers

theorem bind_of_ok {α β : Type} {r : Except Fault α} {k : α → Except Fault β} {v : α}
    (made : r = .ok v) : r >>= k = k v := by
  rw [made]
  rfl

theorem label_of_labels {a : Arena} {limits : Limits} {path : List NodeRef}
    {read : Attributes → Except Cause String} {m : NodeRef} {s : String}
    (labelled : a.Labels read m s) : label ⟨a.graph, limits, path⟩ read m = .ok s := by
  obtain ⟨x, found, given⟩ := labelled
  refine (bind_of_ok (node_eq_ok.mpr found)).trans ?_
  rw [given]

theorem answer_of_held {a b : Arena} {limits : Limits} {path : List NodeRef} {n : NodeRef}
    {x : Node} {enter : (f : Form) → NodeRef → Except Fault f.Value} {r : Reading}
    (grown : a.Grows b) (cover : b.size ≤ limits.chainLength)
    (entered : ∀ f m v, a.Spells f m v → enter f m = .ok v)
    (defined : x.kind.defines r.question.field = true)
    (held : r.HeldBy a (x.field r.question.field)) :
    answer ⟨b.graph, limits, path⟩ n x enter r.question = .ok r.answer := by
  have given := Node.edge?_eq defined n
  have edge : ∀ m, x.field r.question.field = some m → x.edge n r.question.field = .ok m := by
    intro m only
    refine (bind_of_ok given).trans ?_
    rw [only]
  obtain ⟨q, w⟩ := r
  cases q with
  | touch field => exact bind_of_ok given
  | child field form =>
    obtain ⟨m, only, spelled⟩ := held
    exact (bind_of_ok (edge m only)).trans (entered form m w spelled)
  | optional field form =>
    refine (bind_of_ok given).trans ?_
    rcases held with ⟨none, rfl⟩ | ⟨m, v, only, rfl, spelled⟩
    · rw [none]
    · rw [only]
      exact congrArg (some <$> ·) (entered form m v spelled)
  | chain field form =>
    have row : b.Row (a.Spells form) (x.field field) w :=
      Arena.Row.grow held grown fun _ _ same => same
    obtain ⟨ms, gathered, pairs⟩ := row.elements cover path
    refine (bind_of_ok given).trans ((bind_of_ok gathered).trans (mapM_eq_ok_iff.mpr ?_))
    exact pairs.imp fun m v spelled => entered form m v spelled
  | label field read =>
    obtain ⟨m, only, labelled⟩ := held
    exact (bind_of_ok (edge m only)).trans (label_of_labels (labelled.grow grown))
  | labels field read =>
    have row : b.Row (b.Labels read) (x.field field) w :=
      Arena.Row.grow held grown fun _ _ labelled => labelled.grow grown
    obtain ⟨ms, gathered, pairs⟩ := row.elements cover path
    refine (bind_of_ok given).trans ((bind_of_ok gathered).trans (mapM_eq_ok_iff.mpr ?_))
    exact pairs.imp fun m s labelled => label_of_labels labelled

end Builder

open Recipe in
/-- A form that looks at the kind of a node before it is entered takes every node that it can make
something of. -/
theorem Grammar.takes_of_gives {f : Form} {a : Attributes} {rs : List Reading} {v : f.Value}
    (given : (recipe f).Gives a rs v) : ∀ takes, f.screen = some takes → takes a.kind = true := by
  intro takes screened
  cases f with
  | libraryUnit =>
    cases screened
    have given := gives_look.mp given
    split at given
    next built => simp [Form.takesUnit, built]
    · exact given.elim
  | contextItem =>
    cases screened
    have given := gives_look.mp given
    split at given
    next built => simp [Form.takesContextItem, built]
    · exact given.elim
  | declaration =>
    cases screened
    have given := gives_look.mp given
    split at given
    next built => simp [Form.takesDeclaration, built]
    next built => simp [Form.takesDeclaration, built]
    · exact given.elim
  | expression =>
    cases screened
    have given := gives_look.mp given
    split at given
    next built => simp [Form.takesExpression, built]
    · exact given.elim
  | anyNode =>
    cases screened
    have given := gives_look.mp given
    split at given
    case h_7 => exact given.elim
    all_goals simp_all
  | _ => cases screened

namespace Arena

/-- A node that is added with edges to all that its form will ask for becomes the value that it was
drawn for. -/
theorem spells_add {a : Arena} {x : Node} {f : Form} {v : f.Value} {rs : List Reading}
    (given : (Grammar.recipe f).Gives x.toAttributes rs v)
    (held : ∀ r ∈ rs, r.HeldBy a (x.field r.question.field))
    (grown : a.Grows (a.add x).1) : (a.add x).1.Spells f (a.add x).2 v := by
  have here := a.graph_add_self x
  refine ⟨has_of_graph here, fun b later limits room path cover deep younger => ?_⟩
  have found : b.graph (a.add x).2 = some x := later.graph here
  obtain ⟨room, rfl⟩ : ∃ k, room = k + 1 := ⟨room - 1, by omega⟩
  have fresh : (a.add x).2 ∉ path := by
    intro member
    exact Nat.lt_irrefl _ (younger _ member)
  have screened : Builder.screen ⟨b.graph, limits, path⟩ f (a.add x).2 = .ok () := by
    unfold Builder.screen
    split
    · rfl
    next takes screen =>
      refine (Builder.bind_of_ok (Builder.node_eq_ok.mpr found)).trans ?_
      rw [if_pos (Grammar.takes_of_gives given takes screen)]
  have kept := (Grammar.recipe_puts f x.toAttributes).keeps
  unfold Builder.enter
  refine (Builder.bind_of_ok screened).trans ?_
  rw [if_neg fresh]
  refine (Builder.bind_of_ok (Builder.node_eq_ok.mpr found)).trans ?_
  -- everything that the node leads to is older than it and so than every open node
  have entered : ∀ f m v, a.Spells f m v →
      Builder.enter room ⟨b.graph, limits, (a.add x).2 :: path⟩ f m = .ok v := by
    intro f m v spelled
    have older : m.index < a.size := has_iff_index.mp spelled.1
    refine spelled.2 b (grown.trans later) limits room _ cover ?_ ?_
    · change a.size < room + 1 at deep
      omega
    · refine List.forall_mem_cons.mpr ⟨older, fun k member => ?_⟩
      exact Nat.lt_trans older (younger k member)
  refine Builder.carryOut_of_gives given kept ?_ ?_
  · intro field asked
    exact Builder.bind_of_ok (Node.edge?_eq (x.kind.questions_defined _ asked) _)
  · intro r member
    have defined := x.kind.questions_defined _ (given.asked kept r member)
    exact Builder.answer_of_held (grown.trans later) cover entered defined (held r member)

/-! ### Planting -/

/-- In every table, before any of its nodes, a node can be planted of which `T` holds, and no more
than `cost` nodes are needed. -/
def Plantable (T : Arena → NodeRef → Prop) (cost : Nat) : Prop :=
  ∀ (a : Arena) (next : Option NodeRef), (∀ m ∈ next, a.Has m) →
    ∃ b n x, a.Grows b ∧ b.size ≤ a.size + cost ∧ b.graph n = some x ∧ x.next = next ∧ T b n

theorem plant_row {β : Type} {T : Arena → NodeRef → β → Prop} {piece : β → Piece}
    (stable : ∀ {a b : Arena} {n v}, T a n v → a.Grows b → T b n v) {vs : List β}
    (each : ∀ v ∈ vs, Plantable (fun a n => T a n v) (piece v).nodes) (a : Arena) :
    ∃ b head, a.Grows b ∧ b.size ≤ a.size + Piece.nodesIn (vs.map piece) ∧
      (∀ m ∈ head, b.Has m) ∧ b.Row (T b) head vs := by
  induction vs with
  | nil => exact ⟨a, none, .refl, Nat.le_refl _, by simp, rfl⟩
  | cons v vs ih =>
    obtain ⟨first, each⟩ := List.forall_mem_cons.mp each
    obtain ⟨b, head, grown, small, present, row⟩ := ih each
    obtain ⟨c, n, x, further, larger, found, onward, planted⟩ := first b head present
    refine ⟨c, some n, grown.trans further, ?_, ?_, n, x, rfl, found, planted, ?_⟩
    · simp only [List.map_cons, Piece.nodesIn]
      omega
    · intro m only
      cases only
      exact has_of_graph found
    · rw [onward]
      exact row.grow further fun _ _ kept => stable kept further

theorem plantable_label {read : Attributes → Except Cause String} {attributes : Attributes}
    {s : String} (given : read attributes = .ok s) :
    Plantable (fun a n => a.Labels read n s) 1 := by
  intro a next present
  refine ⟨_, _, { attributes with next }, .add .refl _ present (by simp), ?_,
    a.graph_add_self _, rfl, _, a.graph_add_self _, given⟩
  rw [size_add]

end Arena

/-! ### What a reading takes -/

def Question.Answerable : Question → Prop
  | .touch _ => True
  | .child _ form => form ≠ .anyNode
  | .optional _ form => form ≠ .anyNode
  | .chain _ form => form ≠ .anyNode
  | .label _ read => ∀ s, IsIdentifier s → ∃ a, read a = .ok s
  | .labels _ read => ∀ s, IsIdentifier s → ∃ a, read a = .ok s

theorem Attributes.identifier_of {kind : Kind} {s : String} (valid : IsIdentifier s) :
    (Attributes.of kind s).identifier = .ok s := identifier_eq_ok.mpr ⟨rfl, valid⟩

theorem Grammar.specification_answerable (kind : SubprogramKind) (s : String)
    (valid : IsIdentifier s) : ∃ a, specification kind a = .ok s := by
  cases kind with
  | function => exact ⟨.of .functionDeclaration s, Attributes.identifier_of valid⟩
  | procedure => exact ⟨.of .procedureDeclaration s, Attributes.identifier_of valid⟩

theorem Grammar.enumerationLiteral_answerable (s : String) (valid : IsIdentifier s) :
    ∃ a, enumerationLiteral a = .ok s :=
  ⟨.of .enumerationLiteral s, Attributes.identifier_of valid⟩

theorem Kind.questions_answerable (k : Kind) : ∀ q ∈ k.questions, q.Answerable := by
  cases k <;> simp [questions, construction, operator?, Question.Answerable]
  case functionBody => exact Grammar.specification_answerable .function
  case procedureBody => exact Grammar.specification_answerable .procedure
  case enumerationTypeDefinition => exact Grammar.enumerationLiteral_answerable

theorem Piece.nodes_le_nodesIn {p : Piece} {ps : List Piece} (member : p ∈ ps) :
    p.nodes ≤ nodesIn ps := by
  induction ps with
  | nil => cases member
  | cons q ps ih =>
    simp only [nodesIn]
    rcases List.mem_cons.mp member with rfl | member
    · omega
    · have := ih member
      omega

theorem Piece.WellNamed.element {p : Piece} {es : List Piece}
    (named : (Piece.sequence es).WellNamed) (member : p ∈ es) : p.WellNamed := by
  have deep : ∀ q ∈ p.everything, q ∈ (Piece.sequence es).everything := by
    intro q inside
    simp only [everything]
    exact List.mem_cons_of_mem _ (mem_everythingIn.mpr ⟨p, member, inside⟩)
  exact ⟨fun s inside => named.1 s (deep _ inside), fun s inside => named.2 s (deep _ inside)⟩

namespace Arena

open Piece

theorem Plantable.alone {T : Arena → NodeRef → Prop} {cost : Nat} (plantable : Plantable T cost)
    (a : Arena) : ∃ b n, a.Grows b ∧ b.size ≤ a.size + cost ∧ b.Has n ∧ T b n := by
  obtain ⟨b, n, x, grown, small, found, _, planted⟩ := plantable a none (by simp)
  exact ⟨b, n, grown, small, has_of_graph found, planted⟩

def PlantsUpTo (most : Nat) : Prop :=
  ∀ (f : Form) (v : f.Value), f ≠ .anyNode → (f.anatomy v).WellNamed → (f.anatomy v).nodes ≤ most →
    Plantable (fun a n => a.Spells f n v) (f.anatomy v).nodes

theorem PlantsUpTo.fewer {most fewer : Nat} (plants : PlantsUpTo most) (less : fewer ≤ most) :
    PlantsUpTo fewer :=
  fun f v placed named fits => plants f v placed named (Nat.le_trans fits less)

theorem plant_reading {r : Reading} (fine : r.question.Answerable)
    (named : ∀ p ∈ r.parts, p.WellNamed) (plants : PlantsUpTo (nodesIn r.parts)) (a : Arena) :
    ∃ b held, a.Grows b ∧ b.size ≤ a.size + nodesIn r.parts ∧ (∀ m ∈ held, b.Has m) ∧
      r.HeldBy b held := by
  obtain ⟨q, w⟩ := r
  cases q with
  | touch field => exact ⟨a, none, .refl, Nat.le_add_right _ _, by simp, trivial⟩
  | child field form =>
    obtain ⟨b, n, grown, small, has, spelled⟩ :=
      (plants form w fine (named _ (List.mem_singleton_self _)) (Nat.le_add_right _ _)).alone a
    exact ⟨b, some n, grown, small, by simpa using has, n, rfl, spelled⟩
  | optional field form =>
    cases w with
    | none => exact ⟨a, none, .refl, Nat.le_add_right _ _, by simp, .inl ⟨rfl, rfl⟩⟩
    | some v =>
      obtain ⟨b, n, grown, small, has, spelled⟩ :=
        (plants form v fine (named _ (List.mem_singleton_self _)) (Nat.le_add_right _ _)).alone a
      exact ⟨b, some n, grown, small, by simpa using has, .inr ⟨n, v, rfl, rfl, spelled⟩⟩
  | chain field form =>
    have whole : (Piece.sequence (w.map form.anatomy)).WellNamed :=
      named _ (List.mem_singleton_self _)
    apply plant_row (T := fun a n v => a.Spells form n v) Spells.grow
    intro v member
    have inside := List.mem_map_of_mem (f := form.anatomy) member
    have fits : (form.anatomy v).nodes ≤ nodesIn (w.map form.anatomy) := nodes_le_nodesIn inside
    exact plants form v fine (whole.element inside) fits
  | label field read =>
    have valid : IsIdentifier w := (named (.name w) (List.mem_singleton_self _)).isIdentifier
    obtain ⟨attributes, given⟩ := fine w valid
    obtain ⟨b, n, grown, small, has, labelled⟩ := (plantable_label given).alone a
    exact ⟨b, some n, grown, small, by simpa using has, n, rfl, labelled⟩
  | labels field read =>
    have whole : (Piece.sequence (w.map .name)).WellNamed := named _ (List.mem_singleton_self _)
    apply plant_row (T := fun a n s => a.Labels read n s) Labels.grow
    intro s member
    have inside := List.mem_map_of_mem (f := Piece.name) member
    obtain ⟨attributes, given⟩ := fine s (whole.element inside).isIdentifier
    exact plantable_label given

theorem plant_readings {rs : List Reading} (fine : ∀ r ∈ rs, r.question.Answerable)
    (distinct : (rs.map fun r => r.question.field).Nodup)
    (named : ∀ r ∈ rs, ∀ p ∈ r.parts, p.WellNamed)
    (plants : PlantsUpTo (nodesIn (rs.flatMap Reading.parts))) (a : Arena) :
    ∃ (b : Arena) (field : Field → Option NodeRef), a.Grows b ∧
      b.size ≤ a.size + nodesIn (rs.flatMap Reading.parts) ∧
      (∀ f, ∀ m ∈ field f, b.Has m) ∧ ∀ r ∈ rs, r.HeldBy b (field r.question.field) := by
  induction rs with
  | nil => exact ⟨a, fun _ => none, .refl, Nat.le_add_right _ _, by simp, by simp⟩
  | cons r rs ih =>
    obtain ⟨fine, laterFine⟩ := List.forall_mem_cons.mp fine
    obtain ⟨named, laterNamed⟩ := List.forall_mem_cons.mp named
    obtain ⟨new, distinct⟩ := List.nodup_cons.mp distinct
    rw [List.flatMap_cons, nodesIn_append] at plants ⊢
    obtain ⟨b, field, grown, small, present, held⟩ :=
      ih laterFine distinct laterNamed (plants.fewer (Nat.le_add_left _ _))
    obtain ⟨c, head, further, larger, has, first⟩ :=
      plant_reading fine named (plants.fewer (Nat.le_add_right _ _)) b
    refine ⟨c, Function.update field r.question.field head, grown.trans further, by omega, ?_, ?_⟩
    · intro f m only
      by_cases here : f = r.question.field
      · rw [here, Function.update_self] at only
        exact has m only
      · rw [Function.update_of_ne here] at only
        exact further.has (present f m only)
    · refine List.forall_mem_cons.mpr ⟨?_, fun r' member => ?_⟩
      · rw [Function.update_self]
        exact first
      · have other : r'.question.field ≠ r.question.field := by
          intro same
          exact new (List.mem_map.mpr ⟨r', member, same⟩)
        rw [Function.update_of_ne other]
        exact (held r' member).grow further

theorem plantable (most : Nat) : PlantsUpTo most := by
  -- the readings of a value take fewer nodes than the value, so they are planted before it
  induction most using Nat.strongRecOn with
  | ind most ih =>
    intro f v placed named fits a next present
    obtain ⟨attributes, rs, given, feeds⟩ := Grammar.recipe_gives placed named
    have fine : ∀ r ∈ rs, r.question.Answerable := fun r member =>
      attributes.kind.questions_answerable _
        (given.asked (Grammar.recipe_puts f attributes).keeps r member)
    obtain ⟨b, field, grown, small, held, answers⟩ := plant_readings fine feeds.distinct
      feeds.named (ih _ (Nat.lt_of_lt_of_le feeds.smaller fits)) a
    let x : Node := { attributes with next, field }
    have added : b.Grows (b.add x).1 := .add .refl x (fun m only => grown.has (present m only)) held
    refine ⟨_, _, x, grown.trans added, ?_, b.graph_add_self x, rfl,
      spells_add (x := x) given answers added⟩
    have smaller := feeds.smaller
    rw [size_add]
    omega

end Arena

/-- Every design file whose names are well formed can be built: there is a table that is made by
adding nodes, with no more of them than the file has levels, names and parts of symbols, and under
all limits that cover the table its last node becomes the file, unchanged. -/
theorem every_design_can_be_built (file : DesignFile) (named : file.anatomy.WellNamed) :
    ∃ (a : Arena) (root : NodeRef), Arena.Grows {} a ∧ a.size ≤ file.anatomy.nodes ∧ a.Has root ∧
      buildDesignFile a.graph (.least a) root = .ok file ∧
      ∀ limits : Limits, limits.Cover a → buildDesignFile a.graph limits root = .ok file := by
  obtain ⟨a, root, grown, small, has, spelled⟩ :=
    (Arena.plantable _ .designFile file (by simp) named (Nat.le_refl _)).alone {}
  have built : ∀ limits : Limits, limits.Cover a →
      buildDesignFile a.graph limits root = .ok file := by
    intro limits cover
    refine spelled.2 a .refl limits _ [] cover.chainLength ?_ (by simp)
    have less := Arena.has_iff_index.mp has
    have deep := cover.depth
    simp only [Builder.room, List.length_nil]
    omega
  refine ⟨a, root, grown, ?_, has, built _ (Limits.least_cover a), built⟩
  exact Nat.le_trans small (Nat.le_of_eq (Nat.zero_add _))

def nestedDesign : DesignFile :=
  ⟨[⟨[.library ⟨"ieee"⟩], .packageBody ⟨"\\a b\\", [.subprogramBody .function "f" [
    .function ⟨"g", false, [], [⟨.file, "p", .linkage, ⟨"t"⟩, none⟩], ⟨"x.all"⟩⟩,
    .variableDecl ⟨⟨"v", ⟨"\\c d\\.e"⟩, some (.binary .rol (.integer (-1)) (.name ⟨"y"⟩))⟩,
      true⟩]]⟩⟩]⟩

theorem nestedDesign_wellNamed : nestedDesign.anatomy.WellNamed := by
  have taken : nestedDesign.anatomy = .level [.sequence [.level [
      .sequence [.level [.name "ieee"]],
      .level [.name "\\a b\\", .sequence [.level [.name "f", .sequence [
        .level [.name "g", .sequence [],
          .sequence [.level [.name "p", .symbol ⟨"t"⟩]], .symbol ⟨"x.all"⟩],
        .level [.name "v", .symbol ⟨"\\c d\\.e"⟩,
          .level [.level [], .level [.symbol ⟨"y"⟩]]]]]]]]]] := by
    simp [nestedDesign, DesignFile.anatomy, DesignUnit.anatomy, ContextItem.anatomy,
      LibraryUnit.anatomy, Declaration.anatomy, declarationAnatomies, objectAnatomy,
      ParameterItem.anatomy, Expression.anatomy]
  rw [taken]
  constructor
  · intro s member
    simp [Piece.everything, Piece.everythingIn] at member
    rcases member with rfl | rfl | rfl | rfl | rfl | rfl <;> decide +kernel
  · intro s member
    simp [Piece.everything, Piece.everythingIn] at member
    rcases member with rfl | rfl | rfl | rfl
    · exact .single (by decide +kernel)
    · exact .selectAll (s := ⟨"x"⟩) (.single (by decide +kernel))
    · have selected : IsIdentifier "e" := by decide +kernel
      exact .select (s := ⟨"\\c d\\"⟩) (.single (by decide +kernel)) (.inl selected)
    · exact .single (by decide +kernel)

theorem nestedDesign_built :
    nestedDesign.anatomy.WellNamed ∧ ∃ (a : Arena) (root : NodeRef), Arena.Grows {} a ∧
      a.size ≤ nestedDesign.anatomy.nodes ∧ a.Has root ∧
      buildDesignFile a.graph (.least a) root = .ok nestedDesign ∧
      ∀ limits : Limits, limits.Cover a →
        buildDesignFile a.graph limits root = .ok nestedDesign :=
  ⟨nestedDesign_wellNamed, every_design_can_be_built nestedDesign nestedDesign_wellNamed⟩

end VhdlDesign
