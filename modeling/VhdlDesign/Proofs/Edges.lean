import VhdlDesign.Proofs.Chain
import VhdlDesign.Proofs.Grammar

/-! Edges of a graph, and the nodes that a node has for its parts. -/
namespace VhdlDesign

open Relation

namespace Graph

/-- One step to the chain successor of a node, or into a field that its kind defines. -/
def Edge (g : Graph) (n m : NodeRef) : Prop :=
  g.next n = some m ∨ ∃ x f, g n = some x ∧ x.kind.defines f = true ∧ x.field f = some m

def Closed (g : Graph) : Prop := ∀ n m, g.Edge n m → ∃ x, g m = some x

end Graph

/-- The question asks for `f` to be built from `m`. -/
def Question.Holds (g : Graph) (x : Node) : Question → Form → NodeRef → Prop
  | .child field form, f, m => f = form ∧ x.field field = some m
  | .optional field form, f, m => f = form ∧ x.field field = some m
  | .chain field form, f, m => f = form ∧ ∃ ms, Leads g.next (x.field field) ms none ∧ m ∈ ms
  | .touch _, _, _ => False
  | .label _ _, _, _ => False
  | .labels _ _, _, _ => False

namespace Graph

/-- `m` is one of the nodes that have to be built for `n` to be built. -/
def Child (g : Graph) (n m : NodeRef) : Prop :=
  ∃ x q f, g n = some x ∧ q ∈ x.kind.questions ∧ q.Holds g x f m

variable {g : Graph} {n m : NodeRef} {x : Node}

theorem edge_field {f : Field} (found : g n = some x) (defined : x.kind.defines f = true)
    (held : x.field f = some m) : g.Edge n m := .inr ⟨x, f, found, defined, held⟩

theorem edges_of_leads {start : Option NodeRef} {ns : List NodeRef}
    (led : Leads g.next start ns (some m)) (first : ∀ k, start = some k → TransGen g.Edge n k) :
    TransGen g.Edge n m := by
  induction ns generalizing start with
  | nil =>
    cases led
    exact first m rfl
  | cons k ns ih =>
    cases led with
    | step rest =>
      apply ih rest
      intro l hl
      exact (first k rfl).tail (.inl hl)

theorem edges_of_chain {f : Field} {ns : List NodeRef} (found : g n = some x)
    (defined : x.kind.defines f = true) (led : Leads g.next (x.field f) ns (some m)) :
    TransGen g.Edge n m := by
  apply edges_of_leads led
  intro k held
  exact .single (edge_field found defined held)

theorem Child.edges (h : g.Child n m) : TransGen g.Edge n m := by
  obtain ⟨x, q, f, found, asked, held⟩ := h
  have defined := x.kind.questions_defined q asked
  cases q with
  | child field form => exact .single (edge_field found defined held.2)
  | optional field form => exact .single (edge_field found defined held.2)
  | chain field form =>
    obtain ⟨_, ms, led, member⟩ := held
    obtain ⟨before, reached⟩ := led.to_member member
    exact edges_of_chain found defined reached
  | touch field => exact held.elim
  | label field read => exact held.elim
  | labels field read => exact held.elim

theorem Closed.reach (closed : g.Closed) (reached : ReflTransGen g.Edge n m)
    (found : ∃ x, g n = some x) : ∃ y, g m = some y := by
  induction reached with
  | refl => exact found
  | tail _ edge _ => exact closed _ _ edge

end Graph

/-! ### Questions at a node of a graph -/

namespace Builder

variable {b : Builder} {n : NodeRef} {x : Node}
variable {enter enter' : (f : Form) → NodeRef → Except Fault f.Value} {q : Question}

theorem answer_onlyRaises {P : Fault → Prop} (found : b.graph n = some x)
    (asked : q ∈ x.kind.questions)
    (absent : ∀ m, TransGen b.graph.Edge n m → b.graph m = none → P (.absent m b.path))
    (missing : ∀ f, x.kind.defines f = true → x.field f = none →
      P (x.issue n (.contractViolation (.missingField f))))
    (malformed : ∀ f m y d, x.kind.defines f = true → TransGen b.graph.Edge n m →
      b.graph m = some y →
      (walk b.graph.next b.limits.chainLength (x.field f)).defect = some (m, d) →
      P (y.issue m (.malformedChain d)))
    (labelled : ∀ m y c, TransGen b.graph.Edge n m → b.graph m = some y → c.Fits y.toAttributes →
      P (y.issue m c))
    (entered : ∀ f m, q.Holds b.graph x f m → OnlyRaises P (enter f m)) :
    OnlyRaises P (b.answer n x enter q) := by
  have defined := x.kind.questions_defined q asked
  have gather : OnlyRaises P (b.elements (x.field q.field)) :=
    elements_onlyRaises
      (fun m ns led => absent m (Graph.edges_of_chain found defined led))
      (fun m y d ns led present => malformed q.field m y d defined
        (Graph.edges_of_chain found defined led) present)
  cases q with
  | touch field =>
    exact .bind (Node.edge?_onlyRaises defined) fun _ _ => .ok _
  | child field form =>
    apply OnlyRaises.bind (Node.edge_onlyRaises defined (missing field defined))
    intro m held
    exact entered form m ⟨rfl, Node.edge_eq_ok held⟩
  | optional field form =>
    refine OnlyRaises.bind (Node.edge?_onlyRaises defined) ?_
    intro held given
    cases Node.edge?_eq_ok given
    split
    · exact .ok _
    next m held =>
      rw [map_eq_pure_bind]
      exact .bind (entered form m ⟨rfl, held⟩) fun _ _ => .ok _
  | chain field form =>
    refine OnlyRaises.bind (Node.edge?_onlyRaises defined) ?_
    intro head given
    cases Node.edge?_eq_ok given
    apply OnlyRaises.bind gather
    intro ms gathered
    apply OnlyRaises.mapM
    intro m member
    exact entered form m ⟨rfl, ms, elements_eq_ok gathered, member⟩
  | label field read =>
    apply OnlyRaises.bind (Node.edge_onlyRaises defined (missing field defined))
    intro m held
    have edge : TransGen b.graph.Edge n m :=
      .single (Graph.edge_field found defined (Node.edge_eq_ok held))
    exact label_onlyRaises (absent m edge) fun y c present refused =>
      labelled m y c edge present (x.kind.questions_read _ asked _ _ refused)
  | labels field read =>
    refine OnlyRaises.bind (Node.edge?_onlyRaises defined) ?_
    intro head given
    cases Node.edge?_eq_ok given
    apply OnlyRaises.bind gather
    intro ms gathered
    apply OnlyRaises.mapM
    intro m member
    obtain ⟨before, led⟩ := (elements_eq_ok gathered).to_member member
    have edges := Graph.edges_of_chain found defined led
    exact label_onlyRaises (absent m edges) fun y c present refused =>
      labelled m y c edges present (x.kind.questions_read _ asked _ _ refused)

theorem entered_of_answer {w : q.Answer} {f : Form} {m : NodeRef} (held : q.Holds b.graph x f m)
    (answered : b.answer n x enter q = .ok w) : ∃ v, enter f m = .ok v := by
  cases q with
  | touch field => exact held.elim
  | child field form =>
    obtain ⟨rfl, held⟩ := held
    obtain ⟨m', hm', answered⟩ := bind_eq_ok answered
    cases held.symm.trans (Node.edge_eq_ok hm')
    exact ⟨w, answered⟩
  | optional field form =>
    obtain ⟨rfl, held⟩ := held
    obtain ⟨held', hheld, answered⟩ := bind_eq_ok answered
    rw [Node.edge?_eq_ok hheld, held] at answered
    obtain ⟨v, hv, _⟩ := bind_eq_ok ((map_eq_pure_bind some _).symm.trans answered)
    exact ⟨v, hv⟩
  | chain field form =>
    obtain ⟨rfl, ms, led, member⟩ := held
    obtain ⟨head, hhead, answered⟩ := bind_eq_ok answered
    obtain ⟨ms', hms', answered⟩ := bind_eq_ok answered
    rw [Node.edge?_eq_ok hhead] at hms'
    cases led.unique (elements_eq_ok hms')
    exact exists_of_mapM_eq_ok answered member
  | label field read => exact held.elim
  | labels field read => exact held.elim

def under (b : Builder) (limits : Limits) : Builder := { b with limits }

theorem answer_follows {excused : Fault → Prop} {limits : Limits}
    (gathered : ∀ head, Follows excused (b.elements head) ((b.under limits).elements head))
    (entered : ∀ f m, q.Holds b.graph x f m → Follows excused (enter f m) (enter' f m)) :
    Follows excused (b.answer n x enter q) ((b.under limits).answer n x enter' q) := by
  cases q with
  | touch field => exact .refl _
  | child field form =>
    apply Follows.bind (.refl _)
    intro m held
    exact entered form m ⟨rfl, Node.edge_eq_ok held⟩
  | optional field form =>
    apply Follows.bind (.refl _)
    intro held given
    cases Node.edge?_eq_ok given
    split
    · exact .refl _
    next m held =>
      rw [map_eq_pure_bind, map_eq_pure_bind]
      exact .bind (entered form m ⟨rfl, held⟩) fun _ _ => .refl _
  | chain field form =>
    apply Follows.bind (.refl _)
    intro head given
    cases Node.edge?_eq_ok given
    apply Follows.bind (gathered _)
    intro ms gathered
    apply Follows.mapM
    intro m member
    exact entered form m ⟨rfl, ms, elements_eq_ok gathered, member⟩
  | label field read =>
    apply Follows.bind (.refl _)
    intro m _
    exact .refl _
  | labels field read =>
    apply Follows.bind (.refl _)
    intro head _
    apply Follows.bind (gathered _)
    intro ms _
    exact .refl _

end Builder

end VhdlDesign
