import Mathlib.Data.List.Nodup
import VhdlDesign.Graph.Arena
import VhdlDesign.Proofs.Edges

/-!
Tables of nodes.

References are numbered from 1 to the size of a table. When every stored edge leads to a node of the
table, so does everything that is reached from one of its nodes; and a list without repeats cannot
be longer than the table.
-/
namespace VhdlDesign

open Relation

namespace Arena

variable {a : Arena} {n m : NodeRef} {x : Node}

def Has (a : Arena) (n : NodeRef) : Prop := 1 ≤ n.number ∧ n.number ≤ a.size

/-- Every stored edge leads to a node of the table, also one in a field that the kind of its node
does not define. -/
structure Enclosed (a : Arena) : Prop where
  next : ∀ x ∈ a.nodes, ∀ m ∈ x.next, a.Has m
  field : ∀ x ∈ a.nodes, ∀ f, ∀ m ∈ x.field f, a.Has m

instance (a : Arena) (n : NodeRef) : Decidable (a.Has n) :=
  inferInstanceAs (Decidable (1 ≤ n.number ∧ n.number ≤ a.size))

instance (a : Arena) : Decidable a.Enclosed :=
  decidable_of_iff
    ((∀ x ∈ a.nodes, ∀ m ∈ x.next, a.Has m) ∧
      ∀ x ∈ a.nodes, ∀ f ∈ Field.all, ∀ m ∈ x.field f, a.Has m)
    ⟨fun h => ⟨h.1, fun x hx f => h.2 x hx f f.mem_all⟩,
      fun h => ⟨h.next, fun x hx f _ => h.field x hx f⟩⟩

theorem has_iff_index : a.Has n ↔ n.index < a.size := by
  simp only [Has, NodeRef.number]
  omega

theorem has_iff_graph : a.Has n ↔ ∃ x, a.graph n = some x := by
  rw [has_iff_index]
  constructor
  · intro less
    exact ⟨a.nodes[n.index], Array.getElem?_eq_getElem less⟩
  · rintro ⟨x, found⟩
    obtain ⟨less, _⟩ := Array.getElem?_eq_some_iff.mp found
    exact less

theorem has_of_graph (found : a.graph n = some x) : a.Has n := has_iff_graph.mpr ⟨x, found⟩

theorem mem_of_graph (found : a.graph n = some x) : x ∈ a.nodes := Array.mem_of_getElem? found

/-! ### What is reached from a table stays in it -/

namespace Enclosed

theorem of_next (enclosed : a.Enclosed) (led : a.graph.next n = some m) : a.Has m := by
  obtain ⟨x, found, held⟩ := Option.bind_eq_some_iff.mp led
  exact enclosed.next x (mem_of_graph found) m held

theorem closed (enclosed : a.Enclosed) : a.graph.Closed := by
  rintro n m (led | ⟨x, f, found, _, held⟩)
  · exact has_iff_graph.mp (enclosed.of_next led)
  · exact has_iff_graph.mp (enclosed.field x (mem_of_graph found) f m held)

theorem reach (enclosed : a.Enclosed) (has : a.Has n) (reached : ReflTransGen a.graph.Edge n m) :
    a.Has m :=
  has_iff_graph.mpr (enclosed.closed.reach reached (has_iff_graph.mp has))

theorem of_leads (enclosed : a.Enclosed) {start stop : Option NodeRef} {ns : List NodeRef}
    (led : Leads a.graph.next start ns stop) (first : ∀ k, start = some k → a.Has k) :
    (∀ k ∈ ns, a.Has k) ∧ ∀ k, stop = some k → a.Has k :=
  led.all (fun _ _ _ onward => enclosed.of_next onward) first

end Enclosed

/-! ### No more nodes than the table holds -/

theorem length_le_size {ns : List NodeRef} (distinct : ns.Nodup) (held : ∀ k ∈ ns, a.Has k) :
    ns.length ≤ a.size := by
  have injective : Function.Injective NodeRef.index := by
    rintro ⟨i⟩ ⟨j⟩ rfl
    rfl
  have within : ns.map NodeRef.index ⊆ List.range a.size := by
    intro i member
    obtain ⟨k, hk, rfl⟩ := List.mem_map.mp member
    exact List.mem_range.mpr (has_iff_index.mp (held k hk))
  have short := (distinct.map injective).length_le_of_subset within
  simpa only [List.length_map, List.length_range] using short

/-- A walk from a node of the table passes each of its nodes at most once, whatever the limit. -/
theorem Enclosed.walk_length (enclosed : a.Enclosed) {head : Option NodeRef}
    (first : ∀ k, head = some k → a.Has k) (limit : Nat) :
    (walk a.graph.next limit head).nodes.length ≤ a.size :=
  length_le_size (follow_nodup a.graph.next limit limit [] head).1
    (enclosed.of_leads (follow_leads a.graph.next limit limit [] head) first).1

theorem Enclosed.walk_defect (enclosed : a.Enclosed) {head : Option NodeRef}
    (first : ∀ k, head = some k → a.Has k) {limit : Nat} (covers : a.size ≤ limit) {d : ChainDefect}
    (stopped : (walk a.graph.next limit head).defect = some (m, d)) :
    ∃ length, d = .cycle m length := by
  obtain ⟨ns, led, distinct, ⟨_, rfl⟩ | ⟨fresh, _, full⟩⟩ := VhdlDesign.walk_defect stopped
  · exact ⟨ns.length, rfl⟩
  · -- the nodes passed and the one at the limit would be more than the table holds
    obtain ⟨passed, last⟩ := enclosed.of_leads led first
    have short : (m :: ns).length ≤ a.size :=
      length_le_size (List.nodup_cons.mpr ⟨fresh, distinct⟩)
        (List.forall_mem_cons.mpr ⟨last m rfl, passed⟩)
    rw [List.length_cons] at short
    omega

end Arena

end VhdlDesign
