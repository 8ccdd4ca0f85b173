import VhdlDesign.Proofs.Table

/-!
Linking nodes into chains.

Linking overwrites the successor of each node of a list, whatever it was, and nothing else. A walk
from the first of them passes exactly the list, so nodes can be linked again in any other order.
-/
namespace VhdlDesign

namespace Arena

variable {a b c : Arena} {n : NodeRef} {ns : List NodeRef}

/-- The two tables differ at most in the successors of the nodes of a list. -/
structure Relinks (a b : Arena) (ns : List NodeRef) : Prop where
  size : b.size = a.size
  others : ∀ n, n ∉ ns → b.graph n = a.graph n
  kept : ∀ n x, a.graph n = some x → ∃ next, b.graph n = some { x with next }

namespace Relinks

theorem refl (a : Arena) (ns : List NodeRef) : a.Relinks a ns :=
  ⟨rfl, fun _ _ => rfl, fun _ x found => ⟨x.next, found⟩⟩

theorem trans (first : a.Relinks b ns) (second : b.Relinks c ns) : a.Relinks c ns := by
  refine ⟨second.size.trans first.size, ?_, ?_⟩
  · intro n other
    exact (second.others n other).trans (first.others n other)
  · intro n x found
    obtain ⟨_, found⟩ := first.kept n x found
    obtain ⟨next, found⟩ := second.kept n _ found
    exact ⟨next, found⟩

theorem weaken {ms : List NodeRef} (relinks : a.Relinks b ns) (within : ns ⊆ ms) :
    a.Relinks b ms :=
  ⟨relinks.size, fun n other => relinks.others n fun member => other (within member),
    relinks.kept⟩

theorem has (relinks : a.Relinks b ns) : b.Has n ↔ a.Has n := by
  rw [has_iff_index, has_iff_index, relinks.size]

end Relinks

theorem setNext?_isSome (held : a.Has n) (next : Option NodeRef) :
    ∃ b, a.setNext? n next = some b :=
  Option.isSome_iff_exists.mp ((modify?_isSome a n _).mpr (has_iff_index.mp held))

theorem setNext?_relinks {next : Option NodeRef} (set : a.setNext? n next = some b) :
    a.Relinks b [n] := by
  refine ⟨size_modify? set, ?_, ?_⟩
  · intro m other
    rw [graph_modify? set, if_neg (by simpa using other)]
  · intro m x found
    rw [graph_modify? set, found]
    by_cases same : m = n
    · exact ⟨next, by rw [if_pos same]; rfl⟩
    · exact ⟨x.next, by rw [if_neg same]⟩

theorem next_setNext? {next : Option NodeRef} (set : a.setNext? n next = some b) :
    b.graph.next n = next := by
  have less := (modify?_isSome a n _).mp (Option.isSome_of_eq_some set)
  obtain ⟨x, found⟩ := has_iff_graph.mp (has_iff_index.mpr less)
  rw [Graph.next, graph_modify? set, if_pos rfl, found]
  rfl

/-- Nodes that differ are linked in their order. Since no node comes twice, a link once made is not
overwritten by a later one. -/
theorem link_leads (distinct : ns.Nodup) (held : ∀ n ∈ ns, a.Has n) :
    ∃ b, a.link ns = .ok b ∧ a.Relinks b ns ∧ Leads b.graph.next ns.head? ns none := by
  induction ns generalizing a with
  | nil => exact ⟨a, rfl, .refl a [], .here none⟩
  | cons n rest ih =>
    obtain ⟨once, distinct⟩ := List.nodup_cons.mp distinct
    obtain ⟨here, later⟩ := List.forall_mem_cons.mp held
    obtain ⟨linked, set⟩ := setNext?_isSome here rest.head?
    have first := setNext?_relinks set
    obtain ⟨b, done, second, led⟩ := ih (a := linked) distinct fun m member =>
      first.has.mpr (later m member)
    have onward : b.graph.next n = rest.head? := by
      rw [Graph.next, second.others n once]
      exact next_setNext? set
    refine ⟨b, ?_, ?_, ?_⟩
    · rw [link, set]
      exact done
    · exact (first.weaken (by simp)).trans (second.weaken (List.subset_cons_self n rest))
    · rw [← onward] at led
      exact .step led

theorem chain_walk (distinct : ns.Nodup) (held : ∀ n ∈ ns, a.Has n) :
    ∃ b, a.chain ns = .ok (b, ns.head?) ∧ a.Relinks b ns ∧
      ∀ limit, ns.length ≤ limit → walk b.graph.next limit ns.head? = ⟨ns, none⟩ := by
  obtain ⟨b, linked, relinks, led⟩ := link_leads distinct held
  refine ⟨b, ?_, relinks, fun limit short => walk_of_leads led short⟩
  rw [chain, linked]
  rfl

end Arena

/-- Linking and walking are inverse. Linking nodes of a table that differ succeeds and returns the
first of them, from where a walk passes exactly these nodes in their order, under every limit that
is not below their number. The successors of all other nodes, and all else that any node says, stay
as they are. Linking the same nodes in another order afterwards gives a chain in the new order. -/
theorem linking_and_walking_are_inverse (a : Arena) {ns : List NodeRef} (distinct : ns.Nodup)
    (held : ∀ n ∈ ns, a.Has n) :
    ∃ b, a.chain ns = .ok (b, ns.head?) ∧
      (∀ limit, ns.length ≤ limit → walk b.graph.next limit ns.head? = ⟨ns, none⟩) ∧
      a.Relinks b ns ∧
      ∀ ms, ms.Perm ns → ∃ c, b.chain ms = .ok (c, ms.head?) ∧
        (∀ limit, ms.length ≤ limit → walk c.graph.next limit ms.head? = ⟨ms, none⟩) ∧
        a.Relinks c ns := by
  obtain ⟨b, linked, relinks, walked⟩ := Arena.chain_walk distinct held
  refine ⟨b, linked, walked, relinks, fun ms reordered => ?_⟩
  obtain ⟨c, linkedAgain, relinksAgain, walkedAgain⟩ := Arena.chain_walk (a := b)
    (reordered.nodup_iff.mpr distinct)
    fun n member => relinks.has.mpr (held n (reordered.mem_iff.mp member))
  exact ⟨c, linkedAgain, walkedAgain, relinks.trans (relinksAgain.weaken reordered.subset)⟩

def knottedArena : Arena where
  nodes := #[
    { kind := .useClause, next := some ⟨1⟩ },
    { kind := .libraryClause, name := some "ieee", next := some ⟨0⟩ },
    { kind := .contextReference, next := some ⟨2⟩ }]

theorem knottedArena_untied :
    [(⟨2⟩ : NodeRef), ⟨0⟩].Nodup ∧ (∀ n ∈ [(⟨2⟩ : NodeRef), ⟨0⟩], knottedArena.Has n) ∧
      ∃ b, knottedArena.chain [⟨2⟩, ⟨0⟩] = .ok (b, some ⟨2⟩) ∧
        walk b.graph.next 2 (some ⟨2⟩) = ⟨[⟨2⟩, ⟨0⟩], none⟩ ∧
        b.graph.next ⟨1⟩ = some ⟨0⟩ := by
  have distinct : [(⟨2⟩ : NodeRef), ⟨0⟩].Nodup := by decide
  have held : ∀ n ∈ [(⟨2⟩ : NodeRef), ⟨0⟩], knottedArena.Has n := by decide
  obtain ⟨b, linked, walked, relinks, _⟩ :=
    linking_and_walking_are_inverse knottedArena distinct held
  refine ⟨distinct, held, b, linked, walked 2 (Nat.le_refl 2), ?_⟩
  rw [Graph.next, relinks.others ⟨1⟩ (by decide)]
  rfl

end VhdlDesign
