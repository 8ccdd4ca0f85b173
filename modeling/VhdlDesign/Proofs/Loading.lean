import VhdlDesign.Image.Load
import VhdlDesign.Proofs.Files
import VhdlDesign.Proofs.Table

/-!
Loaded images.

An id is resolved only to the place of a record, and the records become the nodes of the table in
their order. So every edge that an image can store leads to a node of its table, and nothing that is
built from it ever meets a reference without a node.
-/
namespace VhdlDesign

variable {i : Image} {image : LoadedImage}

theorem Image.find?_lt {id : Nat} {n : NodeRef} (found : i.find? id = some n) :
    n.index < i.records.length := by
  obtain ⟨place, first, rfl⟩ := Option.map_eq_some_iff.mp found
  obtain ⟨less, _⟩ := List.idxOf?_eq_some_iff.mp first
  simpa only [ids, List.length_map] using less

theorem Record.toNode_edges {find? : Nat → Option NodeRef} {r : Record} {x : Node}
    (made : r.toNode find? = .ok x) :
    x.next = r.next.bind find? ∧ ∀ f, x.field f = (r.field f).bind find? := by
  unfold toNode at made
  split at made
  · contradiction
  · cases made
    exact ⟨rfl, fun _ => rfl⟩

theorem Image.resolve_eq_ok (resolved : i.resolve = .ok image) :
    ∃ nodes : List Node, List.Forall₂ (fun r x => r.toNode i.find? = .ok x) i.records nodes ∧
      image.arena = ⟨nodes.toArray⟩ ∧ i.find? i.root = some image.root := by
  unfold resolve at resolved
  split at resolved
  · contradiction
  · obtain ⟨nodes, made, resolved⟩ := bind_eq_ok resolved
    split at resolved
    next root found =>
      cases resolved
      exact ⟨nodes, mapM_eq_ok_iff.mp made, rfl, found⟩
    · contradiction

theorem Image.resolve_enclosed (resolved : i.resolve = .ok image) :
    image.arena.Enclosed ∧ image.arena.Has image.root := by
  obtain ⟨nodes, made, table, root⟩ := resolve_eq_ok resolved
  have size : image.arena.size = i.records.length := by
    rw [table]
    exact made.length_eq.symm
  have has : ∀ (target : Option Nat) m, target.bind i.find? = some m → image.arena.Has m := by
    intro target m held
    obtain ⟨id, _, found⟩ := Option.bind_eq_some_iff.mp held
    rw [Arena.has_iff_index, size]
    exact find?_lt found
  -- what a node stores was found for an id of its record
  have edges : ∀ x ∈ image.arena.nodes, ∃ r : Record,
      x.next = r.next.bind i.find? ∧ ∀ f, x.field f = (r.field f).bind i.find? := by
    intro x member
    have member : x ∈ nodes := by simpa only [table, List.mem_toArray] using member
    obtain ⟨r, _, made⟩ := exists_of_forall₂ made member
    exact ⟨r, Record.toNode_edges made⟩
  refine ⟨⟨?_, ?_⟩, has (some i.root) image.root root⟩
  · intro x member m held
    obtain ⟨r, next, _⟩ := edges x member
    exact has r.next m (next ▸ held)
  · intro x member f m held
    obtain ⟨r, _, field⟩ := edges x member
    exact has (r.field f) m (field f ▸ held)

theorem Image.load_enclosed {text : String} (loaded : Image.load text = .ok image) :
    image.arena.Enclosed ∧ image.arena.Has image.root := by
  unfold load at loaded
  split at loaded
  · exact resolve_enclosed loaded
  · contradiction

/-- The root of a loaded image and all edges of its nodes lead to nodes of its table. So a build
that begins at one of its nodes never looks for a node outside the table: it gives a value or an
issue, at every form, under all limits and whatever is open. -/
theorem loaded_images_lead_nowhere_else {text : String} {image : LoadedImage}
    (loaded : Image.load text = .ok image) :
    image.arena.Has image.root ∧
    (∀ x ∈ image.arena.nodes, (∀ m ∈ x.next, image.arena.Has m) ∧
      ∀ f, ∀ m ∈ x.field f, image.arena.Has m) ∧
    ∀ (limits : Limits) (n : NodeRef), image.arena.Has n →
      (∀ path f,
        OnlyRaises (fun e => ∃ i, e = .issue i)
          (Builder.build ⟨image.arena.graph, limits, path⟩ f n) ∧
        OnlyRaises (fun e => ∃ i, e = .issue i)
          (Builder.buildOpen ⟨image.arena.graph, limits, path⟩ f n)) ∧
      OnlyRaises (fun e => ∃ i, e = .issue i) (buildDesignFile image.arena.graph limits n) ∧
      OnlyRaises (fun e => ∃ i, e = .issue i) (buildNode image.arena.graph limits n) ∧
      OnlyRaises (fun e => ∃ i, e = .issue i) (buildDesignUnits image.arena.graph limits n) := by
  obtain ⟨enclosed, root⟩ := Image.load_enclosed loaded
  refine ⟨root, fun x member => ⟨enclosed.next x member, enclosed.field x member⟩, ?_⟩
  intro limits n has
  have present := Arena.has_iff_graph.mp has
  have built : ∀ path f, OnlyRaises (fun e => ∃ i, e = .issue i)
      (Builder.build ⟨image.arena.graph, limits, path⟩ f n) := by
    intro path f
    rw [Builder.build_eq_buildUnless]
    exact Builder.buildUnless_issue enclosed.closed present _ f
  exact ⟨fun path f => ⟨built path f, Builder.buildOpen_issue enclosed.closed present f⟩,
    built [] .designFile, built [] .anyNode, buildDesignUnits_issue enclosed.closed present⟩

def endlessImage : String :=
  "[7,[[7,\"design_file\",null,null,7,\x7b\"design_units\":7\x7d,null,null,null]]]"

theorem endlessImage_enclosed :
    ∃ image, Image.load endlessImage = .ok image ∧ image.arena.Has image.root ∧
      OnlyRaises (fun e => ∃ i, e = .issue i) (buildDesignFile image.arena.graph {} image.root) := by
  have accepted : (Image.load endlessImage).isOk = true := by decide +kernel
  cases loaded : Image.load endlessImage with
  | error e =>
    rw [loaded] at accepted
    cases accepted
  | ok image =>
    obtain ⟨root, _, builds⟩ := loaded_images_lead_nowhere_else loaded
    exact ⟨image, rfl, root, (builds {} image.root root).2.1⟩

end VhdlDesign
