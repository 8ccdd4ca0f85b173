import VhdlDesign.Proofs.Loading
import VhdlDesign.Proofs.Renaming

/-!
Reordered images.

The ids of an image are arbitrary numbers and its records stand in any order. An image is accepted
exactly if its ids differ and all that it refers to is there, which neither order nor numbers
change; and the tables of two orders are one another's with the references renamed.
-/
namespace VhdlDesign

/-! ### Accepted images -/

theorem firstRepeat?_eq_none {seen ids : List Nat} :
    firstRepeat? seen ids = none ↔ ids.Nodup ∧ ∀ id ∈ ids, id ∉ seen := by
  induction ids generalizing seen with
  | nil => simp [firstRepeat?]
  | cons id ids ih =>
    simp only [firstRepeat?]
    split
    next met => simp [met]
    next unmet =>
      rw [ih]
      simp only [List.nodup_cons, List.mem_cons, not_or]
      grind

namespace Record

variable {find? : Nat → Option NodeRef} {r : Record} {x : Node}

theorem mem_targets {id : Nat} : id ∈ r.targets ↔ r.next = some id ∨ ∃ f, r.field f = some id := by
  simp only [targets, List.mem_append, Option.mem_toList, List.mem_filterMap]
  refine or_congr_right ⟨?_, ?_⟩
  · rintro ⟨f, _, held⟩
    exact ⟨f, held⟩
  · rintro ⟨f, held⟩
    exact ⟨f, f.mem_all, held⟩

theorem toNode_isOk : (∃ x, r.toNode find? = .ok x) ↔ ∀ id ∈ r.targets, (find? id).isSome := by
  unfold toNode
  split
  next id dangling =>
    constructor
    · rintro ⟨x, made⟩
      cases made
    · intro found
      have missing := List.find?_some dangling
      have here := found id (List.mem_of_find?_eq_some dangling)
      simp_all
  next found =>
    refine ⟨fun _ id target => ?_, fun _ => ⟨_, rfl⟩⟩
    have held := List.find?_eq_none.mp found id target
    rwa [Option.isNone_iff_eq_none, ← ne_eq, ← Option.isSome_iff_ne_none] at held

theorem toNode_attributes (made : r.toNode find? = .ok x) :
    x.toAttributes = r.toAttributes ∧ x.position = r.position := by
  unfold toNode at made
  split at made
  · contradiction
  · cases made
    exact ⟨rfl, rfl⟩

end Record

namespace Image

variable {i : Image} {image : LoadedImage} {id : Nat} {n : NodeRef}

theorem find?_isSome : (i.find? id).isSome ↔ id ∈ i.ids := by
  rw [find?, Option.isSome_map, List.isSome_idxOf?]

theorem find?_eq_some (distinct : i.ids.Nodup) :
    i.find? id = some n ↔ i.ids[n.index]? = some id := by
  have place : i.find? id = some n ↔ i.ids.idxOf? id = some n.index := by
    rw [find?, Option.map_eq_some_iff]
    constructor
    · rintro ⟨place, first, rfl⟩
      exact first
    · exact fun first => ⟨n.index, first, rfl⟩
  rw [place, List.idxOf?_eq_some_iff, List.getElem?_eq_some_iff]
  refine exists_congr fun less => ⟨fun first => first.1, fun here => ⟨here, ?_⟩⟩
  intro j before again
  -- an id stands at one place only
  have same := distinct.getElem_inj_iff.mp (again.trans here.symm)
  omega

theorem resolve_isOk : (∃ image, i.resolve = .ok image) ↔
    i.ids.Nodup ∧ (∀ r ∈ i.records, ∀ id ∈ r.targets, id ∈ i.ids) ∧ i.root ∈ i.ids := by
  constructor
  · rintro ⟨image, resolved⟩
    unfold resolve at resolved
    split at resolved
    · contradiction
    next unrepeated =>
      obtain ⟨nodes, made, resolved⟩ := bind_eq_ok resolved
      split at resolved
      next place found =>
        refine ⟨(firstRepeat?_eq_none.mp unrepeated).1, ?_, ?_⟩
        · intro r member id target
          have resolves := Record.toNode_isOk.mp (mapM_isOk.mp ⟨nodes, made⟩ r member)
          exact find?_isSome.mp (resolves id target)
        · exact find?_isSome.mp (Option.isSome_of_mem found)
      · contradiction
  · rintro ⟨distinct, targets, root⟩
    have unrepeated : firstRepeat? [] i.ids = none :=
      firstRepeat?_eq_none.mpr ⟨distinct, by simp⟩
    obtain ⟨nodes, made⟩ := mapM_isOk.mpr fun r member => Record.toNode_isOk.mpr
      fun id target => find?_isSome.mpr (targets r member id target)
    obtain ⟨place, found⟩ := Option.isSome_iff_exists.mp (find?_isSome.mpr root)
    refine ⟨⟨⟨nodes.toArray⟩, place⟩, ?_⟩
    simp only [resolve, unrepeated, made, found]
    rfl

theorem node_of_record (resolved : i.resolve = .ok image) {r : Record}
    (here : i.records[n.index]? = some r) :
    ∃ x, image.arena.graph n = some x ∧ r.toNode i.find? = .ok x := by
  obtain ⟨nodes, made, table, _⟩ := resolve_eq_ok resolved
  obtain ⟨x, place, made⟩ := getElem?_of_forall₂ made here
  refine ⟨x, ?_, made⟩
  simp only [table, Arena.graph, List.getElem?_toArray, place]

theorem record_of_node (resolved : i.resolve = .ok image) {x : Node}
    (found : image.arena.graph n = some x) :
    ∃ r, i.records[n.index]? = some r ∧ r.toNode i.find? = .ok x := by
  obtain ⟨nodes, made, table, _⟩ := resolve_eq_ok resolved
  simp only [table, Arena.graph, List.getElem?_toArray] at found
  exact getElem?_of_forall₂ made.flip found

end Image

/-! ### Other ids in another order -/

def Record.rename (ρ : Nat → Nat) (r : Record) : Record :=
  { r with id := ρ r.id, next := r.next.map ρ, field := fun f => (r.field f).map ρ }

theorem Record.rename_targets (ρ : Nat → Nat) (r : Record) :
    (r.rename ρ).targets = r.targets.map ρ := by
  simp only [targets, rename, List.map_append, List.map_filterMap]
  cases r.next <;> rfl

/-- The second image has the records of the first in some order, with the ids renamed so that no two
become one. -/
structure Image.Reorders (i j : Image) (ρ : Nat → Nat) : Prop where
  injective : ∀ a ∈ i.ids, ∀ b ∈ i.ids, ρ a = ρ b → a = b
  root : j.root = ρ i.root
  records : (i.records.map (Record.rename ρ)).Perm j.records

def Image.moved (i j : Image) (ρ : Nat → Nat) (n : NodeRef) : NodeRef :=
  (i.ids[n.index]?.bind fun id => j.find? (ρ id)).getD n

namespace Image.Reorders

variable {i j : Image} {ρ : Nat → Nat} {image image' : LoadedImage} {id : Nat} {n : NodeRef}

theorem ids (reorders : i.Reorders j ρ) : (i.ids.map ρ).Perm j.ids := by
  have renamed := reorders.records.map Record.id
  rw [List.map_map] at renamed
  simp only [Image.ids, List.map_map]
  exact renamed

theorem mem_ids (reorders : i.Reorders j ρ) (known : id ∈ i.ids) : ρ id ∈ j.ids :=
  reorders.ids.mem_iff.mp (List.mem_map_of_mem known)

theorem accepted (reorders : i.Reorders j ρ) (resolved : i.resolve = .ok image) :
    ∃ image', j.resolve = .ok image' := by
  obtain ⟨distinct, targets, root⟩ := resolve_isOk.mp ⟨image, resolved⟩
  refine resolve_isOk.mpr ⟨?_, ?_, ?_⟩
  · exact reorders.ids.nodup_iff.mp (distinct.map_on reorders.injective)
  · intro r' member' id' target'
    obtain ⟨r, member, rfl⟩ := List.mem_map.mp (reorders.records.mem_iff.mpr member')
    rw [Record.rename_targets] at target'
    obtain ⟨id, target, rfl⟩ := List.mem_map.mp target'
    exact reorders.mem_ids (targets r member id target)
  · rw [reorders.root]
    exact reorders.mem_ids root

theorem find? (reorders : i.Reorders j ρ) (distinct : i.ids.Nodup)
    (found : i.find? id = some n) : j.find? (ρ id) = some (i.moved j ρ n) := by
  have here := (find?_eq_some distinct).mp found
  have known := reorders.mem_ids (List.mem_of_getElem? here)
  obtain ⟨m, found'⟩ := Option.isSome_iff_exists.mp (find?_isSome.mpr known)
  simp only [moved, here, Option.bind_some, found', Option.getD_some]

theorem bind_find? (reorders : i.Reorders j ρ) (distinct : i.ids.Nodup) (target : Option Nat)
    (known : ∀ id, target = some id → id ∈ i.ids) :
    (target.map ρ).bind j.find? = (target.bind i.find?).map (i.moved j ρ) := by
  cases target with
  | none => rfl
  | some id =>
    obtain ⟨n, found⟩ := Option.isSome_iff_exists.mp (find?_isSome.mpr (known id rfl))
    simp only [Option.map_some, Option.bind_some, found, reorders.find? distinct found]

theorem record_moved (reorders : i.Reorders j ρ) (distinct : i.ids.Nodup) (distinct' : j.ids.Nodup)
    {r : Record} (here : i.records[n.index]? = some r) :
    j.records[(i.moved j ρ n).index]? = some (r.rename ρ) := by
  have named : i.ids[n.index]? = some r.id := by
    simp only [Image.ids, List.getElem?_map, here, Option.map_some]
  have named' := (find?_eq_some distinct').mp
    (reorders.find? distinct ((find?_eq_some distinct).mpr named))
  rw [Image.ids, List.getElem?_map] at named'
  obtain ⟨r', here', same⟩ := Option.map_eq_some_iff.mp named'
  have member : r.rename ρ ∈ j.records :=
    reorders.records.mem_iff.mp (List.mem_map_of_mem (List.mem_of_getElem? here))
  rw [here', List.inj_on_of_nodup_map distinct' (List.mem_of_getElem? here') member same]

theorem moved_injective (reorders : i.Reorders j ρ) (distinct : i.ids.Nodup)
    (distinct' : j.ids.Nodup) {m : NodeRef} {a b : Nat} (first : i.find? a = some n)
    (second : i.find? b = some m) (same : i.moved j ρ n = i.moved j ρ m) : n = m := by
  have first' := (find?_eq_some distinct').mp (reorders.find? distinct first)
  have second' := (find?_eq_some distinct').mp (reorders.find? distinct second)
  rw [same, second'] at first'
  have known : ∀ {c k}, i.find? c = some k → c ∈ i.ids :=
    fun found => find?_isSome.mp (Option.isSome_of_mem found)
  have names : a = b :=
    reorders.injective a (known first) b (known second) (Option.some.inj first').symm
  rw [names, second] at first
  exact (Option.some.inj first).symm

theorem node_moved (reorders : i.Reorders j ρ) (resolved : i.resolve = .ok image)
    (resolved' : j.resolve = .ok image') {x : Node} (found : image.arena.graph n = some x) :
    ∃ y, image'.arena.graph (i.moved j ρ n) = some y ∧ x.Alike (i.moved j ρ) y ∧
      y.position = x.position := by
  obtain ⟨distinct, targets, _⟩ := resolve_isOk.mp ⟨image, resolved⟩
  obtain ⟨distinct', _⟩ := resolve_isOk.mp ⟨image', resolved'⟩
  obtain ⟨r, here, made⟩ := record_of_node resolved found
  have here' := reorders.record_moved distinct distinct' here
  obtain ⟨y, found', made'⟩ := node_of_record resolved' here'
  have known := targets r (List.mem_of_getElem? here)
  obtain ⟨attributes, position⟩ := Record.toNode_attributes made
  obtain ⟨attributes', position'⟩ := Record.toNode_attributes made'
  obtain ⟨next, field⟩ := Record.toNode_edges made
  obtain ⟨next', field'⟩ := Record.toNode_edges made'
  have same : y.toAttributes = x.toAttributes := attributes'.trans attributes.symm
  refine ⟨y, found', ⟨?_, ?_, ?_⟩, position'.trans position.symm⟩
  · rw [same]
    exact .refl _
  · rw [next, next']
    exact reorders.bind_find? distinct r.next fun id held =>
      known id (Record.mem_targets.mpr (.inl held))
  · intro f _
    rw [field, field']
    exact reorders.bind_find? distinct (r.field f) fun id held =>
      known id (Record.mem_targets.mpr (.inr ⟨f, held⟩))

theorem renames (reorders : i.Reorders j ρ) (resolved : i.resolve = .ok image)
    (resolved' : j.resolve = .ok image') :
    image.arena.graph.Renames image'.arena.graph (i.moved j ρ) image.arena.Has where
  node := fun _ _ _ found => reorders.node_moved resolved resolved' found
  inside := by
    intro n m _ followed
    have closed := (resolve_enclosed resolved).1.closed
    exact Arena.has_iff_graph.mpr (closed n m followed.edge)
  injective := by
    intro n m has has' same
    obtain ⟨distinct, _⟩ := resolve_isOk.mp ⟨image, resolved⟩
    obtain ⟨distinct', _⟩ := resolve_isOk.mp ⟨image', resolved'⟩
    have named : ∀ {k}, image.arena.Has k → ∃ id, i.find? id = some k := by
      intro k has
      obtain ⟨x, found⟩ := Arena.has_iff_graph.mp has
      obtain ⟨r, here, _⟩ := record_of_node resolved found
      refine ⟨r.id, (find?_eq_some distinct).mpr ?_⟩
      simp only [Image.ids, List.getElem?_map, here, Option.map_some]
    obtain ⟨a, first⟩ := named has
    obtain ⟨b, second⟩ := named has'
    exact reorders.moved_injective distinct distinct' first second same

end Image.Reorders

/-- The order of the records of an image and the numbers that it uses for ids carry no meaning. With
other numbers and in another order it is accepted too, and what is built from it is the same. The
issues are the same up to the names of their nodes, which are renamed as the ids are. -/
theorem order_and_ids_carry_no_meaning {i j : Image} {ρ : Nat → Nat} {image : LoadedImage}
    (reorders : i.Reorders j ρ) (resolved : i.resolve = .ok image) :
    ∃ (image' : LoadedImage) (σ : NodeRef → NodeRef),
      j.resolve = .ok image' ∧
      (∀ text, (Json.read? text).bind Json.image? = some j → Image.load text = .ok image') ∧
      (∀ id n, i.find? id = some n → j.find? (ρ id) = some (σ n)) ∧
      image'.root = σ image.root ∧
      ∀ limits,
        buildDesignFile image'.arena.graph limits image'.root =
          (buildDesignFile image.arena.graph limits image.root).mapError (Fault.rename σ) ∧
        buildDesignUnits image'.arena.graph limits image'.root =
          ((buildDesignUnits image.arena.graph limits image.root).map
            (List.map (Except.mapError (Issue.rename σ)))).mapError (Fault.rename σ) := by
  obtain ⟨image', resolved'⟩ := reorders.accepted resolved
  obtain ⟨distinct, _⟩ := Image.resolve_isOk.mp ⟨image, resolved⟩
  obtain ⟨enclosed, has⟩ := Image.resolve_enclosed resolved
  have present := Arena.has_iff_graph.mp has
  have renames := reorders.renames resolved resolved'
  have root : image'.root = i.moved j ρ image.root := by
    obtain ⟨_, _, _, found⟩ := Image.resolve_eq_ok resolved
    obtain ⟨_, _, _, found'⟩ := Image.resolve_eq_ok resolved'
    rw [reorders.root, reorders.find? distinct found] at found'
    exact (Option.some.inj found').symm
  refine ⟨image', i.moved j ρ, resolved', ?_, ?_, root, ?_⟩
  · intro text read
    unfold Image.load
    rw [read]
    exact resolved'
  · exact fun id n found => reorders.find? distinct found
  · intro limits
    rw [root]
    have issues := Builder.buildUnless_issue (b := ⟨image.arena.graph, limits, []⟩) enclosed.closed
      present Builder.openTwice .designFile
    rw [← Builder.build_eq_buildUnless] at issues
    have unopened : Graph.Renames.Opened (i.moved j ρ) image.arena.Has [] [] := ⟨rfl, by simp⟩
    refine ⟨(renames.build_mirrors limits unopened has .designFile).eq_rename issues, ?_⟩
    exact (renames.buildDesignUnits_mirrors limits has).eq_mapError
      (buildDesignUnits_issue enclosed.closed present)

def circularImage : Image where
  root := 10
  records := [
    { id := 10, kind := .designFile, field := fun f => if f = .designUnits then some 20 else none },
    { id := 20, kind := .designUnit, next := some 20 }]

def reorderedImage : Image where
  root := 1
  records := [
    { id := 2, kind := .designUnit, next := some 2 },
    { id := 1, kind := .designFile, field := fun f => if f = .designUnits then some 2 else none }]

theorem circularImage_reorders : circularImage.Reorders reorderedImage (· / 10) where
  injective := by decide
  root := rfl
  records := by
    have file : Record.rename (· / 10)
        { id := 10, kind := .designFile,
          field := fun f => if f = .designUnits then some 20 else none } =
        { id := 1, kind := .designFile,
          field := fun f => if f = .designUnits then some 2 else none } := by
      simp only [Record.rename, Record.mk.injEq, true_and]
      refine ⟨rfl, funext fun f => ?_⟩
      split <;> rfl
    simp only [circularImage, reorderedImage, List.map_cons, List.map_nil, file]
    exact .swap _ _ _

theorem circularImage_refused :
    circularImage.Reorders reorderedImage (· / 10) ∧
      ∃ image', reorderedImage.resolve = .ok image' ∧
        buildDesignFile image'.arena.graph {} image'.root =
          .error (.issue ⟨.malformedChain (.cycle ⟨0⟩ 1), ⟨0⟩, .designUnit, none⟩) := by
  refine ⟨circularImage_reorders, ?_⟩
  obtain ⟨image, resolved⟩ : ∃ image, circularImage.resolve = .ok image := ⟨_, rfl⟩
  obtain ⟨image', σ, resolved', _, moved, _, built⟩ :=
    order_and_ids_carry_no_meaning circularImage_reorders resolved
  have unit : σ ⟨1⟩ = ⟨0⟩ := Option.some.inj (moved 20 ⟨1⟩ rfl).symm
  refine ⟨image', resolved', ?_⟩
  cases resolved
  rw [(built {}).1]
  change Except.error (Fault.issue
    ⟨.malformedChain (.cycle (σ ⟨1⟩) 1), σ ⟨1⟩, .designUnit, none⟩) = _
  rw [unit]

end VhdlDesign
