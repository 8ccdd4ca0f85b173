import VhdlDesign.Proofs.Reordering

/-!
Resolving references.

An image is resolved if its ids differ and every id that it refers to is there. The records become
nodes at their own places, and a reference becomes the place of the one record with its id. What is
reported of an image that cannot be resolved is fixed by three orders: that of the file, that of the
references of a record, and that of the defects, from repeated ids to a missing root.
-/
namespace VhdlDesign

/-! ### What is expected of a loaded image -/

/-- A record with the id stands at this place and at no other. -/
def Image.StandsAt (i : Image) (id : Nat) (n : NodeRef) : Prop :=
  ∀ m : NodeRef, i.ids[m.index]? = some id ↔ m = n

/-- The node says of itself what the record says, and refers to the places of the records that the
record refers to. -/
structure Record.Becomes (i : Image) (r : Record) (x : Node) : Prop where
  kind : x.kind = r.kind
  name : x.name = r.name
  position : x.position = r.position
  literal : x.literal = r.literal
  mode : x.mode = r.mode
  direction : x.direction = r.direction
  flags : ∀ f, x.has f = true ↔ f ∈ r.flags
  next : Option.Rel i.StandsAt r.next x.next
  field : ∀ f, Option.Rel i.StandsAt (r.field f) (x.field f)

structure Image.LoadsAs (i : Image) (image : LoadedImage) : Prop where
  size : image.arena.size = i.records.length
  nodes : ∀ place r, i.records[place]? = some r →
    ∃ x, image.arena.graph ⟨place⟩ = some x ∧ r.Becomes i x
  root : i.StandsAt i.root image.root

/-! ### What is expected of an error -/

def Record.Known (i : Image) (r : Record) : Prop :=
  (∀ id, r.next = some id → id ∈ i.ids) ∧ ∀ f id, r.field f = some id → id ∈ i.ids

/-- The id is missing, and it is the first missing one that the record refers to: as its successor,
or else in the first field, in the order of their declaration, that refers to a missing one. -/
def Record.FirstMissing (i : Image) (r : Record) (id : Nat) : Prop :=
  id ∉ i.ids ∧
    (r.next = some id ∨
      (∀ k, r.next = some k → k ∈ i.ids) ∧
        ∃ f, r.field f = some id ∧
          ∀ f' k, f'.ctorIdx < f.ctorIdx → r.field f' = some k → k ∈ i.ids)

def LoadError.Reports (i : Image) : LoadError → Prop
  | .malformed => False
  | .duplicateId id => ∃ before r after, i.records = before ++ r :: after ∧
    (before.map Record.id).Nodup ∧ r.id ∈ before.map Record.id ∧ id = r.id
  | .danglingReference source id => i.ids.Nodup ∧
    ∃ before r after, i.records = before ++ r :: after ∧ (∀ r' ∈ before, r'.Known i) ∧
      source = r.id ∧ r.FirstMissing i id
  | .missingRoot id => i.ids.Nodup ∧ (∀ r ∈ i.records, r.Known i) ∧ i.root ∉ i.ids ∧ id = i.root

/-! ### The first defect -/

theorem firstRepeat?_eq_some {seen ids : List Nat} {id : Nat} :
    firstRepeat? seen ids = some id ↔ ∃ before after, ids = before ++ id :: after ∧
      before.Nodup ∧ (∀ k ∈ before, k ∉ seen) ∧ (id ∈ before ∨ id ∈ seen) := by
  induction ids generalizing seen with
  | nil => simp [firstRepeat?]
  | cons k ids ih =>
    rw [firstRepeat?]
    by_cases met : k ∈ seen
    · rw [if_pos met]
      constructor
      · intro same
        cases same
        exact ⟨[], ids, rfl, .nil, by simp, .inr met⟩
      · rintro ⟨before, after, split, _, fresh, _⟩
        cases before with
        | nil =>
          cases split
          rfl
        | cons k' before =>
          cases split
          exact absurd met (fresh k List.mem_cons_self)
    · -- what the rest must not repeat is now one id more, and that id opens the split
      rw [if_neg met, ih]
      constructor
      · rintro ⟨before, after, rfl, distinct, fresh, again⟩
        refine ⟨k :: before, after, rfl, ?_, ?_, ?_⟩ <;> grind
      · rintro ⟨before, after, split, distinct, fresh, again⟩
        cases before with
        | nil =>
          cases split
          simp [met] at again
        | cons k' before =>
          cases split
          refine ⟨before, after, rfl, ?_, ?_, ?_⟩ <;> grind

theorem Field.mem_before {before after : List Field} {f : Field}
    (split : all = before ++ f :: after) (f' : Field) : f' ∈ before ↔ f'.ctorIdx < f.ctorIdx := by
  have sorted : all.Pairwise fun a b => a.ctorIdx < b.ctorIdx := by decide
  rw [split, List.pairwise_append, List.pairwise_cons] at sorted
  obtain ⟨_, ⟨later, _⟩, earlier⟩ := sorted
  constructor
  · intro member
    exact earlier f' member f List.mem_cons_self
  · intro less
    have member : f' ∈ before ++ f :: after := split ▸ f'.mem_all
    rcases List.mem_append.mp member with member | member
    · exact member
    rcases List.mem_cons.mp member with rfl | member
    · exact absurd less (Nat.lt_irrefl _)
    · have greater := later f' member
      omega

variable {i : Image} {image : LoadedImage}

theorem Image.find?_isNone {id : Nat} : (i.find? id).isNone = true ↔ id ∉ i.ids := by
  rw [← find?_isSome, Bool.not_eq_true, Option.isSome_eq_false_iff]

namespace Record

variable {r : Record} {id : Nat}

theorem known_iff_targets : r.Known i ↔ ∀ id ∈ r.targets, id ∈ i.ids := by
  simp only [mem_targets]
  constructor
  · rintro ⟨next, field⟩ id (held | ⟨f, held⟩)
    · exact next id held
    · exact field f id held
  · intro known
    exact ⟨fun id held => known id (.inl held), fun f id held => known id (.inr ⟨f, held⟩)⟩

theorem known_iff : r.Known i ↔ ∃ x, r.toNode i.find? = .ok x := by
  simp only [known_iff_targets, toNode_isOk, Image.find?_isSome]

theorem fields_find? :
    (Field.all.filterMap r.field).find? (fun id => (i.find? id).isNone) = some id ↔
      id ∉ i.ids ∧ ∃ f, r.field f = some id ∧
        ∀ f' k, f'.ctorIdx < f.ctorIdx → r.field f' = some k → k ∈ i.ids := by
  rw [List.find?_filterMap, Option.bind_eq_some_iff]
  simp only [List.find?_eq_some_iff_append]
  constructor
  · rintro ⟨f, ⟨missing, before, after, split, fine⟩, held⟩
    rw [held] at missing
    refine ⟨Image.find?_isNone.mp missing, f, held, ?_⟩
    intro f' k less held'
    have here := fine f' ((Field.mem_before split f').mpr less)
    rw [held'] at here
    exact Image.find?_isSome.mp (by simpa using here)
  · rintro ⟨absent, f, held, fine⟩
    obtain ⟨before, after, split⟩ := List.append_of_mem f.mem_all
    refine ⟨f, ⟨?_, before, after, split, ?_⟩, held⟩
    · rw [held]
      exact Image.find?_isNone.mpr absent
    · intro f' earlier
      cases held' : r.field f' with
      | none => rfl
      | some k =>
        have known := fine f' k ((Field.mem_before split f').mp earlier) held'
        simpa using Image.find?_isSome.mpr known

theorem targets_find? :
    r.targets.find? (fun id => (i.find? id).isNone) = some id ↔ r.FirstMissing i id := by
  rw [targets, List.find?_append, FirstMissing]
  cases r.next with
  | none =>
    rw [Option.toList_none, List.find?_nil, Option.none_or, fields_find?]
    simp
  | some k =>
    rw [Option.toList_some, List.find?_singleton]
    by_cases known : k ∈ i.ids
    · -- the successor is there, so the fields are looked at
      have found : (i.find? k).isNone = false := by
        simpa using Image.find?_isSome.mpr known
      simp only [found, Bool.false_eq_true, if_false, Option.none_or, fields_find?]
      constructor
      · rintro ⟨absent, rest⟩
        refine ⟨absent, .inr ⟨?_, rest⟩⟩
        intro k' same
        cases same
        exact known
      · rintro ⟨absent, same | ⟨_, rest⟩⟩
        · cases same
          exact absurd known absent
        · exact ⟨absent, rest⟩
    · simp only [Image.find?_isNone.mpr known, if_true, Option.some_or]
      constructor
      · intro same
        cases same
        exact ⟨known, .inl rfl⟩
      · rintro ⟨_, same | ⟨fine, _⟩⟩
        · exact same
        · exact absurd (fine k rfl) known

theorem toNode_eq_error {e : LoadError} : r.toNode i.find? = .error e ↔
    ∃ id, e = .danglingReference r.id id ∧ r.FirstMissing i id := by
  simp only [← targets_find?]
  unfold toNode
  cases r.targets.find? fun id => (i.find? id).isNone with
  | none => simp
  | some id => simp [eq_comm]

end Record

/-! ### The table -/

namespace Image

theorem standsAt_of_find? {id : Nat} {n : NodeRef} (distinct : i.ids.Nodup)
    (found : i.find? id = some n) : i.StandsAt id n := by
  intro m
  rw [← find?_eq_some distinct, found, Option.some.injEq, eq_comm]

theorem rel_bind_find? {target : Option Nat} (distinct : i.ids.Nodup)
    (known : ∀ id, target = some id → id ∈ i.ids) :
    Option.Rel i.StandsAt target (target.bind i.find?) := by
  cases target with
  | none => exact .none
  | some id =>
    obtain ⟨n, found⟩ := Option.isSome_iff_exists.mp (find?_isSome.mpr (known id rfl))
    rw [Option.bind_some, found]
    exact .some (standsAt_of_find? distinct found)

end Image

theorem Record.becomes_of_toNode {r : Record} {x : Node} (distinct : i.ids.Nodup)
    (made : r.toNode i.find? = .ok x) : r.Becomes i x := by
  obtain ⟨same, position⟩ := toNode_attributes made
  obtain ⟨next, field⟩ := toNode_edges made
  obtain ⟨known, knownFields⟩ := known_iff.mpr ⟨x, made⟩
  refine ⟨congrArg Attributes.kind same, congrArg Attributes.name same, position,
    congrArg Attributes.literal same, congrArg Attributes.mode same,
    congrArg Attributes.direction same, ?_, ?_, ?_⟩
  · intro f
    rw [same, Attributes.has, List.contains_iff_mem]
  · rw [next]
    exact Image.rel_bind_find? distinct known
  · intro f
    rw [field f]
    exact Image.rel_bind_find? distinct (knownFields f)

theorem Image.loadsAs_of_resolve (resolved : i.resolve = .ok image) : i.LoadsAs image := by
  obtain ⟨distinct, _, _⟩ := resolve_isOk.mp ⟨image, resolved⟩
  obtain ⟨nodes, made, table, root⟩ := resolve_eq_ok resolved
  refine ⟨?_, ?_, standsAt_of_find? distinct root⟩
  · rw [table]
    exact made.length_eq.symm
  · intro place r here
    obtain ⟨x, found, made⟩ := node_of_record (n := ⟨place⟩) resolved here
    exact ⟨x, found, Record.becomes_of_toNode distinct made⟩

/-! ### The error -/

theorem Image.resolve_eq_error {e : LoadError} : i.resolve = .error e ↔
    (∃ id, firstRepeat? [] i.ids = some id ∧ e = .duplicateId id) ∨
    (firstRepeat? [] i.ids = none ∧ (i.records.mapM fun r => r.toNode i.find?) = .error e) ∨
    (firstRepeat? [] i.ids = none ∧
      (∃ nodes, (i.records.mapM fun r => r.toNode i.find?) = .ok nodes) ∧
      i.find? i.root = none ∧ e = .missingRoot i.root) := by
  unfold resolve
  cases firstRepeat? [] i.ids with
  | some id => simp [eq_comm]
  | none =>
    cases i.records.mapM fun r => r.toNode i.find? with
    | error e' => simp [bind, Except.bind]
    | ok nodes =>
      cases i.find? i.root with
      | some root => simp [bind, Except.bind]
      | none => simp [bind, Except.bind, eq_comm]

theorem Image.firstRepeat?_ids {id : Nat} :
    firstRepeat? [] i.ids = some id ↔ (LoadError.duplicateId id).Reports i := by
  rw [firstRepeat?_eq_some]
  constructor
  · rintro ⟨before, after, split, distinct, _, again⟩
    obtain ⟨first, rest, records, rfl, tail⟩ := List.map_eq_append_iff.mp split
    obtain ⟨r, last, rfl, rfl, rfl⟩ := List.map_eq_cons_iff.mp tail
    exact ⟨first, r, last, records, distinct, by simpa using again, rfl⟩
  · rintro ⟨before, r, after, records, distinct, again, rfl⟩
    refine ⟨before.map Record.id, after.map Record.id, ?_, distinct, by simp, .inl again⟩
    rw [ids, records, List.map_append, List.map_cons]

theorem Image.mapM_toNode_eq_error {e : LoadError} :
    (i.records.mapM fun r => r.toNode i.find?) = .error e ↔
      ∃ before r after, i.records = before ++ r :: after ∧ (∀ r' ∈ before, r'.Known i) ∧
        ∃ id, e = .danglingReference r.id id ∧ r.FirstMissing i id := by
  simp only [mapM_eq_error_iff, Record.toNode_eq_error, Record.known_iff]

theorem Image.resolve_eq_error_iff {e : LoadError} : i.resolve = .error e ↔ e.Reports i := by
  have unrepeated : firstRepeat? [] i.ids = none ↔ i.ids.Nodup := by
    simp [firstRepeat?_eq_none]
  have rootless : i.find? i.root = none ↔ i.root ∉ i.ids := by
    rw [← find?_isNone, Option.isNone_iff_eq_none]
  simp only [resolve_eq_error, firstRepeat?_ids, mapM_toNode_eq_error, mapM_isOk,
    ← Record.known_iff, unrepeated, rootless]
  cases e with
  | malformed => simp [LoadError.Reports]
  | duplicateId id => simp
  | danglingReference source id => simp [LoadError.Reports]
  | missingRoot id => simp [LoadError.Reports]

/-- Loading resolves references. An image that could be read is accepted exactly if its ids differ
and all that its records and its root refer to is there; then each record has become a node at its
place, with the same attributes and with its references resolved to the places of the records they
name. Otherwise the error is the first repeated id; or, if none is repeated, the first missing id in
file order, successor before fields; or, if none is missing, the root. -/
theorem loading_resolves_references (i : Image) :
    (∀ text, (Json.read? text).bind Json.image? = some i → Image.load text = i.resolve) ∧
    ((∃ image, i.resolve = .ok image) ↔
      i.ids.Nodup ∧ (∀ r ∈ i.records, r.Known i) ∧ i.root ∈ i.ids) ∧
    (∀ image, i.resolve = .ok image → i.LoadsAs image) ∧
    ∀ e, i.resolve = .error e ↔ e.Reports i := by
  refine ⟨?_, ?_, fun image => Image.loadsAs_of_resolve, fun e => Image.resolve_eq_error_iff⟩
  · intro text read
    rw [Image.load, read]
  · simp only [Image.resolve_isOk, Record.known_iff_targets]

def tornImage : Image where
  root := 9
  records := [
    { id := 4, kind := .designUnit, next := some 7 },
    { id := 7, kind := .designFile,
      field := fun
        | .contextItems => some 5
        | .designUnits => some 6
        | .unit => some 4
        | _ => none },
    { id := 2, kind := .useClause, next := some 3 }]

theorem tornImage_refused : tornImage.resolve = .error (.danglingReference 7 6) := by
  refine ((loading_resolves_references tornImage).2.2.2 _).mpr
    ⟨by decide, [_], _, [_], rfl, ?_, rfl, by decide, .inr ⟨nofun, .designUnits, rfl, nofun⟩⟩
  intro r' member
  cases List.mem_singleton.mp member
  refine ⟨?_, nofun⟩
  intro id held
  cases held
  decide

end VhdlDesign
