import VhdlDesign.Proofs.Members
import VhdlDesign.Proofs.Result

/-!
Parts of an image.

A record is read if each of its members is fine by itself, so that one member can be replaced by
another. What is read where an object stands in an image becomes a part of the image, at the place
in the file where the object stands.
-/
namespace VhdlDesign.Json

variable {p q : Place} {x y j : Json}

/-! ### Records by their members -/

theorem image?_eq_some {i : Image} : image? j = some i ↔ ∃ m, Place.members .image j = some m ∧
    required m "root" index? = some i.root ∧
    required m "nodes" (list? record?) = some i.records := by
  simp only [image?, Option.bind_eq_bind, Option.bind_eq_some_iff]
  constructor
  · rintro ⟨m, given, root, hroot, records, hrecords, same⟩
    cases same
    exact ⟨m, given, hroot, hrecords⟩
  · rintro ⟨m, given, root, records⟩
    exact ⟨m, given, _, root, _, records, rfl⟩

theorem position?_eq_some {pos : Position} :
    position? j = some pos ↔ ∃ m, Place.members .position j = some m ∧
      optional m "file" text? = some pos.file ∧ required m "line" index? = some pos.line ∧
      required m "column" index? = some pos.column := by
  simp only [position?, Option.bind_eq_bind, Option.bind_eq_some_iff]
  constructor
  · rintro ⟨m, given, file, hfile, line, hline, column, hcolumn, same⟩
    cases same
    exact ⟨m, given, hfile, hline, hcolumn⟩
  · rintro ⟨m, given, file, line, column⟩
    exact ⟨m, given, _, file, _, line, _, column, rfl⟩

theorem record?_eq_some {r : Record} :
    record? j = some r ↔ ∃ m, Place.members .record j = some m ∧
      required m "id" index? = some r.id ∧
      required m "kind" (enumeration Kind.ofKey?) = some r.kind ∧
      optional m "name" text? = some r.name ∧
      optional m "position" position? = some r.position ∧
      optional m "next" index? = some r.next ∧
      defaulted m "fields" (fun _ => none) fields? = some r.field ∧
      optional m "literal" literal? = some r.literal ∧
      optional m "mode" (enumeration Mode.ofKey?) = some r.mode ∧
      optional m "direction" (enumeration Direction.ofKey?) = some r.direction ∧
      defaulted m "flags" [] (list? (enumeration Flag.ofKey?)) = some r.flags := by
  simp only [record?, Option.bind_eq_bind, Option.bind_eq_some_iff]
  constructor
  · rintro ⟨m, given, id, hid, kind, hkind, name, hname, position, hposition, next, hnext, field,
      hfield, literal, hliteral, mode, hmode, direction, hdirection, flags, hflags, same⟩
    cases same
    exact ⟨m, given, hid, hkind, hname, hposition, hnext, hfield, hliteral, hmode, hdirection,
      hflags⟩
  · rintro ⟨m, given, id, kind, name, position, next, field, literal, mode, direction, flags⟩
    exact ⟨m, given, _, id, _, kind, _, name, _, position, _, next, _, field, _, literal, _, mode,
      _, direction, _, flags, rfl⟩

namespace Place

section

variable {key : String}

/-- Whether a record can do with what is given for one of its members, if anything is. -/
def accepts (p : Place) (key : String) (o : Option Json) : Bool :=
  let m : Members := fun _ => o
  match p with
  | .image =>
    if key = "root" then (required m key index?).isSome
    else (required m key (list? record?)).isSome
  | .record =>
    if key = "id" then (required m key index?).isSome
    else if key = "kind" then (required m key (enumeration Kind.ofKey?)).isSome
    else if key = "name" then (optional m key text?).isSome
    else if key = "position" then (optional m key position?).isSome
    else if key = "next" then (optional m key index?).isSome
    else if key = "fields" then (defaulted m key (fun _ => none) fields?).isSome
    else if key = "literal" then (optional m key literal?).isSome
    else if key = "mode" then (optional m key (enumeration Mode.ofKey?)).isSome
    else if key = "direction" then (optional m key (enumeration Direction.ofKey?)).isSome
    else (defaulted m key [] (list? (enumeration Flag.ofKey?))).isSome
  | .position =>
    if key = "file" then (optional m key text?).isSome else (required m key index?).isSome
  | .nodes | .fields => true

theorem read?_isSome (record : p ∈ records) : (p.read? x).isSome ↔
    ∃ m, p.members x = some m ∧ ∀ key ∈ p.keys, p.accepts key (m key) = true := by
  simp only [records, List.mem_cons, List.not_mem_nil, or_false] at record
  simp only [Option.isSome_iff_exists]
  obtain rfl | rfl | rfl := record
  · have each : ∀ m : Members, (∀ key ∈ keys .image, accepts .image key (m key) = true) ↔
        (required m "root" index?).isSome ∧ (required m "nodes" (list? record?)).isSome := by
      intro m
      simp [keys, accepts, required]
    simp only [each, Option.isSome_iff_exists]
    constructor
    · rintro ⟨i, read⟩
      obtain ⟨m, given, root, nodes⟩ := image?_eq_some.mp read
      exact ⟨m, given, ⟨_, root⟩, ⟨_, nodes⟩⟩
    · rintro ⟨m, given, ⟨root, hroot⟩, ⟨nodes, hnodes⟩⟩
      exact ⟨⟨root, nodes⟩, image?_eq_some.mpr ⟨m, given, hroot, hnodes⟩⟩
  · have each : ∀ m : Members, (∀ key ∈ keys .record, accepts .record key (m key) = true) ↔
        (required m "id" index?).isSome ∧
        (required m "kind" (enumeration Kind.ofKey?)).isSome ∧
        (optional m "name" text?).isSome ∧ (optional m "position" position?).isSome ∧
        (optional m "next" index?).isSome ∧
        (defaulted m "fields" (fun _ => none) fields?).isSome ∧
        (optional m "literal" literal?).isSome ∧
        (optional m "mode" (enumeration Mode.ofKey?)).isSome ∧
        (optional m "direction" (enumeration Direction.ofKey?)).isSome ∧
        (defaulted m "flags" [] (list? (enumeration Flag.ofKey?))).isSome := by
      intro m
      simp [keys, recordKeys, accepts, required, optional, defaulted]
    simp only [each, Option.isSome_iff_exists]
    constructor
    · rintro ⟨r, read⟩
      obtain ⟨m, given, id, kind, name, position, next, field, literal, mode, direction, flags⟩ :=
        record?_eq_some.mp read
      exact ⟨m, given, ⟨_, id⟩, ⟨_, kind⟩, ⟨_, name⟩, ⟨_, position⟩, ⟨_, next⟩, ⟨_, field⟩,
        ⟨_, literal⟩, ⟨_, mode⟩, ⟨_, direction⟩, ⟨_, flags⟩⟩
    · rintro ⟨m, given, ⟨id, hid⟩, ⟨kind, hkind⟩, ⟨name, hname⟩, ⟨position, hposition⟩,
        ⟨next, hnext⟩, ⟨field, hfield⟩, ⟨literal, hliteral⟩, ⟨mode, hmode⟩,
        ⟨direction, hdirection⟩, ⟨flags, hflags⟩⟩
      exact ⟨{ id, kind, name, position, next, field, literal, mode, direction, flags },
        record?_eq_some.mpr ⟨m, given, hid, hkind, hname, hposition, hnext, hfield, hliteral,
          hmode, hdirection, hflags⟩⟩
  · have each : ∀ m : Members, (∀ key ∈ keys .position, accepts .position key (m key) = true) ↔
        (optional m "file" text?).isSome ∧ (required m "line" index?).isSome ∧
        (required m "column" index?).isSome := by
      intro m
      simp [keys, accepts, required, optional]
    simp only [each, Option.isSome_iff_exists]
    constructor
    · rintro ⟨pos, read⟩
      obtain ⟨m, given, file, line, column⟩ := position?_eq_some.mp read
      exact ⟨m, given, ⟨_, file⟩, ⟨_, line⟩, ⟨_, column⟩⟩
    · rintro ⟨m, given, ⟨file, hfile⟩, ⟨line, hline⟩, ⟨column, hcolumn⟩⟩
      exact ⟨⟨file, line, column⟩, position?_eq_some.mpr ⟨m, given, hfile, hline, hcolumn⟩⟩

theorem accepts_part (part : p.part? key = some q) (solid : x ≠ .null) :
    p.accepts key (some x) = (q.read? x).isSome := by
  cases p with
  | image =>
    obtain ⟨rfl, ⟨⟩⟩ := Option.ite_none_right_eq_some.mp part
    rfl
  | record =>
    simp only [part?] at part
    split at part
    next same =>
      cases same
      cases part
      simp [accepts, optional, nullable_eq solid, read?]
    next =>
      obtain ⟨rfl, ⟨⟩⟩ := Option.ite_none_right_eq_some.mp part
      rfl
  | nodes | position | fields => cases part

section

variable {around : Json → Json} (holds : p.Holds key around) (record : p ∈ records)

include holds record

theorem Holds.accepts (asked : key ∈ p.keys) (read : (p.read? (around x)).isSome) :
    p.accepts key (some x) = true := by
  obtain ⟨m, given, fine⟩ := (read?_isSome record).mp read
  rw [← (holds x m given).1]
  exact fine key asked

theorem Holds.replace (fine : p.accepts key (some y) = true) (read : (p.read? (around x)).isSome) :
    (p.read? (around y)).isSome := by
  obtain ⟨m, given, others⟩ := (read?_isSome record).mp read
  obtain ⟨m', given', same⟩ := (holds x m given).2 y
  refine (read?_isSome record).mpr ⟨m', given', fun name asked => ?_⟩
  by_cases here : name = key
  · rw [here, (holds y m' given').1]
    exact fine
  · rw [same name here]
    exact others name asked

end

/-- What was read stands in an image: in the record at a place in the file, or in the image itself.
-/
def Stands (i : Image) (place : Nat) : (p : Place) → p.Value → Prop
  | .image, v => v = i
  | .nodes, v => v = i.records
  | .record, v => i.records[place]? = some v
  | .position, v => ∃ r, i.records[place]? = some r ∧ r.position = some v
  | .fields, v => ∃ r, i.records[place]? = some r ∧ r.field = v

theorem Holds.stands {around : Json → Json} (holds : p.Holds key around)
    (part : p.part? key = some q) (solid : x ≠ .null) {v : p.Value}
    (read : p.read? (around x) = some v) :
    ∃ w, q.read? x = some w ∧ ∀ i place, p.Stands i place v → q.Stands i place w := by
  cases p with
  | image =>
    obtain ⟨rfl, ⟨⟩⟩ := Option.ite_none_right_eq_some.mp part
    obtain ⟨m, given, _, nodes⟩ := image?_eq_some.mp read
    rw [required, (holds x m given).1] at nodes
    exact ⟨_, nodes, fun i place same => congrArg Image.records same⟩
  | record =>
    obtain ⟨m, given, _, _, _, position, _, fields, _⟩ := record?_eq_some.mp read
    have found := (holds x m given).1
    simp only [part?] at part
    split at part
    next same =>
      cases same
      cases part
      simp only [optional, found, nullable_eq solid] at position
      obtain ⟨w, read, same⟩ := Option.map_eq_some_iff.mp position
      exact ⟨w, read, fun i place here => ⟨v, here, same.symm⟩⟩
    next =>
      obtain ⟨rfl, ⟨⟩⟩ := Option.ite_none_right_eq_some.mp part
      simp only [defaulted, found] at fields
      exact ⟨_, fields, fun i place here => ⟨v, here, rfl⟩⟩
  | nodes | position | fields => cases part

end

end Place

namespace Frame

/-- The place in the file of the record that the gap is in, if the record is not fixed already. -/
def place {p q : Place} : Frame p q → Nat → Nat
  | .here _, k => k
  | .member _ _ _ _ inner, k => inner.place k
  | .element _ _ _ _ _ inner, k => inner.place k
  | .node before _ inner, _ => inner.place before.length

theorem isSome_inner (c : Frame p q) (solid : x ≠ .null) (read : (p.read? (c.fill x)).isSome) :
    (q.read? x).isSome := by
  by_contra refused
  rw [c.read?_eq_none solid (by simpa using refused)] at read
  cases read

theorem replace (c : Frame p q) (solid : x ≠ .null) (solid' : y ≠ .null)
    (fine : (q.read? y).isSome) (read : (p.read? (c.fill x)).isSome) :
    (p.read? (c.fill y)).isSome := by
  induction c with
  | here => exact fine
  | member key part before after inner ih =>
    obtain ⟨record, asked⟩ := Place.record_of_part part
    have holds := Place.holds_object asked before after
    have old := holds.accepts record asked read
    rw [Place.accepts_part part (inner.fill_ne_null solid)] at old
    refine holds.replace record ?_ read
    rw [Place.accepts_part part (inner.fill_ne_null solid')]
    exact ih fine old
  | element key part before after stands inner ih =>
    obtain ⟨record, asked⟩ := Place.record_of_part part
    have holds := Place.holds_array stands after
    have old := holds.accepts record asked read
    rw [Place.accepts_part part (inner.fill_ne_null solid)] at old
    refine holds.replace record ?_ read
    rw [Place.accepts_part part (inner.fill_ne_null solid')]
    exact ih fine old
  | node before after inner ih =>
    simp only [fill, Place.read?, list?, mapM_isSome, List.forall_mem_append,
      List.forall_mem_cons] at read ⊢
    exact ⟨read.1, ih fine read.2.1, read.2.2⟩

theorem stands (c : Frame p q) (solid : x ≠ .null) {v : p.Value}
    (read : p.read? (c.fill x) = some v) :
    ∃ w, q.read? x = some w ∧
      ∀ i place, p.Stands i place v → q.Stands i (c.place place) w := by
  induction c with
  | here => exact ⟨v, read, fun i place here => here⟩
  | member key part before after inner ih =>
    obtain ⟨u, inside, upper⟩ :=
      (Place.holds_object (Place.record_of_part part).2 before after).stands part
        (inner.fill_ne_null solid) read
    obtain ⟨w, found, lower⟩ := ih inside
    exact ⟨w, found, fun i place here => lower i place (upper i place here)⟩
  | element key part before after stands inner ih =>
    obtain ⟨u, inside, upper⟩ :=
      (Place.holds_array stands after).stands part (inner.fill_ne_null solid) read
    obtain ⟨w, found, lower⟩ := ih inside
    exact ⟨w, found, fun i place here => lower i place (upper i place here)⟩
  | node before after inner ih =>
    have here : (before ++ inner.fill x :: after)[before.length]? = some (inner.fill x) := by
      simp
    obtain ⟨r, listed, inside⟩ := getElem?_of_forall₂ (mapM_eq_some_iff.mp read) here
    obtain ⟨w, found, lower⟩ := ih inside
    refine ⟨w, found, fun i place whole => lower i before.length ?_⟩
    replace whole : v = i.records := whole
    rwa [whole] at listed

end Frame

end VhdlDesign.Json
