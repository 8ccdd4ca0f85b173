import VhdlDesign.Proofs.Decimal
import VhdlDesign.Proofs.Overwriting
import VhdlDesign.Proofs.Parts
import VhdlDesign.Proofs.Resolution
import VhdlDesign.Proofs.Revision

/-!
Numbers in an image.

Ids, references, lines, columns and integer literals are written in decimal, with any number of
digits. A number that fits its place is taken as it is written, and one that does not makes the
whole image malformed. So references to different ids never lead to the same node.
-/
namespace VhdlDesign.Json

variable {p : Place} {x : Json} {z : Int}

/-! ### Numerals of integers -/

theorem spells_toString (z : Int) : Spells (toString z).toList (.value (.number (.ofInt z))) :=
  .number fun _ ends => Reader.numeral_toString ends z

theorem index?_ofInt :
    index? (.number (.ofInt z)) = if 0 ≤ z ∧ z < 4294967296 then some z.toNat else none := by
  simp only [index?, integer?, Numeral.integer?_ofInt, Option.bind_eq_bind, Option.bind_some]

theorem integerLiteral?_ofInt : integerLiteral? (.number (.ofInt z)) =
    if -9223372036854775808 ≤ z ∧ z < 9223372036854775808 then some z else none := by
  simp only [integerLiteral?, integer?, Numeral.integer?_ofInt, Option.bind_eq_bind,
    Option.bind_some]

theorem literal?_integer (x : Json) :
    literal? (.object [(some "integer", x)]) = (integerLiteral? x).map .integer := by
  rw [literal?, if_pos rfl]

theorem index?_eq_some {n : Nat} :
    index? (.number (.ofInt z)) = some n ↔ (n : Int) = z ∧ 0 ≤ z ∧ z ≤ 2 ^ 32 - 1 := by
  rw [index?_ofInt, Option.ite_none_right_eq_some, Option.some.injEq]
  omega

theorem index?_isSome : (index? (.number (.ofInt z))).isSome ↔ 0 ≤ z ∧ z ≤ 2 ^ 32 - 1 := by
  rw [index?_ofInt]
  split
  · simp; omega
  · simp; omega

theorem literal?_eq_some {l : Literal} :
    literal? (.object [(some "integer", .number (.ofInt z))]) = some l ↔
      l = .integer z ∧ -2 ^ 63 ≤ z ∧ z ≤ 2 ^ 63 - 1 := by
  rw [literal?_integer, integerLiteral?_ofInt]
  split
  · simp [eq_comm]; omega
  · simp; omega

/-! ### Places of numbers -/

inductive Slot : Place → Type
  | root : Slot .image
  | id : Slot .record
  | next : Slot .record
  | literal : Slot .record
  | line : Slot .position
  | column : Slot .position
  | target (f : Field) : Slot .fields

namespace Slot

def key : Slot p → String
  | .root => "root"
  | .id => "id"
  | .next => "next"
  | .literal => "literal"
  | .line => "line"
  | .column => "column"
  | .target f => f.key

/-- The value of that member. An integer literal is marked as one. -/
def wrap : Slot p → Json → Json
  | .literal, x => .object [(some "integer", x)]
  | _, x => x

/-- Integer literals have 64 bits with a sign, all other numbers 32 bits without one. -/
def Fits (z : Int) : Slot p → Prop
  | .literal => -2 ^ 63 ≤ z ∧ z ≤ 2 ^ 63 - 1
  | _ => 0 ≤ z ∧ z ≤ 2 ^ 32 - 1

def number? : (slot : Slot p) → p.Value → Option Int
  | .root, v => some v.root
  | .id, v => some v.id
  | .next, v => v.next.map Int.ofNat
  | .literal, v => v.literal.bind fun
    | .integer z => some z
    | _ => none
  | .line, v => some v.line
  | .column, v => some v.column
  | .target f, v => (v f).map Int.ofNat

theorem encloses (slot : Slot p) : Encloses fun x => .value (slot.wrap x) := by
  cases slot with
  | literal => exact Encloses.object [] [] (some "integer")
  | root | id | next | line | column | target => exact Encloses.value

theorem record_or_fields (slot : Slot p) : p ∈ Place.records ∧ slot.key ∈ p.keys ∨ p = .fields := by
  cases slot with
  | target f => exact .inr rfl
  | root | id | next | literal | line | column => exact .inl (by decide)

end Slot

variable {slot : Slot p}

theorem Slot.accepts_iff (record : p ∈ Place.records) :
    p.accepts slot.key (some (slot.wrap (.number (.ofInt z)))) = true ↔ slot.Fits z := by
  cases slot with
  | root | id | line | column =>
    simp [Place.accepts, key, wrap, required, Fits, index?_isSome]
  | next => simp [Place.accepts, key, wrap, optional, nullable, Fits, index?_isSome]
  | literal =>
    simp [Place.accepts, key, wrap, optional, nullable, Fits, Option.isSome_iff_exists,
      literal?_eq_some]
  | target f => exact absurd record (by decide)

/-- An object at a place with a gap where a number stands. -/
inductive Gap (slot : Slot p)
  | member (before after : List (Option String × Json))
  | element (before after : List Json) (stands : p.keys[before.length]? = some slot.key)

namespace Gap

def around : Gap slot → Json → Json
  | .member before after, x => .object (before ++ (some slot.key, x) :: after)
  | .element before after _, x => .array (before ++ x :: after)

def fill (g : Gap slot) (x : Json) : Json := g.around (slot.wrap x)

/-- A target of a field does not count if the field is given again later. -/
def Counts (g : Gap slot) : Prop :=
  match slot, g with
  | .target f, .member _ after => some f.key ∉ after.map Prod.fst
  | _, _ => True

theorem encloses (g : Gap slot) : Encloses fun x => .value (g.fill x) := by
  cases g with
  | member before after => exact (Encloses.object before after (some slot.key)).comp slot.encloses
  | element before after stands => exact (Encloses.array before after).comp slot.encloses

theorem fill_ne_null (g : Gap slot) (x : Json) : g.fill x ≠ .null := by
  cases g <;> exact nofun

theorem holds (g : Gap slot) (asked : slot.key ∈ p.keys) : p.Holds slot.key g.around := by
  cases g with
  | member before after => exact Place.holds_object asked before after
  | element before after stands => exact Place.holds_array stands after

theorem found (g : Gap slot) (asked : slot.key ∈ p.keys) {m : Members}
    (given : p.members (g.fill x) = some m) : m slot.key = some (slot.wrap x) :=
  (g.holds asked (slot.wrap x) m given).1

end Gap

theorem fields?_isSome {ms : List (Option String × Json)} :
    (fields? (.object ms)).isSome ↔ ∀ m ∈ ms, (fieldTarget? m).isSome := by
  simp [Option.isSome_iff_exists, fields?_eq_some]

theorem lastTarget_append_cons {before after : List (Option String × Json)} {f : Field}
    (last : some f.key ∉ after.map Prod.fst) :
    lastTarget (before ++ (some f.key, x) :: after) f = index? x := by
  have absent : after.reverse.lookup (some f.key) = none := by
    rw [List.lookup_eq_none_iff]
    rintro ⟨name, y⟩ member
    refine bne_iff_ne.mpr fun same => last ?_
    exact List.mem_map.mpr ⟨(name, y), List.mem_reverse.mp member, same.symm⟩
  simp [lastTarget, List.lookup_append, absent]

namespace Gap

theorem fits (g : Gap slot) (read : (p.read? (g.fill (.number (.ofInt z)))).isSome) :
    slot.Fits z := by
  obtain ⟨record, asked⟩ | rfl := slot.record_or_fields
  · exact (Slot.accepts_iff record).mp ((g.holds asked).accepts record asked read)
  · cases slot with
    | target f =>
      cases g with
      | element before after stands => cases stands
      | member before after =>
        have target := fields?_isSome.mp read (some f.key, .number (.ofInt z))
          (List.mem_append_right before List.mem_cons_self)
        exact index?_isSome.mp (fieldTarget?_isSome.mp target).2

theorem replace (g : Gap slot) (fits : slot.Fits z) (read : (p.read? (g.fill x)).isSome) :
    (p.read? (g.fill (.number (.ofInt z)))).isSome := by
  obtain ⟨record, asked⟩ | rfl := slot.record_or_fields
  · exact (g.holds asked).replace record ((Slot.accepts_iff record).mpr fits) read
  · cases slot with
    | target f =>
      cases g with
      | element before after stands => cases stands
      | member before after =>
        have targets := fields?_isSome.mp read
        refine fields?_isSome.mpr ?_
        simp only [List.forall_mem_append, List.forall_mem_cons] at targets ⊢
        exact ⟨targets.1, fieldTarget?_isSome.mpr ⟨⟨f, rfl⟩, index?_isSome.mpr fits⟩, targets.2.2⟩

theorem number?_eq (g : Gap slot) (counts : g.Counts) {v : p.Value}
    (read : p.read? (g.fill (.number (.ofInt z))) = some v) : slot.number? v = some z := by
  cases slot with
  | root =>
    obtain ⟨m, given, root, _⟩ := image?_eq_some.mp read
    have found : m "root" = some (.number (.ofInt z)) := g.found (by decide) given
    rw [required, found] at root
    exact congrArg some (index?_eq_some.mp root).1
  | id =>
    obtain ⟨m, given, id, _⟩ := record?_eq_some.mp read
    have found : m "id" = some (.number (.ofInt z)) := g.found (by decide) given
    rw [required, found] at id
    exact congrArg some (index?_eq_some.mp id).1
  | next =>
    obtain ⟨m, given, _, _, _, _, next, _⟩ := record?_eq_some.mp read
    have found : m "next" = some (.number (.ofInt z)) := g.found (by decide) given
    rw [optional, found] at next
    obtain ⟨id, index, same⟩ := Option.map_eq_some_iff.mp next
    rw [Slot.number?, ← same]
    exact congrArg some (index?_eq_some.mp index).1
  | literal =>
    obtain ⟨m, given, _, _, _, _, _, _, literal, _⟩ := record?_eq_some.mp read
    have found : m "literal" = some (.object [(some "integer", .number (.ofInt z))]) :=
      g.found (by decide) given
    rw [optional, found] at literal
    obtain ⟨l, integer, same⟩ := Option.map_eq_some_iff.mp literal
    rw [Slot.number?, ← same, (literal?_eq_some.mp integer).1]
    rfl
  | line =>
    obtain ⟨m, given, _, line, _⟩ := position?_eq_some.mp read
    have found : m "line" = some (.number (.ofInt z)) := g.found (by decide) given
    rw [required, found] at line
    exact congrArg some (index?_eq_some.mp line).1
  | column =>
    obtain ⟨m, given, _, _, column⟩ := position?_eq_some.mp read
    have found : m "column" = some (.number (.ofInt z)) := g.found (by decide) given
    rw [required, found] at column
    exact congrArg some (index?_eq_some.mp column).1
  | target f =>
    cases g with
    | element before after stands => cases stands
    | member before after =>
      obtain ⟨targets, rfl⟩ := fields?_eq_some.mp read
      have target := targets (some f.key, .number (.ofInt z))
        (List.mem_append_right before List.mem_cons_self)
      obtain ⟨id, index⟩ := Option.isSome_iff_exists.mp (fieldTarget?_isSome.mp target).2
      calc (lastTarget (before ++ (some f.key, .number (.ofInt z)) :: after) f).map Int.ofNat
        _ = some (id : Int) := by
          rw [lastTarget_append_cons counts, index]
          rfl
        _ = some z := congrArg some (index?_eq_some.mp index).1

end Gap

end VhdlDesign.Json

namespace VhdlDesign

open Json

/-! ### Numbers of a loaded image -/

/-- The record of the node, and no other, has the number as its id. -/
def Image.Denotes (i : Image) (z : Int) (n : NodeRef) : Prop := ∃ id : Nat, id = z ∧ i.StandsAt id n

/-- The node that a number leads to in a loaded image, if it leads to one. Unless the number is that
of the root, it belongs to the given node. -/
def Json.Slot.node? {p : Place} (image : LoadedImage) (n : NodeRef) : Slot p → Option NodeRef
  | .root => some image.root
  | .id => some n
  | .next => image.arena.graph.next n
  | .target f => (image.arena.graph n).bind fun x => x.field f
  | .literal | .line | .column => none

/-- What has become of a number: the value of a literal, a line or column, or a way to the node that
it denotes. -/
def Json.Slot.Shows {p : Place} (i : Image) (image : LoadedImage) (n : NodeRef) (z : Int) :
    Slot p → Prop
  | .literal => ∃ x, image.arena.graph n = some x ∧ x.literal = some (.integer z)
  | .line => ∃ x pos, image.arena.graph n = some x ∧ x.position = some pos ∧ pos.line = z
  | .column => ∃ x pos, image.arena.graph n = some x ∧ x.position = some pos ∧ pos.column = z
  | slot => ∃ m, slot.node? image n = some m ∧ i.Denotes z m

variable {i : Image} {image : LoadedImage} {p : Place} {slot : Slot p} {n : NodeRef} {z z' : Int}

theorem Image.Denotes.unique (one : i.Denotes z n) (other : i.Denotes z' n) : z = z' := by
  obtain ⟨id, rfl, here⟩ := one
  obtain ⟨id', rfl, here'⟩ := other
  have same : some id = some id' := ((here n).mpr rfl).symm.trans ((here' n).mpr rfl)
  rw [Option.some.inj same]

theorem Json.Slot.denotes_of_shows {m : NodeRef} (shows : slot.Shows i image n z)
    (leads : slot.node? image n = some m) : i.Denotes z m := by
  cases slot with
  | literal | line | column => cases leads
  | root | id | next | target =>
    obtain ⟨m', leads', denotes⟩ := shows
    cases leads.symm.trans leads'
    exact denotes

theorem Image.denotes_of_rel {target : Option Nat} {found : Option NodeRef}
    (resolved : Option.Rel i.StandsAt target found) (held : target.map Int.ofNat = some z) :
    ∃ m, found = some m ∧ i.Denotes z m := by
  cases resolved with
  | none => cases held
  | some here =>
    cases held
    exact ⟨_, rfl, _, rfl, here⟩

theorem Json.Slot.shows_of_stands (resolved : i.resolve = .ok image) {place : Nat} {v : p.Value}
    (stands : p.Stands i place v) (number : slot.number? v = some z) :
    slot.Shows i image ⟨place⟩ z := by
  have loads := Image.loadsAs_of_resolve resolved
  cases slot with
  | root =>
    cases stands
    exact ⟨image.root, rfl, _, Option.some.inj number, loads.root⟩
  | id =>
    obtain ⟨distinct, _, _⟩ := Image.resolve_isOk.mp ⟨image, resolved⟩
    have here : i.ids[place]? = some v.id := by
      rw [Image.ids, List.getElem?_map, show i.records[place]? = some v from stands]
      rfl
    have found : i.find? v.id = some ⟨place⟩ := (Image.find?_eq_some distinct).mpr here
    exact ⟨⟨place⟩, rfl, _, Option.some.inj number, Image.standsAt_of_find? distinct found⟩
  | next =>
    obtain ⟨x, here, becomes⟩ := loads.nodes place v stands
    obtain ⟨m, next, denotes⟩ := Image.denotes_of_rel becomes.next number
    exact ⟨m, by rw [node?, Graph.next, here, Option.bind_some, next], denotes⟩
  | literal =>
    obtain ⟨x, here, becomes⟩ := loads.nodes place v stands
    refine ⟨x, here, ?_⟩
    obtain ⟨l, held, integer⟩ := Option.bind_eq_some_iff.mp number
    cases l with
    | integer w =>
      cases integer
      exact becomes.literal.trans held
    | real | character | string => cases integer
  | line =>
    obtain ⟨r, listed, position⟩ := stands
    obtain ⟨x, here, becomes⟩ := loads.nodes place r listed
    exact ⟨x, v, here, becomes.position.trans position, Option.some.inj number⟩
  | column =>
    obtain ⟨r, listed, position⟩ := stands
    obtain ⟨x, here, becomes⟩ := loads.nodes place r listed
    exact ⟨x, v, here, becomes.position.trans position, Option.some.inj number⟩
  | target f =>
    obtain ⟨r, listed, rfl⟩ := stands
    obtain ⟨x, here, becomes⟩ := loads.nodes place r listed
    obtain ⟨m, field, denotes⟩ := Image.denotes_of_rel (becomes.field f) number
    exact ⟨m, by rw [node?, here, Option.bind_some, field], denotes⟩

theorem Image.load_ne_malformed {s : String} :
    Image.load s ≠ .error .malformed ↔ ((read? s).bind image?).isSome := by
  unfold load
  split
  next i read =>
    have resolves : i.resolve ≠ .error .malformed := fun refused => resolve_eq_error_iff.mp refused
    simp [read, resolves]
  next read => simp [read]

/-- The text of an image has an integer at one of its places for numbers. -/
def Json.Writes (s : String) {p : Place} {slot : Slot p} (c : Frame .image p) (g : Gap slot)
    (z : Int) : Prop := read? s = some (c.fill (g.fill (.number (.ofInt z))))

namespace Json.Writes

variable {s : String} {c : Frame .image p} {g : Gap slot}

theorem fits (written : Writes s c g z) (accepted : Image.load s ≠ .error .malformed) :
    slot.Fits z := by
  rw [Image.load_ne_malformed, show read? s = _ from written, Option.bind_some] at accepted
  exact g.fits (c.isSome_inner (g.fill_ne_null _) accepted)

theorem accepted (written : Writes s c g z) (fine : (image? (c.fill (g.fill x))).isSome)
    (fits : slot.Fits z) : Image.load s ≠ .error .malformed := by
  rw [Image.load_ne_malformed, show read? s = _ from written, Option.bind_some]
  have inner := g.replace fits (c.isSome_inner (g.fill_ne_null x) fine)
  exact c.replace (g.fill_ne_null x) (g.fill_ne_null _) inner fine

theorem stands (written : Writes s c g z) (counts : g.Counts)
    (read : (read? s).bind image? = some i) :
    ∃ v, p.Stands i (c.place 0) v ∧ slot.number? v = some z := by
  rw [show read? s = _ from written, Option.bind_some] at read
  obtain ⟨v, inside, whole⟩ := c.stands (g.fill_ne_null _) read
  exact ⟨v, whole i 0 rfl, g.number?_eq counts inside⟩

theorem shows (written : Writes s c g z) (counts : g.Counts)
    (read : (read? s).bind image? = some i) (resolved : i.resolve = .ok image) :
    slot.Shows i image ⟨c.place 0⟩ z := by
  obtain ⟨v, here, number⟩ := written.stands counts read
  exact Slot.shows_of_stands resolved here number

end Json.Writes

/-- Numbers are taken as they are written, or not at all. At a place of an image that has a number,
the text can be overwritten with any integer in decimal, however long, and the integer stands there
then. It is accepted exactly if it has the size of its place, provided that the image can be read
with anything else there; if it has not, the image is malformed whatever else is in it. An integer
that is accepted stands unchanged in the image whose references are resolved, and in the loaded one
it is the value of the literal, the line or the column, or leads to the only node with that id. So
two that lead to the same node are the same. Only a target of a field that is given again later is
not used. -/
theorem numbers_are_taken_as_written {p : Place} {slot : Slot p} (c : Frame .image p)
    (g : Gap slot) :
    (∀ s x, read? s = some (c.fill (g.fill x)) → ∃ front old back : String,
      s = front ++ old ++ back ∧ Spells old.toList (.value x) ∧
      ∀ z : Int, Writes (front ++ toString z ++ back) c g z) ∧
    ∀ s z, Writes s c g z →
      ((∃ x, (image? (c.fill (g.fill x))).isSome) →
        (Image.load s ≠ .error .malformed ↔ slot.Fits z)) ∧
      (¬ slot.Fits z → Image.load s = .error .malformed) ∧
      ∀ i, (read? s).bind image? = some i → Image.load s = i.resolve ∧ (g.Counts →
        (∃ v, p.Stands i (c.place 0) v ∧ slot.number? v = some z) ∧
        ∀ image, i.resolve = .ok image → slot.Shows i image ⟨c.place 0⟩ z ∧
          ∀ (q : Place) (slot' : Slot q) (c' : Frame .image q) (g' : Gap slot') (z' : Int),
            Writes s c' g' z' → g'.Counts → ∀ n, slot.node? image ⟨c.place 0⟩ = some n →
              slot'.node? image ⟨c'.place 0⟩ = some n → z = z') := by
  refine ⟨fun s x read => ?_, fun s z written => ⟨?_, ?_, ?_⟩⟩
  · obtain ⟨front, old, back, spelled, found, refill⟩ :=
      (c.encloses.comp g.encloses).overwrite read
    exact ⟨front, old, back, spelled, found, fun z => refill (spells_toString z)⟩
  · rintro ⟨x, fine⟩
    exact ⟨written.fits, written.accepted fine⟩
  · intro large
    by_contra accepted
    exact large (written.fits accepted)
  · intro i read
    have loads : Image.load s = i.resolve := by rw [Image.load, read]
    refine ⟨loads, fun counts => ⟨written.stands counts read, fun image resolved => ?_⟩⟩
    have shows := written.shows counts read resolved
    refine ⟨shows, fun q slot' c' g' z' written' counts' n leads leads' => ?_⟩
    have shows' := written'.shows counts' read resolved
    exact (Slot.denotes_of_shows shows leads).unique (Slot.denotes_of_shows shows' leads')

def leastLiteral : String :=
  "[1,[[1,\"integer_literal\",null,null,null,\x7b\x7d," ++
    "\x7b\"integer\":-9223372036854775808\x7d,null,null]]]"

def leastLiteralGap : Gap .literal :=
  .element [digitJson 1, .string "integer_literal", .null, .null, .null, .object []]
    [.null, .null] (by decide)

def rootTooLarge : String := "[4294967296,[]]"

theorem leastLiteral_taken :
    (∃ image x, Image.load leastLiteral = .ok image ∧ image.arena.graph ⟨0⟩ = some x ∧
      x.literal = some (.integer (-9223372036854775808))) ∧
    (∃ front old back : String, leastLiteral = front ++ old ++ back ∧
      Image.load (front ++ toString (-9223372036854775809 : Int) ++ back) = .error .malformed) ∧
    Image.load rootTooLarge = .error .malformed := by
  have written : Writes leastLiteral soleNode leastLiteralGap (-9223372036854775808) := by
    unfold Writes
    cbv
  refine ⟨?_, ?_, ?_⟩
  · obtain ⟨accepted, _, taken⟩ :=
      (numbers_are_taken_as_written soleNode leastLiteralGap).2 _ _ written
    have readable : ∃ x, (image? (soleNode.fill (leastLiteralGap.fill x))).isSome :=
      ⟨.number (.ofInt 0), by decide +kernel⟩
    have read := Image.load_ne_malformed.mp ((accepted readable).mpr ⟨by decide, by decide⟩)
    obtain ⟨i, read⟩ := Option.isSome_iff_exists.mp read
    have loads : (Image.load leastLiteral).isOk = true := by
      rw [Image.load, show Json.read? leastLiteral = _ from written]
      decide +kernel
    obtain ⟨resolves, taken⟩ := taken i read
    cases loaded : Image.load leastLiteral with
    | error e =>
      rw [loaded] at loads
      cases loads
    | ok image =>
      obtain ⟨x, here, literal⟩ := ((taken trivial).2 image (resolves.symm.trans loaded)).1
      exact ⟨image, x, rfl, here, literal⟩
  · obtain ⟨overwritten, taken⟩ := numbers_are_taken_as_written soleNode leastLiteralGap
    obtain ⟨front, old, back, spelled, _, refill⟩ := overwritten _ _ written
    exact ⟨front, old, back, spelled, (taken _ _ (refill _)).2.1 (by simp [Slot.Fits])⟩
  · have written : Writes rootTooLarge (.here .image)
        (.element [] [.array []] (by decide) : Gap .root) 4294967296 := by
      unfold Writes
      cbv
    exact ((numbers_are_taken_as_written _ _).2 _ _ written).2.1 (by simp [Slot.Fits])

end VhdlDesign
