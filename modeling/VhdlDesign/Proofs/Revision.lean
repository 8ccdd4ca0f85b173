import Mathlib
import VhdlDesign.Proofs.Members

/-!
Revisions of an image that change nothing.

Members change places, a target of a field is dropped that another one supersedes, or a member of a
position that no position has. The image that is loaded stays the same, or the reason to refuse it.
-/
namespace VhdlDesign.Json

variable {p : Place} {ms ns before after : List (Option String × Json)} {name : Option String}
variable {key : String} {x j k : Json}

/-! ### Repeated and unknown members -/

namespace Place

/-- Members that say nothing at a place, however often they are given. -/
def passesOver (p : Place) : Option String → Bool
  | some key => p.isOpen && !p.keys.contains key
  | none => false

theorem read?_of_repeat (record : p ∈ records) (repeated : 2 ≤ (ms.map Prod.fst).count name)
    (asked : p.passesOver name = false) : p.read? (.object ms) = none := by
  obtain ⟨make, makes⟩ := exists_makes record
  rw [makes.reads, Option.bind_eq_none_iff]
  intro m given
  obtain ⟨ps, rfl, allowed, _⟩ := objectMembers_eq_some.mp given
  have texts : (named ps).map Prod.fst = (ps.map Prod.fst).map some := by
    simp [named]
  rw [texts] at repeated
  obtain ⟨key, _, rfl⟩ := List.mem_map.mp (List.count_pos_iff.mp (Nat.zero_lt_of_lt repeated))
  rw [List.count_map_of_injective _ _ fun _ _ => Option.some.inj] at repeated
  have once : key ∈ p.keys → (ps.map Prod.fst).count key ≤ 1 := allowed.count
  obtain free | within := allowed.within
  · simp only [passesOver, free, Bool.true_and, Bool.not_eq_false', List.contains_iff_mem] at asked
    have := once asked
    omega
  · have := once (within key ‹_›)
    omega

theorem position?_passOver (unknown : key ∉ keys .position) :
    position? (.object (before ++ (some key, x) :: after)) =
      position? (.object (before ++ after)) := by
  refine read?_congr (p := .position) (by decide) (fun m given => ?_) (fun m given => ?_)
  · obtain ⟨ps, same, allowed, rfl⟩ := objectMembers_eq_some.mp given
    obtain ⟨qs, rs, rfl, rfl, rfl⟩ := eq_named_append.mp same
    refine ⟨_, objectMembers_eq_some.mpr ⟨qs ++ rs, by simp [named], ?_, rfl⟩, ?_⟩
    · simp only [List.map_append, List.map_cons] at allowed ⊢
      exact (allowed_append_cons unknown).mp allowed
    · intro name asked
      refine .inl (lookup_append_cons ?_).symm
      rintro rfl
      exact unknown asked
  · obtain ⟨ps, same, allowed, rfl⟩ := objectMembers_eq_some.mp given
    obtain ⟨qs, rs, rfl, rfl, rfl⟩ := List.map_eq_append_iff.mp same.symm
    refine ⟨_, objectMembers_eq_some.mpr ⟨qs ++ (key, x) :: rs, by simp [named], ?_, rfl⟩⟩
    simp only [List.map_append, List.map_cons] at allowed ⊢
    exact (allowed_append_cons unknown).mpr allowed

end Place

/-! ### Targets of fields -/

theorem nodup_fieldKeys : (Field.all.map Field.key).Nodup := by
  decide +kernel

theorem fieldKey_injective {f g : Field} (same : f.key = g.key) : f = g :=
  List.inj_on_of_nodup_map nodup_fieldKeys f.mem_all g.mem_all same

theorem key_of_ofKey? {f : Field} (known : Field.ofKey? key = some f) : f.key = key := by
  simpa using List.find?_some known

theorem ofKey?_eq_some {f : Field} : Field.ofKey? key = some f ↔ key = f.key := by
  constructor
  · exact fun known => (key_of_ofKey? known).symm
  · rintro rfl
    obtain ⟨g, known⟩ : ∃ g, Field.ofKey? f.key = some g :=
      Option.isSome_iff_exists.mp (List.find?_isSome.mpr ⟨f, f.mem_all, beq_self_eq_true _⟩)
    rw [known, fieldKey_injective (key_of_ofKey? known)]

theorem fieldTarget?_eq_some {f : Field} {id : Nat} :
    fieldTarget? (name, x) = some (f, id) ↔ name = some f.key ∧ index? x = some id := by
  cases name with
  | none => simp [fieldTarget?]
  | some key => simp [fieldTarget?, Option.bind_eq_some_iff, ofKey?_eq_some]

theorem fieldTarget?_isSome :
    (fieldTarget? (name, x)).isSome ↔ (∃ f : Field, name = some f.key) ∧ (index? x).isSome := by
  simp only [Option.isSome_iff_exists, Prod.exists, fieldTarget?_eq_some]
  exact exists_and_exists_comm.symm

def lastTarget (ms : List (Option String × Json)) (f : Field) : Option Nat :=
  (ms.reverse.lookup (some f.key)).bind index?

theorem lookup_fieldTargets {ps : List (Field × Nat)} {f : Field}
    (read : List.Forall₂ (fun m p => fieldTarget? m = some p) ms ps) :
    ps.lookup f = (ms.lookup (some f.key)).bind index? := by
  induction read with
  | nil => rfl
  | @cons m p _ _ first _ ih =>
    obtain ⟨name, x⟩ := m
    obtain ⟨g, id⟩ := p
    obtain ⟨rfl, target⟩ := fieldTarget?_eq_some.mp first
    rw [List.lookup_cons, List.lookup_cons, ih]
    by_cases same : f = g
    · subst same
      simp [target]
    · have other : f.key ≠ g.key := fun same' => same (fieldKey_injective same')
      simp [beq_false_of_ne same, beq_false_of_ne other]

/-- Fields are read if all their members are: each has the target that is given last. -/
theorem fields?_eq_some {targets : Field → Option Nat} : fields? (.object ms) = some targets ↔
    (∀ m ∈ ms, (fieldTarget? m).isSome) ∧ targets = lastTarget ms := by
  rw [← mapM_isSome, fields?]
  cases read : ms.mapM fieldTarget? with
  | none => simp
  | some ps =>
    have last : (fun f => ps.reverse.lookup f) = lastTarget ms := funext fun f =>
      lookup_fieldTargets (List.forall₂_reverse_iff.mpr (mapM_eq_some_iff.mp read))
    simp [last, eq_comm]

theorem fields?_perm (distinct : (ms.map Prod.fst).Nodup) (reordered : ms.Perm ns) :
    fields? (.object ms) = fields? (.object ns) := by
  have last : lastTarget ms = lastTarget ns := funext fun f => by
    refine congrArg (Option.bind · index?) (lookup_perm ?_ ?_)
    · exact ms.reverse_perm.trans (reordered.trans ns.reverse_perm.symm)
    · rw [List.map_reverse, List.count_reverse]
      exact List.nodup_iff_count_le_one.mp distinct _
  ext targets
  simp only [fields?_eq_some, reordered.mem_iff, last]

theorem lastTarget_superseded (again : some key ∈ after.map Prod.fst) :
    lastTarget (before ++ (some key, x) :: after) = lastTarget (before ++ after) := by
  have settled : (after.reverse.lookup (some key)).isSome := by
    obtain ⟨m, member, same⟩ := List.mem_map.mp again
    rw [List.lookup_isSome_iff]
    exact ⟨m, List.mem_reverse.mpr member, by simp [same]⟩
  funext f
  simp only [lastTarget, List.reverse_append, List.reverse_cons, List.append_assoc,
    List.lookup_append]
  cases found : after.reverse.lookup (some f.key) with
  | some y => rfl
  | none =>
    have other : some f.key ≠ some key := by
      intro same
      rw [← same, found] at settled
      cases settled
    simp [List.lookup_cons, beq_false_of_ne other]

theorem fields?_supersede (target : (index? x).isSome) (again : some key ∈ after.map Prod.fst) :
    fields? (.object (before ++ (some key, x) :: after)) = fields? (.object (before ++ after)) := by
  ext targets
  simp only [fields?_eq_some, lastTarget_superseded again, List.forall_mem_append,
    List.forall_mem_cons]
  refine and_congr_left fun _ => and_congr_right fun _ => ⟨And.right, fun later => ⟨?_, later⟩⟩
  -- the later target is read, so the key names a field
  obtain ⟨⟨name, y⟩, member, rfl⟩ := List.mem_map.mp again
  exact fieldTarget?_isSome.mpr ⟨(fieldTarget?_isSome.mp (later _ member)).1, target⟩

theorem fields?_eq_none (given : (name, x) ∈ ms) (refused : index? x = none) :
    fields? (.object ms) = none := by
  refine Option.eq_none_iff_forall_ne_some.mpr fun targets read => ?_
  obtain ⟨_, target⟩ := fieldTarget?_isSome.mp ((fields?_eq_some.mp read).1 _ given)
  rw [refused] at target
  cases target

/-! ### Revisions -/

/-- One change to an image, at an object anywhere in it. -/
inductive Revises : Json → Json → Prop
  | reorder {p : Place} (c : Frame .image p) {ms ns : List (Option String × Json)}
      (free : p ∈ Place.records ∨ p = .fields ∧ (ms.map Prod.fst).Nodup) (reordered : ms.Perm ns) :
      Revises (c.fill (.object ms)) (c.fill (.object ns))
  | supersede (c : Frame .image .fields) {before after : List (Option String × Json)} {key : String}
      {x : Json} (target : (index? x).isSome) (again : some key ∈ after.map Prod.fst) :
      Revises (c.fill (.object (before ++ (some key, x) :: after)))
        (c.fill (.object (before ++ after)))
  | passOver (c : Frame .image .position) {before after : List (Option String × Json)}
      {key : String} {x : Json} (unknown : key ∉ Place.keys .position) :
      Revises (c.fill (.object (before ++ (some key, x) :: after)))
        (c.fill (.object (before ++ after)))

theorem Revises.image?_eq (revised : Revises j k) : image? j = image? k := by
  have within : ∀ {p : Place} (c : Frame .image p) {ms ns : List (Option String × Json)},
      p.read? (.object ms) = p.read? (.object ns) →
        image? (c.fill (.object ms)) = image? (c.fill (.object ns)) :=
    fun c _ _ same => c.read?_congr nofun nofun same
  cases revised with
  | reorder c free reordered =>
    obtain record | ⟨rfl, distinct⟩ := free
    · exact within c (Place.read?_object_perm record reordered)
    · exact within c (fields?_perm distinct reordered)
  | supersede c target again => exact within c (fields?_supersede target again)
  | passOver c unknown => exact within c (Place.position?_passOver unknown)

theorem image?_eq_of_revisions (revised : Relation.EqvGen Revises j k) : image? j = image? k := by
  induction revised with
  | rel j k step => exact step.image?_eq
  | refl j => rfl
  | symm j k _ ih => exact ih.symm
  | trans i j k _ _ ih ih' => exact ih.trans ih'

end VhdlDesign.Json

namespace VhdlDesign

open Json

variable {s t : String} {j k : Json}

theorem Image.load_congr (written : read? s = some j) (written' : read? t = some k)
    (same : image? j = image? k) : load s = load t := by
  simp only [load, written, written', Option.bind_some, same]

theorem Image.load_eq_malformed (written : read? s = some j) (refused : image? j = none) :
    load s = .error .malformed := by
  simp only [load, written, Option.bind_some, refused]

/-- Images that differ in the order of members load alike, wherever the objects stand and whatever
else is in them: to the same table and root, or to the same error. So do images that differ in a
target of a field that is given again later, or in a member that no position has. Any other member
that is given twice makes an image malformed. Where all members of a fields object are targets of
fields, each field has the target that is given last; where one is no id, the image is malformed. -/
theorem member_order_carries_no_meaning {s : String} {j : Json} (written : read? s = some j) :
    (∀ t k, read? t = some k → Relation.EqvGen Revises j k → Image.load s = Image.load t) ∧
    (∀ p ∈ Place.records, ∀ (c : Frame .image p) ms name, j = c.fill (.object ms) →
      2 ≤ (ms.map Prod.fst).count name → p.passesOver name = false →
        Image.load s = .error .malformed) ∧
    (∀ ms, (∀ m ∈ ms, (fieldTarget? m).isSome) → fields? (.object ms) = some (lastTarget ms)) ∧
    ∀ (c : Frame .image .fields) ms name x, j = c.fill (.object ms) → (name, x) ∈ ms →
      index? x = none → Image.load s = .error .malformed := by
  refine ⟨?_, ?_, ?_, ?_⟩
  · intro t k written' revised
    exact Image.load_congr written written' (image?_eq_of_revisions revised)
  · rintro p record c ms name rfl repeated asked
    exact Image.load_eq_malformed written
      (c.read?_eq_none nofun (Place.read?_of_repeat record repeated asked))
  · exact fun ms targets => fields?_eq_some.mpr ⟨targets, rfl⟩
  · rintro c ms name x rfl given refused
    exact Image.load_eq_malformed written (c.read?_eq_none nofun (fields?_eq_none given refused))

def digitJson (d : Nat) : Json := .number ⟨false, [d], none, none⟩

def soleNode : Frame .image .record :=
  .element "nodes" (by decide) [digitJson 1] [] (by decide) (.node [] [] (.here .record))

def soleNodePart {p : Place} (key : String) (part : Place.part? .record key = some p) :
    Frame .image p :=
  .element "nodes" (by decide) [digitJson 1] [] (by decide) (.node [] [] (.member key part
    [(some "id", digitJson 1), (some "kind", .string "design_file")] [] (.here p)))

def looseImage : String :=
  "[1,[\x7b\"kind\":\"design_file\",\"id\":1,\"fields\":\x7b\"left\":7,\"left\":1\x7d\x7d]]"

def tidyImage : String :=
  "[1,[\x7b\"id\":1,\"kind\":\"design_file\",\"fields\":\x7b\"left\":1\x7d\x7d]]"

def doubledImage : String := "[1,[\x7b\"id\":1,\"kind\":\"design_file\",\"id\":1\x7d]]"

def misaimedImage : String :=
  "[1,[\x7b\"id\":1,\"kind\":\"design_file\",\"fields\":\x7b\"left\":null,\"left\":1\x7d\x7d]]"

theorem tidyImage_read : read? tidyImage =
    some ((soleNodePart "fields" rfl).fill (.object [(some "left", digitJson 1)])) := by
  cbv

theorem misaimedImage_read : read? misaimedImage = some ((soleNodePart "fields" rfl).fill
    (.object [(some "left", .null), (some "left", digitJson 1)])) := by
  cbv

theorem looseImage_tidied :
    Image.load looseImage = Image.load tidyImage ∧ (Image.load tidyImage).isOk ∧
      Image.load doubledImage = .error .malformed ∧
      (∃ targets, fields? (.object [(some "left", digitJson 7), (some "left", digitJson 1)]) =
        some targets ∧ targets .left = some 1) ∧
      Image.load misaimedImage = .error .malformed := by
  refine ⟨?_, by decide +kernel, ?_, ?_, ?_⟩
  · have loose : read? looseImage = some (soleNode.fill (.object
        [(some "kind", .string "design_file"), (some "id", digitJson 1), (some "fields",
          .object ([] ++ (some "left", digitJson 7) :: [(some "left", digitJson 1)]))])) := by
      cbv
    exact (member_order_carries_no_meaning loose).1 tidyImage _ tidyImage_read (.trans _ _ _
      (.rel _ _ (.reorder soleNode (.inl (by decide)) (.swap _ _ _)))
      (.rel _ _ (.supersede (soleNodePart "fields" rfl) (by decide) (by decide))))
  · have doubled : read? doubledImage = some (soleNode.fill (.object [(some "id", digitJson 1),
        (some "kind", .string "design_file"), (some "id", digitJson 1)])) := by
      cbv
    exact (member_order_carries_no_meaning doubled).2.1 .record (by decide) soleNode _ (some "id")
      rfl (by decide) (by decide)
  · exact ⟨_, (member_order_carries_no_meaning tidyImage_read).2.2.1 _ (by decide), rfl⟩
  · exact (member_order_carries_no_meaning misaimedImage_read).2.2.2 _ _ (some "left") .null rfl
      List.mem_cons_self rfl

def remarkedImage : String :=
  "[1,[\x7b\"id\":1,\"kind\":\"design_file\",\"position\":" ++
    "\x7b\"x\":0,\"x\":0,\"line\":1,\"column\":1\x7d\x7d]]"

theorem remarkedImage_read : read? remarkedImage = some ((soleNodePart "position" rfl).fill
    (.object [(some "x", digitJson 0), (some "x", digitJson 0), (some "line", digitJson 1),
      (some "column", digitJson 1)])) := by
  cbv

/-- Not every member that a position repeats is refused. And the last target of a field does not
decide alone: another one that is no id is refused. -/
theorem remarkedImage_accepted :
    (∃ (c : Frame .image .position) (ms : List (Option String × Json)),
      read? remarkedImage = some (c.fill (.object ms)) ∧
      2 ≤ (ms.map Prod.fst).count (some "x") ∧ Image.load remarkedImage ≠ .error .malformed) ∧
    ∃ c : Frame .image .fields,
      read? misaimedImage =
        some (c.fill (.object [(some "left", .null), (some "left", digitJson 1)])) ∧
      read? tidyImage = some (c.fill (.object [(some "left", digitJson 1)])) ∧
      Image.load misaimedImage ≠ Image.load tidyImage := by
  have remarked : (Image.load remarkedImage).isOk = true := by decide +kernel
  have tidy : (Image.load tidyImage).isOk = true := by decide +kernel
  refine ⟨⟨_, _, remarkedImage_read, by decide, ?_⟩, _, misaimedImage_read, tidyImage_read, ?_⟩
  · intro refused
    rw [refused] at remarked
    cases remarked
  · have misaimed : Image.load misaimedImage = .error .malformed :=
      Image.load_eq_malformed misaimedImage_read
        ((soleNodePart "fields" rfl).read?_eq_none nofun (fields?_eq_none List.mem_cons_self rfl))
    intro same
    rw [← same, misaimed] at tidy
    cases tidy

end VhdlDesign
