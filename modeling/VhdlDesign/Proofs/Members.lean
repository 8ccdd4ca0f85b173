import Mathlib.Data.List.Nodup
import Mathlib.Data.List.Perm.Basic
import VhdlDesign.Image.Load

/-!
Members of objects in an image.

A record is read by the names of its members, so that nothing but what stands under each name
matters. What is found where an object stands in an image is passed on to the image as a whole: what
is read alike there is read alike everywhere, and what is refused there is refused.
-/
namespace VhdlDesign.Json

/-! ### Places in an image -/

/-- The places of an image where an object can stand, and the list of its records. -/
inductive Place
  | image | nodes | record | position | fields
  deriving DecidableEq

namespace Place

abbrev Value : Place → Type
  | .image => Image
  | .nodes => List Record
  | .record => Record
  | .position => Position
  | .fields => Field → Option Nat

def read? : (p : Place) → Json → Option p.Value
  | .image => image?
  | .nodes => list? record?
  | .record => record?
  | .position => position?
  | .fields => fields?

def keys : Place → List String
  | .image => ["root", "nodes"]
  | .record => recordKeys
  | .position => ["file", "line", "column"]
  | .nodes | .fields => []

def records : List Place := [.image, .record, .position]

def least : Place → Nat
  | .image => 2
  | .record => 9
  | .position => 3
  | .nodes | .fields => 0

def isOpen : Place → Bool
  | .position => true
  | _ => false

def members (p : Place) : Json → Option Members := Json.members p.keys p.least p.isOpen

/-- The place that a member of a record leads to. -/
def part? : Place → String → Option Place
  | .image, key => if key = "nodes" then some .nodes else none
  | .record, key =>
    if key = "position" then some .position else if key = "fields" then some .fields else none
  | _, _ => none

end Place

/-- A document at one place with a gap at another: an image around one of the objects in it. -/
inductive Frame : Place → Place → Type
  | here (p : Place) : Frame p p
  | member {p q r : Place} (key : String) (part : p.part? key = some q)
      (before after : List (Option String × Json)) (inner : Frame q r) : Frame p r
  | element {p q r : Place} (key : String) (part : p.part? key = some q) (before after : List Json)
      (stands : p.keys[before.length]? = some key) (inner : Frame q r) : Frame p r
  | node {r : Place} (before after : List Json) (inner : Frame .record r) : Frame .nodes r

def Frame.fill {p q : Place} : Frame p q → Json → Json
  | .here _, j => j
  | .member key _ before after inner, j => .object (before ++ (some key, inner.fill j) :: after)
  | .element _ _ before after _ inner, j => .array (before ++ inner.fill j :: after)
  | .node before after inner, j => .array (before ++ inner.fill j :: after)

/-! ### Traversals and look-ups -/

section

variable {α β : Type} {f : α → Option β} {xs xs' : List α} {ys : List β}

theorem mapM_eq_some_iff : xs.mapM f = some ys ↔ List.Forall₂ (fun x y => f x = some y) xs ys := by
  induction xs generalizing ys with
  | nil => simp [eq_comm]
  | cons x xs ih =>
    simp only [List.mapM_cons, Option.bind_eq_bind, Option.bind_eq_some_iff, Option.pure_def,
      Option.some.injEq, List.forall₂_cons_left_iff, ih]
    constructor
    · rintro ⟨y, read, ys, rest, rfl⟩
      exact ⟨y, ys, read, rest, rfl⟩
    · rintro ⟨y, ys, read, rest, rfl⟩
      exact ⟨y, read, ys, rest, rfl⟩

theorem mapM_isSome : (xs.mapM f).isSome ↔ ∀ x ∈ xs, (f x).isSome := by
  induction xs with
  | nil => simp
  | cons x xs ih =>
    rw [List.forall_mem_cons, ← ih, List.mapM_cons]
    cases f x <;> cases xs.mapM f <;> simp

theorem mapM_perm (reordered : xs.Perm xs') (read : xs.mapM f = some ys) :
    ∃ ys', xs'.mapM f = some ys' ∧ ys.Perm ys' := by
  obtain ⟨ys', rest, same⟩ :=
    List.perm_comp_forall₂ reordered.symm (mapM_eq_some_iff.mp read)
  exact ⟨ys', mapM_eq_some_iff.mpr rest, same.symm⟩

end

section

variable {κ α : Type} [BEq κ] [LawfulBEq κ] {named named' : List (κ × α)} {key : κ} {v : α}

theorem lookup_eq_some_of_once (once : (named.map Prod.fst).count key ≤ 1) :
    named.lookup key = some v ↔ (key, v) ∈ named := by
  rw [List.lookup_eq_some_iff]
  constructor
  · rintro ⟨before, after, rfl, _⟩
    simp
  · intro member
    obtain ⟨before, after, rfl⟩ := List.append_of_mem member
    refine ⟨before, after, rfl, fun p earlier => bne_iff_ne.mpr ?_⟩
    rintro rfl
    have again : 0 < (before.map Prod.fst).count p.1 :=
      List.count_pos_iff.mpr (List.mem_map_of_mem earlier)
    simp only [List.map_append, List.map_cons, List.count_append, List.count_cons_self] at once
    omega

theorem lookup_perm (reordered : named.Perm named')
    (once : (named.map Prod.fst).count key ≤ 1) : named.lookup key = named'.lookup key := by
  have once' : (named'.map Prod.fst).count key ≤ 1 := by
    rwa [← (reordered.map Prod.fst).count_eq]
  ext v
  rw [lookup_eq_some_of_once once, lookup_eq_some_of_once once', reordered.mem_iff]

theorem lookup_append_cons {name : κ} (other : name ≠ key) :
    (named ++ (key, v) :: named').lookup name = (named ++ named').lookup name := by
  simp [List.lookup_append, List.lookup_cons, beq_false_of_ne other]

end

theorem eq_append_of_getElem? {α : Type} {xs : List α} {x : α} {place : Nat}
    (stands : xs[place]? = some x) : ∃ ys zs, xs = ys ++ x :: zs ∧ ys.length = place := by
  obtain ⟨less, rfl⟩ := List.getElem?_eq_some_iff.mp stands
  refine ⟨xs.take place, xs.drop (place + 1), ?_, by simp; omega⟩
  rw [List.getElem_cons_drop, List.take_append_drop]

/-! ### Members by name -/

section

variable {known : List String} {isOpen : Bool} {ms ns : List (Option String × Json)}
variable {key : String} {j k : Json}

/-- The names that the members of an object may have: only those that the record knows, unless it is
open, and none of these twice. -/
structure Allowed (known : List String) (isOpen : Bool) (names : List String) : Prop where
  within : isOpen = true ∨ ∀ name ∈ names, name ∈ known
  once : (names.filter known.contains).Nodup

theorem Allowed.perm {names names' : List String} (allowed : Allowed known isOpen names)
    (reordered : names.Perm names') : Allowed known isOpen names' := by
  refine ⟨allowed.within.imp_right fun within name member => ?_, ?_⟩
  · exact within name (reordered.mem_iff.mpr member)
  · exact (reordered.filter _).nodup_iff.mp allowed.once

theorem Allowed.count {names : List String} (allowed : Allowed known isOpen names)
    (asked : key ∈ known) : names.count key ≤ 1 := by
  have once := List.nodup_iff_count_le_one.mp allowed.once key
  rwa [List.count_filter (by simpa using asked)] at once

theorem allowed_append_cons {front back : List String} (unknown : key ∉ known) :
    Allowed known true (front ++ key :: back) ↔ Allowed known true (front ++ back) := by
  have same : (front ++ key :: back).filter known.contains =
      (front ++ back).filter known.contains := by
    simp [unknown]
  constructor
  · exact fun allowed => ⟨.inl rfl, same ▸ allowed.once⟩
  · exact fun allowed => ⟨.inl rfl, same ▸ allowed.once⟩

def named (ps : List (String × Json)) : List (Option String × Json) :=
  ps.map fun p => (some p.1, p.2)

theorem mapM_named {ps : List (String × Json)} :
    (ms.mapM fun (key, j) => key.map fun key => (key, j)) = some ps ↔ ms = named ps := by
  rw [mapM_eq_some_iff]
  induction ms generalizing ps with
  | nil => cases ps <;> simp [named]
  | cons m ms ih =>
    obtain ⟨name, j⟩ := m
    simp only [List.forall₂_cons_left_iff, ih]
    constructor
    · rintro ⟨p, ps, read, rfl, rfl⟩
      obtain ⟨key, rfl, rfl⟩ := Option.map_eq_some_iff.mp read
      rfl
    · intro same
      cases ps with
      | nil => cases same
      | cons p ps =>
        cases same
        exact ⟨p, ps, rfl, rfl, rfl⟩

theorem eq_named_append {before after : List (Option String × Json)} {ps : List (String × Json)} :
    before ++ (some key, j) :: after = named ps ↔
      ∃ qs rs, before = named qs ∧ after = named rs ∧ ps = qs ++ (key, j) :: rs := by
  constructor
  · intro same
    obtain ⟨qs, _, rfl, rfl, tail⟩ := List.map_eq_append_iff.mp same.symm
    obtain ⟨⟨name, value⟩, rs, rfl, here, rfl⟩ := List.map_eq_cons_iff.mp tail
    cases here
    exact ⟨qs, rs, rfl, rfl, rfl⟩
  · rintro ⟨qs, rs, rfl, rfl, rfl⟩
    simp [named]

theorem objectMembers_eq_some {m : Members} :
    objectMembers known isOpen ms = some m ↔ ∃ ps, ms = named ps ∧
      Allowed known isOpen (ps.map Prod.fst) ∧ m = fun key => ps.lookup key := by
  simp only [objectMembers, Option.bind_eq_bind, Option.bind_eq_some_iff, mapM_named]
  refine exists_congr fun ps => and_congr_right fun _ => ?_
  rw [Option.ite_none_right_eq_some, Bool.and_eq_true, Bool.or_eq_true, decide_eq_true_eq,
    List.all_eq_true, Option.some.injEq, eq_comm (b := m)]
  simp only [List.contains_iff_mem]
  exact and_congr_left fun _ => ⟨fun h => ⟨h.1, h.2⟩, fun h => ⟨h.within, h.once⟩⟩

theorem objectMembers_perm {m : Members} (reordered : ms.Perm ns)
    (given : objectMembers known isOpen ms = some m) :
    ∃ m', objectMembers known isOpen ns = some m' ∧ ∀ key ∈ known, m key = m' key := by
  obtain ⟨ps, same, allowed, rfl⟩ := objectMembers_eq_some.mp given
  obtain ⟨ps', same', reordered⟩ := mapM_perm reordered (mapM_named.mpr same)
  refine ⟨_, objectMembers_eq_some.mpr
    ⟨ps', mapM_named.mp same', allowed.perm (reordered.map _), rfl⟩, fun key asked => ?_⟩
  exact lookup_perm reordered (allowed.count asked)

end

/-! ### Records by their members -/

namespace Place

variable {p q : Place} {m m' : Members} {name key : String} {x y j k : Json} {α : Type}
variable {ms ns : List (Option String × Json)} {read : Json → Option α}

/-- The same is found under each name that a record at the place asks for, or something that is read
alike. -/
def Agree (p : Place) (m m' : Members) : Prop :=
  ∀ name ∈ p.keys, m' name = m name ∨ ∃ q j k, p.part? name = some q ∧ m name = some j ∧
    m' name = some k ∧ j ≠ .null ∧ k ≠ .null ∧ q.read? j = q.read? k

theorem Agree.plain (agree : p.Agree m m') (name : String) (asked : name ∈ p.keys)
    (whole : p.part? name = none) : m' name = m name := by
  obtain same | ⟨q, _, _, part, _⟩ := agree name asked
  · exact same
  · rw [whole] at part
    cases part

theorem nullable_eq (solid : j ≠ .null) : nullable read j = (read j).map some := by
  cases j <;> first | rfl | exact absurd rfl solid

section

variable (agree : p.Agree m m') (asked : name ∈ p.keys)
variable (alike : ∀ q, p.part? name = some q → ∀ j k, q.read? j = q.read? k → read j = read k)

include agree asked alike

theorem Agree.required : required m' name read = required m name read := by
  rw [Json.required, Json.required]
  obtain same | ⟨q, j, k, part, found, found', _, _, same⟩ := agree name asked
  · rw [same]
  · rw [found, found']
    exact (alike q part j k same).symm

theorem Agree.optional : optional m' name read = optional m name read := by
  rw [Json.optional, Json.optional]
  obtain same | ⟨q, j, k, part, found, found', solid, solid', same⟩ := agree name asked
  · rw [same]
  · rw [found, found']
    simp only [nullable_eq solid, nullable_eq solid', alike q part j k same]

theorem Agree.defaulted (otherwise : α) :
    defaulted m' name otherwise read = defaulted m name otherwise read := by
  rw [Json.defaulted, Json.defaulted]
  obtain same | ⟨q, j, k, part, found, found', _, _, same⟩ := agree name asked
  · rw [same]
  · rw [found, found']
    exact (alike q part j k same).symm

end

/-- A record is made of its members: of what is found under its names, and of nothing if one of its
parts cannot be read. -/
structure Makes (p : Place) (make : Members → Option p.Value) : Prop where
  reads : ∀ x, p.read? x = (p.members x).bind make
  congr : ∀ m m', p.Agree m m' → make m' = make m
  refuses : ∀ m name q j, p.part? name = some q → m name = some j → j ≠ .null →
    q.read? j = none → make m = none

theorem exists_makes_image : ∃ make, Makes .image make := by
  refine ⟨_, fun x => rfl, ?_, ?_⟩
  · intro m m' agree
    have root : Json.required m' "root" index? = Json.required m "root" index? :=
      agree.required (by decide) (by simp [part?])
    have nodes : Json.required m' "nodes" (list? record?) =
        Json.required m "nodes" (list? record?) :=
      agree.required (by decide) (by simp [part?, read?])
    simp only [root, nodes]
  · intro m name q j part found _ refused
    obtain ⟨rfl, ⟨⟩⟩ := Option.ite_none_right_eq_some.mp part
    have nodes : Json.required m "nodes" (list? record?) = none := by
      rw [Json.required, found]
      exact refused
    simp [nodes]

theorem exists_makes_record : ∃ make, Makes .record make := by
  refine ⟨_, fun x => rfl, ?_, ?_⟩
  · intro m m' agree
    have position : Json.optional m' "position" position? =
        Json.optional m "position" position? :=
      agree.optional (by decide) (by simp [part?, read?])
    have fields : Json.defaulted m' "fields" (fun _ => none) fields? =
        Json.defaulted m "fields" (fun _ => none) fields? :=
      agree.defaulted (by decide) (by simp [part?, read?]) _
    have plain : ∀ name ∈ ["id", "kind", "name", "next", "literal", "mode", "direction", "flags"],
        m' name = m name := fun name among =>
      agree.plain name (by revert name; decide) (by revert name; decide)
    simp only [List.forall_mem_cons, List.not_mem_nil, false_imp_iff, implies_true,
      and_true] at plain
    obtain ⟨id, kind, name, next, literal, mode, direction, flags⟩ := plain
    simp only [position, fields]
    simp only [Json.required, Json.optional, Json.defaulted, id, kind, name, next, literal, mode,
      direction, flags]
  · intro m name q j part found solid refused
    simp only [part?] at part
    split at part
    next same =>
      cases same
      cases part
      replace refused : position? j = none := refused
      have position : Json.optional m "position" position? = none := by
        simp only [Json.optional, found, nullable_eq solid, refused, Option.map_none]
      simp [position]
    next =>
      obtain ⟨rfl, ⟨⟩⟩ := Option.ite_none_right_eq_some.mp part
      have fields : Json.defaulted m "fields" (fun _ => none) fields? = none := by
        rw [Json.defaulted, found]
        exact refused
      simp [fields]

theorem exists_makes_position : ∃ make, Makes .position make := by
  refine ⟨_, fun x => rfl, ?_, nofun⟩
  intro m m' agree
  simp only [Json.required, Json.optional, agree.plain "file" (by decide) rfl,
    agree.plain "line" (by decide) rfl, agree.plain "column" (by decide) rfl]

theorem exists_makes (record : p ∈ records) : ∃ make, p.Makes make := by
  simp only [records, List.mem_cons, List.not_mem_nil, or_false] at record
  obtain rfl | rfl | rfl := record
  · exact exists_makes_image
  · exact exists_makes_record
  · exact exists_makes_position

/-! ### Parts of a record -/

theorem read?_congr (record : p ∈ records)
    (there : ∀ m, p.members x = some m → ∃ m', p.members y = some m' ∧ p.Agree m m')
    (back : ∀ m, p.members y = some m → ∃ m', p.members x = some m') :
    p.read? x = p.read? y := by
  obtain ⟨make, makes⟩ := exists_makes record
  rw [makes.reads, makes.reads]
  cases given : p.members x with
  | some m =>
    obtain ⟨m', given', agree⟩ := there m given
    rw [given']
    exact (makes.congr m m' agree).symm
  | none =>
    cases given' : p.members y with
    | none => rfl
    | some m =>
      obtain ⟨m', impossible⟩ := back m given'
      rw [given] at impossible
      cases impossible

theorem read?_object_perm (record : p ∈ records) (reordered : ms.Perm ns) :
    p.read? (.object ms) = p.read? (.object ns) := by
  refine read?_congr record (fun m given => ?_) (fun m given => ?_)
  · obtain ⟨m', given', found⟩ := objectMembers_perm reordered given
    exact ⟨m', given', fun name asked => .inl (found name asked).symm⟩
  · obtain ⟨m', given', _⟩ := objectMembers_perm reordered.symm given
    exact ⟨m', given'⟩

/-- A record is written around one of its members: whatever stands there is found by the name of the
member, and the others stay as they are. -/
def Holds (p : Place) (key : String) (around : Json → Json) : Prop :=
  ∀ x m, p.members (around x) = some m → m key = some x ∧
    ∀ y, ∃ m', p.members (around y) = some m' ∧ ∀ name, name ≠ key → m' name = m name

theorem holds_object (asked : key ∈ p.keys) (before after : List (Option String × Json)) :
    p.Holds key fun x => .object (before ++ (some key, x) :: after) := by
  intro x m given
  obtain ⟨ps, same, allowed, rfl⟩ := objectMembers_eq_some.mp given
  obtain ⟨qs, rs, front, back, rfl⟩ := eq_named_append.mp same
  refine ⟨(lookup_eq_some_of_once (allowed.count asked)).mpr (by simp), fun y => ?_⟩
  refine ⟨_, objectMembers_eq_some.mpr ⟨qs ++ (key, y) :: rs,
    eq_named_append.mpr ⟨qs, rs, front, back, rfl⟩, by simpa using allowed, rfl⟩, ?_⟩
  intro name other
  exact (lookup_append_cons other).trans (lookup_append_cons other).symm

theorem nodup_keys (p : Place) : p.keys.Nodup := by
  cases p <;> decide

theorem holds_array {before : List Json} (stands : p.keys[before.length]? = some key)
    (after : List Json) : p.Holds key fun x => .array (before ++ x :: after) := by
  obtain ⟨ks, ks', split, long⟩ := eq_append_of_getElem? stands
  have absent : key ∉ ks := by
    have once := split ▸ p.nodup_keys
    exact fun earlier => (List.nodup_append.mp once).2.2 key earlier key (by simp) rfl
  have zipped : ∀ x, p.keys.zip (before ++ x :: after) =
      ks.zip before ++ (key, x) :: ks'.zip after := fun x => by
    rw [split, List.zip_append long, List.zip_cons_cons]
  intro x m given
  obtain ⟨length, given⟩ := Option.ite_none_right_eq_some.mp given
  cases given
  refine ⟨?_, fun y => ⟨_, if_pos (by simpa using length), fun name other => ?_⟩⟩
  · rw [zipped, List.lookup_eq_some_iff]
    refine ⟨_, _, rfl, fun named earlier => bne_iff_ne.mpr ?_⟩
    rintro rfl
    exact absent (List.of_mem_zip earlier).1
  · simp only [zipped]
    exact (lookup_append_cons other).trans (lookup_append_cons other).symm

theorem record_of_part (part : p.part? key = some q) : p ∈ records ∧ key ∈ p.keys := by
  cases p with
  | image | record =>
    simp only [part?] at part
    refine ⟨by decide, ?_⟩
    grind [keys, recordKeys]
  | nodes | position | fields => cases part

section

variable {around : Json → Json} (holds : p.Holds key around) (part : p.part? key = some q)

include holds part

theorem Holds.read?_congr (solid : x ≠ .null) (solid' : y ≠ .null) (same : q.read? x = q.read? y) :
    p.read? (around x) = p.read? (around y) := by
  refine Place.read?_congr (record_of_part part).1 (fun m given => ?_) (fun m given => ?_)
  · obtain ⟨found, others⟩ := holds x m given
    obtain ⟨m', given', other⟩ := others y
    refine ⟨m', given', fun name _ => ?_⟩
    by_cases same' : name = key
    · subst same'
      exact .inr ⟨q, x, y, part, found, (holds y m' given').1, solid, solid', same⟩
    · exact .inl (other name same')
  · obtain ⟨m', given', _⟩ := (holds y m given).2 x
    exact ⟨m', given'⟩

theorem Holds.read?_eq_none (solid : x ≠ .null) (refused : q.read? x = none) :
    p.read? (around x) = none := by
  obtain ⟨make, makes⟩ := exists_makes (record_of_part part).1
  rw [makes.reads, Option.bind_eq_none_iff]
  intro m given
  exact makes.refuses m key q x part (holds x m given).1 solid refused

end

end Place

/-! ### Objects inside an image -/

namespace Frame

variable {p q : Place} {x y : Json}

theorem fill_ne_null (c : Frame p q) (solid : x ≠ .null) : c.fill x ≠ .null := by
  cases c with
  | here => exact solid
  | member | element | node => simp [fill]

theorem read?_congr (c : Frame p q) (solid : x ≠ .null) (solid' : y ≠ .null)
    (same : q.read? x = q.read? y) : p.read? (c.fill x) = p.read? (c.fill y) := by
  induction c with
  | here => exact same
  | member key part before after inner ih =>
    exact (Place.holds_object (Place.record_of_part part).2 before after).read?_congr part
      (inner.fill_ne_null solid) (inner.fill_ne_null solid') (ih same)
  | element key part before after stands inner ih =>
    exact (Place.holds_array stands after).read?_congr part
      (inner.fill_ne_null solid) (inner.fill_ne_null solid') (ih same)
  | node before after inner ih =>
    have same : record? (inner.fill x) = record? (inner.fill y) := ih same
    simp only [fill, Place.read?, list?, List.mapM_append, List.mapM_cons, same]

theorem read?_eq_none (c : Frame p q) (solid : x ≠ .null) (refused : q.read? x = none) :
    p.read? (c.fill x) = none := by
  induction c with
  | here => exact refused
  | member key part before after inner ih =>
    exact (Place.holds_object (Place.record_of_part part).2 before after).read?_eq_none part
      (inner.fill_ne_null solid) (ih refused)
  | element key part before after stands inner ih =>
    exact (Place.holds_array stands after).read?_eq_none part
      (inner.fill_ne_null solid) (ih refused)
  | node before after inner ih =>
    have refused : record? (inner.fill x) = none := ih refused
    simp [fill, Place.read?, list?, refused]

end Frame

end VhdlDesign.Json
