import VhdlDesign.Proofs.Limits
import VhdlDesign.Proofs.Reading
import VhdlDesign.Proofs.Renaming
import VhdlDesign.Proofs.Sharing

/-!
Values are transcripts.

Every part of a value was built from a node that is held by a field, or stands in a chain, of the
node that the value was built from. What was built with many nodes open can be built with none open
and is the same, so that each part can be told from its own node alone.
-/
namespace VhdlDesign

/-! ### Builds in a fresh context -/

namespace Builder

variable {g : Graph} {limits : Limits} {path : List NodeRef} {f : Form} {n : NodeRef} {v : f.Value}

theorem renames_self (g : Graph) : g.Renames g id (fun _ => True) where
  node := by
    intro n x _ found
    exact ⟨x, found, ⟨.refl _, by simp, by simp⟩, rfl⟩
  inside := fun _ _ _ _ => trivial
  injective := fun _ _ _ _ same => same

/-- Fewer open nodes never take away what could be built. -/
theorem fresh_of_enter {room : Nat} (fits : room ≤ limits.depth)
    (built : enterUnless openTwice room ⟨g, limits, path⟩ f n = .ok v) :
    build ⟨g, limits, []⟩ f n = .ok v := by
  -- without the test for open nodes it does not matter which nodes are open
  have mirror := (renames_self g).mirror limits
  have moved : enterUnless never room ⟨g, limits, []⟩ f n = .ok v :=
    (mirror.enterUnless_mirrors .never room trivial trivial f).ok_eq (never_of_openTwice built)
  have fresh : enterUnless openTwice room ⟨g, limits, []⟩ f n = .ok v :=
    openTwice_of_never (b := ⟨g, limits, []⟩) .outermost moved
  rw [build_eq_buildUnless]
  exact ((looser_matches (Nat.le_refl _)).enterUnless (b := ⟨g, limits, []⟩) rfl fits f).ok fresh

theorem fresh_of_build (built : build ⟨g, limits, path⟩ f n = .ok v) :
    build ⟨g, limits, []⟩ f n = .ok v := by
  rw [build_eq_buildUnless] at built
  exact fresh_of_enter (Nat.sub_le _ _) built

end Builder

/-! ### One layer of a value -/

/-- The answer is what the field of the node `x` leads to, where `T` relates nodes to what they are
built into. A chain is followed to its end, and its elements are taken in order. -/
def Reading.Transcribes (g : Graph) (limits : Limits) (x : Node)
    (T : (f : Form) → NodeRef → f.Value → Prop) : Reading → Prop
  | ⟨.touch _, _⟩ => True
  | ⟨.child field form, v⟩ => ∃ m, x.field field = some m ∧ T form m v
  | ⟨.optional field form, v⟩ => Option.Rel (T form) (x.field field) v
  | ⟨.chain field form, vs⟩ =>
    ∃ ms, Leads g.next (x.field field) ms none ∧ List.Forall₂ (T form) ms vs
  | ⟨.label field read, s⟩ =>
    ∃ m, x.field field = some m ∧ Builder.label ⟨g, limits, []⟩ read m = .ok s
  | ⟨.labels field read, ss⟩ =>
    ∃ ms, Leads g.next (x.field field) ms none ∧
      List.Forall₂ (fun m s => Builder.label ⟨g, limits, []⟩ read m = .ok s) ms ss

namespace Reading

variable {g : Graph} {limits : Limits} {path : List NodeRef} {n : NodeRef} {x : Node}
variable {T T' : (f : Form) → NodeRef → f.Value → Prop} {r : Reading}

theorem Transcribes.imp (h : r.Transcribes g limits x T) (weaker : ∀ f m v, T f m v → T' f m v) :
    r.Transcribes g limits x T' := by
  obtain ⟨q, w⟩ := r
  cases q with
  | touch field => trivial
  | child field form =>
    obtain ⟨m, held, built⟩ := h
    exact ⟨m, held, weaker form m w built⟩
  | optional field form =>
    have related : Option.Rel (T form) (x.field field) w := h
    change Option.Rel (T' form) (x.field field) w
    generalize x.field field = held at related
    cases related with
    | some built => exact .some (weaker form _ _ built)
    | none => exact .none
  | chain field form =>
    obtain ⟨ms, led, built⟩ := h
    exact ⟨ms, led, built.imp fun m v => weaker form m v⟩
  | label field read => exact h
  | labels field read => exact h

theorem label_fresh {read : Attributes → Except Cause String} {s : String}
    (labelled : Builder.label ⟨g, limits, path⟩ read n = .ok s) :
    Builder.label ⟨g, limits, []⟩ read n = .ok s := by
  obtain ⟨y, found, labelled⟩ := bind_eq_ok labelled
  have here : Builder.node ⟨g, limits, []⟩ n = .ok y :=
    Builder.node_eq_ok.mpr ((Builder.node_eq_ok (b := ⟨g, limits, path⟩)).mp found)
  unfold Builder.label
  rw [here]
  exact labelled

theorem transcribes_of_answer {enter : (f : Form) → NodeRef → Except Fault f.Value}
    (entered : ∀ f m v, enter f m = .ok v → T f m v)
    (answered : Builder.answer ⟨g, limits, path⟩ n x enter r.question = .ok r.answer) :
    r.Transcribes g limits x T := by
  obtain ⟨q, w⟩ := r
  cases q with
  | touch field => trivial
  | child field form =>
    obtain ⟨m, held, built⟩ := bind_eq_ok answered
    exact ⟨m, Node.edge_eq_ok held, entered form m w built⟩
  | optional field form =>
    change Option.Rel (T form) (x.field field) w
    obtain ⟨held, given, answered⟩ := bind_eq_ok answered
    rw [← Node.edge?_eq_ok given]
    cases held with
    | none =>
      cases answered
      exact .none
    | some m =>
      obtain ⟨v, built, answered⟩ := bind_eq_ok ((map_eq_pure_bind some _).symm.trans answered)
      cases answered
      exact .some (entered form m v built)
  | chain field form =>
    obtain ⟨head, given, answered⟩ := bind_eq_ok answered
    obtain ⟨ms, gathered, answered⟩ := bind_eq_ok answered
    rw [Node.edge?_eq_ok given] at gathered
    refine ⟨ms, Builder.elements_eq_ok gathered, (mapM_eq_ok_iff.mp answered).imp ?_⟩
    exact fun m v built => entered form m v built
  | label field read =>
    obtain ⟨m, held, labelled⟩ := bind_eq_ok answered
    exact ⟨m, Node.edge_eq_ok held, label_fresh labelled⟩
  | labels field read =>
    obtain ⟨head, given, answered⟩ := bind_eq_ok answered
    obtain ⟨ms, gathered, answered⟩ := bind_eq_ok answered
    rw [Node.edge?_eq_ok given] at gathered
    refine ⟨ms, Builder.elements_eq_ok gathered, (mapM_eq_ok_iff.mp answered).imp ?_⟩
    exact fun m s labelled => label_fresh labelled

end Reading

/-! ### All layers of a value -/

/-- The value is what is built from the node alone, and so are its parts from theirs, down to a
depth. -/
def Transcribed (g : Graph) (limits : Limits) : Nat → (f : Form) → NodeRef → f.Value → Prop
  | 0, f, n, v => Builder.build ⟨g, limits, []⟩ f n = .ok v
  | depth + 1, f, n, v =>
    Builder.build ⟨g, limits, []⟩ f n = .ok v ∧
      ∃ x, g n = some x ∧
        ∀ r ∈ f.readings v, r.Transcribes g limits x (Transcribed g limits depth)

section

variable {g : Graph} {limits : Limits} {path : List NodeRef} {f : Form} {n : NodeRef} {v : f.Value}

theorem transcribes_of_build (built : Builder.build ⟨g, limits, path⟩ f n = .ok v) :
    ∃ x, g n = some x ∧ ∀ r ∈ f.readings v, r.Transcribes g limits x
      fun f m w => Builder.build ⟨g, limits, []⟩ f m = .ok w := by
  rw [Builder.build_eq_buildUnless] at built
  obtain ⟨room, x, left, _, found, built⟩ := Builder.enterUnless_eq_ok built
  have fits : room ≤ limits.depth := by
    simp only [Builder.room] at left
    omega
  refine ⟨x, found, fun r part => ?_⟩
  refine Reading.transcribes_of_answer ?_ (Builder.answer_of_reading built part)
  exact fun f m w entered => Builder.fresh_of_enter fits entered

theorem transcribed_of_build (built : Builder.build ⟨g, limits, path⟩ f n = .ok v) (depth : Nat) :
    Transcribed g limits depth f n v := by
  induction depth generalizing path f n v with
  | zero => exact Builder.fresh_of_build built
  | succ depth ih =>
    obtain ⟨x, found, parts⟩ := transcribes_of_build built
    exact ⟨Builder.fresh_of_build built, x, found,
      fun r part => (parts r part).imp fun f m w entered => ih entered⟩

theorem transcribes_of_buildOpen (built : Builder.buildOpen ⟨g, limits, path⟩ f n = .ok v)
    (depth : Nat) :
    ∃ x, g n = some x ∧
      ∀ r ∈ f.readings v, r.Transcribes g limits x (Transcribed g limits depth) := by
  obtain ⟨x, found, built⟩ := bind_eq_ok built
  refine ⟨x, (Builder.node_eq_ok (b := ⟨g, limits, path⟩)).mp found, fun r part => ?_⟩
  refine Reading.transcribes_of_answer ?_ (Builder.answer_of_reading built part)
  exact fun f m w entered => transcribed_of_build entered depth

end

/-- Every sequence in a design is its chain: as long, in order, and with each element as it is built
from its node alone. This holds at all depths, of every part of a value and of all forms, and of the
design units that are built one by one. -/
theorem sequences_are_their_chains (g : Graph) (limits : Limits) (n : NodeRef) :
    (∀ path f v, Builder.build ⟨g, limits, path⟩ f n = .ok v →
      ∀ depth, Transcribed g limits depth f n v) ∧
    (∀ path f v, Builder.buildOpen ⟨g, limits, path⟩ f n = .ok v → ∀ depth, ∃ x, g n = some x ∧
      ∀ r ∈ f.readings v, r.Transcribes g limits x (Transcribed g limits depth)) ∧
    (∀ v, buildDesignFile g limits n = .ok v →
      ∀ depth, Transcribed g limits depth .designFile n v) ∧
    (∀ v, buildNode g limits n = .ok v → ∀ depth, Transcribed g limits depth .anyNode n v) ∧
    (∀ results, buildDesignUnits g limits n = .ok results →
      ∃ x units, g n = some x ∧ Leads g.next (x.field .designUnits) units none ∧
        List.Forall₂ (fun m r => ∀ u, r = .ok u → ∀ depth,
          Transcribed g limits depth .designUnit m u) units results) := by
  refine ⟨fun path f v built => transcribed_of_build built,
    fun path f v built => transcribes_of_buildOpen built,
    fun v built => transcribed_of_build (f := .designFile) built,
    fun v built => transcribed_of_build (f := .anyNode) built, ?_⟩
  intro results built
  obtain ⟨units, opened, pairs⟩ := buildDesignUnits_eq_ok built
  obtain ⟨x, found, _, _, led⟩ := openFile_eq_ok opened
  refine ⟨x, units, found, led, pairs.imp ?_⟩
  rintro m _ entered u rfl depth
  exact transcribed_of_build (f := .designUnit) entered depth

def clausedPackage : Graph
  | ⟨0⟩ => some { kind := .designFile,
                  field := fun f => if f = .designUnits then some ⟨1⟩ else none }
  | ⟨1⟩ => some { kind := .designUnit,
                  field := fun f => if f = .libraryUnit then some ⟨2⟩ else none }
  | ⟨2⟩ => some { kind := .packageBody, name := some "p",
                  field := fun f => if f = .declarationChain then some ⟨3⟩ else none }
  | ⟨3⟩ => some { kind := .useClause, next := some ⟨4⟩,
                  field := fun f => if f = .nameChain then some ⟨5⟩ else none }
  | ⟨4⟩ => some { kind := .useClause,
                  field := fun f => if f = .nameChain then some ⟨6⟩ else none }
  | ⟨5⟩ => some { kind := .simpleName, name := some "a", next := some ⟨6⟩ }
  | ⟨6⟩ => some { kind := .simpleName, name := some "b" }
  | _ => none

theorem clausedPackage_transcribed :
    buildDesignFile clausedPackage {} ⟨0⟩ =
        .ok ⟨[⟨[], .packageBody ⟨"p", [.useClause ⟨[⟨"a"⟩, ⟨"b"⟩]⟩, .useClause ⟨[⟨"b"⟩]⟩]⟩⟩]⟩ ∧
      Transcribed clausedPackage {} 5 .designFile ⟨0⟩
        ⟨[⟨[], .packageBody ⟨"p", [.useClause ⟨[⟨"a"⟩, ⟨"b"⟩]⟩, .useClause ⟨[⟨"b"⟩]⟩]⟩⟩]⟩ :=
  ⟨rfl, (sequences_are_their_chains clausedPackage {} ⟨0⟩).2.2.1 _ rfl 5⟩

end VhdlDesign
