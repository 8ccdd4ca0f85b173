import Mathlib.Data.Finset.Card
import Mathlib.Data.Finset.Range
import VhdlDesign.Proofs.Limits
import VhdlDesign.Proofs.Table

/-!
Builds end.

Of a table only so many nodes can be open at a time, since none is opened twice. The recursion of a
builder therefore ends for a reason that has nothing to do with its limits, and limits that cover
the table are never reached.
-/
namespace VhdlDesign

open Relation

/-! ### Recursion on the nodes that are not open -/

namespace Arena

def unopened (a : Arena) (path : List NodeRef) : Nat :=
  (Finset.range a.size \ (path.map NodeRef.index).toFinset).card

theorem unopened_push {a : Arena} {n : NodeRef} {path : List NodeRef} (has : a.Has n)
    (fresh : n ∉ path) : a.unopened (n :: path) < a.unopened path := by
  have outside : n.index ∉ (path.map NodeRef.index).toFinset := by
    intro member
    obtain ⟨⟨i⟩, hm, rfl⟩ := List.mem_map.mp (List.mem_toFinset.mp member)
    exact fresh hm
  have left : n.index ∈ Finset.range a.size \ (path.map NodeRef.index).toFinset :=
    Finset.mem_sdiff.mpr ⟨Finset.mem_range.mpr (has_iff_index.mp has), outside⟩
  simp only [unopened, List.map_cons, List.toFinset_cons, Finset.sdiff_insert]
  exact Finset.card_erase_lt_of_mem left

/-- Builds a form from a node of the table as a builder does. The depth limit is a test like any
other here: the recursion is on the nodes that are not open. -/
def buildInside (a : Arena) (limits : Limits) (path : List NodeRef) (f : Form) (n : NodeRef) :
    Except Fault f.Value := do
  let b : Builder := { graph := a.graph, limits, path }
  b.screen f n
  if _opened : n ∈ path then b.refuse n (.contractViolation .ancestorReference)
  else if path.length < limits.depth then
    match _found : a.graph n with
    | none => .error (.absent n (n :: path))
    | some x =>
      (b.push n).carryOut n x (fun f m => buildInside a limits (n :: path) f m) (Grammar.recipe f)
  else b.refuse n (.contractViolation (.depthExceeded limits.depth))
termination_by a.unopened path
decreasing_by exact unopened_push (has_of_graph _found) _opened

theorem build_eq_buildInside (a : Arena) (limits : Limits) (path : List NodeRef) (f : Form)
    (n : NodeRef) : Builder.build ⟨a.graph, limits, path⟩ f n = a.buildInside limits path f n := by
  unfold Builder.build
  generalize left : (⟨a.graph, limits, path⟩ : Builder).room = room
  simp only [Builder.room] at left
  induction room generalizing path f n with
  | zero =>
    have full : ¬ path.length < limits.depth := by omega
    unfold Builder.enter buildInside
    simp only [if_neg full, dite_eq_ite]
  | succ room ih =>
    have space : path.length < limits.depth := by omega
    have inner : Builder.enter room ⟨a.graph, limits, n :: path⟩ =
        fun f m => a.buildInside limits (n :: path) f m := by
      funext f m
      apply ih
      rw [List.length_cons]
      omega
    unfold Builder.enter buildInside
    simp only [if_pos space, dite_eq_ite, Builder.push, inner]
    congr 1
    funext _
    split
    · rfl
    · cases found : a.graph n with
      | none =>
        simp only [Builder.node, found]
        rfl
      | some x =>
        simp only [Builder.node, found]
        rfl

end Arena

/-! ### Limits that cover the table -/

/-- The limits let every node of a table be open at a time, and let a chain pass all of them. -/
structure Limits.Cover (limits : Limits) (a : Arena) : Prop where
  depth : a.size ≤ limits.depth
  chainLength : a.size ≤ limits.chainLength

/-- The result is a value, or an issue that is not about a limit. -/
def Unlimited {α : Type} (r : Except Fault α) : Prop := OnlyRaises (fun e => ¬ e.Cut) r

theorem Follows.eq_of_unlimited {α : Type} {r r' : Except Fault α} (h : Follows Fault.Cut r r')
    (unlimited : Unlimited r) : r' = r := by
  rcases h with same | ⟨e, raised, cut⟩
  · exact same
  · exact absurd cut (unlimited e raised)

theorem Cause.Fits.not_isLimit {x : Attributes} {c : Cause} (fits : c.Fits x) : ¬ c.IsLimit := by
  intro limit
  cases c with
  | malformedChain defect => exact fits
  | unresolvableName defect => exact limit
  | unsupportedKind kind => exact limit
  | contractViolation violation =>
    cases violation with
    | depthExceeded depth => exact fits
    | _ => exact limit

/-- What holds whenever a node of a table is entered under limits that cover the table: the open
nodes are distinct nodes of the table, so that one more always finds room. -/
structure Roomy (a : Arena) (room : Nat) (b : Builder) (n : NodeRef) : Prop where
  graph : b.graph = a.graph
  has : a.Has n
  distinct : b.path.Nodup
  within : ∀ k ∈ b.path, a.Has k
  room : a.size ≤ room + b.path.length
  chains : a.size ≤ b.limits.chainLength

namespace Roomy

variable {a : Arena} {limits : Limits} {room : Nat} {b : Builder} {n m : NodeRef}

theorem outermost (cover : limits.Cover a) (has : a.Has n) :
    Roomy a (Builder.room ⟨a.graph, limits, []⟩) ⟨a.graph, limits, []⟩ n :=
  ⟨rfl, has, .nil, by simp, cover.depth, cover.chainLength⟩

theorem reach (h : Roomy a room b n) (enclosed : a.Enclosed)
    (reached : ReflTransGen b.graph.Edge n m) : a.Has m := by
  rw [h.graph] at reached
  exact enclosed.reach h.has reached

theorem part (h : Roomy a room b n) (enclosed : a.Enclosed) (part : b.graph.Child n m) :
    Roomy a room b m :=
  { h with has := h.reach enclosed part.edges.to_reflTransGen }

theorem path_length (h : Roomy a room b n) (fresh : n ∉ b.path) : b.path.length < a.size := by
  have short : (n :: b.path).length ≤ a.size :=
    Arena.length_le_size (List.nodup_cons.mpr ⟨fresh, h.distinct⟩)
      (List.forall_mem_cons.mpr ⟨h.has, h.within⟩)
  rw [List.length_cons] at short
  omega

theorem push (h : Roomy a (room + 1) b n) (enclosed : a.Enclosed) (fresh : n ∉ b.path)
    (part : b.graph.Child n m) : Roomy a room (b.push n) m where
  graph := h.graph
  has := (h.part enclosed part).has
  distinct := List.nodup_cons.mpr ⟨fresh, h.distinct⟩
  within := List.forall_mem_cons.mpr ⟨h.has, h.within⟩
  room := by
    have total := h.room
    simp only [Builder.push, List.length_cons]
    omega
  chains := h.chains

end Roomy

theorem roomy_accounts {a : Arena} (enclosed : a.Enclosed) :
    Builder.Accounts (fun e => ¬ e.Cut) Builder.openTwice (Roomy a) where
  absent := by
    intro room b n m path known edges missing _
    obtain ⟨y, found⟩ := Arena.has_iff_graph.mp (known.reach enclosed edges)
    rw [known.graph, found] at missing
    cases missing
  fits := by
    intro room b n m y c _ _ _ fits
    exact fits.not_isLimit
  missing := by
    intro room b n x f _ _ _ _ limit
    exact limit
  malformed := by
    intro room b n x f m y d known found _ _ _ stopped limit
    rw [known.graph] at found stopped
    obtain ⟨length, rfl⟩ :=
      enclosed.walk_defect (enclosed.field x (Arena.mem_of_graph found) f) known.chains stopped
    exact limit
  ancestor := by
    intro room b n x _ _ _ limit
    exact limit
  deep := by
    intro b n x known _ unbarred _
    -- no room would be left only if all nodes of the table were open
    have short := known.path_length (Builder.openTwice_eq_false.mp unbarred)
    have full := known.room
    omega
  child := by
    intro room b n m known unbarred part
    exact known.push enclosed (Builder.openTwice_eq_false.mp unbarred) part

section

variable {a : Arena} {limits : Limits} {n : NodeRef}

theorem build_unlimited (enclosed : a.Enclosed) {b : Builder} (known : Roomy a b.room b n)
    (f : Form) : Unlimited (b.build f n) := by
  rw [Builder.build_eq_buildUnless]
  exact (roomy_accounts enclosed).enterUnless known f

theorem buildOpen_unlimited (enclosed : a.Enclosed) {b : Builder} (known : Roomy a b.room b n)
    (f : Form) : Unlimited (b.buildOpen f n) :=
  (roomy_accounts enclosed).buildOpen known (fun _ part => known.part enclosed part) f

theorem openFile_unlimited (enclosed : a.Enclosed) (cover : limits.Cover a) (has : a.Has n) :
    Unlimited (openFile a.graph limits n) :=
  (roomy_accounts enclosed).openFile (.outermost cover has) rfl

theorem openFile_roomy (enclosed : a.Enclosed) (cover : limits.Cover a) (has : a.Has n)
    {units : List NodeRef} {m : NodeRef} (opened : openFile a.graph limits n = .ok units)
    (member : m ∈ units) :
    Roomy a (insideFile a.graph limits n).room (insideFile a.graph limits n) m where
  graph := rfl
  has := enclosed.reach has (openFile_nested opened member).reached
  distinct := by simp [insideFile]
  within := by
    intro k only
    rw [List.mem_singleton.mp only]
    exact has
  room := by
    have depth := cover.depth
    simp only [insideFile, Builder.room, List.length_singleton]
    omega
  chains := cover.chainLength

theorem buildDesignUnits_unlimited (enclosed : a.Enclosed) (cover : limits.Cover a)
    (has : a.Has n) : Unlimited (buildDesignUnits a.graph limits n) := by
  rw [buildDesignUnits_eq]
  refine OnlyRaises.bind (openFile_unlimited enclosed cover has) ?_
  intro units opened
  refine OnlyRaises.mapM ?_
  intro m member e raised
  obtain ⟨k, path, rfl, absent⟩ := settle_onlyRaises _ e raised
  exact build_unlimited enclosed (openFile_roomy enclosed cover has opened member) _ _ absent

theorem units_unlimited (enclosed : a.Enclosed) (cover : limits.Cover a) (has : a.Has n)
    {results : List (Except Issue DesignUnit)} {i : Issue}
    (built : buildDesignUnits a.graph limits n = .ok results) (reported : .error i ∈ results) :
    ¬ i.cause.IsLimit := by
  obtain ⟨units, opened, pairs⟩ := buildDesignUnits_eq_ok built
  obtain ⟨m, member, refused⟩ := exists_of_forall₂ pairs reported
  exact build_unlimited enclosed (openFile_roomy enclosed cover has opened member) _ _ refused

/-! ### The same result under all limits that cover the table -/

def Limits.least (a : Arena) : Limits := { chainLength := a.size, depth := a.size }

theorem Limits.least_cover (a : Arena) : (Limits.least a).Cover a := ⟨Nat.le_refl _, Nat.le_refl _⟩

theorem build_eq_least (enclosed : a.Enclosed) (cover : limits.Cover a) (has : a.Has n)
    (f : Form) :
    Builder.build ⟨a.graph, limits, []⟩ f n = Builder.build ⟨a.graph, .least a, []⟩ f n := by
  have known := Roomy.outermost (Limits.least_cover a) has
  exact (Builder.build_follows (b := ⟨a.graph, .least a, []⟩) cover.depth cover.chainLength f
    n).eq_of_unlimited (build_unlimited enclosed known f)

theorem buildOpen_eq_least (enclosed : a.Enclosed) (cover : limits.Cover a) (has : a.Has n)
    (f : Form) :
    Builder.buildOpen ⟨a.graph, limits, []⟩ f n =
      Builder.buildOpen ⟨a.graph, .least a, []⟩ f n := by
  have known := Roomy.outermost (Limits.least_cover a) has
  exact (Builder.buildOpen_follows (b := ⟨a.graph, .least a, []⟩) cover.depth cover.chainLength f
    n).eq_of_unlimited (buildOpen_unlimited enclosed known f)

theorem buildDesignUnits_eq_least (enclosed : a.Enclosed) (cover : limits.Cover a)
    (has : a.Has n) :
    buildDesignUnits a.graph limits n = buildDesignUnits a.graph (.least a) n := by
  have least := Limits.least_cover a
  refine Follows.eq_of_unlimited ?_ (buildDesignUnits_unlimited enclosed least has)
  rw [buildDesignUnits_eq, buildDesignUnits_eq]
  refine Follows.bind (openFile_follows cover.depth cover.chainLength) ?_
  intro units opened
  refine Follows.mapM ?_
  intro m member
  have follows := Builder.build_follows (b := insideFile a.graph (.least a) n) cover.depth
    cover.chainLength .designUnit m
  have same : (insideFile a.graph limits n).build .designUnit m =
      (insideFile a.graph (.least a) n).build .designUnit m :=
    follows.eq_of_unlimited
      (build_unlimited enclosed (openFile_roomy enclosed least has opened member) _)
  rw [same]
  exact .refl _

end

/-- Building from a table whose edges stay inside it ends whatever the limits are: nodes are opened
by recursion on those that are not open, and a walk passes no more nodes than there are. Limits that
cover the table are never reached, and the results under them are all the same. -/
theorem covering_limits_never_bite {a : Arena} (enclosed : a.Enclosed) {n : NodeRef}
    (has : a.Has n) :
    (∀ limits path f,
      Builder.build ⟨a.graph, limits, path⟩ f n = a.buildInside limits path f n) ∧
    (∀ limit, (walk a.graph.next limit (some n)).nodes.length ≤ a.size) ∧
    ∀ limits : Limits, limits.Cover a →
      (∀ f, Unlimited (Builder.build ⟨a.graph, limits, []⟩ f n) ∧
        Unlimited (Builder.buildOpen ⟨a.graph, limits, []⟩ f n)) ∧
      Unlimited (buildDesignFile a.graph limits n) ∧
      Unlimited (buildNode a.graph limits n) ∧
      Unlimited (buildDesignUnits a.graph limits n) ∧
      (∀ results, buildDesignUnits a.graph limits n = .ok results →
        ∀ i, .error i ∈ results → ¬ i.cause.IsLimit) ∧
      ∀ limits' : Limits, limits'.Cover a →
        (∀ f, Builder.build ⟨a.graph, limits', []⟩ f n = Builder.build ⟨a.graph, limits, []⟩ f n ∧
          Builder.buildOpen ⟨a.graph, limits', []⟩ f n =
            Builder.buildOpen ⟨a.graph, limits, []⟩ f n) ∧
        buildDesignFile a.graph limits' n = buildDesignFile a.graph limits n ∧
        buildNode a.graph limits' n = buildNode a.graph limits n ∧
        buildDesignUnits a.graph limits' n = buildDesignUnits a.graph limits n := by
  refine ⟨fun limits path f => a.build_eq_buildInside limits path f n,
    enclosed.walk_length (fun k only => Option.some.inj only ▸ has), ?_⟩
  intro limits cover
  have known := Roomy.outermost cover has
  have built := build_unlimited enclosed known
  refine ⟨fun f => ⟨built f, buildOpen_unlimited enclosed known f⟩, built .designFile,
    built .anyNode, buildDesignUnits_unlimited enclosed cover has,
    fun results built i => units_unlimited enclosed cover has built, ?_⟩
  intro limits' cover'
  have same : ∀ f, Builder.build ⟨a.graph, limits', []⟩ f n =
      Builder.build ⟨a.graph, limits, []⟩ f n := by
    intro f
    rw [build_eq_least enclosed cover' has, build_eq_least enclosed cover has]
  refine ⟨fun f => ⟨same f, ?_⟩, same .designFile, same .anyNode, ?_⟩
  · rw [buildOpen_eq_least enclosed cover' has, buildOpen_eq_least enclosed cover has]
  · rw [buildDesignUnits_eq_least enclosed cover' has, buildDesignUnits_eq_least enclosed cover has]

def endlessTable : Arena where
  nodes := #[
    { kind := .parenthesis, field := fun f => if f = .expression then some ⟨1⟩ else none },
    { kind := .parenthesis, field := fun f => if f = .expression then some ⟨0⟩ else none }]

theorem endlessTable_refused :
    endlessTable.Enclosed ∧ endlessTable.Has ⟨0⟩ ∧
      Builder.build ⟨endlessTable.graph, ⟨18446744073709551615, 18446744073709551615⟩, []⟩
        .expression ⟨0⟩ =
          .error (.issue ⟨.contractViolation .ancestorReference, ⟨0⟩, .parenthesis, none⟩) := by
  have enclosed : endlessTable.Enclosed := by decide
  have has : endlessTable.Has ⟨0⟩ := by decide
  refine ⟨enclosed, has, ?_⟩
  have wide : Limits.Cover ⟨18446744073709551615, 18446744073709551615⟩ endlessTable :=
    ⟨by decide, by decide⟩
  obtain ⟨_, _, ends⟩ := covering_limits_never_bite enclosed has
  obtain ⟨_, _, _, _, _, same⟩ := ends ⟨2, 2⟩ ⟨by decide, by decide⟩
  exact ((same _ wide).1 .expression).1.trans rfl

end VhdlDesign
