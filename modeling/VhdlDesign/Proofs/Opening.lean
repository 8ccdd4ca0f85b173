import VhdlDesign.Proofs.Edges

/-!
Opening nodes.

`enterUnless` is the recursion of a builder with the test for nodes that may not be opened left
open. A builder turns away the nodes that are open already; without any test only the depth limit
ends the recursion. Two lemmas carry all that is said of whole builds: what a build can raise, and
when one build does what another does.
-/
namespace VhdlDesign

open Relation

/-- The nodes of a list are open, from the innermost to `start`, and `n` is a part of the innermost:
each of them was entered as a part of the one outside it. -/
inductive Nested (g : Graph) (start : NodeRef) : List NodeRef → NodeRef → Prop
  | outermost : Nested g start [] start
  | part {path : List NodeRef} {n m : NodeRef} (outer : Nested g start path n)
      (inner : g.Child n m) : Nested g start (n :: path) m

namespace Nested

variable {g : Graph} {start n m : NodeRef} {path : List NodeRef}

theorem reached (h : Nested g start path n) : ReflTransGen g.Edge start n := by
  induction h with
  | outermost => exact .refl
  | part _ inner ih => exact ih.trans inner.edges.to_reflTransGen

theorem below_open (h : Nested g start path n) (member : m ∈ path) : TransGen g.Child m n := by
  induction h with
  | outermost => cases member
  | part outer inner ih =>
    rcases List.mem_cons.mp member with rfl | member
    · exact .single inner
    · exact (ih member).tail inner

theorem edges_open (h : Nested g start path n) (member : m ∈ path) : TransGen g.Edge m n :=
  TransGen.closed (fun _ _ part => part.edges) m n (h.below_open member)

end Nested

namespace Builder

def enterUnless (barred : List NodeRef → NodeRef → Bool) :
    (room : Nat) → Builder → (f : Form) → NodeRef → Except Fault f.Value
  | room, b, f, n => do
    b.screen f n
    if barred b.path n then b.refuse n (.contractViolation .ancestorReference)
    else
      match room with
      | 0 => b.refuse n (.contractViolation (.depthExceeded b.limits.depth))
      | room + 1 => do
        let inner := b.push n
        let x ← inner.node n
        inner.carryOut n x (enterUnless barred room inner) (Grammar.recipe f)

/-- The test of a builder: a node that is open is barred. -/
def openTwice (path : List NodeRef) (n : NodeRef) : Bool := decide (n ∈ path)

theorem openTwice_eq_true {path : List NodeRef} {n : NodeRef} :
    openTwice path n = true ↔ n ∈ path := decide_eq_true_iff

theorem openTwice_eq_false {path : List NodeRef} {n : NodeRef} :
    openTwice path n = false ↔ n ∉ path := decide_eq_false_iff_not

def never (_ : List NodeRef) (_ : NodeRef) : Bool := false

def buildUnless (barred : List NodeRef → NodeRef → Bool) (b : Builder) (f : Form) (n : NodeRef) :
    Except Fault f.Value := enterUnless barred b.room b f n

theorem enter_eq_enterUnless (room : Nat) (b : Builder) (f : Form) (n : NodeRef) :
    enter room b f n = enterUnless openTwice room b f n := by
  induction room generalizing b f n with
  | zero =>
    unfold enter enterUnless
    simp only [openTwice_eq_true]
  | succ room ih =>
    have same : enter room (b.push n) = enterUnless openTwice room (b.push n) := by
      funext f m
      exact ih (b.push n) f m
    unfold enter enterUnless
    simp only [openTwice_eq_true, same]

theorem build_eq_buildUnless (b : Builder) (f : Form) (n : NodeRef) :
    b.build f n = b.buildUnless openTwice f n := enter_eq_enterUnless b.room b f n

section

variable {barred : List NodeRef → NodeRef → Bool} {room : Nat} {b : Builder} {f : Form}
variable {n : NodeRef}

theorem enterUnless_eq_ok {v : f.Value} (built : enterUnless barred room b f n = .ok v) :
    ∃ r x, room = r + 1 ∧ barred b.path n = false ∧ b.graph n = some x ∧
      (b.push n).carryOut n x (enterUnless barred r (b.push n)) (Grammar.recipe f) = .ok v := by
  unfold enterUnless at built
  obtain ⟨_, _, built⟩ := bind_eq_ok built
  split at built
  · obtain ⟨_, _, built⟩ := bind_eq_ok built
    cases built
  next unbarred =>
    cases room with
    | zero =>
      obtain ⟨_, _, built⟩ := bind_eq_ok built
      cases built
    | succ r =>
      obtain ⟨x, found, built⟩ := bind_eq_ok built
      exact ⟨r, x, rfl, by simpa using unbarred,
        (node_eq_ok (b := b.push n)).mp found, built⟩

end

/-! ### What a build can raise -/

/-- What has to be known of faults for `P` to hold of every fault of a build. `Inv room b n` is what
holds whenever `n` is about to be entered. -/
structure Accounts (P : Fault → Prop) (barred : List NodeRef → NodeRef → Bool)
    (Inv : Nat → Builder → NodeRef → Prop) : Prop where
  absent : ∀ room b n m path, Inv room b n → ReflTransGen b.graph.Edge n m → b.graph m = none →
    P (.absent m path)
  fits : ∀ room b n m y c, Inv room b n → ReflTransGen b.graph.Edge n m → b.graph m = some y →
    c.Fits y.toAttributes → P (y.issue m c)
  missing : ∀ room b n x f, Inv room b n → b.graph n = some x → x.kind.defines f = true →
    x.field f = none → P (x.issue n (.contractViolation (.missingField f)))
  malformed : ∀ room b n x f m y d, Inv room b n → b.graph n = some x →
    x.kind.defines f = true → ReflTransGen b.graph.Edge n m → b.graph m = some y →
    (walk b.graph.next b.limits.chainLength (x.field f)).defect = some (m, d) →
    P (y.issue m (.malformedChain d))
  ancestor : ∀ room b n x, Inv room b n → b.graph n = some x → barred b.path n = true →
    P (x.issue n (.contractViolation .ancestorReference))
  deep : ∀ b n x, Inv 0 b n → b.graph n = some x → barred b.path n = false →
    P (x.issue n (.contractViolation (.depthExceeded b.limits.depth)))
  child : ∀ room b n m, Inv (room + 1) b n → barred b.path n = false → b.graph.Child n m →
    Inv room (b.push n) m

theorem Accounts.carryOut {P : Fault → Prop} {barred : List NodeRef → NodeRef → Bool}
    {Inv : Nat → Builder → NodeRef → Prop} (h : Accounts P barred Inv) {room : Nat} {b : Builder}
    {n : NodeRef} {x : Node} (known : Inv room b n) (found : b.graph n = some x)
    {enter : (f : Form) → NodeRef → Except Fault f.Value}
    (parts : ∀ f m, b.graph.Child n m → OnlyRaises P (enter f m)) (f : Form)
    (path : List NodeRef) :
    OnlyRaises P (({ b with path } : Builder).carryOut n x enter (Grammar.recipe f)) := by
  refine carryOut_onlyRaises (Grammar.recipe_puts f x.toAttributes).keeps
    (fun c fits => h.fits _ b n n x c known .refl found fits) ?_
  intro q asked
  refine answer_onlyRaises (b := { b with path }) found asked ?_ ?_ ?_ ?_ ?_
  · exact fun m edges => h.absent _ b n m _ known edges.to_reflTransGen
  · exact fun f defined => h.missing _ b n x f known found defined
  · exact fun f m y d defined edges present =>
      h.malformed _ b n x f m y d known found defined edges.to_reflTransGen present
  · exact fun m y c edges present =>
      h.fits _ b n m y c known edges.to_reflTransGen present
  · exact fun f m held => parts f m ⟨x, q, f, found, asked, held⟩

theorem Accounts.enterUnless {P : Fault → Prop} {barred : List NodeRef → NodeRef → Bool}
    {Inv : Nat → Builder → NodeRef → Prop} (h : Accounts P barred Inv) {room : Nat} {b : Builder}
    {n : NodeRef} (known : Inv room b n) (f : Form) :
    OnlyRaises P (enterUnless barred room b f n) := by
  induction room using Nat.strongRecOn generalizing b n f with
  | ind room ih =>
    have absent := fun path => h.absent room b n n path known .refl
    unfold Builder.enterUnless
    apply OnlyRaises.bind
    · exact screen_onlyRaises (absent _) fun x found => h.fits _ b n n x _ known .refl found rfl
    intro _ _
    split
    next turned =>
      exact refuse_onlyRaises (absent _) fun x found => h.ancestor _ b n x known found turned
    next unbarred =>
      have unbarred : barred b.path n = false := by simpa using unbarred
      cases room with
      | zero =>
        exact refuse_onlyRaises (absent _) fun x found => h.deep b n x known found unbarred
      | succ room =>
        refine OnlyRaises.bind (node_onlyRaises (b := b.push n) (absent _)) ?_
        intro x found
        have found : b.graph n = some x := (node_eq_ok (b := b.push n)).mp found
        refine h.carryOut known found ?_ f (n :: b.path)
        intro f m part
        exact ih room (Nat.lt_succ_self room) (h.child room b n m known unbarred part) f

theorem Accounts.buildOpen {P : Fault → Prop} {Inv : Nat → Builder → NodeRef → Prop}
    (h : Accounts P openTwice Inv) {b : Builder} {n : NodeRef} (known : Inv b.room b n)
    (parts : ∀ m, b.graph.Child n m → Inv b.room b m) (f : Form) :
    OnlyRaises P (b.buildOpen f n) := by
  refine OnlyRaises.bind (node_onlyRaises (h.absent _ b n n _ known .refl)) ?_
  intro x node
  refine h.carryOut known (node_eq_ok.mp node) ?_ f b.path
  intro f m part
  rw [build_eq_buildUnless]
  exact h.enterUnless (parts m part) f

/-- A reference without a node is one that the start leads to. -/
def Traced (g : Graph) (start : NodeRef) : Fault → Prop
  | .issue _ => True
  | .absent m _ => ReflTransGen g.Edge start m ∧ g m = none

theorem traced_accounts (g : Graph) (start : NodeRef) (barred : List NodeRef → NodeRef → Bool) :
    Accounts (Traced g start) barred
      (fun _ b n => b.graph = g ∧ ReflTransGen g.Edge start n) where
  absent := by
    rintro _ b n m path ⟨rfl, reached⟩ edges missing
    exact ⟨reached.trans edges, missing⟩
  fits := by
    intros
    trivial
  missing := by
    intros
    trivial
  malformed := by
    intros
    trivial
  ancestor := by
    intros
    trivial
  deep := by
    intros
    trivial
  child := by
    rintro _ b n m ⟨rfl, reached⟩ _ part
    exact ⟨rfl, reached.trans part.edges.to_reflTransGen⟩

theorem enterUnless_absent {barred : List NodeRef → NodeRef → Bool} {b : Builder} {n m : NodeRef}
    {f : Form} {room : Nat} {path : List NodeRef}
    (raised : enterUnless barred room b f n = .error (.absent m path)) :
    ReflTransGen b.graph.Edge n m ∧ b.graph m = none :=
  (traced_accounts b.graph n barred).enterUnless ⟨rfl, .refl⟩ f _ raised

theorem issues_of_traced {α : Type} {g : Graph} {start : NodeRef} {r : Except Fault α}
    (closed : g.Closed) (present : ∃ x, g start = some x) (traced : OnlyRaises (Traced g start) r) :
    OnlyRaises (fun e => ∃ i, e = .issue i) r := by
  intro e raised
  cases e with
  | issue i => exact ⟨i, rfl⟩
  | absent m path =>
    obtain ⟨reached, missing⟩ := traced _ raised
    obtain ⟨y, found⟩ := closed.reach reached present
    rw [missing] at found
    cases found

theorem buildUnless_issue {b : Builder} {n : NodeRef} (closed : b.graph.Closed)
    (present : ∃ x, b.graph n = some x) (barred : List NodeRef → NodeRef → Bool) (f : Form) :
    OnlyRaises (fun e => ∃ i, e = .issue i) (b.buildUnless barred f n) :=
  issues_of_traced closed present
    ((traced_accounts b.graph n barred).enterUnless ⟨rfl, .refl⟩ f)

theorem buildOpen_issue {b : Builder} {n : NodeRef} (closed : b.graph.Closed)
    (present : ∃ x, b.graph n = some x) (f : Form) :
    OnlyRaises (fun e => ∃ i, e = .issue i) (b.buildOpen f n) := by
  have traced := traced_accounts b.graph n openTwice
  refine issues_of_traced closed present (traced.buildOpen ⟨rfl, .refl⟩ ?_ f)
  exact fun m part => ⟨rfl, part.edges.to_reflTransGen⟩

theorem enterUnless_missing {barred : List NodeRef → NodeRef → Bool} {b : Builder} {n : NodeRef}
    {room : Nat} (missing : b.graph n = none) (f : Form) :
    OnlyRaises (fun e => ∃ path, e = .absent n path) (enterUnless barred room b f n) := by
  have nothing : ∀ x, b.graph n ≠ some x := by simp [missing]
  have refused : ∀ {c : Cause},
      OnlyRaises (fun e => ∃ path, e = .absent n path) (b.refuse n c : Except Fault f.Value) :=
    refuse_onlyRaises (fun _ => ⟨_, rfl⟩) fun x found => absurd found (nothing x)
  unfold enterUnless
  refine OnlyRaises.bind
    (screen_onlyRaises (fun _ => ⟨_, rfl⟩) fun x found => absurd found (nothing x)) ?_
  intro _ _
  split
  · exact refused
  cases room with
  | zero => exact refused
  | succ room =>
    refine OnlyRaises.bind (node_onlyRaises fun _ => ⟨_, rfl⟩) ?_
    intro x found
    exact absurd ((node_eq_ok (b := b.push n)).mp found) (nothing x)

/-! ### When one build does what another does -/

/-- What has to be known for a build under `limits` that bars with `barred'` to come out like a
build that bars with `barred`, unless this one ends in an excused fault. -/
structure Matches (excused : Fault → Prop) (barred barred' : List NodeRef → NodeRef → Bool)
    (limits : Limits) (Inv : Nat → Builder → NodeRef → Prop) : Prop where
  turned : ∀ room b f n, Inv room b n → barred b.path n ≠ barred' b.path n →
    ∃ e, enterUnless barred room b f n = .error e ∧ excused e
  absent : ∀ b n, Inv 0 b n → b.graph n = none → excused (.absent n b.path)
  deep : ∀ b n x, Inv 0 b n → b.graph n = some x →
    excused (x.issue n (.contractViolation (.depthExceeded b.limits.depth)))
  gathered : ∀ room b n head, Inv room b n →
    Follows excused ((b.push n).elements head) (((b.push n).under limits).elements head)
  child : ∀ room b n m, Inv (room + 1) b n → barred b.path n = false → b.graph.Child n m →
    Inv room (b.push n) m

theorem Matches.enterUnless {excused : Fault → Prop}
    {barred barred' : List NodeRef → NodeRef → Bool} {limits : Limits}
    {Inv : Nat → Builder → NodeRef → Prop} (h : Matches excused barred barred' limits Inv)
    {room room' : Nat} {b : Builder} {n : NodeRef} (known : Inv room b n) (wider : room ≤ room')
    (f : Form) :
    Follows excused (enterUnless barred room b f n)
      (enterUnless barred' room' (b.under limits) f n) := by
  induction room using Nat.strongRecOn generalizing room' b n f with
  | ind room ih =>
    by_cases same : barred b.path n = barred' b.path n
    swap
    · exact .inr (h.turned room b f n known same)
    unfold Builder.enterUnless
    refine Follows.bind (.refl (b.screen f n)) ?_
    intro _ _
    by_cases turned : barred b.path n = true
    · rw [if_pos turned, if_pos (same ▸ turned)]
      exact .refl _
    rw [if_neg turned, if_neg (same ▸ turned)]
    cases room with
    | zero => exact refuse_follows (h.absent b n known) (fun x => h.deep b n x known) _
    | succ room =>
      obtain ⟨room', rfl⟩ : ∃ k, room' = k + 1 := ⟨room' - 1, by omega⟩
      refine Follows.bind (.refl ((b.push n).node n)) ?_
      intro x found
      have found : b.graph n = some x := (node_eq_ok (b := b.push n)).mp found
      apply carryOut_follows (Grammar.recipe_puts f x.toAttributes).keeps
      intro q asked
      refine answer_follows (fun head => h.gathered _ b n head known) ?_
      intro f m held
      exact ih room (Nat.lt_succ_self room) (h.child room b n m known (by simpa using turned)
        ⟨x, q, f, found, asked, held⟩) (Nat.le_of_succ_le_succ wider) f

/-! ### What was built was built from its parts -/

def Builds (barred : List NodeRef → NodeRef → Bool) (g : Graph) (room : Nat) (n : NodeRef) : Prop :=
  ∃ b f v, b.graph = g ∧ enterUnless barred room b f n = .ok v

namespace Builds

variable {barred : List NodeRef → NodeRef → Bool} {g : Graph} {room : Nat} {n m : NodeRef}

theorem child (h : Builds barred g room n) (part : g.Child n m) :
    ∃ r < room, Builds barred g r m := by
  obtain ⟨b, f, v, rfl, built⟩ := h
  obtain ⟨r, x, rfl, _, found, built⟩ := enterUnless_eq_ok built
  obtain ⟨y, q, f', found', asked, held⟩ := part
  cases found.symm.trans found'
  have asks := (Grammar.recipe_puts f x.toAttributes).asks q asked
  obtain ⟨w, answered⟩ := answer_of_carryOut asks built
  obtain ⟨v', built'⟩ := entered_of_answer (b := b.push n) held answered
  exact ⟨r, Nat.lt_succ_self r, b.push n, f', v', rfl, built'⟩

theorem descend (h : Builds barred g room n) (below : TransGen g.Child n m) :
    ∃ r < room, Builds barred g r m := by
  induction below with
  | single part => exact h.child part
  | tail _ part ih =>
    obtain ⟨r, less, built⟩ := ih
    obtain ⟨r', less', built'⟩ := built.child part
    exact ⟨r', Nat.lt_trans less' less, built'⟩

theorem acyclic (h : Builds barred g room n) : ¬ TransGen g.Child n n := by
  intro around
  -- once around the cycle the same node is built with less room
  induction room using Nat.strongRecOn with
  | ind room ih =>
    obtain ⟨r, less, built⟩ := h.descend around
    exact ih r less built

end Builds

end Builder

end VhdlDesign
