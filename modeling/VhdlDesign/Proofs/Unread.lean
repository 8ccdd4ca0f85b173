import VhdlDesign.Proofs.Renaming

/-!
What a build does not read.

Statements, the constraints of a subtype and what a configuration declares are left out of a design,
and so is every field that the kind of its node does not define. A build reaches nodes only by chain
successors and by the other fields, and depends on nothing but what it reaches.
-/
namespace VhdlDesign

open Relation

/-- The nodes agree in all that a build can read of them. -/
structure Node.Agrees (x y : Node) : Prop where
  same : x.toAttributes.Same y.toAttributes
  position : y.position = x.position
  next : y.next = x.next
  field : ∀ f, x.kind.follows f = true → y.field f = x.field f

/-- The graphs agree at every node of `p` that a build from `n` can reach. -/
def Graph.AgreesFrom (p q : Graph) (n : NodeRef) : Prop :=
  ∀ m x, ReflTransGen p.Followed n m → p m = some x → ∃ y, q m = some y ∧ x.Agrees y

variable {p q : Graph} {n : NodeRef}

theorem Graph.AgreesFrom.renames (agrees : p.AgreesFrom q n) :
    p.Renames q id (ReflTransGen p.Followed n) where
  node := by
    intro m x reached found
    obtain ⟨y, found', agrees⟩ := agrees m x reached found
    refine ⟨y, found', ⟨agrees.same, ?_, ?_⟩, agrees.position⟩
    · rw [Option.map_id]
      exact agrees.next
    · intro f followed
      rw [Option.map_id]
      exact agrees.field f followed
  inside := fun _ _ reached followed => reached.tail followed
  injective := fun _ _ _ _ same => same

theorem Graph.Renames.opened_id {S : NodeRef → Prop} (path : List NodeRef) :
    Opened id S path path where
  renamed := path.map_id.symm
  apart := fun _ _ _ _ same => same

theorem Mirrors.follows {α : Type} {r r' : Except Fault α}
    (mirrors : Mirrors Eq (fun i j => j = i.rename id) r r') :
    Follows (fun e => ∃ m path, e = .absent m path) r r' := by
  cases mirrors with
  | ok values =>
    rw [values]
    exact .refl _
  | issue issues =>
    rw [issues, Issue.rename_id]
    exact .refl _
  | absent m path => exact .excuse ⟨m, path, rfl⟩ _

theorem Graph.AgreesFrom.build_follows (agrees : p.AgreesFrom q n) (limits : Limits)
    (path : List NodeRef) (f : Form) :
    Follows (fun e => ∃ m path, e = .absent m path) (Builder.build ⟨p, limits, path⟩ f n)
      (Builder.build ⟨q, limits, path⟩ f n) :=
  (agrees.renames.build_mirrors limits (Graph.Renames.opened_id path) .refl f).follows

theorem Graph.AgreesFrom.buildDesignUnits_follows (agrees : p.AgreesFrom q n) (limits : Limits) :
    Follows (fun e => ∃ m path, e = .absent m path) (buildDesignUnits p limits n)
      (buildDesignUnits q limits n) := by
  have kept : ∀ r : Except Issue DesignUnit, r.mapError (Issue.rename id) = r := by
    intro r
    cases r with
    | ok u => rfl
    | error i => exact congrArg Except.error i.rename_id
  refine ((agrees.renames.buildDesignUnits_mirrors limits .refl).imp ?_).follows
  rintro results _ _ rfl
  exact (List.map_id'' kept results).symm

/-- What is left out of a design has no influence on it. Where two graphs agree in what a build from
a node can reach and read, every way to build from the node comes to the same value or issue. -/
theorem unread_parts_have_no_influence {p q : Graph} {n : NodeRef} (agrees : p.AgreesFrom q n)
    (limits : Limits) :
    (∀ path f,
      Follows (fun e => ∃ m path, e = .absent m path) (Builder.build ⟨p, limits, path⟩ f n)
        (Builder.build ⟨q, limits, path⟩ f n) ∧
      Follows (fun e => ∃ m path, e = .absent m path) (Builder.buildOpen ⟨p, limits, path⟩ f n)
        (Builder.buildOpen ⟨q, limits, path⟩ f n)) ∧
    Follows (fun e => ∃ m path, e = .absent m path) (buildDesignFile p limits n)
      (buildDesignFile q limits n) ∧
    Follows (fun e => ∃ m path, e = .absent m path) (buildNode p limits n)
      (buildNode q limits n) ∧
    Follows (fun e => ∃ m path, e = .absent m path) (buildDesignUnits p limits n)
      (buildDesignUnits q limits n) := by
  have built := agrees.build_follows limits
  refine ⟨fun path f => ⟨built path f, ?_⟩, built [] .designFile, built [] .anyNode,
    agrees.buildDesignUnits_follows limits⟩
  have opened := Graph.Renames.opened_id (S := ReflTransGen p.Followed n) path
  exact (agrees.renames.buildOpen_mirrors limits opened .refl f).follows

def statedEntity : Graph
  | ⟨0⟩ => some { kind := .entityDeclaration, name := some "e",
                  field := fun f => if f = .statementChain then some ⟨1⟩ else none }
  | ⟨1⟩ => some { kind := .integerLiteral, next := some ⟨1⟩ }
  | _ => none

def strayEntity : Graph
  | ⟨0⟩ => some { kind := .entityDeclaration, name := some "e",
                  field := fun f => if f = .left then some ⟨9⟩ else none }
  | _ => none

theorem statedEntity_ends {m : NodeRef} : ¬ statedEntity.Followed ⟨0⟩ m := by
  rintro (led | ⟨x, f, found, followed, held⟩)
  · cases led
  · cases found
    dsimp only at held
    split at held
    next statements =>
      rw [statements] at followed
      cases followed
    · cases held

theorem statedEntity_agrees : statedEntity.AgreesFrom strayEntity ⟨0⟩ := by
  intro m x reached found
  cases reached.cases_head with
  | inr step =>
    obtain ⟨k, step, _⟩ := step
    exact absurd step statedEntity_ends
  | inl here =>
    cases here
    cases found
    refine ⟨_, rfl, .refl _, rfl, rfl, ?_⟩
    intro f followed
    dsimp only
    split
    next operand =>
      rw [operand] at followed
      cases followed
    · split
      next statements =>
        rw [statements] at followed
        cases followed
      · rfl

theorem statedEntity_built :
    statedEntity.AgreesFrom strayEntity ⟨0⟩ ∧
      Builder.build ⟨strayEntity, {}, []⟩ .entity ⟨0⟩ = .ok ⟨"e", [], [], []⟩ := by
  refine ⟨statedEntity_agrees, ?_⟩
  have same := unread_parts_have_no_influence statedEntity_agrees {}
  exact (same.1 [] .entity).1.ok rfl

end VhdlDesign
