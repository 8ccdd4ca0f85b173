import Mathlib.Data.List.Forall2
import VhdlDesign.Build.Builder

/-! Results of builds: which faults they can end in, and when one build does what another does. -/
namespace VhdlDesign

variable {α β : Type}

@[elab_as_elim]
theorem Fault.resultCases {motive : Except Fault α → Prop} (ok : ∀ v, motive (.ok v))
    (issue : ∀ i, motive (.error (.issue i)))
    (absent : ∀ m path, motive (.error (.absent m path))) (r : Except Fault α) : motive r := by
  cases r with
  | ok v => exact ok v
  | error e =>
    cases e with
    | issue i => exact issue i
    | absent m path => exact absent m path

def OnlyRaises (P : Fault → Prop) (r : Except Fault α) : Prop := ∀ e, r = .error e → P e

namespace OnlyRaises

variable {P : Fault → Prop}

theorem ok (v : α) : OnlyRaises P (.ok v : Except Fault α) := by
  intro e raised
  cases raised

theorem error {e : Fault} (h : P e) : OnlyRaises P (.error e : Except Fault α) := by
  intro e' raised
  cases raised
  exact h

theorem bind {r : Except Fault α} {k : α → Except Fault β} (first : OnlyRaises P r)
    (rest : ∀ v, r = .ok v → OnlyRaises P (k v)) : OnlyRaises P (r >>= k) := by
  cases r with
  | error e => exact error (first e rfl)
  | ok v => exact rest v rfl

theorem mapM {make : NodeRef → Except Fault α} {ms : List NodeRef}
    (each : ∀ m ∈ ms, OnlyRaises P (make m)) : OnlyRaises P (ms.mapM make) := by
  induction ms with
  | nil => exact ok []
  | cons m ms ih =>
    rw [List.mapM_cons]
    apply bind (each m List.mem_cons_self)
    intro v _
    apply bind (ih fun k hk => each k (List.mem_cons_of_mem m hk))
    intro vs _
    exact ok _

theorem forM {act : NodeRef → Except Fault Unit} {ms : List NodeRef}
    (each : ∀ m ∈ ms, OnlyRaises P (act m)) : OnlyRaises P (ms.forM act) := by
  induction ms with
  | nil => exact ok ()
  | cons m ms ih =>
    apply bind (each m List.mem_cons_self)
    intro _ _
    exact ih fun k hk => each k (List.mem_cons_of_mem m hk)

end OnlyRaises

/-- The second result is the first, unless the first is an excused fault. -/
def Follows (excused : Fault → Prop) (r r' : Except Fault α) : Prop :=
  r' = r ∨ ∃ e, r = .error e ∧ excused e

namespace Follows

variable {excused : Fault → Prop}

theorem refl (r : Except Fault α) : Follows excused r r := .inl rfl

theorem excuse {e : Fault} (h : excused e) (r : Except Fault α) : Follows excused (.error e) r :=
  .inr ⟨e, rfl, h⟩

theorem bind {r r' : Except Fault α} {k k' : α → Except Fault β} (first : Follows excused r r')
    (rest : ∀ v, r = .ok v → Follows excused (k v) (k' v)) :
    Follows excused (r >>= k) (r' >>= k') := by
  rcases first with rfl | ⟨e, rfl, h⟩
  · cases r' with
    | error e => exact refl _
    | ok v => exact rest v rfl
  · exact excuse h _

theorem mapM {make make' : NodeRef → Except Fault α} {ms : List NodeRef}
    (each : ∀ m ∈ ms, Follows excused (make m) (make' m)) :
    Follows excused (ms.mapM make) (ms.mapM make') := by
  induction ms with
  | nil => exact refl _
  | cons m ms ih =>
    simp only [List.mapM_cons]
    apply bind (each m List.mem_cons_self)
    intro v _
    apply bind (ih fun k hk => each k (List.mem_cons_of_mem m hk))
    intro vs _
    exact refl _

theorem ok {r r' : Except Fault α} {v : α} (h : Follows excused r r') (built : r = .ok v) :
    r' = .ok v := by
  rcases h with rfl | ⟨e, he, _⟩
  · exact built
  · rw [built] at he
    cases he

theorem error {r r' : Except Fault α} {e : Fault} (h : Follows excused r r')
    (raised : r = .error e) (kept : ¬ excused e) : r' = .error e := by
  rcases h with rfl | ⟨e', he, hx⟩
  · exact raised
  · rw [raised] at he
    cases he
    exact absurd hx kept

end Follows

theorem bind_eq_ok {ε : Type} {r : Except ε α} {k : α → Except ε β} {w : β}
    (h : r >>= k = .ok w) : ∃ v, r = .ok v ∧ k v = .ok w := by
  cases r with
  | error e => cases h
  | ok v => exact ⟨v, rfl, h⟩

theorem mapM_eq_ok_iff {γ ε : Type} {make : γ → Except ε α} {ms : List γ} {vs : List α} :
    ms.mapM make = .ok vs ↔ List.Forall₂ (fun m v => make m = .ok v) ms vs := by
  induction ms generalizing vs with
  | nil =>
    constructor
    · intro h
      cases h
      exact .nil
    · intro h
      cases h
      rfl
  | cons m ms ih =>
    rw [List.mapM_cons]
    constructor
    · intro h
      obtain ⟨v, hv, h⟩ := bind_eq_ok h
      obtain ⟨rest, hrest, h⟩ := bind_eq_ok h
      cases h
      exact .cons hv (ih.mp hrest)
    · intro h
      cases h with
      | cons hv hrest =>
        rw [hv, ih.mpr hrest]
        rfl

theorem mapM_isOk {γ ε : Type} {make : γ → Except ε α} {ms : List γ} :
    (∃ vs, ms.mapM make = .ok vs) ↔ ∀ m ∈ ms, ∃ v, make m = .ok v := by
  induction ms with
  | nil => exact ⟨fun _ => by simp, fun _ => ⟨[], rfl⟩⟩
  | cons m ms ih =>
    rw [List.forall_mem_cons, ← ih]
    constructor
    · rintro ⟨vs, made⟩
      obtain ⟨v, first, made⟩ := bind_eq_ok (List.mapM_cons.symm.trans made)
      obtain ⟨rest, later, _⟩ := bind_eq_ok made
      exact ⟨⟨v, first⟩, rest, later⟩
    · rintro ⟨⟨v, first⟩, rest, later⟩
      refine ⟨v :: rest, ?_⟩
      rw [List.mapM_cons, first, later]
      rfl

theorem mapM_eq_error_iff {γ ε : Type} {make : γ → Except ε α} {ms : List γ} {e : ε} :
    ms.mapM make = .error e ↔ ∃ before m after, ms = before ++ m :: after ∧
      (∀ k ∈ before, ∃ v, make k = .ok v) ∧ make m = .error e := by
  constructor
  · intro failed
    induction ms with
    | nil => cases failed
    | cons m ms ih =>
      rw [List.mapM_cons] at failed
      cases first : make m with
      | error e' =>
        rw [first] at failed
        cases failed
        exact ⟨[], m, ms, rfl, by simp, first⟩
      | ok v =>
        rw [first] at failed
        cases later : ms.mapM make with
        | ok vs =>
          rw [later] at failed
          cases failed
        | error e' =>
          rw [later] at failed
          cases failed
          obtain ⟨before, k, after, rfl, made, failed⟩ := ih later
          exact ⟨m :: before, k, after, rfl, List.forall_mem_cons.mpr ⟨⟨v, first⟩, made⟩, failed⟩
  · rintro ⟨before, m, after, rfl, made, failed⟩
    obtain ⟨vs, made⟩ := mapM_isOk.mpr made
    rw [List.mapM_append, made, List.mapM_cons, failed]
    rfl

theorem exists_of_forall₂ {R : α → β → Prop} {vs : List α} {ws : List β} {w : β}
    (pairs : List.Forall₂ R vs ws) (member : w ∈ ws) : ∃ v ∈ vs, R v w := by
  induction pairs with
  | nil => cases member
  | cons related _ ih =>
    rcases List.mem_cons.mp member with rfl | member
    · exact ⟨_, List.mem_cons_self, related⟩
    · obtain ⟨v, hv, related⟩ := ih member
      exact ⟨v, List.mem_cons_of_mem _ hv, related⟩

theorem getElem?_of_forall₂ {R : α → β → Prop} {vs : List α} {ws : List β} {place : Nat} {v : α}
    (pairs : List.Forall₂ R vs ws) (here : vs[place]? = some v) :
    ∃ w, ws[place]? = some w ∧ R v w := by
  induction pairs generalizing place with
  | nil => cases here
  | cons related _ ih =>
    cases place with
    | zero =>
      cases here
      exact ⟨_, rfl, related⟩
    | succ place => exact ih here

theorem forall₂_join {γ : Type} {P : γ → α → Prop} {Q : γ → β → Prop} {R : α → β → Prop}
    {ns : List γ} {vs : List α} {ws : List β} (first : List.Forall₂ P ns vs)
    (second : List.Forall₂ Q ns ws) (join : ∀ n ∈ ns, ∀ v w, P n v → Q n w → R v w) :
    List.Forall₂ R vs ws := by
  induction first generalizing ws with
  | nil =>
    cases second
    exact .nil
  | cons hv _ ih =>
    cases second with
    | cons hw rest =>
      refine .cons (join _ List.mem_cons_self _ _ hv hw) (ih rest ?_)
      exact fun n hn => join n (List.mem_cons_of_mem _ hn)

theorem exists_of_mapM_eq_ok {make : NodeRef → Except Fault α} {ms : List NodeRef} {vs : List α}
    {m : NodeRef} (built : ms.mapM make = .ok vs) (member : m ∈ ms) : ∃ v, make m = .ok v := by
  obtain ⟨v, _, hv⟩ := exists_of_forall₂ (mapM_eq_ok_iff.mp built).flip member
  exact ⟨v, hv⟩

theorem mapM_both {make : NodeRef → Except Fault α} {make' : NodeRef → Except Fault β}
    {R : α → β → Prop} {ms : List NodeRef}
    (each : ∀ m ∈ ms, ∃ v w, make m = .ok v ∧ make' m = .ok w ∧ R v w) :
    ∃ vs ws, ms.mapM make = .ok vs ∧ ms.mapM make' = .ok ws ∧ List.Forall₂ R vs ws := by
  induction ms with
  | nil => exact ⟨[], [], rfl, rfl, .nil⟩
  | cons m ms ih =>
    obtain ⟨v, w, hv, hw, related⟩ := each m List.mem_cons_self
    obtain ⟨vs, ws, hvs, hws, rest⟩ := ih fun k hk => each k (List.mem_cons_of_mem m hk)
    refine ⟨v :: vs, w :: ws, ?_, ?_, .cons related rest⟩
    · rw [List.mapM_cons, hv, hvs]
      rfl
    · rw [List.mapM_cons, hw, hws]
      rfl

/-! ### Single steps -/

theorem Node.edge?_eq {x : Node} {f : Field} (defined : x.kind.defines f = true) (n : NodeRef) :
    x.edge? n f = .ok (x.field f) := if_pos defined

theorem Node.edge?_onlyRaises {P : Fault → Prop} {x : Node} {n : NodeRef} {f : Field}
    (defined : x.kind.defines f = true) : OnlyRaises P (x.edge? n f) := by
  rw [edge?_eq defined]
  exact .ok _

theorem Node.edge?_eq_ok {x : Node} {n : NodeRef} {f : Field} {held : Option NodeRef}
    (h : x.edge? n f = .ok held) : held = x.field f := by
  unfold edge? at h
  split at h
  · cases h
    rfl
  · cases h

theorem Node.edge_eq_ok {x : Node} {n m : NodeRef} {f : Field} (h : x.edge n f = .ok m) :
    x.field f = some m := by
  obtain ⟨held, hheld, h⟩ := bind_eq_ok h
  rw [edge?_eq_ok hheld] at h
  split at h
  · cases h
    assumption
  · cases h

theorem Node.edge_onlyRaises {P : Fault → Prop} {x : Node} {n : NodeRef} {f : Field}
    (defined : x.kind.defines f = true)
    (missing : x.field f = none → P (x.issue n (.contractViolation (.missingField f)))) :
    OnlyRaises P (x.edge n f) := by
  refine OnlyRaises.bind (edge?_onlyRaises defined) ?_
  intro held found
  cases edge?_eq_ok found
  split
  · exact .ok _
  · exact .error (missing (by assumption))

namespace Builder

variable {P : Fault → Prop} {b : Builder} {n : NodeRef}

theorem node_eq_ok {x : Node} : b.node n = .ok x ↔ b.graph n = some x := by
  unfold node
  split <;> simp_all

theorem node_onlyRaises (absent : b.graph n = none → P (.absent n b.path)) :
    OnlyRaises P (b.node n) := by
  unfold node
  split
  · exact .ok _
  · exact .error (absent (by assumption))

theorem refuse_onlyRaises {c : Cause} (absent : b.graph n = none → P (.absent n b.path))
    (refused : ∀ x, b.graph n = some x → P (x.issue n c)) :
    OnlyRaises P (b.refuse n c : Except Fault α) := by
  apply OnlyRaises.bind (node_onlyRaises absent)
  intro x found
  exact .error (refused x (node_eq_ok.mp found))

theorem refuse_follows {excused : Fault → Prop} {c : Cause}
    (absent : b.graph n = none → excused (.absent n b.path))
    (refused : ∀ x, b.graph n = some x → excused (x.issue n c)) (r : Except Fault α) :
    Follows excused (b.refuse n c) r := by
  unfold refuse node
  cases found : b.graph n with
  | none => exact .excuse (absent found) r
  | some x => exact .excuse (refused x found) r

theorem label_onlyRaises {read : Attributes → Except Cause String}
    (absent : b.graph n = none → P (.absent n b.path))
    (refused : ∀ x c, b.graph n = some x → read x.toAttributes = .error c → P (x.issue n c)) :
    OnlyRaises P (b.label read n) := by
  apply OnlyRaises.bind (node_onlyRaises absent)
  intro x found
  split
  · exact .ok _
  · exact .error (refused x _ (node_eq_ok.mp found) (by assumption))

theorem screen_onlyRaises {f : Form} (absent : b.graph n = none → P (.absent n b.path))
    (refused : ∀ x, b.graph n = some x → P (x.issue n (.unsupportedKind x.kind))) :
    OnlyRaises P (b.screen f n) := by
  unfold screen
  split
  · exact .ok _
  · apply OnlyRaises.bind (node_onlyRaises absent)
    intro x found
    split
    · exact .ok _
    · exact .error (refused x (node_eq_ok.mp found))

end Builder

end VhdlDesign
