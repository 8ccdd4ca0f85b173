import VhdlDesign.Proofs.Members
import VhdlDesign.Proofs.Spelling

/-!
Values inside the text of a document.

A value in a document has a text of its own there. If that text is overwritten with the text of
another value, the whole is the text of the document with the other value in the same place.
-/
namespace VhdlDesign.Json

variable {t : List Char} {x : Json}

/-- The text of what is around a value does not depend on the value. -/
def Encloses (around : Json → Phrase) : Prop :=
  ∀ t x, Spells t (around x) → ∃ front old back, t = front ++ (old ++ back) ∧
    Spells old (.value x) ∧
    ∀ new y, Spells new (.value y) → Spells (front ++ (new ++ back)) (around y)

namespace Encloses

theorem value : Encloses .value :=
  fun t _ spelled => ⟨[], t, [], by simp, spelled, fun new y other => by simpa using other⟩

theorem comp {around : Json → Phrase} {inside : Json → Json} (outer : Encloses around)
    (inner : Encloses fun x => .value (inside x)) : Encloses fun x => around (inside x) := by
  intro t x spelled
  obtain ⟨front, middle, back, rfl, within, refill⟩ := outer t _ spelled
  obtain ⟨front', old, back', rfl, found, refill'⟩ := inner middle x within
  refine ⟨front ++ front', old, back' ++ back, by simp, found, fun new y other => ?_⟩
  have whole := refill _ _ (refill' new y other)
  simpa using whole

theorem elements (before after : List Json) :
    Encloses fun x => .elements (before ++ x :: after) := by
  induction before with
  | nil =>
    intro t x spelled
    cases spelled with
    | lastElement value blank =>
      exact ⟨[], _, _, rfl, value, fun _ _ other => .lastElement other blank⟩
    | element value blank blank₁ others =>
      exact ⟨[], _, _, rfl, value, fun _ _ other => .element other blank blank₁ others⟩
  | cons v before ih =>
    intro t x spelled
    beta_reduce at spelled
    generalize listed : v :: before ++ x :: after = vs at spelled
    cases spelled with
    | lastElement => simp at listed
    | @element t b b₁ u _ _ value blank blank₁ others =>
      obtain ⟨rfl, rfl⟩ := List.cons.inj listed
      obtain ⟨front, old, back, rfl, found, refill⟩ := ih u x others
      refine ⟨t ++ (b ++ ',' :: (b₁ ++ front)), old, back, by simp, found, fun new y other => ?_⟩
      have whole := Spells.element value blank blank₁ (refill new y other)
      simpa using whole

theorem members (before after : List (Option String × Json)) (name : Option String) :
    Encloses fun x => .members (before ++ (name, x) :: after) := by
  induction before with
  | nil =>
    intro t x spelled
    cases spelled with
    | @lastMember k b b₁ t b₂ _ _ named blank blank₁ value blank₂ =>
      refine ⟨'\x22' :: (k ++ (b ++ ':' :: b₁)), t, b₂ ++ ['\x7d'], by simp, value,
        fun new y other => ?_⟩
      have whole := Spells.lastMember named blank blank₁ other blank₂
      simpa using whole
    | @member k b b₁ t b₂ b₃ u _ _ _ named blank blank₁ value blank₂ blank₃ others =>
      refine ⟨'\x22' :: (k ++ (b ++ ':' :: b₁)), t, b₂ ++ ',' :: (b₃ ++ u), by simp, value,
        fun new y other => ?_⟩
      have whole := Spells.member named blank blank₁ other blank₂ blank₃ others
      simpa using whole
  | cons m before ih =>
    intro t x spelled
    beta_reduce at spelled
    generalize listed : m :: before ++ (name, x) :: after = ms at spelled
    cases spelled with
    | lastMember => simp at listed
    | @member k b b₁ t b₂ b₃ u _ _ _ named blank blank₁ value blank₂ blank₃ others =>
      obtain ⟨rfl, rfl⟩ := List.cons.inj listed
      obtain ⟨front, old, back, rfl, found, refill⟩ := ih u x others
      refine ⟨'\x22' :: (k ++ (b ++ ':' :: (b₁ ++ (t ++ (b₂ ++ ',' :: (b₃ ++ front)))))), old, back,
        by simp, found, fun new y other => ?_⟩
      have whole := Spells.member named blank blank₁ value blank₂ blank₃ (refill new y other)
      simpa using whole

theorem array (before after : List Json) :
    Encloses fun x => .value (.array (before ++ x :: after)) := by
  intro t x spelled
  beta_reduce at spelled
  generalize listed : before ++ x :: after = vs at spelled
  cases spelled with
  | noElements => simp at listed
  | @array b t _ blank inner =>
    subst listed
    obtain ⟨front, old, back, rfl, found, refill⟩ := elements before after t x inner
    refine ⟨'[' :: (b ++ front), old, back, by simp, found, fun new y other => ?_⟩
    have whole := Spells.array blank (refill new y other)
    simpa using whole

theorem object (before after : List (Option String × Json)) (name : Option String) :
    Encloses fun x => .value (.object (before ++ (name, x) :: after)) := by
  intro t x spelled
  beta_reduce at spelled
  generalize listed : before ++ (name, x) :: after = ms at spelled
  cases spelled with
  | noMembers => simp at listed
  | @object b t _ blank inner =>
    subst listed
    obtain ⟨front, old, back, rfl, found, refill⟩ := members before after name t x inner
    refine ⟨'\x7b' :: (b ++ front), old, back, by simp, found, fun new y other => ?_⟩
    have whole := Spells.object blank (refill new y other)
    simpa using whole

theorem overwrite {around : Json → Json} (encloses : Encloses fun x => .value (around x))
    {s : String} (read : read? s = some (around x)) :
    ∃ front old back : String, s = front ++ old ++ back ∧ Spells old.toList (.value x) ∧
      ∀ {new : String} {y}, Spells new.toList (.value y) →
        read? (front ++ new ++ back) = some (around y) := by
  obtain ⟨b, t, b', blank, blank', spelled, inside⟩ := read?_eq_some.mp read
  obtain ⟨front, old, back, rfl, found, refill⟩ := encloses t x inside
  refine ⟨.ofList (b ++ front), .ofList old, .ofList (back ++ b'), ?_, by simpa using found,
    fun {new y} other => ?_⟩
  · rw [← String.toList_inj, spelled]
    simp
  · exact read?_eq_some.mpr ⟨b, _, b', blank, blank', by simp, refill _ _ other⟩

end Encloses

theorem Frame.encloses {p q : Place} (c : Frame p q) : Encloses fun x => .value (c.fill x) := by
  induction c with
  | here => exact .value
  | member key part before after inner ih => exact (Encloses.object before after (some key)).comp ih
  | element key part before after stands inner ih => exact (Encloses.array before after).comp ih
  | node before after inner ih => exact (Encloses.array before after).comp ih

end VhdlDesign.Json
