import VhdlDesign.Build.Recipe

/-! Names that can stand in a design, and the dotted symbols that are made of them. -/
namespace VhdlDesign

/-- A text that can name something. There is white space in it only if it stands between
backslashes. -/
structure IsIdentifier (s : String) : Prop where
  nonempty : s ≠ ""
  control : ∀ c ∈ s.toList, isControl c = false
  blank : (∃ c ∈ s.toList, isBlank c = true) →
    2 ≤ s.utf8ByteSize ∧ s.toList.head? = some '\\' ∧ s.toList.getLast? = some '\\'

theorem isExtended_eq_true {s : String} :
    isExtended s = true ↔
      2 ≤ s.utf8ByteSize ∧ s.toList.head? = some '\\' ∧ s.toList.getLast? = some '\\' := by
  simp [isExtended, and_assoc]

theorem isIdentifier_iff {s : String} :
    IsIdentifier s ↔
      s ≠ "" ∧ ∀ c ∈ s.toList, isForbidden (isExtended s) c = false := by
  constructor
  · intro valid
    refine ⟨valid.nonempty, fun c member => ?_⟩
    have control := valid.control c member
    by_cases blank : isBlank c = true
    · have extended := isExtended_eq_true.mpr (valid.blank ⟨c, member, blank⟩)
      simp [isForbidden, control, extended]
    · simp [isForbidden, control, blank]
  · rintro ⟨nonempty, allowed⟩
    refine ⟨nonempty, fun c member => ?_, ?_⟩
    · have free := allowed c member
      simp only [isForbidden, Bool.or_eq_false_iff] at free
      exact free.1
    · rintro ⟨c, member, blank⟩
      have free := allowed c member
      simp only [isForbidden, blank, Bool.and_true, Bool.or_eq_false_iff, Bool.not_eq_false']
        at free
      exact isExtended_eq_true.mp free.2

theorem checkIdentifier_eq_ok {name : Option String} {s : String} :
    checkIdentifier name = .ok s ↔ name = some s ∧ IsIdentifier s := by
  cases name with
  | none => simp [checkIdentifier]
  | some t =>
    rw [isIdentifier_iff]
    simp only [checkIdentifier, String.isEmpty_iff, Option.some.injEq]
    by_cases empty : t = ""
    · rw [if_pos empty]
      constructor
      · intro passed
        cases passed
      · rintro ⟨rfl, nonempty, _⟩
        exact absurd empty nonempty
    rw [if_neg empty]
    by_cases free : ∀ c ∈ t.toList, isForbidden (isExtended t) c = false
    · have none : t.toList.any (isForbidden (isExtended t)) = false := by simpa using free
      rw [none]
      constructor
      · intro passed
        cases passed
        exact ⟨rfl, empty, free⟩
      · rintro ⟨rfl, _⟩
        rfl
    · have some : t.toList.any (isForbidden (isExtended t)) = true := by simpa using free
      rw [some]
      constructor
      · intro passed
        cases passed
      · rintro ⟨rfl, _, allowed⟩
        exact absurd allowed free

instance (s : String) : Decidable (IsIdentifier s) :=
  decidable_of_iff (s ≠ "" ∧ s.toList.all (fun c => !isForbidden (isExtended s) c) = true)
    (by simp [isIdentifier_iff])

theorem Attributes.identifier_eq_ok {a : Attributes} {s : String} :
    a.identifier = .ok s ↔ a.name = some s ∧ IsIdentifier s := by
  rw [← checkIdentifier_eq_ok]
  unfold identifier
  split <;> simp_all

/-! ### Symbols -/

/-- The symbol is one or more parts with points between them. The first is an identifier, and each
other one is an identifier or the word `all`. -/
def Symbol.IsDotted (s : Symbol) : Prop :=
  ∃ first rest, s.name = ".".intercalate (first :: rest) ∧ IsIdentifier first ∧
    ∀ part ∈ rest, IsIdentifier part ∨ part = "all"

namespace Symbol.IsDotted

theorem intercalate_snoc (first : String) (rest : List String) (part : String) :
    ".".intercalate (first :: (rest ++ [part])) =
      ".".intercalate (first :: rest) ++ "." ++ part := by
  rw [← List.cons_append, String.intercalate_append_of_ne_nil (by simp) (by simp)]
  simp

theorem single {name : String} (valid : IsIdentifier name) : IsDotted ⟨name⟩ :=
  ⟨name, [], by simp, valid, by simp⟩

theorem select {s : Symbol} {part : String} (dotted : s.IsDotted)
    (valid : IsIdentifier part ∨ part = "all") : IsDotted ⟨s.name ++ "." ++ part⟩ := by
  obtain ⟨first, rest, spelled, start, further⟩ := dotted
  refine ⟨first, rest ++ [part], ?_, start, ?_⟩
  · rw [intercalate_snoc, ← spelled]
  · intro p member
    rcases List.mem_append.mp member with member | member
    · exact further p member
    · rw [List.mem_singleton.mp member]
      exact valid

theorem selectAll {s : Symbol} (dotted : s.IsDotted) : IsDotted ⟨s.name ++ ".all"⟩ := by
  have spelled : s.name ++ "." ++ "all" = s.name ++ ".all" := by
    rw [String.append_assoc]
    rfl
  rw [← spelled]
  exact dotted.select (.inr rfl)

theorem all_isIdentifier : IsIdentifier "all" := by decide +kernel

/-- A dotted symbol is an identifier, or a shorter one with an identifier after a point: the word
`all` is an identifier like any other. -/
theorem cases {s : Symbol} (dotted : s.IsDotted) :
    IsIdentifier s.name ∨
      ∃ (qualifier : Symbol) (part : String), qualifier.IsDotted ∧ IsIdentifier part ∧
        s = ⟨qualifier.name ++ "." ++ part⟩ := by
  obtain ⟨first, rest, spelled, start, further⟩ := dotted
  rcases List.eq_nil_or_concat rest with rfl | ⟨before, part, rfl⟩
  · rw [String.intercalate_singleton] at spelled
    rw [spelled]
    exact .inl start
  · rw [List.concat_eq_append] at spelled further
    rw [intercalate_snoc] at spelled
    have shorter : IsDotted ⟨".".intercalate (first :: before)⟩ :=
      ⟨first, before, rfl, start, fun p member => further p (List.mem_append_left _ member)⟩
    have valid : IsIdentifier part := by
      rcases further part (by simp) with valid | rfl
      · exact valid
      · exact all_isIdentifier
    exact .inr ⟨_, part, shorter, valid, congrArg Symbol.mk spelled⟩

end Symbol.IsDotted

end VhdlDesign
