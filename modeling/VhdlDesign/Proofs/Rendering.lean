import VhdlDesign.Proofs.Drawing

/-!
What stands in the text of an expression.

An expression contains its operands, and so on down to names and literals. The names and what is
quoted in literals stand in its text as they are; the rest are signs, words of the language and the
digits of numbers.
-/
namespace VhdlDesign

open Relation

/-! ### Expressions inside expressions -/

def AggregateElement.operands : AggregateElement → List Expression
  | .positional value => [value]
  | .chosen choice value => [choice, value]
  | .others value => [value]

def Argument.operands : Argument → List Expression
  | .positional actual => [actual]
  | .named _ actual => [actual]

def Argument.formal? : Argument → Option Symbol
  | .positional _ => none
  | .named formal _ => some formal

namespace Expression

def operands : Expression → List Expression
  | .unary _ operand => [operand]
  | .binary _ left right => [left, right]
  | .parenthesis inner => [inner]
  | .aggregate elements => elements.flatMap AggregateElement.operands
  | .call _ arguments => arguments.flatMap Argument.operands
  | _ => []

/-- The second expression is the first or stands in it, at whatever depth. -/
def Contains : Expression → Expression → Prop := ReflTransGen fun e p => p ∈ e.operands

/-- The symbols in an expression that stand in none of its operands. -/
def symbols : Expression → List Symbol
  | .name symbol => [symbol]
  | .call called arguments => called :: arguments.filterMap Argument.formal?
  | _ => []

def quoted : Expression → List Char
  | .character value => [value]
  | .string value => value.toList
  | _ => []

/-- The characters that an expression takes over from its names and literals, operands apart. -/
def spelling (e : Expression) : List Char := e.symbols.flatMap (·.name.toList) ++ e.quoted

mutual
theorem byOperands {P : Expression → Prop} (step : ∀ e, (∀ p ∈ e.operands, P p) → P e) :
    ∀ e, P e
  | .integer _ => step _ nofun
  | .real _ => step _ nofun
  | .character _ => step _ nofun
  | .string _ => step _ nofun
  | .name _ => step _ nofun
  | .unary _ operand => step _ (by simpa [operands] using byOperands step operand)
  | .binary _ left right =>
    step _ (by simpa [operands] using ⟨byOperands step left, byOperands step right⟩)
  | .parenthesis inner => step _ (by simpa [operands] using byOperands step inner)
  | .aggregate elements => step _ (elements_byOperands step elements)
  | .call _ arguments => step _ (arguments_byOperands step arguments)

theorem elements_byOperands {P : Expression → Prop}
    (step : ∀ e, (∀ p ∈ e.operands, P p) → P e) :
    ∀ es : List AggregateElement, ∀ p ∈ es.flatMap AggregateElement.operands, P p
  | [] => nofun
  | e :: rest => by
    rw [List.flatMap_cons, List.forall_mem_append]
    exact ⟨element_byOperands step e, elements_byOperands step rest⟩

theorem element_byOperands {P : Expression → Prop}
    (step : ∀ e, (∀ p ∈ e.operands, P p) → P e) :
    ∀ e : AggregateElement, ∀ p ∈ e.operands, P p
  | .positional value => by simpa [AggregateElement.operands] using byOperands step value
  | .chosen choice value => by
    simpa [AggregateElement.operands] using ⟨byOperands step choice, byOperands step value⟩
  | .others value => by simpa [AggregateElement.operands] using byOperands step value

theorem arguments_byOperands {P : Expression → Prop}
    (step : ∀ e, (∀ p ∈ e.operands, P p) → P e) :
    ∀ as : List Argument, ∀ p ∈ as.flatMap Argument.operands, P p
  | [] => nofun
  | a :: rest => by
    rw [List.flatMap_cons, List.forall_mem_append]
    exact ⟨argument_byOperands step a, arguments_byOperands step rest⟩

theorem argument_byOperands {P : Expression → Prop}
    (step : ∀ e, (∀ p ∈ e.operands, P p) → P e) :
    ∀ a : Argument, ∀ p ∈ a.operands, P p
  | .positional actual => by simpa [Argument.operands] using byOperands step actual
  | .named _ actual => by simpa [Argument.operands] using byOperands step actual
end

theorem Contains.cases {e p : Expression} (contained : e.Contains p) :
    p = e ∨ ∃ q ∈ e.operands, q.Contains p := by
  rcases contained.cases_head with same | ⟨q, operand, further⟩
  · exact .inl same.symm
  · exact .inr ⟨q, operand, further⟩

theorem Contains.eq_of_leaf {e p : Expression} (contained : e.Contains p)
    (leaf : e.operands = []) : p = e := by
  rcases contained.cases with same | ⟨q, member, _⟩
  · exact same
  · rw [leaf] at member
    cases member

theorem Contains.of_operand {e p q : Expression} (operand : q ∈ e.operands)
    (contained : q.Contains p) : e.Contains p := contained.head operand

/-! ### The words of a text -/

theorem mem_doubleQuotes {c : Char} {s : List Char} : c ∈ doubleQuotes s ↔ c ∈ s := by
  induction s with
  | nil => rfl
  | cons d s ih =>
    rw [doubleQuotes]
    split <;> simp [ih]

theorem elementTexts_eq (es : List AggregateElement) :
    elementTexts es = es.map AggregateElement.text := by
  induction es with
  | nil => rfl
  | cons e es ih => simp [elementTexts, ih]

theorem argumentTexts_eq (as : List Argument) : argumentTexts as = as.map Argument.text := by
  induction as with
  | nil => rfl
  | cons a as ih => simp [argumentTexts, ih]

theorem text_aggregate (es : List AggregateElement) :
    (aggregate es).text = "(" ++ commaSeparated (es.map AggregateElement.text) ++ ")" := by
  rw [text, elementTexts_eq]

theorem text_call (called : Symbol) (as : List Argument) :
    (call called as).text = called.name ++
      if as = [] then "" else "(" ++ commaSeparated (as.map Argument.text) ++ ")" := by
  cases as with
  | nil => simp [text]
  | cons a as =>
    rw [text, argumentTexts_eq, if_neg (List.cons_ne_nil a as), List.map_cons]
    simp only [String.append_assoc]

end Expression

/-! ### Numbers -/

def IsPlain (s : String) : Prop := ∀ c ∈ s.toList, c ≠ '-' ∧ c ≠ '\n'

theorem isPlain_append {s t : String} : IsPlain (s ++ t) ↔ IsPlain s ∧ IsPlain t := by
  simp only [IsPlain, String.toList_append, List.forall_mem_append]

theorem isPlain_toString (n : Nat) : IsPlain (toString n) := by
  intro c member
  rw [Nat.toString_eq_ofList_toDigits, String.toList_ofList] at member
  have digit := Nat.isDigit_of_mem_toDigits (by decide) (by decide) member
  constructor
  all_goals
    rintro rfl
    cases digit

theorem toString_int (z : Int) :
    toString z = (if z < 0 then "-" else "") ++ toString z.natAbs := by
  rw [Int.toString_eq_repr, Int.repr_eq_if]
  by_cases negative : z < 0
  · have magnitude : (-z).toNat = z.natAbs := by omega
    rw [if_neg (by omega), if_pos negative, magnitude, Nat.toString_eq_repr]
  · have magnitude : z.toNat = z.natAbs := by omega
    rw [if_pos (by omega), if_neg negative, magnitude, Nat.toString_eq_repr, String.empty_append]

theorem isPlain_digitText (ds : List Nat) : IsPlain (digitText ds) := by
  intro c member
  rw [digitText, String.toList_join, List.flatMap_map] at member
  obtain ⟨d, _, member⟩ := List.mem_flatMap.mp member
  exact isPlain_toString d c member

def IsMagnitude (s : String) : Prop :=
  ∃ mantissa, IsPlain mantissa ∧ (s = mantissa ∨ ∃ z : Int, s = mantissa ++ "e" ++ toString z)

theorem Digits.text_isMagnitude (d : Digits) : IsMagnitude d.text := by
  unfold text
  split
  · refine ⟨d.positional, ?_, .inl rfl⟩
    unfold positional
    split
    · exact isPlain_append.mpr ⟨by simp [IsPlain], isPlain_digitText _⟩
    · simp only [isPlain_append]
      exact ⟨⟨isPlain_digitText _, by simp [IsPlain]⟩, isPlain_digitText _⟩
  · refine ⟨_, ?_, .inr ⟨d.exponent - 1, rfl⟩⟩
    simp only [isPlain_append]
    refine ⟨⟨isPlain_digitText _, ?_⟩, isPlain_digitText _⟩
    split <;> simp [IsPlain]

def Double.isSigned (x : Double) : Bool := !x.isNaN && x.negative

theorem Double.text_eq (x : Double) :
    ∃ magnitude, IsMagnitude magnitude ∧
      x.text = (if x.isSigned then "-" else "") ++ magnitude := by
  unfold text
  by_cases undefined : x.isNaN = true
  · refine ⟨"NaN", ⟨"NaN", by simp [IsPlain], .inl rfl⟩, ?_⟩
    simp [undefined, isSigned]
  have sign : (if x.isSigned then "-" else "") = if x.negative then "-" else "" := by
    simp [isSigned, undefined]
  rw [if_neg undefined, sign]
  dsimp only
  split
  · exact ⟨"inf", ⟨"inf", by simp [IsPlain], .inl rfl⟩, rfl⟩
  split
  · exact ⟨"0.0", ⟨"0.0", by simp [IsPlain], .inl rfl⟩, rfl⟩
  · exact ⟨_, Digits.text_isMagnitude _, rfl⟩

end VhdlDesign
