import VhdlDesign.Proofs.Rendering

/-!
Where the text of an expression opens a comment.

Two minus signs open a comment. An operator between two operands has blanks around it, but a sign
stands directly before its operand, so that the two signs meet where a negation is applied to an
operand whose text begins with one. If names and literals have no minus signs in them, they meet
nowhere else.
-/
namespace VhdlDesign

def OpensComment (s : String) : Prop := ['-', '-'] <:+: s.toList

def BeginsSigned (s : String) : Prop := s.toList.head? = some '-'

instance (s : String) : Decidable (OpensComment s) :=
  inferInstanceAs (Decidable (['-', '-'] <:+: s.toList))

/-! ### Texts in sequence -/

section

variable {s t sep : String}

theorem opensComment_append :
    OpensComment (s ++ t) ↔
      OpensComment s ∨ OpensComment t ∨ s.toList.getLast? = some '-' ∧ BeginsSigned t := by
  unfold OpensComment BeginsSigned
  rw [String.toList_append, List.infix_append_iff]
  constructor
  · rintro (inside | inside | ⟨l, r, pair, before, after⟩)
    · exact .inl inside
    · exact .inr (.inl inside)
    · -- the two signs lie across the joint, with `l` of them before it
      cases l with
      | nil => exact .inr (.inl (pair ▸ after.isInfix))
      | cons c l =>
        cases l with
        | nil =>
          obtain ⟨rfl, rfl⟩ := List.cons.inj pair
          obtain ⟨start, before⟩ := before
          obtain ⟨rest, after⟩ := after
          rw [← before, ← after]
          exact .inr (.inr ⟨by simp, by simp⟩)
        | cons d l =>
          obtain ⟨rfl, rfl, nothing⟩ : '-' = c ∧ '-' = d ∧ [] = l ++ r := by simpa using pair
          obtain ⟨rfl, rfl⟩ := List.append_eq_nil_iff.mp nothing.symm
          exact .inl before.isInfix
  · rintro (inside | inside | ⟨last, first⟩)
    · exact .inl inside
    · exact .inr (.inl inside)
    · obtain ⟨start, before⟩ := List.getLast?_eq_some_iff.mp last
      obtain ⟨rest, after⟩ := List.head?_eq_some_iff.mp first
      exact .inr (.inr ⟨['-'], ['-'], rfl, ⟨start, before.symm⟩, ⟨rest, after.symm⟩⟩)

theorem beginsSigned_append :
    BeginsSigned (s ++ t) ↔ BeginsSigned s ∨ s = "" ∧ BeginsSigned t := by
  unfold BeginsSigned
  rw [String.toList_append, List.head?_append, ← String.toList_eq_nil_iff]
  cases s.toList with
  | nil => simp
  | cons c rest => simp

theorem not_opensComment (free : '-' ∉ s.toList) : ¬ OpensComment s := by
  intro opens
  exact free (opens.subset (by simp))

theorem not_beginsSigned (free : '-' ∉ s.toList) : ¬ BeginsSigned s := by
  intro begins
  exact free (List.mem_of_head? begins)

/-- A text that no two signs meet across. -/
structure SetsApart (sep : String) : Prop where
  free : '-' ∉ sep.toList
  present : sep ≠ ""

namespace SetsApart

theorem not_beginsSigned_append (apart : SetsApart sep) : ¬ BeginsSigned (sep ++ t) := by
  simp [beginsSigned_append, not_beginsSigned apart.free, apart.present]

theorem beginsSigned_between (apart : SetsApart sep) :
    BeginsSigned (s ++ sep ++ t) ↔ BeginsSigned s := by
  rw [String.append_assoc, beginsSigned_append]
  simp [apart.not_beginsSigned_append]

theorem opensComment_before (apart : SetsApart sep) :
    OpensComment (sep ++ t) ↔ OpensComment t := by
  have last : sep.toList.getLast? ≠ some '-' := fun last => apart.free (List.mem_of_getLast? last)
  simp [opensComment_append, not_opensComment apart.free, last]

theorem opensComment_after (apart : SetsApart sep) :
    OpensComment (s ++ sep) ↔ OpensComment s := by
  simp [opensComment_append, not_opensComment apart.free, not_beginsSigned apart.free]

theorem opensComment_between (apart : SetsApart sep) :
    OpensComment (s ++ sep ++ t) ↔ OpensComment s ∨ OpensComment t := by
  rw [String.append_assoc, opensComment_append, apart.opensComment_before]
  simp [apart.not_beginsSigned_append]

theorem opensComment_intercalate (apart : SetsApart sep) (ts : List String) :
    OpensComment (sep.intercalate ts) ↔ ∃ t ∈ ts, OpensComment t := by
  induction ts with
  | nil => simp [OpensComment]
  | cons t ts ih =>
    cases ts with
    | nil => simp
    | cons t' ts =>
      rw [String.intercalate_cons_cons, apart.opensComment_between, ih]
      simp

theorem blank : SetsApart " " := ⟨by simp, by simp⟩

theorem comma : SetsApart ", " := ⟨by simp, by simp⟩

theorem arrow : SetsApart " => " := ⟨by simp, by simp⟩

theorem others : SetsApart "others => " := ⟨by simp, by simp⟩

theorem quote : SetsApart "'" := ⟨by simp, by simp⟩

theorem quotes : SetsApart "\"" := ⟨by simp, by simp⟩

theorem opening : SetsApart "(" := ⟨by simp, by simp⟩

theorem closing : SetsApart ")" := ⟨by simp, by simp⟩

theorem exponent : SetsApart "e" := ⟨by simp, by simp⟩

end SetsApart

/-! ### Numbers -/

theorem IsPlain.free (plain : IsPlain s) : '-' ∉ s.toList := fun member => (plain '-' member).1 rfl

theorem not_opensComment_signed {negative : Prop} [Decidable negative] (silent : ¬ OpensComment s)
    (unsigned : ¬ BeginsSigned s) : ¬ OpensComment ((if negative then "-" else "") ++ s) := by
  have sign : ¬ OpensComment (if negative then "-" else "") := by
    split <;> decide +kernel
  simp [opensComment_append, silent, unsigned, sign]

theorem beginsSigned_signed {negative : Prop} [Decidable negative] (unsigned : ¬ BeginsSigned s) :
    BeginsSigned ((if negative then "-" else "") ++ s) ↔ negative := by
  rw [beginsSigned_append]
  by_cases signed : negative
  · simp [signed, BeginsSigned]
  · simp only [signed, if_false, iff_false]
    exact not_or.mpr ⟨by simp [BeginsSigned], fun begins => unsigned begins.2⟩

theorem not_opensComment_toString (z : Int) : ¬ OpensComment (toString z) := by
  have free := (isPlain_toString z.natAbs).free
  rw [toString_int]
  exact not_opensComment_signed (not_opensComment free) (not_beginsSigned free)

theorem IsMagnitude.silent (magnitude : IsMagnitude s) : ¬ OpensComment s := by
  obtain ⟨mantissa, plain, rfl | ⟨z, rfl⟩⟩ := magnitude
  · exact not_opensComment plain.free
  · rw [SetsApart.exponent.opensComment_between]
    exact not_or.mpr ⟨not_opensComment plain.free, not_opensComment_toString z⟩

theorem IsMagnitude.unsigned (magnitude : IsMagnitude s) : ¬ BeginsSigned s := by
  obtain ⟨mantissa, plain, rfl | ⟨z, rfl⟩⟩ := magnitude
  · exact not_beginsSigned plain.free
  · simp [SetsApart.exponent.beginsSigned_between, not_beginsSigned plain.free]

end

/-! ### Expressions -/

theorem UnaryOperator.text_setsApart {op : UnaryOperator} (other : op ≠ .negation) :
    SetsApart op.text := by
  cases op with
  | negation => exact absurd rfl other
  | identity => exact ⟨by simp [text], by simp [text]⟩
  | absolute => exact ⟨by simp [text], by simp [text]⟩
  | not => exact ⟨by simp [text], by simp [text]⟩

theorem BinaryOperator.text_silent (op : BinaryOperator) : ¬ OpensComment op.text := by
  cases op <;> decide +kernel

theorem opensComment_commaSeparated {α : Type} {xs : List α} {text : α → String}
    {operands : α → List Expression}
    (each : ∀ x ∈ xs, OpensComment (text x) ↔ ∃ p ∈ operands x, OpensComment p.text) :
    OpensComment (commaSeparated (xs.map text)) ↔
      ∃ p ∈ xs.flatMap operands, OpensComment p.text := by
  rw [commaSeparated, SetsApart.comma.opensComment_intercalate]
  constructor
  · rintro ⟨t, member, opens⟩
    obtain ⟨x, held, rfl⟩ := List.mem_map.mp member
    obtain ⟨p, operand, opens⟩ := (each x held).mp opens
    exact ⟨p, List.mem_flatMap.mpr ⟨x, held, operand⟩, opens⟩
  · rintro ⟨p, member, opens⟩
    obtain ⟨x, member, operand⟩ := List.mem_flatMap.mp member
    exact ⟨text x, List.mem_map_of_mem member, (each x member).mpr ⟨p, operand, opens⟩⟩

theorem AggregateElement.opensComment_text (e : AggregateElement) :
    OpensComment e.text ↔ ∃ p ∈ e.operands, OpensComment p.text := by
  cases e with
  | positional value => simp [text, operands]
  | chosen choice value => simp [text, operands, SetsApart.arrow.opensComment_between]
  | others value => simp [text, operands, SetsApart.others.opensComment_before]

theorem Argument.opensComment_text (a : Argument)
    (free : ∀ formal, a.formal? = some formal → '-' ∉ formal.name.toList) :
    OpensComment a.text ↔ ∃ p ∈ a.operands, OpensComment p.text := by
  cases a with
  | positional actual => simp [text, operands]
  | named formal actual =>
    have silent := not_opensComment (free formal rfl)
    simp [text, operands, SetsApart.arrow.opensComment_between, silent]

namespace Expression

/-- Whether the text begins with a minus sign: that of a number, or of the leftmost operand. -/
def startsWithMinus : Expression → Bool
  | .integer value => value < 0
  | .real value => value.isSigned
  | .unary op _ => op = .negation
  | .binary _ left _ => left.startsWithMinus
  | _ => false

/-- There is no minus sign in the names and literals of an expression. -/
def IsDashless (e : Expression) : Prop := ∀ p, e.Contains p → '-' ∉ p.spelling

theorem IsDashless.own {e : Expression} (dashless : e.IsDashless) : '-' ∉ e.spelling :=
  dashless e .refl

theorem IsDashless.operand {e p : Expression} (dashless : e.IsDashless) (operand : p ∈ e.operands) :
    p.IsDashless := fun q contained => dashless q (contained.of_operand operand)

theorem IsDashless.of_operands {e : Expression} (own : '-' ∉ e.spelling)
    (operands : ∀ p ∈ e.operands, p.IsDashless) : e.IsDashless := by
  intro q contained
  rcases contained.cases with same | ⟨p, member, contained⟩
  · exact same ▸ own
  · exact operands p member q contained

theorem beginsSigned_text (e : Expression) :
    e.IsDashless → (BeginsSigned e.text ↔ e.startsWithMinus = true) := by
  induction e using byOperands with
  | step e ih =>
    intro dashless
    have own := dashless.own
    cases e with
    | integer value =>
      have free := (isPlain_toString value.natAbs).free
      rw [text, toString_int, beginsSigned_signed (not_beginsSigned free)]
      simp [startsWithMinus]
    | real value =>
      obtain ⟨magnitude, isMagnitude, written⟩ := value.text_eq
      rw [text, written, beginsSigned_signed isMagnitude.unsigned]
      simp [startsWithMinus]
    | character value =>
      rw [text, String.append_assoc]
      simp only [startsWithMinus, SetsApart.quote.not_beginsSigned_append, Bool.false_eq_true]
    | string value =>
      rw [text, String.append_assoc]
      simp only [startsWithMinus, SetsApart.quotes.not_beginsSigned_append, Bool.false_eq_true]
    | name symbol =>
      have free : '-' ∉ symbol.name.toList := by simpa [spelling, symbols, quoted] using own
      simp [text, startsWithMinus, not_beginsSigned free]
    | unary op operand =>
      by_cases minus : op = .negation
      · subst minus
        simp [text, UnaryOperator.text, startsWithMinus, BeginsSigned]
      · simp [text, startsWithMinus, minus,
          (UnaryOperator.text_setsApart minus).not_beginsSigned_append]
    | binary op left right =>
      -- the operator cannot come first: were the left text empty, a blank would
      have first : left ∈ operands (.binary op left right) := by simp [operands]
      rw [startsWithMinus, ← ih left first (dashless.operand first), text]
      simp only [SetsApart.blank.beginsSigned_between]
    | parenthesis inner =>
      simp [text, startsWithMinus, String.append_assoc, SetsApart.opening.not_beginsSigned_append]
    | aggregate elements =>
      simp [text, startsWithMinus, String.append_assoc, SetsApart.opening.not_beginsSigned_append]
    | call called arguments =>
      have free : '-' ∉ called.name.toList := by
        simp only [spelling, symbols, List.flatMap_cons, List.mem_append, not_or] at own
        exact own.1.1
      rw [text_call, beginsSigned_append]
      simp only [startsWithMinus, not_beginsSigned free]
      split
      · simp [BeginsSigned]
      · simp [String.append_assoc, SetsApart.opening.not_beginsSigned_append]

/-- Two signs meet in an expression where they meet in an operand, or where its own sign comes
before another. -/
theorem opensComment_text (e : Expression) (own : '-' ∉ e.spelling) :
    OpensComment e.text ↔
      (∃ operand, e = .unary .negation operand ∧ BeginsSigned operand.text) ∨
        ∃ p ∈ e.operands, OpensComment p.text := by
  cases e with
  | integer value => simpa [text, operands] using not_opensComment_toString value
  | real value =>
    obtain ⟨magnitude, isMagnitude, written⟩ := value.text_eq
    have silent : ¬ OpensComment ((if value.isSigned then "-" else "") ++ magnitude) :=
      not_opensComment_signed isMagnitude.silent isMagnitude.unsigned
    simpa [text, operands, written] using silent
  | character value =>
    have free : '-' ∉ (String.singleton value).toList := by
      simpa [spelling, symbols, quoted] using own
    rw [text, SetsApart.quote.opensComment_after, SetsApart.quote.opensComment_before]
    simp [operands, not_opensComment free]
  | string value =>
    have free : '-' ∉ (String.ofList (doubleQuotes value.toList)).toList := by
      rw [String.toList_ofList, mem_doubleQuotes]
      simpa [spelling, symbols, quoted] using own
    rw [text, SetsApart.quotes.opensComment_after, SetsApart.quotes.opensComment_before]
    simp [operands, not_opensComment free]
  | name symbol =>
    have free : '-' ∉ symbol.name.toList := by simpa [spelling, symbols, quoted] using own
    simp [text, operands, not_opensComment free]
  | unary op operand =>
    by_cases minus : op = .negation
    · subst minus
      have sign : ¬ OpensComment "-" := by decide +kernel
      rw [text, UnaryOperator.text, opensComment_append]
      simp [operands, sign, or_comm]
    · rw [text, (UnaryOperator.text_setsApart minus).opensComment_before]
      simp [operands, minus]
  | binary op left right =>
    simp [text, operands, SetsApart.blank.opensComment_between, op.text_silent]
  | parenthesis inner =>
    rw [text, SetsApart.closing.opensComment_after, SetsApart.opening.opensComment_before]
    simp [operands]
  | aggregate elements =>
    rw [text_aggregate, SetsApart.closing.opensComment_after, SetsApart.opening.opensComment_before,
      opensComment_commaSeparated fun e _ => e.opensComment_text]
    simp [operands]
  | call called arguments =>
    simp only [spelling, symbols, quoted, List.flatMap_cons, List.append_nil, List.mem_append,
      not_or] at own
    have formals : ∀ a ∈ arguments, ∀ formal, a.formal? = some formal →
        '-' ∉ formal.name.toList := by
      intro a member formal held dash
      exact own.2 (List.mem_flatMap.mpr
        ⟨formal, List.mem_filterMap.mpr ⟨a, member, held⟩, dash⟩)
    have silent := not_opensComment own.1
    rw [text_call]
    split
    next none => simp [none, operands, silent]
    next =>
      rw [← String.append_assoc, SetsApart.closing.opensComment_after, ← String.append_assoc,
        SetsApart.opening.opensComment_between,
        opensComment_commaSeparated fun a member => a.opensComment_text (formals a member)]
      simp [operands, silent]

/-- A comment begins in the text of an expression just where a negation comes before a text that
itself begins with a minus sign. -/
theorem comments_begin_at_double_signs (e : Expression) (dashless : e.IsDashless) :
    OpensComment e.text ↔
      ∃ operand, e.Contains (.unary .negation operand) ∧ operand.startsWithMinus = true := by
  induction e using byOperands with
  | step e ih =>
    rw [opensComment_text e dashless.own]
    constructor
    · rintro (⟨operand, rfl, begins⟩ | ⟨p, member, opens⟩)
      · have member : operand ∈ operands (.unary .negation operand) := by simp [operands]
        exact ⟨operand, .refl, (beginsSigned_text operand (dashless.operand member)).mp begins⟩
      · obtain ⟨operand, contained, starts⟩ := (ih p member (dashless.operand member)).mp opens
        exact ⟨operand, contained.of_operand member, starts⟩
    · rintro ⟨operand, contained, starts⟩
      rcases contained.cases with same | ⟨p, member, contained⟩
      · subst same
        have member : operand ∈ operands (.unary .negation operand) := by simp [operands]
        exact .inl ⟨operand, rfl, (beginsSigned_text operand (dashless.operand member)).mpr starts⟩
      · exact .inr ⟨p, member, (ih p member (dashless.operand member)).mpr
          ⟨operand, contained, starts⟩⟩

end Expression

def doubleSign : Graph
  | ⟨0⟩ => some { kind := .negationOperator,
                  field := fun f => if f = .operand then some ⟨2⟩ else none }
  | ⟨1⟩ => some { kind := .negationOperator,
                  field := fun f => if f = .operand then some ⟨3⟩ else none }
  | ⟨2⟩ => some { kind := .parenthesis,
                  field := fun f => if f = .expression then some ⟨3⟩ else none }
  | ⟨3⟩ => some { kind := .integerLiteral, literal := some (.integer (-5)) }
  | _ => none

theorem doubleSign_apart :
    ∃ e, Builder.build { graph := doubleSign } .expression ⟨0⟩ = .ok e ∧ e.IsDashless ∧
      e.text = "-(-5)" ∧ ¬ OpensComment e.text := by
  have number : (Expression.integer (-5)).IsDashless := .of_operands (by decide) nofun
  have inner : (Expression.parenthesis (.integer (-5))).IsDashless :=
    .of_operands (by decide) (by simpa [Expression.operands] using number)
  have dashless : (Expression.unary .negation (.parenthesis (.integer (-5)))).IsDashless :=
    .of_operands (by decide) (by simpa [Expression.operands] using inner)
  refine ⟨_, rfl, dashless, by decide +kernel, ?_⟩
  rw [Expression.comments_begin_at_double_signs _ dashless]
  rintro ⟨operand, contained, starts⟩
  rcases contained.cases with same | ⟨p, member, contained⟩
  · cases same
    cases starts
  cases List.mem_singleton.mp member
  rcases contained.cases with same | ⟨p, member, contained⟩
  · cases same
  cases List.mem_singleton.mp member
  cases contained.eq_of_leaf rfl

/-- Without the parentheses, the number is lost in a comment. -/
theorem doubleSign_opens :
    ∃ e, Builder.build { graph := doubleSign } .expression ⟨1⟩ = .ok e ∧ e.IsDashless ∧
      e.text = "--5" ∧ OpensComment e.text := by
  have number : (Expression.integer (-5)).IsDashless := .of_operands (by decide) nofun
  have dashless : (Expression.unary .negation (.integer (-5))).IsDashless :=
    .of_operands (by decide) (by simpa [Expression.operands] using number)
  exact ⟨_, rfl, dashless, by decide +kernel, by decide +kernel⟩

end VhdlDesign
