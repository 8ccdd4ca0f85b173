import VhdlDesign.Proofs.Rendering

/-!
String literals in the text of an expression.

A quote inside a string literal is written twice, so that the first quote that is not doubled closes
it. No text that can follow an operand begins with a quote. So every literal is read back where it
stands, whatever is around it.
-/
namespace VhdlDesign

/-! ### Scanning -/

/-- The rest of a string literal after its opening quote: its characters up to the first quote that
is not doubled, and what is left. -/
def closeLiteral : List Char → Option (List Char × List Char)
  | [] => none
  | '\x22' :: '\x22' :: rest => (closeLiteral rest).map fun (s, left) => ('\x22' :: s, left)
  | c :: rest =>
    if c = '\x22' then some ([], rest)
    else (closeLiteral rest).map fun (s, left) => (c :: s, left)

def scanLiteral (s : String) : Option (String × String) :=
  match s.toList with
  | '\x22' :: rest =>
    (closeLiteral rest).map fun (s, left) => (String.ofList s, String.ofList left)
  | _ => none

def BeginsQuoted (s : String) : Prop := s.toList.head? = some '\x22'

instance (s : String) : Decidable (BeginsQuoted s) :=
  inferInstanceAs (Decidable (s.toList.head? = some '\x22'))

theorem not_beginsQuoted_append {s t : String} (first : ¬ BeginsQuoted s)
    (second : ¬ BeginsQuoted t) : ¬ BeginsQuoted (s ++ t) := by
  unfold BeginsQuoted at *
  rw [String.toList_append, List.head?_append]
  cases front : s.toList with
  | nil => simpa using second
  | cons c rest =>
    rw [front] at first
    simpa using first

theorem closeLiteral_closed {rest : List Char} (unquoted : rest.head? ≠ some '\x22') :
    closeLiteral ('\x22' :: rest) = some ([], rest) := by
  cases rest with
  | nil => rfl
  | cons c rest =>
    have other : c ≠ '\x22' := by simpa using unquoted
    rw [closeLiteral, if_pos rfl]
    intro rest' _ same
    exact other (List.cons.inj same).1

theorem closeLiteral_doubleQuotes (s : List Char) {rest : List Char}
    (unquoted : rest.head? ≠ some '\x22') :
    closeLiteral (doubleQuotes s ++ '\x22' :: rest) = some (s, rest) := by
  induction s with
  | nil => exact closeLiteral_closed unquoted
  | cons c s ih =>
    rw [doubleQuotes]
    by_cases quote : c = '\x22'
    · subst quote
      rw [if_pos rfl, List.cons_append, List.cons_append, closeLiteral, ih]
      rfl
    · rw [if_neg quote, List.cons_append, closeLiteral, if_neg quote, ih]
      · rfl
      · intro rest' same
        exact absurd same quote

theorem scanLiteral_string (t : String) {r : String} (unquoted : ¬ BeginsQuoted r) :
    scanLiteral ((Expression.string t).text ++ r) = some (t, r) := by
  have spelled : ((Expression.string t).text ++ r).toList =
      '\x22' :: (doubleQuotes t.toList ++ '\x22' :: r.toList) := by
    simp [Expression.text]
  rw [scanLiteral, spelled]
  simp only [closeLiteral_doubleQuotes t.toList unquoted, Option.map_some, String.ofList_toList]

/-! ### What is around an operand -/

inductive ElementGap
  | positional
  | choice (chosen : Expression)
  | value (choice : Expression)
  | others

namespace ElementGap

def fill : ElementGap → Expression → AggregateElement
  | .positional, e => .positional e
  | .choice chosen, e => .chosen e chosen
  | .value first, e => .chosen first e
  | .others, e => .others e

def front : ElementGap → String
  | .positional | .choice _ => ""
  | .value first => first.text ++ " => "
  | .others => "others => "

def back : ElementGap → String
  | .choice chosen => " => " ++ chosen.text
  | _ => ""

theorem fill_text (g : ElementGap) (e : Expression) :
    (g.fill e).text = g.front ++ e.text ++ g.back := by
  cases g <;> simp [fill, front, back, AggregateElement.text, String.append_assoc]

theorem exists_fill {x : AggregateElement} {e : Expression} (operand : e ∈ x.operands) :
    ∃ g : ElementGap, x = g.fill e := by
  cases x with
  | positional value =>
    cases List.mem_singleton.mp operand
    exact ⟨.positional, rfl⟩
  | chosen choice value =>
    rcases List.mem_pair.mp operand with rfl | rfl
    · exact ⟨.choice value, rfl⟩
    · exact ⟨.value choice, rfl⟩
  | others value =>
    cases List.mem_singleton.mp operand
    exact ⟨.others, rfl⟩

end ElementGap

def Argument.assign : Option Symbol → Expression → Argument
  | none, e => .positional e
  | some formal, e => .named formal e

/-- An expression without one of its operands. -/
inductive Surrounding
  | unary (op : UnaryOperator)
  | left (op : BinaryOperator) (second : Expression)
  | right (op : BinaryOperator) (first : Expression)
  | parenthesis
  | element (before : List AggregateElement) (gap : ElementGap) (after : List AggregateElement)
  | argument (called : Symbol) (before : List Argument) (formal : Option Symbol)
      (after : List Argument)

def leading (ts : List String) : String := String.join (ts.map (· ++ ", "))

def trailing (ts : List String) : String := String.join (ts.map (", " ++ ·))

theorem commaSeparated_append_cons (ss : List String) (t : String) (ts : List String) :
    commaSeparated (ss ++ t :: ts) = leading ss ++ t ++ trailing ts := by
  induction ss generalizing t ts with
  | nil =>
    induction ts generalizing t with
    | nil => simp [commaSeparated, leading, trailing]
    | cons u ts ih =>
      have rest := ih u
      simp only [commaSeparated, leading, trailing, List.nil_append, List.map_nil, List.map_cons,
        String.join_nil, String.join_cons, String.empty_append] at rest ⊢
      rw [String.intercalate_cons_cons, rest]
      simp only [String.append_assoc]
  | cons s ss ih =>
    have rest := ih t ts
    have more : ss ++ t :: ts ≠ [] := by simp
    simp only [commaSeparated, leading, List.map_cons, String.join_cons] at rest ⊢
    rw [List.cons_append, String.intercalate_cons_of_ne_nil more, rest]
    simp only [String.append_assoc]

theorem not_beginsQuoted_trailing (ts : List String) : ¬ BeginsQuoted (trailing ts) := by
  cases ts with
  | nil => decide
  | cons t ts => simp [trailing, BeginsQuoted]

namespace Surrounding

def fill : Surrounding → Expression → Expression
  | .unary op, e => .unary op e
  | .left op second, e => .binary op e second
  | .right op first, e => .binary op first e
  | .parenthesis, e => .parenthesis e
  | .element before gap after, e => .aggregate (before ++ gap.fill e :: after)
  | .argument called before formal after, e =>
    .call called (before ++ Argument.assign formal e :: after)

def front : Surrounding → String
  | .unary op => op.text
  | .left _ _ => ""
  | .right op first => first.text ++ " " ++ op.text ++ " "
  | .parenthesis => "("
  | .element before gap _ => "(" ++ leading (before.map AggregateElement.text) ++ gap.front
  | .argument called before formal _ =>
    called.name ++ "(" ++ leading (before.map Argument.text) ++
      (formal.map fun formal => formal.name ++ " => ").getD ""

def back : Surrounding → String
  | .unary _ | .right _ _ => ""
  | .left op second => " " ++ op.text ++ " " ++ second.text
  | .parenthesis => ")"
  | .element _ gap after => gap.back ++ trailing (after.map AggregateElement.text) ++ ")"
  | .argument _ _ _ after => trailing (after.map Argument.text) ++ ")"

theorem fill_text (s : Surrounding) (e : Expression) :
    (s.fill e).text = s.front ++ e.text ++ s.back := by
  cases s with
  | unary op => simp [fill, front, back, Expression.text]
  | left op second => simp [fill, front, back, Expression.text, String.append_assoc]
  | right op first => simp [fill, front, back, Expression.text]
  | parenthesis => simp [fill, front, back, Expression.text]
  | element before gap after =>
    rw [fill, Expression.text_aggregate, List.map_append, List.map_cons,
      commaSeparated_append_cons, gap.fill_text]
    simp only [front, back, String.append_assoc]
  | argument called before formal after =>
    have more : before ++ Argument.assign formal e :: after ≠ [] := by simp
    rw [fill, Expression.text_call, if_neg more, List.map_append, List.map_cons,
      commaSeparated_append_cons]
    cases formal with
    | none => simp [front, back, Argument.assign, Argument.text, String.append_assoc]
    | some formal => simp [front, back, Argument.assign, Argument.text, String.append_assoc]

theorem not_beginsQuoted_back (s : Surrounding) : ¬ BeginsQuoted s.back := by
  have closing : ¬ BeginsQuoted ")" := by decide
  cases s with
  | unary op => simp [back, BeginsQuoted]
  | right op first => simp [back, BeginsQuoted]
  | left op second => simp [back, BeginsQuoted]
  | parenthesis => exact closing
  | element before gap after =>
    have inner : ¬ BeginsQuoted gap.back := by
      cases gap <;> simp [ElementGap.back, BeginsQuoted]
    exact not_beginsQuoted_append
      (not_beginsQuoted_append inner (not_beginsQuoted_trailing _)) closing
  | argument called before formal after =>
    exact not_beginsQuoted_append (not_beginsQuoted_trailing _) closing

theorem exists_fill {e p : Expression} (operand : p ∈ e.operands) :
    ∃ s : Surrounding, e = s.fill p := by
  cases e with
  | integer | real | character | string | name => cases operand
  | unary op inner =>
    cases List.mem_singleton.mp operand
    exact ⟨.unary op, rfl⟩
  | binary op left right =>
    rcases List.mem_pair.mp operand with rfl | rfl
    · exact ⟨.left op right, rfl⟩
    · exact ⟨.right op left, rfl⟩
  | parenthesis inner =>
    cases List.mem_singleton.mp operand
    exact ⟨.parenthesis, rfl⟩
  | aggregate elements =>
    obtain ⟨x, member, held⟩ := List.mem_flatMap.mp operand
    obtain ⟨before, after, rfl⟩ := List.append_of_mem member
    obtain ⟨gap, rfl⟩ := ElementGap.exists_fill held
    exact ⟨.element before gap after, rfl⟩
  | call called arguments =>
    obtain ⟨a, member, held⟩ := List.mem_flatMap.mp operand
    obtain ⟨before, after, rfl⟩ := List.append_of_mem member
    cases a with
    | positional actual =>
      cases List.mem_singleton.mp held
      exact ⟨.argument called before none after, rfl⟩
    | named formal actual =>
      cases List.mem_singleton.mp held
      exact ⟨.argument called before (some formal) after, rfl⟩

def fillAll (ss : List Surrounding) (e : Expression) : Expression := ss.foldr fill e

theorem exists_fillAll {e p : Expression} (contained : e.Contains p) :
    ∃ ss, e = fillAll ss p := by
  induction contained using Relation.ReflTransGen.head_induction_on with
  | refl => exact ⟨[], rfl⟩
  | head operand _ ih =>
    obtain ⟨s, rfl⟩ := exists_fill operand
    obtain ⟨ss, rfl⟩ := ih
    exact ⟨s :: ss, rfl⟩

/-- What comes before and after an expression inside others does not depend on it, and what comes
after it does not begin with a quote. -/
theorem fillAll_text (ss : List Surrounding) :
    ∃ front back : String, (∀ e, (fillAll ss e).text = front ++ e.text ++ back) ∧
      ¬ BeginsQuoted back := by
  induction ss with
  | nil => exact ⟨"", "", fun e => by simp [fillAll], by decide⟩
  | cons s ss ih =>
    obtain ⟨front, back, inner, unquoted⟩ := ih
    refine ⟨s.front ++ front, back ++ s.back, fun e => ?_, ?_⟩
    · calc (fillAll (s :: ss) e).text
        _ = s.front ++ (fillAll ss e).text ++ s.back := s.fill_text _
        _ = s.front ++ front ++ e.text ++ (back ++ s.back) := by
          rw [inner]
          simp only [String.append_assoc]
    · exact not_beginsQuoted_append unquoted s.not_beginsQuoted_back

end Surrounding

/-- A string literal is read back from its text: by itself, where no quote follows, and in place,
where it stands in an expression at whatever depth. There the text after it does not begin with a
quote. -/
theorem string_literals_scan_back (t : String) :
    (∀ r, ¬ BeginsQuoted r → scanLiteral ((Expression.string t).text ++ r) = some (t, r)) ∧
    (∀ e : Expression, e.Contains (.string t) → ∃ ss, e = Surrounding.fillAll ss (.string t)) ∧
    ∀ ss, ∃ front back : String,
      (∀ e, (Surrounding.fillAll ss e).text = front ++ e.text ++ back) ∧ ¬ BeginsQuoted back ∧
      scanLiteral ((Expression.string t).text ++ back) = some (t, back) := by
  refine ⟨fun r => scanLiteral_string t, fun e => Surrounding.exists_fillAll, fun ss => ?_⟩
  obtain ⟨front, back, inside, unquoted⟩ := Surrounding.fillAll_text ss
  exact ⟨front, back, inside, unquoted, scanLiteral_string t unquoted⟩

def quotesInCall : Expression :=
  .call ⟨"f"⟩ [.positional (.integer 1),
    .named ⟨"text"⟩ (.binary .concatenate (.string "\"\"") (.string "\""))]

theorem quotesInCall_scanned :
    quotesInCall.text = "f(1, text => \"\"\"\"\"\" & \"\"\"\")" ∧
    scanLiteral "\"\"\"\")" = some ("\"", ")") ∧
    ∃ ss, quotesInCall = Surrounding.fillAll ss (.string "\"") ∧
      ∃ front back : String, quotesInCall.text = front ++ (Expression.string "\"").text ++ back ∧
        scanLiteral ((Expression.string "\"").text ++ back) = some ("\"", back) := by
  obtain ⟨apart, held, within⟩ := string_literals_scan_back "\""
  have contained : quotesInCall.Contains (.string "\"") :=
    .head (b := .binary .concatenate (.string "\"\"") (.string "\""))
      (by simp [quotesInCall, Expression.operands, Argument.operands])
      (.single (by simp [Expression.operands]))
  obtain ⟨ss, surrounded⟩ := held quotesInCall contained
  obtain ⟨front, back, inside, _, scanned⟩ := within ss
  exact ⟨by decide +kernel, apart ")" (by decide), ss, surrounded, front, back,
    surrounded ▸ inside _, scanned⟩

end VhdlDesign
