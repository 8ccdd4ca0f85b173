import VhdlDesign.Proofs.Tokens

/-!
Values in JSON texts.

Which texts stand for a value is said by a grammar, one rule for each way to write one. The reader
takes such a text off the front of what it is given, whatever comes after it, and nothing else.
-/
namespace VhdlDesign.Json

open Reader

/-- What is read at once: a value, or the rest of an array or object after its opening bracket. -/
inductive Phrase
  | value (j : Json)
  | elements (vs : List Json)
  | members (ms : List (Option String × Json))

/-- The texts of values, with blanks between tokens only. -/
inductive Spells : List Char → Phrase → Prop
  | null : Spells ['n', 'u', 'l', 'l'] (.value .null)
  | truth : Spells ['t', 'r', 'u', 'e'] (.value (.bool true))
  | falsehood : Spells ['f', 'a', 'l', 's', 'e'] (.value (.bool false))
  | number {t : List Char} {n : Numeral}
      (digits : ∀ rest, EndsNumber rest → numeral (t ++ rest) = some (n, rest)) :
      Spells t (.value (.number n))
  | string {t : List Char} {s : Option String}
      (quoted : ∀ rest, Reader.string (t ++ rest) = some (s, rest)) :
      Spells ('\x22' :: t) (.value (.string s))
  | noElements {b : List Char} (blank : Blank b) : Spells ('[' :: (b ++ [']'])) (.value (.array []))
  | array {b t : List Char} {vs : List Json} (blank : Blank b) (inner : Spells t (.elements vs)) :
      Spells ('[' :: (b ++ t)) (.value (.array vs))
  | noMembers {b : List Char} (blank : Blank b) :
      Spells ('\x7b' :: (b ++ ['\x7d'])) (.value (.object []))
  | object {b t : List Char} {ms : List (Option String × Json)} (blank : Blank b)
      (inner : Spells t (.members ms)) : Spells ('\x7b' :: (b ++ t)) (.value (.object ms))
  | lastElement {t b : List Char} {v : Json} (value : Spells t (.value v)) (blank : Blank b) :
      Spells (t ++ (b ++ [']'])) (.elements [v])
  | element {t b b₁ u : List Char} {v : Json} {vs : List Json} (value : Spells t (.value v))
      (blank : Blank b) (blank₁ : Blank b₁) (others : Spells u (.elements vs)) :
      Spells (t ++ (b ++ ',' :: (b₁ ++ u))) (.elements (v :: vs))
  | lastMember {k b b₁ t b₂ : List Char} {key : Option String} {v : Json}
      (name : ∀ rest, Reader.string (k ++ rest) = some (key, rest)) (blank : Blank b)
      (blank₁ : Blank b₁) (value : Spells t (.value v)) (blank₂ : Blank b₂) :
      Spells ('\x22' :: (k ++ (b ++ ':' :: (b₁ ++ (t ++ (b₂ ++ ['\x7d'])))))) (.members [(key, v)])
  | member {k b b₁ t b₂ b₃ u : List Char} {key : Option String} {v : Json}
      {ms : List (Option String × Json)}
      (name : ∀ rest, Reader.string (k ++ rest) = some (key, rest)) (blank : Blank b)
      (blank₁ : Blank b₁) (value : Spells t (.value v)) (blank₂ : Blank b₂)
      (blank₃ : Blank b₃) (others : Spells u (.members ms)) :
      Spells ('\x22' :: (k ++ (b ++ ':' :: (b₁ ++ (t ++ (b₂ ++ ',' :: (b₃ ++ u)))))))
        (.members ((key, v) :: ms))

namespace Reader

variable {b cs rest : List Char} {fuel : Nat}

/-! ### Reading what is spelled -/

theorem value_skipBlanks : value fuel (skipBlanks cs) = value fuel cs := by
  cases fuel with
  | zero => rfl
  | succ fuel => rw [value, value, skipBlanks_idem]

theorem members_skipBlanks : members fuel (skipBlanks cs) = members fuel cs := by
  cases fuel with
  | zero => rfl
  | succ fuel => rw [members, members, skipBlanks_idem]

theorem elements_skipBlanks : elements fuel (skipBlanks cs) = elements fuel cs := by
  cases fuel with
  | zero => rfl
  | succ fuel => rw [elements, elements, value_skipBlanks]

theorem value_append (blank : Blank b) : value fuel (b ++ cs) = value fuel cs := by
  rw [← value_skipBlanks, skipBlanks_append blank, value_skipBlanks]

theorem elements_append (blank : Blank b) : elements fuel (b ++ cs) = elements fuel cs := by
  rw [← elements_skipBlanks, skipBlanks_append blank, elements_skipBlanks]

theorem members_append (blank : Blank b) : members fuel (b ++ cs) = members fuel cs := by
  rw [← members_skipBlanks, skipBlanks_append blank, members_skipBlanks]

theorem value_numeral {n : Numeral} (read : numeral cs = some (n, rest)) :
    value (fuel + 1) cs = some (.number n, rest) := by
  obtain ⟨c, t, rfl, start⟩ := numeral_first read
  have solid : isSeparator c = false := by
    rcases start with rfl | digit
    · rfl
    · simp only [isSeparator, Bool.or_eq_false_iff, beq_eq_false_iff_ne]
      refine ⟨⟨⟨?_, ?_⟩, ?_⟩, ?_⟩ <;> (rintro rfl; cases digit)
  have other : c ≠ 'n' ∧ c ≠ 't' ∧ c ≠ 'f' ∧ c ≠ '\x22' ∧ c ≠ '[' ∧ c ≠ '\x7b' := by
    rcases start with rfl | digit
    · decide
    · refine ⟨?_, ?_, ?_, ?_, ?_, ?_⟩ <;> (rintro rfl; cases digit)
  obtain ⟨n, t, f, quote, bracket, brace⟩ := other
  rw [value, skipBlanks_cons solid]
  simp only [n, t, f, quote, bracket, brace, if_false, read, Option.bind_eq_bind, Option.bind_some]

theorem elements_closed : elements fuel (']' :: cs) = none := by
  cases fuel with
  | zero => rfl
  | succ fuel =>
    have closed : numeral (']' :: cs) = none := by
      by_contra read
      obtain ⟨⟨n, rest⟩, read⟩ := Option.ne_none_iff_exists'.mp read
      obtain ⟨c, t, same, start⟩ := numeral_first read
      cases same
      exact absurd start (by decide)
    cases fuel with
    | zero => rfl
    | succ fuel => simp [elements, value, skipBlanks_cons, isSeparator, closed]

theorem value_array {vs : List Json} (blank : Blank b)
    (read : elements fuel cs = some (vs, rest)) :
    value (fuel + 1) ('[' :: (b ++ cs)) = some (.array vs, rest) := by
  rw [← elements_skipBlanks] at read
  rw [value, skipBlanks_cons rfl]
  simp only [skipBlanks_append blank, Char.reduceEq, if_false, if_true]
  split
  next closed =>
    rw [closed, elements_closed] at read
    cases read
  next => simp only [read, Option.bind_eq_bind, Option.bind_some]

theorem value_object {ms : List (Option String × Json)} (blank : Blank b)
    (read : members fuel cs = some (ms, rest)) :
    value (fuel + 1) ('\x7b' :: (b ++ cs)) = some (.object ms, rest) := by
  rw [← members_skipBlanks] at read
  rw [value, skipBlanks_cons rfl]
  simp only [skipBlanks_append blank, Char.reduceEq, if_false, if_true]
  split
  next closed =>
    rw [closed] at read
    cases fuel with
    | zero => cases read
    | succ fuel => cases read
  next => simp only [read, Option.bind_eq_bind, Option.bind_some]

end Reader

/-- The phrase is read from the text, and nothing after it. -/
def Phrase.TakenFrom (t : List Char) : Phrase → Prop
  | .value j => ∀ fuel rest, 2 * t.length < fuel → EndsNumber rest →
      Reader.value fuel (t ++ rest) = some (j, rest)
  | .elements vs => ∀ fuel rest, 2 * t.length < fuel →
      Reader.elements fuel (t ++ rest) = some (vs, rest)
  | .members ms => ∀ fuel rest, 2 * t.length < fuel →
      Reader.members fuel (t ++ rest) = some (ms, rest)

theorem Spells.taken {t : List Char} {phrase : Phrase} (spelled : Spells t phrase) :
    phrase.TakenFrom t := by
  -- From a value down to one inside it, two units of fuel are used, for the bracket and the list.
  -- The bracket and what closes the list are two characters, so that the fuel still suffices.
  induction spelled with
  | null | truth | falsehood =>
    rintro (_ | fuel) rest enough ends
    · cases enough
    · simp [Reader.value, skipBlanks_cons, isSeparator, keyword]
  | number digits =>
    rintro (_ | fuel) rest enough ends
    · cases enough
    · exact value_numeral (digits rest ends)
  | string quoted =>
    rintro (_ | fuel) rest enough ends
    · cases enough
    · simp [Reader.value, skipBlanks_cons, isSeparator, quoted]
  | noElements blank | noMembers blank =>
    rintro (_ | fuel) rest enough ends
    · cases enough
    · simp [Reader.value, skipBlanks_cons, isSeparator, skipBlanks_append blank]
  | array blank inner ih =>
    rintro (_ | fuel) rest enough ends
    · cases enough
    · simp only [List.length_cons, List.length_append] at enough
      rw [List.cons_append, List.append_assoc]
      exact value_array blank (ih fuel rest (by omega))
  | object blank inner ih =>
    rintro (_ | fuel) rest enough ends
    · cases enough
    · simp only [List.length_cons, List.length_append] at enough
      rw [List.cons_append, List.append_assoc]
      exact value_object blank (ih fuel rest (by omega))
  | lastElement value blank ih =>
    rintro (_ | fuel) rest enough
    · cases enough
    · simp only [List.length_cons, List.length_append] at enough
      have read := ih fuel (_ ++ ']' :: rest) (by omega) (endsNumber_before blank (.inl rfl))
      simp [Reader.elements, read, skipBlanks_cons, isSeparator, skipBlanks_append blank]
  | element value blank blank₁ others ih ih₁ =>
    rintro (_ | fuel) rest enough
    · cases enough
    · simp only [List.length_cons, List.length_append] at enough
      have read (left) := ih fuel (_ ++ ',' :: left) (by omega)
        (endsNumber_before blank (.inr (.inr rfl)))
      have more := ih₁ fuel rest (by omega)
      simp [Reader.elements, read, skipBlanks_cons, isSeparator, skipBlanks_append blank,
        elements_append blank₁, more]
  | lastMember name blank blank₁ value blank₂ ih =>
    rintro (_ | fuel) rest enough
    · cases enough
    · simp only [List.length_cons, List.length_append] at enough
      have read := ih fuel (_ ++ '\x7d' :: rest) (by omega)
        (endsNumber_before blank₂ (.inr (.inl rfl)))
      simp [Reader.members, name, read, skipBlanks_cons, isSeparator, skipBlanks_append blank,
        value_append blank₁, skipBlanks_append blank₂]
  | member name blank blank₁ value blank₂ blank₃ others ih ih₁ =>
    rintro (_ | fuel) rest enough
    · cases enough
    · simp only [List.length_cons, List.length_append] at enough
      have read (left) := ih fuel (_ ++ ',' :: left) (by omega)
        (endsNumber_before blank₂ (.inr (.inr rfl)))
      have more := ih₁ fuel rest (by omega)
      simp [Reader.members, name, read, skipBlanks_cons, isSeparator, skipBlanks_append blank,
        value_append blank₁, skipBlanks_append blank₂, members_append blank₃, more]

/-! ### What is read is spelled -/

def Phrase.Ahead (phrase : Phrase) (cs rest : List Char) : Prop :=
  ∃ b t, Blank b ∧ cs = b ++ (t ++ rest) ∧ Spells t phrase

structure Reader.Faithful (fuel : Nat) : Prop where
  value : ∀ {cs j rest}, Reader.value fuel cs = some (j, rest) → (Phrase.value j).Ahead cs rest
  elements : ∀ {cs vs rest},
    Reader.elements fuel cs = some (vs, rest) → (Phrase.elements vs).Ahead cs rest
  members : ∀ {cs ms rest},
    Reader.members fuel cs = some (ms, rest) → (Phrase.members ms).Ahead cs rest

namespace Reader

theorem ahead_word {b cs tail word rest : List Char} {c : Char} {j j' : Json} (blank : Blank b)
    (spelled : cs = b ++ c :: tail) (read : (keyword word tail).map (j, ·) = some (j', rest))
    (rule : Spells (c :: word) (.value j)) : (Phrase.value j').Ahead cs rest := by
  obtain ⟨left, followed, same⟩ := Option.map_eq_some_iff.mp read
  cases same
  rw [keyword_eq_some] at followed
  exact ⟨b, c :: word, blank, by rw [spelled, followed, List.cons_append], rule⟩

section

variable {fuel : Nat} {cs rest : List Char} (faithful : Faithful fuel)

include faithful

theorem Faithful.value_succ {j : Json} (read : Reader.value (fuel + 1) cs = some (j, rest)) :
    (Phrase.value j).Ahead cs rest := by
  obtain ⟨b, blank, spelled⟩ := exists_blank cs
  rw [Reader.value] at read
  split at read
  next => cases read
  next c tail first =>
    rw [first] at spelled
    split_ifs at read with n t f quote bracket brace
    · exact ahead_word blank (n ▸ spelled) read .null
    · exact ahead_word blank (t ▸ spelled) read .truth
    · exact ahead_word blank (f ▸ spelled) read .falsehood
    · simp only [Option.bind_eq_bind, Option.bind_eq_some_iff, Prod.exists] at read
      obtain ⟨s, left, quoted, same⟩ := read
      cases same
      obtain ⟨t, rfl, again⟩ := string_local quoted
      exact ⟨b, _, blank, by rw [spelled, quote]; rfl, .string again⟩
    · obtain ⟨b₁, blank₁, inner⟩ := exists_blank tail
      split at read
      next left closed =>
        cases read
        refine ⟨b, _, blank, ?_, .noElements blank₁⟩
        rw [spelled, bracket, inner, closed]
        simp
      next =>
        simp only [elements_skipBlanks, Option.bind_eq_bind, Option.bind_eq_some_iff,
          Prod.exists] at read
        obtain ⟨vs, left, read, same⟩ := read
        cases same
        obtain ⟨b₂, t, blank₂, rfl, inside⟩ := faithful.elements read
        refine ⟨b, _, blank, ?_, .array blank₂ inside⟩
        rw [spelled, bracket]
        simp
    · obtain ⟨b₁, blank₁, inner⟩ := exists_blank tail
      split at read
      next left closed =>
        cases read
        refine ⟨b, _, blank, ?_, .noMembers blank₁⟩
        rw [spelled, brace, inner, closed]
        simp
      next =>
        simp only [members_skipBlanks, Option.bind_eq_bind, Option.bind_eq_some_iff,
          Prod.exists] at read
        obtain ⟨ms, left, read, same⟩ := read
        cases same
        obtain ⟨b₂, t, blank₂, rfl, inside⟩ := faithful.members read
        refine ⟨b, _, blank, ?_, .object blank₂ inside⟩
        rw [spelled, brace]
        simp
    · simp only [Option.bind_eq_bind, Option.bind_eq_some_iff, Prod.exists] at read
      obtain ⟨n, left, digits, same⟩ := read
      cases same
      obtain ⟨t, numeral, again⟩ := numeral_local digits
      exact ⟨b, t, blank, by rw [spelled, numeral], .number again⟩

theorem Faithful.elements_succ {vs : List Json}
    (read : Reader.elements (fuel + 1) cs = some (vs, rest)) :
    (Phrase.elements vs).Ahead cs rest := by
  simp only [Reader.elements, Option.bind_eq_bind, Option.bind_eq_some_iff, Prod.exists] at read
  obtain ⟨v, left, first, read⟩ := read
  obtain ⟨b, t, blank, rfl, inside⟩ := faithful.value first
  obtain ⟨b₁, blank₁, after⟩ := exists_blank left
  split at read
  next more comma =>
    simp only [Option.bind_eq_some_iff, Prod.exists] at read
    obtain ⟨vs, left, others, same⟩ := read
    cases same
    obtain ⟨b₂, u, blank₂, rfl, inside'⟩ := faithful.elements others
    refine ⟨b, _, blank, ?_, .element inside blank₁ blank₂ inside'⟩
    rw [after, comma]
    simp
  next closed =>
    cases read
    refine ⟨b, _, blank, ?_, .lastElement inside blank₁⟩
    rw [after, closed]
    simp
  next => cases read

theorem Faithful.members_succ {ms : List (Option String × Json)}
    (read : Reader.members (fuel + 1) cs = some (ms, rest)) :
    (Phrase.members ms).Ahead cs rest := by
  obtain ⟨b, blank, spelled⟩ := exists_blank cs
  rw [Reader.members] at read
  split at read
  next tail quote =>
    simp only [Option.bind_eq_bind, Option.bind_eq_some_iff, Prod.exists] at read
    obtain ⟨key, left, quoted, read⟩ := read
    obtain ⟨k, rfl, name⟩ := string_local quoted
    obtain ⟨b₁, blank₁, between⟩ := exists_blank left
    split at read
    next tail' colon =>
      simp only [Option.bind_eq_some_iff, Prod.exists] at read
      obtain ⟨v, left', first, read⟩ := read
      obtain ⟨b₂, t, blank₂, rfl, inside⟩ := faithful.value first
      obtain ⟨b₃, blank₃, after⟩ := exists_blank left'
      split at read
      next more comma =>
        simp only [Option.bind_eq_some_iff, Prod.exists] at read
        obtain ⟨ms, left'', others, same⟩ := read
        cases same
        obtain ⟨b₄, u, blank₄, rfl, inside'⟩ := faithful.members others
        refine ⟨b, _, blank, ?_, .member name blank₁ blank₂ inside blank₃ blank₄ inside'⟩
        rw [spelled, quote, between, colon, after, comma]
        simp
      next closed =>
        cases read
        refine ⟨b, _, blank, ?_, .lastMember name blank₁ blank₂ inside blank₃⟩
        rw [spelled, quote, between, colon, after, closed]
        simp
      next => cases read
    next => cases read
  next => cases read

end

theorem faithful (fuel : Nat) : Faithful fuel := by
  induction fuel with
  | zero => exact ⟨nofun, nofun, nofun⟩
  | succ fuel ih => exact ⟨ih.value_succ, ih.elements_succ, ih.members_succ⟩

end Reader

/-- A document is read from a text exactly if the text spells it, with blanks around. -/
theorem read?_eq_some {s : String} {j : Json} : read? s = some j ↔
    ∃ b t b', Blank b ∧ Blank b' ∧ s.toList = b ++ (t ++ b') ∧ Spells t (.value j) := by
  constructor
  · intro read
    simp only [read?] at read
    split at read
    next j' rest first =>
      rw [Option.ite_none_right_eq_some] at read
      obtain ⟨none, same⟩ := read
      cases same
      obtain ⟨b, t, blank, spelled, inside⟩ := (faithful _).value first
      obtain ⟨b', blank', left⟩ := exists_blank rest
      rw [List.isEmpty_iff.mp none, List.append_nil] at left
      exact ⟨b, t, b', blank, blank', left ▸ spelled, inside⟩
    next => cases read
  · rintro ⟨b, t, b', blank, blank', spelled, inside⟩
    have ends : EndsNumber b' := by
      rw [← List.append_nil b']
      exact endsNumber_append blank' nofun
    have read := inside.taken (2 * s.toList.length + 2) b' (by simp [spelled]; omega) ends
    have nothing : skipBlanks b' = [] := List.dropWhile_eq_nil_iff.mpr blank'
    rw [← value_append blank, ← spelled] at read
    simp only [read?, read, nothing, List.isEmpty_nil, if_true]

end VhdlDesign.Json
