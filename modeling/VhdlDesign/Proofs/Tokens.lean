import Mathlib.Data.List.DropRight
import VhdlDesign.Json.Reader

/-!
Tokens in JSON texts.

A string is read up to its closing quote, whatever follows, and a numeral up to the first character
that cannot belong to it. So a token that was read in one text is read in any other where it stands
before something of the kind.
-/
namespace VhdlDesign.Json.Reader

variable {b cs rest t : List Char} {c : Char}

/-! ### Blanks -/

def Blank (cs : List Char) : Prop := ∀ c ∈ cs, isSeparator c = true

theorem skipBlanks_append (blank : Blank b) (cs : List Char) :
    skipBlanks (b ++ cs) = skipBlanks cs :=
  List.dropWhile_append_of_pos blank

theorem skipBlanks_cons (solid : isSeparator c = false) (cs : List Char) :
    skipBlanks (c :: cs) = c :: cs :=
  List.dropWhile_cons_of_neg (by simp [solid])

theorem exists_blank (cs : List Char) : ∃ b, Blank b ∧ cs = b ++ skipBlanks cs :=
  ⟨cs.takeWhile isSeparator, fun _ => List.mem_takeWhile_imp,
    List.takeWhile_append_dropWhile.symm⟩

theorem skipBlanks_idem (cs : List Char) : skipBlanks (skipBlanks cs) = skipBlanks cs :=
  List.dropWhile_idempotent isSeparator cs

/-! ### Words and strings -/

theorem keyword_eq_some {word : List Char} : keyword word cs = some rest ↔ cs = word ++ rest := by
  induction word generalizing cs with
  | nil => simp [keyword]
  | cons w word ih =>
    cases cs with
    | nil => simp [keyword]
    | cons c cs =>
      rw [keyword]
      split
      next same => simp [ih, same]
      next other => simp [Ne.symm other]

/-- A string ends with its closing quote, whatever follows. -/
theorem pieces_local {ps : List Piece} (read : pieces cs = some (ps, rest)) :
    ∃ t, cs = t ++ rest ∧ ∀ rest', pieces (t ++ rest') = some (ps, rest') := by
  fun_induction pieces cs generalizing ps rest with
  | case1 => cases read
  | case2 a b c d cs ih =>
    simp only [Option.bind_eq_bind, Option.bind_eq_some_iff, Prod.exists] at read
    obtain ⟨a', ha, b', hb, c', hc, d', hd, qs, left, inner, same⟩ := read
    cases same
    obtain ⟨t, rfl, again⟩ := ih inner
    refine ⟨'\\' :: 'u' :: a :: b :: c :: d :: t, rfl, fun rest' => ?_⟩
    simp only [List.cons_append, pieces, ha, hb, hc, hd, again, Option.bind_eq_bind,
      Option.bind_some]
  | case3 c cs apart ih =>
    simp only [Option.bind_eq_bind, Option.bind_eq_some_iff, Prod.exists] at read
    obtain ⟨e, escape, qs, left, inner, same⟩ := read
    cases same
    obtain ⟨t, rfl, again⟩ := ih inner
    refine ⟨'\\' :: c :: t, rfl, fun rest' => ?_⟩
    have other : c ≠ 'u' := by
      rintro rfl
      cases escape
    rw [List.cons_append, List.cons_append, pieces]
    · simp only [escape, again, Option.bind_eq_bind, Option.bind_some]
    · intro _ _ _ _ _ same
      exact absurd same other
  | case4 =>
    cases read
    exact ⟨['\x22'], rfl, fun rest' => by simp [pieces]⟩
  | case5 => cases read
  | case6 c cs _ apart other plain ih =>
    simp only [Option.bind_eq_bind, Option.bind_eq_some_iff, Prod.exists] at read
    obtain ⟨qs, left, inner, same⟩ := read
    cases same
    obtain ⟨t, rfl, again⟩ := ih inner
    refine ⟨c :: t, rfl, fun rest' => ?_⟩
    obtain ⟨control, escape⟩ := not_or.mp plain
    rw [List.cons_append, pieces]
    · simp only [other, plain, if_false, again, Option.bind_eq_bind, Option.bind_some]
    all_goals
      intros
      contradiction

theorem string_local {s : Option String} (read : string cs = some (s, rest)) :
    ∃ t, cs = t ++ rest ∧ ∀ rest', string (t ++ rest') = some (s, rest') := by
  simp only [string, Option.bind_eq_bind, Option.bind_eq_some_iff, Prod.exists] at read
  obtain ⟨ps, left, inner, same⟩ := read
  cases same
  obtain ⟨t, rfl, again⟩ := pieces_local inner
  exact ⟨t, rfl, fun rest' => by simp only [string, again, Option.bind_eq_bind, Option.bind_some]⟩

/-! ### Where a token ends -/

theorem head_append {p : Char → Prop} (first : ∀ c ∈ t.head?, p c)
    (second : ∀ c ∈ rest.head?, p c) : ∀ c ∈ (t ++ rest).head?, p c := by
  cases t with
  | nil => exact second
  | cons c t => exact first

def EndsDigits (rest : List Char) : Prop := ∀ c ∈ rest.head?, c.isDigit = false

def EndsNumber (rest : List Char) : Prop :=
  ∀ c ∈ rest.head?, c.isDigit = false ∧ c ≠ '.' ∧ c ≠ 'e' ∧ c ≠ 'E'

theorem EndsNumber.endsDigits (ends : EndsNumber rest) : EndsDigits rest :=
  fun c first => (ends c first).1

theorem endsNumber_append (blank : Blank b) (ends : EndsNumber rest) : EndsNumber (b ++ rest) := by
  refine head_append (fun c first => ?_) ends
  have separates := blank c (List.mem_of_head? first)
  simp only [isSeparator, Bool.or_eq_true, beq_iff_eq] at separates
  obtain ((rfl | rfl) | rfl) | rfl := separates <;> decide

/-- After a value stand a comma and what closes an array or an object. -/
theorem endsNumber_before (blank : Blank b) (sign : c = ']' ∨ c = '\x7d' ∨ c = ',') :
    EndsNumber (b ++ c :: rest) := by
  refine endsNumber_append blank ?_
  rintro _ ⟨⟩
  obtain rfl | rfl | rfl := sign <;> decide

/-! ### Digits -/

theorem digits_append (inside : ∀ c ∈ t, c.isDigit = true) (ends : EndsDigits rest) :
    digits (t ++ rest) = (t.map digitValue, rest) := by
  have front : rest.takeWhile Char.isDigit = [] := by
    cases rest with
    | nil => rfl
    | cons c rest => rw [List.takeWhile_cons_of_neg (by simp [ends c rfl])]
  have back : rest.dropWhile Char.isDigit = rest := by
    cases rest with
    | nil => rfl
    | cons c rest => rw [List.dropWhile_cons_of_neg (by simp [ends c rfl])]
  rw [digits, List.takeWhile_append_of_pos inside, List.dropWhile_append_of_pos inside, front, back,
    List.append_nil]

theorem digits_local {ds : List Nat} (read : digits cs = (ds, rest)) (present : ds ≠ []) :
    ∃ c t, c.isDigit = true ∧ cs = c :: t ++ rest ∧
      ∀ rest', EndsDigits rest' → digits (c :: t ++ rest') = (ds, rest') := by
  cases read
  have inside : ∀ c ∈ cs.takeWhile Char.isDigit, c.isDigit = true := fun _ => List.mem_takeWhile_imp
  have spelled : cs = cs.takeWhile Char.isDigit ++ cs.dropWhile Char.isDigit :=
    List.takeWhile_append_dropWhile.symm
  cases front : cs.takeWhile Char.isDigit with
  | nil => exact absurd (by rw [front]; rfl) present
  | cons c t =>
    rw [front] at inside spelled
    exact ⟨c, t, inside c List.mem_cons_self, spelled, fun rest' => digits_append inside⟩

theorem someDigits_eq_some {ds : List Nat} :
    someDigits cs = some (ds, rest) ↔ digits cs = (ds, rest) ∧ ds ≠ [] := by
  rw [someDigits]
  split
  next none =>
    refine ⟨nofun, fun ⟨read, present⟩ => ?_⟩
    cases none.symm.trans read
    exact absurd rfl present
  next present =>
    rw [Option.some.injEq, iff_self_and]
    rintro read rfl
    exact present _ read

theorem whole_eq_some {ds : List Nat} : whole cs = some (ds, rest) ↔
    digits cs = (ds, rest) ∧ ds ≠ [] ∧ ∀ d ds', ds ≠ 0 :: d :: ds' := by
  rw [whole]
  split
  next none =>
    refine ⟨nofun, fun ⟨read, present, _⟩ => ?_⟩
    cases none.symm.trans read
    exact absurd rfl present
  next d ds' _ leading =>
    refine ⟨nofun, fun ⟨read, _, solid⟩ => ?_⟩
    cases leading.symm.trans read
    exact absurd rfl (solid d ds')
  next present solid =>
    rw [Option.some.injEq, iff_self_and]
    refine fun read => ⟨?_, ?_⟩
    · rintro rfl
      exact present _ read
    · rintro d ds' rfl
      exact solid _ _ _ read

theorem someDigits_local {ds : List Nat} (read : someDigits cs = some (ds, rest)) :
    ∃ c t, c.isDigit = true ∧ cs = c :: t ++ rest ∧
      ∀ rest', EndsDigits rest' → someDigits (c :: t ++ rest') = some (ds, rest') := by
  obtain ⟨read, present⟩ := someDigits_eq_some.mp read
  obtain ⟨c, t, digit, spelled, again⟩ := digits_local read present
  exact ⟨c, t, digit, spelled, fun rest' ends =>
    someDigits_eq_some.mpr ⟨again rest' ends, present⟩⟩

theorem whole_local {ds : List Nat} (read : whole cs = some (ds, rest)) :
    ∃ c t, c.isDigit = true ∧ cs = c :: t ++ rest ∧
      ∀ rest', EndsDigits rest' → whole (c :: t ++ rest') = some (ds, rest') := by
  obtain ⟨read, present, solid⟩ := whole_eq_some.mp read
  obtain ⟨c, t, digit, spelled, again⟩ := digits_local read present
  exact ⟨c, t, digit, spelled, fun rest' ends =>
    whole_eq_some.mpr ⟨again rest' ends, present, solid⟩⟩

/-! ### Numerals -/

section

variable (ends : EndsNumber rest)

include ends

theorem fraction_none : fraction rest = some (none, rest) := by
  cases rest with
  | nil => rfl
  | cons c rest =>
    rw [fraction]
    intro _ same
    exact (ends c rfl).2.1 (List.cons.inj same).1

theorem exponent_none : exponent rest = some (none, rest) := by
  cases rest with
  | nil => rfl
  | cons c rest =>
    obtain ⟨_, _, lower, upper⟩ := ends c rfl
    rw [exponent, if_neg (not_or.mpr ⟨lower, upper⟩)]

end

theorem sign_local (cs : List Char) : ∃ t, cs = t ++ (sign cs).2 ∧
    ∀ rest, (∀ c ∈ rest.head?, c ≠ '-') → sign (t ++ rest) = ((sign cs).1, rest) := by
  rw [sign.eq_def]
  split
  next => exact ⟨['-'], rfl, fun rest _ => rfl⟩
  next =>
    refine ⟨[], rfl, fun rest other => ?_⟩
    rw [List.nil_append, sign]
    rintro rest rfl
    exact other _ rfl rfl

theorem exponentSign_local (cs : List Char) : ∃ t, cs = t ++ (exponentSign cs).2 ∧
    ∀ rest, (∀ c ∈ rest.head?, c ≠ '+' ∧ c ≠ '-') →
      exponentSign (t ++ rest) = ((exponentSign cs).1, rest) := by
  rw [exponentSign.eq_def]
  split
  next => exact ⟨['+'], rfl, fun rest _ => rfl⟩
  next apart =>
    obtain ⟨t, signed, again⟩ := sign_local cs
    refine ⟨t, signed, fun rest other => ?_⟩
    rw [exponentSign]
    · exact again rest fun c first => (other c first).2
    · intro rest' same
      cases t with
      | nil => exact (other '+' (by rw [← List.nil_append rest, same]; rfl)).1 rfl
      | cons c t =>
        cases (List.cons.inj same).1
        exact apart _ signed

theorem fraction_local {ds : Option (List Nat)} (read : fraction cs = some (ds, rest)) :
    ∃ t, cs = t ++ rest ∧ (∀ c ∈ t.head?, c = '.') ∧
      ∀ rest', (∀ c ∈ rest'.head?, c.isDigit = false ∧ c ≠ '.') →
        fraction (t ++ rest') = some (ds, rest') := by
  rw [fraction.eq_def] at read
  split at read
  next cs =>
    simp only [Option.bind_eq_bind, Option.bind_eq_some_iff, Prod.exists] at read
    obtain ⟨ds, left, inner, same⟩ := read
    cases same
    obtain ⟨c, t, _, rfl, again⟩ := someDigits_local inner
    refine ⟨'.' :: c :: t, rfl, by simp, fun rest' ends => ?_⟩
    rw [List.cons_append, fraction, again rest' fun c first => (ends c first).1]
    rfl
  next =>
    cases read
    refine ⟨[], rfl, by simp, fun rest' ends => ?_⟩
    rw [List.nil_append, fraction]
    rintro _ rfl
    exact (ends _ rfl).2 rfl

theorem exponent_local {e : Option (Bool × List Nat)} (read : exponent cs = some (e, rest)) :
    ∃ t, cs = t ++ rest ∧ (∀ c ∈ t.head?, c = 'e' ∨ c = 'E') ∧
      ∀ rest', EndsNumber rest' → exponent (t ++ rest') = some (e, rest') := by
  cases cs with
  | nil =>
    cases read
    exact ⟨[], rfl, by simp, fun rest' ends => exponent_none ends⟩
  | cons c cs =>
    rw [exponent] at read
    split at read
    next marked =>
      simp only [Option.bind_eq_bind, Option.bind_eq_some_iff, Prod.exists] at read
      obtain ⟨ds, left, inner, same⟩ := read
      cases same
      obtain ⟨s, signed, resign⟩ := exponentSign_local cs
      obtain ⟨d, t, digit, spelled, again⟩ := someDigits_local inner
      refine ⟨c :: (s ++ d :: t), ?_, by simpa using marked, fun rest' ends => ?_⟩
      · calc c :: cs
          _ = c :: (s ++ (d :: t ++ rest)) := by rw [← spelled, ← signed]
          _ = c :: (s ++ d :: t) ++ rest := by simp
      · have unsigned : ∀ c ∈ (d :: t ++ rest').head?, c ≠ '+' ∧ c ≠ '-' := by
          rintro c ⟨⟩
          constructor <;> (rintro rfl; cases digit)
        rw [List.cons_append, List.append_assoc, exponent, if_pos marked, resign _ unsigned]
        simp only [again rest' ends.endsDigits, Option.bind_eq_bind, Option.bind_some]
    next =>
      cases read
      exact ⟨[], rfl, by simp, fun rest' ends => exponent_none ends⟩

theorem numeral_local {n : Numeral} (read : numeral cs = some (n, rest)) :
    ∃ t, cs = t ++ rest ∧ ∀ rest', EndsNumber rest' → numeral (t ++ rest') = some (n, rest') := by
  simp only [numeral, Option.bind_eq_bind, Option.bind_eq_some_iff, Prod.exists] at read
  obtain ⟨ds, left, hwhole, fs, left', hfraction, e, left'', hexponent, same⟩ := read
  cases same
  obtain ⟨s, signed, resign⟩ := sign_local cs
  obtain ⟨d, w, digit, whole, again⟩ := whole_local hwhole
  obtain ⟨f, rfl, point, again'⟩ := fraction_local hfraction
  obtain ⟨x, rfl, mark, again''⟩ := exponent_local hexponent
  refine ⟨s ++ (d :: w ++ (f ++ x)), ?_, fun rest' ends => ?_⟩
  · calc cs
      _ = s ++ (d :: w ++ (f ++ (x ++ rest))) := by rw [← whole, ← signed]
      _ = s ++ (d :: w ++ (f ++ x)) ++ rest := by simp
  · have unsigned : ∀ c ∈ (d :: w ++ (f ++ (x ++ rest'))).head?, c ≠ '-' := by
      rintro c ⟨⟩ rfl
      cases digit
    have beforeExponent : ∀ c ∈ (x ++ rest').head?, c.isDigit = false ∧ c ≠ '.' := by
      refine head_append (fun c first => ?_) fun c first => ⟨(ends c first).1, (ends c first).2.1⟩
      obtain rfl | rfl := mark c first <;> decide
    have beforeFraction : EndsDigits (f ++ (x ++ rest')) := by
      refine head_append (fun c first => ?_) fun c first => (beforeExponent c first).1
      cases point c first
      rfl
    have spelled : s ++ (d :: w ++ (f ++ x)) ++ rest' = s ++ (d :: w ++ (f ++ (x ++ rest'))) := by
      simp
    simp only [numeral, spelled, resign _ unsigned, again _ beforeFraction, again' _ beforeExponent,
      again'' rest' ends, Option.bind_eq_bind, Option.bind_some]

theorem numeral_first {n : Numeral} (read : numeral cs = some (n, rest)) :
    ∃ c t, cs = c :: t ∧ (c = '-' ∨ c.isDigit = true) := by
  simp only [numeral, Option.bind_eq_bind, Option.bind_eq_some_iff, Prod.exists] at read
  obtain ⟨ds, left, hwhole, _⟩ := read
  obtain ⟨d, t, digit, unsigned, _⟩ := whole_local hwhole
  rw [sign.eq_def] at unsigned
  split at unsigned
  next => exact ⟨'-', _, rfl, .inl rfl⟩
  next => exact ⟨d, t ++ left, unsigned, .inr digit⟩

end VhdlDesign.Json.Reader
