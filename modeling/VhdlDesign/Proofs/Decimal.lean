import VhdlDesign.Proofs.Rendering
import VhdlDesign.Proofs.Tokens

/-!
Integers in decimal.

The digits of an integer, however many, are read as one numeral, and the numeral denotes the
integer.
-/
namespace VhdlDesign

def Numeral.ofInt (z : Int) : Numeral where
  negative := z < 0
  whole := (Nat.toDigits 10 z.natAbs).map Json.Reader.digitValue
  fraction := none
  exponent := none

theorem digitsValue_toDigits (n : Nat) :
    digitsValue ((Nat.toDigits 10 n).map Json.Reader.digitValue) = n := by
  calc digitsValue ((Nat.toDigits 10 n).map Json.Reader.digitValue)
    _ = Nat.ofDigitChars 10 (Nat.toDigits 10 n) 0 := by
      rw [digitsValue, List.foldl_map, Nat.ofDigitChars_eq_foldl]
      simp only [Nat.mul_comm, Json.Reader.digitValue]
    _ = n := Nat.ofDigitChars_ten_toDigits

theorem Numeral.integer?_ofInt (z : Int) : (ofInt z).integer? = some z := by
  simp only [integer?, ofInt, digitsValue_toDigits, decide_eq_true_eq]
  by_cases negative : z < 0
  · have magnitude : z.natAbs ≠ 0 := by omega
    rw [if_pos negative, if_neg magnitude, Option.some.injEq]
    omega
  · rw [if_neg negative, Option.some.injEq]
    omega

namespace Json.Reader

/-! ### Digits -/

/-- Only zero begins with a zero. -/
theorem toDigits_leading (n : Nat) (positive : n ≠ 0) :
    ∃ d ds, (Nat.toDigits 10 n).map digitValue = d :: ds ∧ d ≠ 0 := by
  induction n using Nat.strongRecOn with
  | ind n ih =>
    by_cases small : n < 10
    · refine ⟨n, [], ?_, positive⟩
      rw [Nat.toDigits_of_lt_base small, List.map_singleton]
      exact congrArg (fun d => [d]) (Nat.toNat_digitChar_sub_48_of_lt_ten small)
    · obtain ⟨d, ds, leading, solid⟩ := ih (n / 10) (by omega) (by omega)
      refine ⟨d, ds ++ [digitValue (Nat.digitChar (n % 10))], ?_, solid⟩
      rw [Nat.toDigits_of_base_le (by decide) (Nat.le_of_not_lt small), List.map_append, leading]
      rfl

theorem isDigit_of_mem_toDigits {n : Nat} {c : Char} (member : c ∈ Nat.toDigits 10 n) :
    c.isDigit = true :=
  Nat.isDigit_of_mem_toDigits (by decide) (by decide) member

theorem toDigits_eq_cons (n : Nat) : ∃ c cs, Nat.toDigits 10 n = c :: cs ∧ c.isDigit = true := by
  cases digits : Nat.toDigits 10 n with
  | nil => exact absurd digits Nat.toDigits_ne_nil
  | cons c cs => exact ⟨c, cs, rfl, isDigit_of_mem_toDigits (digits ▸ List.mem_cons_self)⟩

theorem toList_toString (z : Int) : (toString z).toList =
    (if z < 0 then ['-'] else []) ++ Nat.toDigits 10 z.natAbs := by
  rw [toString_int, String.toList_append, Nat.toString_eq_ofList_toDigits, String.toList_ofList]
  split <;> simp

section

variable {rest : List Char} (ends : EndsNumber rest)

include ends

theorem whole_toDigits (n : Nat) :
    whole (Nat.toDigits 10 n ++ rest) = some ((Nat.toDigits 10 n).map digitValue, rest) := by
  refine whole_eq_some.mpr ⟨digits_append (fun c => isDigit_of_mem_toDigits) ends.endsDigits, ?_⟩
  by_cases zero : n = 0
  · subst zero
    exact ⟨nofun, nofun⟩
  · obtain ⟨d, ds, leading, solid⟩ := toDigits_leading n zero
    rw [leading]
    exact ⟨nofun, fun _ _ same => solid (List.cons.inj same).1⟩

theorem numeral_toString (z : Int) :
    numeral ((toString z).toList ++ rest) = some (.ofInt z, rest) := by
  have signed : sign ((toString z).toList ++ rest) =
      (decide (z < 0), Nat.toDigits 10 z.natAbs ++ rest) := by
    rw [toList_toString]
    by_cases negative : z < 0
    · simp [negative, sign]
    · obtain ⟨c, cs, digits, digit⟩ := toDigits_eq_cons z.natAbs
      simp only [negative, if_false, decide_false, List.nil_append, digits, List.cons_append]
      rw [sign]
      intro _ same
      cases (List.cons.inj same).1
      cases digit
  simp only [numeral, signed, whole_toDigits ends, fraction_none ends, exponent_none ends,
    Option.bind_eq_bind, Option.bind_some]
  rfl

end

end Json.Reader

end VhdlDesign
