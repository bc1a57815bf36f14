import Turmite.Error
import Turmite.Json.Token
import Turmite.Number.Numeral
import Mathlib.Data.List.TakeDrop
import Mathlib.Data.List.TakeWhile
import Mathlib.Tactic.SplitIfs

/-!
# Decimal texts read back

The decimal text of a number has digits only, starts with a zero for zero alone, and stands for the
number in both readings of digits (`Json.Token.ofDigits_digitText`, `Numeral.ofDigits_digitText`).
So the text of an integer is read as that integer, wherever a numeral may have as many digits
(`Numeral.readInt?_ofInt`), and different integers have different texts (`Text.ofInt_injective`).
-/

namespace Turmite

/-! ## Digits -/

theorem isDigit_of_mem_digitText {n : Nat} {c : Char} (h : c ∈ digitText n) : c.isDigit = true :=
  Nat.isDigit_of_mem_toDigits (by decide) (by decide) h

theorem digitText_ne_nil (n : Nat) : digitText n ≠ [] := Nat.toDigits_ne_nil

theorem length_digitText (n : Nat) : (digitText n).length = Binary64.digitCount n := rfl

/-- Only zero is written with a zero in front. -/
theorem digitText_ne_zero_cons {n : Nat} (h : n ≠ 0) (r : List Char) : digitText n ≠ '0' :: r := by
  unfold digitText
  induction n using Nat.strongRecOn generalizing r with
  | ind n ih =>
    by_cases hn : n < 10
    · rw [Nat.toDigits_of_lt_base hn]
      intro he
      exact h (Nat.digitChar_eq_zero.1 (List.cons.inj he).1)
    · rw [Nat.toDigits_of_base_le (by decide) (by omega)]
      intro he
      obtain ⟨c, s, hs⟩ := List.exists_cons_of_ne_nil (Nat.toDigits_ne_nil (b := 10) (n := n / 10))
      rw [hs, List.cons_append] at he
      refine ih (n / 10) (by omega) (by omega) s ?_
      rw [hs, (List.cons.inj he).1]

/-- A digit is one of the ten from zero to nine. -/
theorem toNat_of_isDigit {c : Char} (h : c.isDigit = true) : 48 ≤ c.toNat ∧ c.toNat ≤ 57 :=
  Char.isDigit_iff_toNat.1 h

theorem Json.Token.ofDigits_eq_ofDigitChars (digits : List Char) :
    Json.Token.ofDigits digits = Nat.ofDigitChars 10 digits 0 := by
  simp only [Json.Token.ofDigits, Nat.ofDigitChars_eq_foldl, Nat.mul_comm]
  rfl

theorem Json.Token.ofDigits_digitText (n : Nat) : Json.Token.ofDigits (digitText n) = n := by
  rw [Json.Token.ofDigits_eq_ofDigitChars]
  exact Nat.ofDigitChars_ten_toDigits

/-- A magnitude under the sign of its integer. -/
theorem ite_natAbs_eq (n : Int) : (if n < 0 then -(n.natAbs : Int) else n.natAbs) = n := by
  split_ifs <;> omega

/-! ## Numerals -/

theorem CodePoint.digit?_of_isDigit {c : Char} (h : c.isDigit = true) :
    (CodePoint.scalar c).digit? = some (c.toNat - 48) := by
  have := toNat_of_isDigit h
  unfold CodePoint.digit? CodePoint.digitZeros
  rw [List.find?_cons_of_pos]
  · rfl
  · simp only [Bool.and_eq_true, decide_eq_true_eq]
    exact ⟨this.1, Nat.lt_succ_of_le this.2⟩

namespace Numeral

theorem digitRun?_digits {digits : List Char} (hne : digits ≠ [])
    (h : ∀ c ∈ digits, c.isDigit = true) :
    digitRun? CodePoint.digit? (digits.map .scalar) = some (digits.map (·.toNat - 48)) := by
  induction digits with
  | nil => exact absurd rfl hne
  | cons c r ih =>
    have hc := CodePoint.digit?_of_isDigit (h c List.mem_cons_self)
    cases r with
    | nil => simp [digitRun?, hc]
    | cons d s =>
      have hd : CodePoint.scalar d ≠ .scalar '_' := by
        rintro ⟨⟩
        simpa using h '_' (by simp)
      have ih := ih (by simp) fun a ha => h a (List.mem_cons_of_mem _ ha)
      simp only [List.map_cons] at ih ⊢
      simp [digitRun?, hc, hd, ih]

theorem ofDigits_digitText (n : Nat) : ofDigits 10 ((digitText n).map (·.toNat - 48)) = n := by
  rw [ofDigits, List.foldl_map]
  exact Json.Token.ofDigits_digitText n

/-- A text without a sign in front. -/
theorem sign_of_ne {t : Text} (hminus : ∀ r, t ≠ .scalar '-' :: r)
    (hplus : ∀ r, t ≠ .scalar '+' :: r) : sign t = (false, t) :=
  sign.eq_3 t hminus hplus

end Numeral

theorem Text.trimSpaces_of_forall {t : Text} (h : ∀ c ∈ t, c.isSpace = false) :
    t.trimSpaces = t := by
  have keep (s : Text) (hs : ∀ c ∈ s, c.isSpace = false) : s.dropWhile CodePoint.isSpace = s := by
    cases s with
    | nil => rfl
    | cons c r => rw [List.dropWhile_cons_of_neg (by simp [hs c])]
  unfold Text.trimSpaces Text.trimBy
  rw [keep t h, keep _ (by simpa using h), List.reverse_reverse]

theorem CodePoint.isSpace_eq_false {c : Char} (h : 33 ≤ c.toNat ∧ c.toNat ≤ 126) :
    (CodePoint.scalar c).isSpace = false := by
  have hc : (CodePoint.scalar c).toNat = c.toNat := rfl
  simp only [CodePoint.isSpace, CodePoint.spaceRanges, List.any_cons, List.any_nil, Bool.or_false,
    Bool.or_eq_false_iff, Bool.and_eq_false_iff, decide_eq_false_iff_not]
  omega

namespace Text

/-- The text of an integer is a sign, if any, and the digits of its magnitude. -/
theorem sign_ofInt (n : Int) :
    Numeral.sign (Text.ofInt n) = (decide (n < 0), (digitText n.natAbs).map .scalar) := by
  unfold Text.ofInt integerText
  split_ifs with hn
  · simp [Numeral.sign, hn]
  · obtain ⟨c, r, hc⟩ := List.exists_cons_of_ne_nil (digitText_ne_nil n.natAbs)
    have hd : c.isDigit = true := isDigit_of_mem_digitText (n := n.natAbs) (by simp [hc])
    rw [hc, List.map_cons, Numeral.sign_of_ne]
    · simp [hn]
    · rintro r' ⟨⟩
      simp at hd
    · rintro r' ⟨⟩
      simp at hd

theorem toNat_of_mem_integerText {n : Int} {c : Char} (h : c ∈ integerText n) :
    c = '-' ∨ c.isDigit = true := by
  unfold integerText at h
  split_ifs at h
  · exact (List.mem_cons.1 h).imp_right isDigit_of_mem_digitText
  · exact Or.inr (isDigit_of_mem_digitText h)

theorem trimSpaces_ofInt (n : Int) : (Text.ofInt n).trimSpaces = Text.ofInt n := by
  refine trimSpaces_of_forall fun c hc => ?_
  obtain ⟨d, hd, rfl⟩ := List.mem_map.1 hc
  refine CodePoint.isSpace_eq_false ?_
  rcases toNat_of_mem_integerText hd with rfl | hd
  · decide
  · have := toNat_of_isDigit hd
    omega

end Text

/-- The text of an integer is read as that integer. -/
theorem Numeral.readInt?_ofInt {limits : Limits} {n : Int}
    (h : limits.allowsDigits (Binary64.digitCount n.natAbs) = true) :
    readInt? limits (Text.ofInt n) = .ok n := by
  have hrun : ∀ c ∈ (digitText n.natAbs).map CodePoint.scalar, isRunMark c = true := by
    intro c hc
    obtain ⟨d, hd, rfl⟩ := List.mem_map.1 hc
    simp [isRunMark, CodePoint.digit?_of_isDigit (isDigit_of_mem_digitText hd)]
  have hdigits := digitRun?_digits (digitText_ne_nil n.natAbs) fun c => isDigit_of_mem_digitText
  unfold readInt?
  rw [Text.trimSpaces_ofInt, Text.sign_ofInt]
  simp only [List.span_eq_takeWhile_dropWhile, List.takeWhile_eq_self_iff.2 hrun,
    List.dropWhile_eq_nil_iff.2 hrun, hdigits, List.length_map, length_digitText, h,
    ofDigits_digitText, decide_eq_true_eq, ite_natAbs_eq]
  rfl

theorem Text.ofInt_injective : Function.Injective Text.ofInt := by
  intro a b h
  have hread (n : Int) : Numeral.readInt? .unbounded (Text.ofInt n) = .ok n :=
    Numeral.readInt?_ofInt rfl
  have ha := hread a
  rw [h, hread b] at ha
  exact (Except.ok.inj ha).symm

end Turmite
