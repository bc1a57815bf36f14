import Turmite.Json.Parser
import Turmite.Json.Printer
import Turmite.Proofs.Numerals

/-!
# Numbers in JSON texts

A written number is one token, whatever follows it that does not go on with a number: the text of an
integer is that integer (`next?_integerText`), the text of any other number one number
(`exists_next?_numberText`). Digits are read as far as they go; shortest texts have a fraction or an
exponent (`Decimal.isDecimal_positive`), for the digits of a value that is not zero are not zero and
so do not start with one.
-/

namespace Turmite

/-! ## Numbers with a fraction or an exponent -/

namespace Json.Token

/-- No character that goes on with a number stands in front. -/
def EndsNumber (rest : List Char) : Prop :=
  ∀ c ∈ rest.head?, c.isDigit = false ∧ c ≠ '.' ∧ c ≠ 'e' ∧ c ≠ 'E'

theorem endsNumber_nil : EndsNumber [] := by
  intro c hc
  simp at hc

theorem endsNumber_cons {c : Char} (rest : List Char)
    (h : c.isDigit = false ∧ c ≠ '.' ∧ c ≠ 'e' ∧ c ≠ 'E') : EndsNumber (c :: rest) := by
  intro d hd
  obtain rfl := Option.some.inj hd
  exact h

/-- Digits, at least one. -/
structure IsRun (digits : List Char) : Prop where
  ne_nil : digits ≠ []
  isDigit : ∀ c ∈ digits, c.isDigit = true

theorem isRun_digitText (n : Nat) : IsRun (digitText n) :=
  ⟨digitText_ne_nil n, fun _ => isDigit_of_mem_digitText⟩

theorem IsRun.zeros_append {digits : List Char} (h : IsRun digits) (count : Nat) :
    IsRun (List.replicate count '0' ++ digits) where
  ne_nil := List.append_ne_nil_of_right_ne_nil _ h.ne_nil
  isDigit c hc := by
    rcases List.mem_append.1 hc with hc | hc
    · rw [List.eq_of_mem_replicate hc]
      rfl
    · exact h.isDigit c hc

/-- A run is read up to what does not go on with it. -/
theorem IsRun.span_append {digits rest : List Char} (h : IsRun digits)
    (hr : ∀ c ∈ rest.head?, c.isDigit = false) :
    (digits ++ rest).span Char.isDigit = (digits, rest) := by
  rw [List.span_eq_takeWhile_dropWhile, List.takeWhile_append_of_pos h.isDigit,
    List.dropWhile_append_of_pos h.isDigit]
  cases rest with
  | nil => simp
  | cons c r =>
    have hc : ¬ c.isDigit = true := by simp [hr c rfl]
    rw [List.takeWhile_cons_of_neg hc, List.dropWhile_cons_of_neg hc, List.append_nil]

/-- Digits that may stand before a point: a zero only alone. -/
structure IsWhole (digits : List Char) : Prop extends IsRun digits where
  zero : ∀ r, digits = '0' :: r → r = []

theorem isWhole_digitText (n : Nat) : IsWhole (digitText n) where
  toIsRun := isRun_digitText n
  zero r h := by
    by_cases hn : n = 0
    · subst hn
      exact (List.cons.inj h).2.symm
    · exact absurd h (digitText_ne_zero_cons hn r)

theorem whole?_append {whole : List Char} (h : IsWhole whole) (rest : List Char)
    (hr : ∀ c ∈ rest.head?, c.isDigit = false) : whole? (whole ++ rest) = some (whole, rest) := by
  obtain ⟨c, r, rfl⟩ := List.exists_cons_of_ne_nil h.ne_nil
  by_cases hc : c = '0'
  · subst hc
    obtain rfl := h.zero r rfl
    rfl
  · have hspan := h.span_append hr
    rw [List.cons_append] at hspan ⊢
    rw [whole?]
    · simp only [hspan, List.isEmpty_cons, Bool.false_eq_true, if_false]
    · rintro s ⟨⟩
      exact hc rfl

theorem fraction_of_head?_ne (rest : List Char) (h : ∀ c ∈ rest.head?, c ≠ '.') :
    fraction rest = ([], rest) := by
  rw [fraction]
  rintro r rfl
  exact h '.' rfl rfl

theorem fraction_point {digits : List Char} (h : IsRun digits) (rest : List Char)
    (hr : ∀ c ∈ rest.head?, c.isDigit = false) :
    fraction ('.' :: (digits ++ rest)) = (digits, rest) := by
  simp only [fraction, h.span_append hr, List.isEmpty_iff, h.ne_nil, if_false]

theorem exponent_of_head?_ne {rest : List Char} (h : ∀ c ∈ rest.head?, c ≠ 'e' ∧ c ≠ 'E') :
    exponent rest = (none, rest) := by
  cases rest with
  | nil => rfl
  | cons c r =>
    have := h c rfl
    simp [exponent, this]

theorem exponent_sign {sign : Char} {digits rest : List Char} (hs : sign = '-' ∨ sign = '+')
    (h : IsRun digits) (hr : ∀ c ∈ rest.head?, c.isDigit = false) :
    exponent ('e' :: sign :: (digits ++ rest)) =
      (some (if sign = '-' then -(ofDigits digits : Int) else ofDigits digits), rest) := by
  rcases hs with rfl | rfl <;>
    simp only [exponent, exponentSign, h.span_append hr, List.isEmpty_iff, h.ne_nil, if_false] <;>
    simp

theorem number?_integer (limits : Limits) (negative : Bool) {digits rest : List Char}
    (h : IsWhole digits) (hr : EndsNumber rest) :
    number? limits negative (digits ++ rest) = some (integer limits negative digits, rest) := by
  have hw := whole?_append h rest fun c hc => (hr c hc).1
  have hf := fraction_of_head?_ne rest fun c hc => (hr c hc).2.1
  have he := exponent_of_head?_ne fun c hc => (hr c hc).2.2
  simp [number?, hw, hf, he]

/-- The texts of numbers that are no integers: digits, and a fraction or an exponent or both. -/
inductive IsDecimal : List Char → Prop
  | fraction {whole part : List Char} (hw : IsWhole whole) (hp : IsRun part) :
    IsDecimal (whole ++ '.' :: part)
  | power {whole digits : List Char} {sign : Char} (hw : IsWhole whole)
    (hs : sign = '-' ∨ sign = '+') (hd : IsRun digits) : IsDecimal (whole ++ 'e' :: sign :: digits)
  | scientific {whole part digits : List Char} {sign : Char} (hw : IsWhole whole) (hp : IsRun part)
    (hs : sign = '-' ∨ sign = '+') (hd : IsRun digits) :
    IsDecimal (whole ++ '.' :: (part ++ 'e' :: sign :: digits))

/-- The text of a number that is no integer is read as one number, whatever follows it. -/
theorem IsDecimal.number? {s : List Char} (h : IsDecimal s) (negative : Bool) :
    ∃ x, ∀ limits rest, EndsNumber rest →
      number? limits negative (s ++ rest) = some (scalar (.float x), rest) := by
  cases h with
  | @fraction whole part hw hp =>
    refine ⟨Binary64.ofDecimal negative (ofDigits (whole ++ part)) (0 - part.length),
      fun limits rest hr => ?_⟩
    have hw := whole?_append hw ('.' :: (part ++ rest)) (by simp)
    have hf := fraction_point hp rest fun c hc => (hr c hc).1
    have he := exponent_of_head?_ne fun c hc => (hr c hc).2.2
    simp [Token.number?, hw, hf, he, hp.ne_nil]
  | @power whole digits sign hw hs hd =>
    refine ⟨Binary64.ofDecimal negative (ofDigits whole)
      (if sign = '-' then -(ofDigits digits : Int) else ofDigits digits), fun limits rest hr => ?_⟩
    have hw := whole?_append hw ('e' :: sign :: (digits ++ rest)) (by simp)
    have hf := fraction_of_head?_ne ('e' :: sign :: (digits ++ rest)) (by simp)
    have he := exponent_sign hs hd fun c hc => (hr c hc).1
    simp [Token.number?, hw, hf, he]
  | @scientific whole part digits sign hw hp hs hd =>
    refine ⟨Binary64.ofDecimal negative (ofDigits (whole ++ part))
      ((if sign = '-' then -(ofDigits digits : Int) else ofDigits digits) - part.length),
      fun limits rest hr => ?_⟩
    have hw := whole?_append hw ('.' :: (part ++ 'e' :: sign :: (digits ++ rest))) (by simp)
    have hf := fraction_point hp ('e' :: sign :: (digits ++ rest)) (by simp)
    have he := exponent_sign hs hd fun c hc => (hr c hc).1
    simp [Token.number?, hw, hf, he]

end Json.Token

/-! ## Shortest texts -/

namespace Decimal

open Json.Token

/-- Zero is not in the interval of a value that is not zero. -/
theorem readsBack_zero {m : Nat} (hm : m ≠ 0) (e place : Int) : readsBack m e 0 place = false := by
  have hlow : 0 < (interval m e).1 := by
    unfold interval
    split_ifs <;> simp <;> omega
  have hunit : 0 < 1 * Nat.pow 2 (- -e).toNat * Nat.pow 10 (-place).toNat :=
    Nat.mul_pos (Nat.mul_pos Nat.one_pos (Nat.pow_pos (by decide))) (Nat.pow_pos (by decide))
  have hends := Nat.mul_pos hlow hunit
  simp only [readsBack, Binary64.scaled, Nat.mul_zero, Nat.zero_mul, Nat.not_lt_zero,
    Nat.not_le.2 hends, decide_false, Bool.false_and, ite_self]

theorem onGrid?_digits_ne_zero {m : Nat} {e place : Int} {d : Digits} (hm : m ≠ 0)
    (h : onGrid? m e place = some d) : d.digits ≠ 0 := by
  intro hd
  have hback : readsBack m e d.digits place = true := by
    simp only [onGrid?] at h
    split_ifs at h with h1 h2 <;> cases h <;> assumption
  rw [hd, readsBack_zero hm] at hback
  cases hback

theorem Digits.stripped_digits_ne_zero {d : Digits} (h : d.digits ≠ 0) : d.stripped.digits ≠ 0 := by
  fun_induction Digits.stripped d with
  | case1 d hd ih => exact ih (by simp only; omega)
  | case2 d hd => exact h

/-- A value that is not zero has no digits that are zero; where no grid is found there is a lone
zero. -/
theorem shortest_exponent_eq_zero {m : Nat} {e : Int} (hm : m ≠ 0)
    (h : (shortest m e).digits = 0) : (shortest m e).exponent = 0 := by
  simp only [shortest] at h ⊢
  generalize hfound : List.findSome? _ _ = found at h ⊢
  cases found with
  | none =>
    rw [Option.getD_none, Digits.stripped, dif_neg (by simp)]
  | some d =>
    obtain ⟨k, -, hk⟩ := List.exists_of_findSome?_eq_some hfound
    exact absurd h (Digits.stripped_digits_ne_zero (onGrid?_digits_ne_zero hm hk))

theorem isRun_exponentDigits (n : Nat) :
    IsRun (List.replicate (2 - (digitText n).length) '0' ++ digitText n) :=
  (isRun_digitText n).zeros_append _

theorem exponentText_eq (exponent : Int) : ∃ sign digits,
    exponentText exponent = 'e' :: sign :: digits ∧ (sign = '-' ∨ sign = '+') ∧ IsRun digits :=
  ⟨_, _, rfl, by split_ifs <;> simp, isRun_exponentDigits _⟩

/-- The first digits of a number may stand before a point, but for a zero and what follows it. -/
theorem isWhole_take {n count : Nat} (hc : count ≠ 0) (h : n ≠ 0 ∨ count = 1) :
    IsWhole ((digitText n).take count) where
  ne_nil := by simp [hc, digitText_ne_nil]
  isDigit c hc := isDigit_of_mem_digitText (List.mem_of_mem_take hc)
  zero r hr := by
    rcases h with h | rfl
    · obtain ⟨c, s, hs⟩ := List.exists_cons_of_ne_nil (digitText_ne_nil n)
      obtain ⟨k, rfl⟩ := Nat.exists_eq_succ_of_ne_zero hc
      rw [hs, List.take_succ_cons] at hr
      exact absurd (hs.trans (by rw [(List.cons.inj hr).1])) (digitText_ne_zero_cons h s)
    · have := congrArg List.length hr
      rw [List.length_take, List.length_cons] at this
      exact List.eq_nil_of_length_eq_zero (by omega)

theorem isRun_drop {n count : Nat} (h : count < (digitText n).length) :
    IsRun ((digitText n).drop count) where
  ne_nil := by simpa using h
  isDigit c hc := isDigit_of_mem_digitText (List.mem_of_mem_drop hc)

/-- The shortest text of a positive number has a fraction or an exponent. -/
theorem isDecimal_positive (style : Style) {d : Digits} (h : d.digits = 0 → d.exponent = 0) :
    IsDecimal (style.positive d) := by
  have hlength := List.length_pos_iff.2 (digitText_ne_nil d.digits)
  simp only [Style.positive]
  split_ifs with hrange hone hneg hexp
  · obtain ⟨sign, digits, he, hs, hd⟩ := exponentText_eq
      (d.exponent + ((digitText d.digits).length - 1 : Nat))
    rw [he]
    exact .power (isWhole_digitText _) hs hd
  · obtain ⟨sign, digits, he, hs, hd⟩ := exponentText_eq
      (d.exponent + ((digitText d.digits).length - 1 : Nat))
    rw [he, pointed, List.append_assoc, List.cons_append]
    exact .scientific (isWhole_take (by decide) (.inr rfl)) (isRun_drop (by omega)) hs hd
  · have hzero : IsWhole ['0'] := isWhole_digitText 0
    exact .fraction hzero ((isRun_digitText _).zeros_append _)
  · -- Zeros follow the digits, so these are not a zero themselves.
    have hwhole : IsWhole (digitText d.digits ++ List.replicate d.exponent.toNat '0') := by
      refine ⟨⟨List.append_ne_nil_of_left_ne_nil (digitText_ne_nil _) _, fun c hc => ?_⟩,
        fun r hr => ?_⟩
      · rcases List.mem_append.1 hc with hc | hc
        · exact isDigit_of_mem_digitText hc
        · rw [List.eq_of_mem_replicate hc]
          rfl
      · by_cases hz : d.digits = 0
        · rw [hz, h hz] at hr
          exact (List.cons.inj hr).2.symm
        · obtain ⟨c, s, hs⟩ := List.exists_cons_of_ne_nil (digitText_ne_nil d.digits)
          rw [hs, List.cons_append] at hr
          exact absurd (hs.trans (by rw [(List.cons.inj hr).1])) (digitText_ne_zero_cons hz s)
    exact .fraction hwhole ⟨by simp, by simp⟩
  · have hdigits : d.digits ≠ 0 := fun hz => hexp (Int.le_of_eq (h hz).symm)
    exact .fraction (isWhole_take (by omega) (.inl hdigits)) (isRun_drop (by omega))

end Decimal

/-! ## Tokens -/

namespace Json.Token

variable (limits : Limits)

theorem next?_digit {c : Char} (h : c.isDigit = true) (r : List Char) :
    next? limits (c :: r) = number? limits false (c :: r) := by
  have hne {d : Char} {s : List Char} (hd : d.isDigit = false) : c :: r ≠ d :: s := by
    intro he
    rw [(List.cons.inj he).1, hd] at h
    cases h
  -- Every other reading wants a character in front that is no digit.
  rw [next?]
  · exact List.cons_ne_nil c r
  all_goals exact fun _ => hne (by decide)

theorem next?_minus_digit {c : Char} (h : c.isDigit = true) (r : List Char) :
    next? limits ('-' :: c :: r) = number? limits true (c :: r) := by
  rw [next?]
  rintro s ⟨⟩
  simp at h

/-- A number is read under its sign. -/
theorem next?_signText {s : List Char} (negative : Bool) (h : ∃ c r, s = c :: r ∧ c.isDigit = true)
    (rest : List Char) : next? limits (Decimal.signText negative ++ s ++ rest) =
      number? limits negative (s ++ rest) := by
  obtain ⟨c, r, rfl, hc⟩ := h
  cases negative
  · exact next?_digit limits hc _
  · exact next?_minus_digit limits hc _

theorem IsRun.exists_cons {digits : List Char} (h : IsRun digits) (rest : List Char) :
    ∃ c r, digits ++ rest = c :: r ∧ c.isDigit = true := by
  obtain ⟨c, r, rfl⟩ := List.exists_cons_of_ne_nil h.ne_nil
  exact ⟨c, r ++ rest, rfl, h.isDigit c List.mem_cons_self⟩

theorem IsDecimal.exists_cons {s : List Char} (h : IsDecimal s) :
    ∃ c r, s = c :: r ∧ c.isDigit = true := by
  cases h with
  | fraction hw hp => exact hw.exists_cons _
  | power hw hs hd => exact hw.exists_cons _
  | scientific hw hp hs hd => exact hw.exists_cons _

theorem integerText_eq (n : Int) :
    integerText n = Decimal.signText (decide (n < 0)) ++ digitText n.natAbs := by
  by_cases h : n < 0 <;> simp [integerText, Decimal.signText, h]

/-- The text of an integer is read as that integer. -/
theorem next?_integerText {n : Int} {rest : List Char}
    (h : limits.allowsDigits (Binary64.digitCount n.natAbs) = true) (hr : EndsNumber rest) :
    next? limits (integerText n ++ rest) = some (scalar (.int n), rest) := by
  have hs : ∃ c r, digitText n.natAbs = c :: r ∧ c.isDigit = true := by
    simpa using (isRun_digitText n.natAbs).exists_cons []
  rw [integerText_eq, next?_signText limits _ hs, number?_integer _ _ (isWhole_digitText _) hr]
  simp only [integer, length_digitText, h, if_true, ofDigits_digitText, decide_eq_true_eq,
    ite_natAbs_eq]

/-- The text of a number is read as one number, whatever follows it. -/
theorem exists_next?_numberText (x : Float) :
    ∃ y, ∀ limits rest, EndsNumber rest →
      next? limits (numberStyle.text x ++ rest) = some (scalar (.float y), rest) := by
  unfold Decimal.Style.text
  split
  · exact ⟨_, fun _ _ _ => rfl⟩
  · rename_i negative _
    cases negative
    · exact ⟨_, fun _ _ _ => rfl⟩
    · exact ⟨_, fun _ _ _ => rfl⟩
  · have hzero : IsWhole ['0'] := isWhole_digitText 0
    have h : IsDecimal ['0', '.', '0'] := .fraction hzero hzero.toIsRun
    obtain ⟨y, hy⟩ := h.number? _
    exact ⟨y, fun limits rest hr =>
      (next?_signText limits _ h.exists_cons rest).trans (hy limits rest hr)⟩
  · rename_i m e hm _
    have h := Decimal.isDecimal_positive numberStyle
      (Decimal.shortest_exponent_eq_zero (m := m) (e := e) (by rintro rfl; exact hm rfl))
    obtain ⟨y, hy⟩ := h.number? _
    exact ⟨y, fun limits rest hr =>
      (next?_signText limits _ h.exists_cons rest).trans (hy limits rest hr)⟩

end Json.Token
end Turmite
