import Turmite.Palette.Nearest
import Turmite.Proofs.Numerals

/-!
# Hexadecimal colors

A color is read from six code points, after a number sign or without one, pair by pair, and each
pair is read as a numeral of base sixteen. Two hexadecimal digits are one, and stand for a byte. But
so are a digit with a sign before it or a space on either side, and digits of other scripts: what a
pair may be is told by `Numeral.HexPair`, and which texts are read as colors then by
`Palette.ofHex?_accepts`.
-/

namespace Turmite

namespace CodePoint

open Numeral (hexDigit?)

/-! ## Digits and spaces -/

theorem digit?_eq_none {c : CodePoint}
    (h : ∀ start ∈ digitZeros, c.toNat < start ∨ start + 10 ≤ c.toNat) : c.digit? = none := by
  rw [digit?, List.find?_eq_none.2, Option.map_none]
  intro start hstart
  have := h start hstart
  simp only [Bool.and_eq_true, decide_eq_true_eq]
  omega

theorem hexLetter?_eq_some {c : CodePoint} {n : Nat} (h : c.hexLetter? = some n) :
    (0x41 ≤ c.toNat ∧ c.toNat ≤ 0x46 ∨ 0x61 ≤ c.toNat ∧ c.toNat ≤ 0x66) ∧ n < 16 := by
  unfold hexLetter? at h
  simp only at h
  split_ifs at h <;> cases h <;> omega

/-- A letter is no digit of any script. -/
theorem digit?_of_hexLetter? {c : CodePoint} {n : Nat} (h : c.hexLetter? = some n) :
    c.digit? = none := by
  have hzeros : ∀ start ∈ digitZeros, start + 10 ≤ 0x41 ∨ 0x66 < start := by decide
  have hletter := (hexLetter?_eq_some h).1
  refine digit?_eq_none fun start hstart => ?_
  have := hzeros start hstart
  omega

theorem hexDigit?_eq_some {c : CodePoint} {n : Nat} :
    hexDigit? c = some n ↔ c.digit? = some n ∨ c.hexLetter? = some n := by
  unfold hexDigit?
  cases hdigit : c.digit? with
  | none => simp
  | some m =>
    have hletter : c.hexLetter? ≠ some n := fun h => by
      rw [digit?_of_hexLetter? h] at hdigit
      cases hdigit
    simp [hletter]

theorem hexDigit?_lt {c : CodePoint} {n : Nat} (h : hexDigit? c = some n) : n < 16 := by
  rcases hexDigit?_eq_some.1 h with h | h
  · have := digit?_lt h
    omega
  · exact (hexLetter?_eq_some h).2

/-- A digit of base sixteen as it is written in a color: 0 to 9, a to f or A to F. -/
def IsHexDigit (c : CodePoint) (n : Nat) : Prop :=
  n < 16 ∧ (c = .scalar n.digitChar ∨ c = .scalar n.digitChar.toUpper)

theorem IsHexDigit.hexDigit? {c : CodePoint} {n : Nat} (h : c.IsHexDigit n) :
    hexDigit? c = some n := by
  have hread : ∀ k < 16, Numeral.hexDigit? (.scalar k.digitChar) = some k ∧
      Numeral.hexDigit? (.scalar k.digitChar.toUpper) = some k := by decide
  obtain ⟨hn, rfl | rfl⟩ := h
  exacts [(hread n hn).1, (hread n hn).2]

/-- A space is no digit. -/
theorem hexDigit?_of_isSpace {c : CodePoint} (h : c.isSpace = true) : hexDigit? c = none := by
  obtain ⟨⟨first, last⟩, hrange, hc⟩ := List.any_eq_true.1 h
  simp only [Bool.and_eq_true, decide_eq_true_eq] at hc
  have hzeros : ∀ range ∈ spaceRanges, ∀ start ∈ digitZeros,
      range.2 < start ∨ start + 10 ≤ range.1 := by decide
  have hletters : ∀ range ∈ spaceRanges,
      range.2 < 0x41 ∨ 0x46 < range.1 ∧ range.2 < 0x61 ∨ 0x66 < range.1 := by decide
  rw [Option.eq_none_iff_forall_ne_some]
  intro n hn
  rcases hexDigit?_eq_some.1 hn with hn | hn
  · rw [digit?_eq_none fun start hstart => by have := hzeros _ hrange start hstart; omega] at hn
    cases hn
  · have := hletters _ hrange
    have := (hexLetter?_eq_some hn).1
    omega

theorem isSpace_of_hexDigit? {c : CodePoint} {n : Nat} (h : hexDigit? c = some n) :
    c.isSpace = false := by
  cases hspace : c.isSpace with
  | false => rfl
  | true => cases (hexDigit?_of_isSpace hspace).symm.trans h

end CodePoint

namespace Text

/-! ## Spaces around two code points -/

theorem trimSpaces_pair (a b : CodePoint) : trimSpaces [a, b] =
    (if a.isSpace then [] else [a]) ++ (if b.isSpace then [] else [b]) := by
  unfold trimSpaces trimBy
  cases ha : a.isSpace <;> cases hb : b.isSpace <;> simp [ha, hb]

end Text

namespace Numeral

/-! ## Numerals of two code points -/

/-- What two code points denote in base sixteen: two digits, or one digit with a sign before it or
with a space beside it. -/
inductive HexPair : CodePoint → CodePoint → Int → Prop where
  | digits {a b : CodePoint} {m n : Nat} (ha : hexDigit? a = some m) (hb : hexDigit? b = some n) :
      HexPair a b (16 * m + n)
  | plus {b : CodePoint} {n : Nat} (hb : hexDigit? b = some n) : HexPair (.scalar '+') b n
  | minus {b : CodePoint} {n : Nat} (hb : hexDigit? b = some n) : HexPair (.scalar '-') b (-n)
  | spaceBefore {a b : CodePoint} {n : Nat} (ha : a.isSpace = true) (hb : hexDigit? b = some n) :
      HexPair a b n
  | spaceAfter {a b : CodePoint} {n : Nat} (ha : hexDigit? a = some n) (hb : b.isSpace = true) :
      HexPair a b n

theorem sign_cons_of_ne {c : CodePoint} (hminus : c ≠ .scalar '-') (hplus : c ≠ .scalar '+')
    (r : Text) : sign (c :: r) = (false, c :: r) :=
  sign_of_ne (fun _ h => hminus (List.cons.inj h).1) fun _ h => hplus (List.cons.inj h).1

/-- The digits of one code point, which may be none. -/
theorem digitRun?_dropHexMark_one (c : CodePoint) :
    digitRun? hexDigit? (dropHexMark [c]) = (hexDigit? c).map ([·]) := rfl

theorem digitRun?_two (a b : CodePoint) :
    digitRun? hexDigit? [a, b] = (hexDigit? a).bind fun m => (hexDigit? b).map fun n => [m, n] := by
  have hunderscore : hexDigit? (.scalar '_') = none := by decide
  simp only [digitRun?]
  split_ifs with hb
  · rw [hb, hunderscore]
    cases hexDigit? a <;> rfl
  · cases hexDigit? a <;> cases hexDigit? b <;> rfl

/-- The digits of two code points. A mark of the base has no digits behind it. -/
theorem digitRun?_dropHexMark_two (a b : CodePoint) : digitRun? hexDigit? (dropHexMark [a, b]) =
    (hexDigit? a).bind fun m => (hexDigit? b).map fun n => [m, n] := by
  rw [← digitRun?_two]
  cases b with
  | surrogate _ => rfl
  | scalar x =>
    simp only [dropHexMark]
    split_ifs with hmark
    · have hx : hexDigit? (.scalar x) = none := by
        rcases hmark.2 with rfl | rfl <;> decide
      rw [digitRun?_two, hx]
      cases hexDigit? a <;> rfl
    · rfl

/-- One code point denotes what it is as a digit; a sign alone denotes nothing. -/
theorem readHex?_of_trim_one {t : Text} {c : CodePoint} (h : t.trimSpaces = [c]) :
    readHex? t = (hexDigit? c).map fun n : Nat => (n : Int) := by
  unfold readHex?
  rw [h]
  by_cases hminus : c = .scalar '-'
  · subst hminus
    rfl
  · by_cases hplus : c = .scalar '+'
    · subst hplus
      rfl
    · rw [sign_cons_of_ne hminus hplus]
      cases hdigit : hexDigit? c <;> simp [digitRun?_dropHexMark_one, hdigit, ofDigits]

/-- A sign and a digit, or two digits. -/
theorem readHex?_of_trim_two {t : Text} {a b : CodePoint} (h : t.trimSpaces = [a, b]) :
    readHex? t =
      if a = .scalar '-' then (hexDigit? b).map fun n : Nat => -(n : Int)
      else if a = .scalar '+' then (hexDigit? b).map fun n : Nat => (n : Int)
      else (hexDigit? a).bind fun m : Nat =>
        (hexDigit? b).map fun n : Nat => 16 * (m : Int) + n := by
  unfold readHex?
  rw [h]
  split_ifs with hminus hplus
  · subst hminus
    show (digitRun? hexDigit? (dropHexMark [b])).map _ = _
    cases hdigit : hexDigit? b <;> simp [digitRun?_dropHexMark_one, hdigit, ofDigits]
  · subst hplus
    show (digitRun? hexDigit? (dropHexMark [b])).map _ = _
    cases hdigit : hexDigit? b <;> simp [digitRun?_dropHexMark_one, hdigit, ofDigits]
  · rw [sign_cons_of_ne hminus hplus]
    simp only [digitRun?_dropHexMark_two]
    cases hfirst : hexDigit? a <;> cases hsecond : hexDigit? b <;>
      simp [ofDigits, Int.mul_comm]

/-- What a pair is read as is what it denotes. -/
theorem hexPair_of_readHex? {a b : CodePoint} {n : Int} (h : readHex? [a, b] = some n) :
    HexPair a b n := by
  have htrim := Text.trimSpaces_pair a b
  cases ha : a.isSpace <;> cases hb : b.isSpace <;> simp only [ha, hb, if_true, if_false,
    Bool.false_eq_true, List.nil_append, List.append_nil, List.cons_append] at htrim
  case false.false =>
    rw [readHex?_of_trim_two htrim] at h
    split_ifs at h with hminus hplus
    · obtain ⟨k, hk, rfl⟩ := Option.map_eq_some_iff.1 h
      exact hminus ▸ .minus hk
    · obtain ⟨k, hk, rfl⟩ := Option.map_eq_some_iff.1 h
      exact hplus ▸ .plus hk
    · obtain ⟨j, hj, h⟩ := Option.bind_eq_some_iff.1 h
      obtain ⟨k, hk, rfl⟩ := Option.map_eq_some_iff.1 h
      exact .digits hj hk
  case false.true =>
    rw [readHex?_of_trim_one htrim] at h
    obtain ⟨k, hk, rfl⟩ := Option.map_eq_some_iff.1 h
    exact .spaceAfter hk hb
  case true.false =>
    rw [readHex?_of_trim_one htrim] at h
    obtain ⟨k, hk, rfl⟩ := Option.map_eq_some_iff.1 h
    exact .spaceBefore ha hk
  case true.true =>
    unfold readHex? at h
    rw [htrim] at h
    cases h

/-- What a pair denotes it is read as. -/
theorem HexPair.readHex? {a b : CodePoint} {n : Int} (h : HexPair a b n) :
    readHex? [a, b] = some n := by
  have hsign {c : CodePoint} {k : Nat} (hc : hexDigit? c = some k) :
      c ≠ .scalar '-' ∧ c ≠ .scalar '+' := by
    constructor <;> rintro rfl <;> cases hc
  have htwo {c d : CodePoint} {k : Nat} (hc : c.isSpace = false) (hd : hexDigit? d = some k) :
      Text.trimSpaces [c, d] = [c, d] := by
    rw [Text.trimSpaces_pair, hc, CodePoint.isSpace_of_hexDigit? hd]
    rfl
  cases h with
  | digits ha hb =>
    rw [readHex?_of_trim_two (htwo (CodePoint.isSpace_of_hexDigit? ha) hb), if_neg (hsign ha).1,
      if_neg (hsign ha).2, ha, hb]
    rfl
  | plus hb =>
    rw [readHex?_of_trim_two (htwo (by decide) hb), if_neg (by decide), if_pos rfl, hb]
    rfl
  | minus hb =>
    rw [readHex?_of_trim_two (htwo (by decide) hb), if_pos rfl, hb]
    rfl
  | spaceBefore ha hb =>
    have htrim : Text.trimSpaces [a, b] = [b] := by
      rw [Text.trimSpaces_pair, ha, CodePoint.isSpace_of_hexDigit? hb]
      rfl
    rw [readHex?_of_trim_one htrim, hb]
    rfl
  | spaceAfter ha hb =>
    have htrim : Text.trimSpaces [a, b] = [a] := by
      rw [Text.trimSpaces_pair, hb, CodePoint.isSpace_of_hexDigit? ha]
      rfl
    rw [readHex?_of_trim_one htrim, ha]
    rfl

/-- What a pair denotes is a byte or lies fifteen below zero at most. -/
theorem HexPair.bounds {a b : CodePoint} {n : Int} (h : HexPair a b n) : -15 ≤ n ∧ n ≤ 255 := by
  cases h with
  | digits ha hb =>
    have := CodePoint.hexDigit?_lt ha
    have := CodePoint.hexDigit?_lt hb
    omega
  | plus hb =>
    have := CodePoint.hexDigit?_lt hb
    omega
  | minus hb =>
    have := CodePoint.hexDigit?_lt hb
    omega
  | spaceBefore ha hb =>
    have := CodePoint.hexDigit?_lt hb
    omega
  | spaceAfter ha hb =>
    have := CodePoint.hexDigit?_lt ha
    omega

/-- A number sign is no part of a pair. -/
theorem HexPair.ne_numberSign {a b : CodePoint} {n : Int} (h : HexPair a b n) :
    a ≠ .scalar '#' := by
  rintro rfl
  cases h with
  | digits ha _ => cases ha
  | spaceBefore ha _ => cases ha
  | spaceAfter ha _ => cases ha

/-- Two hexadecimal digits, and the byte that they are. -/
def HexByte (a b : CodePoint) (n : Int) : Prop :=
  ∃ high low : Nat, a.IsHexDigit high ∧ b.IsHexDigit low ∧ n = 16 * high + low

theorem HexByte.hexPair {a b : CodePoint} {n : Int} (h : HexByte a b n) : HexPair a b n := by
  obtain ⟨high, low, ha, hb, rfl⟩ := h
  exact .digits ha.hexDigit? hb.hexDigit?

theorem HexByte.bounds {a b : CodePoint} {n : Int} (h : HexByte a b n) : 0 ≤ n ∧ n ≤ 255 := by
  obtain ⟨high, low, ha, hb, rfl⟩ := h
  have := ha.1
  have := hb.1
  omega

/-- A pair denotes the byte that its two digits are, where it has two digits. -/
theorem hexByte_iff {a b : CodePoint} {n : Int} :
    HexByte a b n ↔ HexPair a b n ∧ (∃ m, a.IsHexDigit m) ∧ ∃ m, b.IsHexDigit m := by
  constructor
  · intro h
    obtain ⟨high, low, ha, hb, -⟩ := id h
    exact ⟨h.hexPair, ⟨high, ha⟩, low, hb⟩
  · rintro ⟨hpair, ⟨high, ha⟩, low, hb⟩
    have hbyte : HexByte a b (16 * high + low) := ⟨high, low, ha, hb, rfl⟩
    have heq := hpair.readHex?.symm.trans hbyte.hexPair.readHex?
    exact Option.some.inj heq ▸ hbyte

end Numeral

namespace Palette

open Numeral (HexPair HexByte)

/-! ## Colors -/

/-- Three pairs of code points that denote the channels, after a number sign or without one. -/
def Spells (denotes : CodePoint → CodePoint → Int → Prop) (t : Text) (red green blue : Int) :
    Prop :=
  ∃ mark a b c d e f, (mark = [] ∨ mark = [CodePoint.scalar '#']) ∧ t = mark ++ [a, b, c, d, e, f] ∧
    denotes a b red ∧ denotes c d green ∧ denotes e f blue

/-- Why a text is no color: it has another length than six, or a pair that denotes nothing. -/
def hexRefusal (t : Text) : InvalidArgument :=
  if (dropNumberSign t).length = 6 then .hexDigits t else .hexLength t

theorem eq_append_dropNumberSign (t : Text) :
    ∃ mark, (mark = [] ∨ mark = [CodePoint.scalar '#']) ∧ t = mark ++ dropNumberSign t := by
  unfold dropNumberSign
  split
  · exact ⟨[.scalar '#'], .inr rfl, rfl⟩
  · exact ⟨[], .inl rfl, rfl⟩

theorem dropNumberSign_of_ne {c : CodePoint} (h : c ≠ .scalar '#') (r : Text) :
    dropNumberSign (c :: r) = c :: r := by
  rw [dropNumberSign.eq_2]
  rintro s ⟨⟩
  exact h rfl

theorem dropNumberSign_append {mark : Text} (hmark : mark = [] ∨ mark = [CodePoint.scalar '#'])
    {c : CodePoint} (h : c ≠ .scalar '#') (r : Text) :
    dropNumberSign (mark ++ c :: r) = c :: r := by
  obtain rfl | rfl := hmark
  · exact dropNumberSign_of_ne h r
  · rfl

/-- The six code points of a color stand behind the number sign. -/
theorem spells_hexPair_iff {t : Text} {red green blue : Int} :
    Spells HexPair t red green blue ↔ ∃ a b c d e f, dropNumberSign t = [a, b, c, d, e, f] ∧
      HexPair a b red ∧ HexPair c d green ∧ HexPair e f blue := by
  constructor
  · rintro ⟨mark, a, b, c, d, e, f, hmark, rfl, hred, hgreen, hblue⟩
    exact ⟨a, b, c, d, e, f, dropNumberSign_append hmark hred.ne_numberSign _, hred, hgreen, hblue⟩
  · rintro ⟨a, b, c, d, e, f, hdrop, hpairs⟩
    obtain ⟨mark, hmark, ht⟩ := eq_append_dropNumberSign t
    exact ⟨mark, a, b, c, d, e, f, hmark, hdrop ▸ ht, hpairs⟩

theorem ofHex?_of_spells {t : Text} {red green blue : Int} (h : Spells HexPair t red green blue) :
    ofHex? t = .ok [Float.ofInt red, Float.ofInt green, Float.ofInt blue] := by
  obtain ⟨a, b, c, d, e, f, hdrop, hred, hgreen, hblue⟩ := spells_hexPair_iff.1 h
  simp only [ofHex?, hdrop, hred.readHex?, hgreen.readHex?, hblue.readHex?]

/-- A text is a color or refused. -/
theorem spells_or_ofHex?_eq_error (t : Text) :
    (∃ red green blue, Spells HexPair t red green blue) ∨
      ofHex? t = .error (.invalidArgument (hexRefusal t)) := by
  unfold ofHex? hexRefusal
  split
  · rename_i a b c d e f hdrop
    split
    · rename_i red green blue hred hgreen hblue
      exact .inl ⟨red, green, blue, spells_hexPair_iff.2 ⟨a, b, c, d, e, f, hdrop,
        Numeral.hexPair_of_readHex? hred, Numeral.hexPair_of_readHex? hgreen,
        Numeral.hexPair_of_readHex? hblue⟩⟩
    · rw [if_pos (by rw [hdrop]; rfl)]
      exact .inr rfl
  · rename_i hdrop
    rw [if_neg]
    · exact .inr rfl
    · intro hlength
      obtain ⟨a, b, c, d, e, f, h⟩ : ∃ a b c d e f, dropNumberSign t = [a, b, c, d, e, f] := by
        match h : dropNumberSign t, hlength with
        | [a, b, c, d, e, f], _ => exact ⟨a, b, c, d, e, f, rfl⟩
      exact hdrop a b c d e f h

theorem spells_hexByte_iff {t : Text} {red green blue : Int} :
    Spells HexByte t red green blue ↔ Spells HexPair t red green blue ∧
      ∀ c ∈ dropNumberSign t, ∃ n, c.IsHexDigit n := by
  constructor
  · rintro ⟨mark, a, b, c, d, e, f, hmark, rfl, hred, hgreen, hblue⟩
    refine ⟨⟨mark, a, b, c, d, e, f, hmark, rfl, hred.hexPair, hgreen.hexPair, hblue.hexPair⟩, ?_⟩
    rw [dropNumberSign_append hmark hred.hexPair.ne_numberSign]
    simp only [List.forall_mem_cons]
    exact ⟨(Numeral.hexByte_iff.1 hred).2.1, (Numeral.hexByte_iff.1 hred).2.2,
      (Numeral.hexByte_iff.1 hgreen).2.1, (Numeral.hexByte_iff.1 hgreen).2.2,
      (Numeral.hexByte_iff.1 hblue).2.1, (Numeral.hexByte_iff.1 hblue).2.2,
      List.forall_mem_nil _⟩
  · rintro ⟨⟨mark, a, b, c, d, e, f, hmark, rfl, hred, hgreen, hblue⟩, hdigits⟩
    rw [dropNumberSign_append hmark hred.ne_numberSign] at hdigits
    simp only [List.forall_mem_cons] at hdigits
    obtain ⟨ha, hb, hc, hd, he, hf, -⟩ := hdigits
    exact ⟨mark, a, b, c, d, e, f, hmark, rfl, Numeral.hexByte_iff.2 ⟨hred, ha, hb⟩,
      Numeral.hexByte_iff.2 ⟨hgreen, hc, hd⟩, Numeral.hexByte_iff.2 ⟨hblue, he, hf⟩⟩

/-- A text is read as a color exactly if it has three pairs that denote numbers, which may lie below
zero; all other texts are refused, for their length or for their digits. Six hexadecimal digits are
such pairs and denote bytes, and where something else than a digit is among the six code points, the
text is no color although it may be read as one. -/
theorem ofHex?_accepts (t : Text) :
    (∀ channels, ofHex? t = .ok channels ↔ ∃ red green blue, Spells HexPair t red green blue ∧
      channels = [Float.ofInt red, Float.ofInt green, Float.ofInt blue]) ∧
    (∀ e, ofHex? t = .error e ↔ (∀ red green blue, ¬ Spells HexPair t red green blue) ∧
      e = .invalidArgument (hexRefusal t)) ∧
    (∀ red green blue, Spells HexPair t red green blue →
      ∀ n ∈ [red, green, blue], -15 ≤ n ∧ n ≤ 255) ∧
    (∀ red green blue, Spells HexByte t red green blue ↔ Spells HexPair t red green blue ∧
      ∀ c ∈ dropNumberSign t, ∃ n, c.IsHexDigit n) ∧
    (∀ red green blue, Spells HexByte t red green blue →
      ∀ n ∈ [red, green, blue], 0 ≤ n ∧ n ≤ 255) := by
  have hboth (channels : Channels) {e : Error} (hok : ofHex? t = .ok channels)
      (herror : ofHex? t = .error e) : False := by
    rw [hok] at herror
    cases herror
  refine ⟨fun channels => ?_, fun e => ?_, ?_, fun _ _ _ => spells_hexByte_iff, ?_⟩
  · constructor
    · intro h
      rcases spells_or_ofHex?_eq_error t with ⟨red, green, blue, hspells⟩ | herror
      · have heq := (ofHex?_of_spells hspells).symm.trans h
        exact ⟨red, green, blue, hspells, (Except.ok.inj heq).symm⟩
      · exact (hboth _ h herror).elim
    · rintro ⟨red, green, blue, hspells, rfl⟩
      exact ofHex?_of_spells hspells
  · constructor
    · intro h
      refine ⟨fun red green blue hspells => hboth _ (ofHex?_of_spells hspells) h, ?_⟩
      rcases spells_or_ofHex?_eq_error t with ⟨red, green, blue, hspells⟩ | herror
      · exact (hboth _ (ofHex?_of_spells hspells) h).elim
      · exact Except.error.inj (h.symm.trans herror)
    · rintro ⟨hnone, rfl⟩
      refine (spells_or_ofHex?_eq_error t).resolve_left ?_
      rintro ⟨red, green, blue, hspells⟩
      exact hnone red green blue hspells
  · rintro red green blue ⟨_, a, b, c, d, e, f, -, -, hred, hgreen, hblue⟩
    simpa using ⟨hred.bounds, hgreen.bounds, hblue.bounds⟩
  · rintro red green blue ⟨_, a, b, c, d, e, f, -, -, hred, hgreen, hblue⟩
    simpa using ⟨hred.bounds, hgreen.bounds, hblue.bounds⟩

/-- A color of capital and small digits behind a number sign. -/
theorem ofHex?_accepts_orange :
    Spells HexByte ("#fFa500" : Text) 255 165 0 ∧
      ofHex? ("#fFa500" : Text) = .ok [Float.ofInt 255, Float.ofInt 165, Float.ofInt 0] ∧
      ∀ n ∈ [(255 : Int), 165, 0], 0 ≤ n ∧ n ≤ 255 := by
  have hspells : Spells HexByte ("#fFa500" : Text) 255 165 0 := by
    refine ⟨[.scalar '#'], .scalar 'f', .scalar 'F', .scalar 'a', .scalar '5', .scalar '0',
      .scalar '0', .inr rfl, by decide, ⟨15, 15, ?_⟩, ⟨10, 5, ?_⟩, ⟨0, 0, ?_⟩⟩ <;>
    · unfold CodePoint.IsHexDigit
      decide
  obtain ⟨haccepts, -, -, hbyte, hbounds⟩ := ofHex?_accepts ("#fFa500" : Text)
  exact ⟨hspells, (haccepts _).2 ⟨255, 165, 0, ((hbyte 255 165 0).1 hspells).1, rfl⟩,
    hbounds 255 165 0 hspells⟩

/-- Signs take the place of digits, and the channels lie below zero. -/
theorem ofHex?_signs :
    ofHex? ("-f-f-f" : Text) = .ok [Float.ofInt (-15), Float.ofInt (-15), Float.ofInt (-15)] ∧
      ∀ red green blue, ¬ Spells HexByte ("-f-f-f" : Text) red green blue := by
  have hpair : HexPair (.scalar '-') (.scalar 'f') (-15) := .minus (n := 15) (by decide)
  refine ⟨ofHex?_of_spells ⟨[], _, _, _, _, _, _, .inl rfl, by decide, hpair, hpair, hpair⟩,
    fun red green blue hspells => ?_⟩
  obtain ⟨n, hn⟩ := (spells_hexByte_iff.1 hspells).2 (.scalar '-') (by decide)
  cases hn.hexDigit?

end Palette

end Turmite
