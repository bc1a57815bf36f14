import Turmite.Proofs.Escapes
import Turmite.Proofs.FloatProduct
import Turmite.Proofs.Numerals

/-!
# Constants that are above zero

Constants are refused when they compare at most zero. What is no number compares neither way, so it
passes, and it can be written in a document: as the word for it, bare or in a text
(`Json.SpellsNotANumber`). No other value comes to no number. So what is loaded is above zero
exactly if neither entry of the document says that it is no number
(`CalibrationConstants.load?_above_zero`).
-/

namespace Turmite

namespace Binary64

open Float.Model (UnpackedFloat Format)
open Float.Model.UnpackedFloat

/-! ## What is no number -/

/-- The bits of what is no number: an exponent of ones, and some fraction. -/
theorem isNaN_unpack (b : BitVec Format.binary64.numBits) :
    (unpack .binary64 b).isNaN = true ↔ unpackExponent b = -1#_ ∧ unpackMantissa b ≠ 0#_ := by
  unfold unpack
  by_cases hexponent : unpackExponent b = -1#_
  · by_cases hmantissa : unpackMantissa b = 0#_
    · simp only [if_pos hexponent, if_pos hmantissa]
      exact ⟨fun h => (by cases h), fun h => absurd hmantissa h.2⟩
    · simp only [if_pos hexponent, if_neg hmantissa]
      exact ⟨fun _ => ⟨hexponent, hmantissa⟩, fun _ => rfl⟩
  · simp only [if_neg hexponent]
    refine ⟨fun h => ?_, fun h => absurd h.1 hexponent⟩
    split_ifs at h <;> cases h

/-- A number stays one when it is packed, if only an infinity. -/
theorem isNaN_unpack_pack (u : UnpackedFloat) :
    (unpack .binary64 (pack .binary64 u)).isNaN = u.isNaN := by
  cases u with
  | infinity s => cases s <;> rfl
  | notANumber => rfl
  | zero s => cases s <;> rfl
  | finite s m e h =>
    rw [Bool.eq_iff_iff, isNaN_unpack]
    refine ⟨fun hbits => ?_, fun h => (by cases h)⟩
    obtain ⟨hexponent, hmantissa⟩ := hbits
    unfold pack at hexponent hmantissa
    simp only at hexponent hmantissa
    split_ifs at hexponent hmantissa with hlarge hnormal
    · exact absurd unpackMantissa_packComponents hmantissa
    · -- the exponent is below the one of infinities
      rw [unpackExponent_packComponents] at hexponent
      have hfield := congrArg BitVec.toNat hexponent
      have hones : (-BitVec.ofNat Format.binary64.exponentBits 1).toNat = 2047 := rfl
      rw [hones, BitVec.toNat_ofNat] at hfield
      omega
    · rw [unpackExponent_packComponents] at hexponent
      exact absurd hexponent (by decide)

/-- A magnitude up to infinity is a number, under either sign. -/
theorem isNaN_ofBits (negative : Bool) {bits : Nat} (h : bits ≤ infinityBits) :
    (ofBits negative bits).isNaN = false := by
  unfold infinityBits at h
  unfold ofBits
  generalize hword : UInt64.ofNat ((if negative then signBit else 0) + bits) = word
  have hbits : word.toBitVec.toNat = (if negative then 2 ^ 63 else 0) + bits := by
    have hmod : word.toBitVec.toNat = ((if negative then 2 ^ 63 else 0) + bits) % 2 ^ 64 := by
      rw [← hword]
      rfl
    split_ifs at * <;> omega
  show (unpack .binary64 (pack .binary64 (unpack .binary64 word.toBitVec))).isNaN = false
  rw [isNaN_unpack_pack, Bool.eq_false_iff, Ne, isNaN_unpack]
  rintro ⟨hexponent, hmantissa⟩
  refine hmantissa (BitVec.eq_of_toNat_eq ?_)
  have hfield := congrArg BitVec.toNat hexponent
  have hones : (-BitVec.ofNat Format.binary64.exponentBits 1).toNat = 2047 := rfl
  unfold unpackExponent at hfield
  unfold unpackMantissa
  rw [hones, BitVec.toNat_cast, BitVec.extractLsb_toNat, Nat.shiftRight_eq_div_pow] at hfield
  rw [BitVec.toNat_cast, BitVec.extractLsb_toNat]
  change word.toBitVec.toNat / 2 ^ 52 % 2 ^ 11 = 2047 at hfield
  show word.toBitVec.toNat % 2 ^ 52 = 0
  split_ifs at hbits <;> omega

theorem isNaN_of_ofInt? {n : Int} {x : Float} (h : ofInt? n = some x) : x.isNaN = false := by
  unfold ofInt? ofRatio? at h
  simp only at h
  split_ifs at h with hbits
  cases h
  exact isNaN_ofBits _ (Nat.le_of_lt hbits)

theorem isNaN_ofDecimal (negative : Bool) (digits : Nat) (exponent : Int) :
    (ofDecimal negative digits exponent).isNaN = false := by
  refine isNaN_ofBits negative ?_
  split_ifs
  · exact Nat.zero_le _
  · exact Nat.le_refl _
  · exact Nat.min_le_left _ _

theorem not_le_zero (u : UnpackedFloat) : (!u.le (.zero .positive)) =
    (UnpackedFloat.lt (.zero .positive) u || u.isNaN) := by
  cases u with
  | infinity s => cases s <;> rfl
  | notANumber => rfl
  | zero s => rfl
  | finite s m e h => cases s <;> rfl

/-- Zero is compared with every number, and with nothing else. -/
theorem not_le_zero_iff {x : Float} : ¬ x ≤ 0.0 ↔ 0.0 < x ∨ x.isNaN = true := by
  have hzero : (0.0 : Float).toModel.unpack = .zero .positive := rfl
  show ¬ decide (x.toModel.unpack.le (0.0 : Float).toModel.unpack) = true ↔
    decide ((0.0 : Float).toModel.unpack.lt x.toModel.unpack) = true ∨
      x.toModel.unpack.isNaN = true
  rw [hzero, decide_eq_true_iff, decide_eq_true_iff, ← Bool.or_eq_true, ← not_le_zero,
    Bool.not_eq_true, Bool.not_eq_true']

theorem not_zero_lt_of_isNaN {x : Float} (h : x.isNaN = true) : ¬ 0.0 < x := by
  have hzero : (0.0 : Float).toModel.unpack = .zero .positive := rfl
  change x.toModel.unpack.isNaN = true at h
  show ¬ decide ((0.0 : Float).toModel.unpack.lt x.toModel.unpack) = true
  rw [hzero]
  cases hx : x.toModel.unpack with
  | notANumber => decide
  | _ =>
    rw [hx] at h
    cases h

end Binary64

namespace Numeral

/-! ## Numerals for no number -/

/-- The word for no number, in capital or small letters, with a sign or without one. -/
def SpellsNotANumber (t : Text) : Prop :=
  ∃ mark word : Text, (mark = [] ∨ mark = ("+" : Text) ∨ mark = ("-" : Text)) ∧
    t.trimSpaces = mark ++ word ∧ word.asciiLower = ("nan" : Text)

theorem spellsNotANumber_iff {t : Text} :
    SpellsNotANumber t ↔ (sign t.trimSpaces).2.asciiLower = ("nan" : Text) := by
  constructor
  · rintro ⟨mark, word, hmark, ht, hword⟩
    rw [ht]
    obtain rfl | rfl | rfl := hmark
    · suffices hsign : sign ([] ++ word) = (false, word) by rw [hsign, hword]
      rw [List.nil_append, sign_of_ne] <;> rintro r rfl <;> cases hword
    · exact hword
    · exact hword
  · intro h
    generalize ht : t.trimSpaces = s at h
    unfold sign at h
    split at h
    · exact ⟨("-" : Text), _, .inr (.inr rfl), ht, h⟩
    · exact ⟨("+" : Text), _, .inr (.inl rfl), ht, h⟩
    · exact ⟨[], _, .inl rfl, ht, h⟩

theorem isNaN_of_readDigits? {negative : Bool} {t : Text} {x : Float}
    (h : readDigits? negative t = some x) : x.isNaN = false := by
  unfold readDigits? at h
  simp only [Option.bind_eq_bind, Option.bind_eq_some_iff] at h
  obtain ⟨exponent, -, whole, -, part, -, h⟩ := h
  split_ifs at h
  cases h
  exact Binary64.isNaN_ofDecimal _ _ _

/-- No other numeral than the word for it is read as no number. -/
theorem isNaN_of_readFloat? {t : Text} {x : Float} (h : readFloat? t = some x) :
    x.isNaN = true ↔ SpellsNotANumber t := by
  rw [spellsNotANumber_iff]
  unfold readFloat? at h
  simp only at h
  split_ifs at h with hinfinity hword
  · cases h
    rw [Binary64.isNaN_ofBits _ (Nat.le_refl _)]
    refine ⟨nofun, fun hword => ?_⟩
    rcases hinfinity with hw | hw <;> cases hw.symm.trans hword
  · cases h
    exact ⟨fun _ => hword, fun _ => by decide +kernel⟩
  · rw [isNaN_of_readDigits? h]
    exact ⟨nofun, fun hw => absurd hw hword⟩

end Numeral

/-- A value that says that it is no number. -/
def Json.SpellsNotANumber : Json → Prop
  | .float x => x.isNaN = true
  | .str t => Numeral.SpellsNotANumber t
  | _ => False

namespace CalibrationConstants

/-! ## Constants of a document -/

/-- A value stands for no number exactly if it says so. -/
theorem isNaN_of_number? {v : Json} {x : Float} (h : number? v = .ok x) :
    x.isNaN = true ↔ v.SpellsNotANumber := by
  cases v with
  | null => cases h
  | bool b =>
    cases h
    cases b <;> exact ⟨fun h => absurd h (by decide +kernel), nofun⟩
  | int n =>
    unfold number? Json.toFloat? Json.rounded? at h
    simp only at h
    split at h
    · rename_i y hy
      cases h
      rw [Binary64.isNaN_of_ofInt? hy]
      exact ⟨nofun, nofun⟩
    · cases h
  | float y =>
    cases h
    rfl
  | str t =>
    unfold number? at h
    simp only at h
    split at h
    · rename_i y hy
      cases h
      exact Numeral.isNaN_of_readFloat? hy
    · cases h
  | arr items => cases h
  | obj members => cases h

/-- A number that a value stands for and that is above zero, unless the value says that it is no
number. -/
def Accepted (v : Json) (x : Float) : Prop :=
  number? v = .ok x ∧
    (¬ v.SpellsNotANumber ∧ 0.0 < x ∨ v.SpellsNotANumber ∧ x.isNaN = true)

theorem accepted_iff {v : Json} {x : Float} : Accepted v x ↔ number? v = .ok x ∧ ¬ x ≤ 0.0 := by
  unfold Accepted
  refine and_congr_right fun hnumber => ?_
  rw [Binary64.not_le_zero_iff, ← isNaN_of_number? hnumber]
  constructor
  · rintro (⟨-, hx⟩ | ⟨hx, -⟩)
    · exact .inl hx
    · exact .inr hx
  · rintro (hx | hx)
    · exact .inl ⟨fun hnan => Binary64.not_zero_lt_of_isNaN hnan hx, hx⟩
    · exact .inr ⟨hx, hx⟩

theorem Accepted.zero_lt_iff {v : Json} {x : Float} (h : Accepted v x) :
    0.0 < x ↔ ¬ v.SpellsNotANumber := by
  rcases h.2 with ⟨hv, hx⟩ | ⟨hv, hx⟩
  · exact ⟨fun _ => hv, fun _ => hx⟩
  · exact ⟨fun hlt => absurd hlt (Binary64.not_zero_lt_of_isNaN hx), fun hnot => absurd hv hnot⟩

theorem ofValues?_eq_ok {greedy twoOpt : Float} {version : Json} {c : CalibrationConstants} :
    ofValues? greedy twoOpt version = .ok c ↔
      ¬ greedy ≤ 0.0 ∧ ¬ twoOpt ≤ 0.0 ∧ ⟨greedy, twoOpt, version⟩ = c := by
  unfold ofValues?
  simp only [bind_eq_ok, ensure_eq_ok, pure_eq_ok, exists_const, Bool.not_eq_true',
    decide_eq_false_iff_not]

/-- What a document has to hold for constants to be read from it. -/
theorem ofDocument?_eq_ok {document : Json} {c : CalibrationConstants} :
    ofDocument? document = .ok c ↔ c.version = .int schemaVersion ∧ ∃ members v w,
      document = .obj members ∧ (versionOf members).integer? .standard = .ok schemaVersion ∧
      Json.entry? members "greedy_constant" = .ok v ∧
      Json.entry? members "two_opt_constant" = .ok w ∧
      Accepted v c.greedy ∧ Accepted w c.twoOpt := by
  constructor
  · intro h
    cases document with
    | obj members =>
      obtain ⟨version, hversion, h⟩ := bind_eq_ok.1 h
      obtain ⟨_, hsame, h⟩ := bind_eq_ok.1 h
      obtain rfl := of_decide_eq_true (ensure_eq_ok.1 hsame)
      obtain ⟨v, hv, h⟩ := bind_eq_ok.1 h
      obtain ⟨greedy, hgreedy, h⟩ := bind_eq_ok.1 h
      obtain ⟨w, hw, h⟩ := bind_eq_ok.1 h
      obtain ⟨twoOpt, htwoOpt, h⟩ := bind_eq_ok.1 h
      obtain ⟨hfirst, hsecond, rfl⟩ := ofValues?_eq_ok.1 h
      exact ⟨rfl, members, v, w, rfl, hversion, hv, hw, accepted_iff.2 ⟨hgreedy, hfirst⟩,
        accepted_iff.2 ⟨htwoOpt, hsecond⟩⟩
    | _ => cases h
  · rintro ⟨hrecord, members, v, w, rfl, hversion, hv, hw, hgreedy, htwoOpt⟩
    obtain ⟨hfirst, hfirst'⟩ := accepted_iff.1 hgreedy
    obtain ⟨hsecond, hsecond'⟩ := accepted_iff.1 htwoOpt
    refine bind_eq_ok.2 ⟨schemaVersion, hversion, bind_eq_ok.2 ⟨(), rfl, bind_eq_ok.2 ⟨v, hv,
      bind_eq_ok.2 ⟨_, hfirst, bind_eq_ok.2 ⟨w, hw, bind_eq_ok.2 ⟨_, hsecond, ?_⟩⟩⟩⟩⟩⟩
    rw [ofValues?_eq_ok, ← hrecord]
    exact ⟨hfirst', hsecond', rfl⟩

/-! ## Constants of a file -/

variable {files : Files} {path : Path}

theorem load?_of_exists (hexists : files.exists? path = .ok true) :
    load? files (some path) = files.readJson? path >>= ofDocument? := by
  simp only [load?, hexists]
  rfl

/-- What a file has to hold for constants to be loaded from it. -/
theorem load?_eq_ok (hexists : files.exists? path = .ok true) {c : CalibrationConstants} :
    load? files (some path) = .ok c ↔ c.version = .int schemaVersion ∧ ∃ members v w,
      files.readJson? path = .ok (.obj members) ∧
      (versionOf members).integer? .standard = .ok schemaVersion ∧
      Json.entry? members "greedy_constant" = .ok v ∧
      Json.entry? members "two_opt_constant" = .ok w ∧
      Accepted v c.greedy ∧ Accepted w c.twoOpt := by
  rw [load?_of_exists hexists, bind_eq_ok]
  constructor
  · rintro ⟨document, hread, hdocument⟩
    obtain ⟨hrecord, members, v, w, rfl, hentries⟩ := ofDocument?_eq_ok.1 hdocument
    exact ⟨hrecord, members, v, w, hread, hentries⟩
  · rintro ⟨hrecord, members, v, w, hread, hentries⟩
    exact ⟨_, hread, ofDocument?_eq_ok.2 ⟨hrecord, members, v, w, rfl, hentries⟩⟩

/-- Where a file is, constants are loaded exactly if it is a document of version one with two
entries that stand for numbers above zero or say that they are no number; the record is of version
one. Each constant is above zero exactly if its entry does not say that it is no number. -/
theorem load?_above_zero (hexists : files.exists? path = .ok true) (c : CalibrationConstants) :
    (load? files (some path) = .ok c ↔ c.version = .int 1 ∧ ∃ members v w,
      files.readJson? path = .ok (.obj members) ∧
      (versionOf members).integer? .standard = .ok 1 ∧
      Json.entry? members "greedy_constant" = .ok v ∧
      Json.entry? members "two_opt_constant" = .ok w ∧
      Accepted v c.greedy ∧ Accepted w c.twoOpt) ∧
    (load? files (some path) = .ok c → ∀ members, files.readJson? path = .ok (.obj members) →
      (0.0 < c.greedy ↔
        ∀ v, Json.entry? members "greedy_constant" = .ok v → ¬ v.SpellsNotANumber) ∧
      (0.0 < c.twoOpt ↔
        ∀ v, Json.entry? members "two_opt_constant" = .ok v → ¬ v.SpellsNotANumber)) := by
  refine ⟨load?_eq_ok hexists, fun h members hmembers => ?_⟩
  obtain ⟨-, members', v, w, hread, -, hv, hw, hgreedy, htwoOpt⟩ := (load?_eq_ok hexists).1 h
  cases hmembers.symm.trans hread
  rw [hgreedy.zero_lt_iff, htwoOpt.zero_lt_iff]
  constructor
  · refine ⟨fun hnot v' hv' => ?_, fun hall => hall v hv⟩
    cases hv.symm.trans hv'
    exact hnot
  · refine ⟨fun hnot w' hw' => ?_, fun hall => hall w hw⟩
    cases hw.symm.trans hw'
    exact hnot

/-- A store of one file. -/
def constantsFile (content : String) : Files :=
  ⟨[], [([("calibration.json" : Text)], .text content.toList)], []⟩

/-- The path of the file. -/
def constantsPath : Path := "calibration.json"

/-- A numeral in a text and an infinity. -/
def unusualFile : Files :=
  constantsFile "\x7b\"greedy_constant\": \" 1_0.5\", \"two_opt_constant\": 1e999\x7d"

/-- No number in the first entry. -/
def nanFile : Files :=
  constantsFile "\x7b\"greedy_constant\": NaN, \"two_opt_constant\": 1e-5\x7d"

/-- A numeral in a text is a constant, and so is an infinity. -/
theorem load?_above_zero_unusual :
    unusualFile.exists? constantsPath = .ok true ∧
    ∃ c, load? unusualFile (some constantsPath) = .ok c ∧ c.version = .int 1 ∧
      0.0 < c.greedy ∧ 0.0 < c.twoOpt ∧
      ∀ members, unusualFile.readJson? constantsPath = .ok (.obj members) →
        ∀ v, Json.entry? members "greedy_constant" = .ok v → ¬ v.SpellsNotANumber := by
  have hexists : unusualFile.exists? constantsPath = .ok true := by
    obtain ⟨found, hfound, htrue⟩ := exists_of_any_toOption (x := unusualFile.exists? constantsPath)
      (p := id) (by decide +kernel)
    exact hfound.trans (congrArg Except.ok htrue)
  have hloads : (load? unusualFile (some constantsPath)).toOption.any
      (fun c => decide (0.0 < c.greedy ∧ 0.0 < c.twoOpt)) = true := by decide +kernel
  obtain ⟨c, hc, hpositive⟩ := exists_of_any_toOption hloads
  obtain ⟨hgreedy, htwoOpt⟩ := of_decide_eq_true hpositive
  obtain ⟨hrecord, hentries⟩ := load?_above_zero hexists c
  exact ⟨hexists, c, hc, (hrecord.1 hc).1, hgreedy, htwoOpt, fun members hmembers =>
    (hentries hc members hmembers).1.1 hgreedy⟩

/-- What is no number passes as a constant. -/
theorem load?_passes_nan :
    ∃ c, load? nanFile (some constantsPath) = .ok c ∧ ¬ 0.0 < c.greedy := by
  have hloads : (load? nanFile (some constantsPath)).toOption.any
      (fun c => decide (¬ 0.0 < c.greedy)) = true := by decide +kernel
  obtain ⟨c, hc, hnan⟩ := exists_of_any_toOption hloads
  exact ⟨c, hc, of_decide_eq_true hnan⟩

end CalibrationConstants
end Turmite
