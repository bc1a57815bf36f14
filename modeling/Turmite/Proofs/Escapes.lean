import Turmite.Calibration.Constants
import Turmite.Command.Setting
import Turmite.Command.Workspace
import Turmite.Grid.File
import Turmite.Proofs.Success

/-!
# Errors that escape

A command tells the user of a missing file and of a faulty value. Any other error escapes. Which
values lead to one is told here for each reader of documents: values of the wrong type where a
number is cut or an entry is looked up, infinities and numbers too large for what they are to be,
and texts that nest too deep.
-/

namespace Turmite

/-- Whether an error is told as none of the user's. -/
def Error.escapes : Error → Bool
  | .missingFile _ => false
  | e => !e.isValueFault

namespace Error

@[simp] theorem escapes_overflow : overflow.escapes = true := rfl

@[simp] theorem escapes_missingEntry : missingEntry.escapes = true := rfl

@[simp] theorem escapes_noSuchPart : noSuchPart.escapes = true := rfl

@[simp] theorem escapes_wrongType : wrongType.escapes = true := rfl

@[simp] theorem escapes_tooDeep : tooDeep.escapes = true := rfl

@[simp] theorem escapes_invalidArgument (cause : InvalidArgument) :
    (invalidArgument cause).escapes = false := rfl

@[simp] theorem escapes_invalidValue (cause : InvalidValue) :
    (invalidValue cause).escapes = false := rfl

@[simp] theorem escapes_unreadableArray : unreadableArray.escapes = false := rfl

@[simp] theorem escapes_malformedJson : malformedJson.escapes = false := rfl

@[simp] theorem escapes_integerTooLong : integerTooLong.escapes = false := rfl

end Error

/-- A computation ends with an error that escapes. -/
def Escapes {α : Type} (x : Except Error α) : Prop := ∃ e, x = .error e ∧ e.escapes = true

section Calculus

variable {α β : Type}

@[simp] theorem not_escapes_ok (a : α) : ¬Escapes (.ok a) := by
  rintro ⟨e, h, -⟩
  cases h

@[simp] theorem not_escapes_pure (a : α) : ¬Escapes (pure a) := not_escapes_ok a

@[simp] theorem escapes_error (e : Error) :
    Escapes (.error e : Except Error α) ↔ e.escapes = true := by
  constructor
  · rintro ⟨_, h, he⟩
    cases h
    exact he
  · intro he
    exact ⟨e, rfl, he⟩

/-- A sequence escapes where its first part does, or where that succeeds and the rest escapes. -/
theorem escapes_bind {x : Except Error α} {f : α → Except Error β} :
    Escapes (x >>= f) ↔ Escapes x ∨ ∃ a, x = .ok a ∧ Escapes (f a) := by
  cases x with
  | error e =>
    show Escapes (.error e) ↔ _
    simp
  | ok a =>
    show Escapes (f a) ↔ _
    simp

@[simp] theorem escapes_ensure {condition : Bool} {e : Error} :
    Escapes (ensure condition e) ↔ condition = false ∧ e.escapes = true := by
  cases condition <;> simp [ensure]

theorem escapes_bind_of_not {x : Except Error α} {f : α → Except Error β}
    (h : ∀ a, ¬Escapes (f a)) : Escapes (x >>= f) ↔ Escapes x := by
  rw [escapes_bind]
  constructor
  · rintro (hx | ⟨a, -, hf⟩)
    · exact hx
    · exact absurd hf (h a)
  · exact .inl

/-- A check whose failure is told escapes with what comes after it. -/
theorem escapes_ensure_bind {condition : Bool} {e : Error} {f : Unit → Except Error β}
    (he : e.escapes = false) :
    Escapes (ensure condition e >>= f) ↔ condition = true ∧ Escapes (f ()) := by
  rw [escapes_bind, escapes_ensure, he]
  cases condition with
  | false => simp [ensure]
  | true =>
    constructor
    · rintro (⟨h, -⟩ | ⟨_, -, h⟩)
      · cases h
      · exact ⟨rfl, h⟩
    · rintro ⟨-, h⟩
      exact .inr ⟨(), rfl, h⟩

/-- A list is read up to the first item that escapes. -/
theorem escapes_mapM {f : α → Except Error β} {l : List α} : Escapes (l.mapM f) ↔
    ∃ front a back, l = front ++ a :: back ∧ (∀ b ∈ front, ∃ c, f b = .ok c) ∧
      Escapes (f a) := by
  induction l with
  | nil =>
    rw [List.mapM_nil]
    simp
  | cons head l ih =>
    rw [List.mapM_cons, escapes_bind]
    constructor
    · rintro (h | ⟨b, hb, h⟩)
      · exact ⟨[], head, l, rfl, by simp, h⟩
      · rw [escapes_bind_of_not fun _ => not_escapes_pure _, ih] at h
        obtain ⟨front, a, back, rfl, hfront, ha⟩ := h
        exact ⟨head :: front, a, back, rfl, List.forall_mem_cons.2 ⟨⟨b, hb⟩, hfront⟩, ha⟩
    · rintro ⟨front, a, back, hl, hfront, ha⟩
      cases front with
      | nil =>
        obtain ⟨rfl, rfl⟩ := List.cons.inj hl
        exact .inl ha
      | cons head' front =>
        obtain ⟨rfl, rfl⟩ := List.cons.inj hl
        obtain ⟨⟨b, hb⟩, hfront⟩ := List.forall_mem_cons.1 hfront
        refine .inr ⟨b, hb, escapes_bind.2 (.inl (ih.2 ⟨front, a, back, rfl, hfront, ha⟩))⟩

end Calculus

namespace Json

/-- An infinite number. -/
def IsInfinite (v : Json) : Prop :=
  ∃ x negative, v = .float x ∧ Binary64.ofFloat x = .infinite negative

/-- What is neither a number nor a truth value nor a text. -/
def isUncountable : Json → Bool
  | null => true
  | arr _ => true
  | obj _ => true
  | _ => false

/-- The integer part of a value is an error where the value has none by its type or is infinite. -/
theorem escapes_integer? {limits : Limits} {v : Json} :
    Escapes (v.integer? limits) ↔ v.isUncountable = true ∨ v.IsInfinite := by
  unfold integer? IsInfinite
  cases v with
  | float x =>
    simp only
    rcases hx : Binary64.ofFloat x with _ | negative | ⟨negative, m, e⟩ <;>
      simp [isUncountable, hx]
  | str t =>
    simp only
    rcases Numeral.readInt? limits t with (_ | _) | n <;>
      simp [isUncountable]
  | _ => simp [isUncountable]

/-- What has no integer part by its type or as an infinity, or one that fits no word. -/
def FitsNoWord (v : Json) : Prop :=
  v.isUncountable = true ∨ v.IsInfinite ∨
    ∃ n, v.integer? .standard = .ok n ∧ fitsWord n = false

theorem escapes_wordOf? {n : Int} : Escapes (wordOf? n) ↔ fitsWord n = false := by
  unfold wordOf?
  cases fitsWord n <;> simp

theorem escapes_word? {v : Json} : Escapes v.word? ↔ v.FitsNoWord := by
  unfold word? FitsNoWord IsInfinite
  cases v with
  | bool b => cases b <;> simp [isUncountable, integer?] <;> decide
  | int n => simp [isUncountable, integer?, escapes_wordOf?]
  | float x =>
    simp only [integer?]
    rcases hx : Binary64.ofFloat x with _ | negative | ⟨negative, m, e⟩ <;>
      simp [isUncountable, hx, escapes_wordOf?]
  | str t =>
    simp only [integer?]
    rcases Numeral.readInt? .standard t with (_ | _) | n <;>
      simp [isUncountable, escapes_wordOf?]
  | _ => simp [isUncountable]

/-- A number that is larger than any of binary64. -/
def IsTooLarge (v : Json) : Prop := ∃ n, v = .int n ∧ Binary64.ofInt? n = none

theorem escapes_toFloat? {v : Json} (ht : ∀ t, v ≠ .str t) :
    Escapes v.toFloat? ↔ v.isUncountable = true ∨ v.IsTooLarge := by
  unfold toFloat? IsTooLarge
  cases v with
  | int n =>
    simp only [rounded?]
    rcases hn : Binary64.ofInt? n with _ | x <;>
      simp [isUncountable, hn]
  | str t => exact absurd rfl (ht t)
  | _ => simp [isUncountable]

/-- Why a nested list is no array is told. -/
theorem not_escapes_commonShape? (parts : List (List Nat)) : ¬Escapes (commonShape? parts) := by
  unfold commonShape?
  split
  · simp
  · split <;> simp

mutual

theorem not_escapes_extents? : ∀ v : Json, ¬Escapes v.extents?
  | arr items => by
    rw [extents?, escapes_bind]
    rintro (h | ⟨parts, -, h⟩)
    · exact not_escapes_extentsOf? items h
    · rw [escapes_bind_of_not fun _ => not_escapes_pure _] at h
      exact not_escapes_commonShape? parts h
  | null => not_escapes_ok _
  | bool _ => not_escapes_ok _
  | int _ => not_escapes_ok _
  | float _ => not_escapes_ok _
  | str _ => not_escapes_ok _
  | obj _ => not_escapes_ok _

theorem not_escapes_extentsOf? : ∀ items : List Json, ¬Escapes (extentsOf? items)
  | [] => not_escapes_ok _
  | v :: items => by
    rw [extentsOf?, escapes_bind]
    rintro (h | ⟨_, -, h⟩)
    · exact not_escapes_extents? v h
    · rw [escapes_bind_of_not fun _ => not_escapes_pure _] at h
      exact not_escapes_extentsOf? items h

end

theorem not_escapes_shape? (v : Json) : ¬Escapes v.shape? := by
  unfold shape?
  rw [escapes_bind]
  rintro (h | ⟨_, -, h⟩)
  · exact not_escapes_extents? v h
  · rw [escapes_ensure_bind rfl] at h
    exact not_escapes_pure _ h.2

end Json

/-! ## Files -/

namespace Files

variable {files : Files} {path : Path}

/-- A file has a text that nests too deep. -/
def NestsTooDeep (files : Files) (path : Path) : Prop :=
  ∃ chars, files.readText? path = .ok chars ∧ Json.parse? .standard chars = .error .tooDeep

theorem escapes_readJson? : Escapes (files.readJson? path) ↔
    Escapes (files.readText? path) ∨ files.NestsTooDeep path := by
  unfold readJson? NestsTooDeep
  rw [escapes_bind]
  refine or_congr_right (exists_congr fun chars => and_congr_right fun _ => ?_)
  rcases Json.parse? .standard chars with (_ | _ | _) | v <;>
    simp [Json.Fault.error]

end Files

/-! ## Constants -/

namespace CalibrationConstants

/-- What is no number by its type, or too large an integer. -/
def IsNoNumber (v : Json) : Prop := v.isUncountable = true ∨ v.IsTooLarge

theorem escapes_number? {v : Json} : Escapes (number? v) ↔ IsNoNumber v := by
  unfold number? IsNoNumber
  cases v with
  | str t =>
    simp only
    rcases Numeral.readFloat? t with _ | x <;>
      simp [Json.isUncountable, Json.IsTooLarge]
  | _ => exact Json.escapes_toFloat? (by simp)

theorem not_escapes_ofValues? (greedy twoOpt : Float) (version : Json) :
    ¬Escapes (ofValues? greedy twoOpt version) := by
  unfold ofValues?
  rw [escapes_ensure_bind rfl, escapes_ensure_bind rfl]
  rintro ⟨-, -, h⟩
  exact not_escapes_pure _ h

/-- An entry that is missing or no number. -/
def LacksNumber (members : Json.Members) (key : String) : Prop :=
  members.get? (Text.ofString key) = none ∨
    ∃ v, members.get? (Text.ofString key) = some v ∧ IsNoNumber v

/-- The number of an entry. -/
def numberOf? (members : Json.Members) (key : String) : Except Error Float := do
  number? (← Json.entry? members key)

theorem escapes_numberOf? {members : Json.Members} {key : String} :
    Escapes (numberOf? members key) ↔ LacksNumber members key := by
  unfold numberOf? Json.entry? LacksNumber
  rcases members.get? (Text.ofString key) with _ | v
  · show Escapes (.error _) ↔ _
    simp
  · show Escapes (number? v) ↔ _
    simp [escapes_number?]

/-- The version of a document, the one of the documents unless it is given. -/
def versionOf (members : Json.Members) : Json :=
  (Json.Members.get? members "schema_version").getD (.int schemaVersion)

/-- A document of which the constants are not read: it is no object, or its version has no integer
part, or it has the version and an entry lacks a number. -/
def Unreadable : Json → Prop
  | .obj members =>
    (versionOf members).isUncountable = true ∨ (versionOf members).IsInfinite ∨
      (versionOf members).integer? .standard = .ok schemaVersion ∧
        (LacksNumber members "greedy_constant" ∨
          (∃ x, numberOf? members "greedy_constant" = .ok x) ∧
            LacksNumber members "two_opt_constant")
  | _ => True

theorem escapes_ofDocument? {document : Json} :
    Escapes (ofDocument? document) ↔ Unreadable document := by
  unfold Unreadable
  cases document with
  | obj members =>
    have hread : ofDocument? (.obj members) = (versionOf members).integer? .standard >>=
        fun version => ensure (version = schemaVersion) (InvalidValue.schemaVersion version) >>=
        fun _ => numberOf? members "greedy_constant" >>=
        fun greedy => numberOf? members "two_opt_constant" >>=
        fun twoOpt => ofValues? greedy twoOpt (.int version) := by
      simp only [numberOf?, bind_assoc]
      rfl
    have hfirst (version : Int) : Error.escapes (InvalidValue.schemaVersion version) = false := rfl
    have hentries (version : Int) : Escapes (numberOf? members "greedy_constant" >>=
        fun greedy => numberOf? members "two_opt_constant" >>=
        fun twoOpt => ofValues? greedy twoOpt (.int version)) ↔
          LacksNumber members "greedy_constant" ∨
            (∃ x, numberOf? members "greedy_constant" = .ok x) ∧
              LacksNumber members "two_opt_constant" := by
      rw [escapes_bind, escapes_numberOf?]
      refine or_congr_right ?_
      constructor
      · rintro ⟨greedy, hgreedy, h⟩
        rw [escapes_bind, escapes_numberOf?] at h
        rcases h with h | ⟨_, -, h⟩
        · exact ⟨⟨greedy, hgreedy⟩, h⟩
        · exact absurd h (not_escapes_ofValues? _ _ _)
      · rintro ⟨⟨greedy, hgreedy⟩, h⟩
        exact ⟨greedy, hgreedy, escapes_bind.2 (.inl (escapes_numberOf?.2 h))⟩
    rw [hread, escapes_bind, Json.escapes_integer?, or_assoc]
    refine or_congr_right (or_congr_right ?_)
    constructor
    · rintro ⟨version, hversion, h⟩
      rw [escapes_ensure_bind (hfirst _), decide_eq_true_eq, hentries] at h
      exact ⟨h.1 ▸ hversion, h.2⟩
    · rintro ⟨hversion, h⟩
      refine ⟨schemaVersion, hversion, ?_⟩
      rw [escapes_ensure_bind (hfirst _), decide_eq_true_eq, hentries]
      exact ⟨rfl, h⟩
  | _ => simp [ofDocument?]

/-- A file of constants that cannot be looked for, or that is there and has no text, one that nests
too deep, or a document that is unreadable. -/
def FileMisleads (files : Files) (path : Option Path) : Prop :=
  ∃ p, path = some p ∧ (Escapes (files.exists? p) ∨ files.exists? p = .ok true ∧
    (Escapes (files.readText? p) ∨ files.NestsTooDeep p ∨
      ∃ document, files.readJson? p = .ok document ∧ Unreadable document))

theorem escapes_load? {files : Files} {path : Option Path} :
    Escapes (load? files path) ↔ FileMisleads files path := by
  unfold FileMisleads
  cases path with
  | none => simp [load?]
  | some p =>
    simp only [load?, Option.some.injEq, exists_eq_left']
    rw [escapes_bind]
    refine or_congr_right ?_
    constructor
    · rintro ⟨there, hthere, h⟩
      cases there with
      | false => exact absurd h (not_escapes_pure _)
      | true =>
        rw [if_pos rfl, escapes_bind, Files.escapes_readJson?, or_assoc] at h
        simp only [escapes_ofDocument?] at h
        exact ⟨hthere, h⟩
    · rintro ⟨hthere, h⟩
      refine ⟨true, hthere, ?_⟩
      rw [if_pos rfl, escapes_bind, Files.escapes_readJson?, or_assoc]
      simp only [escapes_ofDocument?]
      exact h

end CalibrationConstants

/-! ## Grids -/

namespace WordArray

/-- A table of colors for which there is no memory. -/
def IsTooLarge [Memory] (a : WordArray) : Prop :=
  ∃ cols rows, a.shape = [cols, rows] ∧ a.words.all (0 ≤ ·) = true ∧
    a.words.length = cols * rows ∧ Memory.words < cols * rows

/-- Nested lists with an item that fits no word, behind items that do, on all of which the shape
of an array can be put. -/
def HasMisfit (cells : Json) : Prop :=
  (∃ shape, cells.shape? = .ok shape) ∧ ∃ front v back, cells.leaves = front ++ v :: back ∧
    (∀ u ∈ front, ∃ n, u.word? = .ok n) ∧ v.FitsNoWord

theorem escapes_ofJson? {cells : Json} : Escapes (ofJson? cells) ↔ HasMisfit cells := by
  unfold ofJson? HasMisfit
  rw [escapes_bind]
  constructor
  · rintro (h | ⟨shape, hshape, h⟩)
    · exact absurd h (Json.not_escapes_shape? cells)
    · rw [escapes_bind_of_not fun _ => not_escapes_pure _, escapes_mapM] at h
      simp only [Json.escapes_word?] at h
      exact ⟨⟨shape, hshape⟩, h⟩
  · rintro ⟨⟨shape, hshape⟩, h⟩
    refine .inr ⟨shape, hshape, ?_⟩
    rw [escapes_bind_of_not fun _ => not_escapes_pure _, escapes_mapM]
    simp only [Json.escapes_word?]
    exact h

theorem escapes_canvas? [Memory] {config : GridConfig} {a : WordArray} : Escapes (a.canvas? config) ↔
    (a.shape = [config.cols, config.rows] ∧ a.words.length = config.cols * config.rows) ∧
      Memory.words < config.cols * config.rows := by
  unfold canvas?
  split
  · rename_i h
    split
    · rename_i fits
      have hle : config.cols * config.rows ≤ Memory.words := fits
      simp [h, hle]
    · rename_i fits
      have hmisfit : config.misfit.escapes = true := by
        unfold GridConfig.misfit
        split <;> rfl
      simp [h, hmisfit, Nat.lt_of_not_le fits]
  · rename_i h
    rw [escapes_error]
    constructor
    · intro he
      cases he
    · rintro ⟨h', -⟩
      exact absurd h' h

end WordArray

namespace Grid

theorem not_escapes_ofDocument? (path : Path) (document : Json) :
    ¬Escapes (ofDocument? path document) := by
  unfold ofDocument?
  cases document with
  | obj members =>
    simp only
    rcases Json.Members.get? members "cells" with _ | cells <;>
      simp
  | _ => exact not_escapes_ok _

variable [Memory]

theorem escapes_ofTable? {a : WordArray} {looping : Bool} :
    Escapes (ofTable? a looping) ↔ a.IsTooLarge := by
  unfold ofTable? WordArray.IsTooLarge
  split
  · rename_i cols rows hshape
    have hsame (P : Nat → Nat → Prop) :
        (∃ c r, a.shape = [c, r] ∧ P c r) ↔ P cols rows := by
      rw [hshape]
      constructor
      · rintro ⟨c, r, h, hp⟩
        cases h
        exact hp
      · intro hp
        exact ⟨cols, rows, rfl, hp⟩
    rw [escapes_ensure_bind rfl, hsame]
    refine and_congr_right fun _ => ?_
    by_cases hsizes : (1 : Int) ≤ cols ∧ (1 : Int) ≤ rows
    · have hconfig : GridConfig.ofSizes? cols rows looping false =
          .ok ⟨⟨cols, rows, by omega, by omega, looping⟩, false⟩ := by
        unfold GridConfig.ofSizes? Metric.ofSizes?
        rw [dif_pos hsizes]
        rfl
      rw [hconfig]
      show Escapes (ofArray? _ a >>= fun g => pure _) ↔ _
      rw [escapes_bind_of_not fun _ => not_escapes_pure _]
      unfold ofArray?
      rw [escapes_bind_of_not fun _ => not_escapes_pure _, WordArray.escapes_canvas?, hshape]
      simp
    · have hconfig : GridConfig.ofSizes? cols rows looping false =
          .error InvalidArgument.sizesTooSmall := by
        unfold GridConfig.ofSizes? Metric.ofSizes?
        rw [dif_neg hsizes]
        rfl
      rw [hconfig, escapes_bind]
      constructor
      · rintro (⟨_, h, he⟩ | ⟨_, h, -⟩)
        · cases h
          cases he
        · cases h
      · rintro ⟨-, hlarge⟩
        have hzero : cols = 0 ∨ rows = 0 := by omega
        rcases hzero with rfl | rfl
        · rw [Nat.zero_mul] at hlarge
          exact absurd hlarge (Nat.not_lt_zero _)
        · exact absurd hlarge (Nat.not_lt_zero _)
  · rename_i hshape
    rw [escapes_error]
    constructor
    · intro he
      cases he
    · rintro ⟨cols, rows, h, -⟩
      exact absurd h (hshape cols rows)

/-- The table of a document is not read: it has cells with a misfit, or too many of them. -/
def HasMisfitCells (path : Path) (document : Json) : Prop :=
  ∃ cells loops, ofDocument? path document = .ok (cells, loops) ∧
    (WordArray.HasMisfit cells ∨ ∃ table, WordArray.ofJson? cells = .ok table ∧ table.IsTooLarge)

/-- A grid file that has no text, one that nests too deep, or cells that no table takes. -/
def FileMisleads (files : Files) (path : Path) : Prop :=
  Escapes (files.readText? path) ∨ files.NestsTooDeep path ∨
    ∃ document, files.readJson? path = .ok document ∧ HasMisfitCells path document

theorem escapes_load? {files : Files} {path : Path} {looping : Option Bool}
    (hdocument : isArrayPath path = false) :
    Escapes (load? files path looping) ↔ FileMisleads files path := by
  unfold FileMisleads
  have hread : load? files path looping = files.readJson? path >>= fun document =>
      ofDocument? path document >>= fun read => WordArray.ofJson? read.1 >>= fun table =>
      ofTable? table (looping.getD read.2) := by
    unfold load? readTable?
    rw [hdocument, if_neg Bool.false_ne_true]
    simp only [bind_assoc, pure_bind]
  rw [hread, escapes_bind, Files.escapes_readJson?, or_assoc]
  refine or_congr_right (or_congr_right (exists_congr fun document => and_congr_right fun _ => ?_))
  unfold HasMisfitCells
  rw [escapes_bind]
  constructor
  · rintro (h | ⟨⟨cells, loops⟩, hcells, h⟩)
    · exact absurd h (not_escapes_ofDocument? path document)
    · rw [escapes_bind, WordArray.escapes_ofJson?] at h
      simp only [escapes_ofTable?] at h
      exact ⟨cells, loops, hcells, h⟩
  · rintro ⟨cells, loops, hcells, h⟩
    refine .inr ⟨(cells, loops), hcells, ?_⟩
    rw [escapes_bind, WordArray.escapes_ofJson?]
    simp only [escapes_ofTable?]
    exact h

end Grid

end Turmite
