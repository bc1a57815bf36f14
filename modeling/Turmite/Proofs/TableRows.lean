import Turmite.LooseProgram.Basic
import Turmite.Proofs.Chaining
import Turmite.Proofs.FileStore
import Turmite.Proofs.PayloadGroups
import Turmite.Proofs.RuleTables

/-!
# Rows of rule tables

The rows of a rule table are the rule objects of the payload, key by key, in the columns of the
table instead of members; the rules of a state are counted from zero. Nothing is lost by this: to
add the rules of the rows in order is to read the payload, and gives the program back
(`Program.table_tells_payload`).
-/

namespace Turmite

/-! ## Rows and rules -/

namespace Program

variable {p : Program}

theorem map_rule_rowsOf (state : Int) (rules : List Rule) :
    (rowsOf state rules).map (fun row => (row.state, row.rule)) = rules.map (state, ·) := by
  unfold rowsOf
  rw [List.map_map]
  conv_rhs => rw [← List.zipIdx_map_fst 0 rules, List.map_map]
  rfl

theorem map_index_rowsOf (state : Int) (rules : List Rule) :
    (rowsOf state rules).map (·.index) = List.range rules.length := by
  unfold rowsOf
  rw [List.map_map, List.range_eq_range', ← List.zipIdx_map_snd]
  rfl

/-- The rows hold the rules with their states, in order. -/
theorem map_rule_rows (p : Program) : (p.rows.map fun row => (row.state, row.rule)) = p.flat := by
  unfold rows flat
  rw [List.map_flatMap]
  simp only [map_rule_rowsOf]

theorem length_flat (p : Program) : p.flat.length = p.ruleCount := by
  unfold flat ruleCount
  simp only [List.length_flatMap, List.length_map]

theorem length_rows (p : Program) : p.rows.length = p.ruleCount := by
  rw [← length_flat, ← map_rule_rows, List.length_map]

theorem filter_rowsOf (state other : Int) (rules : List Rule) :
    (rowsOf state rules).filter (·.state = other) =
      if state = other then rowsOf state rules else [] := by
  unfold rowsOf
  rw [List.filter_map]
  split_ifs with h <;> simp [h, Function.comp_def]

/-- Where no state stands twice, the rows of a state are those of its one entry. -/
theorem filter_rows (h : p.states.Nodup) (state : Int) :
    p.rows.filter (·.state = state) = rowsOf state ((p.rules? state).getD []) := by
  obtain ⟨entries⟩ := p
  unfold states at h
  induction entries with
  | nil => rfl
  | cons head r ih =>
    obtain ⟨s, rules⟩ := head
    obtain ⟨hnew, hr⟩ := List.nodup_cons.1 h
    have hrows : rows ⟨(s, rules) :: r⟩ = rowsOf s rules ++ rows ⟨r⟩ := rfl
    rw [hrows, List.filter_append, filter_rowsOf, ih hr]
    by_cases hs : s = state
    · subst hs
      have hnone : rules? ⟨r⟩ s = none := rules?_eq_none_iff.2 hnew
      rw [if_pos rfl, hnone]
      simp [rules?, rowsOf]
    · rw [if_neg hs, List.nil_append]
      simp [rules?, hs]

/-! ## Tables -/

/-- The states, colors and next states of a program are words. -/
structure FitsWords (p : Program) : Prop where
  state : ∀ entry ∈ p.entries, fitsWord entry.1 = true
  color : ∀ entry ∈ p.entries, ∀ rule ∈ entry.2, fitsWord rule.color = true
  next : ∀ entry ∈ p.entries, ∀ rule ∈ entry.2, fitsWord rule.next = true

theorem fits_of_mem_rows (h : p.FitsWords) (hlists : ∀ entry ∈ p.entries, entry.2.length ≤ 2 ^ 63)
    {row : RuleRow} (hrow : row ∈ p.rows) : row.fits = true := by
  obtain ⟨⟨state, rules⟩, hentry, hrow⟩ := List.mem_flatMap.1 hrow
  obtain ⟨⟨rule, index⟩, hplace, rfl⟩ := List.mem_map.1 hrow
  have hmem : rule ∈ rules := List.fst_mem_of_mem_zipIdx hplace
  have hindex : index < rules.length := List.snd_lt_of_mem_zipIdx hplace
  have hlength : rules.length ≤ 2 ^ 63 := hlists _ hentry
  have hword : fitsWord index = true := by
    rw [fitsWord_iff]
    omega
  unfold RuleRow.fits
  rw [h.state _ hentry, hword, h.color _ hentry rule hmem, h.next _ hentry rule hmem]
  rfl

theorem table?_eq_ok (h : p.FitsWords) (hlists : ∀ entry ∈ p.entries, entry.2.length ≤ 2 ^ 63) :
    p.table? = .ok p.rows := by
  unfold table?
  rw [if_pos (List.all_eq_true.2 fun row => fits_of_mem_rows h hlists)]

/-- A table is written below directories that are made, at the place of the file that goes by its
path, unless the path takes no table. -/
theorem writeTable_of_table? {rows : List RuleRow} (h : p.table? = .ok rows) (path : Path)
    (f : Files) :
    (∃ e g, (p.writeTable path).runOn f = (.error e, g) ∧ f.Refuses Files.writeTable path e) ∨
      ∃ made t place, f.Extends made ∧ made.tablePath? path = .ok t ∧
        made.writablePlace? t = .ok place ∧
        (p.writeTable path).runOn f =
          (.ok (), made.put place (.table (RuleRow.columns rows))) := by
  unfold writeTable
  rw [h]
  rcases Files.runOn_saveTable_cases f path (RuleRow.columns rows) with
    ⟨e, made, hrun, -, hrefuses⟩ | ⟨made, place, hrun, hmade, hplace⟩
  · exact .inl ⟨e, made, hrun, hrefuses⟩
  · obtain ⟨t, ht, hplace⟩ := Files.tablePlace?_eq_ok hplace
    exact .inr ⟨made, t, place, hmade, ht, hplace, hrun⟩

end Program

/-! ## Programs of values -/

namespace LooseProgram

/-- What is told of each rule of a program of integers, state by state, is told of each row. -/
theorem flatMap_ofProgram (f : Json → Nat → LooseRule → Json) (p : Program) :
    ((ofProgram p).entries.flatMap fun (state, rules) =>
        rules.zipIdx.map fun (rule, index) => f state index rule) =
      p.rows.map fun row => f (.int row.state) row.index (.ofRule row.rule) := by
  unfold ofProgram Program.rows Program.rowsOf
  rw [List.flatMap_map, List.map_flatMap]
  simp only [List.zipIdx_map, List.map_map, Function.comp_def, Prod.map]
  rfl

theorem columnWord?_int {n : Int} (h : fitsWord n = true) :
    Json.columnWord? (.int n) = .ok (.int n) := by
  show (do pure (Json.int (← Json.wordOf? n)) : Except Error Json) = _
  rw [Json.wordOf?, if_pos h]
  rfl

theorem wordColumn?_ofProgram {f : Json → Nat → LooseRule → Json} {g : RuleRow → Int} {p : Program}
    (hf : ∀ row, f (.int row.state) row.index (.ofRule row.rule) = .int (g row))
    (h : ∀ row ∈ p.rows, fitsWord (g row) = true) :
    (ofProgram p).wordColumn? f = .ok (p.rows.map fun row => .int (g row)) := by
  unfold wordColumn?
  rw [flatMap_ofProgram]
  refine mapM_map_eq_ok fun row hrow => ?_
  rw [hf]
  exact columnWord?_int (h row hrow)

/-- A program of integers has the same table where its numbers may be any values. -/
theorem table?_ofProgram {p : Program} (h : ∀ row ∈ p.rows, row.fits = true) :
    (ofProgram p).table? = .ok (RuleRow.columns p.rows) := by
  simp only [RuleRow.fits, Bool.and_eq_true] at h
  have hstates : (ofProgram p).wordColumn? (fun state _ _ => state) =
      .ok (p.rows.map fun row => .int row.state) :=
    wordColumn?_ofProgram (fun _ => rfl) fun row hrow => (h row hrow).1.1.1
  have hindices : (ofProgram p).wordColumn? (fun _ index _ => .int index) =
      .ok (p.rows.map fun row => .int row.index) :=
    wordColumn?_ofProgram (fun _ => rfl) fun row hrow => (h row hrow).1.1.2
  have hcolors : (ofProgram p).wordColumn? (fun _ _ rule => rule.color) =
      .ok (p.rows.map fun row => .int row.rule.color) :=
    wordColumn?_ofProgram (fun _ => rfl) fun row hrow => (h row hrow).1.2
  have hnexts : (ofProgram p).wordColumn? (fun _ _ rule => rule.next) =
      .ok (p.rows.map fun row => .int row.rule.next) :=
    wordColumn?_ofProgram (fun _ => rfl) fun row hrow => (h row hrow).2
  have hmoves : ((ofProgram p).entries.flatMap fun entry =>
      entry.2.map fun r => Json.str [.scalar r.move.symbol]) =
        p.rows.map fun row => .str [.scalar row.rule.move.symbol] := by
    have hflat : ((ofProgram p).entries.flatMap fun entry =>
        entry.2.map fun r => Json.str [.scalar r.move.symbol]) =
          p.flat.map fun added => .str [.scalar added.2.move.symbol] := by
      unfold ofProgram Program.flat
      rw [List.flatMap_map, List.map_flatMap]
      simp only [List.map_map, Function.comp_def]
      rfl
    rw [hflat, ← p.map_rule_rows, List.map_map]
    rfl
  unfold table?
  rw [hstates, hindices, hcolors, hnexts]
  show Except.ok _ = _
  rw [hmoves]
  rfl

end LooseProgram

/-! ## Payloads -/

namespace Program

/-- The rule objects of a payload beside their keys, key by key. -/
def ruleObjects : Json → List (Text × Json)
  | .obj members => members.flatMap fun (key, rules) =>
    match rules with
    | .arr items => items.map (key, ·)
    | _ => []
  | _ => []

theorem ruleObjects_toPayload (p : Program) :
    ruleObjects p.toPayload = p.rows.map fun row => (Text.ofInt row.state, row.rule.toJson) := by
  have hflat : ruleObjects p.toPayload = p.flat.map fun added =>
      (Text.ofInt added.1, added.2.toJson) := by
    simp only [toPayload, ruleObjects, flat, List.flatMap_map, List.map_flatMap, List.map_map,
      Function.comp_def]
  rw [hflat, ← map_rule_rows, List.map_map]
  rfl

end Program

/-- A row records a rule object of a payload: its state is the one that the key denotes, and it has
the color, the move and the next state of the object. -/
structure RuleRow.Records (row : RuleRow) (object : Text × Json) : Prop where
  key : Numeral.readInt? .standard object.1 = .ok row.state
  rule : object.2 = .obj [(("writeColor" : Text), .int row.rule.color),
    (("move" : Text), .str [.scalar row.rule.move.symbol]),
    (("nextState" : Text), .int row.rule.next)]

namespace Program

variable {p : Program}

theorem forall₂_records (h : ∀ row ∈ p.rows, row.fits = true) :
    List.Forall₂ RuleRow.Records p.rows (ruleObjects p.toPayload) := by
  rw [ruleObjects_toPayload, List.forall₂_map_right_iff, List.forall₂_same]
  intro row hrow
  refine ⟨Numeral.readInt?_ofInt (isWritable_iff.2 (natAbs_lt_firstTooLong ?_)), rfl⟩
  have hfits := h row hrow
  simp only [RuleRow.fits, Bool.and_eq_true] at hfits
  exact hfits.1.1.1

/-- A payload that was written is read as the entries of its program. -/
theorem readsAs_payload (p : Program) : List.Forall₂ (ReadsAs .unbounded)
    (p.entries.map fun (state, rules) => (Text.ofInt state, Json.arr (rules.map Rule.toJson)))
    p.entries := by
  rw [List.forall₂_map_left_iff, List.forall₂_same]
  rintro ⟨state, rules⟩ -
  refine ⟨Numeral.readInt?_ofInt rfl, _, rfl, ?_⟩
  rw [List.forall₂_map_left_iff, List.forall₂_same]
  exact fun rule _ => rule.describes_toJson .unbounded

/-- The rules of a regular program, added in order, make the program. -/
theorem ofRules_flat (h : p.IsRegular) : ofRules p.flat = p := by
  have hread := ofMembers?_eq_ok (readsAs_payload p)
  have hstates := all_states_of_hasWritableNumbers p.hasWritableNumbers_unbounded
  rw [ofMembers?_payload h hstates] at hread
  exact (Except.ok.inj hread).symm

/-- The rule table of a program whose numbers are words; no list in memory is longer than the words
can count. Its rows are the rule objects of the payload, key by key; the rules of a state are
counted from zero; there are as many rows as rules; and the rules of the rows, added in order, make
the program. Whatever the files hold, these are the columns that are written, if the path takes a
table at all: they stand at the place of the file that goes by the path, and are what a table of the
path is read as. -/
theorem table_tells_payload (hp : Reachable p) (hwords : p.FitsWords)
    (hlists : ∀ entry ∈ p.entries, entry.2.length ≤ 2 ^ 63) :
    ∃ rows, p.table? = .ok rows ∧
      (LooseProgram.ofProgram p).table? = .ok (RuleRow.columns rows) ∧
      List.Forall₂ RuleRow.Records rows (ruleObjects p.toPayload) ∧
      (∀ state, (rows.filter (·.state = state)).map (·.index) =
        List.range ((p.rules? state).getD []).length) ∧
      rows.length = p.ruleCount ∧
      ofRules (rows.map fun row => (row.state, row.rule)) = p ∧
      ∀ (path : Path) (f : Files),
        (∃ e g, (p.writeTable path).runOn f = (.error e, g) ∧
          f.Refuses Files.writeTable path e) ∨
        ∃ made t place, f.Extends made ∧ made.tablePath? path = .ok t ∧
          made.writablePlace? t = .ok place ∧
          let g := made.put place (.table (RuleRow.columns rows))
          (p.writeTable path).runOn f = (.ok (), g) ∧
            g.content? place = some (.table (RuleRow.columns rows)) ∧
            (path.IsSound → g.readTable? path = .ok (RuleRow.columns rows)) := by
  have hfits : ∀ row ∈ p.rows, row.fits = true := fun row => fits_of_mem_rows hwords hlists
  have htable := table?_eq_ok hwords hlists
  refine ⟨p.rows, htable, LooseProgram.table?_ofProgram hfits, forall₂_records hfits,
    fun state => ?_, length_rows p, ?_, fun path f => ?_⟩
  · rw [filter_rows hp.isRegular.nodup, map_index_rowsOf]
  · rw [map_rule_rows, ofRules_flat hp.isRegular]
  · rcases writeTable_of_table? htable path f with
      hrefused | ⟨made, t, place, hmade, ht, hplace, hrun⟩
    · exact .inl hrefused
    · exact .inr ⟨made, t, place, hmade, ht, hplace, hrun, Files.content?_put_self made place _,
        fun hsound => Files.readTable?_put hsound ht hplace _⟩

/-- Two keys of one state were loaded around an empty list, and the greatest word is a color. -/
theorem table_tells_payload_loaded :
    let payload : Json := .obj [
      (("05" : Text), .arr [(⟨2, .up, 6⟩ : Rule).toJson]),
      (("7" : Text), .arr []),
      ((" +5" : Text), .arr [(⟨0, .left, -1⟩ : Rule).toJson])]
    let loaded : Program := ⟨[(5, [⟨2, .up, 6⟩, ⟨0, .left, -1⟩])]⟩
    let p := ((loaded.add (-3) ⟨2 ^ 63 - 1, .down, 0⟩).add 5 ⟨1, .right, 5⟩).haltAfterLast
    let rows : List RuleRow := [⟨5, 0, ⟨2, .up, 6⟩⟩, ⟨5, 1, ⟨0, .left, -1⟩⟩, ⟨5, 2, ⟨1, .right, 5⟩⟩,
      ⟨-3, 0, ⟨2 ^ 63 - 1, .down, -1⟩⟩]
    ofPayload? .standard payload = .ok loaded ∧ p.FitsWords ∧
      (∀ entry ∈ p.entries, entry.2.length ≤ 2 ^ 63) ∧ p.table? = .ok rows ∧
      List.Forall₂ RuleRow.Records rows (ruleObjects p.toPayload) ∧
      ofRules (rows.map fun row => (row.state, row.rule)) = p := by
  intro payload loaded p rows
  have hload : ofPayload? .standard payload = .ok loaded := by rfl
  have hloaded : Reachable loaded := .load .standard payload hload
  have hp : Reachable p := ((hloaded.add _ _).add _ _).haltAfterLast
  have hwords : p.FitsWords := ⟨by decide, by decide, by decide⟩
  have hlists : ∀ entry ∈ p.entries, entry.2.length ≤ 2 ^ 63 := by decide
  obtain ⟨told, htable, -, hobjects, -, -, hback, -⟩ := table_tells_payload hp hwords hlists
  have hrows : p.table? = .ok rows := by rfl
  obtain rfl : told = rows := Except.ok.inj (htable.symm.trans hrows)
  exact ⟨hload, hwords, hlists, hrows, hobjects, hback⟩

end Program
end Turmite
