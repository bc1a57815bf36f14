import Turmite.Proofs.Account
import Turmite.Proofs.ProgramDocument
import Turmite.Program.File

/-!
# Documents and tables of compiled programs

Any grid with a canvas compiles to the program of a tour, the tour of the end alone if nothing is
painted (`Bench.exists_emitted_of_compile`). The program has a rule table if its last number fits a
word, for the other numbers but the colors are less (`Grid.fits_rows_emitted`). Its document is as
deep as that of any other program (`Program.depth_toDocument_le`), and is written if the next free
state is (`Bench.isWritable_of_compile`).
-/

namespace Turmite

namespace Json

theorem itemDepth_le {items : List Json} {n : Nat} (h : ∀ v ∈ items, v.depth ≤ n) :
    itemDepth items ≤ n := by
  induction items with
  | nil => exact Nat.zero_le n
  | cons v items ih =>
    obtain ⟨hv, hitems⟩ := List.forall_mem_cons.1 h
    exact Nat.max_le.2 ⟨hv, ih hitems⟩

theorem memberDepth_le {members : Members} {n : Nat} (h : ∀ m ∈ members, m.2.depth ≤ n) :
    memberDepth members ≤ n := by
  induction members with
  | nil => exact Nat.zero_le n
  | cons m members ih =>
    obtain ⟨hm, hmembers⟩ := List.forall_mem_cons.1 h
    exact Nat.max_le.2 ⟨hm, ih hmembers⟩

theorem mem_itemIntegers {n : Int} {items : List Json} :
    n ∈ itemIntegers items ↔ ∃ v ∈ items, n ∈ v.integers := by
  induction items with
  | nil => simp [itemIntegers]
  | cons v items ih => simp [itemIntegers, ih]

theorem mem_memberIntegers {n : Int} {members : Members} :
    n ∈ memberIntegers members ↔ ∃ m ∈ members, n ∈ m.2.integers := by
  induction members with
  | nil => simp [memberIntegers]
  | cons m members ih => simp [memberIntegers, ih]

end Json

namespace Program

variable {limits : Limits} {p : Program} {metadata : Json} {chars : List Char}

/-- The rules of a program lie three brackets deep. -/
theorem depth_toPayload_le (p : Program) : p.toPayload.depth ≤ 3 := by
  have hrule (r : Rule) : r.toJson.depth = 1 := rfl
  refine Nat.succ_le_succ (Json.memberDepth_le fun m hm => ?_)
  obtain ⟨⟨state, rules⟩, -, rfl⟩ := List.mem_map.1 hm
  refine Nat.succ_le_succ (Json.itemDepth_le fun v hv => ?_)
  obtain ⟨r, -, rfl⟩ := List.mem_map.1 hv
  rw [hrule]

theorem depth_toDocument_le (hm : metadata.depth ≤ 3) : (p.toDocument metadata).depth ≤ 4 := by
  have hm' : (if metadata.isTruthy then metadata else .obj []).depth ≤ 3 := by
    split_ifs
    · exact hm
    · exact Nat.le_add_left 1 2
  refine Nat.succ_le_succ (Json.memberDepth_le fun m h => ?_)
  simp only [List.mem_cons, List.not_mem_nil, or_false] at h
  rcases h with rfl | rfl | rfl
  · exact Nat.zero_le 3
  · exact hm'
  · exact p.depth_toPayload_le

/-- The integers of a payload are the colors and the next states of the rules. -/
theorem mem_integers_toPayload {n : Int} : n ∈ p.toPayload.integers ↔
    ∃ entry ∈ p.entries, ∃ rule ∈ entry.2, n = rule.color ∨ n = rule.next := by
  have hrule (r : Rule) : r.toJson.integers = [r.color, r.next] := rfl
  unfold toPayload
  simp only [Json.integers, Json.mem_memberIntegers, Json.mem_itemIntegers, List.mem_map,
    exists_exists_and_eq_and, hrule, List.mem_cons, List.not_mem_nil, or_false]

/-- The integers of a document are its version and those of its metadata and its payload. -/
theorem mem_integers_toDocument {n : Int} (hm : metadata.isTruthy = true) :
    n ∈ (p.toDocument metadata).integers ↔
      n = schemaVersion ∨ n ∈ metadata.integers ∨ n ∈ p.toPayload.integers := by
  unfold toDocument
  rw [if_pos hm]
  simp [Json.integers, Json.memberIntegers]

/-- The most digits of a number in a document. -/
def mostDigits : Nat := 4300

/-- The least number with more digits than a document may have. -/
def firstTooLong : Nat := 10 ^ mostDigits

theorem isWritable_iff {n : Int} :
    Json.isWritable .standard n = true ↔ n.natAbs < firstTooLong := by
  unfold firstTooLong
  rw [← Nat.length_toDigits_le_iff (by decide) (by decide)]
  exact decide_eq_true_iff

/-- No word has so many digits. -/
theorem natAbs_lt_firstTooLong {n : Int} (h : fitsWord n = true) : n.natAbs < firstTooLong := by
  have hdigits : 19 < mostDigits := by decide
  have hword : n.natAbs ≤ 10 ^ 19 := by
    have hbounds := fitsWord_iff.1 h
    omega
  unfold firstTooLong
  exact Nat.lt_of_le_of_lt hword (Nat.pow_lt_pow_right (by decide) hdigits)

/-! ## Rows -/

theorem rows_single (rules : List (Int × Rule)) :
    (single rules).rows = rules.map fun (state, rule) => ⟨state, 0, rule⟩ := by
  unfold rows single
  rw [List.flatMap_map, ← List.flatMap_pure_eq_map]
  rfl

end Program

/-- The greatest number in the rules of a walk but for the colors: the last state, if the turmite is
to stop, else the state after it. -/
def lastNumber (stopAfterDone : Bool) (next : Int) : Int :=
  if stopAfterDone then next - 1 else next

namespace Grid

open Emit Program

theorem exists_color_of_mem_movesFrom {m : Metric} {color : Point → Int} {state s : Int}
    {rule : Rule} {cell : Point} {moves : List Direction}
    (h : (s, rule) ∈ movesFrom m color state cell moves) : ∃ q, rule.color = color q := by
  induction moves generalizing state cell with
  | nil => simp [movesFrom] at h
  | cons d moves ih =>
    rcases List.mem_cons.1 h with heq | hmem
    · cases heq
      exact ⟨cell, rfl⟩
    · exact ih hmem

variable [Memory] {config : GridConfig} (c : Canvas config) {p : Point} {r : List Point}
  {heading : Direction} {offset : Int} {stopAfterDone : Bool} {state : Int} {rule : Rule}

theorem fitsWord_color_of_mem_emittedRules
    (h : (state, rule) ∈ emittedRules c p r heading offset stopAfterDone) :
    fitsWord rule.color = true := by
  rcases List.mem_append.1 h with hmem | hmem
  · obtain ⟨q, hq⟩ := exists_color_of_mem_movesFrom hmem
    rw [hq]
    exact c.fitsWord_get q
  · cases List.mem_singleton.1 hmem
    exact c.fitsWord_get _

/-- The states of a walk and the states that follow them are no greater than the last number. -/
theorem le_lastNumber_of_mem_emittedRules
    (h : (state, rule) ∈ emittedRules c p r heading offset stopAfterDone) :
    let last := lastNumber stopAfterDone (offset + (walk config.toMetric (p :: r) heading).length)
    offset ≤ state ∧ state ≤ last ∧
      (rule.next = haltState ∨ offset ≤ rule.next ∧ rule.next ≤ last) := by
  have hstate : state ∈ (emittedRules c p r heading offset stopAfterDone).map (·.1) :=
    List.mem_map.2 ⟨_, h, rfl⟩
  have hnext := next_of_mem_emittedRules c heading offset stopAfterDone h
  rw [states_emittedRules, mem_states_movesFrom] at hstate
  unfold lastNumber
  cases stopAfterDone
  · simp only [stateAfter, Bool.false_eq_true, if_false, ite_self] at hnext ⊢
    omega
  · simp only [stateAfter, if_true] at hnext ⊢
    split_ifs at hnext
    · exact ⟨hstate.1, by omega, .inl hnext⟩
    · exact ⟨hstate.1, by omega, .inr (by omega)⟩

/-- The rule of the last state has the last number. -/
theorem exists_lastNumber_emittedRules (p : Point) (r : List Point) (heading : Direction)
    (offset : Int) (stopAfterDone : Bool) :
    ∃ state rule, (state, rule) ∈ emittedRules c p r heading offset stopAfterDone ∧
      lastNumber stopAfterDone (offset + (walk config.toMetric (p :: r) heading).length) =
        if stopAfterDone then state else rule.next := by
  have hlength := length_walk (m := config.toMetric) (p :: r) heading
  have hlast : offset + (walk config.toMetric (p :: r) heading).length - 1 ∈
      (emittedRules c p r heading offset stopAfterDone).map (·.1) := by
    rw [states_emittedRules, mem_states_movesFrom]
    omega
  obtain ⟨⟨state, rule⟩, hmem, hstate⟩ := List.mem_map.1 hlast
  have hnext := next_of_mem_emittedRules c heading offset stopAfterDone hmem
  simp only at hstate
  rw [if_pos (by omega)] at hnext
  refine ⟨state, rule, hmem, ?_⟩
  unfold lastNumber
  cases stopAfterDone
  · rw [hnext, hstate]
    simp [stateAfter]
  · rw [hstate]
    rfl

/-- The numbers of an emitted program fit words if the last one does. -/
theorem fits_rows_emitted (h : ∀ q ∈ p :: r, config.Contains q) (heading : Direction)
    {offset : Int} (h0 : 0 ≤ offset) (stopAfterDone : Bool) :
    (emitted c p r heading offset stopAfterDone).program.rows.all RuleRow.fits = true ↔
      lastNumber stopAfterDone (emitted c p r heading offset stopAfterDone).nextState ≤
        Int64.maxValue.toInt := by
  rw [program_emitted c h, nextState_emitted c h, rows_single, List.all_map, List.all_eq_true]
  have hrow (state : Int) (rule : Rule) : (RuleRow.fits ⟨state, 0, rule⟩ = true) ↔
      fitsWord state = true ∧ fitsWord rule.color = true ∧ fitsWord rule.next = true := by
    have hzero : fitsWord 0 = true := by decide
    simp only [RuleRow.fits, Bool.and_eq_true, Nat.cast_zero, hzero, and_true, and_assoc]
  constructor
  · intro hfits
    obtain ⟨state, rule, hmem, hlast⟩ :=
      exists_lastNumber_emittedRules c p r heading offset stopAfterDone
    obtain ⟨hoffset, hle, -⟩ := le_lastNumber_of_mem_emittedRules c hmem
    obtain ⟨hstate, -, hnext⟩ := (hrow state rule).1 (hfits _ hmem)
    rw [← fitsWord_iff_of_nonneg (by omega), hlast]
    cases stopAfterDone
    · exact hnext
    · exact hstate
  · intro hlast
    rintro ⟨state, rule⟩ hmem
    have hhalt : fitsWord haltState = true := by decide
    obtain ⟨hoffset, hle, hnext⟩ := le_lastNumber_of_mem_emittedRules c hmem
    refine (hrow state rule).2 ⟨?_, fitsWord_color_of_mem_emittedRules c hmem, ?_⟩
    · exact (fitsWord_iff_of_nonneg (by omega)).2 (by omega)
    · rcases hnext with hnext | ⟨hlow, hhigh⟩
      · rw [hnext]
        exact hhalt
      · exact (fitsWord_iff_of_nonneg (by omega)).2 (by omega)

/-- The numbers of an emitted program are short enough for a document if its last state is. -/
theorem isWritable_of_mem_emittedRules (h0 : 0 ≤ offset)
    (hnext : offset + (walk config.toMetric (p :: r) heading).length < firstTooLong)
    (hmem : (state, rule) ∈ emittedRules c p r heading offset stopAfterDone) :
    Json.isWritable .standard state = true ∧ Json.isWritable .standard rule.color = true ∧
      Json.isWritable .standard rule.next = true := by
  have hhalt : Json.isWritable .standard haltState = true := by decide
  obtain ⟨hoffset, hle, hrule⟩ := le_lastNumber_of_mem_emittedRules c hmem
  have hlast : lastNumber stopAfterDone (offset + (walk config.toMetric (p :: r) heading).length) <
      firstTooLong := by
    unfold lastNumber
    split_ifs <;> omega
  refine ⟨isWritable_iff.2 (by omega), ?_, ?_⟩
  · exact isWritable_iff.2 (natAbs_lt_firstTooLong (fitsWord_color_of_mem_emittedRules c hmem))
  · rcases hrule with hrule | ⟨hlow, hhigh⟩
    · rw [hrule]
      exact hhalt
    · exact isWritable_iff.2 (by omega)

end Grid

namespace Bench

variable [Memory] {config : GridConfig} {c : Canvas config} {start finish : Option Point}
  {heading : Direction} {settings : CompileConfig} {clock : Clock} {result : Compiled}
  {bench : Bench config}

/-- A grid without paint is compiled to the epilogue alone, whatever the start is. -/
theorem compile_eq_ok_of_blank (hblank : c.painted = [])
    (h : (compile (start.map Stop.point) (finish.map Stop.point) heading settings).runOn
      ⟨⟨some c⟩, clock⟩ = (.ok result, bench)) :
    let goal := config.normalize (finish.getD (Grid.defaultStart config))
    config.Enterable goal heading ∧
      result = { Grid.emitted c goal [] heading settings.stateOffset settings.stopAfterDone with
        tour := [], pathMoves := 0, empty := true } ∧
      bench.grid = ⟨some c⟩ := by
  have hempty : c.painted.isEmpty = true := List.isEmpty_iff.2 hblank
  unfold compile at h
  rw [endCell_point, endCell_point, Procedure.runOn_bind_of_eq_ok (Procedure.runOn_ofExcept _ _),
    Procedure.runOn_bind_of_eq_ok (Procedure.runOn_ofExcept _ _)] at h
  obtain ⟨_, henter, h⟩ := Procedure.runOn_ofExcept_bind_eq_ok.1 h
  obtain ⟨_, _, hdirty, h⟩ := Procedure.runOn_within_bind_eq_ok.1 h
  rw [Grid.runOn_dirtyPoints] at hdirty
  obtain ⟨heq, rfl⟩ := Prod.mk.inj hdirty
  obtain rfl := Except.ok.inj heq
  rw [hempty, if_pos rfl] at h
  obtain ⟨_, _, htour, h⟩ := Procedure.runOn_within_bind_eq_ok.1 h
  rw [← List.map_singleton (f := Stop.point)] at htour
  obtain ⟨p, r, hcells, -, -, rfl, rfl⟩ := Grid.compileTour_eq_ok htour
  rw [List.map_singleton, config.normalize_normalize] at hcells
  obtain ⟨rfl, rfl⟩ := List.cons.inj hcells
  rw [Procedure.runOn_pure] at h
  obtain ⟨h1, rfl⟩ := Prod.mk.inj h
  exact ⟨Grid.ensureReachable_eq_ok.1 henter, (Except.ok.inj h1).symm, rfl⟩

/-- Whatever is painted, a grid is compiled to the program of a tour of its cells. -/
theorem exists_emitted_of_compile
    (h : (compile (start.map Stop.point) (finish.map Stop.point) heading settings).runOn
      ⟨⟨some c⟩, clock⟩ = (.ok result, bench)) :
    ∃ p r, (∀ q ∈ p :: r, config.Contains q) ∧
      result.program =
        (Grid.emitted c p r heading settings.stateOffset settings.stopAfterDone).program ∧
      result.nextState =
        (Grid.emitted c p r heading settings.stateOffset settings.stopAfterDone).nextState := by
  by_cases hblank : c.painted = []
  · obtain ⟨-, rfl, -⟩ := compile_eq_ok_of_blank hblank h
    exact ⟨_, [], by simpa using config.contains_normalize _, rfl, rfl⟩
  · obtain ⟨p, r, plan, -, -, hcontains, -, -, rfl, -⟩ := exists_tour_of_compile hblank h
    exact ⟨p, r, hcontains, rfl, rfl⟩

/-- What is compiled has states from the first one up to the next free one. -/
theorem offset_le_nextState
    (h : (compile (start.map Stop.point) (finish.map Stop.point) heading settings).runOn
      ⟨⟨some c⟩, clock⟩ = (.ok result, bench)) : settings.stateOffset ≤ result.nextState := by
  obtain ⟨p, r, hcontains, -, hnext⟩ := exists_emitted_of_compile h
  rw [hnext, Grid.nextState_emitted c hcontains]
  omega

/-- The numbers of a compiled program are short enough for a document if the next free state is. -/
theorem isWritable_of_compile
    (h : (compile (start.map Stop.point) (finish.map Stop.point) heading settings).runOn
      ⟨⟨some c⟩, clock⟩ = (.ok result, bench)) (hnext : result.nextState < Program.firstTooLong) :
    ∀ entry ∈ result.program.entries, Json.isWritable .standard entry.1 = true ∧
      ∀ rule ∈ entry.2, Json.isWritable .standard rule.color = true ∧
        Json.isWritable .standard rule.next = true := by
  obtain ⟨p, r, hcontains, hprogram, hlast⟩ := exists_emitted_of_compile h
  rw [hlast, Grid.nextState_emitted c hcontains] at hnext
  rw [hprogram, Grid.program_emitted c hcontains]
  intro entry hentry
  obtain ⟨⟨state, rule⟩, hmem, rfl⟩ := List.mem_map.1 hentry
  obtain ⟨hstate, hcolor, hrule⟩ :=
    Grid.isWritable_of_mem_emittedRules c (Int.natCast_nonneg _) hnext hmem
  refine ⟨hstate, fun rule' hrule' => ?_⟩
  obtain rfl := List.mem_singleton.1 hrule'
  exact ⟨hcolor, hrule⟩

/-- A compiled program is regular. -/
theorem isRegular_of_compile
    (h : (compile (start.map Stop.point) (finish.map Stop.point) heading settings).runOn
      ⟨⟨some c⟩, clock⟩ = (.ok result, bench)) : result.program.IsRegular := by
  obtain ⟨p, r, hcontains, hprogram, -⟩ := exists_emitted_of_compile h
  rw [hprogram, Grid.program_emitted c hcontains]
  refine ⟨?_, ?_⟩
  · rw [Program.states_single]
    exact Grid.nodup_states_emittedRules c heading _ _
  · intro entry hentry
    obtain ⟨rule, -, rfl⟩ := List.mem_map.1 hentry
    exact List.cons_ne_nil _ _

end Bench

end Turmite
