import Turmite.Proofs.Compilability
import Turmite.Proofs.CompileStages
import Turmite.Proofs.NearestValue
import Turmite.Proofs.Publication
import Turmite.Proofs.SettingOrder

/-!
# Bad input of the compile command

Of most bad input the user is told. Of some nobody is: an error escapes, although it is the input
that is bad. Which input that is, is told exactly (`CompileCommand.prepare_eq_error`), stage by
stage: the configuration, the settings in their order, the constants, and the grid. What comes after
that never escapes, for a grid that was read has a canvas (`Job.count?_cases`,
`Job.compiled_cases`).
-/

namespace Turmite

namespace Estimate

open Binary64 in
theorem exists_rounded? {n : Nat} (h : n ≤ 2 ^ 53) : ∃ x, Json.rounded? n = .ok x := by
  have hfinite : nearestBits (2 ^ 53) 1 < infinityBits := by decide +kernel
  have hn : nearestBits n 1 < infinityBits :=
    Nat.lt_of_le_of_lt (nearestBits_natCast_mono h) hfinite
  have hsome : ∃ x, ofInt? (n : Int) = some x := by
    unfold ofInt? ofRatio?
    rw [Int.natAbs_natCast]
    simp only [hn, if_true]
    exact ⟨_, rfl⟩
  obtain ⟨x, hx⟩ := hsome
  unfold Json.rounded?
  rw [hx]
  exact ⟨x, rfl⟩

theorem passes?_natCast (n : Nat) :
    passes? (.int n) = .ok (.int (if 50 < n then 50 else n : Nat)) := by
  have hless : (Json.int passCap).isLess? (.int n) = .ok (decide (50 < n)) :=
    Json.isLess?_natCast 50 n
  unfold passes?
  rw [hless]
  show (pure (if decide (50 < n) then Json.int passCap else .int n) : Except Error Json) = _
  by_cases h : 50 < n
  · rw [decide_eq_true h, if_pos rfl, if_pos h]
    rfl
  · rw [decide_eq_false h, if_neg Bool.false_ne_true, if_neg h]
    rfl

/-- There is an estimate for as many points as are compiled. -/
theorem exists_ofCount? {n : Nat} (h : n ≤ maxPaintedCells) (constants : CalibrationConstants) :
    ∃ estimate, ofCount? (.int n) constants = .ok estimate := by
  have hmost : n ≤ 500 := h
  have hpairs : n * n ≤ 500 * 500 := Nat.mul_le_mul hmost hmost
  have hsteps : n * n * (if 50 < n then 50 else n) ≤ 500 * 500 * 50 := by
    refine Nat.mul_le_mul hpairs ?_
    split <;> omega
  obtain ⟨pairs, hpairs⟩ := exists_rounded? (n := n * n) (by omega)
  obtain ⟨steps, hsteps⟩ := exists_rounded? (n := n * n * (if 50 < n then 50 else n)) (by omega)
  have hgreedy : greedyMs? (.int n) constants = .ok (pairs * constants.greedy) := by
    refine bind_eq_ok.2 ⟨_, Json.product?_natCast n n, bind_eq_ok.2 ⟨pairs, hpairs, rfl⟩⟩
  have htwoOpt : twoOptMs? (.int n) constants = .ok (steps * constants.twoOpt) := by
    refine bind_eq_ok.2 ⟨_, Json.product?_natCast n n, bind_eq_ok.2 ⟨_, passes?_natCast n, ?_⟩⟩
    exact bind_eq_ok.2 ⟨_, Json.product?_natCast (n * n) _, bind_eq_ok.2 ⟨steps, hsteps, rfl⟩⟩
  have hnonneg : (Json.int n).ensureAtLeast 0 InvalidValue.pointCountNegative = .ok () :=
    Json.ensureAtLeast_natCast (Nat.zero_le n) _
  obtain ⟨name, hclass⟩ : ∃ name, complexity? (.int n) = .ok name := by
    have hbelow (bound : Int) :
        (Json.int n).isBelow? bound = .ok (decide ((n : Int) < bound)) := rfl
    unfold complexity?
    rw [hbelow, hbelow]
    cases decide ((n : Int) < 100)
    · cases decide ((n : Int) < 500) <;> exact ⟨_, rfl⟩
    · exact ⟨_, rfl⟩
  unfold ofCount?
  rw [hnonneg, hgreedy, htwoOpt, passes?_natCast, hclass]
  exact ⟨_, rfl⟩

end Estimate

namespace CompileCommand

section Jobs

variable [Memory] {job : Job}

/-- A grid of not too many painted cells is counted. -/
theorem Job.count?_cases {c : Canvas job.config} (hgrid : job.grid = ⟨some c⟩) :
    (∃ cause, job.count? = .error (.refused cause)) ∨ ∃ count, job.count? = .ok count := by
  have hpainted : (Grid.dirtyPoints.runOn job.grid).1 = .ok c.painted := by
    rw [hgrid, Grid.runOn_dirtyPoints]
  unfold Job.count?
  rw [hpainted]
  by_cases hcount : c.painted.length ≤ maxPaintedCells
  · obtain ⟨estimate, hestimate⟩ := Estimate.exists_ofCount? hcount job.constants
    refine .inr ⟨(c.painted.length, estimate), ?_⟩
    show (if decide (c.painted.length ≤ maxPaintedCells) then _ else _) = _
    rw [decide_eq_true hcount, hestimate]
    rfl
  · refine .inl ⟨.tooManyCells c.painted.length, ?_⟩
    show (if decide (c.painted.length ≤ maxPaintedCells) then _ else _) = _
    rw [decide_eq_false hcount]
    rfl

/-- A grid with a canvas is compiled, or refused for its heading. -/
theorem Job.compiled_cases {c : Canvas job.config} (hgrid : job.grid = ⟨some c⟩) {clock : Clock}
    (hclock : clock.readings ≠ []) :
    (∃ cause, (job.compiled clock).1.mapError argumentFailure = .error (.refused cause)) ∨
      ∃ compiled, (job.compiled clock).1 = .ok compiled := by
  unfold Job.compiled
  rw [hgrid]
  by_cases henter : job.config.Enterable (job.config.normalize
      ((job.settings.finish).getD (Grid.defaultStart job.config))) job.settings.heading
  · obtain ⟨result, bench, h⟩ := Bench.exists_compile (c := c) hclock henter job.settings.start
      job.settings.config
    rw [h]
    exact .inr ⟨result, rfl⟩
  · rw [Bench.runOn_compile_of_not_enterable henter]
    exact .inl ⟨_, rfl⟩

end Jobs

/-! ## Errors that escape -/

variable {files : Files} {usage : Usage} {document : Json} {arguments : List Text}

theorem inputFailure_eq_error {e cause : Error} :
    inputFailure e = .error cause ↔ e = cause ∧ e.escapes = true := by
  unfold inputFailure Error.escapes
  split
  · simp
  · unfold Error.toFailure
    by_cases h : e.isValueFault = true
    · simp only [h, if_true]
      simp
    · simp only [h]
      simp

/-- The job is not read because of its settings, its constants or its grid. -/
theorem escapes_jobOfUsage? [Memory]
    (hjson : ∀ settings, Settings.ofUsage? usage document = .ok settings →
      Grid.isArrayPath settings.grid = false) :
    Escapes (Job.ofUsage? files usage document) ↔
      Escapes (Settings.ofUsage? usage document) ∨
        ∃ settings, Settings.ofUsage? usage document = .ok settings ∧
          (CalibrationConstants.FileMisleads files settings.calibration ∨
            (∃ constants, CalibrationConstants.load? files settings.calibration = .ok constants) ∧
              Grid.FileMisleads files settings.grid) := by
  unfold Job.ofUsage?
  rw [escapes_bind]
  refine or_congr_right (exists_congr fun settings => and_congr_right fun hsettings => ?_)
  rw [escapes_bind, CalibrationConstants.escapes_load?]
  refine or_congr_right ?_
  have hgrid : Escapes (Grid.load? files settings.grid settings.looping) ↔
      Grid.FileMisleads files settings.grid := Grid.escapes_load? (hjson settings hsettings)
  constructor
  · rintro ⟨constants, hconstants, h⟩
    rw [escapes_bind_of_not fun _ => not_escapes_pure _, hgrid] at h
    exact ⟨⟨constants, hconstants⟩, h⟩
  · rintro ⟨⟨constants, hconstants⟩, h⟩
    refine ⟨constants, hconstants, ?_⟩
    rw [escapes_bind_of_not fun _ => not_escapes_pure _, hgrid]
    exact h

/-- Whether it is told that a configuration cannot be read. -/
def isTold : Error → Bool
  | .malformedJson => true
  | .missingFile _ => true
  | _ => false

/-- The path of the configuration, if it is given one. -/
def configPath? (usage : Usage) : Option Path :=
  match usage.get "config" with
  | .null => none
  | .arr _ => none
  | v => some (path v)

/-- A configuration that is a list of paths, or that has no text but is not missing, or a text that
nests too deep or has too long an integer. -/
def ConfigMisleads (files : Files) (usage : Usage) : Prop :=
  (∃ items, usage.get "config" = .arr items) ∨ ∃ p, configPath? usage = some p ∧
    ((∃ e, files.readText? p = .error e ∧ isTold e = false) ∨
      ∃ chars, files.readText? p = .ok chars ∧
        (Json.parse? .standard chars = .error .tooDeep ∨
          Json.parse? .standard chars = .error .numberTooLong))

/-- The document at a path, with what is told of it. -/
def configAt? (files : Files) (p : Path) : Except Failure Json :=
  match files.readJson? p with
  | .ok document => .ok document
  | .error .malformedJson => .error (.refused (.configMalformed p.toText))
  | .error (.missingFile path) => .error (.refused (.configMissing path))
  | .error e => .error (.error e)

theorem configAt?_eq_error {p : Path} : (∃ cause, configAt? files p = .error (.error cause)) ↔
    ∃ e, files.readJson? p = .error e ∧ isTold e = false := by
  unfold configAt?
  rcases files.readJson? p with e | document
  · cases e <;> simp [isTold]
  · simp

theorem readJson?_eq_error {p : Path} :
    (∃ e, files.readJson? p = .error e ∧ isTold e = false) ↔
      (∃ e, files.readText? p = .error e ∧ isTold e = false) ∨
        ∃ chars, files.readText? p = .ok chars ∧
          (Json.parse? .standard chars = .error .tooDeep ∨
            Json.parse? .standard chars = .error .numberTooLong) := by
  unfold Files.readJson?
  rcases files.readText? p with e | chars
  · show (∃ e', Except.error e = .error e' ∧ _) ↔ _
    simp
  · show (∃ e', (Json.parse? .standard chars).mapError Json.Fault.error = .error e' ∧ _) ↔ _
    simp only [Except.ok.injEq, exists_eq_left', reduceCtorEq, false_and, exists_false, false_or]
    rcases Json.parse? .standard chars with (_ | _ | _) | document <;>
      simp [Json.Fault.error, isTold]

theorem document?_eq_error : (∃ cause, document? files usage = .error (.error cause)) ↔
    ConfigMisleads files usage := by
  unfold ConfigMisleads configPath?
  have hread : document? files usage = match usage.get "config" with
      | .null => .ok (.obj [])
      | .arr _ => .error (.error .wrongType)
      | v => configAt? files (path v) := by
    unfold document?
    cases usage.get "config" <;> rfl
  rw [hread]
  rcases usage.get "config" with _ | _ | _ | _ | _ | _ | _ <;>
    simp [configAt?_eq_error, readJson?_eq_error]

/-- The input of a compilation that ends with an error of which nobody is told. -/
def Misleads [Memory] (files : Files) (usage : Usage) : Prop :=
  ConfigMisleads files usage ∨ ∃ document, document? files usage = .ok document ∧
    ((∃ front r back, readings = front ++ r :: back ∧
        (∀ q ∈ front, q.run usage document = .ok ()) ∧ r.Misleads usage document) ∨
      ∃ settings, Settings.ofUsage? usage document = .ok settings ∧
        (CalibrationConstants.FileMisleads files settings.calibration ∨
          (∃ constants, CalibrationConstants.load? files settings.calibration = .ok constants) ∧
            Grid.FileMisleads files settings.grid))

theorem failure_bind {α β : Type} {x : Except Failure α} {f : α → Except Failure β} :
    (∃ cause, (x >>= f) = .error (.error cause)) ↔
      (∃ cause, x = .error (.error cause)) ∨
        ∃ a, x = .ok a ∧ ∃ cause, f a = .error (.error cause) := by
  cases x with
  | error e =>
    show (∃ cause, Except.error e = .error (.error cause)) ↔ _
    simp
  | ok a =>
    show (∃ cause, f a = .error (.error cause)) ↔ _
    simp

theorem failure_mapError {α : Type} {x : Except Error α} :
    (∃ cause, x.mapError inputFailure = .error (.error cause)) ↔ Escapes x := by
  unfold Escapes
  cases x with
  | error e => simp [inputFailure_eq_error]
  | ok a => simp

theorem ofArguments?_eq_error [Memory]
    (hjson : ∀ usage document settings, Usage.ofArguments? options arguments = .ok usage →
      document? files usage = .ok document → Settings.ofUsage? usage document = .ok settings →
        Grid.isArrayPath settings.grid = false) :
    (∃ cause, Job.ofArguments? files arguments = .error (.error cause)) ↔
      ∃ usage, Usage.ofArguments? options arguments = .ok usage ∧ usage.helpAsked = false ∧
        Misleads files usage := by
  unfold Job.ofArguments?
  rcases husage : Usage.ofArguments? options arguments with e | usage
  · simp
  · simp only [Except.ok.injEq, exists_eq_left']
    cases hhelp : usage.helpAsked with
    | true => simp
    | false =>
      simp only [Bool.false_eq_true, if_false, true_and]
      unfold Misleads
      rw [failure_bind, document?_eq_error]
      refine or_congr_right (exists_congr fun document => and_congr_right fun hdocument => ?_)
      rw [failure_mapError, escapes_jobOfUsage? fun settings => hjson usage document settings husage
        hdocument, escapes_ofUsage?]

/-- Up to the program, a run ends with an error of which nobody is told exactly for input that
misleads: otherwise a program is prepared, or the user is told why not, or is given help. -/
theorem prepare_eq_error [Memory] (arguments : List Text) {w : Workspace}
    (hclock : w.clock.readings ≠ [])
    (hjson : ∀ usage document settings, Usage.ofArguments? options arguments = .ok usage →
      document? w.files usage = .ok document → Settings.ofUsage? usage document = .ok settings →
        Grid.isArrayPath settings.grid = false) :
    (∃ cause, ((prepare arguments).runOn w).1 = .error (.error cause)) ↔
      ∃ usage, Usage.ofArguments? options arguments = .ok usage ∧ usage.helpAsked = false ∧
        Misleads w.files usage := by
  rw [← ofArguments?_eq_error hjson, runOn_prepare]
  rcases hjob : Job.ofArguments? w.files arguments with e | job
  · simp
  · simp only [reduceCtorEq, exists_false, iff_false]
    obtain ⟨⟨c, hgrid⟩, -⟩ := ofArguments?_eq_ok hjob
    rintro ⟨cause, h⟩
    rcases Job.count?_cases hgrid with ⟨refusal, hcount⟩ | ⟨count, hcount⟩
    · rw [hcount] at h
      cases h
    · rw [hcount] at h
      simp only at h
      rcases Job.compiled_cases hgrid hclock with ⟨refusal, hcompiled⟩ | ⟨compiled, hcompiled⟩
      · rw [hcompiled] at h
        cases h
      · rw [hcompiled] at h
        cases h

/-- The store with a grid of two columns, and one file more. -/
def deskWith (name content : String) : Workspace :=
  { desk with files := desk.files.put [("work" : Text), (name : Text)] (.text content.toList) }

/-- A grid with `null` for a cell. -/
def nullDesk : Workspace := deskWith "null.json" "[[0, null]]"

/-- Arguments to compile it. -/
def nullArguments : List Text := [("--grid" : Text), ("null.json" : Text)]

/-- Nobody is told of a cell that is `null`. -/
theorem prepare_eq_error_null :
    nullDesk.clock.readings ≠ [] ∧
    (∀ usage document settings, Usage.ofArguments? options nullArguments = .ok usage →
      document? nullDesk.files usage = .ok document →
        Settings.ofUsage? usage document = .ok settings →
          Grid.isArrayPath settings.grid = false) ∧
    ∃ usage, Usage.ofArguments? options nullArguments = .ok usage ∧ usage.helpAsked = false ∧
      Misleads nullDesk.files usage := by
  have hclock : nullDesk.clock.readings ≠ [] := List.cons_ne_nil _ _
  have hjson : ∀ usage document settings, Usage.ofArguments? options nullArguments = .ok usage →
      document? nullDesk.files usage = .ok document →
        Settings.ofUsage? usage document = .ok settings →
          Grid.isArrayPath settings.grid = false := by
    have hpath : ((Usage.ofArguments? options nullArguments).toOption.any fun usage =>
        (document? nullDesk.files usage).toOption.any fun document =>
          (Settings.ofUsage? usage document).toOption.any fun settings =>
            Grid.isArrayPath settings.grid) = false := by decide +kernel
    intro usage document settings husage hdocument hsettings
    rw [husage] at hpath
    change ((document? nullDesk.files usage).toOption.any _) = false at hpath
    rw [hdocument] at hpath
    change ((Settings.ofUsage? usage document).toOption.any _) = false at hpath
    rw [hsettings] at hpath
    exact hpath
  have hescapes : (match ((prepare nullArguments).runOn nullDesk).1 with
      | .error (.error _) => true
      | _ => false) = true := by decide +kernel
  refine ⟨hclock, hjson, (prepare_eq_error nullArguments hclock hjson).1 ?_⟩
  generalize ((prepare nullArguments).runOn nullDesk).1 = result at hescapes ⊢
  rcases result with (_ | _ | cause) | _
  · cases hescapes
  · cases hescapes
  · exact ⟨cause, rfl⟩
  · cases hescapes

/-- A configuration with an infinite first state. -/
def infiniteDesk : Workspace :=
  deskWith "config.json" "\x7b\"grid\": \"g.json\", \"state_offset\": 1e999\x7d"

/-- Arguments to compile with it. -/
def infiniteArguments : List Text := [("--config" : Text), ("config.json" : Text)]

/-- Nobody is told of a first state that is infinite. -/
theorem infinite_offset_escapes :
    ((prepare infiniteArguments).runOn infiniteDesk).1 = .error (.error .overflow) := by
  have hescapes : (match ((prepare infiniteArguments).runOn infiniteDesk).1 with
      | .error (.error .overflow) => true
      | _ => false) = true := by decide +kernel
  generalize ((prepare infiniteArguments).runOn infiniteDesk).1 = result at hescapes ⊢
  rcases result with (_ | _ | cause) | _
  · cases hescapes
  · cases hescapes
  · cases cause <;> first | rfl | cases hescapes
  · cases hescapes

end CompileCommand
end Turmite
