import Turmite.Command.Compile
import Turmite.Proofs.Success

/-!
# Stages of the compile command

The command prepares a program and then writes what it has to tell of it
(`CompileCommand.run_eq`). Up to the program no file is touched: the options and the documents are
read, the painted cells are counted, the time is estimated, and the grid is compiled, which takes
readings of the clock.
-/

namespace Turmite

namespace Command

variable {α β : Type}

theorem runOn_get (w : Workspace) : (get : Command Workspace).runOn w = (.ok w, w) := rfl

/-- A result that is known beforehand. -/
def lift (result : Except Failure α) : Command α := ExceptT.mk (pure result)

theorem runOn_lift (result : Except Failure α) (w : Workspace) :
    (lift result).runOn w = (result, w) := rfl

theorem lift_ok_bind (a : α) (f : α → Command β) : (lift (.ok a) >>= f) = f a := rfl

theorem ofExcept_eq_lift (fail : Error → Failure) (result : Except Error α) :
    ofExcept fail result = lift (result.mapError fail) := rfl

theorem require_eq_lift (condition : Bool) (cause : Refusal) :
    require condition cause = lift (if condition then .ok () else .error (.refused cause)) := by
  cases condition <;> rfl

theorem runOn_onFiles (p : Procedure Files α) (w : Workspace) :
    (onFiles p).runOn w =
      ((p.runOn w.files).1.mapError .error, { w with files := (p.runOn w.files).2 }) := rfl

theorem runOn_bind (c : Command α) (f : α → Command β) (w : Workspace) :
    (c >>= f).runOn w =
      match c.runOn w with
      | (.ok a, v) => (f a).runOn v
      | (.error e, v) => (.error e, v) := by
  show StateT.run (ExceptT.run (c >>= f)) w = _
  simp only [ExceptT.run_bind, StateT.run_bind]
  show (match StateT.run (ExceptT.run c) w with | (r, t) => _) = _
  unfold runOn
  cases StateT.run (ExceptT.run c) w with
  | mk r t => cases r <;> rfl

theorem runOn_bind_of_eq_ok {c : Command α} {f : α → Command β} {a : α} {w v : Workspace}
    (h : c.runOn w = (.ok a, v)) : (c >>= f).runOn w = (f a).runOn v := by
  rw [runOn_bind, h]

end Command

namespace CompileCommand

variable [Memory]

/-- A compiled job, before anything is written. -/
structure Prepared where
  job : Job
  painted : Nat
  estimate : Estimate
  compiled : Compiled

/-- Counts the painted cells, estimates the time and compiles. -/
def Job.prepare (job : Job) : Command Prepared := do
  let (painted, _) := Grid.dirtyPoints.runOn job.grid
  let painted ← Command.ofExcept .error painted
  Command.require (painted.length ≤ maxPaintedCells) (.tooManyCells painted.length)
  let estimate ← Command.ofExcept .error (Estimate.ofCount? (.int painted.length) job.constants)
  let compiled ← job.compile
  pure ⟨job, painted.length, estimate, compiled⟩

/-- The stages up to the program. -/
def prepare (arguments : List Text) : Command Prepared := do
  let usage ← Command.readUsage options arguments
  let document ← ExceptT.mk (pure (document? (← get).files usage))
  let job ← Command.ofExcept inputFailure (Job.ofUsage? (← get).files usage document)
  job.prepare

/-- Writes the results and tells of them. -/
def Prepared.publish (p : Prepared) : Command Summary := do
  Command.onFiles (p.compiled.program.writeDocument p.job.documentPath (p.job.metadata p.compiled))
  Command.onFiles (p.compiled.program.writeTable p.job.tablePath)
  let figure ← p.job.writeFigure p.compiled
  pure ⟨p.job.settings.name, p.painted, p.compiled, p.estimate.totalMs, p.job.documentPath,
    p.job.tablePath, figure⟩

theorem Job.run_eq (job : Job) : job.run = job.prepare >>= Prepared.publish := by
  unfold Job.run Job.prepare Prepared.publish
  simp only [bind_assoc, pure_bind]

/-- The command prepares a program and writes the results. -/
theorem run_eq (arguments : List Text) :
    run arguments = prepare arguments >>= Prepared.publish := by
  unfold run prepare
  simp only [bind_assoc, Job.run_eq]

/-! ## What is prepared -/

/-- The job that arguments ask for, with the documents they name. -/
def Job.ofArguments? (files : Files) (arguments : List Text) : Except Failure Job :=
  match Usage.ofArguments? options arguments with
  | .error e => .error (.refused (.usage e))
  | .ok usage =>
    if usage.helpAsked then .error .help
    else do
      let document ← document? files usage
      (Job.ofUsage? files usage document).mapError inputFailure

/-- The number of painted cells and the estimate for it. -/
def Job.count? (job : Job) : Except Failure (Nat × Estimate) := do
  let painted ← (Grid.dirtyPoints.runOn job.grid).1.mapError .error
  if decide (painted.length ≤ maxPaintedCells) then .ok ()
  else .error (.refused (.tooManyCells painted.length))
  let estimate ← (Estimate.ofCount? (.int painted.length) job.constants).mapError .error
  .ok (painted.length, estimate)

theorem Job.prepare_eq (job : Job) :
    job.prepare = (Command.lift job.count? >>= fun count => (do
      let compiled ← job.compile
      pure ⟨job, count.1, count.2, compiled⟩ : Command Prepared)) := by
  unfold Job.prepare Job.count?
  simp only [Command.ofExcept_eq_lift, Command.require_eq_lift]
  rcases (Grid.dirtyPoints.runOn job.grid).1 with e | painted
  · rfl
  · rw [mapError_ok, Command.lift_ok_bind]
    show _ = Command.lift (do
      if decide (painted.length ≤ maxPaintedCells) then .ok ()
      else .error (.refused (.tooManyCells painted.length))
      let estimate ← (Estimate.ofCount? (.int painted.length) job.constants).mapError .error
      .ok (painted.length, estimate)) >>= _
    by_cases hcount : painted.length ≤ maxPaintedCells
    · rw [decide_eq_true hcount]
      rcases Estimate.ofCount? (.int painted.length) job.constants with e | estimate
      · rfl
      · rfl
    · rw [decide_eq_false hcount]
      rfl

theorem prepare_eq (arguments : List Text) (w : Workspace) :
    (prepare arguments).runOn w =
      (Command.lift (Job.ofArguments? w.files arguments) >>= Job.prepare).runOn w := by
  unfold prepare Job.ofArguments? Command.readUsage
  rcases Usage.ofArguments? options arguments with e | usage
  · rfl
  · by_cases hhelp : usage.helpAsked
    · simp only [hhelp, if_true]
      rfl
    · simp only [hhelp, pure_bind, Bool.false_eq_true, if_false]
      rw [Command.runOn_bind_of_eq_ok (Command.runOn_get w)]
      rcases document? w.files usage with e | document
      · rfl
      · show (do
          let job ← Command.ofExcept inputFailure (Job.ofUsage? w.files usage document)
          job.prepare : Command Prepared).runOn w = _
        rfl

/-- The compilation of a job with the readings that a clock has left. -/
def Job.compiled (job : Job) (clock : Clock) : Except Error Compiled × Bench job.config :=
  (Bench.compile (job.settings.start.map Stop.point) (job.settings.finish.map Stop.point)
    job.settings.heading job.settings.config).runOn ⟨job.grid, clock⟩

theorem Job.runOn_compile (job : Job) (w : Workspace) :
    job.compile.runOn w = ((job.compiled w.clock).1.mapError argumentFailure,
      { w with clock := (job.compiled w.clock).2.clock }) := rfl

/-- What is prepared, read off the documents and the clock. -/
theorem runOn_prepare (arguments : List Text) (w : Workspace) :
    (prepare arguments).runOn w =
      match Job.ofArguments? w.files arguments with
      | .error e => (.error e, w)
      | .ok job =>
        match job.count? with
        | .error e => (.error e, w)
        | .ok (painted, estimate) =>
          ((job.compiled w.clock).1.mapError argumentFailure |>.map fun compiled =>
              ⟨job, painted, estimate, compiled⟩,
            { w with clock := (job.compiled w.clock).2.clock }) := by
  rw [prepare_eq, Command.runOn_bind, Command.runOn_lift]
  rcases Job.ofArguments? w.files arguments with e | job
  · rfl
  · simp only
    rw [Job.prepare_eq, Command.runOn_bind, Command.runOn_lift]
    rcases job.count? with e | ⟨painted, estimate⟩
    · rfl
    · simp only
      rw [Command.runOn_bind, Job.runOn_compile]
      rcases (job.compiled w.clock).1 with e | compiled
      · rfl
      · rfl

/-- Preparing a program takes readings of the clock and changes nothing else. -/
theorem files_prepare (arguments : List Text) (w : Workspace) :
    ((prepare arguments).runOn w).2.files = w.files := by
  rw [runOn_prepare]
  rcases Job.ofArguments? w.files arguments with e | job
  · rfl
  · simp only
    rcases job.count? with e | ⟨painted, estimate⟩
    · rfl
    · rfl

/-- What is prepared is the job of the arguments, and its compilation. -/
theorem prepare_eq_ok {arguments : List Text} {w v : Workspace} {p : Prepared}
    (h : (prepare arguments).runOn w = (.ok p, v)) :
    Job.ofArguments? w.files arguments = .ok p.job ∧ p.job.count? = .ok (p.painted, p.estimate) ∧
      (p.job.compiled w.clock).1 = .ok p.compiled := by
  rw [runOn_prepare] at h
  rcases hjob : Job.ofArguments? w.files arguments with e | job
  · rw [hjob] at h
    cases h
  · rw [hjob] at h
    simp only at h
    rcases hcount : job.count? with e | ⟨painted, estimate⟩
    · rw [hcount] at h
      cases h
    · rw [hcount] at h
      simp only at h
      rcases hcompiled : (job.compiled w.clock).1 with e | compiled
      · rw [hcompiled] at h
        cases h
      · rw [hcompiled] at h
        cases h
        exact ⟨rfl, hcount, hcompiled⟩

end CompileCommand
end Turmite
