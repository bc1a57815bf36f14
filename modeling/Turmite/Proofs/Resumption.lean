import Turmite.Proofs.Outcome

/-!
# Replays that are resumed

A run may be cut after any number of steps and resumed where it was cut, with the state, the
position and the trail that it has come to (`Program.runFrom_add`). The trail behind a run has no
influence on it (`Program.runFrom_eq_map`), so what is resumed may as well be a replay of its own,
whose trail is joined to the first one at the cell that they share (`Program.replay_resumes`). A run
that stops before it is cut stops again, for the same reason, when it is resumed.
-/

namespace Turmite

/-- A run with the cells of an earlier trail, the latest first, behind it. -/
def Replay.after (trail : List Point) (r : Replay) : Replay :=
  { r with steps := trail.length + r.steps, trail := trail.reverse ++ r.trail }

theorem Replay.after_after_singleton (p : Point) (trail : List Point) (r : Replay) :
    (r.after [p]).after trail = r.after (p :: trail) := by
  unfold after
  simp [Nat.add_assoc]

theorem Metric.dropLast_track {m : Metric} (p : Point) (moves : List Direction) :
    (m.track p moves).dropLast = m.departures p moves := by
  rw [track_eq_concat, List.dropLast_concat]

namespace Program

section

variable [Memory] {config : GridConfig} {p : Program} {state : Int}

/-- A run that stops has no step to make. -/
theorem runFrom_of_stops {reason : HaltReason} (h : p.nextRule state = .error reason) (limit : Nat)
    (position : Point) (trail : List Point) :
    (p.runFrom limit state position trail : Procedure (Grid config) Replay) =
      pure ⟨position, trail.length, state, reason, (position :: trail).reverse⟩ := by
  rw [runFrom, h]

theorem runFrom_succ {first : Except Error Rule} (h : p.nextRule state = .ok first) (limit : Nat)
    (position : Point) (trail : List Point) :
    (p.runFrom (limit + 1) state position trail : Procedure (Grid config) Replay) =
      Procedure.ofExcept first >>= fun rule => Grid.paint position rule.color >>= fun _ =>
        p.runFrom limit rule.next (config.step position rule.move) (position :: trail) := by
  rw [runFrom, h]

/-- A run without steps to make stops, for one reason or another. -/
theorem exists_runFrom_zero (config : GridConfig) (p : Program) (state : Int) :
    ∃ reason, ∀ position trail,
      (p.runFrom 0 state position trail : Procedure (Grid config) Replay) =
        pure ⟨position, trail.length, state, reason, (position :: trail).reverse⟩ := by
  rcases hrule : p.nextRule state with reason | first
  · exact ⟨reason, runFrom_of_stops hrule 0⟩
  · refine ⟨.maxSteps, fun position trail => ?_⟩
    rw [runFrom, hrule]

/-- A run does not depend on the trail behind it. -/
theorem runFrom_eq_map (p : Program) (limit : Nat) (state : Int) (position : Point)
    (trail : List Point) :
    (p.runFrom limit state position trail : Procedure (Grid config) Replay) =
      Replay.after trail <$> p.runFrom limit state position [] := by
  induction limit generalizing state position trail with
  | zero =>
    obtain ⟨reason, hzero⟩ := exists_runFrom_zero config p state
    rw [hzero, hzero, map_pure]
    simp [Replay.after]
  | succ limit ih =>
    rcases hrule : p.nextRule state with reason | first
    · rw [runFrom_of_stops hrule, runFrom_of_stops hrule, map_pure]
      simp [Replay.after]
    · rw [runFrom_succ hrule, runFrom_succ hrule, map_bind]
      refine bind_congr fun rule => ?_
      rw [map_bind]
      refine bind_congr fun _ => ?_
      rw [ih, ih _ _ [position], Functor.map_map]
      simp only [Replay.after_after_singleton]

/-- A run may be cut and resumed. One that stops before it is cut stops there again. -/
theorem runFrom_add (p : Program) (m n : Nat) (state : Int) (position : Point)
    (trail : List Point) :
    (p.runFrom (m + n) state position trail : Procedure (Grid config) Replay) =
      p.runFrom m state position trail >>= fun first =>
        p.runFrom n first.state first.position first.trail.reverse.tail := by
  induction m generalizing state position trail with
  | zero =>
    obtain ⟨reason, hzero⟩ := exists_runFrom_zero config p state
    rw [Nat.zero_add, hzero, pure_bind, List.reverse_reverse, List.tail_cons]
  | succ m ih =>
    rcases hrule : p.nextRule state with reason | first
    · rw [runFrom_of_stops hrule, runFrom_of_stops hrule, pure_bind, List.reverse_reverse,
        List.tail_cons, runFrom_of_stops hrule]
    · rw [Nat.add_right_comm, runFrom_succ hrule, runFrom_succ hrule]
      simp only [bind_assoc, ih]

theorem runOn_replay (p : Program) (start : Point) (state : Int) {limit : Int} (h : 0 ≤ limit)
    (g : Grid config) :
    (p.replay start state limit).runOn g =
      (p.runFrom limit.toNat state (config.normalize start) []).runOn g := by
  unfold replay
  rw [decide_eq_true h, Procedure.runOn_bind_of_eq_ok (Procedure.runOn_require_true _ _)]

/-- A replay that is not refused is one that is cut after any number of steps and resumed from the
position and the state that it has come to. The trails are joined at the cell that they share. -/
theorem replay_resumes {start : Point} {startState m n : Int} (hm : 0 ≤ m) (hn : 0 ≤ n)
    {c : Canvas config} {replay : Replay} {g : Grid config}
    (h : (p.replay start startState (m + n)).runOn ⟨some c⟩ = (.ok replay, g)) :
    ∃ first middle second,
      (p.replay start startState m).runOn ⟨some c⟩ = (.ok first, ⟨some middle⟩) ∧
      (p.replay first.position first.state n).runOn ⟨some middle⟩ = (.ok second, g) ∧
      second.position = replay.position ∧ second.state = replay.state ∧
      second.haltedBy = replay.haltedBy ∧ first.steps + second.steps = replay.steps ∧
      second.trail.head? = first.trail.getLast? ∧
      first.trail ++ second.trail.tail = replay.trail := by
  have hstart := config.contains_normalize start
  rw [runOn_replay p start _ (Int.add_nonneg hm hn), Int.toNat_add hm hn, runFrom_add,
    Procedure.runOn_bind_eq_ok] at h
  obtain ⟨first, g', hfirst, h⟩ := h
  rw [runFrom_eq_map, map_eq_pure_bind, Procedure.runOn_bind_eq_ok] at h
  obtain ⟨second, g'', hsecond, h⟩ := h
  obtain ⟨hreplay, rfl⟩ := Prod.mk.inj h
  obtain rfl := Except.ok.inj hreplay
  have houtcome := outcome_runFrom hstart hfirst
  obtain ⟨middle, rfl⟩ : ∃ middle : Canvas config, g' = ⟨some middle⟩ := ⟨_, houtcome.grid_eq⟩
  -- Both trails are tracks, the second one from where the first one ends.
  have htrail := trail_runFrom hfirst
  have htrail' := trail_runFrom hsecond
  rw [List.reverse_nil, List.nil_append] at htrail htrail'
  rw [houtcome.position_eq] at htrail'
  have hposition : config.normalize first.position = first.position := by
    rw [houtcome.position_eq]
    exact config.normalize_of_contains (Metric.contains_follow hstart _)
  refine ⟨first, middle, second, ?_, ?_, rfl, rfl, rfl, ?_, ?_, ?_⟩
  · rw [runOn_replay p start _ hm, hfirst]
  · rw [runOn_replay p _ _ hn, hposition, hsecond]
  · show first.steps + second.steps = first.trail.reverse.tail.length + second.steps
    rw [List.length_tail, List.length_reverse, htrail, Metric.length_track, houtcome.steps_eq,
      ← map_move_course, List.length_map]
    simp
  · rw [htrail, htrail', Metric.head?_track, Metric.getLast?_track]
  · show first.trail ++ second.trail.tail = first.trail.reverse.tail.reverse ++ second.trail
    rw [List.tail_reverse, List.reverse_reverse, htrail, htrail', Metric.track_append_tail,
      Metric.track_append, Metric.dropLast_track]

end

/-- Cut in the middle, the replay along the edge goes on with the third step and stops for the state
that the program does not have, and not for the limit that is reached with it. -/
theorem replay_resumes_pacing :
    (0 : Int) ≤ 2 ∧ (0 : Int) ≤ 1 ∧ ∃ replay g,
      (pacing.replay ⟨0, 5⟩ 0 (2 + 1)).runOn (⟨some Grid.spot⟩ : Grid ⟨Grid.strip, false⟩) =
        (.ok replay, g) ∧
      ∃ first middle second,
        (pacing.replay ⟨0, 5⟩ 0 2).runOn (⟨some Grid.spot⟩ : Grid ⟨Grid.strip, false⟩) =
          (.ok first, ⟨some middle⟩) ∧
        (pacing.replay first.position first.state 1).runOn ⟨some middle⟩ = (.ok second, g) ∧
        second.haltedBy = .missingState ∧
        first.trail ++ second.trail.tail = [⟨0, 1⟩, ⟨0, 1⟩, ⟨1, 1⟩, ⟨0, 1⟩] := by
  have hrun : (pacing.replay ⟨0, 5⟩ 0 (2 + 1)).runOn
        (⟨some Grid.spot⟩ : Grid ⟨Grid.strip, false⟩) =
      (.ok ⟨⟨0, 1⟩, 3, 3, .missingState, [⟨0, 1⟩, ⟨0, 1⟩, ⟨1, 1⟩, ⟨0, 1⟩]⟩, _) := rfl
  obtain ⟨first, middle, second, hfirst, hsecond, -, -, hreason, -, -, htrail⟩ :=
    replay_resumes (by decide) (by decide) hrun
  exact ⟨by decide, by decide, _, _, hrun, first, middle, second, hfirst, hsecond, hreason, htrail⟩

end Program
end Turmite
