import Turmite.Command.Compile
import Turmite.Proofs.Escapes

/-!
# The order of settings

The settings of a compilation are read one after the other, and the first that is not accepted is
the failure (`CompileCommand.fails_ofUsage?`). An error escapes where a setting is looked up in a
document that is no object, and where an infinity is to be an integer
(`CompileCommand.escapes_ofUsage?`).
-/

namespace Turmite

namespace Setting

variable {key : Text} {given document default v : Json}

/-- A value that has to be looked up in a document that is no object. -/
def LacksObject (given document : Json) : Prop :=
  given = .null ∧ ∀ members, document ≠ .obj members

theorem escapes_choose :
    Escapes (choose key given document default) ↔ LacksObject given document := by
  unfold choose LacksObject
  split <;> simp_all

theorem not_escapes_truth? : ¬Escapes (truth? key v) := by
  unfold truth?
  split
  · exact not_escapes_ok _
  · split
    · exact not_escapes_ok _
    · split
      · exact not_escapes_ok _
      · simp
  · simp

theorem escapes_integer? : Escapes (integer? key v) ↔ v.IsInfinite := by
  cases v with
  | float x =>
    have hread : integer? key (.float x) = (Json.float x).integer? .standard >>= fun n =>
        ensure (Binary64.isIntegral x) (InvalidValue.fraction key x) >>= fun _ => pure n := rfl
    rw [hread, escapes_bind_of_not, Json.escapes_integer?]
    · simp [Json.isUncountable]
    · intro n
      rw [escapes_ensure_bind rfl]
      rintro ⟨-, h⟩
      exact not_escapes_pure _ h
  | str t =>
    have hread : integer? key (.str t) = (Json.str t).integer? .standard := rfl
    rw [hread, Json.escapes_integer?]
    simp [Json.isUncountable]
  | _ => simp [integer?, Json.IsInfinite]

/-- A pair of which the first number is infinite, or the first is an integer and the second is
infinite. -/
def HasInfinity (key : Text) (v : Json) : Prop :=
  ∃ x y, v = .arr [x, y] ∧ (x.IsInfinite ∨ (∃ n, integer? key x = .ok n) ∧ y.IsInfinite)

theorem not_escapes_parse? (t : Text) : ¬Escapes (Point.parse? t) := by
  unfold Point.parse?
  split
  · split
    · exact not_escapes_ok _
    · simp
  · simp

theorem escapes_point? : Escapes (point? key v) ↔ HasInfinity key v := by
  unfold point? HasInfinity
  split
  · simp
  · rename_i t
    rw [escapes_bind_of_not fun _ => not_escapes_pure _]
    simp [not_escapes_parse?]
  · rename_i x y
    rw [escapes_bind, escapes_integer?]
    simp only [escapes_bind_of_not fun _ => not_escapes_pure _, escapes_integer?]
    constructor
    · rintro (h | ⟨n, hn, h⟩)
      · exact ⟨x, y, rfl, .inl h⟩
      · exact ⟨x, y, rfl, .inr ⟨⟨n, hn⟩, h⟩⟩
    · rintro ⟨_, _, h, hxy⟩
      cases h
      rcases hxy with h | ⟨⟨n, hn⟩, h⟩
      · exact .inl h
      · exact .inr ⟨n, hn, h⟩
  · rename_i hpair
    rw [escapes_error]
    constructor
    · intro he
      cases he
    · rintro ⟨x, y, rfl, -⟩
      exact absurd rfl (hpair x y)

end Setting

/-! ## Sequences of checks -/

/-- What is left of a computation without its value. -/
def check {α : Type} (x : Except Error α) : Except Error Unit := x.map fun _ => ()

/-- A computation fails as the first of some checks that fails. -/
def Fails {α : Type} (x : Except Error α) (checks : List (Except Error Unit)) : Prop :=
  check x = check (checks.mapM id)

section Checks

variable {α β : Type} {x : Except Error α} {checks : List (Except Error Unit)}

theorem escapes_check : Escapes (check x) ↔ Escapes x := by
  cases x <;> simp [check, Except.map]

theorem fails_pure (a : α) : Fails (pure a : Except Error α) [] := rfl

theorem fails_error (e : Error) : Fails (.error e : Except Error α) (.error e :: checks) := by
  unfold Fails
  rw [List.mapM_cons]
  rfl

theorem fails_bind {f : α → Except Error β} (h : ∀ a, x = .ok a → Fails (f a) checks) :
    Fails (x >>= f) (check x :: checks) := by
  unfold Fails
  rw [List.mapM_cons]
  cases x with
  | error e => rfl
  | ok a =>
    show check (f a) = check (checks.mapM id >>= fun others => pure (() :: others))
    rw [h a rfl]
    cases checks.mapM id <;> rfl

theorem Fails.escapes_iff (h : Fails x checks) : Escapes x ↔
    ∃ front c back, checks = front ++ c :: back ∧ (∀ d ∈ front, d = .ok ()) ∧ Escapes c := by
  have hunit (d : Except Error Unit) : (∃ c, d = .ok c) ↔ d = .ok () :=
    ⟨fun ⟨_, hd⟩ => hd, fun hd => ⟨(), hd⟩⟩
  rw [← escapes_check, h, escapes_check, escapes_mapM]
  simp only [id, hunit]

end Checks

/-! ## The settings of a compilation -/

namespace CompileCommand

/-- A setting, with what its value has to be. -/
structure Reading where
  key : String
  default : Json
  read : Json → Except Error Unit

/-- Reads a setting from options and a document. -/
def Reading.run (usage : Usage) (document : Json) (r : Reading) : Except Error Unit := do
  r.read (← Setting.choose r.key (usage.get r.key) document r.default)

/-- The value of a grid file has to be there. -/
def ensureGrid : Json → Except Error Unit
  | .null => .error InvalidValue.gridMissing
  | _ => .ok ()

/-- Any value will do. -/
def anything (_ : Json) : Except Error Unit := .ok ()

/-- The first state is an integer that is not negative. -/
def ensureOffset (v : Json) : Except Error Unit := do
  let offset ← Setting.integer? ("state_offset" : Text) v
  ensure (0 ≤ offset) InvalidArgument.stateOffsetNegative

/-- The settings in the order in which they are read. The first state is looked at twice. -/
def readings : List Reading :=
  [⟨"grid", .null, ensureGrid⟩,
    ⟨"looping", .null, fun v => check (optional? (Setting.truth? ("looping" : Text)) v)⟩,
    ⟨"start", .null, fun v => check (Setting.point? ("start" : Text) v)⟩,
    ⟨"end", .null, fun v => check (Setting.point? ("end" : Text) v)⟩,
    ⟨"heading", .str Direction.right.name, fun v => check (heading? v)⟩,
    ⟨"state_offset", .int 0, fun v => check (Setting.integer? ("state_offset" : Text) v)⟩,
    ⟨"stop_after_done", .bool false, fun v => check (Setting.truth? ("stop_after_done" : Text) v)⟩,
    ⟨"optimize", .bool true, fun v => check (Setting.truth? ("optimize" : Text) v)⟩,
    ⟨"two_opt_mode", .str Tour.Mode.raw.name, fun v => check (mode? v)⟩,
    ⟨"state_offset", .int 0, ensureOffset⟩,
    ⟨"render", .bool false, fun v => check (Setting.truth? ("render" : Text) v)⟩,
    ⟨"out_dir", .str ("data" : Text), anything⟩,
    ⟨"name", .null, anything⟩,
    ⟨"calibration", .null, anything⟩]

section Order

variable {usage : Usage} {document : Json} {α β : Type} {checks : List (Except Error Unit)}

/-- A setting that is looked up and read is one check. -/
theorem fails_setting {key : String} {default : Json} {read : Json → Except Error α}
    {f : α → Except Error β}
    (h : ∀ v a, Setting.choose key (usage.get key) document default = .ok v → read v = .ok a →
      Fails (f a) checks) :
    Fails (Setting.choose key (usage.get key) document default >>= fun v => read v >>= f)
      (Reading.run usage document ⟨key, default, fun v => check (read v)⟩ :: checks) := by
  rcases hv : Setting.choose key (usage.get key) document default with e | v
  · have hrun : Reading.run usage document ⟨key, default, fun v => check (read v)⟩ = .error e := by
      unfold Reading.run
      rw [hv]
      rfl
    rw [hrun]
    exact fails_error e
  · have hrun : Reading.run usage document ⟨key, default, fun v => check (read v)⟩ =
        check (read v) := by
      unfold Reading.run
      rw [hv]
      rfl
    rw [hrun]
    exact fails_bind fun a ha => h v a hv ha

/-- A setting that is looked up and taken as it is, is one check. -/
theorem fails_anything {key : String} {default default' : Json} {f : Json → Except Error β}
    (h : ∀ v, Setting.choose key (usage.get key) document default = .ok v → Fails (f v) checks) :
    Fails (Setting.choose key (usage.get key) document default >>= f)
      (Reading.run usage document ⟨key, default', anything⟩ :: checks) := by
  have hrun : Reading.run usage document ⟨key, default', anything⟩ =
      check (Setting.choose key (usage.get key) document default) := by
    show (Setting.choose key (usage.get key) document default' >>= anything) = _
    generalize usage.get key = given
    cases given <;> cases document <;> rfl
  rw [hrun]
  exact fails_bind h

/-- The settings fail as the first one that is not accepted. -/
theorem fails_ofUsage? :
    Fails (Settings.ofUsage? usage document) (readings.map (Reading.run usage document)) := by
  unfold Settings.ofUsage? readings
  simp only [List.map]
  rcases hgrid : Setting.choose "grid" (usage.get "grid") document .null with e | v
  · have hrun : Reading.run usage document ⟨"grid", .null, ensureGrid⟩ = .error e := by
      unfold Reading.run
      rw [hgrid]
      rfl
    rw [hrun]
    exact fails_error e
  · have hrun : Reading.run usage document ⟨"grid", .null, ensureGrid⟩ = ensureGrid v := by
      unfold Reading.run
      rw [hgrid]
      rfl
    rw [hrun]
    by_cases hnull : v = .null
    · subst hnull
      exact fails_error _
    · have hpath : optional? (.ok ∘ path) v = .ok (some (path v)) := by
        cases v <;> first | rfl | exact absurd rfl hnull
      have hgiven : ensureGrid v = check (optional? (.ok ∘ path) v) := by
        cases v <;> first | rfl | exact absurd rfl hnull
      rw [hgiven]
      show Fails (optional? (.ok ∘ path) v >>= _) _
      refine fails_bind fun grid hsome => ?_
      rw [hpath] at hsome
      cases hsome
      refine fails_setting fun _ looping _ _ => ?_
      refine fails_setting fun _ start _ _ => ?_
      refine fails_setting fun _ finish _ _ => ?_
      refine fails_setting fun _ heading _ _ => ?_
      refine fails_setting fun first offset hfirst hoffset => ?_
      rw [bind_assoc]
      refine fails_setting fun _ stopAfterDone _ _ => ?_
      rw [bind_assoc]
      refine fails_setting fun _ optimize _ _ => ?_
      refine fails_setting fun _ mode _ _ => ?_
      have hrun : Reading.run usage document ⟨"state_offset", .int 0, ensureOffset⟩ =
          check (CompileConfig.ofOffset? offset stopAfterDone optimize mode) := by
        unfold Reading.run ensureOffset CompileConfig.ofOffset?
        rw [hfirst]
        show (Setting.integer? "state_offset" first >>= _) = _
        rw [hoffset]
        show ensure (0 ≤ offset) _ = _
        cases decide (0 ≤ offset) <;> rfl
      rw [hrun]
      refine fails_bind fun config _ => ?_
      rw [bind_assoc]
      refine fails_setting fun _ render _ _ => ?_
      refine fails_anything fun outDir _ => ?_
      refine fails_anything fun name _ => ?_
      refine fails_anything fun calibration _ => ?_
      cases calibration <;> exact fails_pure _

/-- A setting at which an error escapes: it is looked up in what is no object, or an infinity is to
be the first state or a coordinate. -/
def Reading.Misleads (usage : Usage) (document : Json) (r : Reading) : Prop :=
  Setting.LacksObject (usage.get r.key) document ∨
    ∃ v, Setting.choose r.key (usage.get r.key) document r.default = .ok v ∧
      (r.key = "state_offset" ∧ v.IsInfinite ∨
        (r.key = "start" ∨ r.key = "end") ∧ Setting.HasInfinity r.key v)

theorem not_escapes_heading? (v : Json) : ¬Escapes (heading? v) := by
  unfold heading?
  split <;> simp

theorem not_escapes_mode? (v : Json) : ¬Escapes (mode? v) := by
  unfold mode? Tour.Mode.ofText?
  split <;> simp

theorem not_escapes_ensureGrid (v : Json) : ¬Escapes (ensureGrid v) := by
  cases v <;> simp [ensureGrid]

theorem not_escapes_looping (key : Text) (v : Json) :
    ¬Escapes (optional? (Setting.truth? key) v) := by
  unfold optional?
  split
  · exact not_escapes_ok _
  · rw [escapes_bind_of_not fun _ => not_escapes_pure _]
    exact Setting.not_escapes_truth?

theorem escapes_ensureOffset {v : Json} : Escapes (ensureOffset v) ↔ v.IsInfinite := by
  unfold ensureOffset
  rw [escapes_bind_of_not, Setting.escapes_integer?]
  intro offset
  rw [escapes_ensure]
  rintro ⟨-, h⟩
  cases h

theorem escapes_run {r : Reading} (hr : r ∈ readings) :
    Escapes (r.run usage document) ↔ r.Misleads usage document := by
  unfold Reading.run Reading.Misleads
  rw [escapes_bind, Setting.escapes_choose]
  refine or_congr_right (exists_congr fun v => and_congr_right fun _ => ?_)
  simp only [readings, List.mem_cons, List.not_mem_nil, or_false] at hr
  rcases hr with rfl | rfl | rfl | rfl | rfl | rfl | rfl | rfl | rfl | rfl | rfl | rfl | rfl | rfl <;>
    simp [escapes_check, anything, not_escapes_ensureGrid, not_escapes_looping,
      not_escapes_heading?, not_escapes_mode?, Setting.not_escapes_truth?, escapes_ensureOffset,
      Setting.escapes_integer?, Setting.escapes_point?]

/-- The settings escape at the first one that is not accepted, if that misleads. -/
theorem escapes_ofUsage? : Escapes (Settings.ofUsage? usage document) ↔
    ∃ front r back, readings = front ++ r :: back ∧
      (∀ q ∈ front, q.run usage document = .ok ()) ∧ r.Misleads usage document := by
  rw [fails_ofUsage?.escapes_iff]
  constructor
  · rintro ⟨front, c, back, hl, hfront, hc⟩
    obtain ⟨front, tail, hreadings, rfl, htail⟩ := List.map_eq_append_iff.1 hl
    obtain ⟨r, back, rfl, rfl, rfl⟩ := List.map_eq_cons_iff.1 htail
    have hr : r ∈ readings := hreadings ▸ List.mem_append_right _ List.mem_cons_self
    refine ⟨front, r, back, hreadings, fun q hq => ?_, (escapes_run hr).1 hc⟩
    exact hfront _ (List.mem_map_of_mem hq)
  · rintro ⟨front, r, back, hreadings, hfront, hr⟩
    have hmem : r ∈ readings := hreadings ▸ List.mem_append_right _ List.mem_cons_self
    refine ⟨front.map (Reading.run usage document), r.run usage document,
      back.map (Reading.run usage document), ?_, ?_, (escapes_run hmem).2 hr⟩
    · rw [hreadings, List.map_append, List.map_cons]
    · intro d hd
      obtain ⟨q, hq, rfl⟩ := List.mem_map.1 hd
      exact hfront q hq

end Order

end CompileCommand
end Turmite
