import Mathlib.Data.List.Induction
import Mathlib.Data.List.TakeWhile
import Mathlib.Logic.Relation
import Turmite.Proofs.PathText
import Turmite.Proofs.Success

/-!
# Paths that stay within a base

Normalizing a path needs no order: empty components and single dots go, a name goes together with
the two dots behind it, and two dots go where nothing is above them (`Path.Shortens`). Whichever
goes first, what is left in the end is the same list of names (`Path.normalForm_iff`), and it is
what resolution comes to. A path is accepted within a base exactly if the names of the base begin
its own (`Path.resolveNamed?_within`).
-/

namespace Turmite

namespace Text

/-! ## Texts that can be named -/

/-- A text that a file system can look up: no NUL, and no surrogate that stands for no byte. -/
def IsNameable (t : Text) : Prop := ∀ c ∈ t, c.isNameable = true ∧ c ≠ .scalar '\x00'

theorem ensureNameable_of_isNameable {t : Text} (h : t.IsNameable) : t.ensureNameable = .ok () := by
  have hnull : CodePoint.scalar '\x00' ∉ t := fun hmem => (h _ hmem).2 rfl
  simp [ensureNameable, encodingFault?_eq_none fun c hc => (h c hc).1, ensure, hnull]

theorem ensureNameable_of_not_isNameable {t : Text} (h : ¬ t.IsNameable) :
    t.ensureNameable = .error .nullInPath ∨
      ∃ fault, t.ensureNameable = .error (.unencodable fault) := by
  unfold ensureNameable
  cases hfault : t.encodingFault? CodePoint.isNameable with
  | some fault => exact .inr ⟨fault, rfl⟩
  | none =>
    left
    have hwritable : ∀ c ∈ t, c.isNameable = true := by
      unfold encodingFault? at hfault
      split at hfault
      · rename_i hdrop
        exact List.dropWhile_eq_nil_iff.1 hdrop
      · cases hfault
    have hnull : CodePoint.scalar '\x00' ∈ t := by
      by_contra hnot
      exact h fun c hc => ⟨hwritable c hc, fun heq => hnot (heq ▸ hc)⟩
    simp [ensure, hnull]

theorem ensureNameable_eq_ok {t : Text} : t.ensureNameable = .ok () ↔ t.IsNameable := by
  refine ⟨fun h => ?_, ensureNameable_of_isNameable⟩
  by_contra hnot
  rcases ensureNameable_of_not_isNameable hnot with he | ⟨fault, he⟩ <;> cases h.symm.trans he

end Text

namespace Path

/-- A path can be looked up if its text can. -/
theorem forall_components_isNameable {t : Text} :
    (∀ part ∈ components t, part.IsNameable) ↔ t.IsNameable := by
  constructor
  · intro h c hc
    by_cases hslash : c = .scalar '/'
    · subst hslash
      decide
    · obtain ⟨part, hpart, hcpart⟩ := (Text.mem_iff_exists_mem_split hslash).1 hc
      by_cases hdot : part = ("." : Text)
      · subst hdot
        cases List.mem_singleton.1 hcpart
        decide
      · refine h part (List.mem_filter.2 ⟨hpart, decide_eq_true ⟨?_, hdot⟩⟩) c hcpart
        exact List.ne_nil_of_mem hcpart
  · intro h part hpart c hc
    have hpart := (List.mem_filter.1 hpart).1
    have hslash : c ≠ .scalar '/' := fun heq => Text.not_mem_of_mem_split hpart (heq ▸ hc)
    exact h c ((Text.mem_iff_exists_mem_split hslash).2 ⟨part, hpart, hc⟩)

/-! ## Normalization -/

/-- A component that is the name of an entry of a directory. -/
def IsEntry (part : Text) : Prop := part ≠ [] ∧ part ≠ ("." : Text) ∧ part ≠ (".." : Text)

/-- One component goes that says nothing, or a name and the two dots that take it back. Above the
root there is nothing to go up to. -/
inductive Shortens : List Text → List Text → Prop where
  | empty (above below : List Text) : Shortens (above ++ [] :: below) (above ++ below)
  | dot (above below : List Text) : Shortens (above ++ ("." : Text) :: below) (above ++ below)
  | back (above below : List Text) {part : Text} (h : IsEntry part) :
      Shortens (above ++ part :: (".." : Text) :: below) (above ++ below)
  | root (below : List Text) : Shortens ((".." : Text) :: below) below

/-- What components come to when nothing is left that can go. -/
def NormalForm (raw parts : List Text) : Prop :=
  Relation.ReflTransGen Shortens raw parts ∧ ∀ part ∈ parts, IsEntry part

/-- The components of a text as it is written, behind those of a directory unless it begins at the
root. -/
def seenFrom (directory : List Text) (t : Text) : List Text :=
  if t.head? = some (.scalar '/') then t.split (.scalar '/')
  else directory ++ t.split (.scalar '/')

/-- Components taken one by one, from those above them. -/
def walk (above raw : List Text) : List Text :=
  (raw.filter fun part => part ≠ [] ∧ part ≠ ("." : Text)).foldl climb above

section Walk

variable (above below raw : List Text)

theorem walk_append : walk above (raw ++ below) = walk (walk above raw) below := by
  unfold walk
  rw [List.filter_append, List.foldl_append]

theorem walk_empty_cons : walk above ([] :: below) = walk above below := rfl

theorem walk_dot_cons : walk above (("." : Text) :: below) = walk above below := rfl

theorem walk_back_cons : walk above ((".." : Text) :: below) = walk above.dropLast below := rfl

theorem walk_entry_cons {part : Text} (h : IsEntry part) :
    walk above (part :: below) = walk (above ++ [part]) below := by
  unfold walk
  rw [List.filter_cons_of_pos, List.foldl_cons, climb, if_neg h.2.2]
  exact decide_eq_true ⟨h.1, h.2.1⟩

theorem walk_of_forall_isEntry (h : ∀ part ∈ raw, IsEntry part) :
    walk above raw = above ++ raw := by
  induction raw generalizing above with
  | nil => exact (List.append_nil above).symm
  | cons part raw ih =>
    obtain ⟨hpart, hraw⟩ := List.forall_mem_cons.1 h
    rw [walk_entry_cons above raw hpart, ih _ hraw, List.append_assoc, List.singleton_append]

end Walk

/-- What may go makes no difference to where a walk ends. -/
theorem Shortens.walk {raw shorter : List Text} (h : Shortens raw shorter) :
    Path.walk [] raw = Path.walk [] shorter := by
  cases h with
  | empty above below => rw [walk_append, walk_append, walk_empty_cons]
  | dot above below => rw [walk_append, walk_append, walk_dot_cons]
  | back above below hpart =>
    rw [walk_append, walk_append, walk_entry_cons _ _ hpart, walk_back_cons, List.dropLast_concat]
  | root below => rw [walk_back_cons, List.dropLast_nil]

/-- A walk from names ends at names, and is reached by letting go one by one. The walk goes on with
the names that it has gone through in front of the rest. -/
theorem normalForm_walk {above : List Text} (habove : ∀ part ∈ above, IsEntry part)
    (raw : List Text) : NormalForm (above ++ raw) (walk above raw) := by
  induction raw generalizing above with
  | nil =>
    rw [List.append_nil]
    exact ⟨.refl, habove⟩
  | cons part raw ih =>
    by_cases hempty : part = []
    · subst hempty
      exact ⟨.head (.empty above raw) (ih habove).1, (ih habove).2⟩
    by_cases hdot : part = ("." : Text)
    · subst hdot
      exact ⟨.head (.dot above raw) (ih habove).1, (ih habove).2⟩
    by_cases hback : part = (".." : Text)
    · subst hback
      rw [walk_back_cons]
      cases above using List.reverseRecOn with
      | nil => exact ⟨.head (.root raw) (ih habove).1, (ih habove).2⟩
      | append_singleton above last =>
        rw [List.forall_mem_append, List.forall_mem_singleton] at habove
        have hrest := ih habove.1
        rw [List.dropLast_concat, List.append_assoc, List.singleton_append]
        exact ⟨.head (.back above raw habove.2) hrest.1, hrest.2⟩
    · have hpart : IsEntry part := ⟨hempty, hdot, hback⟩
      have hnext : ∀ q ∈ above ++ [part], IsEntry q := fun q hq => by
        rcases List.mem_append.1 hq with hq | hq
        · exact habove q hq
        · exact List.mem_singleton.1 hq ▸ hpart
      have hrest := ih hnext
      rwa [walk_entry_cons above raw hpart, ← List.singleton_append, ← List.append_assoc]

/-- Whichever component goes first, the same names are left. -/
theorem normalForm_iff {raw parts : List Text} : NormalForm raw parts ↔ parts = walk [] raw := by
  constructor
  · rintro ⟨hsteps, hparts⟩
    have hwalk : walk [] raw = walk [] parts := by
      clear hparts
      induction hsteps with
      | refl => rfl
      | tail _ hstep ih => exact ih.trans hstep.walk
    rw [hwalk, walk_of_forall_isEntry [] parts hparts, List.nil_append]
  · rintro rfl
    exact normalForm_walk (List.forall_mem_nil _) raw

theorem existsUnique_normalForm (raw : List Text) : ∃! parts, NormalForm raw parts :=
  ⟨walk [] raw, normalForm_iff.2 rfl, fun _ h => normalForm_iff.1 h⟩

/-! ## Resolution as normalization -/

theorem isAbsolute_ofText (t : Text) :
    (ofText t).isAbsolute = true ↔ t.head? = some (.scalar '/') := by
  cases t with
  | nil => decide
  | cons c t =>
    by_cases hc : c = .scalar '/'
    · subst hc
      have hroot : rootOf (.scalar '/' :: t) ≠ .relative := by
        unfold rootOf
        split <;> simp_all
      simp [isAbsolute, ofText, hroot]
    · simp [isAbsolute, ofText, rootOf_cons_of_ne hc, hc]

variable {cwd : List Text}

theorem resolve_ofText (hcwd : ∀ part ∈ cwd, IsEntry part) (t : Text) :
    resolve cwd (ofText t) = walk [] (seenFrom cwd t) := by
  unfold resolve seenFrom
  simp only [isAbsolute_ofText]
  split_ifs
  · rfl
  · rw [walk_append, walk_of_forall_isEntry [] cwd hcwd]
    rfl

theorem resolve_append_ofText (hcwd : ∀ part ∈ cwd, IsEntry part) (base path : Text) :
    resolve cwd ((ofText base).append (ofText path)) =
      walk [] (seenFrom (seenFrom cwd base) path) := by
  by_cases habsolute : path.head? = some (.scalar '/')
  · rw [append, if_pos ((isAbsolute_ofText path).2 habsolute), resolve_ofText hcwd, seenFrom,
      if_pos habsolute, seenFrom, if_pos habsolute]
  · have happend : resolve cwd ((ofText base).append (ofText path)) =
        walk (resolve cwd (ofText base)) (path.split (.scalar '/')) := by
      rw [append, if_neg (mt (isAbsolute_ofText path).1 habsolute)]
      exact List.foldl_append
    rw [happend, resolve_ofText hcwd, ← walk_append, seenFrom.eq_def (seenFrom cwd base),
      if_neg habsolute]

/-- The components that resolution looks at. -/
theorem forM_ensureNameable_eq_ok {base path : Text} {u : Unit} :
    (((ofText base).append (ofText path)).parts ++ (ofText base).parts).forM Text.ensureNameable =
      .ok u ↔ path.IsNameable ∧ base.IsNameable := by
  simp only [forM_eq_ok, Text.ensureNameable_eq_ok, ← forall_components_isNameable (t := path),
    ← forall_components_isNameable (t := base), List.forall_mem_append]
  unfold append
  split
  · rfl
  · show (∀ part ∈ components base ++ components path, _) ∧ _ ↔ _
    rw [List.forall_mem_append]
    tauto

theorem resolveNamed?_of_isNameable {path base : Text} (h : path.IsNameable ∧ base.IsNameable) :
    resolveNamed? cwd (ofText path) (ofText base) =
      resolveWithin cwd (ofText path) (ofText base) := by
  unfold resolveNamed?
  rw [forM_ensureNameable_eq_ok (u := ()) |>.2 h]
  rfl

/-- What cannot be named is refused by the first component that cannot. -/
theorem resolveNamed?_of_not_isNameable {path base : Text}
    (h : ¬ (path.IsNameable ∧ base.IsNameable)) :
    resolveNamed? cwd (ofText path) (ofText base) = .error .nullInPath ∨
      ∃ fault, resolveNamed? cwd (ofText path) (ofText base) = .error (.unencodable fault) := by
  unfold resolveNamed?
  cases hnamed : (((ofText base).append (ofText path)).parts ++ (ofText base).parts).forM
      Text.ensureNameable with
  | ok u => exact absurd (forM_ensureNameable_eq_ok.1 hnamed) h
  | error e =>
    obtain ⟨part, -, hpart⟩ := exists_of_forM_eq_error hnamed
    rcases Text.ensureNameable_of_not_isNameable (t := part) (by
      intro hpart'
      cases (Text.ensureNameable_eq_ok.2 hpart').symm.trans hpart) with he | ⟨fault, he⟩
    · exact .inl (hpart.symm.trans he ▸ rfl)
    · exact .inr ⟨fault, hpart.symm.trans he ▸ rfl⟩

/-- What comes of a path that can be looked up, by the names of the base and of the path. -/
theorem resolveNamed?_eq_ite (hcwd : ∀ part ∈ cwd, IsEntry part) {path base : Text}
    (h : path.IsNameable ∧ base.IsNameable) {top place : List Text}
    (htop : NormalForm (seenFrom cwd base) top)
    (hplace : NormalForm (seenFrom (seenFrom cwd base) path) place) :
    resolveNamed? cwd (ofText path) (ofText base) = if top <+: place then .ok place
      else .error (InvalidValue.pathEscapes (ofText path).toText) := by
  rw [resolveNamed?_of_isNameable h, resolveWithin, resolve_ofText hcwd,
    resolve_append_ofText hcwd, ← normalForm_iff.1 htop, ← normalForm_iff.1 hplace]
  simp only [List.isPrefixOf_iff_prefix]

/-- Names that begin with those of a base do not go through an entry beside it, even if its name
begins with that of the base. -/
theorem ne_sibling_of_isPrefix {top found : List Text} (h : top <+: found) {above : List Text}
    {name : Text} (htop : top = above ++ [name]) {ending : Text} (hending : ending ≠ [])
    (below : List Text) : found ≠ above ++ (name ++ ending) :: below := by
  rintro rfl
  rw [htop, List.prefix_append_right_inj, List.cons_prefix_cons] at h
  exact hending (List.self_eq_append_right.1 h.1)

/-- A path that can be looked up is accepted exactly if the names that the base comes to begin the
names that the path comes to, and these are the result; other paths are refused. Two dots are never
left, nor is an entry beside the base taken for the base. -/
theorem resolveNamed?_within {cwd : List Text} (hcwd : ∀ part ∈ cwd, IsEntry part)
    (path base : Text) :
    (∃! top, NormalForm (seenFrom cwd base) top) ∧
    (∃! place, NormalForm (seenFrom (seenFrom cwd base) path) place) ∧
    ∀ top place, NormalForm (seenFrom cwd base) top →
      NormalForm (seenFrom (seenFrom cwd base) path) place →
      (path.IsNameable ∧ base.IsNameable → resolveNamed? cwd (ofText path) (ofText base) =
        if top <+: place then .ok place
        else .error (InvalidValue.pathEscapes (ofText path).toText)) ∧
      (¬ (path.IsNameable ∧ base.IsNameable) →
        resolveNamed? cwd (ofText path) (ofText base) = .error .nullInPath ∨
          ∃ fault, resolveNamed? cwd (ofText path) (ofText base) = .error (.unencodable fault)) ∧
      ∀ found, resolveNamed? cwd (ofText path) (ofText base) = .ok found →
        top <+: found ∧ (".." : Text) ∉ found ∧
        ∀ above name, top = above ++ [name] → ∀ ending below, ending ≠ [] →
          found ≠ above ++ (name ++ ending) :: below := by
  refine ⟨existsUnique_normalForm _, existsUnique_normalForm _, fun top place htop hplace => ?_⟩
  refine ⟨fun h => resolveNamed?_eq_ite hcwd h htop hplace, resolveNamed?_of_not_isNameable,
    fun found hfound => ?_⟩
  have h : path.IsNameable ∧ base.IsNameable := by
    by_contra hnot
    rcases resolveNamed?_of_not_isNameable hnot with he | ⟨fault, he⟩ <;>
      cases hfound.symm.trans he
  rw [resolveNamed?_eq_ite hcwd h htop hplace] at hfound
  split at hfound
  · rename_i hbegins
    cases hfound
    exact ⟨hbegins, fun hmem => (hplace.2 _ hmem).2.2 rfl,
      fun above name heq ending below hending => ne_sibling_of_isPrefix hbegins heq hending below⟩
  · cases hfound

/-- Up from the base and down again, to the base and to an entry beside it. -/
theorem resolveNamed?_within_back_and_forth :
    (∀ part ∈ [("home" : Text)], IsEntry part) ∧
    resolveNamed? [("home" : Text)] (ofText ("../../home/out/./a//b/.." : Text))
      (ofText ("out" : Text)) = .ok [("home" : Text), ("out" : Text), ("a" : Text)] ∧
    resolveNamed? [("home" : Text)] (ofText ("../out2/a" : Text)) (ofText ("out" : Text)) =
      .error (InvalidValue.pathEscapes ("../out2/a" : Text)) := by
  have hcwd : ∀ part ∈ [("home" : Text)], IsEntry part := by
    unfold IsEntry
    decide
  have hnameable : Text.IsNameable ("../../home/out/./a//b/.." : Text) ∧
      Text.IsNameable ("../out2/a" : Text) ∧ Text.IsNameable ("out" : Text) := by
    unfold Text.IsNameable
    decide
  obtain ⟨-, -, hwithin⟩ :=
    resolveNamed?_within hcwd ("../../home/out/./a//b/.." : Text) ("out" : Text)
  obtain ⟨-, -, hbeside⟩ := resolveNamed?_within hcwd ("../out2/a" : Text) ("out" : Text)
  exact ⟨hcwd, (hwithin _ _ (normalForm_iff.2 rfl) (normalForm_iff.2 rfl)).1
    ⟨hnameable.1, hnameable.2.2⟩, (hbeside _ _ (normalForm_iff.2 rfl) (normalForm_iff.2 rfl)).1
    ⟨hnameable.2.1, hnameable.2.2⟩⟩

end Path
end Turmite
