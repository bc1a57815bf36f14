import Mathlib.Data.List.Induction
import Turmite.Proofs.ProgramDocument

/-!
# Payloads grouped by state

Several keys of a payload may denote one state, with keys of other states between them. Rules that
are added one after the other are collected by state, the states in the order of their first rules
(`Program.rules?_ofRules`, `Program.states_ofRules`), and to read a payload is to add the rules of
its keys in order (`Program.ofMembers?_eq_ok`). So a state gets the rules of all its keys one after
the other, and a key without rules leaves no trace (`Program.payload_grouped`).
-/

namespace Turmite

/-- One element more counts if it is a new one. -/
theorem eraseDups_concat {α : Type} [DecidableEq α] (l : List α) (a : α) :
    (l ++ [a]).eraseDups = if a ∈ l then l.eraseDups else l.eraseDups ++ [a] := by
  rw [List.eraseDups_append]
  split_ifs with h
  · simp [List.removeAll, h]
  · simp [List.removeAll, h, List.eraseDups_cons]

theorem eraseDups_concat_congr {α : Type} [DecidableEq α] {l l' : List α}
    (h : l.eraseDups = l'.eraseDups) (a : α) :
    (l ++ [a]).eraseDups = (l' ++ [a]).eraseDups := by
  have hmem : a ∈ l ↔ a ∈ l' := by
    rw [← List.mem_eraseDups, h, List.mem_eraseDups]
  rw [eraseDups_concat, eraseDups_concat, h]
  simp only [hmem]

/-- One element counts once, however often it is put behind others. -/
theorem eraseDups_append_replicate {α : Type} [DecidableEq α] (l : List α) (a : α) (n : Nat) :
    (l ++ List.replicate (n + 1) a).eraseDups = (l ++ [a]).eraseDups := by
  induction n with
  | zero => rfl
  | succ n ih =>
    have hmem : a ∈ l ++ List.replicate (n + 1) a := by simp
    rw [List.replicate_succ', ← List.append_assoc, eraseDups_concat, if_pos hmem, ih]

namespace Program

/-! ## Rules added one after the other -/

/-- The rules of a state among rules with their states. -/
def rulesAt (state : Int) (rules : List (Int × Rule)) : List Rule :=
  (rules.filter (·.1 = state)).map (·.2)

theorem rulesAt_concat_self (state : Int) (rules : List (Int × Rule)) (rule : Rule) :
    rulesAt state (rules ++ [(state, rule)]) = rulesAt state rules ++ [rule] := by
  simp [rulesAt]

theorem ofRules_concat (rules : List (Int × Rule)) (state : Int) (rule : Rule) :
    ofRules (rules ++ [(state, rule)]) = (ofRules rules).add state rule := by
  unfold ofRules
  rw [List.foldl_append]
  rfl

/-- A state has the rules that were added to it, in order, if there are any. -/
theorem rules?_ofRules (rules : List (Int × Rule)) (state : Int) :
    (ofRules rules).rules? state =
      if rulesAt state rules = [] then none else some (rulesAt state rules) := by
  induction rules using List.reverseRecOn with
  | nil => rfl
  | append_singleton rules head ih =>
    obtain ⟨s, rule⟩ := head
    rw [ofRules_concat, Program.add]
    by_cases hs : s = state
    · subst hs
      rw [rules?_addTo_self, rulesAt_concat_self, if_neg (List.concat_ne_nil _ _)]
      show some (((ofRules rules).rules? s).getD [] ++ [rule]) = _
      rw [ih]
      split_ifs with hnone
      · rw [hnone]
        rfl
      · rfl
    · have hrules : rulesAt state (rules ++ [(s, rule)]) = rulesAt state rules := by
        simp [rulesAt, hs]
      rw [rules?_addTo_of_ne (Ne.symm hs), hrules]
      exact ih

/-- The states stand in the order of their first rules. -/
theorem states_ofRules (rules : List (Int × Rule)) :
    (ofRules rules).states = (rules.map (·.1)).eraseDups := by
  induction rules using List.reverseRecOn with
  | nil => rfl
  | append_singleton rules head ih =>
    obtain ⟨s, rule⟩ := head
    rw [ofRules_concat, List.map_append, List.map_singleton, eraseDups_concat, ← ih]
    have hadd := states_addTo s rule (ofRules rules).entries
    simp only [← List.mem_eraseDups (l := rules.map (·.1)), ← ih]
    exact hadd

/-- The rules of all entries of a state, one entry after the other. -/
def collected (state : Int) (entries : List (Int × List Rule)) : List Rule :=
  (entries.filter (·.1 = state)).flatMap (·.2)

theorem rulesAt_flat (state : Int) (entries : List (Int × List Rule)) :
    rulesAt state (flat ⟨entries⟩) = collected state entries := by
  unfold rulesAt flat collected
  induction entries with
  | nil => rfl
  | cons head r ih =>
    obtain ⟨s, rules⟩ := head
    rw [List.flatMap_cons, List.filter_append, List.map_append, ih, List.filter_map]
    by_cases hs : s = state
    · simp [hs, Function.comp_def]
    · simp [hs, Function.comp_def]

/-- Of the states of the rules of entries, an entry without rules has none. -/
theorem eraseDups_states_flat (entries : List (Int × List Rule)) :
    ((flat ⟨entries⟩).map (·.1)).eraseDups =
      ((entries.filter (·.2 ≠ [])).map (·.1)).eraseDups := by
  induction entries using List.reverseRecOn with
  | nil => rfl
  | append_singleton entries head ih =>
    obtain ⟨s, rules⟩ := head
    have hflat : (flat ⟨entries ++ [(s, rules)]⟩).map (·.1) =
        (flat ⟨entries⟩).map (·.1) ++ rules.map fun _ => s := by
      simp [flat, Function.comp_def]
    rw [hflat, List.map_const', List.filter_append, List.map_append]
    cases rules with
    | nil => simpa using ih
    | cons rule rules =>
      rw [List.length_cons, eraseDups_append_replicate]
      exact eraseDups_concat_congr ih s

end Program

/-! ## Rule objects -/

namespace Rule

/-- An object describes a rule if it names the move by its symbol and has values under the other two
keys that stand for the color and the next state. -/
structure Describes (limits : Limits) (members : Json.Members) (rule : Rule) : Prop where
  move : members.get? "move" = some (.str [.scalar rule.move.symbol])
  color : ∃ v, members.get? "writeColor" = some v ∧ v.integer? limits = .ok rule.color
  next : ∃ v, members.get? "nextState" = some v ∧ v.integer? limits = .ok rule.next

theorem move?_symbol (d : Direction) : move? (.str [.scalar d.symbol]) = .ok d := by
  cases d <;> rfl

/-- An object that describes a rule is read as that rule. -/
theorem Describes.ofJson? {limits : Limits} {members : Json.Members} {rule : Rule}
    (h : rule.Describes limits members) : Rule.ofJson? limits (.obj members) = .ok rule := by
  obtain ⟨hmove, ⟨v, hv, hcolor⟩, w, hw, hnext⟩ := h
  simp only [Rule.ofJson?, Json.entry?, hmove, hv, hw, move?_symbol, hcolor, hnext, bind,
    Except.bind]
  rfl

/-- The object of a rule describes it. -/
theorem describes_toJson (limits : Limits) (r : Rule) :
    ∃ fields, r.toJson = .obj fields ∧ r.Describes limits fields :=
  ⟨_, rfl, rfl, ⟨_, rfl, rfl⟩, _, rfl, rfl⟩

end Rule

namespace Program

variable {limits : Limits}

/-! ## Payloads -/

/-- A member of a payload is read as an entry: its key denotes the state, and each of the values
that it holds describes a rule. -/
structure ReadsAs (limits : Limits) (member : Text × Json) (entry : Int × List Rule) : Prop where
  key : Numeral.readInt? limits member.1 = .ok entry.1
  rules : ∃ items, parts? member.2 = .ok items ∧
    List.Forall₂ (fun item rule => ∃ fields, item = .obj fields ∧ rule.Describes limits fields)
      items entry.2

/-- To read the rules of one key is to add them in order. -/
theorem ReadsAs.addEntry? {key : Text} {v : Json} {state : Int} {rules : List Rule}
    (h : ReadsAs limits (key, v) (state, rules)) (p : Program) :
    addEntry? limits p key v = .ok (rules.foldl (fun p rule => p.add state rule) p) := by
  obtain ⟨hkey, items, hparts, hrules⟩ := h
  have hstate : stateOf? limits key = .ok state := by
    rw [stateOf?, hkey]
  unfold Program.addEntry?
  rw [hstate, hparts]
  show items.foldlM _ p = _
  clear hkey hparts
  replace hrules : List.Forall₂ _ items rules := hrules
  induction hrules generalizing p with
  | nil => rfl
  | cons hitem _ ih =>
    obtain ⟨fields, rfl, hdescribes⟩ := hitem
    rw [List.foldlM_cons, hdescribes.ofJson?]
    exact ih (p.add state _)

/-- To read a payload is to add the rules of its keys in order. -/
theorem ofMembers?_eq_ok {members : Json.Members} {entries : List (Int × List Rule)}
    (h : List.Forall₂ (ReadsAs limits) members entries) :
    ofMembers? limits members = .ok (ofRules (flat ⟨entries⟩)) := by
  have hfold (p : Program) :
      members.foldlM (fun p member => addEntry? limits p member.1 member.2) p =
        .ok ((flat ⟨entries⟩).foldl (fun p added => p.add added.1 added.2) p) := by
    induction h generalizing p with
    | nil => rfl
    | @cons member entry members entries hmember _ ih =>
      obtain ⟨key, v⟩ := member
      obtain ⟨state, rules⟩ := entry
      have hflat : flat ⟨(state, rules) :: entries⟩ = rules.map (state, ·) ++ flat ⟨entries⟩ := rfl
      rw [List.foldlM_cons, hflat, List.foldl_append, List.foldl_map]
      simp only [hmember.addEntry?]
      exact ih _
  exact hfold empty

/-- The key that marks a document is no numeral, so no payload has it. -/
theorem get?_schemaVersion_eq_none {members : Json.Members} {entries : List (Int × List Rule)}
    (h : List.Forall₂ (ReadsAs limits) members entries) :
    members.get? ("schema_version" : Text) = none := by
  have hmark : Numeral.readInt? limits ("schema_version" : Text) = .error .malformed := rfl
  induction h with
  | nil => rfl
  | @cons member entry members entries hmember _ ih =>
    have hkey : member.1 ≠ ("schema_version" : Text) := by
      intro heq
      have hread := hmember.key
      rw [heq, hmark] at hread
      cases hread
    unfold Json.Members.get? at ih ⊢
    rw [List.find?_cons_of_neg (by simpa using hkey)]
    exact ih

theorem payloadMembers?_obj {members : Json.Members}
    (h : members.get? ("schema_version" : Text) = none) :
    payloadMembers? (.obj members) = .ok members := by
  simp only [payloadMembers?, h]

theorem payloadMembers?_document {document rules : Json.Members} {version : Json}
    (hversion : document.get? ("schema_version" : Text) = some version)
    (hrules : document.get? ("rules" : Text) = some (.obj rules)) :
    payloadMembers? (.obj document) = .ok rules := by
  simp only [payloadMembers?, hversion, hrules]

/-- A payload of numerals for states, each with values that describe rules, is read. Each state gets
the rules of all keys that denote it, one key after the other, and is there if these are any; the
states stand in the order of their first keys with rules. A document with the payload as its rules
gives the same program, whatever its version and its other members are. -/
theorem payload_grouped {members : Json.Members} {entries : List (Int × List Rule)}
    (h : List.Forall₂ (ReadsAs limits) members entries) :
    ∃ p : Program, ofPayload? limits (.obj members) = .ok p ∧
      (∀ state, (p.rules? state).getD [] = collected state entries) ∧
      (∀ state, p.contains state = true ↔ collected state entries ≠ []) ∧
      p.states = ((entries.filter (·.2 ≠ [])).map (·.1)).eraseDups ∧
      ∀ (document : Json.Members) (version : Json),
        document.get? ("schema_version" : Text) = some version →
        document.get? ("rules" : Text) = some (.obj members) →
        ofPayload? limits (.obj document) = .ok p := by
  have hread := ofMembers?_eq_ok h
  have hrules (state : Int) : (ofRules (flat ⟨entries⟩)).rules? state =
      if collected state entries = [] then none else some (collected state entries) := by
    rw [rules?_ofRules, rulesAt_flat]
  refine ⟨ofRules (flat ⟨entries⟩), ?_, fun state => ?_, fun state => ?_, ?_, ?_⟩
  · rw [ofPayload?, payloadMembers?_obj (get?_schemaVersion_eq_none h)]
    exact hread
  · rw [hrules]
    split_ifs with hnone
    · exact hnone.symm
    · rfl
  · rw [contains, hrules]
    split_ifs with hnone <;> simp [hnone]
  · rw [states_ofRules, eraseDups_states_flat]
  · intro document version hversion hpayload
    rw [ofPayload?, payloadMembers?_document hversion hpayload]
    exact hread

/-- Three keys for the state one, in two scripts and with a blank and a zero in front, between a key
without rules, one for another state and one for the state of the key without rules; values of
several kinds for colors and next states. -/
theorem payload_grouped_scripts :
    let members : Json.Members := [
      (("2" : Text), .arr []),
      (("01" : Text), .arr [.obj [(("move" : Text), .str (">" : Text)),
        (("writeColor" : Text), .str (" 3" : Text)), (("nextState" : Text), .int 2)]]),
      (("-4" : Text), .arr [.obj [(("nextState" : Text), .bool true),
        (("move" : Text), .str ("^" : Text)), (("writeColor" : Text), .int 5)]]),
      ((" 1 " : Text), .arr [(⟨7, .left, -1⟩ : Rule).toJson, (⟨0, .down, 1⟩ : Rule).toJson]),
      (("+2" : Text), .arr [(⟨6, .up, 2⟩ : Rule).toJson]),
      (("١" : Text), .arr [(⟨8, .right, 3⟩ : Rule).toJson])]
    let entries : List (Int × List Rule) := [(2, []), (1, [⟨3, .right, 2⟩]), (-4, [⟨5, .up, 1⟩]),
      (1, [⟨7, .left, -1⟩, ⟨0, .down, 1⟩]), (2, [⟨6, .up, 2⟩]), (1, [⟨8, .right, 3⟩])]
    List.Forall₂ (ReadsAs .standard) members entries ∧
      ∃ p : Program, ofPayload? .standard (.obj members) = .ok p ∧
        (p.rules? 1).getD [] = [⟨3, .right, 2⟩, ⟨7, .left, -1⟩, ⟨0, .down, 1⟩, ⟨8, .right, 3⟩] ∧
        p.states = [1, -4, 2] ∧
        ofPayload? .standard (.obj [(("rules" : Text), .obj members),
          (("schema_version" : Text), .null)]) = .ok p := by
  intro members entries
  have hnumeral : ReadsAs .standard members[1] entries[1] :=
    ⟨rfl, _, rfl, .cons ⟨_, rfl, rfl, ⟨_, rfl, rfl⟩, _, rfl, rfl⟩ .nil⟩
  have hboolean : ReadsAs .standard members[2] entries[2] :=
    ⟨rfl, _, rfl, .cons ⟨_, rfl, rfl, ⟨_, rfl, rfl⟩, _, rfl, rfl⟩ .nil⟩
  have htwo : ReadsAs .standard members[3] entries[3] :=
    ⟨rfl, _, rfl, .cons (Rule.describes_toJson _ _) (.cons (Rule.describes_toJson _ _) .nil)⟩
  have hsigned : ReadsAs .standard members[4] entries[4] :=
    ⟨rfl, _, rfl, .cons (Rule.describes_toJson _ _) .nil⟩
  have hscript : ReadsAs .standard members[5] entries[5] :=
    ⟨rfl, _, rfl, .cons (Rule.describes_toJson _ _) .nil⟩
  have h : List.Forall₂ (ReadsAs .standard) members entries :=
    .cons ⟨rfl, _, rfl, .nil⟩ (.cons hnumeral (.cons hboolean (.cons htwo
      (.cons hsigned (.cons hscript .nil)))))
  obtain ⟨p, hread, hrules, -, hstates, hdocument⟩ := payload_grouped h
  exact ⟨h, p, hread, hrules 1, hstates, hdocument _ _ rfl rfl⟩

end Program

end Turmite
