import Turmite.Proofs.JsonRoundTrip
import Turmite.Proofs.Reachable
import Mathlib.Data.List.Nodup

/-!
# Program documents read back

A regular program is read from its payload as it is: the key of a state is read as that state, and
its rules are collected behind the states before it (`addEntry?_ofInt`, `ofMembers?_payload`). Its
payload goes through the text of a document unchanged, for its keys are different texts and its
numbers integers (`reread_toPayload`). So a reachable program is read from any of its documents
(`document_reads_back`).
-/

namespace Turmite

/-! ## Rules -/

namespace Rule

theorem ofJson?_toJson (limits : Limits) (r : Rule) : ofJson? limits r.toJson = .ok r := by
  obtain ⟨color, move, next⟩ := r
  cases move <;> rfl

theorem reread_toJson (r : Rule) : r.toJson.reread = r.toJson := by
  have hkeys : List.Nodup [Text.ofString "writeColor", Text.ofString "move",
      Text.ofString "nextState"] := by decide
  exact congrArg Json.obj (Json.Members.ofList_of_nodup hkeys)

theorem isEncodable_texts (r : Rule) : ∀ t ∈ r.toJson.texts, t.IsEncodable := by
  simp [toJson, Json.texts, Json.memberTexts]

end Rule

namespace Program

/-! ## Payloads -/

/-- The rules of a new state are collected behind the states before it. -/
theorem foldlM_rules (limits : Limits) {state : Int} {front : List (Int × List Rule)}
    (h : state ∉ front.map (·.1)) (rules added : List Rule) :
    (rules.map Rule.toJson).foldlM
        (fun p item => do pure (Program.add p state (← Rule.ofJson? limits item)))
        ⟨front ++ [(state, added)]⟩ =
      .ok ⟨front ++ [(state, added ++ rules)]⟩ := by
  induction rules generalizing added with
  | nil => rw [List.append_nil]; rfl
  | cons rule rules ih =>
    have hadd : Program.add ⟨front ++ [(state, added)]⟩ state rule =
        ⟨front ++ [(state, added ++ [rule])]⟩ := by
      rw [Program.add, addTo_append_of_not_mem h, addTo, if_pos rfl]
    rw [List.map_cons, List.foldlM_cons, Rule.ofJson?_toJson]
    have hstep := ih (added ++ [rule])
    rw [← hadd, List.append_assoc] at hstep
    exact hstep

theorem addEntry?_ofInt {limits : Limits} {state : Int} {front : List (Int × List Rule)}
    {rules : List Rule} (h : state ∉ front.map (·.1)) (hw : Json.isWritable limits state = true)
    (hne : rules ≠ []) :
    addEntry? limits ⟨front⟩ (Text.ofInt state) (.arr (rules.map Rule.toJson)) =
      .ok ⟨front ++ [(state, rules)]⟩ := by
  obtain ⟨rule, rules, rfl⟩ := List.exists_cons_of_ne_nil hne
  have hstate : stateOf? limits (Text.ofInt state) = .ok state := by
    rw [stateOf?, Numeral.readInt?_ofInt hw]
  have hadd : Program.add ⟨front⟩ state rule = ⟨front ++ [(state, [rule])]⟩ := by
    rw [Program.add, addTo_of_not_mem h]
  have hrest := foldlM_rules limits h rules [rule]
  rw [← hadd] at hrest
  have hrules : ((rule :: rules).map Rule.toJson).foldlM
      (fun p item => do pure (Program.add p state (← Rule.ofJson? limits item))) ⟨front⟩ =
        .ok ⟨front ++ [(state, rule :: rules)]⟩ := by
    rw [List.map_cons, List.foldlM_cons, Rule.ofJson?_toJson]
    exact hrest
  unfold addEntry?
  rw [hstate]
  exact hrules

/-- Whether the numbers of a program are written with no more digits than a limit. -/
def hasWritableNumbers (limits : Limits) (p : Program) : Bool :=
  p.entries.all fun (state, rules) =>
    Json.isWritable limits state &&
      rules.all fun r => Json.isWritable limits r.color && Json.isWritable limits r.next

theorem hasWritableNumbers_iff {limits : Limits} {p : Program} :
    p.hasWritableNumbers limits = true ↔ ∀ entry ∈ p.entries,
      Json.isWritable limits entry.1 = true ∧ ∀ rule ∈ entry.2,
        Json.isWritable limits rule.color = true ∧ Json.isWritable limits rule.next = true := by
  simp [hasWritableNumbers]

theorem all_states_of_hasWritableNumbers {limits : Limits} {p : Program}
    (h : p.hasWritableNumbers limits = true) : p.states.all (Json.isWritable limits) = true := by
  unfold states
  rw [List.all_map, List.all_eq_true]
  exact fun entry hentry => (hasWritableNumbers_iff.1 h entry hentry).1

theorem foldlM_entries (limits : Limits) (front r : List (Int × List Rule))
    (h : IsRegular ⟨front ++ r⟩) (hw : ∀ entry ∈ r, Json.isWritable limits entry.1 = true) :
    (r.map fun (state, rules) => (Text.ofInt state, Json.arr (rules.map Rule.toJson))).foldlM
        (fun p (key, rules) => addEntry? limits p key rules) ⟨front⟩ = .ok ⟨front ++ r⟩ := by
  induction r generalizing front with
  | nil => rw [List.append_nil]; rfl
  | cons head r ih =>
    obtain ⟨state, rules⟩ := head
    obtain ⟨hwhead, hwr⟩ := List.forall_mem_cons.1 hw
    have hnew : state ∉ front.map (·.1) := by
      have := h.nodup
      simp only [states, List.map_append, List.map_cons] at this
      exact fun hmem => (List.nodup_append.1 this).2.2 _ hmem _ List.mem_cons_self rfl
    have hrest := ih (front ++ [(state, rules)]) (by simpa using h) hwr
    rw [List.append_assoc] at hrest
    have hne : rules ≠ [] := h.ne_nil (state, rules) (by simp)
    simp only [List.map_cons, List.foldlM_cons, addEntry?_ofInt hnew hwhead hne]
    exact hrest

/-- The payload of a regular program is read as the program. -/
theorem ofMembers?_payload {limits : Limits} {p : Program} (h : p.IsRegular)
    (hs : p.states.all (Json.isWritable limits) = true) :
    ofMembers? limits
      (p.entries.map fun (state, rules) => (Text.ofInt state, .arr (rules.map Rule.toJson))) =
      .ok p :=
  foldlM_entries limits [] p.entries h fun _ hentry =>
    List.all_eq_true.1 hs _ (List.mem_map_of_mem hentry)

theorem reread_toPayload {p : Program} (h : p.IsRegular) : p.toPayload.reread = p.toPayload := by
  have hitems (rules : List Rule) :
      (Json.arr (rules.map Rule.toJson)).reread = .arr (rules.map Rule.toJson) := by
    rw [Json.reread, Json.rereadItems_eq_map, List.map_map]
    exact congrArg Json.arr (List.map_congr_left fun r _ => r.reread_toJson)
  have hkeys : (p.entries.map fun (state, rules) =>
      (Text.ofInt state, Json.arr (rules.map Rule.toJson))).map (·.1) =
        p.states.map Text.ofInt := by
    simp [states]
  rw [toPayload, Json.reread, Json.rereadMembers_eq_map, List.map_map]
  simp only [Function.comp_def, hitems]
  rw [Json.Members.ofList_of_nodup]
  rw [hkeys]
  exact List.Nodup.map Text.ofInt_injective h.nodup

theorem isEncodable_texts_toPayload (p : Program) : ∀ t ∈ p.toPayload.texts, t.IsEncodable := by
  intro t ht
  obtain ⟨member, hmember, ht⟩ := Json.mem_memberTexts.1 ht
  obtain ⟨⟨state, rules⟩, -, rfl⟩ := List.mem_map.1 hmember
  rcases ht with rfl | ht
  · exact Text.isEncodable_plain _
  · obtain ⟨v, hv, ht⟩ := Json.mem_itemTexts.1 ht
    obtain ⟨r, -, rfl⟩ := List.mem_map.1 hv
    exact r.isEncodable_texts t ht

/-! ## Documents -/

section Document

variable {limits : Limits} {p : Program} {metadata : Json}

theorem isEncodable_texts_toDocument (hm : ∀ t ∈ metadata.texts, t.IsEncodable) :
    ∀ t ∈ (p.toDocument metadata).texts, t.IsEncodable := by
  have hm' : ∀ t ∈ (if metadata.isTruthy then metadata else .obj []).texts, t.IsEncodable := by
    split_ifs
    · exact hm
    · simp [Json.texts, Json.memberTexts]
  have hp := isEncodable_texts_toPayload p
  simp only [toDocument, Json.texts, Json.memberTexts, List.forall_mem_append,
    List.forall_mem_cons]
  have hname := Text.isEncodable_ofString
  have hnone : ∀ t ∈ ([] : List Text), t.IsEncodable := by simp
  exact ⟨⟨hname _, hnone⟩, ⟨hname _, hm'⟩, ⟨hname _, hp⟩, hnone⟩

/-- A document within limits is written as the characters of its text. -/
theorem documentChars?_eq_ok (hs : p.states.all (Json.isWritable limits) = true)
    (hl : (p.toDocument metadata).Within limits) (hm : ∀ t ∈ metadata.texts, t.IsEncodable) :
    p.documentChars? limits metadata = .ok (p.toDocument metadata).indented.scalars := by
  have hfault := (Json.isEncodable_write .indented 0 _
    (isEncodable_texts_toDocument (p := p) hm)).encodingFault?
  have hstates : ensure (p.states.all (Json.isWritable limits)) .integerTooLong = .ok () :=
    ensure_eq_ok.2 hs
  simp only [documentChars?, hstates, hl.ensureWritable, mapError_ok, Json.indented, hfault, bind,
    Except.bind]
  rfl

/-- A document that is written keeps to the limits, and so do the states of its program. -/
theorem within_of_documentChars? {chars : List Char}
    (h : p.documentChars? limits metadata = .ok chars) :
    p.states.all (Json.isWritable limits) = true ∧ (p.toDocument metadata).Within limits := by
  obtain ⟨_, hstates, h⟩ := bind_eq_ok.1 h
  obtain ⟨_, hdocument, -⟩ := bind_eq_ok.1 h
  exact ⟨ensure_eq_ok.1 hstates, Json.within_of_ensureWritable (mapError_eq_ok.1 hdocument)⟩

/-- A document of texts that can be encoded is refused only for a number that is too long, if it is
not too deep. -/
theorem documentChars?_eq_error {e : Error} (hm : ∀ t ∈ metadata.texts, t.IsEncodable)
    (hdepth : ∀ most ∈ limits.depth, (p.toDocument metadata).depth ≤ most)
    (h : p.documentChars? limits metadata = .error e) :
    e = .integerTooLong ∧ ¬(p.states.all (Json.isWritable limits) = true ∧
      (p.toDocument metadata).integers.all (Json.isWritable limits) = true) := by
  refine ⟨?_, fun ⟨hs, hi⟩ => ?_⟩
  · have hfault := (Json.isEncodable_write .indented 0 _
      (isEncodable_texts_toDocument (p := p) hm)).encodingFault?
    have hlong := Json.ensureWritable_of_depth limits hdepth
    simp only [documentChars?, hlong, Json.indented, hfault] at h
    cases hstates : p.states.all (Json.isWritable limits) with
    | false =>
      rw [hstates] at h
      cases h
      rfl
    | true =>
      rw [hstates] at h
      cases hintegers : (p.toDocument metadata).integers.all (Json.isWritable limits) with
      | false =>
        rw [hintegers] at h
        cases h
        rfl
      | true =>
        rw [hintegers] at h
        cases h
  · rw [documentChars?_eq_ok hs ⟨List.all_eq_true.1 hi, hdepth⟩ hm] at h
    cases h

theorem ofPayload?_reread_toDocument (metadata : Json) (h : p.IsRegular)
    (hs : p.states.all (Json.isWritable limits) = true) :
    ofPayload? limits (p.toDocument metadata).reread = .ok p := by
  have hkeys : List.Nodup [Text.ofString "schema_version", Text.ofString "metadata",
      Text.ofString "rules"] := by decide
  have hdocument : (p.toDocument metadata).reread =
      .obj [(("schema_version" : Text), .int schemaVersion),
        (("metadata" : Text), (if metadata.isTruthy then metadata else .obj []).reread),
        (("rules" : Text), p.toPayload)] := by
    conv_rhs => rw [← reread_toPayload h]
    exact congrArg Json.obj (Json.Members.ofList_of_nodup hkeys)
  rw [hdocument]
  exact ofMembers?_payload h hs

/-- The document of a regular program is read as the program, within limits. -/
theorem ofChars?_indented (h : p.IsRegular) (hs : p.states.all (Json.isWritable limits) = true)
    (hm : ∀ t ∈ metadata.texts, t.IsEncodable) (hl : (p.toDocument metadata).Within limits) :
    ofChars? limits (p.toDocument metadata).indented.scalars = .ok p := by
  have hread := Json.parse?_write Json.Layout.isBlank_indented
    (isEncodable_texts_toDocument (p := p) hm) hl
  rw [ofChars?, Json.indented, hread]
  exact ofPayload?_reread_toDocument metadata h hs

/-- A document that is written is read as the program, if the program is regular: what is too long
or too deep to be read is not written. -/
theorem ofChars?_documentChars? {chars : List Char} (h : p.IsRegular)
    (hm : ∀ t ∈ metadata.texts, t.IsEncodable)
    (hchars : p.documentChars? limits metadata = .ok chars) :
    ofChars? limits chars = .ok p := by
  obtain ⟨hs, hl⟩ := within_of_documentChars? hchars
  rw [documentChars?_eq_ok hs hl hm] at hchars
  obtain rfl := Except.ok.inj hchars
  exact ofChars?_indented h hs hm hl

/-- The document of a regular program is written within limits, and read as the program. -/
theorem IsRegular.exists_document (h : p.IsRegular)
    (hs : p.states.all (Json.isWritable limits) = true)
    (hm : ∀ t ∈ metadata.texts, t.IsEncodable) (hl : (p.toDocument metadata).Within limits) :
    ∃ chars, p.documentChars? limits metadata = .ok chars ∧ ofChars? limits chars = .ok p :=
  ⟨_, documentChars?_eq_ok hs hl hm, ofChars?_indented h hs hm hl⟩

end Document

theorem hasWritableNumbers_unbounded (p : Program) : p.hasWritableNumbers .unbounded = true :=
  hasWritableNumbers_iff.2 fun _ _ => ⟨rfl, fun _ _ => ⟨rfl, rfl⟩⟩

/-- Every reachable program can be written with any metadata that can be encoded, and is what is
read from its document; where reading is limited, this holds of documents within the limits. -/
theorem document_reads_back {p : Program} {metadata : Json} (hp : Reachable p)
    (hm : ∀ t ∈ metadata.texts, t.IsEncodable) :
    (∃ chars, p.documentChars? .unbounded metadata = .ok chars ∧
      ofChars? .unbounded chars = .ok p) ∧
    ∀ limits, p.hasWritableNumbers limits = true → (p.toDocument metadata).Within limits →
      ∃ chars, p.documentChars? limits metadata = .ok chars ∧ ofChars? limits chars = .ok p := by
  have h := hp.isRegular
  have hwritten {limits : Limits} (hw : p.hasWritableNumbers limits = true)
      (hl : (p.toDocument metadata).Within limits) :=
    h.exists_document (all_states_of_hasWritableNumbers hw) hm hl
  exact ⟨hwritten p.hasWritableNumbers_unbounded (Json.within_unbounded _), fun _ => hwritten⟩

/-- A loaded program with two numerals for one state and a state without rules, to which rules are
added, under metadata with a number, escapes and a list. -/
theorem document_reads_back_loaded :
    let payload : Json := .obj [
      (("05" : Text), .arr [(⟨2, .up, 6⟩ : Rule).toJson]),
      (("7" : Text), .arr []),
      ((" +5" : Text), .arr [(⟨0, .left, -1⟩ : Rule).toJson])]
    let loaded : Program := ⟨[(5, [⟨2, .up, 6⟩, ⟨0, .left, -1⟩])]⟩
    let p := ((loaded.add (-3) ⟨9, .down, 10 ^ 30⟩).add 5 ⟨1, .right, 5⟩).haltAfterLast
    let metadata : Json := .obj [
      (("title" : Text), .str ("a \"b\"\t\u0001é" : Text)),
      (("ratio" : Text), .float 0.5),
      (("sizes" : Text), .arr [.int (-12), .null, .obj [(("" : Text), .bool true)]])]
    ofPayload? .standard payload = .ok loaded ∧ (∀ t ∈ metadata.texts, t.IsEncodable) ∧
      (∃ chars, p.documentChars? .unbounded metadata = .ok chars ∧
        ofChars? .unbounded chars = .ok p) ∧
      ∃ chars, p.documentChars? .standard metadata = .ok chars ∧
        ofChars? .standard chars = .ok p := by
  intro payload loaded p metadata
  have hload : ofPayload? .standard payload = .ok loaded := by rfl
  have hloaded : Reachable loaded := .load .standard payload hload
  have hp : Reachable p := ((hloaded.add _ _).add _ _).haltAfterLast
  have hm : ∀ t ∈ metadata.texts, t.IsEncodable := by
    simp [metadata, Json.texts, Json.memberTexts, Json.itemTexts]
  have h := document_reads_back hp hm
  have hw : p.hasWritableNumbers .standard = true := by rfl
  have hl : (p.toDocument metadata).Within .standard := ⟨by decide, by decide⟩
  exact ⟨hload, hm, h.1, h.2 .standard hw hl⟩

end Program
end Turmite
