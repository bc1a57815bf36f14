import Turmite.Proofs.JsonNumber
import Turmite.Text.Encoding

/-!
# The tokens of written values

Scanning the text of a value gives its tokens, in any layout that puts only gaps after brackets and
commas (`lexes_write`, `ofChars_write`). A text between quotes is read as itself, escape by escape,
if it has no surrogates (`next?_textLiteral`); then the text of the value has none either
(`isEncodable_write`).
-/

namespace Turmite

/-! ## Texts without surrogates -/

namespace Text

/-- The characters of a text, without its surrogates. -/
def scalars (t : Text) : List Char := t.filterMap CodePoint.char?

@[simp] theorem scalars_nil : scalars [] = [] := rfl

@[simp] theorem scalars_cons_scalar (c : Char) (t : Text) :
    scalars (.scalar c :: t) = c :: scalars t := rfl

@[simp] theorem scalars_append (s t : Text) : scalars (s ++ t) = scalars s ++ scalars t :=
  List.filterMap_append

@[simp] theorem scalars_plain (cs : List Char) : scalars (Json.plain cs) = cs := by
  induction cs with
  | nil => rfl
  | cons c r ih => exact congrArg (c :: ·) ih

@[simp] theorem scalars_ofString (s : String) : scalars (ofString s) = s.toList :=
  scalars_plain s.toList

/-- A text without surrogates. -/
def IsEncodable (t : Text) : Prop := ∀ c ∈ t, c.isSurrogate = false

@[simp] theorem isEncodable_nil : IsEncodable [] := by simp [IsEncodable]

@[simp] theorem isEncodable_cons_scalar {c : Char} {t : Text} :
    IsEncodable (.scalar c :: t) ↔ t.IsEncodable := by
  simp [IsEncodable, CodePoint.isSurrogate]

@[simp] theorem isEncodable_append {s t : Text} :
    IsEncodable (s ++ t) ↔ s.IsEncodable ∧ t.IsEncodable := List.forall_mem_append

@[simp] theorem isEncodable_plain (cs : List Char) : IsEncodable (Json.plain cs) := by
  simp [IsEncodable, Json.plain, CodePoint.isSurrogate]

@[simp] theorem isEncodable_ofString (s : String) : IsEncodable (ofString s) :=
  isEncodable_plain s.toList

/-- What can be encoded has no fault. -/
theorem IsEncodable.encodingFault? {t : Text} (h : t.IsEncodable) :
    t.encodingFault? (!·.isSurrogate) = none :=
  encodingFault?_eq_none fun c hc => by rw [h c hc]; rfl

end Text

namespace Json.Token

/-! ## Texts -/

theorem hexValue?_digitChar : ∀ d < 16, hexValue? (Nat.digitChar d) = some d := by decide

/-- The escape by a letter is read as the code point it stands for. -/
theorem textBody?_letter {e c : Char} (h : letterEscape? e = some c) (he : e ≠ 'u')
    (r : List Char) : textBody? ('\\' :: e :: r) =
      (textBody? r).map fun (t, rest) => (.scalar c :: t, rest) := by
  rw [textBody?]
  · rw [h]
    cases textBody? r <;> rfl
  · intro a b c d s hu
    exact absurd hu he

/-- The escape by a number is read as the code point of the number. -/
theorem textBody?_hexDigits {n : Nat} (h : n < 0x10000) (r : List Char) :
    textBody? ('\\' :: 'u' :: (hexDigits 4 n ++ r)) =
      (textBody? r).map fun (t, rest) => (.ofNat n :: t, rest) := by
  have hdigit (k : Nat) : hexValue? (Nat.digitChar (k % 16)) = some (k % 16) :=
    hexValue?_digitChar _ (Nat.mod_lt _ (by decide))
  have hvalue : ((n / 16 / 16 / 16 % 16 * 16 + n / 16 / 16 % 16) * 16 + n / 16 % 16) * 16 +
      n % 16 = n := by omega
  simp only [hexDigits, List.nil_append, List.cons_append, textBody?, hdigit]
  cases textBody? r with
  | none => rfl
  | some p => simp [hvalue]

/-- The three forms of a code point in a text: an escape by a letter, one by a number, or itself. -/
theorem escaped_cases (c : CodePoint) :
    (∃ e d, letterEscape? e = some d ∧ e ≠ 'u' ∧ c = .scalar d ∧
      escaped c = [.scalar '\\', .scalar e]) ∨
    (c.toNat < 0x20 ∧ escaped c = plain ('\\' :: 'u' :: hexDigits 4 c.toNat)) ∨
    (c ≠ .scalar '"' ∧ c ≠ .scalar '\\' ∧ ¬ c.toNat < 0x20 ∧ escaped c = [c]) := by
  unfold escaped
  split_ifs with h1 h2 h3 h4 h5 h6 h7 h8
  · exact .inl ⟨'"', '"', rfl, by decide, h1, rfl⟩
  · exact .inl ⟨'\\', '\\', rfl, by decide, h2, rfl⟩
  · exact .inl ⟨'n', '\n', rfl, by decide, h3, rfl⟩
  · exact .inl ⟨'r', '\r', rfl, by decide, h4, rfl⟩
  · exact .inl ⟨'t', '\t', rfl, by decide, h5, rfl⟩
  · exact .inl ⟨'b', '\x08', rfl, by decide, h6, rfl⟩
  · exact .inl ⟨'f', '\x0c', rfl, by decide, h7, rfl⟩
  · exact .inr (.inl ⟨h8, rfl⟩)
  · exact .inr (.inr ⟨h1, h2, h8, rfl⟩)

/-- An escaped code point is read as itself. -/
theorem textBody?_escaped {c : CodePoint} (h : c.isSurrogate = false) (r : List Char) :
    textBody? ((escaped c).scalars ++ r) =
      (textBody? r).map fun (t, rest) => (c :: t, rest) := by
  cases c with
  | surrogate k => cases h
  | scalar c =>
    obtain ⟨e, d, he, hu, hc, hs⟩ | ⟨hc, hs⟩ | ⟨hq, hb, hc, hs⟩ := escaped_cases (.scalar c)
    · rw [hs, hc]
      exact textBody?_letter he hu r
    · have hn : CodePoint.ofNat (CodePoint.scalar c).toNat = .scalar c := by
        rw [CodePoint.ofNat, dif_neg (by omega)]
        exact congrArg CodePoint.scalar (Char.ofNat_toNat c)
      rw [hs, Text.scalars_plain, List.cons_append, List.cons_append,
        textBody?_hexDigits (by omega), hn]
    · have hq : c ≠ '"' := fun e => hq (congrArg _ e)
      have hb : c ≠ '\\' := fun e => hb (congrArg _ e)
      rw [hs, Text.scalars_cons_scalar, Text.scalars_nil, List.cons_append, List.nil_append]
      -- Each other reading of a text wants a quote or a backslash in front.
      rw [textBody?]
      · have hc : ¬ c.toNat < 0x20 := hc
        simp only [hb, hc, or_self, if_false]
        cases textBody? r <;> rfl
      · exact hq
      · exact fun a b c d r h => absurd h hb
      · exact fun e r h => absurd h hb

/-- A text is read up to its closing quote. -/
theorem textBody?_flatMap {t : Text} (h : t.IsEncodable) (r : List Char) :
    textBody? (Text.scalars (t.flatMap escaped) ++ '"' :: r) = some (t, r) := by
  induction t with
  | nil => rfl
  | cons c t ih =>
    rw [List.flatMap_cons, Text.scalars_append, List.append_assoc,
      textBody?_escaped (h c List.mem_cons_self), ih fun d hd => h d (List.mem_cons_of_mem _ hd)]
    rfl

/-- A text without surrogates has no pairs of them. -/
theorem joinPairs_of_isEncodable {t : Text} (h : t.IsEncodable) : joinPairs t = t := by
  fun_induction joinPairs t with
  | case1 => rfl
  | case2 c => rfl
  | case3 c d r joined hj ih =>
    cases c with
    | scalar c => cases hj
    | surrogate k => cases h _ List.mem_cons_self
  | case4 c d r hj ih => rw [ih fun a ha => h a (List.mem_cons_of_mem _ ha)]

theorem next?_textLiteral (limits : Limits) {t : Text} (h : t.IsEncodable) (r : List Char) :
    next? limits ((textLiteral t).scalars ++ r) = some (text t, r) := by
  have hbody := textBody?_flatMap h r
  simp only [textLiteral, Text.scalars_append, Text.scalars_cons_scalar, Text.scalars_nil,
    List.cons_append, List.append_assoc, List.nil_append, next?, hbody, Option.map_some,
    joinPairs_of_isEncodable h]

/-! ## Sequences of tokens -/

/-- A text goes on with some tokens up to a rest: scanning it, with any bound that is enough, gives
them and then what scanning the rest gives. -/
def Lexes (limits : Limits) (s : List Char) (tokens : List Token) (rest : List Char) : Prop :=
  ∀ n, s.length ≤ n → ∃ k, rest.length ≤ k ∧ scan limits n s = tokens ++ scan limits k rest

section

variable {limits : Limits}

theorem Lexes.trans {s t u : List Char} {first second : List Token} (h : Lexes limits s first t)
    (h' : Lexes limits t second u) : Lexes limits s (first ++ second) u := by
  intro n hn
  obtain ⟨k, hk, hs⟩ := h n hn
  obtain ⟨k', hk', ht⟩ := h' k hk
  exact ⟨k', hk', by rw [hs, ht, List.append_assoc]⟩

/-- Gaps hold no tokens. -/
theorem Lexes.gap (limits : Limits) {gap : List Char} (h : ∀ c ∈ gap, isGap c = true)
    (rest : List Char) : Lexes limits (gap ++ rest) [] rest := by
  induction gap with
  | nil => exact fun n hn => ⟨n, hn, rfl⟩
  | cons c r ih =>
    intro n hn
    obtain ⟨n, rfl⟩ : ∃ m, n = m + 1 := ⟨n - 1, by simp at hn; omega⟩
    obtain ⟨k, hk, hs⟩ := ih (fun d hd => h d (List.mem_cons_of_mem _ hd)) n (by simpa using hn)
    refine ⟨k, hk, ?_⟩
    rw [List.cons_append, scan, if_pos (h c List.mem_cons_self), hs]

/-- No token starts with a gap. -/
theorem isGap_of_next? {c : Char} {s : List Char} {result : Token × List Char}
    (h : next? limits (c :: s) = some result) : isGap c = false := by
  by_contra hc
  simp only [isGap, Bool.not_eq_false, Bool.or_eq_true, decide_eq_true_eq] at hc
  rcases hc with ((rfl | rfl) | rfl) | rfl <;> simp [next?, number?, whole?] at h

/-- One token. -/
theorem Lexes.token {c : Char} {s rest : List Char} {token : Token}
    (h : next? limits (c :: s) = some (token, rest)) (hle : rest.length ≤ s.length) :
    Lexes limits (c :: s) [token] rest := by
  intro n hn
  obtain ⟨n, rfl⟩ : ∃ m, n = m + 1 := ⟨n - 1, by simp at hn; omega⟩
  refine ⟨n, by simp at hn; omega, ?_⟩
  rw [scan, if_neg (by simp [isGap_of_next? h]), h]
  rfl

/-- A token of one character. -/
theorem Lexes.mark {c : Char} {token : Token} (rest : List Char)
    (h : next? limits (c :: rest) = some (token, rest)) : Lexes limits (c :: rest) [token] rest :=
  Lexes.token h (Nat.le_refl _)

/-- A token with characters of its own. -/
theorem Lexes.word {word rest : List Char} {token : Token} (hw : word ≠ [])
    (h : next? limits (word ++ rest) = some (token, rest)) :
    Lexes limits (word ++ rest) [token] rest := by
  obtain ⟨c, r, rfl⟩ := List.exists_cons_of_ne_nil hw
  exact Lexes.token h (by simp)

end

end Json.Token

/-! ## Values -/

namespace Json

open Token

/-- The number that the text of a number is read as. -/
def numberRead (x : Float) : Float :=
  match next? .unbounded (numberStyle.text x) with
  | some (.scalar (.float y), _) => y
  | _ => x

theorem next?_numberText (limits : Limits) (x : Float) {rest : List Char} (hr : EndsNumber rest) :
    next? limits (numberStyle.text x ++ rest) = some (scalar (.float (numberRead x)), rest) := by
  obtain ⟨y, hy⟩ := exists_next?_numberText x
  have hx : numberRead x = y := by
    have := hy .unbounded [] endsNumber_nil
    rw [List.append_nil] at this
    rw [numberRead, this]
  rw [hx, hy limits rest hr]

mutual

/-- The tokens of a value. -/
def tokens : Json → List Token
  | float x => [.scalar (.float (numberRead x))]
  | str t => [.text t]
  | arr [] => [.arrayStart, .arrayEnd]
  | arr (v :: items) => .arrayStart :: (tokens v ++ itemTokens items ++ [.arrayEnd])
  | obj [] => [.objectStart, .objectEnd]
  | obj ((key, v) :: members) =>
    .objectStart :: .text key :: .colon :: (tokens v ++ memberTokens members ++ [.objectEnd])
  | v => [.scalar v]

/-- The tokens of the items after the first. -/
def itemTokens : List Json → List Token
  | [] => []
  | v :: items => .comma :: (tokens v ++ itemTokens items)

/-- The tokens of the members after the first. -/
def memberTokens : List (Text × Json) → List Token
  | [] => []
  | (key, v) :: members => .comma :: .text key :: .colon :: (tokens v ++ memberTokens members)

end

mutual

/-- The texts in a value, keys among them. -/
def texts : Json → List Text
  | str t => [t]
  | arr items => itemTexts items
  | obj members => memberTexts members
  | _ => []

/-- The texts in items. -/
def itemTexts : List Json → List Text
  | [] => []
  | v :: items => texts v ++ itemTexts items

/-- The texts in members. -/
def memberTexts : List (Text × Json) → List Text
  | [] => []
  | (key, v) :: members => key :: texts v ++ memberTexts members

end

theorem mem_itemTexts {t : Text} {items : List Json} :
    t ∈ itemTexts items ↔ ∃ v ∈ items, t ∈ v.texts := by
  induction items with
  | nil => simp [itemTexts]
  | cons v items ih => simp [itemTexts, ih]

theorem mem_memberTexts {t : Text} {members : Members} :
    t ∈ memberTexts members ↔ ∃ member ∈ members, t = member.1 ∨ t ∈ member.2.texts := by
  induction members with
  | nil => simp [memberTexts]
  | cons member members ih => simp [memberTexts, ih, or_assoc]

/-- Only gaps stand after brackets and commas. -/
structure Layout.IsBlank (layout : Layout) : Prop where
  atBracket : ∀ depth, ∀ c ∈ layout.atBracket depth, isGap c = true
  afterComma : ∀ depth, ∀ c ∈ layout.afterComma depth, isGap c = true

theorem isGap_of_mem_newLine {depth : Nat} {c : Char} (h : c ∈ newLine depth) : isGap c = true := by
  rcases List.mem_cons.1 h with rfl | h
  · rfl
  · rw [List.eq_of_mem_replicate h]
    rfl

theorem Layout.isBlank_indented : Layout.indented.IsBlank :=
  ⟨fun _ _ => isGap_of_mem_newLine, fun _ _ => isGap_of_mem_newLine⟩

theorem Layout.isBlank_line : Layout.line.IsBlank :=
  ⟨by simp [Layout.line], by simp [Layout.line, isGap]⟩

theorem endsNumber_gap {gap rest : List Char} (hg : ∀ c ∈ gap, isGap c = true)
    (hr : EndsNumber rest) : EndsNumber (gap ++ rest) := by
  cases gap with
  | nil => exact hr
  | cons c r =>
    have := hg c List.mem_cons_self
    simp only [isGap, Bool.or_eq_true, decide_eq_true_eq] at this
    apply endsNumber_cons
    rcases this with ((rfl | rfl) | rfl) | rfl <;> decide

theorem endsNumber_writeItems (layout : Layout) (depth : Nat) (items : List Json) {rest : List Char}
    (hr : EndsNumber rest) : EndsNumber ((writeItems layout depth items).scalars ++ rest) := by
  cases items with
  | nil => simpa [writeItems] using hr
  | cons v items =>
    simp only [writeItems, Text.scalars_append, Text.scalars_cons_scalar, List.cons_append]
    exact endsNumber_cons _ (by decide)

theorem endsNumber_writeMembers (layout : Layout) (depth : Nat) (members : Members)
    {rest : List Char} (hr : EndsNumber rest) :
    EndsNumber ((writeMembers layout depth members).scalars ++ rest) := by
  cases members with
  | nil => simpa [writeMembers] using hr
  | cons head members =>
    simp only [writeMembers, Text.scalars_append, Text.scalars_cons_scalar, List.cons_append]
    exact endsNumber_cons _ (by decide)

section

variable {limits : Limits} {layout : Layout}

theorem lexes_word (word : String) {rest : List Char} {token : Token} (hw : word.toList ≠ [])
    (h : next? limits (word.toList ++ rest) = some (token, rest)) :
    Lexes limits ((Text.ofString word).scalars ++ rest) [token] rest := by
  rw [Text.scalars_ofString]
  exact Lexes.word hw h

theorem lexes_textLiteral {t : Text} (h : t.IsEncodable) (rest : List Char) :
    Lexes limits ((textLiteral t).scalars ++ rest) [.text t] rest :=
  Lexes.word (List.cons_ne_nil _ _) (next?_textLiteral limits h rest)

theorem lexes_integerText {n : Int} {rest : List Char}
    (h : limits.allowsDigits (Binary64.digitCount n.natAbs) = true) (hr : EndsNumber rest) :
    Lexes limits (integerText n ++ rest) [.scalar (int n)] rest := by
  refine Lexes.word (fun hnil => ?_) (next?_integerText limits h hr)
  have := next?_integerText limits h endsNumber_nil
  rw [hnil] at this
  cases this

theorem lexes_numberText (x : Float) {rest : List Char} (hr : EndsNumber rest) :
    Lexes limits (numberStyle.text x ++ rest) [.scalar (float (numberRead x))] rest := by
  refine Lexes.word (fun hnil => ?_) (next?_numberText limits x hr)
  have := next?_numberText limits x endsNumber_nil
  rw [hnil] at this
  cases this

/-- A key, its colon and the blank after it. -/
theorem lexes_key (limits : Limits) {key : Text} (h : key.IsEncodable) (rest : List Char) :
    Lexes limits ((textLiteral key).scalars ++ ':' :: ' ' :: rest) [.text key, .colon] rest := by
  have hgap : ∀ c ∈ [' '], isGap c = true := by simp [isGap]
  exact (lexes_textLiteral h _).trans
    ((Lexes.mark (' ' :: rest) rfl).trans (Lexes.gap limits hgap rest))

mutual

/-- A written value is read as its tokens. -/
theorem lexes_write (hl : layout.IsBlank) (depth : Nat) : ∀ (v : Json) (rest : List Char),
    (∀ t ∈ v.texts, t.IsEncodable) →
    (∀ n ∈ v.integers, limits.allowsDigits (Binary64.digitCount n.natAbs) = true) →
    EndsNumber rest → Lexes limits ((write layout depth v).scalars ++ rest) v.tokens rest
  | null, rest, _, _, _ => lexes_word "null" (by decide) rfl
  | bool true, rest, _, _, _ => lexes_word "true" (by decide) rfl
  | bool false, rest, _, _, _ => lexes_word "false" (by decide) rfl
  | int n, rest, _, hn, hr => by
    rw [write, Text.scalars_plain]
    exact lexes_integerText (hn n (by simp [integers])) hr
  | float x, rest, _, _, hr => by
    rw [write, Text.scalars_plain]
    exact lexes_numberText x hr
  | str t, rest, ht, _, _ => lexes_textLiteral (ht t (by simp [texts])) rest
  | arr [], rest, _, _, _ =>
    (Lexes.mark (']' :: rest) rfl).trans
      (Lexes.mark rest rfl)
  | arr (v :: items), rest, ht, hn, hr => by
    simp only [texts, itemTexts, List.forall_mem_append] at ht
    simp only [integers, itemIntegers, List.forall_mem_append] at hn
    have hend := endsNumber_gap (hl.atBracket depth) (endsNumber_cons rest (c := ']') (by decide))
    have hv := lexes_write hl (depth + 1) v _ ht.1 hn.1
      (endsNumber_writeItems layout (depth + 1) items hend)
    have hitems := lexes_writeItems hl (depth + 1) items _ ht.2 hn.2 hend
    have hopen := Lexes.gap limits (hl.atBracket (depth + 1))
    have hclose := (Lexes.gap limits (hl.atBracket depth) _).trans
      (Lexes.mark (c := ']') rest rfl)
    have h := (Lexes.mark (c := '[') _ rfl).trans
      ((hopen _).trans (hv.trans (hitems.trans hclose)))
    simpa [write, tokens] using h
  | obj [], rest, _, _, _ =>
    (Lexes.mark ('}' :: rest) rfl).trans
      (Lexes.mark rest rfl)
  | obj ((key, v) :: members), rest, ht, hn, hr => by
    simp only [texts, memberTexts, List.forall_mem_append, List.forall_mem_cons] at ht
    simp only [integers, memberIntegers, List.forall_mem_append] at hn
    have hend := endsNumber_gap (hl.atBracket depth) (endsNumber_cons rest (c := '}') (by decide))
    have hv := lexes_write hl (depth + 1) v _ ht.1.2 hn.1
      (endsNumber_writeMembers layout (depth + 1) members hend)
    have hmembers := lexes_writeMembers hl (depth + 1) members _ ht.2 hn.2 hend
    have hopen := Lexes.gap limits (hl.atBracket (depth + 1))
    have hkey := lexes_key limits ht.1.1
    have hclose := (Lexes.gap limits (hl.atBracket depth) _).trans
      (Lexes.mark (c := '}') rest rfl)
    have h := (Lexes.mark (c := '{') _ rfl).trans
      ((hopen _).trans ((hkey _).trans (hv.trans (hmembers.trans hclose))))
    simpa [write, tokens] using h

theorem lexes_writeItems (hl : layout.IsBlank) (depth : Nat) :
    ∀ (items : List Json) (rest : List Char), (∀ t ∈ itemTexts items, t.IsEncodable) →
    (∀ n ∈ itemIntegers items, limits.allowsDigits (Binary64.digitCount n.natAbs) = true) →
    EndsNumber rest →
    Lexes limits ((writeItems layout depth items).scalars ++ rest) (itemTokens items) rest
  | [], rest, _, _, _ => fun n hn => ⟨n, hn, rfl⟩
  | v :: items, rest, ht, hn, hr => by
    simp only [itemTexts, List.forall_mem_append] at ht
    simp only [itemIntegers, List.forall_mem_append] at hn
    have hv := lexes_write hl depth v _ ht.1 hn.1 (endsNumber_writeItems layout depth items hr)
    have hitems := lexes_writeItems hl depth items rest ht.2 hn.2 hr
    have hcomma := Lexes.gap limits (hl.afterComma depth)
    have h := (Lexes.mark (c := ',') _ rfl).trans
      ((hcomma _).trans (hv.trans hitems))
    simpa [writeItems, itemTokens] using h

theorem lexes_writeMembers (hl : layout.IsBlank) (depth : Nat) :
    ∀ (members : List (Text × Json)) (rest : List Char),
    (∀ t ∈ memberTexts members, t.IsEncodable) →
    (∀ n ∈ memberIntegers members, limits.allowsDigits (Binary64.digitCount n.natAbs) = true) →
    EndsNumber rest →
    Lexes limits ((writeMembers layout depth members).scalars ++ rest) (memberTokens members) rest
  | [], rest, _, _, _ => fun n hn => ⟨n, hn, rfl⟩
  | (key, v) :: members, rest, ht, hn, hr => by
    simp only [memberTexts, List.forall_mem_append, List.forall_mem_cons] at ht
    simp only [memberIntegers, List.forall_mem_append] at hn
    have hv := lexes_write hl depth v _ ht.1.2 hn.1
      (endsNumber_writeMembers layout depth members hr)
    have hmembers := lexes_writeMembers hl depth members rest ht.2 hn.2 hr
    have hcomma := Lexes.gap limits (hl.afterComma depth)
    have hkey := lexes_key limits ht.1.1
    have h := (Lexes.mark (c := ',') _ rfl).trans
      ((hcomma _).trans ((hkey _).trans (hv.trans hmembers)))
    simpa [writeMembers, memberTokens] using h

end

end

/-- Scanning a written value gives its tokens. -/
theorem ofChars_write {limits : Limits} {layout : Layout} {v : Json} (hl : layout.IsBlank)
    (ht : ∀ t ∈ v.texts, t.IsEncodable)
    (hn : ∀ n ∈ v.integers, limits.allowsDigits (Binary64.digitCount n.natAbs) = true) :
    Token.ofChars limits (write layout 0 v).scalars = v.tokens := by
  have h := lexes_write hl 0 v [] ht hn endsNumber_nil
  rw [List.append_nil] at h
  obtain ⟨k, -, hscan⟩ := h _ (Nat.le_refl _)
  rw [Token.ofChars, hscan, scan, List.append_nil]

/-! ## What is written -/

theorem isEncodable_textLiteral {t : Text} (h : t.IsEncodable) : (textLiteral t).IsEncodable := by
  have hbody : Text.IsEncodable (t.flatMap escaped) := by
    intro d hd
    obtain ⟨c, hc, hd⟩ := List.mem_flatMap.1 hd
    obtain ⟨e, _, _, _, _, hs⟩ | ⟨_, hs⟩ | ⟨_, _, _, hs⟩ := escaped_cases c
    · rw [hs] at hd
      exact (by simp : Text.IsEncodable [.scalar '\\', .scalar e]) d hd
    · rw [hs] at hd
      exact Text.isEncodable_plain _ d hd
    · rw [hs, List.mem_singleton] at hd
      exact hd ▸ h c hc
  simp [textLiteral, hbody]

mutual

/-- A value whose texts can be encoded is written as a text that can be. -/
theorem isEncodable_write (layout : Layout) (depth : Nat) : ∀ v : Json,
    (∀ t ∈ v.texts, t.IsEncodable) → (write layout depth v).IsEncodable
  | null, _ => Text.isEncodable_ofString _
  | bool true, _ => Text.isEncodable_ofString _
  | bool false, _ => Text.isEncodable_ofString _
  | int _, _ => Text.isEncodable_plain _
  | float _, _ => Text.isEncodable_plain _
  | str t, ht => isEncodable_textLiteral (ht t (by simp [texts]))
  | arr [], _ => Text.isEncodable_ofString _
  | arr (v :: items), ht => by
    simp only [texts, itemTexts, List.forall_mem_append] at ht
    have hv := isEncodable_write layout (depth + 1) v ht.1
    have hitems := isEncodable_writeItems layout (depth + 1) items ht.2
    simp [write, hv, hitems]
  | obj [], _ => Text.isEncodable_ofString _
  | obj ((key, v) :: members), ht => by
    simp only [texts, memberTexts, List.forall_mem_append, List.forall_mem_cons] at ht
    have hkey := isEncodable_textLiteral ht.1.1
    have hv := isEncodable_write layout (depth + 1) v ht.1.2
    have hmembers := isEncodable_writeMembers layout (depth + 1) members ht.2
    simp [write, hkey, hv, hmembers]

theorem isEncodable_writeItems (layout : Layout) (depth : Nat) : ∀ items : List Json,
    (∀ t ∈ itemTexts items, t.IsEncodable) → (writeItems layout depth items).IsEncodable
  | [], _ => Text.isEncodable_nil
  | v :: items, ht => by
    simp only [itemTexts, List.forall_mem_append] at ht
    have hv := isEncodable_write layout depth v ht.1
    have hitems := isEncodable_writeItems layout depth items ht.2
    simp [writeItems, hv, hitems]

theorem isEncodable_writeMembers (layout : Layout) (depth : Nat) : ∀ members : List (Text × Json),
    (∀ t ∈ memberTexts members, t.IsEncodable) → (writeMembers layout depth members).IsEncodable
  | [], _ => Text.isEncodable_nil
  | (key, v) :: members, ht => by
    simp only [memberTexts, List.forall_mem_append, List.forall_mem_cons] at ht
    have hkey := isEncodable_textLiteral ht.1.1
    have hv := isEncodable_write layout depth v ht.1.2
    have hmembers := isEncodable_writeMembers layout depth members ht.2
    simp [writeMembers, hkey, hv, hmembers]

end

end Json
end Turmite
