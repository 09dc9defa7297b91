/-
Multiplicities as they are written beside a name, in quotes or bare. Bare
ones share their characters with arrows and with names, quoted ones may hold
anything but a quote; `CountSpelling` is both as data.

Each reader of a relation line takes a spelled multiplicity for what it is:
the search for the arrow passes over it, no label starts in it, it is one
token beside others, and that token is a multiplicity with the text that was
written (`CountSpelling.tokenCardinality?_text`). The text can be read unless
a run of digits is beyond the limit (`Cardinality.exists_ofText_of_shortRuns`).
-/
import ApiScaffold.Proofs.Diagram.ArrowSearch
import ApiScaffold.Proofs.Diagram.NumeralLimit

namespace ApiScaffold

-- =================================================== statement vocabulary

/-- Blanks that part two tokens. -/
structure Gap where
  text : List Char
  ne_nil : text ≠ []
  blank : AllBlank text

/-- A multiplicity whose numerals are made of ASCII digits. -/
def CountToken.Ascii (t : CountToken) : Prop :=
  ∀ n ∈ t.numerals, ∀ c ∈ n.digits, c.isDigit = true

instance (t : CountToken) : Decidable t.Ascii :=
  @List.decidableBAll Numeral (fun n => ∀ c ∈ n.digits, c.isDigit = true)
    (fun n => List.decidableBAll (fun c => c.isDigit = true) n.digits)
    t.numerals

/-- A multiplicity as it stands beside a name: any text in quotes, or a bare
star, numeral or range. A bare range has a numeral on some side. -/
inductive CountSpelling where
  | quoted (token : List Char) (unquoted : '"' ∉ token)
  | bare (token : CountToken) (ascii : token.Ascii)
      (counted : token ≠ .between none none)

/-- The multiplicity without its quotes. -/
def CountSpelling.token : CountSpelling → List Char
  | quoted token _ => token
  | bare token _ _ => token.text

/-- The multiplicity as it is written. -/
def CountSpelling.text : CountSpelling → List Char
  | quoted token _ => '"' :: (token ++ ['"'])
  | bare token _ _ => token.text

/-- No run of decimal digits in a text is beyond the limit. -/
def ShortRuns (s : List Char) : Prop :=
  ∀ run, run <:+: s → (∀ c ∈ run, isDecimal c = true) → run.length ≤ numeralLimit

-- =============================================================== numbers

/-- The digits of a numeral stand in the text of its token. -/
theorem CountToken.digits_within {t : CountToken} {n : Numeral}
    (h : n ∈ t.numerals) : n.digits <:+: t.text := by
  cases t with
  | star => cases h
  | exactly m => exact List.mem_singleton.mp h ▸ List.infix_refl _
  | between lower upper =>
      rcases List.mem_append.mp h with h | h
      · rw [Option.mem_toList.mp h]
        exact ⟨[], '.' :: '.' :: sideText upper, rfl⟩
      · rw [Option.mem_toList.mp h]
        exact ⟨sideText lower ++ ['.', '.'], [], by simp [text, sideText]⟩

/-- A text within the limit has no run of digits beyond it. -/
theorem shortRuns_of_length_le {s : List Char} (h : s.length ≤ numeralLimit) :
    ShortRuns s :=
  fun _ hinfix _ => Nat.le_trans hinfix.length_le h

/-- What trimming leaves is a part of the text. -/
theorem trim_within (s : List Char) : trim s <:+: s := by
  obtain ⟨g, g', -, -, heq⟩ := exists_trim s
  exact ⟨g, g', heq.symm⟩

namespace Cardinality

/-- Without a run of digits beyond the limit a text can be read. -/
theorem exists_ofText_of_shortRuns {s : List Char} (h : ShortRuns s) :
    ∃ o, ofText s = .ok o := by
  cases hread : ofText s with
  | ok o => exact ⟨o, rfl⟩
  | error e =>
      obtain ⟨t, n, htext, hfind, -⟩ := (failsAs_ofText s e).mp hread
      have hlong := List.find?_some hfind
      unfold Numeral.isTooLong at hlong
      have hinfix : n.digits <:+: s := by
        refine List.IsInfix.trans ?_ (trim_within s)
        rw [htext]
        exact CountToken.digits_within (List.mem_of_find?_eq_some hfind)
      have hshort := h n.digits hinfix n.decimal
      exact absurd (of_decide_eq_true hlong) (Nat.not_lt.mpr hshort)

/-- A multiplicity without a long run of digits can be read. -/
theorem exists_ofText?_of_shortRuns {o : Option (List Char)}
    (h : ∀ s ∈ o, ShortRuns s) : ∃ c, ofText? o = .ok c := by
  cases o with
  | none => exact ⟨none, rfl⟩
  | some s => exact exists_ofText_of_shortRuns (h s rfl)

/-- A multiplicity is read the same once it is trimmed. -/
theorem ofText?_map_trim (o : Option (List Char)) :
    ofText? (o.map trim) = ofText? o := by
  cases o with
  | none => rfl
  | some s =>
      show ofText (trim s) = ofText s
      unfold ofText
      rw [trim_trim]

end Cardinality

-- ================================================================ tokens

theorem endTokens_nil : endTokens [] = [] := by
  rw [endTokens.eq_def]

/-- The tokens of a relation end, by its first character: a gap, a quoted token
or a word. -/
theorem endTokens_cons (c : Char) (cs : List Char) :
    endTokens (c :: cs)
      = if isBlank c then endTokens cs
        else if c = '"' && cs.contains '"' then
          (c :: cs.takeWhile (· ≠ '"') ++ ['"'])
            :: endTokens ((cs.dropWhile (· ≠ '"')).drop 1)
        else (c :: cs.takeWhile isInk) :: endTokens (cs.dropWhile isInk) := by
  conv => lhs; rw [endTokens.eq_def]

/-- Blanks in front make no token. -/
theorem endTokens_blanks_append {g : List Char} (hg : AllBlank g)
    (s : List Char) : endTokens (g ++ s) = endTokens s := by
  induction g with
  | nil => rfl
  | cons b g ih =>
      rw [List.cons_append, endTokens_cons, if_pos (hg b (by simp))]
      exact ih fun c hc => hg c (List.mem_cons_of_mem _ hc)

/-- A text without blanks that opens no quote is a token, up to the blank
that follows it. -/
theorem endTokens_ink_append {t rest : List Char} (hne : t ≠ [])
    (hink : AllInk t) (hquote : '"' ∉ t)
    (hrest : ∀ c ∈ rest.head?, isBlank c = true) :
    endTokens (t ++ rest) = t :: endTokens rest := by
  have hstop : ∀ b ∈ rest.head?, isInk b = false :=
    fun b hb => by simp [isInk, hrest b hb]
  obtain ⟨c, r, rfl⟩ := List.exists_cons_of_ne_nil hne
  have hc : c ≠ '"' := fun heq => hquote (heq ▸ List.mem_cons_self ..)
  have hr : ∀ d ∈ r, isInk d = true :=
    fun d hd => by simp [isInk, hink d (List.mem_cons_of_mem _ hd)]
  obtain ⟨htake, hdrop⟩ := run_append hr hstop
  rw [List.cons_append, endTokens_cons, if_neg (by simp [hink c (by simp)]),
    if_neg (by simp [hc]), htake, hdrop]

/-- A quoted text in front is a token. -/
theorem endTokens_quoted_append {q : List Char} (hq : '"' ∉ q)
    (rest : List Char) :
    endTokens ('"' :: (q ++ ['"']) ++ rest)
      = ('"' :: (q ++ ['"'])) :: endTokens rest := by
  have hall : ∀ c ∈ q, decide (c ≠ '"') = true := by
    intro c hc
    exact decide_eq_true fun heq => hq (heq ▸ hc)
  rw [List.cons_append, List.append_assoc, List.singleton_append,
    endTokens_cons, if_neg (by decide), if_pos (by simp),
    List.takeWhile_append_of_pos hall, List.dropWhile_append_of_pos hall,
    List.takeWhile_cons_of_neg (by simp), List.dropWhile_cons_of_neg (by simp),
    List.append_nil]
  rfl

-- =============================================================== labels

/-- No label starts in a text, and no quote is left open in it. -/
def Unlabelled (t : List Char) : Prop :=
  ∀ s, beforeLabel false (t ++ s) = t ++ beforeLabel false s

/-- No label starts in two texts in a row if none starts in either. -/
theorem Unlabelled.append {t u : List Char} (ht : Unlabelled t)
    (hu : Unlabelled u) : Unlabelled (t ++ u) := by
  intro s
  rw [List.append_assoc, ht, hu, List.append_assoc]

/-- No label starts in a text without colons and quotes. -/
theorem unlabelled_plain {t : List Char} (hcolon : ':' ∉ t) (hquote : '"' ∉ t) :
    Unlabelled t := by
  intro s
  induction t with
  | nil => rfl
  | cons c t ih =>
      have hc : c ≠ ':' := fun heq => hcolon (heq ▸ List.mem_cons_self ..)
      have hq : (c == '"') = false :=
        beq_eq_false_iff_ne.mpr fun heq => hquote (heq ▸ List.mem_cons_self ..)
      rw [List.cons_append, beforeLabel, if_neg (by simp [hc]), hq]
      exact congrArg (c :: ·) (ih (fun h => hcolon (List.mem_cons_of_mem _ h))
        fun h => hquote (List.mem_cons_of_mem _ h))

theorem unlabelled_blanks {g : List Char} (hg : AllBlank g) : Unlabelled g :=
  unlabelled_plain (fun hmem => absurd (hg ':' hmem) (by decide))
    fun hmem => absurd (hg '"' hmem) (by decide)

/-- No colon between quotes starts a label. -/
theorem unlabelled_quoted {q : List Char} (hquote : '"' ∉ q) :
    Unlabelled ('"' :: (q ++ ['"'])) := by
  have hinner : ∀ s, beforeLabel true (q ++ '"' :: s)
      = q ++ '"' :: beforeLabel false s := by
    intro s
    induction q with
    | nil => rfl
    | cons c q ih =>
        have hq : (c == '"') = false :=
          beq_eq_false_iff_ne.mpr fun heq => hquote (heq ▸ List.mem_cons_self ..)
        rw [List.cons_append, beforeLabel, if_neg (by simp), hq]
        exact congrArg (c :: ·) (ih fun h => hquote (List.mem_cons_of_mem _ h))
  intro s
  have hopen : beforeLabel false ('"' :: (q ++ '"' :: s))
      = '"' :: beforeLabel true (q ++ '"' :: s) := rfl
  rw [List.cons_append, List.append_assoc, List.singleton_append, hopen, hinner]
  simp

-- ======================================================= multiplicities

namespace Gap

/-- A gap has a first blank. -/
theorem exists_cons (gap : Gap) :
    ∃ b g, gap.text = b :: g ∧ isBlank b = true ∧ AllBlank g := by
  obtain ⟨b, g, hgap⟩ := List.exists_cons_of_ne_nil gap.ne_nil
  have hblank := hgap ▸ gap.blank
  exact ⟨b, g, hgap, hblank b (by simp), fun c hc => hblank c (by simp [hc])⟩

/-- A text that is passed over with a blank behind it is so with a gap
behind it. -/
theorem passed_append (gap : Gap) {t : List Char}
    (h : ∀ b, isBlank b = true → Arrow.Passed (t ++ [b])) :
    Arrow.Passed (t ++ gap.text) := by
  obtain ⟨b, g, hgap, hb, hg⟩ := gap.exists_cons
  have hpassed := (h b hb).append (Arrow.passed_blanks hg)
  rwa [List.append_assoc, List.singleton_append, ← hgap] at hpassed

/-- What stands behind a name with a gap starts with a blank. -/
theorem head?_blank (gap : Gap) (s : List Char) :
    ∀ c ∈ (gap.text ++ s).head?, isBlank c = true := by
  obtain ⟨b, g, hgap, hb, -⟩ := gap.exists_cons
  rw [hgap]
  rintro c ⟨⟩
  exact hb

end Gap

namespace CountToken

variable {t : CountToken}

/-- Both sides of a range are made of ASCII digits. -/
theorem Ascii.sides {lower upper : Option Numeral}
    (h : (between lower upper).Ascii) :
    Arrow.AsciiSide lower ∧ Arrow.AsciiSide upper :=
  ⟨fun n hn => h n (List.mem_append_left _ (Option.mem_toList.mpr hn)),
    fun n hn => h n (List.mem_append_right _ (Option.mem_toList.mpr hn))⟩

/-- The characters of a bare multiplicity. -/
theorem Ascii.mem_text (h : t.Ascii) :
    ∀ c ∈ t.text, c.isDigit = true ∨ c = '.' ∨ c = '*' := by
  have hside : ∀ side, Arrow.AsciiSide side →
      ∀ c ∈ sideText side, c.isDigit = true ∨ c = '.' ∨ c = '*' := by
    intro side hside c hc
    cases side with
    | none => exact Or.inr (Or.inr (List.mem_singleton.mp hc))
    | some n => exact Or.inl (hside n rfl c hc)
  intro c hc
  cases t with
  | star => exact Or.inr (Or.inr (List.mem_singleton.mp hc))
  | exactly n => exact Or.inl (h n (List.mem_singleton.mpr rfl) c hc)
  | between lower upper =>
      obtain ⟨hlower, hupper⟩ := h.sides
      rcases List.mem_append.mp hc with hc | hc
      · exact hside lower hlower c hc
      · rcases List.mem_cons.mp hc with rfl | hc
        · exact Or.inr (Or.inl rfl)
        · rcases List.mem_cons.mp hc with rfl | hc
          · exact Or.inr (Or.inl rfl)
          · exact hside upper hupper c hc

/-- A bare multiplicity holds no blank. -/
theorem Ascii.ink (h : t.Ascii) : AllInk t.text := by
  intro c hc
  rcases h.mem_text c hc with hdigit | rfl | rfl
  · exact isBlank_of_isWord (isWord_of_isDigit hdigit)
  · decide
  · decide

/-- A character that is none of a multiplicity is not in one. -/
theorem Ascii.not_mem (h : t.Ascii) {d : Char} (hd : d.isDigit = false)
    (hdot : d ≠ '.') (hstar : d ≠ '*') : d ∉ t.text := by
  intro hmem
  rcases h.mem_text d hmem with hdigit | rfl | rfl
  · rw [hd] at hdigit
    cases hdigit
  · exact hdot rfl
  · exact hstar rfl

/-- A bare multiplicity is taken for one. -/
theorem Ascii.tokenCardinality? (h : t.Ascii) (hcounted : t ≠ .between none none) :
    tokenCardinality? t.text = some t.text := by
  have hunquote : unquote? t.text = none := by
    unfold unquote?
    split
    next rest heq =>
      have hquote := h.not_mem (d := '"') (by decide) (by decide) (by decide)
      rw [heq] at hquote
      exact absurd (List.mem_cons_self ..) hquote
    next => rfl
  have hclass : ∀ c ∈ t.text, (c.isDigit || c = '.' || c = '*') = true := by
    intro c hc
    have hmem := h.mem_text c hc
    simpa [or_assoc] using hmem
  have hnumeral : t.text = ['*'] ∨ ∃ n, n ∈ t.numerals := by
    cases t with
    | star => exact Or.inl rfl
    | exactly n => exact Or.inr ⟨n, List.mem_singleton.mpr rfl⟩
    | between lower upper =>
        refine Or.inr ?_
        cases lower with
        | some n => exact ⟨n, List.mem_cons_self ..⟩
        | none =>
            cases upper with
            | some n => exact ⟨n, List.mem_cons_self ..⟩
            | none => exact absurd rfl hcounted
  unfold ApiScaffold.tokenCardinality?
  rw [hunquote]
  simp only
  refine if_pos (hnumeral.imp_right ?_)
  rintro ⟨n, hn⟩
  obtain ⟨d, ds, hds, -⟩ := n.exists_cons
  have hd : d ∈ n.digits := by simp [hds]
  unfold isNumericToken
  rw [Bool.and_eq_true, List.all_eq_true, List.any_eq_true]
  exact ⟨hclass, d, (digits_within hn).subset hd, h n hn d hd⟩

end CountToken

/-- What is between quotes is a multiplicity. -/
theorem tokenCardinality?_quoted (q : List Char) :
    tokenCardinality? ('"' :: (q ++ ['"'])) = some (trim q) := by
  have hunquote : unquote? ('"' :: (q ++ ['"'])) = some q := by
    unfold unquote?
    simp
  unfold tokenCardinality?
  rw [hunquote]

namespace CountSpelling

variable (count : CountSpelling)

/-- A multiplicity is taken for one, without the blanks around it. -/
theorem tokenCardinality?_text :
    tokenCardinality? count.text = some (trim count.token) := by
  cases count with
  | quoted q unquoted => exact tokenCardinality?_quoted q
  | bare t ascii counted =>
      exact (ascii.tokenCardinality? counted).trans
        (congrArg some (trim_of_ink ascii.ink).symm)

/-- A multiplicity in front is a token. -/
theorem endTokens_append {rest : List Char}
    (hrest : ∀ c ∈ rest.head?, isBlank c = true) :
    endTokens (count.text ++ rest) = count.text :: endTokens rest := by
  cases count with
  | quoted q unquoted => exact endTokens_quoted_append unquoted rest
  | bare t ascii counted =>
      exact endTokens_ink_append t.text_ne_nil ascii.ink
        (ascii.not_mem (by decide) (by decide) (by decide)) hrest

/-- No label starts in a multiplicity. -/
theorem unlabelled : Unlabelled count.text := by
  cases count with
  | quoted q unquoted => exact unlabelled_quoted unquoted
  | bare t ascii counted =>
      exact unlabelled_plain (ascii.not_mem (by decide) (by decide) (by decide))
        (ascii.not_mem (by decide) (by decide) (by decide))

/-- No arrow starts in a multiplicity that a blank follows. -/
theorem passed {b : Char} (hb : isBlank b = true) :
    Arrow.Passed (count.text ++ [b]) := by
  cases count with
  | quoted q unquoted =>
      have hpassed := Arrow.passed_quoted unquoted hb
      simpa [text] using hpassed
  | bare t ascii counted =>
      cases t with
      | star =>
          have hside : Arrow.AsciiSide none := fun n hn => by cases hn
          exact Arrow.passed_side hside hb
      | exactly n =>
          have hside : Arrow.AsciiSide (some n) := by
            rintro m ⟨⟩
            exact ascii n (List.mem_singleton.mpr rfl)
          exact Arrow.passed_side hside hb
      | between lower upper =>
          obtain ⟨hlower, hupper⟩ := ascii.sides
          have hpassed := Arrow.passed_range hlower hupper hb
          simpa [text, CountToken.text] using hpassed

/-- A multiplicity is written with some character. -/
theorem text_ne_nil : count.text ≠ [] := by
  cases count with
  | quoted q unquoted => exact List.cons_ne_nil _ _
  | bare t ascii counted => exact t.text_ne_nil

/-- A multiplicity starts and ends in ink, and no comment starts with it. -/
theorem ends : (∃ c r, count.text = c :: r ∧ isBlank c = false ∧ c ≠ '\'')
    ∧ InkEnd count.text := by
  cases count with
  | quoted q unquoted =>
      refine ⟨⟨'"', q ++ ['"'], rfl, by decide, by decide⟩, ?_⟩
      have hquote : InkEnd ['"'] := inkEnd_of_ink (by decide)
      exact hquote.append_left (by simp) ('"' :: q)
  | bare t ascii counted =>
      refine ⟨?_, inkEnd_of_ink ascii.ink⟩
      obtain ⟨c, r, hcons⟩ := List.exists_cons_of_ne_nil t.text_ne_nil
      have hmem : c ∈ t.text := by simp [hcons]
      refine ⟨c, r, hcons, ascii.ink c hmem, ?_⟩
      rintro rfl
      exact ascii.not_mem (by decide) (by decide) (by decide) hmem

end CountSpelling

end ApiScaffold
