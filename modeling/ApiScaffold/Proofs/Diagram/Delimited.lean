/-
The walk over a text delimits it. What a walk knows of the text that it has
read are a few flags and the text since a brace; that is put beside the
places of the text. `Delimiting` says of a walk at any point which regions
lie behind it, and where it stands in the region that it has come to: before
its opening brace, or in its body, with the braces that may still close it.

The flags agree with the places for a reason each. The open quote of a walk
is the parity of the quotes on the line so far (`OnLine`). A modifier that is
being passed ends at a closing brace that is not to be counted, and all
earlier ones are passed (`OpenSince`). Text that is read without being looked
at, as a comment line is, holds no brace that counts (`Quiet`). Each step of
a walk keeps all this, a closing brace adds a region, and at the end of the
text the regions are all there are (`blocks_delimited`).
-/
import ApiScaffold.Proofs.Diagram.Region

namespace ApiScaffold

-- =============================================================== places

/-- What a walk has read and what it has before it, but for the line break
that is read behind the last line. -/
theorem exists_text_eq {text seen s more : List Char}
    (h : text ++ ['\n'] = seen ++ (s ++ '\n' :: more)) :
    ∃ t, text = seen ++ (s ++ t) ∧ (t = [] ∨ ∃ r, t = '\n' :: r) := by
  rcases List.eq_nil_or_concat more with rfl | ⟨r, d, rfl⟩
  · rw [← List.append_assoc] at h
    refine ⟨[], ?_, Or.inl rfl⟩
    rw [List.append_nil]
    exact (List.append_inj' h rfl).1
  · have hsplit : seen ++ (s ++ '\n' :: r.concat d)
        = (seen ++ (s ++ '\n' :: r)) ++ [d] := by simp
    rw [hsplit] at h
    exact ⟨'\n' :: r, (List.append_inj' h rfl).1, Or.inr ⟨r, rfl⟩⟩

/-- Whether a line is a comment is settled by its first ink. -/
theorem isComment_append_ink {c : Char} (hc : isBlank c = false)
    (l r r' : List Char) : isComment (l ++ c :: r) = isComment (l ++ c :: r') := by
  unfold isComment
  rw [trimStart_append, trimStart_append, trimStart_cons_of_ink hc,
    trimStart_cons_of_ink hc]
  split
  next => rfl
  next hne =>
    obtain ⟨d, t, hd⟩ := List.exists_cons_of_ne_nil hne
    rw [hd]
    rfl

variable {text seen s : List Char} {c d : Char}

/-- The character that a walk has come to. -/
theorem getElem?_of_text (htext : text = seen ++ c :: s) :
    text[seen.length]? = some c := by
  rw [htext, List.getElem?_append_right (Nat.le_refl _), Nat.sub_self]
  rfl

/-- The text seen is the start of the text. -/
theorem take_of_text (htext : text = seen ++ s) : text.take seen.length = seen := by
  rw [htext, List.take_left]

/-- One character is read at one place. -/
theorem eq_length_of_lt {i : Nat} (hlow : seen.length ≤ i)
    (hhigh : i < (seen ++ [c]).length) : i = seen.length := by
  rw [List.length_append, List.length_singleton] at hhigh
  omega

/-- What is active at the end of the text seen is the next character. -/
theorem ActiveAt.eq (h : ActiveAt text seen.length d)
    (htext : text = seen ++ c :: s) : d = c := by
  have hchar := h.char
  rw [getElem?_of_text htext] at hchar
  exact (Option.some.inj hchar).symm

/-- No quote is open on the line of an active character. -/
theorem ActiveAt.even (h : ActiveAt text seen.length d)
    (htext : text = seen ++ s) : Even ((lastPart seen).count '"') := by
  have hquotes := h.unquoted
  rwa [take_of_text htext] at hquotes

/-- A brace that a walk looks at counts. -/
theorem activeAt_of_brace (htext : text = seen ++ c :: s)
    (hc : Header.isBrace c = true) {r : List Char}
    (hline : isComment (lastPart seen ++ c :: r) = false)
    (heven : Even ((lastPart seen).count '"')) : ActiveAt text seen.length c := by
  have hink : isBlank c = false := by
    rcases eq_of_isBrace hc with rfl | rfl <;> decide
  have hbreak : c ≠ '\n' := by
    rcases eq_of_isBrace hc with rfl | rfl <;> decide
  have htake := take_of_text htext
  refine ⟨getElem?_of_text htext, ?_, htake.symm ▸ heven⟩
  unfold lineAt
  rw [htake, htext, List.drop_left,
    List.takeWhile_cons_of_pos (by simpa using hbreak),
    isComment_append_ink hink _ _ r]
  exact hline

/-- No brace counts from one place up to another. -/
def Quiet (text : List Char) (n n' : Nat) : Prop :=
  ∀ i c, n ≤ i → i < n' → Header.isBrace c = true → ¬ ActiveAt text i c

/-- A quote, a quoted character and one that is no brace are passed quietly. -/
theorem quiet_step (htext : text = seen ++ c :: s)
    (h : c = '"' ∨ ¬ Even ((lastPart seen).count '"') ∨ Header.isBrace c = false) :
    Quiet text seen.length (seen ++ [c]).length := by
  intro i d hle hlt hd hactive
  obtain rfl := eq_length_of_lt hle hlt
  obtain rfl := hactive.eq htext
  rcases h with rfl | hodd | hplain
  · exact absurd hd (by decide)
  · exact hodd (hactive.even htext)
  · rw [hplain] at hd
    cases hd

/-- No brace counts on a comment line. -/
theorem quiet_comment {line : List Char} (htext : text = seen ++ (line ++ s))
    (hseen : lastPart seen = []) (hline : '\n' ∉ line)
    (hend : s = [] ∨ ∃ r, s = '\n' :: r) (hcomment : isComment line = true) :
    Quiet text seen.length (seen ++ (line ++ ['\n'])).length := by
  intro i d hle hlt hd hactive
  obtain ⟨k, rfl⟩ := Nat.exists_eq_add_of_le hle
  rw [List.length_append, List.length_append, List.length_singleton] at hlt
  by_cases hk : k < line.length
  · have htake : text.take (seen.length + k) = seen ++ line.take k := by
      rw [htext, List.take_length_add_append,
        List.take_append_of_le_length (by omega)]
    have hdrop : text.drop (seen.length + k) = line.drop k ++ s := by
      rw [htext, List.drop_length_add_append,
        List.drop_append_of_le_length (by omega)]
    have hbefore : '\n' ∉ line.take k :=
      fun hmem => hline (List.mem_of_mem_take hmem)
    have hbehind : ∀ c ∈ line.drop k, decide (c ≠ '\n') = true := by
      intro c hc
      refine decide_eq_true fun heq => hline ?_
      exact heq ▸ List.mem_of_mem_drop hc
    have hstop : ∀ c ∈ s.head?, decide (c ≠ '\n') = false := by
      rcases hend with rfl | ⟨r, rfl⟩
      · simp
      · rintro c ⟨⟩
        decide
    have hat : lineAt text (seen.length + k) = line := by
      unfold lineAt
      rw [htake, hdrop, lastPart_append_of_not_mem hbefore, hseen, List.nil_append,
        (run_append hbehind hstop).1, List.take_append_drop]
    have hread := hactive.uncommented
    rw [hat, hcomment] at hread
    cases hread
  · obtain rfl : k = line.length := by omega
    have hchar := hactive.char
    rw [htext, ← List.append_assoc, ← List.length_append,
      List.getElem?_append_right (Nat.le_refl _), Nat.sub_self] at hchar
    rcases hend with rfl | ⟨r, rfl⟩
    · cases hchar
    · injection hchar with hchar
      rw [← hchar] at hd
      exact absurd hd (by decide)

-- ============================================================ modifiers

/-- A modifier spans an opening brace and as much as its reader takes. -/
theorem modifierSpan_iff {p q : Nat} : ModifierSpan text p q
    ↔ ∃ width, text[p]? = some '\x7b'
      ∧ modifierWidth? (text.drop (p + 1)) = some width ∧ q = p + width := by
  constructor
  · rintro ⟨word, rest, hne, hword, hdrop, rfl⟩
    refine ⟨word.length + 1, ?_, ?_, rfl⟩
    · rw [← List.head?_drop, hdrop]
      rfl
    · rw [← List.tail_drop, hdrop]
      exact modifierWidth?_eq_some.mpr ⟨word, rest, hne, hword, rfl, rfl⟩
  · rintro ⟨width, hopen, hwidth, rfl⟩
    obtain ⟨word, rest, hne, hword, hrest, rfl⟩ := modifierWidth?_eq_some.mp hwidth
    refine ⟨word, rest, hne, hword, ?_, rfl⟩
    rw [List.drop_eq_getElem?_toList_append, hopen, hrest]
    rfl

/-- A modifier has one end. -/
theorem ModifierSpan.unique {p q q' : Nat} (h : ModifierSpan text p q)
    (h' : ModifierSpan text p q') : q = q' := by
  obtain ⟨width, -, hwidth, rfl⟩ := modifierSpan_iff.mp h
  obtain ⟨width', -, hwidth', rfl⟩ := modifierSpan_iff.mp h'
  rw [hwidth] at hwidth'
  injection hwidth' with hwidth'
  rw [hwidth']

/-- A modifier has some width. -/
theorem ModifierSpan.lt {p q : Nat} (h : ModifierSpan text p q) : p < q := by
  obtain ⟨word, rest, -, -, -, rfl⟩ := h
  omega

/-- Behind its opening brace a modifier holds identifier characters up to
its closing brace. -/
theorem ModifierSpan.char {p q i : Nat} (h : ModifierSpan text p q) (hp : p < i)
    (hq : i ≤ q) : ∃ c, text[i]? = some c
      ∧ (isWord c = true ∧ i < q ∨ c = '\x7d' ∧ i = q) := by
  obtain ⟨word, rest, -, hword, hdrop, rfl⟩ := h
  obtain ⟨k, rfl⟩ := Nat.exists_eq_add_of_lt hp
  have hchar : text[p + k + 1]? = (word ++ '\x7d' :: rest)[k]? := by
    rw [Nat.add_assoc, ← List.getElem?_drop, hdrop, List.getElem?_cons_succ]
  rw [hchar]
  by_cases hk : k < word.length
  · refine ⟨word[k], ?_, Or.inl ⟨hword _ (List.getElem_mem hk), by omega⟩⟩
    rw [List.getElem?_append_left hk, List.getElem?_eq_getElem hk]
  · obtain rfl : k = word.length := by omega
    refine ⟨'\x7d', ?_, Or.inr ⟨rfl, rfl⟩⟩
    rw [List.getElem?_append_right (Nat.le_refl _), Nat.sub_self]
    rfl

/-- At an opening brace that a walk has come to, a modifier starts exactly if
it starts in the rest of the line. -/
theorem modifierSpan_step {cs t : List Char} {q : Nat}
    (htext : text = seen ++ ('\x7b' :: cs ++ t))
    (ht : t = [] ∨ ∃ r, t = '\n' :: r) :
    ModifierSpan text seen.length q
      ↔ ∃ width, modifierWidth? cs = some width ∧ q = seen.length + width := by
  have hopen : text[seen.length]? = some '\x7b' := getElem?_of_text htext
  have hdrop : text.drop (seen.length + 1) = cs ++ t := by
    rw [← List.tail_drop, htext, List.drop_left]
    rfl
  have hwidth : modifierWidth? (cs ++ t) = modifierWidth? cs := by
    rcases ht with rfl | ⟨r, rfl⟩
    · rw [List.append_nil]
    · exact modifierWidth?_append_break cs r
  rw [modifierSpan_iff, hdrop, hwidth]
  simp [hopen]

-- ========================================================= open regions

/-- Nothing that a walk has read closes the region behind an opening brace,
and the modifiers that start in it are read or being passed. -/
structure OpenSince (text : List Char) (o n skip : Nat) : Prop where
  below : o < n
  passed : ∀ p q, o < p → p < n → ActiveAt text p '\x7b' → ModifierSpan text p q →
    q < n + skip
  passing : 0 < skip → ∃ p, o < p ∧ p < n ∧ ActiveAt text p '\x7b'
    ∧ ModifierSpan text p (n + skip - 1)
  unclosed : ∀ c, c < n → ¬ Closes text o c

namespace OpenSince

variable {o n n' skip width : Nat}

/-- A region is open behind its opening brace. -/
theorem opened (text : List Char) (o : Nat) : OpenSince text o (o + 1) 0 where
  below := Nat.lt_succ_self o
  passed p q hp hn := by omega
  passing hskip := absurd hskip (Nat.lt_irrefl 0)
  unclosed c hc hcloses := by
    have hbehind := hcloses.1
    omega

/-- A region stays open over text that is passed quietly. -/
theorem quiet (h : OpenSince text o n 0) (hle : n ≤ n') (hquiet : Quiet text n n') :
    OpenSince text o n' 0 where
  below := Nat.lt_of_lt_of_le h.below hle
  passed p q hp hn hactive hspan := by
    by_cases hpn : p < n
    · exact Nat.lt_of_lt_of_le (h.passed p q hp hpn hactive hspan) hle
    · exact absurd hactive (hquiet p _ (Nat.le_of_not_lt hpn) hn (by decide))
  passing hskip := absurd hskip (Nat.lt_irrefl 0)
  unclosed c hc hcloses := by
    by_cases hcn : c < n
    · exact h.unclosed c hcn hcloses
    · exact hquiet c _ (Nat.le_of_not_lt hcn) hc (by decide) hcloses.2.1

/-- The character that is passed is in the modifier. -/
theorem char (h : OpenSince text o n (skip + 1)) : ∃ c, text[n]? = some c
    ∧ (isWord c = true ∨ c = '\x7d') := by
  obtain ⟨p, -, hpn, -, hspan⟩ := h.passing (Nat.succ_pos skip)
  obtain ⟨c, hchar, hc⟩ := hspan.char hpn (by omega)
  exact ⟨c, hchar, hc.imp And.left And.left⟩

/-- A character of a modifier is passed. -/
theorem pass (h : OpenSince text o n (skip + 1)) :
    OpenSince text o (n + 1) skip where
  below := Nat.lt_succ_of_lt h.below
  passed p q hp hn hactive hspan := by
    by_cases hpn : p < n
    · have hq := h.passed p q hp hpn hactive hspan
      omega
    · obtain rfl : p = n := by omega
      obtain ⟨c, hchar, hc⟩ := h.char
      rw [hactive.char] at hchar
      injection hchar with hchar
      rw [← hchar] at hc
      exact absurd hc (by decide)
  passing _ := by
    obtain ⟨p, hp, hpn, hactive, hspan⟩ := h.passing (Nat.succ_pos skip)
    refine ⟨p, hp, Nat.lt_succ_of_lt hpn, hactive, ?_⟩
    rwa [Nat.add_right_comm]
  unclosed c hc hcloses := by
    by_cases hcn : c < n
    · exact h.unclosed c hcn hcloses
    · obtain rfl : c = n := by omega
      obtain ⟨p, hp, hpn, hactive, hspan⟩ := h.passing (Nat.succ_pos skip)
      obtain ⟨d, hchar, hd⟩ := hspan.char hpn (by omega)
      rw [hcloses.2.1.char] at hchar
      injection hchar with hchar
      rcases hd with ⟨hword, -⟩ | ⟨-, hend⟩
      · rw [← hchar] at hword
        exact absurd hword (by decide)
      · -- the closing brace is that of the modifier
        exact hcloses.2.2 p hp hactive (hend ▸ hspan)

/-- A brace that closes no region is read; a modifier that starts with it is
still to be passed. -/
theorem brace (h : OpenSince text o n 0) (hopen : text[n]? = some '\x7b')
    (hspan : ∀ q, ModifierSpan text n q → q = n + width)
    (hwidth : 0 < width →
      ActiveAt text n '\x7b' ∧ ModifierSpan text n (n + width)) :
    OpenSince text o (n + 1) width where
  below := Nat.lt_succ_of_lt h.below
  passed p q hp hn hactive hq := by
    by_cases hpn : p < n
    · have hlt := h.passed p q hp hpn hactive hq
      omega
    · obtain rfl : p = n := by omega
      have hend := hspan q hq
      omega
  passing hskip := by
    obtain ⟨hactive, hmodifier⟩ := hwidth hskip
    refine ⟨n, h.below, Nat.lt_succ_self n, hactive, ?_⟩
    rwa [Nat.add_right_comm, Nat.add_sub_cancel]
  unclosed c hc hcloses := by
    by_cases hcn : c < n
    · exact h.unclosed c hcn hcloses
    · obtain rfl : c = n := by omega
      have hchar := hcloses.2.1.char
      rw [hopen] at hchar
      exact absurd hchar (by decide)

/-- A closing brace that counts closes the region. -/
theorem closes (h : OpenSince text o n 0) (hactive : ActiveAt text n '\x7d') :
    FirstPlace (Closes text o) n := by
  refine ⟨⟨h.below, hactive, fun p hp hopen hspan => ?_⟩, fun c hc => ?_⟩
  · exact Nat.lt_irrefl n (h.passed p n hp hspan.lt hopen hspan)
  · exact Nat.le_of_not_lt fun hlt => h.unclosed c hlt hc

end OpenSince

-- =========================================================== the state

/-- More of a region is known. -/
theorem Headed.extend {past start n n' own : Nat} {header : Option Header}
    (h : Headed text past start n own header) (hle : n ≤ n')
    (hno : header = none → ∀ p, n ≤ p → p < n' → ¬ Restarts text start p) :
    Headed text past start n' own header := by
  cases h with
  | own hbefore => exact .own hbefore
  | restarted hnone hp hfirst hown =>
      exact .restarted hnone (Nat.lt_of_lt_of_le hp hle) hfirst hown
  | unheaded hnone hbefore =>
      refine .unheaded hnone fun p hp => ?_
      by_cases hpn : p < n
      · exact hbefore p hpn
      · exact hno rfl p (Nat.le_of_not_lt hpn) hp

/-- A walk stands in the body of a region. -/
structure InRegion (text : List Char) (past : Nat) (seen : List Char) (skip : Nat)
    (header : Option Header) (content : List Char) (start own : Nat) : Prop where
  opens : FirstPlace (OpensFrom text past) start
  headed : Headed text past start seen.length own header
  since_start : OpenSince text start seen.length skip
  since_own : OpenSince text own seen.length skip
  content_eq : content.reverse = seen.drop (own + 1)

/-- Where a walk stands behind the last region that it has passed: before the
next one, or in it. -/
def StandsAt (text : List Char) (past : Nat) (seen : List Char) (skip : Nat) :
    Zone → Prop
  | .outside _ => skip = 0
      ∧ ∀ o, past ≤ o → o < seen.length → ¬ ActiveAt text o '\x7b'
  | .inside header content =>
      ∃ start own, InRegion text past seen skip header content start own

/-- What a walk has delimited when it has read a part of a text. -/
structure Delimiting (text seen : List Char) (w : Course) : Prop where
  traced : Traced seen w
  increasing : w.past.Pairwise (·.1 < ·.1)
  active : ∀ m ∈ w.past, ∃ c, Header.isBrace c = true ∧ ActiveAt text m.1 c
  regions : ∃ rs, (∀ rest, Delimited text (afterClosing w.past) rest →
      Delimited text 0 (rs ++ rest))
    ∧ blocksAmong w.past = rs.filterMap (·.block? text)
  stands : StandsAt text (afterClosing w.past) seen w.skip w.zone

/-- What a walk knows of the line that it stands on, which goes on with
`cs`. -/
structure OnLine (seen : List Char) (w : Course) (cs : List Char) : Prop where
  uncommented : isComment (lastPart seen ++ cs) = false
  quoted : w.quoted = decide (¬ Even ((lastPart seen).count '"'))
  skip_le : w.skip ≤ cs.length

namespace StandsAt

variable {past skip skip' : Nat} {zone zone' : Zone} {u : List Char}

/-- Text is read that opens, restarts and closes nothing. -/
theorem extend (h : StandsAt text past seen skip zone)
    (houtside : ∀ p, zone = .outside p → (∃ p', zone' = .outside p') ∧ skip' = 0
      ∧ ∀ o, seen.length ≤ o → o < (seen ++ u).length → ¬ ActiveAt text o '\x7b')
    (hinside : ∀ header content, zone = .inside header content →
      zone' = .inside header (u.reverse ++ content))
    (hsince : zone.isOutside = false → ∀ o, OpenSince text o seen.length skip →
      OpenSince text o (seen ++ u).length skip')
    (hrestart : ∀ content start, zone = .inside none content →
      content.reverse = seen.drop (start + 1) →
      ∀ p, seen.length ≤ p → p < (seen ++ u).length → ¬ Restarts text start p) :
    StandsAt text past (seen ++ u) skip' zone' := by
  have hle : seen.length ≤ (seen ++ u).length := by
    rw [List.length_append]
    exact Nat.le_add_right _ _
  cases zone with
  | outside p =>
      obtain ⟨⟨p', rfl⟩, hskip, hno⟩ := houtside p rfl
      refine ⟨hskip, fun o hpast ho => ?_⟩
      by_cases hon : o < seen.length
      · exact h.2 o hpast hon
      · exact hno o (Nat.le_of_not_lt hon) ho
  | inside header content =>
      rw [hinside header content rfl]
      obtain ⟨start, own, hin⟩ := h
      refine ⟨start, own, hin.opens, hin.headed.extend hle fun hnone => ?_,
        hsince rfl _ hin.since_start, hsince rfl _ hin.since_own, ?_⟩
      · subst hnone
        have hown : own = start := by
          cases hin.headed
          rfl
        exact hrestart content start rfl (hown ▸ hin.content_eq)
      · rw [List.reverse_append, List.reverse_reverse, hin.content_eq,
          List.drop_append_of_le_length hin.since_own.below]

/-- Text without a brace that counts is read. -/
theorem quiet (h : StandsAt text past seen 0 zone)
    (hquiet : Quiet text seen.length (seen ++ u).length)
    (houtside : ∀ p, zone = .outside p → ∃ p', zone' = .outside p')
    (hinside : ∀ header content, zone = .inside header content →
      zone' = .inside header (u.reverse ++ content)) :
    StandsAt text past (seen ++ u) 0 zone' := by
  have hle : seen.length ≤ (seen ++ u).length := by
    rw [List.length_append]
    exact Nat.le_add_right _ _
  refine h.extend (fun p hp => ⟨houtside p hp, rfl, fun o hlow hhigh => ?_⟩) hinside
    (fun _ o ho => ho.quiet hle hquiet) fun content start _ _ p hlow hhigh hp => ?_
  · exact hquiet o _ hlow hhigh (by decide)
  · exact hquiet p _ hlow hhigh (by decide) hp.2.1

end StandsAt

-- ================================================================ steps

/-- What a walk does with a character: it passes one of a modifier, reads one
that it does not look at, starts to pass a modifier, or meets a brace. -/
theorem scanStep_cases (quoted : Bool) (skip : Nat) (outside : Bool) (c : Char)
    (cs : List Char) :
    (∃ k, skip = k + 1 ∧ scanStep quoted skip outside c cs = some (quoted, k))
      ∨ skip = 0 ∧ (c = '"' ∨ quoted = true ∨ Header.isBrace c = false)
        ∧ scanStep quoted skip outside c cs = some (quoted != (c == '"'), 0)
      ∨ skip = 0 ∧ quoted = false ∧ outside = false ∧ c = '\x7b'
        ∧ (∃ width, modifierWidth? cs = some width
          ∧ scanStep quoted skip outside c cs = some (false, width))
      ∨ skip = 0 ∧ quoted = false ∧ Header.isBrace c = true
        ∧ (outside = false → c = '\x7b' → modifierWidth? cs = none)
        ∧ scanStep quoted skip outside c cs = none := by
  cases skip with
  | succ k => exact Or.inl ⟨k, rfl, rfl⟩
  | zero =>
      refine Or.inr ?_
      unfold scanStep
      simp only [true_and]
      by_cases hquote : c = '"'
      · exact Or.inl ⟨Or.inl hquote, by simp [hquote]⟩
      have hbeq : (c == '"') = false := beq_eq_false_iff_ne.mpr hquote
      simp only [if_neg hquote, hbeq, Bool.bne_false]
      cases hplain : quoted || !Header.isBrace c with
      | true =>
          refine Or.inl ⟨Or.inr ?_, rfl⟩
          simpa using hplain
      | false =>
          simp only [Bool.or_eq_false_iff, Bool.not_eq_false'] at hplain
          obtain ⟨rfl, hbrace⟩ := hplain
          refine Or.inr ?_
          cases outside with
          | true => exact Or.inr ⟨rfl, hbrace, (fun h => by cases h), by simp⟩
          | false =>
              by_cases hopen : c = '\x7b'
              · cases hwidth : modifierWidth? cs with
                | some width =>
                    exact Or.inl ⟨rfl, rfl, hopen, width, rfl, by simp [hopen]⟩
                | none =>
                    exact Or.inr ⟨rfl, hbrace, fun _ _ => rfl, by simp [hopen]⟩
              · have hmodifier : c = '\x7b' → modifierWidth? cs = none :=
                  fun h => absurd h hopen
                exact Or.inr ⟨rfl, hbrace, fun _ => hmodifier, by simp [hopen]⟩

/-- One more character of a line keeps what is known of the walk on it. -/
theorem OnLine.next {w w' : Course} {cs : List Char} (h : OnLine seen w (c :: cs))
    (hc : c ≠ '\n') (hquoted : w'.quoted = (w.quoted != (c == '"')))
    (hskip : w'.skip ≤ cs.length) : OnLine (seen ++ [c]) w' cs := by
  have hlast : lastPart (seen ++ [c]) = lastPart seen ++ [c] :=
    lastPart_append_of_not_mem (by simpa using hc.symm) seen
  refine ⟨?_, ?_, hskip⟩
  · rw [hlast, List.append_assoc]
    exact h.uncommented
  · rw [hquoted, h.quoted, hlast, decide_odd_count_concat]

namespace Delimiting

variable {w : Course} {cs t : List Char}

/-- The last region that was closed ends within the text seen. -/
theorem past_le (hw : Delimiting text seen w) : afterClosing w.past ≤ seen.length :=
  afterClosing_le hw.traced.bound

/-- A step without a mark keeps the regions. -/
theorem read (hw : Delimiting text seen w) {u : List Char} {w' : Course}
    (htraced : Traced (seen ++ u) w') (hpast : w'.past = w.past)
    (hstands : StandsAt text (afterClosing w.past) (seen ++ u) w'.skip w'.zone) :
    Delimiting text (seen ++ u) w' where
  traced := htraced
  increasing := hpast ▸ hw.increasing
  active := hpast ▸ hw.active
  regions := hpast ▸ hw.regions
  stands := hpast ▸ hstands

/-- A brace with a mark. -/
theorem mark (hw : Delimiting text seen w) {m : Mark} {zone : Zone}
    (hc : Header.isBrace c = true) (hactive : ActiveAt text seen.length c)
    (htraced : Traced (seen ++ [c])
      ⟨false, 0, zone, w.past ++ [(seen.length, m)]⟩)
    (hregions : ∃ rs, (∀ rest,
        Delimited text (afterClosing (w.past ++ [(seen.length, m)])) rest →
          Delimited text (afterClosing w.past) (rs ++ rest))
      ∧ m.block?.toList = rs.filterMap (·.block? text))
    (hstands : StandsAt text (afterClosing (w.past ++ [(seen.length, m)]))
      (seen ++ [c]) 0 zone) :
    Delimiting text (seen ++ [c])
      ⟨false, 0, zone, w.past ++ [(seen.length, m)]⟩ where
  traced := htraced
  increasing := by
    refine List.pairwise_append.mpr ⟨hw.increasing, by simp, fun m' hm' n hn => ?_⟩
    rw [List.mem_singleton.mp hn]
    exact hw.traced.bound m' hm'
  active m' hm' := by
    rcases List.mem_append.mp hm' with hm' | hm'
    · exact hw.active m' hm'
    · rw [List.mem_singleton.mp hm']
      exact ⟨c, hc, hactive⟩
  regions := by
    obtain ⟨rs, hdelimited, hblocks⟩ := hw.regions
    obtain ⟨rs', hdelimited', hblocks'⟩ := hregions
    refine ⟨rs ++ rs', fun rest hrest => ?_, ?_⟩
    · rw [List.append_assoc]
      exact hdelimited _ (hdelimited' rest hrest)
    · have hmark := blocksAmong_mark w.past (some m) seen.length
      rw [List.filterMap_append, ← hblocks, ← hblocks']
      exact hmark
  stands := hstands

/-- A brace with a mark that closes nothing. -/
theorem markOpen (hw : Delimiting text seen w) {m : Mark} {zone : Zone}
    (hm : m.closes = false) (hactive : ActiveAt text seen.length '\x7b')
    (htraced : Traced (seen ++ ['\x7b'])
      ⟨false, 0, zone, w.past ++ [(seen.length, m)]⟩)
    (hstands : StandsAt text (afterClosing w.past) (seen ++ ['\x7b']) 0 zone) :
    Delimiting text (seen ++ ['\x7b'])
      ⟨false, 0, zone, w.past ++ [(seen.length, m)]⟩ := by
  have hclosing : afterClosing (w.past ++ [(seen.length, m)])
      = afterClosing w.past := by
    rw [afterClosing_concat, hm]
    rfl
  have hblock : m.block?.toList = [] := by
    cases m with
    | opened => rfl
    | reopened => rfl
    | closed b => cases hm
    | discarded => cases hm
  refine hw.mark (by decide) hactive htraced ⟨[], fun rest hrest => ?_, hblock⟩ ?_
  · exact hclosing ▸ hrest
  · rw [hclosing]
    exact hstands

/-- An opening brace outside any block opens a region. -/
theorem openRegion {p : List Char} {past : List (Nat × Mark)}
    (hw : Delimiting text seen ⟨false, 0, .outside p, past⟩)
    (htext : text = seen ++ '\x7b' :: s)
    (hactive : ActiveAt text seen.length '\x7b') :
    Delimiting text (seen ++ ['\x7b']) ⟨false, 0,
      .inside (Header.find? p.reverse) [], past ++ [(seen.length, .opened)]⟩ := by
  have htraced := hw.traced.brace '\x7b' (by decide)
  rw [Zone.brace_outside_open] at htraced
  have hbefore : headerBefore? text (afterClosing past) seen.length
      = Header.find? p.reverse := by
    unfold headerBefore?
    rw [take_of_text htext, hw.traced.pending p rfl]
    rfl
  have hlength : (seen ++ ['\x7b']).length = seen.length + 1 := by simp
  have hopened : OpenSince text seen.length (seen ++ ['\x7b']).length 0 := by
    rw [hlength]
    exact .opened text _
  refine hw.markOpen rfl hactive htraced
    ⟨seen.length, seen.length, ?_, ?_, hopened, hopened, ?_⟩
  · refine ⟨⟨hw.past_le, hactive⟩, fun j hj => ?_⟩
    exact Nat.le_of_not_lt fun hlt => hw.stands.2 j hj.1 hlt hj.2
  · cases hfind : Header.find? p.reverse with
    | some h => exact .own (hbefore.trans hfind)
    | none =>
        refine .unheaded (hbefore.trans hfind) fun q hq hrestarts => ?_
        have hbehind := hrestarts.1
        omega
  · rw [← hlength, List.drop_length]
    rfl

/-- A closing brace in the body of a region ends it. -/
theorem closeRegion {header : Option Header} {content : List Char}
    {past : List (Nat × Mark)}
    (hw : Delimiting text seen ⟨false, 0, .inside header content, past⟩)
    (htext : text = seen ++ '\x7d' :: s)
    (hactive : ActiveAt text seen.length '\x7d') :
    Delimiting text (seen ++ ['\x7d']) ⟨false, 0,
      ((Zone.inside header content).brace '\x7d').1,
      past ++ (((Zone.inside header content).brace '\x7d').2.map
        (seen.length, ·)).toList⟩ := by
  obtain ⟨start, own, hin⟩ := hw.stands
  have htraced := hw.traced.brace '\x7d' (by decide)
  let r : Region := ⟨start, own, seen.length, header⟩
  have hr : r.Stands text (afterClosing past) :=
    ⟨hin.opens, hin.since_start.closes hactive, hin.headed,
      hin.headed.active hin.opens.1.2, hin.since_own.closes hactive⟩
  obtain ⟨m, hm, hcloses, hblock⟩ : ∃ m, ((Zone.inside header content).brace '\x7d')
      = (.outside [], some m) ∧ m.closes = true
        ∧ m.block?.toList = [r].filterMap (·.block? text) := by
    cases header with
    | none => exact ⟨.discarded, rfl, rfl, rfl⟩
    | some h =>
        refine ⟨_, Zone.brace_headed_close h content, rfl, ?_⟩
        rw [hin.content_eq, ← take_of_text htext]
        rfl
  rw [hm] at htraced ⊢
  have hclosing : afterClosing (past ++ [(seen.length, m)]) = seen.length + 1 := by
    rw [afterClosing_concat, if_pos hcloses]
  refine hw.mark (by decide) hactive htraced ⟨[r], fun rest hrest => ?_, hblock⟩ ?_
  · rw [hclosing] at hrest
    exact .next hr hrest
  · rw [hclosing]
    refine ⟨rfl, fun o hlow hhigh => ?_⟩
    rw [List.length_append, List.length_singleton] at hhigh
    omega

/-- The header of a line in the body of a region. -/
theorem lineHeader?_eq (htext : text = seen ++ s) {content : List Char} {o : Nat}
    (hcontent : content.reverse = seen.drop (o + 1)) :
    lineHeader? text o seen.length = Header.find? (Zone.lastLine content) := by
  unfold lineHeader?
  rw [take_of_text htext, ← hcontent, lastPart_reverse]

/-- A brace that starts no modifier closes nothing. -/
theorem openSince_concat (hactive : ActiveAt text seen.length '\x7b')
    (hspan : ∀ q, ¬ ModifierSpan text seen.length q) {o : Nat}
    (ho : OpenSince text o seen.length 0) :
    OpenSince text o (seen ++ ['\x7b']).length 0 := by
  rw [List.length_append]
  exact ho.brace hactive.char (fun q hq => absurd hq (hspan q)) (by simp)

/-- An opening brace behind a header starts a block in a region that has
none. -/
theorem restart {content : List Char} {past : List (Nat × Mark)} {h : Header}
    (hw : Delimiting text seen ⟨false, 0, .inside none content, past⟩)
    (htext : text = seen ++ '\x7b' :: s)
    (hactive : ActiveAt text seen.length '\x7b')
    (hspan : ∀ q, ¬ ModifierSpan text seen.length q)
    (hfind : Header.find? (Zone.lastLine content) = some h) :
    Delimiting text (seen ++ ['\x7b'])
      ⟨false, 0, .inside (some h) [], past ++ [(seen.length, .reopened)]⟩ := by
  have htraced := hw.traced.brace '\x7b' (by decide)
  rw [Zone.brace_unheaded_reopen hfind] at htraced
  obtain ⟨start, own, hin⟩ := hw.stands
  obtain ⟨hbefore, hno, rfl⟩ :
      headerBefore? text (afterClosing past) start = none
        ∧ (∀ p, p < seen.length → ¬ Restarts text start p) ∧ own = start := by
    cases hin.headed with
    | unheaded hbefore hno => exact ⟨hbefore, hno, rfl⟩
  have hfound : lineHeader? text own seen.length = some h :=
    (lineHeader?_eq htext hin.content_eq).trans hfind
  have hfirst : FirstPlace (Restarts text own) seen.length := by
    refine ⟨⟨hin.since_start.below, hactive, hspan, ?_⟩, fun j hj => ?_⟩
    · rw [hfound]
      rfl
    · exact Nat.le_of_not_lt fun hlt => hno j hlt hj
  have hlength : (seen ++ ['\x7b']).length = seen.length + 1 := by simp
  refine hw.markOpen rfl hactive htraced ⟨own, seen.length, hin.opens,
    .restarted hbefore (by omega) hfirst hfound,
    openSince_concat hactive hspan hin.since_start, ?_, ?_⟩
  · rw [hlength]
    exact .opened text _
  · rw [← hlength, List.drop_length]
    rfl

/-- An opening brace in the body of a region, where no modifier starts, is
read or starts a block. -/
theorem openInside {header : Option Header} {content : List Char}
    {past : List (Nat × Mark)}
    (hw : Delimiting text seen ⟨false, 0, .inside header content, past⟩)
    (htext : text = seen ++ '\x7b' :: s)
    (hactive : ActiveAt text seen.length '\x7b')
    (hspan : ∀ q, ¬ ModifierSpan text seen.length q) :
    Delimiting text (seen ++ ['\x7b']) ⟨false, 0,
      ((Zone.inside header content).brace '\x7b').1,
      past ++ (((Zone.inside header content).brace '\x7b').2.map
        (seen.length, ·)).toList⟩ := by
  have htraced := hw.traced.brace '\x7b' (by decide)
  -- the brace is read, and starts no block where there is no header yet
  have hread : (header = none → Header.find? (Zone.lastLine content) = none) →
      StandsAt text (afterClosing past) (seen ++ ['\x7b']) 0
        (.inside header ('\x7b' :: content)) := by
    intro hnone
    refine hw.stands.extend (fun p hp => by cases hp) ?_
      (fun _ _ => openSince_concat hactive hspan) ?_
    · rintro header' content' ⟨⟩
      rfl
    · rintro content' start ⟨⟩ hcontent p hlow hhigh ⟨-, -, -, hsome⟩
      obtain rfl := eq_length_of_lt hlow hhigh
      rw [lineHeader?_eq htext hcontent, hnone rfl] at hsome
      cases hsome
  cases header with
  | some h =>
      rw [Zone.brace_headed_open] at htraced ⊢
      simp only [Option.map_none, Option.toList_none, List.append_nil]
        at htraced ⊢
      exact hw.read htraced rfl (hread fun hnone => by cases hnone)
  | none =>
      cases hfind : Header.find? (Zone.lastLine content) with
      | none =>
          rw [Zone.brace_unheaded_open hfind] at htraced ⊢
          simp only [Option.map_none, Option.toList_none, List.append_nil]
            at htraced ⊢
          exact hw.read htraced rfl (hread fun _ => hfind)
      | some h =>
          rw [Zone.brace_unheaded_reopen hfind]
          exact hw.restart htext hactive hspan hfind

/-- A brace that counts and starts no modifier in the body of a region. -/
theorem brace {zone : Zone} {past : List (Nat × Mark)}
    (hw : Delimiting text seen ⟨false, 0, zone, past⟩)
    (htext : text = seen ++ (c :: cs ++ t)) (ht : t = [] ∨ ∃ r, t = '\n' :: r)
    (hc : Header.isBrace c = true) (hactive : ActiveAt text seen.length c)
    (hmodifier : zone.isOutside = false → c = '\x7b' → modifierWidth? cs = none) :
    Delimiting text (seen ++ [c]) ⟨false, 0, (zone.brace c).1,
      past ++ ((zone.brace c).2.map (seen.length, ·)).toList⟩ := by
  cases zone with
  | outside p =>
      rcases eq_of_isBrace hc with rfl | rfl
      · exact hw.openRegion htext hactive
      · -- outside any block a closing brace is read
        have htraced := hw.traced.brace '\x7d' (by decide)
        rw [Zone.brace_outside_close] at htraced ⊢
        simp only [Option.map_none, Option.toList_none, List.append_nil]
          at htraced ⊢
        refine hw.read htraced rfl (hw.stands.extend ?_ (fun _ _ h => by cases h)
          (fun h => by cases h) fun _ _ h => by cases h)
        rintro p' ⟨⟩
        refine ⟨⟨_, rfl⟩, rfl, fun o hlow hhigh hopen => ?_⟩
        obtain rfl := eq_length_of_lt hlow hhigh
        exact absurd (hopen.eq htext) (by decide)
  | inside header content =>
      rcases eq_of_isBrace hc with rfl | rfl
      · refine hw.openInside htext hactive fun q hq => ?_
        obtain ⟨width, hwidth, -⟩ := (modifierSpan_step htext ht).mp hq
        rw [hmodifier rfl rfl] at hwidth
        cases hwidth
      · exact hw.closeRegion htext hactive

/-- A character of a modifier. -/
theorem passModifier {quoted : Bool} {k : Nat} {zone : Zone}
    {past : List (Nat × Mark)}
    (hw : Delimiting text seen ⟨quoted, k + 1, zone, past⟩)
    (htext : text = seen ++ c :: s) (hc : c ≠ '\n') :
    c ≠ '"' ∧ Delimiting text (seen ++ [c]) ⟨quoted, k, zone.push c, past⟩ := by
  cases zone with
  | outside p => exact absurd hw.stands.1 (Nat.succ_ne_zero k)
  | inside header content =>
      obtain ⟨start, own, hin⟩ := hw.stands
      obtain ⟨d, hchar, hd⟩ := hin.since_start.char
      obtain rfl : c = d := by
        rw [getElem?_of_text htext] at hchar
        exact Option.some.inj hchar
      have hother : c ≠ '"' ∧ c ≠ '\x7b' := by
        rcases hd with hd | rfl
        · exact ⟨ne_of_isWord hd (by decide), ne_of_isWord hd (by decide)⟩
        · decide
      have htraced : Traced (seen ++ [c])
          ⟨quoted, k, .inside header (c :: content), past⟩ :=
        hw.traced.push (afterComment_append_of_ne hc seen) quoted k
      refine ⟨hother.1, hw.read htraced rfl ?_⟩
      refine hw.stands.extend (fun p hp => by cases hp) ?_ (fun _ o ho => ?_) ?_
      · rintro header' content' ⟨⟩
        rfl
      · rw [List.length_append]
        exact ho.pass
      · rintro content' start' - - p hlow hhigh ⟨-, hopen, -⟩
        obtain rfl := eq_length_of_lt hlow hhigh
        exact hother.2 (hopen.eq htext).symm

/-- An opening brace in the body of a region that starts a modifier. -/
theorem startModifier {header : Option Header} {content : List Char}
    {past : List (Nat × Mark)} {width : Nat}
    (hw : Delimiting text seen ⟨false, 0, .inside header content, past⟩)
    (htext : text = seen ++ ('\x7b' :: cs ++ t)) (ht : t = [] ∨ ∃ r, t = '\n' :: r)
    (hactive : ActiveAt text seen.length '\x7b')
    (hwidth : modifierWidth? cs = some width) :
    Delimiting text (seen ++ ['\x7b'])
      ⟨false, width, .inside header ('\x7b' :: content), past⟩ := by
  have hspan : ModifierSpan text seen.length (seen.length + width) :=
    (modifierSpan_step htext ht).mpr ⟨width, hwidth, rfl⟩
  have htraced : Traced (seen ++ ['\x7b'])
      ⟨false, width, .inside header ('\x7b' :: content), past⟩ :=
    hw.traced.push (afterComment_append_of_ne (by decide) seen) false width
  refine hw.read htraced rfl (hw.stands.extend (fun p hp => by cases hp) ?_
    (fun _ o ho => ?_) ?_)
  · rintro header' content' ⟨⟩
    rfl
  · rw [List.length_append]
    exact ho.brace hactive.char (fun q hq => hq.unique hspan)
      fun _ => ⟨hactive, hspan⟩
  · rintro content' start' - - p hlow hhigh ⟨-, -, hno, -⟩
    obtain rfl := eq_length_of_lt hlow hhigh
    exact hno _ hspan

/-- Text without a brace that counts. -/
theorem quiet {u : List Char} (hw : Delimiting text seen w) {w' : Course}
    (htraced : Traced (seen ++ u) w') (hpast : w'.past = w.past)
    (hskip : w.skip = 0) (hskip' : w'.skip = 0)
    (hquiet : Quiet text seen.length (seen ++ u).length)
    (houtside : ∀ p, w.zone = .outside p → ∃ p', w'.zone = .outside p')
    (hinside : ∀ header content, w.zone = .inside header content →
      w'.zone = .inside header (u.reverse ++ content)) :
    Delimiting text (seen ++ u) w' := by
  have hstands := hw.stands
  rw [hskip] at hstands
  exact hw.read htraced hpast (hskip' ▸ hstands.quiet hquiet houtside hinside)

/-- A character. -/
theorem step (hw : Delimiting text seen w) (hline : OnLine seen w (c :: cs))
    (htext : text = seen ++ (c :: cs ++ t)) (ht : t = [] ∨ ∃ r, t = '\n' :: r)
    (hc : c ≠ '\n') :
    Delimiting text (seen ++ [c]) (w.step seen.length c cs)
      ∧ OnLine (seen ++ [c]) (w.step seen.length c cs) cs := by
  have htraced := hw.traced.step hc cs
  obtain ⟨quoted, skip, zone, past⟩ := w
  have hquoted : quoted = decide (¬ Even ((lastPart seen).count '"')) :=
    hline.quoted
  have hactive : quoted = false → Header.isBrace c = true →
      ActiveAt text seen.length c := by
    intro hfalse hbrace
    refine activeAt_of_brace htext hbrace hline.uncommented ?_
    simpa [hfalse] using hquoted
  rcases scanStep_cases quoted skip zone.isOutside c cs with
    ⟨k, rfl, hstep⟩ | ⟨rfl, hplain, hstep⟩
      | ⟨rfl, rfl, hinside, rfl, width, hwidth, hstep⟩
      | ⟨rfl, rfl, hbrace, hmodifier, hstep⟩
  · -- within a modifier
    rw [Course.step_of_read hstep]
    obtain ⟨hother, hnext⟩ := hw.passModifier htext hc
    have hskip := hline.skip_le
    refine ⟨hnext, hline.next hc ?_ (Nat.le_of_succ_le_succ hskip)⟩
    show quoted = (quoted != (c == '"'))
    rw [beq_eq_false_iff_ne.mpr hother, Bool.bne_false]
  · -- a character that is not looked at
    rw [Course.step_of_read hstep] at htraced ⊢
    have hquiet : Quiet text seen.length (seen ++ [c]).length := by
      refine quiet_step htext (hplain.imp_right (Or.imp_left fun htrue => ?_))
      simpa [htrue] using hquoted
    refine ⟨hw.quiet htraced rfl rfl rfl hquiet ?_ ?_, ?_⟩
    · rintro p rfl
      exact ⟨_, rfl⟩
    · rintro header content rfl
      rfl
    · exact hline.next hc rfl (Nat.zero_le _)
  · -- the start of a modifier
    rw [Course.step_of_read hstep]
    obtain ⟨header, content, rfl⟩ :
        ∃ header content, zone = .inside header content := by
      cases zone with
      | outside p => cases hinside
      | inside header content => exact ⟨_, _, rfl⟩
    refine ⟨hw.startModifier htext ht (hactive rfl (by decide)) hwidth,
      hline.next hc rfl ?_⟩
    obtain ⟨word, rest, -, -, rfl, rfl⟩ := modifierWidth?_eq_some.mp hwidth
    simp only [List.length_append, List.length_cons]
    omega
  · -- a brace
    rw [Course.step_of_brace hstep]
    refine ⟨hw.brace htext ht hbrace (hactive rfl hbrace) hmodifier,
      hline.next hc ?_ (Nat.zero_le _)⟩
    rcases eq_of_isBrace hbrace with rfl | rfl <;> rfl

/-- The end of a line that is no comment. -/
theorem newLine (hw : Delimiting text seen w) (hskip : w.skip = 0)
    (hread : isComment (lastPart seen) = false)
    (htext : seen ++ ['\n'] <+: text ++ ['\n']) :
    Delimiting text (seen ++ ['\n']) w.newLine := by
  refine hw.quiet (hw.traced.newLine hread) rfl hskip rfl ?_ ?_ ?_
  · intro i d hlow hhigh hd hactive
    obtain rfl := eq_length_of_lt hlow hhigh
    obtain ⟨more, hmore⟩ := htext
    have hbreak : (text ++ ['\n'])[seen.length]? = some '\n' := by
      rw [← hmore]
      simp
    have hlt := (List.getElem?_eq_some_iff.mp hactive.char).1
    rw [List.getElem?_append_left hlt, hactive.char] at hbreak
    injection hbreak with hbreak
    rw [hbreak] at hd
    exact absurd hd (by decide)
  · intro p hp
    exact ⟨'\n' :: p, congrArg (Zone.push '\n') hp⟩
  · intro header content hin
    exact congrArg (Zone.push '\n') hin

/-- A comment line. -/
theorem passComment {line : List Char} (hw : Delimiting text seen w)
    (hskip : w.skip = 0) (hseen : lastPart seen = []) (hline : '\n' ∉ line)
    (hcomment : isComment line = true)
    (htext : seen ++ (line ++ ['\n']) <+: text ++ ['\n']) :
    Delimiting text (seen ++ (line ++ ['\n'])) (w.passComment line).newLine := by
  obtain ⟨more, hmore⟩ := htext
  have hwhole : text ++ ['\n'] = seen ++ (line ++ '\n' :: more) := by
    rw [← hmore]
    simp
  obtain ⟨t, hsplit, ht⟩ := exists_text_eq hwhole
  refine hw.quiet (hw.traced.passComment hseen hline hcomment) rfl hskip rfl
    (quiet_comment hsplit hseen hline ht hcomment) ?_ ?_
  · intro p hp
    unfold Course.newLine Course.passComment
    rw [hp]
    exact ⟨_, rfl⟩
  · intro header content hin
    unfold Course.newLine Course.passComment
    rw [hin]
    simp [Zone.passComment, Zone.push]

/-- Whatever a walk is compared with, it goes on delimiting. -/
theorem sideBySide (text : List Char) (marks : List (Nat × Mark)) :
    SideBySide (text ++ ['\n']) marks 0
      (fun seen w _ => seen <+: text ++ ['\n'] → Delimiting text seen w
        ∧ lastPart seen = [] ∧ w.quoted = false ∧ w.skip = 0)
      (fun seen w _ cs => seen <+: text ++ ['\n'] →
        Delimiting text seen w ∧ OnLine seen w cs) where
  start seen w _ line hread hstart hseen := by
    obtain ⟨hw, hlast, hquoted, hskip⟩ := hstart hseen
    refine ⟨hw, ?_, ?_, ?_⟩
    · rw [hlast]
      exact hread
    · rw [hlast, hquoted]
      rfl
    · rw [hskip]
      exact Nat.zero_le _
  step seen w _ c cs more htext hc _ hwithin hseen := by
    obtain ⟨t, hsplit, ht⟩ := exists_text_eq htext
    obtain ⟨hw, hline⟩ := hwithin ((List.prefix_append seen [c]).trans hseen)
    exact hw.step hline hsplit ht hc
  finish seen w _ hread hwithin hseen := by
    obtain ⟨hw, hline⟩ := hwithin ((List.prefix_append seen ['\n']).trans hseen)
    have hskip := Nat.le_zero.mp hline.skip_le
    exact ⟨hw.newLine hskip hread hseen, lastPart_append_break seen, rfl, rfl⟩
  comment seen w _ line hlast hline hcomment hstart hseen := by
    obtain ⟨hw, -, -, hskip⟩ := hstart ((List.prefix_append seen _).trans hseen)
    refine ⟨hw.passComment hskip hlast hline hcomment hseen, ?_, rfl, rfl⟩
    rw [← List.append_assoc]
    exact lastPart_append_break _

end Delimiting

-- ================================================================ texts

/-- A walk that has seen nothing has delimited nothing. -/
theorem delimiting_start (text : List Char) :
    Delimiting text [] ⟨false, 0, .outside [], []⟩ where
  traced := traced_start
  increasing := List.Pairwise.nil
  active m hm := by cases hm
  regions := ⟨[], fun _ hrest => hrest, rfl⟩
  stands := ⟨rfl, fun o _ ho => by cases ho⟩

/-- A walk over the whole text has delimited its blocks. -/
theorem delimiting_scanText (text : List Char) :
    Delimiting text (text ++ ['\n'])
      ⟨false, 0, (scanText text).1, (scanText text).2⟩ := by
  let start : Course := ⟨false, 0, .outside [], []⟩
  have hside := Delimiting.sideBySide text (start.runLines 0 (lines text)).past
  have hrun := @SideBySide.runLines _ _ _ _ _ _ start start hside (lines text)
    (fun _ => ⟨delimiting_start text, rfl, rfl, rfl⟩) (flatMap_lines text).symm rfl
    (fun l hl => not_mem_of_mem_pieces hl) List.prefix_rfl
  have hdelimiting : Delimiting text (text ++ ['\n'])
      ((Course.mk false 0 (.outside []) []).runLines 0 (lines text)) :=
    (hrun List.prefix_rfl).1
  rwa [Course.runLines_text] at hdelimiting

/-- A walk has seen all regions at the end of the text. -/
theorem Delimiting.exists_delimited {text : List Char} {w : Course}
    (hw : Delimiting text (text ++ ['\n']) w) :
    ∃ rs, Delimited text 0 rs
      ∧ blocksAmong w.past = rs.filterMap (·.block? text) := by
  obtain ⟨rs, hdelimited, hblocks⟩ := hw.regions
  refine ⟨rs, ?_, hblocks⟩
  have hinside : ∀ {i : Nat} {c : Char}, ActiveAt text i c →
      i < (text ++ ['\n']).length := by
    intro i c hactive
    have hi := (List.getElem?_eq_some_iff.mp hactive.char).1
    rw [List.length_append]
    exact Nat.lt_add_right _ hi
  have hlast : Delimited text (afterClosing w.past) [] := by
    refine .last fun o ho c hc => ?_
    have hstands := hw.stands
    cases hzone : w.zone with
    | outside p =>
        rw [hzone] at hstands
        exact hstands.2 o ho.1.1 (hinside ho.1.2) ho.1.2
    | inside header content =>
        rw [hzone] at hstands
        obtain ⟨start, own, hin⟩ := hstands
        obtain rfl := ho.unique hin.opens
        exact hin.since_start.unclosed c (hinside hc.2.1) hc
  have hall := hdelimited [] hlast
  rwa [List.append_nil] at hall

/-- The scan of a text acts on braces that count, at increasing places; and
its blocks are the regions with a header in the only way to delimit the text,
whose bodies stand one behind the other. -/
theorem blocks_delimited (text : List Char) :
    (scanText text).2.Pairwise (·.1 < ·.1)
      ∧ (∀ m ∈ (scanText text).2,
        ∃ c, Header.isBrace c = true ∧ ActiveAt text m.1 c)
      ∧ (∃! rs, Delimited text 0 rs)
      ∧ ∀ rs, Delimited text 0 rs →
        blocksIn text = rs.filterMap (·.block? text)
          ∧ (∀ r ∈ rs, r.own < r.stop)
          ∧ rs.Pairwise fun r r' => r.stop < r'.own := by
  have hw := delimiting_scanText text
  obtain ⟨rs, hrs, hblocks⟩ := hw.exists_delimited
  refine ⟨hw.increasing, hw.active, ⟨rs, hrs, fun rs' hrs' => hrs'.unique hrs⟩, ?_⟩
  intro rs' hrs'
  obtain rfl := hrs'.unique hrs
  exact ⟨hblocks, hrs'.ordered⟩

end ApiScaffold
