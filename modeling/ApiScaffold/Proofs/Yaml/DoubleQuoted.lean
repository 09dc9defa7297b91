/-
Texts in double quotes. Every text is read back from them as it is. Characters that
need it are escaped, and a line ends in a backslash, behind which neither the
break nor the indentation is read; a blank that starts the next line is escaped
too, and until it is written the text ends in half an escape (`leading`).
-/
import ApiScaffold.Proofs.Data.Lookup
import ApiScaffold.Proofs.Yaml.Runs
import Mathlib.Algebra.Group.Nat.Defs

namespace ApiScaffold.Yaml

-- ========================================================= double quotes

section readDouble

variable {s : List Char}

/-- A quote ends the text, behind what the gap stands for. -/
theorem readDouble_close (g : Gap) : readDouble g ('"' :: s) = some (g.text, s) := by
  rw [readDouble]

/-- A blank is taken into the gap. -/
theorem readDouble_blank (g : Gap) :
    readDouble g (' ' :: s) = readDouble (g.blank ' ') s := by
  rw [readDouble, if_neg (by decide), if_pos (by decide)]
  · decide
  · decide

/-- A character of a word comes behind what the gap in front stands for. -/
theorem readDouble_ink (g : Gap) {c : Char} (hquote : c ≠ '"') (hslash : c ≠ '\\')
    (hbreak : isBreak c = false) (hblank : isInnerBlank c = false) :
    readDouble g (c :: s) = (readDouble .empty s).map (prepend (g.text ++ [c])) := by
  rw [readDouble, hbreak, hblank]
  · rfl
  · exact hquote
  · exact hslash

/-- An escape stands for its character, and its digits are passed over. -/
theorem readDouble_escape (g : Gap) {t : List Char} {c : Char} {width : Nat}
    (hbreak : t.head?.any isBreak = false) (h : escape? t = some (c, width)) :
    readDouble g ('\\' :: t)
      = (readDouble .empty (t.drop width)).map (prepend (g.text ++ [c])) := by
  rw [readDouble, hbreak, h]
  rfl

/-- A line break behind a backslash is not read, and no indentation behind it. -/
theorem readDouble_joint (g : Gap) (depth : Nat) (hdepth : 0 < depth) :
    readDouble g ('\\' :: (Json.lineBreak depth ++ s))
      = (readDouble (.breaks none []) s).map (prepend g.text) := by
  have hindent : ∀ n, readDouble (.breaks none []) (List.replicate n ' ' ++ s)
      = readDouble (.breaks none []) s := by
    intro n
    induction n with
    | zero => rfl
    | succ n ih =>
        rw [List.replicate_succ, List.cons_append, readDouble_blank]
        exact ih
  have hmark : startsMark (List.replicate depth ' ' ++ s) = false :=
    startsMark_indent hdepth _
  rw [Json.lineBreak, List.cons_append, readDouble, if_pos (by rfl), List.tail_cons,
    hmark, hindent]
  rfl

end readDouble

/-- A number is read digit by digit. -/
theorem ofHex?_append (m : Nat) (ds es : List Char) :
    ofHex? m (ds ++ es) = (ofHex? m ds).bind fun n => ofHex? n es := by
  induction ds generalizing m with
  | nil => rfl
  | cons d ds ih =>
      rw [List.cons_append, ofHex?, ofHex?]
      cases hexValue? d with
      | none => rfl
      | some v => exact ih _

/-- The hexadecimal digits of a number are read as that number. -/
theorem ofHex?_toDigits (n : Nat) :
    ofHex? 0 ((Nat.toDigits 16 n).map Char.toUpper) = some n := by
  have hdigit : ∀ d < 16, hexValue? (Nat.digitChar d).toUpper = some d := by decide
  induction n using Nat.strongRecOn with
  | ind n ih =>
      by_cases hsmall : n < 16
      · rw [Nat.toDigits_of_lt_base hsmall, List.map_singleton, ofHex?, hdigit n hsmall]
        show some (16 * 0 + n) = some n
        rw [Nat.mul_zero, Nat.zero_add]
      · rw [Nat.toDigits_of_base_le (by decide) (Nat.le_of_not_lt hsmall), List.map_append,
          ofHex?_append, ih (n / 16) (by omega), List.map_singleton]
        show ofHex? (n / 16) [(Nat.digitChar (n % 16)).toUpper] = some n
        rw [ofHex?, hdigit (n % 16) (by omega)]
        show some (16 * (n / 16) + n % 16) = some n
        rw [Nat.div_add_mod]

/-- A number is read back from its hexadecimal digits. -/
theorem ofHex?_upperHexDigits (width n : Nat) :
    ofHex? 0 (upperHexDigits width n) = some n := by
  have hzeros : ∀ k (ds : List Char), ofHex? 0 (List.replicate k '0' ++ ds) = ofHex? 0 ds := by
    intro k ds
    induction k with
    | zero => rfl
    | succ k ih => exact ih
  unfold upperHexDigits hexDigits padZeros
  rw [List.map_append, List.map_replicate]
  exact (hzeros _ _).trans (ofHex?_toDigits n)

/-- A number below the bound has just as many digits as asked for. -/
theorem length_upperHexDigits {width n : Nat} (hwidth : 0 < width) (h : n < 16 ^ width) :
    (upperHexDigits width n).length = width := by
  have hdigits : (Nat.toDigits 16 n).length ≤ width :=
    (Nat.length_toDigits_le_iff (by decide) hwidth).mpr h
  unfold upperHexDigits hexDigits padZeros
  rw [List.length_map, List.length_append, List.length_replicate]
  omega

/-- An escape by number is read as its character. -/
theorem escape?_of_code {letter : Char} {width : Nat} (hletter : unescapeLetter? letter = none)
    (hcode : codeWidth? letter = some width) (hwidth : 0 < width) {c : Char}
    (hc : c.toNat < 16 ^ width) (rest : List Char) :
    escape? (letter :: upperHexDigits width c.toNat ++ rest) = some (c, width + 1) := by
  have hlength := length_upperHexDigits hwidth hc
  have htake : (upperHexDigits width c.toNat ++ rest).take width
      = upperHexDigits width c.toNat := List.take_left' hlength
  have hvalid : width ≤ (upperHexDigits width c.toNat ++ rest).length
      ∧ c.toNat.isValidChar := by
    rw [List.length_append, hlength]
    exact ⟨Nat.le_add_right _ _, c.valid⟩
  rw [List.cons_append, escape?, hletter, hcode]
  show (ofHex? 0 ((upperHexDigits width c.toNat ++ rest).take width)).bind _ = _
  rw [htake, ofHex?_upperHexDigits]
  show (if _ then _ else _) = _
  rw [if_pos hvalid, Char.ofNat_toNat]

/-- An escape is read as its character. -/
theorem exists_escaped (c : Char) :
    ∃ t, escaped c = '\\' :: t ∧ (∀ rest, (t ++ rest).head?.any isBreak = false)
      ∧ ∀ rest, escape? (t ++ rest) = some (c, t.length) := by
  unfold escaped
  simp only
  split
  next letter hletter =>
    have htable : ∀ e ∈ letterEscapes,
        unescapeLetter? e.2 = some (Char.ofNat e.1) ∧ isBreak e.2 = false := by decide
    obtain ⟨hread, hbreak⟩ := htable (c.toNat, letter) (mem_of_lookup hletter)
    refine ⟨_, rfl, fun _ => hbreak, fun rest => ?_⟩
    show escape? (letter :: rest) = _
    rw [escape?, hread, Char.ofNat_toNat]
    rfl
  next =>
    have hform : ∀ {letter : Char} {width : Nat}, unescapeLetter? letter = none →
        codeWidth? letter = some width → isBreak letter = false → 0 < width →
        c.toNat < 16 ^ width →
        ∃ t, '\\' :: letter :: upperHexDigits width c.toNat = '\\' :: t
          ∧ (∀ rest, (t ++ rest).head?.any isBreak = false)
          ∧ ∀ rest, escape? (t ++ rest) = some (c, t.length) := by
      intro letter width hletter hcode hbreak hwidth hc
      refine ⟨_, rfl, fun _ => hbreak, fun rest => ?_⟩
      rw [escape?_of_code hletter hcode hwidth hc, List.length_cons,
        length_upperHexDigits hwidth hc]
    have hbound : c.toNat < 0x110000 := by
      rcases c.valid with h | h
      · exact Nat.lt_trans h (by decide)
      · exact h.2
    split
    next h => exact hform rfl rfl rfl (by decide) (by omega)
    next =>
      split
      next h => exact hform rfl rfl rfl (by decide) (by omega)
      next => exact hform rfl rfl rfl (by decide) (by omega)

/-- What double quotes hold unescaped. -/
theorem raw_of_needsEscape {c : Char} (h : needsEscape c = false) :
    c ≠ '"' ∧ c ≠ '\\' ∧ isBreak c = false ∧ c ≠ '\t' := by
  have hne : ∀ {d : Char}, needsEscape d = true → c ≠ d := by
    rintro d hd rfl
    rw [hd] at h
    cases h
  have hfeed : c ≠ '\n' := hne (by decide)
  have hnext : c ≠ '\u0085' := hne (by decide)
  have hline : c ≠ '\u2028' := hne (by decide)
  have hparagraph : c ≠ '\u2029' := hne (by decide)
  refine ⟨hne (by decide), hne (by decide), ?_, hne (by decide)⟩
  unfold isBreak
  rw [decide_eq_false hfeed, decide_eq_false hnext, decide_eq_false hline,
    decide_eq_false hparagraph]
  rfl

/-- Here an escape starts, or the closing quote stands. -/
def Opens (s : List Char) : Prop := ∃ t, s = '"' :: t ∨ s = '\\' :: t

/-- What is put in front twice is put in front at once. -/
theorem map_prepend (s t : List Char) (r : Option (List Char × List Char)) :
    (r.map (prepend t)).map (prepend s) = r.map (prepend (s ++ t)) := by
  rw [Option.map_map]
  congr 1
  funext q
  unfold prepend
  simp

/-- In front of a word or the end the gap stands for its text. -/
theorem readDouble_of_opens (g : Gap) {s : List Char} (h : Opens s) :
    readDouble g s = (readDouble .empty s).map (prepend g.text) := by
  obtain ⟨t, rfl | rfl⟩ := h
  · rw [readDouble_close, readDouble_close]
    show _ = some (prepend g.text ([], t))
    unfold prepend
    rw [List.append_nil]
  · rw [readDouble, readDouble]
    split
    · split
      · rfl
      · rw [map_prepend]
        exact congrArg (fun u => Option.map (prepend u) _) (List.append_nil _).symm
    · split
      · rw [map_prepend]
        rfl
      · rfl

/-- Characters that stand unescaped, in front of an escape or the closing quote.
Blanks among them count, unless they follow a line break. -/
theorem readDouble_raw (g : Gap) {ws s : List Char}
    (hws : ∀ c ∈ ws, needsEscape c = false) (hs : Opens s)
    (hg : (∃ cs, g = .blanks cs) ∨ ws.head? ≠ some ' ') :
    readDouble g (ws ++ s) = (readDouble .empty s).map (prepend (g.text ++ ws)) := by
  induction ws generalizing g with
  | nil =>
      rw [List.nil_append, List.append_nil]
      exact readDouble_of_opens g hs
  | cons c ws ih =>
      have hrest : ∀ d ∈ ws, needsEscape d = false := fun d hd => hws d (by simp [hd])
      by_cases hc : c = ' '
      · subst hc
        obtain ⟨cs, rfl⟩ := hg.resolve_right (fun h => h rfl)
        rw [List.cons_append, readDouble_blank, Gap.blank, ih _ hrest (.inl ⟨_, rfl⟩)]
        show _ = Option.map (prepend (cs ++ ' ' :: ws)) _
        rw [Gap.text, List.append_assoc]
        rfl
      · obtain ⟨hquote, hslash, hbreak, htab⟩ := raw_of_needsEscape (hws c (by simp))
        have hblank : isInnerBlank c = false := by
          unfold isInnerBlank
          rw [decide_eq_false hc, decide_eq_false htab]
          rfl
        rw [List.cons_append, readDouble_ink g hquote hslash hbreak hblank,
          ih .empty hrest (.inl ⟨[], rfl⟩), map_prepend, List.append_assoc]
        rfl

/-- The backslash in front of a blank that starts a line. -/
def leading (lead : Bool) : List Char := if lead then ['\\'] else []

/-- The first character of a text counts behind a gap: a blank is lost at the
start of a line, unless its backslash has been written. -/
def StartCounts (g : Gap) (lead : Bool) (s : List Char) : Prop :=
  (∃ cs, g = .blanks cs) ∨ lead = true ∨ s.head? ≠ some ' '

/-- Characters that stand unescaped behind the start of a line, where the first
blank is written with a backslash. -/
theorem readDouble_line (g : Gap) (lead : Bool) {ws s : List Char}
    (hws : ∀ c ∈ ws, needsEscape c = false) (hs : Opens s)
    (hlead : lead = true → ws.head? = some ' ')
    (hg : StartCounts g lead ws) :
    readDouble g (leading lead ++ (ws ++ s))
      = (readDouble .empty s).map (prepend (g.text ++ ws)) := by
  cases lead with
  | false => exact readDouble_raw g hws hs (hg.imp_right fun h => h.resolve_left nofun)
  | true =>
      cases ws with
      | nil => cases hlead rfl
      | cons c ws =>
          obtain rfl : c = ' ' := Option.some.inj (hlead rfl)
          show readDouble g ('\\' :: ' ' :: (ws ++ s)) = _
          have hescape : escape? (' ' :: (ws ++ s)) = some (' ', 1) := rfl
          rw [readDouble_escape g rfl hescape, List.drop_one,
            List.tail_cons, readDouble_raw .empty (fun d hd => hws d (by simp [hd])) hs
              (.inl ⟨[], rfl⟩), map_prepend, List.append_assoc]
          rfl

/-- A line is continued by a backslash, a break and the indentation. -/
theorem wrote_continueLine {depth : Nat} {p : Pen} (h : depth ≤ p.column)
    (next : Option Char) :
    p.Wrote (continueLine depth p next)
        ('\\' :: (Json.lineBreak depth ++ leading (next == some ' ')))
      ∧ (continueLine depth p next).column ≤ depth + 1 := by
  have hleave : (p.put ['\\']).fresh = false ∨ depth < (p.put ['\\']).column := by
    right
    show depth < p.column + 1
    omega
  obtain ⟨hwrote, hat⟩ := Pen.wrote_indentTo_of_leave depth hleave
  have hline := (p.wrote_put ['\\']).trans hwrote
  unfold continueLine leading
  simp only
  split
  next =>
    refine ⟨hline.trans (Pen.wrote_put (Pen.midLine _) ['\\']), ?_⟩
    show ((p.put ['\\']).indentTo depth).column + 1 ≤ depth + 1
    rw [hat.column]
  next =>
    refine ⟨?_, ?_⟩
    · rw [List.append_nil]
      exact hline
    · show ((p.put ['\\']).indentTo depth).column ≤ depth + 1
      rw [hat.column]
      omega

-- ======================================================= pieces of a text

/-- An escape ends a gap. -/
theorem opens_escaped (c : Char) (t : List Char) : Opens (escaped c ++ t) := by
  obtain ⟨e, he, -, -⟩ := exists_escaped c
  exact ⟨e ++ t, .inr (by rw [he]; rfl)⟩

/-- An escaped character is read back. -/
theorem readDouble_escaped (c : Char) (t : List Char) :
    readDouble .empty (escaped c ++ t) = (readDouble .empty t).map (prepend [c]) := by
  obtain ⟨e, he, hbreak, hread⟩ := exists_escaped c
  rw [he, List.cons_append, readDouble_escape _ (hbreak t) (hread t), List.drop_left]
  rfl

/-- A text in double quotes is read as another, up to the closing quote. `lead`
tells whether a backslash for its first blank has been written in front of it. -/
def SpellsDouble (lead : Bool) (t s : List Char) : Prop :=
  ∀ g rest, StartCounts g lead s →
    readDouble g (leading lead ++ (t ++ '"' :: rest)) = some (g.text ++ s, rest)

/-- A text that is spelled is read up to its closing quote. -/
theorem SpellsDouble.read {t s : List Char} (h : SpellsDouble false t s)
    (rest : List Char) : readDouble .empty (t ++ '"' :: rest) = some (s, rest) :=
  h .empty rest (.inl ⟨[], rfl⟩)

/-- A line that is continued is read on, whatever the next one starts with. -/
theorem SpellsDouble.read_continued {depth : Nat} (hdepth : 0 < depth)
    {t s : List Char} (h : SpellsDouble (s.head? == some ' ') t s) (rest : List Char) :
    readDouble .empty
        ('\\' :: (Json.lineBreak depth ++ leading (s.head? == some ' ')) ++ (t ++ '"' :: rest))
      = some (s, rest) := by
  have hstart : StartCounts (.breaks none []) (s.head? == some ' ') s := by
    by_cases hblank : s.head? = some ' '
    · exact .inr (.inl (by rw [hblank]; rfl))
    · exact .inr (.inr hblank)
  rw [List.cons_append, List.append_assoc, readDouble_joint _ depth hdepth, h _ rest hstart]
  rfl

/-- An escape in front of what is read as a text. -/
theorem readDouble_escaped_append {c : Char} {u s : List Char}
    (h : ∀ rest, readDouble .empty (u ++ '"' :: rest) = some (s, rest)) (rest : List Char) :
    readDouble .empty ((escaped c ++ u) ++ '"' :: rest) = some (c :: s, rest) := by
  rw [List.append_assoc, readDouble_escaped, h rest]
  rfl

/-- Characters that stand unescaped in front of a piece that starts with a
backslash, or in front of the closing quote. A backslash that waits for a blank
finds it among them. -/
theorem SpellsDouble.of_pending {lead : Bool} {ws u s : List Char}
    (hws : ∀ c ∈ ws, needsEscape c = false)
    (hlead : lead = true → (ws ++ s).head? = some ' ')
    (hpending : lead = true → ws ≠ [])
    (hopens : ∀ rest, Opens (u ++ '"' :: rest))
    (h : ∀ rest, readDouble .empty (u ++ '"' :: rest) = some (s, rest)) :
    SpellsDouble lead (ws ++ u) (ws ++ s) := by
  intro g rest hg
  have hread : readDouble g (leading lead ++ (ws ++ (u ++ '"' :: rest)))
      = (readDouble .empty (u ++ '"' :: rest)).map (prepend (g.text ++ ws)) := by
    by_cases hnil : ws = []
    · subst hnil
      exact readDouble_line g lead hws (hopens rest) (fun hl => absurd rfl (hpending hl))
        (.inr (.inr nofun))
    · have hhead : (ws ++ s).head? = ws.head? := List.head?_append_of_ne_nil _ hnil
      unfold StartCounts at hg
      rw [hhead] at hlead hg
      exact readDouble_line g lead hws (hopens rest) hlead hg
  rw [List.append_assoc, hread, h rest]
  unfold prepend
  simp

/-- Pending characters, an escape, and what is written behind it, on this line or
the next. -/
theorem exists_spells_escaped {lead : Bool} {ws u s : List Char} {c : Char} {p q : Pen}
    (hws : ∀ d ∈ ws, needsEscape d = false)
    (hlead : lead = true → (ws ++ c :: s).head? = some ' ')
    (hescape : needsEscape c = true)
    (hwrote : ((p.put ws).put (escaped c)).Wrote q u)
    (h : ∀ rest, readDouble .empty (u ++ '"' :: rest) = some (s, rest)) :
    ∃ t, p.Wrote q t ∧ SpellsDouble lead t (ws ++ c :: s) := by
  have hpending : lead = true → ws ≠ [] := by
    rintro hl rfl
    obtain rfl : c = ' ' := Option.some.inj (hlead hl)
    cases hescape
  have hpiece := (p.wrote_put ws).trans (Pen.wrote_put (p.put ws) (escaped c))
  refine ⟨ws ++ (escaped c ++ u), ?_, ?_⟩
  · rw [← List.append_assoc]
    exact hpiece.trans hwrote
  · refine .of_pending hws hlead hpending (fun rest => ?_) (readDouble_escaped_append h)
    rw [List.append_assoc]
    exact opens_escaped c _

/-- The characters of a text in double quotes are read back. `chunk` holds those
that are pending, last first; where none is behind a backslash, the line is short
enough to take the blank. -/
theorem exists_putDoubleChars {depth : Nat} (hdepth : 0 < depth)
    (hwidth : depth < bestWidth) (fold : Bool) (s : List Char) :
    ∀ (first lead : Bool) (p : Pen) (chunk : List Char),
      (∀ c ∈ chunk, needsEscape c = false) →
      (lead = true → (chunk.reverse ++ s).head? = some ' ') →
      (lead = true → chunk = [] → p.column ≤ bestWidth) →
      ∃ t, p.Wrote (putDoubleChars depth fold first p chunk s) t
        ∧ SpellsDouble lead t (chunk.reverse ++ s) := by
  induction s with
  | nil =>
      intro first lead p chunk hchunk hlead _
      have hpending : lead = true → chunk.reverse ≠ [] := fun hl heq => by
        have hfirst := hlead hl
        rw [heq] at hfirst
        cases hfirst
      refine ⟨chunk.reverse ++ [], ?_, ?_⟩
      · rw [List.append_nil]
        exact p.wrote_put _
      · exact .of_pending (fun c hc => hchunk c (List.mem_reverse.mp hc)) hlead hpending
          (fun rest => ⟨rest, .inl rfl⟩) fun _ => readDouble_close _
  | cons c s ih =>
      intro first lead p chunk hchunk hlead hcolumn
      have hraw : ∀ d ∈ chunk.reverse, needsEscape d = false :=
        fun d hd => hchunk d (List.mem_reverse.mp hd)
      rw [putDoubleChars]
      simp only
      by_cases hescape : needsEscape c = true
      · rw [if_pos hescape]
        split
        next hfold =>
          simp only [Bool.and_eq_true, decide_eq_true_eq] at hfold
          have hwide : depth ≤ ((p.put chunk.reverse).put (escaped c)).column := by omega
          obtain ⟨hjoint, hline⟩ := wrote_continueLine hwide s.head?
          obtain ⟨t, ht, hspells⟩ := ih false (s.head? == some ' ')
            (continueLine depth ((p.put chunk.reverse).put (escaped c)) s.head?) []
            (fun d hd => by cases hd) (fun h => by simpa using h) (fun _ _ => by omega)
          refine exists_spells_escaped hraw hlead hescape (hjoint.trans ht) fun rest => ?_
          rw [List.append_assoc]
          exact hspells.read_continued hdepth rest
        next hfold =>
          obtain ⟨t, ht, hspells⟩ := ih false false ((p.put chunk.reverse).put (escaped c)) []
            (fun d hd => by cases hd) nofun nofun
          exact exists_spells_escaped hraw hlead hescape ht hspells.read
      · rw [if_neg hescape]
        have hc : needsEscape c = false := Bool.eq_false_iff.mpr hescape
        split
        next hfold =>
          simp only [Bool.and_eq_true, decide_eq_true_eq] at hfold
          have hpending : lead = true → chunk.reverse ≠ [] := by
            intro hl heq
            obtain rfl := List.reverse_eq_nil_iff.mp heq
            have hshort := hcolumn hl rfl
            have hlong := hfold.2
            rw [List.length_nil, Nat.add_zero] at hlong
            omega
          have hwide : depth ≤ (p.put chunk.reverse).column := by
            show depth ≤ p.column + chunk.reverse.length
            rw [List.length_reverse]
            omega
          obtain ⟨hjoint, -⟩ := wrote_continueLine hwide (some c)
          obtain ⟨t, ht, hspells⟩ := ih false (some c == some ' ')
            (continueLine depth (p.put chunk.reverse) (some c)) [c]
            (by simpa using hc) (fun h => by simpa using h) (fun _ h => by cases h)
          refine ⟨_, (p.wrote_put chunk.reverse).trans (hjoint.trans ht),
            .of_pending hraw hlead hpending (fun rest => ⟨_, .inr rfl⟩) fun rest => ?_⟩
          rw [List.append_assoc]
          exact SpellsDouble.read_continued (s := c :: s) hdepth hspells rest
        next =>
          have hsame : (c :: chunk).reverse ++ s = chunk.reverse ++ c :: s := by simp
          obtain ⟨t, ht, hspells⟩ := ih false lead p (c :: chunk)
            (List.forall_mem_cons.mpr ⟨hc, hchunk⟩) (by rwa [hsame])
            (fun _ h => by cases h)
          rw [hsame] at hspells
          exact ⟨t, ht, hspells⟩

/-- Every text is read back from double quotes. -/
theorem exists_putDouble (s : List Char) {depth : Nat} (hdepth : 0 < depth)
    (hwidth : depth < bestWidth) (fold : Bool) (p : Pen) :
    ∃ t, p.Wrote (putDouble depth fold p s) (p.gap ++ '"' :: t)
      ∧ (putDouble depth fold p s).fresh = false
      ∧ ∀ rest, readDouble .empty (t ++ rest) = some (s, rest) := by
  obtain ⟨t, hwrote, hspells⟩ := exists_putDoubleChars hdepth hwidth fold s true false
    (p.indicator ['"'] true false false) [] (fun c hc => by cases hc) nofun nofun
  refine ⟨t ++ ['"'], ?_, Bool.and_false _, fun rest => ?_⟩
  · have hall := ((p.wrote_indicator ['"'] false false).trans hwrote).trans
      (Pen.wrote_indicator_joined _ ['"'] false false)
    rw [List.append_assoc, List.append_assoc] at hall
    exact hall
  · rw [List.append_assoc]
    exact hspells.read rest

end ApiScaffold.Yaml
