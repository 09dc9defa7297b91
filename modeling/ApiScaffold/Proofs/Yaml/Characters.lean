/-
The characters of what is written. Special characters stand escaped, in double
quotes, and every escape is ASCII; so a reader may take every character of a
written text (`clean_putNode`).
-/
import ApiScaffold.Proofs.Yaml.Leaf

namespace ApiScaffold.Yaml

-- ============================================================= characters

/-- Printable characters of ASCII may stand in a text. -/
theorem isReadable_of_ascii {c : Char} (h : 32 ≤ c.toNat ∧ c.toNat ≤ 126) :
    isReadable c = true := by
  unfold isReadable
  simp only [Bool.or_eq_true, Bool.and_eq_true, decide_eq_true_eq]
  omega

/-- What is not special may stand in a text. -/
theorem isReadable_of_isSpecial {c : Char} (h : isSpecial c = false) :
    isReadable c = true := by
  unfold isSpecial at h
  rw [Bool.not_eq_false'] at h
  simp only [Bool.or_eq_true, decide_eq_true_eq, Bool.and_eq_true] at h
  rcases h with (rfl | h) | h
  · rfl
  · exact isReadable_of_ascii h
  · unfold isPlainUnicode at h
    unfold isReadable
    simp only [Bool.or_eq_true, Bool.and_eq_true, beq_iff_eq, decide_eq_true_eq,
      bne_iff_ne] at h ⊢
    omega

/-- What stands without an escape may stand in a text. -/
theorem isReadable_of_needsEscape {c : Char} (h : needsEscape c = false) :
    isReadable c = true := by
  unfold needsEscape at h
  simp only [Bool.or_eq_false_iff, Bool.not_eq_false', Bool.or_eq_true, Bool.and_eq_true,
    decide_eq_true_eq, beq_eq_false_iff_ne] at h
  unfold isReadable
  simp only [Bool.or_eq_true, Bool.and_eq_true, beq_iff_eq, decide_eq_true_eq, bne_iff_ne]
  omega

/-- Hexadecimal digits are printable. -/
theorem isReadable_of_hexValue? {c : Char} {v : Nat} (h : hexValue? c = some v) :
    isReadable c = true := by
  have hrange : ∀ {a b : Char}, 32 ≤ a.toNat → b.toNat ≤ 126 → a ≤ c → c ≤ b →
      isReadable c = true := by
    intro a b ha hb hac hcb
    have hac' : a.toNat ≤ c.toNat := hac
    have hcb' : c.toNat ≤ b.toNat := hcb
    exact isReadable_of_ascii ⟨by omega, by omega⟩
  unfold hexValue? at h
  split at h
  next hdigit =>
    unfold Char.isDigit at hdigit
    simp only [Bool.and_eq_true, decide_eq_true_eq] at hdigit
    exact hrange (a := '0') (b := '9') (by decide) (by decide) hdigit.1 hdigit.2
  next =>
    split at h
    next hlower =>
      simp only [Bool.and_eq_true, decide_eq_true_eq] at hlower
      exact hrange (a := 'a') (b := 'f') (by decide) (by decide) hlower.1 hlower.2
    next =>
      split at h
      next hupper =>
        simp only [Bool.and_eq_true, decide_eq_true_eq] at hupper
        exact hrange (a := 'A') (b := 'F') (by decide) (by decide) hupper.1 hupper.2
      next => cases h

/-- The digits of a hexadecimal number may stand in a text. -/
theorem isReadable_of_ofHex? {m n : Nat} {ds : List Char} (h : ofHex? m ds = some n) :
    ∀ c ∈ ds, isReadable c = true := by
  induction ds generalizing m with
  | nil => exact fun c hc => by cases hc
  | cons d ds ih =>
      rw [ofHex?] at h
      obtain ⟨v, hv, hrest⟩ := Option.bind_eq_some_iff.mp h
      exact List.forall_mem_cons.mpr ⟨isReadable_of_hexValue? hv, ih hrest⟩

/-- Every escape is printable. -/
theorem isReadable_escaped (c : Char) : ∀ d ∈ escaped c, isReadable d = true := by
  have hdigits : ∀ width, ∀ d ∈ upperHexDigits width c.toNat, isReadable d = true :=
    fun width => isReadable_of_ofHex? (ofHex?_upperHexDigits width c.toNat)
  unfold escaped
  simp only
  split
  next letter hletter =>
    have htable : ∀ e ∈ letterEscapes, isReadable e.2 = true := by decide
    have hletter := htable (c.toNat, letter) (mem_of_lookup hletter)
    exact List.forall_mem_cons.mpr ⟨rfl, List.forall_mem_singleton.mpr hletter⟩
  next =>
    split
    · exact List.forall_mem_cons.mpr ⟨rfl, List.forall_mem_cons.mpr ⟨rfl, hdigits 2⟩⟩
    · split
      · exact List.forall_mem_cons.mpr ⟨rfl, List.forall_mem_cons.mpr ⟨rfl, hdigits 4⟩⟩
      · exact List.forall_mem_cons.mpr ⟨rfl, List.forall_mem_cons.mpr ⟨rfl, hdigits 8⟩⟩

-- ================================================================== pens

/-- Only readable characters have been written. -/
def Pen.Clean (p : Pen) : Prop := ∀ c ∈ p.written, isReadable c = true

section clean

variable {p : Pen} (hp : p.Clean)

include hp

/-- Readable characters keep the text clean. -/
theorem Pen.Clean.put {t : List Char} (ht : ∀ c ∈ t, isReadable c = true) :
    (p.put t).Clean := by
  intro c hc
  rcases List.mem_append.mp hc with hc | hc
  · exact ht c (List.mem_reverse.mp hc)
  · exact hp c hc

theorem Pen.Clean.midLine : p.midLine.Clean := hp

/-- A readable line break keeps the text clean. -/
theorem Pen.Clean.breakLine {c : Char} (hc : isReadable c = true) : (p.breakLine c).Clean :=
  List.forall_mem_cons.mpr ⟨hc, hp⟩

/-- Indentation keeps the text clean. -/
theorem Pen.Clean.indentTo (depth : Nat) : (p.indentTo depth).Clean := by
  have hline : ∀ {q : Pen}, q.Clean →
      (if q.column < depth then
        { q.put (List.replicate (depth - q.column) ' ') with blank := true }
      else q).Clean := by
    intro q hq
    split
    · exact hq.put fun c hc => by rw [List.eq_of_mem_replicate hc]; rfl
    · exact hq
  unfold Pen.indentTo
  simp only
  split
  · exact hline (hp.breakLine rfl)
  · exact hline hp

/-- An indicator of readable characters keeps the text clean, with its gap. -/
theorem Pen.Clean.indicator {t : List Char} (ht : ∀ c ∈ t, isReadable c = true)
    (spaced blank fresh : Bool) : (p.indicator t spaced blank fresh).Clean := by
  unfold Pen.indicator
  refine hp.put ?_
  split
  · exact ht
  · exact List.forall_mem_cons.mpr ⟨rfl, ht⟩

end clean

-- ================================================================ scalars

theorem mem_isReadable_singleton {c : Char} (h : isReadable c = true) :
    ∀ d ∈ [c], isReadable d = true :=
  List.forall_mem_singleton.mpr h

/-- A plain scalar is written in the characters of its runs. -/
theorem clean_putPlainRuns (depth : Nat) (fold : Bool) {rs : List (List Char)}
    (h : ∀ w ∈ rs, ∀ c ∈ w, isReadable c = true) {p : Pen} (hp : p.Clean) :
    (putPlainRuns depth fold p rs).Clean := by
  induction rs generalizing p with
  | nil => exact hp
  | cons w rs ih =>
      rw [putPlainRuns]
      refine ih (fun v hv => h v (by simp [hv])) ?_
      split
      · exact (hp.indentTo depth).midLine
      · exact hp.put (h w (by simp))

/-- A plain scalar is written in its own characters. -/
theorem clean_putPlain (depth : Nat) (fold : Bool) {s : List Char}
    (h : ∀ c ∈ s, isReadable c = true) {p : Pen} (hp : p.Clean) :
    (putPlain depth fold p s).Clean := by
  unfold putPlain
  refine clean_putPlainRuns depth fold (fun w hw c hc => h c (mem_of_mem_runs hw hc)) ?_
  split
  · exact hp.midLine
  · exact (hp.put (mem_isReadable_singleton rfl)).midLine

/-- Line breaks inside quotes bring no other characters than themselves. -/
theorem clean_putBreaks (depth : Nat) {run : List Char}
    (h : ∀ c ∈ run, isReadable c = true) {p : Pen} (hp : p.Clean) :
    (putBreaks depth p run).Clean := by
  have hfold : ∀ {q : Pen} (cs : List Char), (∀ c ∈ cs, isReadable c = true) → q.Clean →
      (cs.foldl Pen.breakLine q).Clean := by
    intro q cs
    induction cs generalizing q with
    | nil => exact fun _ hq => hq
    | cons c cs ih =>
        intro hcs hq
        exact ih (fun d hd => hcs d (by simp [hd])) (hq.breakLine (hcs c (by simp)))
  unfold putBreaks
  refine (hfold run h ?_).indentTo depth
  split
  · exact hp.breakLine rfl
  · exact hp

/-- A text in single quotes is written in the characters of its runs and in quotes. -/
theorem clean_putSingleRuns (depth : Nat) (fold first : Bool) {rs : List (List Char)}
    (h : ∀ w ∈ rs, ∀ c ∈ w, isReadable c = true) {p : Pen} (hp : p.Clean) :
    (putSingleRuns depth fold first p rs).Clean := by
  induction rs generalizing first p with
  | nil => exact hp
  | cons w rs ih =>
      rw [putSingleRuns]
      refine ih false (fun v hv => h v (by simp [hv])) ?_
      split
      · exact clean_putBreaks depth (h w (by simp)) hp
      · split
        · exact hp.indentTo depth
        · refine hp.put fun c hc => ?_
          obtain ⟨d, hd, hc⟩ := List.mem_flatMap.mp hc
          split at hc
          · simp only [List.mem_cons, List.not_mem_nil, or_false, or_self] at hc
            rw [hc]
            rfl
          · rw [List.mem_singleton.mp hc]
            exact h w (by simp) d hd

/-- A line continued behind a backslash stays clean. -/
theorem clean_continueLine (depth : Nat) (next : Option Char) {p : Pen} (hp : p.Clean) :
    (continueLine depth p next).Clean := by
  have hline := ((hp.put (mem_isReadable_singleton (c := '\\') rfl)).indentTo depth).midLine
  unfold continueLine
  simp only
  split
  · exact hline.put (mem_isReadable_singleton rfl)
  · exact hline

/-- In double quotes every character is readable or is escaped. -/
theorem clean_putDoubleChars (depth : Nat) (fold : Bool) (s : List Char) :
    ∀ (first : Bool) (p : Pen) (chunk : List Char), p.Clean →
      (∀ c ∈ chunk, isReadable c = true) →
      (putDoubleChars depth fold first p chunk s).Clean := by
  induction s with
  | nil =>
      intro first p chunk hp hchunk
      exact hp.put fun c hc => hchunk c (List.mem_reverse.mp hc)
  | cons c s ih =>
      intro first p chunk hp hchunk
      have hflush : (p.put chunk.reverse).Clean :=
        hp.put fun c hc => hchunk c (List.mem_reverse.mp hc)
      rw [putDoubleChars]
      simp only
      split
      next =>
        have hcode := hflush.put (isReadable_escaped c)
        refine ih false _ [] ?_ fun c hc => by cases hc
        split
        · exact clean_continueLine depth _ hcode
        · exact hcode
      next hescape =>
        have hc : isReadable c = true :=
          isReadable_of_needsEscape (Bool.eq_false_iff.mpr hescape)
        split
        · exact ih false _ [c] (clean_continueLine depth _ hflush)
            (mem_isReadable_singleton hc)
        · exact ih false p (c :: chunk) hp (List.forall_mem_cons.mpr ⟨hc, hchunk⟩)

/-- A text that may be plain has no special character. -/
theorem isReadable_of_allowsPlain {s : List Char} (h : allowsPlain s = true) :
    ∀ c ∈ s, isReadable c = true := by
  unfold allowsPlain at h
  simp only [Bool.and_eq_true, Bool.not_eq_true'] at h
  exact fun c hc =>
    isReadable_of_isSpecial (Bool.eq_false_iff.mpr (List.any_eq_false.mp h.2 c hc))

/-- A text is written clean in whichever style it gets. -/
theorem clean_putText (depth : Nat) (fold : Bool) (s : List Char) {p : Pen} (hp : p.Clean) :
    (putText depth fold p s).Clean := by
  have hquote : ∀ c ∈ ['\''], isReadable c = true := mem_isReadable_singleton rfl
  have hquotes : ∀ c ∈ ['"'], isReadable c = true := mem_isReadable_singleton rfl
  unfold putText
  split
  next hstyle =>
    exact clean_putPlain depth fold (isReadable_of_allowsPlain (styleOf_eq_plain hstyle).1) hp
  next hstyle =>
    have hsingle := styleOf_eq_single hstyle
    unfold allowsSingle at hsingle
    simp only [Bool.and_eq_true, Bool.not_eq_true'] at hsingle
    have hchars : ∀ w ∈ runs s, ∀ c ∈ w, isReadable c = true := fun w hw c hc =>
      isReadable_of_isSpecial (Bool.eq_false_iff.mpr
        (List.any_eq_false.mp hsingle.2 c (mem_of_mem_runs hw hc)))
    exact (clean_putSingleRuns depth fold true hchars
      (hp.indicator hquote true false false)).indicator hquote false false false
  next =>
    exact (clean_putDoubleChars depth fold s true _ []
      (hp.indicator hquotes true false false) fun c hc => by cases hc).indicator hquotes
        false false false

-- ================================================================== nodes

/-- A key is written clean, simple or complex. -/
theorem clean_putKey (depth : Nat) (key : List Char) {p : Pen} (hp : p.Clean) :
    (putKey depth p key).Clean := by
  have hquestion : ∀ c ∈ ['?'], isReadable c = true := mem_isReadable_singleton rfl
  have hcolon : ∀ c ∈ [':'], isReadable c = true := mem_isReadable_singleton rfl
  have hline := hp.indentTo depth
  unfold putKey
  simp only
  split
  · exact (clean_putText (depth + 2) false key hline).indicator hcolon false false false
  · exact ((clean_putText (depth + 2) true key
      (hline.indicator hquestion true false true)).indentTo depth).indicator hcolon
        true false true

/-- A value adds readable characters only, wherever it is written. -/
def KeepsClean (j : Json) : Prop :=
  ∀ (place : Place) (depth : Option Nat) (p : Pen), p.Clean →
    (putNode place depth p j).Clean

/-- The items of a sequence are written clean as soon as each is. -/
theorem clean_putItems {items : List Json} (h : ∀ j ∈ items, KeepsClean j) (here : Nat)
    {p : Pen} (hp : p.Clean) : (putItems here p items).Clean := by
  have hdash : ∀ c ∈ ['-'], isReadable c = true := mem_isReadable_singleton rfl
  induction items generalizing p with
  | nil => exact hp
  | cons item items ih =>
      rw [putItems]
      refine ih (fun j hj => h j (List.mem_cons_of_mem _ hj)) ?_
      exact h item (List.mem_cons_self ..) .item (some here) _
        ((hp.indentTo here).indicator hdash true false true)

/-- The fields of a mapping are written clean as soon as each value is. -/
theorem clean_putFields {fields : List (String × Json)} (h : ∀ e ∈ fields, KeepsClean e.2)
    (here : Nat) {p : Pen} (hp : p.Clean) : (putFields here p fields).Clean := by
  induction fields generalizing p with
  | nil => exact hp
  | cons e fields ih =>
      rw [putFields]
      refine ih (fun e he => h e (List.mem_cons_of_mem _ he)) ?_
      exact h e (List.mem_cons_self ..) .value (some here) _
        (clean_putKey here e.1.toList hp)

/-- Every character of a written value is readable. -/
theorem clean_putNode {j : Json} (h : j.Readable) : KeepsClean j := by
  have hempty : ∀ {a b : Char} {p : Pen}, isReadable a = true → isReadable b = true →
      p.Clean →
      ((p.indicator [a] true true false).indicator [b] false false false).Clean :=
    fun ha hb hp => (hp.indicator (mem_isReadable_singleton ha) true true false).indicator
      (mem_isReadable_singleton hb) false false false
  induction h with
  | null =>
      intro place depth p hp
      exact clean_putPlain _ true (isReadable_of_allowsPlain (by decide)) hp
  | bool b =>
      intro place depth p hp
      have hplain : allowsPlain (wordOf (.bool b)) = true := by cases b <;> decide
      exact clean_putPlain _ true (isReadable_of_allowsPlain hplain) hp
  | int hn =>
      intro place depth p hp
      exact clean_putPlain _ true (isReadable_of_allowsPlain (allowsPlain_intText _)) hp
  | str s =>
      intro place depth p hp
      exact clean_putText _ true s.toList hp
  | @arr items _ ih =>
      intro place depth p hp
      cases items with
      | nil => exact hempty rfl rfl hp
      | cons item items =>
          rw [putNode_items]
          exact clean_putItems ih _ hp
  | @obj fields hkeys _ ih =>
      intro place depth p hp
      cases fields with
      | nil => exact hempty rfl rfl hp
      | cons e fields =>
          rw [putNode_fields _ _ _ (List.cons_ne_nil e fields)]
          exact clean_putFields ih _ hp

end ApiScaffold.Yaml
