/-
A text and the same text in a package, a block without a header around it,
walked side by side. While the package is open, a brace that opens a block
in the plain walk is met by the wrapped walk inside a body: a word between
braces is no block there, and of the header text only the brace's own line
counts. The first brace that closes a block closes the package with it, or
the package alone if it is a stray one, and from then on the walks are in
lockstep.

`Nested` is what holds at every point: the walks have read the same blocks
if all headers that were met in the open package are found on the own lines
of their braces, and the wrapped one has read less if not. Each way the
walks can stand to each other (`Alongside`) has a lemma for the step from
it, and `nested_sideBySide` puts them together.
-/
import ApiScaffold.Proofs.Diagram.Beside

namespace ApiScaffold

-- =================================================== statement vocabulary

/-- The line that opens a block without a header. -/
def packageHead : List Char := "package P \x7b\n".toList

/-- A text wrapped in a block without a header. -/
def inPackage (text : List Char) : List Char :=
  packageHead ++ text ++ "\n\x7d\n".toList

/-- A brace of a text, after marks that were made before it, opens a block
with a header while the package around the text is open. `marks` are those
of the text, `packaged` those of the text in the package. -/
structure OpensInPackage (text : List Char) (marks packaged : List (Nat × Mark))
    (before : List (Nat × Mark)) (i : Nat) (h : Header) : Prop where
  opened : ∃ after, marks = before ++ (i, .opened) :: after
  packageOpen : ∀ m ∈ packaged, m.2.closes = true → i + packageHead.length ≤ m.1
  header : Header.find? (headerText text before i) = some h

/-- The header on the own line of a brace. -/
def ownHeader? (text : List Char) (before : List (Nat × Mark)) (i : Nat) :
    Option Header :=
  Header.find? (lastPart (headerText text before i))

-- =============================================================== openings

/-- A list that is extended by one element, cut at an element. -/
theorem concat_eq_append_cons_iff {α : Type} {l before after : List α} {x y : α} :
    l ++ [x] = before ++ y :: after
      ↔ (before = l ∧ y = x ∧ after = [])
        ∨ ∃ rest, after = rest ++ [x] ∧ l = before ++ y :: rest := by
  constructor
  · intro h
    rcases List.eq_nil_or_concat after with rfl | ⟨rest, z, rfl⟩
    · obtain ⟨hl, hx⟩ := List.append_inj' h rfl
      injection hx with hx
      exact Or.inl ⟨hl.symm, hx.symm, rfl⟩
    · rw [List.concat_eq_append, ← List.cons_append, ← List.append_assoc] at h
      obtain ⟨hl, hx⟩ := List.append_inj' h rfl
      injection hx with hx
      exact Or.inr ⟨rest, by rw [List.concat_eq_append, hx], hl⟩
  · rintro (⟨rfl, rfl, rfl⟩ | ⟨rest, rfl, rfl⟩)
    · rfl
    · simp

section openings

variable {text : List Char} {past past' before : List (Nat × Mark)} {i n : Nat}
  {h : Header} {m m' : Option Mark}

/-- The brace at an offset adds an opening if it opens a block with a header
while the package is open; the others stay. -/
theorem opensInPackage_append (hbound : ∀ x ∈ past, x.1 < n) :
    OpensInPackage text (past ++ (m.map (n, ·)).toList)
        (past' ++ (m'.map (n + packageHead.length, ·)).toList) before i h
      ↔ OpensInPackage text past past' before i h
        ∨ m = some .opened ∧ before = past ∧ i = n
          ∧ OpensInPackage text (past ++ [(n, .opened)]) past' past n h := by
  have hopen : ∀ j ≤ n,
      (∀ x ∈ past' ++ (m'.map (n + packageHead.length, ·)).toList,
        x.2.closes = true → j + packageHead.length ≤ x.1)
      ↔ ∀ x ∈ past', x.2.closes = true → j + packageHead.length ≤ x.1 := by
    intro j hj
    refine ⟨fun hx x hmem => hx x (List.mem_append_left _ hmem), ?_⟩
    intro hx x hmem hclose
    rcases List.mem_append.mp hmem with hmem | hmem
    · exact hx x hmem hclose
    · cases m' with
      | none => cases hmem
      | some mark =>
          rw [List.mem_singleton.mp hmem]
          exact Nat.add_le_add_right hj _
  constructor
  · rintro ⟨⟨after, hsplit⟩, hpackage, hheader⟩
    cases m with
    | none =>
        rw [Option.map_none, Option.toList_none, List.append_nil] at hsplit
        have hi : i < n := hbound (i, .opened) (by simp [hsplit])
        exact Or.inl ⟨⟨after, hsplit⟩, (hopen i (Nat.le_of_lt hi)).mp hpackage,
          hheader⟩
    | some mark =>
        rcases concat_eq_append_cons_iff.mp hsplit with
          ⟨rfl, hmark, -⟩ | ⟨rest, -, hpast⟩
        · injection hmark with hi hmark
          subst hi hmark
          exact Or.inr ⟨rfl, rfl, rfl, ⟨[], rfl⟩,
            (hopen i (Nat.le_refl i)).mp hpackage, hheader⟩
        · have hi : i < n := hbound (i, .opened) (by simp [hpast])
          exact Or.inl ⟨⟨rest, hpast⟩, (hopen i (Nat.le_of_lt hi)).mp hpackage,
            hheader⟩
  · rintro (⟨⟨after, hsplit⟩, hpackage, hheader⟩ | ⟨rfl, rfl, rfl, hnew⟩)
    · have hi : i < n := hbound (i, .opened) (by simp [hsplit])
      refine ⟨⟨after ++ (m.map (n, ·)).toList, ?_⟩,
        (hopen i (Nat.le_of_lt hi)).mpr hpackage, hheader⟩
      rw [hsplit]
      simp
    · exact ⟨⟨[], rfl⟩, (hopen i (Nat.le_refl i)).mpr hnew.packageOpen,
        hnew.header⟩

/-- A brace behind them all changes nothing about the openings. -/
theorem opensInPackage_closing (hbound : ∀ x ∈ past, x.1 < n) :
    OpensInPackage text past (past' ++ (m'.map (n + packageHead.length, ·)).toList)
        before i h
      ↔ OpensInPackage text past past' before i h := by
  conv => lhs; rw [← List.append_nil past]
  exact (opensInPackage_append (m := none) hbound).trans
    (or_iff_left fun hnew => by cases hnew.1)

end openings

/-- A brace has a header on its own line and is not the first of a word
between braces. -/
def KeepsHeader (text : List Char) (before : List (Nat × Mark)) (i : Nat) :
    Prop :=
  (ownHeader? text before i).isSome = true
    ∧ modifierWidth? (text.drop (i + 1)) = none

/-- Every opening keeps its header. -/
def OnOwnLines (text : List Char) (past past' : List (Nat × Mark)) : Prop :=
  ∀ before i h, OpensInPackage text past past' before i h →
    KeepsHeader text before i

/-- No opening has one header on its own line and another one in all of its
header text. -/
def OwnLinesAgree (text : List Char) (past past' : List (Nat × Mark)) : Prop :=
  ∀ before i h, OpensInPackage text past past' before i h →
    ∀ h', ownHeader? text before i = some h' → h' = h

/-- A brace has closed the package. -/
def PackageClosed (past' : List (Nat × Mark)) : Prop :=
  ∃ m ∈ past', m.2.closes = true

-- =========================================================== comparison

/-- How the walks stand to each other. Apart from lockstep the plain walk
may be outside any block while the wrapped one is in the package, and the
plain walk may read as a block what the wrapped one passes as a word between
braces. -/
inductive Alongside (lost closed : Prop) : Course → Course → List Char → Prop
  | lockstep {quoted : Bool} {skip : Nat} {z z' : Zone}
      {past past' : List (Nat × Mark)} {rest : List Char}
      (hz : Beside lost closed z z') :
      Alongside lost closed ⟨quoted, skip, z, past⟩ ⟨quoted, skip, z', past'⟩ rest
  | apart {quoted : Bool} {p c : List Char} {past past' : List (Nat × Mark)}
      {rest : List Char} (hopen : ¬ closed) (h : sinceStop p = sinceStop c) :
      Alongside lost closed ⟨quoted, 0, .outside p, past⟩
        ⟨quoted, 0, .inside none c, past'⟩ rest
  | group {header : Option Header} {c c' word rest : List Char}
      {past past' : List (Nat × Mark)} (hopen : ¬ closed)
      (hheader : header = none ∨ lost) (hword : ∀ d ∈ word, isWord d = true) :
      Alongside lost closed ⟨false, 0, .inside header c, past⟩
        ⟨false, word.length + 1, .inside none c', past'⟩ (word ++ '\x7d' :: rest)

/-- What the walks over a text and over the text in its package have in
common once they have read some of it: the same blocks, or less of them in
the package if a header was lost there. -/
structure Nested (text seen : List Char) (w w' : Course) (rest : List Char) :
    Prop where
  traced : Traced seen w
  bound : ∀ m ∈ w'.past, m.1 < seen.length + packageHead.length
  alongside : Alongside (¬ OnOwnLines text w.past w'.past)
    (PackageClosed w'.past) w w' rest
  same : OnOwnLines text w.past w'.past → blocksAmong w.past = blocksAmong w'.past
  short : ¬ OnOwnLines text w.past w'.past → w'.weight < w.weight

section comparison

variable {text seen s rest rest' cs more : List Char} {d : Char}
  {w w' v v' : Course} {m m' : Option Mark}

/-- Whether all openings keep their headers is decided opening by
opening. -/
theorem onOwnLines_append {past past' : List (Nat × Mark)} {n : Nat}
    (hbound : ∀ x ∈ past, x.1 < n) :
    OnOwnLines text (past ++ (m.map (n, ·)).toList)
        (past' ++ (m'.map (n + packageHead.length, ·)).toList)
      ↔ OnOwnLines text past past' ∧ (m = some .opened → ∀ h,
        OpensInPackage text (past ++ [(n, .opened)]) past' past n h →
        KeepsHeader text past n) := by
  constructor
  · intro hf
    refine ⟨fun before i h ho => hf before i h ?_, fun hm h ho => hf _ _ h ?_⟩
    · exact (opensInPackage_append hbound).mpr (Or.inl ho)
    · exact (opensInPackage_append hbound).mpr (Or.inr ⟨hm, rfl, rfl, ho⟩)
  · rintro ⟨hf, hnew⟩ before i h ho
    rcases (opensInPackage_append hbound).mp ho with hold | ⟨hm, rfl, rfl, hopens⟩
    · exact hf before i h hold
    · exact hnew hm h hopens

theorem OwnLinesAgree.of_append {past past' : List (Nat × Mark)} {n : Nat}
    (hbound : ∀ x ∈ past, x.1 < n)
    (hc : OwnLinesAgree text (past ++ (m.map (n, ·)).toList)
      (past' ++ (m'.map (n + packageHead.length, ·)).toList)) :
    OwnLinesAgree text past past' :=
  fun before i h ho => hc before i h ((opensInPackage_append hbound).mpr (Or.inl ho))

theorem PackageClosed.append {past' : List (Nat × Mark)}
    (hc : PackageClosed past') (more : List (Nat × Mark)) :
    PackageClosed (past' ++ more) := by
  obtain ⟨x, hx, hcloses⟩ := hc
  exact ⟨x, List.mem_append_left _ hx, hcloses⟩

namespace Nested

/-- What a step adds to the walks: some text, and at most one mark to each. -/
structure Step (text seen s : List Char) (w w' v v' : Course)
    (m m' : Option Mark) (rest : List Char) : Prop where
  traced : Traced (seen ++ s) v
  moved : s ≠ []
  past : v.past = w.past ++ (m.map (seen.length, ·)).toList
  past' : v'.past = w'.past ++ (m'.map (seen.length + packageHead.length, ·)).toList
  alongside : Alongside (¬ OnOwnLines text v.past v'.past)
    (PackageClosed v'.past) v v' rest

theorem Step.bound (hs : Step text seen s w w' v v' m m' rest')
    (hn : Nested text seen w w' rest) :
    ∀ x ∈ v'.past, x.1 < (seen ++ s).length + packageHead.length := by
  intro x hx
  have hpos := List.length_pos_of_ne_nil hs.moved
  rw [List.length_append]
  rw [hs.past'] at hx
  rcases List.mem_append.mp hx with hx | hx
  · have hlt := hn.bound x hx
    omega
  · cases m' with
    | none => cases hx
    | some mark =>
        rw [List.mem_singleton.mp hx]
        show seen.length + packageHead.length < _
        omega

/-- A step that loses no header: both walks complete the same block, if any,
and the wrapped one does not gain on the plain one. -/
theorem keep (hn : Nested text seen w w' rest) (m m' : Option Mark)
    (hs : Step text seen s w w' v v' m m' rest')
    (hnew : m = some .opened → ∀ h,
      OpensInPackage text (w.past ++ [(seen.length, .opened)]) w'.past w.past
          seen.length h →
        KeepsHeader text w.past seen.length)
    (hblock : m.bind Mark.block? = m'.bind Mark.block?
      ∨ ¬ OnOwnLines text w.past w'.past)
    (hgain : v'.weight + w.weight ≤ v.weight + w'.weight) :
    Nested text (seen ++ s) v v' rest' := by
  have hfair : OnOwnLines text v.past v'.past ↔ OnOwnLines text w.past w'.past := by
    rw [hs.past, hs.past', onOwnLines_append hn.traced.bound]
    exact and_iff_left hnew
  refine ⟨hs.traced, hs.bound hn, hs.alongside, fun hf => ?_, fun hf => ?_⟩
  · have hold := hfair.mp hf
    rw [hs.past, hs.past', blocksAmong_mark, blocksAmong_mark, hn.same hold,
      hblock.resolve_right fun hlost => hlost hold]
  · have hlt := hn.short fun hold => hf (hfair.mpr hold)
    omega

/-- A step that loses a header: the plain walk gains on the wrapped one, and
outside any block they were even. -/
theorem lose (hn : Nested text seen w w' rest) (m m' : Option Mark)
    (hs : Step text seen s w w' v v' m m' rest')
    (hlost : ¬ OnOwnLines text v.past v'.past)
    (heven : w.zone.weight = 0 ∧ w'.zone.weight = 0)
    (hgain : v'.weight + w.weight < v.weight + w'.weight) :
    Nested text (seen ++ s) v v' rest' := by
  refine ⟨hs.traced, hs.bound hn, hs.alongside, fun hf => absurd hf hlost,
    fun _ => ?_⟩
  by_cases hold : OnOwnLines text w.past w'.past
  · have hweight : w.weight = w'.weight := by
      unfold Course.weight
      rw [hn.same hold, heven.1, heven.2]
    omega
  · have hlt := hn.short hold
    omega

/-- A character that both walks read. -/
theorem read (hn : Nested text seen w w' rest) (hs : s ≠ [])
    (htraced : Traced (seen ++ s) v) (hpast : v.past = w.past)
    (hpast' : v'.past = w'.past)
    (halong : Alongside (¬ OnOwnLines text w.past w'.past)
      (PackageClosed w'.past) v v' rest')
    (hgain : v'.zone.weight + w.zone.weight ≤ v.zone.weight + w'.zone.weight) :
    Nested text (seen ++ s) v v' rest' := by
  have hstep : Step text seen s w w' v v' none none rest' := by
    refine ⟨htraced, hs, by simp [hpast], by simp [hpast'], ?_⟩
    rw [hpast, hpast']
    exact halong
  refine hn.keep none none hstep (fun hm => by cases hm) (Or.inl rfl) ?_
  unfold Course.weight
  rw [hpast, hpast']
  omega

-- ---------------------------------------------------------- in lockstep

section lockstep

variable {quoted : Bool} {skip : Nat} {z z' : Zone}
  {past past' : List (Nat × Mark)}

theorem stepLockstep (hn : Nested text seen ⟨quoted, skip, z, past⟩
      ⟨quoted, skip, z', past'⟩ rest)
    (hz : Beside (¬ OnOwnLines text past past') (PackageClosed past') z z')
    {c : Char} (hc : c ≠ '\n') (cs : List Char) :
    Nested text (seen ++ [c])
      ((Course.mk quoted skip z past).step seen.length c cs)
      ((Course.mk quoted skip z' past').step
        (seen.length + packageHead.length) c cs) cs := by
  have htraced := hn.traced.step hc cs
  rcases @Course.step_together ⟨quoted, skip, z, past⟩ ⟨quoted, skip, z', past'⟩
      rfl rfl hz.isOutside_eq seen.length (seen.length + packageHead.length) c cs
    with ⟨quoted', skip', hread, hread'⟩ | ⟨hbrace, hmeet, hmeet'⟩
  · obtain ⟨hpush, hgain⟩ := hz.push c
    rw [hread] at htraced ⊢
    rw [hread']
    exact hn.read (by simp) htraced rfl rfl (.lockstep hpush) hgain
  · rw [hmeet] at htraced ⊢
    rw [hmeet']
    -- nothing opens while the package is open
    have hnew : (z.brace c).2 = some .opened → ∀ k,
        ¬ OpensInPackage text (past ++ [(seen.length, .opened)]) past' past
          seen.length k := by
      intro hm k hopens
      obtain ⟨p, rfl⟩ := Zone.exists_outside_of_opened hm
      cases hz with
      | outside hclosed _ =>
          obtain ⟨x, hx, hcloses⟩ := hclosed
          have hlt := hn.bound x hx
          have hle := hopens.packageOpen x hx hcloses
          omega
    let now := past ++ ((z.brace c).2.map (seen.length, ·)).toList
    let now' := past'
      ++ ((z'.brace c).2.map (seen.length + packageHead.length, ·)).toList
    have hlost : ¬ OnOwnLines text past past' → ¬ OnOwnLines text now now' :=
      fun hold hf => hold ((onOwnLines_append hn.traced.bound).mp hf).1
    have hclosing : ∀ m, (z'.brace c).2 = some m → m.closes = true →
        PackageClosed now' := by
      intro m hm hcloses
      refine ⟨(seen.length + packageHead.length, m), ?_, hcloses⟩
      show _ ∈ past' ++ ((z'.brace c).2.map _).toList
      rw [hm]
      exact List.mem_append_right _ (List.mem_singleton_self _)
    obtain ⟨hbeside, hmarks, hgain⟩ := hz.brace hbrace
      (¬ OnOwnLines text now now') (PackageClosed now') hlost
      (fun hclosed => hclosed.append _) hclosing
    refine hn.keep _ _ ⟨htraced, by simp, rfl, rfl, .lockstep hbeside⟩
      (fun hm k hopens => absurd hopens (hnew hm k)) ?_ ?_
    · exact hmarks.imp_left fun heq => congrArg (·.bind Mark.block?) heq
    · rw [weight_brace, weight_brace]
      unfold Course.weight
      simp only
      omega

end lockstep

-- ---------------------------------------------- outside, in the package

section apart

variable {p c : List Char} {past past' : List (Nat × Mark)}

theorem headerText_apart (hn : Nested text seen ⟨false, 0, .outside p, past⟩
      ⟨false, 0, .inside none c, past'⟩ rest) (htext : text = seen ++ s) :
    headerText text past seen.length = p.reverse := by
  rw [headerText_length htext]
  exact (hn.traced.pending p rfl).symm

/-- A brace behind a header text opens a block with its header, and only
with that. -/
theorem opens_iff (hn : Nested text seen ⟨false, 0, .outside p, past⟩
      ⟨false, 0, .inside none c, past'⟩ rest)
    (hopen : ¬ PackageClosed past') (htext : text = seen ++ s) (h : Header) :
    OpensInPackage text (past ++ [(seen.length, .opened)]) past' past seen.length h
      ↔ Header.find? p.reverse = some h := by
  rw [← hn.headerText_apart htext]
  exact ⟨fun ho => ho.header, fun hh => ⟨⟨[], rfl⟩,
    fun x hx hcloses => absurd ⟨x, hx, hcloses⟩ hopen, hh⟩⟩

theorem ownHeader?_eq (hn : Nested text seen ⟨false, 0, .outside p, past⟩
      ⟨false, 0, .inside none c, past'⟩ rest)
    (htext : text = seen ++ s) (hstop : sinceStop p = sinceStop c) :
    ownHeader? text past seen.length = Header.find? (Zone.lastLine c) := by
  unfold ownHeader?
  rw [hn.headerText_apart htext, lastPart_reverse, find?_lastLine, hstop,
    ← find?_lastLine]

theorem modifierWidth?_drop (htext : text = seen ++ ('\x7b' :: cs ++ '\n' :: more)) :
    modifierWidth? (text.drop (seen.length + 1)) = modifierWidth? cs := by
  have hsplit : text = (seen ++ ['\x7b']) ++ (cs ++ '\n' :: more) := by
    rw [htext]
    simp
  have hlength : seen.length + 1 = (seen ++ ['\x7b']).length := by simp
  rw [hlength, hsplit, List.drop_left, modifierWidth?_append_break]

/-- The plain walk opens a block without a header. -/
theorem openUnheaded (hn : Nested text seen ⟨false, 0, .outside p, past⟩
      ⟨false, 0, .inside none c, past'⟩ rest)
    (hopen : ¬ PackageClosed past') (htext : text = seen ++ s)
    (hfind : Header.find? p.reverse = none) {skip : Nat}
    (htraced : Traced (seen ++ ['\x7b']) ⟨false, 0, .inside none [],
      past ++ [(seen.length, .opened)]⟩)
    (halong : ∀ lost, Alongside lost (PackageClosed past')
      ⟨false, 0, .inside none [], past ++ [(seen.length, .opened)]⟩
      ⟨false, skip, .inside none ('\x7b' :: c), past'⟩ rest') :
    Nested text (seen ++ ['\x7b'])
      ⟨false, 0, .inside none [], past ++ [(seen.length, .opened)]⟩
      ⟨false, skip, .inside none ('\x7b' :: c), past'⟩ rest' := by
  refine hn.keep (some .opened) none
    ⟨htraced, by simp, rfl, by simp, halong _⟩ ?_ (Or.inl rfl) ?_
  · intro _ h hopens
    rw [hn.opens_iff hopen htext, hfind] at hopens
    cases hopens
  · rw [weight_opened]
    simp only [Course.weight, Zone.weight]
    omega

/-- The plain walk opens a block with a header that the wrapped one does not
find. -/
theorem openLost (hn : Nested text seen ⟨false, 0, .outside p, past⟩
      ⟨false, 0, .inside none c, past'⟩ rest)
    (hopen : ¬ PackageClosed past') (htext : text = seen ++ s) {h : Header}
    (hfind : Header.find? p.reverse = some h)
    (hlost : ¬ KeepsHeader text past seen.length) {skip : Nat}
    (htraced : Traced (seen ++ ['\x7b']) ⟨false, 0, .inside (some h) [],
      past ++ [(seen.length, .opened)]⟩)
    (halong : ∀ lost : Prop, lost → Alongside lost (PackageClosed past')
      ⟨false, 0, .inside (some h) [], past ++ [(seen.length, .opened)]⟩
      ⟨false, skip, .inside none ('\x7b' :: c), past'⟩ rest') :
    Nested text (seen ++ ['\x7b'])
      ⟨false, 0, .inside (some h) [], past ++ [(seen.length, .opened)]⟩
      ⟨false, skip, .inside none ('\x7b' :: c), past'⟩ rest' := by
  have hfair : ¬ OnOwnLines text (past ++ [(seen.length, .opened)]) past' := by
    intro hf
    exact hlost (hf past seen.length h ((hn.opens_iff hopen htext h).mpr hfind))
  refine hn.lose (some .opened) none
    ⟨htraced, by simp, rfl, by simp, halong _ hfair⟩ hfair ⟨rfl, rfl⟩ ?_
  rw [weight_opened]
  simp only [Course.weight, Zone.weight, List.length_nil]
  omega

/-- Both walks find the header. -/
theorem openHeaded (hn : Nested text seen ⟨false, 0, .outside p, past⟩
      ⟨false, 0, .inside none c, past'⟩ rest)
    {h : Header}
    (hkeeps : KeepsHeader text past seen.length)
    (htraced : Traced (seen ++ ['\x7b']) ⟨false, 0, .inside (some h) [],
      past ++ [(seen.length, .opened)]⟩) :
    Nested text (seen ++ ['\x7b'])
      ⟨false, 0, .inside (some h) [], past ++ [(seen.length, .opened)]⟩
      ⟨false, 0, .inside (some h) [],
        past' ++ [(seen.length + packageHead.length, .reopened)]⟩ rest' := by
  refine hn.keep (some .opened) (some .reopened)
    ⟨htraced, by simp, rfl, rfl, .lockstep .headed⟩ (fun _ _ _ => hkeeps)
    (Or.inl rfl) ?_
  rw [weight_opened, weight_reopened]
  simp only [Course.weight, Zone.weight, List.length_nil]
  omega

/-- An opening brace that starts a modifier: it opens a block of the text alone. -/
theorem openModifier {width : Nat} (hn : Nested text seen ⟨false, 0, .outside p, past⟩
      ⟨false, 0, .inside none c, past'⟩ ('\x7b' :: cs))
    (hopen : ¬ PackageClosed past')
    (htext : text = seen ++ ('\x7b' :: cs ++ '\n' :: more))
    (hwidth : modifierWidth? cs = some width)
    (htraced : Traced (seen ++ ['\x7b'])
      ⟨false, 0, .inside (Header.find? p.reverse) [], past ++ [(seen.length, .opened)]⟩) :
    Nested text (seen ++ ['\x7b'])
      ⟨false, 0, .inside (Header.find? p.reverse) [], past ++ [(seen.length, .opened)]⟩
      ((Course.mk false 0 (.inside none c) past').step
        (seen.length + packageHead.length) '\x7b' cs) cs := by
  have hmod := modifierWidth?_drop htext
  obtain ⟨word, r, -, hword, rfl, rfl⟩ := modifierWidth?_eq_some.mp hwidth
  have hread : scanStep false 0 false '\x7b' (word ++ '\x7d' :: r)
      = some (false, word.length + 1) := by
    simp [scanStep, hwidth, Header.isBrace]
  rw [Course.step_of_read hread]
  cases hfind : Header.find? p.reverse with
  | none =>
      rw [hfind] at htraced
      exact hn.openUnheaded hopen htext hfind htraced fun lost =>
        .group hopen (Or.inl rfl) hword
  | some h =>
      rw [hfind] at htraced
      refine hn.openLost hopen htext hfind ?_ htraced fun lost hlost =>
        .group hopen (Or.inr hlost) hword
      unfold KeepsHeader
      rw [hmod, hwidth]
      simp

/-- An opening brace. -/
theorem openApart (hn : Nested text seen ⟨false, 0, .outside p, past⟩
      ⟨false, 0, .inside none c, past'⟩ ('\x7b' :: cs))
    (hopen : ¬ PackageClosed past') (hstop : sinceStop p = sinceStop c)
    (htext : text = seen ++ ('\x7b' :: cs ++ '\n' :: more))
    (hclear : ∀ h, OpensInPackage text (past ++ [(seen.length, .opened)]) past'
        past seen.length h →
      ∀ h', ownHeader? text past seen.length = some h' → h' = h) :
    Nested text (seen ++ ['\x7b'])
      ((Course.mk false 0 (.outside p) past).step seen.length '\x7b' cs)
      ((Course.mk false 0 (.inside none c) past').step
        (seen.length + packageHead.length) '\x7b' cs) cs := by
  have hown := hn.ownHeader?_eq htext hstop
  have htraced := hn.traced.step (c := '\x7b') (by decide) cs
  have hstep : (Course.mk false 0 (.outside p) past).step seen.length '\x7b' cs
      = ⟨false, 0, .inside (Header.find? p.reverse) [],
        past ++ [(seen.length, .opened)]⟩ := Course.step_of_brace rfl _
  rw [hstep] at htraced ⊢
  cases hwidth : modifierWidth? cs with
  | some width => exact hn.openModifier hopen htext hwidth htraced
  | none =>
      have hbrace : scanStep false 0 false '\x7b' cs = none := by
        simp [scanStep, hwidth, Header.isBrace]
      rw [Course.step_of_brace hbrace]
      simp only
      cases hfind : Header.find? p.reverse with
      | none =>
          rw [hfind] at htraced
          have hnone : Header.find? (Zone.lastLine c) = none := by
            rw [find?_lastLine, ← hstop, ← find?_lastLine]
            exact find?_lastLine_eq_none hfind
          rw [Zone.brace_unheaded_open hnone]
          simp only [Option.map_none, Option.toList_none, List.append_nil]
          exact hn.openUnheaded hopen htext hfind htraced fun lost =>
            .lockstep (.unheaded (sinceStop_brace (by decide) c).symm)
      | some h =>
          rw [hfind] at htraced
          cases hline : Header.find? (Zone.lastLine c) with
          | none =>
              rw [Zone.brace_unheaded_open hline]
              simp only [Option.map_none, Option.toList_none, List.append_nil]
              refine hn.openLost hopen htext hfind ?_ htraced fun lost hlost =>
                .lockstep (.ahead hlost)
              unfold KeepsHeader
              rw [hown, hline]
              simp
          | some h' =>
              have hsame : h' = h := hclear h ((hn.opens_iff hopen htext h).mpr hfind)
                h' (hown.trans hline)
              rw [Zone.brace_unheaded_reopen hline, hsame]
              refine hn.openHeaded ⟨?_, (modifierWidth?_drop htext).trans hwidth⟩ htraced
              rw [hown, hline]
              rfl

/-- A character before any block of the text, or between two of them. -/
theorem stepApart {quoted : Bool} (hn : Nested text seen
      ⟨quoted, 0, .outside p, past⟩ ⟨quoted, 0, .inside none c, past'⟩ (d :: cs))
    (hopen : ¬ PackageClosed past') (hstop : sinceStop p = sinceStop c)
    (hd : d ≠ '\n') (htext : text = seen ++ (d :: cs ++ '\n' :: more))
    (hclear : OwnLinesAgree text
      ((Course.mk quoted 0 (.outside p) past).step seen.length d cs).past
      ((Course.mk quoted 0 (.inside none c) past').step
        (seen.length + packageHead.length) d cs).past) :
    Nested text (seen ++ [d])
      ((Course.mk quoted 0 (.outside p) past).step seen.length d cs)
      ((Course.mk quoted 0 (.inside none c) past').step
        (seen.length + packageHead.length) d cs) cs := by
  have htraced := hn.traced.step hd cs
  rcases scanStep_zero quoted d cs with ⟨quoted', hread⟩ | ⟨rfl, hbrace, hstep⟩
  · rw [Course.step_of_read (hread _)] at htraced ⊢
    rw [Course.step_of_read (hread _)]
    exact hn.read (by simp) htraced rfl rfl
      (.apart hopen (sinceStop_cons_congr hstop d)) (Nat.le_refl _)
  · rcases eq_of_isBrace hbrace with rfl | rfl
    · refine hn.openApart hopen hstop htext fun h hopens => ?_
      obtain ⟨m', hpast'⟩ := Course.exists_past_step
        ⟨false, 0, .inside none c, past'⟩ (seen.length + packageHead.length)
        '\x7b' cs
      rw [hpast'] at hclear
      exact hclear _ _ h ((opensInPackage_append hn.traced.bound).mpr
        (Or.inr ⟨rfl, rfl, rfl, hopens⟩))
    · -- a stray brace closes the package
      rw [Course.step_of_brace (hstep true)] at htraced ⊢
      rw [Course.step_of_brace (hstep false)]
      refine hn.keep none (some .discarded)
        ⟨htraced, by simp, rfl, rfl, .lockstep (.outside ?_ ?_)⟩
        (fun hm => by cases hm) (Or.inl rfl) ?_
      · exact ⟨_, List.mem_append_right _ (List.mem_singleton_self _), rfl⟩
      · exact sinceBrace_brace hbrace p
      · rw [weight_brace, weight_brace, weight_closeBrace]
        exact Nat.le_of_eq (Nat.add_comm _ _)

end apart

-- --------------------------------------------- a word between braces

/-- A character of what the plain walk reads as a block and the wrapped one
passes as a word between braces. -/
theorem stepGroup {header : Option Header} {c c' word r : List Char}
    {past past' : List (Nat × Mark)}
    (hn : Nested text seen ⟨false, 0, .inside header c, past⟩
      ⟨false, word.length + 1, .inside none c', past'⟩ (d :: cs))
    (hopen : ¬ PackageClosed past')
    (hheader : header = none ∨ ¬ OnOwnLines text past past')
    (hword : ∀ e ∈ word, isWord e = true) (hrest : d :: cs = word ++ '\x7d' :: r)
    (hd : d ≠ '\n') :
    Nested text (seen ++ [d])
      ((Course.mk false 0 (.inside header c) past).step seen.length d cs)
      ((Course.mk false (word.length + 1) (.inside none c') past').step
        (seen.length + packageHead.length) d cs) cs := by
  have htraced := hn.traced.step hd cs
  rw [Course.step_of_read (w := ⟨false, word.length + 1, .inside none c', past'⟩) rfl]
  cases word with
  | cons e word =>
      injection hrest with hde hcs
      subst hde hcs
      have hdword := hword d (List.mem_cons_self ..)
      have hplain : scanStep false 0 false d (word ++ '\x7d' :: r) = some (false, 0) :=
        scanStep_plain (ne_of_isWord hdword (by decide))
          (Header.isBrace_of_isBracket (isBracket_of_isWord hdword)) _ _ _
      rw [Course.step_of_read hplain] at htraced ⊢
      refine hn.read (by simp) htraced rfl rfl
        (.group hopen hheader fun e he => hword e (List.mem_cons_of_mem _ he)) ?_
      cases header <;> simp only [Zone.push, Zone.weight, List.length_cons] <;> omega
  | nil =>
      injection hrest with hde hcs
      subst hde hcs
      have hbrace : scanStep false 0 false '\x7d' cs = none := rfl
      rw [Course.step_of_brace hbrace] at htraced ⊢
      have hnew : ((Zone.inside header c).brace '\x7d').2 ≠ some .opened := by
        intro h
        obtain ⟨p, hp⟩ := Zone.exists_outside_of_opened h
        cases hp
      refine hn.keep _ none ⟨htraced, by simp, rfl, by simp, ?_⟩
        (fun hm => absurd hm hnew) ?_ ?_
      · cases header <;> exact .apart hopen (sinceStop_brace (by decide) c').symm
      · exact hheader.imp_left fun hnone => by rw [hnone]; rfl
      · have hweight := weight_closeBrace header c
        rw [weight_brace, hweight]
        exact Nat.le_of_eq (Nat.add_comm _ _)

-- ------------------------------------------------------------ any step

theorem step (hn : Nested text seen w w' (d :: cs)) (hd : d ≠ '\n')
    (htext : text = seen ++ (d :: cs ++ '\n' :: more))
    (hclear : OwnLinesAgree text (w.step seen.length d cs).past
      (w'.step (seen.length + packageHead.length) d cs).past) :
    Nested text (seen ++ [d]) (w.step seen.length d cs)
      (w'.step (seen.length + packageHead.length) d cs) cs := by
  have halong := hn.alongside
  generalize hrest : d :: cs = rest at halong
  cases halong with
  | lockstep hz => exact hn.stepLockstep hz hd cs
  | apart hopen hstop => exact hn.stepApart hopen hstop hd htext hclear
  | group hopen hheader hword =>
      exact hn.stepGroup hopen hheader hword hrest hd

/-- A line that begins. -/
theorem start (hn : Nested text seen w w' rest) (hrest : rest = [])
    (line : List Char) :
    Nested text seen w w' line := by
  refine ⟨hn.traced, hn.bound, ?_, hn.same, hn.short⟩
  have halong := hn.alongside
  cases halong with
  | lockstep hz => exact .lockstep hz
  | apart hopen hstop => exact .apart hopen hstop
  | group hopen hheader hword => exact absurd hrest (by simp)

/-- The end of a line that is no comment. -/
theorem newLine (hn : Nested text seen w w' rest) (hrest : rest = [])
    (hline : isComment (lastPart seen) = false) :
    Nested text (seen ++ ['\n']) w.newLine w'.newLine [] := by
  have htraced := hn.traced.newLine hline
  have halong := hn.alongside
  cases halong with
  | lockstep hz =>
      obtain ⟨hpush, hgain⟩ := hz.push '\n'
      exact hn.read (by simp) htraced rfl rfl (.lockstep hpush) hgain
  | apart hopen hstop =>
      exact hn.read (by simp) htraced rfl rfl
        (.apart hopen (sinceStop_cons_congr hstop '\n')) (Nat.le_refl _)
  | group hopen hheader hword => exact absurd hrest (by simp)

/-- A comment line. -/
theorem passComment (hn : Nested text seen w w' rest) (hrest : rest = [])
    {line : List Char}
    (hseen : lastPart seen = []) (hline : '\n' ∉ line)
    (hcomment : isComment line = true) :
    Nested text (seen ++ (line ++ ['\n'])) (w.passComment line).newLine
      (w'.passComment line).newLine [] := by
  have htraced := hn.traced.passComment hseen hline hcomment
  have halong := hn.alongside
  cases halong with
  | lockstep hz =>
      obtain ⟨hpass, hgain⟩ := hz.passComment line
      exact hn.read (by simp) htraced rfl rfl (.lockstep hpass) hgain
  | @apart _ _ c _ _ _ hopen hstop =>
      refine hn.read (by simp) htraced rfl rfl (.apart hopen ?_) (Nat.le_refl _)
      exact (sinceStop_break (line.reverse ++ c)).symm ▸ sinceStop_break []
  | group hopen hheader hword => exact absurd hrest (by simp)

end Nested

/-- The comparison holds on, as long as no opening has two headers. -/
theorem nested_sideBySide (text : List Char) (marks : List (Nat × Mark)) :
    SideBySide text marks packageHead.length
      (fun seen w w' => Traced seen w
        ∧ (OwnLinesAgree text w.past w'.past → Nested text seen w w' []))
      (fun seen w w' rest => Traced seen w
        ∧ (OwnLinesAgree text w.past w'.past → Nested text seen w w' rest)) where
  start _ _ _ line _ h := ⟨h.1, fun hclear => (h.2 hclear).start rfl line⟩
  step seen w w' c cs more htext hc _ h := by
    refine ⟨h.1.step hc cs, fun hclear => ?_⟩
    refine (h.2 ?_).step hc htext hclear
    obtain ⟨m, hpast⟩ := w.exists_past_step seen.length c cs
    obtain ⟨m', hpast'⟩ :=
      w'.exists_past_step (seen.length + packageHead.length) c cs
    rw [hpast, hpast'] at hclear
    exact hclear.of_append h.1.bound
  finish _ _ _ hline h :=
    ⟨h.1.newLine hline, fun hclear => (h.2 hclear).newLine rfl hline⟩
  comment _ _ _ _ hseen hline hcomment h :=
    ⟨h.1.passComment hseen hline hcomment,
      fun hclear => (h.2 hclear).passComment rfl hseen hline hcomment⟩

end comparison

end ApiScaffold
