/-
Packages. Wrapping a text in a block without a header changes none of its
blocks as long as the braces that open them while the package is open find
their headers on their own lines, and changes them as soon as one does not
(`blocksIn_inPackage_iff`). The proof walks into the package, over the lines
of the text side by side with the plain walk, and out again.
-/
import ApiScaffold.Proofs.Diagram.Nested

namespace ApiScaffold

-- ============================================================ the package

/-- The lines of a text in its package. -/
theorem lines_inPackage (text : List Char) :
    lines (inPackage text)
      = "package P \x7b".toList :: (lines text ++ [['\x7d'], []]) := by
  have hsplit : inPackage text
      = "package P \x7b".toList ++ '\n' :: (text ++ '\n' :: ['\x7d', '\n']) := by
    show "package P \x7b\n".toList ++ text ++ "\n\x7d\n".toList = _
    simp
  have hhead : '\n' ∉ "package P \x7b".toList := by decide +kernel
  have htail : pieces '\n' ['\x7d', '\n'] = [['\x7d'], []] := by decide
  rw [hsplit]
  unfold lines
  rw [pieces_append_cons hhead, pieces_append_sep_cons, htail]

/-- Behind the first line the walk stands in the package. -/
theorem scanLine_packageHead :
    scanLine 0 (.outside []) "package P \x7b".toList
      = (.inside none [], [(10, .opened)]) := by
  decide +kernel

/-- A walk that has come into the package. -/
def packageStart : Course := ⟨false, 0, .inside none ['\n'], [(10, .opened)]⟩

theorem runLines_packageHead (ls : List (List Char)) :
    (Course.mk false 0 (.outside []) []).runLines 0 ("package P \x7b".toList :: ls)
      = packageStart.runLines packageHead.length ls := by
  have hlength : 0 + "package P \x7b".toList.length + 1 = packageHead.length := by
    decide +kernel
  unfold packageStart
  rw [Course.runLines_start, scanLines_cons, scanLine_packageHead, hlength,
    Course.runLines_start]
  rfl

/-- The line that closes the package. -/
theorem runLines_packageEnd (zone : Zone) (past : List (Nat × Mark))
    (offset : Nat) :
    ((Course.mk false 0 zone past).runLines offset [['\x7d'], []]).past
      = past ++ ((zone.brace '\x7d').2.map (offset, ·)).toList := by
  have hbrace : scanStep false 0 zone.isOutside '\x7d' [] = none := rfl
  show ((Course.mk false 0 zone past).step offset '\x7d' []).past = _
  rw [Course.step_of_brace hbrace]

/-- The walk over the lines of a text, begun in the package. -/
def packageWalk (text : List Char) : Course :=
  packageStart.runLines packageHead.length (lines text)

/-- The walk over a text in its package ends with the brace behind it. -/
theorem scanText_inPackage (text : List Char) :
    (scanText (inPackage text)).2
      = (packageWalk text).past ++ (((packageWalk text).zone.brace '\x7d').2.map
        ((text ++ ['\n']).length + packageHead.length, ·)).toList := by
  have hwalk := congrArg Course.past (Course.runLines_text (inPackage text))
  rw [lines_inPackage, runLines_packageHead, Course.runLines_append, flatMap_lines,
    Nat.add_comm] at hwalk
  unfold packageWalk
  unfold packageStart at hwalk ⊢
  rw [Course.runLines_start] at hwalk ⊢
  rw [runLines_packageEnd] at hwalk
  exact hwalk.symm

theorem nested_start (text : List Char) :
    Nested text [] ⟨false, 0, .outside [], []⟩ packageStart [] where
  traced := traced_start
  bound m hm := by
    rw [List.mem_singleton.mp hm]
    decide +kernel
  alongside := by
    refine .apart ?_ (sinceStop_break []).symm
    rintro ⟨m, hm, hcloses⟩
    rw [List.mem_singleton.mp hm] at hcloses
    cases hcloses
  same _ := rfl
  short hlost := by
    refine absurd (fun before i h ho => ?_) hlost
    obtain ⟨after, hsplit⟩ := ho.opened
    exact absurd hsplit.symm (List.append_ne_nil_of_right_ne_nil _
      (List.cons_ne_nil _ _))

/-- The walks over a text, in its package and without, side by side. -/
theorem nested_packageWalk (text : List Char) :
    Traced (text ++ ['\n']) ⟨false, 0, (scanText text).1, (scanText text).2⟩
      ∧ (OwnLinesAgree (text ++ ['\n']) (scanText text).2 (packageWalk text).past →
        Nested (text ++ ['\n']) (text ++ ['\n'])
          ⟨false, 0, (scanText text).1, (scanText text).2⟩ (packageWalk text) []) := by
  have hwalk := Course.runLines_text text
  have htext : text ++ ['\n'] = [] ++ (lines text).flatMap (· ++ ['\n']) :=
    (flatMap_lines text).symm
  have hrun := (nested_sideBySide (text ++ ['\n']) (scanText text).2).runLines
    ⟨traced_start, fun _ => nested_start _⟩ htext rfl
    (fun l hl => not_mem_of_mem_pieces hl)
    ⟨[], by rw [List.append_nil, List.length_nil, hwalk]⟩
  rw [List.length_nil, hwalk, Nat.zero_add] at hrun
  exact hrun

/-- Where the plain walk has come outside any block, the brace behind the
text closes no block with a header. -/
theorem Alongside.block?_packageEnd {lost closed : Prop} {w w' : Course}
    {rest : List Char} (h : Alongside lost closed w w' rest) (hrest : rest = [])
    (hend : w.zone.isOutside = true) :
    (w'.zone.brace '\x7d').2.bind Mark.block? = none := by
  cases h with
  | lockstep hz =>
      cases hz with
      | outside => rfl
      | unheaded => cases hend
      | headed => cases hend
      | ahead => cases hend
  | apart => rfl
  | group => cases hend

-- ------------------------------------------------- the last line break

section lineBreak

variable {text : List Char} {marks packaged before : List (Nat × Mark)} {i : Nat}
  {h : Header}

theorem OpensInPackage.le_length {t : List Char}
    (ho : OpensInPackage t marks packaged before i h)
    (hbound : ∀ m ∈ marks, m.1 < (text ++ ['\n']).length) : i ≤ text.length := by
  obtain ⟨after, hsplit⟩ := ho.opened
  have hlt := hbound (i, .opened) (by simp [hsplit])
  rw [List.length_append, List.length_singleton] at hlt
  omega

/-- The line break that is read after the last line makes no difference to
the openings of a text. -/
theorem opensInPackage_append_break
    (hbound : ∀ m ∈ marks, m.1 < (text ++ ['\n']).length) :
    OpensInPackage (text ++ ['\n']) marks packaged before i h
      ↔ OpensInPackage text marks packaged before i h := by
  constructor
  · intro ho
    have hheader := ho.header
    rw [headerText_append_break (ho.le_length hbound)] at hheader
    exact ⟨ho.opened, ho.packageOpen, hheader⟩
  · intro ho
    have hheader := ho.header
    rw [← headerText_append_break (ho.le_length hbound)] at hheader
    exact ⟨ho.opened, ho.packageOpen, hheader⟩

theorem ownHeader?_append_break (hi : i ≤ text.length)
    (before : List (Nat × Mark)) :
    ownHeader? (text ++ ['\n']) before i = ownHeader? text before i := by
  unfold ownHeader?
  rw [headerText_append_break hi]

theorem modifierWidth?_drop_append_break (text : List Char) (n : Nat) :
    modifierWidth? ((text ++ ['\n']).drop n) = modifierWidth? (text.drop n) := by
  rw [List.drop_append]
  refine modifierWidth?_append_blanks (fun c hc => ?_) _
  rw [List.mem_singleton.mp (List.mem_of_mem_drop hc)]
  decide

theorem keepsHeader_append_break (hi : i ≤ text.length)
    (before : List (Nat × Mark)) :
    KeepsHeader (text ++ ['\n']) before i ↔ KeepsHeader text before i := by
  unfold KeepsHeader
  rw [ownHeader?_append_break hi, modifierWidth?_drop_append_break]

end lineBreak

/-- Wrapping a text changes none of its blocks exactly when every brace that
opens a block with a header while the package is open has that header on its
own line and is not the first of a word between braces. -/
theorem blocksIn_inPackage_iff {text : List Char}
    (hend : (scanText text).1.isOutside = true)
    (hagree : OwnLinesAgree text (scanText text).2 (scanText (inPackage text)).2) :
    blocksIn (inPackage text) = blocksIn text
      ↔ OnOwnLines text (scanText text).2 (scanText (inPackage text)).2 := by
  obtain ⟨htraced, hnested⟩ := nested_packageWalk text
  have hpackaged := scanText_inPackage text
  -- the openings are those that the walks have met
  have hopens : ∀ before i h,
      OpensInPackage text (scanText text).2 (scanText (inPackage text)).2 before i h
        ↔ OpensInPackage (text ++ ['\n']) (scanText text).2 (packageWalk text).past
          before i h := by
    intro before i h
    rw [hpackaged, ← opensInPackage_append_break htraced.bound]
    exact opensInPackage_closing htraced.bound
  have hlines : OnOwnLines text (scanText text).2 (scanText (inPackage text)).2
      ↔ OnOwnLines (text ++ ['\n']) (scanText text).2 (packageWalk text).past := by
    unfold OnOwnLines
    refine forall_congr' fun before => forall_congr' fun i => forall_congr' fun h => ?_
    rw [hopens]
    exact forall_congr' fun ho =>
      (keepsHeader_append_break (ho.le_length htraced.bound) before).symm
  have hrun := hnested fun before i h ho h' hh' =>
    hagree before i h ((hopens before i h).mpr ho) h'
      (ownHeader?_append_break (ho.le_length htraced.bound) before ▸ hh')
  have hblocks : blocksIn (inPackage text) = blocksAmong (packageWalk text).past := by
    show blocksAmong (scanText (inPackage text)).2 = _
    rw [hpackaged, blocksAmong_mark, hrun.alongside.block?_packageEnd rfl hend]
    exact List.append_nil _
  rw [hblocks, hlines]
  refine ⟨fun heq => ?_, fun hf => (hrun.same hf).symm⟩
  by_contra hlost
  have hshort : (packageWalk text).weight
      < weightOf (blocksIn text) + (scanText text).1.weight := hrun.short hlost
  have hzone : (scanText text).1.weight = 0 := by
    cases hz : (scanText text).1 with
    | outside p => rfl
    | inside header content => rw [hz] at hend; cases hend
  rw [← heq, hzone] at hshort
  unfold Course.weight at hshort
  omega

/-- A class that closes the package with its own brace, and one behind it
whose brace is on the next line. -/
theorem blocksIn_inPackage_of_two_classes :
    let text := "class A \x7b\n\x7d\nclass B\n\x7b\n\x7d\n".toList
    blocksIn (inPackage text) = blocksIn text
      ∧ blocksIn text = [⟨.classBlock, ['A'], ['\n']⟩, ⟨.classBlock, ['B'], ['\n']⟩] := by
  intro text
  have hmarks : (scanText text).2
      = [(8, .opened), (10, .closed ⟨.classBlock, ['A'], ['\n']⟩), (20, .opened),
        (22, .closed ⟨.classBlock, ['B'], ['\n']⟩)] := by
    decide +kernel
  have hclosed : (22, Mark.closed ⟨.classBlock, ['A'], ['\n']⟩)
      ∈ (scanText (inPackage text)).2 := by
    decide +kernel
  -- the second brace is met when the package is closed
  have hfirst : ∀ before i h,
      OpensInPackage text (scanText text).2 (scanText (inPackage text)).2 before i h →
        before = [] ∧ i = 8 ∧ h = ⟨.classBlock, ['A']⟩ := by
    intro before i h ho
    obtain ⟨after, hsplit⟩ := ho.opened
    have hle := ho.packageOpen _ hclosed rfl
    have hlength : packageHead.length = 12 := by decide +kernel
    have hfind := ho.header
    rw [hmarks] at hsplit
    rcases before with _ | ⟨b, _ | ⟨b', _ | ⟨b'', before⟩⟩⟩
    · injection hsplit with hi
      injection hi with hi
      subst hi
      have hheader : Header.find? (headerText text [] 8)
          = some ⟨.classBlock, ['A']⟩ := by
        decide +kernel
      rw [hheader] at hfind
      exact ⟨rfl, rfl, by injection hfind with hfind; exact hfind.symm⟩
    · simp at hsplit
    · simp only [List.cons_append, List.nil_append, List.cons.injEq,
        Prod.mk.injEq] at hsplit
      obtain ⟨-, -, ⟨hi, -⟩, -⟩ := hsplit
      omega
    · cases before <;> simp at hsplit
  refine ⟨(blocksIn_inPackage_iff (by decide +kernel) fun before i h ho h' hh' => ?_).mpr
    fun before i h ho => ?_, by decide +kernel⟩
  · obtain ⟨rfl, rfl, rfl⟩ := hfirst before i h ho
    have hown : ownHeader? text [] 8 = some ⟨.classBlock, ['A']⟩ := by decide +kernel
    rw [hown] at hh'
    injection hh' with hh'
    exact hh'.symm
  · obtain ⟨rfl, rfl, rfl⟩ := hfirst before i h ho
    exact ⟨by decide +kernel, by decide +kernel⟩

/-- A header on the line before its brace is found at the top of a text and
not in a package. -/
theorem next_line_brace_in_package :
    let text := "class A\n\x7b\n\x7d\n".toList
    (scanText text).1.isOutside = true
      ∧ blocksIn text = [⟨.classBlock, ['A'], ['\n']⟩]
      ∧ blocksIn (inPackage text) = [] := by
  decide +kernel

end ApiScaffold
