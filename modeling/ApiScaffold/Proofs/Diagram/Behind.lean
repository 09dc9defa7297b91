/-
Texts one behind the other. A text that ends with a line break, outside any
block and with no keyword waiting for a brace, hands nothing on to the text
behind it: the two give the blocks and the diagram of the first, and then
those of the second (`Diagram.parse_append`).

What could be handed on is the text in which the next header is looked for
(`pendingText`). The walk over the second text alone and the one that comes
to it from the first are compared side by side. Until a block is opened they
differ in that text, afterwards in nothing but the blocks read before
(`Behind`); and a header that starts in the pending text has its keyword in
it, as a whole word (`find?_append_of_keywordFree`).
-/
import ApiScaffold.Proofs.Diagram.CommentLine

namespace ApiScaffold

-- =================================================== statement vocabulary

/-- A word stands in a text, with no identifier character right before or
after it. -/
def HoldsWord (word s : List Char) : Prop :=
  ∃ before after, s = before ++ (word ++ after)
    ∧ (∀ c ∈ before.getLast?, isWord c = false)
    ∧ ∀ c ∈ after.head?, isWord c = false

/-- None of the keywords stands in a text as a word. -/
def KeywordFree (s : List Char) : Prop :=
  ∀ k ∈ Keyword.all, ¬ HoldsWord k.text.toList s

/-- The end of a text in which the header of a brace behind it would be
looked for. -/
def pendingText (text : List Char) : List Char :=
  headerText text (scanText text).2 text.length

/-- The parts of a diagram, each followed by those of another one. -/
def Diagram.followedBy (d d' : Diagram) : Diagram where
  classes := d.classes ++ d'.classes
  interfaces := d.interfaces ++ d'.interfaces
  enums := d.enums ++ d'.enums
  relations := d.relations ++ d'.relations

/-- Whether a word stands at an offset of a text. -/
def standsAt (word s : List Char) (i : Nat) : Bool :=
  word.isPrefixOf (s.drop i) && (s.take i).getLast?.all (!isWord ·)
    && ((s.drop i).drop word.length).head?.all (!isWord ·)

/-- Whether a word stands in a text is found out offset by offset. -/
theorem holdsWord_iff {word s : List Char} :
    HoldsWord word s ↔ (List.range (s.length + 1)).any (standsAt word s) = true := by
  have hall : ∀ o : Option Char, o.all (!isWord ·) = true
      ↔ ∀ c ∈ o, isWord c = false := by
    intro o
    cases o <;> simp
  unfold standsAt
  simp only [List.any_eq_true, List.mem_range, Bool.and_eq_true,
    List.isPrefixOf_iff_prefix, hall]
  constructor
  · rintro ⟨before, after, rfl, hbefore, hafter⟩
    refine ⟨before.length, ?_, ?_⟩
    · rw [List.length_append]
      omega
    · rw [List.drop_left, List.take_left, List.drop_left]
      exact ⟨⟨List.prefix_append _ _, hbefore⟩, hafter⟩
  · rintro ⟨i, -, ⟨⟨after, hword⟩, hbefore⟩, hafter⟩
    refine ⟨s.take i, after, ?_, hbefore, ?_⟩
    · rw [hword, List.take_append_drop]
    · rwa [← hword, List.drop_left] at hafter

instance (word s : List Char) : Decidable (HoldsWord word s) :=
  decidable_of_iff _ holdsWord_iff.symm

instance (s : List Char) : Decidable (KeywordFree s) :=
  inferInstanceAs (Decidable (∀ k ∈ Keyword.all, ¬ HoldsWord k.text.toList s))

-- ================================================================ headers

/-- A header that starts within a text that ends in a blank has its keyword
in it. -/
theorem holdsWord_of_whole? {s t : List Char} {h : Header} (hs : BlankEnd s)
    (hh : Header.whole? (s ++ t) = some h) {front : List Char}
    (hfront : ∀ c ∈ front.getLast?, isWord c = false) :
    HoldsWord h.keyword.text.toList (front ++ s) := by
  obtain ⟨d, u, hsplit, ⟨⟨gap, space, generics, rfl, hgap, hne, -⟩, -⟩, -⟩ :=
    exists_declares_of_whole? hh
  obtain ⟨b, gap, rfl⟩ := List.exists_cons_of_ne_nil hne
  rw [List.append_assoc] at hsplit
  obtain ⟨after, rfl, -, hafter⟩ := hs.cut_ink (Header.allInk_text _) hsplit
  refine ⟨front, after, rfl, hfront, fun c hc => ?_⟩
  obtain ⟨r, rfl⟩ := List.head?_eq_some_iff.mp hc
  injection hafter with hcb _
  rw [hcb]
  exact isWord_of_isBlank (hgap b (List.mem_cons_self ..))

/-- Without keywords a text in front makes no difference to a header, if no
identifier runs on from it. -/
theorem find?_append_of_keywordFree {x : List Char} (hx : x = [] ∨ BlankEnd x)
    (hfree : KeywordFree x) (s : List Char) :
    Header.find? (x ++ s) = Header.find? s := by
  rcases findFrom?_append s false (hx.imp_left fun hnil => ⟨hnil, rfl⟩)
    with hfind | ⟨h, front, y, -, rfl, hy, hwhole, -, hfront⟩
  · exact hfind
  · have hblank : BlankEnd y := (hx.resolve_left fun hnil =>
      hy (List.append_eq_nil_iff.mp hnil).2).of_append hy
    have hkeyword : h.keyword ∈ Keyword.all := by cases h.keyword <;> decide
    exact absurd (holdsWord_of_whole? hblank hwhole hfront) (hfree _ hkeyword)

-- ============================================================== the walks

/-- How the zones of a walk over a text and of one that comes to it from
another text stand to each other; `pending` is what the other text has left
in front. -/
inductive BehindZones (pending : List Char) : Zone → Zone → Prop
  | waiting {p : List Char} :
      BehindZones pending (.outside p) (.outside (p ++ pending))
  | same {z : Zone} : BehindZones pending z z

/-- A walk over a text and one that comes to it from another text, whose
blocks it has read before. -/
structure Behind (blocks : List Block) (pending : List Char) (w w' : Course) :
    Prop where
  quoted : w.quoted = w'.quoted
  skip : w.skip = w'.skip
  zones : BehindZones pending w.zone w'.zone
  blocks : blocksAmong w'.past = blocks ++ blocksAmong w.past

namespace BehindZones

variable {pending : List Char} {z z' : Zone}

/-- The two walks are outside any block alike. -/
theorem isOutside_eq (hz : BehindZones pending z z') :
    z.isOutside = z'.isOutside := by
  cases hz <;> rfl

/-- The two zones stay so over a character that both take. -/
theorem push (hz : BehindZones pending z z') (c : Char) :
    BehindZones pending (z.push c) (z'.push c) := by
  cases hz with
  | @waiting p => exact .waiting (p := c :: p)
  | same => exact .same

/-- A comment line takes away what is left in front. -/
theorem passComment (hz : BehindZones pending z z') (line : List Char) :
    BehindZones pending (z.passComment line) (z'.passComment line) := by
  cases hz with
  | waiting => exact .same
  | same => exact .same

/-- A brace does the same to both walks. -/
theorem brace (hz : BehindZones pending z z')
    (hpending : ∀ s, Header.find? (pending.reverse ++ s) = Header.find? s)
    {c : Char} (hc : Header.isBrace c = true) :
    BehindZones pending (z.brace c).1 (z'.brace c).1
      ∧ (z.brace c).2 = (z'.brace c).2 := by
  cases hz with
  | same => exact ⟨.same, rfl⟩
  | @waiting p =>
      rcases eq_of_isBrace hc with rfl | rfl
      · rw [Zone.brace_outside_open, Zone.brace_outside_open, List.reverse_append,
          hpending]
        exact ⟨.same, rfl⟩
      · exact ⟨.waiting (p := '\x7d' :: p), rfl⟩

end BehindZones

namespace Behind

variable {blocks : List Block} {pending : List Char} {w w' : Course}

/-- One character keeps the two walks as they are. -/
theorem step (h : Behind blocks pending w w')
    (hpending : ∀ s, Header.find? (pending.reverse ++ s) = Header.find? s)
    (offset offset' : Nat) (c : Char) (cs : List Char) :
    Behind blocks pending (w.step offset c cs) (w'.step offset' c cs) := by
  rcases Course.step_together h.quoted h.skip h.zones.isOutside_eq offset offset' c cs
    with ⟨quoted, skip, hread, hread'⟩ | ⟨hc, hmeet, hmeet'⟩
  · rw [hread, hread']
    exact ⟨rfl, rfl, h.zones.push c, h.blocks⟩
  · rw [hmeet, hmeet']
    obtain ⟨hzones, hmark⟩ := h.zones.brace hpending hc
    refine ⟨rfl, rfl, hzones, ?_⟩
    rw [blocksAmong_mark, blocksAmong_mark, h.blocks, hmark, List.append_assoc]

/-- A line break keeps the two walks as they are. -/
theorem newLine (h : Behind blocks pending w w') :
    Behind blocks pending w.newLine w'.newLine :=
  ⟨rfl, rfl, h.zones.push '\n', h.blocks⟩

/-- The two walks stay so over the same lines. -/
theorem sideBySide
    (hpending : ∀ s, Header.find? (pending.reverse ++ s) = Header.find? s)
    (text : List Char) (marks : List (Nat × Mark)) (shift : Nat) :
    SideBySide text marks shift (fun _ w w' => Behind blocks pending w w')
      (fun _ w w' _ => Behind blocks pending w w') where
  start _ _ _ _ _ h := h
  step _ _ _ c cs _ _ _ _ h := h.step hpending _ _ c cs
  finish _ _ _ _ h := h.newLine
  comment _ _ _ line _ _ _ h :=
    newLine ⟨h.quoted, h.skip, h.zones.passComment line, h.blocks⟩

end Behind

-- ============================================================== both texts

section texts

variable {t₁ : List Char} {front : List (List Char)}

/-- The lines of a text that is empty or ends with a line break, and those
with more text behind it. -/
theorem exists_lines_of_ended (h : t₁ = [] ∨ t₁.getLast? = some '\n') :
    ∃ front, lines t₁ = front ++ [[]] ∧ front.flatMap (· ++ ['\n']) = t₁
      ∧ ∀ s, lines (t₁ ++ s) = front ++ lines s := by
  rcases h with rfl | hlast
  · exact ⟨[], rfl, rfl, fun _ => rfl⟩
  · obtain ⟨s, rfl⟩ := List.getLast?_eq_some_iff.mp hlast
    refine ⟨lines s, pieces_append_sep _ s, flatMap_lines s, fun more => ?_⟩
    rw [List.append_assoc]
    exact pieces_append_sep_cons _ s more

/-- The line break that is read behind the last line is all that the walk
over a text adds to the one over its lines. -/
theorem walkOver_newLine (hlines : lines t₁ = front ++ [[]]) :
    (walkOver front).newLine = ⟨false, 0, (scanText t₁).1, (scanText t₁).2⟩ := by
  rw [← Course.runLines_text, hlines, Course.runLines_append]
  rfl

/-- Outside any block a walk keeps the pending text. -/
theorem walkOver_zone (hlines : lines t₁ = front ++ [[]])
    (hflat : front.flatMap (· ++ ['\n']) = t₁)
    (hend : (scanText t₁).1.isOutside = true) :
    (walkOver front).zone = .outside (pendingText t₁).reverse := by
  have htraced : Traced t₁ (walkOver front) := by
    rw [← hflat]
    refine traced_runLines fun l hl => not_mem_of_mem_pieces (s := t₁) ?_
    show l ∈ lines t₁
    rw [hlines]
    exact List.mem_append_left _ hl
  have hwalk := walkOver_newLine hlines
  have hzone : (walkOver front).zone.push '\n' = (scanText t₁).1 :=
    congrArg Course.zone hwalk
  have hpast : (walkOver front).past = (scanText t₁).2 := congrArg Course.past hwalk
  rw [← hzone] at hend
  cases hz : (walkOver front).zone with
  | inside header content =>
      rw [hz] at hend
      cases hend
  | outside p =>
      have hpending := htraced.pending p hz
      unfold pendingText
      rw [← hpast, headerText_length (s := []) (List.append_nil t₁).symm, ← hpending,
        List.reverse_reverse]

/-- The pending text ends with the text. -/
theorem pendingText_eq_nil_or (h : t₁ = [] ∨ t₁.getLast? = some '\n') :
    pendingText t₁ = [] ∨ BlankEnd (pendingText t₁) := by
  by_cases hnil : pendingText t₁ = []
  · exact Or.inl hnil
  · obtain ⟨n, hdrop⟩ : ∃ n, pendingText t₁ = t₁.drop n :=
      ⟨_, headerText_length (s := []) (List.append_nil t₁).symm _⟩
    have hlast : t₁.getLast? = some '\n' := by
      refine h.resolve_left fun hnone => hnil ?_
      rw [hdrop, hnone]
      exact List.drop_nil
    have hblank : BlankEnd t₁ := ⟨'\n', hlast, by decide⟩
    rw [hdrop] at hnil ⊢
    rw [← List.take_append_drop n t₁] at hblank
    exact Or.inr (hblank.of_append hnil)

/-- A second text that starts afresh gives its blocks behind those of the first. -/
theorem blocksIn_append (hended : t₁ = [] ∨ t₁.getLast? = some '\n')
    (hend : (scanText t₁).1.isOutside = true)
    (hfree : KeywordFree (pendingText t₁)) (t₂ : List Char) :
    blocksIn (t₁ ++ t₂) = blocksIn t₁ ++ blocksIn t₂ := by
  obtain ⟨front, hlines, hflat, hboth⟩ := exists_lines_of_ended hended
  have hpending : ∀ s, Header.find? ((pendingText t₁).reverse.reverse ++ s)
      = Header.find? s := by
    rw [List.reverse_reverse]
    exact find?_append_of_keywordFree (pendingText_eq_nil_or hended) hfree
  have hpast : (walkOver front).past = (scanText t₁).2 :=
    congrArg Course.past (walkOver_newLine hlines)
  obtain ⟨hquoted, hskip⟩ := walkOver_fresh front
  -- behind the first text only its pending text and its blocks are left
  have hstart : Behind (blocksIn t₁) (pendingText t₁).reverse
      ⟨false, 0, .outside [], []⟩ (walkOver front) := by
    refine ⟨hquoted.symm, hskip.symm, ?_, ?_⟩
    · rw [walkOver_zone hlines hflat hend]
      exact .waiting (p := [])
    · rw [hpast]
      exact (List.append_nil _).symm
  have htext : t₂ ++ ['\n'] = [] ++ (lines t₂).flatMap (· ++ ['\n']) :=
    (flatMap_lines t₂).symm
  have hrun := (Behind.sideBySide hpending (t₂ ++ ['\n']) (scanText t₂).2
    t₁.length).runLines hstart htext rfl
    (fun l hl => not_mem_of_mem_pieces hl)
    ⟨[], by rw [List.append_nil, List.length_nil, Course.runLines_text]⟩
  have hwhole : (walkOver front).runLines (0 + t₁.length) (lines t₂)
      = ⟨false, 0, (scanText (t₁ ++ t₂)).1, (scanText (t₁ ++ t₂)).2⟩ := by
    rw [← Course.runLines_text, hboth, Course.runLines_append, hflat]
    rfl
  rw [List.length_nil, Course.runLines_text, hwhole] at hrun
  exact hrun.blocks

end texts

-- ============================================================== diagrams

namespace Diagram

variable {t₁ t₂ : List Char}

theorem blocksOf_append (k : Keyword) (blocks more : List Block) :
    blocksOf k (blocks ++ more) = blocksOf k blocks ++ blocksOf k more :=
  List.filter_append ..

/-- The parts of two texts make two diagrams, one behind the other. -/
theorem ofParts_append (blocks more : List Block) (relations others : List Relation) :
    ofParts (blocks ++ more) (relations ++ others)
      = (ofParts blocks relations).followedBy (ofParts more others) := by
  unfold ofParts followedBy
  simp only [blocksOf_append, List.map_append]

/-- The relations of a second text come behind those of the first, and so do failures. -/
theorem findRelations_append (hended : t₁ = [] ∨ t₁.getLast? = some '\n') :
    findRelations (t₁ ++ t₂) = (do
      let relations ← findRelations t₁
      let others ← findRelations t₂
      return relations ++ others) := by
  obtain ⟨front, hlines, -, hboth⟩ := exists_lines_of_ended hended
  have hempty : relationsOfLines [[]] = .ok [] := rfl
  unfold findRelations
  rw [hlines, hboth, relationsOfLines_append, relationsOfLines_append front, hempty]
  cases relationsOfLines front with
  | error e => rfl
  | ok relations =>
      cases relationsOfLines (lines t₂) with
      | error e => rfl
      | ok others =>
          show Except.ok (relations ++ others)
            = Except.ok ((relations ++ []) ++ others)
          rw [List.append_nil]

/-- Two normalized texts make one. -/
theorem normalize_append (h₁ : normalize t₁ = t₁) (h₂ : normalize t₂ = t₂) :
    normalize (t₁ ++ t₂) = t₁ ++ t₂ := by
  obtain ⟨hreturn₁, hmark₁⟩ := normalize_eq_self_iff.mp h₁
  obtain ⟨hreturn₂, hmark₂⟩ := normalize_eq_self_iff.mp h₂
  refine normalize_eq_self_iff.mpr ⟨fun hmem => ?_, ?_⟩
  · exact (List.mem_append.mp hmem).elim hreturn₁ hreturn₂
  · cases t₁ with
    | nil => exact hmark₂
    | cons c t₁ => exact hmark₁

/-- Where a text is empty or ends with a line break, outside any block and
without a keyword in its pending text, what is read from it is followed by
what is read from the text behind it; and the first of the two that cannot
be read makes the reading fail. -/
theorem parse_append (h₁ : normalize t₁ = t₁) (h₂ : normalize t₂ = t₂)
    (hended : t₁ = [] ∨ t₁.getLast? = some '\n')
    (hend : (scanText t₁).1.isOutside = true)
    (hfree : KeywordFree (pendingText t₁)) :
    blocksIn (t₁ ++ t₂) = blocksIn t₁ ++ blocksIn t₂
      ∧ parse (String.ofList (t₁ ++ t₂)) = (do
        let d ← parse (String.ofList t₁)
        let d' ← parse (String.ofList t₂)
        return d.followedBy d') := by
  have hblocks := blocksIn_append hended hend hfree t₂
  refine ⟨hblocks, ?_⟩
  unfold parse ofNormalized
  rw [String.toList_ofList, String.toList_ofList, String.toList_ofList, h₁, h₂,
    normalize_append h₁ h₂, findRelations_append hended, hblocks]
  cases findRelations t₁ with
  | error e => rfl
  | ok relations =>
      cases findRelations t₂ with
      | error e => rfl
      | ok others => exact congrArg Except.ok (ofParts_append _ _ relations others)

/-- A relation is pending, with a keyword inside the name of an end; the
brace behind it opens the block whose header is on the line before. -/
theorem parse_append_of_pending_relation :
    let t₁ := "class A \x7b\n\x7d\nSubclass --> A\n".toList
    let t₂ := "enum B\n\x7b\n X, Y\n\x7d\n".toList
    pendingText t₁ = "\nSubclass --> A\n".toList
      ∧ blocksIn (t₁ ++ t₂) = blocksIn t₁ ++ blocksIn t₂
      ∧ parse (String.ofList (t₁ ++ t₂)) = .ok {
        classes := [{ name := "A" }]
        enums := [{ name := "B", values := ["X", "Y"] }]
        relations := [{ source := "Subclass", target := "A", kind := .association,
                        symbol := "-->" }] } := by
  intro t₁ t₂
  have hpending : pendingText t₁ = "\nSubclass --> A\n".toList := by decide +kernel
  have hfree : KeywordFree (pendingText t₁) := by
    rw [hpending]
    decide +kernel
  obtain ⟨hblocks, hparse⟩ := @parse_append t₁ t₂ (by decide +kernel)
    (by decide +kernel) (by decide +kernel) (by decide +kernel) hfree
  refine ⟨hpending, hblocks, ?_⟩
  rw [hparse]
  decide +kernel

/-- A header that waits for its brace is handed on. -/
example :
    let t₁ := "class A\n".toList
    let t₂ := "\x7b\n\x7d\n".toList
    blocksIn (t₁ ++ t₂) = [⟨.classBlock, ['A'], ['\n']⟩]
      ∧ blocksIn t₁ ++ blocksIn t₂ = [] := by
  decide +kernel

end Diagram

end ApiScaffold
