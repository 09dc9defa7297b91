/-
Layout makes no difference. What is read from a text is decided by its
content lines: the blocks are, but for the layout of their bodies, by the
walk over content lines; the members and values of a body are read from
its own content lines; and a relation is read from a trimmed line. So
texts with the same content lines give the same diagram or the same
failure, and a text may be laid out in any way: with blanks around its
lines, blank lines among them, any line endings and byte order marks
(`Layout.contentLines_text`).
-/
import ApiScaffold.Diagram.Parser
import ApiScaffold.Proofs.Diagram.Walk

namespace ApiScaffold

-- ======================================================== declarations

/-- The members of a block. -/
def BareBlock.members (b : BareBlock) : List Member :=
  b.content.filterMap Member.ofLine?

/-- The entity of a block, read from its content. -/
def BareBlock.entity (kind : EntityKind) (b : BareBlock) : Entity where
  name := String.ofList b.name
  kind := kind
  attributes := b.members.filterMap Member.attribute?
  methods := b.members.filterMap Member.method?

/-- The values that a content line of an enumeration lists. -/
def valuesOfLine (line : List Char) : List (List Char) :=
  if line.head? == some '\'' then []
  else ((pieces ',' (dropSemicolons line)).map trim).filter (!·.isEmpty)

/-- The enumeration of a block, read from its content. -/
def BareBlock.enumeration (b : BareBlock) : Enumeration where
  name := String.ofList b.name
  values := (b.content.flatMap valuesOfLine).map String.ofList

/-- What a block declares can be seen without the layout of its body. -/
theorem Entity.ofBlock_eq (kind : EntityKind) (b : Block) :
    Entity.ofBlock kind b = b.bare.entity kind := rfl

/-- The enum of a block can be seen without the layout of its body. -/
theorem Enumeration.ofBlock_eq (b : Block) :
    Enumeration.ofBlock b = b.bare.enumeration := rfl

namespace Diagram

/-- What is made of the blocks with a keyword, if something taken off them
makes no difference to it. -/
theorem map_blocksOf_erase {α : Type} {erase : Block → BareBlock}
    (hkeep : ∀ b, (erase b).keyword = b.keyword) {f : Block → α}
    {g : BareBlock → α} (hfg : ∀ b, f b = g (erase b)) (k : Keyword)
    (blocks : List Block) :
    (blocksOf k blocks).map f
      = ((blocks.map erase).filter (·.keyword == k)).map g := by
  have hkeyword : (fun b => (erase b).keyword == k) = fun b => b.keyword == k :=
    funext fun b => by rw [hkeep]
  unfold blocksOf
  rw [List.filter_map, List.map_map, ← hkeyword]
  exact List.map_congr_left fun b _ => hfg b

/-- What is made of the blocks with a keyword, without their layout. -/
theorem map_blocksOf {α : Type} {f : Block → α} {g : BareBlock → α}
    (hfg : ∀ b, f b = g b.bare) (k : Keyword) (blocks : List Block) :
    (blocksOf k blocks).map f
      = ((blocks.map Block.bare).filter (·.keyword == k)).map g :=
  map_blocksOf_erase (fun _ => rfl) hfg k blocks

/-- What makes no difference to members and values makes none to a
diagram. -/
theorem ofParts_erase {erase : Block → BareBlock}
    (hkeep : ∀ b, (erase b).keyword = b.keyword)
    (hentity : ∀ kind b, Entity.ofBlock kind b = (erase b).entity kind)
    (henum : ∀ b, Enumeration.ofBlock b = (erase b).enumeration)
    {blocks blocks' : List Block} (h : blocks.map erase = blocks'.map erase)
    (relations : List Relation) :
    ofParts blocks relations = ofParts blocks' relations := by
  have hclass := hentity .classEntity
  have hinterface := hentity .interfaceEntity
  unfold ofParts
  rw [map_blocksOf_erase hkeep hclass, map_blocksOf_erase hkeep hclass,
    map_blocksOf_erase hkeep hinterface, map_blocksOf_erase hkeep hinterface,
    map_blocksOf_erase hkeep henum, map_blocksOf_erase hkeep henum, h]

/-- The layout of blocks makes no difference. -/
theorem ofParts_congr {blocks blocks' : List Block}
    (h : blocks.map Block.bare = blocks'.map Block.bare)
    (relations : List Relation) :
    ofParts blocks relations = ofParts blocks' relations :=
  ofParts_erase (fun _ => rfl) Entity.ofBlock_eq Enumeration.ofBlock_eq h relations

end Diagram

-- =========================================================== relations

/-- Blanks around a line do not change what it relates. -/
theorem RelationLine.ofLine_trim (line : List Char) :
    RelationLine.ofLine (trim line) = RelationLine.ofLine line := by
  unfold RelationLine.ofLine
  rw [trim_trim]

/-- Blanks around a line do not change its relation, or its failure. -/
theorem Relation.ofLine?_trim (line : List Char) :
    Relation.ofLine? (trim line) = Relation.ofLine? line := by
  unfold Relation.ofLine?
  rw [RelationLine.ofLine_trim]

/-- A blank line relates nothing. -/
theorem Relation.ofLine?_of_blank {line : List Char} (h : trim line = []) :
    Relation.ofLine? line = .ok none := by
  rw [← Relation.ofLine?_trim, h]
  rfl

/-- The relations of lines and of more lines, read one after the other. -/
theorem relationsOfLines_append (ls more : List (List Char)) :
    relationsOfLines (ls ++ more) = (do
      let relations ← relationsOfLines ls
      let others ← relationsOfLines more
      return relations ++ others) := by
  induction ls with
  | nil =>
      rw [List.nil_append]
      cases relationsOfLines more <;> rfl
  | cons line ls ih =>
      rw [List.cons_append, relationsOfLines, relationsOfLines, ih]
      cases Relation.ofLine? line with
      | error e => rfl
      | ok relation =>
          cases relationsOfLines ls with
          | error e => rfl
          | ok relations =>
              cases relationsOfLines more with
              | error e => rfl
              | ok others => exact congrArg Except.ok (List.append_assoc _ _ _).symm

/-- Lines without relations make no difference to those behind them. -/
theorem relationsOfLines_append_of_absent {ls : List (List Char)}
    (h : ∀ l ∈ ls, Relation.ofLine? l = .ok none) (more : List (List Char)) :
    relationsOfLines (ls ++ more) = relationsOfLines more := by
  induction ls with
  | nil => rfl
  | cons l ls ih =>
      rw [List.cons_append, relationsOfLines, h l (List.mem_cons_self ..),
        ih fun l hl => h l (List.mem_cons_of_mem _ hl)]
      cases relationsOfLines more <;> rfl

/-- The relations of lines are those of their content. -/
theorem relationsOfLines_inkLines (ls : List (List Char)) :
    relationsOfLines (inkLines ls) = relationsOfLines ls := by
  induction ls with
  | nil => rfl
  | cons line ls ih =>
      rw [inkLines_cons]
      by_cases hblank : trim line = []
      · have habsent : ∀ l ∈ [line], Relation.ofLine? l = .ok none := fun l hl =>
          List.mem_singleton.mp hl ▸ Relation.ofLine?_of_blank hblank
        rw [inkLines_of_blank hblank, List.nil_append, ih]
        exact (relationsOfLines_append_of_absent habsent ls).symm
      · rw [inkLines_of_ink hblank, List.singleton_append, relationsOfLines,
          relationsOfLines, Relation.ofLine?_trim, ih]

/-- Texts with the same content have the same relations. -/
theorem findRelations_congr {s t : List Char}
    (h : contentLines s = contentLines t) :
    findRelations s = findRelations t := by
  unfold findRelations
  rw [← relationsOfLines_inkLines, ← relationsOfLines_inkLines (lines t)]
  exact congrArg relationsOfLines h

-- ============================================================= layouts

/-- The ways to end a line. -/
inductive LineBreak where
  | lineFeed
  | carriageReturn
  | both
deriving Inhabited, Repr, DecidableEq

/-- A line break as it is written. -/
def LineBreak.text : LineBreak → List Char
  | .lineFeed => ['\n']
  | .carriageReturn => ['\r']
  | .both => ['\r', '\n']

/-- A way to write lines: behind any number of byte order marks, each but
the last with a line break of its own. -/
structure Layout where
  marks : Nat
  ended : List (List Char × LineBreak)
  last : List Char
deriving Inhabited, Repr, DecidableEq

namespace Layout

/-- The lines that are written. -/
def rows (p : Layout) : List (List Char) := p.ended.map (·.1) ++ [p.last]

/-- The lines with their breaks. -/
def joined (ended : List (List Char × LineBreak)) (last : List Char) :
    List Char :=
  ended.flatMap (fun (row, lineBreak) => row ++ lineBreak.text) ++ last

/-- The text that is written. -/
def text (p : Layout) : String :=
  String.ofList (List.replicate p.marks '\uFEFF' ++ joined p.ended p.last)

/-- Whether the rows are lines: none holds a line break, and no byte order
mark that belongs to the first one stands at its start. -/
structure Proper (p : Layout) : Prop where
  unbroken : ∀ row ∈ p.rows, '\n' ∉ row ∧ '\r' ∉ row
  unmarked : ∀ row, p.rows.head? = some row → row.head? ≠ some '\uFEFF'

/-- Every line break becomes a line feed. A carriage return may take the
line feed of an empty line after it, which is not missed. -/
theorem exists_unifyBreaks_break (lineBreak : LineBreak) (s : List Char) :
    ∃ r, unifyBreaks (lineBreak.text ++ s) = '\n' :: r
      ∧ contentLines r = contentLines (unifyBreaks s) := by
  cases lineBreak with
  | lineFeed => exact ⟨unifyBreaks s, unifyBreaks_cons_of_ne (by decide) s, rfl⟩
  | both => exact ⟨unifyBreaks s, rfl, rfl⟩
  | carriageReturn =>
      by_cases hs : ∃ r, s = '\n' :: r
      · obtain ⟨r, rfl⟩ := hs
        refine ⟨unifyBreaks r, rfl, ?_⟩
        rw [unifyBreaks_cons_of_ne (by decide), contentLines_break]
      · refine ⟨unifyBreaks s, ?_, rfl⟩
        unfold LineBreak.text
        rw [List.singleton_append, unifyBreaks]
        intro r hr
        exact hs ⟨r, hr⟩

/-- The content of lines does not depend on the line breaks between them. -/
theorem contentLines_joined {ended : List (List Char × LineBreak)}
    {last : List Char}
    (h : ∀ row ∈ ended.map (·.1) ++ [last], '\n' ∉ row ∧ '\r' ∉ row) :
    contentLines (unifyBreaks (joined ended last))
      = inkLines (ended.map (·.1) ++ [last]) := by
  induction ended with
  | nil =>
      obtain ⟨hfeed, hreturn⟩ := h last (by simp)
      rw [joined, List.flatMap_nil, List.nil_append,
        unifyBreaks_of_not_mem hreturn, contentLines_of_line hfeed]
      rfl
  | cons head ended ih =>
      obtain ⟨row, lineBreak⟩ := head
      obtain ⟨hfeed, hreturn⟩ := h row (by simp)
      obtain ⟨r, hbreak, hr⟩ :=
        exists_unifyBreaks_break lineBreak (joined ended last)
      have hjoined : joined ((row, lineBreak) :: ended) last
          = row ++ (lineBreak.text ++ joined ended last) := by
        simp [joined]
      have hrest := ih fun row hrow => h row (List.mem_cons_of_mem _ hrow)
      rw [hjoined, unifyBreaks_append hreturn, hbreak,
        contentLines_append_cons hfeed, hr, hrest]
      exact (inkLines_cons row _).symm

/-- The text does not start with a byte order mark of its first row. -/
theorem head?_joined {ended : List (List Char × LineBreak)} {last : List Char}
    (h : ∀ row, (ended.map (·.1) ++ [last]).head? = some row →
      row.head? ≠ some '\uFEFF') :
    (joined ended last).head? ≠ some '\uFEFF' := by
  cases ended with
  | nil => exact h last rfl
  | cons head ended =>
      obtain ⟨row, lineBreak⟩ := head
      cases row with
      | nil => cases lineBreak <;> simp [joined, LineBreak.text]
      | cons c row => exact h (c :: row) rfl

/-- The content of a text is the content of its rows. -/
theorem contentLines_text {p : Layout} (h : p.Proper) :
    contentLines (normalize p.text.toList) = inkLines p.rows := by
  rw [text, String.toList_ofList,
    normalize_replicate_append (head?_joined h.unmarked)]
  exact contentLines_joined h.unbroken

end Layout

-- ========================================================== the theorem

namespace Diagram

/-- Texts with the same content have the same diagram. -/
theorem ofNormalized_congr {s t : List Char}
    (h : contentLines s = contentLines t) : ofNormalized s = ofNormalized t := by
  have hparts : ofParts (blocksIn s) = ofParts (blocksIn t) :=
    funext (ofParts_congr (blocksIn_bare h))
  unfold ofNormalized
  rw [findRelations_congr h, hparts]

/-- Texts with the same content lines are read alike, as a diagram or as
the same failure; and so are all ways to lay out lines with the same
content. -/
theorem parse_layout_insensitive :
    (∀ t t' : String,
      contentLines (normalize t.toList) = contentLines (normalize t'.toList) →
        parse t = parse t')
    ∧ ∀ p p' : Layout, p.Proper → p'.Proper →
        inkLines p.rows = inkLines p'.rows → parse p.text = parse p'.text := by
  have htexts : ∀ t t' : String,
      contentLines (normalize t.toList) = contentLines (normalize t'.toList) →
        parse t = parse t' := fun _ _ h => ofNormalized_congr h
  refine ⟨htexts, fun p p' hp hp' hrows => htexts p.text p'.text ?_⟩
  rw [Layout.contentLines_text hp, Layout.contentLines_text hp', hrows]

/-- A class as one would write it. -/
def tidyLayout : Layout where
  marks := 0
  ended := [("class Item <<Entity>> \x7b".toList, .lineFeed),
    ("+id: int".toList, .lineFeed), ("\x7d".toList, .lineFeed)]
  last := []

/-- The same class behind byte order marks, indented, with an empty line
whose line feed the carriage return before it takes, and the closing brace
without a line break. -/
def raggedLayout : Layout where
  marks := 2
  ended := [("\tclass Item <<Entity>> \x7b ".toList, .both),
    ("    +id: int\u00a0".toList, .carriageReturn), ([], .lineFeed),
    ("  ".toList, .carriageReturn)]
  last := " \x7d".toList

/-- Blank lines, indentation and mixed line breaks against a tidy text. -/
theorem parse_ragged_eq_parse_tidy :
    tidyLayout.Proper ∧ raggedLayout.Proper
      ∧ inkLines raggedLayout.rows = inkLines tidyLayout.rows
      ∧ contentLines (normalize raggedLayout.text.toList)
        = contentLines (normalize "class Item <<Entity>> \x7b\n+id: int\n\x7d".toList)
      ∧ parse raggedLayout.text = parse tidyLayout.text
      ∧ parse raggedLayout.text
        = parse "class Item <<Entity>> \x7b\n+id: int\n\x7d"
      ∧ parse raggedLayout.text = .ok
        { classes := [{ name := "Item", attributes := [⟨"id", some "int", .pub⟩] }] } := by
  have htidy : tidyLayout.Proper := by
    refine ⟨by decide, ?_⟩
    rintro row ⟨⟩
    decide
  have hragged : raggedLayout.Proper := by
    refine ⟨by decide, ?_⟩
    rintro row ⟨⟩
    decide
  have hrows : inkLines raggedLayout.rows = inkLines tidyLayout.rows := by
    decide +kernel
  have hlines : contentLines (normalize raggedLayout.text.toList)
      = contentLines (normalize "class Item <<Entity>> \x7b\n+id: int\n\x7d".toList) := by
    decide +kernel
  exact ⟨htidy, hragged, hrows, hlines,
    parse_layout_insensitive.2 raggedLayout tidyLayout hragged htidy hrows,
    parse_layout_insensitive.1 _ _ hlines, by decide +kernel⟩

end Diagram

end ApiScaffold
