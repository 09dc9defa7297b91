/-
A canonical diagram is read back from its text. Two passes read the text,
and either one passes over what belongs to the other. To the walk for
blocks a relation opens nothing (`declares_of_inert`); a block starts
outside any block, and what it leaves behind is a line break, which is
nothing before the next header (`declares_printed`). To the search for
relations the lines of a block are absent
(`relationsOfLines_append_of_absent`).
-/
import ApiScaffold.Proofs.Diagram.PrintedLine

namespace ApiScaffold

-- ============================================================== blocks

/-- The blocks of lines, without their layout, for a walk that comes to
them in a zone. -/
def declares (z : Zone) (ls : List (List Char)) : List BareBlock :=
  bareBlocks (scanLines 0 z ls).2

/-- At the start of a line neither the offset nor the layout before it
matters. -/
theorem bareBlocks_scanLines {z z' : Zone} (h : z.bare = z'.bare)
    (hs : z.bare.AtLineStart) (offset : Nat) (ls : List (List Char)) :
    bareBlocks (scanLines offset z ls).2 = declares z' ls := by
  have hs' : z'.bare.AtLineStart := h ▸ hs
  exact (scanLines_same h hs ls offset 0).2.trans
    (scanLines_same rfl hs' ls 0 0).2.symm

theorem declares_cons (z : Zone) (l : List Char) (ls : List (List Char)) :
    declares z (l :: ls) = bareBlocks (scanLine 0 z l).2
      ++ declares ((scanLine 0 z l).1.push '\n') ls := by
  unfold declares
  rw [scanLines_cons, bareBlocks_append]
  congr 1
  exact bareBlocks_scanLines rfl (Zone.atLineStart_push_break _) _ ls

/-- An inert line is read. -/
theorem declares_inert_cons {l : List Char} (hl : Inert l)
    (hcomment : isComment l = false) (z : Zone) (ls : List (List Char)) :
    declares z (l :: ls) = declares ((z.pushAll l).push '\n') ls := by
  have hline : scanLine 0 z l = (z.pushAll l, []) := by
    unfold scanLine
    rw [if_neg (by simp [hcomment])]
    exact scanChars_of_inert hl 0 z
  rw [declares_cons, hline]
  rfl

/-- Outside any block inert lines declare nothing. -/
theorem declares_of_inert {ls : List (List Char)}
    (h : ∀ l ∈ ls, Inert l ∧ isComment l = false) (pending : List Char) :
    declares (.outside pending) ls = [] := by
  induction ls generalizing pending with
  | nil => rfl
  | cons l ls ih =>
      obtain ⟨hl, hcomment⟩ := h l (List.mem_cons_self ..)
      rw [declares_inert_cons hl hcomment, Zone.pushAll_outside]
      exact ih (fun l hl => h l (List.mem_cons_of_mem _ hl)) _

/-- Content lines are read into the body. -/
theorem declares_content {ls : List (List Char)}
    (h : ∀ l ∈ ls, IsContent l) (header : Option Header)
    (body : List Char) (rest : List (List Char)) :
    declares (.inside header body) (ls ++ rest)
      = declares (.inside header
          ((ls.flatMap (· ++ ['\n'])).reverse ++ body)) rest := by
  induction ls generalizing body with
  | nil => rfl
  | cons l ls ih =>
      have hl := h l (List.mem_cons_self ..)
      rw [List.cons_append, declares_inert_cons hl.plain.inert hl.not_comment,
        Zone.pushAll_inside, Zone.push,
        ih fun l hl => h l (List.mem_cons_of_mem _ hl)]
      simp

/-- The header that a block is written with is found. -/
theorem Header.find?_opening (k : Keyword) {name : List Char}
    (h : IsName name) :
    find? (k.text.toList ++ ' ' :: (name ++ [' '])) = some ⟨k, name⟩ := by
  have hhead : ∀ c ∈ [' '].head?, isWord c = false := by
    rintro c ⟨⟩
    decide
  have hstart : trimStart (name ++ [' ']) = name ++ [' '] := by
    obtain ⟨c, r, rfl, hc⟩ := h.exists_cons
    exact trimStart_cons_of_ink (isBlank_of_isWord hc)
  refine find?_of_whole? ?_
  rw [whole?_text_append]
  refine ofKeyword?_eq_some.mpr
    ⟨' ', name ++ [' '], rfl, by decide, ?_, h.ne_nil, ?_⟩
  · rw [hstart, h.takeWhile_append hhead]
  · rw [hstart, h.dropWhile_append hhead]
    decide

/-- The first line of a block opens it. -/
theorem declares_opening {b : BareBlock} (h : b.Canonical)
    (ls : List (List Char)) :
    declares (.outside []) (b.opening :: ls)
      = declares (.inside (some ⟨b.keyword, b.name⟩) ['\n']) ls := by
  have hkeyword : Plain b.keyword.text.toList := by
    cases b.keyword <;> decide
  have hspace : Plain [' '] := by decide
  have hinert : Inert (b.keyword.text.toList ++ ' ' :: (b.name ++ [' '])) :=
    hkeyword.inert.append
      (hspace.inert.append (h.name.isContent.plain.inert.append hspace.inert))
  have hopening : b.opening
      = (b.keyword.text.toList ++ ' ' :: (b.name ++ [' '])) ++ ['\x7b'] := by
    simp [BareBlock.opening]
  have hcomment : isComment b.opening = false := by
    unfold BareBlock.opening
    cases b.keyword <;> rfl
  have hbrace : (Zone.outside
      (b.keyword.text.toList ++ ' ' :: (b.name ++ [' '])).reverse).brace '\x7b'
      = (.inside (some ⟨b.keyword, b.name⟩) [], some .opened) := by
    unfold Zone.brace
    simp only [if_pos, List.reverse_reverse,
      Header.find?_opening b.keyword h.name]
  have hline : scanLine 0 (.outside []) b.opening
      = (.inside (some ⟨b.keyword, b.name⟩) [], [(b.opening.length - 1, .opened)]) := by
    unfold scanLine
    have hstep : scanStep false 0 true '\x7b' [] = none := by decide
    rw [if_neg (by simp [hcomment]), hopening, hinert, Zone.pushAll_outside,
      List.append_nil, scanChars_cons, Zone.isOutside, hstep]
    simp only [hbrace]
    simp [Zone.mark, scanChars]
  rw [declares_cons, hline]
  rfl

/-- The last line of a block closes it, and leaves nothing but a line
break. -/
theorem declares_closing (header : Header) (body : List Char)
    (ls : List (List Char)) :
    declares (.inside (some header) body) (['\x7d'] :: ls)
      = ⟨header.keyword, header.name, contentLines body.reverse⟩
        :: declares (.outside []) ls := by
  have hline : scanLine 0 (.inside (some header) body) ['\x7d']
      = (.outside [],
        [(0, .closed ⟨header.keyword, header.name, body.reverse⟩)]) := rfl
  have hbare : ((Zone.outside []).push '\n').bare = (Zone.outside []).bare := rfl
  have hreset : declares ((Zone.outside []).push '\n') ls
      = declares (.outside []) ls :=
    bareBlocks_scanLines hbare (Zone.atLineStart_push_break _) 0 ls
  rw [declares_cons, hline, hreset]
  rfl

/-- A written block is read back, and what follows it is read as if it
had not been there. -/
theorem declares_printed {b : BareBlock} (h : b.Canonical)
    (ls : List (List Char)) :
    declares (.outside []) (b.printed ++ ls)
      = b :: declares (.outside []) ls := by
  have hbody : contentLines ('\n' :: b.content.flatMap (· ++ ['\n']))
      = b.content := by
    rw [contentLines_break, contentLines_eq,
      lines_flatMap_break fun l hl => (h.content l hl).unbroken.1,
      inkLines_append, inkLines_nil_line, List.append_nil]
    exact inkLines_of_trimmed fun l hl =>
      ⟨(h.content l hl).trimmed, (h.content l hl).ne_nil⟩
  unfold BareBlock.printed
  rw [List.cons_append, List.append_assoc, declares_opening h,
    declares_content h.content, List.singleton_append, declares_closing,
    List.reverse_append, List.reverse_reverse, List.reverse_singleton,
    List.singleton_append, hbody]

theorem declares_flatMap_printed {bs : List BareBlock}
    (h : ∀ b ∈ bs, b.Canonical) (ls : List (List Char)) :
    declares (.outside []) (bs.flatMap BareBlock.printed ++ ls)
      = bs ++ declares (.outside []) ls := by
  induction bs with
  | nil => rfl
  | cons b bs ih =>
      rw [List.flatMap_cons, List.append_assoc,
        declares_printed (h b (List.mem_cons_self ..)),
        ih fun b hb => h b (List.mem_cons_of_mem _ hb), List.cons_append]

-- =========================================================== relations

theorem relationsOfLines_printed {rs : List Relation}
    (h : ∀ r ∈ rs, r.Canonical) :
    relationsOfLines (rs.map Relation.printed ++ [[]]) = .ok rs := by
  induction rs with
  | nil => rfl
  | cons r rs ih =>
      rw [List.map_cons, List.cons_append, relationsOfLines,
        Relation.ofLine?_printed (h r (List.mem_cons_self ..)),
        ih fun r hr => h r (List.mem_cons_of_mem _ hr)]
      rfl

-- ================================================================ texts

/-- Lines with a line feed each are found again. -/
theorem lines_normalize {ls : List (List Char)} (h : ∀ l ∈ ls, IsLine l) :
    normalize (ls.flatMap (· ++ ['\n'])) = ls.flatMap (· ++ ['\n'])
      ∧ lines (ls.flatMap (· ++ ['\n'])) = ls ++ [[]] := by
  have hhead : (ls.flatMap (· ++ ['\n'])).head? ≠ some '\uFEFF' := by
    cases ls with
    | nil => simp
    | cons l ls =>
        have hmark := (h l (List.mem_cons_self ..)).unmarked
        cases l with
        | nil => simp
        | cons c l => exact hmark
  have hreturn : '\r' ∉ ls.flatMap (· ++ ['\n']) := by
    intro hmem
    obtain ⟨l, hl, hmem⟩ := List.mem_flatMap.mp hmem
    rcases List.mem_append.mp hmem with hmem | hmem
    · exact (h l hl).unbroken.2 hmem
    · exact absurd (List.mem_singleton.mp hmem) (by decide)
  refine ⟨?_, lines_flatMap_break fun l hl => (h l hl).unbroken.1⟩
  rw [← unifyBreaks_of_not_mem hreturn]
  have hzero := normalize_replicate_append hhead 0
  rw [unifyBreaks_of_not_mem hreturn] at hzero ⊢
  exact hzero

-- ========================================================== the theorem

namespace Diagram

variable {d : Diagram}

theorem Canonical.isLine (h : d.Canonical) :
    ∀ l ∈ d.printedLines, IsLine l := by
  intro l hl
  rcases List.mem_append.mp hl with hl | hl
  · obtain ⟨b, hb, hl⟩ := List.mem_flatMap.mp hl
    exact (h.declared b hb).isLine l hl
  · obtain ⟨r, hr, rfl⟩ := List.mem_map.mp hl
    exact (h.relations r hr).isLine

/-- The blocks of the text are those that were written. -/
theorem Canonical.declares_lines (h : d.Canonical) :
    declares (.outside []) (d.printedLines ++ [[]]) = d.declared := by
  have hinert : ∀ l ∈ d.relations.map Relation.printed ++ [[]],
      Inert l ∧ isComment l = false := by
    intro l hl
    rcases List.mem_append.mp hl with hl | hl
    · obtain ⟨r, hr, rfl⟩ := List.mem_map.mp hl
      exact (h.relations r hr).inert
    · rw [List.mem_singleton.mp hl]
      exact ⟨fun _ _ _ => rfl, rfl⟩
  unfold printedLines
  rw [List.append_assoc, declares_flatMap_printed h.declared,
    declares_of_inert hinert, List.append_nil]

/-- The relations of the text are those that were written. -/
theorem Canonical.relationsOfLines_lines (h : d.Canonical) :
    relationsOfLines (d.printedLines ++ [[]]) = .ok d.relations := by
  have habsent : ∀ l ∈ d.declared.flatMap BareBlock.printed,
      Relation.ofLine? l = .ok none := by
    intro l hl
    obtain ⟨b, hb, hl⟩ := List.mem_flatMap.mp hl
    exact (h.declared b hb).ofLine?_eq_none l hl
  unfold printedLines
  rw [List.append_assoc, relationsOfLines_append_of_absent habsent,
    relationsOfLines_printed h.relations]

/-- Blocks that all have one keyword are there for that keyword only. -/
theorem filter_map_block {α : Type} {f : α → BareBlock} {k : Keyword}
    (hf : ∀ a, (f a).keyword = k) (k' : Keyword) (l : List α) :
    (l.map f).filter (·.keyword == k') = if k = k' then l.map f else [] := by
  split
  next h =>
    refine List.filter_eq_self.mpr fun b hb => ?_
    obtain ⟨a, -, rfl⟩ := List.mem_map.mp hb
    exact beq_iff_eq.mpr ((hf a).trans h)
  next h =>
    refine List.filter_eq_nil_iff.mpr fun b hb heq => ?_
    obtain ⟨a, -, rfl⟩ := List.mem_map.mp hb
    exact h ((hf a).symm.trans (beq_iff_eq.mp heq))

/-- Among the blocks of a diagram those with a keyword are those of its
declarations of that sort. -/
theorem filter_declared (d : Diagram) :
    d.declared.filter (·.keyword == .classBlock)
        = d.classes.map (Entity.block .classBlock)
      ∧ d.declared.filter (·.keyword == .interfaceBlock)
        = d.interfaces.map (Entity.block .interfaceBlock)
      ∧ d.declared.filter (·.keyword == .enumBlock)
        = d.enums.map Enumeration.block := by
  have hsplit : ∀ k, d.declared.filter (·.keyword == k)
      = (if .classBlock = k then d.classes.map (Entity.block .classBlock) else [])
        ++ (if .interfaceBlock = k then
          d.interfaces.map (Entity.block .interfaceBlock) else [])
        ++ (if .enumBlock = k then d.enums.map Enumeration.block else []) := by
    intro k
    unfold declared
    have hclass : ∀ e, (Entity.block .classBlock e).keyword = .classBlock :=
      fun _ => rfl
    have hinterface : ∀ e,
        (Entity.block .interfaceBlock e).keyword = .interfaceBlock :=
      fun _ => rfl
    have henum : ∀ e, (Enumeration.block e).keyword = .enumBlock :=
      fun _ => rfl
    rw [List.filter_append, List.filter_append, filter_map_block hclass,
      filter_map_block hinterface, filter_map_block henum]
  refine ⟨?_, ?_, ?_⟩ <;> simp [hsplit]

/-- What is made of the blocks of a canonical diagram is the diagram. -/
theorem Canonical.ofParts_eq (h : d.Canonical) {blocks : List Block}
    (hblocks : blocks.map Block.bare = d.declared) :
    ofParts blocks d.relations = d := by
  obtain ⟨hclasses, hinterfaces, henums⟩ := filter_declared d
  have hentities : ∀ (kind : EntityKind) (k : Keyword) (es : List Entity),
      (∀ e ∈ es, e.Canonical kind) →
      (es.map (Entity.block k)).map (BareBlock.entity kind) = es := by
    intro kind k es hes
    have hone : ∀ e ∈ es, (BareBlock.entity kind ∘ Entity.block k) e = id e :=
      fun e he => e.entity_block (hes e he) k
    rw [List.map_map, List.map_congr_left hone, List.map_id]
  have hvalues : (d.enums.map Enumeration.block).map BareBlock.enumeration
      = d.enums := by
    have hone : ∀ e ∈ d.enums,
        (BareBlock.enumeration ∘ Enumeration.block) e = id e :=
      fun e he => e.enumeration_block (h.enums e he)
    rw [List.map_map, List.map_congr_left hone, List.map_id]
  unfold ofParts
  rw [map_blocksOf (Entity.ofBlock_eq .classEntity),
    map_blocksOf (Entity.ofBlock_eq .interfaceEntity),
    map_blocksOf Enumeration.ofBlock_eq, hblocks, hclasses, hinterfaces,
    henums, hentities _ _ _ h.classes, hentities _ _ _ h.interfaces, hvalues]

/-- A canonical diagram that is written as a text is read back. -/
theorem parse_printed (d : Diagram) (h : d.Canonical) :
    parse d.printed = .ok d := by
  obtain ⟨hnormal, hlines⟩ := lines_normalize h.isLine
  have hblocks : (blocksIn (d.printedLines.flatMap (· ++ ['\n']))).map Block.bare
      = d.declared := by
    rw [← h.declares_lines, ← hlines]
    rfl
  have hrelations : findRelations (d.printedLines.flatMap (· ++ ['\n']))
      = .ok d.relations := by
    rw [← h.relationsOfLines_lines, ← hlines]
    rfl
  unfold parse printed
  rw [String.toList_ofList, hnormal]
  unfold ofNormalized
  rw [hrelations]
  exact congrArg Except.ok (h.ofParts_eq hblocks)

/-- A diagram that tempts both readers: keywords for names, a type of
brackets only, and multiplicities that hold braces, an arrow and a
colon. -/
def temptingDiagram : Diagram where
  classes := [
    { name := "class"
      attributes := [⟨"enum", some "<>[]", .priv⟩, ⟨"o", none, .pkg⟩]
      methods := [⟨"class", some "List<int>", .prot⟩, ⟨"run", none, .pub⟩] }]
  interfaces := [{ name := "enum", kind := .interfaceEntity }]
  enums := [⟨"interface", ["o", "class"]⟩]
  relations := [
    { source := "foo", target := "o", kind := .aggregation, symbol := "--o"
      fromCardinality := some
        { kind := .custom, raw := "\x7b-- : '", label := some "\x7b-- : '" }
      toCardinality := some { kind := .range, raw := "1..*", lower := some 1 } },
    { source := "o", target := "1a", kind := .association, symbol := ".." }]

theorem parse_printed_tempting :
    temptingDiagram.Canonical
      ∧ parse temptingDiagram.printed = .ok temptingDiagram := by
  have hcanonical : temptingDiagram.Canonical := by decide +kernel
  exact ⟨hcanonical, parse_printed temptingDiagram hcanonical⟩

end Diagram

end ApiScaffold
