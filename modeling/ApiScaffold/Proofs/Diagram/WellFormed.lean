/-
What every diagram has that a text was read as, whatever the text. Names are
identifiers, types are type tokens, values of enumerations are trimmed pieces
of lines, and a relation has names at its ends that could be taken for no
multiplicity, the kind of its arrow, and multiplicities that are what their
tokens read as.

Each reader has one lemma about what it accepts, and they are put together
along the two passes over the text. Members and values go by blocks
(`Entity.canonical_ofBlock`, `Enumeration.wellFormed_ofBlock`), where the line
that something was read from is met again. Relations go by lines: a name at an
end is a token of its side (`mem_endTokens`) that was neither quoted nor
numeric (`RelationEnd.isEndName_of_ofText?`), and a multiplicity keeps the
trimmed token, which reads as itself (`Cardinality.wellFormed_of_ofText`).
-/
import ApiScaffold.Proofs.Diagram.ArrowChoice
import ApiScaffold.Proofs.Diagram.CountLimit
import ApiScaffold.Proofs.Diagram.CountSpelling
import ApiScaffold.Proofs.Diagram.DeclaredName

namespace ApiScaffold

-- =================================================== statement vocabulary

/-- A value of an enumeration: a trimmed piece of a line. -/
structure IsEnumValue (s : List Char) : Prop where
  ne_nil : s ≠ []
  trimmed : trim s = s
  no_comma : ',' ∉ s
  no_break : '\n' ∉ s

structure Enumeration.WellFormed (e : Enumeration) : Prop where
  name : IsName e.name.toList
  values : ∀ v ∈ e.values, IsEnumValue v.toList

/-- A bare multiplicity as it may stand at an end of a relation: ASCII digits,
dots and stars, with a digit among them. -/
structure IsBareCount (s : List Char) : Prop where
  count : ∀ c ∈ s, c.isDigit = true ∨ c = '.' ∨ c = '*'
  digit : ∃ c ∈ s, c.isDigit = true

/-- The name at an end of a relation: it has no blanks and is no multiplicity. -/
structure IsEndName (s : List Char) : Prop where
  ne_nil : s ≠ []
  ink : AllInk s
  not_star : s ≠ ['*']
  not_count : ¬ IsBareCount s

/-- The fields of a multiplicity are those of its kind, and its counts are
natural numbers. -/
inductive Cardinality.Proper : Cardinality → Prop
  | many (raw : String) : Proper { kind := .many, raw }
  | exact (raw : String) (value : Nat) :
      Proper { kind := .exact, raw, value := some (value : Int) }
  | range (raw : String) (lower upper : Option Nat) :
      Proper { kind := .range, raw,
               lower := lower.map Int.ofNat, upper := upper.map Int.ofNat }
  | custom (raw : String) : Proper { kind := .custom, raw, label := some raw }

/-- A multiplicity that its own token reads as. -/
structure Cardinality.WellFormed (c : Cardinality) : Prop where
  ne_nil : c.raw.toList ≠ []
  trimmed : trim c.raw.toList = c.raw.toList
  reads : Cardinality.ofText c.raw.toList = .ok (some c)
  proper : c.Proper

structure Relation.WellFormed (r : Relation) : Prop where
  source : IsEndName r.source.toList
  target : IsEndName r.target.toList
  symbol : ∃ arrow ∈ Arrow.all, r.symbol = arrow.text
  kind : r.kind = RelationKind.ofSymbol r.symbol
  fromCardinality : ∀ c ∈ r.fromCardinality, c.WellFormed
  toCardinality : ∀ c ∈ r.toCardinality, c.WellFormed

/-- Classes are classes, interfaces are interfaces, and all parts of a diagram
are as their readers make them. -/
structure Diagram.WellFormed (d : Diagram) : Prop where
  classes : ∀ e ∈ d.classes, e.Canonical .classEntity
  interfaces : ∀ e ∈ d.interfaces, e.Canonical .interfaceEntity
  enums : ∀ e ∈ d.enums, e.WellFormed
  relations : ∀ r ∈ d.relations, r.WellFormed

-- =============================================================== members

namespace Member

/-- The member is one that could be written as a line. -/
def Canonical : Member → Prop
  | .attribute a => a.Canonical
  | .method m => m.Canonical

/-- A type ends where its characters do, and has at least one. -/
theorem isTypeToken_of_typeAfterColon? {s : List Char} {t : String}
    (h : typeAfterColon? s = some t) : IsTypeToken t.toList := by
  unfold typeAfterColon? at h
  split at h
  next rest _ =>
    split at h
    next => cases h
    next hne =>
      injection h with h
      rw [← h, String.toList_ofList]
      exact ⟨hne, fun c hc => List.mem_takeWhile_imp hc⟩
  next => cases h

variable {access : Access} {s : List Char}

/-- An attribute that is read has a name and a type of their forms. -/
theorem canonical_of_readAttribute? {a : Attribute}
    (h : readAttribute? access s = some a) : a.Canonical := by
  refine ⟨isName_of_readAttribute? h, fun t ht => ?_⟩
  unfold readAttribute? at h
  simp only at h
  split at h
  next => cases h
  next =>
    injection h with h
    subst h
    exact isTypeToken_of_typeAfterColon? ht

/-- A method that is read has a name and a type of their forms. -/
theorem canonical_of_readMethod? {m : Method}
    (h : readMethod? access s = some m) : m.Canonical := by
  unfold readMethod? at h
  simp only at h
  split at h
  next c cs _ _ hname _ =>
    injection h with h
    subst h
    constructor
    · show IsName (String.ofList (s.takeWhile isWord)).toList
      rw [String.toList_ofList]
      exact ⟨by simp [hname], fun d hd => List.mem_takeWhile_imp hd⟩
    · intro t ht
      obtain ⟨rest, -, hrest⟩ := Option.bind_eq_some_iff.mp ht
      exact isTypeToken_of_typeAfterColon? hrest
  next => cases h

/-- A member that is read from a line can be printed on one. -/
theorem canonical_of_ofLine? {line : List Char} {m : Member}
    (h : ofLine? line = some m) : m.Canonical := by
  unfold ofLine? at h
  simp only at h
  split at h
  next =>
    obtain ⟨method, hmethod, rfl⟩ := Option.map_eq_some_iff.mp h
    exact canonical_of_readMethod? hmethod
  next =>
    obtain ⟨a, ha, rfl⟩ := Option.map_eq_some_iff.mp h
    exact canonical_of_readAttribute? ha

end Member

/-- The entity of a block with a name is canonical. -/
theorem Entity.canonical_ofBlock (kind : EntityKind) {b : Block} (h : IsName b.name) :
    (Entity.ofBlock kind b).Canonical kind := by
  have hmember : ∀ m ∈ membersOf b.body, m.Canonical := by
    intro m hm
    obtain ⟨line, -, hline⟩ := List.mem_filterMap.mp hm
    exact Member.canonical_of_ofLine? hline
  refine ⟨rfl, ?_, fun a ha => ?_, fun m hm => ?_⟩
  · show IsName (String.ofList b.name).toList
    rwa [String.toList_ofList]
  · obtain ⟨m, hm, hattribute⟩ := List.mem_filterMap.mp ha
    match m with
    | .attribute a' =>
        injection hattribute with heq
        exact heq ▸ hmember _ hm
    | .method m => cases hattribute
  · obtain ⟨m', hm', hmethod⟩ := List.mem_filterMap.mp hm
    match m' with
    | .attribute a => cases hmethod
    | .method m' =>
        injection hmethod with heq
        exact heq ▸ hmember _ hm'

-- ================================================================ values

/-- A piece has characters of the text only. -/
theorem subset_of_mem_pieces {sep : Char} {s piece : List Char}
    (h : piece ∈ pieces sep s) : piece ⊆ s := by
  induction s generalizing piece with
  | nil =>
      rw [List.mem_singleton.mp h]
      exact List.Subset.refl _
  | cons c s ih =>
      by_cases hc : c = sep
      · rw [hc, pieces_cons_sep] at h
        rcases List.mem_cons.mp h with rfl | h
        · exact List.nil_subset _
        · exact List.subset_cons_of_subset c (ih h)
      · obtain ⟨part, rest, hs⟩ := List.exists_cons_of_ne_nil (pieces_ne_nil sep s)
        rw [pieces_cons_of_ne hc hs] at h
        rw [hs] at ih
        rcases List.mem_cons.mp h with rfl | h
        · exact List.cons_subset_cons c (ih (List.mem_cons_self ..))
        · exact List.subset_cons_of_subset c (ih (List.mem_cons_of_mem _ h))

/-- Dropping semicolons brings no new characters. -/
theorem dropSemicolons_subset (s : List Char) : dropSemicolons s ⊆ s := by
  intro c hc
  have hmem := (List.dropWhile_suffix (· == ';')).subset (List.mem_reverse.mp hc)
  exact List.mem_reverse.mp hmem

/-- Every enum value that is read has the form of one. -/
theorem isEnumValue_of_mem_enumValues {body v : List Char} (h : v ∈ enumValues body) :
    IsEnumValue v := by
  obtain ⟨line, hline, hv⟩ := List.mem_flatMap.mp h
  obtain ⟨raw, hraw, rfl⟩ := List.mem_map.mp (List.mem_filter.mp hline).1
  split at hv
  next => cases hv
  next =>
    obtain ⟨hmap, hne⟩ := List.mem_filter.mp hv
    obtain ⟨piece, hpiece, rfl⟩ := List.mem_map.mp hmap
    have hpart : trim piece ⊆ piece := (trim_within piece).subset
    -- the piece is part of a line, and lines have no breaks
    have hbreak : '\n' ∉ piece := fun hmem =>
      not_mem_of_mem_pieces hraw ((trim_within raw).subset
        (dropSemicolons_subset _ (subset_of_mem_pieces hpiece hmem)))
    exact ⟨by simpa using hne, trim_trim piece,
      fun hmem => not_mem_of_mem_pieces hpiece (hpart hmem),
      fun hmem => hbreak (hpart hmem)⟩

/-- The enumeration of a block with a name is well formed. -/
theorem Enumeration.wellFormed_ofBlock {b : Block} (h : IsName b.name) :
    (Enumeration.ofBlock b).WellFormed := by
  constructor
  · show IsName (String.ofList b.name).toList
    rwa [String.toList_ofList]
  · intro v hv
    obtain ⟨s, hs, rfl⟩ := List.mem_map.mp hv
    rw [String.toList_ofList]
    exact isEnumValue_of_mem_enumValues hs

-- ================================================================== ends

/-- A token of an end is quoted or has no blanks. -/
theorem mem_endTokens {s t : List Char} (h : t ∈ endTokens s) :
    t ≠ [] ∧ (AllInk t ∨ ∃ q, t = '"' :: (q ++ ['"'])) := by
  fun_induction endTokens s with
  | case1 => cases h
  | case2 c cs hblank ih => exact ih h
  | case3 c cs hblank hquoted ih =>
      rcases List.mem_cons.mp h with rfl | h
      · simp only [Bool.and_eq_true, decide_eq_true_eq] at hquoted
        rw [hquoted.1]
        exact ⟨by simp, Or.inr ⟨_, rfl⟩⟩
      · exact ih h
  | case4 c cs hblank hquoted ih =>
      rcases List.mem_cons.mp h with rfl | h
      · refine ⟨by simp, Or.inl (List.forall_mem_cons.mpr ⟨?_, ?_⟩)⟩
        · simpa using hblank
        · intro d hd
          simpa [isInk] using List.mem_takeWhile_imp hd
      · exact ih h

/-- A token without blanks that gives no multiplicity is none. -/
theorem isEndName_of_tokenCardinality? {t : List Char} (hne : t ≠ []) (hink : AllInk t)
    (h : tokenCardinality? t = none) : IsEndName t := by
  unfold tokenCardinality? at h
  split at h
  next => cases h
  next =>
    rw [ite_eq_right_iff] at h
    have hcount : ¬ (t = ['*'] ∨ isNumericToken t = true) := fun hcount =>
      absurd (h hcount) nofun
    rw [not_or] at hcount
    refine ⟨hne, hink, hcount.1, fun hbare => hcount.2 ?_⟩
    unfold isNumericToken
    rw [Bool.and_eq_true, List.all_eq_true, List.any_eq_true]
    refine ⟨fun c hc => ?_, hbare.digit⟩
    simpa [or_assoc] using hbare.count c hc

/-- The name at an end of a relation has the form of one. -/
theorem RelationEnd.isEndName_of_ofText? {s : List Char} {e : RelationEnd}
    (h : RelationEnd.ofText? s = some e) : IsEndName e.name := by
  unfold RelationEnd.ofText? at h
  simp only at h
  split at h
  next => cases h
  next name hlast =>
    injection h with h
    subst h
    obtain ⟨hmem, hnone⟩ := List.mem_filter.mp (List.mem_of_getLast? hlast)
    rw [Option.isNone_iff_eq_none] at hnone
    obtain ⟨hne, hink | ⟨q, rfl⟩⟩ := mem_endTokens hmem
    · exact isEndName_of_tokenCardinality? hne hink hnone
    · rw [tokenCardinality?_quoted] at hnone
      cases hnone

-- ======================================================= multiplicities

/-- A numeral that can be read is no negative number. -/
theorem gives_readNumeral_natural (ds : List Char) :
    Gives (readNumeral ds) fun n => ∃ k : Nat, n = k := by
  unfold readNumeral
  split
  next => nofun
  next => exact .ok ⟨_, rfl⟩

/-- A bound that can be read is missing or no negative number. -/
theorem Bound.gives_value_natural (b : Bound) :
    Gives b.value fun o => ∃ k : Option Nat, o = k.map Int.ofNat := by
  cases b with
  | unbounded => exact .ok ⟨none, rfl⟩
  | digits ds =>
      refine (gives_readNumeral_natural ds).map fun n hn => ?_
      obtain ⟨k, rfl⟩ := hn
      exact ⟨some k, rfl⟩

namespace Cardinality

/-- A token is read into the fields of its kind. -/
theorem gives_ofToken_proper (s : List Char) : Gives (ofToken s) Proper := by
  unfold ofToken
  simp only
  split
  next => exact .ok (.many _)
  next =>
    split
    next =>
      refine (gives_readNumeral_natural s).andThen fun n hn => ?_
      obtain ⟨k, rfl⟩ := hn
      exact .ok (.exact _ k)
    next =>
      split
      next lower upper _ =>
        refine lower.gives_value_natural.andThen fun low hlow => ?_
        refine upper.gives_value_natural.andThen fun high hhigh => ?_
        obtain ⟨l, rfl⟩ := hlow
        obtain ⟨u, rfl⟩ := hhigh
        exact .ok (.range _ l u)
      next => exact .ok (.custom _)

/-- A multiplicity that is read is well-formed. -/
theorem wellFormed_of_ofText {s : List Char} {c : Cardinality}
    (h : ofText s = .ok (some c)) : c.WellFormed := by
  have hraw := raw_of_ofText h
  have hreads : ofText (trim s) = .ok (some c) := by
    rw [← h]
    exact ofText?_map_trim (some s)
  have hproper : trim s ≠ [] ∧ c.Proper := by
    unfold ofText at h
    split at h
    next => cases h
    next hne =>
      refine ⟨hne, ?_⟩
      have hgives := (gives_ofToken_proper (trim s)).map (f := some)
        (Q := fun o => ∀ c ∈ o, c.Proper) fun c hc c' hc' => by
          injection hc' with hc'
          exact hc' ▸ hc
      exact hgives _ h c rfl
  constructor
  · rw [hraw]
    exact hproper.1
  · rw [hraw, trim_trim]
  · rw [hraw]
    exact hreads
  · exact hproper.2

/-- So is one that may be missing. -/
theorem gives_ofText?_wellFormed (s : Option (List Char)) :
    Gives (ofText? s) fun o => ∀ c ∈ o, c.WellFormed := by
  intro o ho c hc
  cases s with
  | none =>
      injection ho with ho
      rw [← ho] at hc
      cases hc
  | some s =>
      rw [Option.mem_def.mp hc] at ho
      exact wellFormed_of_ofText ho

end Cardinality

-- ============================================================== diagrams

/-- A relation that is read from a line is well-formed. -/
theorem Relation.gives_ofLine?_wellFormed (line : List Char) :
    Gives (Relation.ofLine? line) fun o => ∀ r ∈ o, r.WellFormed := by
  refine Relation.gives_ofLine?_of_ends fun source arrow target hline r hr => ?_
  obtain ⟨-, cut, -, -, hleft, hright⟩ := RelationLine.ofLine_eq_between.mp hline
  obtain ⟨hlow, hhigh, hsource, htarget, hsymbol, hkind⟩ := Relation.of_ofEnds_eq_ok hr
  constructor
  · rw [hsource, String.toList_ofList]
    exact RelationEnd.isEndName_of_ofText? hleft
  · rw [htarget, String.toList_ofList]
    exact RelationEnd.isEndName_of_ofText? hright
  · exact ⟨arrow, Arrow.mem_all arrow, hsymbol⟩
  · rw [hkind, hsymbol]
  · exact Cardinality.gives_ofText?_wellFormed _ _ hlow
  · exact Cardinality.gives_ofText?_wellFormed _ _ hhigh

/-- Every diagram that a text is read as is well formed. -/
theorem Diagram.wellFormed_of_parse {text : String} {d : Diagram}
    (h : Diagram.parse text = .ok d) : d.WellFormed := by
  have hrelations := Diagram.gives_parse_relations
    Relation.gives_ofLine?_wellFormed text d h
  have hname : ∀ k, ∀ b ∈ Diagram.blocksOf k (blocksIn (normalize text.toList)),
      IsName b.name :=
    fun k b hb => isName_of_mem_blocksIn (List.mem_filter.mp hb).1
  have hparts := Diagram.eq_ofParts_of_parse h
  refine ⟨fun e he => ?_, fun e he => ?_, fun e he => ?_, hrelations⟩
  · rw [hparts] at he
    obtain ⟨b, hb, rfl⟩ := List.mem_map.mp he
    exact Entity.canonical_ofBlock .classEntity (hname _ b hb)
  · rw [hparts] at he
    obtain ⟨b, hb, rfl⟩ := List.mem_map.mp he
    exact Entity.canonical_ofBlock .interfaceEntity (hname _ b hb)
  · rw [hparts] at he
    obtain ⟨b, hb, rfl⟩ := List.mem_map.mp he
    exact Enumeration.wellFormed_ofBlock (hname _ b hb)

/-- A text with empty pieces of an enumeration, and with one end of each kind
besides the bare name. -/
def crowdedText : String :=
  "class Order \x7b\n+lines: List<Line>\n+total(): float\n\x7d\n"
    ++ "interface Payable \x7b\npay()\n\x7d\nenum State \x7b\nOPEN, , PAID ;\n\x7d\n"
    ++ "Order \"0..1\" *-- 3 Line : lines\n\"an Order\" Order ..|> Payable"

/-- A text with values, semicolons and multiplicities close together. -/
theorem Diagram.wellFormed_of_crowded :
    ∃ d, Diagram.parse crowdedText = .ok d ∧ d.WellFormed
      ∧ d.enums.map (·.values) = [["OPEN", "PAID"]]
      ∧ d.relations.map (·.target) = ["Line", "Payable"] := by
  have hparse : Diagram.parse crowdedText = .ok {
      classes := [{
        name := "Order", attributes := [⟨"lines", some "List<Line>", .pub⟩],
        methods := [⟨"total", some "float", .pub⟩] }]
      interfaces := [{
        name := "Payable", kind := .interfaceEntity, methods := [⟨"pay", none, .pub⟩] }]
      enums := [⟨"State", ["OPEN", "PAID"]⟩]
      relations := [
        ⟨"Order", "Line", .composition, "*--",
          some ⟨.range, "0..1", none, some 0, some 1, none⟩,
          some ⟨.exact, "3", some 3, none, none, none⟩⟩,
        ⟨"Order", "Payable", .dependency, "..|>",
          some ⟨.custom, "an Order", none, none, none, some "an Order"⟩, none⟩] } := by
    decide +kernel
  exact ⟨_, hparse, Diagram.wellFormed_of_parse hparse, rfl, rfl⟩

end ApiScaffold
