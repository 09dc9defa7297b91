/-
Which end of an inheritance arrow is the parent. The side decides, and not
the head: in `A <|-- B` and in `A --|> B` the name on the left is the parent
and the name on the right is composed of it, and the mirror image `B --|> A`
of the first makes `B` the parent of `A`.

What a diagram declares and its other relations make all of the component
schemas but the parents (`Diagram.get?_componentSchemas_congr`), and the
parents are those that the inheritance relations give one by one
(`Diagram.inherits_append_cons`). A line that draws another arrow in the same
place changes just one relation (`LinePlace.parse_eq`), so turning the arrow
changes nothing, and mirroring it moves one parent: no schema changes besides
those of the two names, and theirs do unless other lines make each of them a
parent of the other (`left_name_is_parent`).
-/
import ApiScaffold.Proofs.Api.ComponentNames
import ApiScaffold.Proofs.Diagram.ArrowLine
import ApiScaffold.Proofs.Diagram.DeclaredName
import ApiScaffold.Proofs.Schema.Inheritance

namespace ApiScaffold

-- =================================================== statement vocabulary

/-- A place for a line in a text: the lines above and below, and the blanks
around the line. -/
structure LinePlace where
  above : List (List Char) := []
  indent : List Char := []
  trail : List Char := []
  below : List (List Char) := []
  indent_blank : AllBlank indent := by decide
  trail_blank : AllBlank trail := by decide

/-- A text has a line in a place. -/
def LinePlace.Holds (p : LinePlace) (line : List Char) (text : String) : Prop :=
  lines (normalize text.toList)
    = p.above ++ (p.indent ++ line ++ p.trail) :: p.below

/-- The diagram with other relations. -/
def Diagram.withRelations (d : Diagram) (rs : List Relation) : Diagram :=
  { d with relations := rs }

/-- Where a walk over the text stands before the line. -/
def LinePlace.zone (p : LinePlace) : Zone := (walkOver p.above).zone

-- ==================================================== beside the parents

namespace Diagram

variable {d d' : Diagram} {a b name : String} {rs rs' : List Relation} {r : Relation}

theorem notesOn_withoutInheritance (d : Diagram) (name : String) :
    d.withoutInheritance.notesOn name = d.notesOn name := rfl

/-- Diagrams that differ in nothing but inheritance have the same schema
under a name, up to its parents. -/
theorem get?_componentSchemas_congr
    (h : d.withoutInheritance = d'.withoutInheritance)
    (hparents : name ∈ d.entityNames → d.parentsOf name = d'.parentsOf name) :
    d.componentSchemas.get? name = d'.componentSchemas.get? name := by
  have hnames : d.entityNames = d'.entityNames := by
    have hsame := congrArg entityNames h
    exact hsame
  by_cases hname : name ∈ d.entityNames
  · have hwrites := congrArg (·.writesTo name) h
    have hnotes := congrArg (·.notesOn name) h
    simp only [writesTo_withoutInheritance, notesOn_withoutInheritance]
      at hwrites hnotes
    rw [get?_componentSchemas_eq hname, get?_componentSchemas_eq (hnames ▸ hname),
      hparents hname, hwrites, hnotes]
  · have henums : d.enums = d'.enums := by
      have hsame := congrArg enums h
      exact hsame
    rw [get?_componentSchemas_of_enum hname,
      get?_componentSchemas_of_enum (hnames ▸ hname)]
    unfold lastEnum?
    rw [henums]

theorem keys_componentSchemas_congr
    (h : d.withoutInheritance = d'.withoutInheritance) :
    d.componentSchemas.keys = d'.componentSchemas.keys := by
  have hnames := congrArg componentNames h
  rw [keys_componentSchemas, keys_componentSchemas]
  exact hnames

/-- Without the parents the schemas are the same as soon as the rest is. -/
theorem componentSchemas_congr (h : d.withoutInheritance = d'.withoutInheritance)
    (hparents : ∀ name ∈ d.entityNames, d.parentsOf name = d'.parentsOf name) :
    d.componentSchemas = d'.componentSchemas := by
  apply OrderedMap.ext
  rw [OrderedMap.entries_eq, OrderedMap.entries_eq, keys_componentSchemas_congr h]
  refine List.filterMap_congr fun name _ => ?_
  rw [get?_componentSchemas_congr h (hparents name)]

/-- The schema under a name tells the parents. -/
theorem parentsOf_eq_of_get? (hname : name ∈ d.entityNames)
    (hname' : name ∈ d'.entityNames)
    (h : d.componentSchemas.get? name = d'.componentSchemas.get? name) :
    d.parentsOf name = d'.parentsOf name := by
  rw [get?_componentSchemas_eq hname, get?_componentSchemas_eq hname'] at h
  injection h with h
  split at h <;> split at h
  next hnone hnone' => rw [hnone, hnone']
  next => cases h
  next => cases h
  next => injection h

-- ========================================================== one relation

theorem withoutInheritance_append_cons (hr : r.kind = .inheritance) :
    (d.withRelations (rs ++ r :: rs')).withoutInheritance
      = (d.withRelations (rs ++ rs')).withoutInheritance := by
  unfold withoutInheritance withRelations
  simp only [List.filter_append]
  rw [List.filter_cons_of_neg (by simp [hr])]

/-- A relation gives no parent to other names than its target. -/
theorem parentsOf_append_cons (hname : r.target ≠ name) :
    (d.withRelations (rs ++ r :: rs')).parentsOf name
      = (d.withRelations (rs ++ rs')).parentsOf name := by
  unfold parentsOf withRelations
  simp only [List.filter_append]
  rw [List.filter_cons_of_neg (by simp [hname])]
  rfl

/-- For the parents it does not matter how the arrow is spelled. -/
theorem parentsOf_append_cons_congr {r' : Relation} (hkind : r.kind = r'.kind)
    (htarget : r.target = r'.target) (hsource : r.source = r'.source) :
    (d.withRelations (rs ++ r :: rs')).parentsOf name
      = (d.withRelations (rs ++ r' :: rs')).parentsOf name := by
  have hsources : ((rs ++ r :: rs').filter
        (fun r => r.kind == .inheritance && r.target == name)).map Relation.source
      = ((rs ++ r' :: rs').filter
        (fun r => r.kind == .inheritance && r.target == name)).map Relation.source := by
    rw [List.filter_append, List.filter_append, List.filter_cons, List.filter_cons,
      hkind, htarget]
    split <;> simp [hsource]
  unfold parentsOf withRelations
  simp only
  rw [hsources]
  rfl

/-- What inherits from what with one more relation. -/
theorem inherits_append_cons {d : Diagram} {child parent : String}
    (hkind : r.kind = .inheritance) (hne : r.target ≠ r.source)
    (htarget : r.target ∈ d.entityNames) (hsource : r.source ∈ d.entityNames) :
    d.Inherits (rs ++ r :: rs') child parent
      ↔ child = r.target ∧ parent = r.source ∨ d.Inherits (rs ++ rs') child parent := by
  unfold Inherits
  simp only [List.mem_append, List.mem_cons]
  constructor
  · rintro ⟨r', hr' | rfl | hr', h⟩
    · exact Or.inr ⟨r', Or.inl hr', h⟩
    · exact Or.inl ⟨h.2.1.symm, h.2.2.1.symm⟩
    · exact Or.inr ⟨r', Or.inr hr', h⟩
  · rintro (⟨rfl, rfl⟩ | ⟨r', hr' | hr', h⟩)
    · exact ⟨r, Or.inr (Or.inl rfl), hkind, rfl, rfl, hne, htarget, hsource⟩
    · exact ⟨r', Or.inl hr', h⟩
    · exact ⟨r', Or.inr (Or.inr hr'), h⟩

-- ============================================================= one arrow

variable {arrow : Arrow}

/-- What is composed of what with one more arrow. -/
theorem composes_drawn (harrow : arrow.Extends) (hne : a ≠ b)
    (ha : a ∈ d.entityNames) (hb : b ∈ d.entityNames) (child parent : String) :
    (d.withRelations (rs ++ Relation.drawn a arrow b :: rs')).componentSchemas.Composes
        child parent
      ↔ child = b ∧ parent = a ∨ d.Inherits (rs ++ rs') child parent := by
  rw [Builder.composes_load_new]
  exact inherits_append_cons (r := .drawn a arrow b) harrow.kind_eq (Ne.symm hne) hb ha

section turned

variable {arrow' : Arrow} (harrow : arrow.Extends) (harrow' : arrow'.Extends)

include harrow harrow'

/-- The schemas are the same with either arrow. -/
theorem componentSchemas_turned (d : Diagram) (rs rs' : List Relation) (a b : String) :
    (d.withRelations (rs ++ Relation.drawn a arrow' b :: rs')).componentSchemas
      = (d.withRelations (rs ++ Relation.drawn a arrow b :: rs')).componentSchemas := by
  have hkind : (Relation.drawn a arrow b).kind = .inheritance := harrow.kind_eq
  have hkind' : (Relation.drawn a arrow' b).kind = .inheritance := harrow'.kind_eq
  refine componentSchemas_congr ?_ fun name _ =>
    parentsOf_append_cons_congr (hkind'.trans hkind.symm) rfl rfl
  rw [withoutInheritance_append_cons hkind, withoutInheritance_append_cons hkind']

theorem withoutInheritance_mirrored :
    (d.withRelations (rs ++ Relation.drawn b arrow' a :: rs')).withoutInheritance
      = (d.withRelations (rs ++ Relation.drawn a arrow b :: rs')).withoutInheritance := by
  have hkind : (Relation.drawn a arrow b).kind = .inheritance := harrow.kind_eq
  have hkind' : (Relation.drawn b arrow' a).kind = .inheritance := harrow'.kind_eq
  rw [withoutInheritance_append_cons hkind, withoutInheritance_append_cons hkind']

/-- Mirroring an arrow changes no other schema than those of its names. -/
theorem get?_componentSchemas_mirrored (hna : name ≠ a) (hnb : name ≠ b) :
    (d.withRelations (rs ++ Relation.drawn b arrow' a :: rs')).componentSchemas.get? name
      = (d.withRelations (rs ++ Relation.drawn a arrow b :: rs')).componentSchemas.get?
        name := by
  refine get?_componentSchemas_congr (withoutInheritance_mirrored harrow harrow')
    fun _ => ?_
  rw [parentsOf_append_cons (Ne.symm hna), parentsOf_append_cons (Ne.symm hnb)]

/-- Mirroring an arrow leaves the schemas as they are exactly if both names
keep their parents. -/
theorem componentSchemas_mirrored_iff (ha : a ∈ d.entityNames) (hb : b ∈ d.entityNames) :
    (d.withRelations (rs ++ Relation.drawn b arrow' a :: rs')).componentSchemas
        = (d.withRelations (rs ++ Relation.drawn a arrow b :: rs')).componentSchemas
      ↔ ∀ name ∈ [a, b], (d.withRelations (rs ++ Relation.drawn b arrow' a :: rs')).parentsOf name
        = (d.withRelations (rs ++ Relation.drawn a arrow b :: rs')).parentsOf name := by
  constructor
  · intro h name hname
    have hmem : name ∈ d.entityNames := by
      rcases List.mem_cons.mp hname with rfl | hname
      · exact ha
      · exact List.mem_singleton.mp hname ▸ hb
    exact parentsOf_eq_of_get? hmem hmem (congrArg (·.get? name) h)
  · intro h
    refine componentSchemas_congr (withoutInheritance_mirrored harrow harrow')
      fun name _ => ?_
    by_cases hname : name ∈ [a, b]
    · exact h name hname
    · simp only [List.mem_cons, List.not_mem_nil, or_false, not_or] at hname
      rw [parentsOf_append_cons (Ne.symm hname.1), parentsOf_append_cons (Ne.symm hname.2)]

/-- So both names need the other for a parent already. -/
theorem inherits_of_componentSchemas_mirrored (hne : a ≠ b) (ha : a ∈ d.entityNames)
    (hb : b ∈ d.entityNames)
    (h : (d.withRelations (rs ++ Relation.drawn b arrow' a :: rs')).componentSchemas
      = (d.withRelations (rs ++ Relation.drawn a arrow b :: rs')).componentSchemas) :
    d.Inherits (rs ++ rs') b a ∧ d.Inherits (rs ++ rs') a b := by
  have hforth : ∀ child parent,
      (d.withRelations (rs ++ Relation.drawn a arrow b :: rs')).componentSchemas.Composes
          child parent
        ↔ child = b ∧ parent = a ∨ d.Inherits (rs ++ rs') child parent :=
    composes_drawn harrow hne ha hb
  have hback : ∀ child parent,
      (d.withRelations (rs ++ Relation.drawn b arrow' a :: rs')).componentSchemas.Composes
          child parent
        ↔ child = a ∧ parent = b ∨ d.Inherits (rs ++ rs') child parent :=
    composes_drawn harrow' (Ne.symm hne) hb ha
  rw [h] at hback
  constructor
  · have hba := (hback b a).mp ((hforth b a).mpr (Or.inl ⟨rfl, rfl⟩))
    exact hba.resolve_left fun heq => hne heq.1.symm
  · have hab := (hforth a b).mp ((hback a b).mpr (Or.inl ⟨rfl, rfl⟩))
    exact hab.resolve_left fun heq => hne heq.1

end turned

end Diagram

-- ============================================================== one line

namespace LinePlace

variable {p : LinePlace} {line : List Char} {text : String} {r : Relation}

/-- What is read from the text: the relations above and below the line, and
its own between them. -/
theorem parse_eq_ok_iff (h : p.Holds line text)
    (hline : Relation.ofLine? (p.indent ++ line ++ p.trail) = .ok (some r)) {d : Diagram} :
    Diagram.parse text = .ok d ↔ ∃ rs rs', relationsOfLines p.above = .ok rs
      ∧ relationsOfLines p.below = .ok rs'
      ∧ Diagram.ofParts (blocksIn (normalize text.toList)) (rs ++ r :: rs') = d := by
  unfold Diagram.parse Diagram.ofNormalized findRelations
  rw [h, relationsOfLines_append, relationsOfLines, hline]
  cases relationsOfLines p.above with
  | error e =>
      constructor
      · intro h
        cases h
      · rintro ⟨_, _, h, -⟩
        cases h
  | ok rs =>
      cases relationsOfLines p.below with
      | error e =>
          constructor
          · intro h
            cases h
          · rintro ⟨_, _, -, h, -⟩
            cases h
      | ok rs' =>
          constructor
          · intro h
            exact ⟨rs, rs', rfl, rfl, Except.ok.inj h⟩
          · rintro ⟨_, _, ⟨⟩, ⟨⟩, h⟩
            exact congrArg Except.ok h

theorem not_mem_blanks (h : p.Holds line text) :
    '\n' ∉ p.indent ∧ '\n' ∉ p.trail := by
  have hline : '\n' ∉ p.indent ++ line ++ p.trail :=
    not_mem_of_mem_pieces (s := normalize text.toList) (by
      show _ ∈ lines (normalize text.toList)
      rw [h]
      simp)
  simp only [List.mem_append, not_or] at hline
  exact ⟨hline.1.1, hline.2⟩

/-- Arrows between names that may stand for each other declare the same
around them. -/
theorem ofParts_blocksIn_eq {a b a' b' : String} {arrow arrow' : Arrow}
    {text' : String} (ha : IsName a.toList) (hb : IsName b.toList)
    (harrow : arrow.Extends) (ha' : IsName a'.toList) (hb' : IsName b'.toList)
    (harrow' : arrow'.Extends)
    (h : p.Holds (arrowLine a.toList arrow b.toList) text)
    (h' : p.Holds (arrowLine a'.toList arrow' b'.toList) text')
    (hwaits : ¬ p.zone.AwaitsName)
    (hright : b = b' ∨ ¬ IsKeyword b.toList ∧ ¬ IsKeyword b'.toList)
    (hbody : ∀ k, p.zone.bodyOf? = some k → a = a' ∧ k ≠ .enumBlock)
    (relations : List Relation) :
    Diagram.ofParts (blocksIn (normalize text'.toList)) relations
      = Diagram.ofParts (blocksIn (normalize text.toList)) relations := by
  have hplain : ∀ {n m : List Char} {arrow : Arrow}, IsName n → IsName m →
      arrow.Extends → Plain (p.indent ++ arrowLine n arrow m ++ p.trail) :=
    fun hn hm harrow => (p.indent_blank.plain.append (arrowLine_plain hn hm harrow)).append
      p.trail_blank.plain
  have hcomment : ∀ {n m : List Char} {arrow : Arrow}, IsName n →
      isComment (p.indent ++ arrowLine n arrow m ++ p.trail) = false := by
    intro n m arrow hn
    rw [List.append_assoc]
    exact isComment_arrowLine p.indent_blank hn p.trail
  refine Diagram.ofParts_congr_declared (map_declared_exchange h' h (hplain ha' hb' harrow')
    (hcomment ha') (hplain ha hb harrow) (hcomment ha) ?_) relations
  refine (afterLines_walkOver p.above).sameAhead_drawn p.indent_blank p.trail_blank
    (not_mem_blanks h) ha' hb' harrow' ha hb harrow hwaits ?_ fun k hk => ?_
  · rcases hright with rfl | ⟨hright, hright'⟩
    · exact Or.inl rfl
    · exact Or.inr ⟨hright', hright⟩
  · obtain ⟨rfl, hk⟩ := hbody k hk
    exact ⟨rfl, hk⟩

end LinePlace

-- ============================================================ the theorem

section sides

variable {p : LinePlace} {text : String} {a b : String} {d : Diagram}

/-- The name on the left of an inheritance arrow is the parent, and the name
on the right is composed of it, whichever way the arrow points: turning the
arrow leaves all component schemas as they are, unless a keyword waits for its
name before the line or the line is a value of an enum. So the mirror image of
the line exchanges parent and child. It leaves the schemas of all other names as
they are, and all schemas only if the two keep their parents, for which other
lines have to give both relations already. -/
theorem left_name_is_parent (hparse : Diagram.parse text = .ok d)
    (htext : p.Holds (arrowLine a.toList .extendsLeft b.toList) text)
    (ha : IsEndpoint a.toList) (hb : IsEndpoint b.toList) (hne : a ≠ b)
    (hmema : a ∈ d.entityNames) (hmemb : b ∈ d.entityNames) :
    d.componentSchemas.Composes b a ∧
    (∀ turned, p.Holds (arrowLine a.toList .extendsRight b.toList) turned →
      ¬ p.zone.AwaitsName → p.zone.bodyOf? ≠ some .enumBlock →
      ∃ d₁, Diagram.parse turned = .ok d₁ ∧ d₁.componentSchemas = d.componentSchemas) ∧
    (∀ mirrored, p.Holds (arrowLine b.toList .extendsRight a.toList) mirrored →
      ¬ p.zone.AwaitsName → p.zone.bodyOf? = none →
      ¬ IsKeyword a.toList → ¬ IsKeyword b.toList →
      ∃ d₂ others, Diagram.parse mirrored = .ok d₂
        ∧ relationsOfLines (p.above ++ p.below) = .ok others
        ∧ (∀ child parent, d.componentSchemas.Composes child parent
            ↔ child = b ∧ parent = a ∨ d.Inherits others child parent)
        ∧ (∀ child parent, d₂.componentSchemas.Composes child parent
            ↔ child = a ∧ parent = b ∨ d.Inherits others child parent)
        ∧ d₂.componentSchemas.keys = d.componentSchemas.keys
        ∧ (∀ name, name ≠ a → name ≠ b →
            d₂.componentSchemas.get? name = d.componentSchemas.get? name)
        ∧ (d₂.componentSchemas = d.componentSchemas
            ↔ d₂.parentsOf a = d.parentsOf a ∧ d₂.parentsOf b = d.parentsOf b)
        ∧ (d₂.componentSchemas = d.componentSchemas →
            d.Inherits others b a ∧ d.Inherits others a b)) := by
  have hleft : Arrow.Extends .extendsLeft := Or.inl rfl
  have hright : Arrow.Extends .extendsRight := Or.inr rfl
  have hread : ∀ {x y : String} {arrow : Arrow}, IsEndpoint x.toList →
      IsEndpoint y.toList → Relation.ofLine? (p.indent ++ arrowLine x.toList arrow y.toList
        ++ p.trail) = .ok (some (.drawn x arrow y)) := fun hx hy =>
    Relation.ofLine?_drawn hx hy _ p.indent_blank p.trail_blank
  obtain ⟨rs, rs', habove, hbelow, hd⟩ :=
    (LinePlace.parse_eq_ok_iff htext (hread ha hb)).mp hparse
  have hothers : relationsOfLines (p.above ++ p.below) = .ok (rs ++ rs') := by
    rw [relationsOfLines_append, habove, hbelow]
    rfl
  -- what the text declares stays, and the relation of the line changes
  obtain ⟨base, hbase⟩ : ∃ base : Diagram, ∀ relations,
      Diagram.ofParts (blocksIn (normalize text.toList)) relations
        = base.withRelations relations := ⟨Diagram.ofParts _ [], fun _ => rfl⟩
  rw [hbase] at hd
  subst hd
  have hmema' : a ∈ base.entityNames := hmema
  have hmemb' : b ∈ base.entityNames := hmemb
  have hcomposes : ∀ child parent,
      (base.withRelations
          (rs ++ Relation.drawn a .extendsLeft b :: rs')).componentSchemas.Composes child parent
        ↔ child = b ∧ parent = a ∨ base.Inherits (rs ++ rs') child parent :=
    Diagram.composes_drawn hleft hne hmema' hmemb'
  refine ⟨(hcomposes b a).mpr (Or.inl ⟨rfl, rfl⟩), fun turned hturned hwaits hbody => ?_,
    fun mirrored hmirrored hwaits hfree hkeya hkeyb => ?_⟩
  · have hblocks := LinePlace.ofParts_blocksIn_eq ha.toIsName hb.toIsName hleft ha.toIsName
      hb.toIsName hright htext hturned hwaits (Or.inl rfl)
      (fun k hk => ⟨rfl, fun heq => hbody (heq ▸ hk)⟩)
      (rs ++ Relation.drawn a .extendsRight b :: rs')
    rw [hbase] at hblocks
    refine ⟨_, (LinePlace.parse_eq_ok_iff hturned (hread ha hb)).mpr
      ⟨rs, rs', habove, hbelow, hblocks⟩, ?_⟩
    exact Diagram.componentSchemas_turned hleft hright base rs rs' a b
  · have hblocks := LinePlace.ofParts_blocksIn_eq ha.toIsName hb.toIsName hleft hb.toIsName
      ha.toIsName hright htext hmirrored hwaits (Or.inr ⟨hkeyb, hkeya⟩)
      (fun k hk => absurd (hfree.symm.trans hk) (by simp))
      (rs ++ Relation.drawn b .extendsRight a :: rs')
    rw [hbase] at hblocks
    refine ⟨_, rs ++ rs', (LinePlace.parse_eq_ok_iff hmirrored (hread hb ha)).mpr
      ⟨rs, rs', habove, hbelow, hblocks⟩, hothers, hcomposes,
      Diagram.composes_drawn hright (Ne.symm hne) hmemb' hmema',
      Diagram.keys_componentSchemas_congr (Diagram.withoutInheritance_mirrored hleft hright),
      fun name => Diagram.get?_componentSchemas_mirrored hleft hright, ?_,
      Diagram.inherits_of_componentSchemas_mirrored hleft hright hne hmema' hmemb'⟩
    rw [Diagram.componentSchemas_mirrored_iff hleft hright hmema' hmemb']
    simp

end sides

/-- The place of an indented line behind a class and an interface. -/
def behindTwo : LinePlace where
  above := ["class Base \x7b\x7d".toList, "interface Item \x7b".toList, "\x7d".toList]
  indent := [' ', ' ']
  below := [[]]

/-- What a text with a line in that place looks like. -/
def twoWith (line : String) : String :=
  "class Base \x7b\x7d\ninterface Item \x7b\n\x7d\n  " ++ line ++ "\n"

/-- The diagram of two entities with one inheritance. -/
def twoRelated (source symbol target : String) : Diagram where
  classes := [{ name := "Base" }]
  interfaces := [{ name := "Item", kind := .interfaceEntity }]
  relations := [{ source, target, kind := .inheritance, symbol }]

/-- No other line relates the two, so turning the arrow keeps the schemas and
mirroring it does not. -/
theorem left_name_is_parent_of_only_line :
    behindTwo.Holds (arrowLine "Base".toList .extendsLeft "Item".toList)
        (twoWith "Base <|-- Item")
      ∧ Diagram.parse (twoWith "Base <|-- Item") = .ok (twoRelated "Base" "<|--" "Item")
      ∧ (twoRelated "Base" "<|--" "Item").componentSchemas.Composes "Item" "Base"
      ∧ (∃ d₁, Diagram.parse (twoWith "Base --|> Item") = .ok d₁
        ∧ d₁.componentSchemas = (twoRelated "Base" "<|--" "Item").componentSchemas)
      ∧ ∃ d₂, Diagram.parse (twoWith "Item --|> Base") = .ok d₂
        ∧ d₂.componentSchemas.Composes "Base" "Item"
        ∧ d₂.componentSchemas ≠ (twoRelated "Base" "<|--" "Item").componentSchemas := by
  have hparse : Diagram.parse (twoWith "Base <|-- Item")
      = .ok (twoRelated "Base" "<|--" "Item") := by decide +kernel
  have htext : behindTwo.Holds (arrowLine "Base".toList .extendsLeft "Item".toList)
      (twoWith "Base <|-- Item") := by unfold LinePlace.Holds; decide +kernel
  have hturned : behindTwo.Holds (arrowLine "Base".toList .extendsRight "Item".toList)
      (twoWith "Base --|> Item") := by unfold LinePlace.Holds; decide +kernel
  have hmirrored : behindTwo.Holds (arrowLine "Item".toList .extendsRight "Base".toList)
      (twoWith "Item --|> Base") := by unfold LinePlace.Holds; decide +kernel
  have hbase : IsEndpoint "Base".toList := ⟨by decide, 'B', by decide⟩
  have hitem : IsEndpoint "Item".toList := ⟨by decide, 'I', by decide⟩
  obtain ⟨hcomposes, hsame, hmoved⟩ := left_name_is_parent hparse htext
    hbase hitem (by decide) (by decide) (by decide)
  have hwaits : ¬ behindTwo.zone.AwaitsName := by decide +kernel
  have hfree : behindTwo.zone.bodyOf? = none := by decide +kernel
  obtain ⟨d₂, others, hparse₂, hothers, -, hcomposes₂, -, -, -, hneeds⟩ :=
    hmoved _ hmirrored hwaits hfree (by decide) (by decide)
  have hnone : others = [] := by
    have hread : relationsOfLines (behindTwo.above ++ behindTwo.below) = .ok [] := by
      decide +kernel
    exact Except.ok.inj (hothers.symm.trans hread)
  refine ⟨htext, hparse, hcomposes, hsame _ hturned hwaits (by simp [hfree]), d₂, hparse₂,
    (hcomposes₂ _ _).mpr (Or.inl ⟨rfl, rfl⟩), fun heq => ?_⟩
  obtain ⟨⟨r, hr, -⟩, -⟩ := hneeds heq
  rw [hnone] at hr
  cases hr

/-- With the mirror image of its line a class loses its parent and becomes
one. -/
theorem mirrored_line_moves_parent :
    ∃ d d₂, behindTwo.Holds (arrowLine "Base".toList .extendsLeft "Item".toList)
        (twoWith "Base <|-- Item")
      ∧ behindTwo.Holds (arrowLine "Item".toList .extendsRight "Base".toList)
        (twoWith "Item --|> Base")
      ∧ Diagram.parse (twoWith "Base <|-- Item") = .ok d
      ∧ Diagram.parse (twoWith "Item --|> Base") = .ok d₂
      ∧ "Base" ∈ d.entityNames ∧ "Item" ∈ d.entityNames
      ∧ d.componentSchemas.Composes "Item" "Base"
      ∧ ¬ d₂.componentSchemas.Composes "Item" "Base"
      ∧ d₂.componentSchemas ≠ d.componentSchemas := by
  have hforth : (twoRelated "Base" "<|--" "Item").componentSchemas.Composes "Item" "Base" := by
    rw [Builder.composes_load_new]
    exact ⟨_, List.mem_cons_self .., rfl, rfl, rfl, by decide, by decide, by decide⟩
  have hback : ¬ (twoRelated "Item" "--|>" "Base").componentSchemas.Composes
      "Item" "Base" := by
    rw [Builder.composes_load_new]
    rintro ⟨r, hr, -, htarget, -⟩
    rw [List.mem_singleton.mp hr] at htarget
    exact absurd htarget (by decide)
  refine ⟨twoRelated "Base" "<|--" "Item", twoRelated "Item" "--|>" "Base", ?_, ?_,
    by decide +kernel, by decide +kernel, by decide, by decide, hforth, hback,
    fun heq => hback (heq ▸ hforth)⟩
  · unfold LinePlace.Holds
    decide +kernel
  · unfold LinePlace.Holds
    decide +kernel

end ApiScaffold
