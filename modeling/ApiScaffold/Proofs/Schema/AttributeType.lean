/-
From the line of an attribute to the schema of its property. The type on the
line is kept as far as type characters go (`keptType`), so a type that a
builder understands is kept in full unless it is `date-time`, which loses its
second half and becomes a date (`TypeSpelling`).

The attribute then is one write among those to the schema of its class. Where
it is the last write of its name, its type alone decides the property: the
writes of a class come as attributes of its declarations, in order, and then
those of relations, so what may come later is listed by the three conditions
of `WrittenLast`.
-/
import ApiScaffold.Proofs.Diagram.DeclaredName
import ApiScaffold.Proofs.Schema.Projection
import ApiScaffold.Proofs.Schema.TypeSpelling

namespace ApiScaffold

-- =================================================== statement vocabulary

/-- The attributes of lines, in order. -/
def attributesOfLines (ls : List (List Char)) : List Attribute :=
  (ls.filterMap Member.ofLine?).filterMap Member.attribute?

/-- What a member line keeps of a type. -/
def keptType (type : String) : String :=
  String.ofList (type.toList.takeWhile Member.isTypeChar)

/-- The schema of a property in the JSON of the component of a class or interface. -/
def Diagram.writtenProperty? (d : Diagram) (name property : String) : Option Json :=
  ((d.componentSchemas.get? name).bind fun c => c.toJson.ownSchema?).bind
    (·.property? property)

/-- Nothing after an attribute writes its property: no attribute behind it in
its declaration, no later declaration of the name, and no relation. -/
structure Diagram.WrittenLast (d : Diagram) (name property : String)
    (behind : List Attribute) (later : List Entity) : Prop where
  behind : ∀ a ∈ behind, a.name ≠ property
  later : ∀ e ∈ later, e.name = name → ∀ a ∈ e.attributes, a.name ≠ property
  relations : ∀ r ∈ d.relations, d.givesProperty r = true → r.source = name →
    propertyName r.target ≠ property

-- ================================================================= lines

theorem keptType_eq_self {type : String} (h : IsTypeToken type.toList) :
    keptType type = type := by
  unfold keptType
  rw [List.takeWhile_eq_self_iff.mpr h.type, String.ofList_toList]

/-- A type is kept up to its hyphen. -/
theorem keptType_eq_of_hyphen {type : String} {front back : List Char}
    (h : type.toList = front ++ '-' :: back) (hfront : IsTypeToken front) :
    keptType type = String.ofList front := by
  have hstop : ∀ c ∈ ('-' :: back).head?, Member.isTypeChar c = false := by
    rintro c ⟨⟩
    decide
  unfold keptType
  rw [h, (run_append hfront.type hstop).1]

/-- An understood type is kept in full unless it has a hyphen. -/
theorem Diagram.Understands.keptType_eq_iff {d : Diagram} {type : String}
    (h : d.Understands type)
    (hnames : ∀ name ∈ d.declaredNames, IsName name.toList) :
    keptType type = type ↔ lowerText type ≠ "date-time" := by
  refine ⟨fun hkept hdate => ?_, fun hne => ?_⟩
  · obtain ⟨front, back, heq, hfront, -, -⟩ := exists_cut_of_date_time hdate
    have hlength := congrArg String.toList hkept
    rw [keptType_eq_of_hyphen heq hfront, String.toList_ofList, heq] at hlength
    simp at hlength
  · exact keptType_eq_self (h.isTypeToken hnames hne)

/-- What is kept of an understood type means what the type means, or, of
the one with a hyphen, a date. -/
theorem Diagram.Understands.fragmentOfType_keptType {d : Diagram}
    {type : String} (h : d.Understands type)
    (hnames : ∀ name ∈ d.declaredNames, IsName name.toList) :
    fragmentOfType d.declaredNames (some (keptType type))
      = if lowerText type = "date-time" then .plain "string" (some "date")
        else fragmentOfType d.declaredNames (some type) := by
  by_cases hdate : lowerText type = "date-time"
  · obtain ⟨front, back, heq, hfront, -, hlower⟩ :=
      exists_cut_of_date_time hdate
    rw [if_pos hdate, keptType_eq_of_hyphen heq hfront]
    exact fragmentOfType_date d.declaredNames hfront hlower
  · rw [if_neg hdate, (h.keptType_eq_iff hnames).mpr hdate]

/-- A type with a hyphen is read up to it. -/
theorem Member.ofLine?_of_hyphen {a : Attribute} (hname : IsName a.name.toList)
    {type : String} (htype : a.type = some type) {front back : List Char}
    (heq : type.toList = front ++ '-' :: back) (hfront : IsTypeToken front)
    (hback : IsTypeToken back) :
    ofLine? a.printed
      = some (.attribute { a with type := some (String.ofList front) }) := by
  have hline : printedType a.type = ':' :: ' ' :: (front ++ '-' :: back) := by
    rw [htype, printedType, heq]
  have hend : InkEnd (printedType a.type) := by
    have hlast : InkEnd back := inkEnd_of_ink fun c hc =>
      isBlank_of_isTypeChar (hback.type c hc)
    rw [hline, List.append_cons, ← List.cons_append, ← List.cons_append]
    exact hlast.append_left hback.ne_nil _
  have hparen : '(' ∉ printedType a.type := by
    have hnot : ∀ s, IsTypeToken s → '(' ∉ s := fun s hs hmem =>
      ne_of_isTypeChar (hs.type _ hmem) (by decide) rfl
    rw [hline]
    simp [hnot front hfront, hnot back hback]
  have hstop : ∀ c ∈ ('-' :: back).head?, isTypeChar c = false := by
    rintro c ⟨⟩
    decide
  have hread := ofLine?_of_name a.access hname (head?_printedType a.type)
    hend hparen
  rw [hline, typeAfterColon?_append hfront hstop, String.ofList_toList,
    ← hline] at hread
  exact hread

/-- The attribute of a line has what is kept of its type. -/
theorem Diagram.Understands.ofLine?_attribute {d : Diagram} {a : Attribute}
    {type : String} (h : d.Understands type)
    (hnames : ∀ name ∈ d.declaredNames, IsName name.toList)
    (hname : IsName a.name.toList) (htype : a.type = some type) :
    Member.ofLine? a.printed
      = some (.attribute { a with type := some (keptType type) }) := by
  by_cases hdate : lowerText type = "date-time"
  · obtain ⟨front, back, heq, hfront, hback, -⟩ :=
      exists_cut_of_date_time hdate
    rw [keptType_eq_of_hyphen heq hfront]
    exact Member.ofLine?_of_hyphen hname htype heq hfront hback
  · have hfull := h.isTypeToken hnames hdate
    have hcanonical : a.Canonical := ⟨hname, by simpa [htype] using hfull⟩
    rw [Member.ofLine?_attribute hcanonical, keptType_eq_self hfull, ← htype]

/-- Where one line is an attribute, the attributes of lines are those before
it, it, and those after it. -/
theorem attributesOfLines_append_cons {line : List Char} {a : Attribute}
    (h : Member.ofLine? line = some (.attribute a))
    (before after : List (List Char)) :
    attributesOfLines (before ++ line :: after)
      = attributesOfLines before ++ a :: attributesOfLines after := by
  unfold attributesOfLines
  rw [List.filterMap_append, List.filterMap_append,
    List.filterMap_cons_some h]
  rfl

-- ================================================================ writes

/-- The last write of a name, if no later one has the name. -/
theorem lastWrite?_append_cons {ws vs : List Write} {w : Write}
    (h : ∀ v ∈ vs, v.name ≠ w.name) :
    lastWrite? (ws ++ w :: vs) w.name = some w := by
  have hnone : vs.reverse.find? (·.name == w.name) = none := by
    rw [List.find?_eq_none]
    intro v hv heq
    exact h v (List.mem_reverse.mp hv) (beq_iff_eq.mp heq)
  unfold lastWrite?
  rw [List.reverse_append, List.reverse_cons, List.append_assoc,
    List.find?_append, hnone, Option.none_or, List.singleton_append,
    List.find?_cons, beq_self_eq_true]

/-- A property of a draft has the schema of its last write. -/
theorem Draft.get?_properties_takeAll (ws : List Write) (lines : List String)
    (name : String) :
    ((takeAll {} ws).noteAll lines).properties.get? name
      = (lastWrite? ws name).map Write.schema := by
  rw [properties_noteAll, properties_takeAll]
  show (OrderedMap.ofList _).get? name = _
  rw [OrderedMap.get?_ofList, ← List.map_reverse, lookup_map_pair]
  rfl

/-- The writes to a schema are those of its declarations and of the
relations from it. -/
theorem Diagram.writesTo_eq {d : Diagram} {name : String}
    (hname : name ∈ d.entityNames) :
    d.writesTo name
      = (d.entities.filter (·.name == name)).flatMap d.writesOf
        ++ (d.relations.filter (·.source == name)).flatMap d.writesBy := by
  rw [Diagram.flatMap_writesBy hname]
  rfl

theorem Diagram.mem_entityNames_of_eq {d : Diagram} {e : Entity}
    {earlier later : List Entity} (h : d.entities = earlier ++ e :: later) :
    e.name ∈ d.entityNames := by
  unfold Diagram.entityNames
  rw [h]
  exact List.mem_map_of_mem (List.mem_append_right _ (List.mem_cons_self ..))

namespace Diagram.WrittenLast

variable {d : Diagram} {e : Entity} {a : Attribute}
  {earlier later : List Entity} {front behind : List Attribute}

/-- Behind an attribute that is written last come writes of other names. -/
theorem exists_writesTo (h : d.WrittenLast e.name a.name behind later)
    (hentities : d.entities = earlier ++ e :: later)
    (hattributes : e.attributes = front ++ a :: behind) :
    ∃ ws vs, d.writesTo e.name
        = ws ++ ⟨a.name, fragmentOfType d.declaredNames a.type,
            a.access == .pub⟩ :: vs
      ∧ ∀ v ∈ vs, v.name ≠ a.name := by
  have hname := mem_entityNames_of_eq hentities
  have hsplit : d.entities.filter (·.name == e.name)
      = earlier.filter (·.name == e.name)
        ++ e :: later.filter (·.name == e.name) := by
    rw [hentities, List.filter_append, List.filter_cons_of_pos (by simp)]
  refine ⟨(earlier.filter (·.name == e.name)).flatMap d.writesOf
      ++ d.writesOf { e with attributes := front },
    d.writesOf { e with attributes := behind }
      ++ ((later.filter (·.name == e.name)).flatMap d.writesOf
        ++ (d.relations.filter (·.source == e.name)).flatMap d.writesBy),
    ?_, ?_⟩
  · rw [Diagram.writesTo_eq hname, hsplit, List.flatMap_append,
      List.flatMap_cons]
    unfold Diagram.writesOf
    rw [hattributes]
    simp
  · refine List.forall_mem_append.mpr ⟨?_, List.forall_mem_append.mpr ⟨?_, ?_⟩⟩
    · intro v hv
      obtain ⟨a', ha', rfl⟩ := List.mem_map.mp hv
      exact h.behind a' ha'
    · intro v hv
      obtain ⟨e', he', hwrite⟩ := List.mem_flatMap.mp hv
      obtain ⟨a', ha', rfl⟩ := List.mem_map.mp hwrite
      obtain ⟨hlater, heq⟩ := List.mem_filter.mp he'
      exact h.later e' hlater (beq_iff_eq.mp heq) a' ha'
    · intro v hv
      obtain ⟨r, hr, hwrite⟩ := List.mem_flatMap.mp hv
      obtain ⟨hrelation, hsource⟩ := List.mem_filter.mp hr
      unfold Diagram.writesBy at hwrite
      split at hwrite
      next hgives =>
        rw [List.mem_singleton.mp hwrite]
        exact h.relations r hrelation hgives (beq_iff_eq.mp hsource)
      next => cases hwrite

/-- An attribute that is written last decides its property. -/
theorem get?_property (h : d.WrittenLast e.name a.name behind later)
    (hentities : d.entities = earlier ++ e :: later)
    (hattributes : e.attributes = front ++ a :: behind) :
    ∃ own, (d.componentSchemas.get? e.name).bind Component.own? = some own
      ∧ own.properties.get? a.name
        = some (fragmentOfType d.declaredNames a.type) := by
  have hname := mem_entityNames_of_eq hentities
  obtain ⟨ws, vs, hwrites, hlast⟩ := h.exists_writesTo hentities hattributes
  refine ⟨(Builder.new d).load.draftOf e.name, ?_, ?_⟩
  · rw [Diagram.get?_componentSchemas hname, Option.bind_some]
    exact Builder.own?_componentOf _ _ _
  · rw [Builder.draftOf_load_new hname, Draft.get?_properties_takeAll,
      hwrites, lastWrite?_append_cons hlast]
    rfl

end Diagram.WrittenLast

/-- A property of an own schema is found in the JSON of its component. -/
theorem Diagram.writtenProperty?_of_own {d : Diagram} {name property : String}
    {own : Draft} {f : Fragment}
    (hown : (d.componentSchemas.get? name).bind Component.own? = some own)
    (hproperty : own.properties.get? property = some f) :
    d.writtenProperty? name property = some f.toJson := by
  obtain ⟨c, hc, hown⟩ := Option.bind_eq_some_iff.mp hown
  unfold writtenProperty?
  rw [hc, Option.bind_some, Component.ownSchema?_toJson hown, Option.bind_some,
    Draft.property?_toJson, hproperty]
  rfl

-- ============================================================ attributes

/-- A line `+name: T` in a class or interface, with a type that means
something in its diagram, is read as an attribute of that name and access.
Where nothing later writes its property, the property has the schema of the
type, in the draft of its class and in the JSON of the component. Both hold for
every type but `date-time` in some letter case, which is read up to its hyphen
and becomes a date without a time. -/
theorem attribute_line_decides_property {text : String} {d : Diagram}
    (hparse : Diagram.parse text = .ok d) {b : Block}
    (hb : b ∈ blocksIn (normalize text.toList))
    (hkeyword : b.keyword ≠ .enumBlock) {a : Attribute}
    (hname : IsName a.name.toList) {type : String}
    (htype : a.type = some type) (hunderstood : d.Understands type)
    {before after : List (List Char)}
    (hbody : contentLines b.body = before ++ a.printed :: after) :
    (keptType type = type ↔ lowerText type ≠ "date-time")
      ∧ ∃ e ∈ d.entities, e.name = String.ofList b.name
        ∧ e.attributes = attributesOfLines before
          ++ { a with type := some (keptType type) } :: attributesOfLines after
        ∧ ∀ earlier later, d.entities = earlier ++ e :: later →
          d.WrittenLast e.name a.name (attributesOfLines after) later →
          let schema : Fragment :=
            if lowerText type = "date-time" then .plain "string" (some "date")
            else fragmentOfType d.declaredNames (some type)
          (∃ own, (d.componentSchemas.get? e.name).bind Component.own? = some own
              ∧ own.properties.get? a.name = some schema)
            ∧ ∃ j, d.writtenProperty? e.name a.name = some j ∧ schema.WrittenAs j := by
  have hnames : ∀ name ∈ d.declaredNames, IsName name.toList :=
    fun name => Diagram.isName_of_mem_declaredNames hparse
  obtain ⟨kind, hmem⟩ := Diagram.exists_ofBlock_mem_entities hparse hb hkeyword
  have hattributes : (Entity.ofBlock kind b).attributes
      = attributesOfLines before
        ++ { a with type := some (keptType type) } :: attributesOfLines after := by
    show attributesOfLines (contentLines b.body) = _
    rw [hbody]
    exact attributesOfLines_append_cons
      (hunderstood.ofLine?_attribute hnames hname htype) before after
  refine ⟨hunderstood.keptType_eq_iff hnames, Entity.ofBlock kind b, hmem, rfl,
    hattributes, fun earlier later hentities hlast => ?_⟩
  obtain ⟨own, hown, hproperty⟩ := Diagram.WrittenLast.get?_property
    (a := { a with type := some (keptType type) }) hlast hentities hattributes
  rw [hunderstood.fragmentOfType_keptType hnames] at hproperty
  exact ⟨⟨own, hown, hproperty⟩, _, Diagram.writtenProperty?_of_own hown hproperty,
    Fragment.writtenAs_toJson _⟩

/-- A collection between a method and another attribute. -/
theorem attribute_line_decides_property_of_collection :
    let text := "interface A \x7b\n+go()\n-ids: List<UUID>\n+on: Date\n\x7d\n"
    ∃ d, Diagram.parse text = .ok d
      ∧ (∃ own, (d.componentSchemas.get? "A").bind Component.own? = some own
        ∧ own.properties.get? "ids"
          = some (.array (.plain "string" (some "uuid")) none none))
      ∧ d.writtenProperty? "A" "ids"
        = some (.obj [("type", .str "array"),
          ("items", .obj [("type", .str "string"), ("format", .str "uuid")])]) := by
  intro text
  have hparse : Diagram.parse text = .ok {
      interfaces := [{
        name := "A", kind := .interfaceEntity,
        attributes := [⟨"ids", some "List<UUID>", .priv⟩,
          ⟨"on", some "Date", .pub⟩],
        methods := [⟨"go", none, .pub⟩] }] } := by
    decide +kernel
  have hblock : ⟨.interfaceBlock, "A".toList,
      "\n+go()\n-ids: List<UUID>\n+on: Date\n".toList⟩
      ∈ blocksIn (normalize text.toList) := by
    decide +kernel
  let a : Attribute := ⟨"ids", some "List<UUID>", .priv⟩
  have hname : IsName a.name.toList :=
    ⟨by decide, List.all_eq_true.mp (by decide)⟩
  have hbody : contentLines "\n+go()\n-ids: List<UUID>\n+on: Date\n".toList
      = ["+go()".toList] ++ a.printed :: ["+on: Date".toList] := by
    decide +kernel
  obtain ⟨-, e, he, -, -, hproperty⟩ :=
    attribute_line_decides_property hparse hblock (by decide) hname rfl
      (Or.inr (Or.inr (by decide))) hbody
  obtain rfl := List.mem_singleton.mp he
  obtain ⟨hown, j, hj, hwritten⟩ :=
    hproperty [] [] rfl ⟨by decide +kernel, by simp, by simp⟩
  exact ⟨_, hparse, hown, hj.trans (congrArg some hwritten.eq_toJson)⟩

/-- The type `date-time` is in the table, but its line gives a date. -/
theorem date_time_line_becomes_date :
    let text := "class A \x7b\n+created: date-time\n\x7d\n"
    ∃ d, Diagram.parse text = .ok d ∧ d.Understands "date-time"
      ∧ d.entities = [{
        name := "A", attributes := [⟨"created", some "date", .pub⟩] }]
      ∧ fragmentOfType d.declaredNames (some "date-time")
        = .plain "string" (some "date-time")
      ∧ (∃ own, (d.componentSchemas.get? "A").bind Component.own? = some own
        ∧ own.properties.get? "created" = some (.plain "string" (some "date")))
      ∧ d.writtenProperty? "A" "created"
        = some (.obj [("type", .str "string"), ("format", .str "date")]) := by
  intro text
  let e : Entity := { name := "A", attributes := [⟨"created", some "date", .pub⟩] }
  let d : Diagram := { classes := [e] }
  have hlast : d.WrittenLast "A" "created" [] [] :=
    ⟨by simp, by simp, by simp [d]⟩
  have hentities : d.entities = [] ++ e :: [] := rfl
  have hattributes : e.attributes = [] ++ ⟨"created", some "date", .pub⟩ :: [] :=
    rfl
  obtain ⟨own, hown, hproperty⟩ := hlast.get?_property hentities hattributes
  exact ⟨d, by decide +kernel, Or.inl (by decide +kernel), rfl,
    fragmentOfType_date_time _ (by decide +kernel), ⟨own, hown, hproperty⟩,
    Diagram.writtenProperty?_of_own hown hproperty⟩

end ApiScaffold
