/-
The object schema of a class or interface in closed form. Everything
that concerns a name is a list of writes (`Diagram.writesTo`): the
attributes of all declarations with that name, then the reference
properties of the relations from it. The schema is a projection of that
list, in which the last write of a name wins:

- the properties are the names written, in the order of their first
  writes, each with the schema of its last;
- the required names are those whose last write requires them. Their
  order is that of the writes that settled it (`settlesAt`): a write that
  requires its name, when the write before it did not, and that no later
  one takes back;
- the description is the method notes of the declarations, one a line.

All three are proved by appending one write, or one note, at the end. For
the required names the invariant is double: a name is among them exactly
when its last write requires it, and it is so once. The first decides
whether a write adds its name, the second that erasing a name is
filtering it out.
-/
import ApiScaffold.Proofs.Schema.Building
import ApiScaffold.Proofs.Schema.Written
import Mathlib.Data.List.Basic
import Mathlib.Data.List.Induction
import Mathlib.Data.List.Nodup

namespace ApiScaffold

-- =================================================== statement vocabulary

/-- The last write of a name. -/
def lastWrite? (ws : List Write) (name : String) : Option Write :=
  ws.reverse.find? (·.name == name)

/-- Whether the last write of a name requires it. -/
def requires (ws : List Write) (name : String) : Bool :=
  (lastWrite? ws name).any Write.required

/-- Whether write `i` settles that its name is required: it requires it,
the writes before it do not, and every later one of that name does. -/
def settlesAt (ws : List Write) (i : Nat) : Bool :=
  match ws[i]? with
  | some w =>
    w.required && !requires (ws.take i) w.name
      && (ws.drop (i + 1)).all fun v => v.name != w.name || v.required
  | none => false

/-- The names that writes make required, in the order in which that was
settled. -/
def requiredNames (ws : List Write) : List String :=
  (List.range ws.length).filterMap fun i =>
    if settlesAt ws i then ws[i]?.map Write.name else none

/-- The properties that writes leave: names in the order of their first
writes, each with the schema of its last. -/
def propertiesOf (ws : List Write) : List (String × Fragment) :=
  (ws.map Write.name).eraseDups.filterMap fun name =>
    (lastWrite? ws name).map fun w => (name, w.schema)

/-- Everything written to the schema of a name: the attributes of its
declarations, classes first, then the reference properties of the
relations from it to a declared name. -/
def Diagram.writesTo (d : Diagram) (name : String) : List Write :=
  ((d.classes ++ d.interfaces).filter (·.name == name)).flatMap
      (fun e => e.attributes.map fun a =>
        ⟨a.name, fragmentOfType d.declaredNames a.type, a.access == .pub⟩)
    ++ (d.relations.filter fun r =>
        (r.kind == .composition || r.kind == .aggregation
            || r.kind == .association)
          && r.source == name && d.declaredNames.contains r.target).map
      fun r => ⟨String.ofList (lower (r.target.toList.take 1) ++ r.target.toList.drop 1),
        (Decision.ofCardinality? r.toCardinality).schema r.target,
        (Decision.ofCardinality? r.toCardinality).required⟩

/-- A line of a description: all methods of a declaration, each with its access,
its name and its result if it names one. -/
def Entity.methodNote (e : Entity) : String :=
  "Methods: " ++ ", ".intercalate (e.methods.map fun m =>
    m.access.name ++ " " ++ m.name ++ "()"
      ++ m.returnType.elim "" fun t => if t = "" then "" else ": " ++ t)

/-- The method notes of the declarations of a name. -/
def Diagram.notesOn (d : Diagram) (name : String) : List String :=
  ((d.classes ++ d.interfaces).filter fun e =>
    e.name == name && !e.methods.isEmpty).map Entity.methodNote

-- ============================================================ last writes

theorem lastWrite?_append_one (ws : List Write) (w : Write) (name : String) :
    lastWrite? (ws ++ [w]) name
      = if w.name = name then some w else lastWrite? ws name := by
  unfold lastWrite?
  rw [List.reverse_append, List.reverse_singleton, List.singleton_append,
    List.find?_cons]
  by_cases h : w.name = name
  · rw [if_pos h, beq_iff_eq.mpr h]
  · rw [if_neg h, beq_eq_false_iff_ne.mpr h]

theorem requires_append_one (ws : List Write) (w : Write) (name : String) :
    requires (ws ++ [w]) name
      = if w.name = name then w.required else requires ws name := by
  unfold requires
  rw [lastWrite?_append_one]
  by_cases h : w.name = name
  · rw [if_pos h, if_pos h]
    rfl
  · rw [if_neg h, if_neg h]

-- ========================================================= required names

/-- One more write leaves an earlier one settling unless it takes the name
back. -/
theorem settlesAt_append_one_of_lt {ws : List Write} {v : Write} {i : Nat}
    (w : Write) (hv : ws[i]? = some v) :
    settlesAt (ws ++ [w]) i
      = (settlesAt ws i && (w.name != v.name || w.required)) := by
  have hlt : i < ws.length := (List.getElem?_eq_some_iff.mp hv).1
  unfold settlesAt
  rw [List.getElem?_append_left hlt, hv]
  simp only
  rw [List.take_append_of_le_length (Nat.le_of_lt hlt),
    List.drop_append_of_le_length hlt, List.all_append, List.all_cons,
    List.all_nil, Bool.and_true, Bool.and_assoc, Bool.and_assoc,
    Bool.and_assoc]

/-- The last write settles what it requires anew. -/
theorem settlesAt_append_one_last (ws : List Write) (w : Write) :
    settlesAt (ws ++ [w]) ws.length
      = (w.required && !requires ws w.name) := by
  unfold settlesAt
  rw [List.getElem?_append_right (Nat.le_refl _), Nat.sub_self]
  simp

/-- One more write keeps the required names or takes its own away, and
adds it where that is new. -/
theorem requiredNames_append_one (ws : List Write) (w : Write) :
    requiredNames (ws ++ [w])
      = (if w.required then requiredNames ws
          else (requiredNames ws).filter (· != w.name))
        ++ (if w.required && !requires ws w.name then [w.name] else []) := by
  have hlast : ([ws.length].filterMap fun i =>
      if settlesAt (ws ++ [w]) i then (ws ++ [w])[i]?.map Write.name
      else none)
      = if w.required && !requires ws w.name then [w.name] else [] := by
    rw [List.filterMap_cons, settlesAt_append_one_last,
      List.getElem?_append_right (Nat.le_refl _), Nat.sub_self]
    cases w.required && !requires ws w.name <;> rfl
  have hbefore : ((List.range ws.length).filterMap fun i =>
      if settlesAt (ws ++ [w]) i then (ws ++ [w])[i]?.map Write.name
      else none)
      = if w.required then requiredNames ws
        else (requiredNames ws).filter (· != w.name) := by
    have hkept : ∀ i ∈ List.range ws.length,
        (if settlesAt (ws ++ [w]) i then (ws ++ [w])[i]?.map Write.name
          else none)
        = (if settlesAt ws i then ws[i]?.map Write.name else none).filter
            fun n => w.required || n != w.name := by
      intro i hi
      have hlt : i < ws.length := List.mem_range.mp hi
      obtain ⟨v, hv⟩ : ∃ v, ws[i]? = some v := ⟨_, List.getElem?_eq_getElem hlt⟩
      rw [settlesAt_append_one_of_lt w hv, List.getElem?_append_left hlt, hv]
      cases settlesAt ws i with
      | false => rfl
      | true =>
          by_cases hname : v.name = w.name
          · simp [Option.filter, hname]
          · have hne : ¬ w.name = v.name := fun h => hname h.symm
            simp [Option.filter, hname, hne]
    rw [List.filterMap_congr hkept, ← List.filter_filterMap]
    change (requiredNames ws).filter _ = _
    cases hreq : w.required with
    | false => simp
    | true => simp
  unfold requiredNames at hbefore ⊢
  rw [List.length_append, List.length_singleton, List.range_succ,
    List.filterMap_append, hlast, hbefore]

/-- A name is required when its last write requires it. -/
theorem mem_requiredNames {ws : List Write} {name : String} :
    name ∈ requiredNames ws ↔ requires ws name = true := by
  induction ws using List.reverseRecOn with
  | nil => simp [requiredNames, requires, lastWrite?]
  | append_singleton ws w ih =>
      rw [requiredNames_append_one, requires_append_one]
      by_cases hname : w.name = name
      · subst hname
        cases hreq : w.required with
        | false => simp
        | true =>
            by_cases hold : requires ws w.name = true
            · simp [hold, ih.mpr hold]
            · simp [hold]
      · have hne : ¬ name = w.name := fun h => hname h.symm
        rw [if_neg hname, ← ih]
        cases hreq : w.required <;>
          cases hold : requires ws w.name <;> simp [hne]

/-- A name is required once. -/
theorem nodup_requiredNames (ws : List Write) : (requiredNames ws).Nodup := by
  induction ws using List.reverseRecOn with
  | nil => exact List.nodup_nil
  | append_singleton ws w ih =>
      rw [requiredNames_append_one]
      cases hreq : w.required with
      | false => simpa using ih.filter _
      | true =>
          by_cases hold : requires ws w.name = true
          · simpa [hold] using ih
          · have hnew : w.name ∉ requiredNames ws :=
              fun hmem => hold (mem_requiredNames.mp hmem)
            simp [hold, List.nodup_append, ih]
            exact fun a ha h => hnew (h ▸ ha)

-- ======================================================= runs of a draft

/-- Writes fill the properties like a map. -/
theorem Draft.properties_takeAll (d : Draft) (ws : List Write) :
    (d.takeAll ws).properties
      = d.properties.putAll (ws.map fun w => (w.name, w.schema)) := by
  induction ws generalizing d with
  | nil => rfl
  | cons w ws ih => exact ih (d.take w)

/-- The properties of a draft that took writes from the start. -/
theorem Draft.entries_takeAll_empty (ws : List Write) :
    (takeAll {} ws).properties.entries = propertiesOf ws := by
  rw [properties_takeAll]
  change (OrderedMap.ofList _).entries = _
  rw [OrderedMap.entries_ofList, List.map_map]
  refine List.filterMap_congr fun name _ => ?_
  rw [← List.map_reverse, lookup_map_pair, Option.map_map]
  rfl

/-- The required names of a draft that took writes from the start. -/
theorem Draft.required_takeAll_empty (ws : List Write) :
    (takeAll {} ws).required = requiredNames ws := by
  induction ws using List.reverseRecOn with
  | nil => rfl
  | append_singleton ws w ih =>
      have hstep : (takeAll {} (ws ++ [w])).required
          = if w.required then
              if (requiredNames ws).contains w.name then requiredNames ws
              else requiredNames ws ++ [w.name]
            else (requiredNames ws).erase w.name := by
        rw [takeAll_append, ← ih]
        rfl
      have hcontains : (requiredNames ws).contains w.name
          = requires ws w.name := by
        rw [Bool.eq_iff_iff, List.contains_iff_mem, mem_requiredNames]
      rw [hstep, requiredNames_append_one, hcontains]
      cases w.required with
      | false =>
          simp only [Bool.false_and, Bool.false_eq_true, if_false,
            List.append_nil]
          exact (nodup_requiredNames ws).erase_eq_filter w.name
      | true => cases requires ws w.name <;> simp

/-- Notes that are not empty are joined by line breaks. -/
theorem Draft.description_noteAll_empty {lines : List String}
    (hlines : ∀ line ∈ lines, line ≠ "") :
    (noteAll {} lines).description
      = if lines.isEmpty then none
        else some ("\n".intercalate lines) := by
  induction lines using List.reverseRecOn with
  | nil => rfl
  | append_singleton lines line ih =>
      have hbefore := ih fun l hl => hlines l (List.mem_append_left _ hl)
      rw [noteAll_append]
      change (describe _ line).description = _
      unfold describe
      simp only
      rw [hbefore]
      cases lines with
      | nil => simp
      | cons first rest =>
          have hjoined : "\n".intercalate (first :: rest) ≠ "" := by
            have hfirst := hlines first (by simp)
            cases rest with
            | nil => simpa using hfirst
            | cons second rest => simp [hfirst]
          rw [String.intercalate_append_of_ne_nil (by simp) (by simp)]
          simp [hjoined, String.isEmpty_iff]

-- ============================================================ projections

/-- A property is named by its target, with the first character in lower case. -/
theorem propertyName_eq (name : String) :
    propertyName name
      = String.ofList (lower (name.toList.take 1) ++ name.toList.drop 1) := by
  unfold propertyName
  cases name.toList <;> rfl

/-- The note of an entity lists its methods. -/
theorem Entity.methodNote_eq (e : Entity) :
    e.methodNote = "Methods: " ++ methodSummary e.methods := by
  have hmethod : ∀ m : Method, m.summary
      = m.access.name ++ " " ++ m.name ++ "()"
        ++ m.returnType.elim "" fun t => if t = "" then "" else ": " ++ t := by
    intro m
    unfold Method.summary
    cases m.returnType with
    | none => rfl
    | some t => simp only [Option.elim_some, String.isEmpty_iff]
  unfold methodNote methodSummary
  rw [funext hmethod]

/-- What the relations from a name write, sorted out beforehand. -/
theorem Diagram.flatMap_writesBy {d : Diagram} {name : String}
    (hname : name ∈ d.entityNames) (rs : List Relation) :
    (rs.filter (·.source == name)).flatMap d.writesBy
      = (rs.filter fun r =>
          (r.kind == .composition || r.kind == .aggregation
              || r.kind == .association)
            && r.source == name && d.declaredNames.contains r.target).map
        fun r =>
          ⟨String.ofList (lower (r.target.toList.take 1) ++ r.target.toList.drop 1),
            (Decision.ofCardinality? r.toCardinality).schema r.target,
            (Decision.ofCardinality? r.toCardinality).required⟩ := by
  have hkind : ∀ k : RelationKind, k.isStructural
      = (k == .composition || k == .aggregation || k == .association) := by
    intro k
    cases k <;> rfl
  induction rs with
  | nil => rfl
  | cons r rs ih =>
      by_cases hsource : r.source = name
      · have hgives : d.givesProperty r
            = ((r.kind == .composition || r.kind == .aggregation
                || r.kind == .association)
              && r.source == name && d.declaredNames.contains r.target) := by
          unfold Diagram.givesProperty
          rw [hkind, hsource, List.contains_iff_mem.mpr hname]
          simp
        rw [List.filter_cons_of_pos (by simpa using hsource),
          List.flatMap_cons, ih, List.filter_cons, ← hgives]
        unfold Diagram.writesBy
        split
        next =>
          rw [propertyName_eq, relationSchema_eq]
          rfl
        next => rfl
      · rw [List.filter_cons_of_neg (by simpa using hsource), ih,
          List.filter_cons_of_neg (by simp [hsource])]

/-- The notes on a name, of the declarations with methods alone. -/
theorem Diagram.flatMap_notes (name : String) (es : List Entity) :
    (es.filter (·.name == name)).flatMap Entity.notes
      = (es.filter fun e => e.name == name && !e.methods.isEmpty).map
          Entity.methodNote := by
  induction es with
  | nil => rfl
  | cons e es ih =>
      by_cases hname : e.name = name
      · rw [List.filter_cons_of_pos (by simpa using hname),
          List.flatMap_cons, ih, List.filter_cons]
        unfold Entity.notes
        cases hnone : e.methods.isEmpty <;> simp [hname, Entity.methodNote_eq]
      · rw [List.filter_cons_of_neg (by simpa using hname), ih,
          List.filter_cons_of_neg (by simp [hname])]

/-- The draft of a class or interface once its diagram is loaded. -/
theorem Builder.draftOf_load_new {d : Diagram} {name : String}
    (hname : name ∈ d.entityNames) :
    (Builder.new d).load.draftOf name
      = (Draft.takeAll {} (d.writesTo name)).noteAll (d.notesOn name) := by
  unfold Builder.load
  simp only
  rw [draftOf_foldl_relate, diagram_foldl_writeEntity,
    draftOf_foldl_writeEntity]
  change ((Draft.noteAll (Draft.takeAll {} _) _)).takeAll
    ((d.relations.filter _).flatMap d.writesBy) = _
  rw [Draft.takeAll_noteAll, ← Draft.takeAll_append,
    Diagram.flatMap_writesBy hname, Diagram.flatMap_notes]
  rfl

/-- The component of a class or interface of a diagram is its draft, with
parents or without. -/
theorem Diagram.get?_componentSchemas {d : Diagram} {name : String}
    (hname : name ∈ d.entityNames) :
    d.componentSchemas.get? name
      = some ((Builder.new d).load.componentOf name
          ((Builder.new d).load.draftOf name)) :=
  Builder.get?_components (Builder.mem_keys_load hname)

/-- The own object schema of a component is its draft, with parents or without. -/
theorem Builder.own?_componentOf (b : Builder) (name : String) (own : Draft) :
    (b.componentOf name own).own? = some own := by
  unfold Builder.componentOf
  split <;> rfl

/-- The notes on a name are not empty. -/
theorem Diagram.ne_empty_of_mem_notesOn {d : Diagram} {name line : String}
    (h : line ∈ d.notesOn name) : line ≠ "" := by
  obtain ⟨e, -, rfl⟩ := List.mem_map.mp h
  simp [Entity.methodNote]

/-- The draft of a class or interface is written with the properties that the
writes to its name leave, in JSON. -/
theorem Builder.toJson_draftOf_load_new {d : Diagram} {name : String}
    (hname : name ∈ d.entityNames) :
    ((Builder.new d).load.draftOf name).toJson
      = objectSchema
          ((propertiesOf (d.writesTo name)).map fun e => (e.1, e.2.toJson))
          (requiredNames (d.writesTo name)) (d.notesOn name) := by
  have hjoined : d.notesOn name ≠ [] → "\n".intercalate (d.notesOn name) ≠ "" := by
    intro hne
    obtain ⟨line, lines, hlines⟩ := List.exists_cons_of_ne_nil hne
    have hline := Diagram.ne_empty_of_mem_notesOn
      (hlines ▸ List.mem_cons_self .. : line ∈ d.notesOn name)
    rw [hlines]
    cases lines with
    | nil => simpa using hline
    | cons second lines => simp [hline]
  have hproperties : ((Builder.new d).load.draftOf name).properties.entries
      = propertiesOf (d.writesTo name) := by
    rw [draftOf_load_new hname, Draft.properties_noteAll]
    exact Draft.entries_takeAll_empty _
  have hrequired : ((Builder.new d).load.draftOf name).required
      = requiredNames (d.writesTo name) := by
    rw [draftOf_load_new hname, Draft.required_noteAll]
    exact Draft.required_takeAll_empty _
  have hdescription : ((Builder.new d).load.draftOf name).description
      = if (d.notesOn name).isEmpty then none
        else some ("\n".intercalate (d.notesOn name)) := by
    rw [draftOf_load_new hname, ← Draft.takeAll_noteAll, Draft.description_takeAll]
    exact Draft.description_noteAll_empty fun _ => Diagram.ne_empty_of_mem_notesOn
  rw [Draft.toJson_eq hdescription hjoined, hrequired, ← hproperties]
  rfl

/-- In what a builder produces for a diagram, the own object schema of a class or
interface projects the writes to its name. Its properties are the names written,
in the order of their first writes, each with the schema of its last write; the
required ones stand in the order in which that was settled; and the description
joins the method notes. -/
theorem own_schema_projects_writes (d : Diagram) (name : String)
    (hname : name ∈ d.entityNames) :
    ((Builder.new d).step .build).2 = .ok (.components d.componentSchemas)
      ∧ ∃ c properties, d.componentSchemas.get? name = some c
        ∧ List.Forall₂ (fun e written => written.1 = e.1 ∧ e.2.WrittenAs written.2)
          (propertiesOf (d.writesTo name)) properties
        ∧ c.toJson.ownSchema?
          = some (objectSchema properties (requiredNames (d.writesTo name))
              (d.notesOn name)) := by
  have hown := Builder.own?_componentOf (Builder.new d).load name
    ((Builder.new d).load.draftOf name)
  refine ⟨Builder.step_build_new d, _,
    (propertiesOf (d.writesTo name)).map fun e => (e.1, e.2.toJson),
    Diagram.get?_componentSchemas hname, ?_, ?_⟩
  · rw [List.forall₂_map_right_iff]
    exact List.forall₂_same.mpr fun e _ => ⟨rfl, e.2.writtenAs_toJson⟩
  · rw [Component.ownSchema?_toJson hown, Builder.toJson_draftOf_load_new hname]

/-- A name declared twice and the source of relations: `b` is required, then not,
then required again by the relation, and so comes after `c` among the required
names and before it among the properties. -/
theorem own_schema_projects_writes_of_twice_declared :
    let d : Diagram := {
      classes := [
        { name := "A",
          attributes := [⟨"b", some "int", .pub⟩, ⟨"c", some "date", .pub⟩]
          methods := [⟨"go", some "int", .pub⟩, ⟨"stop", none, .priv⟩] },
        { name := "A", attributes := [⟨"b", some "int", .priv⟩] }]
      enums := [{ name := "B" }, { name := "D" }]
      relations := [⟨"A", "B", .association, "-->", none,
          some { kind := .exact, raw := "1", value := some 1 }⟩,
        ⟨"A", "D", .composition, "*--", none,
          some { kind := .range, raw := "0..3", lower := some 0, upper := some 3 }⟩] }
    "A" ∈ d.entityNames
      ∧ ∃ c, d.componentSchemas.get? "A" = some c
        ∧ c.toJson.ownSchema? = some (.obj [("type", .str "object"),
          ("properties", .obj [
            ("b", .obj [("$ref", .str "#/components/schemas/B")]),
            ("c", .obj [("type", .str "string"), ("format", .str "date")]),
            ("d", .obj [("type", .str "array"),
              ("items", .obj [("$ref", .str "#/components/schemas/D")]),
              ("maxItems", .int 3)])]),
          ("required", .arr [.str "c", .str "b"]),
          ("description", .str "Methods: public go(): int, private stop()")]) := by
  intro d
  have hname : "A" ∈ d.entityNames := by decide
  obtain ⟨-, c, properties, hget, hwritten, hown⟩ :=
    own_schema_projects_writes d "A" hname
  rw [Fragment.eq_map_of_writtenAs hwritten] at hown
  exact ⟨hname, c, hget, hown.trans (by rfl)⟩

end ApiScaffold
