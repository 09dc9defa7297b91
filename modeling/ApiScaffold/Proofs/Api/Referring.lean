/-
Where references of a document come from. `Json.RefersWithin P` says that
every reference inside a value has its target in `P`, wherever in a
document the value stands; the location of a reference plays no part.

The walk over a value meets references only as texts under the reference
key, and every other field is walked into. So a value is within `P` as
soon as its fields are (`refersWithin_obj`), and for the typed pieces of
a document that comes down to the pointers they hold: a fragment holds
one per `ref`, a component one per parent besides its properties, an
operation those of its bodies. Each piece has a predicate of its own and
one lemma that carries it to the JSON form.

A property may bear the reference key as its name. That is harmless
because no fragment is written as a bare text, which `Fragment.toJson_ne_str`
records and the lemma about drafts uses.
-/
import ApiScaffold.Api.Document
import ApiScaffold.Api.Reference

namespace ApiScaffold

variable {P Q : String → Prop}

-- ================================================================ values

/-- Every reference inside a value has its target in `P`. -/
def Json.RefersWithin (P : String → Prop) (j : Json) : Prop :=
  ∀ path, ∀ r ∈ j.references path, P r.target

/-- A field whose value is within `P`, and whose text is in `P` where it
is itself a reference. -/
def FieldWithin (P : String → Prop) (e : String × Json) : Prop :=
  (∀ t, e.1 = referenceKey → e.2 = .str t → P t) ∧ e.2.RefersWithin P

/-- More targets may be allowed. -/
theorem Json.RefersWithin.mono {j : Json} (h : j.RefersWithin P)
    (hPQ : ∀ t, P t → Q t) : j.RefersWithin Q :=
  fun path r hr => hPQ _ (h path r hr)

/-- A reference inside items is inside one of them. -/
theorem mem_referencesInItems {path : String} {r : Reference} :
    ∀ {items : List Json} {i : Nat}, r ∈ referencesInItems path i items →
      ∃ j ∈ items, ∃ p, r ∈ j.references p := by
  intro items
  induction items with
  | nil => intro i hr; simp [referencesInItems] at hr
  | cons item items ih =>
      intro i hr
      rw [referencesInItems] at hr
      rcases List.mem_append.mp hr with hr | hr
      · exact ⟨item, List.mem_cons_self .., _, hr⟩
      · obtain ⟨j, hj, p, hp⟩ := ih hr
        exact ⟨j, List.mem_cons_of_mem _ hj, p, hp⟩

/-- A reference inside fields is the text of one of them, under the
reference key, or inside the value of one. -/
theorem mem_referencesInFields {path : String} {r : Reference} :
    ∀ {fields : List (String × Json)}, r ∈ referencesInFields path fields →
      ∃ e ∈ fields, (e.1 = referenceKey ∧ e.2 = .str r.target)
        ∨ ∃ p, r ∈ e.2.references p := by
  intro fields
  induction fields with
  | nil => intro hr; simp [referencesInFields] at hr
  | cons e fields ih =>
      obtain ⟨key, value⟩ := e
      intro hr
      unfold referencesInFields at hr
      rcases List.mem_append.mp hr with hr | hr
      · refine ⟨(key, value), List.mem_cons_self .., ?_⟩
        split at hr
        next target hkey _ =>
          have hr' : r = ⟨path, target⟩ := by simpa using hr
          subst hr'
          exact Or.inl ⟨beq_iff_eq.mp hkey, rfl⟩
        next => exact Or.inr ⟨_, hr⟩
      · obtain ⟨e, he, h⟩ := ih hr
        exact ⟨e, List.mem_cons_of_mem _ he, h⟩

/-- A text alone is no reference. -/
theorem refersWithin_str (s : String) : (Json.str s).RefersWithin P := by
  intro path r hr
  simp [Json.references] at hr

theorem refersWithin_int (n : Int) : (Json.int n).RefersWithin P := by
  intro path r hr
  simp [Json.references] at hr

theorem refersWithin_bool (b : Bool) : (Json.bool b).RefersWithin P := by
  intro path r hr
  simp [Json.references] at hr

/-- An array is within `P` when its items are. -/
theorem refersWithin_arr {items : List Json}
    (h : ∀ j ∈ items, j.RefersWithin P) : (Json.arr items).RefersWithin P := by
  intro path r hr
  rw [Json.references] at hr
  obtain ⟨j, hj, p, hp⟩ := mem_referencesInItems hr
  exact h j hj p r hp

/-- An object is within `P` when its fields are. -/
theorem refersWithin_obj {fields : List (String × Json)}
    (h : ∀ e ∈ fields, FieldWithin P e) : (Json.obj fields).RefersWithin P := by
  intro path r hr
  rw [Json.references] at hr
  obtain ⟨e, he, ⟨hkey, hval⟩ | ⟨p, hp⟩⟩ := mem_referencesInFields hr
  · exact (h e he).1 _ hkey hval
  · exact (h e he).2 p r hp

/-- Texts in a row are no references. -/
theorem refersWithin_strings (xs : List String) :
    (Json.strings xs).RefersWithin P := by
  refine refersWithin_arr fun j hj => ?_
  obtain ⟨s, -, rfl⟩ := List.mem_map.mp hj
  exact refersWithin_str s

/-- Under any other key than that of references only the value counts. -/
theorem fieldWithin_of_ne {key : String} {value : Json}
    (hkey : key ≠ referenceKey) (h : value.RefersWithin P) :
    FieldWithin P (key, value) :=
  ⟨fun _ heq => absurd heq hkey, h⟩

/-- A text under any other key than that of references is in order. -/
theorem fieldWithin_text {key t : String} (hkey : key ≠ referenceKey) :
    FieldWithin P (key, .str t) :=
  fieldWithin_of_ne hkey (refersWithin_str t)

/-- A value that is no text is never itself a reference. -/
theorem fieldWithin_of_not_str {key : String} {value : Json}
    (hval : ∀ t, value ≠ .str t) (h : value.RefersWithin P) :
    FieldWithin P (key, value) :=
  ⟨fun t _ heq => absurd heq (hval t), h⟩

/-- An optional field is in order when its value is, where it stands. -/
theorem fieldWithin_optional {key : String} {value : Option Json}
    (hkey : key ≠ referenceKey) (h : ∀ j, value = some j → j.RefersWithin P) :
    ∀ e ∈ Fragment.optionalField key value, FieldWithin P e := by
  intro e he
  cases value with
  | none => simp [Fragment.optionalField] at he
  | some j =>
      have he' : e = (key, j) := by simpa [Fragment.optionalField] using he
      subst he'
      exact fieldWithin_of_ne hkey (h j rfl)

-- ============================================================= fragments

/-- Every pointer of a fragment is in `P`. -/
def Fragment.RefersWithin (P : String → Prop) : Fragment → Prop
  | .plain _ _ => True
  | .ref pointer => P pointer
  | .array items _ _ => items.RefersWithin P
  | .given value => value.RefersWithin P ∧ ∀ t, value ≠ .str t

/-- The schema of a property refers where its pointers do. -/
theorem Fragment.toJson_refersWithin {f : Fragment} (h : f.RefersWithin P) :
    f.toJson.RefersWithin P := by
  induction f with
  | plain type format =>
      refine refersWithin_obj fun e he => ?_
      rcases List.mem_cons.mp he with rfl | he
      · exact fieldWithin_text (by decide)
      · refine fieldWithin_optional (by decide) (fun j hj => ?_) e he
        obtain ⟨s, -, rfl⟩ := Option.map_eq_some_iff.mp hj
        exact refersWithin_str s
  | ref pointer =>
      refine refersWithin_obj fun e he => ?_
      rw [List.mem_singleton.mp he]
      refine ⟨fun t _ ht => ?_, refersWithin_str _⟩
      injection ht with ht
      exact ht ▸ h
  | array items low high ih =>
      have hbound : ∀ n : Option Int, ∀ j, n.map Json.int = some j →
          j.RefersWithin P := by
        intro n j hj
        obtain ⟨i, -, rfl⟩ := Option.map_eq_some_iff.mp hj
        exact refersWithin_int i
      refine refersWithin_obj fun e he => ?_
      rcases List.mem_append.mp he with he | he
      · rcases List.mem_append.mp he with he | he
        · rcases List.mem_cons.mp he with rfl | he
          · exact fieldWithin_text (by decide)
          · rw [List.mem_singleton.mp he]
            exact fieldWithin_of_ne (by decide) (ih h)
        · exact fieldWithin_optional (by decide) (hbound low) e he
      · exact fieldWithin_optional (by decide) (hbound high) e he
  | given value => exact h.1

/-- A fragment is never written as a bare text. -/
theorem Fragment.toJson_ne_str {f : Fragment} (h : f.RefersWithin P)
    (t : String) : f.toJson ≠ .str t := by
  cases f with
  | plain type format => exact Json.noConfusion
  | ref pointer => exact Json.noConfusion
  | array items low high => exact Json.noConfusion
  | given value => exact h.2 t

/-- More pointers may be allowed. -/
theorem Fragment.RefersWithin.mono (hPQ : ∀ t, P t → Q t) :
    ∀ {f : Fragment}, f.RefersWithin P → f.RefersWithin Q := by
  intro f
  induction f with
  | plain type format => exact id
  | ref pointer => exact hPQ pointer
  | array items low high ih => exact ih
  | given value => exact fun h => ⟨h.1.mono hPQ, h.2⟩

-- ============================================================ components

/-- Every pointer of a draft's properties is in `P`. -/
def Draft.RefersWithin (P : String → Prop) (d : Draft) : Prop :=
  ∀ e ∈ d.properties.entries, e.2.RefersWithin P

/-- Every pointer of a component is in `P`, those to its parents
included. -/
def Component.RefersWithin (P : String → Prop) : Component → Prop
  | .enumeration _ => True
  | .object own => own.RefersWithin P
  | .inheriting parents own =>
    (∀ p ∈ parents, P (componentRef p)) ∧ own.RefersWithin P

/-- An object schema refers where its properties do. -/
theorem Draft.toJson_refersWithin {d : Draft} (h : d.RefersWithin P) :
    d.toJson.RefersWithin P := by
  refine refersWithin_obj fun e he => ?_
  unfold Draft.fields at he
  simp only [List.mem_append] at he
  rcases he with ((he | he) | he) | he
  · rw [List.mem_singleton.mp he]
    exact fieldWithin_text (by decide)
  · split at he
    · cases he
    · rw [List.mem_singleton.mp he]
      refine fieldWithin_of_ne (by decide) (refersWithin_obj fun e he => ?_)
      obtain ⟨⟨name, f⟩, hf, rfl⟩ := List.mem_map.mp he
      have hwithin : f.RefersWithin P := h _ hf
      exact fieldWithin_of_not_str (Fragment.toJson_ne_str hwithin)
        (Fragment.toJson_refersWithin hwithin)
  · split at he
    · cases he
    · rw [List.mem_singleton.mp he]
      exact fieldWithin_of_ne (by decide) (refersWithin_strings _)
  · split at he
    · split at he
      · cases he
      · rw [List.mem_singleton.mp he]
        exact fieldWithin_text (by decide)
    · cases he

/-- A component refers where its parents and its own schema do. -/
theorem Component.toJson_refersWithin {c : Component} (h : c.RefersWithin P) :
    c.toJson.RefersWithin P := by
  cases c with
  | enumeration values =>
      refine refersWithin_obj fun e he => ?_
      rcases List.mem_cons.mp he with rfl | he
      · exact fieldWithin_text (by decide)
      · rw [List.mem_singleton.mp he]
        exact fieldWithin_of_ne (by decide) (refersWithin_strings _)
  | object own => exact Draft.toJson_refersWithin h
  | inheriting parents own =>
      obtain ⟨hparents, hown⟩ := h
      refine refersWithin_obj fun e he => ?_
      rw [List.mem_singleton.mp he]
      refine fieldWithin_of_ne (by decide) (refersWithin_arr fun j hj => ?_)
      rcases List.mem_append.mp hj with hj | hj
      · obtain ⟨p, hp, rfl⟩ := List.mem_map.mp hj
        exact Fragment.toJson_refersWithin (hparents p hp)
      · rw [List.mem_singleton.mp hj]
        exact Draft.toJson_refersWithin hown

/-- No component is written as a bare text, which could be a reference. -/
theorem Component.toJson_ne_str (c : Component) (t : String) :
    c.toJson ≠ .str t := by
  cases c <;> exact Json.noConfusion

/-- More pointers may be allowed in a component. -/
theorem Component.RefersWithin.mono (hPQ : ∀ t, P t → Q t) {c : Component}
    (h : c.RefersWithin P) : c.RefersWithin Q := by
  cases c with
  | enumeration values => trivial
  | object own => exact fun e he => (h e he).mono hPQ
  | inheriting parents own =>
      exact ⟨fun p hp => hPQ _ (h.1 p hp), fun e he => (h.2 e he).mono hPQ⟩

-- ================================================================= paths

/-- Every pointer of a response is in `P`. -/
def Response.RefersWithin (P : String → Prop) (r : Response) : Prop :=
  ∀ f, r.body = some f → f.RefersWithin P

/-- Every pointer of an operation's bodies is in `P`. -/
def Operation.RefersWithin (P : String → Prop) (o : Operation) : Prop :=
  (∀ f, o.requestBody = some f → f.RefersWithin P)
    ∧ ∀ r ∈ o.responses, r.RefersWithin P

/-- Every pointer of a path item's operations is in `P`. -/
def PathItem.RefersWithin (P : String → Prop) (p : PathItem) : Prop :=
  ∀ o ∈ p.operations, o.RefersWithin P

/-- More pointers may be allowed in a path item. -/
theorem PathItem.RefersWithin.mono (hPQ : ∀ t, P t → Q t) {p : PathItem}
    (h : p.RefersWithin P) : p.RefersWithin Q := by
  intro o ho
  obtain ⟨hrequest, hresponses⟩ := h o ho
  exact ⟨fun f hf => (hrequest f hf).mono hPQ,
    fun r hr f hf => (hresponses r hr f hf).mono hPQ⟩

/-- Content refers where its schema does. -/
theorem schemaContent_refersWithin {f : Fragment} (h : f.RefersWithin P) :
    (schemaContent f).RefersWithin P := by
  refine refersWithin_obj fun e he => ?_
  rw [List.mem_singleton.mp he]
  refine fieldWithin_of_ne (by decide) (refersWithin_obj fun e he => ?_)
  rw [List.mem_singleton.mp he]
  exact fieldWithin_of_ne (by decide) (Fragment.toJson_refersWithin h)

/-- A response refers where its body does; its key is a status. -/
theorem Response.entry_within {r : Response} (h : r.RefersWithin P) :
    FieldWithin P r.entry := by
  refine fieldWithin_of_not_str (fun t => Json.noConfusion)
    (refersWithin_obj fun e he => ?_)
  rcases List.mem_cons.mp he with rfl | he
  · exact fieldWithin_text (by decide)
  · refine fieldWithin_optional (by decide) (fun j hj => ?_) e he
    obtain ⟨f, hf, rfl⟩ := Option.map_eq_some_iff.mp hj
    exact schemaContent_refersWithin (h f hf)

/-- The parameter of an item refers to nothing. -/
theorem itemParameter_refersWithin (tag : String) :
    (itemParameter tag).RefersWithin P := by
  refine refersWithin_obj fun e he => ?_
  simp only [List.mem_cons, List.not_mem_nil, or_false] at he
  rcases he with rfl | rfl | rfl | rfl | rfl
  · exact fieldWithin_text (by decide)
  · exact fieldWithin_text (by decide)
  · exact fieldWithin_of_ne (by decide) (refersWithin_bool _)
  · exact fieldWithin_of_ne (by decide)
      (Fragment.toJson_refersWithin (f := .text) trivial)
  · exact fieldWithin_text (by decide)

/-- An operation refers where its request and its responses do. -/
theorem Operation.toJson_refersWithin {o : Operation} (h : o.RefersWithin P) :
    o.toJson.RefersWithin P := by
  obtain ⟨hrequest, hresponses⟩ := h
  refine refersWithin_obj fun e he => ?_
  simp only [List.mem_append] at he
  rcases he with ((he | he) | he) | he
  · simp only [List.mem_cons, List.not_mem_nil, or_false] at he
    rcases he with rfl | rfl | rfl
    · exact fieldWithin_text (by decide)
    · exact fieldWithin_text (by decide)
    · exact fieldWithin_of_ne (by decide) (refersWithin_strings _)
  · split at he
    · rw [List.mem_singleton.mp he]
      refine fieldWithin_of_ne (by decide) (refersWithin_arr fun j hj => ?_)
      rw [List.mem_singleton.mp hj]
      exact itemParameter_refersWithin _
    · cases he
  · refine fieldWithin_optional (by decide) (fun j hj => ?_) e he
    obtain ⟨f, hf, rfl⟩ := Option.map_eq_some_iff.mp hj
    refine refersWithin_obj fun e he => ?_
    rcases List.mem_cons.mp he with rfl | he
    · exact fieldWithin_of_ne (by decide) (refersWithin_bool _)
    · rw [List.mem_singleton.mp he]
      exact fieldWithin_of_ne (by decide)
        (schemaContent_refersWithin (hrequest f hf))
  · rw [List.mem_singleton.mp he]
    refine fieldWithin_of_ne (by decide) (refersWithin_obj fun e he => ?_)
    obtain ⟨r, hr, rfl⟩ := List.mem_map.mp he
    exact Response.entry_within (hresponses r hr)

/-- A path item refers where its operations do. -/
theorem PathItem.toJson_refersWithin {p : PathItem} (h : p.RefersWithin P) :
    p.toJson.RefersWithin P := by
  refine refersWithin_obj fun e he => ?_
  rcases List.mem_cons.mp he with rfl | he
  · exact fieldWithin_text (by decide)
  · obtain ⟨o, ho, rfl⟩ := List.mem_map.mp he
    exact fieldWithin_of_not_str (fun t => Json.noConfusion)
      (Operation.toJson_refersWithin (h o ho))

/-- No path item is written as a bare text, which could be a reference. -/
theorem PathItem.toJson_ne_str (p : PathItem) (t : String) :
    p.toJson ≠ .str t :=
  Json.noConfusion

-- ============================================================= documents

/-- A document is within `P` when its path items and components are. -/
theorem Document.toJson_refersWithin {d : Document}
    (hpaths : ∀ e ∈ d.paths.entries, e.2.RefersWithin P)
    (hcomponents : ∀ e ∈ d.components.entries, e.2.RefersWithin P) :
    d.toJson.RefersWithin P := by
  have hinfo : d.info.toJson.RefersWithin P := by
    refine refersWithin_obj fun e he => ?_
    simp only [List.mem_cons, List.not_mem_nil, or_false] at he
    rcases he with rfl | rfl | rfl
    · exact fieldWithin_text (by decide)
    · exact fieldWithin_text (by decide)
    · exact fieldWithin_text (by decide)
  have hpathsJson : (Document.pathsJson d.paths).RefersWithin P := by
    refine refersWithin_obj fun e he => ?_
    obtain ⟨⟨path, item⟩, hitem, rfl⟩ := List.mem_map.mp he
    exact fieldWithin_of_not_str item.toJson_ne_str
      (PathItem.toJson_refersWithin (hpaths _ hitem))
  have hschemas : (componentsJson d.components).RefersWithin P := by
    refine refersWithin_obj fun e he => ?_
    obtain ⟨⟨name, c⟩, hc, rfl⟩ := List.mem_map.mp he
    exact fieldWithin_of_not_str c.toJson_ne_str
      (Component.toJson_refersWithin (hcomponents _ hc))
  refine refersWithin_obj fun e he => ?_
  simp only [List.mem_cons, List.not_mem_nil, or_false] at he
  rcases he with rfl | rfl | rfl | rfl
  · exact fieldWithin_text (by decide)
  · exact fieldWithin_of_ne (by decide) hinfo
  · exact fieldWithin_of_ne (by decide) hpathsJson
  · refine fieldWithin_of_ne (by decide) (refersWithin_obj fun e he => ?_)
    rw [List.mem_singleton.mp he]
    exact fieldWithin_of_ne (by decide) hschemas

end ApiScaffold
