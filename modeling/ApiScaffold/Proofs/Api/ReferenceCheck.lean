/-
What the check of references says about a document: one error for every
occurrence of a reference to a component that is missing, one warning for every
occurrence of one that points elsewhere, both in document order, and on the
structure only where there is neither.

An occurrence has an address, the positions that lead to it, besides the keys
that are reported. The walk over a document meets exactly the occurrences
(`Json.mem_occurrences`, by induction on the address, along which the walk and
the occurrence go down together), and meets them in the lexicographic order of
their addresses (`Json.pairwise_occurrences`). Both together determine the
list (`Json.Enumerates.unique`), so nothing is missed or said twice.

In the document of a diagram every reference names one of its components. So
where some of these are deleted, what is found is what named them.

Whatever examines the structure, the check only asks it where nothing is to be
said about the references. So it is a parameter here.
-/
import ApiScaffold.Api.Validation
import ApiScaffold.Proofs.Api.Closure

namespace ApiScaffold

-- =================================================== statement vocabulary

/-- A text under the reference key: the positions that lead to it, the keys that
lead to the object that holds it, and the text. Items have their numbers as
keys. -/
structure Occurrence where
  address : List Nat
  keys : List String
  target : String
deriving DecidableEq

namespace Occurrence

/-- The occurrence as seen from the value around, in which it is inside the part
at a position. -/
def under (i : Nat) (key : String) (o : Occurrence) : Occurrence where
  address := i :: o.address
  keys := key :: o.keys
  target := o.target

/-- What is reported of an occurrence inside the value at `path`: the path of the
object that holds it, and the target. -/
def reference (path : String) (o : Occurrence) : Reference where
  location := o.keys.foldl (fun path key => path ++ "/" ++ key) path
  target := o.target

/-- Document order. -/
def Before (a b : Occurrence) : Prop := a.address < b.address

end Occurrence

/-- A reference occurs in a value. -/
inductive Json.Refers : Json → Occurrence → Prop
  | here {fields : List (String × Json)} {i : Nat} {target : String}
      (h : fields[i]? = some (referenceKey, .str target)) :
      Refers (.obj fields) ⟨[i], [], target⟩
  | field {fields : List (String × Json)} {i : Nat} {key : String} {value : Json}
      {o : Occurrence} (h : fields[i]? = some (key, value)) (ho : Refers value o) :
      Refers (.obj fields) (o.under i key)
  | item {items : List Json} {i : Nat} {value : Json} {o : Occurrence}
      (h : items[i]? = some value) (ho : Refers value o) :
      Refers (.arr items) (o.under i (toString i))

/-- The list has every occurrence of a reference in the value once, in document
order. -/
structure Json.Enumerates (j : Json) (os : List Occurrence) : Prop where
  complete : ∀ o, o ∈ os ↔ j.Refers o
  ordered : os.Pairwise Occurrence.Before

/-- Absent, null or an object. -/
def IsTable : Option Json → Prop
  | none | some .null | some (.obj _) => True
  | _ => False

/-- An object with room for component schemas, which it may lack. -/
structure Json.IsDocument (doc : Json) : Prop where
  object : ∃ fields, doc = .obj fields
  components : IsTable (doc.field? "components")
  schemas : IsTable ((doc.field? "components").bind (·.field? "schemas"))

/-- The verdict on a document, given what examines structures, the occurrences
that name a missing component and those that name none. -/
def Json.verdictOn (examine : Json → List String) (doc : Json)
    (dangling foreign : List Occurrence) : Verdict :=
  if dangling = [] ∧ foreign = [] then ⟨examine doc, []⟩
  else
    ⟨dangling.map fun o => (ReferenceFault.unresolved (o.reference "#")).message,
      (foreign.map fun o => (ReferenceFault.foreign (o.reference "#")).message)
        ++ [skipWarning]⟩

/-- The document without some of its components. -/
def Document.without (doc : Document) (names : List String) : Document :=
  { doc with components := doc.components.without names }

-- ============================================================ occurrences

/-- The target of a field that is a reference. -/
def targetOfField? (key : String) : Json → Option String
  | .str target => if key = referenceKey then some target else none
  | _ => none

/-- A field has a target exactly if it is a text under the reference key. -/
theorem targetOfField?_eq_some {key target : String} {value : Json} :
    targetOfField? key value = some target
      ↔ key = referenceKey ∧ value = .str target := by
  cases value <;> simp [targetOfField?]

mutual

/-- The occurrences of references in a value, in document order. -/
def Json.occurrences : Json → List Occurrence
  | .arr items => occurrencesInItems 0 items
  | .obj fields => occurrencesInFields 0 fields
  | _ => []

/-- The occurrences in the items of an array, the first of them at position
`i`. -/
def occurrencesInItems (i : Nat) : List Json → List Occurrence
  | [] => []
  | item :: items =>
    item.occurrences.map (·.under i (toString i)) ++ occurrencesInItems (i + 1) items

/-- The occurrences in the fields of an object, the first of them at position
`i`. A field that is a reference has none inside. -/
def occurrencesInFields (i : Nat) : List (String × Json) → List Occurrence
  | [] => []
  | (key, value) :: fields =>
    (targetOfField? key value).toList.map (Occurrence.mk [i] [])
      ++ value.occurrences.map (·.under i key)
      ++ occurrencesInFields (i + 1) fields

end

/-- The walk over fields, with a field that is a reference as one that has none
inside. -/
theorem referencesInFields_cons (path key : String) (value : Json)
    (fields : List (String × Json)) :
    referencesInFields path ((key, value) :: fields)
      = (targetOfField? key value).toList.map (⟨path, ·⟩)
        ++ value.references (path ++ "/" ++ key) ++ referencesInFields path fields := by
  rw [referencesInFields.eq_def]
  refine congrArg (· ++ referencesInFields path fields) ?_
  split
  next target hkey => simp [targetOfField?, beq_iff_eq.mp hkey, Json.references]
  next value _ _ hother =>
    have hnone : targetOfField? key value = none := by
      rw [Option.eq_none_iff_forall_ne_some]
      intro target htarget
      obtain ⟨hkey, hvalue⟩ := targetOfField?_eq_some.mp htarget
      exact hother target (beq_iff_eq.mpr hkey) hvalue
    rw [hnone]
    rfl

mutual

/-- The references of a value are its occurrences, by their keys. -/
theorem Json.references_eq (path : String) (j : Json) :
    j.references path = j.occurrences.map (·.reference path) := by
  cases j with
  | arr items =>
      rw [Json.references, Json.occurrences]
      exact referencesInItems_eq path 0 items
  | obj fields =>
      rw [Json.references, Json.occurrences]
      exact referencesInFields_eq path 0 fields
  | null | bool | int | float | str => simp [Json.references, Json.occurrences]

/-- The same of items, from the position of the first. -/
theorem referencesInItems_eq (path : String) (i : Nat) (items : List Json) :
    referencesInItems path i items
      = (occurrencesInItems i items).map (·.reference path) := by
  cases items with
  | nil => simp [referencesInItems, occurrencesInItems]
  | cons item items =>
      rw [referencesInItems, occurrencesInItems, List.map_append, List.map_map,
        item.references_eq, referencesInItems_eq path (i + 1) items]
      rfl

/-- The same of fields, from the position of the first. -/
theorem referencesInFields_eq (path : String) (i : Nat) (fields : List (String × Json)) :
    referencesInFields path fields
      = (occurrencesInFields i fields).map (·.reference path) := by
  match fields with
  | [] => simp [referencesInFields, occurrencesInFields]
  | (key, value) :: fields =>
      rw [referencesInFields_cons, occurrencesInFields, List.map_append, List.map_append,
        List.map_map, List.map_map, value.references_eq,
        referencesInFields_eq path (i + 1) fields]
      rfl

end

/-- What stands at some position of a list stands in front or behind. -/
theorem exists_getElem?_cons {α : Type} {a : α} {as : List α} {P : Nat → α → Prop} :
    (∃ k x, (a :: as)[k]? = some x ∧ P k x)
      ↔ P 0 a ∨ ∃ k x, as[k]? = some x ∧ P (k + 1) x := by
  constructor
  · rintro ⟨k, x, hk, h⟩
    cases k with
    | zero =>
        injection hk with hk
        exact Or.inl (hk ▸ h)
    | succ k => exact Or.inr ⟨k, x, hk, h⟩
  · rintro (h | ⟨k, x, hk, h⟩)
    · exact ⟨0, a, rfl, h⟩
    · exact ⟨k + 1, x, hk, h⟩

/-- The occurrences in items are those in one of them. -/
theorem mem_occurrencesInItems {i : Nat} {items : List Json} {o : Occurrence} :
    o ∈ occurrencesInItems i items ↔ ∃ k item, items[k]? = some item
      ∧ ∃ o' ∈ Json.occurrences item, o'.under (i + k) (toString (i + k)) = o := by
  induction items generalizing i with
  | nil => simp [occurrencesInItems]
  | cons item items ih =>
      rw [occurrencesInItems, List.mem_append, List.mem_map, ih, exists_getElem?_cons]
      simp only [Nat.add_zero, Nat.add_assoc, Nat.add_comm 1]

/-- The occurrences in fields are those that are one of them and those inside
one. -/
theorem mem_occurrencesInFields {i : Nat} {fields : List (String × Json)} {o : Occurrence} :
    o ∈ occurrencesInFields i fields ↔ ∃ k e, fields[k]? = some e
      ∧ ((∃ target, targetOfField? e.1 e.2 = some target ∧ ⟨[i + k], [], target⟩ = o)
        ∨ ∃ o' ∈ Json.occurrences e.2, o'.under (i + k) e.1 = o) := by
  induction fields generalizing i with
  | nil => simp [occurrencesInFields]
  | cons e fields ih =>
      rw [occurrencesInFields, List.mem_append, List.mem_append, List.mem_map, List.mem_map,
        ih, exists_getElem?_cons]
      simp only [Option.mem_toList, Nat.add_zero, Nat.add_assoc, Nat.add_comm 1]

/-- Occurrences in items lie at the first of them or behind. -/
theorem head_of_mem_occurrencesInItems {i : Nat} {items : List Json} {o : Occurrence}
    (h : o ∈ occurrencesInItems i items) : ∃ j ≥ i, o.address.head? = some j := by
  obtain ⟨k, item, -, o', -, rfl⟩ := mem_occurrencesInItems.mp h
  exact ⟨i + k, Nat.le_add_right i k, rfl⟩

/-- Occurrences in fields lie at the first of them or behind. -/
theorem head_of_mem_occurrencesInFields {i : Nat} {fields : List (String × Json)}
    {o : Occurrence} (h : o ∈ occurrencesInFields i fields) :
    ∃ j ≥ i, o.address.head? = some j := by
  obtain ⟨k, e, -, ⟨target, -, rfl⟩ | ⟨o', -, rfl⟩⟩ := mem_occurrencesInFields.mp h
  · exact ⟨i + k, Nat.le_add_right i k, rfl⟩
  · exact ⟨i + k, Nat.le_add_right i k, rfl⟩

/-- Every occurrence is at some position of the value. -/
theorem Json.address_ne_nil {j : Json} {o : Occurrence} (h : o ∈ j.occurrences) :
    o.address ≠ [] := by
  have hhead : ∃ i, o.address.head? = some i := by
    cases j with
    | arr items =>
        rw [occurrences] at h
        obtain ⟨i, -, hi⟩ := head_of_mem_occurrencesInItems h
        exact ⟨i, hi⟩
    | obj fields =>
        rw [occurrences] at h
        obtain ⟨i, -, hi⟩ := head_of_mem_occurrencesInFields h
        exact ⟨i, hi⟩
    | null | bool | int | float | str => simp [occurrences] at h
  obtain ⟨i, hi⟩ := hhead
  exact fun hnil => by simp [hnil] at hi

/-- What the walk meets is an occurrence. -/
theorem Json.refers_of_mem_occurrences {j : Json} {o : Occurrence} (h : o ∈ j.occurrences) :
    j.Refers o := by
  induction haddress : o.address generalizing j o with
  | nil => exact absurd haddress (address_ne_nil h)
  | cons i address ih =>
      cases j with
      | arr items =>
          rw [occurrences, mem_occurrencesInItems] at h
          obtain ⟨k, item, hk, o', ho', rfl⟩ := h
          rw [Nat.zero_add] at haddress ⊢
          injection haddress with _ hrest
          exact .item hk (ih ho' hrest)
      | obj fields =>
          rw [occurrences, mem_occurrencesInFields] at h
          obtain ⟨k, ⟨key, value⟩, hk, ⟨target, htarget, rfl⟩ | ⟨o', ho', rfl⟩⟩ := h
          · obtain ⟨rfl, rfl⟩ := targetOfField?_eq_some.mp htarget
            rw [Nat.zero_add]
            exact .here hk
          · rw [Nat.zero_add] at haddress ⊢
            injection haddress with _ hrest
            exact .field hk (ih ho' hrest)
      | null | bool | int | float | str => simp [occurrences] at h

/-- The walk meets exactly the occurrences. -/
theorem Json.mem_occurrences {j : Json} {o : Occurrence} :
    o ∈ j.occurrences ↔ j.Refers o := by
  refine ⟨refers_of_mem_occurrences, fun h => ?_⟩
  induction h with
  | @here fields i target h =>
      rw [occurrences, mem_occurrencesInFields]
      refine ⟨i, _, h, Or.inl ⟨target, targetOfField?_eq_some.mpr ⟨rfl, rfl⟩, ?_⟩⟩
      rw [Nat.zero_add]
  | @field fields i key value o h ho ih =>
      rw [occurrences, mem_occurrencesInFields]
      refine ⟨i, (key, value), h, Or.inr ⟨o, ih, ?_⟩⟩
      rw [Nat.zero_add]
  | @item items i value o h ho ih =>
      rw [occurrences, mem_occurrencesInItems]
      refine ⟨i, value, h, o, ih, ?_⟩
      rw [Nat.zero_add]

-- ================================================================== order

namespace Occurrence

/-- Inside one part the order is that of the part. -/
theorem under_before_under {i : Nat} {key : String} {a b : Occurrence} (h : a.Before b) :
    (a.under i key).Before (b.under i key) :=
  List.cons_lt_cons_iff.mpr (Or.inr ⟨rfl, h⟩)

/-- What is inside an earlier part comes before. -/
theorem before_of_head_lt {a b : Occurrence} {i j : Nat} (ha : a.address.head? = some i)
    (hb : b.address.head? = some j) (hij : i < j) : a.Before b := by
  obtain ⟨as, ha⟩ := List.head?_eq_some_iff.mp ha
  obtain ⟨bs, hb⟩ := List.head?_eq_some_iff.mp hb
  unfold Before
  rw [ha, hb]
  exact List.cons_lt_cons_iff.mpr (Or.inl hij)

end Occurrence

/-- A field is a reference or has some inside, not both. -/
theorem pairwise_occurrencesOfField (i : Nat) (key : String) {value : Json}
    (h : value.occurrences.Pairwise Occurrence.Before) :
    ((targetOfField? key value).toList.map (Occurrence.mk [i] [])
      ++ value.occurrences.map (·.under i key)).Pairwise Occurrence.Before := by
  cases htarget : targetOfField? key value with
  | none => exact List.pairwise_map.mpr (h.imp Occurrence.under_before_under)
  | some target =>
      have hinside : value.occurrences = [] := by
        simp [(targetOfField?_eq_some.mp htarget).2, Json.occurrences]
      rw [hinside]
      exact List.pairwise_singleton _ _

mutual

/-- The walk meets the occurrences in document order. -/
theorem Json.pairwise_occurrences (j : Json) : j.occurrences.Pairwise Occurrence.Before := by
  cases j with
  | arr items =>
      rw [Json.occurrences]
      exact pairwise_occurrencesInItems 0 items
  | obj fields =>
      rw [Json.occurrences]
      exact pairwise_occurrencesInFields 0 fields
  | null | bool | int | float | str => simp [Json.occurrences]

/-- Those in items come item by item. -/
theorem pairwise_occurrencesInItems (i : Nat) (items : List Json) :
    (occurrencesInItems i items).Pairwise Occurrence.Before := by
  cases items with
  | nil => simp [occurrencesInItems]
  | cons item items =>
      rw [occurrencesInItems, List.pairwise_append, List.pairwise_map]
      refine ⟨item.pairwise_occurrences.imp Occurrence.under_before_under,
        pairwise_occurrencesInItems (i + 1) items, fun a ha b hb => ?_⟩
      obtain ⟨a', -, rfl⟩ := List.mem_map.mp ha
      obtain ⟨j, hj, hhead⟩ := head_of_mem_occurrencesInItems hb
      exact Occurrence.before_of_head_lt rfl hhead hj

/-- Those in fields come field by field. -/
theorem pairwise_occurrencesInFields (i : Nat) (fields : List (String × Json)) :
    (occurrencesInFields i fields).Pairwise Occurrence.Before := by
  match fields with
  | [] => simp [occurrencesInFields]
  | (key, value) :: fields =>
      rw [occurrencesInFields, List.pairwise_append]
      refine ⟨pairwise_occurrencesOfField i key value.pairwise_occurrences,
        pairwise_occurrencesInFields (i + 1) fields, fun a ha b hb => ?_⟩
      have hhere : a.address.head? = some i := by
        rcases List.mem_append.mp ha with ha | ha
        · obtain ⟨target, -, rfl⟩ := List.mem_map.mp ha
          rfl
        · obtain ⟨a', -, rfl⟩ := List.mem_map.mp ha
          rfl
      obtain ⟨j, hj, hhead⟩ := head_of_mem_occurrencesInFields hb
      exact Occurrence.before_of_head_lt hhere hhead hj

end

/-- The walk lists the occurrences. -/
theorem Json.enumerates_occurrences (j : Json) : j.Enumerates j.occurrences where
  complete _ := mem_occurrences
  ordered := j.pairwise_occurrences

/-- A value has one list of its occurrences. -/
theorem Json.Enumerates.unique {j : Json} {os os' : List Occurrence}
    (h : j.Enumerates os) (h' : j.Enumerates os') : os = os' := by
  have hnodup : ∀ {os : List Occurrence}, j.Enumerates os → os.Nodup := by
    refine fun h => h.ordered.imp fun {a b} hbefore heq => ?_
    rw [heq] at hbefore
    exact List.lt_irrefl _ hbefore
  have hperm : os.Perm os' :=
    (List.perm_ext_iff_of_nodup (hnodup h) (hnodup h')).mpr fun o =>
      (h.complete o).trans (h'.complete o).symm
  exact hperm.eq_of_pairwise
    (fun _ _ _ _ hbefore hbehind => absurd hbehind (List.lt_asymm hbefore))
    h.ordered h'.ordered

-- ================================================================ verdict

variable {examine : Json → List String}

/-- Errors and warnings of the check, each in order. -/
theorem partition_faults (names : List String) (rs : List Reference) :
    (rs.filterMap (Reference.faultAmong names)).partition ReferenceFault.isError
      = ((rs.filter (·.Dangling names)).map .unresolved,
        (rs.filter (·.Foreign)).map .foreign) := by
  rw [List.partition_eq_filter_filter]
  induction rs with
  | nil => rfl
  | cons r rs ih =>
      obtain ⟨herrors, hwarnings⟩ := Prod.mk.inj ih
      by_cases hforeign : r.Foreign
      · have hdangling : ¬ r.Dangling names := fun hdangling =>
          hdangling.not_foreign hforeign
        simp [Reference.faultAmong, ReferenceFault.isError, hforeign, hdangling, herrors,
          hwarnings]
      · by_cases hdangling : r.Dangling names
        · simp [Reference.faultAmong, ReferenceFault.isError, List.filter_cons, hforeign,
            hdangling, herrors, hwarnings]
        · simp [Reference.faultAmong, hforeign, hdangling, herrors, hwarnings]

/-- What may be missing or null stands for an object, empty in these cases. -/
theorem orEmptyObject_of_isTable {o : Option Json} (h : IsTable o) :
    orEmptyObject o = .obj ((o.map Json.fieldsOf).getD []) := by
  match o with
  | none | some .null | some (.obj []) | some (.obj (_ :: _)) => rfl

/-- A field is looked up in a table that may be missing. -/
theorem field?_of_isTable {o : Option Json} (h : IsTable o) (key : String) :
    ((o.map Json.fieldsOf).getD []).lookup key = o.bind (·.field? key) := by
  match o with
  | none | some .null | some (.obj _) => rfl

/-- References are checked against the component schemas, and against none where
the document has no room for them. -/
theorem Json.IsDocument.componentTable {doc : Json} (h : doc.IsDocument) :
    ∃ table, doc.componentTable = .ok (.obj table)
      ∧ table.map Prod.fst = doc.componentNames := by
  obtain ⟨⟨fields, rfl⟩, hcomponents, hschemas⟩ := h
  unfold Json.componentTable
  simp only
  have hlookup : fields.lookup "components" = (Json.obj fields).field? "components" := rfl
  rw [hlookup, orEmptyObject_of_isTable hcomponents]
  simp only
  rw [field?_of_isTable hcomponents, orEmptyObject_of_isTable hschemas]
  refine ⟨_, rfl, ?_⟩
  unfold Json.componentNames
  split
  next h => rw [h]; rfl
  next h => rw [h]; rfl

/-- Nothing is said of the structure where there is a fault. -/
theorem Json.verdictAfter_eq (doc : Json) {faults errors warnings : List ReferenceFault}
    (h : faults.partition ReferenceFault.isError = (errors, warnings)) :
    doc.verdictAfter examine faults
      = if errors = [] ∧ warnings = [] then ⟨examine doc, []⟩
        else ⟨errors.map ReferenceFault.message,
          warnings.map ReferenceFault.message ++ [skipWarning]⟩ := by
  have hempty : errors = [] ∧ warnings = [] ↔ faults = [] := by
    rw [List.partition_eq_filter_filter] at h
    obtain ⟨rfl, rfl⟩ := Prod.mk.inj h
    rw [List.filter_eq_nil_iff, List.filter_eq_nil_iff, List.eq_nil_iff_forall_not_mem]
    constructor
    · rintro ⟨hnoError, hnoWarning⟩ fault hfault
      exact hnoWarning fault hfault (by simpa using hnoError fault hfault)
    · exact fun hnone => ⟨fun fault hfault => absurd hfault (hnone fault),
        fun fault hfault => absurd hfault (hnone fault)⟩
  simp only [hempty]
  split
  next hnil => rw [hnil]; rfl
  next hcons =>
    unfold Json.verdictAfter
    split
    next => exact absurd rfl hcons
    next => rw [h]

/-- The verdict on a document, by the occurrences of references in it. -/
theorem Json.IsDocument.verdict_eq {doc : Json} (h : doc.IsDocument) :
    doc.verdictBy examine = .ok (doc.verdictOn examine
      (doc.occurrences.filter fun o => (o.reference "#").Dangling doc.componentNames)
      (doc.occurrences.filter fun o => (o.reference "#").Foreign)) := by
  obtain ⟨table, htable, hnames⟩ := h.componentTable
  have hfaults : doc.referenceFaults
      = .ok ((doc.references "#").filterMap (Reference.faultAmong doc.componentNames)) := by
    unfold Json.referenceFaults
    rw [htable, ← hnames]
    exact faultsOfReferences_obj table _
  have hparts := partition_faults doc.componentNames (doc.references "#")
  rw [Json.references_eq, List.filter_map, List.filter_map] at hparts
  unfold Json.verdictBy
  rw [hfaults, Json.references_eq]
  refine congrArg Except.ok ?_
  rw [doc.verdictAfter_eq hparts]
  unfold Json.verdictOn
  simp only [List.map_eq_nil_iff, List.map_map]
  rfl

-- ================================================= deleted components

/-- The JSON of a document has room for its components. -/
theorem Document.isDocument_toJson (doc : Document) : doc.toJson.IsDocument where
  object := ⟨_, rfl⟩
  components := trivial
  schemas := trivial

/-- The references that are left are to components of the whole document. -/
theorem Document.without_refersWithin (info : Info) (d : Diagram) (names : List String) :
    ((ofDiagram info d).without names).toJson.RefersWithin
      (PointsInto (ofDiagram info d).components.keys) := by
  obtain ⟨hpaths, hcomponents⟩ := ofDiagram_parts_refersWithin info d
  exact toJson_refersWithin hpaths fun e he => hcomponents e (List.mem_filter.mp he).1

/-- The components that are left are those not deleted. -/
theorem Document.mem_componentNames_without {doc : Document} {names : List String}
    {name : String} :
    name ∈ (doc.without names).toJson.componentNames
      ↔ name ∈ doc.components.keys ∧ name ∉ names := by
  rw [componentNames_toJson]
  unfold without OrderedMap.without OrderedMap.keys
  simp only [List.mem_map, List.mem_filter]
  grind

/-- A reference that is left has lost its component or has one. -/
theorem Document.dangling_without_iff {info : Info} {d : Diagram} {names : List String}
    {o : Occurrence} (h : o ∈ ((ofDiagram info d).without names).toJson.occurrences) :
    ¬ (o.reference "#").Foreign
      ∧ ((o.reference "#").Dangling ((ofDiagram info d).without names).toJson.componentNames
        ↔ PointsInto names o.target) := by
  have hmem : o.reference "#" ∈ ((ofDiagram info d).without names).toJson.references "#" := by
    rw [Json.references_eq]
    exact List.mem_map_of_mem h
  obtain ⟨name, hname, htarget⟩ := without_refersWithin info d names "#" _ hmem
  refine ⟨fun hforeign => hforeign name htarget, ?_⟩
  rw [Reference.dangling_iff_of_target htarget, mem_componentNames_without]
  have hpoints : PointsInto names o.target ↔ name ∈ names := by
    have htarget' : o.target = componentRef name := htarget
    unfold PointsInto
    rw [htarget']
    simp [componentRef_inj]
  rw [hpoints]
  exact ⟨fun hlost => by_contra fun hkept => hlost ⟨hname, hkept⟩,
    fun hlost hkept => hkept.2 hlost⟩

instance (names : List String) (pointer : String) : Decidable (PointsInto names pointer) :=
  inferInstanceAs (Decidable (∃ name ∈ names, pointer = componentRef name))

/-- The check reports every reference that names a missing component as an error
and every one that names none as a warning, in document order, and leaves the
structure, whatever examines it, to where there is neither. So where components
of the document of a diagram are deleted, the references to them that are left
are reported and nothing else. -/
theorem verdict_reports_references (examine : Json → List String) :
    (∀ doc : Json, doc.IsDocument →
      ∃ os, doc.Enumerates os ∧ ∃ v, doc.verdictBy examine = .ok v
      ∧ v = doc.verdictOn examine
        (os.filter fun o => (o.reference "#").Dangling doc.componentNames)
        (os.filter fun o => (o.reference "#").Foreign)
      ∧ (v.valid = true ↔ v.errors = []))
    ∧ ∀ (info : Info) (d : Diagram) (names : List String),
      let cut := ((Document.ofDiagram info d).without names).toJson
      ∃ os, cut.Enumerates os
        ∧ cut.verdictBy examine
          = .ok (cut.verdictOn examine (os.filter fun o => PointsInto names o.target) []) := by
  constructor
  · intro doc h
    exact ⟨_, doc.enumerates_occurrences, _, h.verdict_eq, rfl, List.isEmpty_iff⟩
  · intro info d names cut
    refine ⟨_, cut.enumerates_occurrences, ?_⟩
    have hdangling : (cut.occurrences.filter fun o =>
        (o.reference "#").Dangling cut.componentNames)
          = cut.occurrences.filter fun o => PointsInto names o.target :=
      List.filter_congr fun o ho => by
        rw [decide_eq_decide]
        exact (Document.dangling_without_iff ho).2
    have hforeign : (cut.occurrences.filter fun o => (o.reference "#").Foreign) = [] := by
      rw [List.filter_eq_nil_iff]
      intro o ho
      simpa using (Document.dangling_without_iff ho).1
    rw [(Document.isDocument_toJson _).verdict_eq, hdangling, hforeign]

/-- An object under the reference key, a reference in it that names a missing
component, and in an array one that names none beside one that is in order. -/
def mixedDocument : Json :=
  .obj
    [("components", .obj [("schemas", .obj
      [("A", .obj [("$ref", .obj [("$ref", .str "#/components/schemas/B")])])])]),
     ("paths", .arr
      [.null, .obj [("$ref", .str "other.json"),
        ("x", .obj [("$ref", .str "#/components/schemas/A")])]])]

/-- Of its two faults each is reported with the keys that lead to it, and nothing
is said of the structure. -/
theorem verdict_reports_references_of_mixed :
    mixedDocument.IsDocument
      ∧ (∃ os, mixedDocument.Enumerates os ∧ mixedDocument.verdict = .ok
          (mixedDocument.verdictOn Json.structureMessages
            (os.filter fun o => (o.reference "#").Dangling mixedDocument.componentNames)
            (os.filter fun o => (o.reference "#").Foreign)))
      ∧ mixedDocument.verdict = .ok
        ⟨["Unresolved reference '#/components/schemas/B' (at #/components/schemas/A/$ref)"],
          ["Non-component reference 'other.json' (at #/paths/1)", skipWarning]⟩ := by
  have hdoc : mixedDocument.IsDocument := ⟨⟨_, rfl⟩, trivial, trivial⟩
  obtain ⟨os, hos, v, hverdict, hv, -⟩ :=
    (verdict_reports_references Json.structureMessages).1 mixedDocument hdoc
  exact ⟨hdoc, ⟨os, hos, hv ▸ hverdict⟩, by decide +kernel⟩

end ApiScaffold
