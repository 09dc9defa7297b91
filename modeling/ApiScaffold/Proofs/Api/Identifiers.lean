/-
The identifiers of operations. Each is an action, the segment of a resource
with underscores for its hyphens, and for reading one item an ending. The
five actions differ before the first underscore, so an identifier tells its
action, and with it its ending and the segment as it is written there
(`actionIdentifier_eq_iff`).

Writing a hyphen as an underscore forgets which it was. Two segments that
differ in that alone have paths of their own and the same five identifiers,
and this is the only way in which identifiers of a document can meet
(`operation_identifiers_distinct_iff`). Classes whose segments are equal
share their paths, so their identifiers occur once.
-/
import ApiScaffold.Proofs.Api.Serving
import ApiScaffold.Proofs.Text.Lines
import Mathlib.Data.List.Nodup
import Mathlib.Data.List.Pairwise

namespace ApiScaffold

-- =================================================== statement vocabulary

/-- The identifiers of all operations in the path items of a document. -/
def Json.operationIdentifiers (doc : Json) : List String :=
  match doc.field? "paths" with
  | some paths => paths.fieldsOf.flatMap fun item =>
    item.2.fieldsOf.filterMap fun operation => operation.2.textAt? ["operationId"]
  | none => []

/-- A segment with underscores for its hyphens. -/
def underscored (segment : String) : String :=
  String.ofList (segment.toList.map fun c => if c = '-' then '_' else c)

-- =========================================================== identifiers

/-- The actions on a collection, each with the ending of its identifier. -/
def collectionActions : List (String × String) := [("list", ""), ("create", "")]

/-- The actions on one item, each with the ending of its identifier. -/
def itemActions : List (String × String) :=
  [("get", "_by_id"), ("update", ""), ("delete", "")]

/-- The identifiers of actions on a resource. -/
def identifiersOf (actions : List (String × String)) (segment : String) :
    List String :=
  actions.map fun a => actionIdentifier a.1 segment a.2

theorem identifiers_collectionItem (name segment errorRef : String) :
    (collectionItem name segment errorRef).operations.map Operation.identifier
      = identifiersOf collectionActions segment := rfl

theorem identifiers_singleItem (name segment errorRef : String) :
    (singleItem name segment errorRef).operations.map Operation.identifier
      = identifiersOf itemActions segment := rfl

/-- Up to its first underscore an identifier is its action. -/
theorem action_eq_of_identifier_eq {a a' s s' x x' : String}
    (ha : '_' ∉ a.toList) (ha' : '_' ∉ a'.toList)
    (h : actionIdentifier a s x = actionIdentifier a' s' x') :
    a = a' ∧ underscored s ++ x = underscored s' ++ x' := by
  have hlist : ∀ a s x : String, (actionIdentifier a s x).toList
      = a.toList ++ '_' :: (underscored s ++ x).toList := by
    intro a s x
    show (a ++ "_" ++ underscored s ++ x).toList = _
    simp
  have heq := congrArg String.toList h
  rw [hlist, hlist] at heq
  have hpieces := congrArg (pieces '_') heq
  rw [pieces_append_cons ha, pieces_append_cons ha'] at hpieces
  injection hpieces with haction _
  rw [haction] at heq
  have hrest := List.append_cancel_left heq
  injection hrest with _ hrest
  exact ⟨String.toList_inj.mp haction, String.toList_inj.mp hrest⟩

/-- An identifier tells its action and, but for hyphens, its segment. -/
theorem actionIdentifier_eq_iff {p q : String × String} {s s' : String}
    (hp : p ∈ collectionActions ++ itemActions)
    (hq : q ∈ collectionActions ++ itemActions) :
    actionIdentifier p.1 s p.2 = actionIdentifier q.1 s' q.2
      ↔ p = q ∧ underscored s = underscored s' := by
  have hplain : ∀ p ∈ collectionActions ++ itemActions, '_' ∉ p.1.toList := by
    decide
  have hfirst : ∀ p ∈ collectionActions ++ itemActions,
      ∀ q ∈ collectionActions ++ itemActions, p.1 = q.1 → p = q := by
    decide
  constructor
  · intro h
    obtain ⟨haction, hrest⟩ :=
      action_eq_of_identifier_eq (hplain p hp) (hplain q hq) h
    obtain rfl := hfirst p hp q hq haction
    have hlist := congrArg String.toList hrest
    rw [String.toList_append, String.toList_append] at hlist
    exact ⟨rfl, String.toList_inj.mp (List.append_cancel_right hlist)⟩
  · rintro ⟨rfl, h⟩
    show p.1 ++ "_" ++ underscored s ++ p.2 = p.1 ++ "_" ++ underscored s' ++ p.2
    rw [h]

/-- The identifiers of one path item differ. -/
theorem nodup_identifiersOf {actions : List (String × String)}
    (hsub : ∀ a ∈ actions, a ∈ collectionActions ++ itemActions)
    (h : actions.Nodup) (segment : String) :
    (identifiersOf actions segment).Nodup := by
  apply List.Nodup.map_on _ h
  intro p hp q hq heq
  exact ((actionIdentifier_eq_iff (hsub p hp) (hsub q hq)).mp heq).1

-- ================================================================== paths

variable {name name' segment segment' errorRef errorRef' : String}
  {e e' : String × PathItem}

/-- The actions on the path item of a resource. -/
theorem exists_actions_of_mem_crudPaths (he : e ∈ crudPaths name segment errorRef) :
    ∃ actions, e.2.operations.map Operation.identifier
        = identifiersOf actions segment
      ∧ ((e.1 = collectionPath segment ∧ actions = collectionActions)
        ∨ (e.1 = itemPath segment ∧ actions = itemActions)) := by
  simp only [crudPaths, List.mem_cons, List.not_mem_nil, or_false] at he
  rcases he with rfl | rfl
  · exact ⟨_, identifiers_collectionItem .., Or.inl ⟨rfl, rfl⟩⟩
  · exact ⟨_, identifiers_singleItem .., Or.inr ⟨rfl, rfl⟩⟩

theorem nodup_identifiers_of_mem_crudPaths
    (he : e ∈ crudPaths name segment errorRef) :
    (e.2.operations.map Operation.identifier).Nodup := by
  obtain ⟨actions, hids, ⟨-, rfl⟩ | ⟨-, rfl⟩⟩ := exists_actions_of_mem_crudPaths he
  · rw [hids]
    exact nodup_identifiersOf (by decide) (by decide) segment
  · rw [hids]
    exact nodup_identifiersOf (by decide) (by decide) segment

/-- Path items that share an identifier are of the same sort, and their
segments differ in hyphens at most. -/
theorem eq_of_shared_identifier (he : e ∈ crudPaths name segment errorRef)
    (he' : e' ∈ crudPaths name' segment' errorRef') {identifier : String}
    (hid : identifier ∈ e.2.operations.map Operation.identifier)
    (hid' : identifier ∈ e'.2.operations.map Operation.identifier) :
    underscored segment = underscored segment'
      ∧ (segment = segment' → e.1 = e'.1) := by
  obtain ⟨actions, hids, hsort⟩ := exists_actions_of_mem_crudPaths he
  obtain ⟨actions', hids', hsort'⟩ := exists_actions_of_mem_crudPaths he'
  have hsub : ∀ acts : List (String × String),
      (acts = collectionActions ∨ acts = itemActions) →
        ∀ a ∈ acts, a ∈ collectionActions ++ itemActions := by
    rintro acts (rfl | rfl) a ha
    · exact List.mem_append_left _ ha
    · exact List.mem_append_right _ ha
  rw [hids] at hid
  rw [hids'] at hid'
  obtain ⟨p, hp, rfl⟩ := List.mem_map.mp hid
  obtain ⟨q, hq, heq⟩ := List.mem_map.mp hid'
  obtain ⟨rfl, hsegment⟩ := (actionIdentifier_eq_iff
    (hsub _ (hsort'.imp And.right And.right) q hq)
    (hsub _ (hsort.imp And.right And.right) p hp)).mp heq
  refine ⟨hsegment.symm, ?_⟩
  rintro rfl
  rcases hsort with ⟨hkey, rfl⟩ | ⟨hkey, rfl⟩ <;>
    rcases hsort' with ⟨hkey', rfl⟩ | ⟨hkey', rfl⟩
  · rw [hkey, hkey']
  · exact absurd hq ((by decide : ∀ a ∈ collectionActions, a ∉ itemActions) q hp)
  · exact absurd hp ((by decide : ∀ a ∈ collectionActions, a ∉ itemActions) q hq)
  · rw [hkey, hkey']

section loop

variable {α : Type} (error : α)

theorem paths_addClassPaths (state : Bool × OrderedMap PathItem × OrderedMap α)
    (name : String) :
    (addClassPaths error state name).2.1
      = if state.2.2.has name then
          state.2.1.putAll
            (crudPaths name (pathSegment name) (componentRef errorName))
        else state.2.1 := by
  unfold addClassPaths
  simp only
  split <;> rfl

/-- The paths of the loop are those of its classes. -/
theorem paths_foldl_addClassPaths (classes : List String) :
    ∀ state : Bool × OrderedMap PathItem × OrderedMap α,
      ∀ e ∈ (classes.foldl (addClassPaths error) state).2.1.entries,
        e ∈ state.2.1.entries ∨ ∃ name ∈ classes,
          e ∈ crudPaths name (pathSegment name) (componentRef errorName) := by
  induction classes with
  | nil => exact fun state e he => Or.inl he
  | cons name classes ih =>
      intro state e he
      rcases ih _ e he with he | ⟨other, hother, he⟩
      · rw [paths_addClassPaths error state name] at he
        split at he
        · rcases OrderedMap.mem_entries_putAll he with he | he
          · exact Or.inr ⟨name, List.mem_cons_self .., he⟩
          · exact Or.inl he
        · exact Or.inl he
      · exact Or.inr ⟨other, List.mem_cons_of_mem _ hother, he⟩

end loop

-- ============================================================== documents

namespace Document

/-- The path items of the document of a diagram. -/
theorem paths_ofDiagram (info : Info) (d : Diagram) :
    ∀ e ∈ (ofDiagram info d).paths.entries, ∃ c ∈ d.classes,
      e ∈ crudPaths c.name (pathSegment c.name) (componentRef errorName) := by
  intro e he
  rcases paths_foldl_addClassPaths (Component.object errorSchema)
    (d.classes.map Entity.name) (false, .empty, d.componentSchemas) e he
    with he | ⟨name, hname, he⟩
  · cases he
  · obtain ⟨c, hc, rfl⟩ := List.mem_map.mp hname
    exact ⟨c, hc, he⟩

/-- The collection path of a class leads to the path item of some class. -/
theorem exists_collection (info : Info) {d : Diagram} {c : Entity}
    (hc : c ∈ d.classes) :
    ∃ last, (collectionPath (pathSegment c.name),
        collectionItem last (pathSegment c.name) (componentRef errorName))
      ∈ (ofDiagram info d).paths.entries := by
  obtain ⟨last, -, -, hlast⟩ :=
    exists_lastWithSegment (List.mem_map_of_mem (f := Entity.name) hc)
  have hget := (servesLast_ofDiagram info d).collection c.name
  rw [hlast] at hget
  exact ⟨last, OrderedMap.mem_entries_of_get? hget⟩

/-- The identifiers of a path item in its JSON form. -/
theorem identifiers_toJson (p : PathItem) :
    p.toJson.fieldsOf.filterMap (fun field => field.2.textAt? ["operationId"])
      = p.operations.map Operation.identifier := by
  have hoperation : ∀ o : Operation,
      o.toJson.textAt? ["operationId"] = some o.identifier := by
    intro o
    unfold Operation.toJson
    rw [Json.textAt?_obj]
    rfl
  show List.filterMap _ (("summary", .str p.summary)
    :: p.operations.map fun o => (o.method.name, o.toJson)) = _
  rw [List.filterMap_cons, List.filterMap_map]
  show List.filterMap (fun o : Operation => o.toJson.textAt? ["operationId"]) _ = _
  rw [funext hoperation, List.filterMap_eq_map']

theorem operationIdentifiers_toJson (doc : Document) :
    doc.toJson.operationIdentifiers
      = doc.paths.entries.flatMap fun e =>
          e.2.operations.map Operation.identifier := by
  show (doc.paths.mapValues PathItem.toJson).entries.flatMap _ = _
  unfold OrderedMap.mapValues
  rw [List.flatMap_map]
  exact congrArg (doc.paths.entries.flatMap ·)
    (funext fun e => identifiers_toJson e.2)

end Document

/-- The identifiers of the operations of a document made from a text are
pairwise distinct exactly if no two classes have segments that differ in
hyphens and underscores alone. -/
theorem operation_identifiers_distinct_iff {info : Info} {text : String}
    {doc : Document} (h : Document.ofText info text = .ok doc) :
    ∃ d, Diagram.parse text = .ok d
      ∧ (doc.toJson.operationIdentifiers.Nodup
        ↔ ∀ c ∈ d.classes, ∀ c' ∈ d.classes,
          underscored (pathSegment c.name) = underscored (pathSegment c'.name) →
            pathSegment c.name = pathSegment c'.name) := by
  obtain ⟨d, hparse, rfl⟩ := Document.ofText_eq_ok.mp h
  have hpaths := Document.paths_ofDiagram info d
  refine ⟨d, hparse, ?_⟩
  rw [Document.operationIdentifiers_toJson, List.nodup_flatMap]
  constructor
  · rintro ⟨-, hapart⟩ c hc c' hc' hsegment
    -- both classes have their collections listed
    obtain ⟨last, hlast⟩ := Document.exists_collection info hc
    obtain ⟨last', hlast'⟩ := Document.exists_collection info hc'
    have hsymm : Std.Symm (Function.onFun List.Disjoint
        fun e : String × PathItem => e.2.operations.map Operation.identifier) :=
      ⟨fun _ _ hdisjoint => List.disjoint_symm hdisjoint⟩
    by_contra hne
    have hdisjoint := hapart.forall hlast hlast'
      fun heq => hne (collectionPath_inj (congrArg Prod.fst heq))
    refine hdisjoint (a := actionIdentifier "list" (pathSegment c.name) "")
      (List.mem_cons_self ..) ?_
    have hid : actionIdentifier "list" (pathSegment c.name) ""
        = actionIdentifier "list" (pathSegment c'.name) "" :=
      (actionIdentifier_eq_iff (p := ("list", "")) (q := ("list", ""))
        (by decide) (by decide)).mpr ⟨rfl, hsegment⟩
    rw [hid]
    exact List.mem_cons_self ..
  · intro hsegments
    constructor
    · intro e he
      obtain ⟨c, -, hcrud⟩ := hpaths e he
      exact nodup_identifiers_of_mem_crudPaths hcrud
    · apply (Document.ofDiagram info d).paths.distinct.of_map.pairwise_of_forall_ne
      intro e he e' he' hne identifier hid hid'
      obtain ⟨c, hc, hcrud⟩ := hpaths e he
      obtain ⟨c', hc', hcrud'⟩ := hpaths e' he'
      obtain ⟨hsegment, hkey⟩ := eq_of_shared_identifier hcrud hcrud' hid hid'
      exact hne (OrderedMap.eq_of_key_eq he he'
        (hkey (hsegments c hc c' hc' hsegment)))

/-- Classes that share a segment, beside one whose segment has a hyphen. -/
theorem operation_identifiers_distinct_of_user_and_users :
    let d : Diagram :=
      { classes := [{ name := "User" }, { name := "OrderItem" }, { name := "Users" }] }
    let text :=
      "class User \x7b\n\x7d\nclass OrderItem \x7b\n\x7d\nclass Users \x7b\n\x7d\n"
    Diagram.parse text = .ok d
      ∧ ∃ doc, Document.ofText {} text = .ok doc
        ∧ doc.toJson.operationIdentifiers.Nodup := by
  intro d text
  have hparse : Diagram.parse text = .ok d := by decide +kernel
  have hdoc : Document.ofText {} text = .ok (Document.ofDiagram {} d) :=
    Document.ofText_eq_ok.mpr ⟨d, hparse, rfl⟩
  obtain ⟨d', hparse', hdistinct⟩ := operation_identifiers_distinct_iff hdoc
  rw [hparse] at hparse'
  injection hparse' with hd
  subst hd
  exact ⟨hparse, _, hdoc, hdistinct.mpr (by decide +kernel)⟩

/-- Two classes with paths of their own, one name with an underscore where
the other has a capital: each of the five identifiers occurs twice. -/
theorem order_items_share_identifiers :
    let d : Diagram :=
      { classes := [{ name := "Order_item" }, { name := "OrderItem" }] }
    let text := "class Order_item \x7b\n\x7d\nclass OrderItem \x7b\n\x7d\n"
    Diagram.parse text = .ok d
      ∧ ∃ doc, Document.ofText {} text = .ok doc
        ∧ doc.paths.keys = ["/order_items", "/order_items/\x7bid\x7d",
          "/order-items", "/order-items/\x7bid\x7d"]
        ∧ doc.toJson.operationIdentifiers.count "list_order_items" = 2
        ∧ ¬ doc.toJson.operationIdentifiers.Nodup := by
  intro d text
  have hparse : Diagram.parse text = .ok d := by decide +kernel
  have hdoc : Document.ofText {} text = .ok (Document.ofDiagram {} d) :=
    Document.ofText_eq_ok.mpr ⟨d, hparse, rfl⟩
  exact ⟨hparse, _, hdoc, by decide +kernel, by decide +kernel, by decide +kernel⟩

end ApiScaffold
