import ApiLint.Proofs.Schema.RootPlaces
set_option autoImplicit false

/-!
# Schemas inside schemas

Where a schema holds further schemas, said by paths alone, and what the listing of a
schema and the schemas inside it comes to: `Lists` is the loop on a stack with no bound
on its turns, the loop ends and makes what the recursion `subtree` makes, and it lists
the objects that chains of held schemas lead to, none twice.  As no root lies on the
path of another, no schema of a document is listed twice.
-/

namespace ApiLint.Schema

/-! ## The schemas that a schema holds -/

/-- The keywords with a list of schemas. -/
def branchKeywords : List String := ["allOf", "oneOf", "anyOf"]

/-- The keywords with a schema. -/
def valueKeywords : List String := ["additionalProperties", "items", "not"]

/-- Every keyword below which a schema holds schemas, in the order of the listing. -/
def holdingKeywords : List String :=
  ["properties", "additionalProperties", "items", "allOf", "oneOf", "anyOf", "not"]

/-- Where a schema holds another one. -/
inductive HeldAt (schema : DocPath) : DocPath → Prop
  | property (name : String) : HeldAt schema (schema.keys ["properties", name])
  | value {keyword : String} (hkeyword : keyword ∈ valueKeywords) :
      HeldAt schema (schema.child (.key keyword))
  | branch {keyword : String} (position : Nat) (hkeyword : keyword ∈ branchKeywords) :
      HeldAt schema ((schema.child (.key keyword)).child (.index position))

theorem HeldAt.prefix_path {schema path : DocPath} (h : HeldAt schema path) : schema <+: path := by
  cases h with
  | property name => exact DocPath.prefix_keys _ _
  | value => exact DocPath.prefix_child _ _
  | branch position => exact (DocPath.prefix_child _ _).trans (DocPath.prefix_child _ _)

/-- The path of a held schema is longer than that of its holder. -/
theorem HeldAt.length_lt {schema path : DocPath} (h : HeldAt schema path) :
    schema.length < path.length := by
  cases h <;> simp [DocPath.keys, DocPath.child]

/-- What is held below a keyword: its value, or what the value consists of. -/
def heldUnder (keyword : String) (value : Located) : List Located :=
  if keyword = "properties" then named (fun schema => [schema]) value
  else if keyword ∈ branchKeywords then listed (fun schema => [schema]) value
  else [value]

theorem childAt_eq (keyword : String) (schema : Located) :
    childAt keyword schema = under keyword (fun value => [value]) schema := rfl

theorem childrenIn_eq (keyword : String) (schema : Located) :
    childrenIn keyword schema = under keyword (named fun value => [value]) schema := by
  unfold childrenIn under named Node.getFields? Node.fields
  cases schema.node.get? keyword with
  | none => rfl
  | some value => simp [DocPath.keys_cons, List.map_eq_flatMap]

theorem branchesAt_eq (keyword : String) (schema : Located) :
    branchesAt keyword schema = under keyword (listed fun value => [value]) schema := by
  unfold branchesAt under listed branches? Node.items
  cases schema.node.get? keyword with
  | none => rfl
  | some value => simp

/-- The keywords of a schema are looked through one after the other. -/
theorem children_eq (schema : Located) :
    children schema = underEach holdingKeywords heldUnder schema := by
  simp only [children, childAt_eq, childrenIn_eq, branchesAt_eq, underEach, holdingKeywords,
    List.flatMap_cons, List.flatMap_nil, List.append_nil, List.append_assoc]
  rfl

theorem mem_holdingKeywords_iff (keyword : String) :
    keyword ∈ holdingKeywords ↔
      keyword = "properties" ∨ keyword ∈ branchKeywords ∨ keyword ∈ valueKeywords := by
  simp only [holdingKeywords, branchKeywords, valueKeywords, List.mem_cons, List.not_mem_nil]
  tauto

/-- The places below a keyword, seen from its value. -/
def UnderKeyword (keyword : String) (value path : DocPath) : Prop :=
  if keyword = "properties" then ∃ name, path = value.child (.key name)
  else if keyword ∈ branchKeywords then ∃ position, path = value.child (.index position)
  else path = value

/-- Where a schema holds another one, keyword by keyword. -/
theorem heldAt_iff (schema path : DocPath) :
    HeldAt schema path ↔
      ∃ keyword ∈ holdingKeywords, UnderKeyword keyword (schema.child (.key keyword)) path := by
  constructor
  · intro h
    cases h with
    | property name =>
      exact ⟨"properties", by simp [holdingKeywords], name, by simp [DocPath.keys_cons]⟩
    | @value keyword hkeyword =>
      have hother : ∀ key ∈ valueKeywords, key ≠ "properties" ∧ key ∉ branchKeywords := by decide
      obtain ⟨hproperties, hbranch⟩ := hother keyword hkeyword
      refine ⟨keyword, (mem_holdingKeywords_iff keyword).mpr (.inr (.inr hkeyword)), ?_⟩
      rw [UnderKeyword, if_neg hproperties, if_neg hbranch]
    | @branch keyword position hkeyword =>
      have hproperties : ∀ key ∈ branchKeywords, key ≠ "properties" := by decide
      refine ⟨keyword, (mem_holdingKeywords_iff keyword).mpr (.inr (.inl hkeyword)), ?_⟩
      rw [UnderKeyword, if_neg (hproperties keyword hkeyword), if_pos hkeyword]
      exact ⟨position, rfl⟩
  · rintro ⟨keyword, hkeyword, hplace⟩
    unfold UnderKeyword at hplace
    split at hplace
    · next hproperties =>
      obtain ⟨name, rfl⟩ := hplace
      subst hproperties
      have hproperty : HeldAt schema (schema.keys ["properties", name]) := .property name
      simpa [DocPath.keys_cons] using hproperty
    · next hproperties =>
      split at hplace
      · next hbranch =>
        obtain ⟨position, rfl⟩ := hplace
        exact .branch position hbranch
      · next hbranch =>
        subst hplace
        have hvalue := (mem_holdingKeywords_iff keyword).mp hkeyword
        exact .value ((hvalue.resolve_left hproperties).resolve_left hbranch)

variable {document : Node}

section Children

variable (hwf : document.WellFormed)
include hwf

theorem collects_heldUnder (keyword : String) :
    Collects document (heldUnder keyword) (UnderKeyword keyword) :=
  (Collects.itself.named hwf).ite (fun _ => keyword = "properties")
    ((Collects.itself.listed hwf).ite (fun _ => keyword ∈ branchKeywords) .itself)

/-- The children of a schema are the nodes at the places where it holds schemas. -/
theorem collects_children : Collects document children HeldAt := by
  have hkeywords : holdingKeywords.Nodup := by decide
  have heach := Collects.underEach hkeywords fun keyword _ => collects_heldUnder hwf keyword
  exact (heach.congr fun schema _ => children_eq schema).places_congr heldAt_iff

end Children

/-! ## The listing is the recursion -/

/-- The schemas of the tree at a place, by recursion. -/
def tree (schema : Located) : List Located := subtree schema.path schema.node

/-- A recursion that looks for the first field with a key finds what is looked up. -/
theorem eq_lookup {keyword : String} (search : Fields → List Located)
    {found : Node → List Located} (hnil : search [] = [])
    (hcons : ∀ key value rest,
      search ((key, value) :: rest) = if key = keyword then found value else search rest)
    (fields : Fields) :
    search fields = ((Fields.get? fields keyword).map found).getD [] := by
  induction fields with
  | nil => exact hnil
  | cons field rest ih =>
    obtain ⟨key, value⟩ := field
    rw [hcons, Fields.get?]
    split
    · rfl
    · exact ih

theorem flatMap_under (keyword : String) (collect : Located → List Located) (path : DocPath)
    (fields : Fields) :
    (under keyword collect ⟨path, .object fields⟩).flatMap tree =
      ((Fields.get? fields keyword).map fun value =>
        (collect ⟨path.child (.key keyword), value⟩).flatMap tree).getD [] := by
  rw [under, Node.get?]
  cases Fields.get? fields keyword <;> rfl

theorem subtreeFields_eq (path : DocPath) (fields : Fields) :
    subtreeFields path fields =
      fields.flatMap fun field => subtree (path.child (.key field.1)) field.2 := by
  induction fields with
  | nil => rfl
  | cons field rest ih => rw [subtreeFields, ih, List.flatMap_cons]

theorem subtreeItems_eq (path : DocPath) (position : Nat) (items : List Node) :
    subtreeItems path position items = (located path position items).flatMap tree := by
  induction items generalizing position with
  | nil => rfl
  | cons item rest ih => rw [subtreeItems, ih, located, List.flatMap_cons, tree]

theorem subtreeValues_eq (path : DocPath) (value : Node) :
    subtreeValues path value = (named (fun schema => [schema]) ⟨path, value⟩).flatMap tree := by
  cases value with
  | object fields =>
    simp [subtreeValues, subtreeFields_eq, named, Node.fields, Node.fields?, tree,
      List.flatMap_assoc]
  | _ => rfl

theorem subtreeElements_eq (path : DocPath) (value : Node) :
    subtreeElements path value = (listed (fun schema => [schema]) ⟨path, value⟩).flatMap tree := by
  cases value with
  | array items => simp [subtreeElements, subtreeItems_eq, listed, Node.items, Node.items?]
  | _ => rfl

theorem subtreeAt_eq (keyword : String) (path : DocPath) (fields : Fields) :
    subtreeAt keyword path fields = (childAt keyword ⟨path, .object fields⟩).flatMap tree := by
  rw [childAt_eq, flatMap_under, eq_lookup (subtreeAt keyword path) rfl fun _ _ _ => rfl]
  simp [tree]

theorem subtreeIn_eq (keyword : String) (path : DocPath) (fields : Fields) :
    subtreeIn keyword path fields = (childrenIn keyword ⟨path, .object fields⟩).flatMap tree := by
  rw [childrenIn_eq, flatMap_under, eq_lookup (subtreeIn keyword path) rfl fun _ _ _ => rfl]
  congr 2
  funext value
  exact subtreeValues_eq _ value

theorem subtreeBranches_eq (keyword : String) (path : DocPath) (fields : Fields) :
    subtreeBranches keyword path fields =
      (branchesAt keyword ⟨path, .object fields⟩).flatMap tree := by
  rw [branchesAt_eq, flatMap_under, eq_lookup (subtreeBranches keyword path) rfl
    fun _ _ _ => rfl]
  congr 2
  funext value
  exact subtreeElements_eq _ value

/-- The tree of a schema is the schema and the trees of those it holds. -/
theorem tree_eq (schema : Located) :
    tree schema =
      if schema.node.isObject then schema :: (children schema).flatMap tree else [] := by
  obtain ⟨path, node⟩ := schema
  cases node with
  | object fields =>
    simp only [tree, subtree, subtreeIn_eq, subtreeAt_eq, subtreeBranches_eq, children,
      List.flatMap_append]
    rfl
  | _ => rfl

/-- The number of nodes at and below places. -/
def nodeCount (places : List Located) : Nat := (places.map fun place => place.node.count).sum

theorem nodeCount_append (places others : List Located) :
    nodeCount (places ++ others) = nodeCount places + nodeCount others := by
  simp [nodeCount]

/-- What is held below a keyword has no more nodes than the value of the keyword. -/
theorem nodeCount_heldUnder_le (keyword : String) (value : Located) :
    nodeCount (heldUnder keyword value) ≤ value.node.count := by
  obtain ⟨path, node⟩ := value
  unfold heldUnder
  split
  · cases node with
    | object fields =>
      simp [nodeCount, named, Node.fields, Node.fields?, Node.count, Node.countFields_eq_sum,
        ← List.map_eq_flatMap, Function.comp_def]
    | _ => simp [nodeCount, named, Node.fields, Node.fields?]
  · split
    · cases node with
      | array items =>
        simp [nodeCount, listed, Node.items, Node.items?, Node.count, Node.countItems_eq_sum,
          located_eq_map, Function.comp_def, Node.map_count_zipIdx]
      | _ => simp [nodeCount, listed, Node.items, Node.items?, located]
    · simp [nodeCount]

/-- Among different keys at most one is a given one. -/
theorem sum_indicator_le {keys : List String} (hkeys : keys.Nodup) (given : String)
    (amount : Nat) : (keys.map fun key => if key = given then amount else 0).sum ≤ amount := by
  induction keys with
  | nil => simp
  | cons key rest ih =>
    obtain ⟨hkey, hrest⟩ := List.nodup_cons.mp hkeys
    by_cases hgiven : key = given
    · subst hgiven
      have hothers : (rest.map fun other => if other = key then amount else 0) =
          rest.map fun _ => 0 :=
        List.map_congr_left fun other hother => if_neg (ne_of_mem_of_not_mem hother hkey)
      simp [hothers]
    · simpa [hgiven] using ih hrest

/-- The values of different keys have no more nodes than all fields together. -/
theorem sum_count_lookups_le (fields : Fields) {keys : List String} (hkeys : keys.Nodup) :
    (keys.map fun key => ((Fields.get? fields key).map Node.count).getD 0).sum ≤
      Node.countFields fields := by
  induction fields generalizing keys with
  | nil => simp [Fields.get?]
  | cons field rest ih =>
    obtain ⟨first, value⟩ := field
    have hlookup : ∀ key, ((Fields.get? ((first, value) :: rest) key).map Node.count).getD 0 ≤
        (if key = first then value.count else 0) +
          ((Fields.get? rest key).map Node.count).getD 0 := by
      intro key
      by_cases hkey : first = key
      · simp [Fields.get?, hkey]
      · simp [Fields.get?, hkey, Ne.symm hkey]
    calc (keys.map fun key =>
          ((Fields.get? ((first, value) :: rest) key).map Node.count).getD 0).sum
        ≤ (keys.map fun key => (if key = first then value.count else 0) +
            ((Fields.get? rest key).map Node.count).getD 0).sum :=
          List.sum_le_sum fun key _ => hlookup key
      _ = (keys.map fun key => if key = first then value.count else 0).sum +
            (keys.map fun key => ((Fields.get? rest key).map Node.count).getD 0).sum :=
          List.sum_map_add
      _ ≤ value.count + Node.countFields rest :=
          Nat.add_le_add (sum_indicator_le hkeys first value.count) (ih hkeys)
      _ = Node.countFields ((first, value) :: rest) := rfl

theorem nodeCount_under_le (keyword : String) (schema : Located) :
    nodeCount (under keyword (heldUnder keyword) schema) ≤
      ((schema.node.get? keyword).map Node.count).getD 0 := by
  unfold under
  cases schema.node.get? keyword with
  | none => simp [nodeCount]
  | some value => exact nodeCount_heldUnder_le keyword ⟨_, value⟩

/-- The children of a schema have fewer nodes than the schema. -/
theorem nodeCount_children_lt (schema : Located) :
    nodeCount (children schema) < schema.node.count := by
  rw [children_eq]
  have hkeywords : ∀ keywords : List String,
      nodeCount (underEach keywords heldUnder schema) ≤
        (keywords.map fun key => ((schema.node.get? key).map Node.count).getD 0).sum := by
    intro keywords
    induction keywords with
    | nil => simp [nodeCount, underEach]
    | cons key rest ih =>
      rw [underEach, List.flatMap_cons, nodeCount_append, List.map_cons, List.sum_cons]
      exact Nat.add_le_add (nodeCount_under_le key schema) ih
  have hlookups : (holdingKeywords.map fun key =>
      ((schema.node.get? key).map Node.count).getD 0).sum < schema.node.count := by
    obtain ⟨path, node⟩ := schema
    cases node with
    | object fields =>
      have hkeywords : holdingKeywords.Nodup := by decide
      have hle := sum_count_lookups_le fields hkeywords
      exact Nat.lt_of_le_of_lt hle (by rw [Node.count]; omega)
    | _ => exact Node.count_pos _
  exact Nat.lt_of_le_of_lt (hkeywords holdingKeywords) hlookups

theorem nodeCount_cons (place : Located) (others : List Located) :
    nodeCount (place :: others) = place.node.count + nodeCount others := by
  simp [nodeCount]

/-- The loop of a listing: what it lists from a stack until the stack is empty. -/
inductive Lists : List Located → List Located → Prop
  | done : Lists [] []
  | object {schema : Located} {stack listed : List Located}
      (hobject : schema.node.isObject = true)
      (hrest : Lists (pushAll stack (children schema).reverse) listed) :
      Lists (schema :: stack) (schema :: listed)
  | other {place : Located} {stack listed : List Located} (hother : place.node.isObject = false)
      (hrest : Lists stack listed) : Lists (place :: stack) listed

/-- The loop ends: a bound of one turn for each node on and below the stack is enough. -/
theorem lists_subschemasStack (fuel : Nat) (stack : List Located) (h : nodeCount stack ≤ fuel) :
    Lists stack (subschemasStack fuel stack) := by
  induction fuel generalizing stack with
  | zero =>
    cases stack with
    | nil => exact .done
    | cons place rest =>
      have hpos := place.node.count_pos
      rw [nodeCount_cons] at h
      omega
  | succ fuel ih =>
    cases stack with
    | nil => exact .done
    | cons place rest =>
      have hpos := place.node.count_pos
      have hchildren := nodeCount_children_lt place
      rw [nodeCount_cons] at h
      rw [subschemasStack]
      split
      · next hobject =>
        refine .object hobject (ih _ ?_)
        rw [pushAll_reverse, nodeCount_append]
        omega
      · next hother => exact .other (Bool.eq_false_iff.mpr hother) (ih rest (by omega))

/-- The loop lists the trees of the places on the stack, one after the other. -/
theorem Lists.eq_flatMap_tree {stack listed : List Located} (h : Lists stack listed) :
    listed = stack.flatMap tree := by
  induction h with
  | done => rfl
  | object hobject _ ih =>
    rw [ih, pushAll_reverse, List.flatMap_append, List.flatMap_cons, tree_eq, if_pos hobject,
      List.cons_append]
  | other hother _ ih =>
    rw [ih, List.flatMap_cons, tree_eq, if_neg (Bool.eq_false_iff.mp hother), List.nil_append]

/-- The loop of the listing of a schema ends. -/
theorem lists_subschemas (schema : Located) : Lists [schema] (subschemas schema) :=
  lists_subschemasStack _ _ (by simp [nodeCount])

theorem subschemas_eq_tree (schema : Located) : subschemas schema = tree schema := by
  rw [(lists_subschemas schema).eq_flatMap_tree]
  simp

/-- The listing of a schema is the schema and the listings of those it holds; what is no object
lists nothing. -/
theorem subschemas_eq (schema : Located) :
    subschemas schema =
      if schema.node.isObject then schema :: (children schema).flatMap subschemas else [] := by
  rw [funext subschemas_eq_tree]
  exact tree_eq schema

theorem count_lt_of_mem_children {schema child : Located} (h : child ∈ children schema) :
    child.node.count < schema.node.count := by
  have hle : child.node.count ≤ nodeCount (children schema) :=
    List.le_sum_of_mem (List.mem_map_of_mem h)
  exact Nat.lt_of_le_of_lt hle (nodeCount_children_lt schema)

/-- What holds of a schema as soon as it holds of those it holds is true of every schema. -/
theorem induction_children {P : Located → Prop}
    (step : ∀ schema, (∀ child ∈ children schema, P child) → P schema) (schema : Located) :
    P schema := by
  induction hn : schema.node.count using Nat.strongRecOn generalizing schema with
  | ind n ih =>
    refine step schema fun child hchild => ?_
    exact ih child.node.count (hn ▸ count_lt_of_mem_children hchild) child rfl

/-! ## What is listed -/

/-- The path leads to an object of the document. -/
def IsObjectAt (document : Node) (path : DocPath) : Prop :=
  ∃ node, path.resolve document = some node ∧ node.isObject = true

/-- A chain of objects, each of them held by the one before as a schema, leads from one path to
another. -/
inductive NestedAt (document : Node) : DocPath → DocPath → Prop
  | itself {path : DocPath} (hobject : IsObjectAt document path) : NestedAt document path path
  | held {schema inner path : DocPath} (hobject : IsObjectAt document schema)
      (hheld : HeldAt schema inner) (hrest : NestedAt document inner path) :
      NestedAt document schema path

theorem NestedAt.prefix_path {schema path : DocPath} (h : NestedAt document schema path) :
    schema <+: path := by
  induction h with
  | itself => exact List.prefix_refl _
  | held _ hheld _ ih => exact hheld.prefix_path.trans ih

/-- A chain ends at its first schema or goes on with one that this schema holds. -/
theorem nestedAt_iff (schema path : DocPath) :
    NestedAt document schema path ↔
      IsObjectAt document schema ∧
        (path = schema ∨ ∃ inner, HeldAt schema inner ∧ NestedAt document inner path) := by
  constructor
  · intro h
    cases h with
    | itself hobject => exact ⟨hobject, .inl rfl⟩
    | held hobject hheld hrest => exact ⟨hobject, .inr ⟨_, hheld, hrest⟩⟩
  · rintro ⟨hobject, rfl | ⟨inner, hheld, hrest⟩⟩
    · exact .itself hobject
    · exact .held hobject hheld hrest

section Listing

variable (hwf : document.WellFormed)
include hwf

/-- The listing of a schema consists of the nodes at the end of chains of schemas. -/
theorem mem_subschemas_iff {schema : Located} (h : schema.StandsIn document) (found : Located) :
    found ∈ subschemas schema ↔
      found.StandsIn document ∧ NestedAt document schema.path found.path := by
  induction schema using induction_children with
  | step schema ih =>
    have hchildren := (collects_children hwf).mem_iff schema h
    rw [subschemas_eq]
    by_cases hobject : schema.node.isObject = true
    · have hself : IsObjectAt document schema.path := ⟨schema.node, h, hobject⟩
      rw [if_pos hobject, List.mem_cons, List.mem_flatMap]
      constructor
      · rintro (rfl | ⟨child, hchild, hfound⟩)
        · exact ⟨h, .itself hself⟩
        · obtain ⟨hstands, hheld⟩ := (hchildren child).mp hchild
          obtain ⟨hfound, hnested⟩ := (ih child hchild hstands).mp hfound
          exact ⟨hfound, .held hself hheld hnested⟩
      · rintro ⟨hfound, hnested⟩
        obtain ⟨_, hpath | ⟨inner, hheld, hrest⟩⟩ := (nestedAt_iff _ _).mp hnested
        · exact .inl (hfound.eq_of_path h hpath)
        · obtain ⟨node, hnode⟩ := DocPath.exists_resolve_on_way hrest.prefix_path hfound
          have hchild := (hchildren ⟨inner, node⟩).mpr ⟨hnode, hheld⟩
          exact .inr ⟨_, hchild, (ih _ hchild hnode).mpr ⟨hfound, hrest⟩⟩
    · rw [if_neg hobject]
      constructor
      · intro hmem
        exact absurd hmem List.not_mem_nil
      · rintro ⟨_, hnested⟩
        obtain ⟨⟨node, hnode, hisObject⟩, _⟩ := (nestedAt_iff _ _).mp hnested
        obtain rfl := Option.some.inj (h.symm.trans hnode)
        exact absurd hisObject hobject

/-- No path occurs twice in the listing of a schema. -/
theorem nodup_subschemas {schema : Located} (h : schema.StandsIn document) :
    ((subschemas schema).map Located.path).Nodup := by
  rw [List.Nodup, List.pairwise_map]
  induction schema using induction_children with
  | step schema ih =>
    have hchildren := (collects_children hwf).mem_iff schema h
    -- what is listed below a child begins with the path of the child
    have hbelow : ∀ child ∈ children schema, ∀ found ∈ subschemas child,
        child.path <+: found.path := fun child hchild found hfound =>
      ((mem_subschemas_iff hwf ((hchildren child).mp hchild).1 found).mp hfound).2.prefix_path
    rw [subschemas_eq]
    split
    · rw [List.pairwise_cons, List.pairwise_flatMap]
      refine ⟨?_, ?_, ?_⟩
      · intro found hfound heq
        obtain ⟨child, hchild, hfound⟩ := List.mem_flatMap.mp hfound
        have hlonger := ((hchildren child).mp hchild).2.length_lt
        have hlength := (hbelow child hchild found hfound).length_le
        rw [← heq] at hlength
        omega
      · intro child hchild
        exact ih child hchild ((hchildren child).mp hchild).1
      · apply ((collects_children hwf).diverge schema h).imp_of_mem
        intro child other hchild hother hdiverge a ha b hb
        exact (hdiverge.extend (hbelow child hchild a ha) (hbelow other hother b hb)).ne
    · exact List.Pairwise.nil

end Listing

end ApiLint.Schema
