import ApiLint.Linter
import ApiLint.Proofs.Node.Throughout
set_option autoImplicit false

/-!
# Document trees as trees of YAML

A document tree can be written as a tree of YAML whose keys are strings and whose numbers
are of the same kinds.  Converting that tree gives the document tree back, with the order
of its keys, and tags change nothing in it, whether they stand on nodes or on keys.  So a
document is linted alike in both formats.
-/

namespace ApiLint

/-- A number is one that a document can have: an integer that fits a word, with or without a
sign, or a finite float. -/
def Node.NumberFits : Node → Prop
  | int n => -(Word.signedLimit : Int) ≤ n ∧ n < Word.limit
  | float x => x.isFinite = true
  | _ => True

namespace Yaml

/-! ## Numbers -/

/-- An integer is kept if it fits a signed word or else one without a sign. -/
theorem Number.toNode_int {n : Int} (hlow : -(Word.signedLimit : Int) ≤ n)
    (hhigh : n < Word.limit) : (int n).toNode = .int n := by
  unfold toNode signedWord? unsignedWord?
  by_cases hsigned : n < Word.signedLimit
  · simp only [hlow, hsigned, and_self, if_true]
  · have hnonneg : 0 ≤ n := by
      have hlimit : (0 : Int) ≤ Word.signedLimit := Int.natCast_nonneg _
      omega
    simp only [hsigned, and_false, if_false, hnonneg, hhigh, and_self, if_true,
      Int.toNat_of_nonneg hnonneg]

/-- A finite float is kept, whatever its value. -/
theorem Number.toNode_float {x : Binary64} (h : x.isFinite = true) :
    (float x).toNode = .float x := by
  simp [toNode, signedWord?, unsignedWord?, toFloat, h]

namespace Tree

/-! ## The tree of a document tree -/

mutual

/-- The tree of a document tree: keys are strings, and nothing has a tag. -/
def ofNode : Node → Tree
  | .null => null
  | .bool b => bool b
  | .int n => number (.int n)
  | .float x => number (.float x)
  | .string s => string s
  | .array items => sequence (ofItems items)
  | .object fields => mapping (ofFields fields)

/-- The trees of elements. -/
def ofItems : List Node → List Tree
  | [] => []
  | item :: rest => ofNode item :: ofItems rest

/-- The entries of fields. -/
def ofFields : List (String × Node) → List (Tree × Tree)
  | [] => []
  | (key, value) :: rest => (string key, ofNode value) :: ofFields rest

end

/-- Elements that are given back one by one are given back behind those before. -/
theorem toNodes_ofItems {items : List Node} (h : ∀ item ∈ items, (ofNode item).toNode = .ok item)
    (done : List Node) : toNodes (ofItems items) done = .ok (done.reverse ++ items) := by
  induction items generalizing done with
  | nil => simp [ofItems, toNodes]
  | cons item rest ih =>
    obtain ⟨hitem, hrest⟩ := List.forall_mem_cons.mp h
    rw [ofItems, toNodes, hitem]
    exact (ih hrest (item :: done)).trans (by simp)

/-- Fields with distinct keys whose values are given back are given back behind those before. -/
theorem toFields_ofFields {fields : Fields}
    (h : ∀ field ∈ fields, (ofNode field.2).toNode = .ok field.2) {before : Fields}
    (hkeys : (Fields.keys (before ++ fields)).Nodup) :
    toFields (ofFields fields) before = .ok (before ++ fields) := by
  induction fields generalizing before with
  | nil => simp [ofFields, toFields]
  | cons field rest ih =>
    obtain ⟨key, value⟩ := field
    obtain ⟨hvalue, hrest⟩ := List.forall_mem_cons.mp h
    have hassoc : before ++ (key, value) :: rest = (before ++ [(key, value)]) ++ rest := by simp
    have hkey : key ∉ Fields.keys before := by
      rw [Fields.keys, List.map_append, List.map_cons] at hkeys
      exact fun hmem => (List.nodup_append.mp hkeys).2.2 key hmem key List.mem_cons_self rfl
    rw [ofFields, toFields, keyText?]
    dsimp only
    rw [hvalue]
    show toFields (ofFields rest) (Fields.setField before key value) = _
    rw [Fields.setField_of_notMem hkey, hassoc]
    exact ih hrest (hassoc ▸ hkeys)

theorem toNode_ofNode {v : Node} (hwf : v.WellFormed) (hnumbers : v.Throughout Node.NumberFits) :
    (ofNode v).toNode = .ok v := by
  induction v using Node.induction_steps with
  | step v ih =>
    cases v with
    | null => rfl
    | bool b => rfl
    | string s => rfl
    | int n => exact congrArg Except.ok (Number.toNode_int hnumbers.holds.1 hnumbers.holds.2)
    | float x => exact congrArg Except.ok (Number.toNode_float hnumbers.holds)
    | array items =>
      have hitems : ∀ item ∈ items, (ofNode item).toNode = .ok item := by
        intro item hitem
        obtain ⟨position, hposition⟩ := List.mem_iff_getElem?.mp hitem
        have hstep : (Segment.index position, item) ∈ (Node.array items).steps :=
          Node.mem_steps_of_step? hposition
        exact ih _ hstep (hwf.of_mem_steps hstep) (hnumbers.of_mem_steps hstep)
      rw [ofNode, toNode, toNodes_ofItems hitems]
      rfl
    | object fields =>
      have hfields : ∀ field ∈ fields, (ofNode field.2).toNode = .ok field.2 := by
        intro field hfield
        have hstep : (Segment.key field.1, field.2) ∈ (Node.object fields).steps :=
          List.mem_map_of_mem hfield
        exact ih _ hstep (hwf.of_mem_steps hstep) (hnumbers.of_mem_steps hstep)
      have hkeys : (Fields.keys ([] ++ fields)).Nodup := hwf.nodup_keys
      rw [ofNode, toNode, toFields_ofFields hfields hkeys]
      rfl

/-! ## Tags -/

mutual

/-- The tree without its tags, those of nodes and those of keys. -/
def untagged : Tree → Tree
  | null => null
  | bool b => bool b
  | number n => number n
  | string s => string s
  | sequence items => sequence (untaggedItems items)
  | mapping entries => mapping (untaggedEntries entries)
  | tagged _ value => untagged value

/-- The elements without their tags. -/
def untaggedItems : List Tree → List Tree
  | [] => []
  | item :: rest => untagged item :: untaggedItems rest

/-- The entries without the tags of keys and values. -/
def untaggedEntries : List (Tree × Tree) → List (Tree × Tree)
  | [] => []
  | (key, value) :: rest => (untagged key, untagged value) :: untaggedEntries rest

end

theorem keyText?_untagged (key : Tree) : keyText? key.untagged = keyText? key := by
  cases key with
  | tagged _ value => exact keyText?_untagged value
  | _ => rfl

mutual

/-- Converting a tree is converting it without its tags. -/
theorem toNode_untagged (tree : Tree) : tree.untagged.toNode = tree.toNode := by
  cases tree with
  | sequence items => rw [untagged, toNode, toNode, toNodes_untaggedItems items]
  | mapping entries => rw [untagged, toNode, toNode, toFields_untaggedEntries entries]
  | tagged _ value => exact toNode_untagged value
  | _ => rfl

theorem toNodes_untaggedItems : ∀ (items : List Tree) (done : List Node),
    toNodes (untaggedItems items) done = toNodes items done
  | [], _ => rfl
  | item :: rest, done => by
    rw [untaggedItems, toNodes, toNodes, toNode_untagged item]
    congr 1
    funext node
    exact toNodes_untaggedItems rest (node :: done)

theorem toFields_untaggedEntries : ∀ (entries : List (Tree × Tree)) (fields : Fields),
    toFields (untaggedEntries entries) fields = toFields entries fields
  | [], _ => rfl
  | (key, value) :: rest, fields => by
    rw [untaggedEntries, toFields, toFields, keyText?_untagged key, toNode_untagged value]
    congr 1
    funext text
    congr 1
    funext node
    exact toFields_untaggedEntries rest (fields.setField text node)

end

/-! ## Documents in both formats -/

/-- The tree of a document tree is converted back to it, and so is every tree that is this one
but for tags on nodes and keys.  A text of YAML with such a tree is the same document as a text
of JSON with the document tree, and is linted alike. -/
theorem toNode_of_untagged_eq_ofNode {v : Node} (hwf : v.WellFormed)
    (hnumbers : v.Throughout Node.NumberFits) :
    (ofNode v).toNode = .ok v ∧
      ∀ tree : Tree, tree.untagged = ofNode v →
        tree.toNode = .ok v ∧
          ∀ yaml json : String, Yaml.read yaml = .ok tree → Json.read json = .ok v →
            Document.parse .yaml yaml = .ok { root := v } ∧
              ∀ linter : Linter, (Document.parse .yaml yaml).map linter.lint =
                (Document.parse .json json).map linter.lint := by
  have hconverted := toNode_ofNode hwf hnumbers
  refine ⟨hconverted, fun tree htree => ?_⟩
  have htree : tree.toNode = .ok v := by rw [← toNode_untagged, htree, hconverted]
  refine ⟨htree, fun yaml json hyaml hjson => ?_⟩
  have hparse : Document.parse .yaml yaml = .ok { root := v } := by
    simp [Document.parse, Document.parseText, hyaml, htree, Except.map]
  have hparse' : Document.parse .json json = .ok { root := v } := by
    simp [Document.parse, Document.parseText, hjson, Except.map]
  exact ⟨hparse, fun linter => by rw [hparse, hparse']⟩

/-- Integers at the ends of both kinds of words and between them, a float with an integral value,
and keys that look like a number and like nothing. -/
def boundaryNode : Node :=
  .object [("200", .array [.int (-9223372036854775808), .int 9223372036854775808,
    .int 18446744073709551615, .object [("", .float ⟨4607182418800017408⟩)]])]

/-- Its tree with tags on the root, on a key, on a sequence and on the float. -/
def taggedTree : Tree :=
  .tagged "root" (.mapping [(.tagged "key" (.string "200"), .tagged "words" (.sequence
    [.number (.int (-9223372036854775808)), .number (.int 9223372036854775808),
      .number (.int 18446744073709551615),
      .mapping [(.string "", .tagged "x" (.number (.float ⟨4607182418800017408⟩)))]]))])

/-- A text of YAML with the tagged tree. -/
def taggedText : String :=
  "!root \x7b!key \"200\": !words [-9223372036854775808, 9223372036854775808,
  18446744073709551615, \x7b'': !x 1.0\x7d]\x7d"

/-- A text of JSON with the document tree. -/
def boundaryText : String :=
  "\x7b\"200\": [-9223372036854775808, 9223372036854775808,
  18446744073709551615, \x7b\"\": 1.0\x7d]\x7d"

theorem wellFormed_boundaryNode : boundaryNode.WellFormed := by
  simp [boundaryNode, Node.WellFormed, Node.WellFormedFields, Node.WellFormedItems]

theorem numberFits_boundaryNode : boundaryNode.Throughout Node.NumberFits := by
  have hint (n : Int) : (Node.int n).Throughout Node.NumberFits ↔ Node.NumberFits (.int n) :=
    Node.throughout_leaf_iff _ rfl
  have hfloat (x : Binary64) :
      (Node.float x).Throughout Node.NumberFits ↔ Node.NumberFits (.float x) :=
    Node.throughout_leaf_iff _ rfl
  have hfinite : (⟨4607182418800017408⟩ : Binary64).isFinite = true := by decide
  simp [boundaryNode, Node.throughout_object_iff, Node.throughout_array_iff, hint, hfloat,
    Node.NumberFits, Word.limit, Word.signedLimit, hfinite]

/-- The reader gives the tagged tree. -/
def readsTagged : Except Fault Tree → Bool
  | .ok (.tagged "root" (.mapping [(.tagged "key" (.string "200"), .tagged "words" (.sequence
      [.number a, .number b, .number c, .mapping [(.string "", .tagged "x" (.number x))]]))])) =>
    a == .int (-9223372036854775808) && b == .int 9223372036854775808 &&
      c == .int 18446744073709551615 && x == .float ⟨4607182418800017408⟩
  | _ => false

theorem read_taggedText : Yaml.read taggedText = .ok taggedTree := by
  have hread : readsTagged (Yaml.read taggedText) = true := by decide +kernel
  unfold readsTagged at hread
  split at hread
  · next htree =>
    simp only [Bool.and_eq_true, beq_iff_eq] at hread
    rw [htree]
    simp [taggedTree, hread]
  · cases hread

/-- The reader gives the document tree. -/
def readsBoundary : Except Json.Fault Node → Bool
  | .ok (.object [("200", .array [.int a, .int b, .int c, .object [("", .float x)]])]) =>
    a == -9223372036854775808 && b == 9223372036854775808 && c == 18446744073709551615 &&
      x == ⟨4607182418800017408⟩
  | _ => false

theorem read_boundaryText : Json.read boundaryText = .ok boundaryNode := by
  have hread : readsBoundary (Json.read boundaryText) = true := by decide +kernel
  unfold readsBoundary at hread
  split at hread
  · next hnode =>
    simp only [Bool.and_eq_true, beq_iff_eq] at hread
    rw [hnode]
    simp [boundaryNode, hread]
  · cases hread

/-- The tagged tree is converted to the document tree, and the texts of both formats are linted
alike. -/
theorem toNode_taggedTree :
    (ofNode boundaryNode).toNode = .ok boundaryNode ∧ taggedTree.toNode = .ok boundaryNode ∧
      Document.parse .yaml taggedText = .ok { root := boundaryNode } ∧
      ∀ linter : Linter, (Document.parse .yaml taggedText).map linter.lint =
        (Document.parse .json boundaryText).map linter.lint := by
  obtain ⟨hplain, htagged⟩ :=
    toNode_of_untagged_eq_ofNode wellFormed_boundaryNode numberFits_boundaryNode
  obtain ⟨htree, htexts⟩ := htagged taggedTree rfl
  exact ⟨hplain, htree, htexts taggedText boundaryText read_taggedText read_boundaryText⟩

end Tree

end Yaml

end ApiLint
