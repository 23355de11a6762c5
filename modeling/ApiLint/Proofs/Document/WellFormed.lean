import ApiLint.Document
import ApiLint.Proofs.Results
import ApiLint.Proofs.Schema.Merging
set_option autoImplicit false

/-!
# Documents are well formed

Objects are put together key by key, and a key that is there already takes the new value;
so the keys of every object that is read are distinct, whatever the text, in both formats.
-/

namespace ApiLint

/-! ## Texts of JSON -/

namespace Json

/-- The node that is read is well formed. -/
abbrev GivesWellFormed (result : Except Fault (Node × List Char)) : Prop :=
  Gives (fun read => read.1.WellFormed) result

/-! ### Leaves -/

theorem wellFormed_floatOf (negative : Bool) (significand : Nat) (e : Int) :
    Gives Node.WellFormed (floatOf negative significand e) := by
  unfold floatOf
  split
  · exact .ok trivial
  · exact .error _

theorem wellFormed_wholeNumber (negative : Bool) (significand : Nat) :
    Gives Node.WellFormed (wholeNumber negative significand) :=
  .ite (.ok trivial) (.ite (.ok trivial) (wellFormed_floatOf _ _ _))

theorem wellFormed_readExponent (negative : Bool) (significand : Nat) (e : Int)
    (text : List Char) : GivesWellFormed (readExponent negative significand e text) :=
  .ite (.error _) (.ite (.ite (.error _) (.ok trivial))
    (.bind (wellFormed_floatOf _ _ _) fun _ hnode => .ok hnode))

theorem wellFormed_finishFloat (negative : Bool) (significand : Nat) (e : Int)
    (text : List Char) : GivesWellFormed (finishFloat negative significand e text) := by
  unfold finishFloat
  split
  · exact wellFormed_readExponent _ _ _ _
  · exact wellFormed_readExponent _ _ _ _
  · exact .bind (wellFormed_floatOf _ _ _) fun _ hnode => .ok hnode

theorem wellFormed_readUnsigned (negative : Bool) (text : List Char) :
    GivesWellFormed (readUnsigned negative text) := by
  refine .ite (.error _) ?_
  split
  · exact .ite (.error _) (wellFormed_finishFloat _ _ _ _)
  · exact wellFormed_finishFloat _ _ _ _
  · exact wellFormed_finishFloat _ _ _ _
  · exact .ite (.bind (wellFormed_wholeNumber _ _) fun _ hnode => .ok hnode)
      (wellFormed_finishFloat _ _ _ _)

theorem wellFormed_readNumber (text : List Char) : GivesWellFormed (readNumber text) := by
  unfold readNumber
  split <;> exact wellFormed_readUnsigned _ _

theorem wellFormed_readWord (node : Node) (h : node.WellFormed) (word text : List Char) :
    GivesWellFormed (readWord word node text) := by
  induction word generalizing text with
  | nil => exact .ok h
  | cons c word ih =>
    cases text with
    | nil => exact .error _
    | cons d rest => exact .ite (ih rest) (.error _)

/-! ### Arrays and objects -/

/-- With some fuel, what is read is well formed if what has been read before is. -/
structure ReadsWellFormed (fuel : Nat) : Prop where
  value : ∀ depth text, GivesWellFormed (readValue fuel depth text)
  items : ∀ depth done text, (∀ node ∈ done, node.WellFormed) →
    GivesWellFormed (readItems fuel depth done text)
  fields : ∀ depth done text, (Node.object done).WellFormed →
    GivesWellFormed (readFields fuel depth done text)

section Step

variable {fuel : Nat} (ih : ReadsWellFormed fuel)
include ih

theorem wellFormed_readValue (depth : Nat) (text : List Char) :
    GivesWellFormed (readValue (fuel + 1) depth text) := by
  rw [readValue]
  dsimp only
  split
  · exact .error _
  · exact wellFormed_readWord .null trivial _ _
  · exact wellFormed_readWord (.bool true) trivial _ _
  · exact wellFormed_readWord (.bool false) trivial _ _
  · exact .bind (.trivial _) fun _ _ => .ok trivial
  · refine .ite (.error _) ?_
    split
    · exact .ok Node.wellFormed_emptyArray
    · exact ih.items _ _ _ fun _ h => absurd h List.not_mem_nil
  · refine .ite (.error _) ?_
    split
    · exact .ok Node.wellFormed_emptyObject
    · exact ih.fields _ _ _ Node.wellFormed_emptyObject
  · exact .ite (wellFormed_readNumber _) (.error _)

theorem wellFormed_readItems (depth : Nat) {done : List Node}
    (hdone : ∀ node ∈ done, node.WellFormed) (text : List Char) :
    GivesWellFormed (readItems (fuel + 1) depth done text) := by
  rw [readItems]
  refine .bind (ih.value depth text) fun ⟨item, rest⟩ hitem => ?_
  have hitems : ∀ node ∈ item :: done, node.WellFormed := List.forall_mem_cons.mpr ⟨hitem, hdone⟩
  dsimp only
  split
  · exact ih.items _ _ _ hitems
  · exact .ok ((Node.wellFormed_array_iff _).mpr fun node h => hitems node (List.mem_reverse.mp h))
  · exact .error _
  · exact .error _

theorem wellFormed_readFields (depth : Nat) {done : Fields}
    (hdone : (Node.object done).WellFormed) (text : List Char) :
    GivesWellFormed (readFields (fuel + 1) depth done text) := by
  rw [readFields]
  dsimp only
  split
  · refine .bind (.trivial _) fun ⟨key, rest⟩ _ => ?_
    dsimp only
    split
    · refine .bind (ih.value depth _) fun ⟨value, rest⟩ hvalue => ?_
      have hfields := Schema.wellFormed_setField hdone key hvalue
      dsimp only
      split
      · exact ih.fields _ _ _ hfields
      · exact .ok hfields
      · exact .error _
      · exact .error _
    · exact .error _
    · exact .error _
  · exact .error _
  · exact .error _

end Step

theorem readsWellFormed (fuel : Nat) : ReadsWellFormed fuel := by
  induction fuel with
  | zero =>
    refine ⟨fun _ _ => ?_, fun _ _ _ _ => ?_, fun _ _ _ _ => ?_⟩
    · rw [readValue]
      exact .error _
    · rw [readItems]
      exact .error _
    · rw [readFields]
      exact .error _
  | succ fuel ih =>
    exact ⟨wellFormed_readValue ih, fun depth _ text h => wellFormed_readItems ih depth h text,
      fun depth _ text h => wellFormed_readFields ih depth h text⟩

/-- A text of JSON is read as a well-formed node. -/
theorem wellFormed_read (text : String) : Gives Node.WellFormed (read text) :=
  .bind ((readsWellFormed _).value _ _) fun _ hnode => .ite (.ok hnode) (.error _)

end Json

/-! ## Trees of YAML -/

namespace Yaml

theorem Number.wellFormed_toNode (n : Number) : n.toNode.WellFormed := by
  unfold toNode
  split
  · trivial
  · split
    · trivial
    · split <;> trivial

namespace Tree

mutual

/-- A tree of YAML is converted to a well-formed node. -/
theorem wellFormed_toNode : ∀ tree : Tree, Gives Node.WellFormed tree.toNode
  | null => .ok trivial
  | bool _ => .ok trivial
  | number n => .ok n.wellFormed_toNode
  | string _ => .ok trivial
  | sequence items =>
    .map (wellFormed_toNodes items fun _ h => absurd h List.not_mem_nil) fun _ hnodes =>
      (Node.wellFormed_array_iff _).mpr hnodes
  | mapping entries => .map (wellFormed_toFields entries Node.wellFormed_emptyObject) fun _ h => h
  | tagged _ value => wellFormed_toNode value

theorem wellFormed_toNodes : ∀ (items : List Tree) {done : List Node},
    (∀ node ∈ done, node.WellFormed) →
      Gives (fun nodes => ∀ node ∈ nodes, node.WellFormed) (toNodes items done)
  | [], _, hdone => .ok fun node h => hdone node (List.mem_reverse.mp h)
  | item :: rest, _, hdone =>
    .bind (wellFormed_toNode item) fun _ hnode =>
      wellFormed_toNodes rest (List.forall_mem_cons.mpr ⟨hnode, hdone⟩)

theorem wellFormed_toFields : ∀ (entries : List (Tree × Tree)) {fields : Fields},
    (Node.object fields).WellFormed →
      Gives (fun fields => (Node.object fields).WellFormed) (toFields entries fields)
  | [], _, hfields => .ok hfields
  | (key, value) :: rest, _, hfields => by
    rw [toFields]
    split
    · exact .error _
    · exact .bind (wellFormed_toNode value) fun _ hnode =>
        wellFormed_toFields rest (Schema.wellFormed_setField hfields _ hnode)

end

end Tree

end Yaml

/-! ## Documents -/

namespace Document

theorem wellFormed_parseText (origin : String) (format : Format) (text : String) :
    Gives Node.WellFormed (parseText origin format text) := by
  unfold parseText
  cases format with
  | json =>
    dsimp only
    split
    · next root hread => exact .ok (Json.wellFormed_read text root hread)
    · exact .error _
  | yaml =>
    dsimp only
    split
    · exact .error _
    · next tree _ =>
      split
      · next root hroot => exact .ok (tree.wellFormed_toNode root hroot)
      · exact .error _

/-- Every document that can be loaded is well formed. -/
theorem wellFormed_of_load {readFile : String → Option String} {path : String}
    {document : Document} (h : load readFile path = .ok document) : document.root.WellFormed := by
  have hgives : Gives (fun document => document.root.WellFormed) (load readFile path) := by
    unfold load
    split
    · exact .error _
    · split
      · exact .error _
      · exact .map (wellFormed_parseText _ _ _) fun _ hroot => hroot
  exact hgives document h

end Document

end ApiLint
