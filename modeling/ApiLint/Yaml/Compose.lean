import ApiLint.Yaml.Event
import ApiLint.Yaml.Scalar
set_option autoImplicit false

/-!
# Composing a tree from events

An alias stands for a copy of the node at its anchor.  Anchors are numbered by how many
different names have been given before them, and an alias means the last node of the
document that got the number.  The number of copies is limited by the number of events,
and so is the depth of the tree, so that neither aliases nor nesting get out of hand.
-/

namespace ApiLint.Yaml

/-! ## Anchors -/

/-- The anchor of a node. -/
def Event.anchor? {ρ : Type} : Event ρ → Option String
  | .scalar anchor _ _ _ => anchor
  | .sequenceStart anchor _ => anchor
  | .mappingStart anchor _ => anchor
  | .alias _ => none
  | .sequenceEnd => none
  | .mappingEnd => none

/-- The anchors seen so far. -/
structure Anchors where
  /-- the number that each name stands for -/
  numbers : List (String × Nat) := []
  /-- the events that numbers were given to, the last first -/
  events : List (Nat × Nat) := []

/-- Gives a name the number of names before it. -/
def Anchors.add (anchors : Anchors) (name : String) (position : Nat) : Anchors :=
  let number := anchors.numbers.length
  { numbers := (name, number) :: anchors.numbers.filter (·.1 ≠ name)
    events := (number, position) :: anchors.events }

/-- Replaces the names of aliases by numbers.  The anchor of an alias must come before it. -/
def numberAliases : List (Event String) → Nat → Anchors → Array (Event Nat) →
    Except Fault (Array (Event Nat) × Anchors)
  | [], _, anchors, done => .ok (done, anchors)
  | .alias name :: rest, position, anchors, done =>
    match anchors.numbers.find? (·.1 = name) with
    | some (_, number) => numberAliases rest (position + 1) anchors (done.push (.alias number))
    | none => .error .unknownAnchor
  | .scalar anchor tag text plain :: rest, position, anchors, done =>
    let anchors := (anchor.map (anchors.add · position)).getD anchors
    numberAliases rest (position + 1) anchors (done.push (.scalar anchor tag text plain))
  | .sequenceStart anchor tag :: rest, position, anchors, done =>
    let anchors := (anchor.map (anchors.add · position)).getD anchors
    numberAliases rest (position + 1) anchors (done.push (.sequenceStart anchor tag))
  | .mappingStart anchor tag :: rest, position, anchors, done =>
    let anchors := (anchor.map (anchors.add · position)).getD anchors
    numberAliases rest (position + 1) anchors (done.push (.mappingStart anchor tag))
  | .sequenceEnd :: rest, position, anchors, done =>
    numberAliases rest (position + 1) anchors (done.push .sequenceEnd)
  | .mappingEnd :: rest, position, anchors, done =>
    numberAliases rest (position + 1) anchors (done.push .mappingEnd)

/-! ## Composing -/

/-- The events of a document, with what its aliases mean. -/
structure Source where
  events : Array (Event Nat)
  /-- the events that numbers of anchors were given to, the last first -/
  anchored : List (Nat × Nat)

/-- The event that an alias means. -/
def Source.target (source : Source) (number : Nat) : Except Fault Nat :=
  match source.anchored.find? (·.1 = number) with
  | some (_, position) => .ok position
  | none => .error .unknownAnchor

/-- A part of a tree that has been composed, the event behind it, and the aliases followed. -/
structure Composed (α : Type) where
  value : α
  position : Nat
  copies : Nat

/-- The tree with its tag, if that is one of the document's own and has a name. -/
def withTag (tag : Option Tag) (tree : Tree) : Tree :=
  match tag.bind Tag.localName? with
  | some name => .tagged name tree
  | none => tree

/-- The deepest nesting of collections. -/
def depthLimit : Nat := 128

mutual

/-- Composes the node at an event, `depth` collections deep at most. -/
def composeNode (source : Source) : Nat → Nat → Nat → Nat → Except Fault (Composed Tree)
  | 0, _, _, _ => .error .limit
  | fuel + 1, depth, position, copies =>
    match source.events[position]? with
    | some (.alias number) =>
      if source.events.size * 100 < copies + 1 then .error .limit
      else do
        let target ← source.target number
        let copy ← composeNode source fuel depth target (copies + 1)
        .ok { copy with position := position + 1 }
    | some (.scalar _ tag text plain) => do
      let tree ← Scalar.value tag plain text
      .ok ⟨withTag tag tree, position + 1, copies⟩
    | some (.sequenceStart _ tag) =>
      match depth with
      | 0 => .error .limit
      | depth + 1 => do
        let items ← composeItems source fuel depth (position + 1) copies []
        .ok { items with value := withTag tag (.sequence items.value) }
    | some (.mappingStart _ tag) =>
      match depth with
      | 0 => .error .limit
      | depth + 1 => do
        let entries ← composeEntries source fuel depth (position + 1) copies []
        .ok { entries with value := withTag tag (.mapping entries.value) }
    | _ => .error .order

/-- Composes the elements of a sequence, to its end; those before are given in reverse. -/
def composeItems (source : Source) :
    Nat → Nat → Nat → Nat → List Tree → Except Fault (Composed (List Tree))
  | 0, _, _, _, _ => .error .limit
  | fuel + 1, depth, position, copies, items =>
    match source.events[position]? with
    | some .sequenceEnd => .ok ⟨items.reverse, position + 1, copies⟩
    | _ => do
      let item ← composeNode source fuel depth position copies
      composeItems source fuel depth item.position item.copies (item.value :: items)

/-- Composes the entries of a mapping, to its end; those before are given in reverse.  No two
keys may be equal. -/
def composeEntries (source : Source) :
    Nat → Nat → Nat → Nat → List (Tree × Tree) → Except Fault (Composed (List (Tree × Tree)))
  | 0, _, _, _, _ => .error .limit
  | fuel + 1, depth, position, copies, entries =>
    match source.events[position]? with
    | some .mappingEnd => .ok ⟨entries.reverse, position + 1, copies⟩
    | _ => do
      let key ← composeNode source fuel depth position copies
      if entries.any fun entry => entry.1.same key.value then .error .duplicateKey
      else do
        let value ← composeNode source fuel depth key.position key.copies
        composeEntries source fuel depth value.position value.copies
          ((key.value, value.value) :: entries)

end

/-- Reads the one document of a text; a text without a document is null. -/
def read (text : String) : Except Fault Tree := do
  let tokens ← tokens text
  let events ← events tokens
  if events.isEmpty then .ok .null
  else
    let (events, anchors) ← numberAliases events.toList 0 {} #[]
    let source : Source := ⟨events, anchors.events⟩
    let budget := (depthLimit + 2) * (2 * events.size + 2)
    let composed ← composeNode source budget depthLimit 0 0
    .ok composed.value

end ApiLint.Yaml
