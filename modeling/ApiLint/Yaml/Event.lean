import ApiLint.Yaml.TokenStream
set_option autoImplicit false

/-!
# Events of a YAML document

The events of a document are its nodes in order, with the ends of its collections.
They are found with a stack of goals: what is still expected, the next thing first.
A node that is left out is an empty scalar.
-/

namespace ApiLint.Yaml

/-- An event; `ρ` is how an alias refers to its anchor. -/
inductive Event (ρ : Type) where
  | alias (reference : ρ)
  | scalar (anchor : Option String) (tag : Option Tag) (text : String) (plain : Bool)
  | sequenceStart (anchor : Option String) (tag : Option Tag)
  | sequenceEnd
  | mappingStart (anchor : Option String) (tag : Option Tag)
  | mappingEnd
  deriving DecidableEq, Repr, Inhabited

/-- The event of a node that is left out. -/
def Event.empty {ρ : Type} : Event ρ := .scalar none none "" true

/-- What is expected. -/
inductive Goal where
  /-- a node; in a block, it may be a block collection, and where a mapping stands, a sequence
  that is not indented -/
  | node (inBlock orSequence : Bool)
  /-- the next entry or the end of a block sequence -/
  | blockEntry
  /-- the next entry, or something else, behind a sequence that is not indented -/
  | flatEntry
  /-- the next key or the end of a block mapping -/
  | blockKey
  | blockValue
  /-- the next entry or the end of a flow sequence -/
  | flowEntry (isFirst : Bool)
  /-- the parts of a mapping with a single pair in a flow sequence -/
  | pairKey
  | pairValue
  | pairEnd
  /-- the next key or the end of a flow mapping -/
  | flowKey (isFirst : Bool)
  | flowValue
  /-- the value of a key that has no key indicator -/
  | missingValue
  deriving DecidableEq, Repr, Inhabited

/-- What one turn finds: an event, what is expected then, and the tokens left. -/
structure Turn where
  event : Option (Event String)
  goals : List Goal
  tokens : List Token

/-! ## Properties of nodes -/

/-- The properties of a node. -/
structure Properties where
  anchor : Option String := none
  /-- the handle and the suffix of a tag -/
  tag : Option (String × Tag) := none

/-- Takes the properties in front of a node, in either order. -/
def takeProperties : List Token → Properties × List Token
  | .anchor name :: .tag handle suffix :: rest => (⟨some name, some (handle, suffix)⟩, rest)
  | .tag handle suffix :: .anchor name :: rest => (⟨some name, some (handle, suffix)⟩, rest)
  | .anchor name :: rest => (⟨some name, none⟩, rest)
  | .tag handle suffix :: rest => (⟨none, some (handle, suffix)⟩, rest)
  | tokens => ({}, tokens)

/-- What tag handles stand for. -/
abbrev Handles := List (String × Tag)

/-- The handles of a document without directives. -/
def defaultHandles : Handles := [("!", .ofString "!"), ("!!", Tag.coreStart)]

/-- The full text of a tag; its handle must be known, unless it is verbatim. -/
def resolveTag (handles : Handles) : Option (String × Tag) → Except Fault (Option Tag)
  | none => .ok none
  | some (handle, suffix) =>
    if handle.isEmpty then .ok (some suffix)
    else
      match handles.find? (·.1 = handle) with
      | some (_, start) => .ok (some (start.append suffix))
      | none => .error .property

/-! ## Turns -/

/-- A node is expected behind a token, unless one of some tokens follows. -/
def nodeUnless (ends : Token → Bool) (inBlock orSequence : Bool) (goals : List Goal)
    (tokens : List Token) : Turn :=
  let isLeftOut :=
    match tokens with
    | token :: _ => ends token
    | [] => false
  if isLeftOut then ⟨some .empty, goals, tokens⟩
  else ⟨none, .node inBlock orSequence :: goals, tokens⟩

/-- A node. -/
def nodeTurn (handles : Handles) (inBlock orSequence : Bool) (goals : List Goal)
    (tokens : List Token) : Except Fault Turn :=
  match tokens with
  | .alias name :: rest => .ok ⟨some (.alias name), goals, rest⟩
  | _ => do
    let (properties, rest) := takeProperties tokens
    let tag ← resolveTag handles properties.tag
    let anchor := properties.anchor
    match rest with
    | .blockEntry :: _ =>
      if orSequence then .ok ⟨some (.sequenceStart anchor tag), .flatEntry :: goals, rest⟩
      else if anchor.isSome || tag.isSome then .ok ⟨some (.scalar anchor tag "" true), goals, rest⟩
      else .error .order
    | .scalar text plain :: rest =>
      .ok ⟨some (.scalar anchor tag text plain), goals, rest⟩
    | .flowSequenceStart :: rest =>
      .ok ⟨some (.sequenceStart anchor tag), .flowEntry true :: goals, rest⟩
    | .flowMappingStart :: rest =>
      .ok ⟨some (.mappingStart anchor tag), .flowKey true :: goals, rest⟩
    | _ =>
      match inBlock, rest with
      | true, .blockSequenceStart :: rest =>
        .ok ⟨some (.sequenceStart anchor tag), .blockEntry :: goals, rest⟩
      | true, .blockMappingStart :: rest =>
        .ok ⟨some (.mappingStart anchor tag), .blockKey :: goals, rest⟩
      | _, _ =>
        if anchor.isSome || tag.isSome then .ok ⟨some (.scalar anchor tag "" true), goals, rest⟩
        else .error .order

/-- The token ends an entry of a block sequence. -/
def endsBlockEntry : Token → Bool
  | .blockEntry => true
  | .blockEnd => true
  | _ => false

/-- The token ends an entry of a sequence that is not indented. -/
def endsFlatEntry : Token → Bool
  | .blockEntry => true
  | .key => true
  | .value => true
  | .blockEnd => true
  | _ => false

/-- The token ends a key or a value of a block mapping. -/
def endsBlockPart : Token → Bool
  | .key => true
  | .value => true
  | .blockEnd => true
  | _ => false

/-- The token ends a value in a flow sequence. -/
def endsFlowEntry : Token → Bool
  | .flowEntry => true
  | .flowSequenceEnd => true
  | _ => false

/-- The token ends a value in a flow mapping. -/
def endsFlowPart : Token → Bool
  | .flowEntry => true
  | .flowMappingEnd => true
  | _ => false

/-- An entry of a flow sequence that is not the end: a pair, or a node. -/
def flowEntryTurn (goals : List Goal) : List Token → Turn
  | .key :: rest => ⟨some (.mappingStart none none), .pairKey :: .flowEntry false :: goals, rest⟩
  | .flowSequenceEnd :: rest => ⟨some .sequenceEnd, goals, rest⟩
  | rest => ⟨none, .node false false :: .flowEntry false :: goals, rest⟩

/-- A key of a flow mapping that is not the end. -/
def flowKeyTurn (goals : List Goal) : List Token → Turn
  | .key :: rest =>
    let isLeftOut : Token → Bool
      | .value => true
      | token => endsFlowPart token
    nodeUnless isLeftOut false false (.flowValue :: .flowKey false :: goals) rest
  | .flowMappingEnd :: rest => ⟨some .mappingEnd, goals, rest⟩
  | rest => ⟨none, .node false false :: .missingValue :: .flowKey false :: goals, rest⟩

/-- One turn: pursues a goal. -/
def turn (handles : Handles) (goal : Goal) (goals : List Goal) (tokens : List Token) :
    Except Fault Turn :=
  match goal, tokens with
  | .node inBlock orSequence, tokens => nodeTurn handles inBlock orSequence goals tokens
  | .blockEntry, .blockEntry :: rest =>
    .ok (nodeUnless endsBlockEntry true false (.blockEntry :: goals) rest)
  | .blockEntry, .blockEnd :: rest => .ok ⟨some .sequenceEnd, goals, rest⟩
  | .blockEntry, _ => .error .order
  | .flatEntry, .blockEntry :: rest =>
    .ok (nodeUnless endsFlatEntry true false (.flatEntry :: goals) rest)
  | .flatEntry, rest => .ok ⟨some .sequenceEnd, goals, rest⟩
  | .blockKey, .key :: rest =>
    .ok (nodeUnless endsBlockPart true true (.blockValue :: .blockKey :: goals) rest)
  | .blockKey, .blockEnd :: rest => .ok ⟨some .mappingEnd, goals, rest⟩
  | .blockKey, _ => .error .order
  | .blockValue, .value :: rest => .ok (nodeUnless endsBlockPart true true goals rest)
  | .blockValue, rest => .ok ⟨some .empty, goals, rest⟩
  | .flowEntry true, rest => .ok (flowEntryTurn goals rest)
  | .flowEntry false, .flowEntry :: rest => .ok (flowEntryTurn goals rest)
  | .flowEntry false, .flowSequenceEnd :: rest => .ok ⟨some .sequenceEnd, goals, rest⟩
  | .flowEntry false, _ => .error .order
  | .pairKey, .value :: rest => .ok ⟨some .empty, .pairValue :: goals, rest⟩
  | .pairKey, .flowEntry :: rest => .ok ⟨some .empty, .pairValue :: goals, rest⟩
  | .pairKey, .flowSequenceEnd :: rest => .ok ⟨some .empty, .pairValue :: goals, rest⟩
  | .pairKey, rest => .ok ⟨none, .node false false :: .pairValue :: goals, rest⟩
  | .pairValue, .value :: rest =>
    .ok (nodeUnless endsFlowEntry false false (.pairEnd :: goals) rest)
  | .pairValue, rest => .ok ⟨some .empty, .pairEnd :: goals, rest⟩
  | .pairEnd, rest => .ok ⟨some .mappingEnd, goals, rest⟩
  | .flowKey true, rest => .ok (flowKeyTurn goals rest)
  | .flowKey false, .flowEntry :: rest => .ok (flowKeyTurn goals rest)
  | .flowKey false, .flowMappingEnd :: rest => .ok ⟨some .mappingEnd, goals, rest⟩
  | .flowKey false, _ => .error .order
  | .flowValue, .value :: rest => .ok (nodeUnless endsFlowPart false false goals rest)
  | .flowValue, rest => .ok ⟨some .empty, goals, rest⟩
  | .missingValue, rest => .ok ⟨some .empty, goals, rest⟩

/-- Pursues goals until none is left.  Of any few turns one takes a token, so a multiple of the
number of tokens bounds the turns. -/
def pursue (handles : Handles) :
    Nat → List Goal → List Token → Array (Event String) →
      Except Fault (Array (Event String) × List Token)
  | _, [], tokens, events => .ok (events, tokens)
  | 0, _ :: _, _, _ => .error .order
  | fuel + 1, goal :: goals, tokens, events => do
    let next ← turn handles goal goals tokens
    let events :=
      match next.event with
      | some event => events.push event
      | none => events
    pursue handles fuel next.goals next.tokens events

/-! ## Documents -/

/-- The directives in front of a document. -/
structure Directives where
  hasVersion : Bool := false
  handles : Handles := []

/-- Takes the directives in front of a document.  Only versions 1.1 and 1.2 are understood, and
neither the version nor a handle may be given twice. -/
def takeDirectives : Directives → List Token → Except Fault (Directives × List Token)
  | directives, .version major minor :: rest =>
    if directives.hasVersion || major ≠ 1 || (minor ≠ 1 && minor ≠ 2) then .error .directive
    else takeDirectives { directives with hasVersion := true } rest
  | directives, .tagHandle handle start :: rest =>
    if directives.handles.any (·.1 = handle) then .error .directive
    else
      takeDirectives { directives with handles := directives.handles ++ [(handle, start)] } rest
  | directives, tokens => .ok (directives, tokens)

/-- The tokens begin with a directive. -/
def startsDirective : List Token → Bool
  | .version _ _ :: _ => true
  | .tagHandle _ _ :: _ => true
  | _ => false

/-- A document behind its start mark has no node. -/
def isBareDocument : List Token → Bool
  | [] => true
  | .documentStart :: _ => true
  | .documentEnd :: _ => true
  | tokens => startsDirective tokens

/-- The events of the one document that tokens stand for; there are none if there is no
document.  End marks may follow it, but no other document. -/
def events (tokens : List Token) : Except Fault (Array (Event String)) := do
  if tokens.isEmpty then .ok #[]
  else
    let (directives, rest) ← takeDirectives {} tokens
    let handles := directives.handles ++ defaultHandles
    let budget := 8 * tokens.length + 8
    let (events, rest) ←
      match rest with
      | .documentStart :: rest =>
        if isBareDocument rest then .ok (#[.empty], rest)
        else pursue handles budget [.node true false] rest #[]
      | rest =>
        if startsDirective tokens then .error .order
        else pursue handles budget [.node true false] rest #[]
    match rest.dropWhile (· = .documentEnd) with
    | [] => .ok events
    | _ :: _ => .error .moreDocuments

end ApiLint.Yaml
