import ApiDescription.Yaml.Node

/-!
# Nodes of tokens

`Node.ofTokens?` reads the tokens of a file, which holds one document: nodes with an anchor and a tag
before them, collections in block layout and in flow layout, and empty nodes where something is left
out.
-/

set_option autoImplicit false

namespace ApiDescription.Yaml

/-- What is still to be read, and the numbers of the anchors so far. -/
structure NodeReading where
  tokens : List Token
  anchors : List (String × Nat) := []

/-- A reader of nodes. -/
abbrev NodeReader := StateT NodeReading Option

namespace NodeReader

/-- The next token. -/
def peek : NodeReader Token := do
  pure ((← get).tokens.head?.getD .streamEnd)

/-- Goes on behind the next token. -/
def skip : NodeReader Unit := modify fun s => { s with tokens := s.tokens.drop 1 }

/-- Goes on behind the next token if it is the given one, and says whether it is. -/
def skipIf (t : Token) : NodeReader Bool := do
  if (← peek) = t then
    skip
    pure true
  else pure false

/-- Goes on behind the given token, which must come next. -/
def expect (t : Token) : NodeReader Unit := do
  if !(← skipIf t) then failure

/-! ## Anchors and tags -/

/-- Gives an anchor its number, which is how many different names there are so far. -/
def addAnchor (name : String) : NodeReader Nat := do
  let number := (← get).anchors.length
  modify fun s => { s with anchors := Entries.put s.anchors name number }
  pure number

/-- The alias of an anchor that came before. -/
def aliasOf (name : String) : NodeReader Node := do
  match (← get).anchors.lookup name with
  | some number => pure (.alias number)
  | none => failure

/-- Reads an anchor if one comes next. -/
def anchor? : NodeReader (Option Nat) := do
  match ← peek with
  | .anchor name => do
    skip
    pure (some (← addAnchor name))
  | _ => pure none

/-- Reads a tag if one comes next. Its handle must be known. -/
def tag? (handles : List (String × String)) : NodeReader (Option String) := do
  match ← peek with
  | .tag handle suffix => do
    skip
    if handle.isEmpty then pure (some suffix)
    else
      match handles.lookup handle with
      | some start => pure (some (start ++ suffix))
      | none => failure
  | _ => pure none

/-- Reads an anchor and a tag in either order. -/
def properties (handles : List (String × String)) :
    NodeReader (Option Nat × Option String) := do
  match ← anchor? with
  | some a => pure (some a, ← tag? handles)
  | none => do
    let tag ← tag? handles
    if tag.isSome then pure (← anchor?, tag) else pure (none, none)

/-! ## Nodes -/

/-- Where a node stands. -/
inductive NodePlace where
  | flow
  | block
  /-- Behind a key or its mark in block layout, where the items of a list need no indentation. -/
  | entry
  deriving DecidableEq

/-- The tokens before which nothing is written, in several places. -/
def ItemEnds : List Token := [.blockEntry, .blockEnd]

/-- The tokens before which an item without indentation of its own is empty. -/
def LooseItemEnds : List Token := [.blockEntry, .key, .value, .blockEnd]

/-- The tokens before which a key or a value in block layout is empty. -/
def EntryEnds : List Token := [.key, .value, .blockEnd]

/-- The tokens that follow a key in a list in flow layout. -/
def PairKeyEnds : List Token := [.value, .flowEntry, .flowListEnd]

/-- The tokens that follow a value in a list in flow layout. -/
def PairValueEnds : List Token := [.flowEntry, .flowListEnd]

/-- The tokens that follow a key in a table in flow layout. -/
def FlowKeyEnds : List Token := [.value, .flowEntry, .flowTableEnd]

/-- The tokens that follow a value in a table in flow layout. -/
def FlowValueEnds : List Token := [.flowEntry, .flowTableEnd]

/-- Goes on behind the comma between entries in flow layout; none stands before the first entry and
none need stand before the end. -/
def separator (first : Bool) (close : Token) : NodeReader Unit := do
  if !first && (← peek) ≠ close then expect .flowEntry

mutual

/-- Reads a node. The number bounds how many steps reading takes, here and below. -/
def node (handles : List (String × String)) : Nat → NodePlace → NodeReader Node
  | 0, _ => failure
  | n + 1, place => do
    match ← peek with
    | .alias name => do
      skip
      aliasOf name
    | _ => do
      let (anchor, tag) ← properties handles
      match ← peek with
      | .scalar text style => do
        skip
        pure (.scalar anchor text style (tag.filter (· != "!")))
      | .flowListStart => do
        skip
        pure (.list anchor tag (← flowItems handles n true))
      | .flowTableStart => do
        skip
        pure (.table anchor tag (← flowEntries handles n true))
      | next => do
        if next = .blockEntry && place = .entry then
          pure (.list anchor tag (← looseItems handles n))
        else if next = .blockListStart && place ≠ .flow then do
          skip
          pure (.list anchor tag (← blockItems handles n))
        else if next = .blockTableStart && place ≠ .flow then do
          skip
          pure (.table anchor tag (← blockEntries handles n))
        else if anchor.isSome || tag.isSome then pure (.scalar anchor "" .plain tag)
        else failure

/-- Reads a node, or nothing if the next token is among the given ones. -/
def nodeUnless (handles : List (String × String)) (ends : List Token) :
    Nat → NodePlace → NodeReader Node
  | 0, _ => failure
  | n + 1, place => do
    if ends.contains (← peek) then pure .empty else node handles n place

/-- Reads the items of a list in block layout, up to its end. -/
def blockItems (handles : List (String × String)) : Nat → NodeReader (List Node)
  | 0 => failure
  | n + 1 => do
    if ← skipIf .blockEntry then
      let item ← nodeUnless handles ItemEnds n .block
      pure (item :: (← blockItems handles n))
    else do
      expect .blockEnd
      pure []

/-- Reads the items of a list in block layout without indentation of its own. -/
def looseItems (handles : List (String × String)) : Nat → NodeReader (List Node)
  | 0 => failure
  | n + 1 => do
    if ← skipIf .blockEntry then
      let item ← nodeUnless handles LooseItemEnds n .block
      pure (item :: (← looseItems handles n))
    else pure []

/-- Reads a value behind its mark, or nothing if there is no mark. -/
def valueOf (handles : List (String × String)) (ends : List Token) :
    Nat → NodePlace → NodeReader Node
  | 0, _ => failure
  | n + 1, place => do
    if ← skipIf .value then nodeUnless handles ends n place else pure .empty

/-- Reads the entries of a table in block layout, up to its end. -/
def blockEntries (handles : List (String × String)) : Nat → NodeReader (List (Node × Node))
  | 0 => failure
  | n + 1 => do
    if ← skipIf .key then
      let key ← nodeUnless handles EntryEnds n .entry
      let value ← valueOf handles EntryEnds n .entry
      pure ((key, value) :: (← blockEntries handles n))
    else do
      expect .blockEnd
      pure []

/-- Reads the key of a table that is an item of a list in flow layout. A token that stands in place of
the key is passed over. -/
def pairKey (handles : List (String × String)) : Nat → NodeReader Node
  | 0 => failure
  | n + 1 => do
    if PairKeyEnds.contains (← peek) then do
      skip
      pure .empty
    else node handles n .flow

/-- Reads the items of a list in flow layout, up to its end. A key makes a table of one entry. -/
def flowItems (handles : List (String × String)) : Nat → Bool → NodeReader (List Node)
  | 0, _ => failure
  | n + 1, first => do
    separator first .flowListEnd
    if ← skipIf .flowListEnd then pure []
    else if ← skipIf .key then
      let key ← pairKey handles n
      let value ← valueOf handles PairValueEnds n .flow
      pure (.table none none [(key, value)] :: (← flowItems handles n false))
    else
      let item ← node handles n .flow
      pure (item :: (← flowItems handles n false))

/-- Reads the entries of a table in flow layout, up to its end. -/
def flowEntries (handles : List (String × String)) :
    Nat → Bool → NodeReader (List (Node × Node))
  | 0, _ => failure
  | n + 1, first => do
    separator first .flowTableEnd
    if ← skipIf .flowTableEnd then pure []
    else if ← skipIf .key then
      let key ← nodeUnless handles FlowKeyEnds n .flow
      let value ← valueOf handles FlowValueEnds n .flow
      pure ((key, value) :: (← flowEntries handles n false))
    else
      let key ← node handles n .flow
      pure ((key, .empty) :: (← flowEntries handles n false))

end

/-! ## Documents -/

/-- Adds the handles that are always known. -/
def withKnownHandles (handles : List (String × String)) : List (String × String) :=
  handles ++ [("!", "!"), ("!!", Scalar.coreTag "")]

/-- Reads the directives before a document: one version, and handles that differ. -/
def directives : List Token → Bool → List (String × String) →
    Option (List (String × String) × List Token)
  | .version major minor :: rest, hasVersion, handles =>
    if hasVersion || major ≠ 1 || (minor ≠ 1 && minor ≠ 2) then none
    else directives rest true handles
  | .tagDirective handle start :: rest, hasVersion, handles =>
    if (handles.lookup handle).isSome then none
    else directives rest hasVersion (handles ++ [(handle, start)])
  | rest, _, handles => some (handles, rest)

/-- The token begins a document with directives or a mark, or ends the file. -/
def isExplicitStart : Token → Bool
  | .version _ _ | .tagDirective _ _ | .documentStart | .streamEnd => true
  | _ => false

/-- The tokens before which a document with a mark is empty. -/
def isEmptyDocument : Token → Bool
  | .documentEnd => true
  | t => isExplicitStart t

/-- Reads a document. The number bounds the steps that reading takes. -/
def document (bound : Nat) : NodeReader Node := do
  if !isExplicitStart (← peek) then node (withKnownHandles []) bound .block
  else if (← peek) = .streamEnd then pure .empty
  else
    match directives (← get).tokens false [] with
    | none => failure
    | some (handles, rest) => do
      modify fun s => { s with tokens := rest }
      expect .documentStart
      if isEmptyDocument (← peek) then pure .empty
      else node (withKnownHandles handles) bound .block

/-- Reads the only document of a file, and what may follow it. -/
def file (bound : Nat) : NodeReader Node := do
  let node ← document bound
  modify fun s => { s with tokens := s.tokens.dropWhile (· = .documentEnd) }
  expect .streamEnd
  pure node

end NodeReader

/-- The node of a file with the given tokens. At least every third step passes over a token, so the
bound on the steps is never reached. -/
def Node.ofTokens? (tokens : List Token) : Option Node :=
  (NodeReader.file (3 * tokens.length + 3)).run' { tokens := tokens }

end ApiDescription.Yaml
