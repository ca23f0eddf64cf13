import ClassLint.Document.Yaml.Token

/-!
# YAML nodes

The tokens of a document spell out a tree of nodes.  A node can be anchored
under a name, and an alias stands for an anchored node.

Anchored nodes are kept in slots.  A name gets the slot whose number is the
number of names in use before it, a name that is used again included.  If a
slot is used more than once, all aliases to it stand for the last node in it,
in the order in which the nodes begin.
-/

namespace ClassLint

namespace Yaml

/-- A node of a document, with the slot it is anchored in, if any. -/
inductive Node where
  | alias (slot : Nat)
  | scalar (slot : Option Nat) (tag : Option String) (style : ScalarStyle) (content : String)
  | sequence (slot : Option Nat) (items : List Node)
  | mapping (slot : Option Nat) (pairs : List (Node × Node))

/-- The node where nothing is written. -/
def Node.empty : Node := .scalar none none .plain ""

/-- What is left of a document, and what has been declared in it. -/
structure Building where
  tokens : List Token
  /-- What the tag handles stand for. -/
  handles : List (String × String)
  /-- The slots of the anchor names, latest first. -/
  slots : List (String × Nat)
  /-- The number of names in use. -/
  names : Nat

/-- A reader takes tokens off the front of what is left of a document. -/
abbrev Builder := StateT Building Option

namespace Builder

def fail {α : Type} : Builder α := fun _ => none

/-- The next token. -/
def peek : Builder (Option Token) := return (← get).tokens.head?

/-- Pass over the next token. -/
def skip : Builder Unit :=
  modify fun building => { building with tokens := building.tokens.drop 1 }

/-- Pass over the next token if it is the given one, and tell whether it was. -/
def accept (token : Token) : Builder Bool := do
  if (← peek) = some token then
    skip
    return true
  else return false

def isNext (tokens : List Token) : Builder Bool := do
  match ← peek with
  | some token => return tokens.contains token
  | none => return false

/-! ## Properties -/

/-- Take an anchor, if one comes next. -/
def anchor? : Builder (Option String) := do
  match ← peek with
  | some (.anchor name) =>
      skip
      return some name
  | _ => return none

/-- Take a tag, if one comes next. -/
def tag? : Builder (Option (String × String)) := do
  match ← peek with
  | some (.tag handle rest) =>
      skip
      return some (handle, rest)
  | _ => return none

/-- The tag that a handle and the rest of the tag stand for. -/
def resolveTag (tag : Option (String × String)) : Builder (Option String) := do
  match tag with
  | none => return none
  | some (handle, rest) =>
      if handle.isEmpty then return some rest
      else
        match List.lookup handle (← get).handles with
        | some start => return some (start ++ rest)
        | none => fail

/-- Put an anchored node into a slot. -/
def bind (anchor : Option String) : Builder (Option Nat) := do
  match anchor with
  | none => return none
  | some name =>
      let building ← get
      let isNew := (List.lookup name building.slots).isNone
      set { building with
        slots := (name, building.names) :: building.slots
        names := if isNew then building.names + 1 else building.names }
      return some building.names

/-- Take the anchor and the tag of a node, in either order: the slot, and the
tag. -/
def properties : Builder (Option Nat × Option String) := do
  match ← anchor? with
  | some name =>
      let tag ← resolveTag (← tag?)
      return (← bind (some name), tag)
  | none =>
      let tag ← tag?
      let anchor ← anchor?
      let resolved ← resolveTag tag
      return (← bind anchor, resolved)

/-! ## Nodes -/

mutual

/-- Read a node.  Blocks are allowed unless it stands inside a flow collection,
and a sequence without an indentation of its own only in a block mapping.  The
bound is on the depth of calls. -/
def node : Nat → Bool → Bool → Builder Node
  | 0, _, _ => fail
  | bound + 1, inBlock, inMapping => do
      match ← peek with
      | some (.alias name) =>
          skip
          match List.lookup name (← get).slots with
          | some slot => return .alias slot
          | none => fail
      | _ =>
          let (slot, tag) ← properties
          match ← peek with
          | some (.scalar style content) =>
              skip
              return .scalar slot tag style content
          | some .flowSequenceStart =>
              skip
              return .sequence slot (← flowItems bound true [])
          | some .flowMappingStart =>
              skip
              return .mapping slot (← flowPairs bound true [])
          | next =>
              if inMapping ∧ next = some .blockEntry then
                return .sequence slot (← openItems bound [])
              else if inBlock ∧ next = some .blockSequenceStart then do
                skip
                return .sequence slot (← blockItems bound [])
              else if inBlock ∧ next = some .blockMappingStart then do
                skip
                return .mapping slot (← blockPairs bound [])
              else if slot.isSome ∨ tag.isSome then return .scalar slot tag .plain ""
              else fail

/-- Read the items of a block sequence up to its end, after those already found
(latest first). -/
def blockItems : Nat → List Node → Builder (List Node)
  | 0, _ => fail
  | bound + 1, found => do
      if ← accept .blockEntry then
        if ← isNext [.blockEntry, .blockEnd] then blockItems bound (.empty :: found)
        else
          let item ← node bound true false
          blockItems bound (item :: found)
      else if ← accept .blockEnd then return found.reverse
      else fail

/-- Read the items of a sequence without an indentation of its own, after those
already found (latest first). -/
def openItems : Nat → List Node → Builder (List Node)
  | 0, _ => fail
  | bound + 1, found => do
      if ← accept .blockEntry then
        if ← isNext [.blockEntry, .key, .value, .blockEnd] then
          openItems bound (.empty :: found)
        else
          let item ← node bound true false
          openItems bound (item :: found)
      else return found.reverse

/-- Read the pairs of a block mapping up to its end, after those already found
(latest first). -/
def blockPairs : Nat → List (Node × Node) → Builder (List (Node × Node))
  | 0, _ => fail
  | bound + 1, found => do
      if ← accept .key then
        let key ←
          if ← isNext [.key, .value, .blockEnd] then pure Node.empty
          else node bound true true
        let value ←
          if ← accept .value then
            if ← isNext [.key, .value, .blockEnd] then pure Node.empty
            else node bound true true
          else pure Node.empty
        blockPairs bound ((key, value) :: found)
      else if ← accept .blockEnd then return found.reverse
      else fail

/-- Read the items of a flow sequence up to its end, after those already found
(latest first).  An item can be a pair, which is a mapping of its own. -/
def flowItems : Nat → Bool → List Node → Builder (List Node)
  | 0, _, _ => fail
  | bound + 1, first, found => do
      if ← accept .flowSequenceEnd then return found.reverse
      else
        unless first do
          unless ← accept .flowEntry do fail
        if ← accept .key then
          let key ←
            if ← isNext [.value, .flowEntry, .flowSequenceEnd] then do
              skip
              pure Node.empty
            else node bound false false
          let value ←
            if ← accept .value then
              if ← isNext [.flowEntry, .flowSequenceEnd] then pure Node.empty
              else node bound false false
            else pure Node.empty
          flowItems bound false (.mapping none [(key, value)] :: found)
        else if ← accept .flowSequenceEnd then return found.reverse
        else
          let item ← node bound false false
          flowItems bound false (item :: found)

/-- Read the pairs of a flow mapping up to its end, after those already found
(latest first). -/
def flowPairs : Nat → Bool → List (Node × Node) → Builder (List (Node × Node))
  | 0, _, _ => fail
  | bound + 1, first, found => do
      if ← accept .flowMappingEnd then return found.reverse
      else
        unless first do
          unless ← accept .flowEntry do fail
        if ← accept .key then
          let key ←
            if ← isNext [.value, .flowEntry, .flowMappingEnd] then pure Node.empty
            else node bound false false
          let value ←
            if ← accept .value then
              if ← isNext [.flowEntry, .flowMappingEnd] then pure Node.empty
              else node bound false false
            else pure Node.empty
          flowPairs bound false ((key, value) :: found)
        else if ← accept .flowMappingEnd then return found.reverse
        else
          let key ← node bound false false
          flowPairs bound false ((key, .empty) :: found)

end

/-! ## Documents -/

/-- The tag handles that need no declaration. -/
def standardHandles : List (String × String) :=
  [("!", "!"), ("!!", "tag:yaml.org,2002:")]

/-- Take the directives before a document.  The version is given at most once,
and a handle is declared at most once. -/
def directivesFrom (versioned : Bool) (handles : List (String × String)) :
    List Token → Option (List (String × String) × List Token)
  | .version major minor :: tokens =>
      if versioned ∨ major ≠ 1 ∨ (minor ≠ 1 ∧ minor ≠ 2) then none
      else directivesFrom true handles tokens
  | .tagHandle handle start :: tokens =>
      if (List.lookup handle handles).isSome then none
      else directivesFrom versioned ((handle, start) :: handles) tokens
  | tokens => some (handles, tokens)

def announces : Token → Bool
  | .version _ _ => true
  | .tagHandle _ _ => true
  | .documentStart => true
  | _ => false

def endsDocument (token : Token) : Bool := announces token || token = .documentEnd

/-- Read the node of a document whose directives and mark have been read. -/
def content (bound : Nat) : Builder Node := do
  match ← peek with
  | none => return .empty
  | some token => if endsDocument token then return .empty else node bound true false

/-- Read the only document of a stream.  A stream without a document holds the
empty node.  Marks that end a document may follow it. -/
def document? (tokens : List Token) : Option Node := do
  let bound := 2 * tokens.length + 2
  match tokens with
  | [] => return .empty
  | first :: _ =>
      let (root, rest) ←
        if announces first then do
          let (handles, opened) ← directivesFrom false [] tokens
          match opened with
          | .documentStart :: later => content bound ⟨later, handles ++ standardHandles, [], 0⟩
          | _ => none
        else node bound true false ⟨tokens, standardHandles, [], 0⟩
      if rest.tokens.all (· = .documentEnd) then return root else none

end Builder

def parse? (document : String) : Option Node :=
  (tokens? document).bind Builder.document?

/-! ## Aliases -/

/-- Put a node into its slot, if it has one. -/
def addSlot (found : List (Nat × Node)) (slot : Option Nat) (node : Node) :
    List (Nat × Node) :=
  match slot with
  | some slot => (slot, node) :: found
  | none => found

mutual

/-- The anchored nodes of a node with their slots, in the order in which they
begin, after those already found (latest first). -/
def anchoredFrom (found : List (Nat × Node)) : Node → List (Nat × Node)
  | .alias _ => found
  | .scalar slot tag style content => addSlot found slot (.scalar slot tag style content)
  | .sequence slot items => anchoredInItems (addSlot found slot (.sequence slot items)) items
  | .mapping slot pairs => anchoredInPairs (addSlot found slot (.mapping slot pairs)) pairs

/-- The anchored nodes in a list of nodes. -/
def anchoredInItems (found : List (Nat × Node)) : List Node → List (Nat × Node)
  | [] => found
  | item :: items => anchoredInItems (anchoredFrom found item) items

def anchoredInPairs (found : List (Nat × Node)) : List (Node × Node) → List (Nat × Node)
  | [] => found
  | (key, value) :: pairs =>
      anchoredInPairs (anchoredFrom (anchoredFrom found key) value) pairs

end

/-- The node that a node stands for, given the anchored nodes (latest first). -/
def Node.target? (anchored : List (Nat × Node)) : Node → Option Node
  | .alias slot => List.lookup slot anchored
  | node => some node

end Yaml

end ClassLint
