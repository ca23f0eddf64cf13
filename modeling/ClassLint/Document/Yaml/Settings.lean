import ClassLint.Document.Basic
import ClassLint.Document.Yaml.Node

/-!
# Settings in YAML documents

Any scalar reads as a text.  A truth value or a number is written plainly, or as
a literal block with the tag for it.  A node where nothing is written reads as
an empty list or record.
-/

namespace ClassLint

namespace Yaml

/-- The tag of truth values. -/
def booleanTag : String := "tag:yaml.org,2002:bool"

def integerTag : String := "tag:yaml.org,2002:int"

/-- The content of a scalar that may be more than a text. -/
def typedContent? (expected : String) : Node → Option String
  | .scalar _ tag style content =>
      if style = .plain ∨ (style = .literal ∧ tag = some expected) then some content else none
  | _ => none

/-- Read a truth value. -/
def boolean? (content : String) : Option Bool :=
  if content ∈ ["true", "True", "TRUE"] then some true
  else if content ∈ ["false", "False", "FALSE"] then some false
  else none

/-- Read a natural number.  A decimal number has no leading zeros. -/
def natural? (content : String) : Option Nat :=
  let unsigned :=
    match content.toList with
    | '+' :: rest => rest
    | chars => chars
  match unsigned with
  | '0' :: 'x' :: digits => Digits.number? 16 digits
  | '0' :: 'o' :: digits => Digits.number? 8 digits
  | '0' :: 'b' :: digits => Digits.number? 2 digits
  | '0' :: _ :: _ => none
  | digits => Digits.number? 10 digits

def text? : Node → Option String
  | .scalar _ _ _ content => some content
  | _ => none

/-- Whether nothing is written for a node. -/
def isBare : Node → Bool
  | .scalar _ _ style content => style = .plain && content.isEmpty
  | _ => false

def items? (node : Node) : Option (List Node) :=
  match node with
  | .sequence _ items => some items
  | _ => if isBare node then some [] else none

/-- Read the key of a pair as a name, given the anchored nodes. -/
def named? (anchored : List (Nat × Node)) (pair : Node × Node) : Option (String × Node) :=
  ((pair.1.target? anchored).bind text?).map fun name => (name, pair.2)

/-- Read a node as a record, given the anchored nodes. -/
def record? (anchored : List (Nat × Node)) (node : Node) : Option (Document.Record Node) :=
  match node with
  | .sequence _ items => some (.positional items)
  | .mapping _ pairs => (pairs.mapM (named? anchored)).map .named
  | _ => if isBare node then some (.named []) else none

/-- How the nodes of a document are read as settings, given its anchored
nodes. -/
def view (anchored : List (Nat × Node)) : Document.View Node where
  boolean? node := do
    let target ← node.target? anchored
    boolean? (← typedContent? booleanTag target)
  natural? node := do
    let target ← node.target? anchored
    natural? (← typedContent? integerTag target)
  text? node := (node.target? anchored).bind text?
  items? node := (node.target? anchored).bind items?
  record? node := (node.target? anchored).bind (record? anchored)
  skippable _ := true
  allowsSurplus := false

end Yaml

end ClassLint
