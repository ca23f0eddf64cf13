import ClassLint.Document.Basic
import ClassLint.Document.Toml.Text
import ClassLint.Document.Toml.Value

/-!
# Reading TOML documents

A document is read line by line.  A value may span several lines: line ends and
comments are allowed between the items of arrays and of inline tables.
-/

namespace ClassLint

namespace Toml

/-- A reader takes characters off the front of what is left of a document. -/
abbrev Reader := StateT (List Char) Option

def Reader.fail {α : Type} : Reader α := fun _ => none

/-- The characters that are left. -/
def Reader.rest : Reader (List Char) := get

/-- Take a character off the front if it is the given one, and tell whether it
was. -/
def Reader.accept (char : Char) : Reader Bool := fun chars =>
  match chars with
  | first :: rest => if first = char then some (true, rest) else some (false, chars)
  | [] => some (false, chars)

/-- Take a character off the front. -/
def Reader.expect (char : Char) : Reader Unit := do
  unless ← accept char do fail

/-- Pass over blanks. -/
def Reader.skipBlanks : Reader Unit := modify (·.dropWhile isBlank)

/-- What is left after blanks, line ends and comments. -/
def afterFiller? (inComment : Bool) : List Char → Option (List Char)
  | [] => some []
  | '\n' :: rest => afterFiller? false rest
  | '\r' :: '\n' :: rest => afterFiller? false rest
  | char :: rest =>
      if inComment then if isPlain char then afterFiller? true rest else none
      else if isBlank char then afterFiller? false rest
      else if char = '#' then afterFiller? true rest
      else some (char :: rest)

/-- What is left after the end of the line, before which only blanks and a
comment may stand. -/
def afterLine? (inComment : Bool) : List Char → Option (List Char)
  | [] => some []
  | '\n' :: rest => some rest
  | '\r' :: '\n' :: rest => some rest
  | char :: rest =>
      if inComment then if isPlain char then afterLine? true rest else none
      else if isBlank char then afterLine? false rest
      else if char = '#' then afterLine? true rest
      else none

/-- Pass over blanks, line ends and comments. -/
def Reader.skipFiller : Reader Unit := fun chars =>
  (afterFiller? false chars).map fun rest => ((), rest)

/-- Pass over the end of the line. -/
def Reader.endLine : Reader Unit := fun chars =>
  (afterLine? false chars).map fun rest => ((), rest)

/-! ## Keys -/

/-- Whether a character may stand in a key without quotes. -/
def isKeyChar (char : Char) : Bool :=
  char.isAlphanum ∨ char = '_' ∨ char = '-'

/-- Read a key without dots. -/
def simpleKey : Reader String := fun chars =>
  match lineText? chars with
  | some result => some result
  | none =>
      let (key, rest) := chars.span isKeyChar
      if key = [] then none else some (String.ofList key, rest)

/-- Read a dotted key with the blanks around it, after the keys already found
(latest first).  The bound is on the number of keys. -/
def keysFrom (found : List String) : Nat → Reader (List String)
  | 0 => .fail
  | bound + 1 => do
      Reader.skipBlanks
      let key ← simpleKey
      Reader.skipBlanks
      if ← Reader.accept '.' then keysFrom (key :: found) bound
      else return (key :: found).reverse

/-! ## Values -/

/-- How deeply arrays and inline tables may be nested. -/
def maxDepth : Nat := 80

def unquoted : Reader Value := fun chars =>
  let (atom, rest) := splitAtom chars
  (scalar? atom).map fun scalar => (.scalar scalar, rest)

/-- Read a quoted text. -/
def quoted : Reader Value := fun chars =>
  (text? chars).map fun (content, rest) => (.text content, rest)

mutual

/-- Read a value inside as many open arrays and inline tables as `depth` tells.
The bound is on the number of calls. -/
def value : Nat → Nat → Reader Value
  | 0, _ => .fail
  | bound + 1, depth => do
      match ← Reader.rest with
      | '[' :: rest =>
          set rest
          if maxDepth ≤ depth then Reader.fail
          else return .array (← items bound (depth + 1) [])
      | '\x7b' :: rest =>
          set rest
          if maxDepth ≤ depth then Reader.fail
          else return .table .inline (← entries bound (depth + 1) [])
      | '"' :: _ | '\'' :: _ => quoted
      | _ => unquoted

/-- Read the items of an array up to its end, after those already found (latest
first). -/
def items : Nat → Nat → List Value → Reader (List Value)
  | 0, _, _ => .fail
  | bound + 1, depth, found => do
      Reader.skipFiller
      if ← Reader.accept ']' then return found.reverse
      else
        let item ← value bound depth
        Reader.skipFiller
        if ← Reader.accept ',' then items bound depth (item :: found)
        else
          Reader.expect ']'
          return (item :: found).reverse

/-- Read the entries of an inline table up to its end, after those already
found. -/
def entries : Nat → Nat → Entries → Reader Entries
  | 0, _, _ => .fail
  | bound + 1, depth, found => do
      Reader.skipFiller
      if ← Reader.accept '\x7d' then return found
      else
        let path ← keysFrom [] bound
        Reader.expect '='
        Reader.skipBlanks
        let assigned ← value bound depth
        match Entries.assign? path assigned .inline found with
        | none => Reader.fail
        | some (_, extended) =>
            Reader.skipFiller
            if ← Reader.accept ',' then entries bound depth extended
            else
              Reader.expect '\x7d'
              return extended

end

/-! ## Documents -/

/-- Read a line that is not blank, in a document of some size.  Two calls for
each character are enough for a value. -/
def line (size : Nat) : Reader Line := do
  match ← Reader.rest with
  | '[' :: '[' :: rest =>
      set rest
      let path ← keysFrom [] (size + 1)
      Reader.expect ']'
      Reader.expect ']'
      return .repeatedHeader path
  | '[' :: rest =>
      set rest
      let path ← keysFrom [] (size + 1)
      Reader.expect ']'
      return .header path
  | _ =>
      let path ← keysFrom [] (size + 1)
      Reader.expect '='
      Reader.skipBlanks
      return .assignment path (← value (2 * size + 2) 0)

/-- Read all lines of a document of some size, after those already found (latest
first).  The bound is on the number of lines. -/
def linesFrom (size : Nat) (found : List Line) : Nat → Reader (List Line)
  | 0 => .fail
  | bound + 1 => do
      Reader.skipFiller
      if (← Reader.rest) = [] then return found.reverse
      else
        let next ← line size
        Reader.endLine
        linesFrom size (next :: found) bound

/-- The characters of a document without a leading byte order mark. -/
def body (document : String) : List Char :=
  match document.toList with
  | '\ufeff' :: rest => rest
  | chars => chars

/-- The table of a document. -/
def parse? (document : String) : Option Value := do
  let chars := body document
  let (lines, _) ← linesFrom chars.length [] (chars.length + 1) chars
  ofLines? lines

/-! ## Settings -/

/-- Whether an integer fits into 128 bits, with or without a sign. -/
def fitsLongWord (value : Int) : Bool :=
  -Int.ofNat (Nat.pow 2 127) ≤ value ∧ value < Int.ofNat (Nat.pow 2 128)

mutual

/-- Whether all numbers in a value are in range. -/
def isReadable : Value → Bool
  | .scalar (.integer value) => fitsLongWord value
  | .scalar (.float inRange) => inRange
  | .scalar _ => true
  | .text _ => true
  | .array items => allReadable items
  | .tables items => allReadable items
  | .table _ entries => allEntriesReadable entries

/-- Whether all numbers in a list of values are in range. -/
def allReadable : List Value → Bool
  | [] => true
  | item :: items => isReadable item && allReadable items

/-- Whether all numbers in the entries of a table are in range. -/
def allEntriesReadable : List (String × Value) → Bool
  | [] => true
  | (_, value) :: entries => isReadable value && allEntriesReadable entries

end

/-- How TOML values are read as settings.  A moment counts as a record without
known settings. -/
def view : Document.View Value where
  boolean?
    | .scalar (.boolean value) => some value
    | _ => none
  natural?
    | .scalar (.integer value) => if 0 ≤ value then some value.toNat else none
    | _ => none
  text?
    | .text content => some content
    | _ => none
  items?
    | .array items => some items
    | .tables items => some items.reverse
    | _ => none
  record?
    | .table _ entries => some (.named entries)
    | .array items => some (.positional items)
    | .tables items => some (.positional items.reverse)
    | .scalar .moment => some (.named [])
    | _ => none
  skippable := isReadable
  allowsSurplus := true

end Toml

end ClassLint
