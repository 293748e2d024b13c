import MethodLines.Toml.Quoted
import MethodLines.Toml.Scalar

/-! Reading TOML documents. Either a document is read as a whole or not at all. -/
namespace MethodLines.Toml

def skipBlanks (t : Text) : Text := t.dropWhile fun c => c = ' ' || c = '\t'

/-- Skips blanks, line ends and comments, as between the items of an array. -/
def skipLayout (inComment : Bool) : Text → Option Text
  | [] => some []
  | '\n' :: t => skipLayout false t
  | '\r' :: '\n' :: t => skipLayout false t
  | c :: t =>
    if inComment then if isPrintable c then skipLayout true t else none
    else if c = ' ' || c = '\t' then skipLayout false t
    else if c = '#' then skipLayout true t
    else some (c :: t)

/-- The rest of a line that says nothing more, and the text behind the line. -/
def skipLineEnd (inComment : Bool) : Text → Option Text
  | [] => some []
  | '\n' :: t => some t
  | '\r' :: '\n' :: t => some t
  | c :: t =>
    if inComment then if isPrintable c then skipLineEnd true t else none
    else if c = ' ' || c = '\t' then skipLineEnd false t
    else if c = '#' then skipLineEnd true t
    else none

def isBareKeyChar (c : Char) : Bool := c.isAlphanum || c = '_' || c = '-'

def readKey : Text → Option (Text × Text)
  | '"' :: t => readBasic t
  | '\'' :: t => readLiteral t
  | t =>
    match t.takeWhile isBareKeyChar with
    | [] => none
    | key => some (key, t.dropWhile isBareKeyChar)

/-- How deep arrays and inline tables may stand in each other, and how many keys
a dotted one may be made of. -/
def depthLimit : Nat := 80

/-- Reads at most so many keys separated by dots: those before the last, and the
last. -/
def readKeys : Nat → Text → Option (List Text × Text × Text)
  | 0, _ => none
  | count + 1, t => do
    let (key, t) ← readKey t
    match skipBlanks t with
    | '.' :: t => do
      let (path, last, t) ← readKeys count (skipBlanks t)
      return (key :: path, last, t)
    | t => return ([], key, t)

/-- Reads a dotted key and the blanks behind it. -/
def readPath (t : Text) : Option (List Text × Text × Text) := readKeys depthLimit t

mutual

/-- Reads a value. `depth` levels of arrays and inline tables may still open. -/
def readValue : Nat → Nat → Text → Option (Value × Text)
  | 0, _, _ => none
  | fuel + 1, depth, t =>
    match t with
    | '[' :: t =>
      match depth with
      | 0 => none
      | depth + 1 => do
        let (items, t) ← readItems fuel depth t
        return (.array false items, t)
    | '\x7b' :: t =>
      match depth with
      | 0 => none
      | depth + 1 => do
        let (entries, t) ← readEntries fuel depth [] t
        return (.table .inline entries, t)
    | '"' :: _ | '\'' :: _ => (readString t).map fun (s, t) => (.string s, t)
    | t => readScalar t

/-- Reads the items of an array up to its bracket. A comma may follow the last one. -/
def readItems : Nat → Nat → Text → Option (List Value × Text)
  | 0, _, _ => none
  | fuel + 1, depth, t => do
    match ← skipLayout false t with
    | ']' :: t => return ([], t)
    | t =>
      let (item, t) ← readValue fuel depth t
      match ← skipLayout false t with
      | ']' :: t => return ([item], t)
      | ',' :: t =>
        let (items, t) ← readItems fuel depth t
        return (item :: items, t)
      | _ => none

/-- Reads the entries of an inline table up to its brace, adding to those before.
Lines may end anywhere but in a dotted key, and a comma may follow the last entry. -/
def readEntries : Nat → Nat → Entries → Text → Option (Entries × Text)
  | 0, _, _, _ => none
  | fuel + 1, depth, entries, t => do
    match ← skipLayout false t with
    | '\x7d' :: t => return (entries, t)
    | t =>
      let (path, key, t) ← readPath t
      let '=' :: t ← skipLayout false t | none
      let (v, t) ← readValue fuel depth (← skipLayout false t)
      let entries ← entries.addAt path key v .inline
      match ← skipLayout false t with
      | '\x7d' :: t => return (entries, t)
      | ',' :: t => readEntries fuel depth entries t
      | _ => none

end

/-- Reads a header or an entry, without the end of its line. -/
def readStatement (fuel : Nat) : Text → Option (Statement × Text)
  | '[' :: '[' :: t => do
    let (path, key, t) ← readPath (skipBlanks t)
    let ']' :: ']' :: t := t | none
    return (.element path key, t)
  | '[' :: t => do
    let (path, key, t) ← readPath (skipBlanks t)
    let ']' :: t := t | none
    return (.table path key, t)
  | t => do
    let (path, key, t) ← readPath t
    let '=' :: t := t | none
    let (v, t) ← readValue fuel depthLimit (skipBlanks t)
    return (.entry path key v, t)

/-- Reads the statements of a document, one a line. -/
def readStatements : Nat → Text → Option (List Statement)
  | 0, _ => none
  | fuel + 1, t => do
    match ← skipLayout false t with
    | [] => return []
    | t =>
      let (s, t) ← readStatement fuel t
      let rest ← readStatements fuel (← skipLineEnd false t)
      return s :: rest

/-- The text without the mark that some editors put in front of it. -/
def dropByteOrderMark : Text → Text
  | '\uFEFF' :: t => t
  | t => t

def ofText? (t : Text) : Option Entries :=
  (readStatements (t.length + 2) (dropByteOrderMark t)).bind Document.build?

end MethodLines.Toml
