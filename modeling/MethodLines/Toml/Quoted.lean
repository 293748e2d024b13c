import MethodLines.Toml.Table

/-! TOML strings: basic ones with escapes and literal ones without, each on one
line or on several. Each reader starts behind the opening quotes and gives the
text and what stands behind the closing quotes. -/
namespace MethodLines.Toml

/-- Whether a character may stand for itself in strings and comments: controls
other than the tab may not. -/
def isPrintable (c : Char) : Bool := c = '\t' || (0x20 ≤ c.toNat && c.toNat ≠ 0x7f)

def escape? (c : Char) : Option Char :=
  [('b', '\x08'), ('t', '\t'), ('n', '\n'), ('f', '\x0c'), ('r', '\r'), ('e', '\x1b'), ('"', '"'),
    ('\\', '\\')].lookup c

/-- The character whose code some hexadecimal digits give. -/
def coded? (digits : Text) : Option Char :=
  (digits.foldlM (fun n c => (Text.hexDigit? c).map (n * 16 + ·)) 0).bind Text.ofCode?

/-- One more character in front of what was read. -/
def push (c : Option Char) (read : Option (Text × Text)) : Option (Text × Text) := do
  let c ← c
  let (t, rest) ← read
  return (c :: t, rest)

def readBasic : Text → Option (Text × Text)
  | [] => none
  | '"' :: t => some ([], t)
  | '\\' :: 'x' :: a :: b :: t => push (coded? [a, b]) (readBasic t)
  | '\\' :: 'u' :: a :: b :: c :: d :: t => push (coded? [a, b, c, d]) (readBasic t)
  | '\\' :: 'U' :: a :: b :: c :: d :: e :: f :: g :: h :: t =>
    push (coded? [a, b, c, d, e, f, g, h]) (readBasic t)
  | '\\' :: c :: t => push (escape? c) (readBasic t)
  | c :: t => if isPrintable c && c ≠ '\\' then push (some c) (readBasic t) else none

def readLiteral : Text → Option (Text × Text)
  | [] => none
  | '\'' :: t => some ([], t)
  | c :: t => if isPrintable c then push (some c) (readLiteral t) else none

/-- Where a reader stands in a basic string of several lines. -/
inductive LineState where
  | inside
  /-- Behind a backslash that has to end its line. -/
  | lineEnd
  /-- Behind such a line end: blanks and line ends do not count. -/
  | continuation

/-- A basic string of several lines. Up to two quotes may stand anywhere in it,
also right before the closing ones. Line ends of either kind are kept. -/
def readBasicLines : LineState → Text → Option (Text × Text)
  | _, [] => none
  | .lineEnd, '\n' :: t => readBasicLines .continuation t
  | .lineEnd, '\r' :: '\n' :: t => readBasicLines .continuation t
  | .lineEnd, c :: t => if c = ' ' || c = '\t' then readBasicLines .lineEnd t else none
  | .continuation, ' ' :: t => readBasicLines .continuation t
  | .continuation, '\t' :: t => readBasicLines .continuation t
  | .continuation, '\n' :: t => readBasicLines .continuation t
  | .continuation, '\r' :: '\n' :: t => readBasicLines .continuation t
  | _, '"' :: '"' :: '"' :: '"' :: '"' :: t => some (['"', '"'], t)
  | _, '"' :: '"' :: '"' :: '"' :: t => some (['"'], t)
  | _, '"' :: '"' :: '"' :: t => some ([], t)
  | _, '\\' :: 'x' :: a :: b :: t => push (coded? [a, b]) (readBasicLines .inside t)
  | _, '\\' :: 'u' :: a :: b :: c :: d :: t =>
    push (coded? [a, b, c, d]) (readBasicLines .inside t)
  | _, '\\' :: 'U' :: a :: b :: c :: d :: e :: f :: g :: h :: t =>
    push (coded? [a, b, c, d, e, f, g, h]) (readBasicLines .inside t)
  | _, '\\' :: ' ' :: t => readBasicLines .lineEnd t
  | _, '\\' :: '\t' :: t => readBasicLines .lineEnd t
  | _, '\\' :: '\n' :: t => readBasicLines .continuation t
  | _, '\\' :: '\r' :: '\n' :: t => readBasicLines .continuation t
  | _, '\\' :: c :: t => push (escape? c) (readBasicLines .inside t)
  | _, '\n' :: t => push (some '\n') (readBasicLines .inside t)
  | _, '\r' :: '\n' :: t => push (some '\r') (push (some '\n') (readBasicLines .inside t))
  | _, c :: t =>
    if isPrintable c && c ≠ '\\' then push (some c) (readBasicLines .inside t) else none

/-- A literal string of several lines, with quotes as in a basic one. -/
def readLiteralLines : Text → Option (Text × Text)
  | [] => none
  | '\'' :: '\'' :: '\'' :: '\'' :: '\'' :: t => some (['\'', '\''], t)
  | '\'' :: '\'' :: '\'' :: '\'' :: t => some (['\''], t)
  | '\'' :: '\'' :: '\'' :: t => some ([], t)
  | '\n' :: t => push (some '\n') (readLiteralLines t)
  | '\r' :: '\n' :: t => push (some '\r') (push (some '\n') (readLiteralLines t))
  | c :: t => if isPrintable c then push (some c) (readLiteralLines t) else none

/-- A line end right behind the opening quotes is not part of the string. -/
def dropLineEnd : Text → Text
  | '\n' :: t => t
  | '\r' :: '\n' :: t => t
  | t => t

def readString : Text → Option (Text × Text)
  | '"' :: '"' :: '"' :: t => readBasicLines .inside (dropLineEnd t)
  | '"' :: t => readBasic t
  | '\'' :: '\'' :: '\'' :: t => readLiteralLines (dropLineEnd t)
  | '\'' :: t => readLiteral t
  | _ => none

end MethodLines.Toml
