import MethodLines.Text.Pieces

/-! Paths as texts. A path is kept as it was written; its components leave out
what does not matter: repeated and final slashes, and dots other than one that a
relative path starts with. -/
namespace MethodLines.Path

def isAbsolute (path : Text) : Bool := path.head? = some '/'

def segments (path : Text) : List Text :=
  (if isAbsolute path then path.tail else path).splitOn '/'

def ofSegments (absolute : Bool) (segments : List Text) : Text :=
  (if absolute then "/" else "" : Text) ++ ("/" : Text).intercalate segments

/-- Whether a segment counts as no component. A dot counts only in front of a
relative path. -/
def isIdle (leading : Bool) (segment : Text) : Bool :=
  segment.isEmpty || (segment = ['.'] && !leading)

def components (path : Text) : List Text :=
  match segments path with
  | [] => []
  | first :: rest =>
    (if isIdle (!isAbsolute path) first then [] else [first]) ++
      rest.filter fun s => !isIdle false s

/-- Drops idle segments in front of a list that is in reverse order. -/
def dropIdle (absolute : Bool) : List Text → List Text
  | [] => []
  | segment :: before =>
    if isIdle (!absolute && before.isEmpty) segment then dropIdle absolute before
    else segment :: before

/-- The path without its last component; the root and the empty path have none. -/
def parent? (path : Text) : Option Text :=
  let absolute := isAbsolute path
  match dropIdle absolute (segments path).reverse with
  | [] => none
  | _ :: before => some (ofSegments absolute (dropIdle absolute before).reverse)

/-- A path and its parents, at most so many. -/
def ancestors : Nat → Text → List Text
  | 0, _ => []
  | count + 1, path =>
    path :: match parent? path with
      | none => []
      | some parent => ancestors count parent

/-- A path relative to another. An absolute one stays as it is. -/
def join (base path : Text) : Text :=
  if isAbsolute path then path
  else if base.isEmpty || base.getLast? = some '/' then base ++ path
  else base ++ "/" ++ path

def same (a b : Text) : Bool := isAbsolute a = isAbsolute b && components a = components b

end MethodLines.Path
