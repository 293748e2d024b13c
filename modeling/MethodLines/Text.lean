/-! Text as a list of characters: what the readers recurse on and what the
printers build. Literals are ordinary strings, read as their characters. -/
namespace MethodLines

abbrev Text := List Char

instance : Coe String Text := ⟨String.toList⟩

namespace Text

/-- The decimal digits of a number, most significant first and without
leading zeros. -/
def decimal (n : Nat) : Text := Nat.toDigits 10 n

/-- Lower-case hexadecimal digits without leading zeros. -/
def hexadecimal (n : Nat) : Text := Nat.toDigits 16 n

/-- Fills up with blanks on the left; a text that is already wide enough stays
as it is. The width counts characters. -/
def padLeft (width : Nat) (t : Text) : Text :=
  List.replicate (width - t.length) ' ' ++ t

def padRight (width : Nat) (t : Text) : Text :=
  t ++ List.replicate (width - t.length) ' '

/-- The text without one final `c`, if it ends in one. -/
def dropFinal (c : Char) (t : Text) : Text :=
  if t.getLast? = some c then t.dropLast else t

/-- Every occurrence of a character replaced by a text. -/
def substitute (t : Text) (c : Char) (new : Text) : Text :=
  t.flatMap fun d => if d = c then new else [d]

/-- The value of a hexadecimal digit of either case. -/
def hexDigit? (c : Char) : Option Nat :=
  if '0' ≤ c ∧ c ≤ '9' then some (c.toNat - '0'.toNat)
  else if 'a' ≤ c ∧ c ≤ 'f' then some (c.toNat - 'a'.toNat + 10)
  else if 'A' ≤ c ∧ c ≤ 'F' then some (c.toNat - 'A'.toNat + 10)
  else none

/-- The character with this code, unless the code is a surrogate or too large. -/
def ofCode? (n : Nat) : Option Char :=
  if n.isValidChar then some (Char.ofNat n) else none

def bytes (t : Text) : ByteArray := (String.ofList t).toByteArray

/-- The text with these UTF-8 bytes, if they are valid UTF-8. -/
def ofBytes? (b : ByteArray) : Option Text := b.utf8Decode?.map Array.toList

theorem ofBytes?_bytes (t : Text) : ofBytes? (bytes t) = some t := by
  simp [ofBytes?, bytes]

end Text
end MethodLines
