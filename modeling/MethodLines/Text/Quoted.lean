import MethodLines.Text.Unprintable

/-! The quoted form of a text for messages: between double quotes, on one line,
with every character that could mislead a reader spelled out. -/
namespace MethodLines.Text

def quoteChar (c : Char) : Text :=
  if c = '"' then "\\\""
  else if c = '\\' then "\\\\"
  else if c = '\t' then "\\t"
  else if c = '\n' then "\\n"
  else if c = '\r' then "\\r"
  else if c = '\x00' then "\\0"
  else if isUnprintable c then "\\u\x7b" ++ hexadecimal c.toNat ++ "\x7d"
  else [c]

def quoted (t : Text) : Text := "\"" ++ t.flatMap quoteChar ++ "\""

end MethodLines.Text
