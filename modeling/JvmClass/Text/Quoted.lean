import JvmClass.Text.Escaped

/-!
# JvmClass.Text.Quoted — strings and characters as messages quote them.

A quoted text stands between quotation marks.  Five characters have short escapes, the closing mark
and the backslash are escaped by a backslash, and every other character that would not show is
written as its code point in braces.
-/

namespace JvmClass.Text

/-- The lower-case hexadecimal digits of a number. -/
def lowerHex (n : Nat) : String :=
  String.ofList (Nat.toDigits 16 n)

/-- The upper-case hexadecimal digits of a number. -/
def upperHex (n : Nat) : String :=
  (lowerHex n).toUpper

/-- A character inside a text that ends at the mark `close`. -/
def escape (close c : Char) : String :=
  if c = '\x00' then "\\0"
  else if c = '\t' then "\\t"
  else if c = '\n' then "\\n"
  else if c = '\r' then "\\r"
  else if c = '\\' then "\\\\"
  else if c = close then "\\" ++ close.toString
  else if isEscaped c then "\\u\x7b" ++ lowerHex c.toNat ++ "\x7d"
  else c.toString

/-- A string between double quotes. -/
def quote (s : String) : String :=
  "\"" ++ s.foldl (fun out c => out ++ escape '"' c) "" ++ "\""

/-- A character between single quotes. -/
def quoteChar (c : Char) : String :=
  "'" ++ escape '\'' c ++ "'"

end JvmClass.Text
