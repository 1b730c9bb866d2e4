/-
**Texts as data inside other texts.** Two quoting rules: the one of JSON strings, and the one in
which a rejected text is shown inside a message. Both put the text between double quotes and mark
what would end or hide it with a backslash; they differ in what they call hidden.
-/

set_option autoImplicit false

namespace WalletLedger.Text

/-- A number in lower-case hexadecimal digits, at least `width` of them. -/
def hex (width n : Nat) : String :=
  String.ofList ((Nat.toDigits 16 n).leftpad width '0')

/-- One character of a JSON string: control characters, quote and backslash are escaped. -/
def jsonChar (c : Char) : String :=
  if c = '"' then "\\\""
  else if c = '\\' then "\\\\"
  else if c = '\n' then "\\n"
  else if c = '\r' then "\\r"
  else if c = '\t' then "\\t"
  else if c.toNat < 0x20 then "\\u" ++ hex 4 c.toNat
  else c.toString

/-- A JSON string. -/
def json (s : String) : String :=
  "\"" ++ String.join (s.toList.map jsonChar) ++ "\""

/-- Characters that would not be seen: controls, and the blanks, marks and joiners that take no
ink of their own. -/
def isHidden (c : Char) : Bool :=
  let n := c.toNat
  n < 0x20 || (0x7F ≤ n && n ≤ 0xA0) || n == 0xAD || (0x300 ≤ n && n ≤ 0x36F) ||
    n == 0x61C || n == 0x1680 || n == 0x180E || (0x2000 ≤ n && n ≤ 0x200F) ||
    (0x2028 ≤ n && n ≤ 0x202F) || (0x205F ≤ n && n ≤ 0x206F) || n == 0x3000 ||
    (0xE000 ≤ n && n ≤ 0xF8FF) || (0xFE00 ≤ n && n ≤ 0xFE0F) || n == 0xFEFF ||
    (0xFFF9 ≤ n && n ≤ 0xFFFB)

/-- One character of a shown text. -/
def shownChar (c : Char) : String :=
  if c = '"' then "\\\""
  else if c = '\\' then "\\\\"
  else if c = '\n' then "\\n"
  else if c = '\r' then "\\r"
  else if c = '\t' then "\\t"
  else if c.toNat = 0 then "\\0"
  else if isHidden c then "\\u\x7b" ++ hex 1 c.toNat ++ "\x7d"
  else c.toString

/-- A text as it is shown inside a message. -/
def shown (s : String) : String :=
  "\"" ++ String.join (s.toList.map shownChar) ++ "\""

end WalletLedger.Text
