import ExprTree.Text.Unprintable

/-!
Characters that do not stand for themselves between quotes.

Two conventions: literals of the written source, which escape what would end or break the literal,
and reports, which also show unprintable characters by their code.
-/

namespace ExprTree.Text

/-- Whether the character is a control character: below the space, or from delete up to the
end of the second control block. -/
def isControl (c : Char) : Bool :=
  c.toNat < 0x20 || (0x7f ≤ c.toNat && c.toNat ≤ 0x9f)

/-- The hexadecimal digits of `n`, in lower case and without leading zeros. -/
def hexDigits (n : Nat) : List Char := Nat.toDigits 16 n

/-- At least four hexadecimal digits of `n`. -/
def hexDigits4 (n : Nat) : List Char :=
  List.replicate (4 - (hexDigits n).length) '0' ++ hexDigits n

/-- One character of a literal between two marks `quote`. -/
def escapeChar (quote c : Char) : List Char :=
  if c = '\\' then ['\\', '\\']
  else if c = '\n' then ['\\', 'n']
  else if c = '\r' then ['\\', 'r']
  else if c = '\t' then ['\\', 't']
  else if c = '\x00' then ['\\', '0']
  else if c = quote then ['\\', c]
  else if isControl c then '\\' :: 'u' :: hexDigits4 c.toNat
  else [c]

/-- The body of a literal between two marks `quote`. -/
def escape (quote : Char) (text : List Char) : List Char :=
  text.flatMap (escapeChar quote)

/-- The literal of a text: its escaped body between two marks `quote`. -/
def quoted (quote : Char) (text : List Char) : String :=
  String.ofList (quote :: escape quote text ++ [quote])

/-- One character of a report between two marks `quote`. -/
def reportChar (quote c : Char) : List Char :=
  if c = '\x00' then ['\\', '0']
  else if c = '\t' then ['\\', 't']
  else if c = '\r' then ['\\', 'r']
  else if c = '\n' then ['\\', 'n']
  else if c = '\\' || c = quote then ['\\', c]
  else if isUnprintable c then ['\\', 'u', '\x7b'] ++ hexDigits c.toNat ++ ['\x7d']
  else [c]

/-- The text as a report shows it, between two marks `quote`. -/
def reported (quote : Char) (text : List Char) : String :=
  String.ofList (quote :: text.flatMap (reportChar quote) ++ [quote])

end ExprTree.Text
