import RequestAuth.Text.Visible

namespace RequestAuth.Text

/-- A quote, a backslash, a null and three kinds of white space are written with a backslash and
one more character; others without a visible form by their number. -/
def escape (quote c : Char) : List Char :=
  if c = Char.ofNat 0 then ['\\', '0']
  else if c = '\t' then ['\\', 't']
  else if c = '\r' then ['\\', 'r']
  else if c = '\n' then ['\\', 'n']
  else if c = quote ∨ c = '\\' then ['\\', c]
  else if isVisible c then [c]
  else ['\\', 'u', '\x7b'] ++ Nat.toDigits 16 c.toNat ++ ['\x7d']

def quotedWith (quote : Char) (cs : List Char) : String :=
  String.ofList (quote :: cs.flatMap (escape quote) ++ [quote])

def quoted (text : String) : String := quotedWith '"' text.toList

def quotedChar (c : Char) : String := quotedWith '\'' [c]

end RequestAuth.Text
