import Retry.Text.Unprintable

namespace Retry.Text

def quotedChar (c : Char) : String :=
  if c = '"' then "\\\""
  else if c = '\\' then "\\\\"
  else if c = '\t' then "\\t"
  else if c = '\n' then "\\n"
  else if c = '\r' then "\\r"
  else if c.toNat = 0 then "\\0"
  else if c.toNat < 0x20 ∨ c.toNat = 0x7f ∨ (0x80 ≤ c.toNat ∧ isUnprintable c) then
    "\\u\x7b" ++ String.ofList (Nat.toDigits 16 c.toNat) ++ "\x7d"
  else String.singleton c

def quoted (s : String) : String :=
  "\"" ++ s.foldl (fun acc c => acc ++ quotedChar c) "" ++ "\""

end Retry.Text
