import WorkflowAugment.Text.Hex
import WorkflowAugment.Text.Unprintable

/-!
# Quoted texts

A text between double quotes with an escape for what would be misread or not be seen: the quote, the backslash, the
usual controls, and by code point every character without a shape of its own.
-/

namespace WorkflowAugment.Text

/-- How one character stands in a quoted text. -/
def quotedChar (c : Char) : List Char :=
  if c = '"' then ['\\', '"']
  else if c = '\\' then ['\\', '\\']
  else if c = '\n' then ['\\', 'n']
  else if c = '\r' then ['\\', 'r']
  else if c = '\t' then ['\\', 't']
  else if c.toNat = 0 then ['\\', '0']
  else if isUnprintable c then '\\' :: 'u' :: '{' :: hex c.toNat ++ ['}']
  else [c]

/-- The text in double quotes, escaped. -/
def quoted (s : String) : String :=
  String.ofList ('"' :: s.toList.flatMap quotedChar ++ ['"'])

end WorkflowAugment.Text
