import AnswerCheck.Text.Unprintable

/-! # Quotations

A text between double quotes, for error messages. Quotes, backslashes and the usual control
characters get a backslash, what cannot stand for itself is written by its number in hexadecimal
braces, and all else stands for itself.
-/

set_option autoImplicit false

namespace AnswerCheck.Text

/-- How one character is written inside a quotation. -/
def quotedChar (c : Char) : List Char :=
  if c = '\x00' then ['\\', '0']
  else if c = '\t' then ['\\', 't']
  else if c = '\r' then ['\\', 'r']
  else if c = '\n' then ['\\', 'n']
  else if c = '\x22' || c = '\\' then ['\\', c]
  else if isUnprintable c then
    ['\\', 'u', '\x7b'] ++ Nat.toDigits 16 c.toNat ++ ['\x7d']
  else [c]

def quote (s : List Char) : List Char :=
  '\x22' :: s.flatMap quotedChar ++ ['\x22']

end AnswerCheck.Text
