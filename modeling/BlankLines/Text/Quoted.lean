import BlankLines.Text.Hidden

/-!
# Text — Quoted

A text in double quotes, as messages show one they object to.  The quote, the backslash and the
usual control characters have short escapes; any other hidden character is written by its number.

* `quoted`: a text in quotes.
* `ticked`: a name between ticks, without escapes.
-/

namespace BlankLines.Text

/-- A character inside quotes. -/
def quotedChar (c : Char) : List Char :=
  match c with
  | '"'    => ['\\', '"']
  | '\\'   => ['\\', '\\']
  | '\n'   => ['\\', 'n']
  | '\r'   => ['\\', 'r']
  | '\t'   => ['\\', 't']
  | '\x00' => ['\\', '0']
  | c      =>
    if isHidden c then '\\' :: 'u' :: '\x7b' :: Nat.toDigits 16 c.toNat ++ ['\x7d'] else [c]

/-- A text in double quotes. -/
def quoted (s : String) : String :=
  String.ofList ('"' :: s.toList.flatMap quotedChar ++ ['"'])

/-- A name as messages mark it. -/
def ticked (name : String) : String :=
  "\x60" ++ name ++ "\x60"

end BlankLines.Text
