import ViewMarkup.Text.Unprintable

/-! # Quoted text

A quoted text stands on one line whatever it holds: it is set in double quotes, the quote and the
backslash are preceded by a backslash, the common control characters have a letter of their own, and
any other character without a printed form is written by its code point in hexadecimal.
-/

namespace ViewMarkup.Text

/-- A code point written as `\u`, an opening brace, lowercase hexadecimal digits and a closing
brace. -/
def codeEscape (code : Nat) : List Char :=
  ['\\', 'u', '\x7b'] ++ Nat.toDigits 16 code ++ ['\x7d']

/-- The written form of one character inside quotes. -/
def quoteChar (c : Char) : List Char :=
  match c with
  | '"' => ['\\', '"']
  | '\\' => ['\\', '\\']
  | '\t' => ['\\', 't']
  | '\n' => ['\\', 'n']
  | '\r' => ['\\', 'r']
  | '\x00' => ['\\', '0']
  | other => if isUnprintable other.toNat then codeEscape other.toNat else [other]

/-- A text in double quotes. -/
def quote (text : String) : String :=
  String.ofList ('"' :: (text.toList.flatMap quoteChar ++ ['"']))

end ViewMarkup.Text
