import HighlightBundle.Text.Hidden

/-!
# Strings quoted in messages

A message that names a string it met writes it between quotes, on one line, with nothing left to
guess: quotes, backslashes and the common controls have a short escape, and a hidden character is
written by its code in hexadecimal, `\u{200b}`.
-/

namespace HighlightBundle

/-- The hexadecimal digits of a natural number, in lower case. -/
def hexDigits (n : Nat) : List Char :=
  Nat.toDigits 16 n

/-- How a character is written inside quotes. -/
def quotedChar (c : Char) : List Char :=
  match c with
  | '\x00' => ['\\', '0']
  | '\t' => ['\\', 't']
  | '\r' => ['\\', 'r']
  | '\n' => ['\\', 'n']
  | '"' => ['\\', '"']
  | '\\' => ['\\', '\\']
  | c => if isHidden c then ['\\', 'u', '\x7b'] ++ hexDigits c.toNat ++ ['\x7d'] else [c]

/-- The string between quotes. -/
def quoted (s : String) : String :=
  String.ofList ('"' :: s.toList.flatMap quotedChar ++ ['"'])

example : quoted "a\"\n\u200b" = "\"a\\\"\\n\\u\x7b200b\x7d\"" := by decide +kernel

end HighlightBundle
