import ModuleBoundary.Text.Characters

/-! Text between double quotes, as it is shown to a developer.

A quote and a backslash are escaped, a few controls have a short form, and every other
character without a shape of its own is written by its code.
-/

set_option autoImplicit false

namespace ModuleBoundary.Text

def codeEscape (c : Char) : List Char :=
  ['\\', 'u', '{'] ++ Nat.toDigits 16 c.toNat ++ ['}']

def quoteChar : Char → List Char
  | '"' => ['\\', '"']
  | '\\' => ['\\', '\\']
  | '\n' => ['\\', 'n']
  | '\r' => ['\\', 'r']
  | '\t' => ['\\', 't']
  | '\x00' => ['\\', '0']
  | c => if isCoded c then codeEscape c else [c]

def quote (text : String) : String :=
  String.ofList ('"' :: text.toList.flatMap quoteChar ++ ['"'])

end ModuleBoundary.Text
