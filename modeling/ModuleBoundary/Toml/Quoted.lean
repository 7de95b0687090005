/-! Quoted strings of TOML: basic ones with escapes and literal ones without, each on
one line or, between three quotes, on many.
-/

set_option autoImplicit false

namespace ModuleBoundary.Toml

def isBlank (c : Char) : Bool := c == ' ' || c == '\t'

/-- A tab is the only control character that may stand in a text. -/
def isTextChar (c : Char) : Bool := c == '\t' || (' ' ≤ c && c != '\x7F')

/-- The text after a line break. -/
def afterLineBreak? : List Char → Option (List Char)
  | '\n' :: rest => some rest
  | '\r' :: '\n' :: rest => some rest
  | _ => none

def hexValue? (c : Char) : Option Nat :=
  if '0' ≤ c ∧ c ≤ '9' then some (c.toNat - '0'.toNat)
  else if 'a' ≤ c ∧ c ≤ 'f' then some (c.toNat - 'a'.toNat + 10)
  else if 'A' ≤ c ∧ c ≤ 'F' then some (c.toNat - 'A'.toNat + 10)
  else none

/-- The character of a hexadecimal code, unless it is a surrogate or too large. -/
def charOfHex? (digits : List Char) : Option Char := do
  let code := (← digits.mapM hexValue?).foldl (fun value digit => value * 16 + digit) 0
  if code.isValidChar then some (Char.ofNat code) else none

/-- A code of the given number of digits and the text after it. -/
def codeEscape? (count : Nat) (text : List Char) : Option (Char × List Char) :=
  if (text.take count).length = count then
    (charOfHex? (text.take count)).map (·, text.drop count)
  else none

/-- The character of an escape, of which the backslash is read, and the text after it. -/
def escape? : List Char → Option (Char × List Char)
  | 'b' :: rest => some ('\x08', rest)
  | 't' :: rest => some ('\t', rest)
  | 'n' :: rest => some ('\n', rest)
  | 'f' :: rest => some ('\x0C', rest)
  | 'r' :: rest => some ('\r', rest)
  | 'e' :: rest => some ('\x1B', rest)
  | '"' :: rest => some ('"', rest)
  | '\\' :: rest => some ('\\', rest)
  | 'x' :: rest => codeEscape? 2 rest
  | 'u' :: rest => codeEscape? 4 rest
  | 'U' :: rest => codeEscape? 8 rest
  | _ => none

/-- The text after blanks and line breaks. -/
def dropBlankLines : List Char → List Char
  | '\r' :: '\n' :: rest => dropBlankLines rest
  | c :: rest => if isBlank c || c == '\n' then dropBlankLines rest else c :: rest
  | [] => []

/-- The end of a string between three quotes, after which up to two more quotes still
belong to the text. -/
def blockEnd? (quote : Char) : List Char → Option (List Char × List Char)
  | a :: b :: c :: rest =>
    if a = quote ∧ b = quote ∧ c = quote then
      match rest with
      | d :: e :: rest =>
        if d = quote ∧ e = quote then some ([quote, quote], rest)
        else if d = quote then some ([quote], e :: rest)
        else some ([], d :: e :: rest)
      | [d] => if d = quote then some ([quote], []) else some ([], [d])
      | [] => some ([], [])
    else none
  | _ => none

/-- Read up to the quote that ends a string. `fuel` bounds the characters read, and
`done` is in reverse order. -/
def lineString? (escapes : Bool) (quote : Char) :
    (fuel : Nat) → (done text : List Char) → Option (List Char × List Char)
  | 0, _, _ => none
  | _ + 1, _, [] => none
  | fuel + 1, done, c :: rest =>
    if c = quote then some (done.reverse, rest)
    else if escapes ∧ c = '\\' then
      match escape? rest with
      | some (escaped, rest) => lineString? escapes quote fuel (escaped :: done) rest
      | none => none
    else if isTextChar c then lineString? escapes quote fuel (c :: done) rest
    else none

/-- As `lineString?`, for a string that may go on over line breaks. -/
def blockString? (escapes : Bool) (quote : Char) :
    (fuel : Nat) → (done text : List Char) → Option (List Char × List Char)
  | 0, _, _ => none
  | _ + 1, _, [] => none
  | fuel + 1, done, c :: rest =>
    match blockEnd? quote (c :: rest) with
    | some (quotes, rest) => some (done.reverse ++ quotes, rest)
    | none =>
      if escapes ∧ c = '\\' then
        match afterLineBreak? (rest.dropWhile isBlank) with
        | some next => blockString? escapes quote fuel done (dropBlankLines next)
        | none =>
          match escape? rest with
          | some (escaped, rest) => blockString? escapes quote fuel (escaped :: done) rest
          | none => none
      else if c = '\r' then
        match rest with
        | '\n' :: rest => blockString? escapes quote fuel ('\n' :: '\r' :: done) rest
        | _ => none
      else if isTextChar c ∨ c = '\n' then blockString? escapes quote fuel (c :: done) rest
      else none

/-- A line break right after the opening quotes is not part of the text. -/
def dropFirstLineBreak (text : List Char) : List Char := (afterLineBreak? text).getD text

/-- The string at the start of a text, which begins with its quote. -/
def quotedLine? : List Char → Option (String × List Char)
  | '"' :: rest => (lineString? true '"' (rest.length + 1) [] rest).map fun (body, rest) =>
    (String.ofList body, rest)
  | '\'' :: rest => (lineString? false '\'' (rest.length + 1) [] rest).map fun (body, rest) =>
    (String.ofList body, rest)
  | _ => none

/-- As `quotedLine?`, also between three quotes. -/
def quoted? : List Char → Option (String × List Char)
  | '"' :: '"' :: '"' :: rest =>
    (blockString? true '"' (rest.length + 1) [] (dropFirstLineBreak rest)).map
      fun (body, rest) => (String.ofList body, rest)
  | '\'' :: '\'' :: '\'' :: rest =>
    (blockString? false '\'' (rest.length + 1) [] (dropFirstLineBreak rest)).map
      fun (body, rest) => (String.ofList body, rest)
  | text => quotedLine? text

end ModuleBoundary.Toml
