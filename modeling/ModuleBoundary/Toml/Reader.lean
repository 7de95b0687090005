import ModuleBoundary.Toml.Quoted
import ModuleBoundary.Toml.Scalar

/-! Reading TOML documents.

The readers take a text and give what stands at its start with the text after it.
Where they go round or nest, fuel bounds the steps; the length of the text is enough.
-/

set_option autoImplicit false

namespace ModuleBoundary.Toml

/-- Values nest, and keys have parts, up to this many. -/
def nestingLimit : Nat := 80

/-- The text after blanks, line breaks and comments. `comment` says that the place is
inside a comment. -/
def dropTrivia? (comment : Bool) : List Char → Option (List Char)
  | [] => some []
  | '\n' :: rest => dropTrivia? false rest
  | '\r' :: '\n' :: rest => dropTrivia? false rest
  | c :: rest =>
    if comment then
      if isTextChar c then dropTrivia? true rest else none
    else if isBlank c then dropTrivia? false rest
    else if c = '#' then dropTrivia? true rest
    else some (c :: rest)

/-- The text after the line, of which only blanks and a comment may be left. -/
def afterLine? (comment : Bool) : List Char → Option (List Char)
  | [] => some []
  | '\n' :: rest => some rest
  | '\r' :: '\n' :: rest => some rest
  | c :: rest =>
    if comment then
      if isTextChar c then afterLine? true rest else none
    else if isBlank c then afterLine? false rest
    else if c = '#' then afterLine? true rest
    else none

def isBareKeyChar (c : Char) : Bool := c.isAlphanum || c == '_' || c == '-'

def simpleKey? (text : List Char) : Option (String × List Char) :=
  match text.takeWhile isBareKeyChar with
  | [] => quotedLine? text
  | key => some (String.ofList key, text.dropWhile isBareKeyChar)

/-- A key of parts with dots between them, and the text after it and its blanks. -/
def dottedKey? : (fuel : Nat) → (done : List String) → (text : List Char) →
    Option (List String × List Char)
  | 0, _, _ => none
  | fuel + 1, done, text => do
    let (part, rest) ← simpleKey? (text.dropWhile isBlank)
    let rest := rest.dropWhile isBlank
    match rest with
    | '.' :: rest => dottedKey? fuel (part :: done) rest
    | rest =>
      if done.length < nestingLimit then some ((part :: done).reverse, rest) else none

def key? (text : List Char) : Option (List String × List Char) :=
  dottedKey? (text.length + 1) [] text

mutual

/-- The value at the start of a text. `depth` counts the containers it may still open. -/
def value? (depth : Nat) : (fuel : Nat) → (text : List Char) → Option (Node × List Char)
  | 0, _ => none
  | fuel + 1, text =>
    match text with
    | '[' :: rest =>
      match depth with
      | 0 => none
      | depth + 1 => items? depth fuel [] rest
    | '{' :: rest =>
      match depth with
      | 0 => none
      | depth + 1 => members? depth fuel [] rest
    | '"' :: _ | '\'' :: _ => (quoted? text).map fun (body, rest) => (.text body, rest)
    | _ => spanBareScalar? text

/-- The items of an array, of which some are `done` in reverse order. -/
def items? (depth : Nat) : (fuel : Nat) → (done : List Node) → (text : List Char) →
    Option (Node × List Char)
  | 0, _, _ => none
  | fuel + 1, done, text => do
    match ← dropTrivia? false text with
    | ']' :: rest => some (.array done.reverse, rest)
    | text =>
      let (item, rest) ← value? depth fuel text
      match ← dropTrivia? false rest with
      | ',' :: rest => items? depth fuel (item :: done) rest
      | ']' :: rest => some (.array (item :: done).reverse, rest)
      | _ => none

/-- The entries of an inline table, after those that are there already. -/
def members? (depth : Nat) : (fuel : Nat) → (done : Entries) → (text : List Char) →
    Option (Node × List Char)
  | 0, _, _ => none
  | fuel + 1, done, text => do
    match ← dropTrivia? false text with
    | '}' :: rest => some (.table .inline done, rest)
    | text =>
      let (key, rest) ← key? text
      let (value, rest) ← value? depth fuel ((← after? '=' rest).dropWhile isBlank)
      let entries ← done.addDotted value key
      match ← dropTrivia? false rest with
      | ',' :: rest => members? depth fuel entries rest
      | '}' :: rest => some (.table .inline entries, rest)
      | _ => none

end

/-- What is read so far: all entries, and the header path that lines now add to. -/
structure Reading where
  root : Entries := []
  path : List String := []

/-- Take a header of which the opening brackets are read. -/
def Reading.header? (reading : Reading) (array : Bool) (text : List Char) :
    Option (Reading × List Char) := do
  let (path, rest) ← key? text
  let last ← path.getLast?
  let rest ← after? ']' rest
  let rest ← if array then after? ']' rest else some rest
  let define := if array then Entries.extendTables last else Entries.defineTable last
  let root ← reading.root.changeAt define path.dropLast
  return ({ root, path }, rest)

def Reading.keyValue? (reading : Reading) (text : List Char) : Option (Reading × List Char) := do
  let (key, rest) ← key? text
  let (value, rest) ←
    value? nestingLimit (rest.length + 1) ((← after? '=' rest).dropWhile isBlank)
  let root ← reading.root.changeAt (Entries.addDotted value key) reading.path
  return ({ reading with root }, rest)

def Reading.line? (reading : Reading) : List Char → Option (Reading × List Char)
  | '[' :: '[' :: rest => reading.header? true rest
  | '[' :: rest => reading.header? false rest
  | text => reading.keyValue? text

def Reading.lines? : (fuel : Nat) → Reading → (text : List Char) → Option Reading
  | 0, _, _ => none
  | fuel + 1, reading, text => do
    match ← dropTrivia? false text with
    | [] => some reading
    | text =>
      let (reading, rest) ← reading.line? text
      lines? fuel reading (← afterLine? false rest)

def dropByteOrderMark : List Char → List Char
  | '\uFEFF' :: rest => rest
  | text => text

/-- The entries of a document. -/
def read? (text : String) : Option Entries :=
  let text := dropByteOrderMark text.toList
  (Reading.lines? (text.length + 1) {} text).map Reading.root

end ModuleBoundary.Toml
