import ModuleBoundary.Json.Reader
import ModuleBoundary.Proofs.Json.Leaf

/-! Documents read back from their written form.

Both printers spell the tokens of a document, one with blanks between them and one without.
The tokens are all the reader sees, and it builds of them the document they were taken from.
-/

set_option autoImplicit false

namespace ModuleBoundary.Json

mutual

/-- The tokens of a document, in the order in which a text has to spell them. -/
def tokens : Json → List Token
  | .leaf value => [.leaf value]
  | .list items => .openList :: (itemTokens items ++ [.closeList])
  | .object members => .openObject :: (memberTokens members ++ [.closeObject])

def itemTokens : List Json → List Token
  | [] => []
  | [item] => tokens item
  | item :: rest => tokens item ++ .comma :: itemTokens rest

def memberTokens : List (String × Json) → List Token
  | [] => []
  | [(key, value)] => .leaf (.text key) :: .colon :: tokens value
  | (key, value) :: rest =>
    .leaf (.text key) :: .colon :: (tokens value ++ .comma :: memberTokens rest)

end

/-! Texts that spell tokens. -/

/-- Each token in its written form, with blanks before, between and after them. -/
inductive Spells : List Char → List Token → Prop where
  | nil : Spells [] []
  | blank {c : Char} {text : List Char} {spelled : List Token} (blank : isBlank c = true)
      (rest : Spells text spelled) : Spells (c :: text) spelled
  | mark {c : Char} {token : Token} {text : List Char} {spelled : List Token}
      (mark : Token.ofChar? c = some token) (rest : Spells text spelled) :
      Spells (c :: text) (token :: spelled)
  | leaf {value : Leaf} {text : List Char} {spelled : List Token} (delimited : Delimited text)
      (rest : Spells text spelled) : Spells (value.write ++ text) (.leaf value :: spelled)

theorem isBlank_of_ofChar? {c : Char} {token : Token} (mark : Token.ofChar? c = some token) :
    isBlank c = false := by
  unfold Token.ofChar? at mark
  split at mark
  case h_7 => cases mark
  all_goals decide

/-- A leaf begins with a character that is no token by itself. -/
theorem exists_write_eq_cons (value : Leaf) :
    ∃ c text, value.write = c :: text ∧ isBlank c = false ∧ Token.ofChar? c = none := by
  cases value with
  | null => exact ⟨'n', ['u', 'l', 'l'], rfl, rfl, rfl⟩
  | bool value =>
    cases value with
    | true => exact ⟨'t', ['r', 'u', 'e'], rfl, rfl, rfl⟩
    | false => exact ⟨'f', ['a', 'l', 's', 'e'], rfl, rfl, rfl⟩
  | nat value =>
    obtain ⟨digit, more, digits, isDigit⟩ := exists_toDigits_eq_cons value
    have inNumber (ends : isBlank digit = true ∨ (Token.ofChar? digit).isSome = true) : False := by
      have outside := (not_in_number ends).1
      rw [isDigit] at outside
      cases outside
    refine ⟨digit, more, digits, ?_, ?_⟩
    · exact Bool.eq_false_iff.mpr fun blank => inNumber (.inl blank)
    · exact Option.not_isSome_iff_eq_none.mp fun mark => inNumber (.inr mark)
  | otherNumber => exact ⟨'-', ['0'], rfl, rfl, rfl⟩
  | text value => exact ⟨'"', _, rfl, rfl, rfl⟩
  | unreadable => exact ⟨'"', _, rfl, rfl, rfl⟩

theorem tokensFrom_of_spells {text : List Char} {spelled : List Token} (spells : Spells text spelled)
    (done : List Token) :
    tokensFrom done (text.map some) = some (done.reverse ++ spelled) := by
  induction spells generalizing done with
  | nil => simp [tokensFrom]
  | blank blank _ ih =>
    rw [List.map_cons, tokensFrom, if_pos blank, ih]
  | mark mark _ ih =>
    rw [List.map_cons, tokensFrom, if_neg (by simp [isBlank_of_ofChar? mark])]
    simp [mark, ih]
  | @leaf value text spelled delimited _ ih =>
    obtain ⟨c, more, written, notBlank, notMark⟩ := exists_write_eq_cons value
    have read := leaf?_write value delimited
    rw [written, List.cons_append, List.map_cons] at read ⊢
    rw [tokensFrom, if_neg (by simp [notBlank])]
    simp only [notMark]
    split
    · next found =>
      rw [read] at found
      cases found
      rw [ih]
      simp
    · next missed =>
      rw [read] at missed
      cases missed

theorem Spells.blanks {blanks text : List Char} {spelled : List Token}
    (all : ∀ c ∈ blanks, isBlank c = true) (spells : Spells text spelled) :
    Spells (blanks ++ text) spelled := by
  induction blanks with
  | nil => exact spells
  | cons c blanks ih =>
    obtain ⟨first, all⟩ := List.forall_mem_cons.mp all
    exact .blank first (ih all)

/-- A text that spells some tokens and may stand behind a number. -/
structure Continues (text : List Char) (spelled : List Token) : Prop where
  delimited : Delimited text
  spells : Spells text spelled

theorem Continues.nil : Continues [] [] := ⟨.nil, .nil⟩

theorem continues_blank {c : Char} {text : List Char} {spelled : List Token}
    (blank : isBlank c = true) (spells : Spells text spelled) : Continues (c :: text) spelled :=
  ⟨delimited_of_blank blank, .blank blank spells⟩

theorem continues_mark {c : Char} {token : Token} {text : List Char} {spelled : List Token}
    (mark : Token.ofChar? c = some token) (spells : Spells text spelled) :
    Continues (c :: text) (token :: spelled) :=
  ⟨delimited_of_mark (by simp [mark]), .mark mark spells⟩

theorem spells_quoted (key : String) {rest : List Char} {more : List Token}
    (after : Continues rest more) : Spells (quoted key ++ rest) (.leaf (.text key) :: more) := by
  have written : Spells ((Leaf.text key).write ++ rest) (.leaf (.text key) :: more) :=
    .leaf after.delimited after.spells
  exact written

/-! What the printers write spells the tokens of the document. -/

mutual

theorem spells_compactChars (document : Json) {rest : List Char} {more : List Token}
    (after : Continues rest more) :
    Spells (compactChars document ++ rest) (tokens document ++ more) := by
  cases document with
  | leaf value => exact .leaf after.delimited after.spells
  | list items =>
    have closed := continues_mark (c := ']') rfl after.spells
    have opened := continues_mark (c := '[') rfl (spells_compactItems items closed)
    simpa [compactChars, tokens] using opened.spells
  | object members =>
    have closed := continues_mark (c := '\x7d') rfl after.spells
    have opened := continues_mark (c := '\x7b') rfl (spells_compactMembers members closed)
    simpa [compactChars, tokens] using opened.spells

theorem spells_compactItems (items : List Json) {rest : List Char} {more : List Token}
    (after : Continues rest more) :
    Spells (compactItems items ++ rest) (itemTokens items ++ more) := by
  match items with
  | [] => exact after.spells
  | [item] => exact spells_compactChars item after
  | item :: next :: later =>
    have continued := continues_mark (c := ',') rfl (spells_compactItems (next :: later) after)
    simpa [compactItems, itemTokens] using spells_compactChars item continued

theorem spells_compactMembers (members : List (String × Json)) {rest : List Char}
    {more : List Token} (after : Continues rest more) :
    Spells (compactMembers members ++ rest) (memberTokens members ++ more) := by
  match members with
  | [] => exact after.spells
  | [(key, value)] =>
    have keyed := continues_mark (c := ':') rfl (spells_compactChars value after)
    simpa [compactMembers, memberTokens] using spells_quoted key keyed
  | (key, value) :: next :: later =>
    have continued := continues_mark (c := ',') rfl (spells_compactMembers (next :: later) after)
    have keyed := continues_mark (c := ':') rfl (spells_compactChars value continued)
    simpa [compactMembers, memberTokens] using spells_quoted key keyed

end

/-- A line break and an indentation are blanks. -/
theorem continues_newline (depth : Nat) {rest : List Char} {more : List Token}
    (spells : Spells rest more) : Continues (newline depth ++ rest) more := by
  refine continues_blank (c := '\n') rfl (.blanks ?_ spells)
  intro c member
  rw [List.eq_of_mem_replicate member]
  rfl

mutual

theorem spells_prettyChars (depth : Nat) (document : Json) {rest : List Char} {more : List Token}
    (after : Continues rest more) :
    Spells (prettyChars depth document ++ rest) (tokens document ++ more) := by
  match document with
  | .leaf value => exact .leaf after.delimited after.spells
  | .list [] => exact .mark rfl (.mark rfl after.spells)
  | .list (item :: items) =>
    have closed := continues_newline depth (continues_mark (c := ']') rfl after.spells).spells
    have opened := continues_mark (c := '[') rfl
      (spells_prettyItems (depth + 1) (item :: items) closed)
    simpa [prettyChars, tokens] using opened.spells
  | .object [] => exact .mark rfl (.mark rfl after.spells)
  | .object (member :: members) =>
    have closed := continues_newline depth (continues_mark (c := '\x7d') rfl after.spells).spells
    have opened := continues_mark (c := '\x7b') rfl
      (spells_prettyMembers (depth + 1) (member :: members) closed)
    simpa [prettyChars, tokens] using opened.spells

theorem spells_prettyItems (depth : Nat) (items : List Json) {rest : List Char}
    {more : List Token} (after : Continues rest more) :
    Spells (prettyItems depth items ++ rest) (itemTokens items ++ more) := by
  match items with
  | [] => exact after.spells
  | [item] =>
    have lined := continues_newline depth (spells_prettyChars depth item after)
    simpa [prettyItems, itemTokens] using lined.spells
  | item :: next :: later =>
    have continued := continues_mark (c := ',') rfl (spells_prettyItems depth (next :: later) after)
    have lined := continues_newline depth (spells_prettyChars depth item continued)
    simpa [prettyItems, itemTokens] using lined.spells

theorem spells_prettyMembers (depth : Nat) (members : List (String × Json)) {rest : List Char}
    {more : List Token} (after : Continues rest more) :
    Spells (prettyMembers depth members ++ rest) (memberTokens members ++ more) := by
  match members with
  | [] => exact after.spells
  | [(key, value)] =>
    have valued := continues_blank (c := ' ') rfl (spells_prettyChars depth value after)
    have keyed := continues_mark (c := ':') rfl valued.spells
    have lined := continues_newline depth (spells_quoted key keyed)
    simpa [prettyMembers, memberTokens] using lined.spells
  | (key, value) :: next :: later =>
    have continued := continues_mark (c := ',') rfl
      (spells_prettyMembers depth (next :: later) after)
    have valued := continues_blank (c := ' ') rfl (spells_prettyChars depth value continued)
    have keyed := continues_mark (c := ':') rfl valued.spells
    have lined := continues_newline depth (spells_quoted key keyed)
    simpa [prettyMembers, memberTokens] using lined.spells

end

/-! The reader builds the document of its tokens. -/

/-- A reader that goes on from a place. -/
abbrev Reading.run (place : Reading) (spelled : List Token) : Option Reading :=
  spelled.foldlM Reading.step place

theorem ofMembers_map_some (members : List (String × Json)) :
    ofMembers (members.map (Prod.map some id)) = .object members := by
  have all : (members.map (Prod.map some id)).mapM (fun (key?, value) => key?.map (·, value)) =
      some members := by
    induction members with
    | nil => rfl
    | cons member members ih => simp [ih]
  unfold ofMembers
  rw [all]

mutual

theorem run_tokens (document : Json) (frames : List Frame) (first : Bool) (more : List Token) :
    Reading.run (.awaitValue frames first) (tokens document ++ more) =
      Reading.run (.afterValue frames document) more := by
  match document with
  | .leaf value => simp [tokens, Reading.step]
  | .list [] => simp [tokens, itemTokens, Reading.step]
  | .list (item :: items) =>
    have inside := run_itemTokens (item :: items) (by simp) frames [] true more
    simpa [tokens, Reading.step] using inside
  | .object [] => simp [tokens, memberTokens, Reading.step]
  | .object (member :: members) =>
    have inside := run_memberTokens (member :: members) (by simp) frames [] true more
    rw [List.reverse_nil, List.nil_append, ofMembers_map_some] at inside
    simpa [tokens, Reading.step] using inside

theorem run_itemTokens (items : List Json) (some : items ≠ []) (frames : List Frame)
    (done : List Json) (first : Bool) (more : List Token) :
    Reading.run (.awaitValue (.list done :: frames) first)
        (itemTokens items ++ .closeList :: more) =
      Reading.run (.afterValue frames (.list (done.reverse ++ items))) more := by
  match items with
  | [] => exact absurd rfl some
  | [item] =>
    rw [itemTokens, run_tokens]
    simp [Reading.step]
  | item :: next :: later =>
    have after := run_itemTokens (next :: later) (by simp) frames (item :: done) false more
    simp only [itemTokens, List.append_assoc, run_tokens]
    simpa [Reading.step] using after

theorem run_memberTokens (members : List (String × Json)) (some : members ≠ [])
    (frames : List Frame) (done : List Member) (first : Bool) (more : List Token) :
    Reading.run (.awaitKey frames done first) (memberTokens members ++ .closeObject :: more) =
      Reading.run (.afterValue frames
        (ofMembers (done.reverse ++ members.map (Prod.map .some id)))) more := by
  match members with
  | [] => exact absurd rfl some
  | [(key, value)] =>
    have keyed := run_tokens value (.object done (.some key) :: frames) false (.closeObject :: more)
    simpa [memberTokens, Reading.step] using keyed
  | (key, value) :: next :: later =>
    have after := run_memberTokens (next :: later) (by simp) frames ((.some key, value) :: done)
      false more
    have keyed := run_tokens value (.object done (.some key) :: frames) false
      (.comma :: (memberTokens (next :: later) ++ .closeObject :: more))
    simp only [memberTokens, List.cons_append, List.append_assoc]
    simpa [Reading.step] using keyed.trans after

end

theorem ofTokens?_tokens (document : Json) : ofTokens? (tokens document) = some document := by
  have read : (tokens document).foldlM Reading.step .start = some (.afterValue [] document) := by
    have run := run_tokens document [] false []
    rwa [List.append_nil] at run
  unfold ofTokens?
  rw [read]

theorem ofString?_of_spells {text : String} {document : Json}
    (spells : Spells text.toList (tokens document)) : ofString? text = some document := by
  rw [ofString?, ofLetters?, tokens?, tokensFrom_of_spells spells]
  exact ofTokens?_tokens document

/-- A document written on one line reads back as it is. -/
theorem ofString?_compact (document : Json) : ofString? document.compact = some document := by
  apply ofString?_of_spells
  simpa [compact] using spells_compactChars document .nil

/-- A document written with one item to a line reads back as it is, whatever blanks follow. -/
theorem ofString?_pretty_append (document : Json) (blanks : String)
    (all : ∀ c ∈ blanks.toList, isBlank c = true) :
    ofString? (document.pretty ++ blanks) = some document := by
  apply ofString?_of_spells
  have after : Continues blanks.toList [] := by
    have spells : Spells (blanks.toList ++ []) [] := .blanks all .nil
    rw [List.append_nil] at spells
    exact ⟨fun c member => .inl (all c (List.mem_of_mem_head? member)), spells⟩
  simpa [pretty] using spells_prettyChars 0 document after

theorem ofString?_pretty (document : Json) : ofString? document.pretty = some document := by
  have read := ofString?_pretty_append document "" (by simp)
  rwa [String.append_empty] at read

end ModuleBoundary.Json
