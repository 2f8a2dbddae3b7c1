import RewindLexer.Lexer.Gather

/-!
# The language of the lexer

What a lexer reads, said on the list of characters that are not consumed yet. There is no lookahead,
no recording and nothing to put back: each reader takes a part off the front of the list and answers
the rest. `Reference.read` is one call of a lexer that makes plain tokens.
-/

namespace RewindLexer.Reference

open Text

/-- The input after the end of the current line. -/
def afterLine (cs : List Char) : List Char :=
  (cs.dropWhile fun c => !endsLine c).drop 1

theorem length_afterLine_le (cs : List Char) : (afterLine cs).length ≤ cs.length := by
  have h := (List.dropWhile_suffix (l := cs) fun c => !endsLine c).length_le
  simp only [afterLine, List.length_drop]
  omega

/-- The input without the blanks and comments in front. -/
def dropTrivia : List Char → List Char
  | [] => []
  | c :: cs =>
    if ['#', '#', '#'].isPrefixOf (c :: cs) then dropTrivia (afterLine (cs.drop 2))
    else if isBlank c then dropTrivia cs
    else c :: cs
termination_by cs => cs.length
decreasing_by
  · have h := length_afterLine_le (cs.drop 2)
    simp only [List.length_drop, List.length_cons] at h ⊢
    omega
  · simp

/-- An entity after its `&`: the character it stands for, and the rest. -/
def entity (limit : Nat) (cs : List Char) : Except LexError Char × List Char :=
  let body := cs.takeWhile (· ≠ ';')
  if limit < body.length then
    (.error (.malformedEscape (String.ofList (cs.take (limit + 1)))), cs.drop (limit + 1))
  else
    match cs.drop body.length with
    | [] => (.error .endOfInput, [])
    | _ :: rest => (Entity.decode body, rest)

/-- An escape after its backslash: the character it stands for, and the rest. -/
def escape (limit : Nat) : List Char → Except LexError Char × List Char
  | [] => (.error .endOfInput, [])
  | '&' :: '\\' :: cs => escape limit cs
  | '&' :: cs => entity limit cs
  | c :: cs => (.ok (unescape c), cs)

theorem length_entity_le (limit : Nat) (cs : List Char) :
    (entity limit cs).2.length ≤ cs.length := by
  simp only [entity]
  split
  · simp
  · split
    · simp
    · rename_i c rest h
      have hl := congrArg List.length h
      simp only [List.length_drop, List.length_cons] at hl
      simp only
      omega

theorem length_escape_le (limit : Nat) (cs : List Char) :
    (escape limit cs).2.length ≤ cs.length := by
  fun_induction escape limit cs with
  | case1 => simp
  | case2 cs ih => exact Nat.le_succ_of_le (Nat.le_succ_of_le ih)
  | case3 cs _ => exact Nat.le_succ_of_le (length_entity_le limit cs)
  | case4 => simp

/-- The inside of a string after its opening quote: the decoded text, and what comes after the
closing quote. -/
def quotation (limit : Nat) (quote : Char) :
    List Char → Except LexError (List Char) × List Char
  | [] => (.error .endOfInput, [])
  | c :: cs =>
    if c = quote then
      (.ok [], cs)
    else if c = '\\' then
      match _h : escape limit cs with
      | (.error e, rest) => (.error e, rest)
      | (.ok d, rest) =>
        match quotation limit quote rest with
        | (.error e, rest) => (.error e, rest)
        | (.ok text, rest) => (.ok (d :: text), rest)
    else
      match quotation limit quote cs with
      | (.error e, rest) => (.error e, rest)
      | (.ok text, rest) => (.ok (c :: text), rest)
termination_by cs => cs.length
decreasing_by
  · have hle := length_escape_le limit cs
    rw [_h] at hle
    exact Nat.lt_succ_of_le hle
  · simp

/-- The part of an input that a reader has taken off, given what it left. -/
def taken (cs rest : List Char) : String :=
  String.ofList (cs.take (cs.length - rest.length))

/-- The longest run of characters at the front for which `p` holds, and the rest. -/
def run (p : Char → Bool) (cs : List Char) : List Char × List Char :=
  (cs.takeWhile p, cs.dropWhile p)

/-- The token that starts with the character `c`, and the rest. -/
def token (o : Options) (c : Char) (cs : List Char) : Except LexError Token × List Char :=
  if isAlphabetic c then
    let (text, rest) := run isNameChar cs
    let lexeme := String.ofList (c :: text)
    (.ok ⟨lexeme, .name lexeme⟩, rest)
  else if isQuote c then
    match quotation o.maxEntityLength c cs with
    | (.error e, rest) => (.error (closing c e), rest)
    | (.ok text, rest) => (.ok ⟨taken (c :: cs) rest, .string (String.ofList text) c⟩, rest)
  else if Numeral.isDigit c || c = '-' then
    let (text, rest) := run Numeral.isDigit cs
    let lexeme := String.ofList (c :: text)
    match Numeral.int64? (c :: text) with
    | some value => (.ok ⟨lexeme, .integer value⟩, rest)
    | none => (.error (.invalidInteger lexeme), rest)
  else if o.emitSymbols && isSeparator c then
    (.ok ⟨c.toString, .char c.toString⟩, cs)
  else if o.emitSymbols && (isSign c || c = '#') then
    let (text, rest) := run isSign cs
    let lexeme := String.ofList (c :: text)
    (.ok ⟨lexeme, .symbol lexeme⟩, rest)
  else
    (.error (.noToken c), c :: cs)

/-- The next token or the reason why there is none, and the input after it. -/
def read (o : Options) (cs : List Char) : Except LexError Token × List Char :=
  match dropTrivia cs with
  | [] => (.ok ⟨"", .endOfFile⟩, [])
  | c :: cs => token o c cs

end RewindLexer.Reference
