import RewindLexer.Proofs.Lexer.Calls

/-!
# No character is lost

Whatever the calls of a lexer have answered, the stream still gives exactly the characters after the
position; and as long as they have answered tokens, the text before the position is made of the
texts of these tokens and of the blanks and comments between them. An error is located at the
position where its call has stopped, with the text gathered for its token; only an integer that does
not fit is located without its text.
-/

namespace RewindLexer

open CharStream FiniteStream

universe u v

/-! ## What a stream still gives -/

/-- The characters that a stream gives until there is none. -/
def deliver {S : Type u} [FiniteStream S] (s : S) : List Char :=
  match _h : next s with
  | (.error _, _) => []
  | (.ok c, s') => c :: deliver s'
termination_by waiting s
decreasing_by exact waiting_next_lt ‹_›

/-- The items that a lookahead gives until there is none. -/
def Lookahead.deliver {σ : Type u} {α : Type v} [FiniteSource σ α] (l : Lookahead σ α) : List α :=
  match _h : l.next with
  | (none, _) => []
  | (some a, l') => a :: deliver l'
termination_by l.waiting
decreasing_by exact waiting_next_lt ‹_›

section

variable {σ : Type u} [FusedSource σ Char]

theorem deliver_eq {t : Tape σ} (h : t.Sound) : deliver t = t.view := by
  fun_induction deliver t with
  | case1 t e t' hn => exact (Tape.view_of_next_error h hn).symm
  | case2 t c t' hn ih =>
    have ht := Tape.took_next h hn
    rw [ih ht.sound, ht.view]
    rfl

theorem Lookahead.deliver_eq {l : Lookahead σ Char} (h : l.Sound) : l.deliver = l.view := by
  fun_induction Lookahead.deliver l with
  | case1 l l' hn => exact (h.view_of_next_none (by rw [hn])).symm
  | case2 l c l' hn ih =>
    have hs := h.next
    rw [hn] at hs
    rw [ih hs.1]
    exact hs.2.symm

end

namespace Lexer

/-! ## Tokens and what is between them -/

/-- The text of tokens, each after the text that was skipped for it. -/
def spelled (parts : List (List Char × Token)) : List Char :=
  parts.flatMap fun p => p.1 ++ p.2.lexeme.toList

/-- Each token comes after blanks and comments only. -/
def Separated (rest : List Char) : List (List Char × Token) → Prop
  | [] => True
  | p :: parts =>
    Trivia (p.2.lexeme.toList ++ (spelled parts ++ rest)) p.1 ∧ Separated rest parts

section

variable {σ : Type u} [FusedSource σ Char] {l l' : Lexer Token (Tape σ)} {o : Options}
  {text skipped gathered : List Char}

theorem Reads.lexeme_eq {tok : Token} (h : l.Reads skipped gathered (.ok tok) l') :
    tok.lexeme.toList = gathered := by
  have hl := Reference.lexeme_of_read h.read_eq
  rw [h.dropTrivia_eq, Reference.taken_append] at hl
  rw [hl, String.toList_ofList]

/-- As long as calls answer tokens, these tokens and what is skipped for them make up the text. -/
theorem Over.exists_parts (ho : l.Over o text) (n : Nat) {ts : List Token}
    (h : (l.readTokens n).1.map Prod.fst = ts.map .ok) :
    ∃ parts : List (List Char × Token), parts.map Prod.snd = ts ∧
      l.stream.view = spelled parts ++ (l.readTokens n).2.stream.view ∧
      Separated (l.readTokens n).2.stream.view parts := by
  induction n generalizing l ts with
  | zero =>
    cases ts with
    | nil => exact ⟨[], rfl, rfl, trivial⟩
    | cons tok ts => cases h
  | succ n ih =>
    obtain ⟨skipped, gathered, r, l', hr⟩ := exists_reads ho.builder_eq ho.idle
    rw [hr.readTokens_succ] at h ⊢
    cases ts with
    | nil => cases h
    | cons tok ts =>
      obtain ⟨htok, hts⟩ := List.cons.inj h
      obtain ⟨parts, hp, hv, hs⟩ := ih (hr.over ho) hts
      cases r with
      | error e => cases htok
      | ok tok' =>
        cases htok
        refine ⟨(skipped, tok) :: parts, ?_, ?_, ?_, hs⟩
        · rw [List.map_cons, hp]
        · rw [hr.took.view, ← hr.lexeme_eq, hv]
          simp [spelled]
        · rw [← hv, hr.lexeme_eq]
          exact hr.trivia

end

/-- After any number of calls the stream gives the text after the position, with its recording and
without. If all of them have answered tokens, the text before the position is made of the texts of
these tokens, each after blanks and comments. -/
theorem readTokens_lossless (o : Options) (text : List Char) (n : Nat) :
    let l := ((plain o text).readTokens n).2
    l.position ≤ text.length ∧
      deliver l.stream = text.drop l.position ∧
      l.stream.ahead.deliver = text.drop l.position ∧
      ∀ ts : List Token, ((plain o text).readTokens n).1.map Prod.fst = ts.map .ok →
        ∃ parts : List (List Char × Token), parts.map Prod.snd = ts ∧
          text.take l.position = spelled parts ∧ Separated (text.drop l.position) parts := by
  intro l
  have ho := over_plain o text
  have hl : l.Over o text := ho.readTokens n
  refine ⟨hl.position_le, ?_, ?_, ?_⟩
  · rw [deliver_eq hl.idle.sound, hl.view_eq]
  · exact (Lookahead.deliver_eq hl.idle.sound).trans hl.view_eq
  · intro ts hts
    obtain ⟨parts, hp, hv, hs⟩ := ho.exists_parts n hts
    rw [hl.view_eq] at hv hs
    refine ⟨parts, hp, ?_, hs⟩
    have hv : text = spelled parts ++ text.drop l.position := ho.view_eq.symm.trans hv
    exact List.append_cancel_right ((List.take_append_drop l.position text).trans hv)

theorem readTokens_lossless_comment :
    let text := ['a', '#', '#', '#', 'b', '\n', '-', '1', ' ']
    let ts : List Token := [⟨"a", .name "a"⟩, ⟨"-1", .integer (-1)⟩, ⟨"", .endOfFile⟩]
    ((plain {} text).readTokens 3).1.map Prod.fst = ts.map .ok ∧
      ∃ parts : List (List Char × Token), parts.map Prod.snd = ts ∧
        text.take 9 = spelled parts ∧ Separated [] parts := by
  intro text ts
  have hts : ((plain {} text).readTokens 3).1.map Prod.fst = ts.map .ok := by
    decide +kernel
  have hpos : ((plain {} text).readTokens 3).2.position = 9 := by
    decide +kernel
  have h := (readTokens_lossless {} text 3).2.2.2 ts hts
  rw [hpos] at h
  exact ⟨hts, h⟩

/-! ## Answers -/

section

variable {σ : Type u} [FusedSource σ Char] {l l' : Lexer Token (Tape σ)}
  {skipped gathered : List Char} {r : Except LexError Token}

theorem Reads.answer_iff (h : l.Reads skipped gathered r l') {tok : Token} {rest : List Char} :
    l.readToken.1 = .ok tok ∧ deliver l.readToken.2.stream = rest ↔
      Reference.read l.options l.stream.view = (.ok tok, rest) := by
  rw [h.ok_iff, h.read_eq, Prod.mk.injEq, h.readToken_eq, deliver_eq h.took.sound]

theorem failure_inj {o : Options} {e e' : LocatedError} (h : o.failure e = o.failure e') :
    e = e' := by
  simp only [Options.failure] at h
  split at h
  · exact Failure.aborted.inj h
  · exact Failure.reported.inj h

theorem Reads.failure_iff (h : l.Reads skipped gathered r l') {failure : Failure}
    {rest : List Char} :
    l.readToken.1 = .error failure ∧ deliver l.readToken.2.stream = rest ↔
      ∃ cause, Reference.read l.options l.stream.view = (.error cause, rest) ∧
        failure =
          l.options.failure ⟨cause, l'.position, cause.recordedText (String.ofList gathered)⟩ := by
  rw [h.read_eq, h.readToken_eq, deliver_eq h.took.sound]
  cases r with
  | ok tok =>
    constructor
    · rintro ⟨he, -⟩
      cases he
    · rintro ⟨cause, he, -⟩
      cases he
  | error cause =>
    constructor
    · rintro ⟨he, rfl⟩
      cases he
      exact ⟨cause, rfl, rfl⟩
    · rintro ⟨cause', he, rfl⟩
      cases he
      exact ⟨rfl, rfl⟩

theorem Reads.cause_iff (h : l.Reads skipped gathered r l') {o : Options} (ho : l.options = o)
    {cause : LexError} {rest : List Char} :
    (∃ e : LocatedError, l.readToken.1 = .error (o.failure e) ∧ e.cause = cause) ∧
        deliver l.readToken.2.stream = rest ↔
      Reference.read o l.stream.view = (.error cause, rest) := by
  subst ho
  constructor
  · rintro ⟨⟨e, he, rfl⟩, hrest⟩
    obtain ⟨cause, hread, hfail⟩ := h.failure_iff.1 ⟨he, hrest⟩
    rw [failure_inj hfail]
    exact hread
  · intro hread
    obtain ⟨he, hrest⟩ := h.failure_iff.2 ⟨cause, hread, rfl⟩
    exact ⟨⟨_, he, rfl⟩, hrest⟩

end

/-! ## Errors -/

section

variable {σ : Type u} [FusedSource σ Char] {l l' : Lexer Token (Tape σ)} {o : Options}
  {text skipped gathered : List Char}

theorem Reads.digits_eq {digits : String}
    (h : l.Reads skipped gathered (.error (.invalidInteger digits)) l') :
    digits.toList = gathered ∧ gathered ≠ [] := by
  obtain ⟨hd, hlt⟩ := Reference.text_of_read h.read_eq
  rw [h.dropTrivia_eq] at hd hlt
  refine ⟨?_, ?_⟩
  · rw [hd, Reference.taken_append, String.toList_ofList]
  · rintro rfl
    exact Nat.lt_irrefl _ hlt

/-- No reading of what a call has consumed takes an integer that does not fit for blanks and
comments. -/
theorem Reads.not_trivia {digits : String}
    (h : l.Reads skipped gathered (.error (.invalidInteger digits)) l') :
    ¬Trivia l'.stream.view (skipped ++ gathered) := by
  intro ht
  have hle := Reference.length_dropTrivia_le ht
  rw [← h.took.view, h.dropTrivia_eq, List.length_append] at hle
  have hpos := List.length_pos_iff.2 h.digits_eq.2
  omega

theorem Reads.consumed_eq {r : Except LexError Token} (h : l.Reads skipped gathered r l')
    (ho : l.Over o text) :
    (text.drop l.position).take (l'.position - l.position) = skipped ++ gathered := by
  rw [← ho.view_eq, h.took.view, h.position_eq, Nat.add_sub_cancel_left, List.take_left]

/-- The text of an error follows what was skipped exactly if it is not an integer that fails. -/
theorem Reads.recordedText_iff {e : LexError} (h : l.Reads skipped gathered (.error e) l') :
    (∃ before, skipped ++ gathered = before ++ (e.recordedText (String.ofList gathered)).toList ∧
        Trivia ((e.recordedText (String.ofList gathered)).toList ++ l'.stream.view) before) ↔
      ∀ digits, e ≠ .invalidInteger digits := by
  constructor
  · rintro ⟨before, hc, ht⟩ digits rfl
    have hc : skipped ++ gathered = before ++ [] := hc
    rw [List.append_nil] at hc
    cases hc
    exact h.not_trivia ht
  · intro hne
    rw [LexError.recordedText, if_pos (e.keepsRecord_iff.2 hne), String.toList_ofList]
    exact ⟨skipped, rfl, h.trivia⟩

end

/-- An error of any call is located where the call has stopped. What the call has consumed is blanks
and comments and then the text of the error, unless the cause is an integer that does not fit: there
the text of the error is empty, although the digits have been consumed. -/
theorem readToken_error_located (o : Options) (text : List Char) (n : Nat) (e : LocatedError) :
    let l := ((plain o text).readTokens n).2
    let l' := l.readToken.2
    let consumed := (text.drop l.position).take (l'.position - l.position)
    let rest := text.drop l'.position
    l.readToken.1 = .error (o.failure e) →
      e.position = l'.position ∧
        ((∃ skipped, consumed = skipped ++ e.lexeme.toList ∧
            Trivia (e.lexeme.toList ++ rest) skipped) ↔
          ∀ digits, e.cause ≠ .invalidInteger digits) ∧
        ∀ digits, e.cause = .invalidInteger digits →
          e.lexeme = "" ∧ ∃ skipped, consumed = skipped ++ digits.toList ∧
            Trivia (digits.toList ++ rest) skipped := by
  intro l l' consumed rest he
  have ho : l.Over o text := (over_plain o text).readTokens n
  obtain ⟨skipped, gathered, r, l₁, h⟩ := exists_reads ho.builder_eq ho.idle
  have hl' : l' = l₁ := congrArg Prod.snd h.readToken_eq
  have hcons : consumed = skipped ++ gathered := by
    rw [← h.consumed_eq ho, ← hl']
  have hrest : l₁.stream.view = rest := by
    rw [(h.over ho).view_eq, ← hl']
  rw [h.readToken_eq, ho.options_eq] at he
  cases r with
  | ok tok => cases he
  | error cause =>
    cases failure_inj (Except.error.inj he)
    rw [hcons, ← hrest]
    refine ⟨congrArg position hl'.symm, h.recordedText_iff, ?_⟩
    rintro digits rfl
    refine ⟨rfl, skipped, ?_, ?_⟩
    · rw [h.digits_eq.1]
    · rw [h.digits_eq.1]
      exact h.trivia

theorem readToken_error_located_sign :
    (plain {} ['-']).readToken.1 = .error (.reported ⟨.invalidInteger "-", 1, ""⟩) ∧
      (plain {} ['-']).readToken.2.position = 1 ∧
      ¬∃ skipped, ['-'] = skipped ++ "".toList ∧ Trivia [] skipped := by
  have he : (plain {} ['-']).readToken.1 = .error (.reported ⟨.invalidInteger "-", 1, ""⟩) := by
    decide +kernel
  have hpos : (plain {} ['-']).readToken.2.position = 1 := by
    decide +kernel
  refine ⟨he, hpos, ?_⟩
  intro hs
  obtain ⟨-, hiff, -⟩ := readToken_error_located {} ['-'] 0 ⟨.invalidInteger "-", 1, ""⟩ he
  have hpos' : ((plain {} ['-']).readTokens 0).2.readToken.2.position = 1 := hpos
  rw [hpos'] at hiff
  exact hiff.1 hs "-" rfl

end Lexer

end RewindLexer
