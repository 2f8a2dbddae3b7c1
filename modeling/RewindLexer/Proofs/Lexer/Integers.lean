import RewindLexer.Proofs.Lexer.Locality
import RewindLexer.Proofs.Lexer.Lossless
import RewindLexer.Proofs.Text.Numeral

/-!
# Integers

Main statement: a lexer answers an integer exactly if a numeral of 64 bits comes next, with the
number that the numeral denotes; any other numeral is refused as a whole. So the digits of an
integer are read back as that integer.
-/

namespace RewindLexer

open Text

/-- Behind blanks and comments a digit or a minus sign comes next, with all the digits after it. -/
structure NumeralNext (input skipped numeral rest : List Char) : Prop where
  eq : input = skipped ++ (numeral ++ rest)
  trivia : Trivia (numeral ++ rest) skipped
  starts : ∃ c digits, numeral = c :: digits ∧ (Numeral.isDigit c = true ∨ c = '-') ∧
    ∀ d ∈ digits, Numeral.isDigit d = true
  stops : ∀ d ∈ rest.head?, Numeral.isDigit d = false

theorem toNat_lt_of_isDigit {c : Char} (h : Numeral.isDigit c = true) : c.toNat < 128 := by
  simp only [Numeral.isDigit, Bool.and_eq_true, decide_eq_true_eq] at h
  have hle : c.toNat ≤ '9'.toNat := h.2
  exact Nat.lt_of_le_of_lt hle (by decide)

/-- No other token starts with a digit or a minus sign, and neither is a blank or a plus sign. -/
theorem classes_of_isDigit {c : Char} (h : Numeral.isDigit c = true ∨ c = '-') :
    isAlphabetic c = false ∧ isQuote c = false ∧ isBlank c = false ∧ c ≠ '#' ∧ c ≠ '+' := by
  have hc : c.toNat < 128 := by
    rcases h with h | rfl
    · exact toNat_lt_of_isDigit h
    · decide
  revert h
  apply forall_ascii _ hc
  decide +kernel

theorem Text.Numeral.Denotes.starts {text : List Char} {z : Int} (h : Numeral.Denotes text z) :
    ∃ c digits, text = c :: digits ∧ (Numeral.isDigit c = true ∨ c = '-') ∧
      ∀ d ∈ digits, Numeral.isDigit d = true := by
  cases h with
  | natural h =>
    obtain ⟨hne, hdigits, -⟩ := h
    obtain ⟨c, digits, rfl⟩ := List.exists_cons_of_ne_nil hne
    simp only [List.forall_mem_cons] at hdigits
    exact ⟨c, digits, rfl, .inl hdigits.1, hdigits.2⟩
  | @negative digits n h => exact ⟨'-', digits, rfl, .inr rfl, h.2.1⟩

namespace NumeralNext

variable {input skipped numeral rest : List Char}

theorem head?_ne (h : NumeralNext input skipped numeral rest) : numeral.head? ≠ some '+' := by
  obtain ⟨c, digits, rfl, hc, -⟩ := h.starts
  simpa using (classes_of_isDigit hc).2.2.2.2

theorem dropTrivia_eq (h : NumeralNext input skipped numeral rest) :
    Reference.dropTrivia input = numeral ++ rest := by
  rw [h.eq, Reference.dropTrivia_append h.trivia, Reference.dropTrivia_eq_self_iff]
  obtain ⟨c, digits, rfl, hc, -⟩ := h.starts
  obtain ⟨-, -, hblank, hhash, -⟩ := classes_of_isDigit hc
  constructor
  · rintro d ⟨⟩
    exact hblank
  · intro hp
    exact hhash (List.cons_prefix_cons.1 hp).1.symm

end NumeralNext

namespace Reference

variable {o : Options} {c : Char} {cs skipped numeral rest : List Char} {lexeme : String}
  {v : Int64}

/-- The token that a numeral makes, if it is one of 64 bits. -/
def integerToken (numeral : List Char) : Except LexError Token :=
  match Numeral.int64? numeral with
  | some v => .ok ⟨String.ofList numeral, .integer v⟩
  | none => .error (.invalidInteger (String.ofList numeral))

theorem token_of_digit (o : Options) (hc : Numeral.isDigit c = true ∨ c = '-') (cs : List Char) :
    token o c cs =
      (integerToken (c :: (run Numeral.isDigit cs).1), (run Numeral.isDigit cs).2) := by
  obtain ⟨hname, hquote, -⟩ := classes_of_isDigit hc
  have hdigit : (Numeral.isDigit c || c = '-') = true := by simpa using hc
  rw [token, integerToken]
  simp only [hname, hquote, hdigit]
  cases Numeral.int64? (c :: (run Numeral.isDigit cs).1) with
  | some v => rfl
  | none => rfl

theorem integerToken_eq_ok_iff (hplus : numeral.head? ≠ some '+') :
    integerToken numeral = .ok ⟨lexeme, .integer v⟩ ↔
      lexeme.toList = numeral ∧ Numeral.Denotes numeral v.toInt := by
  rw [← Numeral.int64?_eq_some_iff hplus, integerToken]
  cases Numeral.int64? numeral with
  | none => simp
  | some w => simp [← String.toList_inj, eq_comm]

theorem read_of_numeral (o : Options) (h : NumeralNext cs skipped numeral rest) :
    read o cs = (integerToken numeral, rest) := by
  have hdrop := h.dropTrivia_eq
  obtain ⟨c, digits, rfl, hc, hdigits⟩ := h.starts
  have hrun : run Numeral.isDigit (digits ++ rest) = (digits, rest) :=
    run_eq_iff.2 ⟨rfl, hdigits, h.stops⟩
  rw [List.cons_append] at hdrop
  simp only [read, hdrop, token_of_digit o hc, hrun]

theorem numeral_of_read (h : read o cs = (.ok ⟨lexeme, .integer v⟩, rest)) :
    ∃ skipped, NumeralNext cs skipped lexeme.toList rest := by
  obtain ⟨skipped, hcs, hs⟩ := exists_trivia cs
  have hread := h
  rw [read] at h
  split at h
  · cases h
  · rename_i c ds hd
    rw [hd] at hcs hs
    have hc : Numeral.isDigit c = true ∨ c = '-' := starts_of_token h
    cases hr : run Numeral.isDigit ds with
    | mk digits tail =>
      obtain ⟨rfl, hdigits, hstops⟩ := run_eq_iff.1 hr
      have hnext : NumeralNext cs skipped (c :: digits) tail :=
        ⟨hcs, hs, ⟨c, digits, rfl, hc, hdigits⟩, hstops⟩
      -- reading the numeral found in the input again shows that it is the lexeme
      rw [read_of_numeral o hnext, Prod.mk.injEq, integerToken_eq_ok_iff hnext.head?_ne] at hread
      obtain ⟨⟨hlexeme, -⟩, rfl⟩ := hread
      rw [hlexeme]
      exact ⟨skipped, hnext⟩

theorem read_integer_iff :
    read o cs = (.ok ⟨lexeme, .integer v⟩, rest) ↔
      Numeral.Denotes lexeme.toList v.toInt ∧
        ∃ skipped, NumeralNext cs skipped lexeme.toList rest := by
  constructor
  · intro h
    obtain ⟨skipped, hnext⟩ := numeral_of_read h
    rw [read_of_numeral o hnext, Prod.mk.injEq, integerToken_eq_ok_iff hnext.head?_ne] at h
    exact ⟨h.1.2, skipped, hnext⟩
  · rintro ⟨hz, skipped, hnext⟩
    rw [read_of_numeral o hnext, (integerToken_eq_ok_iff hnext.head?_ne).2 ⟨rfl, hz⟩]

theorem read_invalid (h : NumeralNext cs skipped numeral rest)
    (hz : numeral = ['-'] ∨ ∃ z, Numeral.Denotes numeral z ∧ (z < -2 ^ 63 ∨ 2 ^ 63 - 1 < z)) :
    read o cs = (.error (.invalidInteger (String.ofList numeral)), rest) := by
  have hnone : Numeral.int64? numeral = none := by
    rcases hz with rfl | ⟨z, hd, hz⟩
    · rfl
    · exact hd.int64?_eq_none h.head?_ne hz
  rw [read_of_numeral o h, integerToken, hnone]

end Reference

namespace Lexer

theorem Over.readToken_integer_iff {o : Options} {text : List Char}
    {l : Lexer Token (Tape (List Char))} (ho : l.Over o text) {lexeme : String} {v : Int64}
    {rest : List Char} :
    l.readToken.1 = .ok ⟨lexeme, .integer v⟩ ∧ deliver l.readToken.2.stream = rest ↔
      Numeral.Denotes lexeme.toList v.toInt ∧
        ∃ skipped, NumeralNext (deliver l.stream) skipped lexeme.toList rest := by
  obtain ⟨skipped, gathered, r, l', h⟩ := exists_reads ho.builder_eq ho.idle
  rw [h.answer_iff, Reference.read_integer_iff, deliver_eq ho.idle.sound]

/-- After any number of calls, the next call answers an integer exactly if a numeral that denotes it
comes next behind blanks and comments, and leaves what comes after the numeral. A lone minus sign,
and a numeral out of the range of 64 bits, is consumed and refused. The decimal digits of an integer
are read back as that integer, in front of anything but a digit. -/
theorem readToken_integer_exact (o : Options) (text : List Char) (n : Nat) :
    let l := ((plain o text).readTokens n).2
    let call := l.readToken
    (∀ lexeme v rest, call.1 = .ok ⟨lexeme, .integer v⟩ ∧ deliver call.2.stream = rest ↔
      Numeral.Denotes lexeme.toList v.toInt ∧
        ∃ skipped, NumeralNext (deliver l.stream) skipped lexeme.toList rest) ∧
    (∀ lexeme v, call.1 = .ok ⟨lexeme, .integer v⟩ →
      -2 ^ 63 ≤ v.toInt ∧ v.toInt ≤ 2 ^ 63 - 1) ∧
    (∀ skipped numeral rest, NumeralNext (deliver l.stream) skipped numeral rest →
      (numeral = ['-'] ∨ ∃ z, Numeral.Denotes numeral z ∧ (z < -2 ^ 63 ∨ 2 ^ 63 - 1 < z)) →
      (∃ e : LocatedError, call.1 = .error (o.failure e) ∧
          e.cause = .invalidInteger (String.ofList numeral)) ∧
        deliver call.2.stream = rest) ∧
    ∀ (v : Int64) (rest : List Char), (∀ d ∈ rest.head?, Numeral.isDigit d = false) →
      let call := (plain o ((toString v.toInt).toList ++ rest)).readToken
      call.1 = .ok ⟨toString v.toInt, .integer v⟩ ∧ deliver call.2.stream = rest := by
  intro l call
  have ho : l.Over o text := (over_plain o text).readTokens n
  refine ⟨fun lexeme v rest => ho.readToken_integer_iff, ?_, ?_, ?_⟩
  · intro lexeme v _
    have hlt := v.toInt_lt
    exact ⟨v.le_toInt, by omega⟩
  · intro skipped numeral rest hnext hz
    obtain ⟨before, gathered, r, l', h⟩ := exists_reads ho.builder_eq ho.idle
    rw [deliver_eq ho.idle.sound] at hnext
    exact (h.cause_iff ho.options_eq).2 (Reference.read_invalid hnext hz)
  · intro v rest hstops
    have hplain := over_plain o ((toString v.toInt).toList ++ rest)
    have hz := Numeral.denotes_toString v.toInt
    refine hplain.readToken_integer_iff.2 ⟨hz, [], ?_, .nil, hz.starts, hstops⟩
    rw [deliver_eq hplain.idle.sound, hplain.view_eq]
    rfl

/-- The least integer of 64 bits, and the one below it behind a blank. -/
theorem readToken_integer_exact_least :
    let numeral := "-9223372036854775809".toList
    let text := ' ' :: (numeral ++ ['x'])
    let call := ((plain {} text).readTokens 0).2.readToken
    let least := (plain {} ("-9223372036854775808".toList ++ ['x'])).readToken
    NumeralNext (deliver ((plain {} text).readTokens 0).2.stream) [' '] numeral ['x'] ∧
      Numeral.Denotes numeral (-2 ^ 63 - 1) ∧
      ((∃ e : LocatedError, call.1 = .error (.reported e) ∧
          e.cause = .invalidInteger "-9223372036854775809") ∧ deliver call.2.stream = ['x']) ∧
      least.1 = .ok ⟨"-9223372036854775808", .integer Int64.minValue⟩ ∧
      deliver least.2.stream = ['x'] := by
  intro numeral text call least
  have hstops : ∀ d ∈ ['x'].head?, Numeral.isDigit d = false := by
    rintro d ⟨⟩
    rfl
  have hz : Numeral.Denotes numeral (-2 ^ 63 - 1) := by
    have hrow : Numeral.Row "9223372036854775809".toList 9223372036854775809 := by
      refine ⟨by decide, List.all_eq_true.1 (by decide), by decide⟩
    exact .negative hrow
  have hnext : NumeralNext (deliver ((plain {} text).readTokens 0).2.stream) [' '] numeral ['x'] :=
    ⟨by decide +kernel, .blank (by decide) .nil, hz.starts, hstops⟩
  obtain ⟨-, -, hfail, hrender⟩ := readToken_integer_exact {} text 0
  have hleast := hrender Int64.minValue ['x'] hstops
  exact ⟨hnext, hz, hfail [' '] numeral ['x'] hnext (.inr ⟨_, hz, by decide⟩), hleast⟩

end Lexer

end RewindLexer
