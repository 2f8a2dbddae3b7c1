import RewindLexer.Proofs.Lexer.Locality
import RewindLexer.Proofs.Lexer.Lossless

/-!
# Symbols

A symbol is a sign with all the signs after it, or a `#` that opens no comment with all the signs
after it. Main statement: a lexer answers a symbol exactly if one comes next; it is a run of signs
or `#` alone, unless signs come right after its `#`.
-/

namespace RewindLexer

open Text

/-- A symbol in front of `rest`. -/
structure Symbol (text rest : List Char) : Prop where
  starts : ∃ c signs, text = c :: signs ∧ (isSign c = true ∨ c = '#') ∧ ∀ s ∈ signs, isSign s = true
  stops : ∀ s ∈ rest.head?, isSign s = false
  not_comment : ¬['#', '#', '#'] <+: text ++ rest

/-- The longest run of signs, with no `#` in it. -/
structure SignRun (text rest : List Char) : Prop where
  ne_nil : text ≠ []
  signs : ∀ s ∈ text, isSign s = true
  no_hash : '#' ∉ text
  stops : ∀ s ∈ rest.head?, isSign s = false

theorem isSign_hash : isSign '#' = false := by
  decide

theorem toNat_lt_of_isSign {c : Char} (h : isSign c = true) : c.toNat < 128 := by
  simp only [isSign, isPunctuation, Bool.and_eq_true, Bool.or_eq_true, decide_eq_true_eq] at h
  have hle : c ≤ '~' := by
    rcases h.1.1.1.1.1 with ((h | h) | h) | h
    all_goals exact Char.le_trans h.2 (by decide)
  exact Nat.lt_of_le_of_lt hle (by decide)

/-- No other token starts with a sign or `#`, and neither is a blank. -/
theorem classes_of_isSign {c : Char} (h : isSign c = true ∨ c = '#') :
    isAlphabetic c = false ∧ isQuote c = false ∧ (Numeral.isDigit c || c = '-') = false ∧
      isSeparator c = false ∧ isBlank c = false := by
  have hc : c.toNat < 128 := by
    rcases h with h | rfl
    · exact toNat_lt_of_isSign h
    · decide
  revert h
  apply forall_ascii _ hc
  decide +kernel

/-- Only the signs after a `#` make a symbol neither a run of signs nor `#` alone. -/
theorem Symbol.signRun_or_hash_iff {text rest : List Char} (h : Symbol text rest) :
    SignRun text rest ∨ text = ['#'] ↔ ∀ s signs, text ≠ '#' :: s :: signs := by
  obtain ⟨c, signs, rfl, hc, hs⟩ := h.starts
  constructor
  · rintro (hrun | heq) s signs' htext
    · apply hrun.no_hash
      simp [htext]
    · simp [heq] at htext
  · intro hne
    rcases hc with hc | rfl
    · refine .inl ⟨List.cons_ne_nil c signs, ?_, ?_, h.stops⟩
      · intro s hmem
        rcases List.mem_cons.1 hmem with rfl | hmem
        · exact hc
        · exact hs s hmem
      · -- a `#` is no sign, so it can only come first
        intro hmem
        have hhash : isSign '#' = true := by
          rcases List.mem_cons.1 hmem with rfl | hmem
          · exact hc
          · exact hs '#' hmem
        rw [isSign_hash] at hhash
        cases hhash
    · cases signs with
      | nil => exact .inr rfl
      | cons s signs => exact absurd rfl (hne s signs)

namespace Reference

variable {o : Options} {c : Char} {cs rest : List Char} {lexeme value : String}

theorem token_of_sign (ho : o.emitSymbols = true) (hc : isSign c = true ∨ c = '#')
    (cs : List Char) :
    token o c cs =
      (.ok ⟨String.ofList (c :: (run isSign cs).1),
          .symbol (String.ofList (c :: (run isSign cs).1))⟩,
        (run isSign cs).2) := by
  obtain ⟨hname, hquote, hdigit, hchar, -⟩ := classes_of_isSign hc
  have hsign : (isSign c || c = '#') = true := by simpa using hc
  simp [token, hname, hquote, hdigit, hchar, ho, hsign]

theorem read_symbol_iff :
    read o cs = (.ok ⟨lexeme, .symbol value⟩, rest) ↔
      o.emitSymbols = true ∧ value = lexeme ∧ Symbol lexeme.toList rest ∧
        ∃ skipped, cs = skipped ++ (lexeme.toList ++ rest) ∧
          Trivia (lexeme.toList ++ rest) skipped := by
  constructor
  · intro h
    obtain ⟨skipped, hcs, hs⟩ := exists_trivia cs
    have hbare := dropTrivia_dropTrivia cs
    rw [read] at h
    split at h
    · cases h
    · rename_i c ds hd
      rw [hd] at hcs hs hbare
      obtain ⟨ho, hc⟩ := starts_of_token h
      rw [token_of_sign ho hc] at h
      cases hr : run isSign ds with
      | mk signs tail =>
        rw [hr] at h
        cases h
        obtain ⟨rfl, hsigns, hstops⟩ := run_eq_iff.1 hr
        rw [String.toList_ofList]
        exact ⟨ho, rfl, ⟨⟨c, signs, rfl, hc, hsigns⟩, hstops, (dropTrivia_eq_self_iff.1 hbare).2⟩,
          skipped, hcs, hs⟩
  · rintro ⟨ho, rfl, ⟨⟨c, signs, htext, hc, hsigns⟩, hstops, hcomment⟩, skipped, rfl, hs⟩
    rw [htext, List.cons_append] at hs hcomment ⊢
    have hbare : dropTrivia (c :: (signs ++ rest)) = c :: (signs ++ rest) := by
      rw [dropTrivia_eq_self_iff]
      refine ⟨?_, hcomment⟩
      rintro d ⟨⟩
      exact (classes_of_isSign hc).2.2.2.2
    have hrun : run isSign (signs ++ rest) = (signs, rest) :=
      run_eq_iff.2 ⟨rfl, hsigns, hstops⟩
    rw [read_of_dropTrivia o (dropTrivia_append hs), read_of_bare o hbare, token_of_sign ho hc,
      hrun, ← htext, String.ofList_toList]

theorem hash_token_eq_iff (ho : o.emitSymbols = true) :
    (token o '#' cs).1 = .ok ⟨"#", .symbol "#"⟩ ↔ ∀ s ∈ cs.head?, isSign s = false := by
  rw [token_of_sign ho (.inr rfl)]
  cases hr : run isSign cs with
  | mk signs tail =>
    obtain ⟨rfl, hsigns, hstops⟩ := run_eq_iff.1 hr
    cases signs with
    | nil => exact ⟨fun _ => hstops, fun _ => rfl⟩
    | cons s signs =>
      constructor
      · intro h
        have hlist := congrArg String.toList (Token.mk.inj (Except.ok.inj h)).1
        simp at hlist
      · intro h
        have hs := h s rfl
        rw [hsigns s List.mem_cons_self] at hs
        cases hs

end Reference

namespace Lexer

/-- After any number of calls, the next call answers a symbol exactly if one comes next behind
blanks and comments. The symbol is a run of signs or `#` alone exactly unless signs come right after
its `#`; so where a `#` comes next that opens no comment, it is a symbol by itself only if no sign
follows it. -/
theorem readToken_symbol_iff (o : Options) (text : List Char) (n : Nat) :
    let l := ((plain o text).readTokens n).2
    let call := l.readToken
    (∀ lexeme value rest,
      call.1 = .ok ⟨lexeme, .symbol value⟩ ∧ deliver call.2.stream = rest ↔
        o.emitSymbols = true ∧ value = lexeme ∧ Symbol lexeme.toList rest ∧
          ∃ skipped, deliver l.stream = skipped ++ (lexeme.toList ++ rest) ∧
            Trivia (lexeme.toList ++ rest) skipped) ∧
    (∀ lexeme value, call.1 = .ok ⟨lexeme, .symbol value⟩ →
      (SignRun lexeme.toList (deliver call.2.stream) ∨ lexeme = "#" ↔
        ∀ s signs, lexeme.toList ≠ '#' :: s :: signs)) ∧
    ∀ skipped cs, o.emitSymbols = true → deliver l.stream = skipped ++ '#' :: cs →
      Trivia ('#' :: cs) skipped → ¬['#', '#', '#'] <+: '#' :: cs →
      (call.1 = .ok ⟨"#", .symbol "#"⟩ ↔ ∀ s ∈ cs.head?, isSign s = false) := by
  intro l call
  have ho : l.Over o text := (over_plain o text).readTokens n
  obtain ⟨before, gathered, r, l', h⟩ := exists_reads ho.builder_eq ho.idle
  have hiff : ∀ lexeme value rest,
      call.1 = .ok ⟨lexeme, .symbol value⟩ ∧ deliver call.2.stream = rest ↔
        o.emitSymbols = true ∧ value = lexeme ∧ Symbol lexeme.toList rest ∧
          ∃ skipped, deliver l.stream = skipped ++ (lexeme.toList ++ rest) ∧
            Trivia (lexeme.toList ++ rest) skipped := by
    intro lexeme value rest
    rw [h.answer_iff, ho.options_eq, deliver_eq ho.idle.sound, Reference.read_symbol_iff]
  refine ⟨hiff, ?_, ?_⟩
  · intro lexeme value hcall
    obtain ⟨-, -, hsymbol, -⟩ := (hiff lexeme value _).1 ⟨hcall, rfl⟩
    rw [← hsymbol.signRun_or_hash_iff, ← String.toList_inj]
    rfl
  · intro skipped cs hemit hd hs hcomment
    have hbare : Reference.dropTrivia ('#' :: cs) = '#' :: cs := by
      rw [Reference.dropTrivia_eq_self_iff]
      refine ⟨?_, hcomment⟩
      rintro d ⟨⟩
      exact Reference.isBlank_hash
    rw [deliver_eq ho.idle.sound] at hd
    obtain ⟨gathered, l', h, -⟩ := exists_reads_token ho.builder_eq ho.idle hd hs hbare
    rw [← Reference.hash_token_eq_iff hemit, ← ho.options_eq]
    exact h.ok_iff

/-- Signs right after a `#` belong to its symbol. -/
theorem readToken_symbol_iff_hash :
    let l := ((plain {} ['#', '=']).readTokens 0).2
    l.readToken.1 = .ok ⟨"#=", .symbol "#="⟩ ∧ deliver l.readToken.2.stream = [] ∧
      ¬(SignRun ['#', '='] [] ∨ "#=" = "#") ∧
      ¬l.readToken.1 = .ok ⟨"#", .symbol "#"⟩ := by
  intro l
  have hcall : l.readToken.1 = .ok ⟨"#=", .symbol "#="⟩ := by
    decide +kernel
  have hrest : deliver l.readToken.2.stream = [] := by
    decide +kernel
  have hd : deliver l.stream = [] ++ ['#', '='] := by
    decide +kernel
  obtain ⟨-, hshape, halone⟩ := readToken_symbol_iff {} ['#', '='] 0
  refine ⟨hcall, hrest, ?_, ?_⟩
  · intro hrun
    have hiff := hshape "#=" "#=" hcall
    rw [hrest] at hiff
    exact hiff.1 hrun '=' [] rfl
  · intro hhash
    have hstop := (halone [] ['='] rfl hd .nil (by decide)).1 hhash '=' rfl
    cases hstop

end Lexer

end RewindLexer
