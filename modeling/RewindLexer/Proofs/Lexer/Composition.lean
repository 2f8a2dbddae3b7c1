import RewindLexer.Proofs.Lexer.Drivers

/-!
# Texts cut and joined

What a lexer makes of one text tells what it makes of others. Main statements: calls that stay three
characters away from where two texts part give the same answers on both; two texts joined by an end
of line give the tokens of the first and then those of the second; and the texts of tokens with
blanks between them give the tokens back.
-/

namespace RewindLexer

open Text

/-! ## Texts that begin alike -/

namespace Reference

variable {o : Options} {position n : Nat} {cs cs' rest : List Char}

theorem exists_append_of_take {before : List Char} {k : Nat}
    (h : (before ++ rest).take n = cs.take n) (hn : before.length + k ≤ n) :
    ∃ rest', cs = before ++ rest' ∧ rest'.take k = rest.take k := by
  refine ⟨cs.drop before.length, ?_, ?_⟩
  · have hb := congrArg (List.take before.length) h
    rw [List.take_take, List.take_take, Nat.min_eq_left (by omega), List.take_left] at hb
    nth_rewrite 1 [hb]
    exact (List.take_append_drop before.length cs).symm
  · have hk := congrArg (fun ds => (ds.drop before.length).take k) h
    simp only [List.drop_take, List.take_take, List.drop_left] at hk
    rw [Nat.min_eq_left (by omega)] at hk
    exact hk.symm

/-- A call that stops three characters before two texts part does not tell them apart. -/
theorem call_of_take (ht : cs.take n = cs'.take n)
    (hn : (call o position cs).2.1 + 3 ≤ position + n) :
    (call o position cs').1 = (call o position cs).1 ∧
      (call o position cs').2.1 = (call o position cs).2.1 := by
  by_cases hd : dropTrivia cs = []
  · -- The end of the first text has been seen, so there is no more of the second.
    rw [call_of_end position hd] at hn
    have hlt : cs.length + 3 ≤ n := Nat.le_of_add_le_add_left (a := position) hn
    rw [List.take_of_length_le (by omega)] at ht
    have hl := congrArg List.length ht
    rw [List.length_take] at hl
    rw [List.take_of_length_le (by omega)] at ht
    rw [ht]
    exact ⟨rfl, rfl⟩
  · cases hr : read o cs with
    | mk r rest =>
      obtain ⟨skipped, text, hp⟩ := exists_parted hr hd
      rw [hp.call_eq] at hn ⊢
      rw [hp.eq, ← List.append_assoc] at ht
      have hle : (skipped ++ text).length + 3 ≤ n := Nat.le_of_add_le_add_left (a := position) hn
      obtain ⟨rest', rfl, hrest⟩ := exists_append_of_take ht hle
      rw [List.append_assoc, (hp.of_take hrest).call_eq]
      exact ⟨rfl, rfl⟩

end Reference

namespace Lexer

universe u

variable {σ : Type u} [FusedSource σ Char] {l l' : Lexer Token (Tape σ)} {o : Options}
  {s t : List Char} {n : Nat}

theorem Over.readTokens_of_take (hl : l.Over o s) (hl' : l'.Over o t)
    (hp : l'.position = l.position) (ht : s.take n = t.take n) (k : Nat)
    (hn : ∀ p ∈ (l.readTokens k).1, p.2 + 3 ≤ n) :
    (l'.readTokens k).1 = (l.readTokens k).1 := by
  induction k generalizing l l' with
  | zero => rfl
  | succ k ih =>
    obtain ⟨l₁, hr, ho, -, hafter⟩ := hl.exists_call
    obtain ⟨l₁', hr', ho', -, hafter'⟩ := hl'.exists_call
    simp only [Lexer.readTokens, hr, List.forall_mem_cons] at hn
    have hview : l.stream.view.take (n - l.position) = l'.stream.view.take (n - l.position) := by
      rw [hl.view_eq, hl'.view_eq, hp, ← List.drop_take, ← List.drop_take, ht]
    rw [hp] at hr' hafter'
    have hnear : (Reference.call o l.position l.stream.view).2.1 + 3 ≤
        l.position + (n - l.position) := by
      rw [hafter]
      have hle := hn.1
      omega
    obtain ⟨hanswer, hpos⟩ := Reference.call_of_take hview hnear
    rw [hafter, hafter'] at hpos
    have hpos : l₁'.position = l₁.position := hpos
    simp only [Lexer.readTokens, hr, hr', hanswer, hpos, ih ho ho' hpos hn.2]

/-- Two texts have the same first `n` characters, and each of a number of calls on the one leaves
the lexer at least three characters before they may part. Then the calls on the other give the same
answers at the same positions. -/
theorem readTokens_eq_of_take (o : Options) (s t : List Char) (n k : Nat)
    (ht : s.take n = t.take n) (hn : ∀ p ∈ ((plain o s).readTokens k).1, p.2 + 3 ≤ n) :
    ((plain o t).readTokens k).1 = ((plain o s).readTokens k).1 :=
  (over_plain o s).readTokens_of_take (over_plain o t) rfl ht k hn

theorem readTokens_eq_of_take_hash :
    let o : Options := { emitSymbols := false }
    let s := ['a', '#', '#', ' ', '#']
    let t := ['a', '#', '#', ' ', '"', 'b']
    s.take 4 = t.take 4 ∧
      ((plain o s).readTokens 2).1 =
        [(.ok ⟨"a", .name "a"⟩, 1), (.error (.reported ⟨.noToken '#', 1, ""⟩), 1)] ∧
      ((plain o t).readTokens 2).1 = ((plain o s).readTokens 2).1 := by
  intro o s t
  have hs : ((plain o s).readTokens 2).1 =
      [(.ok ⟨"a", .name "a"⟩, 1), (.error (.reported ⟨.noToken '#', 1, ""⟩), 1)] := by
    decide +kernel
  refine ⟨rfl, hs, readTokens_eq_of_take o s t 4 2 rfl ?_⟩
  rw [hs]
  decide +kernel

end Lexer

/-! ## Texts joined at the end of a line -/

/-- The failure, `n` characters further on. -/
def Failure.shift (n : Nat) : Failure → Failure
  | .reported e => .reported { e with position := n + e.position }
  | .aborted e => .aborted { e with position := n + e.position }

def Lexer.Run.shift {τ : Type} (n : Nat) (r : Run τ) : Run τ where
  tokens := r.tokens.map fun p => (p.1, n + p.2)
  failure := r.failure.map (Failure.shift n)

theorem isBlank_of_endsLine {c : Char} (h : endsLine c = true) : isBlank c = true := by
  simp only [endsLine, Bool.or_eq_true, decide_eq_true_eq] at h
  rcases h with rfl | rfl <;> decide

/-- The end of a line also ends a comment that ran to the end of the input. -/
theorem Trivia.append_line {cs : List Char} {c : Char} (h : Trivia [] cs) (hc : endsLine c = true)
    (rest : List Char) : Trivia rest (cs ++ [c]) := by
  induction h with
  | nil => exact .blank (isBlank_of_endsLine hc) .nil
  | blank hb _ ih => exact .blank hb ih
  | comment hl hd _ ih =>
    simp only [List.cons_append, List.append_assoc]
    exact .comment hl hd ih
  | lastComment hl _ => exact .comment hl hc .nil

namespace Reference

variable {o : Options} {position : Nat} {cs rest skipped : List Char}

theorem call_shift (o : Options) (n position : Nat) (cs : List Char) :
    call o (n + position) cs =
      ((call o position cs).1.mapError (Failure.shift n), n + (call o position cs).2.1,
        (call o position cs).2.2) := by
  cases hr : read o cs with
  | mk r rest =>
    simp only [call, hr, Nat.add_assoc]
    cases r with
    | ok tok => rfl
    | error e =>
      simp only [Except.mapError, Options.failure]
      split <;> rfl

theorem lex_shift (o : Options) (n position : Nat) (cs : List Char) :
    lex o (n + position) cs = (lex o position cs).shift n := by
  fun_induction lex o position cs with
  | case1 position cs e position' rest h =>
    rw [lex_eq, call_shift, h]
    rfl
  | case2 position cs tok position' rest h ht =>
    rw [lex_eq, call_shift, h]
    exact if_pos ht
  | case3 position cs tok position' rest h ht ih =>
    rw [lex_eq, call_shift, h]
    simp only [Except.mapError, if_neg ht, ih]
    rfl

theorem trivia_of_end (h : dropTrivia cs = []) : Trivia [] cs := by
  obtain ⟨skipped, he, ht⟩ := exists_trivia cs
  rw [h] at he ht
  rwa [he, List.append_nil]

theorem length_read_le (o : Options) (cs : List Char) : (read o cs).2.length ≤ cs.length := by
  by_cases hd : dropTrivia cs = []
  · simp [read, hd]
  · cases hr : read o cs with
    | mk r rest =>
      obtain ⟨skipped, text, hp⟩ := exists_parted hr hd
      have hs : rest <:+ cs := ⟨skipped ++ text, by rw [List.append_assoc, ← hp.eq]⟩
      exact hs.length_le

theorem call_trivia (o : Options) (position : Nat) (h : Trivia rest skipped) :
    call o position (skipped ++ rest) = call o (position + skipped.length) rest := by
  have hd := dropTrivia_append h
  have hle := length_read_le o rest
  simp only [call, read_of_dropTrivia o hd, hd, List.length_append, Nat.add_assoc,
    Nat.add_sub_assoc hle]

theorem lex_trivia (o : Options) (position : Nat) (h : Trivia rest skipped) :
    lex o position (skipped ++ rest) = lex o (position + skipped.length) rest := by
  rw [lex_eq, call_trivia o position h, ← lex_eq]

/-- A text that lexes to its end is lexed in the same way in front of an end of line, after which
the next text is lexed from its beginning. -/
theorem lex_append_line {c : Char} (hc : endsLine c = true) (b : List Char) {a : List Char}
    (h : (lex o position a).failure = none) :
    lex o position (a ++ c :: b) =
      ⟨(lex o position a).tokens ++ (lex o (position + a.length + 1) b).tokens,
        (lex o (position + a.length + 1) b).failure⟩ := by
  fun_induction lex o position a with
  | case1 => cases h
  | case2 position cs tok position' rest hcall ht =>
    -- Only blanks and comments are left of `a`, and the end of line ends the last comment.
    have hd := (isEndOfFile_of_read (read_of_call hcall)).1 ht
    have hl := lex_trivia o position ((trivia_of_end hd).append_line hc b)
    rw [List.append_assoc, List.length_append] at hl
    exact hl
  | case3 position cs tok position' rest hcall ht ih =>
    obtain ⟨skipped, text, hp, rfl⟩ := exists_parted_of_call hcall ht
    have hm : Delimits (c :: b) := delimits_cons (isBlank_of_endsLine hc) b
    have hl : position + (skipped ++ text).length + rest.length = position + cs.length := by
      rw [hp.eq]
      simp only [List.length_append]
      omega
    rw [(hp.append hm).lex_eq, ih h, hl]
    rfl

end Reference

/-- If the iterator finishes the text `a` without failure, then on `a`, an end of line and `b` it
gives what it gave on `a` and then all that it gives on `b`, further on by what is in front. -/
theorem Lexer.run_append_line (o : Options) (a b : List Char) (c : Char) (hc : c = '\n' ∨ c = '\r')
    (ts : List (Token × Nat)) (h : (plain o a).run.1 = ⟨ts, none⟩) :
    (plain o (a ++ c :: b)).run.1 =
      ⟨ts ++ ((plain o b).run.1.shift (a.length + 1)).tokens,
        ((plain o b).run.1.shift (a.length + 1)).failure⟩ := by
  have hline : endsLine c = true := by
    rcases hc with rfl | rfl <;> rfl
  simp only [run_plain] at h ⊢
  rw [Reference.lex_append_line hline b (by rw [h]), h, ← Reference.lex_shift,
    Nat.zero_add, Nat.add_zero]

theorem Lexer.run_append_line_comment :
    let a := ['x', ' ', '-', '1', '#', '#', '#', '"']
    let b := ['y', ' ', '"', 'z']
    (plain {} a).run.1 = ⟨[(⟨"x", .name "x"⟩, 1), (⟨"-1", .integer (-1)⟩, 4)], none⟩ ∧
      (plain {} (a ++ '\r' :: b)).run.1 =
        ⟨[(⟨"x", .name "x"⟩, 1), (⟨"-1", .integer (-1)⟩, 4), (⟨"y", .name "y"⟩, 10)],
          some (.reported ⟨.unterminatedQuote '"', 13, "\"z"⟩)⟩ := by
  intro a b
  have ha : (plain {} a).run.1 = ⟨[(⟨"x", .name "x"⟩, 1), (⟨"-1", .integer (-1)⟩, 4)], none⟩ :=
    congrArg₂ Run.mk (by decide +kernel) (by decide +kernel)
  have hb : (plain {} b).run.1 =
      ⟨[(⟨"y", .name "y"⟩, 1)], some (.reported ⟨.unterminatedQuote '"', 4, "\"z"⟩)⟩ :=
    congrArg₂ Run.mk (by decide +kernel) (by decide +kernel)
  have h := run_append_line {} a b '\r' (.inr rfl) _ ha
  rw [hb] at h
  exact ⟨ha, h⟩

/-! ## Texts of tokens -/

namespace Reference

variable {o : Options} {cs rest skipped text : List Char} {tok : Token}

/-- The token is read back from its text, wherever a blank or nothing comes after it. -/
def Standalone (o : Options) (tok : Token) : Prop :=
  ∀ more, Delimits more → Parted o (tok.lexeme.toList ++ more) [] tok.lexeme.toList (.ok tok) more

theorem Parted.standalone (h : Parted o cs skipped text (.ok tok) rest) : Standalone o tok := by
  have hl : tok.lexeme.toList = text := by
    rw [lexeme_of_read h.read_eq, h.dropTrivia_eq, taken_append, String.toList_ofList]
  intro more hm
  rw [hl]
  exact h.alone hm

theorem standalone_of_lex (o : Options) (position : Nat) (cs : List Char) :
    ∀ p ∈ (lex o position cs).tokens, Standalone o p.1 := by
  fun_induction lex o position cs with
  | case1 => exact fun _ hp => nomatch hp
  | case2 => exact fun _ hp => nomatch hp
  | case3 position cs tok position' rest hcall ht ih =>
    obtain ⟨skipped, text, hp, -⟩ := exists_parted_of_call hcall ht
    exact List.forall_mem_cons.2 ⟨hp.standalone, ih⟩

theorem lex_intercalate {c : Char} (hc : isBlank c = true) (position : Nat) {ts : List Token}
    (h : ∀ tok ∈ ts, Standalone o tok) :
    (lex o position ([c].intercalate (ts.map (·.lexeme.toList)))).toExcept = .ok ts := by
  induction ts generalizing position with
  | nil =>
    rw [List.map_nil, List.intercalate_nil, lex_of_end o position dropTrivia_nil]
    rfl
  | cons tok ts ih =>
    obtain ⟨htok, hts⟩ := List.forall_mem_cons.1 h
    cases ts with
    | nil =>
      have hp := htok [] delimits_nil
      rw [List.append_nil] at hp
      rw [List.map_singleton, List.intercalate_singleton, hp.lex_eq,
        lex_of_end o _ dropTrivia_nil]
      rfl
    | cons tok' ts =>
      have hd : ∀ more, Delimits ([c] ++ more) := delimits_cons hc
      simp only [List.map_cons] at ih ⊢
      rw [List.intercalate_cons_cons, List.append_assoc, (htok _ (hd _)).lex_eq,
        lex_trivia o _ (.blank hc .nil), Lexer.Run.toExcept_cons, ih _ hts]
      rfl

end Reference

/-- The texts of the tokens of a text, with blanks or ends of line between them, give the tokens
back. -/
theorem Lexer.toList_intercalate (o : Options) (text : List Char) (ts : List Token)
    (h : (plain o text).toList.1 = .ok ts) (c : Char) (hc : c = ' ' ∨ c = '\n') :
    (plain o ([c].intercalate (ts.map (·.lexeme.toList)))).toList.1 = .ok ts := by
  have hblank : isBlank c = true := by
    rcases hc with rfl | rfl <;> decide
  rw [toList_plain] at h ⊢
  refine Reference.lex_intercalate hblank 0 fun tok ht => ?_
  rw [← Run.tokens_of_toExcept h] at ht
  obtain ⟨p, hp, rfl⟩ := List.mem_map.1 ht
  exact Reference.standalone_of_lex o 0 text p hp

theorem Lexer.toList_intercalate_touching :
    let text := ['#', '#', '<', '\'', '#', '#', '#', '\'', '-', '1', 'a']
    let ts : List Token := [⟨"#", .symbol "#"⟩, ⟨"#<", .symbol "#<"⟩, ⟨"'###'", .string "###" '\''⟩,
      ⟨"-1", .integer (-1)⟩, ⟨"a", .name "a"⟩]
    (plain {} text).toList.1 = .ok ts ∧
      (plain {} "# #< '###' -1 a".toList).toList.1 = .ok ts := by
  intro text ts
  have h : (plain {} text).toList.1 = .ok ts := by
    decide +kernel
  exact ⟨h, toList_intercalate {} text ts h ' ' (.inl rfl)⟩

end RewindLexer
