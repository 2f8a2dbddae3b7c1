import RewindLexer.Lexer.Reference
import RewindLexer.Proofs.Tape.Took

/-!
# Skipping blanks and comments

`Trivia rest cs` says which texts may stand between tokens. `Reference.dropTrivia` takes the longest
such text off the front of the input, and `skipTrivia` moves a tape to exactly where it ends.
-/

namespace RewindLexer

open Text

/-- The text in front of `rest` consists of blanks and comments. A comment runs through the end of
its line, or to the end of the input. -/
inductive Trivia (rest : List Char) : List Char → Prop where
  | nil : Trivia rest []
  | blank {c : Char} {cs : List Char} (hc : isBlank c = true) (h : Trivia rest cs) :
    Trivia rest (c :: cs)
  | comment {line : List Char} {c : Char} {cs : List Char} (hl : ∀ d ∈ line, endsLine d = false)
    (hc : endsLine c = true) (h : Trivia rest cs) :
    Trivia rest ('#' :: '#' :: '#' :: (line ++ c :: cs))
  | lastComment {line : List Char} (hl : ∀ d ∈ line, endsLine d = false) (hr : rest = []) :
    Trivia rest ('#' :: '#' :: '#' :: line)

namespace Reference

/-! ## Lines -/

theorem afterLine_nil : afterLine [] = [] :=
  rfl

theorem afterLine_cons (c : Char) (cs : List Char) :
    afterLine (c :: cs) = if endsLine c then cs else afterLine cs := by
  cases hc : endsLine c with
  | true => simp [afterLine, hc]
  | false => simp [afterLine, hc]

theorem afterLine_append {line : List Char} (hl : ∀ d ∈ line, endsLine d = false) (cs : List Char) :
    afterLine (line ++ cs) = afterLine cs := by
  induction line with
  | nil => rfl
  | cons d line ih =>
    rw [List.cons_append, afterLine_cons, hl d List.mem_cons_self]
    exact ih fun d hd => hl d (List.mem_cons_of_mem _ hd)

/-- A line ends with an end of line, or with the input. -/
theorem exists_line (cs : List Char) :
    ∃ line, (∀ d ∈ line, endsLine d = false) ∧
      ((∃ c, endsLine c = true ∧ cs = line ++ c :: afterLine cs) ∨
        cs = line ∧ afterLine cs = []) := by
  induction cs with
  | nil => exact ⟨[], by simp, .inr ⟨rfl, rfl⟩⟩
  | cons c cs ih =>
    rw [afterLine_cons]
    cases hc : endsLine c with
    | true => exact ⟨[], by simp, .inl ⟨c, hc, rfl⟩⟩
    | false =>
      obtain ⟨line, hl, ho⟩ := ih
      refine ⟨c :: line, ?_, ?_⟩
      · intro d hd
        rcases List.mem_cons.1 hd with rfl | hd
        · exact hc
        · exact hl d hd
      · rcases ho with ⟨d, hd, he⟩ | ⟨he, hn⟩
        · exact .inl ⟨d, hd, congrArg (c :: ·) he⟩
        · exact .inr ⟨congrArg (c :: ·) he, hn⟩

/-! ## Blanks and comments -/

theorem dropTrivia_nil : dropTrivia [] = [] := by
  rw [dropTrivia]

theorem dropTrivia_cons (c : Char) (cs : List Char) :
    dropTrivia (c :: cs) =
      if ['#', '#', '#'].isPrefixOf (c :: cs) then dropTrivia (afterLine (cs.drop 2))
      else if isBlank c then dropTrivia cs
      else c :: cs := by
  rw [dropTrivia]

theorem isBlank_hash : isBlank '#' = false := by
  decide

theorem dropTrivia_comment (cs : List Char) :
    dropTrivia ('#' :: '#' :: '#' :: cs) = dropTrivia (afterLine cs) := by
  rw [dropTrivia_cons, if_pos (by simp)]
  rfl

theorem dropTrivia_blank {c : Char} (hc : isBlank c = true) (cs : List Char) :
    dropTrivia (c :: cs) = dropTrivia cs := by
  have hne : c ≠ '#' := by
    rintro rfl
    rw [isBlank_hash] at hc
    cases hc
  rw [dropTrivia_cons, if_neg, if_pos hc]
  simp [List.isPrefixOf_cons_cons, Ne.symm hne]

/-- What is dropped consists of blanks and comments. -/
theorem exists_trivia (cs : List Char) :
    ∃ skipped, cs = skipped ++ dropTrivia cs ∧ Trivia (dropTrivia cs) skipped := by
  fun_induction dropTrivia cs with
  | case1 => exact ⟨[], rfl, .nil⟩
  | case2 c cs hp ih =>
    obtain ⟨skipped, he, ht⟩ := ih
    obtain ⟨ds, hds⟩ := List.isPrefixOf_iff_prefix.1 hp
    simp only [List.cons_append, List.nil_append, List.cons.injEq] at hds
    obtain ⟨rfl, rfl⟩ := hds
    simp only [List.drop_succ_cons, List.drop_zero] at he ht ⊢
    obtain ⟨line, hl, ⟨c, hc, hd⟩ | ⟨hd, hn⟩⟩ := exists_line ds
    · refine ⟨'#' :: '#' :: '#' :: (line ++ c :: skipped), ?_, .comment hl hc ht⟩
      simp only [List.cons_append, List.append_assoc, ← he, ← hd]
    · rw [hn, dropTrivia_nil]
      refine ⟨'#' :: '#' :: '#' :: line, ?_, .lastComment hl rfl⟩
      rw [List.append_nil, ← hd]
  | case3 c cs _ hc ih =>
    obtain ⟨skipped, he, ht⟩ := ih
    exact ⟨c :: skipped, congrArg (c :: ·) he, .blank hc ht⟩
  | case4 c cs => exact ⟨[], rfl, .nil⟩

theorem dropTrivia_append {rest cs : List Char} (h : Trivia rest cs) :
    dropTrivia (cs ++ rest) = dropTrivia rest := by
  induction h with
  | nil => rfl
  | blank hc _ ih => rw [List.cons_append, dropTrivia_blank hc, ih]
  | comment hl hc _ ih =>
    simp only [List.cons_append, List.append_assoc, dropTrivia_comment]
    rw [afterLine_append hl, afterLine_cons, if_pos hc, ih]
  | lastComment hl hr =>
    cases hr
    rw [List.cons_append, List.cons_append, List.cons_append, dropTrivia_comment,
      afterLine_append hl, afterLine_nil]

/-- No text of blanks and comments in front of the input is longer than what is dropped. -/
theorem length_dropTrivia_le {rest cs : List Char} (h : Trivia rest cs) :
    (dropTrivia (cs ++ rest)).length ≤ rest.length := by
  rw [dropTrivia_append h]
  obtain ⟨skipped, he, -⟩ := exists_trivia rest
  have hs : dropTrivia rest <:+ rest := ⟨skipped, he.symm⟩
  exact hs.length_le

end Reference

/-! ## On a tape -/

namespace Tape

open Reference

universe u

variable {σ : Type u} [FusedSource σ Char] {t : Tape σ}

theorem reaches_skipLine (h : t.Sound) : t.Reaches (afterLine t.view) (skipLine t) := by
  fun_induction skipLine t with
  | case1 t e t' hn =>
    have ht := (took_of_next_error h hn).2
    refine ht.reaches_of_eq ?_
    rw [view_of_next_error h hn]
    rfl
  | case2 t c t' hn hc =>
    have ht := took_next h hn
    refine ht.reaches_of_eq ?_
    rw [ht.view]
    simp only [List.cons_append, List.nil_append, afterLine_cons, if_pos hc]
  | case3 t c t' hn hc ih =>
    have ht := took_next h hn
    have hr := ht.trans_reaches (ih ht.sound)
    rw [ht.view]
    simp only [List.cons_append, List.nil_append, afterLine_cons, if_neg hc]
    exact hr

theorem reaches_skipComment (h : t.Sound) {cs : List Char} (hv : t.view = '#' :: '#' :: cs) :
    t.Reaches (afterLine cs) (skipComment t) := by
  have h₁ := took_skip h hv
  have hv₁ : (CharStream.skip t).view = '#' :: cs := List.append_cancel_left (h₁.view.symm.trans hv)
  have h₂ := took_skip h₁.sound hv₁
  have hv₂ : (CharStream.skip (CharStream.skip t)).view = cs :=
    List.append_cancel_left (h₂.view.symm.trans hv₁)
  have h₃ := reaches_skipLine h₂.sound
  rw [hv₂] at h₃
  exact (h₁.trans h₂).trans_reaches h₃

theorem opensComment_eq (h : t.Sound) (c : Char) :
    (opensComment c t).1 = ['#', '#', '#'].isPrefixOf (c :: t.view) := by
  rw [List.isPrefixOf_cons_cons, opensComment]
  split
  · rename_i hc
    rw [isNextList_eq h, hc]
    rfl
  · rename_i hc
    simp [Ne.symm hc]

theorem took_opensComment {σ : Type u} [FiniteSource σ Char] {t : Tape σ} (h : t.Sound) (c : Char) :
    t.Took [] (opensComment c t).2 := by
  rw [opensComment]
  split
  · exact took_isNextList h _
  · exact Took.refl h

/-- A character is consumed, and whether it opens a comment can be read off the input. -/
theorem took_readComment {t₁ t₂ t₃ : Tape σ} {b b' : Bool} {c : Char} (h : t.Sound)
    (hn : CharStream.hasNext t = (b, t₁)) (hnext : CharStream.next t₁ = (.ok c, t₂))
    (ho : opensComment c t₂ = (b', t₃)) :
    t.Took [c] t₃ ∧ t.view = c :: t₃.view ∧ ['#', '#', '#'].isPrefixOf t.view = b' := by
  have ht := took_read h hn hnext
  have ho' := took_opensComment ht.sound c
  have he := opensComment_eq ht.sound c
  rw [ho] at ho' he
  have hv : t.view = c :: t₂.view := ht.view
  have ht₃ := ht.trans ho'
  refine ⟨ht₃, ht₃.view, ?_⟩
  rw [hv]
  exact he.symm

/-- Blanks and comments are skipped without failing. -/
theorem agrees_skipTrivia (h : t.Sound) :
    t.Agrees (.ok (), dropTrivia t.view) (skipTrivia t) := by
  fun_induction skipTrivia t with
  | case1 t t₁ hn =>
    obtain ⟨hv, ht⟩ := took_of_hasNext_false h hn
    refine ⟨rfl, ht.reaches_of_eq ?_⟩
    rw [hv, dropTrivia_nil, List.append_nil]
  | case2 t t₁ hn e t₂ hnext => exact absurd hnext (not_next_error_of_hasNext h hn)
  | case3 t t₁ hn c t₂ hnext t₃ ho ih =>
    obtain ⟨ht, hv, hp⟩ := took_readComment h hn hnext ho
    obtain ⟨cs, hcs⟩ := List.isPrefixOf_iff_prefix.1 hp
    have hv₃ : t₃.view = '#' :: '#' :: cs := (List.cons.inj (hcs.trans hv)).2.symm
    have hc := reaches_skipComment ht.sound hv₃
    have ha := ht.trans_agrees (hc.trans_agrees (ih hc.sound))
    rw [hc.view_eq, ← dropTrivia_comment] at ha
    rw [← hcs]
    exact ha
  | case4 t t₁ hn c t₂ hnext t₃ ho hc ih =>
    obtain ⟨ht, hv, hp⟩ := took_readComment h hn hnext ho
    rw [hv, dropTrivia_cons, ← hv, hp, if_neg (by simp), if_pos hc]
    exact ht.trans_agrees (ih ht.sound)
  | case5 t t₁ hn c t₂ hnext t₃ ho hc =>
    obtain ⟨ht, hv, hp⟩ := took_readComment h hn hnext ho
    have ht : t.Took ([] ++ [c]) t₃ := ht
    obtain ⟨t', he, ht'⟩ := ht.unread
    rw [he, hv, dropTrivia_cons, ← hv, hp, if_neg (by simp), if_neg hc]
    exact ⟨rfl, ht'.reaches_of_eq rfl⟩

end Tape

end RewindLexer
