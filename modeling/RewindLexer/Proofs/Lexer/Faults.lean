import RewindLexer.Proofs.Lexer.Capped
import RewindLexer.Proofs.Stream.Obliging
import RewindLexer.Proofs.Tape.Window
import RewindLexer.Stream.Misreporting

/-!
# How a call can fail

The readers use their tape in the right way: what they put back is what they consumed last, what
they undo is there, and what they consume has been seen before. Main statement: whatever has been
done with its tape beforehand, and whether or not its source goes on after it has said that there is
nothing, or never ends, a lexer fails for reasons that lie in the text only. On a stream that says
wrong things about what lies ahead, a lexer still puts back and undoes only what it has consumed.
-/

namespace RewindLexer

open Text

theorem LexError.blamesText_iff (e : LexError) :
    e.blamesText = true ↔ e.isDefect = false ∧ e ≠ .endOfInput := by
  cases e <;> simp [blamesText, isDefect]

namespace Tape

universe u

variable {σ : Type u} [FiniteSource σ Char] {t t₁ : Tape σ} {c : Char}

/-! ## The tape takes back what it gave -/

/-- The read of a character, or past the end, can be undone while recording. -/
theorem backUp_nextD (h : t.Sound) (hr : t.recording = true) (d : Char) :
    ∃ t', CharStream.backUp (CharStream.nextD t d).2 = (.ok (), t') ∧ t'.Sound := by
  have hs := (moves_backUp ((moves_nextD h d).sound h)).sound ((moves_nextD h d).sound h)
  refine ⟨(CharStream.backUp (CharStream.nextD t d).2).2, ?_, hs⟩
  refine Prod.ext ?_ rfl
  simp only [CharStream.backUp, CharStream.nextD, Tape.nextD]
  split
  · -- Reads past the end come first; if there are none, the character has been recorded.
    simp only [Tape.backUp, consumed, if_pos hr]
    split <;> rfl
  · rfl

theorem recording_nextD (t : Tape σ) (d : Char) :
    (CharStream.nextD t d).2.recording = t.recording := by
  simp only [CharStream.nextD, Tape.nextD]
  split <;> rfl

variable (σ) in
/-- A sound tape lets a scanner put back and undo what it has consumed last. -/
def obliging : Obliging (Tape σ) where
  rest := Sound
  held c t := ∃ t₀ : Tape σ, t₀.Took [c] t
  taping t := t.Sound ∧ t.recording = true
  undoable t := (t.Sound ∧ t.recording = true) ∧
    ∃ t', CharStream.backUp t = (.ok (), t') ∧ t'.Sound
  rest_of_held := fun ⟨_, h⟩ => h.sound
  rest_of_taping := And.left
  taping_of_undoable := And.left
  hasNext h := (took_hasNext h).sound
  peek h := (took_peek h).sound
  isNext c h := (took_isNext h c).sound
  isNextList text := fun ⟨t₀, h⟩ => ⟨t₀, h.trans (took_isNextList h.sound text)⟩
  held_of_next h hn := ⟨_, took_next h hn⟩
  taping_of_next h hn :=
    have ht := took_next h.1 hn
    ⟨ht.sound, ht.recording.trans h.2⟩
  rest_of_next_error h hn :=
    have ht := took_of_next_error h hn
    ⟨ht.1, ht.2.sound⟩
  nextD c h := (moves_nextD h c).sound h
  undoable_nextD {t} c h :=
    ⟨⟨(moves_nextD h.1 c).sound h.1, (recording_nextD t c).trans h.2⟩, backUp_nextD h.1 h.2 c⟩
  unread := fun ⟨_, h⟩ =>
    have ⟨t', hu, ht'⟩ := Took.unread (show Took _ ([] ++ [_]) _ from h)
    ⟨t', hu, ht'.sound⟩
  backUp := And.right
  startRecording h := ⟨h, rfl⟩
  stopRecording h := h

/-! ## Blanks and comments -/

theorem skipTrivia_ok (h : t.Sound) : ∃ t', skipTrivia t = (.ok (), t') ∧ t'.Sound := by
  fun_induction skipTrivia t with
  | case1 t t₁ hn =>
    have ht := took_hasNext h
    rw [hn] at ht
    exact ⟨t₁, rfl, ht.sound⟩
  | case2 t t₁ hn e t₂ hnext => exact absurd hnext (not_next_error_of_hasNext h hn)
  | case3 t t₁ hn c t₂ hnext t₃ ho ih =>
    have ht := took_opensComment (took_read h hn hnext).sound c
    rw [ho] at ht
    exact ih ((obliging σ).skipComment ht.sound)
  | case4 t t₁ hn c t₂ hnext t₃ ho hc ih =>
    have ht := took_opensComment (took_read h hn hnext).sound c
    rw [ho] at ht
    exact ih ht.sound
  | case5 t t₁ hn c t₂ hnext t₃ ho hc =>
    -- Nothing but looking ahead lies between consuming the character and putting it back.
    have ht := took_read h hn hnext
    have ht' := took_opensComment ht.sound c
    rw [ho] at ht'
    have htook : t.Took ([] ++ [c]) t₃ := ht.trans ht'
    obtain ⟨t', hu, hback⟩ := htook.unread
    exact ⟨t', hu, hback.sound⟩

/-! ## Runs -/

/-- A run is consumed without failing, and it is not empty if it begins with the character that
waits. -/
theorem takeRun_ok (p : Char → Bool) (h : t.Sound) :
    ∃ cs t', takeRun p t = (.ok (), t') ∧ t.Took cs t' ∧
      ∀ c, t.Pins c → p c = true → cs ≠ [] := by
  fun_induction takeRun p t with
  | case1 t t₁ hn =>
    have ht := took_hasNext h
    rw [hn] at ht
    refine ⟨[], t₁, rfl, ht, ?_⟩
    intro c hp
    rw [hp.hasNext] at hn
    cases hn
  | case2 t t₁ hn e t₂ hnext => exact absurd hnext (not_next_error_of_hasNext h hn)
  | case3 t t₁ hn c t₂ hnext hc ih =>
    have ht := took_read h hn hnext
    obtain ⟨cs, t', he, ht', -⟩ := ih ht.sound
    exact ⟨c :: cs, t', he, ht.trans ht', fun _ _ _ => List.cons_ne_nil c cs⟩
  | case4 t t₁ hn c t₂ hnext hc =>
    have ht : t.Took ([] ++ [c]) t₂ := took_read h hn hnext
    obtain ⟨t', he, ht'⟩ := ht.unread
    refine ⟨[], t', he, ht', ?_⟩
    -- The character read is the one that waits, so it belongs to the run.
    intro d hp hd
    rw [hp.hasNext] at hn
    cases hn
    obtain ⟨t₃, hnext', -⟩ := hp.next
    rw [hnext'] at hnext
    cases hnext
    exact absurd hd hc

/-! ## Kinds of tokens -/

variable {τ : Type} (b : TokenBuilder τ)

theorem safe_gatherName (h : t.Pins c) (hc : isAlphabetic c = true) :
    Safe Sound (·.blamesText = true) (gatherName b t) := by
  obtain ⟨cs, t₁, he, ht, hne⟩ := takeRun_ok isNameChar h.startRecording.sound
  have hcs : cs ≠ [] := hne c h.startRecording (by simp [isNameChar, hc])
  have hl : (CharStream.stopRecording t₁).1 = cs := ht.log_start
  rw [gatherName, Scan.bind_act, Scan.bind_eq_of_ok he, Scan.bind_ask, hl, if_neg]
  · exact .ok _ ht.sound
  · simpa using hcs

theorem safe_gatherString (limit : Nat) (h : t.Pins c) (hc : isQuote c = true) :
    Safe Sound (·.blamesText = true) (gatherString b limit t) := by
  obtain ⟨t₁, hn, ht⟩ := h.startRecording.next
  rw [gatherString, Scan.bind_act, Scan.bind_eq_of_ok hn, if_pos hc]
  refine ((obliging σ).closedString limit c ht.sound).bind ?_
  intro value t₂ h₂
  exact .ok _ h₂

theorem safe_gatherInteger (h : t.Pins c) :
    Safe Sound (·.blamesText = true) (gatherInteger b t) := by
  obtain ⟨t₁, hn, ht⟩ := h.startRecording.next
  obtain ⟨t₂, hb, h₂⟩ := (obliging σ).backUp ((obliging σ).takeDigits ⟨ht.sound, ht.recording⟩)
  rw [gatherInteger, Scan.bind_act, Scan.bind_eq_of_ok hn, Scan.bind_act, Scan.bind_eq_of_ok hb,
    Scan.bind_ask]
  cases Numeral.int64? (CharStream.stopRecording t₂).1 with
  | some value => exact .ok _ h₂
  | none => exact .error h₂ rfl

theorem safe_gatherChar (h : t.Pins c) : Safe Sound (·.blamesText = true) (gatherChar b t) := by
  obtain ⟨t₁, hn, ht⟩ := h.startRecording.next
  rw [gatherChar, Scan.bind_act, Scan.bind_eq_of_ok hn, Scan.bind_ask]
  exact .ok _ ht.sound

theorem safe_gatherSymbol (h : t.Pins c) : Safe Sound (·.blamesText = true) (gatherSymbol b t) := by
  obtain ⟨t₁, hn, ht⟩ := h.startRecording.next
  obtain ⟨cs, t₂, hr, ht₂, -⟩ := takeRun_ok isSign ht.sound
  rw [gatherSymbol, Scan.bind_act, Scan.bind_eq_of_ok hn, Scan.bind_eq_of_ok hr, Scan.bind_ask]
  exact .ok _ ht₂.sound

theorem safe_gather (o : Options) (h : t.Pins c) :
    Safe Sound (·.blamesText = true) (gather b o c t) := by
  rw [gather]
  split
  · exact safe_gatherName b h ‹_›
  split
  · exact safe_gatherString b o.maxEntityLength h ‹_›
  split
  · exact safe_gatherInteger b h
  split
  · exact safe_gatherChar b h
  split
  · exact safe_gatherSymbol b h
  · exact .error h.sound rfl

theorem safe_scan (o : Options) (h : t.Sound) : Safe Sound (·.blamesText = true) (scan b o t) := by
  obtain ⟨t₁, hs, h₁⟩ := skipTrivia_ok h
  rw [scan, Scan.bind_eq_of_ok hs, Scan.bind_ask]
  cases hn : CharStream.hasNext t₁ with
  | mk more t₂ =>
    cases more with
    | false =>
      have ht := took_hasNext h₁
      rw [hn] at ht
      exact .ok _ ht.sound
    | true =>
      -- From here on the token starts with `c`, whatever the source says when it is asked again.
      obtain ⟨c, hp⟩ := pins_of_hasNext h₁ hn
      rw [if_pos rfl, Scan.bind_ask, hp.peekD]
      exact safe_gather b o hp

end Tape

/-! ## Streams that misreport -/

namespace Misreporting

universe u

variable {S : Type u}

theorem eq_of_step {α : Type} {m m₁ : Misreporting S} {f : S → α × S} {a : α}
    (h : m.step f = (a, m₁)) : f m.stream = (a, m₁.stream) := by
  cases h
  rfl

/-- A stream that misreports takes back what it gave if the one below it does. -/
def obliging [CharStream S] (A : Obliging S) : Obliging (Misreporting S) where
  rest m := A.rest m.stream
  held c m := A.held c m.stream
  taping m := A.taping m.stream
  undoable m := A.undoable m.stream
  rest_of_held := A.rest_of_held
  rest_of_taping := A.rest_of_taping
  taping_of_undoable := A.taping_of_undoable
  hasNext := A.hasNext
  peek := A.peek
  isNext := A.isNext
  isNextList := A.isNextList
  held_of_next h hn := A.held_of_next h (eq_of_step hn)
  taping_of_next h hn := A.taping_of_next h (eq_of_step hn)
  rest_of_next_error h hn := A.rest_of_next_error h (eq_of_step hn)
  nextD := A.nextD
  undoable_nextD := A.undoable_nextD
  unread {m c} h := by
    obtain ⟨s, hs, h⟩ := A.unread h
    exact ⟨{ m with stream := s }, by simp only [CharStream.unread, step, hs], h⟩
  backUp {m} h := by
    obtain ⟨s, hs, h⟩ := A.backUp h
    exact ⟨{ m with stream := s }, by simp only [CharStream.backUp, step, hs], h⟩
  startRecording := A.startRecording
  stopRecording := A.stopRecording

end Misreporting

/-! ## Call after call -/

namespace Lexer

universe u

variable {τ : Type} {σ : Type u}

/-- The calls fail, if at all, in a way in which scanning fails. -/
theorem readTokens_safe {S : Type u} [FiniteStream S] (A : Obliging S) {P : LexError → Prop}
    {l : Lexer τ S} (h : A.rest l.stream)
    (hscan : ∀ s, A.rest s → Safe A.rest P (scan l.builder l.options s)) (n : Nat) :
    ∀ answer ∈ (l.readTokens n).1, ∀ f, answer.1 = .error f →
      ∃ e : LocatedError, f = l.options.failure e ∧ P e.cause := by
  induction n generalizing l with
  | zero =>
    intro answer ha
    cases ha
  | succ n ih =>
    obtain ⟨hrest, hfail⟩ := A.readToken (hscan l.stream h)
    intro answer ha
    rcases List.mem_cons.1 ha with rfl | ha
    · exact hfail
    · have hlater : answer ∈ (l.readToken.2.readTokens n).1 := ha
      rw [l.readToken_snd] at hlater
      exact ih (l := { l with stream := l.readToken.2.stream }) hrest hscan answer hlater

/-- Each failure among the answers has a cause that lies in the text: it is no defect, and not just
that there is no more input. -/
def BlameText (o : Options) (answers : List (Except Failure τ × Nat)) : Prop :=
  ∀ answer ∈ answers, ∀ f, answer.1 = .error f →
    ∃ e : LocatedError, f = o.failure e ∧ e.cause.blamesText = true ∧
      e.cause.isDefect = false ∧ e.cause ≠ .endOfInput

theorem blameText_of_sound [FiniteSource σ Char] {l : Lexer τ (Tape σ)} (h : l.stream.Sound)
    (n : Nat) : BlameText l.options (l.readTokens n).1 := by
  intro answer ha f hf
  obtain ⟨e, he, hb⟩ := readTokens_safe (Tape.obliging σ) h
    (fun _ => Tape.safe_scan l.builder l.options) n answer ha f hf
  exact ⟨e, he, hb, (e.cause.blamesText_iff).1 hb⟩

/-- Whatever has been done with a tape before, whether it records, what it has recorded, how many
reads past the end it has counted and what has been put in front of it: each call of a lexer on it,
those after a failure included, fails for one of the reasons that lie in the text, if it fails. The
source may never end: the calls are those under a cap on the answers that it gives from then on, and
any greater cap makes no difference to calls that leave one of these answers unread. A finite source
needs no cap. -/
theorem readTokens_blamesText [Source σ Char] (b : TokenBuilder τ) (o : Options) (source : σ)
    (before : List (Lookahead.Op Char)) (history : List Tape.Op) (k n : Nat) :
    let t := Tape.reached source before history
    let calls := (capped b o t k).readTokens n
    BlameText o calls.1 ∧
      (0 < calls.2.stream.ahead.source.left →
        ∀ more, ((capped b o t (k + more)).readTokens n).1 = calls.1) ∧
      ∀ [FiniteSource σ Char],
        BlameText o (readTokens { builder := b, stream := t, options := o } n).1 := by
  intro t calls
  have hs : t.Sound := (Tape.tidy_reached source before history).sound
  refine ⟨?_, readTokens_capped_add, ?_⟩
  · exact blameText_of_sound (l := capped b o t k) hs n
  · intro _
    exact blameText_of_sound (l := { builder := b, stream := t, options := o }) hs n

/-- A source that never ends, with a gap in the strings that it gives. -/
theorem readTokens_blamesText_gap :
    let source : Endless Char :=
      ⟨fun n => [some '"', some 'a', none, some '-'][n % 4]?.join, 0⟩
    let t := Tape.reached source [.unread ' '] [.startRecording, .move (.nextD '?'), .move .hasNext]
    let calls := (capped Token.builder {} t 9).readTokens 2
    let f := Failure.reported ⟨.unterminatedQuote '"', 3, "\"a"⟩
    (.error f, 3) ∈ calls.1 ∧ 0 < calls.2.stream.ahead.source.left ∧
      (∃ e : LocatedError, f = Options.failure {} e ∧ e.cause.blamesText = true ∧
        e.cause.isDefect = false ∧ e.cause ≠ .endOfInput) ∧
      ∀ more, ((capped Token.builder {} t (9 + more)).readTokens 2).1 = calls.1 := by
  intro source t calls f
  obtain ⟨hblame, hmore, -⟩ := readTokens_blamesText Token.builder {} source [.unread ' ']
    [.startRecording, .move (.nextD '?'), .move .hasNext] 9 2
  have ha : (.error f, 3) ∈ calls.1 := by decide +kernel
  have hleft : 0 < calls.2.stream.ahead.source.left := by decide +kernel
  exact ⟨ha, hleft, hblame _ ha f rfl, hmore hleft⟩

/-- A lexer that is told wrong things about what lies ahead may take a token for another kind, or
find that there is no more text. But even so it puts back and undoes only what it has consumed last,
call after call. -/
theorem readTokens_misreported [FiniteSource σ Char] (l : Lexer τ (Misreporting (Tape σ)))
    (h : l.stream.stream.Sound) (n : Nat) :
    ∀ answer ∈ (l.readTokens n).1, ∀ f, answer.1 = .error f →
      ∃ e : LocatedError, f = l.options.failure e ∧ e.cause.blamesUndo = false :=
  let A := Misreporting.obliging (Tape.obliging σ)
  readTokens_safe A h (fun _ => A.scan l.builder l.options) n

/-- A name is announced, and none is there. -/
example : (({ builder := Token.builder, stream := ⟨.ofSource ['('], none, some 'a'⟩ } :
    Lexer Token (Misreporting (Tape (List Char)))).readTokens 1).1 =
      [(.error (.reported ⟨.emptyName, 0, ""⟩), 0)] := by
  decide +kernel

end Lexer

end RewindLexer
