import RewindLexer.Proofs.Lexer.Requests
import RewindLexer.Proofs.Source.Arrival
import RewindLexer.Proofs.Tape.Took

/-!
# Kinds of sources

Tapes that show the same characters are twins, whatever their sources are and however much of them
waits in their lookaheads. Main statement: it makes no difference to a lexer whether it is given a
text, the decoded bytes of the text, or a reader on which the bytes arrive in parts.
-/

namespace RewindLexer

open Text

universe u v

/-! ## Twins -/

namespace Tape

variable {σ : Type u} {σ' : Type v} [FusedSource σ Char] [FusedSource σ' Char]

/-- Two tapes over sources of any kinds have the same past and show the same characters. -/
structure Twin (t : Tape σ) (t' : Tape σ') : Prop where
  sound : t.Sound
  sound' : t'.Sound
  view : t.view = t'.view
  position : t.position = t'.position
  recording : t.recording = t'.recording
  log : t.log = t'.log
  endCount : t.endCount = t'.endCount

namespace Twin

variable {t t₁ : Tape σ} {t' t₁' : Tape σ'} {cs : List Char}

/-- Twins from which the same has been consumed are twins. -/
theorem took (h : t.Twin t') (ht : t.Took cs t₁) (ht' : t'.Took cs t₁') : t₁.Twin t₁' where
  sound := ht.sound
  sound' := ht'.sound
  view := List.append_cancel_left (ht.view.symm.trans (h.view.trans ht'.view))
  position := by rw [ht.position, ht'.position, h.position]
  recording := by rw [ht.recording, ht'.recording, h.recording]
  log := by rw [ht.log, ht'.log, h.recording, h.log]
  endCount := by rw [ht.endCount, ht'.endCount, h.endCount]

theorem hasNext (h : t.Twin t') :
    Same Twin (CharStream.hasNext t) (CharStream.hasNext t') where
  answer := by rw [hasNext_eq h.sound, hasNext_eq h.sound', h.view]
  left := h.took (took_hasNext h.sound) (took_hasNext h.sound')

theorem peek (h : t.Twin t') : Same Twin (CharStream.peek t) (CharStream.peek t') where
  answer := by rw [peek_eq h.sound, peek_eq h.sound', h.view]
  left := h.took (took_peek h.sound) (took_peek h.sound')

theorem isNext (h : t.Twin t') (c : Char) :
    Same Twin (CharStream.isNext t c) (CharStream.isNext t' c) where
  answer := by rw [isNext_eq h.sound, isNext_eq h.sound', h.view]
  left := h.took (took_isNext h.sound c) (took_isNext h.sound' c)

theorem isNextList (h : t.Twin t') (text : List Char) :
    Same Twin (CharStream.isNextList t text) (CharStream.isNextList t' text) where
  answer := by rw [isNextList_eq h.sound, isNextList_eq h.sound', h.view]
  left := h.took (took_isNextList h.sound text) (took_isNextList h.sound' text)

theorem next (h : t.Twin t') : Same Twin (CharStream.next t) (CharStream.next t') := by
  cases hn : CharStream.next t with
  | mk answer t₁ =>
    cases answer with
    | ok c =>
      have ht := took_next h.sound hn
      obtain ⟨t₁', hn', ht'⟩ := next_cons h.sound' (h.view.symm.trans ht.view)
      rw [hn']
      exact ⟨rfl, h.took ht ht'⟩
    | error e =>
      obtain ⟨rfl, ht⟩ := took_of_next_error h.sound hn
      have hv := h.view.symm.trans (view_of_next_error h.sound hn)
      cases hn' : CharStream.next t' with
      | mk answer' t₁' =>
        cases answer' with
        | ok c =>
          have hcons := hv.symm.trans (took_next h.sound' hn').view
          cases hcons
        | error e' =>
          obtain ⟨rfl, ht'⟩ := took_of_next_error h.sound' hn'
          exact ⟨rfl, h.took ht ht'⟩

theorem nextD (h : t.Twin t') (d : Char) :
    Same Twin (CharStream.nextD t d) (CharStream.nextD t' d) := by
  have hview := h.view
  rcases took_nextD h.sound d with ⟨c, cs, hv, ha, ht⟩ | ⟨hv, ha, t₁, ht, he⟩
  · rcases took_nextD h.sound' d with ⟨c', cs', hv', ha', ht'⟩ | ⟨hv', -⟩
    · rw [hv, hv'] at hview
      cases hview
      exact ⟨ha.trans ha'.symm, h.took ht ht'⟩
    · rw [hv, hv'] at hview
      cases hview
  · rcases took_nextD h.sound' d with ⟨c', cs', hv', -⟩ | ⟨hv', ha', t₁', ht', he'⟩
    · rw [hv, hv'] at hview
      cases hview
    · refine ⟨ha.trans ha'.symm, ?_⟩
      have h₁ := h.took ht ht'
      rw [he, he']
      exact { h₁ with endCount := congrArg (· + 1) h₁.endCount }

theorem putBack (h : t.Twin t') (c : Char) (log : List Char) :
    (t.putBack c log).Twin (t'.putBack c log) := by
  have hs := Lookahead.Sound.unread h.sound c
  have hs' := Lookahead.Sound.unread h.sound' c
  refine ⟨hs.1, hs'.1, ?_, congrArg (· - 1) h.position, h.recording, rfl, h.endCount⟩
  exact hs.2.trans ((congrArg (c :: ·) h.view).trans hs'.2.symm)

theorem unread (h : t.Twin t') (c : Char) :
    Same Twin (CharStream.unread t c) (CharStream.unread t' c) := by
  simp only [CharStream.unread, Tape.unread, h.recording, h.log]
  split
  · split
    · exact ⟨rfl, h⟩
    · split
      · exact ⟨rfl, h.putBack c _⟩
      · exact ⟨rfl, h⟩
  · exact ⟨rfl, h.putBack c _⟩

theorem backUp (h : t.Twin t') : Same Twin (CharStream.backUp t) (CharStream.backUp t') := by
  simp only [CharStream.backUp, Tape.backUp, h.endCount, h.log]
  split
  · exact ⟨rfl, { h with log := rfl, endCount := rfl }⟩
  · split
    · exact ⟨rfl, h⟩
    · exact ⟨rfl, h.putBack _ _⟩

theorem startRecording (h : t.Twin t') : t.startRecording.Twin t'.startRecording :=
  { h with recording := rfl, log := rfl, endCount := rfl }

theorem stopRecording (h : t.Twin t') :
    Same Twin (CharStream.stopRecording t) (CharStream.stopRecording t') where
  answer := congrArg List.reverse h.log
  left := { h with recording := rfl, log := rfl, endCount := rfl }

end Twin

variable (σ σ') in
/-- A scanner cannot tell twins apart. -/
def twins : Alike (Tape σ) (Tape σ') where
  rest := Twin
  held := Twin
  undoable := Twin
  rest_of_held := id
  rest_of_undoable := id
  hasNext := Twin.hasNext
  peek := Twin.peek
  isNext c h := h.isNext c
  isNextList h := h.isNextList _
  next := Twin.next
  held_of_next h _ := h.next.left
  nextD c h := h.nextD c
  unread c h := h.unread c
  backUp := Twin.backUp
  startRecording := Twin.startRecording
  stopRecording := Twin.stopRecording
  isRecording := Twin.recording
  position := Twin.position

theorem twin_ofSource {s : σ} {s' : σ'}
    (h : FiniteSource.remaining s = FiniteSource.remaining s') :
    (ofSource s).Twin (ofSource s') where
  sound := Lookahead.sound_of_source s
  sound' := Lookahead.sound_of_source s'
  view := (Lookahead.view_of_source s).trans (h.trans (Lookahead.view_of_source s').symm)
  position := rfl
  recording := rfl
  log := rfl
  endCount := rfl

end Tape

/-! ## Readers -/

namespace ByteReader

variable {d : Utf8.Decoder}

theorem characters_eq_all (hfirst : d.TakesFirst) (hall : d.DecodesAll) (r : ByteReader d) :
    r.characters = d.all r.upcoming := by
  fun_induction characters r with
  | case1 r r' hn => exact (next_none hall hn).1.symm
  | case2 r c r' hn ih => rw [(next_some hfirst hall hn).1, ih]

theorem characters_of_goesOn (hfirst : d.TakesFirst) (hall : d.DecodesAll) {reads : List Read}
    (h : ∀ read ∈ reads, read.goesOn = true) :
    ({ reads := reads } : ByteReader d).characters = d.all (reads.flatMap Read.chunk) := by
  rw [characters_eq_all hfirst hall, upcoming_of_not_exhausted rfl, Read.delivered,
    List.takeWhile_eq_self_iff.2 h]
  rfl

end ByteReader

/-! ## Lexers -/

namespace Lexer

variable {τ : Type}

/-- A lexer of the characters that a source hands out. -/
def ofSource {σ : Type u} (b : TokenBuilder τ) (o : Options) (source : σ) : Lexer τ (Tape σ) where
  builder := b
  stream := .ofSource source
  options := o

theorem performAll_ofSource {σ : Type u} {σ' : Type v} [FusedSource σ Char] [FusedSource σ' Char]
    {s : σ} {s' : σ'} (h : FiniteSource.remaining s = FiniteSource.remaining s')
    (b : TokenBuilder τ) (o : Options) (requests : List Request) :
    ((ofSource b o s).performAll requests).1 = ((ofSource b o s').performAll requests).1 := by
  have hl : (Tape.twins σ σ').Lexers (ofSource b o s) (ofSource b o s') :=
    ⟨rfl, rfl, rfl, Tape.twin_ofSource h⟩
  exact (hl.performAll requests).answer

/-- Whatever is asked of a lexer, it replies the same at the same positions on a text, on the
decoded bytes of the text, and on a reader that gets the bytes in any parts, however interrupted. -/
theorem performAll_source_kinds {d : Utf8.Decoder} (hfirst : d.TakesFirst) (hall : d.DecodesAll)
    (b : TokenBuilder τ) (o : Options) (text : List Char) (reads : List Read)
    (hreads : ∀ read ∈ reads, read.goesOn = true)
    (hbytes : reads.flatMap Read.chunk = text.flatMap String.utf8EncodeChar)
    (requests : List Request) :
    let onText : Lexer τ (Tape (List Char)) := { ofText b text with options := o }
    let onBytes := ofSource b o (d.all (text.flatMap String.utf8EncodeChar))
    let onReader := ofSource b o ({ reads := reads } : ByteReader d)
    (onBytes.performAll requests).1 = (onText.performAll requests).1 ∧
      (onReader.performAll requests).1 = (onText.performAll requests).1 := by
  intro onText onBytes onReader
  have hreader : ({ reads := reads } : ByteReader d).characters = text := by
    rw [ByteReader.characters_of_goesOn hfirst hall hreads, hbytes, hall.all_encode]
  refine ⟨?_, ?_⟩
  · exact performAll_ofSource (hall.all_encode text) b o requests
  · exact performAll_ofSource hreader b o requests

/-- A character in two parts with an interruption between them. -/
theorem performAll_source_kinds_split :
    let text : List Char := ['λ', ' ', '7', '€']
    let reads : List Read :=
      [.bytes [0xCE], .failed ⟨.interrupted, "again"⟩, .bytes [0xBB, 0x20, 0x37, 0xE2],
        .bytes [0x82, 0xAC]]
    let requests : List Request := [.readToken, .next, .toList]
    let onText : Lexer Token (Tape (List Char)) := ofText Token.builder text
    let onBytes := ofSource Token.builder {} (Utf8.decode (text.flatMap String.utf8EncodeChar))
    let onReader := ofSource Token.builder {} ({ reads := reads } : ByteReader Utf8.decoder)
    (∀ read ∈ reads, read.goesOn = true) ∧
      reads.flatMap Read.chunk = text.flatMap String.utf8EncodeChar ∧
      (onBytes.performAll requests).1 = (onText.performAll requests).1 ∧
      (onReader.performAll requests).1 = (onText.performAll requests).1 := by
  intro text reads requests onText onBytes onReader
  have hreads : ∀ read ∈ reads, read.goesOn = true := by
    decide
  have hbytes : reads.flatMap Read.chunk = text.flatMap String.utf8EncodeChar := by
    decide
  exact ⟨hreads, hbytes,
    performAll_source_kinds Utf8.takesFirst_decoder Utf8.decodesAll_decoder Token.builder {} text
      reads hreads hbytes requests⟩

end Lexer

end RewindLexer
