import RewindLexer.Proofs.Source.Arrival

/-!
# No read too many

A byte reader gives out its next character by making one read after the other until the bytes that
wait decide it; `reading` is the series of states in which it makes them. Main statement: whatever
is asked of a reader, a read is made only while at most three bytes wait that start no character;
the read that ends the input is the last one; after that no character comes back once there was
none, and its error is handed over once.
-/

namespace RewindLexer

open Text

namespace ByteReader

variable {d : Utf8.Decoder}

/-! ## One read -/

/-- What a read made now brings; after the last one, no bytes. -/
def brought (r : ByteReader d) : Read :=
  r.reads.headD (.bytes [])

/-- The reader after one read, whatever it has brought. -/
def readOnce (r : ByteReader d) : ByteReader d where
  reads := r.reads.tail
  pending := r.rest ++ r.brought.chunk
  start := 0
  exhausted := !r.brought.goesOn
  error := if r.brought.goesOn then r.error else r.brought.error?.or r.error
  fills := r.fills + 1

section

variable {r r' : ByteReader d} {c : Option Char} {answer : Option Char × ByteReader d}

theorem fill_with_reads (r : ByteReader d) (stale reads : List Read) :
    fill { r with reads := stale } reads = fill r reads := by
  induction reads generalizing r with
  | nil => rfl
  | cons read reads ih =>
    cases read with
    | bytes chunk => rfl
    | failed e =>
      simp only [fill]
      split
      · exact ih { r with fills := r.fills + 1 }
      · rfl

/-- A refill is one read, and the rest of the refill if that was merely interrupted. -/
theorem refill_cases (he : r.exhausted = false) :
    r.refill = r.readOnce ∨
      ∃ e, r.brought = .failed e ∧ e.kind = .interrupted ∧ r.refill = r.readOnce.refill := by
  cases hr : r.reads with
  | nil =>
    simp [refill, hr, fill, brought, readOnce, Read.goesOn, Read.chunk, Read.error?]
  | cons read reads =>
    cases read with
    | bytes chunk =>
      cases chunk with
      | nil => simp [refill, hr, fill, brought, readOnce, Read.goesOn, Read.chunk, Read.error?]
      | cons b chunk => simp [refill, hr, fill, brought, readOnce, Read.goesOn, Read.chunk, he]
    | failed e =>
      by_cases hk : e.kind = .interrupted
      · have hfill := fill_with_reads (d := d)
          { r with pending := r.rest, start := 0, fills := r.fills + 1 } reads reads
        refine .inr ⟨e, by simp [brought, hr], hk, ?_⟩
        simpa [refill, hr, fill, brought, readOnce, Read.goesOn, Read.chunk, hk, he, rest]
          using hfill.symm
      · simp [refill, hr, fill, brought, readOnce, Read.goesOn, Read.chunk, Read.error?, hk]

theorem next_of_answer? (h : r.answer? = some answer) : r.next = answer := by
  rw [next]
  split
  · simp_all
  · simp_all

/-- There is no answer as long as more bytes could decide what the first character is. -/
theorem answer?_eq_none_iff :
    r.answer? = none ↔
      r.exhausted = false ∧ (r.rest ≠ [] → ¬Utf8.Decided r.rest (d.first r.rest)) := by
  rw [answer?]
  cases hr : r.rest with
  | nil => cases he : r.exhausted <;> simp
  | cons b rest => cases he : r.exhausted <;> simp [Utf8.Decided]

theorem undecided_of_answer? (hfirst : d.TakesFirst) (h : r.answer? = none) :
    r.rest.length ≤ 3 ∧ ∀ n c, ¬String.utf8EncodeChar c <+: r.rest.drop n := by
  by_cases hne : r.rest = []
  · rw [hne]
    refine ⟨Nat.zero_le 3, ?_⟩
    intro n c
    rw [List.drop_nil]
    exact Utf8.not_encode_prefix_nil c
  · exact (hfirst _ hne).undecided ((answer?_eq_none_iff.1 h).2 hne)

theorem next_eq_next_refill (h : r.answer? = none) : r.next = r.refill.next := by
  rw [next]
  split
  · simp_all
  · rfl

theorem exists_answer_of_exhausted (he : r.exhausted = true) :
    ∃ answer, r.answer? = some answer := by
  cases ha : r.answer? with
  | none =>
    rw [exhausted_of_answer?_eq_none ha] at he
    cases he
  | some answer => exact ⟨answer, rfl⟩

/-- As long as the bytes that wait decide nothing, one read is made after the other. -/
theorem next_of_waiting (h : r.answer? = none) : r.next = r.readOnce.next := by
  rw [next_eq_next_refill h]
  rcases refill_cases (exhausted_of_answer?_eq_none h) with hr | ⟨e, hb, hk, hr⟩
  · rw [hr]
  · -- An interrupted read brings no bytes, so that they still decide nothing.
    have hwait : r.readOnce.answer? = none := by
      rw [answer?_eq_none_iff] at h ⊢
      simpa [readOnce, rest, hb, Read.chunk, Read.goesOn, hk] using h.2
    rw [hr, next_eq_next_refill hwait]

theorem readsLeft_readOnce_lt (h : r.answer? = none) : r.readOnce.readsLeft < r.readsLeft := by
  have he := exhausted_of_answer?_eq_none h
  cases hr : r.reads with
  | nil => simp [readsLeft, he, readOnce, brought, hr, Read.goesOn]
  | cons read reads =>
    simp only [readsLeft, he, readOnce, hr, List.tail_cons, List.length_cons]
    split <;> simp

end

/-! ## The reads of a call -/

/-- The states in which reads are made for the next character. -/
def reading (r : ByteReader d) : List (ByteReader d) :=
  match _h : r.answer? with
  | some _ => []
  | none => r :: reading r.readOnce
termination_by r.readsLeft
decreasing_by exact readsLeft_readOnce_lt _h

/-- What can be asked of a reader. -/
inductive Call where
  | next
  | takeError

/-- What it replies. -/
inductive Reply where
  | char (c : Option Char)
  | error (e : Option ReadError)
  deriving DecidableEq

def perform (r : ByteReader d) : Call → Reply × ByteReader d
  | .next => (.char r.next.1, r.next.2)
  | .takeError => (.error r.takeError.1, r.takeError.2)

def readingFor (r : ByteReader d) : Call → List (ByteReader d)
  | .next => r.reading
  | .takeError => []

/-- The replies to calls, and the reader after them. -/
def performAll (r : ByteReader d) : List Call → List Reply × ByteReader d
  | [] => ([], r)
  | call :: calls =>
    let (reply, r') := r.perform call
    let (replies, r'') := performAll r' calls
    (reply :: replies, r'')

/-- The states in which reads are made for calls. -/
def readingForAll (r : ByteReader d) : List Call → List (ByteReader d)
  | [] => []
  | call :: calls => r.readingFor call ++ readingForAll (r.perform call).2 calls

section

variable {script : List Read} {r r' : ByteReader d} {answer : Option Char × ByteReader d}
  {call : Call} {calls : List Call}

/-! ## What calls keep -/

/-- A reader that has made the first reads of a script. -/
structure Sound (script : List Read) (r : ByteReader d) : Prop where
  start_le : r.start ≤ r.pending.length
  error_eq : r.exhausted = false → r.error = none
  reads_eq : r.reads = script.drop r.fills

theorem sound_of_reads (script : List Read) :
    Sound script ({ reads := script } : ByteReader d) where
  start_le := Nat.le_refl 0
  error_eq _ := rfl
  reads_eq := rfl

/-- An answer takes bytes off and changes nothing else. -/
theorem exists_start_of_answer? (h : r.answer? = some answer) :
    ∃ k ≤ r.rest.length, answer.2 = { r with start := r.start + k } := by
  simp only [answer?] at h
  split at h
  · split at h
    · cases h
      exact ⟨0, Nat.zero_le _, rfl⟩
    · cases h
  · rename_i hne
    split at h
    · cases h
      exact ⟨_, d.size_le (by simpa using hne), rfl⟩
    · cases h

theorem Sound.of_answer? (h : Sound script r) (ha : r.answer? = some answer) :
    Sound script answer.2 := by
  obtain ⟨k, hk, hr⟩ := exists_start_of_answer? ha
  have hle := h.start_le
  rw [rest, List.length_drop] at hk
  rw [hr]
  exact ⟨by dsimp only; omega, h.error_eq, h.reads_eq⟩

theorem Sound.readOnce (h : Sound script r) (he : r.exhausted = false) :
    Sound script r.readOnce where
  start_le := Nat.zero_le _
  error_eq hx := by
    have hg : r.brought.goesOn = true := by
      simpa [ByteReader.readOnce] using hx
    simp [ByteReader.readOnce, hg, h.error_eq he]
  reads_eq := by
    simp [ByteReader.readOnce, h.reads_eq]

theorem Sound.next (h : Sound script r) : Sound script r.next.2 := by
  fun_induction reading r with
  | case1 r answer ha =>
    rw [next_of_answer? ha]
    exact h.of_answer? ha
  | case2 r ha ih =>
    rw [next_of_waiting ha]
    exact ih (h.readOnce (exhausted_of_answer?_eq_none ha))

theorem Sound.perform (h : Sound script r) (call : Call) : Sound script (r.perform call).2 := by
  cases call with
  | next => exact h.next
  | takeError => exact ⟨h.start_le, fun _ => rfl, h.reads_eq⟩

theorem Sound.performAll (h : Sound script r) (calls : List Call) :
    Sound script (r.performAll calls).2 := by
  induction calls generalizing r with
  | nil => exact h
  | cons call calls ih => exact ih (h.perform call)

/-! ## How many reads are made -/

theorem map_fills_reading (r : ByteReader d) :
    r.reading.map fills = List.range' r.fills r.reading.length ∧
      r.next.2.fills = r.fills + r.reading.length := by
  fun_induction reading r with
  | case1 r answer ha =>
    obtain ⟨k, -, hr⟩ := exists_start_of_answer? ha
    rw [next_of_answer? ha, hr]
    exact ⟨rfl, rfl⟩
  | case2 r ha ih =>
    obtain ⟨hm, hf⟩ := ih
    have hone : r.readOnce.fills = r.fills + 1 := rfl
    rw [next_of_waiting ha, hf, List.map_cons, hm, List.length_cons, List.range'_succ, hone]
    exact ⟨rfl, by omega⟩

theorem map_fills_readingFor (r : ByteReader d) (call : Call) :
    (r.readingFor call).map fills = List.range' r.fills (r.readingFor call).length ∧
      (r.perform call).2.fills = r.fills + (r.readingFor call).length := by
  cases call with
  | next => exact r.map_fills_reading
  | takeError => exact ⟨rfl, rfl⟩

theorem map_fills_readingForAll (r : ByteReader d) (calls : List Call) :
    (r.readingForAll calls).map fills = List.range' r.fills (r.readingForAll calls).length ∧
      (r.performAll calls).2.fills = r.fills + (r.readingForAll calls).length := by
  induction calls generalizing r with
  | nil => exact ⟨rfl, rfl⟩
  | cons call calls ih =>
    obtain ⟨hm, hf⟩ := r.map_fills_readingFor call
    obtain ⟨hm', hf'⟩ := ih (r.perform call).2
    simp only [readingForAll, ByteReader.performAll, List.map_append, List.length_append]
    rw [hm, hm', hf', hf, List.range'_append_1, Nat.add_assoc]
    exact ⟨rfl, rfl⟩

/-! ## When reads are made -/

/-- What holds where a read is made. -/
theorem Sound.of_mem_reading (h : Sound script r) :
    ∀ s ∈ r.reading, Sound script s ∧ s.answer? = none := by
  fun_induction reading r with
  | case1 => simp
  | case2 r ha ih =>
    exact List.forall_mem_cons.2 ⟨⟨h, ha⟩, ih (h.readOnce (exhausted_of_answer?_eq_none ha))⟩

theorem Sound.of_mem_readingForAll (h : Sound script r) (calls : List Call) :
    ∀ s ∈ r.readingForAll calls, Sound script s ∧ s.answer? = none := by
  induction calls generalizing r with
  | nil => simp [readingForAll]
  | cons call calls ih =>
    intro s hs
    rcases List.mem_append.1 hs with hs | hs
    · cases call with
      | next => exact h.of_mem_reading s hs
      | takeError => cases hs
    · exact ih (h.perform call) s hs

theorem reading_of_exhausted (he : r.exhausted = true) : r.reading = [] := by
  obtain ⟨answer, ha⟩ := exists_answer_of_exhausted he
  rw [reading]
  split
  · rfl
  · simp_all

/-- An exhausted reader makes no read, so that a character only takes bytes off. -/
theorem exists_start_of_exhausted (he : r.exhausted = true) :
    ∃ k, r.next.2 = { r with start := r.start + k } := by
  obtain ⟨answer, ha⟩ := exists_answer_of_exhausted he
  obtain ⟨k, -, hr⟩ := exists_start_of_answer? ha
  rw [next_of_answer? ha]
  exact ⟨k, hr⟩

theorem exhausted_next (he : r.exhausted = true) : r.next.2.exhausted = true := by
  obtain ⟨k, hr⟩ := exists_start_of_exhausted he
  rw [hr]
  exact he

theorem exhausted_perform (he : r.exhausted = true) (call : Call) :
    (r.perform call).2.exhausted = true := by
  cases call with
  | next => exact exhausted_next he
  | takeError => exact he

theorem readingForAll_of_exhausted (he : r.exhausted = true) (calls : List Call) :
    r.readingForAll calls = [] := by
  induction calls generalizing r with
  | nil => rfl
  | cons call calls ih =>
    rw [readingForAll, ih (exhausted_perform he call), List.append_nil]
    cases call with
    | next => exact reading_of_exhausted he
    | takeError => rfl

/-- A read that ends the input is the last one for its character, and exhausts the reader. -/
theorem pairwise_reading (r : ByteReader d) :
    (r.reading.Pairwise fun s _ => s.brought.goesOn = true) ∧
      ∀ s ∈ r.reading, s.brought.goesOn = true ∨ r.next.2.exhausted = true := by
  fun_induction reading r with
  | case1 => simp
  | case2 r ha ih =>
    obtain ⟨hp, hends⟩ := ih
    rw [next_of_waiting ha]
    cases hg : r.brought.goesOn with
    | true => exact ⟨hp.cons fun _ _ => hg, List.forall_mem_cons.2 ⟨.inl hg, hends⟩⟩
    | false =>
      have he : r.readOnce.exhausted = true := by simp [ByteReader.readOnce, hg]
      rw [reading_of_exhausted he]
      exact ⟨List.pairwise_singleton _ _, by simp [exhausted_next he]⟩

theorem pairwise_readingForAll (r : ByteReader d) (calls : List Call) :
    (r.readingForAll calls).Pairwise fun s _ => s.brought.goesOn = true := by
  induction calls generalizing r with
  | nil => exact .nil
  | cons call calls ih =>
    cases call with
    | takeError => exact ih _
    | next =>
      obtain ⟨hp, hends⟩ := r.pairwise_reading
      refine List.pairwise_append.2 ⟨hp, ih _, ?_⟩
      intro s hs s' hs'
      rcases hends s hs with hg | he
      · exact hg
      · have hnil := readingForAll_of_exhausted (r := (r.perform .next).2) he calls
        rw [hnil] at hs'
        cases hs'

/-! ## Replies that put an end to others -/

/-- A reply after which the reader stays in states that do not reply otherwise. -/
theorem Sound.pairwise_replies {P : ByteReader d → Prop} {first later : Reply → Prop}
    (hfirst : ∀ {r : ByteReader d} (call : Call), Sound script r → first (r.perform call).1 →
      P (r.perform call).2)
    (hlater : ∀ {r : ByteReader d} (call : Call), P r →
      later (r.perform call).1 ∧ P (r.perform call).2)
    (h : Sound script r) (calls : List Call) :
    (r.performAll calls).1.Pairwise fun reply reply' => first reply → later reply' := by
  have hall : ∀ {r : ByteReader d} (calls : List Call), P r → ∀ reply ∈ (r.performAll calls).1,
      later reply := by
    intro r calls hr
    induction calls generalizing r with
    | nil => simp [ByteReader.performAll]
    | cons call calls ih =>
      obtain ⟨hreply, hr'⟩ := hlater call hr
      exact List.forall_mem_cons.2 ⟨hreply, ih hr'⟩
  induction calls generalizing r with
  | nil => exact .nil
  | cons call calls ih =>
    refine (ih (h.perform call)).cons ?_
    intro reply hreply hf
    exact hall calls (hfirst call h hf) reply hreply

/-- There is no character left. -/
structure Drained (r : ByteReader d) : Prop where
  exhausted : r.exhausted = true
  rest_eq : r.rest = []

theorem Drained.next_eq (h : r.Drained) : r.next = (none, r) := by
  apply next_of_answer?
  simp [answer?, h.exhausted, h.rest_eq]

theorem drained_of_next (h : r.next.1 = none) : r.next.2.Drained := by
  fun_induction reading r with
  | case1 r answer ha =>
    rw [next_of_answer? ha] at h ⊢
    obtain ⟨c, r'⟩ := answer
    cases h
    obtain ⟨rfl, he, hr⟩ := answer?_none ha
    exact ⟨he, hr⟩
  | case2 r ha ih =>
    rw [next_of_waiting ha] at h ⊢
    exact ih h

theorem Drained.perform (h : r.Drained) (call : Call) :
    (∀ c, (r.perform call).1 ≠ .char (some c)) ∧ (r.perform call).2.Drained := by
  cases call with
  | next =>
    rw [ByteReader.perform, h.next_eq]
    exact ⟨nofun, h⟩
  | takeError => exact ⟨nofun, h.exhausted, h.rest_eq⟩

/-- The error has been handed over, and there will be no other. -/
structure Settled (r : ByteReader d) : Prop where
  exhausted : r.exhausted = true
  error_eq : r.error = none

theorem Sound.settled_of_takeError (h : Sound script r) {e : ReadError}
    (he : r.takeError.1 = some e) : r.takeError.2.Settled := by
  refine ⟨?_, rfl⟩
  cases hx : r.exhausted with
  | true => exact hx
  | false =>
    have herror : r.error = some e := he
    rw [h.error_eq hx] at herror
    cases herror

theorem Settled.perform (h : r.Settled) (call : Call) :
    (∀ e, (r.perform call).1 ≠ .error (some e)) ∧ (r.perform call).2.Settled := by
  cases call with
  | next =>
    obtain ⟨k, hr⟩ := exists_start_of_exhausted h.exhausted
    rw [ByteReader.perform, hr]
    exact ⟨nofun, h.exhausted, h.error_eq⟩
  | takeError =>
    refine ⟨?_, h.exhausted, rfl⟩
    intro e he
    cases he.symm.trans (congrArg Reply.error h.error_eq)

/-! ## Reads that have not been made -/

/-- The same reader, with more reads to come. -/
def extend (r : ByteReader d) (more : List Read) : ByteReader d :=
  { r with reads := r.reads ++ more }

theorem answer?_extend (r : ByteReader d) (more : List Read) :
    (r.extend more).answer? = r.answer?.map fun answer => (answer.1, answer.2.extend more) := by
  have hrest : (r.extend more).rest = r.rest := rfl
  have hex : (r.extend more).exhausted = r.exhausted := rfl
  simp only [answer?, hrest, hex, apply_ite (Option.map _), Option.map_some, Option.map_none]
  rfl

theorem readOnce_extend (h : r.reads ≠ []) (more : List Read) :
    (r.extend more).readOnce = r.readOnce.extend more := by
  cases hr : r.reads with
  | nil => exact absurd hr h
  | cons read reads => simp [ByteReader.readOnce, extend, brought, rest, hr]

theorem Sound.next_extend (h : Sound script r) (hf : r.next.2.fills ≤ script.length)
    (more : List Read) : (r.extend more).next = (r.next.1, r.next.2.extend more) := by
  fun_induction reading r with
  | case1 r answer ha =>
    rw [next_of_answer? ha]
    apply next_of_answer?
    rw [answer?_extend, ha]
    rfl
  | case2 r ha ih =>
    rw [next_of_waiting ha] at hf ⊢
    have hmade := r.readOnce.map_fills_reading.2
    have hne : r.reads ≠ [] := by
      have hone : r.readOnce.fills = r.fills + 1 := rfl
      rw [h.reads_eq, ne_eq, List.drop_eq_nil_iff]
      omega
    have hwait : (r.extend more).answer? = none := by
      rw [answer?_extend, ha]
      rfl
    rw [next_of_waiting hwait, readOnce_extend hne]
    exact ih (h.readOnce (exhausted_of_answer?_eq_none ha)) hf

theorem Sound.performAll_extend (h : Sound script r)
    (hf : (r.performAll calls).2.fills ≤ script.length) (more : List Read) :
    (r.extend more).performAll calls =
      ((r.performAll calls).1, (r.performAll calls).2.extend more) := by
  induction calls generalizing r with
  | nil => rfl
  | cons call calls ih =>
    have hmade := ((r.perform call).2.map_fills_readingForAll calls).2
    have hcall : (r.extend more).perform call =
        ((r.perform call).1, (r.perform call).2.extend more) := by
      cases call with
      | takeError => rfl
      | next =>
        have hle : r.next.2.fills ≤ script.length := by
          have hafter : ((r.perform .next).2.performAll calls).2.fills ≤ script.length := hf
          rw [hmade] at hafter
          exact Nat.le_trans (Nat.le_add_right _ _) hafter
        rw [ByteReader.perform, h.next_extend hle]
        rfl
    simp only [ByteReader.performAll, hcall, ih (h.perform call) hf]

end

/-- Whatever reads bring, and whatever is asked: each read is made once, in order; a read after
which there is another one goes on; a reader whose decoder takes off what bytes start with makes
reads only while at most three bytes wait, in which no character starts; after an answer that there
is no character there is none, and after an error no other one. What is not read makes no
difference. -/
theorem reader_ends_for_good (d : Utf8.Decoder) (script : List Read) (calls : List Call) :
    let r : ByteReader d := { reads := script }
    let replies := (r.performAll calls).1
    let after := (r.performAll calls).2
    let reading := r.readingForAll calls
    reading.map fills = List.range after.fills ∧
    (∀ s ∈ reading, s.reads = script.drop s.fills) ∧
    (reading.Pairwise fun s _ => s.brought.goesOn = true) ∧
    (d.TakesFirst → ∀ s ∈ reading, s.rest.length ≤ 3 ∧
      ∀ n c, ¬String.utf8EncodeChar c <+: s.rest.drop n) ∧
    (∀ s ∈ after :: reading, s.start ≤ s.pending.length) ∧
    (replies.Pairwise fun x y => x = .char none → ∀ c, y ≠ .char (some c)) ∧
    (replies.Pairwise fun x y => (∃ e, x = .error (some e)) → ∀ e, y ≠ .error (some e)) ∧
    (after.fills ≤ script.length → ∀ more,
      ({ reads := script ++ more } : ByteReader d).performAll calls =
        (replies, { after with reads := after.reads ++ more })) := by
  intro r replies after reading
  have h : Sound script r := sound_of_reads script
  have hreading := h.of_mem_readingForAll calls
  obtain ⟨hmap, hfills⟩ := r.map_fills_readingForAll calls
  refine ⟨?_, fun s hs => (hreading s hs).1.reads_eq, r.pairwise_readingForAll calls,
    ?_, ?_, ?_, ?_, h.performAll_extend⟩
  · show reading.map fills = _
    have hzero : r.fills = 0 := rfl
    rw [hfills, hmap, hzero, Nat.zero_add, List.range_eq_range']
  · intro hfirst s hs
    exact undecided_of_answer? hfirst (hreading s hs).2
  · rw [List.forall_mem_cons]
    exact ⟨(h.performAll calls).start_le, fun s hs => (hreading s hs).1.start_le⟩
  · refine h.pairwise_replies (P := Drained) ?_ (fun call hd => hd.perform call) calls
    intro r call _ hreply
    cases call with
    | next => exact drained_of_next (Reply.char.inj hreply)
    | takeError => cases hreply
  · refine h.pairwise_replies (P := Settled) ?_ (fun call hs => hs.perform call) calls
    intro r call hr hreply
    obtain ⟨e, he⟩ := hreply
    cases call with
    | next => cases he
    | takeError => exact hr.settled_of_takeError (Reply.error.inj he)

/-- The start of a character waits through an interruption and is cut off by a read that fails;
there would be more bytes after that. -/
theorem reader_ends_for_good_later_bytes :
    let boom : ReadError := ⟨.other, "boom"⟩
    let script : List Read :=
      [.bytes [0x61, 0xE2], .failed ⟨.interrupted, "again"⟩, .failed boom, .bytes [0x62]]
    let calls : List Call := [.next, .next, .next, .takeError, .takeError, .next]
    let replies : List Reply :=
      [.char (some 'a'), .char (some Utf8.replacement), .char none, .error (some boom), .error none,
        .char none]
    let r : ByteReader Utf8.decoder := { reads := script }
    (r.readingForAll calls).map rest = [[], [0xE2], [0xE2]] ∧
      (∀ s ∈ r.readingForAll calls, s.rest.length ≤ 3 ∧
        ∀ n c, ¬String.utf8EncodeChar c <+: s.rest.drop n) ∧
      (r.performAll calls).2.fills ≤ script.length ∧ (r.performAll calls).1 = replies ∧
      (({ reads := script ++ [.bytes [0x63]] } : ByteReader Utf8.decoder).performAll calls).1 =
        replies := by
  intro boom script calls replies r
  obtain ⟨-, -, -, hwaiting, -, -, -, hextend⟩ := reader_ends_for_good Utf8.decoder script calls
  have hf : (r.performAll calls).2.fills ≤ script.length := by
    decide +kernel
  have hreplies : (r.performAll calls).1 = replies := by
    decide +kernel
  refine ⟨by decide +kernel, hwaiting Utf8.takesFirst_decoder, hf, hreplies, ?_⟩
  rw [hextend hf [.bytes [0x63]]]
  exact hreplies

end ByteReader

end RewindLexer
