import RewindLexer.Proofs.Text.Utf8
import RewindLexer.Source.ByteReader

/-!
# However bytes arrive

A byte reader gives the characters that its bytes stand for, wherever the reads have cut them apart
and however often a read was interrupted. That rests on what its decoder promises: to take off what
the bytes start with. Main statement: up to the first time that it has nothing, it gives the
decoding of all bytes read before the last read, and keeps the error of that read, if any.
-/

namespace RewindLexer

open Text

namespace Read

/-- Whether reading goes on after a read: it has brought bytes, or was merely interrupted. -/
def goesOn : Read → Bool
  | .bytes chunk => !chunk.isEmpty
  | .failed e => e.kind = .interrupted

/-- The bytes that a read has brought. -/
def chunk : Read → List UInt8
  | .bytes chunk => chunk
  | .failed _ => []

/-- The error that a read has met. -/
def error? : Read → Option ReadError
  | .bytes _ => none
  | .failed e => some e

/-- The bytes that reads bring as long as reading goes on. -/
def delivered (reads : List Read) : List UInt8 :=
  (reads.takeWhile goesOn).flatMap chunk

/-- The error of the read at which reading ends. -/
def ending (reads : List Read) : Option ReadError :=
  (reads.dropWhile goesOn).head?.bind error?

theorem delivered_cons_of_goesOn {read : Read} (h : read.goesOn = true) (reads : List Read) :
    delivered (read :: reads) = read.chunk ++ delivered reads := by
  rw [delivered, List.takeWhile_cons_of_pos h, List.flatMap_cons, delivered]

theorem delivered_cons_of_ends {read : Read} (h : read.goesOn = false) (reads : List Read) :
    delivered (read :: reads) = [] := by
  rw [delivered, List.takeWhile_cons_of_neg (by simp [h]), List.flatMap_nil]

theorem ending_cons_of_goesOn {read : Read} (h : read.goesOn = true) (reads : List Read) :
    ending (read :: reads) = ending reads := by
  rw [ending, List.dropWhile_cons_of_pos h, ending]

theorem ending_cons_of_ends {read : Read} (h : read.goesOn = false) (reads : List Read) :
    ending (read :: reads) = read.error? := by
  rw [ending, List.dropWhile_cons_of_neg (by simp [h]), List.head?_cons, Option.bind_some]

end Read

namespace ByteReader

variable {d : Utf8.Decoder}

/-! ## What is still to come -/

/-- The bytes that will be decoded: those that wait, and those that the reads to come deliver. -/
def upcoming (r : ByteReader d) : List UInt8 :=
  if r.exhausted then r.rest else r.rest ++ Read.delivered r.reads

/-- The error that will be kept when reading has ended. -/
def outcome (r : ByteReader d) : Option ReadError :=
  if r.exhausted then r.error else (Read.ending r.reads).or r.error

section

variable {r r' : ByteReader d} {c : Char}

theorem upcoming_of_exhausted (h : r.exhausted = true) : r.upcoming = r.rest := by
  rw [upcoming, if_pos h]

theorem upcoming_of_not_exhausted (h : r.exhausted = false) :
    r.upcoming = r.rest ++ Read.delivered r.reads := by
  rw [upcoming, if_neg (by simp [h])]

theorem outcome_of_exhausted (h : r.exhausted = true) : r.outcome = r.error := by
  rw [outcome, if_pos h]

theorem outcome_of_not_exhausted (h : r.exhausted = false) :
    r.outcome = (Read.ending r.reads).or r.error := by
  rw [outcome, if_neg (by simp [h])]

/-! ## Reading on -/

theorem fill_keeps (hs : r.start = 0) (he : r.exhausted = false) (reads : List Read) :
    (r.fill reads).upcoming = r.pending ++ Read.delivered reads ∧
      (r.fill reads).outcome = (Read.ending reads).or r.error := by
  fun_induction fill r reads with
  | case1 r =>
    rw [upcoming_of_exhausted rfl, outcome_of_exhausted rfl]
    simp [rest, hs, Read.delivered, Read.ending]
  | case2 r chunk reads hc =>
    have hg : (Read.bytes chunk).goesOn = false := by simp [Read.goesOn, hc]
    rw [upcoming_of_exhausted rfl, outcome_of_exhausted rfl, Read.delivered_cons_of_ends hg,
      Read.ending_cons_of_ends hg]
    simp [rest, hs, Read.error?]
  | case3 r chunk reads hc =>
    have hg : (Read.bytes chunk).goesOn = true := by simp [Read.goesOn, hc]
    rw [Read.delivered_cons_of_goesOn hg, Read.ending_cons_of_goesOn hg]
    simp [upcoming, outcome, rest, hs, he, Read.chunk]
  | case4 r e reads hk ih =>
    have hg : (Read.failed e).goesOn = true := by simp [Read.goesOn, hk]
    rw [Read.delivered_cons_of_goesOn hg, Read.ending_cons_of_goesOn hg]
    exact ih hs he
  | case5 r e reads hk =>
    have hg : (Read.failed e).goesOn = false := by simp [Read.goesOn, hk]
    rw [upcoming_of_exhausted rfl, outcome_of_exhausted rfl, Read.delivered_cons_of_ends hg,
      Read.ending_cons_of_ends hg]
    simp [rest, hs, Read.error?]

theorem refill_keeps (he : r.exhausted = false) :
    r.refill.upcoming = r.upcoming ∧ r.refill.outcome = r.outcome := by
  rw [upcoming_of_not_exhausted he, outcome_of_not_exhausted he]
  exact fill_keeps (d := d) (r := { r with pending := r.rest, start := 0 }) rfl he r.reads

/-! ## One character -/

theorem answer?_none (h : r.answer? = some (none, r')) :
    r' = r ∧ r.exhausted = true ∧ r.rest = [] := by
  simp only [answer?] at h
  split at h
  · rename_i hr
    split at h
    · rename_i he
      simp only [Option.some.injEq, Prod.mk.injEq, true_and] at h
      exact ⟨h.symm, he, by simpa using hr⟩
    · cases h
  · split at h
    · simp at h
    · cases h

variable (hfirst : d.TakesFirst) (hall : d.DecodesAll)

include hfirst hall in
theorem answer?_some (h : r.answer? = some (some c, r')) :
    d.all r.upcoming = c :: d.all r'.upcoming ∧ r'.outcome = r.outcome := by
  simp only [answer?] at h
  split at h
  · split at h
    · simp at h
    · cases h
  rename_i hne
  have hne : r.rest ≠ [] := by simpa using hne
  split at h
  · rename_i hd
    simp only [Option.some.injEq, Prod.mk.injEq] at h
    obtain ⟨rfl, hr'⟩ := h
    have hrest : r'.rest = r.rest.drop (d.first r.rest).2 := by
      rw [← hr', rest, rest, List.drop_drop]
    have hreads : r'.reads = r.reads := by rw [← hr']
    have hexh : r'.exhausted = r.exhausted := by rw [← hr']
    refine ⟨?_, by rw [← hr']; rfl⟩
    cases he : r.exhausted with
    | true =>
      rw [upcoming_of_exhausted he, upcoming_of_exhausted (hexh.trans he), hrest]
      exact hfirst.all_eq_cons hall hne
    | false =>
      have hd : Utf8.Decided r.rest (d.first r.rest) := by
        simpa [he, Utf8.Decided] using hd
      rw [upcoming_of_not_exhausted he, upcoming_of_not_exhausted (hexh.trans he), hrest, hreads]
      exact hfirst.all_append hall hne hd _
  · cases h

include hfirst hall in
/-- A character that is given out is the first one of what is to come. -/
theorem next_some (h : r.next = (some c, r')) :
    d.all r.upcoming = c :: d.all r'.upcoming ∧ r'.outcome = r.outcome := by
  fun_induction next r with
  | case1 r answer ha =>
    subst h
    exact answer?_some hfirst hall ha
  | case2 r ha ih =>
    obtain ⟨hu, ho⟩ := refill_keeps (exhausted_of_answer?_eq_none ha)
    rw [← hu, ← ho]
    exact ih h

include hall in
/-- If no character is given out, there are none to come, and reading has ended. -/
theorem next_none (h : r.next = (none, r')) :
    d.all r.upcoming = [] ∧ r'.error = r.outcome := by
  fun_induction next r with
  | case1 r answer ha =>
    subst h
    obtain ⟨rfl, he, hr⟩ := answer?_none ha
    rw [upcoming_of_exhausted he, outcome_of_exhausted he, hr]
    exact ⟨hall.all_nil, rfl⟩
  | case2 r ha ih =>
    obtain ⟨hu, ho⟩ := refill_keeps (exhausted_of_answer?_eq_none ha)
    rw [← hu, ← ho]
    exact ih h

/-! ## All characters -/

include hfirst hall in
theorem drain_keeps (r : ByteReader d) :
    (FiniteSource.drain r).1 = d.all r.upcoming ∧
      (FiniteSource.drain r).2.error = r.outcome := by
  fun_induction FiniteSource.drain r with
  | case1 r r' hn =>
    obtain ⟨hu, ho⟩ := next_none hall hn
    exact ⟨hu.symm, ho⟩
  | case2 r c r' hn rest r'' hd ih =>
    obtain ⟨hu, ho⟩ := next_some hfirst hall hn
    rw [hd] at ih
    obtain ⟨hrest, herr⟩ := ih
    rw [hu, ← hrest, herr, ho]
    exact ⟨rfl, rfl⟩

end

/-- However the reads cut the bytes apart, the characters given out up to the first time that there
is none are those of the whole, and the error of the read that ends the input is kept. -/
theorem drain_eq_decode (hfirst : d.TakesFirst) (hall : d.DecodesAll) (reads : List Read)
    (last : Read) (later : List Read) (hreads : ∀ read ∈ reads, read.goesOn = true)
    (hlast : last.goesOn = false) :
    let drained := FiniteSource.drain ({ reads := reads ++ last :: later } : ByteReader d)
    drained.1 = d.all (reads.flatMap Read.chunk) ∧ drained.2.takeError.1 = last.error? := by
  have hd : Read.delivered (reads ++ last :: later) = reads.flatMap Read.chunk := by
    rw [Read.delivered, List.takeWhile_append_of_pos hreads,
      List.takeWhile_cons_of_neg (by simp [hlast]), List.append_nil]
  have he : Read.ending (reads ++ last :: later) = last.error? := by
    rw [Read.ending, List.dropWhile_append_of_pos hreads]
    exact Read.ending_cons_of_ends hlast later
  obtain ⟨hu, ho⟩ := drain_keeps hfirst hall { reads := reads ++ last :: later }
  rw [upcoming_of_not_exhausted rfl, hd] at hu
  rw [outcome_of_not_exhausted rfl, he, Option.or_none] at ho
  exact ⟨hu, ho⟩

/-- A character in three parts, with an interruption between them, and the start of another one that
a failing read cuts off. -/
theorem drain_eq_decode_cut_off :
    let reads : List Read :=
      [.bytes [0xE2], .failed ⟨.interrupted, "again"⟩, .bytes [0x82],
        .bytes [0xAC, 0x61, 0xE2, 0x82]]
    let failure : ReadError := ⟨.other, "boom"⟩
    let drained := FiniteSource.drain
      ({ reads := reads ++ [.failed failure] } : ByteReader Utf8.decoder)
    (∀ read ∈ reads, read.goesOn = true) ∧ (Read.failed failure).goesOn = false ∧
      drained.1 = ['€', 'a', Utf8.replacement] ∧ drained.2.takeError.1 = some failure := by
  intro reads failure drained
  have hreads : ∀ read ∈ reads, read.goesOn = true := by
    decide
  obtain ⟨hgiven, herror⟩ := drain_eq_decode Utf8.takesFirst_decoder Utf8.decodesAll_decoder reads
    (.failed failure) [] hreads rfl
  have hdecode : Utf8.decode (reads.flatMap Read.chunk) = ['€', 'a', Utf8.replacement] := by
    decide +kernel
  exact ⟨hreads, rfl, hgiven.trans hdecode, herror⟩

end ByteReader

end RewindLexer
