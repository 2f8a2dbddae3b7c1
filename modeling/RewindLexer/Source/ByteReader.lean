import RewindLexer.Source.Basic
import RewindLexer.Text.Utf8

/-!
# Characters from bytes that arrive in parts

A byte reader decodes UTF-8 as it is needed. A character may be split between two reads, so bytes at
the end that could still become a character wait for the next read. A read that delivers nothing, or
fails for good, is the last one; a read that was merely interrupted is made again.
-/

namespace RewindLexer

open Text

/-- What kind of failure a read met. -/
inductive ReadError.Kind where
  /-- The read was cut short and can be made again. -/
  | interrupted
  | unexpectedEnd
  | wouldBlock
  | other
  deriving DecidableEq, Repr

/-- Why a read failed. -/
structure ReadError where
  kind : ReadError.Kind
  message : String
  deriving DecidableEq, Repr

/-- What one read brings. -/
inductive Read where
  /-- The bytes read; none at all at the end of the input. -/
  | bytes (chunk : List UInt8)
  | failed (error : ReadError)

/-- The number of bytes that reads bring. -/
def Read.total : List Read → Nat
  | [] => 0
  | .bytes chunk :: reads => chunk.length + Read.total reads
  | .failed _ :: reads => Read.total reads

/-- Decodes the bytes that a series of reads delivers, with a decoder of one's choice. -/
structure ByteReader (d : Utf8.Decoder := Utf8.decoder) where
  /-- What the reads to come will bring; after them there are no more bytes. -/
  reads : List Read
  /-- The bytes kept from the reads so far. -/
  pending : List UInt8 := []
  /-- The number of pending bytes that are decoded already. -/
  start : Nat := 0
  /-- Whether the last read has been made. -/
  exhausted : Bool := false
  /-- The error that ended the input, until it is collected. -/
  error : Option ReadError := none
  /-- The number of reads made. -/
  fills : Nat := 0

namespace ByteReader

variable {d : Utf8.Decoder}

/-- The bytes that wait to be decoded. -/
def rest (r : ByteReader d) : List UInt8 :=
  r.pending.drop r.start

/-- Makes reads until one is not interrupted. -/
def fill (r : ByteReader d) : List Read → ByteReader d
  | [] => { r with reads := [], exhausted := true, fills := r.fills + 1 }
  | .bytes chunk :: reads =>
    if chunk.isEmpty then
      { r with reads := reads, exhausted := true, fills := r.fills + 1 }
    else
      { r with reads := reads, pending := r.pending ++ chunk, fills := r.fills + 1 }
  | .failed e :: reads =>
    if e.kind = .interrupted then
      fill { r with fills := r.fills + 1 } reads
    else
      { r with reads := reads, exhausted := true, error := some e, fills := r.fills + 1 }

/-- Drops the decoded bytes and reads on. -/
def refill (r : ByteReader d) : ByteReader d :=
  fill { r with pending := r.rest, start := 0 } r.reads

/-- The answer to the next question, if it can be given without another read: bytes that are not a
character have to wait as long as they may become one. -/
def answer? (r : ByteReader d) : Option (Option Char × ByteReader d) :=
  if r.rest.isEmpty then
    if r.exhausted then some (none, r) else none
  else
    let first := d.first r.rest
    if first.1.isSome || first.2 < r.rest.length || r.exhausted then
      some (some (first.1.getD Utf8.replacement), { r with start := r.start + first.2 })
    else
      none

/-! ## Reading ends -/

/-- The number of reads that can still be made. -/
def readsLeft (r : ByteReader d) : Nat :=
  if r.exhausted then 0 else r.reads.length + 1

theorem readsLeft_fill_le (r : ByteReader d) (reads : List Read) :
    (r.fill reads).readsLeft ≤ reads.length := by
  fun_induction fill r reads with
  | case1 => simp [readsLeft]
  | case2 => simp [readsLeft]
  | case3 => simp only [readsLeft, List.length_cons]; split <;> omega
  | case4 _ _ _ _ ih => exact Nat.le_succ_of_le ih
  | case5 => simp [readsLeft]

theorem exhausted_of_answer?_eq_none {r : ByteReader d} (h : r.answer? = none) :
    r.exhausted = false := by
  simp only [answer?] at h
  split at h
  · split at h
    · cases h
    · simpa using ‹¬r.exhausted = true›
  · split at h
    · cases h
    · simp_all

theorem readsLeft_refill_lt {r : ByteReader d} (h : r.answer? = none) :
    r.refill.readsLeft < r.readsLeft := by
  have hle := readsLeft_fill_le (d := d) { r with pending := r.rest, start := 0 } r.reads
  have hr : r.readsLeft = r.reads.length + 1 := by
    simp [readsLeft, exhausted_of_answer?_eq_none h]
  unfold refill
  omega

/-- Gives out the next character. -/
def next (r : ByteReader d) : Option Char × ByteReader d :=
  match _h : r.answer? with
  | some answer => answer
  | none => next r.refill
termination_by r.readsLeft
decreasing_by exact readsLeft_refill_lt ‹_›

/-- Hands over the error that ended the input, once. -/
def takeError (r : ByteReader d) : Option ReadError × ByteReader d :=
  (r.error, { r with error := none })

/-! ## The characters still to come -/

/-- The number of bytes not decoded yet, read or not. -/
def undecoded (r : ByteReader d) : Nat :=
  r.rest.length + Read.total r.reads

theorem undecoded_fill_le (r : ByteReader d) (reads : List Read) :
    (r.fill reads).undecoded ≤ r.rest.length + Read.total reads := by
  fun_induction fill r reads with
  | case1 => simp [undecoded, rest]
  | case2 => simp [undecoded, rest, Read.total]
  | case3 => simp [undecoded, rest, Read.total]; omega
  | case4 _ _ _ _ ih => simpa [rest, Read.total] using ih
  | case5 => simp [undecoded, rest, Read.total]

theorem undecoded_refill_le (r : ByteReader d) : r.refill.undecoded ≤ r.undecoded := by
  have h := undecoded_fill_le (d := d) { r with pending := r.rest, start := 0 } r.reads
  simpa [rest, refill, undecoded] using h

theorem undecoded_answer?_lt {r r' : ByteReader d} {c : Char}
    (h : r.answer? = some (some c, r')) : r'.undecoded < r.undecoded := by
  simp only [answer?] at h
  split at h
  · split at h <;> simp at h
  · rename_i hne
    split at h
    · simp only [Option.some.injEq, Prod.mk.injEq] at h
      obtain ⟨-, rfl⟩ := h
      have hne : r.rest ≠ [] := by simpa using hne
      have hpos := d.size_pos hne
      have hlen : 0 < r.rest.length := List.length_pos_iff.2 hne
      simp only [undecoded, rest, List.length_drop] at hlen hpos ⊢
      omega
    · cases h

theorem undecoded_next_lt {r : ByteReader d} {c : Char} (h : r.next.1 = some c) :
    r.next.2.undecoded < r.undecoded := by
  fun_induction next r with
  | case1 r answer ha =>
    obtain ⟨_, r'⟩ := answer
    subst h
    exact undecoded_answer?_lt ha
  | case2 r _ ih => exact Nat.lt_of_lt_of_le (ih h) (undecoded_refill_le r)

/-- Once there is nothing more, nothing changes. -/
theorem next_of_next_eq_none {r r' : ByteReader d} (h : r.next = (none, r')) :
    r'.next = (none, r') := by
  fun_induction next r with
  | case1 r answer ha =>
    subst h
    have hr : r' = r := by
      simp only [answer?] at ha
      split at ha
      · split at ha
        · simp only [Option.some.injEq, Prod.mk.injEq, true_and] at ha
          exact ha.symm
        · cases ha
      · split at ha <;> simp at ha
    subst hr
    rw [next]
    split
    · simp_all
    · simp_all
  | case2 r _ ih => exact ih h

/-- The characters that will still be given out. -/
def characters (r : ByteReader d) : List Char :=
  match _h : r.next with
  | (none, _) => []
  | (some c, r') => c :: characters r'
termination_by r.undecoded
decreasing_by
  have h := undecoded_next_lt (r := r) (c := c) (by rw [_h])
  rw [_h] at h
  exact h

theorem characters_of_none {r r' : ByteReader d} (h : r.next = (none, r')) :
    r.characters = [] := by
  rw [characters]
  split <;> simp_all

instance : FusedSource (ByteReader d) Char where
  next := next
  remaining := characters
  remaining_eq r := by
    rcases h : r.next with ⟨_ | c, r'⟩
    · simp [characters_of_none h, characters_of_none (next_of_next_eq_none h)]
    · rw [characters]
      split <;> simp_all
  remaining_of_next r h := by
    have hn : r.next = (none, r.next.2) := by rw [← h]
    exact characters_of_none hn

end ByteReader

end RewindLexer
