import RewindLexer.Lookahead
import RewindLexer.Proofs.Ring.Ends

/-!
# How a lookahead moves

Whatever is asked of a lookahead, it asks its source a number of times, puts the items handed out at
the end of its ring, and takes items off the front. `l.Moved taken l'` says so in one equation, for
any source: one that goes on after it has said that there is nothing, or that never ends.
-/

namespace RewindLexer

universe u v

variable {σ : Type u} {α : Type v}

/-! ## Asking a source -/

namespace Source

variable [Source σ α]

/-- The source after it has been asked `n` times. -/
def after (s : σ) : Nat → σ
  | 0 => s
  | n + 1 => after (next s).2 n

/-- The items among the next `n` answers. -/
def items (s : σ) : Nat → List α
  | 0 => []
  | n + 1 => (next s).1.toList ++ items (next s).2 n

theorem after_add (s : σ) (k n : Nat) : after s (k + n) = after (after s k) n := by
  induction k generalizing s with
  | zero => rw [Nat.zero_add, after]
  | succ k ih => rw [Nat.succ_add, after, ih, after]

theorem items_add (s : σ) (k n : Nat) : items s (k + n) = items s k ++ items (after s k) n := by
  induction k generalizing s with
  | zero => rw [Nat.zero_add, items, after, List.nil_append]
  | succ k ih => rw [Nat.succ_add, items, ih, items, after, List.append_assoc]

end Source

namespace Lookahead

/-- The ring of a lookahead is well formed. -/
def Sound (l : Lookahead σ α) : Prop :=
  l.ring.WellFormed

theorem sound_of_source (source : σ) : ({ source := source } : Lookahead σ α).Sound :=
  Ring.holds_empty.wellFormed

theorem unread_of_sound {l : Lookahead σ α} (h : l.Sound) (a : α) :
    (l.unread a).Sound ∧ (l.unread a).ring.toList = a :: l.ring.toList := by
  have hp := h.holds.pushFront a
  exact ⟨hp.wellFormed, hp.toList_eq⟩

/-- From `l` to `l'` the items `taken` have been consumed, and what the source has handed out in the
meantime has come behind the items that waited. -/
structure Moved [Source σ α] (l : Lookahead σ α) (taken : List α) (l' : Lookahead σ α) : Prop where
  sound : l'.Sound
  asked : ∃ k, l'.source = Source.after l.source k ∧
    taken ++ l'.ring.toList = l.ring.toList ++ Source.items l.source k

section

variable [Source σ α] {l l' l'' : Lookahead σ α} {taken taken' : List α} {a : α}

theorem Moved.refl (h : l.Sound) : l.Moved [] l := by
  refine ⟨h, 0, rfl, ?_⟩
  rw [Source.items, List.append_nil, List.nil_append]

theorem Moved.trans (h : l.Moved taken l') (h' : l'.Moved taken' l'') :
    l.Moved (taken ++ taken') l'' := by
  obtain ⟨-, k, hs, he⟩ := h
  obtain ⟨hsound, k', hs', he'⟩ := h'
  refine ⟨hsound, k + k', ?_, ?_⟩
  · rw [hs', hs, Source.after_add]
  · rw [List.append_assoc, he', hs, ← List.append_assoc, he, List.append_assoc, Source.items_add]

/-- One question to the source, with the ring that its answer leads to. -/
theorem moved_of_asked {ring : Ring α} (h : ring.WellFormed)
    (he : taken ++ ring.toList = l.ring.toList ++ (Source.next l.source).1.toList) :
    l.Moved taken ⟨ring, (Source.next l.source).2⟩ := by
  refine ⟨h, 1, rfl, ?_⟩
  rw [he, Source.items, Source.items, List.append_nil]

/-! ## Looking ahead -/

theorem moved_pull (h : l.Sound) (n : Nat) : l.Moved [] (l.pull n).2 := by
  fun_induction Lookahead.pull l n with
  | case1 l => exact Moved.refl h
  | case2 l n a source hn ih =>
    have hp := h.holds.pushBack a
    have hm : l.Moved [] ⟨l.ring.pushBack a, (Source.next l.source).2⟩ := by
      refine moved_of_asked hp.wellFormed ?_
      rw [hp.toList_eq, hn]
      rfl
    rw [hn] at hm
    exact hm.trans (ih hp.wellFormed)
  | case3 l n source hn =>
    -- The source has nothing now, which says nothing about later.
    have hm : l.Moved [] ⟨l.ring, (Source.next l.source).2⟩ := by
      refine moved_of_asked h ?_
      rw [hn]
      exact (List.append_nil _).symm
    rw [hn] at hm
    exact hm

theorem moved_fill (h : l.Sound) (n : Nat) : l.Moved [] (l.fill n).2 :=
  moved_pull h _

theorem moved_lookAt (h : l.Sound) (enough n : Nat) : l.Moved [] (l.lookAt enough n).2 := by
  have hm := moved_fill h enough
  rw [lookAt]
  split
  · rename_i l' he
    rwa [he] at hm
  · rename_i l' he
    rwa [he] at hm

theorem moved_peekNth (h : l.Sound) (n : Nat) : l.Moved [] (l.peekNth n).2 :=
  moved_lookAt h _ n

theorem moved_spellsFrom [BEq α] (h : l.Sound) (n : Nat) (items : List α) :
    l.Moved [] (l.spellsFrom n items).2 := by
  induction items generalizing l n with
  | nil => exact Moved.refl h
  | cons a items ih =>
    have hm := moved_lookAt h (n + 1) n
    simp only [spellsFrom]
    split
    · exact hm.trans (ih hm.sound (n + 1))
    · exact hm

/-! ## Reading and handing back -/

theorem next_of_nil (h : l.Sound) (hl : l.ring.toList = []) :
    l.next = ((Source.next l.source).1, ⟨l.ring, (Source.next l.source).2⟩) := by
  have hr := h.holds
  rw [hl] at hr
  rw [next, hr.popFront_nil]

theorem next_of_cons {rest : List α} (h : l.Sound) (hl : l.ring.toList = a :: rest) :
    ∃ ring, l.next = (some a, { l with ring := ring }) ∧ ring.Holds rest := by
  have hr := h.holds
  rw [hl] at hr
  obtain ⟨ha, hrest⟩ := hr.popFront_cons
  have hpop : l.ring.popFront = (.ok a, l.ring.popFront.2) := Prod.ext ha rfl
  refine ⟨l.ring.popFront.2, ?_, hrest⟩
  rw [next, hpop]

theorem moved_next (h : l.Sound) : l.Moved l.next.1.toList l.next.2 := by
  cases hl : l.ring.toList with
  | nil =>
    rw [next_of_nil h hl]
    refine moved_of_asked h ?_
    rw [hl, List.append_nil, List.nil_append]
  | cons a rest =>
    obtain ⟨ring, hn, hr⟩ := next_of_cons h hl
    rw [hn]
    refine ⟨hr.wellFormed, 0, rfl, ?_⟩
    rw [hr.toList_eq, hl, Source.items, List.append_nil]
    rfl

/-- What was consumed last can be handed back. -/
theorem Moved.unread (h : l.Moved (taken ++ [a]) l') : l.Moved taken (l'.unread a) := by
  obtain ⟨hsound, k, hs, he⟩ := h
  obtain ⟨hsound', hl⟩ := unread_of_sound hsound a
  refine ⟨hsound', k, hs, ?_⟩
  rw [hl, ← he, List.append_assoc]
  rfl

/-! ## What can still be consumed -/

/-- The items that can be consumed until the source has been asked `n` times. -/
def upTo (l : Lookahead σ α) (n : Nat) : List α :=
  l.ring.toList ++ Source.items l.source n

/-- What can still be consumed begins with `text`. All beginnings together say what it is, also if
it has no end. -/
def Offers (l : Lookahead σ α) (text : List α) : Prop :=
  ∃ n, text <+: l.upTo n

theorem upTo_prefix (l : Lookahead σ α) (k n : Nat) : l.upTo n <+: l.upTo (k + n) := by
  rw [upTo, upTo, Nat.add_comm, Source.items_add, ← List.append_assoc]
  exact List.prefix_append _ _

theorem Moved.exists_upTo (h : l.Moved taken l') :
    ∃ k, ∀ n, taken ++ l'.upTo n = l.upTo (k + n) := by
  obtain ⟨-, k, hs, he⟩ := h
  refine ⟨k, ?_⟩
  intro n
  rw [upTo, upTo, ← List.append_assoc, he, hs, Source.items_add, List.append_assoc]

/-- What was consumed and what can still be consumed is what could be consumed before. -/
theorem Moved.offers_iff (h : l.Moved taken l') (text : List α) :
    (∃ n, text <+: taken ++ l'.upTo n) ↔ l.Offers text := by
  obtain ⟨k, hk⟩ := h.exists_upTo
  constructor
  · rintro ⟨n, hn⟩
    rw [hk] at hn
    exact ⟨k + n, hn⟩
  · rintro ⟨n, hn⟩
    refine ⟨n, ?_⟩
    rw [hk]
    exact hn.trans (l.upTo_prefix k n)

end

/-! ## Histories -/

/-- Something that can be asked of a lookahead. -/
inductive Op (α : Type v) where
  | hasNext
  | next
  | nextD (default : α)
  | skip
  | unread (a : α)
  | peek
  | peekD (default : α)
  | peekNth (n : Nat)
  | peekNthD (n : Nat) (default : α)
  | isNext (a : α)
  | isNextList (items : List α)

/-- Whether an operation only looks ahead. -/
def Op.looks : Op α → Bool
  | .next | .nextD _ | .skip | .unread _ => false
  | .hasNext | .peek | .peekD _ | .peekNth _ | .peekNthD _ _ | .isNext _ | .isNextList _ => true

section

variable [Source σ α] [BEq α]

def perform (l : Lookahead σ α) : Op α → Lookahead σ α
  | .hasNext => l.hasNext.2
  | .next => l.next.2
  | .nextD default => (l.nextD default).2
  | .skip => l.skip
  | .unread a => l.unread a
  | .peek => l.peek.2
  | .peekD default => (l.peekD default).2
  | .peekNth n => (l.peekNth n).2
  | .peekNthD n default => (l.peekNthD n default).2
  | .isNext a => (l.isNext a).2
  | .isNextList items => (l.isNextList items).2

/-- The lookahead that a history leads to from a source. -/
def reached (source : σ) (history : List (Op α)) : Lookahead σ α :=
  history.foldl perform { source := source }

theorem moved_of_looks {l : Lookahead σ α} (h : l.Sound) {op : Op α} (ho : op.looks = true) :
    l.Moved [] (l.perform op) := by
  cases op with
  | hasNext => exact moved_fill h 1
  | peek | peekD | isNext => exact moved_peekNth h 0
  | peekNth n | peekNthD n => exact moved_peekNth h n
  | isNextList items => exact moved_spellsFrom h 0 items
  | next | nextD | skip | unread => cases ho

theorem Sound.perform {l : Lookahead σ α} (h : l.Sound) (op : Op α) : (l.perform op).Sound := by
  cases op with
  | next | nextD | skip => exact (moved_next h).sound
  | unread a => exact (unread_of_sound h a).1
  | hasNext | peek | peekD | peekNth | peekNthD | isNext | isNextList =>
    exact (moved_of_looks h rfl).sound

theorem sound_reached (source : σ) (history : List (Op α)) : (reached source history).Sound := by
  have hfold : ∀ l : Lookahead σ α, l.Sound → (history.foldl Lookahead.perform l).Sound := by
    induction history with
    | nil =>
      intro l h
      exact h
    | cons op history ih =>
      intro l h
      exact ih _ (h.perform op)
  exact hfold _ (sound_of_source source)

end

end Lookahead

end RewindLexer
