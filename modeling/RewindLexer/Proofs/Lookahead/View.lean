import RewindLexer.Proofs.Lookahead.Sequence

/-!
# What can be read from a lookahead

A lookahead shows one sequence of items, those in its ring and then those of its source. Looking
ahead leaves the sequence as it is, reading takes its first item off, and handing back puts an item
in front. If the source has nothing left once it says so, the answers are those of the sequence.
-/

namespace RewindLexer.Lookahead

universe u v

variable {σ : Type u} {α : Type v}

section

variable [FiniteSource σ α] {l : Lookahead σ α}

theorem view_of_source (source : σ) :
    ({ source := source } : Lookahead σ α).view = FiniteSource.remaining source := by
  rw [view, Ring.holds_empty.toList_eq, List.nil_append]

/-- What has been consumed is gone from the front. -/
theorem Moved.view_eq {l' : Lookahead σ α} {taken : List α} (h : l.Moved taken l') :
    l.view = taken ++ l'.view := by
  obtain ⟨-, k, hs, he⟩ := h
  rw [view, view, hs, Source.remaining_eq_items l.source k, ← List.append_assoc, ← he,
    List.append_assoc]

/-! ## Looking ahead -/

theorem Sound.fill (h : l.Sound) (n : Nat) : (l.fill n).2.Sound ∧ (l.fill n).2.view = l.view :=
  ⟨(moved_fill h n).sound, (moved_fill h n).view_eq.symm⟩

theorem Sound.peekNth (h : l.Sound) (n : Nat) :
    (l.peekNth n).2.Sound ∧ (l.peekNth n).2.view = l.view :=
  ⟨(moved_peekNth h n).sound, (moved_peekNth h n).view_eq.symm⟩

theorem Sound.spellsFrom [BEq α] (h : l.Sound) (n : Nat) (items : List α) :
    (l.spellsFrom n items).2.Sound ∧ (l.spellsFrom n items).2.view = l.view :=
  ⟨(moved_spellsFrom h n items).sound, (moved_spellsFrom h n items).view_eq.symm⟩

/-! ## Reading and handing back -/

theorem Sound.next (h : l.Sound) : l.next.2.Sound ∧ l.view = l.next.1.toList ++ l.next.2.view :=
  ⟨(moved_next h).sound, (moved_next h).view_eq⟩

theorem Sound.unread (h : l.Sound) (a : α) :
    (l.unread a).Sound ∧ (l.unread a).view = a :: l.view := by
  obtain ⟨hs, hl⟩ := unread_of_sound h a
  refine ⟨hs, ?_⟩
  rw [view, view, hl]
  rfl

end

/-! ## Sources that end for good -/

section

variable [FusedSource σ α] {l : Lookahead σ α}

theorem offers_iff_prefix_view {text : List α} : l.Offers text ↔ text <+: l.view := by
  constructor
  · rintro ⟨n, hp⟩
    rw [view, Source.remaining_eq_items l.source n, ← List.append_assoc]
    exact hp.trans (List.prefix_append _ _)
  · intro hp
    obtain ⟨n, hn⟩ := Source.exists_items_eq_remaining l.source
    refine ⟨n, ?_⟩
    rwa [upTo, hn]

theorem Sound.view_of_next_none (h : l.Sound) (hn : l.next.1 = none) : l.view = [] := by
  obtain ⟨hr, hs⟩ := h.next_none hn
  rw [view, hr, FusedSource.remaining_of_next l.source hs]
  rfl

theorem Sound.hasNext_eq (h : l.Sound) : l.hasNext.1 = !l.view.isEmpty := by
  rw [Bool.eq_iff_iff, h.hasNext_iff (Source.fused_of_remaining l.source)]
  simp only [offers_iff_prefix_view]
  cases l.view <;> simp [List.cons_prefix_cons]

theorem Sound.peek_eq (h : l.Sound) : l.peek.1 = l.view.head? := by
  ext a
  rw [h.peek_iff (Source.fused_of_remaining l.source), offers_iff_prefix_view]
  cases l.view <;> simp [List.cons_prefix_cons, eq_comm]

theorem Sound.isNextList_eq [BEq α] [LawfulBEq α] (h : l.Sound) (items : List α) :
    (l.isNextList items).1 = items.isPrefixOf l.view := by
  rw [Bool.eq_iff_iff, h.isNextList_iff (Source.fused_of_remaining l.source),
    offers_iff_prefix_view, List.isPrefixOf_iff_prefix]

end

end RewindLexer.Lookahead
