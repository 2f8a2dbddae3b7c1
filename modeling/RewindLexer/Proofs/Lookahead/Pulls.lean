import RewindLexer.Proofs.Lookahead.View

/-!
# How often a source is asked

To read from a source sooner than needed does not show in the answers, but keeps a reader of live
input waiting. `l.Fills n l'` says that from `l` to `l'` the source has been asked for just as many
items as were missing from `n`, or for all that it had and then once in vain. Main statement:
reading asks only if nothing waits, and handing back never; looking behind `n` items fills for one
more than `n`; comparing with a list fills up to the first difference. The source may be one that
never ends.
-/

namespace RewindLexer

universe u v

variable {σ : Type u} {α : Type v}

namespace Source

section

variable [Source σ α] {s : σ}

/-- Counting changes nothing else. -/
theorem after_counted (s : Counted σ) (k : Nat) : after s k = ⟨after s.source k, s.pulls + k⟩ := by
  induction k generalizing s with
  | zero => rfl
  | succ k ih =>
    rw [after, ih, after, Nat.add_comm k 1, ← Nat.add_assoc]
    rfl

theorem pulls_after (s : Counted σ) (k : Nat) : (after s k).pulls = s.pulls + k := by
  rw [after_counted]

theorem items_counted (s : Counted σ) (k : Nat) : items s k = items s.source k := by
  induction k generalizing s with
  | zero => rfl
  | succ k ih =>
    rw [items, ih, items]
    rfl

theorem Fused.counted (h : Fused s) (pulls : Nat) : Fused (⟨s, pulls⟩ : Counted σ) := by
  intro k hk n
  rw [after_counted] at hk ⊢
  rw [items_counted]
  exact h k hk n

end

end Source

namespace Lookahead

section

variable [Source σ α] {l l' l'' : Lookahead σ α} {m n : Nat} {a : α}

/-! ## How much there is -/

/-- At least `n` items can still be consumed. -/
def Has (l : Lookahead σ α) (n : Nat) : Prop :=
  ∃ text, text.length = n ∧ l.Offers text

/-- Just the items of `text` can still be consumed. -/
def Comprises (l : Lookahead σ α) (text : List α) : Prop :=
  l.Offers = (· <+: text)

/-- What `items` and the sequence have in common at the beginning are `k` items. -/
structure Shares (l : Lookahead σ α) (items : List α) (k : Nat) : Prop where
  le : k ≤ items.length
  iff : ∀ j ≤ items.length, l.Offers (items.take j) ↔ j ≤ k

theorem Offers.has {text : List α} (h : l.Offers text) (hn : n ≤ text.length) : l.Has n :=
  ⟨text.take n, List.length_take_of_le hn, h.of_prefix (List.take_prefix n text)⟩

theorem Moved.has_iff (h : l.Moved [] l') : l'.Has n ↔ l.Has n := by
  rw [Has, Has, h.offers_eq]

theorem Moved.comprises_iff {text : List α} (h : l.Moved [] l') :
    l'.Comprises text ↔ l.Comprises text := by
  rw [Comprises, Comprises, h.offers_eq]

/-! ## Filling -/

/-- The items missing from `n` have been asked for one by one; or all that there were, and then one
more, which the source did not have. -/
inductive Fills (l : Lookahead σ α) (n : Nat) (l' : Lookahead σ α) : Prop where
  | enough (k : Nat) (hv : l.Has n) (hb : l'.buffered = max l.buffered n)
    (hk : l.buffered + k = l'.buffered) (hs : l'.source = Source.after l.source k)
  | short (k : Nat) (hv : ¬l.Has n) (hb : l.Comprises l'.ring.toList)
    (hk : l.buffered + k = l'.buffered) (hlast : (Source.next (Source.after l.source k)).1 = none)
    (hs : l'.source = Source.after l.source (k + 1))

theorem Fills.refl (hv : l.Has n) (hn : n ≤ l.buffered) : l.Fills n l :=
  .enough 0 hv (Nat.max_eq_left hn).symm rfl rfl

/-- Filling goes on from where an earlier filling has stopped. -/
theorem Fills.trans (h : l.Fills m l') (hm : l.Moved [] l') (h' : l'.Fills n l'') (hv : l.Has m)
    (hmn : m ≤ n) : l.Fills n l'' := by
  cases h with
  | short _ hnot => exact absurd hv hnot
  | enough k _ hb hk hs =>
    cases h' with
    | enough k' hv' hb' hk' hs' =>
      refine .enough (k + k') (hm.has_iff.1 hv') ?_ ?_ ?_
      · rw [hb', hb]
        omega
      · omega
      · rw [hs', hs, Source.after_add]
    | short k' hnot hb' hk' hlast hs' =>
      rw [hs, ← Source.after_add] at hlast hs'
      exact .short (k + k') (fun hv' => hnot (hm.has_iff.2 hv')) (hm.comprises_iff.1 hb') (by omega)
        hlast hs'

theorem source_pull_of_true (hp : (l.pull n).1 = true) :
    (l.pull n).2.source = Source.after l.source n := by
  fun_induction Lookahead.pull l n with
  | case1 l => rfl
  | case2 l n a source hn ih =>
    rw [ih hp, Source.after, hn]
  | case3 l n source hn => cases hp

/-- Whenever the source is asked for nothing, the items before are in the ring. -/
theorem source_pull_of_false (hp : (l.pull n).1 = false) :
    ∃ k, l.ring.size + k = (l.pull n).2.ring.size ∧
      (Source.next (Source.after l.source k)).1 = none ∧
      (l.pull n).2.source = Source.after l.source (k + 1) := by
  fun_induction Lookahead.pull l n with
  | case1 l => cases hp
  | case2 l n a source hn ih =>
    obtain ⟨k, hk, hlast, hs⟩ := ih hp
    have hsource : source = (Source.next l.source).2 := by rw [hn]
    subst hsource
    rw [Ring.size_pushBack] at hk
    exact ⟨k + 1, by omega, hlast, hs⟩
  | case3 l n source hn =>
    refine ⟨0, rfl, ?_, ?_⟩
    · simp [Source.after, hn]
    · simp [Source.after, hn]

theorem comprises_of_last {k : Nat} (hf : Source.Fused l.source) (hm : l.Moved [] l')
    (hlast : (Source.next (Source.after l.source k)).1 = none)
    (hs : l'.source = Source.after l.source (k + 1)) : l.Comprises l'.ring.toList := by
  rw [← hm.comprises_iff]
  funext text
  simp only [Offers, upTo, hs, hf.items_eq_nil hlast, List.append_nil, exists_const]

theorem Sound.fills_fill (h : l.Sound) (hf : Source.Fused l.source) (n : Nat) :
    l.Fills n (l.fill n).2 := by
  have hm := moved_fill h n
  have hlen : (l.fill n).2.buffered = (l.fill n).2.ring.toList.length := hm.sound.holds.size_eq
  cases hp : (l.fill n).1 with
  | true =>
    have hb : (l.fill n).2.buffered = l.buffered + (n - l.buffered) := size_pull_of_true hp
    have hv : (l.fill n).2.Offers (l.fill n).2.ring.toList := ⟨0, List.prefix_append _ _⟩
    refine .enough (n - l.buffered) (hm.has_iff.1 (hv.has ?_)) ?_ hb.symm (source_pull_of_true hp)
    · omega
    · omega
  | false =>
    obtain ⟨k, hk, hlast, hs⟩ := source_pull_of_false hp
    have hc := comprises_of_last hf hm hlast hs
    have hlt : (l.fill n).2.buffered < n := size_fill_of_false hp
    refine .short k ?_ hc hk hlast hs
    rintro ⟨text, hn, ho⟩
    rw [hc] at ho
    have hle := ho.length_le
    omega

theorem snd_lookAt (l : Lookahead σ α) (enough n : Nat) :
    (l.lookAt enough n).2 = (l.fill enough).2 := by
  rw [lookAt]
  split <;> rename_i h <;> rw [h]

theorem Sound.fills_lookAt (h : l.Sound) (hf : Source.Fused l.source) (enough n : Nat) :
    l.Fills enough (l.lookAt enough n).2 := by
  rw [snd_lookAt]
  exact h.fills_fill hf enough

/-- Whether an operation takes the next item off. -/
def Op.takes : Op α → Bool
  | .next | .nextD _ | .skip => true
  | .hasNext | .unread _ | .peek | .peekD _ | .peekNth _ | .peekNthD _ _ | .isNext _
  | .isNextList _ => false

/-- The number of items that are to wait for an operation that looks at one of them. -/
def Op.wants : Op α → Option Nat
  | .hasNext | .peek | .peekD _ | .isNext _ => some 1
  | .peekNth n | .peekNthD n _ => some (n + 1)
  | .next | .nextD _ | .skip | .unread _ | .isNextList _ => none

theorem Sound.fills_of_wants [BEq α] (h : l.Sound) (hf : Source.Fused l.source) {op : Op α}
    (ho : op.wants = some n) (hn : n < wordSize) : l.Fills n (l.perform op) := by
  cases op with
  | hasNext =>
    cases ho
    exact h.fills_fill hf 1
  | peek | peekD | isNext =>
    cases ho
    exact h.fills_lookAt hf 1 0
  | peekNth k | peekNthD k =>
    cases ho
    have hfill := h.fills_lookAt hf (k + 1) k
    rw [← peekNth_of_lt hn] at hfill
    exact hfill
  | next | nextD | skip | unread | isNextList => cases ho

/-! ## Comparing -/

/-- Behind `before`, which waits already, a comparison fills for the items that are the same and for
the one that is not, if any. -/
theorem Sound.exists_fills_spellsFrom [BEq α] [LawfulBEq α] (h : l.Sound)
    (hf : Source.Fused l.source) {before : List α} (hb : l.Offers before)
    (hle : before.length ≤ l.buffered) (items : List α) :
    ∃ k ≤ items.length, (∀ j ≤ items.length, l.Offers (before ++ items.take j) ↔ j ≤ k) ∧
      l.Fills (before.length + min (k + 1) items.length) (l.spellsFrom before.length items).2 := by
  induction items generalizing l before with
  | nil =>
    refine ⟨0, Nat.le_refl 0, ?_, ?_⟩
    · simpa using hb
    · exact Fills.refl (hb.has (Nat.le_refl _)) hle
  | cons a items ih =>
    have hm := moved_lookAt h (before.length + 1) before.length
    have hfill := h.fills_lookAt hf (before.length + 1) before.length
    have hlook := h.lookAt_behind_iff (a := a) hf hb
    simp only [Lookahead.spellsFrom]
    split
    · rename_i ha
      have ho := hlook.1 (eq_of_beq ha)
      have hv : l.Has (before.length + 1) := ho.has (by simp)
      have hle' : (before ++ [a]).length ≤
          (l.lookAt (before.length + 1) before.length).2.buffered := by
        cases hfill with
        | enough k _ hb' =>
          rw [hb', List.length_append]
          exact Nat.le_max_right _ _
        | short k hnot => exact absurd hv hnot
      obtain ⟨k, hk, hj, hfill'⟩ := ih hm.sound (hm.fused hf) (hm.offers_eq ▸ ho) hle'
      rw [List.length_append, List.length_singleton] at hfill'
      refine ⟨k + 1, Nat.succ_le_succ hk, ?_, ?_⟩
      · intro j hjle
        cases j with
        | zero => simpa using hb
        | succ j =>
          have hj' := hj j (Nat.le_of_succ_le_succ hjle)
          simpa [hm.offers_eq] using hj'
      · have hmin : before.length + min (k + 1 + 1) (items.length + 1) =
            before.length + 1 + min (k + 1) items.length := by omega
        rw [List.length_cons, hmin]
        exact hfill.trans hm hfill' hv (Nat.le_add_right _ _)
    · rename_i ha
      refine ⟨0, Nat.zero_le _, ?_, ?_⟩
      · intro j hjle
        cases j with
        | zero => simpa using hb
        | succ j =>
          refine iff_of_false ?_ (Nat.not_succ_le_zero j)
          intro ho
          refine absurd (beq_iff_eq.2 (hlook.2 (ho.of_prefix ?_))) ha
          exact ⟨items.take j, by simp⟩
      · rw [List.length_cons, Nat.min_eq_left (by omega)]
        exact hfill

theorem Sound.exists_fills_isNextList [BEq α] [LawfulBEq α] (h : l.Sound)
    (hf : Source.Fused l.source) (items : List α) :
    ∃ k, l.Shares items k ∧ l.Fills (min (k + 1) items.length) (l.isNextList items).2 := by
  have hb : l.Offers [] := ⟨0, List.nil_prefix⟩
  obtain ⟨k, hk, hj, hfill⟩ := h.exists_fills_spellsFrom hf hb (Nat.zero_le _) items
  rw [List.length_nil, Nat.zero_add] at hfill
  exact ⟨k, ⟨hk, hj⟩, hfill⟩

end

/-! ## Pulls -/

section

variable [Source σ α] {l l' : Lookahead (Counted σ) α} {n : Nat}

/-- At least `n` items wait, and the source has been asked once for each item that came to wait. -/
structure Supplies (l : Lookahead (Counted σ) α) (n : Nat) (l' : Lookahead (Counted σ) α) :
    Prop where
  buffered_eq : l'.buffered = max l.buffered n
  pulls_eq : l'.source.pulls + l.buffered = l.source.pulls + l'.buffered

/-- All that can be consumed waits, and the source has been asked once more and had nothing. -/
structure Exhausts (l l' : Lookahead (Counted σ) α) : Prop where
  comprises : l.Comprises l'.ring.toList
  pulls_eq : l'.source.pulls + l.buffered = l.source.pulls + l'.buffered + 1
  last : (Source.next (Source.after l.source (l'.buffered - l.buffered))).1 = none

theorem Fills.supplies (h : l.Fills n l') (hv : l.Has n) : l.Supplies n l' := by
  cases h with
  | enough k _ hb hk hs =>
    refine ⟨hb, ?_⟩
    rw [hs, Source.pulls_after, ← hk]
    omega
  | short _ hnot => exact absurd hv hnot

theorem Fills.exhausts (h : l.Fills n l') (hv : ¬l.Has n) : l.Exhausts l' := by
  cases h with
  | enough _ hhas => exact absurd hhas hv
  | short k _ hb hk hlast hs =>
    refine ⟨hb, ?_, ?_⟩
    · rw [hs, Source.pulls_after, ← hk]
      omega
    · rw [← hk, Nat.add_sub_cancel_left]
      exact hlast

theorem Sound.pulls_next (h : l.Sound) :
    l.next.2.source.pulls = l.source.pulls + if l.buffered = 0 then 1 else 0 := by
  have hsize : l.buffered = l.ring.toList.length := h.holds.size_eq
  cases hl : l.ring.toList with
  | nil =>
    rw [next_of_nil h hl, hsize, hl]
    rfl
  | cons a rest =>
    obtain ⟨ring, hn, -⟩ := next_of_cons h hl
    rw [hn, hsize, hl]
    rfl

variable [BEq α] {op : Op α}

theorem Sound.pulls_of_takes (h : l.Sound) (ho : op.takes = true) :
    (l.perform op).source.pulls = l.source.pulls + if l.buffered = 0 then 1 else 0 := by
  cases op with
  | next | nextD | skip => exact h.pulls_next
  | hasNext | unread | peek | peekD | peekNth | peekNthD | isNext | isNextList => cases ho

/-- Whatever has been asked of a lookahead, whose source stays at its end: taking the next item off
pulls once if nothing waits, and else not at all; handing back does not pull; looking ahead pulls
until as many items wait as are wanted; comparing pulls until the items that are the same wait, and
the first that is not. Where there are not as many, all wait and one pull is in vain. -/
theorem reached_pulls_on_demand [LawfulBEq α] (source : σ) (hf : Source.Fused source)
    (history : List (Op α)) :
    let l := reached ({ source := source } : Counted σ) history
    (∀ op : Op α, op.takes = true →
      (l.perform op).source.pulls = l.source.pulls + if l.buffered = 0 then 1 else 0) ∧
    (∀ a, (l.unread a).source = l.source) ∧
    (∀ (op : Op α) (n : Nat), op.wants = some n → n < wordSize →
      (l.Has n → l.Supplies n (l.perform op)) ∧ (¬l.Has n → l.Exhausts (l.perform op))) ∧
    (∀ n, n + 1 = wordSize → (l.peekNth n).2 = l) ∧
    ∀ items, ∃ k, l.Shares items k ∧
      (k = items.length → l.Supplies items.length (l.isNextList items).2) ∧
      (k < items.length → l.Has (k + 1) → l.Supplies (k + 1) (l.isNextList items).2) ∧
      (k < items.length → ¬l.Has (k + 1) → l.Exhausts (l.isNextList items).2) := by
  intro l
  have h : l.Sound := sound_reached _ history
  have hs : Source.Fused l.source := fused_reached (hf.counted 0) history
  refine ⟨fun op ho => h.pulls_of_takes ho, fun a => rfl, ?_, ?_, ?_⟩
  · intro op n ho hn
    have hfill := h.fills_of_wants hs ho hn
    exact ⟨hfill.supplies, hfill.exhausts⟩
  · intro n hn
    rw [peekNth_largest hn]
  · intro items
    obtain ⟨k, hshares, hfill⟩ := h.exists_fills_isNextList hs items
    refine ⟨k, hshares, ?_, ?_, ?_⟩
    · intro hk
      have ho := (hshares.iff items.length (Nat.le_refl _)).2 (Nat.le_of_eq hk.symm)
      rw [Nat.min_eq_right (by omega)] at hfill
      exact hfill.supplies (ho.has (by simp))
    · intro hk
      rw [Nat.min_eq_left hk] at hfill
      exact hfill.supplies
    · intro hk
      rw [Nat.min_eq_left hk] at hfill
      exact hfill.exhausts

end

/-! ## Sources that end -/

section

variable [FusedSource σ α] {l : Lookahead σ α} {n : Nat}

theorem has_iff_le_view : l.Has n ↔ n ≤ l.view.length := by
  constructor
  · rintro ⟨text, rfl, ho⟩
    exact (offers_iff_prefix_view.1 ho).length_le
  · intro hn
    exact (offers_iff_prefix_view.2 (List.prefix_refl _)).has hn

end

/-- Of four items two wait, one of them handed back. A comparison that fails at the third pulls that
one; a look behind seven pulls all and once more. -/
theorem reached_pulls_on_demand_difference :
    let l := reached ({ source := ['a', 'b', 'c'] } : Counted (List Char)) [.peek, .unread 'z']
    Source.Fused ['a', 'b', 'c'] ∧ l.buffered = 2 ∧ l.source.pulls = 1 ∧
      (l.perform .skip).source.pulls = 1 ∧
      (¬l.Has 8 ∧ l.Exhausts (l.perform (.peekNth 7)) ∧
        (l.perform (.peekNth 7)).source.pulls = 4) ∧
      l.Shares ['z', 'a', 'x', 'y'] 2 ∧ l.Has 3 ∧ l.Supplies 3 (l.perform (.peekNthD 2 '-')) ∧
      l.Supplies 3 (l.isNextList ['z', 'a', 'x', 'y']).2 := by
  intro l
  have hf : Source.Fused ['a', 'b', 'c'] := Source.fused_of_remaining _
  obtain ⟨htake, -, hlook, -, hcompare⟩ :=
    reached_pulls_on_demand ['a', 'b', 'c'] hf [.peek, .unread 'z']
  have hview : l.view = ['z', 'a', 'b', 'c'] := by decide +kernel
  have hhas : l.Has 3 := by
    rw [has_iff_le_view, hview]
    decide
  have hnot : ¬l.Has 8 := by
    rw [has_iff_le_view, hview]
    decide
  obtain ⟨k, hshares, -, hsupplies, -⟩ := hcompare ['z', 'a', 'x', 'y']
  have hk : k = 2 := by
    have h2 := (hshares.iff 2 (by decide)).1 (by rw [offers_iff_prefix_view, hview]; decide)
    have h3 := mt (hshares.iff 3 (by decide)).2 (by rw [offers_iff_prefix_view, hview]; decide)
    omega
  subst hk
  have hlast := (hlook (.peekNth 7) 8 rfl (by decide)).2 hnot
  have hthird := (hlook (.peekNthD 2 '-') 3 rfl (by decide)).1 hhas
  exact ⟨hf, by decide +kernel, by decide +kernel, htake .skip rfl,
    ⟨hnot, hlast, by decide +kernel⟩, hshares, hhas, hthird, hsupplies (by decide) hhas⟩

end Lookahead

end RewindLexer
