import RewindLexer.Proofs.Lookahead.Moves

/-!
# One sequence

The items in the ring of a lookahead and those that its source will still hand out make one
sequence. It need not end, so it is said by its beginnings, `Offers`. Main statement: whatever has
been asked of a lookahead, looking ahead leaves the sequence as it is, reading takes its first item
off or finds nothing, and handing back puts an item in front; if the source stays at its end, the
answers are those of the sequence.
-/

namespace RewindLexer

universe u v

variable {σ : Type u} {α : Type v}

/-! ## Sources that stay at their end -/

namespace Source

section

variable [Source σ α] {s : σ}

/-- Once the source has said that there is nothing, it hands out nothing any more. -/
def Fused (s : σ) : Prop :=
  ∀ k, (next (after s k)).1 = none → ∀ n, items (after s k) n = []

theorem Fused.after (h : Fused s) (k : Nat) : Fused (Source.after s k) := by
  intro j hj n
  rw [← after_add] at hj ⊢
  exact h (k + j) hj n

theorem Fused.items_eq_nil (h : Fused s) {k : Nat} (hk : (next (Source.after s k)).1 = none)
    (n : Nat) : items (Source.after s (k + 1)) n = [] := by
  have hi := h k hk (1 + n)
  rw [items_add, ← after_add] at hi
  exact (List.append_eq_nil_iff.1 hi).2

end

theorem remaining_eq_items [FiniteSource σ α] (s : σ) (k : Nat) :
    FiniteSource.remaining s = items s k ++ FiniteSource.remaining (after s k) := by
  induction k generalizing s with
  | zero => rfl
  | succ k ih => rw [FiniteSource.remaining_eq s, ih, items, after, List.append_assoc]

theorem fused_of_remaining [FusedSource σ α] (s : σ) : Fused s := by
  intro k hk n
  have hr := FusedSource.remaining_of_next (after s k) hk
  rw [remaining_eq_items _ n] at hr
  exact (List.append_eq_nil_iff.1 hr).1

theorem exists_items_eq_remaining [FusedSource σ α] (s : σ) :
    ∃ n, items s n = FiniteSource.remaining s := by
  induction hr : FiniteSource.remaining s generalizing s with
  | nil => exact ⟨0, rfl⟩
  | cons a rest ih =>
    have he := FiniteSource.remaining_eq s
    cases hn : (next s).1 with
    | none =>
      rw [FusedSource.remaining_of_next s hn] at hr
      cases hr
    | some b =>
      rw [hn, hr] at he
      obtain ⟨n, hi⟩ := ih (next s).2 (List.cons.inj he).2.symm
      refine ⟨n + 1, ?_⟩
      rw [items, hn, hi, (List.cons.inj he).1]
      rfl

end Source

namespace Lookahead

/-! ## Beginnings -/

/-- The beginnings of a sequence after `a` has been put in front of it. -/
def Prepended (a : α) (begins : List α → Prop) : List α → Prop
  | [] => True
  | b :: text => b = a ∧ begins text

theorem prepended_iff {a : α} {upTo : Nat → List α} {text : List α} :
    (∃ n, text <+: a :: upTo n) ↔ Prepended a (fun text => ∃ n, text <+: upTo n) text := by
  cases text with
  | nil => simp [Prepended]
  | cons b text => simp [Prepended, List.cons_prefix_cons]

theorem getElem?_eq_some_iff_prefix {xs : List α} {n : Nat} {a : α} :
    xs[n]? = some a ↔ ∃ before, before.length = n ∧ before ++ [a] <+: xs := by
  constructor
  · intro h
    obtain ⟨hn, ha⟩ := List.getElem?_eq_some_iff.1 h
    refine ⟨xs.take n, List.length_take_of_le (Nat.le_of_lt hn), ?_⟩
    rw [← ha, List.take_append_getElem hn]
    exact List.take_prefix _ _
  · rintro ⟨before, rfl, rest, rfl⟩
    simp

section

variable [Source σ α] {l l' : Lookahead σ α} {a : α} {text text' : List α} {n : Nat}

theorem offers_unread (h : l.Sound) (a : α) : (l.unread a).Offers = Prepended a l.Offers := by
  obtain ⟨-, hl⟩ := unread_of_sound h a
  funext text
  refine propext (Iff.trans ?_ prepended_iff)
  simp only [Offers, upTo, hl]
  rfl

theorem Moved.offers_eq (h : l.Moved [] l') : l'.Offers = l.Offers := by
  funext text
  exact propext (h.offers_iff text)

theorem Moved.offers_cons (h : l.Moved [a] l') : l.Offers = Prepended a l'.Offers := by
  funext text
  exact propext ((h.offers_iff text).symm.trans prepended_iff)

theorem Offers.of_prefix (h : l.Offers text') (hp : text <+: text') : l.Offers text := by
  obtain ⟨n, hn⟩ := h
  exact ⟨n, hp.trans hn⟩

/-- Of two beginnings the shorter one is a beginning of the other. -/
theorem Offers.prefix_of_le (h : l.Offers text) (h' : l.Offers text')
    (hle : text.length ≤ text'.length) : text <+: text' := by
  obtain ⟨n, hn⟩ := h
  obtain ⟨n', hn'⟩ := h'
  have hp := hn.trans (l.upTo_prefix n' n)
  have hp' := hn'.trans (l.upTo_prefix n n')
  rw [Nat.add_comm] at hp'
  exact List.prefix_of_prefix_length_le hp hp' hle

/-! ## What the ring shows -/

theorem size_pull_of_true (hp : (l.pull n).1 = true) :
    (l.pull n).2.ring.size = l.ring.size + n := by
  fun_induction Lookahead.pull l n with
  | case1 l => rfl
  | case2 l n a source hn ih =>
    rw [ih hp, Ring.size_pushBack]
    omega
  | case3 l n source hn => cases hp

theorem le_size_fill_of_true (hf : (l.fill n).1 = true) : n ≤ (l.fill n).2.ring.size := by
  have hs := size_pull_of_true hf
  rw [Lookahead.fill, hs]
  omega

/-- Items are missing only because the source has said that there is nothing. -/
theorem asked_of_pull_false (hp : (l.pull n).1 = false) :
    (l.pull n).2.ring.size < l.ring.size + n ∧
      ∃ k, (Source.next (Source.after l.source k)).1 = none ∧
        (l.pull n).2.source = Source.after l.source (k + 1) := by
  fun_induction Lookahead.pull l n with
  | case1 l => cases hp
  | case2 l n a source hn ih =>
    obtain ⟨hs, k, hk, he⟩ := ih hp
    rw [Ring.size_pushBack] at hs
    have hsource : source = (Source.next l.source).2 := by rw [hn]
    subst hsource
    exact ⟨by omega, k + 1, hk, he⟩
  | case3 l n source hn =>
    refine ⟨by simp, 0, ?_, ?_⟩
    · simp [Source.after, hn]
    · simp [Source.after, hn]

theorem size_fill_of_false (hf : (l.fill n).1 = false) : (l.fill n).2.ring.size < n := by
  obtain ⟨hs, -⟩ := asked_of_pull_false hf
  by_cases hn : n ≤ l.ring.size
  · rw [Lookahead.fill, Nat.sub_eq_zero_of_le hn] at hf
    cases hf
  · rw [Lookahead.fill]
    omega

theorem Sound.exists_cons_of_hasNext (h : l.Sound) (hn : l.hasNext.1 = true) :
    ∃ a rest, l.hasNext.2.ring.toList = a :: rest := by
  have hle := le_size_fill_of_true hn
  rw [(moved_fill h 1).sound.holds.size_eq] at hle
  exact List.exists_cons_of_length_pos hle

/-- If the source stays at its end, the ring shows as much of the sequence as it was filled for. -/
theorem Sound.offers_iff_prefix (h : l.Sound) (hs : Source.Fused l.source) (ht : text.length ≤ n) :
    l.Offers text ↔ text <+: (l.fill n).2.ring.toList := by
  have hm := moved_fill h n
  rw [← hm.offers_eq]
  constructor
  · rintro ⟨m, hp⟩
    -- Either the ring is long enough, or nothing comes after it any more.
    cases hf : (l.fill n).1 with
    | true =>
      have hle := le_size_fill_of_true hf
      rw [hm.sound.holds.size_eq] at hle
      exact List.prefix_of_prefix_length_le hp (List.prefix_append _ _) (by omega)
    | false =>
      obtain ⟨-, k, hk, he⟩ := asked_of_pull_false hf
      rw [upTo, Lookahead.fill, he, hs.items_eq_nil hk, List.append_nil] at hp
      exact hp
  · intro hp
    exact ⟨0, hp.trans (List.prefix_append _ _)⟩

/-! ## The answers of a source that stays at its end -/

theorem Sound.hasNext_iff (h : l.Sound) (hs : Source.Fused l.source) :
    l.hasNext.1 = true ↔ ∃ a, l.Offers [a] := by
  constructor
  · intro hn
    obtain ⟨a, rest, hr⟩ := h.exists_cons_of_hasNext hn
    refine ⟨a, (h.offers_iff_prefix hs (Nat.le_refl 1)).2 ?_⟩
    show [a] <+: l.hasNext.2.ring.toList
    rw [hr]
    exact List.prefix_append [a] rest
  · rintro ⟨a, ha⟩
    have hp := ((h.offers_iff_prefix hs (Nat.le_refl 1)).1 ha).length_le
    rw [← (moved_fill h 1).sound.holds.size_eq, List.length_singleton] at hp
    by_contra hn
    have hlt := size_fill_of_false (l := l) (n := 1) (eq_false_of_ne_true hn)
    omega

theorem Sound.lookAt_fst (h : l.Sound) (n : Nat) :
    (l.lookAt (n + 1) n).1 = (l.fill (n + 1)).2.ring.toList[n]? := by
  have hm := moved_fill h (n + 1)
  rw [Lookahead.lookAt]
  split
  · rename_i l' he
    rw [he] at hm ⊢
    exact hm.sound.holds.toOption_get n
  · rename_i l' he
    have hlt := size_fill_of_false (l := l) (n := n + 1) (by rw [he])
    rw [he] at hm hlt ⊢
    rw [hm.sound.holds.size_eq] at hlt
    exact (List.getElem?_eq_none (by omega)).symm

theorem Sound.lookAt_iff (h : l.Sound) (hs : Source.Fused l.source) :
    (l.lookAt (n + 1) n).1 = some a ↔
      ∃ before, before.length = n ∧ l.Offers (before ++ [a]) := by
  rw [h.lookAt_fst, getElem?_eq_some_iff_prefix]
  constructor
  · rintro ⟨before, hn, hp⟩
    exact ⟨before, hn, (h.offers_iff_prefix hs (by simp [hn])).2 hp⟩
  · rintro ⟨before, hn, ho⟩
    exact ⟨before, hn, (h.offers_iff_prefix hs (by simp [hn])).1 ho⟩

theorem Moved.fused (hm : l.Moved text l') (hs : Source.Fused l.source) :
    Source.Fused l'.source := by
  obtain ⟨-, k, hk, -⟩ := hm
  rw [hk]
  exact hs.after k

/-- Behind a beginning of the sequence a look finds the item that continues it. -/
theorem Sound.lookAt_behind_iff (h : l.Sound) (hs : Source.Fused l.source) {before : List α}
    (hb : l.Offers before) :
    (l.lookAt (before.length + 1) before.length).1 = some a ↔ l.Offers (before ++ [a]) := by
  rw [h.lookAt_iff hs]
  constructor
  · rintro ⟨before', hlen, ho⟩
    have hp := hb.prefix_of_le (ho.of_prefix (List.prefix_append _ _)) (Nat.le_of_eq hlen.symm)
    rwa [hp.eq_of_length hlen.symm]
  · intro ho
    exact ⟨before, rfl, ho⟩

theorem peekNth_of_lt (hn : n + 1 < wordSize) : l.peekNth n = l.lookAt (n + 1) n := by
  rw [Lookahead.peekNth, Nat.mod_eq_of_lt hn]

/-- Behind as many items as the largest word says, only what waits is looked at. -/
theorem peekNth_largest (hn : n + 1 = wordSize) : l.peekNth n = ((l.ring.get n).toOption, l) := by
  rw [Lookahead.peekNth, hn, Nat.mod_self, lookAt, Lookahead.fill, Nat.zero_sub, Lookahead.pull]

theorem Sound.peekNth_iff (h : l.Sound) (hs : Source.Fused l.source) (hn : n + 1 < wordSize) :
    (l.peekNth n).1 = some a ↔ ∃ before, before.length = n ∧ l.Offers (before ++ [a]) := by
  rw [peekNth_of_lt hn]
  exact h.lookAt_iff hs

theorem peek_eq_lookAt (l : Lookahead σ α) : l.peek = l.lookAt 1 0 :=
  rfl

theorem Sound.peek_iff (h : l.Sound) (hs : Source.Fused l.source) :
    l.peek.1 = some a ↔ l.Offers [a] := by
  rw [peek_eq_lookAt]
  exact h.lookAt_behind_iff hs ⟨0, List.nil_prefix⟩

theorem Sound.spellsFrom_iff [BEq α] [LawfulBEq α] (h : l.Sound) (hs : Source.Fused l.source)
    (before : List α) (hb : l.Offers before) (items : List α) :
    (l.spellsFrom before.length items).1 = true ↔ l.Offers (before ++ items) := by
  induction items generalizing l before with
  | nil => simpa [spellsFrom] using hb
  | cons a items ih =>
    have hm := moved_lookAt h (before.length + 1) before.length
    have hlook := h.lookAt_behind_iff (a := a) hs hb
    simp only [spellsFrom]
    split
    · rename_i ha
      have ho := hlook.1 (eq_of_beq ha)
      have hi := ih hm.sound (hm.fused hs) (before ++ [a]) (by rwa [hm.offers_eq])
      simpa [hm.offers_eq] using hi
    · rename_i ha
      constructor
      · intro hf
        cases hf
      · intro ho
        refine absurd (beq_iff_eq.2 (hlook.2 (ho.of_prefix ?_))) ha
        exact ⟨items, by simp⟩

theorem Sound.isNextList_iff [BEq α] [LawfulBEq α] (h : l.Sound) (hs : Source.Fused l.source)
    (items : List α) : (l.isNextList items).1 = true ↔ l.Offers items :=
  h.spellsFrom_iff hs [] ⟨0, List.nil_prefix⟩ items

theorem Sound.next_none (h : l.Sound) (hn : l.next.1 = none) :
    l.ring.toList = [] ∧ (Source.next l.source).1 = none := by
  cases hl : l.ring.toList with
  | nil =>
    rw [next_of_nil h hl] at hn
    exact ⟨rfl, hn⟩
  | cons a rest =>
    obtain ⟨ring, he, -⟩ := next_of_cons h hl
    rw [he] at hn
    cases hn

theorem Sound.next_iff (h : l.Sound) (hs : Source.Fused l.source) :
    l.next.1 = some a ↔ l.Offers [a] := by
  have hm := moved_next h
  cases hn : l.next.1 with
  | none =>
    obtain ⟨hr, hsource⟩ := h.next_none hn
    refine ⟨nofun, ?_⟩
    rintro ⟨n, hp⟩
    have hi : Source.items l.source n = [] := hs 0 hsource n
    rw [upTo, hr, hi] at hp
    cases List.prefix_nil.1 hp
  | some b =>
    rw [hn] at hm
    rw [hm.offers_cons]
    simp [Prepended, Offers, eq_comm]

end

/-! ## Histories -/

/-- What has happened to the sequence: its first item was taken, or an item was put in front. -/
inductive Event (α : Type v) where
  | took (a : α)
  | gave (a : α)

/-- The events lead from one sequence to another: each item taken was the first one then. -/
def Leads (begins : List α → Prop) : List (Event α) → (List α → Prop) → Prop
  | [], final => final = begins
  | .took a :: events, final => ∃ rest, begins = Prepended a rest ∧ Leads rest events final
  | .gave a :: events, final => Leads (Prepended a begins) events final

theorem Leads.append {V W X : List α → Prop} {events events' : List (Event α)}
    (h : Leads V events W) (h' : Leads W events' X) : Leads V (events ++ events') X := by
  induction events generalizing V with
  | nil =>
    cases h
    exact h'
  | cons e events ih =>
    cases e with
    | took a =>
      obtain ⟨rest, hv, hr⟩ := h
      exact ⟨rest, hv, ih hr⟩
    | gave a => exact ih h

theorem Sound.leads_next [Source σ α] {l : Lookahead σ α} (h : l.Sound) :
    Leads l.Offers (l.next.1.toList.map .took) l.next.2.Offers := by
  have hm := moved_next h
  cases hn : l.next.1 with
  | none =>
    rw [hn] at hm
    exact hm.offers_eq
  | some a =>
    rw [hn] at hm
    exact ⟨_, hm.offers_cons, rfl⟩

section

variable [Source σ α] [BEq α] {l : Lookahead σ α}

/-- What an operation does to the sequence. -/
def events (l : Lookahead σ α) : Op α → List (Event α)
  | .next | .nextD _ | .skip => l.next.1.toList.map .took
  | .unread a => [.gave a]
  | .hasNext | .peek | .peekD _ | .peekNth _ | .peekNthD _ _ | .isNext _ | .isNextList _ => []

def trace (l : Lookahead σ α) : List (Op α) → List (Event α)
  | [] => []
  | op :: history => l.events op ++ trace (l.perform op) history

theorem Sound.leads_perform (h : l.Sound) (op : Op α) :
    Leads l.Offers (l.events op) (l.perform op).Offers := by
  cases op with
  | next | nextD | skip => exact h.leads_next
  | unread a => exact offers_unread h a
  | hasNext | peek | peekD | peekNth | peekNthD | isNext | isNextList =>
    exact (moved_of_looks h rfl).offers_eq

theorem Sound.leads_trace (h : l.Sound) (history : List (Op α)) :
    Leads l.Offers (l.trace history) (history.foldl Lookahead.perform l).Offers := by
  induction history generalizing l with
  | nil => rfl
  | cons op history ih => exact (h.leads_perform op).append (ih (h.perform op))

theorem fused_perform (h : l.Sound) (hs : Source.Fused l.source) (op : Op α) :
    Source.Fused (l.perform op).source := by
  cases op with
  | next | nextD | skip => exact (moved_next h).fused hs
  | unread a => exact hs
  | hasNext | peek | peekD | peekNth | peekNthD | isNext | isNextList =>
    exact (moved_of_looks h rfl).fused hs

theorem fused_reached {source : σ} (hs : Source.Fused source) (history : List (Op α)) :
    Source.Fused (reached source history).source := by
  have hfold : ∀ l : Lookahead σ α, l.Sound → Source.Fused l.source →
      Source.Fused (history.foldl Lookahead.perform l).source := by
    induction history with
    | nil => intro l _ hl; exact hl
    | cons op history ih =>
      intro l h hl
      exact ih _ (h.perform op) (fused_perform h hl op)
  exact hfold _ (sound_of_source source) hs

end

/-- For every source and every history the items of the ring and those still to be handed out are
one sequence. The events of the history lead to it from the sequence of the source; handing back,
looking ahead and reading do to it what they say; after a positive answer reading finds an item.
If the source stays at its end, the answers are those of the sequence; a look behind `n` items needs
a word for one more. -/
theorem reached_is_sequence [Source σ α] [BEq α] [LawfulBEq α] (source : σ)
    (history : List (Op α)) :
    let start : Lookahead σ α := { source := source }
    let l := reached source history
    Leads start.Offers (start.trace history) l.Offers ∧
    (∀ a, (l.unread a).Offers = Prepended a l.Offers) ∧
    (∀ op : Op α, op.looks = true → (l.perform op).Offers = l.Offers) ∧
    (match l.next with
      | (some a, l') =>
        l.Offers = Prepended a l'.Offers ∧ (∀ default, l.nextD default = (a, l')) ∧ l.skip = l'
      | (none, l') =>
        l'.Offers = l.Offers ∧ (∀ default, l.nextD default = (default, l')) ∧ l.skip = l') ∧
    (l.hasNext.1 = true → ∃ a, l.hasNext.2.next.1 = some a) ∧
    (Source.Fused source →
      (∀ a, l.next.1 = some a ↔ l.Offers [a]) ∧
      (l.hasNext.1 = true ↔ ∃ a, l.Offers [a]) ∧
      (∀ n a, n + 1 < wordSize →
        ((l.peekNth n).1 = some a ↔ ∃ before, before.length = n ∧ l.Offers (before ++ [a]))) ∧
      ∀ items, (l.isNextList items).1 = true ↔ l.Offers items) := by
  intro start l
  have h : l.Sound := sound_reached source history
  refine ⟨(sound_of_source source).leads_trace history, offers_unread h,
    fun op ho => (moved_of_looks h ho).offers_eq, ?_, ?_, ?_⟩
  · have hm := moved_next h
    cases hn : l.next with
    | mk answer l' =>
      rw [hn] at hm
      cases answer with
      | none => exact ⟨hm.offers_eq, by simp [nextD, hn], by simp [skip, hn]⟩
      | some a => exact ⟨hm.offers_cons, by simp [nextD, hn], by simp [skip, hn]⟩
  · intro hn
    obtain ⟨a, rest, hr⟩ := h.exists_cons_of_hasNext hn
    obtain ⟨ring, he, -⟩ := next_of_cons (moved_fill h 1).sound hr
    exact ⟨a, congrArg Prod.fst he⟩
  · intro hf
    have hs : Source.Fused l.source := fused_reached hf history
    exact ⟨fun a => h.next_iff hs, h.hasNext_iff hs, fun n a hn => h.peekNth_iff hs hn,
      h.isNextList_iff hs⟩

/-- A source with a gap that has been looked at, and one that stays at its end. -/
theorem reached_is_sequence_gap :
    let l := reached (⟨[some 'a', none, some 'b']⟩ : Script Char) [.peekNth 5, .next, .unread 'z']
    let l' := reached ['a', 'b'] [.next, .unread 'x']
    (l.hasNext.1 = true ∧ ∃ a, l.hasNext.2.next.1 = some a) ∧
      (l.unread 'y').Offers = Prepended 'y' l.Offers ∧
      Source.Fused ['a', 'b'] ∧ (∃ before, before.length = 1 ∧ l'.Offers (before ++ ['b'])) ∧
      (l'.isNextList ['x', 'b']).1 = true ∧ l'.Offers ['x', 'b'] := by
  intro l l'
  obtain ⟨-, hunread, -, -, hnext, -⟩ := reached_is_sequence
    (⟨[some 'a', none, some 'b']⟩ : Script Char) [.peekNth 5, .next, .unread 'z']
  obtain ⟨-, -, -, -, -, hexact⟩ := reached_is_sequence ['a', 'b'] [.next, .unread 'x']
  have hf : Source.Fused ['a', 'b'] := Source.fused_of_remaining _
  obtain ⟨-, -, hpeek, hcompare⟩ := hexact hf
  have hh : l.hasNext.1 = true := by decide +kernel
  have hp : (l'.peekNth 1).1 = some 'b' := by decide +kernel
  have hi : (l'.isNextList ['x', 'b']).1 = true := by decide +kernel
  exact ⟨⟨hh, hnext hh⟩, hunread 'y', hf, (hpeek 1 'b' (by decide)).1 hp, hi,
    (hcompare ['x', 'b']).1 hi⟩

end Lookahead

end RewindLexer
