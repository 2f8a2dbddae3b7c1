import Mathlib.Data.List.TakeWhile
import RewindLexer.Proofs.Lexer.Reads

/-!
# How far a reader looks

What a reader answers depends on the text it takes off the input and on little more. Inside a string
nothing more is looked at; a run is ended by the character after it; and whether `#` opens a comment
shows after two more characters. So the input after a token may be replaced by one that begins with
the same three characters, or cut off anywhere by a blank.
-/

namespace RewindLexer

open Text

/-! ## Classes of characters -/

theorem Text.forall_ascii {P : Char → Prop} (h : ∀ n < 128, P (Char.ofNat n)) {c : Char}
    (hc : c.toNat < 128) : P c := by
  have hp := h c.toNat hc
  rwa [Char.ofNat_toNat] at hp

/-- The white space of the tables, one code point after the other. -/
def Text.whiteSpaceCodes : List Nat :=
  whiteSpaceRanges.intervals.flatMap fun r => List.range' r.1 (r.2 + 1 - r.1)

theorem Text.mem_whiteSpaceCodes {c : Char} (h : isBlank c = true) : c.toNat ∈ whiteSpaceCodes := by
  simp only [isBlank, Bool.and_eq_true] at h
  obtain ⟨r, hr, hlo, hhi⟩ := Ranges.contains_iff.1 h.1
  refine List.mem_flatMap.2 ⟨r, hr, List.mem_range'.2 ⟨c.toNat - r.1, ?_, ?_⟩⟩ <;> omega

/-- No token goes on with a blank. -/
theorem classes_of_isBlank {c : Char} (h : isBlank c = true) :
    isNameChar c = false ∧ Numeral.isDigit c = false ∧ isSign c = false ∧ c ≠ '#' := by
  have hall : ∀ n ∈ whiteSpaceCodes, isNameChar (Char.ofNat n) = false ∧
      Numeral.isDigit (Char.ofNat n) = false ∧ isSign (Char.ofNat n) = false ∧
      Char.ofNat n ≠ '#' := by
    decide +kernel
  have hc := hall _ (mem_whiteSpaceCodes h)
  rwa [Char.ofNat_toNat] at hc

/-- A comment that ends with its line does so in front of any text. -/
theorem Trivia.of_ne_nil {rest rest' cs : List Char} (h : Trivia rest cs) (hr : rest ≠ []) :
    Trivia rest' cs := by
  induction h with
  | nil => exact .nil
  | blank hc _ ih => exact .blank hc ih
  | comment hl hc _ ih => exact .comment hl hc ih
  | lastComment hl he => exact absurd he hr

namespace Reference

variable {limit : Nat} {quote c : Char} {cs rest : List Char}

/-! ## Inside a string -/

/-- A reader that has answered `r` and left `rest` has decided on the text that it took off,
whatever comes after it; or it has run into the end of the input. -/
def Settles {α : Type} (f : List Char → Except LexError α × List Char) (cs : List Char)
    (r : Except LexError α) (rest : List Char) : Prop :=
  (∃ text, cs = text ++ rest ∧ ∀ rest', f (text ++ rest') = (r, rest')) ∨
    r = .error .endOfInput ∧ rest = []

theorem entityFrom_settles {body : List Char} {r : Except LexError (List Char)}
    (h : entityFrom limit body cs = (r, rest)) : Settles (entityFrom limit body) cs r rest := by
  fun_induction entityFrom limit body cs with
  | case1 =>
    cases h
    exact .inr ⟨rfl, rfl⟩
  | case2 body cs =>
    cases h
    exact .inl ⟨[';'], rfl, fun rest => by simp [entityFrom]⟩
  | case3 body c cs hc hl =>
    cases h
    refine .inl ⟨[c], rfl, fun rest => ?_⟩
    rw [List.singleton_append, entityFrom, if_neg hc, if_pos hl]
  | case4 body c cs hc hl ih =>
    rcases ih h with ⟨text, rfl, hd⟩ | he
    · refine .inl ⟨c :: text, rfl, fun rest => ?_⟩
      rw [List.cons_append, entityFrom, if_neg hc, if_neg hl, hd]
    · exact .inr he

theorem entity_settles {r : Except LexError Char} (h : entity limit cs = (r, rest)) :
    Settles (entity limit) cs r rest := by
  rw [entity_eq] at h
  cases hb : entityFrom limit [] cs with
  | mk answer rest' =>
    rw [hb] at h
    rcases entityFrom_settles hb with ⟨text, rfl, hd⟩ | ⟨rfl, rfl⟩
    · cases answer <;> cases h <;> exact .inl ⟨text, rfl, fun rest => by rw [entity_eq, hd]⟩
    · cases h
      exact .inr ⟨rfl, rfl⟩

theorem escape_settles {r : Except LexError Char} (h : escape limit cs = (r, rest)) :
    Settles (escape limit) cs r rest := by
  fun_induction escape limit cs with
  | case1 =>
    cases h
    exact .inr ⟨rfl, rfl⟩
  | case2 cs ih =>
    rcases ih h with ⟨text, rfl, hd⟩ | he
    · exact .inl ⟨'&' :: '\\' :: text, rfl, fun rest => by rw [← hd rest]; simp [escape]⟩
    · exact .inr he
  | case3 cs hcs =>
    rcases entity_settles h with ⟨text, rfl, hd⟩ | he
    · cases text with
      | nil =>
        -- No entity leaves the `;` that ends it.
        have hsemicolon := congrArg Prod.snd (hd [';'])
        simp [entity] at hsemicolon
      | cons d text =>
        refine .inl ⟨'&' :: d :: text, rfl, fun rest => ?_⟩
        rw [List.cons_append, escape_entity limit, hd]
        intro hhead
        simp only [List.cons_append, List.head?_cons, Option.some.injEq] at hhead
        subst hhead
        exact hcs _ rfl
    · exact .inr he
  | case4 d cs _ hd =>
    cases h
    exact .inl ⟨[d], rfl, fun rest => escape_of_ne limit hd rest⟩

theorem item_settles {r : Except LexError Char} (h : item limit c cs = (r, rest)) :
    Settles (item limit c) cs r rest := by
  rw [item] at h
  split at h
  · rename_i hc
    rcases escape_settles h with ⟨text, rfl, hd⟩ | he
    · exact .inl ⟨text, rfl, fun rest => by rw [item, if_pos hc, hd]⟩
    · exact .inr he
  · rename_i hc
    cases h
    exact .inl ⟨[], rfl, fun rest => by rw [item, if_neg hc]; rfl⟩

theorem quotation_settles {r : Except LexError (List Char)}
    (h : quotation limit quote cs = (r, rest)) : Settles (quotation limit quote) cs r rest := by
  -- The items of the string are not of one length, so the induction is on the length.
  induction hn : cs.length using Nat.strongRecOn generalizing cs rest r with
  | ind n ih =>
    cases cs with
    | nil =>
      rw [quotation] at h
      cases h
      exact .inr ⟨rfl, rfl⟩
    | cons c cs =>
      by_cases hc : c = quote
      · rw [quotation_cons, if_pos hc] at h
        cases h
        refine .inl ⟨[c], rfl, fun rest => ?_⟩
        rw [List.singleton_append, quotation_cons, if_pos hc]
      · cases hi : item limit c cs with
        | mk answer cs' =>
          cases answer with
          | error e =>
            rw [quotation_of_item_error hc hi] at h
            cases h
            rcases item_settles hi with ⟨text, rfl, hd⟩ | ⟨he, hr⟩
            · exact .inl ⟨c :: text, rfl, fun rest => quotation_of_item_error hc (hd rest)⟩
            · cases he
              exact .inr ⟨rfl, hr⟩
          | ok d =>
            rw [quotation_of_item_ok hc hi] at h
            cases h
            rcases item_settles hi with ⟨text, rfl, hd⟩ | ⟨he, -⟩
            · have hlt : cs'.length < n := by
                rw [← hn, List.length_cons, List.length_append]
                omega
              rcases ih cs'.length hlt rfl rfl with ⟨text', he, hd'⟩ | ⟨he, hr⟩
              · refine .inl ⟨c :: (text ++ text'), ?_, fun rest => ?_⟩
                · rw [List.cons_append, List.append_assoc, ← he]
                · rw [List.cons_append, List.append_assoc, quotation_of_item_ok hc (hd _), hd']
              · refine .inr ⟨?_, hr⟩
                rw [he]
                rfl
            · cases he

/-! ## Tokens -/

/-- A text that ends the token in front of it: it is empty or begins with a blank. -/
def Delimits (rest : List Char) : Prop :=
  ∀ c ∈ rest.head?, isBlank c = true

theorem delimits_nil : Delimits [] := by
  rintro d ⟨⟩

theorem delimits_cons (hc : isBlank c = true) (cs : List Char) : Delimits (c :: cs) := by
  rintro d ⟨⟩
  exact hc

/-- A token that is answered in front of `rest` is answered in front of `rest'` too: the two begin
with the same character, or the token is complete and `rest'` ends it. -/
def Admits (r : Except LexError Token) (rest rest' : List Char) : Prop :=
  rest'.head? = rest.head? ∨ (∃ tok, r = .ok tok) ∧ Delimits rest'

/-- A run is the longest one at the front. -/
theorem run_eq_iff {p : Char → Bool} {text : List Char} :
    run p cs = (text, rest) ↔
      cs = text ++ rest ∧ (∀ d ∈ text, p d = true) ∧ ∀ d ∈ rest.head?, p d = false := by
  constructor
  · intro h
    cases h
    refine ⟨List.takeWhile_append_dropWhile.symm, fun d hd => List.mem_takeWhile_imp hd, ?_⟩
    intro d hd
    have hstop := List.head?_dropWhile_not p cs
    rw [Option.mem_def.1 hd] at hstop
    exact hstop
  · rintro ⟨rfl, hp, hstop⟩
    have hnil : rest.takeWhile p = [] ∧ rest.dropWhile p = rest := by
      cases rest with
      | nil => exact ⟨rfl, rfl⟩
      | cons d rest => simp [hstop d rfl]
    rw [run, List.takeWhile_append_of_pos hp, List.dropWhile_append_of_pos hp, hnil.1, hnil.2,
      List.append_nil]

theorem run_append (cs : List Char) {p : Char → Bool} {rest' : List Char}
    (h : ∀ d ∈ rest'.head?, p d = false) :
    run p (cs.takeWhile p ++ rest') = (cs.takeWhile p, rest') :=
  run_eq_iff.2 ⟨rfl, fun _ hd => List.mem_takeWhile_imp hd, h⟩

theorem Admits.stops {r : Except LexError Token} {p : Char → Bool} {rest' : List Char}
    (h : Admits r (cs.dropWhile p) rest') (hp : ∀ d, isBlank d = true → p d = false) :
    ∀ d ∈ rest'.head?, p d = false := by
  intro d hd
  rcases h with h | ⟨-, h⟩
  · have hstop := List.head?_dropWhile_not p cs
    rw [← h, Option.mem_def.1 hd] at hstop
    exact hstop
  · exact hp d (h d hd)

/-- The shapes that tokens have. -/
inductive Shape (o : Options) (c : Char) : Prop where
  /-- One character and the run after it. -/
  | run (p : Char → Bool) (g : List Char → Except LexError Token)
    (hp : ∀ d, isBlank d = true → p d = false)
    (h : ∀ cs, token o c cs = (g (cs.takeWhile p), cs.dropWhile p))
  | string (h : ∀ cs, token o c cs =
      match quotation o.maxEntityLength c cs with
      | (.error e, rest) => (.error (closing c e), rest)
      | (.ok text, rest) => (.ok ⟨taken (c :: cs) rest, .string (String.ofList text) c⟩, rest))
  /-- No token begins with the character. -/
  | none (h : ∀ cs, token o c cs = (.error (.noToken c), c :: cs))

theorem shape (o : Options) (c : Char) : Shape o c := by
  by_cases hname : isAlphabetic c = true
  · refine .run isNameChar (fun text => .ok ⟨.ofList (c :: text), .name (.ofList (c :: text))⟩)
      (fun d hd => (classes_of_isBlank hd).1) fun cs => ?_
    simp only [token, if_pos hname, run]
  by_cases hquote : isQuote c = true
  · exact .string fun cs => (if_neg hname).trans (if_pos hquote)
  by_cases hdigit : (Numeral.isDigit c || c = '-') = true
  · refine .run Numeral.isDigit
      (fun text => (Numeral.int64? (c :: text)).elim
        (.error (.invalidInteger (.ofList (c :: text))))
        fun value => .ok ⟨.ofList (c :: text), .integer value⟩)
      (fun d hd => (classes_of_isBlank hd).2.1) fun cs => ?_
    simp only [token, if_neg hname, if_neg hquote, if_pos hdigit, run]
    cases Numeral.int64? (c :: cs.takeWhile Numeral.isDigit) <;> rfl
  by_cases hchar : (o.emitSymbols && isSeparator c) = true
  · -- A separator is followed by an empty run.
    refine .run (fun _ => false) (fun _ => .ok ⟨c.toString, .char c.toString⟩) (fun _ _ => rfl)
      fun cs => ?_
    have hcs : cs.dropWhile (fun _ => false) = cs := by cases cs <;> rfl
    simp only [token, if_neg hname, if_neg hquote, if_neg hdigit, if_pos hchar, hcs]
  by_cases hsign : (o.emitSymbols && (isSign c || c = '#')) = true
  · refine .run isSign (fun text => .ok ⟨.ofList (c :: text), .symbol (.ofList (c :: text))⟩)
      (fun d hd => (classes_of_isBlank hd).2.2.1) fun cs => ?_
    simp only [token, if_neg hname, if_neg hquote, if_neg hdigit, if_neg hchar, if_pos hsign, run]
  · refine .none fun cs => ?_
    simp only [token, if_neg hname, if_neg hquote, if_neg hdigit, if_neg hchar, if_neg hsign]

/-- The token that begins with `c` is decided by its text and the character after it. -/
theorem token_decides {o : Options} {r : Except LexError Token} (h : token o c cs = (r, rest)) :
    (∃ text, cs = text ++ rest ∧
      ∀ rest', Admits r rest rest' → token o c (text ++ rest') = (r, rest')) ∨
    r = .error (.noToken c) ∧ rest = c :: cs ∧ ∀ cs', token o c cs' = (r, c :: cs') := by
  cases shape o c with
  | run p g hp ht =>
    rw [ht] at h
    cases h
    refine .inl ⟨cs.takeWhile p, List.takeWhile_append_dropWhile.symm, fun rest' ha => ?_⟩
    have hrun := run_append cs (ha.stops hp)
    rw [run, Prod.mk.injEq] at hrun
    rw [ht, hrun.1, hrun.2]
  | string ht =>
    left
    rw [ht] at h
    cases hq : quotation o.maxEntityLength c cs with
    | mk answer rest' =>
      rw [hq] at h
      rcases quotation_settles hq with ⟨inner, rfl, hd⟩ | ⟨rfl, rfl⟩
      · cases answer with
        | ok text =>
          cases h
          refine ⟨inner, rfl, fun rest' _ => ?_⟩
          simp only [ht, hd rest', ← List.cons_append, taken_append]
        | error e =>
          cases h
          refine ⟨inner, rfl, fun rest' _ => ?_⟩
          simp only [ht, hd rest']
      · cases h
        refine ⟨cs, (List.append_nil cs).symm, ?_⟩
        rintro rest' (hh | ⟨⟨tok, he⟩, -⟩)
        · have hrest : rest' = [] := List.head?_eq_none_iff.1 hh
          rw [hrest, List.append_nil, ht, hq]
        · cases he
  | none ht =>
    rw [ht] at h
    cases h
    exact .inr ⟨rfl, rfl, ht⟩

/-! ## Blanks and comments in front -/

theorem dropTrivia_dropTrivia (cs : List Char) : dropTrivia (dropTrivia cs) = dropTrivia cs := by
  obtain ⟨skipped, he, ht⟩ := exists_trivia cs
  have ha := dropTrivia_append ht
  rw [← he] at ha
  exact ha.symm

theorem dropTrivia_ne_cons {ds : List Char} (h : ds.length ≤ cs.length) :
    dropTrivia ds ≠ c :: cs := by
  intro he
  have hle := length_dropTrivia_le (.nil : Trivia ds [])
  rw [List.nil_append, he, List.length_cons] at hle
  omega

theorem dropTrivia_eq_self_iff :
    dropTrivia cs = cs ↔
      (∀ c ∈ cs.head?, isBlank c = false) ∧ ¬['#', '#', '#'] <+: cs := by
  cases cs with
  | nil => simp [dropTrivia_nil]
  | cons c cs =>
    rw [dropTrivia_cons, ← List.isPrefixOf_iff_prefix]
    constructor
    · intro h
      split at h
      · refine absurd h (dropTrivia_ne_cons ?_)
        have hle := length_afterLine_le (cs.drop 2)
        rw [List.length_drop] at hle
        omega
      · rename_i hp
        split at h
        · exact absurd h (dropTrivia_ne_cons (Nat.le_refl _))
        · rename_i hb
          refine ⟨?_, hp⟩
          intro d hd
          cases hd
          exact eq_false_of_ne_true hb
    · rintro ⟨hb, hp⟩
      rw [if_neg hp, hb c rfl, if_neg Bool.false_ne_true]

/-- Whether blanks or a comment are in front shows in the first three characters. -/
theorem bare_of_take {cs' : List Char} (h : dropTrivia cs = cs) (ht : cs'.take 3 = cs.take 3) :
    dropTrivia cs' = cs' := by
  have hhead := congrArg List.head? ht
  rw [List.head?_take, List.head?_take] at hhead
  rw [dropTrivia_eq_self_iff, List.prefix_iff_eq_take] at h ⊢
  rw [if_neg (by decide), if_neg (by decide)] at hhead
  rw [hhead]
  exact ⟨h.1, fun hp => h.2 (hp.trans ht)⟩

theorem not_prefix_append {text more : List Char} (h : ¬['#', '#', '#'] <+: text)
    (hm : Delimits more) : ¬['#', '#', '#'] <+: text ++ more := by
  rintro ⟨rest, he⟩
  rcases List.append_eq_append_iff.1 he with ⟨before, ht, -⟩ | ⟨after, hc, rfl⟩
  · exact h ⟨before, ht.symm⟩
  · cases after with
    | nil =>
      rw [List.append_nil] at hc
      exact h ⟨[], by simp [hc]⟩
    | cons d after =>
      have hd : d ∈ ['#', '#', '#'] := by simp [hc]
      have hd : d = '#' := by simpa using hd
      exact (classes_of_isBlank (hm d rfl)).2.2.2 hd

theorem bare_of_delimits {text more rest : List Char} (h : dropTrivia (text ++ rest) = text ++ rest)
    (ht : text ≠ []) (hm : Delimits more) : dropTrivia (text ++ more) = text ++ more := by
  obtain ⟨c, text, rfl⟩ := List.exists_cons_of_ne_nil ht
  rw [dropTrivia_eq_self_iff] at h ⊢
  exact ⟨h.1, not_prefix_append (fun hp => h.2 (hp.trans (List.prefix_append _ _))) hm⟩

/-! ## Calls -/

/-- What a call has read, and that it would read the same in front of another text. -/
structure Parted (o : Options) (cs skipped text : List Char) (r : Except LexError Token)
    (rest : List Char) : Prop where
  eq : cs = skipped ++ (text ++ rest)
  bare : dropTrivia (text ++ rest) = text ++ rest
  skips : ∀ cs', dropTrivia (skipped ++ cs') = dropTrivia cs'
  ne_nil : (∃ tok, r = .ok tok) → text ≠ []
  reads : ∀ rest', dropTrivia (text ++ rest') = text ++ rest' → Admits r rest rest' →
    read o (text ++ rest') = (r, rest')

theorem read_of_dropTrivia (o : Options) {cs' : List Char} (h : dropTrivia cs = dropTrivia cs') :
    read o cs = read o cs' := by
  rw [read, read, h]

theorem read_of_bare (o : Options) (h : dropTrivia (c :: cs) = c :: cs) :
    read o (c :: cs) = token o c cs := by
  rw [read, h]

theorem exists_parted {o : Options} {r : Except LexError Token} (h : read o cs = (r, rest))
    (hd : dropTrivia cs ≠ []) : ∃ skipped text, Parted o cs skipped text r rest := by
  obtain ⟨skipped, he, ht⟩ := exists_trivia cs
  have hb := dropTrivia_dropTrivia cs
  rw [← read_of_dropTrivia o hb] at h
  have hskips : ∀ cs', dropTrivia (skipped ++ cs') = dropTrivia cs' :=
    fun cs' => dropTrivia_append (ht.of_ne_nil hd)
  obtain ⟨c, ds, hds⟩ := List.exists_cons_of_ne_nil hd
  rw [hds] at he hb h
  rw [read_of_bare o hb] at h
  rcases token_decides h with ⟨text, rfl, ht⟩ | ⟨rfl, rfl, ht⟩
  · refine ⟨skipped, c :: text, he, hb, hskips, fun _ => List.cons_ne_nil c text, ?_⟩
    intro rest' hb' ha
    exact (read_of_bare o hb').trans (ht rest' ha)
  · refine ⟨skipped, [], he, hb, hskips, ?_, ?_⟩
    · rintro ⟨tok, he⟩
      cases he
    · rintro rest' hb' (hhead | ⟨⟨tok, he⟩, -⟩)
      · obtain ⟨cs', rfl⟩ := List.head?_eq_some_iff.1 hhead
        rw [List.nil_append, read_of_bare o hb', ht]
      · cases he

section

variable {o : Options} {skipped text more rest' : List Char} {r : Except LexError Token}
  {tok : Token}

theorem Parted.dropTrivia_eq (h : Parted o cs skipped text r rest) :
    dropTrivia cs = text ++ rest := by
  rw [h.eq, h.skips, h.bare]

theorem Parted.read_eq (h : Parted o cs skipped text r rest) : read o cs = (r, rest) := by
  rw [read_of_dropTrivia o (h.dropTrivia_eq.trans h.bare.symm)]
  exact h.reads rest h.bare (.inl rfl)

theorem Admits.trans {rest'' : List Char} (h : Admits r rest rest') (h' : Admits r rest' rest'') :
    Admits r rest rest'' := by
  rcases h' with he' | hd'
  · rcases h with he | ⟨hok, hd⟩
    · exact .inl (he'.trans he)
    · refine .inr ⟨hok, ?_⟩
      rw [Delimits, he']
      exact hd
  · exact .inr hd'

theorem Parted.replace (h : Parted o cs skipped text r rest)
    (hb : dropTrivia (text ++ rest') = text ++ rest') (ha : Admits r rest rest') :
    Parted o (skipped ++ (text ++ rest')) skipped text r rest' where
  eq := rfl
  bare := hb
  skips := h.skips
  ne_nil := h.ne_nil
  reads _ hb' ha' := h.reads _ hb' (ha.trans ha')

/-- Three characters after what a call has read are all that it has looked at. -/
theorem Parted.of_take (h : Parted o cs skipped text r rest) (ht : rest'.take 3 = rest.take 3) :
    Parted o (skipped ++ (text ++ rest')) skipped text r rest' := by
  refine h.replace (bare_of_take h.bare ?_) (.inl ?_)
  · have hle : 3 - text.length ≤ 3 := Nat.sub_le 3 _
    have htake := congrArg (List.take (3 - text.length)) ht
    rw [List.take_take, List.take_take, Nat.min_eq_left hle] at htake
    rw [List.take_append, List.take_append, htake]
  · have hhead := congrArg List.head? ht
    rw [List.head?_take, List.head?_take] at hhead
    exact hhead

/-- A token is read in front of more text too, if the input ended in front of a blank. -/
theorem Parted.append (h : Parted o cs skipped text (.ok tok) rest) (hm : Delimits more) :
    Parted o (cs ++ more) skipped text (.ok tok) (rest ++ more) := by
  have hne : text ≠ [] := h.ne_nil ⟨tok, rfl⟩
  have hall : dropTrivia (text ++ rest ++ []) = text ++ rest ++ [] := by
    rw [List.append_nil, h.bare]
  have hb : dropTrivia (text ++ (rest ++ more)) = text ++ (rest ++ more) := by
    rw [← List.append_assoc]
    exact bare_of_delimits hall (List.append_ne_nil_of_left_ne_nil hne rest) hm
  have ha : Admits (.ok tok) rest (rest ++ more) := by
    cases rest with
    | nil => exact .inr ⟨⟨tok, rfl⟩, hm⟩
    | cons d rest => exact .inl rfl
  have hp := h.replace hb ha
  rw [← List.append_assoc text, ← List.append_assoc, ← h.eq] at hp
  exact hp

/-- A token is read from its own text, if a blank or nothing comes after it. -/
theorem Parted.alone (h : Parted o cs skipped text (.ok tok) rest) (hm : Delimits more) :
    Parted o (text ++ more) [] text (.ok tok) more where
  eq := rfl
  bare := bare_of_delimits h.bare (h.ne_nil ⟨tok, rfl⟩) hm
  skips _ := rfl
  ne_nil := h.ne_nil
  reads _ hb' ha' := h.reads _ hb' (.trans (.inr ⟨⟨tok, rfl⟩, hm⟩) ha')

end

end Reference

end RewindLexer
