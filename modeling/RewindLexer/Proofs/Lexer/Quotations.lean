import RewindLexer.Proofs.Lexer.Entities
import RewindLexer.Proofs.Lexer.Lossless

/-!
# The grammar of strings

A string is a quote, items and the same quote. `Literal.Item` says which texts are items and which
character each of them stands for. Main statement: where a quote comes next, a lexer answers a
string with a text and a value exactly if the text is a string with that value by the grammar.
-/

namespace RewindLexer

namespace Literal

/-- The letters that stand for control characters after a backslash. -/
def controls : List (Char × Char) :=
  [('n', '\n'), ('r', '\r'), ('t', '\t'), ('f', '\x0c'), ('b', '\x08')]

/-- After a backslash `d` stands for `c`: a control character, or `d` itself. -/
def Stands (d c : Char) : Prop :=
  (d, c) ∈ controls ∨ (∀ e, (d, e) ∉ controls) ∧ c = d

/-- The pair of `&` and a backslash, `k` times: each pair starts the escape anew. -/
def detours (k : Nat) : List Char :=
  (List.replicate k ['&', '\\']).flatten

/-- What may come after a backslash, and what it stands for. -/
inductive Escape (limit : Nat) : List Char → Char → Prop where
  | char (k : Nat) {d c : Char} (hd : d ≠ '&') (hc : Stands d c) :
    Escape limit (detours k ++ [d]) c
  | entity (k : Nat) {body : List Char} {c : Char} (hs : ';' ∉ body)
    (hb : body.head? ≠ some '\\') (hl : body.length ≤ limit) (hc : Entity.Denotes body c) :
    Escape limit (detours k ++ '&' :: (body ++ [';'])) c

/-- One item between quotes, and what it stands for. -/
inductive Item (limit : Nat) (quote : Char) : List Char → Char → Prop where
  | plain {c : Char} (hq : c ≠ quote) (hb : c ≠ '\\') : Item limit quote [c] c
  | escaped {text : List Char} {c : Char} (h : Escape limit text c) :
    Item limit quote ('\\' :: text) c

inductive Items (limit : Nat) (quote : Char) : List Char → List Char → Prop where
  | nil : Items limit quote [] []
  | cons {text texts : List Char} {c : Char} {cs : List Char} (h : Item limit quote text c)
    (hs : Items limit quote texts cs) : Items limit quote (text ++ texts) (c :: cs)

/-- A string with its quotes, and its value. -/
def Spells (limit : Nat) (quote : Char) (original value : List Char) : Prop :=
  ∃ inner, original = quote :: (inner ++ [quote]) ∧ Items limit quote inner value

/-! ## Escapes -/

theorem unescape_eq_iff {d c : Char} : unescape d = c ↔ Stands d c := by
  unfold unescape
  split
  · simp [Stands, controls, eq_comm]
  · simp [Stands, controls, eq_comm]
  · simp [Stands, controls, eq_comm]
  · simp [Stands, controls, eq_comm]
  · simp [Stands, controls, eq_comm]
  · simp_all [Stands, controls, eq_comm]

theorem ne_backslash {quote : Char} (hq : quote = '"' ∨ quote = '\'') : quote ≠ '\\' := by
  rcases hq with rfl | rfl
  · decide
  · decide

theorem detours_succ (k : Nat) : detours (k + 1) = '&' :: '\\' :: detours k :=
  rfl

theorem Escape.detour {limit : Nat} {text : List Char} {c : Char} (h : Escape limit text c) :
    Escape limit ('&' :: '\\' :: text) c := by
  cases h with
  | char k hd hc => exact .char (k + 1) hd hc
  | entity k hs hb hl hc => exact .entity (k + 1) hs hb hl hc

end Literal

namespace Reference

open Literal

variable {limit : Nat} {quote c : Char} {cs rest : List Char}

theorem takeWhile_append_of_not_mem {body : List Char} (hs : ';' ∉ body) (cs : List Char) :
    (body ++ cs).takeWhile (· ≠ ';') = body ++ cs.takeWhile (· ≠ ';') := by
  apply List.takeWhile_append_of_pos
  intro d hd
  simp only [ne_eq, decide_eq_true_eq]
  rintro rfl
  exact hs hd

theorem entity_append {body : List Char} (hs : ';' ∉ body) (hl : body.length ≤ limit)
    (rest : List Char) : entity limit (body ++ ';' :: rest) = (Entity.decode body, rest) := by
  have htake := takeWhile_append_of_not_mem hs (';' :: rest)
  rw [List.takeWhile_cons_of_neg (by simp), List.append_nil] at htake
  simp only [entity, htake, if_neg (Nat.not_lt.2 hl), List.drop_left]

theorem entity_ne_ok (h : ';' ∉ cs ∨ limit < (cs.takeWhile (· ≠ ';')).length) :
    entity limit cs ≠ (.ok c, rest) := by
  intro he
  simp only [entity] at he
  split at he
  · cases he
  · rename_i hl
    rcases h with hs | hlt
    · have htake := takeWhile_append_of_not_mem hs []
      rw [List.append_nil, List.takeWhile_nil, List.append_nil] at htake
      rw [htake, List.drop_length] at he
      cases he
    · exact hl hlt

/-- An entity is read if a `;` comes in time and what is before it denotes a character. -/
theorem entity_eq_ok_iff :
    entity limit cs = (.ok c, rest) ↔
      ∃ body, cs = body ++ ';' :: rest ∧ ';' ∉ body ∧ body.length ≤ limit ∧
        Entity.Denotes body c := by
  constructor
  · intro h
    by_cases hmem : ';' ∈ cs
    · obtain ⟨body, rest', rfl, hs⟩ := List.eq_append_cons_of_mem hmem
      by_cases hl : body.length ≤ limit
      · rw [entity_append hs hl] at h
        obtain ⟨hd, rfl⟩ := Prod.mk.inj h
        exact ⟨body, rfl, hs, hl, Entity.decode_eq_ok_iff.1 hd⟩
      · refine absurd h (entity_ne_ok (.inr ?_))
        rw [takeWhile_append_of_not_mem hs, List.length_append]
        omega
    · exact absurd h (entity_ne_ok (.inl hmem))
  · rintro ⟨body, rfl, hs, hl, hd⟩
    rw [entity_append hs hl, Entity.decode_eq_ok_iff.2 hd]

theorem escape_detours (k : Nat) (cs : List Char) :
    escape limit (detours k ++ cs) = escape limit cs := by
  induction k with
  | zero => rfl
  | succ k ih =>
    rw [detours_succ, List.cons_append, List.cons_append, escape]
    exact ih

theorem escape_eq_ok_iff :
    escape limit cs = (.ok c, rest) ↔ ∃ text, cs = text ++ rest ∧ Escape limit text c := by
  constructor
  · intro h
    fun_induction escape limit cs with
    | case1 => cases h
    | case2 cs ih =>
      obtain ⟨text, rfl, he⟩ := ih h
      exact ⟨'&' :: '\\' :: text, rfl, he.detour⟩
    | case3 cs hcs =>
      obtain ⟨body, rfl, hs, hl, hd⟩ := entity_eq_ok_iff.1 h
      refine ⟨'&' :: (body ++ [';']), by simp, .entity 0 hs ?_ hl hd⟩
      intro hhead
      obtain ⟨body', rfl⟩ := List.head?_eq_some_iff.1 hhead
      exact hcs _ rfl
    | case4 d cs hne hamp =>
      obtain ⟨hd, rfl⟩ := Prod.mk.inj h
      exact ⟨[d], rfl, .char 0 hamp (unescape_eq_iff.1 (Except.ok.inj hd))⟩
  · rintro ⟨text, rfl, he⟩
    cases he with
    | char k hd hc =>
      rw [List.append_assoc, escape_detours, List.singleton_append, escape_of_ne limit hd,
        unescape_eq_iff.2 hc]
    | @entity k body c hs hb hl hd =>
      have hhead : (body ++ ';' :: rest).head? ≠ some '\\' := by
        cases body with
        | nil => simp
        | cons b body => exact hb
      have hent : entity limit (body ++ ';' :: rest) = (.ok c, rest) :=
        entity_eq_ok_iff.2 ⟨body, rfl, hs, hl, hd⟩
      rw [List.append_assoc, escape_detours, List.cons_append, List.append_assoc,
        List.singleton_append, escape_entity limit hhead, hent]

/-! ## Items -/

theorem quotation_item {text : List Char} (hquote : quote ≠ '\\') (h : Item limit quote text c)
    (cs : List Char) :
    quotation limit quote (text ++ cs) =
      ((quotation limit quote cs).1.map (c :: ·), (quotation limit quote cs).2) := by
  cases h with
  | plain hq hb => exact quotation_of_item_ok hq (if_neg hb)
  | @escaped text _ he =>
    have hesc : escape limit (text ++ cs) = (.ok c, cs) := escape_eq_ok_iff.2 ⟨text, rfl, he⟩
    exact quotation_of_item_ok hquote.symm ((if_pos rfl).trans hesc)

/-- Behind items a string is read on as if it began there. -/
theorem quotation_items {inner value : List Char} (hquote : quote ≠ '\\')
    (h : Items limit quote inner value) (cs : List Char) :
    quotation limit quote (inner ++ cs) =
      ((quotation limit quote cs).1.map (value ++ ·), (quotation limit quote cs).2) := by
  induction h with
  | nil => cases hr : quotation limit quote cs with
    | mk answer rest => cases answer <;> simp [Except.map, hr]
  | cons hi _ ih =>
    rw [List.append_assoc, quotation_item hquote hi, ih]
    cases (quotation limit quote cs).1 with
    | error e => rfl
    | ok text => rfl

theorem exists_items {value : List Char} (h : quotation limit quote cs = (.ok value, rest)) :
    ∃ inner, cs = inner ++ quote :: rest ∧ Items limit quote inner value := by
  fun_induction quotation limit quote cs generalizing value rest with
  | case1 => cases h
  | case2 cs =>
    cases h
    exact ⟨[], rfl, .nil⟩
  | case3 => cases h
  | case4 => cases h
  | case5 cs d cs' he text rest' hq hne ih =>
    cases h
    obtain ⟨inner, rfl, hs⟩ := ih hq
    obtain ⟨esc, rfl, hesc⟩ := escape_eq_ok_iff.1 he
    exact ⟨'\\' :: esc ++ inner, by simp, .cons (.escaped hesc) hs⟩
  | case6 => cases h
  | case7 c cs hne hb text rest' hq ih =>
    cases h
    obtain ⟨inner, rfl, hs⟩ := ih hq
    exact ⟨[c] ++ inner, rfl, .cons (.plain hne hb) hs⟩

theorem quotation_of_items {inner value : List Char} (hquote : quote ≠ '\\')
    (h : Items limit quote inner value) :
    quotation limit quote (inner ++ quote :: rest) = (.ok value, rest) := by
  rw [quotation_items hquote h, quotation_cons, if_pos rfl]
  simp [Except.map]

/-! ## Strings -/

theorem token_of_quote (o : Options) (hq : quote = '"' ∨ quote = '\'') (cs : List Char) :
    token o quote cs =
      match quotation o.maxEntityLength quote cs with
      | (.error e, rest) => (.error (closing quote e), rest)
      | (.ok text, rest) =>
        (.ok ⟨taken (quote :: cs) rest, .string (String.ofList text) quote⟩, rest) := by
  have hletter : ¬Text.isAlphabetic quote = true := by
    rcases hq with rfl | rfl
    · decide +kernel
    · decide +kernel
  have hquote : isQuote quote = true := by
    rcases hq with rfl | rfl
    · rfl
    · rfl
  exact (if_neg hletter).trans (if_pos hquote)

theorem token_string_iff {o : Options} (hq : quote = '"' ∨ quote = '\'') {original value : String} :
    token o quote cs = (.ok ⟨original, .string value quote⟩, rest) ↔
      quote :: cs = original.toList ++ rest ∧
        Spells o.maxEntityLength quote original.toList value.toList := by
  have hquote := ne_backslash hq
  rw [token_of_quote o hq]
  constructor
  · intro h
    cases hr : quotation o.maxEntityLength quote cs with
    | mk answer rest' =>
      rw [hr] at h
      cases answer with
      | error e => cases h
      | ok text =>
        obtain ⟨inner, rfl, hs⟩ := exists_items hr
        cases h
        have happ : quote :: (inner ++ quote :: rest) = quote :: (inner ++ [quote]) ++ rest := by
          simp
        rw [happ, taken_append, String.toList_ofList, String.toList_ofList]
        exact ⟨rfl, inner, rfl, hs⟩
  · rintro ⟨happ, inner, ho, hs⟩
    have hcs : cs = inner ++ quote :: rest := by
      rw [ho] at happ
      simpa using happ
    have hr : quotation o.maxEntityLength quote cs = (.ok value.toList, rest) := by
      rw [hcs]
      exact quotation_of_items hquote hs
    rw [hr, happ]
    simp only [taken_append, String.ofList_toList]

theorem dropTrivia_quote (hq : quote = '"' ∨ quote = '\'') (cs : List Char) :
    dropTrivia (quote :: cs) = quote :: cs := by
  rw [dropTrivia_cons]
  rcases hq with rfl | rfl
  · rw [if_neg (by simp), if_neg (by decide)]
  · rw [if_neg (by simp), if_neg (by decide)]

end Reference

namespace Lexer

/-- After any number of calls, where a quote comes next behind blanks and comments, the next call
answers a string exactly if the grammar reads one there, and leaves what comes after it. -/
theorem readToken_string_iff (o : Options) (text : List Char) (n : Nat) {skipped cs : List Char}
    {quote : Char} (hq : quote = '"' ∨ quote = '\'') (hs : Trivia (quote :: cs) skipped)
    (hd : deliver ((plain o text).readTokens n).2.stream = skipped ++ quote :: cs)
    (original value : String) (rest : List Char) :
    let call := ((plain o text).readTokens n).2.readToken
    call.1 = .ok ⟨original, .string value quote⟩ ∧ deliver call.2.stream = rest ↔
      quote :: cs = original.toList ++ rest ∧
        Literal.Spells o.maxEntityLength quote original.toList value.toList := by
  intro call
  have ho := (over_plain o text).readTokens n
  obtain ⟨before, gathered, r, l', h⟩ := exists_reads ho.builder_eq ho.idle
  rw [deliver_eq ho.idle.sound] at hd
  have hread : Reference.read o (skipped ++ quote :: cs) = Reference.token o quote cs := by
    rw [Reference.read, Reference.dropTrivia_append hs, Reference.dropTrivia_quote hq]
  rw [h.answer_iff, hd, ho.options_eq, hread, Reference.token_string_iff hq]

/-- A blank, then a string with an escape behind a detour and the code of a character. -/
theorem readToken_string_iff_detour :
    let cs := ['a', '\\', '&', '\\', 'n', '\\', '&', '#', '6', '5', ';', '"', 'x']
    let call := ((plain {} (' ' :: '"' :: cs)).readTokens 0).2.readToken
    Trivia ('"' :: cs) [' '] ∧
      deliver ((plain {} (' ' :: '"' :: cs)).readTokens 0).2.stream = [' '] ++ '"' :: cs ∧
      (call.1 = .ok ⟨"\"a\\&\\n\\&#65;\"", .string "a\nA" '"'⟩ ∧ deliver call.2.stream = ['x']) ∧
      Literal.Spells 32 '"' "\"a\\&\\n\\&#65;\"".toList "a\nA".toList := by
  intro cs call
  have hs : Trivia ('"' :: cs) [' '] := .blank (by decide) .nil
  have hd : deliver ((plain {} (' ' :: '"' :: cs)).readTokens 0).2.stream = [' '] ++ '"' :: cs := by
    decide +kernel
  have hcall : call.1 = .ok ⟨"\"a\\&\\n\\&#65;\"", .string "a\nA" '"'⟩ ∧
      deliver call.2.stream = ['x'] := by
    decide +kernel
  have h := readToken_string_iff {} (' ' :: '"' :: cs) 0 (.inl rfl) hs hd
    "\"a\\&\\n\\&#65;\"" "a\nA" ['x']
  exact ⟨hs, hd, hcall, (h.1 hcall).2⟩

end Lexer

end RewindLexer
