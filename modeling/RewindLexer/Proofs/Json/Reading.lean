import Mathlib.Data.List.DropRight
import Mathlib.Data.List.TakeDrop
import RewindLexer.Json.Format

/-!
# Reading what a text denotes

The reader takes off the front of an input a text of the grammar, gives the value that it denotes,
and leaves the rest. Main statement: a portable value is read from every text that denotes it. A
number ends where its digits do, so the rest of the input must not go on with a digit, a point or an
exponent.
-/

namespace RewindLexer.Json

open Text

/-! ## Blanks -/

theorem skipSpace_cons {c : Char} (hc : isSpace c = false) (s : List Char) :
    skipSpace (c :: s) = c :: s :=
  List.dropWhile_cons_of_neg (by rw [hc]; exact Bool.false_ne_true)

theorem skipSpace_blanks {blanks : List Char} (h : Blanks blanks) (s : List Char) :
    skipSpace (blanks ++ s) = skipSpace s := by
  have hall : [' ', '\t', '\n', '\r'].all isSpace = true := by decide
  exact List.dropWhile_append_of_pos fun c hc => List.all_eq_true.1 hall c (h c hc)

theorem skipSpace_blanks_cons {blanks : List Char} (h : Blanks blanks) {c : Char}
    (hc : isSpace c = false) (s : List Char) : skipSpace (blanks ++ c :: s) = c :: s := by
  rw [skipSpace_blanks h, skipSpace_cons hc]

theorem skipSpace_skipSpace (s : List Char) : skipSpace (skipSpace s) = skipSpace s :=
  List.dropWhile_idempotent isSpace s

theorem value?_skipSpace (fuel : Nat) (s : List Char) :
    value? fuel (skipSpace s) = value? fuel s := by
  cases fuel with
  | zero => rfl
  | succ fuel => rw [value?, value?, skipSpace_skipSpace]

theorem value?_blanks {blanks : List Char} (h : Blanks blanks) (fuel : Nat) (s : List Char) :
    value? fuel (blanks ++ s) = value? fuel s := by
  rw [← value?_skipSpace, skipSpace_blanks h, value?_skipSpace]

theorem items?_skipSpace (fuel : Nat) (s : List Char) :
    items? fuel (skipSpace s) = items? fuel s := by
  cases fuel with
  | zero => rfl
  | succ fuel => rw [items?, items?, value?_skipSpace]

theorem members?_skipSpace (fuel : Nat) (s : List Char) :
    members? fuel (skipSpace s) = members? fuel s := by
  cases fuel with
  | zero => rfl
  | succ fuel => rw [members?, members?, skipSpace_skipSpace]

/-! ## Strings -/

theorem hexValue?_of_mem {c : Char} {n : Nat} (h : (c, n) ∈ hexDigits) : hexValue? c = some n := by
  have hall : ∀ p ∈ hexDigits, hexValue? p.1 = some p.2 := by decide
  exact hall (c, n) h

theorem DenotesUnit.hex4?_eq {s : List Char} {n : Nat} (h : DenotesUnit s n) (rest : List Char) :
    hex4? (s ++ rest) = some (n, rest) := by
  cases h with
  | digits ha hb hc hd =>
    simp only [List.cons_append, List.nil_append, hex4?, hexValue?_of_mem ha, hexValue?_of_mem hb,
      hexValue?_of_mem hc, hexValue?_of_mem hd, Option.bind_eq_bind, Option.bind_some]

theorem codePoint?_of_code {s : List Char} {c : Char} (h : DenotesUnit s c.toNat)
    (rest : List Char) : codePoint? (s ++ rest) = some (c, rest) := by
  have hvalid : c.toNat < 0xD800 ∨ 0xDFFF < c.toNat := c.valid.imp_right And.left
  simp only [codePoint?, h.hex4?_eq, Option.bind_eq_bind, Option.bind_some]
  rw [if_pos hvalid, Char.ofNat_toNat]

theorem codePoint?_of_pair {s t : List Char} {high low : Nat} {c : Char}
    (hs : DenotesUnit s (0xD800 + high)) (ht : DenotesUnit t (0xDC00 + low)) (hhigh : high < 0x400)
    (hlow : low < 0x400) (hc : c.toNat = 0x10000 + high * 0x400 + low) (rest : List Char) :
    codePoint? (s ++ '\\' :: 'u' :: (t ++ rest)) = some (c, rest) := by
  have hvalue : 0x10000 + (0xD800 + high - 0xD800) * 0x400 + (0xDC00 + low - 0xDC00) = c.toNat := by
    omega
  simp only [codePoint?, hs.hex4?_eq, ht.hex4?_eq, Option.bind_eq_bind, Option.bind_some]
  rw [if_neg (by omega), if_pos (by omega), if_pos (by omega), hvalue, Char.ofNat_toNat]

theorem DenotesChar.stringChar?_eq {s : List Char} {c : Char} (h : DenotesChar s c)
    (rest : List Char) : stringChar? (s ++ rest) = some (c, rest) := by
  cases h with
  | plain hc hquote hslash =>
    rw [List.singleton_append, stringChar?, if_neg (Nat.not_lt.2 hc)]
    all_goals
      intros
      contradiction
  | @short _ d hd =>
    have hall : ∀ p ∈ ('/', '/') :: shortEscapes,
        stringChar? ('\\' :: p.2 :: rest) = some (p.1, rest) := by
      simp [shortEscapes, stringChar?]
    exact hall (c, d) hd
  | code h => exact codePoint?_of_code h rest
  | @pair s t _ _ _ hs ht hhigh hlow hc =>
    rw [List.cons_append, List.cons_append, List.append_assoc]
    exact codePoint?_of_pair hs ht hhigh hlow hc rest

theorem DenotesChar.eq_cons {s : List Char} {c : Char} (h : DenotesChar s c) :
    ∃ d t, s = d :: t ∧ d ≠ '"' := by
  cases h with
  | plain _ hquote _ => exact ⟨_, _, rfl, hquote⟩
  | short _ => exact ⟨_, _, rfl, by decide⟩
  | code _ => exact ⟨_, _, rfl, by decide⟩
  | pair _ _ _ _ _ => exact ⟨_, _, rfl, by decide⟩

theorem stringBody?_eq {fuel : Nat} {chars : List (List Char × Char)}
    (h : ∀ p ∈ chars, DenotesChar p.1 p.2) (hfuel : (chars.flatMap Prod.fst).length ≤ fuel)
    (rest : List Char) :
    stringBody? fuel (chars.flatMap Prod.fst ++ '"' :: rest) = some (chars.map Prod.snd, rest) := by
  induction chars generalizing fuel with
  | nil => simp [stringBody?]
  | cons p chars ih =>
    rw [List.forall_mem_cons] at h
    obtain ⟨d, t, hstart, hd⟩ := h.1.eq_cons
    rw [List.flatMap_cons, List.length_append] at hfuel
    have hpos : 0 < p.1.length := by simp [hstart]
    obtain ⟨fuel, rfl⟩ : ∃ n, fuel = n + 1 := ⟨fuel - 1, by omega⟩
    have hrest := ih h.2 (show (chars.flatMap Prod.fst).length ≤ fuel by omega)
    rw [List.flatMap_cons, List.append_assoc, stringBody?]
    · simp only [h.1.stringChar?_eq, hrest, Option.bind_eq_bind, Option.bind_some, List.map_cons]
    · rw [hstart]
      rintro _ heq
      exact hd (List.cons.inj heq).1

theorem DenotesString.string?_eq {s : List Char} {value : String} (h : DenotesString s value) :
    ∃ t, s = '"' :: t ∧ ∀ rest, string? (t ++ rest) = some (value, rest) := by
  cases h with
  | @quoted chars h =>
    refine ⟨_, rfl, fun rest => ?_⟩
    rw [List.append_assoc, List.singleton_append, string?, stringBody?_eq h (by simp)]
    rfl

/-- A string is read after blanks, and blanks after it are left. -/
theorem DenotesName.eq_cons {n : List Char} {name : String} (h : DenotesName n name)
    (rest : List Char) :
    ∃ t u, skipSpace (n ++ rest) = '"' :: t ∧ string? t = some (name, u) ∧
      skipSpace u = ':' :: rest := by
  cases h with
  | @padded before s after _ hbefore h hafter =>
    obtain ⟨t, rfl, ht⟩ := h.string?_eq
    refine ⟨t ++ (after ++ ':' :: rest), after ++ ':' :: rest, ?_, ht _,
      skipSpace_blanks_cons hafter (by decide) rest⟩
    simp only [List.append_assoc, List.cons_append, List.nil_append]
    exact skipSpace_blanks_cons hbefore (by decide) _

/-! ## Numbers -/

/-- A number in front of the input ends where the input begins. -/
def EndsNumber (rest : List Char) : Prop :=
  ∀ c ∈ rest.head?, Numeral.isDigit c = false ∧ c ≠ '.' ∧ c ≠ 'e' ∧ c ≠ 'E'

theorem endsNumber_nil : EndsNumber [] :=
  nofun

theorem endsNumber_cons {c : Char} (hc : Numeral.isDigit c = false ∧ c ≠ '.' ∧ c ≠ 'e' ∧ c ≠ 'E')
    (rest : List Char) : EndsNumber (c :: rest) := by
  intro d hd
  cases hd
  exact hc

theorem digits?_append {ds rest : List Char} (hne : ds ≠ [])
    (hds : ∀ d ∈ ds, Numeral.isDigit d = true) (h : EndsNumber rest) :
    digits? (ds ++ rest) = some (ds, rest) := by
  have hrest : rest.takeWhile Numeral.isDigit = [] ∧ rest.dropWhile Numeral.isDigit = rest := by
    cases rest with
    | nil => exact ⟨rfl, rfl⟩
    | cons c rest =>
      have hc : ¬Numeral.isDigit c = true := by rw [(h c rfl).1]; exact Bool.false_ne_true
      exact ⟨List.takeWhile_cons_of_neg hc, List.dropWhile_cons_of_neg hc⟩
  have hspan : (ds ++ rest).span Numeral.isDigit = (ds, rest) := by
    rw [List.span_eq_takeWhile_dropWhile, List.takeWhile_append_of_pos hds,
      List.dropWhile_append_of_pos hds, hrest.1, hrest.2, List.append_nil]
  rw [digits?, hspan]
  cases ds with
  | nil => exact absurd rfl hne
  | cons d ds => rfl

theorem whole?_append {ds rest : List Char} (hds : WholeForm ds) (h : EndsNumber rest) :
    whole? (ds ++ rest) = some (ds, rest) := by
  cases hds with
  | zero =>
    have hdigit : Numeral.isDigit '0' = true := by decide
    rw [whole?, digits?_append (List.cons_ne_nil '0' []) (List.forall_mem_singleton.2 hdigit) h]
    rfl
  | @digits d ds hd hds =>
    rw [whole?, digits?_append (List.cons_ne_nil d ds) hds h]
    split
    · rename_i heq
      cases heq
      exact absurd rfl hd
    · rfl

theorem fraction?_of_endsNumber {rest : List Char} (h : EndsNumber rest) :
    fraction? rest = some ([], rest) := by
  rw [fraction?]
  rintro s rfl
  exact (h '.' rfl).2.1 rfl

theorem exponent?_of_endsNumber {rest : List Char} (h : EndsNumber rest) :
    exponent? rest = some ([], rest) := by
  cases rest with
  | nil => rfl
  | cons c rest =>
    have hc := (h c rfl).2.2
    simp only [exponent?, if_neg (not_or.2 hc)]

theorem number?_of_whole {ds rest : List Char} (hds : WholeForm ds) (h : EndsNumber rest) :
    number? (ds ++ rest) = some (.int (Numeral.value ds), rest) := by
  have hminus : ∀ s, ds ++ rest ≠ '-' :: s := by
    intro s heq
    cases hds with
    | zero => cases heq
    | digits _ hds =>
      cases heq
      cases hds _ List.mem_cons_self
  simp only [number?, whole?_append hds h, Option.bind_eq_bind, Option.bind_some,
    fraction?_of_endsNumber h, exponent?_of_endsNumber h]
  rfl

theorem number?_minus {ds rest : List Char} (hds : WholeForm ds) (hzero : ds ≠ ['0'])
    (h : EndsNumber rest) :
    number? ('-' :: (ds ++ rest)) = some (.int (-Numeral.value ds), rest) := by
  have hexact : (!(['-'] == ['-'] && ds == ['0'])) = true := by simp [hzero]
  simp only [number?, whole?_append hds h, Option.bind_eq_bind, Option.bind_some,
    fraction?_of_endsNumber h, exponent?_of_endsNumber h, hexact]
  rfl

/-! ## Values -/

theorem EndsNumber.blanks_append {rest : List Char} (h : EndsNumber rest) {blanks : List Char}
    (hblanks : Blanks blanks) : EndsNumber (blanks ++ rest) := by
  cases blanks with
  | nil => exact h
  | cons c blanks =>
    have hc : c = ' ' ∨ c = '\t' ∨ c = '\n' ∨ c = '\r' := by
      simpa using hblanks c List.mem_cons_self
    obtain rfl | rfl | rfl | rfl := hc <;> exact endsNumber_cons (by decide) (blanks ++ rest)

theorem isSpace_of_digit {c : Char} (hc : c = '-' ∨ Numeral.isDigit c = true) :
    isSpace c = false := by
  rw [Bool.eq_false_iff]
  intro hspace
  simp only [isSpace, Bool.or_eq_true, decide_eq_true_iff] at hspace
  obtain ((rfl | rfl) | rfl) | rfl := hspace <;> exact absurd hc (by decide)

theorem value?_of_digit {c : Char} (hc : c = '-' ∨ Numeral.isDigit c = true) (fuel : Nat)
    (s : List Char) : value? (fuel + 1) (c :: s) = number? (c :: s) := by
  rw [value?, skipSpace_cons (isSpace_of_digit hc)]
  -- no other kind of value starts with such a character
  split
  case h_7 => rfl
  all_goals
    rename_i heq
    cases heq
    exact absurd hc (by decide)

theorem WholeForm.eq_cons {ds : List Char} (h : WholeForm ds) :
    ∃ d t, ds = d :: t ∧ Numeral.isDigit d = true := by
  cases h with
  | zero => exact ⟨_, _, rfl, by decide⟩
  | digits _ h => exact ⟨_, _, rfl, h _ List.mem_cons_self⟩

theorem ne_of_digit {c : Char} (hc : c = '-' ∨ Numeral.isDigit c = true) : c ≠ ']' := by
  rintro rfl
  exact absurd hc (by decide)

/-- The text of a value starts with neither a blank nor the end of an array, so that it is taken for
a value wherever one may stand. -/
theorem Denotes.eq_cons {depth : Nat} {s : List Char} {v : Json} (h : Denotes s v)
    (hp : Portable depth v) : ∃ c t, s = c :: t ∧ isSpace c = false ∧ c ≠ ']' := by
  cases h with
  | null => exact ⟨_, _, rfl, by decide, by decide⟩
  | bool b =>
    cases b with
    | false => exact ⟨_, _, rfl, by decide, by decide⟩
    | true => exact ⟨_, _, rfl, by decide, by decide⟩
  | natural h =>
    obtain ⟨d, t, rfl, hd⟩ := h.eq_cons
    exact ⟨d, t, rfl, isSpace_of_digit (.inr hd), ne_of_digit (.inr hd)⟩
  | negative _ _ => exact ⟨_, _, rfl, by decide, by decide⟩
  | real _ _ _ _ _ => cases hp
  | string h =>
    obtain ⟨t, rfl, -⟩ := h.string?_eq
    exact ⟨_, _, rfl, by decide, by decide⟩
  | emptyArr _ => exact ⟨_, _, rfl, by decide, by decide⟩
  | arr _ => exact ⟨_, _, rfl, by decide, by decide⟩
  | emptyObj _ => exact ⟨_, _, rfl, by decide, by decide⟩
  | obj _ => exact ⟨_, _, rfl, by decide, by decide⟩

theorem items?_last {fuel : Nat} {s after rest : List Char} {v : Json}
    (hvalue : value? fuel s = some (v, after ++ ']' :: rest)) (hafter : Blanks after) :
    items? (fuel + 1) s = some ([v], rest) := by
  simp only [items?, hvalue, Option.bind_eq_bind, Option.bind_some,
    skipSpace_blanks_cons hafter (by decide : isSpace ']' = false)]

theorem items?_more {fuel : Nat} {s after rest rest' : List Char} {v : Json} {items : List Json}
    (hvalue : value? fuel s = some (v, after ++ ',' :: rest)) (hafter : Blanks after)
    (hitems : items? fuel rest = some (items, rest')) :
    items? (fuel + 1) s = some (v :: items, rest') := by
  simp only [items?, hvalue, Option.bind_eq_bind, Option.bind_some,
    skipSpace_blanks_cons hafter (by decide : isSpace ',' = false), hitems, Option.map_some]

theorem members?_last {fuel : Nat} {n s after rest : List Char} {name : String} {v : Json}
    (hname : DenotesName n name) (hvalue : value? fuel s = some (v, after ++ '\x7d' :: rest))
    (hafter : Blanks after) : members? (fuel + 1) (n ++ s) = some ([(name, v)], rest) := by
  obtain ⟨t, u, hstart, hstring, hcolon⟩ := hname.eq_cons s
  simp only [members?, hstart, hstring, hcolon, hvalue, Option.bind_eq_bind, Option.bind_some,
    skipSpace_blanks_cons hafter (by decide : isSpace '\x7d' = false)]

theorem members?_more {fuel : Nat} {n s after rest rest' : List Char} {name : String} {v : Json}
    {members : List (String × Json)} (hname : DenotesName n name)
    (hvalue : value? fuel s = some (v, after ++ ',' :: rest)) (hafter : Blanks after)
    (hmembers : members? fuel rest = some (members, rest')) :
    members? (fuel + 1) (n ++ s) = some ((name, v) :: members, rest') := by
  obtain ⟨t, u, hstart, hstring, hcolon⟩ := hname.eq_cons s
  simp only [members?, hstart, hstring, hcolon, hvalue, Option.bind_eq_bind, Option.bind_some,
    skipSpace_blanks_cons hafter (by decide : isSpace ',' = false), hmembers, Option.map_some]

theorem value?_emptyArr {blanks : List Char} (h : Blanks blanks) (fuel : Nat) (rest : List Char) :
    value? (fuel + 1) ('[' :: (blanks ++ ']' :: rest)) = some (.arr [], rest) := by
  simp only [value?, skipSpace_cons (by decide : isSpace '[' = false),
    skipSpace_blanks_cons h (by decide : isSpace ']' = false)]

theorem value?_emptyObj {blanks : List Char} (h : Blanks blanks) (fuel : Nat) (rest : List Char) :
    value? (fuel + 1) ('\x7b' :: (blanks ++ '\x7d' :: rest)) = some (.obj [], rest) := by
  simp only [value?, skipSpace_cons (by decide : isSpace '\x7b' = false),
    skipSpace_blanks_cons h (by decide : isSpace '\x7d' = false)]

theorem value?_arr {fuel : Nat} {s rest : List Char} {items : List Json}
    (hitems : items? fuel s = some (items, rest)) (hclose : ∀ t, skipSpace s ≠ ']' :: t) :
    value? (fuel + 1) ('[' :: s) = some (.arr items, rest) := by
  rw [value?, skipSpace_cons (by decide)]
  simp only [items?_skipSpace, hitems, Option.map_some]

theorem value?_obj {fuel : Nat} {s rest : List Char} {members : List (String × Json)}
    (hmembers : members? fuel s = some (members, rest)) (hclose : ∀ t, skipSpace s ≠ '\x7d' :: t) :
    value? (fuel + 1) ('\x7b' :: s) = some (.obj members, rest) := by
  rw [value?, skipSpace_cons (by decide)]
  simp only [members?_skipSpace, hmembers, Option.map_some]

theorem DenotesItems.skipSpace_ne {depth : Nat} {s : List Char} {items : List Json}
    (h : DenotesItems s items) (hp : ∀ v ∈ items, Portable depth v) (rest t : List Char) :
    skipSpace (s ++ rest) ≠ ']' :: t := by
  have hstart : ∀ {before s v}, Blanks before → Denotes s v → v ∈ items → ∀ u,
      skipSpace (before ++ (s ++ u)) ≠ ']' :: t := by
    intro before s v hbefore h hv u heq
    obtain ⟨c, s, rfl, hspace, hclose⟩ := h.eq_cons (hp v hv)
    rw [List.cons_append, skipSpace_blanks_cons hbefore hspace] at heq
    exact hclose (List.cons.inj heq).1
  cases h with
  | last hbefore h _ =>
    rw [List.append_assoc, List.append_assoc]
    exact hstart hbefore h List.mem_cons_self _
  | more hbefore h _ _ =>
    rw [List.append_assoc, List.append_assoc]
    exact hstart hbefore h List.mem_cons_self _

theorem DenotesMembers.skipSpace_ne {s : List Char} {members : List (String × Json)}
    (h : DenotesMembers s members) (rest t : List Char) : skipSpace (s ++ rest) ≠ '\x7d' :: t := by
  have hstart : ∀ {n name}, DenotesName n name → ∀ u, skipSpace (n ++ u) ≠ '\x7d' :: t := by
    intro n name hname u heq
    obtain ⟨t, _, hquote, -⟩ := hname.eq_cons u
    rw [hquote] at heq
    cases heq
  cases h with
  | last hname _ _ _ =>
    rw [List.append_assoc]
    exact hstart hname _
  | more hname _ _ _ _ =>
    rw [List.append_assoc]
    exact hstart hname _

theorem Denotes.length_pos {depth : Nat} {s : List Char} {v : Json} (h : Denotes s v)
    (hp : Portable depth v) : 0 < s.length := by
  obtain ⟨c, t, rfl, -⟩ := h.eq_cons hp
  exact Nat.succ_pos t.length

mutual

/-- A text that denotes a portable value is read off the front of any input that does not go on with
a number. -/
theorem Denotes.value?_eq {depth : Nat} {s : List Char} {v : Json} (h : Denotes s v)
    (hp : Portable depth v) {fuel : Nat} (hfuel : s.length ≤ fuel + 1) {rest : List Char}
    (hrest : EndsNumber rest) : value? (fuel + 1) (s ++ rest) = some (v, rest) := by
  match h with
  | .null => rfl
  | .bool true => rfl
  | .bool false => rfl
  | .natural h =>
    obtain ⟨d, t, hstart, hd⟩ := h.eq_cons
    have hnumber := number?_of_whole h hrest
    rw [hstart, List.cons_append] at hnumber ⊢
    rw [value?_of_digit (.inr hd), hnumber]
  | .negative h hzero =>
    rw [List.cons_append, value?_of_digit (.inl rfl), number?_minus h hzero hrest]
  | .real _ _ _ _ _ => cases hp
  | .string h =>
    obtain ⟨t, rfl, ht⟩ := h.string?_eq
    simp only [List.cons_append, value?, skipSpace_cons (by decide : isSpace '"' = false), ht,
      Option.map_some]
  | .emptyArr h =>
    rw [List.cons_append, List.append_assoc, List.singleton_append, value?_emptyArr h]
  | .arr h =>
    cases hp with
    | arr hp =>
      have hitems := h.items?_eq hp (Nat.le_of_succ_le_succ hfuel) rest
      exact value?_arr hitems (h.skipSpace_ne hp rest)
  | .emptyObj h =>
    rw [List.cons_append, List.append_assoc, List.singleton_append, value?_emptyObj h]
  | .obj h =>
    cases hp with
    | obj _ hp =>
      have hmembers := h.members?_eq hp (Nat.le_of_succ_le_succ hfuel) rest
      exact value?_obj hmembers (h.skipSpace_ne rest)

theorem DenotesItems.items?_eq {depth : Nat} {s : List Char} {items : List Json}
    (h : DenotesItems s items) (hp : ∀ v ∈ items, Portable depth v) {fuel : Nat}
    (hfuel : s.length ≤ fuel) (rest : List Char) :
    items? fuel (s ++ rest) = some (items, rest) := by
  match h with
  | @DenotesItems.last before s after v hbefore h hafter =>
    have hv := hp v List.mem_cons_self
    have hpos := h.length_pos hv
    simp only [List.length_append, List.length_cons, List.length_nil] at hfuel
    obtain ⟨fuel, rfl⟩ : ∃ n, fuel = n + 2 := ⟨fuel - 2, by omega⟩
    have hends := (endsNumber_cons (c := ']') (by decide) rest).blanks_append hafter
    have hvalue := h.value?_eq hv (show s.length ≤ fuel + 1 by omega) hends
    rw [← value?_blanks hbefore] at hvalue
    simp only [List.append_assoc, List.singleton_append]
    exact items?_last hvalue hafter
  | @DenotesItems.more before s after s' v items hbefore h hafter hitems =>
    have hv := hp v List.mem_cons_self
    have hpos := h.length_pos hv
    simp only [List.length_append, List.length_cons] at hfuel
    obtain ⟨fuel, rfl⟩ : ∃ n, fuel = n + 2 := ⟨fuel - 2, by omega⟩
    have hends := (endsNumber_cons (c := ',') (by decide) (s' ++ rest)).blanks_append hafter
    have hvalue := h.value?_eq hv (show s.length ≤ fuel + 1 by omega) hends
    have hmore := hitems.items?_eq (fun w hw => hp w (List.mem_cons_of_mem v hw))
      (show s'.length ≤ fuel + 1 by omega) rest
    rw [← value?_blanks hbefore] at hvalue
    simp only [List.append_assoc, List.cons_append]
    exact items?_more hvalue hafter hmore

theorem DenotesMembers.members?_eq {depth : Nat} {s : List Char} {members : List (String × Json)}
    (h : DenotesMembers s members) (hp : ∀ m ∈ members, Portable depth m.2) {fuel : Nat}
    (hfuel : s.length ≤ fuel) (rest : List Char) :
    members? fuel (s ++ rest) = some (members, rest) := by
  match h with
  | @DenotesMembers.last n before s after name v hname hbefore h hafter =>
    have hv := hp (name, v) List.mem_cons_self
    have hpos := h.length_pos hv
    simp only [List.length_append, List.length_cons, List.length_nil] at hfuel
    obtain ⟨fuel, rfl⟩ : ∃ n, fuel = n + 2 := ⟨fuel - 2, by omega⟩
    have hends := (endsNumber_cons (c := '\x7d') (by decide) rest).blanks_append hafter
    have hvalue := h.value?_eq hv (show s.length ≤ fuel + 1 by omega) hends
    rw [← value?_blanks hbefore] at hvalue
    simp only [List.append_assoc, List.singleton_append]
    exact members?_last hname hvalue hafter
  | @DenotesMembers.more n before s after s' name v members hname hbefore h hafter hmembers =>
    have hv := hp (name, v) List.mem_cons_self
    have hpos := h.length_pos hv
    simp only [List.length_append, List.length_cons] at hfuel
    obtain ⟨fuel, rfl⟩ : ∃ n, fuel = n + 2 := ⟨fuel - 2, by omega⟩
    have hends := (endsNumber_cons (c := ',') (by decide) (s' ++ rest)).blanks_append hafter
    have hvalue := h.value?_eq hv (show s.length ≤ fuel + 1 by omega) hends
    have hmore := hmembers.members?_eq (fun w hw => hp w (List.mem_cons_of_mem (name, v) hw))
      (show s'.length ≤ fuel + 1 by omega) rest
    rw [← value?_blanks hbefore] at hvalue
    simp only [List.append_assoc, List.cons_append]
    exact members?_more hname hvalue hafter hmore

end

/-- Portable values are read from all texts that denote them. -/
theorem reads_format : format.Reads := by
  intro text v h hp
  cases h with
  | @padded before s after v hbefore h hafter =>
    have hlength : s.length ≤ (before ++ (s ++ after)).length + 1 := by
      simp only [List.length_append]
      omega
    have hvalue := h.value?_eq hp hlength (endsNumber_nil.blanks_append hafter)
    have hend := skipSpace_blanks hafter []
    rw [← value?_blanks hbefore] at hvalue
    rw [List.append_nil] at hvalue hend
    show parse? _ = some v
    rw [parse?, String.toList_ofList, hvalue]
    simp only [hend]
    rfl

end RewindLexer.Json
