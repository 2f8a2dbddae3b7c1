import RewindLexer.Proofs.Json.Reading
import RewindLexer.Proofs.Json.Scheme
import RewindLexer.Proofs.Json.Writing
import RewindLexer.Token.Json

/-!
# Tokens written and read

A token becomes a portable JSON value under every lawful scheme, and that value gives the token
back. Main statement: whatever the lawful scheme, the writer and the reader are, the text of a token
is well formed, and the token is read back from it, so that no two tokens have one text.
-/

namespace RewindLexer

section

variable {s : Json.Scheme}

namespace TokenValue

theorem fields_mem_variants (value : TokenValue) :
    ((value.fields s).1, (value.fields s).2.map Prod.fst) ∈ variants := by
  cases value with
  | name _ | string _ _ | integer _ | char _ | symbol _ | endOfFile => simp [fields, variants]

theorem ofFields?_fields (hs : s.Lawful) (value : TokenValue) :
    ofFields? s ((value.fields s).1, (value.fields s).2.map Prod.snd) = some value := by
  have hstring := hs.string_uses.decode_encode
  cases value with
  | name x | char x | symbol x => simp [fields, ofFields?, hstring]
  | string x quote => simp [fields, ofFields?, hstring, hs.char_uses.decode_encode quote]
  | integer n => simp [fields, ofFields?, hs.int64_uses.decode_encode n]
  | endOfFile => rfl

/-- The names of the fields are distinct, and none of them is the tag. -/
theorem nodup_fields (s : Json.Scheme) (value : TokenValue) :
    ("kind" :: (value.fields s).2.map Prod.fst).Nodup := by
  cases value with
  | name _ | string _ _ | integer _ | char _ | symbol _ | endOfFile => simp [fields]

theorem portable_of_mem_fields (hs : s.Lawful) {value : TokenValue} {m : String × Json}
    (h : m ∈ (value.fields s).2) (depth : Nat) : Json.Portable depth m.2 := by
  have hstring : ∀ x, Json.Portable depth (s.string.encode x) := by
    intro x
    rw [(hs.string_uses x).1]
    exact .str
  cases value with
  | name x | char x | symbol x =>
    cases List.mem_singleton.1 h
    exact hstring x
  | string x quote =>
    simp only [fields, List.mem_cons, List.not_mem_nil, or_false] at h
    obtain rfl | rfl := h
    · exact hstring x
    · rw [(hs.char_uses quote).1]
      exact .str
  | integer n =>
    cases List.mem_singleton.1 h
    rw [(hs.int64_uses n).1]
    have hhigh := n.toInt_lt
    exact .int n.minValue_le_toInt (by simp only [UInt64.size]; omega)
  | endOfFile => cases h

theorem portable_toJson (hs : s.Lawful) (value : TokenValue) (depth : Nat) :
    Json.Portable (depth + 1) (value.toJson s) := by
  rw [toJson, hs.tagged_eq]
  refine .obj (value.nodup_fields s) ?_
  rw [List.forall_mem_cons]
  exact ⟨.str, fun m hm => portable_of_mem_fields hs hm depth⟩

theorem ofJson?_toJson (hs : s.Lawful) (value : TokenValue) :
    ofJson? (value.toJson s) s = some value := by
  have hvariants : (variants.map fun v => Json.snakeCase v.1).Nodup := by decide
  have hvariant := hs.variant?_tagged hvariants value.fields_mem_variants (value.nodup_fields s)
  rw [toJson, ofJson?, hvariant, Option.bind_some, ofFields?_fields hs]

end TokenValue

namespace Token

theorem portable_toJson (hs : s.Lawful) (t : Token) (depth : Nat) :
    Json.Portable (depth + 2) (t.toJson s) := by
  rw [toJson, hs.record_eq, (hs.string_uses t.lexeme).1]
  refine .obj (by simp) ?_
  simp [Json.Portable.str, t.value.portable_toJson hs depth]

theorem ofJson?_toJson (hs : s.Lawful) (t : Token) : ofJson? (t.toJson s) s = some t := by
  have hnames : ([("original", s.string.encode t.lexeme), ("value", t.value.toJson s)].map
      Prod.fst).Nodup := by simp
  have hfields : s.fields? ["original", "value"] (t.toJson s) =
      some [s.string.encode t.lexeme, t.value.toJson s] :=
    hs.fields?_record hnames
  simp only [ofJson?, hfields, hs.string_uses.decode_encode, t.value.ofJson?_toJson hs,
    Option.bind_eq_bind, Option.bind_some]

variable {f : Json.Format}

theorem bind_read_write (hw : f.Writes) (hr : f.Reads) (hs : s.Lawful) (t : Token) :
    (f.read (f.write (t.toJson s))).bind (ofJson? · s) = some t := by
  have hp := t.portable_toJson hs 125
  rw [hr _ _ (hp.textOf hw) hp, Option.bind_some, t.ofJson?_toJson hs]

/-- The text of a token is well-formed JSON, the token is read back from it as it was, and only one
token has that text. -/
theorem json_round_trip (hw : f.Writes) (hr : f.Reads) (hs : s.Lawful) (t u : Token) :
    Json.WellFormed (f.write (t.toJson s)) ∧
      (f.read (f.write (t.toJson s))).bind (ofJson? · s) = some t ∧
      (f.write (t.toJson s) = f.write (u.toJson s) ↔ t = u) := by
  refine ⟨⟨_, (t.portable_toJson hs 0).textOf hw⟩, t.bind_read_write hw hr hs, ?_, ?_⟩
  · intro h
    have ht := t.bind_read_write hw hr hs
    rw [h, u.bind_read_write hw hr hs] at ht
    exact (Option.some.inj ht).symm
  · rintro rfl
    rfl

theorem json_round_trip_tab :
    (Json.format.Writes ∧ Json.format.Reads ∧ Json.scheme.Lawful) ∧
      Json.WellFormed (Json.format.write (⟨"\t", .name "\t"⟩ : Token).toJson) ∧
      (Json.format.read (Json.format.write (⟨"\t", .name "\t"⟩ : Token).toJson)).bind (ofJson? ·) =
        some ⟨"\t", .name "\t"⟩ ∧
      Json.format.write (⟨"\t", .name "\t"⟩ : Token).toJson ≠
        Json.format.write (⟨"", .endOfFile⟩ : Token).toJson := by
  have h := json_round_trip Json.writes_format Json.reads_format Json.lawful_scheme
    ⟨"\t", .name "\t"⟩ ⟨"", .endOfFile⟩
  exact ⟨⟨Json.writes_format, Json.reads_format, Json.lawful_scheme⟩, h.1, h.2.1,
    fun heq => absurd (h.2.2.1 heq) (by simp)⟩

example : Json.format.write (⟨"\t", .name "\t"⟩ : Token).toJson =
    "\x7b\"original\":\"\\t\",\"value\":\x7b\"kind\":\"name\",\"value\":\"\\t\"\x7d\x7d" := by
  cbv

end Token

end

end RewindLexer
