import Mathlib.Data.List.Nodup
import RewindLexer.Json.Scheme
import RewindLexer.Proofs.Text.Numeral

/-!
# Lawful schemes

A lawful scheme reads back the records and the variants that it writes. Main statement: the scheme
of objects and arrays is lawful. A member of an object is found by its name if no other member has
that name.
-/

namespace RewindLexer.Json

open Text

theorem Codec.Uses.decode_encode {α : Type} {c : Codec α} {form : α → Json} (h : c.Uses form)
    (x : α) : c.decode (c.encode x) = some x := by
  rw [(h x).1, (h x).2]

section

variable {s : Scheme} {fields : List (String × Json)}

theorem Scheme.Lawful.fields?_record (hs : s.Lawful) (hnames : (fields.map Prod.fst).Nodup) :
    s.fields? (fields.map Prod.fst) (s.record fields) = some (fields.map Prod.snd) := by
  rw [hs.record_eq]
  exact hs.fields?_obj hnames fun _ hm => hm

theorem Scheme.Lawful.variant?_tagged (hs : s.Lawful) {tag variant : String}
    {variants : List (String × List String)}
    (hvariants : (variants.map fun v => snakeCase v.1).Nodup)
    (hvariant : (variant, fields.map Prod.fst) ∈ variants)
    (hnames : (tag :: fields.map Prod.fst).Nodup) :
    s.variant? tag variants (s.tagged tag variant fields) =
      some (variant, fields.map Prod.snd) := by
  rw [hs.tagged_eq]
  exact hs.variant?_obj hvariants hvariant hnames List.mem_cons_self fun _ hm =>
    List.mem_cons_of_mem _ hm

end

/-- Where keys are distinct, an item is the only one with its key. -/
theorem filter_eq_singleton {α : Type} {f : α → String} {l : List α} {a : α}
    (hl : (l.map f).Nodup) (h : a ∈ l) : l.filter (f · == f a) = [a] := by
  induction l with
  | nil => cases h
  | cons b l ih =>
    rw [List.map_cons, List.nodup_cons] at hl
    rcases List.mem_cons.1 h with rfl | h
    · have hrest : l.filter (f · == f a) = [] := by
        refine List.filter_eq_nil_iff.2 fun c hc heq => hl.1 ?_
        rw [← eq_of_beq heq]
        exact List.mem_map_of_mem hc
      rw [List.filter_cons, if_pos (beq_self_eq_true (f a)), hrest]
    · have hne : ¬(f b == f a) = true := by
        intro heq
        rw [eq_of_beq heq] at hl
        exact hl.1 (List.mem_map_of_mem h)
      rw [List.filter_cons, if_neg hne, ih hl.2 h]

theorem member?_of_mem {members : List (String × Json)} {m : String × Json}
    (hnames : (members.map Prod.fst).Nodup) (h : m ∈ members) : member? members m.1 = some m.2 := by
  rw [member?, filter_eq_singleton hnames h]

theorem mapM_member? {members fields : List (String × Json)} (hnames : (members.map Prod.fst).Nodup)
    (h : ∀ m ∈ fields, m ∈ members) :
    (fields.map Prod.fst).mapM (member? members) = some (fields.map Prod.snd) := by
  induction fields with
  | nil => rfl
  | cons m fields ih =>
    rw [List.forall_mem_cons] at h
    rw [List.map_cons, List.mapM_cons, member?_of_mem hnames h.1, ih h.2]
    rfl

theorem findVariant?_of_mem {variants : List (String × List String)} {v : String × List String}
    (hnames : (variants.map fun w => snakeCase w.1).Nodup) (h : v ∈ variants) :
    findVariant? variants (.str (snakeCase v.1)) = some v := by
  have hfilter : variants.filter (fun w => snakeCase w.1 == snakeCase v.1) = [v] :=
    filter_eq_singleton hnames h
  show variants.find? (fun w => snakeCase w.1 == snakeCase v.1) = some v
  rw [← List.head?_filter, hfilter, List.head?_cons]

theorem char?_toString (c : Char) : (str c.toString).char? = some c := by
  simp [char?]

theorem lawful_scheme : scheme.Lawful where
  string_uses _ := ⟨rfl, rfl⟩
  char_uses c := ⟨rfl, char?_toString c⟩
  int64_uses _ := ⟨rfl, Numeral.int64OfInt?_eq_some_iff.2 rfl⟩
  record_eq _ := rfl
  fields?_obj hnames h := mapM_member? hnames h
  tagged_eq _ _ _ := rfl
  variant?_obj {tag variant variants members fields} hvariants hvariant hnames htag h := by
    have hkind : member? members tag = some (.str (snakeCase variant)) := member?_of_mem hnames htag
    have hfields : fields? (fields.map Prod.fst) (.obj members) = some (fields.map Prod.snd) :=
      mapM_member? hnames h
    show variant? tag variants (.obj members) = some (variant, fields.map Prod.snd)
    simp only [variant?, hkind, findVariant?_of_mem hvariants hvariant, hfields,
      Option.bind_eq_bind, Option.bind_some]

end RewindLexer.Json
