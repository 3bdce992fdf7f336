import Mathlib.Tactic.SplitIfs
import Wayfare.Proofs.Value.Words
import Wayfare.Proofs.Value.Texts

/-! # Values read back

What JSON can say reads back as it was, whatever its texts, numbers and depth.
The proof follows the value: each item of a list and each field of a record is
read up to the character that ends it, and the length of the text is more than
the depth to which it is read.
-/

namespace Wayfare.Value

/-- A value that JSON can say: no moment, no record with two fields of one name, and no whole number with
more digits than can be written or read. All its texts and names are legible, whatever that asks of
them. -/
inductive IsJson (legible : String → Prop) : Value → Prop
  | null : IsJson legible null
  | bool (b : Bool) : IsJson legible (bool b)
  | int {n : Int} (h : n.natAbs < 10 ^ Decimal.maxDigits) : IsJson legible (int n)
  | real (x : Float) : IsJson legible (real x)
  | text {s : String} (h : legible s) : IsJson legible (text s)
  | list {items : List Value} (h : ∀ v ∈ items, IsJson legible v) : IsJson legible (list items)
  | record {fields : Fields} (hnames : (fields.map (·.1)).Nodup)
      (hlegible : ∀ f ∈ fields, legible f.1) (h : ∀ f ∈ fields, IsJson legible f.2) :
      IsJson legible (record fields)

variable {legible : String → Prop}

/-! ## The first character -/

theorem skipBlank_of_not_blank {c : Char} (hc : isJsonBlank c = false) (tail : List Char) :
    skipBlank (c :: tail) = c :: tail :=
  List.dropWhile_cons_of_neg (by simp [hc])

theorem IsWordChar.not_blank {c : Char} (hc : IsWordChar c) : isJsonBlank c = false := by
  have hne (d : Char) (hd : ¬IsWordChar d) : c ≠ d := hc.ne hd
  simp only [isJsonBlank, Bool.or_eq_false_iff, beq_eq_false_iff_ne]
  exact ⟨⟨⟨hne _ (by decide), hne _ (by decide)⟩, hne _ (by decide)⟩, hne _ (by decide)⟩

/-- The JSON of a value begins where white space would end, and not with the end of a list. -/
theorem exists_head_json {v : Value} (h : IsJson legible v) :
    ∃ c tail, v.json = c :: tail ∧ isJsonBlank c = false ∧ c ≠ ']' := by
  have hword {cs : List Char} (hcs : IsWord cs) :
      ∃ c tail, cs = c :: tail ∧ isJsonBlank c = false ∧ c ≠ ']' := by
    obtain ⟨c, tail, rfl⟩ := List.exists_cons_of_ne_nil hcs.ne_nil
    have hc := hcs.isWordChar c List.mem_cons_self
    exact ⟨c, tail, rfl, hc.not_blank, hc.ne (by decide)⟩
  cases h with
  | null => exact hword isWord_null
  | bool b => exact hword (isWord_bool b)
  | @int n _ => exact hword (isWord_int n)
  | real x => exact hword (isWord_real x)
  | text => exact ⟨'"', _, rfl, rfl, by decide⟩
  | list => exact ⟨'[', _, rfl, rfl, by decide⟩
  | record => exact ⟨'\x7b', _, rfl, rfl, by decide⟩

/-! ## Lists and records -/

/-- Up to a character that ends a value, the JSON of a value reads back as the value. -/
def ReadsBack (v : Value) : Prop :=
  ∀ {fuel rest}, v.json.length < fuel → Delimited rest →
    readValue fuel (v.json ++ rest) = some (v, rest)

theorem delimited_cons {c : Char} (hc : c = ',' ∨ c = ']' ∨ c = '\x7d') (rest : List Char) :
    Delimited (c :: rest) := by
  rintro d ⟨⟩
  exact hc

theorem skipBlank_json {v : Value} (h : IsJson legible v) (rest : List Char) :
    skipBlank (v.json ++ rest) = v.json ++ rest := by
  obtain ⟨c, tail, hjson, hblank, -⟩ := exists_head_json h
  rw [hjson]
  exact skipBlank_of_not_blank hblank _

theorem jsonJoin_items_cons (v w : Value) (items : List Value) :
    jsonJoin (jsonItems (v :: w :: items)) =
      v.json ++ ',' :: ' ' :: jsonJoin (jsonItems (w :: items)) :=
  rfl

theorem exists_items_append (v : Value) (items : List Value) :
    ∃ tail, jsonJoin (jsonItems (v :: items)) = v.json ++ tail := by
  cases items with
  | nil => exact ⟨[], (List.append_nil _).symm⟩
  | cons w items => exact ⟨_, rfl⟩

theorem skipBlank_items {items : List Value} (h : ∀ v ∈ items, IsJson legible v)
    (hne : items ≠ []) (rest : List Char) :
    skipBlank (jsonJoin (jsonItems items) ++ rest) = jsonJoin (jsonItems items) ++ rest := by
  obtain ⟨v, items, rfl⟩ := List.exists_cons_of_ne_nil hne
  obtain ⟨tail, htail⟩ := exists_items_append v items
  rw [htail, List.append_assoc]
  exact skipBlank_json (h v List.mem_cons_self) _

theorem readItems_jsonItems {items : List Value} (hne : items ≠ [])
    (h : ∀ v ∈ items, IsJson legible v) (hback : ∀ v ∈ items, ReadsBack v) {fuel : Nat}
    (hfuel : (jsonJoin (jsonItems items)).length + 1 < fuel) (rest : List Char) :
    readItems fuel (jsonJoin (jsonItems items) ++ ']' :: rest) = some (items, rest) := by
  induction items generalizing fuel with
  | nil => exact absurd rfl hne
  | cons v items ih =>
      obtain ⟨hv, hitems⟩ := List.forall_mem_cons.mp h
      obtain ⟨hvback, hback⟩ := List.forall_mem_cons.mp hback
      obtain ⟨fuel, rfl⟩ : ∃ k, fuel = k + 1 := ⟨fuel - 1, by omega⟩
      cases items with
      | nil =>
          simp only [jsonItems, jsonJoin] at hfuel
          have hlength : v.json.length < fuel := by omega
          have hfirst := hvback hlength (delimited_cons (.inr (.inl rfl)) rest)
          simp only [jsonItems, jsonJoin, readItems, hfirst]
          rfl
      | cons w items =>
          rw [jsonJoin_items_cons] at hfuel ⊢
          simp only [List.length_append, List.length_cons] at hfuel
          have hlength : v.json.length < fuel := by omega
          have hlength' : (jsonJoin (jsonItems (w :: items))).length + 1 < fuel := by omega
          have hfirst := hvback hlength
            (delimited_cons (.inl rfl) (' ' :: jsonJoin (jsonItems (w :: items)) ++ ']' :: rest))
          have hrest := ih (List.cons_ne_nil _ _) hitems hback hlength'
          have hskip := skipBlank_items hitems (List.cons_ne_nil _ _) (']' :: rest)
          rw [List.append_assoc, List.cons_append, readItems, hfirst]
          dsimp only
          rw [skipBlank_of_not_blank (by rfl)]
          change (readItems fuel (skipBlank (jsonJoin (jsonItems (w :: items)) ++ ']' :: rest))).map _ = _
          rw [hskip, hrest]
          rfl

theorem jsonJoin_fields_cons (name : String) (v : Value) (g : String × Value) (fields : Fields) :
    jsonJoin (jsonFields ((name, v) :: g :: fields)) =
      jsonText name ++ ':' :: ' ' :: v.json ++ ',' :: ' ' :: jsonJoin (jsonFields (g :: fields)) :=
  rfl

theorem set_fresh {fields : Fields} {name : String} (h : name ∉ fields.map (·.1)) (v : Value) :
    Fields.set fields name v = fields ++ [(name, v)] := by
  unfold Fields.set
  induction fields with
  | nil => rfl
  | cons f fields ih =>
      obtain ⟨hne, hfields⟩ := not_or.mp (mt List.mem_cons.mpr h)
      rw [changeEntry, if_neg (by simpa using Ne.symm hne), ih hfields]
      rfl

theorem exists_fields_cons (f : String × Value) (fields : Fields) :
    ∃ tail, jsonJoin (jsonFields (f :: fields)) = '"' :: tail := by
  cases fields with
  | nil => exact ⟨_, rfl⟩
  | cons g fields => exact ⟨_, rfl⟩

theorem skipBlank_fields (f : String × Value) (fields : Fields) (rest : List Char) :
    skipBlank (jsonJoin (jsonFields (f :: fields)) ++ rest) =
      jsonJoin (jsonFields (f :: fields)) ++ rest := by
  obtain ⟨tail, htail⟩ := exists_fields_cons f fields
  rw [htail]
  exact skipBlank_of_not_blank rfl _

section Field

variable {name : String} {v : Value} (hv : IsJson legible v) (hback : ReadsBack v) {seen : Fields}
  (hfresh : name ∉ seen.map (·.1)) {fuel : Nat} (hfuel : v.json.length < fuel)

include hv hback hfresh hfuel

/-- A last field with a new name is put after those before it. -/
theorem readFields_last (rest : List Char) :
    readFields seen (fuel + 1) (jsonText name ++ ':' :: ' ' :: v.json ++ '\x7d' :: rest) =
      some (seen ++ [(name, v)], rest) := by
  have hread := hback hfuel (delimited_cons (.inr (.inr rfl)) rest)
  have hcolon (cs : List Char) : skipBlank (':' :: cs) = ':' :: cs := rfl
  have hclose : skipBlank ('\x7d' :: rest) = '\x7d' :: rest := rfl
  have hspace : skipBlank (' ' :: (v.json ++ '\x7d' :: rest)) = v.json ++ '\x7d' :: rest :=
    skipBlank_json hv _
  simp only [jsonText, List.cons_append, List.append_assoc, List.nil_append, readFields,
    readText_jsonText, hcolon, hspace, hread, set_fresh hfresh, hclose]

/-- After a field with a new name the others are read. -/
theorem readFields_more (more : List Char) :
    readFields seen (fuel + 1) (jsonText name ++ ':' :: ' ' :: v.json ++ ',' :: ' ' :: more) =
      readFields (seen ++ [(name, v)]) fuel (skipBlank more) := by
  have hread := hback hfuel (delimited_cons (.inl rfl) (' ' :: more))
  have hcolon (cs : List Char) : skipBlank (':' :: cs) = ':' :: cs := rfl
  have hcomma : skipBlank (',' :: ' ' :: more) = ',' :: ' ' :: more := rfl
  have hmore : skipBlank (' ' :: more) = skipBlank more := rfl
  have hspace : skipBlank (' ' :: (v.json ++ ',' :: ' ' :: more)) = v.json ++ ',' :: ' ' :: more :=
    skipBlank_json hv _
  simp only [jsonText, List.cons_append, List.append_assoc, List.nil_append, readFields,
    readText_jsonText, hcolon, hspace, hread, set_fresh hfresh, hcomma, hmore]

end Field

theorem readFields_jsonFields {fields : Fields} (hne : fields ≠ [])
    (h : ∀ f ∈ fields, IsJson legible f.2) (hback : ∀ f ∈ fields, ReadsBack f.2) {seen : Fields}
    (hnames : ((seen ++ fields).map (·.1)).Nodup) {fuel : Nat}
    (hfuel : (jsonJoin (jsonFields fields)).length + 1 < fuel) (rest : List Char) :
    readFields seen fuel (jsonJoin (jsonFields fields) ++ '\x7d' :: rest) =
      some (seen ++ fields, rest) := by
  induction fields generalizing fuel seen with
  | nil => exact absurd rfl hne
  | cons f fields ih =>
      obtain ⟨name, v⟩ := f
      obtain ⟨hv, hfields⟩ := List.forall_mem_cons.mp h
      obtain ⟨hvback, hback⟩ := List.forall_mem_cons.mp hback
      obtain ⟨fuel, rfl⟩ : ∃ k, fuel = k + 1 := ⟨fuel - 1, by omega⟩
      have hfresh : name ∉ seen.map (·.1) := by
        rw [List.map_append] at hnames
        exact fun hmem => List.disjoint_of_nodup_append hnames hmem List.mem_cons_self
      cases fields with
      | nil =>
          simp only [jsonFields, jsonJoin, List.length_append, List.length_cons] at hfuel ⊢
          exact readFields_last (v := v) hv hvback hfresh (by omega) rest
      | cons g fields =>
          rw [jsonJoin_fields_cons] at hfuel ⊢
          simp only [List.length_append, List.length_cons] at hfuel
          have hlength : (jsonJoin (jsonFields (g :: fields))).length + 1 < fuel := by omega
          have hnames' : ((seen ++ [(name, v)] ++ g :: fields).map (·.1)).Nodup := by
            rwa [List.append_assoc]
          have hrest := ih (List.cons_ne_nil _ _) hfields hback hnames' hlength
          rw [List.append_assoc, List.cons_append, List.cons_append,
            readFields_more (v := v) hv hvback hfresh (by omega), skipBlank_fields, hrest,
            List.append_assoc, List.singleton_append]

/-! ## All values -/

theorem readValue_word {c : Char} (hc : IsWordChar c) (fuel : Nat) (tail : List Char) :
    readValue (fuel + 1) (c :: tail) = readPlain (c :: tail) := by
  have hquote : c ≠ '"' := hc.ne (by decide)
  have hlist : c ≠ '[' := hc.ne (by decide)
  have hrecord : c ≠ '\x7b' := hc.ne (by decide)
  simp [readValue, hquote, hlist, hrecord]

theorem readsBack_word {v : Value} (hword : IsWord v.json)
    (hplain : ∀ {rest}, Delimited rest → readPlain (v.json ++ rest) = some (v, rest)) :
    ReadsBack v := by
  intro fuel rest hfuel hrest
  obtain ⟨fuel, rfl⟩ : ∃ k, fuel = k + 1 := ⟨fuel - 1, by omega⟩
  obtain ⟨c, tail, hjson⟩ := List.exists_cons_of_ne_nil hword.ne_nil
  rw [← hplain hrest, hjson]
  exact readValue_word (hword.isWordChar c (by rw [hjson]; exact List.mem_cons_self)) fuel _

theorem readValue_list {cs : List Char} (h : ∀ after, skipBlank cs ≠ ']' :: after) (fuel : Nat) :
    readValue (fuel + 1) ('[' :: cs) =
      (readItems fuel (skipBlank cs)).map fun (items, rest) => (list items, rest) := by
  rw [readValue]
  split
  next after hclose => exact absurd hclose (h after)
  next => rfl

theorem readValue_record {cs : List Char} (h : ∀ after, skipBlank cs ≠ '\x7d' :: after) (fuel : Nat) :
    readValue (fuel + 1) ('\x7b' :: cs) =
      (readFields [] fuel (skipBlank cs)).map fun (fields, rest) => (record fields, rest) := by
  rw [readValue]
  split
  next after hclose => exact absurd hclose (h after)
  next => rfl

theorem readsBack_list {items : List Value} (h : ∀ v ∈ items, IsJson legible v)
    (hback : ∀ v ∈ items, ReadsBack v) : ReadsBack (list items) := by
  intro fuel rest hfuel hrest
  obtain ⟨fuel, rfl⟩ : ∃ k, fuel = k + 1 := ⟨fuel - 1, by omega⟩
  cases items with
  | nil => rfl
  | cons v items =>
      have hlength : (jsonJoin (jsonItems (v :: items))).length + 1 < fuel := by
        simp only [json, List.length_cons, List.length_append] at hfuel
        omega
      have hskip := skipBlank_items h (List.cons_ne_nil _ _) (']' :: rest)
      have hopen (after : List Char) :
          skipBlank (jsonJoin (jsonItems (v :: items)) ++ ']' :: rest) ≠ ']' :: after := by
        obtain ⟨c, tail, hjson, -, hclose⟩ := exists_head_json (h v List.mem_cons_self)
        obtain ⟨more, hmore⟩ := exists_items_append v items
        rw [hskip, hmore, hjson]
        exact fun heq => hclose (List.cons.inj heq).1
      rw [json, List.cons_append, List.cons_append, List.append_assoc, List.singleton_append,
        readValue_list hopen, hskip,
        readItems_jsonItems (List.cons_ne_nil _ _) h hback hlength rest]
      rfl

theorem readsBack_record {fields : Fields} (hnames : (fields.map (·.1)).Nodup)
    (h : ∀ f ∈ fields, IsJson legible f.2) (hback : ∀ f ∈ fields, ReadsBack f.2) :
    ReadsBack (record fields) := by
  intro fuel rest hfuel hrest
  obtain ⟨fuel, rfl⟩ : ∃ k, fuel = k + 1 := ⟨fuel - 1, by omega⟩
  cases fields with
  | nil => rfl
  | cons f fields =>
      have hlength : (jsonJoin (jsonFields (f :: fields))).length + 1 < fuel := by
        simp only [json, List.length_cons, List.length_append] at hfuel
        omega
      have hskip := skipBlank_fields f fields ('\x7d' :: rest)
      have hopen (after : List Char) :
          skipBlank (jsonJoin (jsonFields (f :: fields)) ++ '\x7d' :: rest) ≠ '\x7d' :: after := by
        obtain ⟨tail, htail⟩ := exists_fields_cons f fields
        rw [hskip, htail]
        exact fun heq => absurd (List.cons.inj heq).1 (by decide)
      rw [json, List.cons_append, List.cons_append, List.append_assoc, List.singleton_append,
        readValue_record hopen, hskip,
        readFields_jsonFields (List.cons_ne_nil _ _) h hback hnames hlength rest]
      rfl

theorem IsJson.readsBack {v : Value} (h : IsJson legible v) : ReadsBack v := by
  induction h with
  | null => exact readsBack_word (v := .null) isWord_null fun _ => rfl
  | bool b =>
      refine readsBack_word (v := .bool b) (isWord_bool b) fun _ => ?_
      cases b <;> rfl
  | @int n _ => exact readsBack_word (v := .int n) (isWord_int n) fun hrest => readPlain_int hrest n
  | real x =>
      exact readsBack_word (v := .real x) (isWord_real x) fun hrest => readPlain_jsonReal hrest x
  | @text s _ =>
      intro fuel rest hfuel hrest
      obtain ⟨fuel, rfl⟩ : ∃ k, fuel = k + 1 := ⟨fuel - 1, by omega⟩
      rw [json, jsonText, List.cons_append, List.cons_append, List.append_assoc,
        List.singleton_append, readValue, readText_jsonText]
      rfl
  | list h ih => exact readsBack_list h ih
  | record hnames _ h ih => exact readsBack_record hnames h ih

/-- The JSON of a value reads back as the value. -/
theorem ofJson?_toJson {v : Value} (h : IsJson legible v) : ofJson? v.toJson = some v := by
  have hskip : skipBlank v.json = v.json := by
    simpa using skipBlank_json h []
  have hend : Delimited [] := by simp [Delimited]
  have hread := h.readsBack (Nat.lt_succ_self v.json.length) hend
  rw [List.append_nil] at hread
  rw [ofJson?, toJson, String.toList_ofList, hskip, hread]
  rfl

end Wayfare.Value
