import TokenMesh.Proofs.Json.Items

namespace TokenMesh.Json

/-!
# Reading back by a schema

A schema takes back every value that fits it, from the text of that value in any layout.

* `Schema.Fits`: the values that come out of a reading by a schema as they went in;
* `Schema.takesBack`: those values are read back, by induction on the schema;
* `Schema.ofText?_print`: a whole text gives the value that was written.
-/

mutual

/-- What can be written for a schema and comes back the same.  Whole numbers have to fit into 64
    bits, the names of a table have to be in order, and what becomes of the values of a record has
    to be those values. -/
def Schema.Fits : Schema → Value → Prop
  | .flag, .flag _ => True
  | .integer low high, .integer n => low ≤ n ∧ n ≤ high ∧ -2 ^ 63 ≤ n ∧ n < 2 ^ 64
  | .text accept, .text s => accept s = some s
  | .word words, .text s => s ∈ words
  | .optional s, v => v = .null ∨ s.Fits v
  | .list item, .list vs => ∀ v ∈ vs, item.Fits v
  | .table item, .record fs => fs.Pairwise (fun a b => a.1 < b.1) ∧ ∀ f ∈ fs, item.Fits f.2
  | .record fields _ finish, .record fs =>
    fields.Fit fs ∧ (fs.map (·.1)).Nodup ∧ finish (fs.map (·.2)) = some (fs.map (·.2))
  | _, _ => False

/-- Values that fit the fields of a record, under their names and in their order. -/
def Fields.Fit : Fields → List (List Char × Value) → Prop
  | .nil, [] => True
  | .cons name s rest, f :: fs => name = f.1 ∧ s.Fits f.2 ∧ rest.Fit fs
  | _, _ => False

end

variable {rest : List Char}

/-! ### Single values -/

theorem takesBack_flag (b : Bool) : TakesBack Schema.flag.read (.flag b) := by
  intro l rest cs _ hcs
  rw [Schema.read, readFlag, hcs]
  cases b with
  | true => rfl
  | false => rfl

theorem takesBack_integer {low high n : Int} (h : low ≤ n ∧ n ≤ high) (hlow : -2 ^ 63 ≤ n)
    (hhigh : n < 2 ^ 64) : TakesBack (Schema.integer low high).read (.integer n) := by
  intro l rest cs hrest hcs
  obtain ⟨x, hx, hread⟩ := readNumber_printInteger hlow hhigh hrest
  obtain ⟨c, r, heq, hc⟩ := exists_printInteger_eq_cons n
  have hsign : c = '-' ∨ c.isDigit := by
    have hdigit : ∀ d < 10, (Nat.digitChar d).isDigit := by decide
    obtain rfl | ⟨d, hd, rfl⟩ := hc
    · exact .inl rfl
    · exact .inr (hdigit d hd)
  rw [Value.print, heq, List.cons_append] at hcs
  rw [heq, List.cons_append] at hread
  rw [Schema.read, readInteger, hcs]
  simp only [if_pos hsign, bind, Except.bind, hread, hx, if_pos h]

theorem readQuoted_printText {s cs : List Char} (hcs : skipBlanks cs = printText s ++ rest) :
    readQuoted cs = .ok (s, rest) := by
  rw [readQuoted, hcs, printText_append]
  exact readText_flatMap s rest

theorem takesBack_text {accept : List Char → Option (List Char)} {s : List Char}
    (h : accept s = some s) : TakesBack (Schema.text accept).read (.text s) := by
  intro l rest cs _ hcs
  rw [Value.print] at hcs
  rw [Schema.read, readQuoted_printText hcs]
  simp only [bind, Except.bind, h]

theorem takesBack_word {words : List (List Char)} {s : List Char} (h : s ∈ words) :
    TakesBack (Schema.word words).read (.text s) := by
  intro l rest cs _ hcs
  have hquoted := readQuoted_printText (skipBlanks_print none (.text s) rest)
  rw [Value.print, printText_append] at hcs hquoted
  rw [Schema.read, readWord, hcs]
  simp only [if_true, readAmong, hquoted, bind, Except.bind, List.contains_iff_mem.2 h]
  rfl

theorem takesBack_optional {s : Schema} {v : Value} (h : v = .null ∨ TakesBack s.read v) :
    TakesBack (Schema.optional s).read v := by
  intro l rest cs hrest hcs
  obtain ⟨c, r, heq, -, hnull⟩ := exists_print_eq_cons l v
  rw [Schema.read]
  split
  · next r' hr =>
    -- nothing but a null begins like this
    rw [hr, heq, List.cons_append] at hcs
    obtain rfl := hnull (List.cons.inj hcs).1.symm
    rw [Value.print] at heq
    obtain ⟨rfl, rfl⟩ := List.cons.inj heq
    rw [(List.cons.inj hcs).2, readLiteral_append]
    rfl
  · next hne =>
    obtain rfl | h := h
    · rw [Value.print] at hcs
      exact absurd hcs (hne _)
    · rw [hcs]
      exact h l rest _ hrest (skipBlanks_print l v rest)

/-! ### Lists and records -/

theorem takesBack_list {item : Schema} {vs : List Value} (h : ∀ v ∈ vs, TakesBack item.read v) :
    TakesBack (Schema.list item).read (.list vs) := by
  intro l rest cs _ hcs
  obtain ⟨e, he⟩ := print_list l vs
  have hfuel := length_lt_enclosed l.deeper e ']' true (vs.map (·.print l.deeper)) rest
  rw [List.length_map] at hfuel
  rw [he, List.cons_append] at hcs
  rw [Schema.read, hcs]
  simp only [bind, Except.bind, readItems_enclosed h l.deeper e true hfuel rest]
  rfl

theorem takesBack_table {item : Schema} {fs : List (List Char × Value)}
    (h : ∀ f ∈ fs, TakesBack item.read f.2) (hsorted : fs.Pairwise fun a b => a.1 < b.1) :
    TakesBack (Schema.table item).read (.record fs) := by
  intro l rest cs _ hcs
  obtain ⟨e, he⟩ := print_record l fs
  have hfuel := length_lt_enclosed l.deeper e closeBrace true (fs.map (fieldText l.deeper)) rest
  rw [List.length_map] at hfuel
  rw [he, List.cons_append] at hcs
  rw [Schema.read, hcs]
  simp only [if_true, bind, Except.bind,
    readEntries_enclosed [] h hsorted l.deeper e true hfuel rest]
  rfl

theorem takesBack_record {fields : Fields} {fs : List (List Char × Value)}
    (h : List.Forall₂ Slot.Awaits fields.slots fs) (hnames : (fs.map (·.1)).Nodup)
    {finish : List Value → Option (List Value)}
    (hfinish : finish (fs.map (·.2)) = some (fs.map (·.2))) (closed : Bool) :
    TakesBack (Schema.record fields closed finish).read (.record fs) := by
  intro l rest cs _ hcs
  obtain ⟨e, he⟩ := print_record l fs
  have hfuel := length_lt_enclosed l.deeper e closeBrace true (fs.map (fieldText l.deeper)) rest
  rw [List.length_map] at hfuel
  have hread := readFields_enclosed closed finish [] h (by rwa [List.nil_append,
    map_name_of_awaits h]) l.deeper e true hfuel rest
  rw [List.nil_append, List.nil_append, finishRecord_fill h hfinish] at hread
  rw [he, List.cons_append] at hcs
  rw [Schema.read, readRecord, hcs]
  simp only [if_neg (by decide : openBrace ≠ '['), if_true, hread]
  rfl

/-! ### All schemas -/

mutual

/-- What fits a schema is read back. -/
theorem Schema.takesBack : ∀ (s : Schema) {v : Value}, s.Fits v → TakesBack s.read v
  | .flag, .flag b, _ => takesBack_flag b
  | .integer low high, .integer n, h => by
    rw [Schema.Fits] at h
    exact takesBack_integer ⟨h.1, h.2.1⟩ h.2.2.1 h.2.2.2
  | .text accept, .text s, h => by
    rw [Schema.Fits] at h
    exact takesBack_text h
  | .word words, .text s, h => by
    rw [Schema.Fits] at h
    exact takesBack_word h
  | .optional s, v, h => by
    rw [Schema.Fits] at h
    exact takesBack_optional (h.imp_right fun hv => s.takesBack hv)
  | .list item, .list vs, h => by
    rw [Schema.Fits] at h
    exact takesBack_list fun v hv => item.takesBack (h v hv)
  | .table item, .record fs, h => by
    rw [Schema.Fits] at h
    exact takesBack_table (fun f hf => item.takesBack (h.2 f hf)) h.1
  | .record fields closed finish, .record fs, h => by
    rw [Schema.Fits] at h
    exact takesBack_record (fields.awaits h.1) h.2.1 h.2.2 closed

/-- The slots of a record wait for the fields that fit. -/
theorem Fields.awaits : ∀ (fields : Fields) {fs : List (List Char × Value)}, fields.Fit fs →
    List.Forall₂ Slot.Awaits fields.slots fs
  | .nil, [], _ => by
    rw [Fields.slots]
    exact .nil
  | .cons name s rest, f :: fs, h => by
    rw [Fields.Fit] at h
    unfold Fields.slots
    exact .cons ⟨h.1, rfl, s.takesBack h.2.1⟩ (rest.awaits h.2.2)

end

namespace Schema

/-- A whole text, in any layout, gives the value that was written. -/
theorem ofText?_print {s : Schema} {v : Value} (h : s.Fits v) (l : Layout) :
    s.ofText? (v.print l) = .ok v := by
  have hread := s.takesBack h l [] (v.print l) (fun _ _ h => nomatch h)
    (by simpa using skipBlanks_print l v [])
  simp only [ofText?, hread, bind, Except.bind]
  rfl

end Schema

end TokenMesh.Json
