import TokenMesh.Json.Schema
import TokenMesh.Proofs.Json.Lexeme

namespace TokenMesh.Json

/-!
# Lists and records that are read back

The texts of items stand between brackets with commas among them, on one line or on lines of their
own.  From each item the reading goes on to the next one, and behind the last one it finds the
bracket.

* `enclosed`: the texts of items and the bracket behind them, which lists and records share;
* `next_item`, `next_closed`: what comes next in such a text;
* `TakesBack`: a reading that takes a value back from its text;
* `readItems_enclosed`, `readFields_enclosed`, `readEntries_enclosed`: the items of a list and the
  fields of a record or table come back, if each of them is taken back by itself.
-/

open Text

variable {l e : Layout} {c close : Char} {cs rest : List Char}

/-! ### Blanks -/

theorem skipBlanks_cons (h : isBlank c = false) : skipBlanks (c :: cs) = c :: cs := by
  unfold skipBlanks
  rw [List.dropWhile_cons, h]
  rfl

theorem skipBlanks_lineBreak (l : Layout) (cs : List Char) :
    skipBlanks (l.lineBreak ++ cs) = skipBlanks cs := by
  have hblank : ∀ c ∈ l.lineBreak, isBlank c = true := by
    intro c hc
    cases l with
    | none => exact absurd hc List.not_mem_nil
    | some depth =>
      obtain rfl | hc := List.mem_cons.1 hc
      · decide
      · rw [List.eq_of_mem_replicate hc]
        decide
  exact List.dropWhile_append_of_pos hblank

/-- Whether a line break follows or not, what comes next is behind it. -/
theorem skipBlanks_lineBreak_cons (l : Layout) (h : isBlank c = false) :
    skipBlanks (l.lineBreak ++ c :: cs) = c :: cs := by
  rw [skipBlanks_lineBreak, skipBlanks_cons h]

/-! ### Items between brackets -/

/-- The texts of items, each after a comma and a line break.  The comma is left out before the
    first one. -/
def joined (l : Layout) : (first : Bool) → List (List Char) → List Char
  | _, [] => []
  | first, t :: ts => (if first then [] else [',']) ++ (l.lineBreak ++ (t ++ joined l false ts))

/-- The texts of items and the bracket behind them. -/
def enclosed (l e : Layout) (close : Char) (first : Bool) (ts : List (List Char)) : List Char :=
  joined l first ts ++ (e.lineBreak ++ [close])

theorem printItems_eq (l : Layout) (vs : List Value) :
    printItems l vs = joined l false (vs.map (·.print l)) := by
  induction vs with
  | nil => rw [printItems, List.map_nil, joined]
  | cons v vs ih =>
    rw [printItems, List.map_cons, joined, ih]
    simp

/-- The name of a field, the colon and its value. -/
def fieldText (l : Layout) (f : List Char × Value) : List Char :=
  printText f.1 ++ (l.colon ++ f.2.print l)

theorem printFields_eq (l : Layout) (fs : List (List Char × Value)) :
    printFields l fs = joined l false (fs.map (fieldText l)) := by
  induction fs with
  | nil => rw [printFields, List.map_nil, joined]
  | cons f fs ih =>
    rw [printFields, List.map_cons, joined, ih, fieldText]
    simp

@[simp] theorem Layout.colon_deeper (l : Layout) : l.deeper.colon = l.colon := by cases l <;> rfl

/-- An empty list has no line break in it. -/
theorem print_list (l : Layout) (vs : List Value) :
    ∃ e : Layout, (Value.list vs).print l =
      '[' :: enclosed l.deeper e ']' true (vs.map (·.print l.deeper)) := by
  cases vs with
  | nil => exact ⟨none, by rw [Value.print, List.map_nil]; rfl⟩
  | cons v vs =>
    refine ⟨l, ?_⟩
    rw [Value.print, printItems_eq, enclosed, List.map_cons, joined]
    simp

/-- Nor has an empty record. -/
theorem print_record (l : Layout) (fs : List (List Char × Value)) :
    ∃ e : Layout, (Value.record fs).print l =
      openBrace :: enclosed l.deeper e closeBrace true (fs.map (fieldText l.deeper)) := by
  cases fs with
  | nil => exact ⟨none, by rw [Value.print, List.map_nil]; rfl⟩
  | cons f fs =>
    refine ⟨l, ?_⟩
    rw [Value.print, printFields_eq, enclosed, List.map_cons, joined, fieldText]
    simp

/-- The text of items is long enough to be read: there is a comma to every item but the first, and
    for that there is the bracket. -/
theorem length_lt_enclosed (l e : Layout) (close : Char) (first : Bool) (ts : List (List Char))
    (rest : List Char) : ts.length < (enclosed l e close first ts ++ rest).length + 1 := by
  -- behind the first item there are as many commas as items
  have hcommas : ∀ ts, ts.length ≤ (joined l false ts).length := by
    intro ts
    induction ts with
    | nil => exact Nat.zero_le _
    | cons t ts ih =>
      rw [joined, if_neg Bool.false_ne_true]
      simp only [List.length_cons, List.length_append]
      omega
  cases ts with
  | nil => exact Nat.succ_pos _
  | cons t ts =>
    have := hcommas ts
    rw [enclosed, joined]
    simp only [List.length_cons, List.length_append]
    omega

/-- Whatever follows an item, a value may end before it. -/
theorem delimited_enclosed (l e : Layout) (hclose : close = ']' ∨ close = closeBrace)
    (ts : List (List Char)) (rest : List Char) :
    Delimited (enclosed l e close false ts ++ rest) := by
  intro c cs heq
  cases ts with
  | cons t ts =>
    obtain ⟨rfl, -⟩ := List.cons.inj heq
    exact .inl rfl
  | nil =>
    cases e with
    | none =>
      obtain ⟨rfl, -⟩ := List.cons.inj heq
      exact .inr (hclose.imp_right .inl)
    | some depth =>
      obtain ⟨rfl, -⟩ := List.cons.inj heq
      exact .inr (.inr (.inr rfl))

theorem enclosed_cons (l e : Layout) (close : Char) (first : Bool) (t : List Char)
    (ts : List (List Char)) : enclosed l e close first (t :: ts) =
      (if first then [] else [',']) ++ (l.lineBreak ++ (t ++ enclosed l e close false ts)) := by
  rw [enclosed, joined, enclosed]
  simp

/-! ### From item to item -/

/-- Behind all items is the bracket. -/
theorem next_closed (l e : Layout) (first : Bool) (hclose : isBlank close = false) :
    next close first (enclosed l e close first [] ++ rest) = .ok (.closed rest) := by
  unfold next
  rw [enclosed, joined, List.nil_append, List.append_assoc, List.singleton_append,
    skipBlanks_lineBreak_cons e hclose]
  exact if_pos rfl

/-- Whether an item may begin with a character. -/
def opensItem (c : Char) : Bool := !isBlank c && c != ']' && c != closeBrace

theorem isBlank_of_opensItem (h : opensItem c) : isBlank c = false := by
  simp only [opensItem, Bool.and_eq_true, Bool.not_eq_true'] at h
  exact h.1.1

/-- Where an item begins, that comes next. -/
theorem next_item (l : Layout) (first : Bool) (hclose : close = ']' ∨ close = closeBrace)
    (h : opensItem c) :
    next close first ((if first then [] else [',']) ++ (l.lineBreak ++ c :: cs)) =
      .ok (.item (c :: cs)) := by
  have hblank := isBlank_of_opensItem h
  have hne : c ≠ close := by
    rintro rfl
    obtain rfl | rfl := hclose <;> exact absurd h (by decide)
  unfold next
  cases first with
  | true =>
    rw [if_pos rfl, List.nil_append, skipBlanks_lineBreak_cons l hblank]
    simp only [if_neg hne, if_true]
  | false =>
    have hcomma : ',' ≠ close := by obtain rfl | rfl := hclose <;> decide
    rw [if_neg Bool.false_ne_true, List.singleton_append, skipBlanks_cons (by decide)]
    simp only [if_neg hcomma, Bool.false_eq_true, if_false, if_true,
      skipBlanks_lineBreak_cons l hblank, if_neg hne]

/-! ### Values -/

/-- A value begins with a character of its own, and only a null with an `n`. -/
theorem exists_print_eq_cons (l : Layout) (v : Value) :
    ∃ c cs, v.print l = c :: cs ∧ opensItem c ∧ (c = 'n' → v = .null) := by
  have hne : ∀ {c : Char}, c ≠ 'n' → c = 'n' → v = .null := fun h heq => absurd heq h
  cases v with
  | null => exact ⟨'n', _, by rw [Value.print], by decide, fun _ => rfl⟩
  | flag b => cases b <;> exact ⟨_, _, by rw [Value.print], by decide, hne (by decide)⟩
  | integer n =>
    have hdigit : ∀ d < 10, opensItem (Nat.digitChar d) ∧ Nat.digitChar d ≠ 'n' := by decide
    obtain ⟨c, cs, heq, rfl | ⟨d, hd, rfl⟩⟩ := exists_printInteger_eq_cons n
    · exact ⟨_, cs, by rw [Value.print, heq], by decide, hne (by decide)⟩
    · exact ⟨_, cs, by rw [Value.print, heq], (hdigit d hd).1, hne (hdigit d hd).2⟩
  | text s => exact ⟨'"', _, by rw [Value.print]; rfl, by decide, hne (by decide)⟩
  | list vs =>
    obtain ⟨e, he⟩ := print_list l vs
    exact ⟨'[', _, he, by decide, hne (by decide)⟩
  | record fs =>
    obtain ⟨e, he⟩ := print_record l fs
    exact ⟨openBrace, _, he, by decide, hne (by decide)⟩

theorem skipBlanks_print (l : Layout) (v : Value) (rest : List Char) :
    skipBlanks (v.print l ++ rest) = v.print l ++ rest := by
  obtain ⟨c, cs, heq, hc, -⟩ := exists_print_eq_cons l v
  rw [heq, List.cons_append, skipBlanks_cons (isBlank_of_opensItem hc)]

/-- A reading takes a value back from its text, wherever a value may end, and whatever blanks there
    are before it. -/
def TakesBack (read : List Char → Except Fault (Value × List Char)) (v : Value) : Prop :=
  ∀ l rest cs, Delimited rest → skipBlanks cs = v.print l ++ rest → read cs = .ok (v, rest)

variable {read : List Char → Except Fault (Value × List Char)} {v : Value} {name : List Char}

theorem next_value (l : Layout) (first : Bool) (hclose : close = ']' ∨ close = closeBrace)
    (v : Value) (rest : List Char) :
    next close first ((if first then [] else [',']) ++ (l.lineBreak ++ (v.print l ++ rest))) =
      .ok (.item (v.print l ++ rest)) := by
  obtain ⟨c, cs, heq, hc, -⟩ := exists_print_eq_cons l v
  rw [heq]
  exact next_item l first hclose hc

/-- The items of a list are read up to its end. -/
theorem readItems_enclosed {vs : List Value} (h : ∀ v ∈ vs, TakesBack read v) (l e : Layout)
    (first : Bool) {fuel : Nat} (hfuel : vs.length < fuel) (rest : List Char) :
    readItems read fuel first (enclosed l e ']' first (vs.map (·.print l)) ++ rest) =
      .ok (vs, rest) := by
  induction vs generalizing first fuel with
  | nil =>
    obtain ⟨fuel, rfl⟩ := Nat.exists_eq_succ_of_ne_zero (Nat.ne_zero_of_lt hfuel)
    rw [List.map_nil, readItems, next_closed l e first (by decide)]
    rfl
  | cons v vs ih =>
    obtain ⟨fuel, rfl⟩ := Nat.exists_eq_succ_of_ne_zero (Nat.ne_zero_of_lt hfuel)
    have hrest := delimited_enclosed l e (.inl rfl) (vs.map (·.print l)) rest
    have hv := h v List.mem_cons_self l _ _ hrest (skipBlanks_print l v _)
    have hvs := ih (fun w hw => h w (List.mem_cons_of_mem _ hw)) false
      (Nat.lt_of_succ_lt_succ hfuel)
    rw [List.map_cons, enclosed_cons, readItems]
    simp only [List.append_assoc, next_value l first (.inl rfl) v, bind, Except.bind, hv, hvs]
    rfl

/-! ### Fields -/

theorem readName_printText (name rest : List Char) :
    readName (printText name ++ rest) = .ok (name, rest) := by
  rw [printText_append]
  exact readText_flatMap name rest

/-- A value is read behind its colon, past the blank that may follow it. -/
theorem exists_readColon_colon (h : TakesBack read v) (l : Layout) (hrest : Delimited rest) :
    ∃ r, readColon (l.colon ++ (v.print l ++ rest)) = .ok r ∧ read r = .ok (v, rest) := by
  have hblanks := skipBlanks_print l v rest
  cases l with
  | none => exact ⟨_, rfl, h none rest _ hrest hblanks⟩
  | some depth => exact ⟨_, rfl, h (some depth) rest (' ' :: _) hrest hblanks⟩

/-- The field of a record comes next, and its name comes first. -/
theorem next_field (l : Layout) (first : Bool) (f : List Char × Value) (rest : List Char) :
    next closeBrace first ((if first then [] else [',']) ++
        (l.lineBreak ++ (fieldText l f ++ rest))) =
      .ok (.item (printText f.1 ++ (l.colon ++ (f.2.print l ++ rest)))) := by
  rw [fieldText, List.append_assoc, List.append_assoc]
  exact next_item l first (.inr rfl) (by decide)

/-- A slot that waits for a field. -/
structure Slot.Awaits (s : Slot) (f : List Char × Value) : Prop where
  name : s.name = f.1
  empty : s.value = none
  takesBack : TakesBack s.read f.2

/-- The slot with the value of its field in it. -/
def Slot.fill (s : Slot) (f : List Char × Value) : Slot := { s with value := some f.2 }

@[simp] theorem Slot.name_fill (s : Slot) (f : List Char × Value) : (s.fill f).name = s.name := rfl

/-- A field is read into its slot, past all others. -/
theorem readField_append (closed : Bool) {done todo : List Slot} {s : Slot}
    {f : List Char × Value} (hdone : ∀ d ∈ done, d.name ≠ f.1) (hs : s.Awaits f) (l : Layout)
    (hrest : Delimited rest) :
    readField closed f.1 (done ++ s :: todo) (l.colon ++ (f.2.print l ++ rest)) =
      .ok (done ++ s.fill f :: todo, rest) := by
  -- the slots in front have other names, so the reading goes past them
  induction done with
  | nil =>
    obtain ⟨r, hcolon, hread⟩ := exists_readColon_colon hs.takesBack l hrest
    rw [List.nil_append, readField, if_pos hs.name, hs.empty, hcolon]
    simp only [Option.isSome_none, Bool.false_eq_true, if_false, bind, Except.bind, hread]
    rfl
  | cons d done ih =>
    rw [List.cons_append, readField, if_neg (hdone d List.mem_cons_self),
      ih fun x hx => hdone x (List.mem_cons_of_mem _ hx)]
    rfl

/-- The fields of a record are read up to its end, each into the slot that waits for it. -/
theorem readFields_enclosed (closed : Bool) (finish : List Value → Option (List Value))
    (done : List Slot) {todo : List Slot} {fs : List (List Char × Value)}
    (h : List.Forall₂ Slot.Awaits todo fs)
    (hnames : ((done ++ todo).map (·.name)).Nodup) (l e : Layout) (first : Bool) {fuel : Nat}
    (hfuel : fs.length < fuel) (rest : List Char) :
    readFields closed finish fuel first (done ++ todo)
        (enclosed l e closeBrace first (fs.map (fieldText l)) ++ rest) =
      (finishRecord (done ++ List.zipWith Slot.fill todo fs) finish).map (·, rest) := by
  -- the slots in front are done with, and the field that comes next is for the first one behind
  induction h generalizing done first fuel with
  | nil =>
    obtain ⟨fuel, rfl⟩ := Nat.exists_eq_succ_of_ne_zero (Nat.ne_zero_of_lt hfuel)
    rw [List.map_nil, readFields, next_closed l e first (by decide)]
    simp only [List.zipWith_nil_left]
    cases finishRecord (done ++ []) finish <;> rfl
  | @cons s f todo fs hs _ ih =>
    obtain ⟨fuel, rfl⟩ := Nat.exists_eq_succ_of_ne_zero (Nat.ne_zero_of_lt hfuel)
    have hrest := delimited_enclosed l e (.inr rfl) (fs.map (fieldText l)) rest
    have hdone : ∀ d ∈ done, d.name ≠ f.1 := by
      intro d hd heq
      rw [List.map_append, List.nodup_append] at hnames
      exact hnames.2.2 _ (List.mem_map_of_mem hd) _ (List.mem_map_of_mem List.mem_cons_self)
        (heq.trans hs.name.symm)
    have hnames' : ((done ++ [s.fill f] ++ todo).map (·.name)).Nodup := by simpa using hnames
    have hfs := ih _ hnames' false (Nat.lt_of_succ_lt_succ hfuel)
    rw [List.append_assoc, List.singleton_append, List.append_assoc] at hfs
    rw [List.map_cons, enclosed_cons, readFields]
    simp only [List.append_assoc, next_field l first f, readName_printText,
      readField_append closed hdone hs l hrest, bind, Except.bind, hfs]
    rfl

theorem map_name_of_awaits {slots : List Slot} {fs : List (List Char × Value)}
    (h : List.Forall₂ Slot.Awaits slots fs) : slots.map (·.name) = fs.map (·.1) := by
  induction h with
  | nil => rfl
  | cons hs _ ih => rw [List.map_cons, List.map_cons, hs.name, ih]

/-- A record whose slots are all filled consists of what they are filled with. -/
theorem finishRecord_fill {slots : List Slot} {fs : List (List Char × Value)}
    (h : List.Forall₂ Slot.Awaits slots fs) {finish : List Value → Option (List Value)}
    (hfinish : finish (fs.map (·.2)) = some (fs.map (·.2))) :
    finishRecord (List.zipWith Slot.fill slots fs) finish = .ok (.record fs) := by
  have hvalues : finalValues? (List.zipWith Slot.fill slots fs) = some (fs.map (·.2)) := by
    clear hfinish
    induction h with
    | nil => rfl
    | cons _ _ ih =>
      rw [List.zipWith_cons_cons, finalValues?, List.mapM_cons, ← finalValues?, ih]
      rfl
  have hnames : (List.zipWith Slot.fill slots fs).map (·.name) = fs.map (·.1) := by
    rw [← map_name_of_awaits h]
    clear hfinish hvalues
    induction h with
    | nil => rfl
    | cons _ _ ih => rw [List.zipWith_cons_cons, List.map_cons, ih]; rfl
  have hzip : (fs.map (·.1)).zip (fs.map (·.2)) = fs := by
    rw [List.zip_map', List.map_id']
  unfold finishRecord
  rw [hvalues, Option.bind_some, hfinish]
  simp only [zipNames, hnames, hzip]

/-! ### Tables -/

/-- A name behind all others goes to the end. -/
theorem putField_append {fs : List (List Char × Value)} (h : ∀ f ∈ fs, f.1 < name) :
    putField name v fs = fs ++ [(name, v)] := by
  induction fs with
  | nil => rfl
  | cons f fs ih =>
    have hlt := h f List.mem_cons_self
    rw [putField, if_neg (List.lt_asymm hlt), if_pos hlt,
      ih fun d hd => h d (List.mem_cons_of_mem _ hd)]
    rfl

/-- The fields of a table are read up to its end and stay in order. -/
theorem readEntries_enclosed (done : List (List Char × Value)) {todo : List (List Char × Value)}
    (h : ∀ f ∈ todo, TakesBack read f.2) (hsorted : (done ++ todo).Pairwise fun a b => a.1 < b.1)
    (l e : Layout) (first : Bool) {fuel : Nat} (hfuel : todo.length < fuel) (rest : List Char) :
    readEntries read fuel first done
        (enclosed l e closeBrace first (todo.map (fieldText l)) ++ rest) =
      .ok (done ++ todo, rest) := by
  -- what is read so far is in order and before all that follows, so each field is put behind it
  induction todo generalizing done first fuel with
  | nil =>
    obtain ⟨fuel, rfl⟩ := Nat.exists_eq_succ_of_ne_zero (Nat.ne_zero_of_lt hfuel)
    rw [List.map_nil, readEntries, next_closed l e first (by decide), List.append_nil]
    rfl
  | cons f fs ih =>
    obtain ⟨fuel, rfl⟩ := Nat.exists_eq_succ_of_ne_zero (Nat.ne_zero_of_lt hfuel)
    have hrest := delimited_enclosed l e (.inr rfl) (fs.map (fieldText l)) rest
    obtain ⟨r, hcolon, hread⟩ := exists_readColon_colon (h f List.mem_cons_self) l hrest
    have hput : putField f.1 f.2 done = done ++ [f] :=
      putField_append fun d hd => (List.pairwise_append.1 hsorted).2.2 d hd f List.mem_cons_self
    have hsorted' : (done ++ [f] ++ fs).Pairwise fun a b => a.1 < b.1 := by simpa using hsorted
    have hfs := ih _ (fun x hx => h x (List.mem_cons_of_mem _ hx)) hsorted' false
      (Nat.lt_of_succ_lt_succ hfuel)
    rw [List.append_assoc, List.singleton_append] at hfs
    rw [List.map_cons, enclosed_cons, readEntries]
    simp only [List.append_assoc, next_field l first f, readName_printText, hcolon, hread, hput,
      bind, Except.bind, hfs]

end TokenMesh.Json
