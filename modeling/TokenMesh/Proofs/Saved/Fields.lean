import TokenMesh.Proofs.Json.Schema
import TokenMesh.Saved

namespace TokenMesh.Saved

/-!
# Values that come back when they are saved

What is saved comes back if what is written fits the schema of its type and stands for the same
value.  Both are settled for the kinds of fields that saved types are made of.

* `Returns`: a value that comes back, in either layout;
* `fits_natural`, `fits_signed`, `fits_word`, `fits_record`: what fits the schemas of fields;
* `list?_map`, `mapM_natural?`: lists and numbers are taken back one by one;
* `fits_span`, `span?_spanValue`: spans of time come back in seconds and nanoseconds.
-/

open Json

/-- A value that comes back: it is written as its schema expects it, and it is what is taken from
    what was written. -/
structure Returns {α : Type} [Saved α] (a : α) : Prop where
  fits : (schema α).Fits (toValue a)
  taken : ofValue? (toValue a) = some a

namespace Returns

variable {α : Type} [Saved α] {a : α}

theorem read?_print (h : Returns a) (l : Layout) : read? ((toValue a).print l) = .ok a := by
  unfold read?
  rw [Schema.ofText?_print h.fits]
  simp only [bind, Except.bind, h.taken]
  rfl

/-- It comes back from one line of text, and from a block of lines. -/
theorem ofText?_eq (h : Returns a) : ofText? (text a) = .ok a ∧ ofText? (block a) = .ok a := by
  unfold ofText? text block Value.line Value.block
  rw [String.toList_ofList, String.toList_ofList]
  exact ⟨h.read?_print none, h.read?_print (some 0)⟩

end Returns

/-! ### Numbers and words -/

theorem fits_natural {bits n : Nat} (hbits : bits ≤ 64) (h : n < 2 ^ bits) :
    (natural bits).Fits (.natural n) := by
  have hle : 2 ^ bits ≤ 2 ^ 64 := Nat.pow_le_pow_right (by decide) hbits
  rw [natural, Value.natural, Schema.Fits, Nat.one_shiftLeft]
  omega

theorem fits_signed {bits : Nat} {n : Int} (hbits : bits ≤ 64) (hlow : -2 ^ (bits - 1) ≤ n)
    (hhigh : n < 2 ^ (bits - 1)) : (signed bits).Fits (.integer n) := by
  have hle : 2 ^ (bits - 1) ≤ 2 ^ 63 := Nat.pow_le_pow_right (by decide) (by omega)
  have hcast : ((2 ^ (bits - 1) : Nat) : Int) = 2 ^ (bits - 1) := Int.natCast_pow 2 (bits - 1)
  rw [signed, Schema.Fits, Nat.one_shiftLeft]
  omega

theorem fits_word {ws : List String} {w : String} (h : w ∈ ws) : (word ws).Fits (.string w) := by
  rw [word, Value.string, Schema.Fits]
  exact List.mem_map_of_mem h

@[simp] theorem natural?_natural (n : Nat) : natural? (.natural n) = some n := rfl

@[simp] theorem word?_string (s : String) : word? (.string s) = some s := by
  rw [Value.string, word?, String.ofList_toList]

/-! ### Records and lists -/

@[simp] theorem parts?_fields (vs : List (String × Value)) :
    parts? (.fields vs) = some (vs.map (·.2)) := by
  rw [Value.fields, parts?, List.map_map]
  rfl

theorem fit_ofList {fs : List (String × Schema)} {vs : List (String × Value)}
    (h : List.Forall₂ (fun f v => f.1 = v.1 ∧ f.2.Fits v.2) fs vs) :
    (Fields.ofList fs).Fit (vs.map fun v => (v.1.toList, v.2)) := by
  induction h with
  | nil =>
    rw [Fields.ofList, List.map_nil, Fields.Fit]
    trivial
  | cons hv _ ih =>
    rw [Fields.ofList, List.map_cons, Fields.Fit, hv.1]
    exact ⟨rfl, hv.2, ih⟩

/-- A record takes fields that fit, each under its name, if no name is there twice. -/
theorem fits_record {fs : List (String × Schema)} {vs : List (String × Value)}
    (h : List.Forall₂ (fun f v => f.1 = v.1 ∧ f.2.Fits v.2) fs vs)
    (hnames : (fs.map (·.1)).Nodup) (closed : Bool) {finish : List Value → Option (List Value)}
    (hfinish : finish (vs.map (·.2)) = some (vs.map (·.2))) :
    (Schema.record (.ofList fs) closed finish).Fits (.fields vs) := by
  have hvs : fs.map (·.1) = vs.map (·.1) := by
    clear hnames hfinish
    induction h with
    | nil => rfl
    | cons hv _ ih => rw [List.map_cons, List.map_cons, hv.1, ih]
  rw [Value.fields, Schema.Fits, List.map_map, List.map_map]
  refine ⟨fit_ofList h, ?_, hfinish⟩
  rw [hvs] at hnames
  have htexts : ((vs.map (·.1)).map String.toList).Nodup :=
    List.pairwise_map.2 (List.Pairwise.imp (fun hne heq => hne (String.toList_inj.1 heq)) hnames)
  rwa [List.map_map] at htexts

theorem fits_openRecord {fs : List (String × Schema)} {vs : List (String × Value)}
    (h : List.Forall₂ (fun f v => f.1 = v.1 ∧ f.2.Fits v.2) fs vs)
    (hnames : (fs.map (·.1)).Nodup) : (openRecord fs).Fits (.fields vs) :=
  fits_record h hnames false rfl

/-- Fields of one kind take as many values of that kind. -/
theorem forall₂_zip {s : Schema} {names : List String} {vs : List Value}
    (hlength : names.length = vs.length) (h : ∀ v ∈ vs, s.Fits v) :
    List.Forall₂ (fun f v => f.1 = v.1 ∧ f.2.Fits v.2) (names.map (·, s)) (names.zip vs) := by
  induction names generalizing vs with
  | nil => exact .nil
  | cons name names ih =>
    cases vs with
    | nil => exact absurd hlength (Nat.succ_ne_zero _)
    | cons v vs =>
      exact .cons ⟨rfl, h v List.mem_cons_self⟩
        (ih (Nat.succ.inj hlength) fun w hw => h w (List.mem_cons_of_mem _ hw))

variable {α : Type} [Saved α]

theorem fits_list {as : List α} (h : ∀ a ∈ as, Returns a) :
    (Schema.list (schema α)).Fits (.list (as.map toValue)) := by
  rw [Schema.Fits]
  intro v hv
  obtain ⟨a, ha, rfl⟩ := List.mem_map.1 hv
  exact (h a ha).fits

/-- The items of a list are taken back one by one. -/
theorem list?_map {as : List α} (h : ∀ a ∈ as, Returns a) :
    list? (.list (as.map toValue)) = some as := by
  unfold list?
  dsimp only
  induction as with
  | nil => rfl
  | cons a as ih =>
    rw [List.map_cons, List.mapM_cons, (h a List.mem_cons_self).taken,
      ih fun b hb => h b (List.mem_cons_of_mem _ hb)]
    rfl

/-- Numbers are taken back one by one. -/
theorem mapM_natural? (ns : List Nat) : (ns.map Value.natural).mapM natural? = some ns := by
  induction ns with
  | nil => rfl
  | cons n ns ih =>
    rw [List.map_cons, List.mapM_cons, ih]
    rfl

/-! ### Spans of time -/

theorem fits_span {t : Nat} (h : t < Time.spanLimit) : span.Fits (spanValue t) := by
  have hsecs : Time.secs t < 2 ^ 64 := by
    rw [Time.spanLimit, Time.ofSecs, Nat.one_shiftLeft] at h
    exact Nat.div_lt_of_lt_mul (by omega)
  have hnanos : Time.nanos t < 1000000000 := Nat.mod_lt _ (by decide)
  refine fits_record ?_ (by decide) true ?_
  · exact .cons ⟨rfl, fits_natural (by decide) hsecs⟩
      (.cons ⟨rfl, fits_natural (by decide) (by omega)⟩ .nil)
  · -- the nanoseconds are less than a second, so nothing is carried over
    have hcarry : ((Time.nanos t : Int) / 1000000000) = 0 := by omega
    have hleft : ((Time.nanos t : Int) % 1000000000) = Time.nanos t := by omega
    have hsize : ((Time.secs t : Int)) < UInt64.size := by
      have : UInt64.size = 2 ^ 64 := rfl
      omega
    simp only [List.map_cons, List.map_nil, Value.natural, carrySeconds, hcarry, hleft,
      Int.add_zero, if_pos hsize]

theorem span?_spanValue (t : Nat) : span? (spanValue t) = some t := by
  rw [spanValue, span?, parts?_fields]
  exact congrArg some (Time.ofSecs_secs_add_nanos t)

end TokenMesh.Saved
