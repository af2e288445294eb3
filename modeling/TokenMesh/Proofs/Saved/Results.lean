import TokenMesh.Proofs.Address.RoundTrip
import TokenMesh.Proofs.Saved.Fields
import TokenMesh.Saved.Network

namespace TokenMesh

/-!
# Saved results come back

What is saved of a network is read back as it was, as long as its counters fit into the 64 bits
that are kept of them: tokens, counters, the status of nodes, metrics, whole outcomes, and how
failures were configured.

* `Counters.Fits`, `Metrics.Fits`, `Summary.Fits`, `FailureConfig.Fits`: numbers of the kept size;
* `Tally.entries_foldl_put`: counts that are put under their names in order stay in order;
* `Saved.results_return`: all that is saved comes back, from one line or from a block of lines.
-/

open Json Saved

/-! ### Nodes -/

/-- Every counter fits into 64 bits. -/
def Counters.Fits (c : Counters) : Prop := ∀ n ∈ c.toList, n < 2 ^ 64

/-- Every counter of the node fits into 64 bits. -/
def Status.Fits (s : Status) : Prop := s.counters.Fits

namespace Saved

/-- A role comes back by its title. -/
theorem returns_role (r : Role) : Returns r where
  fits := fits_word (by cases r <;> decide)
  taken := by
    show (word? (.string r.title)).bind Role.ofTitle? = some r
    rw [word?_string, Option.bind_some, Role.ofTitle?_title]

/-- A token comes back, whatever its value and version are. -/
theorem returns_token (t : Token) : Returns t where
  fits := by
    have hvalue := t.value.toInt_lt
    have hvalue' := t.value.le_toInt
    have hversion := t.version.toInt_lt
    have hversion' := t.version.le_toInt
    refine fits_openRecord ?_ (by decide)
    exact .cons ⟨rfl, fits_signed (by decide) hvalue' hvalue⟩
      (.cons ⟨rfl, fits_signed (by decide) hversion' hversion⟩ .nil)
  taken := by
    show some (Token.mk (.ofInt t.value.toInt) (.ofInt t.version.toInt)) = some t
    rw [Int32.ofInt_toInt, Int16.ofInt_toInt]

/-- An address is accepted in the text that it is written in, and that stays as it is. -/
theorem returns_address (a : Address) : Returns a where
  fits := by
    show (Address.read? a.print).map Address.print = some a.print
    rw [Address.read?_print, Option.map_some]
  taken := a.read?_print

/-- Counters come back under their names. -/
theorem returns_counters {c : Counters} (h : c.Fits) : Returns c where
  fits := by
    refine fits_openRecord (forall₂_zip rfl ?_) (by decide)
    intro v hv
    obtain ⟨n, hn, rfl⟩ := List.mem_map.1 hv
    exact fits_natural (by decide) (h n hn)
  taken := by
    have hsnd : (Counters.names.zip (c.toList.map Value.natural)).map (·.2) =
        c.toList.map Value.natural := rfl
    show ((parts? (.fields (Counters.names.zip (c.toList.map Value.natural)))).bind fun vs =>
      (vs.mapM natural?).bind Counters.ofList?) = some c
    rw [parts?_fields, hsnd, Option.bind_some, mapM_natural?, Option.bind_some,
      Counters.ofList?_toList]

/-- The status of a node comes back with its neighbors. -/
theorem returns_status {s : Status} (h : s.Fits) : Returns s where
  fits := by
    refine fits_openRecord ?_ (by decide)
    exact .cons ⟨rfl, (returns_role s.role).fits⟩
      (.cons ⟨rfl, (returns_token s.token).fits⟩
      (.cons ⟨rfl, fits_list fun a _ => returns_address a⟩
      (.cons ⟨rfl, trivial⟩
      (.cons ⟨rfl, (returns_counters h).fits⟩ .nil))))
  taken := by
    have hneighbors := list?_map fun a (_ : a ∈ s.neighbors) => returns_address a
    show (do
      let role ← ofValue? (toValue s.role)
      let token ← ofValue? (toValue s.token)
      let neighbors ← list? (.list (s.neighbors.map toValue))
      let counters ← ofValue? (toValue s.counters)
      return (⟨role, token, neighbors, s.poweredDown, counters⟩ : Status)) = some s
    rw [(returns_role s.role).taken, (returns_token s.token).taken, hneighbors,
      (returns_counters h).taken]
    rfl

end Saved

/-! ### Metrics -/

namespace Tally

/-- A count under a name behind all others goes to the end. -/
theorem update_append {name : String} {f : Nat → Nat} {es : List (String × Nat)}
    (h : ∀ e ∈ es, e.1 < name) : update name f es = es ++ [(name, f 0)] := by
  induction es with
  | nil => rfl
  | cons e es ih =>
    have hlt := h e List.mem_cons_self
    rw [update, if_neg (String.lt_asymm hlt), if_pos hlt,
      ih fun d hd => h d (List.mem_cons_of_mem _ hd)]
    rfl

/-- Counts that are put under their names in order stay in that order. -/
theorem entries_foldl_put (done : Tally) {todo : List (String × Nat)}
    (h : (done.entries ++ todo).Pairwise fun a b => a.1 < b.1) :
    (todo.foldl (fun t e => t.put e.1 e.2) done).entries = done.entries ++ todo := by
  induction todo generalizing done with
  | nil => exact (List.append_nil _).symm
  | cons e es ih =>
    have hput : (done.put e.1 e.2).entries = done.entries ++ [e] :=
      update_append fun d hd => (List.pairwise_append.1 h).2.2 d hd e List.mem_cons_self
    have hsplit : done.entries ++ e :: es = (done.put e.1 e.2).entries ++ es := by
      rw [hput, List.append_assoc, List.singleton_append]
    rw [List.foldl_cons, hsplit]
    exact ih (done.put e.1 e.2) (hsplit ▸ h)

theorem eq_of_entries_eq {s t : Tally} (h : s.entries = t.entries) : s = t := by
  obtain ⟨entries, _⟩ := s
  obtain rfl : entries = t.entries := h
  rfl

/-- Every count fits into 64 bits. -/
def Fits (t : Tally) : Prop := ∀ e ∈ t.entries, e.2 < 2 ^ 64

end Tally

/-- The counts of the metrics fit into 64 bits. -/
structure Metrics.Fits (m : Metrics) : Prop where
  sent : m.sent.Fits
  delivered : m.delivered < 2 ^ 64
  lost : m.lost < 2 ^ 64
  crashes : m.crashes < 2 ^ 64
  vetoed : m.vetoed < 2 ^ 64

namespace Saved

/-- The counts that were written are put under their names again. -/
theorem foldlM_put (done : Tally) (es : List (String × Nat)) :
    (es.map fun e => (e.1.toList, Value.natural e.2)).foldlM (fun t f => do
      return t.put (String.ofList f.1) (← natural? f.2)) done =
      some (es.foldl (fun t e => t.put e.1 e.2) done) := by
  induction es generalizing done with
  | nil => rfl
  | cons e es ih =>
    rw [List.map_cons, List.foldlM_cons, natural?_natural, String.ofList_toList]
    exact ih (done.put e.1 e.2)

/-- Counts come back, for they are written in the order in which they are kept. -/
theorem returns_tally {t : Tally} (h : t.Fits) : Returns t where
  fits := by
    show (Schema.table (natural 64)).Fits (.fields (t.entries.map fun e => (e.1, .natural e.2)))
    rw [Value.fields, List.map_map, Schema.Fits]
    -- names are in order as strings just as their characters are
    refine ⟨List.pairwise_map.2 (t.sorted.imp fun hlt => hlt), ?_⟩
    intro f hf
    obtain ⟨e, he, rfl⟩ := List.mem_map.1 hf
    exact fits_natural (by decide) (h e he)
  taken := by
    have hentries := Tally.entries_foldl_put .empty t.sorted
    have hfold := foldlM_put .empty t.entries
    show ((t.entries.map fun e => (e.1, Value.natural e.2)).map fun f => (f.1.toList, f.2)).foldlM
      (fun t f => do return t.put (String.ofList f.1) (← natural? f.2)) Tally.empty = some t
    rw [List.map_map]
    exact hfold.trans (congrArg some (Tally.eq_of_entries_eq hentries))

theorem returns_metrics {m : Metrics} (h : m.Fits) : Returns m where
  fits := by
    refine fits_openRecord ?_ (by decide)
    exact .cons ⟨rfl, (returns_tally h.sent).fits⟩
      (.cons ⟨rfl, fits_natural (by decide) h.delivered⟩
      (.cons ⟨rfl, fits_natural (by decide) h.lost⟩
      (.cons ⟨rfl, fits_natural (by decide) h.crashes⟩
      (.cons ⟨rfl, fits_natural (by decide) h.vetoed⟩ .nil))))
  taken := by
    show (do
      let sent ← ofValue? (toValue m.sent)
      return (⟨sent, m.delivered, m.lost, m.crashes, m.vetoed⟩ : Metrics)) = some m
    rw [(returns_tally h.sent).taken]
    rfl

end Saved

/-! ### Runs -/

/-- The counts of the outcome and of all its nodes fit into 64 bits. -/
structure Summary.Fits (s : Summary) : Prop where
  nodeCount : s.nodeCount < 2 ^ 64
  consistentNodes : s.consistentNodes < 2 ^ 64
  metrics : s.metrics.Fits
  nodes : ∀ n ∈ s.nodes, n.Fits

/-- The spans fit into 64 bits of seconds, the counts into 32 and 64 bits. -/
structure FailureConfig.Fits (f : FailureConfig) : Prop where
  tick : f.tick < Time.spanLimit
  probability : f.probability < 2 ^ 32
  maxConcurrent : f.maxConcurrent < 2 ^ 64
  recoveryDelay : f.recoveryDelay < Time.spanLimit

namespace Saved

/-- A failure mode comes back by its name. -/
theorem returns_failureMode (m : FailureMode) : Returns m where
  fits := fits_word (by cases m <;> decide)
  taken := by
    show (word? (.string m.name)).bind FailureMode.ofName? = some m
    rw [word?_string, Option.bind_some, FailureMode.ofName?_name]

theorem returns_failureConfig {f : FailureConfig} (h : f.Fits) : Returns f where
  fits := by
    refine fits_openRecord ?_ (by decide)
    exact .cons ⟨rfl, (returns_failureMode f.mode).fits⟩
      (.cons ⟨rfl, fits_span h.tick⟩
      (.cons ⟨rfl, fits_natural (by decide) h.probability⟩
      (.cons ⟨rfl, fits_natural (by decide) h.maxConcurrent⟩
      (.cons ⟨rfl, fits_span h.recoveryDelay⟩ .nil))))
  taken := by
    show (do
      let mode ← ofValue? (toValue f.mode)
      let tick ← span? (spanValue f.tick)
      let delay ← span? (spanValue f.recoveryDelay)
      return (⟨mode, tick, f.probability, f.maxConcurrent, delay⟩ : FailureConfig)) = some f
    rw [(returns_failureMode f.mode).taken, span?_spanValue, span?_spanValue]
    rfl

/-- A convergence time comes back, and so does its absence. -/
theorem fits_timeValue (t : Option UInt64) :
    (Schema.optional (natural 64)).Fits (timeValue t) := by
  rw [Schema.Fits]
  cases t with
  | none => exact .inl rfl
  | some t => exact .inr (fits_natural (by decide) t.toNat_lt)

theorem time?_timeValue (t : Option UInt64) : time? (timeValue t) = some t := by
  cases t with
  | none => rfl
  | some t =>
    show some (some t.toNat.toUInt64) = some (some t)
    rw [Nat.toUInt64_eq, UInt64.ofNat_toNat]

/-- The outcome of a run comes back with all its nodes. -/
theorem returns_summary {s : Summary} (h : s.Fits) : Returns s where
  fits := by
    have hversion := s.highestVersion.toInt_lt
    have hversion' := s.highestVersion.le_toInt
    refine fits_openRecord ?_ (by decide)
    exact .cons ⟨rfl, fits_natural (by decide) s.endTimeMs.toNat_lt⟩
      (.cons ⟨rfl, fits_natural (by decide) h.nodeCount⟩
      (.cons ⟨rfl, fits_signed (by decide) hversion' hversion⟩
      (.cons ⟨rfl, fits_natural (by decide) h.consistentNodes⟩
      (.cons ⟨rfl, trivial⟩
      (.cons ⟨rfl, fits_timeValue s.convergenceTimeMs⟩
      (.cons ⟨rfl, (returns_metrics h.metrics).fits⟩
      (.cons ⟨rfl, fits_list fun n hn => returns_status (h.nodes n hn)⟩ .nil)))))))
  taken := by
    show (do
      let time ← time? (timeValue s.convergenceTimeMs)
      let metrics ← ofValue? (toValue s.metrics)
      let nodes ← list? (.list (s.nodes.map toValue))
      return (⟨s.endTimeMs.toNat.toUInt64, s.nodeCount, .ofInt s.highestVersion.toInt,
        s.consistentNodes, s.converged, time, metrics, nodes⟩ : Summary)) = some s
    rw [time?_timeValue, (returns_metrics h.metrics).taken,
      list?_map fun n hn => returns_status (h.nodes n hn), Nat.toUInt64_eq, UInt64.ofNat_toNat,
      Int16.ofInt_toInt]
    rfl

/-- **Saved results come back.**  A token, the counters and the status of a node, the metrics and
    the whole outcome of a run, and the configuration of failures are read back as they were from
    the line of JSON that they are saved as, and from a block of lines as well.  Nothing is asked of
    them but that their numbers have the size in which they are kept: 64 bits for counters, of nodes
    and of runs, 32 bits for a probability and 64 bits for the seconds of a span of time.  Any
    addresses and scopes, any names in the tally and any convergence time come back. -/
theorem results_return :
    (∀ t : Token, ofText? (text t) = .ok t ∧ ofText? (block t) = .ok t) ∧
    (∀ c : Counters, c.Fits → ofText? (text c) = .ok c ∧ ofText? (block c) = .ok c) ∧
    (∀ s : Status, s.Fits → ofText? (text s) = .ok s ∧ ofText? (block s) = .ok s) ∧
    (∀ m : Metrics, m.Fits → ofText? (text m) = .ok m ∧ ofText? (block m) = .ok m) ∧
    (∀ s : Summary, s.Fits → ofText? (text s) = .ok s ∧ ofText? (block s) = .ok s) ∧
    (∀ f : FailureConfig, f.Fits → ofText? (text f) = .ok f ∧ ofText? (block f) = .ok f) := by
  refine ⟨?_, ?_, ?_, ?_, ?_, ?_⟩
  · exact fun t => (returns_token t).ofText?_eq
  · exact fun c h => (returns_counters h).ofText?_eq
  · exact fun s h => (returns_status h).ofText?_eq
  · exact fun m h => (returns_metrics h).ofText?_eq
  · exact fun s h => (returns_summary h).ofText?_eq
  · exact fun f h => (returns_failureConfig h).ofText?_eq

/-- The status of a node that knows a link-local neighbor by its scope, and another one. -/
def scopedStatus : Status where
  role := .relay
  token := ⟨-5, -32768⟩
  neighbors := [.v6 ⟨#v[0xfe80, 0, 0, 0, 0, 0, 0, 1]⟩ 2 3141, .v4 ⟨10, 0, 0, 1⟩ 3141]
  poweredDown := true
  counters := { announcesSent := 2 ^ 64 - 1 }

/-- An outcome with that node and a name in its tally that has to be escaped. -/
def scopedSummary : Summary where
  endTimeMs := 60000
  nodeCount := 1
  highestVersion := -1
  consistentNodes := 0
  converged := false
  convergenceTimeMs := none
  metrics := { sent := Tally.empty.put "a \"name\"\n" 7 }
  nodes := [scopedStatus]

/-- Crashes once in two and a half seconds. -/
def steadyFailures : FailureConfig where
  mode := .location
  tick := 2500000000
  probability := 1
  maxConcurrent := 2
  recoveryDelay := 0

/-- That outcome comes back with all its parts, and so does a configuration of failures. -/
theorem results_return_scoped :
    (scopedSummary.Fits ∧ ofText? (text scopedSummary) = .ok scopedSummary) ∧
      (scopedSummary.metrics.Fits ∧
        ofText? (text scopedSummary.metrics) = .ok scopedSummary.metrics) ∧
      (scopedStatus.Fits ∧ ofText? (text scopedStatus) = .ok scopedStatus) ∧
      (scopedStatus.counters.Fits ∧
        ofText? (text scopedStatus.counters) = .ok scopedStatus.counters) ∧
      (steadyFailures.Fits ∧ ofText? (text steadyFailures) = .ok steadyFailures) := by
  obtain ⟨-, hcounters, hstatus, hmetrics, hsummary, hfailures⟩ := results_return
  have hc : scopedStatus.counters.Fits := by
    unfold Counters.Fits
    decide
  have hsent : scopedSummary.metrics.sent.Fits := by
    unfold Tally.Fits
    decide
  have hm : scopedSummary.metrics.Fits := ⟨hsent, by decide, by decide, by decide, by decide⟩
  have hs : scopedSummary.Fits := by
    refine ⟨by decide, by decide, hm, ?_⟩
    intro n hn
    rw [List.mem_singleton.1 hn]
    exact hc
  have hf : steadyFailures.Fits := ⟨by decide, by decide, by decide, by decide⟩
  exact ⟨⟨hs, (hsummary _ hs).1⟩, ⟨hm, (hmetrics _ hm).1⟩, ⟨hc, (hstatus _ hc).1⟩,
    ⟨hc, (hcounters _ hc).1⟩, ⟨hf, (hfailures _ hf).1⟩⟩

end Saved

end TokenMesh
