import PredicateLift.Analysis.Analyzer
import PredicateLift.Proofs.Symbolic.Frames

/-!
# Kept results are transparent

A result is kept by the defining class and the captured values alone. Where the class settles the instructions, the
subject and the captured slots, equal keys have equal analyses, so a kept result is the result that the analysis would
give. `Serves` says once what an analyzer may do with a predicate; that every entry is the analysis of a predicate with
its key, that entries stay within the capacity and that hits and misses add up, as far as their counters reach, follow
for one request by cases, and for a whole history by induction.
-/

namespace PredicateLift

/-! ## What an analysis depends on -/

namespace Predicate

/-- Predicates that differ at most in the values that they captured, and in what these were declared as. -/
structure SameShape (registry : Registry) (p q : Predicate) : Prop where
  instructions : p.body.instructions registry = q.body.instructions registry
  subject : p.subject = q.subject
  slots : p.captures.slots = q.captures.slots

theorem SameShape.analysis_eq {registry : Registry} {p q : Predicate} (h : SameShape registry p q)
    (hvalues : p.captures.values = q.captures.values) (settings : Settings) :
    p.analysis settings registry = q.analysis settings registry := by
  rw [analysis, analysis, h.instructions, h.subject, Frame.initial_congr h.slots hvalues]

/-- The defining class settles the shape of a predicate. -/
def Coherent (registry : Registry) (predicates : List Predicate) : Prop :=
  ∀ p ∈ predicates, ∀ q ∈ predicates, p.definingClass = q.definingClass → SameShape registry p q

end Predicate

/-! ## Requests -/

/-- What may be asked of an analyzer. -/
inductive Request where
  | analyze (predicate : Predicate)
  | clear

/-- The predicates that are to be analysed, in order. -/
def Request.predicates (requests : List Request) : List Predicate :=
  requests.filterMap fun
    | analyze predicate => some predicate
    | clear => none

namespace Analyzer

/-- An analyzer that keeps no results yet. -/
def fresh (settings : Settings) (registry : Registry) : Analyzer :=
  { settings, registry }

/-- The analyzer after a request. -/
def serve (analyzer : Analyzer) : Request → Analyzer
  | .analyze predicate => (analyzer.analyze predicate).2
  | .clear => analyzer.clear

/-- The analyzer after several requests. -/
def after (analyzer : Analyzer) (requests : List Request) : Analyzer :=
  requests.foldl serve analyzer

/-- What is answered for the predicates among the requests, in order. -/
def answers : Analyzer → List Request → List (Except Fault Analysis)
  | _, [] => []
  | analyzer, .analyze predicate :: requests =>
    (analyzer.analyze predicate).1 :: answers (analyzer.analyze predicate).2 requests
  | analyzer, .clear :: requests => answers analyzer.clear requests

/-! ## One request -/

/-- What may come of a predicate: results are not kept at all; one is found; or none is found, and then the analysis
fails, gives a result for which there is no room, or gives a result that is kept. -/
inductive Serves (analyzer : Analyzer) (p : Predicate) : Except Fault Analysis → Analyzer → Prop
  | bypassed {answer : Except Fault Analysis} (hdisabled : analyzer.settings.cacheEnabled = false)
      (hanalysis : p.analysis analyzer.settings analyzer.registry = answer) : Serves analyzer p answer analyzer
  | found {result : Analysis} (henabled : analyzer.settings.cacheEnabled = true)
      (hfind : analyzer.find? p.cacheKey = some result) :
      Serves analyzer p (.ok result) { analyzer with hits := analyzer.hits + 1 }
  | failed {fault : Fault} (henabled : analyzer.settings.cacheEnabled = true)
      (hfind : analyzer.find? p.cacheKey = none)
      (hanalysis : p.analysis analyzer.settings analyzer.registry = .error fault) :
      Serves analyzer p (.error fault) { analyzer with misses := analyzer.misses + 1 }
  | crowded {result : Analysis} (henabled : analyzer.settings.cacheEnabled = true)
      (hfind : analyzer.find? p.cacheKey = none)
      (hanalysis : p.analysis analyzer.settings analyzer.registry = .ok result) (hfull : analyzer.isFull = true) :
      Serves analyzer p (.ok result) { analyzer with misses := analyzer.misses + 1 }
  | kept {result : Analysis} (henabled : analyzer.settings.cacheEnabled = true)
      (hfind : analyzer.find? p.cacheKey = none)
      (hanalysis : p.analysis analyzer.settings analyzer.registry = .ok result) (hroom : analyzer.isFull = false) :
      Serves analyzer p (.ok result)
        { analyzer with misses := analyzer.misses + 1, entries := (p.cacheKey, result) :: analyzer.entries }

/-- While one predicate is analysed no other is, so the second look-up finds as little as the first. -/
theorem keep_of_find? {analyzer : Analyzer} {key : CacheKey} (h : analyzer.find? key = none) (result : Analysis) :
    analyzer.keep key result =
      (result, if analyzer.isFull then analyzer
        else { analyzer with entries := (key, result) :: analyzer.entries }) := by
  rw [keep, h]
  dsimp only
  split <;> rfl

theorem analyze_serves (analyzer : Analyzer) (p : Predicate) :
    Serves analyzer p (analyzer.analyze p).1 (analyzer.analyze p).2 := by
  unfold analyze
  split
  · rename_i henabled
    split
    · rename_i result hfind
      exact .found henabled hfind
    · rename_i hfind
      dsimp only
      split
      · rename_i result hanalysis
        -- Counting the miss changes neither what is kept nor whether there is room.
        have hsecond : ({ analyzer with misses := analyzer.misses + 1 } : Analyzer).find? p.cacheKey = none := hfind
        rw [keep_of_find? hsecond]
        dsimp only
        split
        · rename_i hfull
          exact .crowded henabled hfind hanalysis hfull
        · rename_i hroom
          exact .kept henabled hfind hanalysis (Bool.eq_false_iff.mpr hroom)
      · rename_i fault hanalysis
        exact .failed henabled hfind hanalysis
  · rename_i hdisabled
    exact .bypassed (Bool.eq_false_iff.mpr hdisabled) rfl

theorem isFull_iff {analyzer : Analyzer} :
    analyzer.isFull = true ↔
      ∃ capacity, analyzer.settings.cacheCapacity = some capacity ∧ capacity ≤ analyzer.entries.length := by
  unfold isFull
  split
  · rename_i capacity hcapacity
    simp [hcapacity]
  · rename_i hcapacity
    simp [hcapacity]

theorem mem_of_find? {analyzer : Analyzer} {key : CacheKey} {result : Analysis}
    (h : analyzer.find? key = some result) : (key, result) ∈ analyzer.entries := by
  obtain ⟨before, after, hentries, -⟩ := List.lookup_eq_some_iff.mp h
  simp [hentries]

theorem not_mem_of_find? {analyzer : Analyzer} {key : CacheKey} (h : analyzer.find? key = none) :
    key ∉ analyzer.entries.map (·.1) := by
  rw [find?, List.lookup_eq_none_iff] at h
  intro hmem
  obtain ⟨entry, hentry, rfl⟩ := List.mem_map.mp hmem
  simpa using h entry hentry

/-- Neither a failure nor a lack of room changes what is kept. -/
theorem entries_of_failed_or_full {analyzer : Analyzer} {p : Predicate}
    (h : (∃ fault, (analyzer.analyze p).1 = .error fault) ∨ analyzer.isFull = true) :
    (analyzer.analyze p).2.entries = analyzer.entries := by
  have hserves := analyzer.analyze_serves p
  generalize (analyzer.analyze p).1 = answer, (analyzer.analyze p).2 = next at h hserves
  cases hserves with
  | bypassed _ _ | found _ _ | failed _ _ _ | crowded _ _ _ _ => rfl
  | kept _ _ _ hroom =>
      rcases h with ⟨fault, hfault⟩ | hfull
      · cases hfault
      · rw [hroom] at hfull
        cases hfull

/-! ## Counters -/

/-- Counters that a number of requests has advanced, each by one of the two. -/
def Counted (hits misses : UInt64) (requests : Nat) : Prop :=
  ∃ found missed, found + missed = requests ∧ hits = .ofNat found ∧ misses = .ofNat missed

namespace Counted

variable {hits misses : UInt64} {n : Nat}

theorem hit (h : Counted hits misses n) : Counted (hits + 1) misses (n + 1) := by
  obtain ⟨found, missed, rfl, rfl, rfl⟩ := h
  exact ⟨found + 1, missed, by omega, (UInt64.ofNat_add found 1).symm, rfl⟩

theorem miss (h : Counted hits misses n) : Counted hits (misses + 1) (n + 1) := by
  obtain ⟨found, missed, rfl, rfl, rfl⟩ := h
  exact ⟨found, missed + 1, by omega, rfl, (UInt64.ofNat_add missed 1).symm⟩

theorem toNat_add (h : Counted hits misses n) : (hits + misses).toNat = n % UInt64.size := by
  obtain ⟨found, missed, rfl, rfl, rfl⟩ := h
  rw [← UInt64.ofNat_add, UInt64.toNat_ofNat']

/-- Before either counter can have wrapped around, the two count the requests. -/
theorem toNat_add_of_lt (h : Counted hits misses n) (hn : n < UInt64.size) : hits.toNat + misses.toNat = n := by
  obtain ⟨found, missed, rfl, rfl, rfl⟩ := h
  rw [UInt64.toNat_ofNat_of_lt' (by omega), UInt64.toNat_ofNat_of_lt' (by omega)]

end Counted

/-! ## Histories -/

/-- An analyzer on which the given predicates were analysed, whatever was forgotten in between. -/
structure Faithful (settings : Settings) (registry : Registry) (past : List Predicate) (analyzer : Analyzer) :
    Prop where
  settings_eq : analyzer.settings = settings
  registry_eq : analyzer.registry = registry
  entry : ∀ entry ∈ analyzer.entries, ∃ p ∈ past, p.cacheKey = entry.1 ∧ p.analysis settings registry = .ok entry.2
  distinct : (analyzer.entries.map (·.1)).Nodup
  within : ∀ capacity, settings.cacheCapacity = some capacity → analyzer.entries.length ≤ capacity
  counted : settings.cacheEnabled = true → Counted analyzer.hits analyzer.misses past.length
  untouched : settings.cacheEnabled = false → analyzer = fresh settings registry

variable {settings : Settings} {registry : Registry} {past : List Predicate} {analyzer : Analyzer}

theorem faithful_fresh (settings : Settings) (registry : Registry) :
    Faithful settings registry [] (fresh settings registry) where
  settings_eq := rfl
  registry_eq := rfl
  entry := List.forall_mem_nil _
  distinct := .nil
  within := fun _ _ => Nat.zero_le _
  counted := fun _ => ⟨0, 0, rfl, rfl, rfl⟩
  untouched := fun _ => rfl

namespace Faithful

theorem entry_append (h : Faithful settings registry past analyzer) (p : Predicate) :
    ∀ entry ∈ analyzer.entries,
      ∃ q ∈ past ++ [p], q.cacheKey = entry.1 ∧ q.analysis settings registry = .ok entry.2 := by
  intro entry hentry
  obtain ⟨q, hq, hkey, hresult⟩ := h.entry entry hentry
  exact ⟨q, List.mem_append_left _ hq, hkey, hresult⟩

theorem analyze (h : Faithful settings registry past analyzer) (p : Predicate) :
    Faithful settings registry (past ++ [p]) (analyzer.analyze p).2 := by
  obtain ⟨rfl, rfl⟩ := And.intro h.settings_eq h.registry_eq
  have hserves := analyzer.analyze_serves p
  generalize (analyzer.analyze p).1 = answer, (analyzer.analyze p).2 = next at hserves
  cases hserves with
  | bypassed hdisabled _ =>
      refine ⟨rfl, rfl, h.entry_append p, h.distinct, h.within, ?_, h.untouched⟩
      intro henabled
      rw [hdisabled] at henabled
      cases henabled
  | found henabled _ =>
      refine ⟨rfl, rfl, h.entry_append p, h.distinct, h.within, ?_, by simp [henabled]⟩
      rw [List.length_append]
      exact fun _ => (h.counted henabled).hit
  | failed henabled _ _ | crowded henabled _ _ _ =>
      refine ⟨rfl, rfl, h.entry_append p, h.distinct, h.within, ?_, by simp [henabled]⟩
      rw [List.length_append]
      exact fun _ => (h.counted henabled).miss
  | kept henabled hfind hanalysis hroom =>
      refine ⟨rfl, rfl, ?_, ?_, ?_, ?_, by simp [henabled]⟩
      · exact List.forall_mem_cons.mpr ⟨⟨p, by simp, rfl, hanalysis⟩, h.entry_append p⟩
      · exact List.nodup_cons.mpr ⟨not_mem_of_find? hfind, h.distinct⟩
      · intro capacity hcapacity
        -- The list is shorter than the capacity, or there would have been no room.
        have hlt : ¬capacity ≤ analyzer.entries.length := by
          intro hle
          rw [isFull_iff.mpr ⟨capacity, hcapacity, hle⟩] at hroom
          cases hroom
        simp only [List.length_cons]
        omega
      · rw [List.length_append]
        exact fun _ => (h.counted henabled).miss

theorem clear (h : Faithful settings registry past analyzer) : Faithful settings registry past analyzer.clear where
  settings_eq := h.settings_eq
  registry_eq := h.registry_eq
  entry := List.forall_mem_nil _
  distinct := .nil
  within := fun _ _ => Nat.zero_le _
  counted := h.counted
  untouched := by
    intro hdisabled
    rw [h.untouched hdisabled]
    rfl

theorem after (h : Faithful settings registry past analyzer) (requests : List Request) :
    Faithful settings registry (past ++ Request.predicates requests) (analyzer.after requests) := by
  induction requests generalizing past analyzer with
  | nil =>
      rw [show past ++ Request.predicates [] = past from List.append_nil past]
      exact h
  | cons request requests ih =>
      cases request with
      | analyze p =>
          have hnext := ih (h.analyze p)
          rwa [List.append_assoc] at hnext
      | clear => exact ih h.clear

/-- An analysis gives its own result if no predicate of its class was of another shape. -/
theorem answer (h : Faithful settings registry past analyzer) {p : Predicate}
    (hshape : ∀ q ∈ past, q.definingClass = p.definingClass → Predicate.SameShape registry q p) :
    (analyzer.analyze p).1 = p.analysis settings registry := by
  obtain ⟨rfl, rfl⟩ := And.intro h.settings_eq h.registry_eq
  have hserves := analyzer.analyze_serves p
  generalize (analyzer.analyze p).1 = answer, (analyzer.analyze p).2 = next at hserves
  cases hserves with
  | found _ hfind =>
      obtain ⟨q, hq, hkey, hresult⟩ := h.entry _ (mem_of_find? hfind)
      obtain ⟨hclass, hvalues⟩ := CacheKey.mk.inj hkey
      rw [← (hshape q hq hclass).analysis_eq hvalues, hresult]
  | bypassed _ hanalysis | failed _ _ hanalysis | crowded _ _ hanalysis _ | kept _ _ hanalysis _ =>
      exact hanalysis.symm

theorem answers (h : Faithful settings registry past analyzer) {requests : List Request}
    (hcoherent : Predicate.Coherent registry (past ++ Request.predicates requests)) :
    analyzer.answers requests = (Request.predicates requests).map (·.analysis settings registry) := by
  induction requests generalizing past analyzer with
  | nil => rfl
  | cons request requests ih =>
      cases request with
      | analyze p =>
          have hp : p ∈ past ++ Request.predicates (.analyze p :: requests) :=
            List.mem_append_right _ List.mem_cons_self
          have hanswer := h.answer fun q hq hclass => hcoherent q (List.mem_append_left _ hq) p hp hclass
          have hrest := ih (h.analyze p) (by rwa [List.append_assoc])
          rw [Analyzer.answers, hanswer, hrest]
          rfl
      | clear => exact ih h.clear hcoherent

end Faithful

/-- Over any history of requests to a fresh analyzer in which the class of a predicate settles its shape, each predicate
gets its own analysis as the answer. At every moment of it, with results kept, an entry is the analysis of an earlier
predicate with that key, no key has two entries, there are no more entries than the capacity, hits and misses add up to
the number of predicates modulo `2 ^ 64`, and to the number itself before a counter can have wrapped around, and neither
a failure nor a lack of room changes the entries. Without results kept nothing changes. -/
theorem answers_transparent (settings : Settings) (registry : Registry) {requests : List Request}
    (hcoherent : Predicate.Coherent registry (Request.predicates requests)) :
    (fresh settings registry).answers requests =
      (Request.predicates requests).map (·.analysis settings registry) ∧
    ∀ past, past <+: requests → ∀ analyzer, analyzer = (fresh settings registry).after past →
      (settings.cacheEnabled = true →
        (∀ entry ∈ analyzer.entries, ∃ p ∈ Request.predicates past,
          p.cacheKey = entry.1 ∧ p.analysis settings registry = .ok entry.2) ∧
        (analyzer.entries.map (·.1)).Nodup ∧
        (∀ capacity, settings.cacheCapacity = some capacity → analyzer.entries.length ≤ capacity) ∧
        (analyzer.hits + analyzer.misses).toNat = (Request.predicates past).length % UInt64.size ∧
        ((Request.predicates past).length < UInt64.size →
          analyzer.hits.toNat + analyzer.misses.toNat = (Request.predicates past).length) ∧
        ∀ p, (∃ fault, (analyzer.analyze p).1 = .error fault) ∨
            (∃ capacity, settings.cacheCapacity = some capacity ∧ capacity ≤ analyzer.entries.length) →
          (analyzer.analyze p).2.entries = analyzer.entries) ∧
      (settings.cacheEnabled = false → analyzer = fresh settings registry) := by
  refine ⟨(faithful_fresh settings registry).answers hcoherent, ?_⟩
  rintro past - analyzer rfl
  have h : Faithful settings registry (Request.predicates past) _ := (faithful_fresh settings registry).after past
  refine ⟨?_, h.untouched⟩
  intro henabled
  have hcounted := h.counted henabled
  refine ⟨h.entry, h.distinct, h.within, hcounted.toNat_add, hcounted.toNat_add_of_lt, ?_⟩
  intro p hp
  refine entries_of_failed_or_full (hp.imp_right fun hfull => isFull_iff.mpr ?_)
  rwa [h.settings_eq]

/-- `it.age > limit`, with a limit that is captured in the first slot after the subject. -/
def olderThan (captures : Captures) : Predicate where
  definingClass := "Older"
  body := .decoded [
    ⟨0, .load 0 .unknown⟩,
    ⟨1, .getField ⟨"Person", "age", "I"⟩⟩,
    ⟨4, .load 1 .int⟩,
    ⟨5, .branch (.ints .le) 10⟩,
    ⟨8, .push (.int 1)⟩,
    ⟨9, .ret (some .int)⟩,
    ⟨10, .push (.int 0)⟩,
    ⟨11, .ret (some .int)⟩]
  subject := ⟨0, ⟨"Person", []⟩⟩
  captures := captures

/-- The limit alone. -/
def limitOf (limit : Int32) : Captures :=
  ⟨[.inferred 1 (.int limit)]⟩

/-- A predicate that returns from an empty stack. -/
def baseless : Predicate where
  definingClass := "Baseless"
  body := .decoded [⟨0, .ret (some .int)⟩]
  subject := ⟨0, ⟨"Person", []⟩⟩
  captures := {}

/-- Requests that find a result, find none, fail, find no room and start again. -/
def limitRequests : List Request := [
  .analyze (olderThan (limitOf 30)),
  .analyze (olderThan (limitOf 40)),
  .analyze (olderThan (limitOf 30)),
  .analyze baseless,
  .clear,
  .analyze (olderThan (limitOf 40))]

theorem coherent_limitRequests (registry : Registry) :
    Predicate.Coherent registry (Request.predicates limitRequests) := by
  have hshape : ∀ p ∈ Request.predicates limitRequests, (∃ limit, p = olderThan (limitOf limit)) ∨ p = baseless := by
    simp only [limitRequests, Request.predicates, List.filterMap_cons, List.filterMap_nil, List.forall_mem_cons]
    exact ⟨.inl ⟨30, rfl⟩, .inl ⟨40, rfl⟩, .inl ⟨30, rfl⟩, .inr trivial, .inl ⟨40, rfl⟩, List.forall_mem_nil _⟩
  intro p hp q hq hclass
  rcases hshape p hp with ⟨limit, rfl⟩ | rfl
  · rcases hshape q hq with ⟨other, rfl⟩ | rfl
    · exact ⟨rfl, rfl, rfl⟩
    · exact absurd (show "Older" = "Baseless" from hclass) (by decide)
  · rcases hshape q hq with ⟨other, rfl⟩ | rfl
    · exact absurd (show "Baseless" = "Older" from hclass) (by decide)
    · exact ⟨rfl, rfl, rfl⟩

/-- With room for one result, each limit is answered with its own comparison, before and after the result of the first
one is forgotten. -/
theorem answers_transparent_limits :
    Predicate.Coherent .builtin (Request.predicates limitRequests) ∧
    ((fresh { cacheCapacity := some 1 } .builtin).answers limitRequests).map
        (fun answer => answer.toOption.map (·.expression.text)) =
      [some "(it.age > 30)", some "(it.age > 40)", some "(it.age > 30)", none, some "(it.age > 40)"] ∧
    ((fresh { cacheCapacity := some 1 } .builtin).after limitRequests).entries.length ≤ 1 ∧
    ((fresh { cacheCapacity := some 1 } .builtin).after limitRequests).hits.toNat +
      ((fresh { cacheCapacity := some 1 } .builtin).after limitRequests).misses.toNat = 5 := by
  have hcoherent := coherent_limitRequests .builtin
  obtain ⟨hanswers, hmoments⟩ := answers_transparent { cacheCapacity := some 1 } .builtin hcoherent
  obtain ⟨-, -, hwithin, -, hcounted, -⟩ := (hmoments limitRequests List.prefix_rfl _ rfl).1 rfl
  refine ⟨hcoherent, ?_, hwithin 1 rfl, hcounted (by decide)⟩
  rw [hanswers]
  decide +kernel

end Analyzer

end PredicateLift
