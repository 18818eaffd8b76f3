import PredicateLift.Proofs.Analysis.Cache

/-!
# Which predicates share a result

Results are kept by the captured values in their order, without the slots that hold them. Two predicates of one class
that captured the same values in the same order therefore share a result, even if the values are in other slots. The
main statement is that this is the only case in which one of them is answered with what was kept for the other; tables
that list the same slots in the same order are never confused.
-/

namespace PredicateLift

namespace Analyzer

variable {settings : Settings} {registry : Registry} {p q : Predicate}

/-- A kept result comes before an analysis. -/
theorem analyze_answer {analyzer : Analyzer} (henabled : analyzer.settings.cacheEnabled = true) (p : Predicate) :
    (analyzer.analyze p).1 =
      match analyzer.find? p.cacheKey with
      | some result => .ok result
      | none => p.analysis analyzer.settings analyzer.registry := by
  have hserves := analyzer.analyze_serves p
  generalize (analyzer.analyze p).1 = answer, (analyzer.analyze p).2 = next at hserves
  cases hserves with
  | bypassed hdisabled _ =>
      rw [hdisabled] at henabled
      cases henabled
  | found _ hfind => rw [hfind]
  | failed _ hfind hanalysis | crowded _ hfind hanalysis _ | kept _ hfind hanalysis _ => rw [hfind, hanalysis]

/-- What a fresh analyzer keeps of its first predicate: the result, if there is one and room for it. -/
theorem find?_analyze_fresh (henabled : settings.cacheEnabled = true) (p : Predicate) (key : CacheKey) :
    ((fresh settings registry).analyze p).2.find? key =
      if settings.cacheCapacity ≠ some 0 ∧ key = p.cacheKey then (p.analysis settings registry).toOption else none := by
  have hserves := (fresh settings registry).analyze_serves p
  have hfull : (fresh settings registry).isFull = true ↔ settings.cacheCapacity = some 0 := by
    rw [isFull_iff]
    simp [fresh]
  generalize ((fresh settings registry).analyze p).1 = answer, ((fresh settings registry).analyze p).2 = next at hserves
  cases hserves with
  | bypassed hdisabled _ =>
      rw [show settings.cacheEnabled = false from hdisabled] at henabled
      cases henabled
  | found _ hfind => cases hfind
  | failed _ _ hanalysis =>
      rw [show p.analysis settings registry = _ from hanalysis]
      simp [find?, fresh, Except.toOption]
  | crowded _ _ _ hcrowded =>
      simp [find?, fresh, hfull.mp hcrowded]
  | kept _ _ hanalysis hroom =>
      have hcapacity : settings.cacheCapacity ≠ some 0 := by
        intro hzero
        rw [hfull.mpr hzero] at hroom
        cases hroom
      rw [show p.analysis settings registry = _ from hanalysis]
      by_cases hkey : key = p.cacheKey
      · simp [find?, fresh, hcapacity, hkey, Except.toOption]
      · simp [find?, fresh, hcapacity, hkey, List.lookup_cons, beq_false_of_ne hkey]

/-- The first predicate is answered with its own analysis, and the second with the result of the first if that is kept
and the captured values are the same. -/
theorem answers_pair (henabled : settings.cacheEnabled = true) (hclass : p.definingClass = q.definingClass) :
    (fresh settings registry).answers [.analyze p, .analyze q] = [p.analysis settings registry,
      if settings.cacheCapacity ≠ some 0 ∧ p.captures.values = q.captures.values ∧
          (p.analysis settings registry).toOption ≠ none
        then p.analysis settings registry else q.analysis settings registry] := by
  have h := faithful_fresh settings registry
  have hnext := h.analyze p
  have hfirst : ((fresh settings registry).analyze p).1 = p.analysis settings registry :=
    h.answer (List.forall_mem_nil _)
  have hsecond := analyze_answer (hnext.settings_eq ▸ henabled) q
  have hkey : q.cacheKey = p.cacheKey ↔ p.captures.values = q.captures.values := by
    simp [Predicate.cacheKey, hclass, eq_comm]
  rw [find?_analyze_fresh henabled, hnext.settings_eq, hnext.registry_eq] at hsecond
  rw [answers, answers, answers, hfirst, hsecond]
  simp only [hkey]
  cases p.analysis settings registry with
  | error fault => simp [Except.toOption]
  | ok result =>
      by_cases hkept : settings.cacheCapacity ≠ some 0 ∧ p.captures.values = q.captures.values
      · simp [hkept, Except.toOption]
      · rw [if_neg hkept, if_neg fun hall => hkept ⟨hall.1, hall.2.1⟩]

/-- On a fresh analyzer each of two predicates gets its own analysis, whichever comes first. -/
def Separates (settings : Settings) (registry : Registry) (p q : Predicate) : Prop :=
  (fresh settings registry).answers [.analyze p, .analyze q] =
    [p.analysis settings registry, q.analysis settings registry] ∧
  (fresh settings registry).answers [.analyze q, .analyze p] =
    [q.analysis settings registry, p.analysis settings registry]

theorem Separates.of_values_ne (henabled : settings.cacheEnabled = true) (hclass : p.definingClass = q.definingClass)
    (hvalues : p.captures.values ≠ q.captures.values) : Separates settings registry p q := by
  refine ⟨?_, ?_⟩
  · rw [answers_pair henabled hclass, if_neg fun hall => hvalues hall.2.1]
  · rw [answers_pair henabled hclass.symm, if_neg fun hall => hvalues hall.2.1.symm]

/-- Two predicates of one class get their own analyses exactly if they captured other values, or nothing is kept, or
their analyses are the same or both fail. In particular they do if they captured other values in the same slots, listed
in the same order. -/
theorem separates_iff (henabled : settings.cacheEnabled = true) (hclass : p.definingClass = q.definingClass) :
    (Separates settings registry p q ↔
      p.captures.values ≠ q.captures.values ∨ settings.cacheCapacity = some 0 ∨
      p.analysis settings registry = q.analysis settings registry ∨
      (p.analysis settings registry).toOption = none ∧ (q.analysis settings registry).toOption = none) ∧
    (p.captures.slots = q.captures.slots → (∃ slot, p.captures.value? slot ≠ q.captures.value? slot) →
      Separates settings registry p q) := by
  refine ⟨?_, fun hslots ⟨slot, hslot⟩ => .of_values_ne henabled hclass (Captures.values_ne_of_value?_ne hslots hslot)⟩
  by_cases hvalues : p.captures.values = q.captures.values
  · by_cases hcapacity : settings.cacheCapacity = some 0
    · simp [Separates, answers_pair henabled hclass, answers_pair henabled hclass.symm, hcapacity]
    · simp only [Separates, answers_pair henabled hclass, answers_pair henabled hclass.symm, hvalues, hcapacity]
      grind
  · exact iff_of_true (.of_values_ne henabled hclass hvalues) (.inl hvalues)

/-- A limit in the first slot after the subject and another number in the second, listed in this order. -/
def limitFirst (limit other : Int32) : Captures :=
  ⟨[.inferred 1 (.int limit), .inferred 2 (.int other)]⟩

/-- The same bindings, listed in the opposite order. -/
def limitLast (limit other : Int32) : Captures :=
  ⟨[.inferred 2 (.int other), .inferred 1 (.int limit)]⟩

/-- Two limits in the same slot are never confused. -/
theorem separates_limitFirst :
    (olderThan (limitFirst 30 65)).definingClass = (olderThan (limitFirst 65 30)).definingClass ∧
    (limitFirst 30 65).slots = (limitFirst 65 30).slots ∧
    (∃ slot, (limitFirst 30 65).value? slot ≠ (limitFirst 65 30).value? slot) ∧
    Separates {} .builtin (olderThan (limitFirst 30 65)) (olderThan (limitFirst 65 30)) := by
  have hslot : ∃ slot, (limitFirst 30 65).value? slot ≠ (limitFirst 65 30).value? slot := ⟨1, by decide⟩
  have hclass : (olderThan (limitFirst 30 65)).definingClass = (olderThan (limitFirst 65 30)).definingClass := rfl
  exact ⟨hclass, rfl, hslot, (separates_iff rfl hclass).2 rfl hslot⟩

/-- Two limits that stand in other places of their tables are confused: the keys list the same values. -/
theorem not_separates_limitLast :
    Captures.ofList (limitFirst 30 65).args = .ok (limitFirst 30 65) ∧
    Captures.ofList (limitLast 65 30).args = .ok (limitLast 65 30) ∧
    (olderThan (limitFirst 30 65)).definingClass = (olderThan (limitLast 65 30)).definingClass ∧
    (olderThan (limitFirst 30 65)).body = (olderThan (limitLast 65 30)).body ∧
    (olderThan (limitFirst 30 65)).subject = (olderThan (limitLast 65 30)).subject ∧
    (∃ slot, (limitFirst 30 65).value? slot ≠ (limitLast 65 30).value? slot) ∧
    ¬Separates {} .builtin (olderThan (limitFirst 30 65)) (olderThan (limitLast 65 30)) := by
  refine ⟨rfl, rfl, rfl, rfl, rfl, ⟨1, by decide⟩, ?_⟩
  rintro ⟨h, -⟩
  have htexts := congrArg (List.map fun answer => answer.toOption.map (·.expression.text)) h
  revert htexts
  decide +kernel

end Analyzer

end PredicateLift
