import PredicateLift.Proofs.Query.Grammar

/-!
# Flattening combinations

Each operand brings its own part into a combination, and a combination is flattened by putting these parts one after the
other. A combination of settled operands, in which no node breaks the grammar, is settled again, and it brings into a
larger combination of the same kind just what its operands would have brought.
-/

namespace PredicateLift.Expr

/-! ## Parts of a combination -/

/-- What an operand brings into a combination; none if it decides the combination. -/
def operands? (op : Connective) : Expr → Option (List Expr)
  | literal (.bool value) => if value = op.identity then some [] else none
  | combine inner operands => if inner = op then some operands else some [.combine inner operands]
  | e => some [e]

theorem flatten?_cons (op : Connective) (e : Expr) (es : List Expr) :
    flatten? op (e :: es) = (operands? op e).bind fun front => (flatten? op es).map (front ++ ·) := by
  cases e with
  | literal v =>
      cases v with
      | bool value =>
          rw [flatten?, operands?]
          split <;> simp
      | _ => rfl
  | combine inner operands =>
      rw [flatten?, operands?]
      split <;> simp
  | _ => rfl

theorem flatten?_append (op : Connective) (es fs : List Expr) :
    flatten? op (es ++ fs) = (flatten? op es).bind fun front => (flatten? op fs).map (front ++ ·) := by
  induction es with
  | nil => simp [flatten?]
  | cons e es ih =>
      rw [List.cons_append, flatten?_cons, flatten?_cons, ih]
      cases operands? op e with
      | none => rfl
      | some front => cases flatten? op es <;> cases flatten? op fs <;> simp

theorem flatten?_singleton (op : Connective) (e : Expr) : flatten? op [e] = operands? op e := by
  rw [flatten?_cons, flatten?]
  cases operands? op e <;> simp

theorem canonicalCombine_congr {op : Connective} {es fs : List Expr} (h : flatten? op es = flatten? op fs) :
    canonicalCombine op es = canonicalCombine op fs := by
  unfold canonicalCombine
  rw [h]

/-- An operand brings in itself or, as a combination of the same kind, its own operands. -/
theorem mem_of_operands? {op : Connective} {e x : Expr} {front : List Expr} (h : operands? op e = some front)
    (hx : x ∈ front) : x = e ∨ ∃ operands, e = .combine op operands ∧ x ∈ operands := by
  unfold operands? at h
  split at h
  · split at h
    · cases h
      cases hx
    · cases h
  · split at h
    · rename_i hop
      cases h
      exact .inr ⟨_, by rw [hop], hx⟩
    · cases h
      exact .inl (List.mem_singleton.mp hx)
  · cases h
    exact .inl (List.mem_singleton.mp hx)

theorem mem_of_flatten? {op : Connective} {es flat : List Expr} {x : Expr} (h : flatten? op es = some flat)
    (hx : x ∈ flat) : ∃ e ∈ es, ∃ front, operands? op e = some front ∧ x ∈ front := by
  induction es generalizing flat with
  | nil =>
      cases h
      cases hx
  | cons e es ih =>
      rw [flatten?_cons, Option.bind_eq_some_iff] at h
      obtain ⟨front, hfront, h⟩ := h
      obtain ⟨rest, hrest, rfl⟩ := Option.map_eq_some_iff.mp h
      rcases List.mem_append.mp hx with hx | hx
      · exact ⟨e, List.mem_cons_self, front, hfront, hx⟩
      · obtain ⟨e', he', hmem⟩ := ih hrest hx
        exact ⟨e', List.mem_cons_of_mem e he', hmem⟩

/-! ## Settled operands -/

/-- Neither decides a combination nor dissolves in it. -/
def Open (op : Connective) (e : Expr) : Prop :=
  e.bool? = none ∧ e.isCombinationOf op = false

theorem operands?_of_open {op : Connective} {e : Expr} (h : Open op e) : operands? op e = some [e] := by
  rw [← flatten?_singleton, flatten?_eq_self_iff, List.forall_mem_singleton]
  exact h

/-- All nodes obey the grammar, so that no pass changes the expression. -/
def Settled (e : Expr) : Prop :=
  ∀ n ∈ e.nodes, n.Canonical

theorem settled_iff {e : Expr} : Settled e ↔ e.Canonical ∧ ∀ c ∈ e.children, Settled c :=
  forall_nodes_iff

theorem settled_bool (value : Bool) : Settled (bool value) :=
  settled_iff.mpr ⟨trivial, List.forall_mem_nil _⟩

theorem open_of_operands? {op : Connective} {e : Expr} {front : List Expr} (hs : Settled e)
    (h : operands? op e = some front) : ∀ x ∈ front, Open op x ∧ Settled x := by
  cases e with
  | literal v =>
      cases v with
      | bool value =>
          rw [operands?] at h
          split at h
          · cases h
            exact List.forall_mem_nil _
          · cases h
      | _ =>
          cases h
          exact List.forall_mem_singleton.mpr ⟨⟨rfl, rfl⟩, hs⟩
  | combine inner operands =>
      rw [operands?] at h
      split at h
      · rename_i hop
        subst hop
        cases h
        obtain ⟨hcanonical, hoperands⟩ := settled_iff.mp hs
        exact fun x hx => ⟨hcanonical.2 x hx, hoperands x hx⟩
      · rename_i hop
        cases h
        exact List.forall_mem_singleton.mpr ⟨⟨rfl, by simpa [isCombinationOf] using hop⟩, hs⟩
  | _ =>
      cases h
      exact List.forall_mem_singleton.mpr ⟨⟨rfl, rfl⟩, hs⟩

theorem open_of_flatten? {op : Connective} {es flat : List Expr} (hs : ∀ e ∈ es, Settled e)
    (h : flatten? op es = some flat) : ∀ x ∈ flat, Open op x ∧ Settled x := by
  intro x hx
  obtain ⟨e, he, front, hfront, hx⟩ := mem_of_flatten? h hx
  exact open_of_operands? (hs e he) hfront x hx

/-- A combination of settled operands brings into another what its operands would have brought. -/
theorem operands?_canonicalCombine {op : Connective} {es : List Expr} (hs : ∀ e ∈ es, Settled e) :
    operands? op (canonicalCombine op es) = flatten? op es := by
  unfold canonicalCombine
  split
  · rename_i hflat
    simp [hflat, bool, operands?]
  · rename_i hflat
    simp [hflat, bool, operands?]
  · rename_i e hflat
    rw [hflat]
    exact operands?_of_open (open_of_flatten? hs hflat e List.mem_cons_self).1
  · rename_i hflat
    simp [hflat, operands?]

theorem settled_canonicalCombine {op : Connective} {es : List Expr} (hs : ∀ e ∈ es, Settled e) :
    Settled (canonicalCombine op es) := by
  unfold canonicalCombine
  split
  · exact settled_bool _
  · exact settled_bool _
  · rename_i e hflat
    exact (open_of_flatten? hs hflat e List.mem_cons_self).2
  · rename_i flat hnil hsingle hflat
    have hopen := open_of_flatten? hs hflat
    have hlength : 2 ≤ flat.length := by
      match flat with
      | [] => exact absurd rfl hnil
      | [e] => exact absurd rfl (hsingle e)
      | _ :: _ :: _ => simp
    exact settled_iff.mpr ⟨⟨hlength, fun x hx => (hopen x hx).1⟩, fun x hx => (hopen x hx).2⟩

/-- A combination at the end of another one of its kind is spliced in. -/
theorem canonicalCombine_nest {op : Connective} {e : Expr} {es : List Expr} (hs : ∀ e ∈ es, Settled e) :
    canonicalCombine op [e, canonicalCombine op es] = canonicalCombine op (e :: es) := by
  apply canonicalCombine_congr
  rw [flatten?_cons, flatten?_singleton, operands?_canonicalCombine hs, flatten?_cons]

theorem canonicalCombine_singleton {op : Connective} {e : Expr} (hs : Settled e) : canonicalCombine op [e] = e := by
  cases e with
  | combine inner operands =>
      by_cases hop : inner = op
      · subst hop
        obtain ⟨hlength, -⟩ := (settled_iff.mp hs).1
        rw [canonicalCombine, flatten?_singleton, operands?, if_pos rfl]
        match operands with
        | _ :: _ :: _ => rfl
      · rw [canonicalCombine, flatten?_singleton, operands?, if_neg hop]
  | literal v =>
      cases v with
      | bool value =>
          rw [canonicalCombine, flatten?_singleton, operands?]
          cases value <;> cases op <;> rfl
      | _ => rfl
  | _ => rfl

end PredicateLift.Expr
