import PredicateLift.Proofs.Query.Evaluation
import PredicateLift.Proofs.Query.Rules
import PredicateLift.Proofs.Value.Order

/-!
# Canonical forms keep the meaning

`Keeps` says of two expressions that the second has the sort of the first and evaluates to the value of the first
wherever that has one. Each rule for one node keeps the node, each kind of node keeps what its parts keep, and so a
pass keeps a well-sorted expression. The main statement is the same of the canonical form.
-/

namespace PredicateLift

/-! ## Connectives of outcomes -/

namespace Connective

theorem connect_cons {op : Connective} {x : Option Bool} {xs ys : List (Option Bool)}
    (h : op.connect xs = op.connect ys) : op.connect (x :: xs) = op.connect (x :: ys) := by
  rw [connect, connect, h]

theorem connect_singleton (op : Connective) (x : Option Bool) : op.connect [x] = x := by
  cases x with
  | none => rfl
  | some b => cases op <;> cases b <;> rfl

/-- Operands in a row can be put together first. -/
theorem connect_append (op : Connective) (xs ys : List (Option Bool)) :
    op.connect (xs ++ ys) = op.connect (op.connect xs :: ys) := by
  induction xs with
  | nil => cases op <;> rfl
  | cons x xs ih =>
      cases x with
      | none => rfl
      | some b =>
          by_cases hb : b = op.identity
          · simpa [connect, hb] using ih
          · simp [connect, hb]

/-- An operand that decides a combination, if one before it does not. -/
theorem connect_of_mem {op : Connective} {xs : List (Option Bool)} (h : some (!op.identity) ∈ xs) :
    Refines (op.connect xs) (some !op.identity) := by
  induction xs with
  | nil => cases h
  | cons x xs ih =>
      intro b hb
      obtain ⟨a, rfl, hrest⟩ := Option.bind_eq_some_iff.mp hb
      split at hrest
      · rename_i ha
        rcases List.mem_cons.mp h with h | h
        · simp [ha] at h
        · exact ih h b hrest
      · exact hrest

/-- The negation of a combination is the dual combination of the negations. -/
theorem connect_flip (op : Connective) (xs : List (Option Bool)) :
    op.flip.connect (xs.map (·.map (!·))) = (op.connect xs).map (!·) := by
  induction xs with
  | nil => cases op <;> rfl
  | cons x xs ih =>
      cases x with
      | none => rfl
      | some b => cases op <;> cases b <;> simp_all [connect, flip, identity]

end Connective

/-! ## Choices between outcomes -/

section

variable (t a b c : Option Bool)

theorem choose_eq_connect :
    choose t a b = Connective.or.connect [Connective.and.connect [t, a], Connective.and.connect [t.map (!·), b]] := by
  rcases t with _ | _ | _ <;> rcases a with _ | _ | _ <;> rcases b with _ | _ | _ <;> rfl

theorem choose_and_right : choose t a (Connective.and.connect [c, a]) =
    Connective.and.connect [Connective.or.connect [t, c], a] := by
  rcases t with _ | _ | _ <;> rcases a with _ | _ | _ <;> rcases c with _ | _ | _ <;> rfl

theorem choose_or_right : choose t a (Connective.or.connect [c, a]) =
    Connective.or.connect [Connective.and.connect [t.map (!·), c], a] := by
  rcases t with _ | _ | _ <;> rcases a with _ | _ | _ <;> rcases c with _ | _ | _ <;> rfl

theorem choose_and_left : choose t (Connective.and.connect [c, b]) b =
    Connective.and.connect [Connective.or.connect [t.map (!·), c], b] := by
  rcases t with _ | _ | _ <;> rcases b with _ | _ | _ <;> rcases c with _ | _ | _ <;> rfl

theorem choose_or_left : choose t (Connective.or.connect [c, b]) b =
    Connective.or.connect [Connective.and.connect [t, c], b] := by
  rcases t with _ | _ | _ <;> rcases b with _ | _ | _ <;> rcases c with _ | _ | _ <;> rfl

theorem choose_test : choose t (some true) (some false) = t := by
  rcases t with _ | _ | _ <;> rfl

theorem choose_not_test : choose t (some false) (some true) = t.map (!·) := by
  rcases t with _ | _ | _ <;> rfl

theorem choose_true_left : choose t (some true) b = Connective.or.connect [t, b] := by
  rcases t with _ | _ | _ <;> rcases b with _ | _ | _ <;> rfl

theorem choose_false_left : choose t (some false) b = Connective.and.connect [t.map (!·), b] := by
  rcases t with _ | _ | _ <;> rcases b with _ | _ | _ <;> rfl

theorem choose_true_right : choose t a (some true) = Connective.or.connect [t.map (!·), a] := by
  rcases t with _ | _ | _ <;> rcases a with _ | _ | _ <;> rfl

theorem choose_false_right : choose t a (some false) = Connective.and.connect [t, a] := by
  rcases t with _ | _ | _ <;> rcases a with _ | _ | _ <;> rfl

end

namespace Interpretation

variable {R : Type} {I : Interpretation R}

/-- The second expression is well-sorted, has the sort of the first, and has its value wherever that has one. -/
structure Keeps (I : Interpretation R) (e e' : Expr) : Prop where
  sorted : I.WellSorted e'
  boolean : I.isBoolean e' = I.isBoolean e
  refines : Refines (I.eval e) (I.eval e')

namespace Keeps

theorem refl {e : Expr} (h : I.WellSorted e) : I.Keeps e e :=
  ⟨h, rfl, .refl _⟩

theorem trans {e e' e'' : Expr} (h : I.Keeps e e') (h' : I.Keeps e' e'') : I.Keeps e e'' :=
  ⟨h'.sorted, h'.boolean.trans h.boolean, h.refines.trans h'.refines⟩

/-- Of booleans it is enough to compare the truth values. -/
theorem of_truth {e e' : Expr} (he : I.WellSorted e) (hb : I.isBoolean e = true) (he' : I.WellSorted e')
    (hb' : I.isBoolean e' = true) (h : Refines (I.truth e) (I.truth e')) : I.Keeps e e' := by
  refine ⟨he', hb'.trans hb.symm, ?_⟩
  rw [he.eval_eq hb, he'.eval_eq hb']
  exact h.map _

theorem truth {e e' : Expr} (h : I.Keeps e e') : Refines (I.truth e) (I.truth e') :=
  h.refines.bind fun _ => .refl _

/-! ## Nodes with parts that are kept -/

theorem compare {op : Comparison} {left left' right right' : Expr} (hl : I.Keeps left left')
    (hr : I.Keeps right right') : I.Keeps (.compare op left right) (.compare op left' right') := by
  refine ⟨.compare hl.sorted hr.sorted, rfl, ?_⟩
  rw [eval, eval]
  exact hl.refines.bind fun _ => hr.refines.bind fun _ => .refl _

theorem not {operand operand' : Expr} (h : I.Keeps operand operand') (hb : I.isBoolean operand = true) :
    I.Keeps (.not operand) (.not operand') := by
  refine ⟨.not h.sorted (h.boolean.trans hb), rfl, ?_⟩
  rw [eval, eval]
  exact (h.truth.map _).map _

theorem conditional {test test' thenBranch thenBranch' elseBranch elseBranch' : Expr} (ht : I.Keeps test test')
    (ha : I.Keeps thenBranch thenBranch') (hb : I.Keeps elseBranch elseBranch')
    (h : I.WellSorted (.conditional test thenBranch elseBranch)) :
    I.Keeps (.conditional test thenBranch elseBranch) (.conditional test' thenBranch' elseBranch') := by
  obtain ⟨⟨_, htest⟩, _, _, hsame⟩ := h.of_conditional
  refine ⟨.conditional ht.sorted ha.sorted hb.sorted (ht.boolean.trans htest) ?_, ha.boolean, ?_⟩
  · rw [ha.boolean, hb.boolean, hsame]
  · rw [eval, eval]
    exact .choose ht.truth ha.refines hb.refines

section

variable {operands operands' : List Expr} (h : List.Forall₂ I.Keeps operands operands')

include h

theorem sorted_of_forall₂ : ∀ e' ∈ operands', I.WellSorted e' := by
  induction h with
  | nil => exact List.forall_mem_nil _
  | cons hk _ ih => exact List.forall_mem_cons.mpr ⟨hk.sorted, ih⟩

theorem boolean_of_forall₂ (hb : ∀ e ∈ operands, I.isBoolean e = true) : ∀ e' ∈ operands', I.isBoolean e' = true := by
  induction h with
  | nil => exact List.forall_mem_nil _
  | cons hk _ ih =>
      obtain ⟨hfirst, hrest⟩ := List.forall_mem_cons.mp hb
      exact List.forall_mem_cons.mpr ⟨hk.boolean.trans hfirst, ih hrest⟩

theorem evals_of_forall₂ : List.Forall₂ Refines (I.evals operands) (I.evals operands') := by
  induction h with
  | nil => exact .nil
  | cons hk _ ih => exact .cons hk.refines ih

theorem combine (op : Connective) (hb : ∀ e ∈ operands, I.isBoolean e = true) :
    I.Keeps (.combine op operands) (.combine op operands') := by
  refine ⟨.combine (sorted_of_forall₂ h) (boolean_of_forall₂ h hb), rfl, ?_⟩
  rw [eval, eval]
  refine Refines.map (Refines.connect ?_) _
  rw [List.forall₂_map_left_iff, List.forall₂_map_right_iff]
  exact (evals_of_forall₂ h).imp fun _ _ hxy => hxy.bind fun _ => .refl _

theorem arith {op : Operator} {kind : NumericKind} : I.Keeps (.arith op kind operands) (.arith op kind operands') := by
  refine ⟨.arith (sorted_of_forall₂ h), rfl, ?_⟩
  rw [eval, eval]
  exact (Refines.mapM (evals_of_forall₂ h)).bind fun _ => .refl _

theorem call {target target' : Expr} {method : Member} (ht : I.Keeps target target') :
    I.Keeps (.call target method operands) (.call target' method operands') := by
  refine ⟨.call ht.sorted (sorted_of_forall₂ h), rfl, ?_⟩
  rw [eval, eval]
  exact ht.refines.bind fun _ => (Refines.mapM (evals_of_forall₂ h)).bind fun _ => .refl _

theorem staticCall {method : Member} : I.Keeps (.staticCall method operands) (.staticCall method operands') := by
  refine ⟨.staticCall (sorted_of_forall₂ h), rfl, ?_⟩
  rw [eval, eval]
  exact (Refines.mapM (evals_of_forall₂ h)).bind fun _ => .refl _

end

end Keeps

/-! ## Comparisons -/

theorem WellSorted.isDecimal {v : Literal} (h : I.WellSorted (.literal v)) : v.isDecimal = false := by
  cases h with
  | literal hv => exact hv

theorem truth_negate (op : Comparison) (left right : Expr) :
    I.truth (.compare op.negate left right) = I.truth (.not (.compare op left right)) := by
  rw [truth_not, truth_compare, truth_compare]
  cases I.eval left with
  | none => rfl
  | some a =>
      cases I.eval right with
      | none => rfl
      | some b => exact congrArg some (op.holds_negate (I.compare a b))

theorem keeps_relation {op : Comparison} {left right : Expr} (hl : I.WellSorted left) (hr : I.WellSorted right) :
    I.Keeps (.compare op left right) (.relation op left right) := by
  unfold Expr.relation
  split
  · rename_i hop
    subst hop
    exact .of_truth (.compare hl hr) rfl (.not (.compare hl hr) rfl) rfl (.of_eq (truth_negate .eq left right))
  · exact .refl (.compare hl hr)

theorem keeps_mirror {op : Comparison} {v : Literal} {right : Expr} (hl : I.WellSorted (.literal v))
    (hr : I.WellSorted right) : I.Keeps (.compare op (.literal v) right) (.compare op.mirror right (.literal v)) := by
  refine .of_truth (.compare hl hr) rfl (.compare hr hl) rfl (.of_eq ?_)
  rw [truth_compare, truth_compare, eval]
  cases I.eval right with
  | none => rfl
  | some b =>
      have hswap := op.holds_mirror (I.compare (.literal v) b)
      rw [← I.compare_swap] at hswap
      simp [hswap]

theorem keeps_canonicalCompare {op : Comparison} {left right : Expr} (hl : I.WellSorted left)
    (hr : I.WellSorted right) : I.Keeps (.compare op left right) (Expr.canonicalCompare op left right) := by
  rcases Expr.canonicalCompare_cases op left right with ⟨a, b, outcome, rfl, rfl, hfold, h⟩ | h | ⟨a, rfl, -, h⟩
  · rw [h]
    refine .of_truth (.compare hl hr) rfl (.literal rfl) rfl (.of_eq ?_)
    have houtcome := I.compare_literals hl.isDecimal hr.isDecimal hfold
    rw [Expr.bool, truth_bool, truth_compare, eval, eval, ← houtcome]
    rfl
  · rw [h]
    exact keeps_relation hl hr
  · rw [h]
    exact (keeps_mirror hl hr).trans (keeps_relation hr hl)

/-! ## Negations -/

theorem keeps_canonicalNot {operand : Expr} (h : I.WellSorted (.not operand)) :
    I.Keeps (.not operand) (Expr.canonicalNot operand) := by
  obtain ⟨ho, hb⟩ := h.of_not
  unfold Expr.canonicalNot
  split
  · refine .of_truth h rfl (.literal rfl) rfl (.of_eq ?_)
    rw [Expr.bool, truth_bool, truth_not, truth_bool]
    rfl
  · obtain ⟨hinner, hbinner⟩ := ho.of_not
    refine .of_truth h rfl hinner hbinner (.of_eq ?_)
    rw [truth_not, truth_not, Option.map_map]
    simp [Function.comp_def]
  · exact .refl h
  · cases ho with
    | compare hl hr =>
        refine .of_truth h rfl (.compare hl hr) rfl (.of_eq ?_)
        exact (truth_negate _ _ _).symm
  · have hs := ho.of_combine
    refine .of_truth h rfl (.combine ?_ ?_) rfl (.of_eq ?_)
    · exact List.forall_mem_map.mpr fun e he => .not (hs e he).1 (hs e he).2
    · exact List.forall_mem_map.mpr fun e he => rfl
    · rw [truth_not, truth_combine, truth_combine, ← Connective.connect_flip, List.map_map, List.map_map]
      simp [Function.comp_def]
  · exact .refl h

/-! ## Combinations -/

/-- What is flattened has the same outcome, as far as that is there. -/
theorem connect_flatten? {op : Connective} {operands flat : List Expr} (h : Expr.flatten? op operands = some flat) :
    op.connect (flat.map I.truth) = op.connect (operands.map I.truth) := by
  induction operands generalizing flat with
  | nil =>
      cases h
      rfl
  | cons operand rest ih =>
      unfold Expr.flatten? at h
      split at h
      · split at h
        · rename_i value hvalue
          rw [ih h, List.map_cons, truth_bool, hvalue]
          simp [Connective.connect]
        · cases h
      · split at h
        · rename_i hop
          subst hop
          obtain ⟨flat', hflat, rfl⟩ := Option.map_eq_some_iff.mp h
          rw [List.map_append, List.map_cons, truth_combine, Connective.connect_append]
          exact Connective.connect_cons (ih hflat)
        · obtain ⟨flat', hflat, rfl⟩ := Option.map_eq_some_iff.mp h
          exact Connective.connect_cons (ih hflat)
      · obtain ⟨flat', hflat, rfl⟩ := Option.map_eq_some_iff.mp h
        exact Connective.connect_cons (ih hflat)

/-- Flattening fails only at an operand that decides the combination. -/
theorem mem_of_flatten?_eq_none {op : Connective} {operands : List Expr} (h : Expr.flatten? op operands = none) :
    some (!op.identity) ∈ operands.map I.truth := by
  induction operands with
  | nil => cases h
  | cons operand rest ih =>
      unfold Expr.flatten? at h
      split at h
      · split at h
        · exact List.mem_cons_of_mem _ (ih h)
        · rename_i value hvalue
          rw [List.map_cons, truth_bool, Bool.eq_not_of_ne hvalue]
          exact List.mem_cons_self
      · split at h
        · exact List.mem_cons_of_mem _ (ih (Option.map_eq_none_iff.mp h))
        · exact List.mem_cons_of_mem _ (ih (Option.map_eq_none_iff.mp h))
      · exact List.mem_cons_of_mem _ (ih (Option.map_eq_none_iff.mp h))

theorem sorted_flatten? {op : Connective} {operands flat : List Expr} (h : Expr.flatten? op operands = some flat)
    (hs : ∀ e ∈ operands, I.WellSorted e ∧ I.isBoolean e = true) :
    ∀ e ∈ flat, I.WellSorted e ∧ I.isBoolean e = true := by
  induction operands generalizing flat with
  | nil =>
      cases h
      exact List.forall_mem_nil _
  | cons operand rest ih =>
      obtain ⟨hfirst, hrest⟩ := List.forall_mem_cons.mp hs
      unfold Expr.flatten? at h
      split at h
      · split at h
        · exact ih h hrest
        · cases h
      · split at h
        · obtain ⟨flat', hflat, rfl⟩ := Option.map_eq_some_iff.mp h
          exact List.forall_mem_append.mpr ⟨hfirst.1.of_combine, ih hflat hrest⟩
        · obtain ⟨flat', hflat, rfl⟩ := Option.map_eq_some_iff.mp h
          exact List.forall_mem_cons.mpr ⟨hfirst, ih hflat hrest⟩
      · obtain ⟨flat', hflat, rfl⟩ := Option.map_eq_some_iff.mp h
        exact List.forall_mem_cons.mpr ⟨hfirst, ih hflat hrest⟩

theorem keeps_canonicalCombine {op : Connective} {operands : List Expr} (h : I.WellSorted (.combine op operands)) :
    I.Keeps (.combine op operands) (Expr.canonicalCombine op operands) := by
  unfold Expr.canonicalCombine
  cases hflat : Expr.flatten? op operands with
  | none =>
      -- An operand before the deciding one may be stuck, and then there is no value to keep.
      refine .of_truth h rfl (.literal rfl) rfl ?_
      rw [truth_combine, Expr.bool, truth_bool]
      exact Connective.connect_of_mem (mem_of_flatten?_eq_none hflat)
  | some flat =>
      have hsorted := sorted_flatten? hflat h.of_combine
      have htruth : I.truth (.combine op operands) = op.connect (flat.map I.truth) := by
        rw [truth_combine, connect_flatten? hflat]
      match flat with
      | [] => exact .of_truth h rfl (.literal rfl) rfl (.of_eq (htruth.trans (truth_bool I _).symm))
      | [operand] =>
          obtain ⟨ho, hb⟩ := hsorted operand List.mem_cons_self
          exact .of_truth h rfl ho hb (.of_eq (htruth.trans (Connective.connect_singleton op _)))
      | first :: second :: rest =>
          refine .of_truth h rfl (.combine ?_ ?_) rfl (.of_eq (htruth.trans (truth_combine I op _).symm))
          · exact fun e he => (hsorted e he).1
          · exact fun e he => (hsorted e he).2

/-! ## Operations -/

theorem keeps_integer {e : Expr} {v : Literal} (hv : v.isInteger = true) (hb : I.isBoolean e = false)
    (h : I.eval e = some (.literal v)) : I.Keeps e (.literal v) := by
  refine ⟨.literal (Literal.isDecimal_of_isInteger hv), ?_, .of_eq h⟩
  rw [hb, isBoolean, Literal.bool?_of_isInteger hv]
  rfl

theorem keeps_canonicalArith {op : Operator} {kind : NumericKind} {operands : List Expr} {e' : Expr}
    (h : ∀ e ∈ operands, I.WellSorted e) (hc : Expr.canonicalArith op kind operands = .ok e') :
    I.Keeps (.arith op kind operands) e' := by
  unfold Expr.canonicalArith at hc
  split at hc
  · rename_i v
    obtain ⟨w, hw, hc⟩ := bind_eq_ok_iff.mp hc
    cases pure_eq_ok_iff.mp hc
    have hv := (h _ List.mem_cons_self).isDecimal
    refine keeps_integer (Literal.isInteger_negate hv hw) rfl ?_
    simp [eval, evals, operate, hw]
  · rename_i a b
    obtain ⟨result, hr, hc⟩ := bind_eq_ok_iff.mp hc
    cases result with
    | none =>
        cases pure_eq_ok_iff.mp hc
        exact .refl (.arith h)
    | some v =>
        cases pure_eq_ok_iff.mp hc
        have ha := (h _ List.mem_cons_self).isDecimal
        have hb := (h _ (List.mem_cons_of_mem _ List.mem_cons_self)).isDecimal
        cases op with
        | neg => cases hr
        | binary op =>
            have harith : Literal.arith? op a b = .ok (some v) := hr
            refine keeps_integer (Literal.isInteger_arith? ha hb harith) rfl ?_
            simp [eval, evals, operate, harith]
  · cases hc
    exact .refl (.arith h)

/-! ## Conditionals -/

/-- Of a combination that ends in `tail`, the front keeps its meaning when it is made canonical. -/
theorem WellSorted.splitTail? {e tail b : Expr} {op : Connective} (h : I.WellSorted e)
    (hs : e.splitTail? tail = some (op, b)) :
    I.WellSorted b ∧ I.isBoolean b = true ∧ Refines (I.truth e) (op.connect [I.truth b, I.truth tail]) := by
  obtain ⟨front, rfl, rfl⟩ := Expr.eq_of_splitTail? hs
  have hs := (List.forall_mem_append.mp h.of_combine).1
  have hfront : I.Keeps (.combine op front) (Expr.canonicalCombine op front) :=
    keeps_canonicalCombine (.combine (fun e he => (hs e he).1) fun e he => (hs e he).2)
  refine ⟨hfront.sorted, hfront.boolean, ?_⟩
  rw [truth_combine, List.map_append, Connective.connect_append, ← truth_combine]
  exact .connect (.cons hfront.truth (.cons (.refl _) .nil))

theorem wellSorted_pair {op : Connective} {a b : Expr} (ha : I.WellSorted a) (hba : I.isBoolean a = true)
    (hb : I.WellSorted b) (hbb : I.isBoolean b = true) : I.WellSorted (.combine op [a, b]) :=
  .combine (by simp [ha, hb]) (by simp [hba, hbb])

theorem keeps_pair {e a b : Expr} {op : Connective} (h : I.WellSorted e) (hbool : I.isBoolean e = true)
    (ha : I.WellSorted a) (hba : I.isBoolean a = true) (hb : I.WellSorted b) (hbb : I.isBoolean b = true)
    (htruth : Refines (I.truth e) (op.connect [I.truth a, I.truth b])) : I.Keeps e (.combine op [a, b]) := by
  refine .of_truth h hbool (wellSorted_pair ha hba hb hbb) rfl ?_
  rw [truth_combine]
  exact htruth

theorem truth_all_pair (a b : Expr) : I.truth (Expr.all [a, b]) = Connective.and.connect [I.truth a, I.truth b] :=
  truth_combine I .and [a, b]

theorem truth_any_pair (a b : Expr) : I.truth (Expr.any [a, b]) = Connective.or.connect [I.truth a, I.truth b] :=
  truth_combine I .or [a, b]

theorem keeps_select {test thenBranch elseBranch : Expr} (h : I.WellSorted (.conditional test thenBranch elseBranch))
    (hbool : I.isBoolean thenBranch = true) :
    I.Keeps (.conditional test thenBranch elseBranch) (Expr.select test thenBranch elseBranch) := by
  obtain ⟨⟨ht, htest⟩, ha, hb, hsame⟩ := h.of_conditional
  have hbool' : I.isBoolean elseBranch = true := hsame ▸ hbool
  have hnot : I.WellSorted (.not test) := .not ht htest
  unfold Expr.select
  split
  -- The tail that both branches share is looked at once, after what decides whether it is reached.
  · rename_i c hs
    obtain ⟨hc, hbc, htail⟩ := hb.splitTail? hs
    refine keeps_pair h hbool (wellSorted_pair ht htest hc hbc) rfl ha hbool ?_
    rw [truth_any_pair, ← choose_and_right, truth_conditional]
    exact .choose (.refl _) (.refl _) htail
  · rename_i c hs
    obtain ⟨hc, hbc, htail⟩ := hb.splitTail? hs
    refine keeps_pair h hbool (wellSorted_pair hnot rfl hc hbc) rfl ha hbool ?_
    rw [truth_all_pair, truth_not, ← choose_or_right, truth_conditional]
    exact .choose (.refl _) (.refl _) htail
  · split
    · rename_i c hs
      obtain ⟨hc, hbc, htail⟩ := ha.splitTail? hs
      refine keeps_pair h hbool (wellSorted_pair hnot rfl hc hbc) rfl hb hbool' ?_
      rw [truth_any_pair, truth_not, ← choose_and_left, truth_conditional]
      exact .choose (.refl _) htail (.refl _)
    · rename_i c hs
      obtain ⟨hc, hbc, htail⟩ := ha.splitTail? hs
      refine keeps_pair h hbool (wellSorted_pair ht htest hc hbc) rfl hb hbool' ?_
      rw [truth_all_pair, ← choose_or_left, truth_conditional]
      exact .choose (.refl _) htail (.refl _)
    · refine keeps_pair h hbool (wellSorted_pair ht htest ha hbool) rfl (wellSorted_pair hnot rfl hb hbool') rfl
        (.of_eq ?_)
      rw [truth_all_pair, truth_all_pair, truth_not, truth_conditional, choose_eq_connect]

theorem isBoolean_of_isPredicate {e : Expr} (h : e.isPredicate = true) : I.isBoolean e = true := by
  cases e with
  | compare _ _ _ | combine _ _ | not _ => rfl
  | literal v =>
      cases v with
      | bool b => rfl
      | _ => cases h
  | _ => cases h

theorem keeps_canonicalConditional {test thenBranch elseBranch : Expr}
    (h : I.WellSorted (.conditional test thenBranch elseBranch)) :
    I.Keeps (.conditional test thenBranch elseBranch) (Expr.canonicalConditional test thenBranch elseBranch) := by
  obtain ⟨⟨ht, htest⟩, ha, hb, hsame⟩ := h.of_conditional
  have hnot : I.WellSorted (.not test) := .not ht htest
  unfold Expr.canonicalConditional
  split
  · rename_i hvalue
    refine ⟨ha, rfl, .of_eq ?_⟩
    rw [Expr.eq_of_bool? hvalue, eval, eval]
    rfl
  · rename_i hvalue
    refine ⟨hb, hsame.symm, .of_eq ?_⟩
    rw [Expr.eq_of_bool? hvalue, eval, eval]
    rfl
  · split
    · rename_i heq
      subst heq
      refine ⟨ha, rfl, ?_⟩
      -- The test is dropped: if it has an outcome at all, either leads to the same branch.
      intro d hd
      rw [eval] at hd
      obtain ⟨b, _, hd⟩ := Option.bind_eq_some_iff.mp hd
      cases b <;> exact hd
    · split
      · rename_i h₁ h₂
        rw [Expr.eq_of_bool? h₁, Expr.eq_of_bool? h₂] at h ⊢
        refine .of_truth h rfl ht htest (.of_eq ?_)
        rw [truth_conditional, truth_bool, truth_bool, choose_test]
      · rename_i h₁ h₂
        rw [Expr.eq_of_bool? h₁, Expr.eq_of_bool? h₂] at h ⊢
        refine .of_truth h rfl hnot rfl (.of_eq ?_)
        rw [truth_conditional, truth_bool, truth_bool, choose_not_test, truth_not]
      · rename_i h₁ _
        rw [Expr.eq_of_bool? h₁] at h hsame ⊢
        refine keeps_pair h rfl ht htest hb hsame.symm (.of_eq ?_)
        rw [truth_conditional, truth_bool, choose_true_left]
      · rename_i h₁ _
        rw [Expr.eq_of_bool? h₁] at h hsame ⊢
        refine keeps_pair h rfl hnot rfl hb hsame.symm (.of_eq ?_)
        rw [truth_conditional, truth_bool, choose_false_left, truth_not]
      · rename_i h₂
        rw [Expr.eq_of_bool? h₂] at h hsame ⊢
        refine keeps_pair h hsame hnot rfl ha hsame (.of_eq ?_)
        rw [truth_conditional, truth_bool, choose_true_right, truth_not]
      · rename_i h₂
        rw [Expr.eq_of_bool? h₂] at h hsame ⊢
        refine keeps_pair h hsame ht htest ha hsame (.of_eq ?_)
        rw [truth_conditional, truth_bool, choose_false_right]
      · split
        · rename_i hpredicates
          exact keeps_select h (isBoolean_of_isPredicate (Bool.and_eq_true_iff.mp hpredicates).1)
        · exact .refl h

/-! ## Passes -/

theorem keeps_settle {e e' : Expr} (h : I.WellSorted e) (hs : e.settle = .ok e') : I.Keeps e e' := by
  unfold Expr.settle at hs
  split at hs
  · cases hs
    cases h with
    | compare hl hr => exact keeps_canonicalCompare hl hr
  · cases hs
    exact keeps_canonicalCombine h
  · cases hs
    exact keeps_canonicalNot h
  · exact keeps_canonicalArith h.children hs
  · cases hs
    exact keeps_canonicalConditional h
  · cases hs
    exact .refl h

/-- What keeps the parts keeps the whole. -/
theorem keeps_onParts {f : Expr → Except Fault Expr} {e m : Expr} (h : I.WellSorted e)
    (hf : ∀ c ∈ e.children, ∀ c', f c = .ok c' → I.Keeps c c') (hm : e.onParts f = .ok m) : I.Keeps e m := by
  cases e with
  | literal _ | path _ =>
      cases hm
      exact .refl h
  | compare op left right =>
      obtain ⟨left', hl, hm⟩ := bind_eq_ok_iff.mp hm
      obtain ⟨right', hr, hm⟩ := bind_eq_ok_iff.mp hm
      cases pure_eq_ok_iff.mp hm
      exact (hf left (by simp [Expr.children]) left' hl).compare (hf right (by simp [Expr.children]) right' hr)
  | combine op operands =>
      obtain ⟨operands', ho, hm⟩ := bind_eq_ok_iff.mp hm
      cases pure_eq_ok_iff.mp hm
      exact Keeps.combine (forall₂_of_mapM ho hf) op fun e he => (h.of_combine e he).2
  | not operand =>
      obtain ⟨operand', ho, hm⟩ := bind_eq_ok_iff.mp hm
      cases pure_eq_ok_iff.mp hm
      exact (hf operand (by simp [Expr.children]) operand' ho).not h.of_not.2
  | arith op kind operands =>
      obtain ⟨operands', ho, hm⟩ := bind_eq_ok_iff.mp hm
      cases pure_eq_ok_iff.mp hm
      exact Keeps.arith (forall₂_of_mapM ho hf)
  | call target method args =>
      obtain ⟨hft, hfa⟩ := List.forall_mem_cons.mp hf
      obtain ⟨target', ht, hm⟩ := bind_eq_ok_iff.mp hm
      obtain ⟨args', ha, hm⟩ := bind_eq_ok_iff.mp hm
      cases pure_eq_ok_iff.mp hm
      exact Keeps.call (forall₂_of_mapM ha hfa) (hft target' ht)
  | staticCall method args =>
      obtain ⟨args', ha, hm⟩ := bind_eq_ok_iff.mp hm
      cases pure_eq_ok_iff.mp hm
      exact Keeps.staticCall (forall₂_of_mapM ha hf)
  | conditional test thenBranch elseBranch =>
      obtain ⟨test', ht, hm⟩ := bind_eq_ok_iff.mp hm
      obtain ⟨thenBranch', ha, hm⟩ := bind_eq_ok_iff.mp hm
      obtain ⟨elseBranch', hb, hm⟩ := bind_eq_ok_iff.mp hm
      cases pure_eq_ok_iff.mp hm
      have ht' := hf test (by simp [Expr.children]) test' ht
      have ha' := hf thenBranch (by simp [Expr.children]) thenBranch' ha
      have hb' := hf elseBranch (by simp [Expr.children]) elseBranch' hb
      exact ht'.conditional ha' hb' h

theorem keeps_pass {e e' : Expr} (h : I.WellSorted e) (hp : Expr.pass e = .ok e') : I.Keeps e e' := by
  induction e using Expr.induction_on_parts generalizing e' with
  | h e ih =>
      obtain ⟨m, hm, hs⟩ := Expr.pass_eq_ok_iff.mp hp
      have hparts := keeps_onParts h (fun c hc c' => ih c hc (h.children c hc)) hm
      exact hparts.trans (keeps_settle hparts.sorted hs)

theorem keeps_passes {n : Nat} {e e' : Expr} (h : I.WellSorted e) (hp : Expr.passes n e = .ok e') : I.Keeps e e' := by
  refine Expr.passes_invariant (P := I.Keeps e) ?_ (.refl h) hp
  intro x x' hx hpass
  exact hx.trans (keeps_pass hx.sorted hpass)

/-- The canonical form of a well-sorted expression without floating-point literals has the value of the expression,
wherever that has one, and whatever the limit on passes. -/
theorem eval_canonicalize (I : Interpretation R) {e e' : Expr} {limit : Nat} {d : Answer R} (h : I.WellSorted e)
    (hc : e.canonicalize limit = .ok e') (hd : I.eval e = some d) : I.eval e' = some d :=
  (keeps_passes h hc).refines d hd

/-! ## An instance -/

/-- The interpretation that looks paths up in a table, knows no methods, and orders the literals. -/
def ofTable (table : List (Path × Literal)) : Interpretation Empty where
  booleanPath p := ((table.lookup p).bind Literal.bool?).isSome
  booleanMethod _ := false
  path p := (table.lookup p).map .literal
  call _ _ _ := none
  staticCall _ _ := none
  compare
    | .literal a, .literal b => a.order b
  path_boolean := by
    intro p d hp hd
    obtain ⟨v, hv, rfl⟩ := Option.map_eq_some_iff.mp hd
    rw [hv] at hp
    cases v with
    | bool b => exact ⟨b, rfl⟩
    | _ => cases hp
  call_boolean := nofun
  staticCall_boolean := nofun
  compare_swap
    | .literal a, .literal b => a.order_swap b
  compare_literals := Literal.holds_order

def minor : Interpretation Empty :=
  ofTable [(⟨[.field "age"]⟩, .int 15), (⟨[.field "name"]⟩, .null)]

/-- Whether a person is older than eighteen, or has no name and is of age twelve at least. -/
def admission : Expr :=
  .conditional (.compare .lt (.literal (.int 18)) (.path ⟨[.field "age"]⟩)) (.literal (.bool true))
    (.combine .and [.not (.compare .ne (.path ⟨[.field "name"]⟩) (.literal .null)), .literal (.bool true),
      .compare .ge (.path ⟨[.field "age"]⟩)
        (.arith (.binary .add) .int [.literal (.int 6), .literal (.int 6)])])

def canonicalAdmission : Expr :=
  .combine .or [.compare .gt (.path ⟨[.field "age"]⟩) (.literal (.int 18)),
    .combine .and [.compare .eq (.path ⟨[.field "name"]⟩) (.literal .null),
      .compare .ge (.path ⟨[.field "age"]⟩) (.literal (.int 12))]]

theorem wellSorted_admission : minor.WellSorted admission := by
  refine .conditional (.compare (.literal rfl) .path) (.literal rfl) (.combine ?_ ?_) rfl rfl
  · refine List.forall_mem_cons.mpr ⟨.not (.compare .path (.literal rfl)) rfl, ?_⟩
    refine List.forall_mem_cons.mpr ⟨.literal rfl, List.forall_mem_singleton.mpr (.compare .path (.arith ?_))⟩
    exact List.forall_mem_cons.mpr ⟨.literal rfl, List.forall_mem_singleton.mpr (.literal rfl)⟩
  · exact List.forall_mem_cons.mpr ⟨rfl, List.forall_mem_cons.mpr ⟨rfl, List.forall_mem_singleton.mpr rfl⟩⟩

theorem eval_canonicalize_admission :
    admission.canonicalize 64 = .ok canonicalAdmission ∧ minor.WellSorted admission ∧
      minor.eval admission = some (.bool true) ∧ minor.eval canonicalAdmission = some (.bool true) := by
  have hc : admission.canonicalize 64 = .ok canonicalAdmission := rfl
  have hd : minor.eval admission = some (.bool true) := rfl
  exact ⟨hc, wellSorted_admission, hd, eval_canonicalize minor wellSorted_admission hc hd⟩

end Interpretation

end PredicateLift
