import PredicateLift.Proofs.Query.Flattening
import PredicateLift.Proofs.Value.Unordered
import Mathlib.Logic.Relation

/-!
# Where negations stand does not matter

`normal` computes the canonical form of a combination of paths and comparisons in one go, with the sign of what stands
above carried down to the leaves. It is blind to where negations stand, every rule of a pass leaves it as it is, and an
expression that no pass changes is its own normal form. So expressions that differ in the placement of negations end in
the same canonical form, although their passes take different ways there.
-/

namespace PredicateLift

/-! ## Signs -/

/-- The comparison, or under a negation the opposite one. -/
def Comparison.signed (positive : Bool) (op : Comparison) : Comparison :=
  if positive then op else op.negate

/-- The connective, or under a negation the dual one. -/
def Connective.signed (positive : Bool) (op : Connective) : Connective :=
  if positive then op else op.flip

theorem Comparison.signed_negate (positive : Bool) (op : Comparison) :
    op.negate.signed positive = op.signed !positive := by
  cases positive with
  | true => rfl
  | false => exact op.negate_negate

theorem Comparison.signed_mirror (positive : Bool) (op : Comparison) :
    op.mirror.signed positive = (op.signed positive).mirror := by
  cases positive with
  | true => rfl
  | false => exact op.negate_mirror

theorem Connective.signed_flip (positive : Bool) (op : Connective) :
    op.flip.signed positive = op.signed !positive := by
  cases positive <;> cases op <;> rfl

namespace Expr

/-! ## Expressions of propositional logic -/

/-- A path, or a literal that is not a floating-point number. -/
inductive Side : Expr → Prop
  | path (p : Path) : Side (.path p)
  | literal {v : Literal} (h : v.isDecimal = false) : Side (.literal v)

/-- Boolean literals, paths and comparisons, combined and negated. -/
inductive Propositional : Expr → Prop
  | bool (value : Bool) : Propositional (bool value)
  | path (p : Path) : Propositional (.path p)
  | compare (op : Comparison) {left right : Expr} (hl : Side left) (hr : Side right) :
      Propositional (.compare op left right)
  | not {operand : Expr} (h : Propositional operand) : Propositional (.not operand)
  | combine (op : Connective) {operands : List Expr} (h : ∀ e ∈ operands, Propositional e) :
      Propositional (.combine op operands)

/-- One negation is moved: two of them cancel, or one is taken into a combination or a comparison. -/
inductive MovesNegation : Expr → Expr → Prop
  | cancel (e : Expr) : MovesNegation (.not (.not e)) e
  | combination (op : Connective) (operands : List Expr) :
      MovesNegation (.not (.combine op operands)) (.combine op.flip (operands.map .not))
  | comparison (op : Comparison) (left right : Expr) :
      MovesNegation (.not (.compare op left right)) (.compare op.negate left right)
  | inNot {e e' : Expr} (h : MovesNegation e e') : MovesNegation (.not e) (.not e')
  | inCombine (op : Connective) (before after : List Expr) {e e' : Expr} (h : MovesNegation e e') :
      MovesNegation (.combine op (before ++ e :: after)) (.combine op (before ++ e' :: after))

/-! ## Normal forms -/

mutual

/-- The normal form of an expression, or of its negation. -/
def normal : Bool → Expr → Expr
  | positive, literal (.bool value) => bool (value == positive)
  | positive, compare op left right => canonicalCompare (op.signed positive) left right
  | positive, combine op operands => canonicalCombine (op.signed positive) (normals positive operands)
  | positive, not operand => normal (!positive) operand
  | positive, e => if positive then e else .not e

def normals : Bool → List Expr → List Expr
  | _, [] => []
  | positive, e :: es => normal positive e :: normals positive es

end

theorem normals_eq_map (positive : Bool) (es : List Expr) : normals positive es = es.map (normal positive) := by
  induction es with
  | nil => rfl
  | cons e es ih => rw [normals, ih, List.map_cons]

theorem normal_bool (positive value : Bool) : normal positive (bool value) = bool (value == positive) := rfl

theorem normal_not (positive : Bool) (e : Expr) : normal positive (.not e) = normal (!positive) e := by
  rw [normal]

theorem normal_compare (positive : Bool) (op : Comparison) (left right : Expr) :
    normal positive (.compare op left right) = canonicalCompare (op.signed positive) left right := by
  rw [normal]

theorem normal_combine (positive : Bool) (op : Connective) (operands : List Expr) :
    normal positive (.combine op operands) =
      canonicalCombine (op.signed positive) (operands.map (normal positive)) := by
  rw [normal, normals_eq_map]

/-- Normal forms do not see where a negation stands. -/
theorem MovesNegation.normal_eq {e e' : Expr} (h : MovesNegation e e') (positive : Bool) :
    normal positive e = normal positive e' := by
  induction h generalizing positive with
  | cancel e => rw [normal_not, normal_not, Bool.not_not]
  | combination op operands =>
      have hmap : (operands.map .not).map (normal positive) = operands.map (normal !positive) := by
        rw [List.map_map]
        rfl
      rw [normal_not, normal_combine, normal_combine, hmap, Connective.signed_flip]
  | comparison op left right => rw [normal_not, normal_compare, normal_compare, Comparison.signed_negate]
  | inNot _ ih => rw [normal_not, normal_not, ih]
  | inCombine op before after _ ih => simp only [normal_combine, List.map_append, List.map_cons, ih]

/-! ## Normal forms are settled -/

theorem Side.settled {e : Expr} (h : Side e) : Settled e := by
  cases h with
  | path _ | literal _ => exact settled_iff.mpr ⟨trivial, List.forall_mem_nil _⟩

theorem canonicalCompare_undecided {op : Comparison} {a b : Literal} (h : Literal.compare? op a b = none) :
    canonicalCompare op (.literal a) (.literal b) = relation op (.literal a) (.literal b) := by
  simp [canonicalCompare, literal?, h, relation]

theorem comparesOpenly_eq_of_ne {x y : Expr} (h : ComparesOpenly .ne x y) : ComparesOpenly .eq x y := by
  cases x with
  | literal a =>
      cases y with
      | literal b =>
          have hne : (Literal.compare? .eq a b).map (!·) = none := (Literal.compare?_negate (.inl rfl)).symm.trans h
          exact Option.map_eq_none_iff.mp hne
      | _ => exact h
  | _ => trivial

theorem settled_relation {op : Comparison} {x y : Expr} (hx : Side x) (hy : Side y) (h : ComparesOpenly op x y) :
    Settled (relation op x y) := by
  have hsides : ∀ op, ∀ c ∈ (compare op x y).children, Settled c := by
    simp [children, hx.settled, hy.settled]
  unfold relation
  split
  · rename_i hop
    subst hop
    refine settled_iff.mpr ⟨rfl, List.forall_mem_singleton.mpr ?_⟩
    exact settled_iff.mpr ⟨⟨nofun, comparesOpenly_eq_of_ne h⟩, hsides .eq⟩
  · rename_i hop
    exact settled_iff.mpr ⟨⟨hop, h⟩, hsides op⟩

theorem settled_canonicalCompare (op : Comparison) {left right : Expr} (hl : Side left) (hr : Side right) :
    Settled (canonicalCompare op left right) := by
  cases hl with
  | path p => exact settled_relation (.path p) hr trivial
  | literal ha =>
      rename_i a
      cases hr with
      | path p => exact settled_relation (.path p) (.literal ha) trivial
      | literal hb =>
          rename_i b
          cases hc : Literal.compare? op a b with
          | some outcome =>
              rw [canonicalCompare_literals hc]
              exact settled_bool outcome
          | none =>
              rw [canonicalCompare_undecided hc]
              exact settled_relation (.literal ha) (.literal hb) hc

theorem Propositional.settled_normal {e : Expr} (h : Propositional e) (positive : Bool) :
    Settled (normal positive e) := by
  induction h generalizing positive with
  | bool value => exact settled_bool _
  | path p =>
      cases positive with
      | true => exact (Side.path p).settled
      | false => exact settled_iff.mpr ⟨trivial, List.forall_mem_singleton.mpr (Side.path p).settled⟩
  | compare op hl hr =>
      rw [normal_compare]
      exact settled_canonicalCompare _ hl hr
  | not _ ih =>
      rw [normal_not]
      exact ih _
  | combine op _ ih =>
      rw [normal_combine]
      exact settled_canonicalCombine (List.forall_mem_map.mpr fun e he => ih e he positive)

/-! ## Rules keep normal forms -/

theorem normal_relation (positive : Bool) (op : Comparison) (x y : Expr) :
    normal positive (relation op x y) = canonicalCompare (op.signed positive) x y := by
  unfold relation
  split
  · rename_i hop
    rw [normal_not, normal_compare, ← Comparison.signed_negate, hop]
    rfl
  · rw [normal_compare]

theorem normal_canonicalCompare (positive : Bool) (op : Comparison) {left right : Expr} (hl : Side left)
    (hr : Side right) :
    normal positive (canonicalCompare op left right) = canonicalCompare (op.signed positive) left right := by
  rcases canonicalCompare_cases op left right with ⟨a, b, outcome, rfl, rfl, hc, h⟩ | h | ⟨a, rfl, hright, h⟩
  · rw [h, normal_bool]
    refine (canonicalCompare_literals ?_).symm
    cases positive with
    | true => simpa [Comparison.signed] using hc
    | false =>
        cases hl with
        | literal ha =>
            cases hr with
            | literal hb =>
                have hnegate := Literal.compare?_negate_of_exact ha hb op
                rw [hc] at hnegate
                simpa [Comparison.signed] using hnegate
  · rw [h, normal_relation]
  · rw [h, normal_relation, Comparison.signed_mirror]
    cases hr with
    | path p => rfl
    | literal _ => cases hright

theorem normal_canonicalNot (positive : Bool) (operand : Expr) :
    normal positive (canonicalNot operand) = normal positive (.not operand) := by
  unfold canonicalNot
  split
  · rename_i value
    rw [normal_not]
    cases value <;> cases positive <;> rfl
  · exact ((MovesNegation.cancel _).normal_eq positive).symm
  · rfl
  · exact ((MovesNegation.comparison _ _ _).normal_eq positive).symm
  · exact ((MovesNegation.combination _ _).normal_eq positive).symm
  · rfl

/-- What an operand brings in has the normal forms of what its normal form brings in. -/
theorem operands?_normal (positive : Bool) (op : Connective) {e : Expr} (h : Propositional e) :
    operands? (op.signed positive) (normal positive e) =
      (operands? op e).bind fun front => flatten? (op.signed positive) (front.map (normal positive)) := by
  cases h with
  | bool value =>
      rw [normal_bool]
      cases value <;> cases op <;> cases positive <;> rfl
  | combine inner hoperands =>
      rename_i operands
      by_cases hop : inner = op
      · subst hop
        rw [normal_combine, operands?_canonicalCombine, operands?, if_pos rfl, Option.bind_some]
        exact List.forall_mem_map.mpr fun e he => (hoperands e he).settled_normal positive
      · have hopen : Open op (.combine inner operands) := ⟨rfl, by simpa [isCombinationOf] using hop⟩
        rw [operands?_of_open hopen, Option.bind_some, List.map_singleton, flatten?_singleton]
  | path _ | compare _ _ _ | not _ => exact (flatten?_singleton _ _).symm

theorem flatten?_normal (positive : Bool) (op : Connective) {es : List Expr} (h : ∀ e ∈ es, Propositional e) :
    flatten? (op.signed positive) (es.map (normal positive)) =
      (flatten? op es).bind fun flat => flatten? (op.signed positive) (flat.map (normal positive)) := by
  induction es with
  | nil => rfl
  | cons e es ih =>
      obtain ⟨he, hes⟩ := List.forall_mem_cons.mp h
      rw [List.map_cons, flatten?_cons, operands?_normal positive op he, ih hes, flatten?_cons]
      cases operands? op e with
      | none => rfl
      | some front =>
          cases flatten? op es with
          | none => simp
          | some rest => simp [flatten?_append]

theorem Propositional.of_operands? {op : Connective} {e x : Expr} {front : List Expr} (h : Propositional e)
    (hfront : operands? op e = some front) (hx : x ∈ front) : Propositional x := by
  rcases mem_of_operands? hfront hx with rfl | ⟨operands, rfl, hx⟩
  · exact h
  · cases h with
    | combine _ hoperands => exact hoperands x hx

theorem Propositional.of_flatten? {op : Connective} {es flat : List Expr} (h : ∀ e ∈ es, Propositional e)
    (hflat : flatten? op es = some flat) : ∀ x ∈ flat, Propositional x := by
  intro x hx
  obtain ⟨e, he, front, hfront, hx⟩ := mem_of_flatten? hflat hx
  exact (h e he).of_operands? hfront hx

theorem normal_canonicalCombine (positive : Bool) (op : Connective) {es : List Expr} (h : ∀ e ∈ es, Propositional e) :
    normal positive (canonicalCombine op es) = normal positive (.combine op es) := by
  have hnormal := flatten?_normal positive op h
  rw [normal_combine]
  cases hflat : flatten? op es with
  | none =>
      rw [hflat, Option.bind_none] at hnormal
      rw [canonicalCombine, canonicalCombine, hflat, hnormal]
      cases op <;> cases positive <;> rfl
  | some flat =>
      rw [hflat, Option.bind_some] at hnormal
      rw [canonicalCombine_congr hnormal, canonicalCombine.eq_def op es, hflat]
      cases flat with
      | nil => cases op <;> cases positive <;> rfl
      | cons e rest =>
          cases rest with
          | nil =>
              have he := Propositional.of_flatten? h hflat e List.mem_cons_self
              exact (canonicalCombine_singleton (he.settled_normal positive)).symm
          | cons _ _ => exact normal_combine ..

/-! ## Passes keep normal forms -/

theorem propositional_relation (op : Comparison) {x y : Expr} (hx : Side x) (hy : Side y) :
    Propositional (relation op x y) := by
  unfold relation
  split
  · exact .not (.compare .eq hx hy)
  · exact .compare op hx hy

theorem propositional_canonicalCompare (op : Comparison) {left right : Expr} (hl : Side left) (hr : Side right) :
    Propositional (canonicalCompare op left right) := by
  rcases canonicalCompare_cases op left right with ⟨_, _, outcome, _, _, _, h⟩ | h | ⟨_, _, _, h⟩
  · rw [h]
    exact .bool outcome
  · rw [h]
    exact propositional_relation op hl hr
  · rw [h]
    exact propositional_relation op.mirror hr hl

theorem Propositional.canonicalNot {operand : Expr} (h : Propositional operand) :
    Propositional (canonicalNot operand) := by
  cases h with
  | bool value => exact .bool _
  | path p => exact .not (.path p)
  | not h => exact h
  | combine op h => exact .combine op.flip (List.forall_mem_map.mpr fun e he => .not (h e he))
  | compare op hl hr =>
      cases op with
      | eq => exact .not (.compare .eq hl hr)
      | _ => exact .compare _ hl hr

theorem propositional_canonicalCombine (op : Connective) {es : List Expr} (h : ∀ e ∈ es, Propositional e) :
    Propositional (canonicalCombine op es) := by
  unfold canonicalCombine
  split
  · exact .bool _
  · exact .bool _
  · rename_i e hflat
    exact Propositional.of_flatten? h hflat e List.mem_cons_self
  · rename_i hflat
    exact .combine op (Propositional.of_flatten? h hflat)

theorem Side.pass_eq {e : Expr} (h : Side e) : pass e = .ok e := by
  cases h with
  | path _ | literal _ => rfl

/-- The computation gives another such expression with the same normal forms. -/
def KeepsNormal (e : Expr) (outcome : Except Fault Expr) : Prop :=
  ∃ e', outcome = .ok e' ∧ Propositional e' ∧ ∀ positive, normal positive e' = normal positive e

theorem keepsNormal_mapM {f : Expr → Except Fault Expr} {es : List Expr} (h : ∀ e ∈ es, KeepsNormal e (f e)) :
    ∃ es', es.mapM f = .ok es' ∧ (∀ e ∈ es', Propositional e) ∧
      ∀ positive, es'.map (normal positive) = es.map (normal positive) := by
  induction es with
  | nil => exact ⟨[], rfl, List.forall_mem_nil _, fun _ => rfl⟩
  | cons e es ih =>
      obtain ⟨he, hes⟩ := List.forall_mem_cons.mp h
      obtain ⟨e', hpass, hprop, hnormal⟩ := he
      obtain ⟨es', hpasses, hprops, hnormals⟩ := ih hes
      refine ⟨e' :: es', ?_, List.forall_mem_cons.mpr ⟨hprop, hprops⟩, fun positive => ?_⟩
      · rw [List.mapM_cons, hpass, ok_bind, hpasses, ok_bind]
        rfl
      · rw [List.map_cons, List.map_cons, hnormal, hnormals]

theorem Propositional.keepsNormal_pass {e : Expr} (h : Propositional e) : KeepsNormal e (pass e) := by
  induction h with
  | bool value => exact ⟨_, rfl, .bool value, fun _ => rfl⟩
  | path p => exact ⟨_, rfl, .path p, fun _ => rfl⟩
  | compare op hl hr =>
      refine ⟨_, ?_, propositional_canonicalCompare op hl hr, fun positive => ?_⟩
      · rw [pass, hl.pass_eq, ok_bind, hr.pass_eq, ok_bind]
        rfl
      · rw [normal_compare, normal_canonicalCompare positive op hl hr]
  | not _ ih =>
      obtain ⟨e', hpass, hprop, hnormal⟩ := ih
      refine ⟨_, ?_, hprop.canonicalNot, fun positive => ?_⟩
      · rw [pass, hpass, ok_bind]
        rfl
      · rw [normal_canonicalNot, normal_not, normal_not, hnormal]
  | combine op _ ih =>
      obtain ⟨es', hpasses, hprops, hnormals⟩ := keepsNormal_mapM ih
      refine ⟨_, ?_, propositional_canonicalCombine op hprops, fun positive => ?_⟩
      · rw [pass, passAll_eq_mapM, hpasses, ok_bind]
        rfl
      · rw [normal_canonicalCombine positive op hprops, normal_combine, normal_combine, hnormals]

theorem Propositional.keepsNormal_passes {e : Expr} (h : Propositional e) (n : Nat) : KeepsNormal e (passes n e) := by
  induction n generalizing e with
  | zero => exact ⟨e, rfl, h, fun _ => rfl⟩
  | succ n ih =>
      obtain ⟨next, hpass, hprop, hnormal⟩ := h.keepsNormal_pass
      obtain ⟨e', hpasses, hprop', hnormal'⟩ := ih hprop
      refine ⟨e', ?_, hprop', fun positive => (hnormal' positive).trans (hnormal positive)⟩
      rw [passes_succ, hpass, ok_bind, hpasses]

/-! ## Canonical forms -/

theorem canonicalCompare_ne_of_open {left right : Expr} (hl : Side left) (hr : Side right)
    (h : ComparesOpenly .eq left right) : canonicalCompare .ne left right = .not (.compare .eq left right) := by
  cases hl with
  | path _ => rfl
  | literal _ =>
      cases hr with
      | path _ => cases h
      | literal _ =>
          refine canonicalCompare_undecided ((Literal.compare?_negate (.inl rfl)).trans ?_)
          exact Option.map_eq_none_iff.mpr h

/-- A settled expression is its own normal form. -/
theorem Propositional.normal_eq_self {e : Expr} (h : Propositional e) (hs : Settled e) : normal true e = e := by
  induction h with
  | bool value =>
      cases value <;> rfl
  | path p => rfl
  | compare op hl hr =>
      rw [normal_compare]
      exact canonicalCompare_eq_self_iff.mpr (settled_iff.mp hs).1
  | combine op _ ih =>
      rename_i operands _
      obtain ⟨hcanonical, hoperands⟩ := settled_iff.mp hs
      have hmap : operands.map (normal true) = operands := by
        rw [List.map_congr_left fun e he => ih e he (hoperands e he), List.map_id']
      rw [normal_combine, hmap]
      exact canonicalCombine_eq_self_iff.mpr hcanonical
  | not h ih =>
      obtain ⟨hcanonical, hoperand⟩ := settled_iff.mp hs
      rw [normal_not]
      -- Only a path or an equation may stand below a negation.
      cases h with
      | bool _ | not _ | combine _ _ => cases hcanonical
      | path p => rfl
      | compare op hl hr =>
          obtain rfl : op = .eq := hcanonical
          obtain ⟨⟨-, hopen⟩, -⟩ := settled_iff.mp (List.forall_mem_singleton.mp hoperand)
          exact canonicalCompare_ne_of_open hl hr hopen

theorem Propositional.eq_normal {e e' : Expr} (h : Propositional e) {limit : Nat} (he : e.canonicalize limit = .ok e')
    (hfixed : pass e' = .ok e') : e' = normal true e := by
  obtain ⟨e'', hpasses, hprop, hnormal⟩ := h.keepsNormal_passes (passLimit limit)
  cases hpasses.symm.trans he
  rw [← hnormal, hprop.normal_eq_self (pass_eq_self_iff_canonical.mp hfixed)]

/-- The passes that the limit allows end in an expression that no pass changes. -/
def Reaches (limit : Nat) (e e' : Expr) : Prop :=
  e.canonicalize limit = .ok e' ∧ pass e' = .ok e'

theorem Propositional.reaches_normal {e : Expr} (h : Propositional e) {limit : Nat} (hlimit : e.weight ≤ limit) :
    Reaches limit e (normal true e) := by
  obtain ⟨outcome, hstable, hfixed⟩ := passes_converge e
  have houtcome : e.canonicalize limit = outcome := hstable _ (Nat.le_trans hlimit (Nat.le_max_left limit 1))
  obtain ⟨e', hpasses, -⟩ := h.keepsNormal_passes (passLimit limit)
  have he : e.canonicalize limit = .ok e' := hpasses
  have hpass : pass e' = .ok e' := hfixed e' (houtcome.symm.trans he)
  obtain rfl := h.eq_normal he hpass
  exact ⟨he, hpass⟩

theorem normal_eq_of_moves {e e' : Expr} (h : Relation.EqvGen MovesNegation e e') (positive : Bool) :
    normal positive e = normal positive e' := by
  induction h with
  | rel _ _ h => exact h.normal_eq positive
  | refl _ => rfl
  | symm _ _ _ ih => exact ih.symm
  | trans _ _ _ _ _ ih ih' => exact ih.trans ih'

/-- Two combinations of paths and comparisons that differ by moving negations, any number of times, at any depth and in
either direction, have the same canonical form wherever the limits let both be reached, and large limits do. -/
theorem canonicalize_eq_of_moves {e₁ e₂ : Expr} (h₁ : Propositional e₁) (h₂ : Propositional e₂)
    (h : Relation.EqvGen MovesNegation e₁ e₂) :
    (∀ limit₁ limit₂ n₁ n₂, Reaches limit₁ e₁ n₁ → Reaches limit₂ e₂ n₂ → n₁ = n₂) ∧
    ∃ bound, ∀ limit, bound ≤ limit → ∃ n, Reaches limit e₁ n ∧ Reaches limit e₂ n := by
  have hnormal := normal_eq_of_moves h true
  refine ⟨?_, max e₁.weight e₂.weight, fun limit hlimit => ⟨normal true e₁, ?_, ?_⟩⟩
  · intro limit₁ limit₂ n₁ n₂ ⟨hn₁, hfixed₁⟩ ⟨hn₂, hfixed₂⟩
    rw [h₁.eq_normal hn₁ hfixed₁, h₂.eq_normal hn₂ hfixed₂, hnormal]
  · exact h₁.reaches_normal (Nat.le_trans (Nat.le_max_left _ _) hlimit)
  · rw [hnormal]
    exact h₂.reaches_normal (Nat.le_trans (Nat.le_max_right _ _) hlimit)

/-- `!(it.active && !(5 < it.score || !it.member))`. -/
def exemption : Expr :=
  .not (all [.path ⟨[.field "active"]⟩,
    .not (any [.compare .lt (.literal (.int 5)) (.path ⟨[.field "score"]⟩), .not (.path ⟨[.field "member"]⟩)])])

/-- `!it.active || (!(5 >= it.score) || !it.member)`. -/
def exemptionInside : Expr :=
  any [.not (.path ⟨[.field "active"]⟩),
    any [.not (.compare .ge (.literal (.int 5)) (.path ⟨[.field "score"]⟩)), .not (.path ⟨[.field "member"]⟩)]]

theorem moves_exemption : Relation.EqvGen MovesNegation exemption exemptionInside := by
  refine .trans _ _ _ (.rel _ _ (.combination .and _)) ?_
  refine .trans _ _ _ (.rel _ _ (.inCombine .or [_] [] (.cancel _))) (.symm _ _ ?_)
  exact .rel _ _ (.inCombine .or [_] [] (.inCombine .or [] [_] (.comparison .ge _ _)))

/-- Both forms become `(!it.active || (it.score > 5) || !it.member)`, the first of them after a change to each of its
levels. -/
theorem canonicalize_eq_of_moves_exemption :
    Propositional exemption ∧ Propositional exemptionInside ∧
    Relation.EqvGen MovesNegation exemption exemptionInside ∧
    ∃ n₁ n₂, Reaches 4 exemption n₁ ∧ Reaches 64 exemptionInside n₂ ∧ n₁ = n₂ ∧
      n₂.text = "(!it.active || (it.score > 5) || !it.member)" := by
  have hcompare : ∀ op, Propositional (.compare op (.literal (.int 5)) (.path ⟨[.field "score"]⟩)) :=
    fun op => .compare op (.literal rfl) (.path _)
  have h₁ : Propositional exemption := by
    refine .not (.combine .and ?_)
    simp only [List.forall_mem_cons]
    refine ⟨.path _, .not (.combine .or ?_), List.forall_mem_nil _⟩
    simp only [List.forall_mem_cons]
    exact ⟨hcompare .lt, .not (.path _), List.forall_mem_nil _⟩
  have h₂ : Propositional exemptionInside := by
    refine .combine .or ?_
    simp only [List.forall_mem_cons]
    refine ⟨.not (.path _), .combine .or ?_, List.forall_mem_nil _⟩
    simp only [List.forall_mem_cons]
    exact ⟨.not (hcompare .ge), .not (.path _), List.forall_mem_nil _⟩
  have hreaches₁ : Reaches 4 exemption (normal true exemption) := ⟨rfl, rfl⟩
  have hreaches₂ : Reaches 64 exemptionInside (normal true exemptionInside) := ⟨rfl, rfl⟩
  refine ⟨h₁, h₂, moves_exemption, _, _, hreaches₁, hreaches₂, ?_, by decide +kernel⟩
  exact (canonicalize_eq_of_moves h₁ h₂ moves_exemption).1 4 64 _ _ hreaches₁ hreaches₂

end Expr

end PredicateLift
