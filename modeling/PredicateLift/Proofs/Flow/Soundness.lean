import PredicateLift.Proofs.Flow.Safety
import PredicateLift.Proofs.Symbolic.StepValues
import Mathlib.Data.Prod.Lex
import Mathlib.SetTheory.Cardinal.Order

/-!
# Soundness of reconstruction

Under a valuation a stream can also be run along a single path, by going at each branch where the value of its test
points. `Runs` says what such a run returns. The value that is reconstructed by following both arms of each branch has
the value of what the single path returns, as long as no join puts a boolean together with another number.
-/

namespace PredicateLift

namespace Stream

variable {V : Type} [LinearOrder V]

/-- Running from a place with a frame, at each branch along the arm that the valuation selects, returns the value. -/
inductive Runs (ρ : Valuation V) (stream : Stream) (registry : Registry) : Nat → Frame → Symbolic → Prop where
  | next {i frame frame' w} : Performs stream registry i frame (.next frame') →
      Runs ρ stream registry (i + 1) frame' w → Runs ρ stream registry i frame w
  | jump {i frame target frame' j w} : Performs stream registry i frame (.jump target frame') →
      indexOf? stream.code target = some j → Runs ρ stream registry j frame' w → Runs ρ stream registry i frame w
  | done {i frame w} : Performs stream registry i frame (.done w) → Runs ρ stream registry i frame w
  | taken {i frame test target frame' j w} : Performs stream registry i frame (.branch test target frame') →
      ρ.holds (ρ.value test) = true → indexOf? stream.code target = some j → Runs ρ stream registry j frame' w →
      Runs ρ stream registry i frame w
  | fallthrough {i frame test target frame' w} : Performs stream registry i frame (.branch test target frame') →
      ρ.holds (ρ.value test) = false → Runs ρ stream registry (i + 1) frame' w → Runs ρ stream registry i frame w

/-- The arms of the branch at a configuration end with the outcomes. -/
def Meets (stream : Stream) (registry : Registry) (c : Config) (taken fallthrough : Outcome) : Prop :=
  c.place ≠ c.stop ∧ ∃ test target frame j,
    Performs stream registry c.place c.frame (.branch test target frame) ∧ indexOf? stream.code target = some j ∧
    Follows stream registry j frame (stream.mergeOf c.place) taken ∧
    Follows stream registry (c.place + 1) frame (stream.mergeOf c.place) fallthrough

/-- The value is an operand somewhere on the way through the stream. -/
def Arises (stream : Stream) (registry : Registry) (start : Config) (s : Symbolic) : Prop :=
  ∃ c, Visits stream registry start c ∧ s ∈ c.frame.stack

/-- The two values are joined somewhere on the way through the stream. -/
def Joins (stream : Stream) (registry : Registry) (start : Config) (x y : Symbolic) : Prop :=
  ∃ c taken fallthrough, Visits stream registry start c ∧ Meets stream registry c taken fallthrough ∧
    Outcome.Pairs taken fallthrough x y

/-- On the way from a configuration, what is read as a boolean is zero or one, and joins are of values that are
alike. -/
structure Regular (ρ : Valuation V) (stream : Stream) (registry : Registry) (start : Config) : Prop where
  atoms : ∀ s, Arises stream registry start s → s.isAtom = true → ρ.Truthful s
  joins : ∀ x y, Joins stream registry start x y → ρ.Alike x y

variable {ρ : Valuation V} {stream : Stream} {registry : Registry}

theorem Regular.leads {c d : Config} (h : Regular ρ stream registry c) (hd : Leads stream registry c d) :
    Regular ρ stream registry d := by
  refine ⟨?_, ?_⟩
  · rintro s ⟨e, hv, hs⟩
    exact h.atoms s ⟨e, hv.head hd, hs⟩
  · rintro x y ⟨e, taken, fallthrough, hv, hm⟩
    exact h.joins x y ⟨e, taken, fallthrough, hv.head hd, hm⟩

theorem Regular.alike {i : Nat} {frame : Frame} {stop : Nat} (h : Regular ρ stream registry ⟨i, frame, stop⟩)
    {test : Symbolic} {target : Offset} {frame' : Frame} {j : Nat} {taken fallthrough : Outcome} (hne : i ≠ stop)
    (hp : Performs stream registry i frame (.branch test target frame')) (hj : indexOf? stream.code target = some j)
    (ht : Follows stream registry j frame' (stream.mergeOf i) taken)
    (hf : Follows stream registry (i + 1) frame' (stream.mergeOf i) fallthrough) {x y : Symbolic}
    (hxy : Outcome.Pairs taken fallthrough x y) : ρ.Alike x y :=
  h.joins x y ⟨_, taken, fallthrough, .refl _, ⟨hne, test, target, frame', j, hp, hj, ht, hf⟩, hxy⟩

/-! ## Establishing regularity -/

theorem Regular.intro {c : Config} (hstack : ∀ s ∈ c.frame.stack, s.isAtom = true → ρ.Truthful s)
    (hmeets : ∀ taken fallthrough x y, Meets stream registry c taken fallthrough →
      Outcome.Pairs taken fallthrough x y → ρ.Alike x y)
    (hleads : ∀ d, Leads stream registry c d → Regular ρ stream registry d) : Regular ρ stream registry c := by
  refine ⟨?_, ?_⟩
  · rintro s ⟨e, hv, hs⟩
    rcases Relation.ReflTransGen.cases_head hv with rfl | ⟨d, hd, hv⟩
    · exact hstack s hs
    · exact (hleads d hd).atoms s ⟨e, hv, hs⟩
  · rintro x y ⟨e, taken, fallthrough, hv, hm, hxy⟩
    rcases Relation.ReflTransGen.cases_head hv with rfl | ⟨d, hd, hv⟩
    · exact hmeets taken fallthrough x y hm hxy
    · exact (hleads d hd).joins x y ⟨e, taken, fallthrough, hv, hm, hxy⟩

section

variable {i : Nat} {frame : Frame} {stop : Nat} (hstack : ∀ s ∈ frame.stack, s.isAtom = true → ρ.Truthful s)

include hstack

theorem Regular.of_stop : Regular ρ stream registry ⟨stop, frame, stop⟩ := by
  refine .intro hstack ?_ ?_
  · rintro _ _ x y ⟨hne, _⟩
    exact absurd rfl hne
  · intro d hd
    cases hd with
    | next hne | jump hne | taken hne | fallthrough hne | joined hne => exact absurd rfl hne

theorem Regular.of_next {frame' : Frame} (hp : Performs stream registry i frame (.next frame'))
    (h : Regular ρ stream registry ⟨i + 1, frame', stop⟩) : Regular ρ stream registry ⟨i, frame, stop⟩ := by
  refine .intro hstack ?_ ?_
  · rintro _ _ x y ⟨_, _, _, _, _, hp', _⟩
    cases hp.unique hp'
  · intro d hd
    cases hd with
    | next _ hp' =>
        cases hp.unique hp'
        exact h
    | jump _ hp' | taken _ hp' | fallthrough _ hp' | joined _ hp' => cases hp.unique hp'

theorem Regular.of_jump {target : Offset} {frame' : Frame} {j : Nat}
    (hp : Performs stream registry i frame (.jump target frame')) (hj : indexOf? stream.code target = some j)
    (h : Regular ρ stream registry ⟨j, frame', stop⟩) : Regular ρ stream registry ⟨i, frame, stop⟩ := by
  refine .intro hstack ?_ ?_
  · rintro _ _ x y ⟨_, _, _, _, _, hp', _⟩
    cases hp.unique hp'
  · intro d hd
    cases hd with
    | jump _ hp' hj' =>
        cases hp.unique hp'
        cases hj.symm.trans hj'
        exact h
    | next _ hp' | taken _ hp' | fallthrough _ hp' | joined _ hp' => cases hp.unique hp'

theorem Regular.of_done {s : Symbolic} (hp : Performs stream registry i frame (.done s)) :
    Regular ρ stream registry ⟨i, frame, stop⟩ := by
  refine .intro hstack ?_ ?_
  · rintro _ _ x y ⟨_, _, _, _, _, hp', _⟩
    cases hp.unique hp'
  · intro d hd
    cases hd with
    | next _ hp' | jump _ hp' | taken _ hp' | fallthrough _ hp' | joined _ hp' => cases hp.unique hp'

theorem Regular.of_joined {test : Symbolic} {target : Offset} {frame' a b joined : Frame} {j : Nat}
    (hp : Performs stream registry i frame (.branch test target frame')) (hj : indexOf? stream.code target = some j)
    (hta : Follows stream registry j frame' (stream.mergeOf i) (.reached a))
    (hfb : Follows stream registry (i + 1) frame' (stream.mergeOf i) (.reached b))
    (hjoin : Frame.join test a b = .ok joined)
    (hpairs : ∀ x y, Outcome.Pairs (.reached a) (.reached b) x y → ρ.Alike x y)
    (ha : Regular ρ stream registry ⟨j, frame', stream.mergeOf i⟩)
    (hb : Regular ρ stream registry ⟨i + 1, frame', stream.mergeOf i⟩)
    (h : Regular ρ stream registry ⟨stream.mergeOf i, joined, stop⟩) : Regular ρ stream registry ⟨i, frame, stop⟩ := by
  refine .intro hstack ?_ ?_
  · rintro taken fallthrough x y ⟨_, _, _, _, _, hp', hj', ht', hf'⟩ hxy
    cases hp.unique hp'
    cases hj.symm.trans hj'
    cases hta.unique ht'
    cases hfb.unique hf'
    exact hpairs x y hxy
  · intro d hd
    cases hd with
    | taken _ hp' hj' =>
        cases hp.unique hp'
        cases hj.symm.trans hj'
        exact ha
    | fallthrough _ hp' =>
        cases hp.unique hp'
        exact hb
    | joined _ hp' hj' ht' hf' hjoin' =>
        cases hp.unique hp'
        cases hj.symm.trans hj'
        cases hta.unique ht'
        cases hfb.unique hf'
        cases hjoin.symm.trans hjoin'
        exact h
    | next _ hp' | jump _ hp' => cases hp.unique hp'

end

def ConversionFree (stream : Stream) : Prop :=
  ∀ instruction ∈ stream.code, ∀ source target, instruction.op ≠ .convert source target

/-! ## Booleans on the way -/

section

variable (hconv : stream.ConversionFree)

include hconv

theorem Performs.truthful {i : Nat} {frame : Frame} {effect : Effect} (hp : Performs stream registry i frame effect)
    (h : ρ.TruthfulFrame frame) : ρ.TruthfulEffect effect := by
  obtain ⟨instruction, hi, hs⟩ := hp
  exact h.run (hconv instruction (List.mem_of_getElem? hi)) effect (step_eq_ok_iff.mp hs)

theorem Performs.truthful_next {i : Nat} {frame frame' : Frame} {stop : Nat} (hne : i ≠ stop)
    (hp : Performs stream registry i frame (.next frame')) (h : ρ.TruthfulFrame frame)
    (hreg : Regular ρ stream registry ⟨i, frame, stop⟩) : ρ.TruthfulFrame frame' :=
  hp.truthful hconv h fun s hs => hreg.atoms s ⟨_, (Visits.refl _).head (.next hne hp), hs⟩

/-- Where following ends, booleans still are zero or one. -/
theorem Follows.truthful {i : Nat} {frame : Frame} {stop : Nat} {outcome : Outcome}
    (hf : Follows stream registry i frame stop outcome) (h : ρ.TruthfulFrame frame)
    (hreg : Regular ρ stream registry ⟨i, frame, stop⟩) : ρ.TruthfulOutcome outcome := by
  induction hf with
  | stopped => exact h
  | next hne hp _ ih => exact ih (hp.truthful_next hconv hne h hreg) (hreg.leads (.next hne hp))
  | jump hne hp hj _ ih => exact ih (hp.truthful hconv h) (hreg.leads (.jump hne hp hj))
  | done hne hp => exact hp.truthful hconv h
  | returned hne hp hj hta hfb iha ihb =>
      obtain ⟨ht, hframe⟩ := hp.truthful hconv h
      have ha := iha hframe (hreg.leads (.taken hne hp hj))
      have hb := ihb hframe (hreg.leads (.fallthrough hne hp hj hta))
      exact Valuation.Truthful.joinValues ha ht hb (hreg.alike hne hp hj hta hfb .returned)
  | joined hne hp hj hta hfb hjoin _ iha ihb ih =>
      obtain ⟨ht, hframe⟩ := hp.truthful hconv h
      have ha := iha hframe (hreg.leads (.taken hne hp hj))
      have hb := ihb hframe (hreg.leads (.fallthrough hne hp hj hta))
      have hpairs := fun x y => hreg.alike hne hp hj hta hfb (x := x) (y := y)
      exact ih (.join ht ha hb hpairs hjoin) (hreg.leads (.joined hne hp hj hta hfb hjoin))

end

/-! ## Simulation of the single path -/

/-- After an effect at place `i`, the run along the selected path returns the value. -/
def Continues (ρ : Valuation V) (stream : Stream) (registry : Registry) (i : Nat) (w : Symbolic) : Effect → Prop
  | .next frame => Runs ρ stream registry (i + 1) frame w
  | .jump target frame => ∃ j, indexOf? stream.code target = some j ∧ Runs ρ stream registry j frame w
  | .branch test target frame =>
    if ρ.holds (ρ.value test) then ∃ j, indexOf? stream.code target = some j ∧ Runs ρ stream registry j frame w
    else Runs ρ stream registry (i + 1) frame w
  | .done s => s = w

theorem Runs.performs {i : Nat} {frame : Frame} {w : Symbolic} (h : Runs ρ stream registry i frame w) :
    ∃ effect, Performs stream registry i frame effect ∧ Continues ρ stream registry i w effect := by
  cases h with
  | next hp hr => exact ⟨_, hp, hr⟩
  | jump hp hj hr => exact ⟨_, hp, _, hj, hr⟩
  | done hp => exact ⟨_, hp, rfl⟩
  | taken hp ht hj hr =>
      refine ⟨_, hp, ?_⟩
      rw [Continues, if_pos ht]
      exact ⟨_, hj, hr⟩
  | fallthrough hp ht hr =>
      refine ⟨_, hp, ?_⟩
      rw [Continues, if_neg (by simp [ht])]
      exact hr

/-- The outcome of following both arms stands for what the single path comes to. -/
def Stands (ρ : Valuation V) (stream : Stream) (registry : Registry) (stop : Nat) (w : Symbolic) : Outcome → Prop
  | .reached frame => ∃ single, ρ.Represents frame single ∧ Runs ρ stream registry stop single w
  | .returned s => ρ.value s = ρ.value w

section

variable (hconv : stream.ConversionFree)

include hconv

/-- An effect on a frame stands for the effect on a frame that it represents, after which the run goes on. -/
theorem Performs.agrees {i : Nat} {frame single : Frame} {effect : Effect} {w : Symbolic}
    (hp : Performs stream registry i frame effect) (hr : ρ.Represents frame single)
    (hrun : Runs ρ stream registry i single w) :
    ∃ effect', ρ.Agrees effect effect' ∧ Continues ρ stream registry i w effect' := by
  obtain ⟨instruction, hi, hs⟩ := hp
  obtain ⟨effect', ⟨instruction', hi', hs'⟩, hc⟩ := hrun.performs
  cases hi.symm.trans hi'
  exact ⟨effect', hr.run (hconv instruction (List.mem_of_getElem? hi)) _ _ (step_eq_ok_iff.mp hs)
    (step_eq_ok_iff.mp hs'), hc⟩

/-- From a branch the run goes on along the arm that the test selects, whichever of the two frames it is taken of. -/
theorem Performs.selects {i : Nat} {frame frame' single : Frame} {test : Symbolic} {target : Offset} {j : Nat}
    {w : Symbolic} (hp : Performs stream registry i frame (.branch test target frame'))
    (hj : indexOf? stream.code target = some j) (hr : ρ.Represents frame single)
    (hrun : Runs ρ stream registry i single w) :
    ∃ single', ρ.Represents frame' single' ∧
      Runs ρ stream registry (if ρ.holds (ρ.value test) then j else i + 1) single' w := by
  obtain ⟨_, hagrees, hc⟩ := hp.agrees hconv hr hrun
  cases hagrees with
  | branch htest hr' =>
      rw [Continues, ← htest] at hc
      refine ⟨_, hr', ?_⟩
      split at hc
      · rename_i hholds
        obtain ⟨j', hj', hc⟩ := hc
        cases hj.symm.trans hj'
        rw [if_pos hholds]
        exact hc
      · rename_i hholds
        rw [if_neg hholds]
        exact hc

/-- Following both arms of each branch simulates the run along a single path. -/
theorem Follows.stands {i : Nat} {frame : Frame} {stop : Nat} {outcome : Outcome}
    (hf : Follows stream registry i frame stop outcome) (h : ρ.TruthfulFrame frame)
    (hreg : Regular ρ stream registry ⟨i, frame, stop⟩) {single : Frame} (hr : ρ.Represents frame single)
    {w : Symbolic} (hrun : Runs ρ stream registry i single w) : Stands ρ stream registry stop w outcome := by
  -- After a join the frame stands for one that it was not joined from, so `single` varies along the way.
  induction hf generalizing single with
  | stopped => exact ⟨single, hr, hrun⟩
  | next hne hp _ ih =>
      obtain ⟨_, hagrees, hc⟩ := hp.agrees hconv hr hrun
      cases hagrees with
      | next hr' => exact ih (hp.truthful_next hconv hne h hreg) (hreg.leads (.next hne hp)) hr' hc
  | jump hne hp hj _ ih =>
      obtain ⟨_, hagrees, hc⟩ := hp.agrees hconv hr hrun
      cases hagrees with
      | jump hr' =>
          obtain ⟨j, hj', hc⟩ := hc
          cases hj.symm.trans hj'
          exact ih (hp.truthful hconv h) (hreg.leads (.jump hne hp hj)) hr' hc
  | done hne hp =>
      obtain ⟨_, hagrees, hc⟩ := hp.agrees hconv hr hrun
      cases hagrees with
      | done hv =>
          cases hc
          exact hv
  | returned hne hp hj hta hfb iha ihb =>
      obtain ⟨ht, hframe⟩ := hp.truthful hconv h
      have hrega := hreg.leads (.taken hne hp hj)
      have hregb := hreg.leads (.fallthrough hne hp hj hta)
      have ha := hta.truthful hconv hframe hrega
      have hb := hfb.truthful hconv hframe hregb
      obtain ⟨single', hr', hrun'⟩ := hp.selects hconv hj hr hrun
      rw [Stands, Valuation.value_joinValues ht ha hb, Valuation.choice]
      split at hrun'
      · rename_i hholds
        rw [if_pos hholds]
        exact iha hframe hrega hr' hrun'
      · rename_i hholds
        rw [if_neg hholds]
        exact ihb hframe hregb hr' hrun'
  | joined hne hp hj hta hfb hjoin _ iha ihb ih =>
      obtain ⟨ht, hframe⟩ := hp.truthful hconv h
      have hrega := hreg.leads (.taken hne hp hj)
      have hregb := hreg.leads (.fallthrough hne hp hj hta)
      have ha := hta.truthful hconv hframe hrega
      have hb := hfb.truthful hconv hframe hregb
      have hpairs := fun x y => hreg.alike hne hp hj hta hfb (x := x) (y := y)
      have htruthful := Valuation.TruthfulFrame.join ht ha hb hpairs hjoin
      have hregj := hreg.leads (.joined hne hp hj hta hfb hjoin)
      -- The joined frame stands for that of the selected arm, and so for what the single path comes to.
      have hjoined := Valuation.represents_join ht ha hb hjoin
      obtain ⟨single', hr', hrun'⟩ := hp.selects hconv hj hr hrun
      split at hrun'
      · rename_i hholds
        rw [if_pos hholds] at hjoined
        obtain ⟨arm, hr'', hrun''⟩ := iha hframe hrega hr' hrun'
        exact ih htruthful hregj (hjoined.trans hr'') hrun''
      · rename_i hholds
        rw [if_neg hholds] at hjoined
        obtain ⟨arm, hr'', hrun''⟩ := ihb hframe hregb hr' hrun'
        exact ih htruthful hregj (hjoined.trans hr'') hrun''

end

/-! ## Soundness -/

/-- On entry to a body every bound value is a literal or the subject, which is not known to be a boolean. -/
theorem truthful_initial {subject : Slot} {captures : Captures} {frame : Frame}
    (h : Frame.initial subject captures = .ok frame) : ρ.TruthfulFrame frame := by
  obtain ⟨-, rfl⟩ := Frame.initial_eq_ok_iff.mp h
  have hcaptures : ρ.TruthfulFrame { locals := .ofCaptures captures } := by
    refine Locals.ofCaptures_induction (P := fun locals => ρ.TruthfulFrame { locals := locals }) ⟨nofun, nofun⟩ ?_ _
    intro locals slot value hlocals
    exact hlocals.set (Valuation.truthful_literal value)
  exact hcaptures.set (Valuation.truthful_of_kind nofun)

/-- Reconstruction is sound. Let a valuation make zero or one of every boolean that is read, called or unwrapped on the
way, and let no join put a boolean together with a value that is neither written as one nor zero or one. Then the value
that is reconstructed has the value of what the run along the path that the valuation selects returns. -/
theorem value_reconstruct (ρ : Valuation V) {stream : Stream} {registry : Registry} {subject : Slot}
    {captures : Captures} {frame : Frame} {v w : Symbolic}
    (hconv : ∀ instruction ∈ stream.code, ∀ source target, instruction.op ≠ .convert source target)
    (hframe : Frame.initial subject captures = .ok frame)
    (hatoms : ∀ s, Arises stream registry ⟨0, frame, stream.size⟩ s → s.isAtom = true → s.isBool = true →
      ρ.IsTruth s)
    (hjoins : ∀ x y, Joins stream registry ⟨0, frame, stream.size⟩ x y → ρ.Alike x y)
    (hv : stream.reconstruct registry frame = .ok v) (hw : Runs ρ stream registry 0 frame w) :
    ρ.value v = ρ.value w :=
  (reconstruct_follows hv).stands hconv (truthful_initial hframe) ⟨hatoms, hjoins⟩ (.refl frame) hw

/-! ## An instance

The literals are the values: numbers and booleans are ordered as numbers, and all others come after them in some
order. -/

end Stream

/-- An integer, and the literal if it is not a number. -/
abbrev Ranked := ℤ ×ₗ Literal

open Classical in
noncomputable instance : LinearOrder Ranked :=
  @Prod.Lex.instLinearOrder ℤ Literal _ (linearOrderOfSTO WellOrderingRel)

namespace Ranked

def number (n : ℤ) : Ranked := toLex (n, .null)

def ofLiteral : Literal → Ranked
  | .int n => number n.toInt
  | .bool b => number (if b then 1 else 0)
  | l => toLex (2 ^ 31, l)

theorem number_lt_number {m n : ℤ} (h : m < n) : number m < number n :=
  Prod.Lex.left _ _ h

def field (member : Member) (v : Ranked) : Ranked :=
  match (ofLex v).2 with
  | .object _ fields => ((fields.lookup member.name).map ofLiteral).getD v
  | _ => v

def call (method : Member) (v : Ranked) (args : List Ranked) : Ranked :=
  if args = [] then ((accessedProperty? (.literal (ofLex v).2) method).map ofLiteral).getD v else v

def element (v index : Ranked) : Ranked :=
  match (ofLex v).2 with
  | .array items => ((Symbolic.itemAt? items (Int32.ofInt (ofLex index).1)).map ofLiteral).getD v
  | _ => v

def length (v : Ranked) : Ranked :=
  match (ofLex v).2 with
  | .array items => ofLiteral (.int (Int32.ofNat items.length))
  | _ => v

/-- The valuation with the given subject, in which what cannot be read of literals is passed through. -/
noncomputable def valuation (subject : Literal) : Valuation Ranked where
  literal := ofLiteral
  var _ := ofLiteral subject
  field := field
  call method _ := call method
  staticCall _ _ args := args.headD (number 0)
  negative _ v := v
  arith _ _ v _ := v
  element _ := element
  length := length
  false_eq := rfl
  true_eq := rfl
  negative_lt_zero := number_lt_number (by decide)
  zero_lt_one := number_lt_number (by decide)
  field_object := by
    intro typeName fields member value h
    simp [field, ofLiteral, h]
  call_object := by
    intro object method kind value h
    cases object with
    | object typeName fields => simp [call, ofLiteral, h]
    | _ => cases h
  element_array := by
    intro items index kind item h
    simp [element, ofLiteral, number, h]
  length_array := by
    intro items
    simp [length, ofLiteral]

end Ranked

namespace Stream

def lostItem : Literal := .object "a/Item" [("lost", .bool true), ("sold", .bool false)]

def itemField (name : String) : Symbolic := .field (.var 0) ⟨"a/Item", name, "Z"⟩

def eitherStream : Stream := ⟨disjunction, [1, 2, 9, 4, 5, 9, 7, 9, 9, 10, 10]⟩

/-- The frames on the way through `disjunction`: its only local variable is the subject. -/
def operands (stack : List Symbolic) : Frame := ⟨stack, ⟨[(0, .var 0)]⟩⟩

theorem value_sold :
    (Ranked.valuation lostItem).value (itemField "sold") = (Ranked.valuation lostItem).truth false := rfl

theorem value_lost :
    (Ranked.valuation lostItem).value (itemField "lost") = (Ranked.valuation lostItem).truth true := rfl

theorem follows_true : Follows eitherStream .builtin 6 (operands []) 9 (.reached (operands [.literal (.int 1)])) :=
  .next (by decide) ⟨_, rfl, rfl⟩ (.jump (by decide) ⟨_, rfl, rfl⟩ rfl .stopped)

theorem follows_false : Follows eitherStream .builtin 8 (operands []) 9 (.reached (operands [.literal (.int 0)])) :=
  .next (by decide) ⟨_, rfl, rfl⟩ .stopped

theorem follows_lost : Follows eitherStream .builtin 3 (operands []) 9
    (.reached (operands [.not (.not (itemField "lost"))])) :=
  .next (by decide) ⟨_, rfl, rfl⟩ (.next (by decide) ⟨_, rfl, rfl⟩
    (.joined (by decide) ⟨_, rfl, rfl⟩ rfl follows_false follows_true rfl .stopped))

theorem eq_of_pairs_operands {a b x y : Symbolic}
    (h : Outcome.Pairs (.reached (operands [a])) (.reached (operands [b])) x y) :
    (x = a ∧ y = b) ∨ (x = .var 0 ∧ y = .var 0) := by
  cases h with
  | stack hxy => exact .inl (by simpa [operands] using hxy)
  | @locals _ _ slot _ _ hx hy =>
      by_cases hslot : slot = 0
      · subst hslot
        cases hx
        cases hy
        exact .inr ⟨rfl, rfl⟩
      · simp [operands, Locals.get?, List.lookup_cons, beq_eq_false_iff_ne.mpr hslot] at hx

theorem truthful_operands {s : Symbolic} (h : s.isAtom = true → (Ranked.valuation lostItem).IsTruth s) :
    ∀ t ∈ (operands [s]).stack, t.isAtom = true → (Ranked.valuation lostItem).Truthful t :=
  List.forall_mem_singleton.mpr fun hatom _ => h hatom

/-- On the way through `disjunction` only the two fields are read, and they are joined as booleans. -/
theorem regular_disjunction :
    Regular (Ranked.valuation lostItem) eitherStream .builtin ⟨0, operands [], eitherStream.size⟩ := by
  have hempty : ∀ t ∈ (operands []).stack, t.isAtom = true → (Ranked.valuation lostItem).Truthful t := nofun
  have htrue : Regular (Ranked.valuation lostItem) eitherStream .builtin ⟨6, operands [], 9⟩ :=
    .of_next hempty ⟨_, rfl, rfl⟩ (.of_jump (truthful_operands nofun) ⟨_, rfl, rfl⟩ rfl
      (.of_stop (truthful_operands nofun)))
  have hfalse : Regular (Ranked.valuation lostItem) eitherStream .builtin ⟨8, operands [], 9⟩ :=
    .of_next hempty ⟨_, rfl, rfl⟩ (.of_stop (truthful_operands nofun))
  have hlost : Regular (Ranked.valuation lostItem) eitherStream .builtin ⟨3, operands [], 9⟩ := by
    refine .of_next hempty ⟨_, rfl, rfl⟩ (.of_next (truthful_operands nofun) ⟨_, rfl, rfl⟩ ?_)
    refine .of_joined (truthful_operands fun _ => ⟨_, value_lost⟩) ⟨_, rfl, rfl⟩ rfl follows_false follows_true rfl ?_
      hfalse htrue (.of_stop (truthful_operands nofun))
    intro x y hxy
    rcases eq_of_pairs_operands hxy with ⟨rfl, rfl⟩ | ⟨rfl, rfl⟩
    · exact ⟨nofun, nofun⟩
    · exact ⟨nofun, nofun⟩
  refine .of_next hempty ⟨_, rfl, rfl⟩ (.of_next (truthful_operands nofun) ⟨_, rfl, rfl⟩ ?_)
  refine .of_joined (truthful_operands fun _ => ⟨_, value_sold⟩) ⟨_, rfl, rfl⟩ rfl follows_true follows_lost rfl ?_
    htrue hlost (.of_done (truthful_operands nofun) ⟨_, rfl, rfl⟩)
  intro x y hxy
  rcases eq_of_pairs_operands hxy with ⟨rfl, rfl⟩ | ⟨rfl, rfl⟩
  · exact ⟨nofun, fun _ => .inl rfl⟩
  · exact ⟨nofun, nofun⟩

theorem runs_disjunction :
    Runs (Ranked.valuation lostItem) eitherStream .builtin 0 (operands []) (.literal (.int 1)) := by
  have htrue : Runs (Ranked.valuation lostItem) eitherStream .builtin 6 (operands []) (.literal (.int 1)) :=
    .next ⟨_, rfl, rfl⟩ (.jump ⟨_, rfl, rfl⟩ rfl (.done ⟨_, rfl, rfl⟩))
  have hsold : (Ranked.valuation lostItem).holds ((Ranked.valuation lostItem).value (itemField "sold")) = false := by
    rw [value_sold, Valuation.holds_truth]
  have hlost : (Ranked.valuation lostItem).holds
      ((Ranked.valuation lostItem).value (.not (itemField "lost"))) = false := by
    rw [Valuation.value, value_lost, Valuation.holds_truth, Valuation.holds_truth, Bool.not_true]
  exact .next ⟨_, rfl, rfl⟩ (.next ⟨_, rfl, rfl⟩ (.fallthrough ⟨_, rfl, rfl⟩ hsold (.next ⟨_, rfl, rfl⟩
    (.next ⟨_, rfl, rfl⟩ (.fallthrough ⟨_, rfl, rfl⟩ hlost htrue)))))

/-- The reconstructed disjunction has the value of what a run for an item that is lost returns, which is one. -/
theorem value_reconstruct_disjunction :
    ofList disjunction = .ok eitherStream ∧ Frame.initial 0 {} = .ok (operands []) ∧
      eitherStream.reconstruct .builtin (operands []) =
        .ok (.logical .or (itemField "sold") (.not (.not (itemField "lost")))) ∧
      Runs (Ranked.valuation lostItem) eitherStream .builtin 0 (operands []) (.literal (.int 1)) ∧
      (Ranked.valuation lostItem).value (.logical .or (itemField "sold") (.not (.not (itemField "lost")))) =
        (Ranked.valuation lostItem).value (.literal (.int 1)) := by
  have hv : eitherStream.reconstruct .builtin (operands []) =
      .ok (.logical .or (itemField "sold") (.not (.not (itemField "lost")))) := rfl
  have hconv : ∀ instruction ∈ eitherStream.code, ∀ source target, instruction.op ≠ .convert source target := by
    simp [eitherStream, disjunction]
  have hframe : Frame.initial 0 {} = .ok (operands []) := rfl
  exact ⟨rfl, hframe, hv, runs_disjunction, value_reconstruct (Ranked.valuation lostItem) hconv hframe
    regular_disjunction.atoms regular_disjunction.joins hv runs_disjunction⟩

end Stream

end PredicateLift
