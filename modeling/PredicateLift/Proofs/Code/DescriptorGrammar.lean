import PredicateLift.Code.Descriptor
import Mathlib.Data.List.Basic

/-!
# The grammar of descriptors

A derivation of a descriptor is a tree: `FieldType` for the descriptor of a field, `MethodType` for that of a method. It
has a text, which is what the grammar derives, and a kind or a signature. The main statement is that a descriptor is read
exactly if it is the text of a derivation, and as what the derivation stands for. No text of a derivation begins with
another, so the derivation is the only one and nothing may follow it.
-/

namespace PredicateLift.Descriptor

/-! ## Derivations -/

/-- The types that are written as one letter. -/
inductive Primitive where
  | byte
  | char
  | short
  | int
  | boolean
  | long
  | float
  | double
deriving DecidableEq

namespace Primitive

def letter : Primitive → Char
  | byte => 'B'
  | char => 'C'
  | short => 'S'
  | int => 'I'
  | boolean => 'Z'
  | long => 'J'
  | float => 'F'
  | double => 'D'

def kind : Primitive → Kind
  | byte | char | short | int => .int
  | boolean => .bool
  | long => .long
  | float => .float
  | double => .double

theorem letter_injective {p q : Primitive} (h : p.letter = q.letter) : p = q := by
  revert h
  cases p <;> cases q <;> decide

end Primitive

/-- A class name as it may stand in a descriptor: not empty, and without the sign that ends it. -/
structure ClassName where
  name : List Char
  name_ne_nil : name ≠ []
  not_mem_name : ';' ∉ name

/-- A derivation of a field descriptor. -/
inductive FieldType where
  | primitive (p : Primitive)
  | reference (c : ClassName)
  | array (element : FieldType)

namespace FieldType

/-- The descriptor that is derived. -/
def text : FieldType → List Char
  | primitive p => [p.letter]
  | reference c => 'L' :: c.name ++ [';']
  | array element => '[' :: element.text

/-- The kind of the values of the type. Only strings are told apart from other objects. -/
def kind : FieldType → Kind
  | primitive p => p.kind
  | reference c => if c.name = "java/lang/String".toList then .str else .object (String.ofList c.name)
  | array element => .array element.kind

end FieldType

/-- A derivation of a method descriptor. A method without a result is one that returns nothing. -/
structure MethodType where
  parameters : List FieldType
  result : Option FieldType

namespace MethodType

/-- The descriptor of what the method returns. -/
def resultText : Option FieldType → List Char
  | none => ['V']
  | some t => t.text

def text (m : MethodType) : List Char :=
  '(' :: (m.parameters.flatMap FieldType.text ++ ')' :: resultText m.result)

def signature (m : MethodType) : Signature :=
  ⟨m.parameters.map FieldType.kind, m.result.elim .void FieldType.kind⟩

end MethodType

/-- No text begins with another, so a text can be told apart from what follows it. -/
def PrefixFree {α : Type} (text : α → List Char) : Prop :=
  ∀ ⦃t u : α⦄ ⦃r s : List Char⦄, text t ++ r = text u ++ s → t = u ∧ r = s

theorem PrefixFree.injective {α : Type} {text : α → List Char} (htext : PrefixFree text) : Function.Injective text := by
  intro t u h
  exact (htext (congrArg (· ++ []) h)).1

/-- A reader that accepts the texts only accepts none of them with something after it. -/
theorem PrefixFree.read_append {α β : Type} {text : α → List Char} {meaning : α → β} {read? : String → Option β}
    (htext : PrefixFree text) (hread : ∀ s b, read? s = some b ↔ ∃ t, s.toList = text t ∧ meaning t = b) (t : α)
    {rest : List Char} (hrest : rest ≠ []) : read? (String.ofList (text t ++ rest)) = none := by
  rw [Option.eq_none_iff_forall_ne_some]
  intro b hb
  obtain ⟨u, hu, -⟩ := (hread _ b).mp hb
  rw [String.toList_ofList, ← List.append_nil (text u)] at hu
  exact hrest (htext hu).2

/-! ## Fields -/

namespace ClassName

variable (c : ClassName) (rest : List Char)

theorem ne_semicolon {x : Char} (h : x ∈ c.name) : (x != ';') = true := by
  rw [bne_iff_ne]
  rintro rfl
  exact c.not_mem_name h

theorem takeWhile_name : (c.name ++ ';' :: rest).takeWhile (· != ';') = c.name := by
  rw [List.takeWhile_append_of_pos fun _ => c.ne_semicolon]
  simp

theorem dropWhile_name : (c.name ++ ';' :: rest).dropWhile (· != ';') = ';' :: rest := by
  rw [List.dropWhile_append_of_pos fun _ => c.ne_semicolon]
  simp

end ClassName

theorem ofClass_ofList (name : List Char) :
    Kind.ofClass (String.ofList name) =
      if name = "java/lang/String".toList then .str else .object (String.ofList name) := by
  have hname : String.ofList name = "java/lang/String" ↔ name = "java/lang/String".toList := by
    rw [← String.toList_inj, String.toList_ofList]
  simp only [Kind.ofClass, hname]

/-- A field descriptor is read up to its end, whatever follows. -/
theorem field?_text (t : FieldType) (rest : List Char) : field? (t.text ++ rest) = some (t.kind, rest) := by
  induction t with
  | primitive p => cases p <;> rfl
  | reference c =>
      have htext : (FieldType.reference c).text ++ rest = 'L' :: (c.name ++ ';' :: rest) := by
        simp [FieldType.text]
      rw [htext, field?]
      simp only [c.takeWhile_name, c.dropWhile_name, List.isEmpty_iff, c.name_ne_nil, if_false, ofClass_ofList,
        FieldType.kind]
  | array element ih =>
      rw [FieldType.text, List.cons_append, field?, ih]
      rfl

theorem exists_className {s tail : List Char} {x : Char} (hname : s.takeWhile (· != ';') ≠ [])
    (htail : s.dropWhile (· != ';') = x :: tail) :
    ∃ c : ClassName, s.takeWhile (· != ';') = c.name ∧ s = c.name ++ ';' :: tail := by
  have hend : x = ';' := by
    have hstop := List.head?_dropWhile_not (· != ';') s
    rw [htail] at hstop
    simpa using hstop
  subst hend
  refine ⟨⟨_, hname, fun hmem => ?_⟩, rfl, ?_⟩
  · simpa using List.all_eq_true.mp List.all_takeWhile _ hmem
  · rw [← htail, List.takeWhile_append_dropWhile]

/-- What is read is a field descriptor. -/
theorem exists_text_of_field? {s rest : List Char} {k : Kind} (h : field? s = some (k, rest)) :
    ∃ t : FieldType, s = t.text ++ rest ∧ t.kind = k := by
  fun_induction field? s generalizing k rest with
  | case1 => cases h; exact ⟨.primitive .byte, rfl, rfl⟩
  | case2 => cases h; exact ⟨.primitive .char, rfl, rfl⟩
  | case3 => cases h; exact ⟨.primitive .short, rfl, rfl⟩
  | case4 => cases h; exact ⟨.primitive .int, rfl, rfl⟩
  | case5 => cases h; exact ⟨.primitive .boolean, rfl, rfl⟩
  | case6 => cases h; exact ⟨.primitive .long, rfl, rfl⟩
  | case7 => cases h; exact ⟨.primitive .float, rfl, rfl⟩
  | case8 => cases h; exact ⟨.primitive .double, rfl, rfl⟩
  | case10 s name x tail htail =>
      rename_i hname
      cases h
      obtain ⟨c, hc, rfl⟩ := exists_className (mt List.isEmpty_iff.mpr hname) htail
      refine ⟨.reference c, by simp [FieldType.text], ?_⟩
      rw [FieldType.kind, ← ofClass_ofList, ← hc]
  | case12 s ih =>
      obtain ⟨⟨element, tail⟩, helement, h⟩ := Option.map_eq_some_iff.mp h
      cases h
      obtain ⟨t, rfl, rfl⟩ := ih helement
      exact ⟨.array t, rfl, rfl⟩
  | case9 | case11 | case13 => cases h

theorem ofFieldDescriptor?_eq_some_iff (s : String) (k : Kind) :
    Kind.ofFieldDescriptor? s = some k ↔ ∃ t : FieldType, s.toList = t.text ∧ t.kind = k := by
  constructor
  · intro h
    unfold Kind.ofFieldDescriptor? at h
    split at h
    · rename_i hfield
      cases h
      obtain ⟨t, htext, hkind⟩ := exists_text_of_field? hfield
      exact ⟨t, by rw [htext, List.append_nil], hkind⟩
    · cases h
  · rintro ⟨t, htext, rfl⟩
    have hfield := field?_text t []
    rw [List.append_nil] at hfield
    rw [Kind.ofFieldDescriptor?, htext, hfield]

theorem FieldType.text_append_ne (t : FieldType) {x : Char} {r s : List Char} (hx : field? (x :: s) = none) :
    t.text ++ r ≠ x :: s := by
  intro h
  rw [← h, field?_text] at hx
  cases hx

theorem FieldType.prefixFree_text : PrefixFree text := by
  intro t u r s h
  induction t generalizing u with
  | primitive p =>
      cases u with
      | primitive q =>
          obtain ⟨hletter, rfl⟩ := List.cons.inj h
          rw [Primitive.letter_injective hletter]
          exact ⟨rfl, rfl⟩
      | reference _ | array _ => cases p <;> cases h
  | reference c =>
      cases u with
      | primitive q => cases q <;> cases h
      | reference d =>
          have hnames : c.name ++ ';' :: r = d.name ++ ';' :: s := by simpa [text] using h
          have hname := congrArg (List.takeWhile (· != ';')) hnames
          have hrest := congrArg (List.dropWhile (· != ';')) hnames
          rw [c.takeWhile_name, d.takeWhile_name] at hname
          rw [c.dropWhile_name, d.dropWhile_name] at hrest
          cases c
          cases d
          cases hname
          cases hrest
          exact ⟨rfl, rfl⟩
      | array _ => cases h
  | array element ih =>
      cases u with
      | primitive q => cases q <;> cases h
      | reference _ => cases h
      | array other =>
          obtain ⟨rfl, rfl⟩ := ih (List.cons.inj h).2
          exact ⟨rfl, rfl⟩

/-! ## Methods -/

theorem parameters?_of_field? {s rest : List Char} {k : Kind} (h : field? s = some (k, rest)) (count : Nat) :
    parameters? (count + 1) s = (parameters? count rest).map fun p => (k :: p.1, p.2) := by
  rw [parameters?]
  · simp only [h, Option.bind_eq_bind, Option.bind_some]
    cases parameters? count rest <;> rfl
  · rintro _ rfl
    cases h

/-- The parameters are read up to the closing parenthesis, whatever follows. -/
theorem parameters?_text {ts : List FieldType} {count : Nat} (hcount : ts.length ≤ count) (rest : List Char) :
    parameters? count (ts.flatMap FieldType.text ++ ')' :: rest) = some (ts.map FieldType.kind, rest) := by
  induction ts generalizing count with
  | nil => cases count <;> rfl
  | cons t ts ih =>
      cases count with
      | zero => cases hcount
      | succ count =>
          rw [List.flatMap_cons, List.append_assoc, parameters?_of_field? (field?_text t _),
            ih (Nat.le_of_succ_le_succ hcount)]
          rfl

/-- What is read is a list of field descriptors and a closing parenthesis. -/
theorem exists_texts_of_parameters? {count : Nat} {s rest : List Char} {ks : List Kind}
    (h : parameters? count s = some (ks, rest)) :
    ∃ ts : List FieldType, s = ts.flatMap FieldType.text ++ ')' :: rest ∧ ts.map FieldType.kind = ks := by
  fun_induction parameters? count s generalizing ks rest with
  | case1 =>
      cases h
      exact ⟨[], rfl, rfl⟩
  | case2 => cases h
  | case3 count s _ ih =>
      obtain ⟨⟨k, others⟩, hfield, h⟩ := Option.bind_eq_some_iff.mp h
      obtain ⟨⟨kinds, tail⟩, hparameters, h⟩ := Option.bind_eq_some_iff.mp h
      cases h
      obtain ⟨t, rfl, rfl⟩ := exists_text_of_field? hfield
      obtain ⟨ts, rfl, rfl⟩ := ih _ hparameters
      exact ⟨t :: ts, by rw [List.flatMap_cons, List.append_assoc], rfl⟩

theorem length_le_flatMap_text (ts : List FieldType) : ts.length ≤ (ts.flatMap FieldType.text).length := by
  induction ts with
  | nil => exact Nat.le_refl 0
  | cons t ts ih =>
      have hpos : 0 < t.text.length := by cases t <;> simp [FieldType.text]
      rw [List.flatMap_cons, List.length_append, List.length_cons]
      omega

/-- A list of parameters is told apart from what follows by its closing parenthesis. -/
theorem flatMap_text_append_inj {ts us : List FieldType} {r s : List Char}
    (h : ts.flatMap FieldType.text ++ ')' :: r = us.flatMap FieldType.text ++ ')' :: s) : ts = us ∧ r = s := by
  induction ts generalizing us with
  | nil =>
      cases us with
      | nil => exact ⟨rfl, (List.cons.inj h).2⟩
      | cons u us =>
          rw [List.flatMap_cons, List.append_assoc] at h
          exact absurd h.symm (u.text_append_ne rfl)
  | cons t ts ih =>
      rw [List.flatMap_cons, List.append_assoc] at h
      cases us with
      | nil => exact absurd h (t.text_append_ne rfl)
      | cons u us =>
          rw [List.flatMap_cons, List.append_assoc] at h
          obtain ⟨rfl, hrest⟩ := FieldType.prefixFree_text h
          obtain ⟨rfl, rfl⟩ := ih hrest
          exact ⟨rfl, rfl⟩

namespace MethodType

theorem prefixFree_resultText : PrefixFree resultText := by
  intro t u r s h
  cases t with
  | none =>
      cases u with
      | none => exact ⟨rfl, (List.cons.inj h).2⟩
      | some u => exact absurd h.symm (u.text_append_ne rfl)
  | some t =>
      cases u with
      | none => exact absurd h (t.text_append_ne rfl)
      | some u =>
          obtain ⟨rfl, rfl⟩ := FieldType.prefixFree_text h
          exact ⟨rfl, rfl⟩

theorem prefixFree_text : PrefixFree text := by
  intro m n r s h
  simp only [text, List.cons_append, List.append_assoc, List.cons.injEq, true_and] at h
  obtain ⟨hparameters, hrest⟩ := flatMap_text_append_inj h
  obtain ⟨hresult, rfl⟩ := prefixFree_resultText hrest
  cases m
  cases n
  cases hparameters
  cases hresult
  exact ⟨rfl, rfl⟩

end MethodType

/-- The kind of what a method returns, from the end of its descriptor. -/
def result? (tail : List Char) : Option Kind :=
  if tail = ['V'] then some .void else Kind.ofFieldDescriptor? (String.ofList tail)

theorem result?_eq_some_iff {tail : List Char} {k : Kind} :
    result? tail = some k ↔ ∃ t, tail = MethodType.resultText t ∧ t.elim .void FieldType.kind = k := by
  unfold result?
  constructor
  · intro h
    split at h
    · cases h
      exact ⟨none, ‹_›, rfl⟩
    · obtain ⟨t, htext, hkind⟩ := (ofFieldDescriptor?_eq_some_iff _ _).mp h
      rw [String.toList_ofList] at htext
      exact ⟨some t, htext, hkind⟩
  · rintro ⟨t, rfl, rfl⟩
    cases t with
    | none => rfl
    | some t =>
        have hvoid : t.text ≠ ['V'] := by
          rw [← List.append_nil t.text]
          exact t.text_append_ne rfl
        rw [MethodType.resultText, if_neg hvoid, ofFieldDescriptor?_eq_some_iff]
        exact ⟨t, String.toList_ofList, rfl⟩

theorem ofDescriptor?_of_toList {s : String} {rest : List Char} (h : s.toList = '(' :: rest) :
    Signature.ofDescriptor? s =
      (parameters? rest.length rest).bind fun p => (result? p.2).map fun k => ⟨p.1, k⟩ := by
  rw [Signature.ofDescriptor?, h]
  cases hparameters : parameters? rest.length rest with
  | none => simp only [hparameters, Option.bind_eq_bind, Option.bind_none]
  | some p =>
      simp only [hparameters, Option.bind_eq_bind, Option.bind_some, result?]
      split
      · rfl
      · cases Kind.ofFieldDescriptor? (String.ofList p.2) <;> rfl

theorem ofDescriptor?_eq_some_iff (s : String) (signature : Signature) :
    Signature.ofDescriptor? s = some signature ↔ ∃ m : MethodType, s.toList = m.text ∧ m.signature = signature := by
  constructor
  · intro h
    obtain ⟨rest, hrest⟩ : ∃ rest, s.toList = '(' :: rest := by
      unfold Signature.ofDescriptor? at h
      split at h
      · exact ⟨_, ‹_›⟩
      · cases h
    rw [ofDescriptor?_of_toList hrest] at h
    obtain ⟨⟨kinds, tail⟩, hparameters, h⟩ := Option.bind_eq_some_iff.mp h
    obtain ⟨k, hresult, rfl⟩ := Option.map_eq_some_iff.mp h
    obtain ⟨ts, rfl, rfl⟩ := exists_texts_of_parameters? hparameters
    obtain ⟨t, rfl, rfl⟩ := result?_eq_some_iff.mp hresult
    exact ⟨⟨ts, t⟩, hrest, rfl⟩
  · rintro ⟨⟨ts, t⟩, htext, rfl⟩
    -- The length of the text is bound enough for the parameters, as none of them is empty.
    have hcount : ts.length ≤ (ts.flatMap FieldType.text ++ ')' :: MethodType.resultText t).length := by
      have htexts := length_le_flatMap_text ts
      rw [List.length_append]
      omega
    rw [ofDescriptor?_of_toList htext, parameters?_text hcount, Option.bind_some,
      result?_eq_some_iff.mpr ⟨t, rfl, rfl⟩]
    rfl

/-- Descriptors are read exactly by the grammar. A text has one derivation at most, and nothing may follow a
descriptor. -/
theorem readers_exact :
    (∀ s k, Kind.ofFieldDescriptor? s = some k ↔ ∃ t : FieldType, s.toList = t.text ∧ t.kind = k) ∧
    (∀ s signature, Signature.ofDescriptor? s = some signature ↔
      ∃ m : MethodType, s.toList = m.text ∧ m.signature = signature) ∧
    Function.Injective FieldType.text ∧ Function.Injective MethodType.text ∧
    (∀ (t : FieldType) (rest : List Char), rest ≠ [] →
      Kind.ofFieldDescriptor? (String.ofList (t.text ++ rest)) = none) ∧
    ∀ (m : MethodType) (rest : List Char), rest ≠ [] →
      Signature.ofDescriptor? (String.ofList (m.text ++ rest)) = none := by
  refine ⟨ofFieldDescriptor?_eq_some_iff, ofDescriptor?_eq_some_iff, FieldType.prefixFree_text.injective,
    MethodType.prefixFree_text.injective, ?_, ?_⟩
  · intro t rest
    exact FieldType.prefixFree_text.read_append ofFieldDescriptor?_eq_some_iff t
  · intro m rest
    exact MethodType.prefixFree_text.read_append ofDescriptor?_eq_some_iff m

-- The brackets inside the class name are part of it.
example : Signature.ofDescriptor? "([La)[b;J)[Ljava/lang/String;" =
    some ⟨[.array (.object "a)[b"), .long], .array .str⟩ := by
  decide

end PredicateLift.Descriptor
