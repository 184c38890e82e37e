import Stencil.Rule

/-!
# When rules hold

Checking a rule looks for a reason why it fails. Here it is said what it takes for the rule to hold, in
terms of what is visible in a subject and of the values to which it is equal. Main statements:
`Subject.isBlank_iff` and `Subject.isAmong_iff`, by which the tests of the check decide these, and
`validate_eq_ok`, by which the check succeeds exactly if every rule holds.
-/

namespace Stencil

/-- Nothing visible is in the value: it is null, false, a text of white space, or an empty list or
object. -/
inductive Value.Blank : Value → Prop where
  | null : Blank .null
  | false : Blank (.bool false)
  | str {s : String} (h : ∀ c ∈ s.toList, Text.isBlankChar c = true) : Blank (.str s)
  | arr : Blank (.arr [])
  | obj : Blank (.obj [])

mutual

/-- The values are equal: they are of one kind and have equal parts. Doubles are equal as numbers. -/
inductive Value.Equals : Value → Value → Prop where
  | null : Value.Equals .null .null
  | bool (b : Bool) : Value.Equals (.bool b) (.bool b)
  | int (n : Int) : Value.Equals (.int n) (.int n)
  | float {x y : Float} (h : (x == y) = true) : Value.Equals (.float x) (.float y)
  | str (s : String) : Value.Equals (.str s) (.str s)
  | arr {xs ys : List Value} (h : Value.EqualItems xs ys) : Value.Equals (.arr xs) (.arr ys)
  | obj {xs ys : List (String × Value)} (h : Value.EqualFields xs ys) :
      Value.Equals (.obj xs) (.obj ys)

/-- The lists have equal items, one by one. -/
inductive Value.EqualItems : List Value → List Value → Prop where
  | nil : Value.EqualItems [] []
  | cons {v w : Value} {xs ys : List Value} (h : Value.Equals v w) (hrest : Value.EqualItems xs ys) :
      Value.EqualItems (v :: xs) (w :: ys)

/-- The objects have the same names with equal values, one by one. -/
inductive Value.EqualFields : List (String × Value) → List (String × Value) → Prop where
  | nil : Value.EqualFields [] []
  | cons {name : String} {v w : Value} {xs ys : List (String × Value)} (h : Value.Equals v w)
      (hrest : Value.EqualFields xs ys) : Value.EqualFields ((name, v) :: xs) ((name, w) :: ys)

end

/-- Nothing visible is there: what is there, if anything, is markup of white space or a blank value. -/
def Subject.Blank : Subject → Prop
  | .content m => ∀ markup ∈ m, ∀ c ∈ markup.html.toList, Text.isBlankChar c = true
  | .value v => ∀ value ∈ v, value.Blank

/-- What is there is equal to the value. Content is equal to the text that it shows. -/
def Subject.Equals : Subject → Value → Prop
  | .content m, a => ∃ markup ∈ m, a = .str markup.toText
  | .value v, a => ∃ value ∈ v, a.Equals value

/-- The subject is what the demand asks for. -/
def Demand.Met (s : Subject) : Demand → Prop
  | .presence => ¬ s.Blank
  | .absence => s.Blank
  | .inclusion allowed => ∃ a ∈ allowed, s.Equals a
  | .length least most => (∀ n ∈ least, n ≤ s.size) ∧ ∀ n ∈ most, s.size ≤ n

/-- The rule holds of attributes and content. -/
def Rule.Holds (attributes : Attributes) (content : Option Markup) (rule : Rule) : Prop :=
  rule.demand.Met (.named attributes content rule.name)

/-! ### Blank and equal values -/

namespace Value

/-- The check for blank values finds those in which nothing is visible. -/
theorem isBlank_iff {v : Value} : v.isBlank = true ↔ v.Blank := by
  constructor
  · intro h
    cases v with
    | null => exact .null
    | bool b =>
      cases b with
      | false => exact .false
      | true => cases h
    | int n => cases h
    | float x => cases h
    | str s => exact .str (List.all_eq_true.1 h)
    | arr items =>
      obtain rfl := List.isEmpty_iff.1 h
      exact .arr
    | obj fields =>
      obtain rfl := List.isEmpty_iff.1 h
      exact .obj
  · intro h
    cases h with
    | str h => exact List.all_eq_true.2 h
    | _ => rfl

mutual

/-- Values that are equal pass the comparison. -/
theorem Equals.same {v w : Value} : v.Equals w → v.same w = true
  | .null => rfl
  | .bool b => by simp [Value.same]
  | .int n => by simp [Value.same]
  | .float h => h
  | .str s => by simp [Value.same]
  | .arr h => h.sameItems
  | .obj h => h.sameFields

/-- Lists with equal items pass the comparison. -/
theorem EqualItems.sameItems {xs ys : List Value} : EqualItems xs ys → sameItems xs ys = true
  | .nil => rfl
  | .cons h hrest => by rw [Value.sameItems, h.same, hrest.sameItems, Bool.and_self]

/-- Objects with equal fields pass the comparison. -/
theorem EqualFields.sameFields {xs ys : List (String × Value)} :
    EqualFields xs ys → sameFields xs ys = true
  | .nil => rfl
  | .cons h hrest => by simp [Value.sameFields, h.same, hrest.sameFields]

end

mutual

-- Values of two kinds do not pass, which leaves one case for each kind.
/-- Values that pass the comparison are equal. -/
theorem equals_of_same : ∀ {v w : Value}, v.same w = true → v.Equals w
  | .null, .null, _ => .null
  | .bool a, .bool b, h => by
    obtain rfl : a = b := by simpa [same] using h
    exact .bool a
  | .int a, .int b, h => by
    obtain rfl : a = b := by simpa [same] using h
    exact .int a
  | .float x, .float y, h => .float h
  | .str s, .str t, h => by
    obtain rfl : s = t := by simpa [same] using h
    exact .str s
  | .arr xs, .arr ys, h => .arr (equalItems_of_sameItems h)
  | .obj xs, .obj ys, h => .obj (equalFields_of_sameFields h)

/-- Lists that pass the comparison have equal items. -/
theorem equalItems_of_sameItems :
    ∀ {xs ys : List Value}, sameItems xs ys = true → EqualItems xs ys
  | [], [], _ => .nil
  | v :: xs, w :: ys, h => by
    rw [sameItems, Bool.and_eq_true] at h
    exact .cons (equals_of_same h.1) (equalItems_of_sameItems h.2)

/-- Objects that pass the comparison have equal fields. -/
theorem equalFields_of_sameFields :
    ∀ {xs ys : List (String × Value)}, sameFields xs ys = true → EqualFields xs ys
  | [], [], _ => .nil
  | (name, v) :: xs, (other, w) :: ys, h => by
    rw [sameFields, Bool.and_eq_true, Bool.and_eq_true, beq_iff_eq] at h
    obtain ⟨⟨rfl, hv⟩, hrest⟩ := h
    exact .cons (equals_of_same hv) (equalFields_of_sameFields hrest)

end

/-- The comparison finds the values that are equal. -/
theorem same_iff {v w : Value} : v.same w = true ↔ v.Equals w :=
  ⟨equals_of_same, Equals.same⟩

/-- Only a text is equal to a text. -/
theorem equals_str {v : Value} {s : String} : v.Equals (.str s) ↔ v = .str s := by
  constructor
  · rintro ⟨⟩
    rfl
  · rintro rfl
    exact .str s

end Value

section Subjects

variable {s : Subject} {allowed : List Value}

/-- The check for blank subjects finds those in which nothing is visible. -/
theorem Subject.isBlank_iff : s.isBlank = true ↔ s.Blank := by
  cases s with
  | content m =>
    cases m with
    | none => simp [isBlank, Blank]
    | some markup => simp [isBlank, Blank, Markup.isBlank, Text.isBlank]
  | value v =>
    cases v with
    | none => simp [isBlank, Blank]
    | some value => simp [isBlank, Blank, Value.isBlank_iff]

/-- A subject is found among values exactly if it is equal to one of them. -/
theorem Subject.isAmong_iff : s.isAmong allowed = true ↔ ∃ a ∈ allowed, s.Equals a := by
  cases s with
  | content m =>
    cases m with
    | none => simp [isAmong, Equals]
    | some markup => simp [isAmong, Equals, Value.same_iff, Value.equals_str]
  | value v =>
    cases v with
    | none => simp [isAmong, Equals]
    | some value => simp [isAmong, Equals, Value.same_iff]

end Subjects

/-! ### Rules -/

/-- There is no reason for a failure exactly if the demand is met. -/
theorem Demand.check_eq_none {demand : Demand} {s : Subject} :
    demand.check s = none ↔ demand.Met s := by
  cases demand with
  | presence => simp [check, Met, ← Subject.isBlank_iff]
  | absence => simp [check, Met, ← Subject.isBlank_iff]
  | inclusion allowed => simp [check, Met, ← Subject.isAmong_iff]
  | length least most =>
    have hleast : least.filter (s.size < ·) = none ↔ ∀ n ∈ least, n ≤ s.size := by
      simp
    have hmost : most.filter (· < s.size) = none ↔ ∀ n ∈ most, s.size ≤ n := by
      simp
    rw [check, Met, ← hleast, ← hmost]
    -- A text that is too short is not checked for being too long.
    cases least.filter (s.size < ·) with
    | none => simp
    | some n => simp

/-- A rule has no failure exactly if it holds. -/
theorem Rule.failure?_eq_none {attributes : Attributes} {content : Option Markup} {rule : Rule} :
    rule.failure? attributes content = none ↔ rule.Holds attributes content := by
  rw [failure?, Option.map_eq_none_iff, Demand.check_eq_none, Holds]

/-- The check of rules succeeds exactly if every rule holds. -/
theorem validate_eq_ok {rules : List Rule} {attributes : Attributes} {content : Option Markup} :
    validate rules attributes content = .ok () ↔
      ∀ rule ∈ rules, rule.Holds attributes content := by
  have hnil : rules.filterMap (Rule.failure? attributes content) = [] ↔
      ∀ rule ∈ rules, rule.Holds attributes content := by
    simp only [List.filterMap_eq_nil_iff, Rule.failure?_eq_none]
  rw [← hnil, validate]
  cases rules.filterMap (Rule.failure? attributes content) with
  | nil => simp
  | cons failure failures => simp

end Stencil
