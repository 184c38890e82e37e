/-!
# Quoted strings

A quoted string runs from a quote to the next one that no backslash precedes. A backslash takes the
character after it along, whatever it is but a line feed. Main statement: reading the quoted form of a
text gives the text back.
-/

namespace Stencil.Quoted

/-- The characters up to the quote `q` that ends a string, and what follows from there on. If no quote
ends the string, what follows is empty or begins with the backslash that has nothing to take along. -/
def run (q : Char) : List Char → List Char × List Char
  | [] => ([], [])
  | '\\' :: c :: cs =>
    if c = '\n' then ([], '\\' :: c :: cs)
    else
      let (body, rest) := run q cs
      ('\\' :: c :: body, rest)
  | ['\\'] => ([], ['\\'])
  | c :: cs =>
    if c = q then ([], c :: cs)
    else
      let (body, rest) := run q cs
      (c :: body, rest)

/-- What stands between the quotes of a string, and what follows the string. -/
def body? (q : Char) (cs : List Char) : Option (List Char × List Char) :=
  match run q cs with
  | (body, c :: rest) => if c = q then some (body, rest) else none
  | (_, []) => none

/-- The text that a string's body stands for: `\n` and `\t` are the line feed and the tab, and any
other escaped character is itself. -/
def decode : List Char → List Char
  | '\\' :: c :: cs => (if c = 'n' then '\n' else if c = 't' then '\t' else c) :: decode cs
  | ['\\'] => []
  | c :: cs => c :: decode cs
  | [] => []

/-- A body, for double quotes, that stands for the text. -/
def encode : List Char → List Char
  | [] => []
  | c :: cs => if c = '\\' ∨ c = '"' then '\\' :: c :: encode cs else c :: encode cs

/-- Nothing is lost: the two parts of a run make up its input. -/
theorem run_append (q : Char) (cs : List Char) : (run q cs).1 ++ (run q cs).2 = cs := by
  fun_induction run q cs <;> simp_all

/-- The parts that a run gave make up its input. -/
theorem append_of_run {q : Char} {cs body rest : List Char} (h : run q cs = (body, rest)) :
    body ++ rest = cs := by
  rw [← run_append q cs, h]

/-- What follows a run is no longer than its input. -/
theorem length_run_le (q : Char) (cs : List Char) : (run q cs).2.length ≤ cs.length := by
  have h := congrArg List.length (run_append q cs)
  rw [List.length_append] at h
  omega

/-- What follows the character at which a run stops is shorter than its input. -/
theorem length_lt_of_run {q c : Char} {cs body rest : List Char} (h : run q cs = (body, c :: rest)) :
    rest.length < cs.length + 1 := by
  have := length_run_le q cs
  rw [h, List.length_cons] at this
  omega

/-- A string's body, its quote and what follows make up the input. -/
theorem append_of_body? {q : Char} {cs body rest : List Char} (h : body? q cs = some (body, rest)) :
    body ++ q :: rest = cs := by
  unfold body? at h
  split at h
  · rename_i b c r e
    split at h
    · rename_i hc
      simp only [Option.some.injEq, Prod.mk.injEq] at h
      rw [← append_of_run e, ← h.1, ← h.2, hc]
    · simp at h
  · simp at h

/-- A text, encoded, runs up to the quote that is put behind it. -/
theorem run_encode (s rest : List Char) :
    run '"' (encode s ++ '"' :: rest) = (encode s, '"' :: rest) := by
  induction s with
  | nil => simp [encode, run]
  | cons c cs ih =>
    by_cases h : c = '\\' ∨ c = '"'
    · have hc : c ≠ '\n' := by
        rintro rfl
        simp at h
      simp [encode, h, run, hc, ih]
    · have hb : c ≠ '\\' := fun e => h (.inl e)
      have hq : c ≠ '"' := fun e => h (.inr e)
      simp [encode, run, hb, hq, ih]

/-- An encoded text between quotes is a string. -/
theorem body?_encode (s rest : List Char) :
    body? '"' (encode s ++ '"' :: rest) = some (encode s, rest) := by
  simp [body?, run_encode]

/-- Reading the quoted form of a text gives the text back. -/
theorem decode_encode (s : List Char) : decode (encode s) = s := by
  induction s with
  | nil => rfl
  | cons c cs ih =>
    by_cases h : c = '\\' ∨ c = '"'
    · rcases h with rfl | rfl <;> simp [encode, decode, ih]
    · have hb : c ≠ '\\' := fun e => h (.inl e)
      have hq : c ≠ '"' := fun e => h (.inr e)
      simp [encode, decode, hb, hq, ih]

end Stencil.Quoted
