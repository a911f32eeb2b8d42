import UtilityCss.Text.Words
/-!
# Stylesheet sources without comments and string contents

Braces and semicolons inside comments and strings do not structure a stylesheet. Before a stylesheet
is read its comments are removed and its strings are emptied. A comment that is not closed and a
string that is not closed stay as they are, and so does a string with an escaped line break.
-/

namespace UtilityCss.Stylesheet

/-- What follows the first `*/`. -/
def afterComment? : List CodePoint → Option (List CodePoint)
  | [] => none
  | .char '*' :: .char '/' :: rest => some rest
  | _ :: rest => afterComment? rest

theorem length_afterComment?_lt {cs rest : List CodePoint} (h : afterComment? cs = some rest) :
    rest.length < cs.length := by
  fun_induction afterComment? cs with
  | case1 => simp at h
  | case2 r =>
    simp only [Option.some.injEq] at h
    subst h
    simp only [List.length_cons]
    omega
  | case3 c r _ ih =>
    have := ih h
    simp only [List.length_cons]
    omega

/-- The source without its comments. -/
def stripComments : List CodePoint → List CodePoint
  | [] => []
  | .char '/' :: .char '*' :: rest =>
    match _h : afterComment? rest with
    | some behind => stripComments behind
    | none => '/' :: stripComments ('*' :: rest)
  | c :: rest => c :: stripComments rest
termination_by cs => cs.length
decreasing_by
  · have := length_afterComment?_lt _h
    simp only [List.length_cons]; omega
  · simp
  · simp

/-- Where no comment can begin, none is removed. -/
theorem stripComments_of_not_mem {cs : List CodePoint} (h : .char '/' ∉ cs) :
    stripComments cs = cs := by
  fun_induction stripComments cs with
  | case1 => rfl
  | case2 => simp at h
  | case3 => simp at h
  | case4 c rest _ ih => rw [ih (List.not_mem_of_not_mem_cons h)]

/-- What follows the closing quote of a string, from behind its opening quote. A backslash escapes
every character but a line break. -/
def afterString? (quote : CodePoint) : List CodePoint → Option (List CodePoint)
  | [] => none
  | [.char '\\'] => none
  | .char '\\' :: c :: rest => if c = '\n' then none else afterString? quote rest
  | c :: rest => if c = quote then some rest else afterString? quote rest

theorem length_afterString?_lt {quote : CodePoint} {cs rest : List CodePoint}
    (h : afterString? quote cs = some rest) : rest.length < cs.length := by
  fun_induction afterString? quote cs with
  | case1 => simp at h
  | case2 => simp at h
  | case3 => simp at h
  | case4 c r _ ih =>
    have := ih h
    simp only [List.length_cons]; omega
  | case5 =>
    simp only [Option.some.injEq] at h
    simp [h]
  | case6 c r _ _ _ ih =>
    have := ih h
    simp only [List.length_cons]; omega

/-- The source with empty strings in double quotes for its strings. -/
def emptyStrings : List CodePoint → List CodePoint
  | [] => []
  | c :: rest =>
    if c = '"' ∨ c = '\'' then
      match _h : afterString? c rest with
      | some behind => '"' :: '"' :: emptyStrings behind
      | none => c :: emptyStrings rest
    else c :: emptyStrings rest
termination_by cs => cs.length
decreasing_by
  · have := length_afterString?_lt _h
    simp only [List.length_cons]; omega
  · simp
  · simp

/-- Where there are no quotes, no string begins. -/
theorem emptyStrings_append {front : List CodePoint} (hdouble : .char '"' ∉ front)
    (hsingle : .char '\'' ∉ front) (cs : List CodePoint) :
    emptyStrings (front ++ cs) = front ++ emptyStrings cs := by
  induction front with
  | nil => rfl
  | cons c front ih =>
    rw [List.mem_cons, not_or] at hdouble hsingle
    rw [List.cons_append, emptyStrings, if_neg (not_or.2 ⟨Ne.symm hdouble.1, Ne.symm hsingle.1⟩),
      ih hdouble.2 hsingle.2, List.cons_append]

/-- Where there are no quotes, there are no strings. -/
theorem emptyStrings_of_not_mem {cs : List CodePoint} (hdouble : .char '"' ∉ cs)
    (hsingle : .char '\'' ∉ cs) : emptyStrings cs = cs := by
  have happend := emptyStrings_append hdouble hsingle []
  rwa [emptyStrings, List.append_nil] at happend

/-- The characters of a source that its structure is read from. -/
def significant (source : Text) : List CodePoint := emptyStrings (stripComments source.toList)

end UtilityCss.Stylesheet
