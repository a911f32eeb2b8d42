import UtilityCss.OrderedMap
import UtilityCss.Text.Basic
import UtilityCss.Text.Words
/-!
# Class names in source files

Which class names a source file uses, and which of them are in use in all.
-/

namespace UtilityCss.ClassAttribute

/-! ## Class attributes

Source files name their classes in attributes: `class="..."` or `className="..."`, with quotes of
either kind on either side. The search is textual, goes from left to right, and continues behind the
closing quote of an attribute that it has found, so attributes inside comments and strings count
too. -/

/-- The quotes around the value of an attribute. -/
def isQuote (c : CodePoint) : Bool := c == '"' || c == '\''

/-- What follows the name of a class attribute and its equals sign. -/
def afterName? (cs : List CodePoint) : Option (List CodePoint) :=
  match Text.after? (Text.toList "class") cs with
  | none => none
  | some rest => Text.after? ['='] ((Text.after? (Text.toList "Name") rest).getD rest)

/-- The value of the attribute at the start of a text, and what follows its closing quote. A value
is not empty and runs up to the next quote. -/
def attribute? (cs : List CodePoint) : Option (List CodePoint × List CodePoint) :=
  match afterName? cs with
  | none => none
  | some [] => none
  | some (quote :: rest) =>
    match rest.dropWhile (!isQuote ·) with
    | [] => none
    | _ :: behind =>
      let value := rest.takeWhile (!isQuote ·)
      if isQuote quote && !value.isEmpty then some (value, behind) else none

/-- The value of an attribute runs from quote to quote. -/
theorem attribute?_of_afterName? {cs value rest : List CodePoint} {opening closing : CodePoint}
    (h : afterName? cs = some (opening :: (value ++ closing :: rest)))
    (hopening : isQuote opening = true) (hclosing : isQuote closing = true) (hne : value ≠ [])
    (hquotes : ∀ c ∈ value, isQuote c = false) :
    attribute? cs = some (value, rest) := by
  have hinside : ∀ c ∈ value, (!isQuote c) = true := by simpa using hquotes
  have hdrop : (closing :: rest).dropWhile (!isQuote ·) = closing :: rest :=
    List.dropWhile_cons_of_neg (by simp [hclosing])
  have htake : (closing :: rest).takeWhile (!isQuote ·) = [] :=
    List.takeWhile_cons_of_neg (by simp [hclosing])
  rw [attribute?, h]
  dsimp only
  rw [List.dropWhile_append_of_pos hinside, List.takeWhile_append_of_pos hinside, hdrop, htake,
    List.append_nil]
  simp [hopening, hne]

theorem length_afterName?_lt {cs rest : List CodePoint} (h : afterName? cs = some rest) :
    rest.length < cs.length := by
  unfold afterName? at h
  split at h
  · simp at h
  · next r hr =>
    have hcs := Text.after?_eq_some_iff.1 hr
    have hlen : r.length < cs.length := by simp only [hcs, List.length_append]; simp
    have hgetD : ((Text.after? (Text.toList "Name") r).getD r).length ≤ r.length := by
      cases hn : Text.after? (Text.toList "Name") r with
      | none => simp
      | some r' =>
        rw [Option.getD_some, Text.after?_eq_some_iff.1 hn, List.length_append]
        omega
    have hrest := congrArg List.length (Text.after?_eq_some_iff.1 h)
    simp only [List.length_append] at hrest
    omega

theorem length_attribute?_lt {cs value behind : List CodePoint}
    (h : attribute? cs = some (value, behind)) : behind.length < cs.length := by
  unfold attribute? at h
  split at h
  · simp at h
  · simp at h
  · next quote rest hrest =>
    have hlt := length_afterName?_lt hrest
    split at h
    · simp at h
    · next hdrop =>
      have hsub := (List.dropWhile_sublist (!isQuote ·) : List.Sublist _ rest).length_le
      rw [hdrop] at hsub
      simp only [Option.ite_none_right_eq_some, Option.some.injEq, Prod.mk.injEq] at h
      simp only [List.length_cons] at hlt hsub
      rw [← h.2.2]
      omega

/-- The values of the attributes of a text, from left to right. -/
def values (cs : List CodePoint) : List (List CodePoint) :=
  match _found : attribute? cs with
  | some (value, behind) => value :: values behind
  | none =>
    match cs with
    | [] => []
    | _ :: rest => values rest
termination_by cs.length
decreasing_by
  · exact length_attribute?_lt _found
  · simp

theorem values_of_attribute? {cs value behind : List CodePoint}
    (h : attribute? cs = some (value, behind)) : values cs = value :: values behind := by
  rw [values]
  split
  · next found behind' hfound =>
    obtain ⟨rfl, rfl⟩ := Prod.mk.inj (Option.some.inj (h.symm.trans hfound))
    rfl
  · next hnone =>
    rw [h] at hnone
    contradiction

theorem values_cons_of_none {c : CodePoint} {cs : List CodePoint}
    (h : attribute? (c :: cs) = none) : values (c :: cs) = values cs := by
  rw [values]
  split
  · next found behind hfound =>
    rw [h] at hfound
    contradiction
  · rfl

/-- The value of an attribute ends before the next quote. -/
theorem not_isQuote_of_attribute? {cs value behind : List CodePoint}
    (h : attribute? cs = some (value, behind)) : ∀ c ∈ value, isQuote c = false := by
  unfold attribute? at h
  split at h
  · contradiction
  · contradiction
  · next quote rest _ =>
    split at h
    · contradiction
    · simp only [Option.ite_none_right_eq_some, Option.some.injEq, Prod.mk.injEq] at h
      obtain ⟨-, rfl, -⟩ := h
      intro c hc
      simpa using List.all_eq_true.1 (List.all_takeWhile (p := (!isQuote ·)) (l := rest)) c hc

theorem not_isQuote_of_mem_values {value cs : List CodePoint} (h : value ∈ values cs) :
    ∀ c ∈ value, isQuote c = false := by
  fun_induction values cs with
  | case1 cs value' behind hfound ih =>
    rcases List.mem_cons.1 h with rfl | h
    · exact not_isQuote_of_attribute? hfound
    · exact ih h
  | case2 => simp at h
  | case3 _ _ _ ih => exact ih h

/-- The class names of a source text in the order in which they first occur. -/
def classNames (content : Text) : List Text :=
  ((values content.toList).flatMap fun v => (Text.words v).map Text.ofList).eraseDups

/-- The class names of a text are the words of its attributes. -/
theorem mem_classNames {name content : Text} : name ∈ classNames content ↔
    ∃ value ∈ values content.toList, ∃ word ∈ Text.words value, Text.ofList word = name := by
  simp only [classNames, List.mem_eraseDups, List.mem_flatMap, List.mem_map]

/-- A source text that is one attribute has the words of its value for class names. -/
theorem classNames_attribute {value : Text} (hne : value.toList ≠ [])
    (hquotes : ∀ c ∈ value.toList, isQuote c = false) :
    classNames ("class=\"" ++ value ++ "\"") =
      ((Text.words value.toList).map Text.ofList).eraseDups := by
  have hname : afterName? ("class=\"" ++ value ++ "\"" : Text).toList =
      some (.char '"' :: (value.toList ++ .char '"' :: [])) := rfl
  have hfound := attribute?_of_afterName? hname (by decide) (by decide) hne hquotes
  have hend : values [] = [] := by
    rw [values]
    rfl
  rw [classNames, values_of_attribute? hfound, hend, List.flatMap_singleton]

/-- A class name is a word without quotes. -/
theorem of_mem_classNames {name content : Text} (h : name ∈ classNames content) :
    name.toList ≠ [] ∧ ∀ c ∈ name.toList, Text.isBlank c = false ∧ isQuote c = false := by
  obtain ⟨value, hvalue, word, hword, rfl⟩ := mem_classNames.1 h
  obtain ⟨hne, hchars⟩ := Text.mem_words hword
  exact ⟨hne, fun c hc => ⟨(hchars c hc).1, not_isQuote_of_mem_values hvalue c (hchars c hc).2⟩⟩

end UtilityCss.ClassAttribute

/-! ## Usage index

The usage index knows which class names each tracked source file uses. Scanning a file again
replaces its names and keeps its place; a file that was removed and comes back is last. The order of
files and of the names in them is the order of the rules in the generated stylesheet. -/

namespace UtilityCss

/-- The distinct class names of each tracked file. -/
structure UsageIndex where
  files : OrderedMap Text (List Text)

namespace UsageIndex

/-- The index that tracks no file. -/
def empty : UsageIndex := ⟨.empty⟩

/-- Sets the class names of a file, whatever they were before. -/
def replace (u : UsageIndex) (path : Text) (classes : List Text) : UsageIndex :=
  ⟨u.files.insert path classes.eraseDups⟩

/-- Whether a file is tracked. -/
def tracks (u : UsageIndex) (path : Text) : Bool := u.files.contains path

/-- Forgets a file. -/
def remove (u : UsageIndex) (path : Text) : UsageIndex := ⟨u.files.erase path⟩

/-- The class names of a file, none if it is not tracked. -/
def classesFor (u : UsageIndex) (path : Text) : List Text := (u.files.get? path).getD []

/-- The class names of all files in the order in which they first occur. -/
def allClasses (u : UsageIndex) : List Text := u.files.values.flatten.eraseDups

/-- The tracked files. -/
def paths (u : UsageIndex) : List Text := u.files.keys

/-- The number of tracked files. -/
def size (u : UsageIndex) : Nat := u.files.size

/-- A short description of the index. -/
def summary (u : UsageIndex) : Text := s!"UsageIndex(files={u.size})"

end UsageIndex

end UtilityCss
