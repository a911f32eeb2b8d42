import UtilityCss.Proofs.Stylesheet.Comment
import UtilityCss.Sources
import UtilityCss.Stylesheet.Parser
import UtilityCss.Stylesheet.Selector
/-!
# The contents of strings

What stands in a string has nothing to do with the structure of a stylesheet, so a stylesheet should
be read in the same way whatever it is. Comments are removed before strings are looked for, though.
If the contents of a string open a comment that is closed behind the string, then the comment takes
away the closing quote, and what is left of the string ends somewhere else or not at all.

Other contents are not seen. Of contents from which a comment reaches out only this fact is seen, as
long as there is another quote behind the comment that closes the string.
-/

namespace UtilityCss.Stylesheet

open ClassAttribute (isQuote)

variable {front contents contents' rest : Text} {cs behind : List CodePoint} {quote : CodePoint}

/-! ## Where strings end -/

theorem afterString?_cons {c : CodePoint} (hc : c ≠ '\\') :
    afterString? quote (c :: cs) = if c = quote then some cs else afterString? quote cs := by
  rw [afterString?.eq_def]
  split
  · contradiction
  · next heq => exact absurd (List.cons.inj heq).1 hc
  · next heq => exact absurd (List.cons.inj heq).1 hc
  · next heq =>
    obtain ⟨rfl, rfl⟩ := List.cons.inj heq
    rfl

/-- Characters that neither close a string nor escape others belong to its contents. -/
theorem afterString?_append {inside : List CodePoint} (h : ∀ c ∈ inside, c ≠ quote ∧ c ≠ '\\') :
    afterString? quote (inside ++ cs) = afterString? quote cs := by
  induction inside with
  | nil => rfl
  | cons c inside ih =>
    rw [List.forall_mem_cons] at h
    rw [List.cons_append, afterString?_cons h.1.2, if_neg h.1.1, ih h.2]

theorem emptyStrings_closed (h : afterString? '"' cs = some behind) :
    emptyStrings (.char '"' :: cs) = .char '"' :: .char '"' :: emptyStrings behind := by
  rw [emptyStrings, if_pos (.inl rfl)]
  split
  · next heq => rw [Option.some.inj (h.symm.trans heq)]
  · next heq => simp [h] at heq

/-! ## Comments that reach out of a string -/

/-- A source with a string in it. -/
def withString (front contents rest : Text) : Text := front ++ "\"" ++ contents ++ "\"" ++ rest

/-- A comment that is opened in the contents of a string is closed behind the string. -/
def ReachesOut (contents rest : Text) : Prop :=
  leavesCommentOpen contents.toList = true ∧ closesComment rest.toList = true

/-- A string whose closing quote was in a comment is closed by another quote behind the comment. -/
def ClosedBehindComment (rest : Text) : Prop :=
  ∃ behind, afterComment? rest.toList = some behind ∧
    (afterString? '"' (stripComments behind)).isSome = true

/-- The structure of the front of a source is read before the string is looked at. -/
theorem significant_withString (hfront : ∀ c ∈ front.toList, isQuote c = false)
    (hopens : NoComment front.toList) : significant (withString front contents rest) =
      front.toList ++
        emptyStrings
          (.char '"' :: stripComments (contents.toList ++ .char '"' :: rest.toList)) := by
  have hnot (c : CodePoint) (hc : isQuote c = true) : c ∉ front.toList := by
    intro hmem
    simp [hfront c hmem] at hc
  have hsource : (withString front contents rest).toList =
      front.toList ++ .char '"' :: (contents.toList ++ .char '"' :: rest.toList) := by
    simp [withString]
  have hjoin : Unjoined front.toList (.char '"' :: (contents.toList ++ .char '"' :: rest.toList)) :=
    unjoined_of_head? (by simp)
  rw [significant, hsource, stripComments_append hjoin (by simp [hopens.leavesCommentOpen]),
    hopens.stripComments, stripComments_cons (by simp),
    emptyStrings_append (hnot '"' rfl) (hnot '\'' rfl)]

/-- If no comment reaches out of a string, the string is emptied. -/
theorem significant_of_not_reachesOut (hfront : ∀ c ∈ front.toList, isQuote c = false)
    (hopens : NoComment front.toList) (hcontents : ∀ c ∈ contents.toList, c ≠ '"' ∧ c ≠ '\\')
    (hreach : ¬ReachesOut contents rest) : significant (withString front contents rest) =
      front.toList ++ .char '"' :: .char '"' :: significant rest := by
  have hquote : closesComment (.char '"' :: rest.toList) = closesComment rest.toList := by
    rw [closesComment, afterComment?_cons (by simp), closesComment]
  have hopen : leavesCommentOpen contents.toList = true →
      closesComment (.char '"' :: rest.toList) = false := by
    intro hopen
    rw [hquote]
    exact Bool.eq_false_iff.2 fun hclose => hreach ⟨hopen, hclose⟩
  -- What is left of the contents has no quotes and no backslashes either.
  have hkept : ∀ c ∈ stripComments contents.toList, c ≠ '"' ∧ c ≠ '\\' :=
    fun c hc => hcontents c ((stripComments_sublist _).subset hc)
  have hend : afterString? '"'
      (stripComments contents.toList ++ .char '"' :: stripComments rest.toList) =
      some (stripComments rest.toList) := by
    rw [afterString?_append hkept, afterString?_cons (by decide), if_pos rfl]
  rw [significant_withString hfront hopens,
    stripComments_append (unjoined_of_head? (by simp)) hopen, stripComments_cons (by simp),
    emptyStrings_closed hend, significant]

/-- If a comment reaches out of a string, the string goes on behind the comment. -/
theorem significant_of_reachesOut {ending : List CodePoint}
    (hfront : ∀ c ∈ front.toList, isQuote c = false) (hopens : NoComment front.toList)
    (hcontents : ∀ c ∈ contents.toList, c ≠ '"' ∧ c ≠ '\\')
    (hopen : leavesCommentOpen contents.toList = true)
    (hbehind : afterComment? rest.toList = some behind)
    (hending : afterString? '"' (stripComments behind) = some ending) :
    significant (withString front contents rest) =
      front.toList ++ .char '"' :: .char '"' :: emptyStrings ending := by
  have hquote : afterComment? (.char '"' :: rest.toList) = some behind := by
    rw [afterComment?_cons (by simp), hbehind]
  obtain ⟨kept, hkept, hstrip⟩ := stripComments_crossing (unjoined_of_head? (by simp)) hopen hquote
  have hend : afterString? '"' (kept ++ stripComments behind) = some ending := by
    rw [afterString?_append fun c hc => hcontents c (hkept.subset hc), hending]
  rw [significant_withString hfront hopens, hstrip, emptyStrings_closed hend]

/-! ## Reading -/

theorem read_eq_of_significant_eq {s t : Text} (h : significant s = significant t) :
    read s = read t := by
  rw [read, parse, h, ← parse, ← read]

/-- **The contents of a string do not matter**, unless a comment reaches out of the contents in one
of the two sources and not in the other, or reaches out in both and the string is not closed behind
it. -/
theorem read_withString_eq (hfront : ∀ c ∈ front.toList, isQuote c = false)
    (hopens : NoComment front.toList) (hcontents : ∀ c ∈ contents.toList, c ≠ '"' ∧ c ≠ '\\')
    (hcontents' : ∀ c ∈ contents'.toList, c ≠ '"' ∧ c ≠ '\\')
    (hreach : ReachesOut contents rest ↔ ReachesOut contents' rest)
    (hclosed : ReachesOut contents rest → ClosedBehindComment rest) :
    read (withString front contents rest) = read (withString front contents' rest) ∧
      (read (withString front contents rest)).map classNames =
        (read (withString front contents' rest)).map classNames := by
  have hsame : significant (withString front contents rest) =
      significant (withString front contents' rest) := by
    by_cases hout : ReachesOut contents rest
    · obtain ⟨behind, hbehind, hending⟩ := hclosed hout
      obtain ⟨ending, hending⟩ := Option.isSome_iff_exists.1 hending
      rw [significant_of_reachesOut hfront hopens hcontents hout.1 hbehind hending,
        significant_of_reachesOut hfront hopens hcontents' (hreach.1 hout).1 hbehind hending]
    · rw [significant_of_not_reachesOut hfront hopens hcontents hout,
        significant_of_not_reachesOut hfront hopens hcontents' (mt hreach.2 hout)]
  have hread := read_eq_of_significant_eq hsame
  exact ⟨hread, by rw [hread]⟩

/-- A string with a brace and a whole comment in it is read like an empty one. So is a string out of
which a comment reaches, like another one, because there is one more quote behind the comment. -/
theorem read_withString_awkward :
    read (withString ".a\x7b b: " "\x7d /* ; */ \x7b" "; /* \" */ \x7d") =
        read (withString ".a\x7b b: " "" "; /* \" */ \x7d") ∧
      read (withString ".a\x7b b: " "\x7d /* ;" "*/ \"; \x7d") =
        read (withString ".a\x7b b: " "/*" "*/ \"; \x7d") := by
  have hopens : NoComment (Text.toList ".a\x7b b: ") := by
    unfold NoComment
    decide +kernel
  have hinside : ¬ReachesOut "\x7d /* ; */ \x7b" "; /* \" */ \x7d" ∧
      ¬ReachesOut "" "; /* \" */ \x7d" := by
    unfold ReachesOut
    decide +kernel
  have hout : ReachesOut "\x7d /* ;" "*/ \"; \x7d" ∧ ReachesOut "/*" "*/ \"; \x7d" := by
    unfold ReachesOut
    decide +kernel
  have hclosed : ClosedBehindComment "*/ \"; \x7d" :=
    ⟨Text.toList " \"; \x7d", by decide, by decide +kernel⟩
  exact ⟨(read_withString_eq (by decide) hopens (by decide) (by decide)
      (iff_of_false hinside.1 hinside.2) fun h => absurd h hinside.1).1,
    (read_withString_eq (by decide) hopens (by decide) (by decide)
      (iff_of_true hout.1 hout.2) fun _ => hclosed).1⟩

/-- **The contents of a string can matter.** In the first source a comment reaches from one string
into the other, so the second block is lost. -/
theorem contents_can_matter : ¬∀ front contents contents' rest : Text,
    (∀ c ∈ front.toList, isQuote c = false) → NoComment front.toList →
    (∀ c ∈ contents.toList ++ contents'.toList, isQuote c = false ∧ c ≠ '\\' ∧ c ≠ '\n') →
    (read (withString front contents rest)).toOption =
      (read (withString front contents' rest)).toOption := by
  intro hclaim
  have hsame := hclaim ".a\x7bb:" "/*" "" "\x7d.c\x7bd:\"*/\"\x7d" (by decide)
    (by unfold NoComment; decide +kernel) (by decide)
  have hone :
      (read (withString ".a\x7bb:" "/*" "\x7d.c\x7bd:\"*/\"\x7d")).toOption.map List.length =
      some 1 := by decide +kernel
  have htwo : (read (withString ".a\x7bb:" "" "\x7d.c\x7bd:\"*/\"\x7d")).toOption.map List.length =
      some 2 := by decide +kernel
  rw [hsame, htwo] at hone
  contradiction

end UtilityCss.Stylesheet
