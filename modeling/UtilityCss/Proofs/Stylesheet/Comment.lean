import UtilityCss.Stylesheet.Source
/-!
# Comments across pieces of a text

Removing comments goes from left to right, so what becomes of a piece of a text depends on what
stands in front of it and behind it: a comment that is opened in one piece may be closed in a later
one. Pieces are independent if no comment reaches from one into the next, and then comments are
removed piece by piece.
-/

namespace UtilityCss.Stylesheet

variable {cs rest behind : List CodePoint}

/-- Whether a comment is open at the end of a text, which was opened in the text. -/
def leavesCommentOpen : List CodePoint → Bool
  | [] => false
  | .char '/' :: .char '*' :: rest =>
    match _h : afterComment? rest with
    | some behind => leavesCommentOpen behind
    | none => true
  | _ :: rest => leavesCommentOpen rest
termination_by cs => cs.length
decreasing_by
  · have := length_afterComment?_lt _h
    simp only [List.length_cons]; omega
  · simp

/-- Whether an open comment would be closed in a text. -/
def closesComment (cs : List CodePoint) : Bool := (afterComment? cs).isSome

theorem exists_of_afterComment? (h : afterComment? cs = some behind) :
    ∃ inside, cs = inside ++ .char '*' :: .char '/' :: behind := by
  fun_induction afterComment? cs with
  | case1 => simp at h
  | case2 rest => exact ⟨[], by simpa using h⟩
  | case3 c rest _ ih =>
    obtain ⟨inside, hinside⟩ := ih h
    exact ⟨c :: inside, by rw [hinside, List.cons_append]⟩

/-- No comment is opened or closed by the last character of one piece and the first of the next. -/
def Unjoined (cs rest : List CodePoint) : Prop :=
  ∀ c ∈ cs.getLast?, ∀ d ∈ rest.head?, ¬(c = '/' ∧ d = '*') ∧ ¬(c = '*' ∧ d = '/')

theorem Unjoined.tail {c : CodePoint} (h : Unjoined (c :: cs) rest) : Unjoined cs rest := by
  intro d hd
  cases cs with
  | nil => simp at hd
  | cons e cs => exact h d (by simpa using hd)

theorem Unjoined.of_append {front : List CodePoint} (h : Unjoined (front ++ cs) rest) :
    Unjoined cs rest := by
  induction front with
  | nil => exact h
  | cons c front ih => exact ih h.tail

theorem unjoined_of_getLast? (h : ∀ c ∈ cs.getLast?, c ≠ '/' ∧ c ≠ '*') : Unjoined cs rest :=
  fun c hc _ _ => ⟨fun hjoin => (h c hc).1 hjoin.1, fun hjoin => (h c hc).2 hjoin.1⟩

theorem unjoined_of_head? (h : ∀ c ∈ rest.head?, c ≠ '/' ∧ c ≠ '*') : Unjoined cs rest :=
  fun _ _ d hd => ⟨fun hjoin => (h d hd).2 hjoin.2, fun hjoin => (h d hd).1 hjoin.2⟩

theorem Unjoined.not_opens {c : CodePoint} (h : Unjoined [c] rest) :
    ¬(c = '/' ∧ rest.head? = some (.char '*')) :=
  fun hjoin => (h c rfl _ hjoin.2).1 ⟨hjoin.1, rfl⟩

theorem Unjoined.not_closes {c : CodePoint} (h : Unjoined [c] rest) :
    ¬(c = '*' ∧ rest.head? = some (.char '/')) :=
  fun hjoin => (h c rfl _ hjoin.2).2 ⟨hjoin.1, rfl⟩

/-! ## Closing a comment -/

theorem afterComment?_cons {c : CodePoint} (h : ¬(c = '*' ∧ cs.head? = some (.char '/'))) :
    afterComment? (c :: cs) = afterComment? cs := by
  rw [afterComment?.eq_def]
  split
  · contradiction
  · next heq =>
    obtain ⟨rfl, rfl⟩ := List.cons.inj heq
    exact absurd ⟨rfl, rfl⟩ h
  · next heq =>
    obtain ⟨rfl, rfl⟩ := List.cons.inj heq
    rfl

theorem afterComment?_append (h : afterComment? cs = some behind) :
    afterComment? (cs ++ rest) = some (behind ++ rest) := by
  fun_induction afterComment? cs with
  | case1 => simp at h
  | case2 front => simpa [afterComment?] using h
  | case3 c front hne ih =>
    -- The character behind `c` is one of the first piece, since a comment is closed there.
    rw [List.cons_append, afterComment?_cons]
    · exact ih h
    · cases front with
      | nil => simp [afterComment?] at h
      | cons d front => simpa using fun hc hd => hne front hc (by rw [hd])

theorem afterComment?_append_of_none (hjoin : Unjoined cs rest) (h : afterComment? cs = none) :
    afterComment? (cs ++ rest) = afterComment? rest := by
  fun_induction afterComment? cs with
  | case1 => rfl
  | case2 front => simp at h
  | case3 c front hne ih =>
    rw [List.cons_append, afterComment?_cons]
    · exact ih hjoin.tail h
    · cases front with
      | nil => exact hjoin.not_closes
      | cons d front => simpa using fun hc hd => hne front hc (by rw [hd])

/-- Two pieces close a comment if one of them does. -/
theorem closesComment_append (hjoin : Unjoined cs rest) :
    closesComment (cs ++ rest) = (closesComment cs || closesComment rest) := by
  unfold closesComment
  cases h : afterComment? cs with
  | none => rw [afterComment?_append_of_none hjoin h, Option.isSome_none, Bool.false_or]
  | some behind => rw [afterComment?_append h, Option.isSome_some, Option.isSome_some, Bool.true_or]

/-! ## Removing comments -/

theorem stripComments_cons {c : CodePoint} (h : ¬(c = '/' ∧ cs.head? = some (.char '*'))) :
    stripComments (c :: cs) = c :: stripComments cs := by
  rw [stripComments.eq_def]
  split
  · contradiction
  · next heq =>
    obtain ⟨rfl, rfl⟩ := List.cons.inj heq
    exact absurd ⟨rfl, rfl⟩ h
  · next heq =>
    obtain ⟨rfl, rfl⟩ := List.cons.inj heq
    rfl

theorem leavesCommentOpen_cons {c : CodePoint} (h : ¬(c = '/' ∧ cs.head? = some (.char '*'))) :
    leavesCommentOpen (c :: cs) = leavesCommentOpen cs := by
  rw [leavesCommentOpen.eq_def]
  split
  · contradiction
  · next heq =>
    obtain ⟨rfl, rfl⟩ := List.cons.inj heq
    exact absurd ⟨rfl, rfl⟩ h
  · next heq =>
    obtain ⟨rfl, rfl⟩ := List.cons.inj heq
    rfl

theorem stripComments_closed (h : afterComment? cs = some behind) :
    stripComments (.char '/' :: .char '*' :: cs) = stripComments behind := by
  rw [stripComments]
  split
  · next heq => rw [Option.some.inj (h.symm.trans heq)]
  · next heq => simp [h] at heq

theorem stripComments_unclosed (h : afterComment? cs = none) :
    stripComments (.char '/' :: .char '*' :: cs) =
      .char '/' :: stripComments (.char '*' :: cs) := by
  rw [stripComments]
  split
  · next heq => simp [h] at heq
  · rfl

theorem leavesCommentOpen_closed (h : afterComment? cs = some behind) :
    leavesCommentOpen (.char '/' :: .char '*' :: cs) = leavesCommentOpen behind := by
  rw [leavesCommentOpen]
  split
  · next heq => rw [Option.some.inj (h.symm.trans heq)]
  · next heq => simp [h] at heq

theorem leavesCommentOpen_unclosed (h : afterComment? cs = none) :
    leavesCommentOpen (.char '/' :: .char '*' :: cs) = true := by
  rw [leavesCommentOpen]
  split
  · next heq => simp [h] at heq
  · rfl

/-- Nothing but what stands in a text is left of it, in its order. -/
theorem stripComments_sublist (cs : List CodePoint) : (stripComments cs).Sublist cs := by
  fun_induction stripComments cs with
  | case1 => exact .slnil
  | case2 rest behind hbehind ih =>
    obtain ⟨inside, rfl⟩ := exists_of_afterComment? hbehind
    exact (((ih.cons _).cons _).trans (List.sublist_append_right inside _)).cons _ |>.cons _
  | case3 rest hbehind ih => exact ih.cons_cons _
  | case4 c rest _ ih => exact ih.cons_cons _

/-- Comments are removed from two pieces one after the other, unless a comment that is opened in the
first is closed in the second. -/
theorem stripComments_append (hjoin : Unjoined cs rest)
    (hopen : leavesCommentOpen cs = true → closesComment rest = false) :
    stripComments (cs ++ rest) = stripComments cs ++ stripComments rest := by
  fun_induction stripComments cs with
  | case1 => rfl
  | case2 front behind hbehind ih =>
    obtain ⟨inside, rfl⟩ := exists_of_afterComment? hbehind
    rw [leavesCommentOpen_closed hbehind] at hopen
    rw [List.cons_append, List.cons_append, stripComments_closed (afterComment?_append hbehind)]
    exact ih (hjoin.tail.tail.of_append.tail.tail) hopen
  | case3 front hbehind ih =>
    -- The comment is open to the end, so nothing behind it closes a comment.
    have hrest := hopen (leavesCommentOpen_unclosed hbehind)
    have hnone : afterComment? (front ++ rest) = none := by
      rw [afterComment?_append_of_none hjoin.tail.tail hbehind]
      simpa [closesComment] using hrest
    rw [List.cons_append, List.cons_append, stripComments_unclosed hnone, List.cons_append]
    exact congrArg _ (ih hjoin.tail fun _ => hrest)
  | case4 c front hne ih =>
    have hplain : ¬(c = '/' ∧ front.head? = some (.char '*')) := by
      rintro ⟨rfl, hhead⟩
      obtain ⟨tail, rfl⟩ := List.head?_eq_some_iff.1 hhead
      exact hne tail rfl rfl
    rw [leavesCommentOpen_cons hplain] at hopen
    rw [List.cons_append, stripComments_cons, ih hjoin.tail hopen, List.cons_append]
    cases front with
    | nil => exact hjoin.not_opens
    | cons d front => simpa using hplain

/-- A comment that is opened in one piece and closed in the next takes away what stands between. -/
theorem stripComments_crossing (hjoin : Unjoined cs rest) (hopen : leavesCommentOpen cs = true)
    (hrest : afterComment? rest = some behind) :
    ∃ kept, kept.Sublist cs ∧ stripComments (cs ++ rest) = kept ++ stripComments behind := by
  fun_induction leavesCommentOpen cs with
  | case1 => contradiction
  | case2 front inner hinner ih =>
    obtain ⟨inside, rfl⟩ := exists_of_afterComment? hinner
    obtain ⟨kept, hkept, hstrip⟩ := ih hjoin.tail.tail.of_append.tail.tail hopen
    refine ⟨kept, hkept.trans ?_, ?_⟩
    · exact (((List.sublist_cons_self _ _).trans (List.sublist_cons_self _ _)).trans
        (List.sublist_append_right inside _)).cons _ |>.cons _
    · rw [List.cons_append, List.cons_append, stripComments_closed (afterComment?_append hinner),
        hstrip]
  | case3 front hnone =>
    -- This comment is the open one: all that is left of the first piece stands in front of it.
    refine ⟨[], List.nil_sublist _, ?_⟩
    rw [← afterComment?_append_of_none hjoin.tail.tail hnone] at hrest
    exact stripComments_closed hrest
  | case4 c front hne ih =>
    obtain ⟨kept, hkept, hstrip⟩ := ih hjoin.tail hopen
    refine ⟨c :: kept, hkept.cons_cons c, ?_⟩
    rw [List.cons_append, stripComments_cons, hstrip, List.cons_append]
    cases front with
    | nil => exact hjoin.not_opens
    | cons d front => simpa using fun hc hd => hne front hc (by rw [hd])

/-! ## Texts that open no comment -/

/-- No comment is opened in a text. -/
def NoComment (cs : List CodePoint) : Prop := ¬[.char '/', .char '*'] <:+: cs

theorem NoComment.tail {c : CodePoint} (h : NoComment (c :: cs)) : NoComment cs :=
  fun hin => h (hin.trans (List.suffix_cons c cs).isInfix)

theorem NoComment.not_opens {c : CodePoint} (h : NoComment (c :: cs)) :
    ¬(c = '/' ∧ cs.head? = some (.char '*')) := by
  rintro ⟨rfl, hhead⟩
  obtain ⟨tail, rfl⟩ := List.head?_eq_some_iff.1 hhead
  exact h ⟨[], tail, rfl⟩

theorem NoComment.stripComments (h : NoComment cs) : stripComments cs = cs := by
  induction cs with
  | nil => simp [Stylesheet.stripComments]
  | cons c cs ih => rw [stripComments_cons h.not_opens, ih h.tail]

theorem NoComment.leavesCommentOpen (h : NoComment cs) : leavesCommentOpen cs = false := by
  induction cs with
  | nil => simp [Stylesheet.leavesCommentOpen]
  | cons c cs ih => rw [leavesCommentOpen_cons h.not_opens, ih h.tail]

end UtilityCss.Stylesheet
