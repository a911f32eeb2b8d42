import UtilityCss.Proofs.Watch.BracePatterns
/-!
# What braces stand for

The groups of a pattern are expanded one by one, each time the leftmost that has no braces inside,
and the pattern is searched from its beginning again. This finds the texts that the pattern denotes:
what is expanded inside a group has no comma that would cut an alternative of the group in two, and
a group is only expanded when its alternatives are settled. So the texts that are found are exactly
those that choosing an alternative in every group leaves.
-/

namespace UtilityCss

namespace BraceGroup

variable {c : CodePoint} {cs front body tail : List CodePoint}

/-! ## The leftmost group -/

/-- A group is closed behind a body without braces. -/
theorem closed?_eq_some_iff : closed? cs = some (body, tail) ↔
    cs = body ++ .char '\x7d' :: tail ∧ ∀ c ∈ body, isBrace c = false := by
  constructor
  · intro h
    refine ⟨(of_closed? h).1, fun c hc => ?_⟩
    unfold closed? at h
    split at h
    · obtain ⟨rfl, -⟩ := Prod.mk.inj (Option.some.inj h)
      simpa using List.all_eq_true.1 List.all_takeWhile c hc
    · contradiction
  · rintro ⟨rfl, hbody⟩
    have hplain : ∀ c ∈ body, (!isBrace c) = true := by simpa using hbody
    unfold closed?
    rw [List.dropWhile_append_of_pos hplain, List.takeWhile_append_of_pos hplain]
    have hbrace : isBrace (.char '\x7d') = true := by decide
    simp [hbrace]

/-- The body of the leftmost group has no braces. -/
theorem isBrace_of_mem_body {g : BraceGroup} (h : first? cs = some g) (hc : c ∈ g.body) :
    isBrace c = false := by
  induction cs generalizing g with
  | nil => cases h
  | cons d cs ih =>
    rw [first?] at h
    split at h
    · next body tail hclosed =>
      obtain rfl := Option.some.inj h
      exact (closed?_eq_some_iff.1 (Option.ite_none_right_eq_some.1 hclosed).2).2 c hc
    · obtain ⟨g', hg', rfl⟩ := Option.map_eq_some_iff.1 h
      exact ih hg' hc

/-- A text has a group without braces inside. -/
def Within (cs : List CodePoint) : Prop :=
  ∃ head body tail, cs = head ++ .char '\x7b' :: (body ++ .char '\x7d' :: tail) ∧
    ∀ c ∈ body, isBrace c = false

theorem first?_cons_eq_none_iff : first? (c :: cs) = none ↔
    (c = '\x7b' → closed? cs = none) ∧ first? cs = none := by
  rw [first?]
  by_cases hopen : c = '\x7b'
  · cases closed? cs <;> simp [hopen]
  · simp [hopen]

/-- The search finds a group if there is one. -/
theorem first?_eq_none_iff : first? cs = none ↔ ¬Within cs := by
  constructor
  · rintro h ⟨head, body, tail, rfl, hbody⟩
    induction head with
    | nil =>
      have hclosed := (first?_cons_eq_none_iff.1 h).1 rfl
      rw [closed?_eq_some_iff.2 ⟨rfl, hbody⟩] at hclosed
      contradiction
    | cons c head ih => exact ih (first?_cons_eq_none_iff.1 h).2
  · intro h
    induction cs with
    | nil => rfl
    | cons c cs ih =>
      refine first?_cons_eq_none_iff.2 ⟨fun hopen => ?_, ih ?_⟩
      · refine Option.eq_none_iff_forall_ne_some.2 fun (body, tail) hclosed =>
          h ⟨[], body, tail, ?_⟩
        obtain ⟨rfl, hbody⟩ := closed?_eq_some_iff.1 hclosed
        exact ⟨by rw [hopen]; rfl, hbody⟩
      · rintro ⟨head, body, tail, rfl, hbody⟩
        exact h ⟨c :: head, body, tail, rfl, hbody⟩

/-- Without closing braces behind it, a text without groups has none. -/
theorem first?_append_eq_none (hfront : first? front = none) (hcs : .char '\x7d' ∉ cs) :
    first? (front ++ cs) = none := by
  rw [first?_eq_none_iff] at hfront ⊢
  rintro ⟨head, body, tail, heq, hbody⟩
  have hsplit : front ++ cs = (head ++ .char '\x7b' :: body) ++ .char '\x7d' :: tail := by
    simp [heq]
  rcases List.append_eq_append_iff.1 hsplit with ⟨between, -, rfl⟩ | ⟨between, rfl, hbetween⟩
  · exact hcs (by simp)
  · cases between with
    | nil =>
      rw [List.nil_append] at hbetween
      exact hcs (hbetween ▸ List.mem_cons_self ..)
    | cons c between =>
      obtain ⟨rfl, -⟩ := List.cons.inj hbetween
      exact hfront ⟨head, body, between, by simp, hbody⟩

/-- A group that is not closed before another opens is not closed. -/
theorem closed?_append_open (h : closed? front = none) :
    closed? (front ++ .char '\x7b' :: cs) = none := by
  refine Option.eq_none_iff_forall_ne_some.2 fun (body, tail) hclosed => ?_
  obtain ⟨heq, hbody⟩ := closed?_eq_some_iff.1 hclosed
  rcases List.append_eq_append_iff.1 heq with ⟨between, rfl, hbetween⟩ | ⟨between, rfl, hbetween⟩
  · cases between with
    | nil => cases hbetween
    | cons c between =>
      obtain ⟨rfl, -⟩ := List.cons.inj hbetween
      exact absurd (hbody (.char '\x7b') (by simp)) (by decide)
  · cases between with
    | nil => cases hbetween
    | cons c between =>
      obtain ⟨rfl, rfl⟩ := List.cons.inj hbetween
      rw [closed?_eq_some_iff.2 ⟨rfl, hbody⟩] at h
      contradiction

/-- Behind a text without groups, a group without braces inside is the leftmost one. -/
theorem first?_append_group (hfront : first? front = none) (hbody : ∀ c ∈ body, isBrace c = false) :
    first? (front ++ .char '\x7b' :: (body ++ .char '\x7d' :: tail)) =
      some ⟨front, body, tail⟩ := by
  induction front with
  | nil =>
    rw [List.nil_append, first?, if_pos rfl, closed?_eq_some_iff.2 ⟨rfl, hbody⟩]
  | cons c front ih =>
    obtain ⟨hopen, hfront⟩ := first?_cons_eq_none_iff.1 hfront
    have hclosed :
        (if c = '\x7b' then
          closed? (front ++ .char '\x7b' :: (body ++ .char '\x7d' :: tail)) else none) = none := by
      split
      · next h => exact closed?_append_open (hopen h)
      · rfl
    rw [List.cons_append, first?, hclosed, ih hfront]
    rfl

/-! ## One group after the other -/

/-- How many closing braces have an opening brace before them, where `depth` braces are open at the
start. -/
def pairs (depth : Nat) : List CodePoint → Nat
  | [] => 0
  | c :: cs =>
    if c = '\x7b' then pairs (depth + 1) cs
    else if c = '\x7d' then
      match depth with
      | 0 => pairs 0 cs
      | depth + 1 => pairs depth cs + 1
    else pairs depth cs

variable {depth : Nat}

theorem pairs_open : pairs depth (.char '\x7b' :: cs) = pairs (depth + 1) cs := by
  cases depth <;> rfl

theorem pairs_plain_append (hfront : ∀ c ∈ front, isBrace c = false) :
    pairs depth (front ++ cs) = pairs depth cs := by
  induction front with
  | nil => rfl
  | cons c front ih =>
    rw [List.forall_mem_cons] at hfront
    obtain ⟨hopen, hclose⟩ := isBrace_eq_false_iff.1 hfront.1
    rw [List.cons_append, ← ih hfront.2]
    cases depth <;> rw [pairs, if_neg hopen, if_neg hclose]

/-- What stands before two texts does not change how many more pairs one of them has. -/
theorem pairs_append_succ {cs' : List CodePoint} (h : ∀ depth, pairs depth cs = pairs depth cs' + 1)
    (front : List CodePoint) (depth : Nat) :
    pairs depth (front ++ cs) = pairs depth (front ++ cs') + 1 := by
  induction front generalizing depth with
  | nil => exact h depth
  | cons c front ih =>
    simp only [List.cons_append, pairs]
    split
    · exact ih _
    · split
      · cases depth with
        | zero => exact ih _
        | succ depth => exact congrArg (· + 1) (ih depth)
      · exact ih _

/-- With a choice in place of a group, there is one pair less. -/
theorem pairs_choose {g : BraceGroup} {choice : List CodePoint} (hg : first? cs = some g)
    (hchoice : choice ∈ g.choices) : pairs 0 cs = pairs 0 (g.choose choice) + 1 := by
  have hbody : ∀ c ∈ g.body, isBrace c = false := fun c => isBrace_of_mem_body hg
  have hplain : ∀ c ∈ choice, isBrace c = false :=
    fun c hc => hbody c (Text.mem_of_mem_splitWhere hc hchoice)
  rw [(of_first? hg).1, choose, List.append_assoc]
  refine pairs_append_succ (fun depth => ?_) g.head 0
  rw [pairs_open, pairs_plain_append hbody, pairs_plain_append hplain]
  rfl

/-- Without a group there is no pair, unless a closing brace comes first behind braces that are
open. -/
theorem pairs_eq_zero_of_not_closed (h : first? cs = none)
    (hclosed : 0 < depth → closed? cs = none) : pairs depth cs = 0 := by
  induction cs generalizing depth with
  | nil => rfl
  | cons c cs ih =>
    obtain ⟨hopen, hrest⟩ := first?_cons_eq_none_iff.1 h
    rw [pairs.eq_def]
    dsimp only
    split
    · next hc => exact ih hrest fun _ => hopen hc
    · next hnotopen =>
      split
      · next hc =>
        cases depth with
        | zero => exact ih hrest nofun
        | succ depth =>
          have hfound : closed? (c :: cs) = some ([], cs) :=
            closed?_eq_some_iff.2 ⟨by rw [hc]; rfl, by simp⟩
          rw [hclosed (Nat.succ_pos _)] at hfound
          contradiction
      · next hnotclose =>
        refine ih hrest fun hdepth =>
          Option.eq_none_iff_forall_ne_some.2 fun (body, tail) hfound => ?_
        -- A group that is closed further behind is closed here as well.
        obtain ⟨rfl, hbody⟩ := closed?_eq_some_iff.1 hfound
        have hc : isBrace c = false := isBrace_eq_false_iff.2 ⟨hnotopen, hnotclose⟩
        have hlonger : closed? (c :: (body ++ .char '\x7d' :: tail)) = some (c :: body, tail) :=
          closed?_eq_some_iff.2 ⟨rfl, List.forall_mem_cons.2 ⟨hc, hbody⟩⟩
        rw [hclosed hdepth] at hlonger
        contradiction

/-- Without a group there is no pair. -/
theorem pairs_eq_zero (h : first? cs = none) : pairs 0 cs = 0 := pairs_eq_zero_of_not_closed h nofun

/-- A group has a choice. -/
theorem choices_ne_nil (g : BraceGroup) : g.choices ≠ [] := Text.splitWhere_ne_nil _ _

end BraceGroup

theorem mapM_eq_some_map {α β : Type} {f : α → Option β} {g : α → β} {l : List α}
    (h : ∀ a ∈ l, f a = some (g a)) : l.mapM f = some (l.map g) := by
  induction l with
  | nil => rfl
  | cons a l ih =>
    rw [List.mapM_cons, h a (by simp), ih fun a ha => h a (by simp [ha])]
    rfl

/-- **How many groups are expanded one after the other** is how many pairs of braces there are. -/
theorem braceChoicesWithin_eq (depth : Nat) (cs : List CodePoint) : braceChoicesWithin depth cs =
    if BraceGroup.pairs 0 cs ≤ depth then some (braceChoices cs) else none := by
  induction depth generalizing cs with
  | zero =>
    cases hg : BraceGroup.first? cs with
    | none => simp [braceChoicesWithin, hg, BraceGroup.pairs_eq_zero hg, braceChoices_of_none hg]
    | some g =>
      obtain ⟨choice, hchoice⟩ := List.exists_mem_of_ne_nil _ g.choices_ne_nil
      simp [braceChoicesWithin, hg, BraceGroup.pairs_choose hg hchoice]
  | succ depth ih =>
    cases hg : BraceGroup.first? cs with
    | none => simp [braceChoicesWithin, hg, BraceGroup.pairs_eq_zero hg, braceChoices_of_none hg]
    | some g =>
      -- All choices leave the same number of pairs, so they are refused together.
      have hchoices : ∀ choice ∈ g.choices, braceChoicesWithin depth (g.choose choice) =
          if BraceGroup.pairs 0 cs ≤ depth + 1 then some (braceChoices (g.choose choice))
            else none := by
        intro choice hchoice
        rw [ih, BraceGroup.pairs_choose hg hchoice]
        simp
      rw [braceChoicesWithin, hg]
      dsimp only
      split
      · next hfew =>
        rw [mapM_eq_some_map fun choice hchoice => (hchoices choice hchoice).trans (if_pos hfew),
          braceChoices_of_some hg, List.flatMap_def]
        rfl
      · next hmany =>
        cases hall : g.choices with
        | nil => exact absurd hall g.choices_ne_nil
        | cons choice others =>
          rw [hall] at hchoices
          rw [List.mapM_cons, hchoices choice (.head _), if_neg hmany]
          rfl

/-- A pattern is refused exactly if it has too many pairs of braces. -/
theorem expandBraces?_eq (pattern : Text) : expandBraces? pattern =
    if BraceGroup.pairs 0 pattern.toList ≤ maxBraceDepth then some (expandBraces pattern)
      else none := by
  rw [expandBraces?, braceChoicesWithin_eq]
  split <;> rfl

/-! ## Every pattern -/

variable {cs x : List CodePoint}

/-- Every text stands for a text. -/
theorem braceChoices_ne_nil (cs : List CodePoint) : braceChoices cs ≠ [] := by
  induction cs using braceChoices.induct with
  | case1 cs hnone => simp [braceChoices_of_none hnone]
  | case2 cs g hg ih =>
    obtain ⟨choice, hchoice⟩ := List.exists_mem_of_ne_nil _ g.choices_ne_nil
    rw [braceChoices_of_some hg]
    exact fun hnil => ih choice hchoice (List.flatMap_eq_nil_iff.1 hnil choice hchoice)

/-- What a text stands for has no group any more. -/
theorem not_within_of_mem_braceChoices (hx : x ∈ braceChoices cs) : ¬BraceGroup.Within x := by
  induction cs using braceChoices.induct with
  | case1 cs hnone =>
    rw [braceChoices_of_none hnone, List.mem_singleton] at hx
    rw [hx]
    exact BraceGroup.first?_eq_none_iff.1 hnone
  | case2 cs g hg ih =>
    rw [braceChoices_of_some hg] at hx
    obtain ⟨choice, hchoice, hx⟩ := List.mem_flatMap.1 hx
    exact ih choice hchoice hx

/-! ## Balanced patterns -/

variable {inside : Bool} {front behind : List CodePoint}

mutual

/-- What is left of a pattern has ordinary characters only. -/
theorem BracePattern.isPlain_of_mem_expansions {inside : Bool} {x : List CodePoint}
    {c : CodePoint} :
    (p : BracePattern inside) → x ∈ p.expansions → c ∈ x → isPlainInside inside c = true
  | .empty, hx, hc => by
    obtain rfl := List.mem_singleton.1 hx
    contradiction
  | .char d hd rest, hx, hc => by
    obtain ⟨y, hy, rfl⟩ := List.mem_map.1 hx
    rcases List.mem_cons.1 hc with rfl | hc
    · exact hd
    · exact rest.isPlain_of_mem_expansions hy hc
  | .group alternatives rest, hx, hc => by
    simp only [BracePattern.expansions, List.mem_flatMap, List.mem_map] at hx
    obtain ⟨xs, hxs, y, hy, z, hz, rfl⟩ := hx
    rcases List.mem_append.1 hc with hc | hc
    · obtain ⟨hbrace, hcomma⟩ :=
        isPlainInside_iff.1 (alternatives.isPlain_of_mem_expansions hxs hy hc)
      exact isPlainInside_iff.2 ⟨hbrace, fun _ => hcomma rfl⟩
    · exact rest.isPlain_of_mem_expansions hz hc

/-- Alternatives that are settled have ordinary characters only. -/
theorem BraceAlternatives.isPlain_of_mem_expansions {xs : List (List CodePoint)}
    {x : List CodePoint} {c : CodePoint} :
    (alternatives : BraceAlternatives) → xs ∈ alternatives.expansions → x ∈ xs → c ∈ x →
      isPlainInside true c = true
  | .last p, hxs, hx, hc => by
    obtain ⟨y, hy, rfl⟩ := List.mem_map.1 hxs
    obtain rfl := List.mem_singleton.1 hx
    exact p.isPlain_of_mem_expansions hy hc
  | .more p others, hxs, hx, hc => by
    simp only [BraceAlternatives.expansions, List.mem_flatMap, List.mem_map] at hxs
    obtain ⟨y, hy, ys, hys, rfl⟩ := hxs
    rcases List.mem_cons.1 hx with rfl | hx
    · exact p.isPlain_of_mem_expansions hy hc
    · exact others.isPlain_of_mem_expansions hys hx hc

end

/-- There is at least one alternative. -/
theorem BraceAlternatives.ne_nil_of_mem_expansions {alternatives : BraceAlternatives}
    {xs : List (List CodePoint)} (hxs : xs ∈ alternatives.expansions) : xs ≠ [] := by
  cases alternatives with
  | last p =>
    obtain ⟨x, -, rfl⟩ := List.mem_map.1 hxs
    exact List.cons_ne_nil _ _
  | more p others =>
    simp only [expansions, List.mem_flatMap, List.mem_map] at hxs
    obtain ⟨x, -, xs, -, rfl⟩ := hxs
    exact List.cons_ne_nil _ _

/-- Pieces without commas are found again between commas. -/
theorem splitWhere_intercalate {xs : List (List CodePoint)} (hne : xs ≠ [])
    (hxs : ∀ x ∈ xs, .char ',' ∉ x) :
    Text.splitWhere (· == CodePoint.char ',') ([.char ','].intercalate xs) = xs := by
  induction xs with
  | nil => contradiction
  | cons x xs ih =>
    rw [List.forall_mem_cons] at hxs
    by_cases hlast : xs = []
    · rw [hlast, List.intercalate_singleton, Text.splitWhere_of_not_mem hxs.1]
    · rw [List.intercalate_cons_of_ne_nil hlast, List.append_assoc, List.singleton_append,
        Text.splitWhere_append (by simp), Text.splitWhere_of_not_mem hxs.1, ih hlast hxs.2]
      rfl

/-- Between commas there are the pieces. -/
theorem mem_intercalate {xs : List (List CodePoint)} (h : c ∈ [CodePoint.char ','].intercalate xs) :
    c = ',' ∨ ∃ x ∈ xs, c ∈ x := by
  induction xs with
  | nil => simp at h
  | cons x xs ih =>
    by_cases hlast : xs = []
    · rw [hlast, List.intercalate_singleton] at h
      exact .inr ⟨x, .head _, h⟩
    · rw [List.intercalate_cons_of_ne_nil hlast, List.append_assoc, List.mem_append,
        List.singleton_append, List.mem_cons] at h
      rcases h with h | h | h
      · exact .inr ⟨x, .head _, h⟩
      · exact .inl h
      · rcases ih h with h | ⟨y, hy, h⟩
        · exact .inl h
        · exact .inr ⟨y, .tail _ hy, h⟩

/-- Alternatives that are settled can be chosen. -/
theorem BraceAlternatives.braceChoices_group {alternatives : BraceAlternatives}
    {xs : List (List CodePoint)}
    (hfront : BraceGroup.first? front = none) (hxs : xs ∈ alternatives.expansions) :
    braceChoices (front ++ .char '\x7b' :: ([.char ','].intercalate xs ++ .char '\x7d' :: behind)) =
      xs.flatMap fun x => braceChoices (front ++ (x ++ behind)) := by
  have hplain : ∀ x ∈ xs, ∀ c ∈ x, BraceGroup.isBrace c = false ∧ c ≠ ',' := by
    intro x hx c hc
    obtain ⟨hbrace, hcomma⟩ :=
      isPlainInside_iff.1 (alternatives.isPlain_of_mem_expansions hxs hx hc)
    exact ⟨hbrace, hcomma rfl⟩
  have hbody : ∀ c ∈ [CodePoint.char ','].intercalate xs, BraceGroup.isBrace c = false := by
    intro c hc
    rcases mem_intercalate hc with rfl | ⟨x, hx, hc⟩
    · decide
    · exact (hplain x hx c hc).1
  have hpieces := splitWhere_intercalate (ne_nil_of_mem_expansions hxs)
    fun x hx hcomma => (hplain x hx _ hcomma).2 rfl
  rw [braceChoices_of_some (BraceGroup.first?_append_group hfront hbody), BraceGroup.choices,
    hpieces]
  simp [BraceGroup.choose]

mutual

/-- **A pattern is expanded where it stands**, behind a text without groups. -/
theorem BracePattern.braceChoices_append {inside : Bool} (front behind : List CodePoint) :
    (p : BracePattern inside) → BraceGroup.first? front = none →
    braceChoices (front ++ (p.text ++ behind)) =
      p.expansions.flatMap fun x => braceChoices (front ++ (x ++ behind))
  | .empty, _ => by
    simp [BracePattern.expansions, BracePattern.text]
  | .char c hc rest, hfront => by
    have hfront' : BraceGroup.first? (front ++ [c]) = none := by
      refine BraceGroup.first?_append_eq_none hfront fun hclose => ?_
      exact (isBrace_eq_false_iff.1 (isPlainInside_iff.1 hc).1).2 (List.mem_singleton.1 hclose).symm
    have hrest := rest.braceChoices_append _ behind hfront'
    simpa [BracePattern.expansions, BracePattern.text, List.flatMap_map] using hrest
  | .group alternatives rest, hfront => by
    have hopen : BraceGroup.first? (front ++ [.char '\x7b']) = none :=
      BraceGroup.first?_append_eq_none hfront (by simp)
    have hsettled :=
      alternatives.braceChoices_append _ (.char '\x7d' :: (rest.text ++ behind)) hopen
    -- Settled alternatives have no braces, so there is no group before the rest.
    have hrest : ∀ xs ∈ alternatives.expansions, ∀ x ∈ xs,
        braceChoices (front ++ (x ++ (rest.text ++ behind))) =
          rest.expansions.flatMap fun y => braceChoices (front ++ (x ++ (y ++ behind))) := by
      intro xs hxs x hx
      have hchosen : BraceGroup.first? (front ++ x) = none := by
        refine BraceGroup.first?_append_eq_none hfront fun hclose => ?_
        have hplain := alternatives.isPlain_of_mem_expansions hxs hx hclose
        contradiction
      simpa using rest.braceChoices_append _ behind hchosen
    calc braceChoices (front ++ ((BracePattern.group alternatives rest).text ++ behind))
      _ = alternatives.expansions.flatMap fun xs => braceChoices
            (front ++ .char '\x7b' ::
              ([.char ','].intercalate xs ++ .char '\x7d' :: (rest.text ++ behind))) := by
        simpa [BracePattern.text] using hsettled
      _ = alternatives.expansions.flatMap fun xs => xs.flatMap fun x =>
            braceChoices (front ++ (x ++ (rest.text ++ behind))) :=
        List.flatMap_congr fun xs hxs => alternatives.braceChoices_group hfront hxs
      _ = alternatives.expansions.flatMap fun xs => xs.flatMap fun x =>
            rest.expansions.flatMap fun y => braceChoices (front ++ (x ++ (y ++ behind))) :=
        List.flatMap_congr fun xs hxs => List.flatMap_congr fun x hx => hrest xs hxs x hx
      _ = _ := by
        simp only [BracePattern.expansions, List.flatMap_assoc, List.flatMap_map, List.append_assoc]

/-- Alternatives are settled where they stand, behind a text without groups. -/
theorem BraceAlternatives.braceChoices_append (front behind : List CodePoint) :
    (alternatives : BraceAlternatives) → BraceGroup.first? front = none →
    braceChoices (front ++ (alternatives.text ++ behind)) =
      alternatives.expansions.flatMap fun xs =>
        braceChoices (front ++ ([.char ','].intercalate xs ++ behind))
  | .last p, hfront => by
    have hp := p.braceChoices_append _ behind hfront
    simpa [BraceAlternatives.expansions, BraceAlternatives.text, List.flatMap_map] using hp
  | .more p others, hfront => by
    have hp := p.braceChoices_append _ (.char ',' :: (others.text ++ behind)) hfront
    have hothers : ∀ x ∈ p.expansions,
        braceChoices (front ++ (x ++ .char ',' :: (others.text ++ behind))) =
          others.expansions.flatMap fun xs =>
            braceChoices (front ++ ([.char ','].intercalate (x :: xs) ++ behind)) := by
      -- What the first alternative leaves is settled, so the search goes on in the others.
      intro x hx
      have hsettled : BraceGroup.first? (front ++ (x ++ [.char ','])) = none := by
        refine BraceGroup.first?_append_eq_none hfront fun hclose => ?_
        rcases List.mem_append.1 hclose with hclose | hclose
        · have hplain := p.isPlain_of_mem_expansions hx hclose
          contradiction
        · simp at hclose
      have hall := others.braceChoices_append _ behind hsettled
      simp only [List.append_assoc, List.singleton_append] at hall
      refine hall.trans (List.flatMap_congr fun xs hxs => ?_)
      rw [List.intercalate_cons_of_ne_nil (BraceAlternatives.ne_nil_of_mem_expansions hxs)]
      simp
    calc braceChoices (front ++ ((BraceAlternatives.more p others).text ++ behind))
      _ = p.expansions.flatMap fun x =>
        braceChoices (front ++ (x ++ .char ',' :: (others.text ++ behind))) := by
        simpa [BraceAlternatives.text] using hp
      _ = p.expansions.flatMap fun x => others.expansions.flatMap fun xs =>
            braceChoices (front ++ ([.char ','].intercalate (x :: xs) ++ behind)) :=
        List.flatMap_congr hothers
      _ = _ := by
        simp only [BraceAlternatives.expansions, List.flatMap_assoc, List.flatMap_map]

end

/-- **A balanced text stands for the texts of its pattern**, in the same order. -/
theorem BracePattern.braceChoices_text (p : BracePattern inside) :
    braceChoices p.text = p.expansions := by
  have hall : braceChoices p.text = p.expansions.flatMap fun x => braceChoices x := by
    simpa using p.braceChoices_append [] [] rfl
  have hsettled : ∀ x ∈ p.expansions, braceChoices x = [x] := by
    intro x hx
    have hempty : BraceGroup.first? [] = none := rfl
    refine braceChoices_of_none (BraceGroup.first?_append_eq_none hempty fun hclose => ?_)
    have hplain := p.isPlain_of_mem_expansions hx hclose
    cases inside <;> contradiction
  rw [hall, List.flatMap_congr hsettled]
  simp

/-- **Braces denote choices.** A pattern is expanded unless it has more pairs of braces than may be
expanded one after the other. There is always a text that it stands for, and no text that it stands
for has a group any more. If its braces are balanced, it stands for exactly the texts that choosing
an alternative in every group leaves; and if no group stands in another, these come in the
lexicographic order of the choices, one for each combination. -/
theorem expandBraces?_denotes (pattern : Text) :
    expandBraces? pattern =
      (if BraceGroup.pairs 0 pattern.toList ≤ maxBraceDepth then
        some (expandBraces pattern) else none) ∧
    expandBraces pattern ≠ [] ∧ (∀ t ∈ expandBraces pattern, ¬BraceGroup.Within t.toList) ∧
    (isBalanced pattern = true ↔ ∃ p : BracePattern false, p.text = pattern.toList) ∧
    ∀ p : BracePattern false, p.text = pattern.toList →
      (∀ t, t ∈ expandBraces pattern ↔ p.Chooses t.toList) ∧
      (p.IsFlat →
        expandBraces pattern =
          (combinations p.counts).map (fun choice => .ofList (p.select choice)) ∧
        (∀ choice, choice ∈ combinations p.counts ↔ List.Forall₂ (· < ·) choice p.counts) ∧
        (combinations p.counts).Pairwise (· < ·) ∧
        (expandBraces pattern).length = p.counts.prod) := by
  refine ⟨?_, ?_, ?_, closesBraces_iff, fun p hp => ?_⟩
  · exact expandBraces?_eq pattern
  · simpa [expandBraces] using braceChoices_ne_nil pattern.toList
  · intro t ht
    obtain ⟨x, hx, rfl⟩ := List.mem_map.1 ht
    exact not_within_of_mem_braceChoices hx
  · have hall : expandBraces pattern = p.expansions.map .ofList := by
      rw [expandBraces, ← hp, p.braceChoices_text]
    refine ⟨fun t => ?_, fun hflat => ?_⟩
    · rw [hall, ← p.mem_expansions_iff, List.mem_map]
      exact ⟨fun ⟨x, hx, ht⟩ => ht ▸ hx, fun h => ⟨t.toList, h, rfl⟩⟩
    · have hchoices := p.expansions_of_isFlat hflat
      refine ⟨?_, fun choice => mem_combinations_iff, pairwise_combinations _, ?_⟩
      · rw [hall, hchoices, List.map_map]
        rfl
      · rw [hall, hchoices, List.length_map, List.length_map, length_combinations]

/-- A group with one alternative, many times. -/
def manyGroups (n : Nat) : Text := Text.join (List.replicate n "\x7ba\x7d")

theorem manyGroups_succ (n : Nat) :
    (manyGroups (n + 1)).toList =
      .char '\x7b' :: .char 'a' :: .char '\x7d' :: (manyGroups n).toList := by
  simp [manyGroups, Text.join, List.replicate_succ]

theorem closesBraces_manyGroups (n : Nat) : closesBraces 0 (manyGroups n).toList = true := by
  induction n with
  | zero => rfl
  | succ n ih =>
    rw [manyGroups_succ]
    exact ih

theorem pairs_manyGroups (n : Nat) : BraceGroup.pairs 0 (manyGroups n).toList = n := by
  induction n with
  | zero => rfl
  | succ n ih =>
    rw [manyGroups_succ]
    exact congrArg (· + 1) ih

/-- A balanced pattern with three thousand groups side by side is refused. -/
theorem manyGroups_refused :
    isBalanced (manyGroups 3000) = true ∧ expandBraces? (manyGroups 3000) = none := by
  refine ⟨closesBraces_manyGroups 3000, ?_⟩
  rw [expandBraces?_eq, pairs_manyGroups]
  rfl

end UtilityCss
