import Mathlib.Data.List.Nodup
import UtilityCss.Proofs.Answers
import UtilityCss.Proofs.Stylesheet.Recognition
import UtilityCss.Proofs.Stylesheet.Spelling
import UtilityCss.Stylesheet.Walk
/-!
# What the walk collects

Walking through a stylesheet with a stack collects the class names of the ordinary rules that no
opaque at-rule surrounds, at any depth. What one step preserves is the class names that are found
already or stand in a rule that the stack leads to. The keyword of an at-rule is looked up without
failing, because a prelude is left with single spaces between its words and none at its end. The
blocks may stand in any order.
-/

namespace UtilityCss.Stylesheet

variable {b : Block} {blocks stack : List Block} {prelude name : Text} {found names : List Text}

/-! ## Blocks inside blocks -/

/-- A block stands among some blocks or inside them; the blocks around it are given from the
outside. -/
inductive Inside : List Block → List Block → Block → Prop where
  | here {blocks : List Block} {b : Block} (h : b ∈ blocks) : Inside blocks [] b
  | deeper {blocks around : List Block} {a b : Block} (ha : a ∈ blocks)
      (h : Inside a.children around b) : Inside blocks (a :: around) b

theorem Inside.mono {blocks' around : List Block} (h : Inside blocks around b)
    (hsub : ∀ a ∈ blocks, a ∈ blocks') : Inside blocks' around b := by
  cases h with
  | here hb => exact .here (hsub b hb)
  | deeper ha h => exact .deeper (hsub _ ha) h

theorem inside_append {blocks' around : List Block} (h : Inside (blocks ++ blocks') around b) :
    Inside blocks around b ∨ Inside blocks' around b := by
  cases h with
  | here hb => exact (List.mem_append.1 hb).imp .here .here
  | deeper ha h => exact (List.mem_append.1 ha).imp (fun ha => .deeper ha h) fun ha => .deeper ha h

theorem mem_selectorsOf_iff :
    prelude ∈ selectorsOf blocks ↔ ∃ b ∈ blocks, prelude ∈ b.selectors := by
  induction blocks with
  | nil => simp [selectorsOf]
  | cons b blocks ih => simp [selectorsOf, ih]

/-- The selectors of a block are its own, if it is an ordinary rule, and those inside. -/
theorem mem_selectors_iff : prelude ∈ b.selectors ↔
    b.isOpaque = false ∧
      (b.isAtRule = false ∧ prelude = b.prelude ∨ prelude ∈ selectorsOf b.children) := by
  obtain ⟨p, children⟩ := b
  rw [Block.selectors]
  cases hisOpaque : Block.isOpaque ⟨p, children⟩ with
  | true => simp
  | false => cases hrule : Block.isAtRule ⟨p, children⟩ <;> simp

theorem isOpaque_eq_false (h : b.isAtRule = false) : b.isOpaque = false := by
  rw [Block.isOpaque, h, Bool.false_and]

/-- What is inside blocks that are not opaque is looked at. -/
theorem mem_selectorsOf_of_inside {around : List Block} (h : Inside blocks around b)
    (haround : ∀ a ∈ around, a.isOpaque = false) (hb : b.isAtRule = false) :
    b.prelude ∈ selectorsOf blocks := by
  induction h with
  | here hmem =>
    exact mem_selectorsOf_iff.2
      ⟨_, hmem, mem_selectors_iff.2 ⟨isOpaque_eq_false hb, .inl ⟨hb, rfl⟩⟩⟩
  | deeper ha _ ih =>
    rw [List.forall_mem_cons] at haround
    exact mem_selectorsOf_iff.2 ⟨_, ha, mem_selectors_iff.2 ⟨haround.1, .inr (ih haround.2 hb)⟩⟩

/-- Only ordinary rules inside blocks that are not opaque are looked at. -/
theorem exists_inside_of_mem_selectorsOf : (blocks : List Block) → prelude ∈ selectorsOf blocks →
    ∃ around b, Inside blocks around b ∧ (∀ a ∈ around, a.isOpaque = false) ∧ b.isAtRule = false ∧
      b.prelude = prelude
  | ⟨p, children⟩ :: blocks, h => by
    rcases List.mem_append.1 h with h | h
    · obtain ⟨hisOpaque, ⟨hrule, rfl⟩ | h⟩ := mem_selectors_iff.1 h
      · exact ⟨[], _, .here (List.mem_cons_self ..), by simp, hrule, rfl⟩
      · obtain ⟨around, b, hinside, haround, hb⟩ := exists_inside_of_mem_selectorsOf children h
        exact ⟨_ :: around, b, .deeper (List.mem_cons_self ..) hinside,
          List.forall_mem_cons.2 ⟨hisOpaque, haround⟩, hb⟩
    · obtain ⟨around, b, hinside, hb⟩ := exists_inside_of_mem_selectorsOf blocks h
      exact ⟨around, b, hinside.mono fun a ha => List.mem_cons_of_mem _ ha, hb⟩

/-- **What is looked at** are the ordinary rules that no opaque at-rule surrounds. -/
theorem mem_selectorsOf_iff_inside : prelude ∈ selectorsOf blocks ↔
    ∃ around b, Inside blocks around b ∧ (∀ a ∈ around, a.isOpaque = false) ∧ b.isAtRule = false ∧
      b.prelude = prelude := by
  constructor
  · exact exists_inside_of_mem_selectorsOf blocks
  · rintro ⟨around, b, hinside, haround, hb, rfl⟩
    exact mem_selectorsOf_of_inside hinside haround hb

/-! ## Keywords of at-rules -/

/-- A keyword that is looked up is the keyword of the at-rule. -/
theorem keyword?_eq_some {keyword : Text} (h : keyword? b.prelude = some keyword) :
    keyword = b.atKeyword := by
  unfold keyword? at h
  unfold Block.atKeyword
  cases hrest : Text.afterText? "@" b.prelude with
  | none =>
    rw [hrest] at h
    exact (Option.some.inj h).symm
  | some rest =>
    rw [hrest] at h
    dsimp only at h ⊢
    by_cases hempty : rest.isEmpty = true
    · rw [if_pos hempty] at h
      rw [List.isEmpty_iff.1 hempty]
      exact (Option.some.inj h).symm
    · rw [if_neg hempty] at h
      obtain ⟨first, hfirst, rfl⟩ := Option.map_eq_some_iff.1 h
      obtain ⟨more, hwords⟩ := List.head?_eq_some_iff.1 hfirst
      rw [hwords]

/-- A text that is not blank has a word. -/
theorem words_ne_nil {c : CodePoint} {cs : List CodePoint} (hmem : c ∈ cs)
    (hc : Text.isBlank c = false) : Text.words cs ≠ [] := by
  obtain ⟨word, hword, hc⟩ := Text.exists_mem_splitWhere hmem hc
  exact List.ne_nil_of_mem (List.mem_filter.2 ⟨hword, by simpa using List.ne_nil_of_mem hc⟩)

/-- Words with something between them end as the last word ends. -/
theorem getLast?_intercalate (sep : List CodePoint) {words : List (List CodePoint)}
    (hne : words ≠ []) (h : ∀ w ∈ words, w ≠ []) :
    ∃ w ∈ words, ∃ c ∈ w, (sep.intercalate words).getLast? = some c := by
  induction words with
  | nil => contradiction
  | cons w words ih =>
    rw [List.forall_mem_cons] at h
    by_cases hlast : words = []
    · rw [hlast, List.intercalate_singleton]
      exact ⟨w, List.mem_singleton_self _, _, List.getLast_mem h.1,
        List.getLast?_eq_some_getLast h.1⟩
    · obtain ⟨v, hv, c, hc, hgetLast⟩ := ih hlast h.2
      refine ⟨v, List.mem_cons_of_mem _ hv, c, hc, ?_⟩
      rw [List.intercalate_cons_of_ne_nil hlast, List.getLast?_append, hgetLast, Option.some_or]

/-- A collapsed text does not end with blanks. -/
theorem isBlank_of_getLast?_collapse {s : Text} {c : CodePoint}
    (h : (Text.collapse s).toList.getLast? = some c) : Text.isBlank c = false := by
  unfold Text.collapse at h
  by_cases hwords : Text.words s.toList = []
  · rw [hwords] at h
    cases h
  · have hplain : ((Text.words s.toList).map Text.ofList).map Text.toList =
        Text.words s.toList := by
      rw [List.map_map]
      exact List.map_id _
    obtain ⟨w, hw, d, hd, hlast⟩ :=
      getLast?_intercalate (Text.toList " ") hwords fun w hw => (Text.mem_words hw).1
    rw [Text.intercalate, hplain, hlast] at h
    obtain rfl := Option.some.inj h
    exact ((Text.mem_words hw).2 d hd).1

/-- In a collapsed prelude the keyword is found. -/
theorem keyword?_collapse (s : Text) : keyword? (Text.collapse s) ≠ none := by
  unfold keyword?
  split
  · exact nofun
  · next rest hrest =>
    split
    · exact nofun
    · next hne =>
      have hne : rest.toList ≠ [] := fun hnil => hne (List.isEmpty_iff.2 hnil)
      have htext : (Text.collapse s).toList = Text.toList "@" ++ rest.toList :=
        congrArg Text.toList (Text.afterText?_eq_some_iff.1 hrest)
      have hlast : (Text.collapse s).toList.getLast? = some (rest.toList.getLast hne) := by
        rw [htext, List.getLast?_append, List.getLast?_eq_some_getLast hne, Option.some_or]
      have hwords := words_ne_nil (List.getLast_mem hne) (isBlank_of_getLast?_collapse hlast)
      simpa using hwords

/-- The blocks of a derivation have collapsed preludes, and so do the blocks inside them. -/
theorem exists_of_mem_blocksOf {items : List Item} (h : b ∈ blocksOf items) :
    ∃ (p : Text) (inner : List Item), b = ⟨Text.collapse p, blocksOf inner⟩ := by
  induction items with
  | nil => cases h
  | cons i items ih =>
    rcases List.mem_append.1 h with h | h
    · cases i with
      | block p inner last => exact ⟨p, inner, by simpa [Item.block?] using h⟩
      | statement p => cases h
    · exact ih h

/-- **In a stylesheet that is read, every keyword is found.** -/
theorem keyword?_of_inside {items : List Item} {around : List Block}
    (h : Inside (blocksOf items) around b) : keyword? b.prelude ≠ none := by
  generalize hblocks : blocksOf items = blocks at h
  induction h generalizing items with
  | here hmem =>
    obtain ⟨p, inner, rfl⟩ := exists_of_mem_blocksOf (hblocks ▸ hmem)
    exact keyword?_collapse p
  | deeper ha _ ih =>
    obtain ⟨p, inner, rfl⟩ := exists_of_mem_blocksOf (hblocks ▸ ha)
    exact ih rfl

/-! ## One step of the walk -/

/-- A class name stands in a rule that is looked at. -/
def HasName (blocks : List Block) (name : Text) : Prop :=
  ∃ prelude ∈ selectorsOf blocks, ∃ names, preludeNames prelude = .ok names ∧ name ∈ names

/-- What a step takes from the stack, it finds or puts back. -/
theorem mem_selectorsOf_look {inside : List Block} (h : b.look = .ok (names, inside)) :
    prelude ∈ selectorsOf (b :: stack) ↔
      b.isAtRule = false ∧ prelude = b.prelude ∨
        prelude ∈ selectorsOf (inside.reverse ++ stack) := by
  have hstack : prelude ∈ selectorsOf (inside.reverse ++ stack) ↔
      prelude ∈ selectorsOf inside ∨ prelude ∈ selectorsOf stack := by
    simp only [mem_selectorsOf_iff, List.mem_append, List.mem_reverse, or_and_right, exists_or]
  rw [hstack, selectorsOf, List.mem_append, mem_selectors_iff, ← or_assoc]
  refine or_congr_left ?_
  rcases Block.look_eq_ok.1 h with ⟨hrule, -, keyword, hkeyword, rfl⟩ | ⟨hrule, -, rfl⟩
  · -- An at-rule has no class names itself, and those inside count unless it is opaque.
    have hisOpaque : b.isOpaque = Block.opaqueKeywords.contains keyword := by
      rw [Block.isOpaque, hrule, Bool.true_and, keyword?_eq_some hkeyword]
    rw [hisOpaque, hrule]
    cases Block.opaqueKeywords.contains keyword <;> simp [selectorsOf]
  · simp [hrule, isOpaque_eq_false hrule]

/-- **A step preserves the class names** that are found or still to be found. -/
theorem hasName_look {inside : List Block} (h : b.look = .ok (names, inside)) :
    HasName (b :: stack) name ↔ name ∈ names ∨ HasName (inside.reverse ++ stack) name := by
  simp only [HasName, mem_selectorsOf_look h, or_and_right, exists_or]
  refine or_congr_left ?_
  rcases Block.look_eq_ok.1 h with ⟨hrule, rfl, -⟩ | ⟨hrule, hnames, -⟩
  · simp [hrule]
  · simp [hrule, hnames]

/-- A step leaves the escapes in range that are in range. -/
theorem isDecodable_look {inside : List Block} (h : b.look = .ok (names, inside))
    (hdecodable : IsDecodable (b :: stack)) : IsDecodable (inside.reverse ++ stack) :=
  fun prelude hmem => hdecodable prelude ((mem_selectorsOf_look h).2 (.inr hmem))

/-- A step is possible if a keyword is found and the escapes are in range. -/
theorem exists_look (hkeyword : keyword? b.prelude ≠ none) (hdecodable : IsDecodable (b :: stack)) :
    ∃ names inside, b.look = .ok (names, inside) := by
  cases hrule : b.isAtRule with
  | true =>
    obtain ⟨keyword, hkeyword⟩ := Option.ne_none_iff_exists'.1 hkeyword
    exact ⟨_, _, Block.look_eq_ok.2 (.inl ⟨hrule, rfl, keyword, hkeyword, rfl⟩)⟩
  | false =>
    have hmem : b.prelude ∈ selectorsOf (b :: stack) :=
      mem_selectorsOf_of_inside (.here (List.mem_cons_self ..)) (by simp) hrule
    obtain ⟨names, hnames⟩ : ∃ names, preludeNames b.prelude = .ok names :=
      exists_mapM_eq_ok.2 fun points hpoints =>
        exists_decodeName_iff.2 (hdecodable _ hmem points hpoints)
    exact ⟨_, _, Block.look_eq_ok.2 (.inr ⟨hrule, hnames, rfl⟩)⟩

/-- What a step puts on the stack stands in the blocks that were there. -/
theorem inside_look {inside around : List Block} {c : Block} (h : b.look = .ok (names, inside))
    (hc : Inside (inside.reverse ++ stack) around c) :
    ∃ around', Inside (b :: stack) around' c := by
  have hchildren : ∀ a ∈ inside, a ∈ b.children := by
    rcases Block.look_eq_ok.1 h with ⟨-, -, keyword, -, rfl⟩ | ⟨-, -, rfl⟩
    · split
      · exact nofun
      · exact fun a ha => ha
    · exact fun a ha => ha
  rcases inside_append hc with hc | hc
  · exact ⟨_,
      .deeper (List.mem_cons_self ..) (hc.mono fun a ha => hchildren a (List.mem_reverse.1 ha))⟩
  · exact ⟨_, hc.mono fun a ha => List.mem_cons_of_mem _ ha⟩

/-! ## The whole walk -/

theorem mem_foldl_insert : name ∈ names.foldl (fun found name => found.insert name) found ↔
    name ∈ names ∨ name ∈ found := by
  induction names generalizing found with
  | nil => simp
  | cons first names ih =>
    rw [List.foldl_cons, ih, List.mem_insert_iff, List.mem_cons]
    exact or_left_comm.trans or_assoc.symm

theorem nodup_foldl_insert (h : found.Nodup) :
    (names.foldl (fun found name => found.insert name) found).Nodup := by
  induction names generalizing found with
  | nil => exact h
  | cons first names ih => exact ih h.insert

/-- **The walk ends** if keywords are found and the escapes are in range. -/
theorem exists_collectFrom
    (hkeywords : ∀ around b, Inside stack around b → keyword? b.prelude ≠ none)
    (hdecodable : IsDecodable stack) : ∃ names, collectFrom found stack = .ok names := by
  induction found, stack using collectFrom.induct with
  | case1 found => exact ⟨found, by rw [collectFrom]⟩
  | case2 found b stack e hlook =>
    obtain ⟨names, inside, hok⟩ :=
      exists_look (hkeywords _ _ (.here (List.mem_cons_self ..))) hdecodable
    rw [hok] at hlook
    contradiction
  | case3 found b stack names inside hlook ih =>
    rw [collectFrom_cons, hlook]
    refine ih (fun around c hc => ?_) (isDecodable_look hlook hdecodable)
    obtain ⟨around', hc⟩ := inside_look hlook hc
    exact hkeywords around' c hc

/-- **The walk collects** what is found already and the class names in the rules that are looked at,
each once. -/
theorem of_collectFrom (h : collectFrom found stack = .ok names) :
    (found.Nodup → names.Nodup) ∧ ∀ name, name ∈ names ↔ name ∈ found ∨ HasName stack name := by
  induction found, stack using collectFrom.induct with
  | case1 found =>
    rw [collectFrom] at h
    obtain rfl := Except.ok.inj h
    exact ⟨id, fun name => by simp [HasName, selectorsOf]⟩
  | case2 found b stack e hlook =>
    rw [collectFrom_cons, hlook] at h
    contradiction
  | case3 found b stack more inside hlook ih =>
    rw [collectFrom_cons, hlook] at h
    obtain ⟨hnodup, hnames⟩ := ih h
    refine ⟨fun hfound => hnodup (nodup_foldl_insert hfound), fun name => ?_⟩
    rw [hnames, mem_foldl_insert, hasName_look hlook, or_left_comm, or_assoc]

/-! ## Escapes beyond the last code point -/

/-- A backslash and up to six hexadecimal digits behind it write a number beyond the last code
point. -/
def HasHighEscape (cs : List CodePoint) : Prop :=
  ∃ front digits behind, cs = front ++ .char '\\' :: (digits ++ behind) ∧ digits.length ≤ 6 ∧
    (∀ d ∈ digits, Text.isHexDigit d = true) ∧ 0x110000 ≤ Text.hexNumber digits

theorem HasHighEscape.of_suffix {cs rest : List CodePoint} (hsuffix : rest <:+ cs)
    (h : HasHighEscape rest) : HasHighEscape cs := by
  obtain ⟨before, rfl⟩ := hsuffix
  obtain ⟨front, digits, behind, rfl, hdigits⟩ := h
  exact ⟨before ++ front, digits, behind, by simp, hdigits⟩

theorem dropBlank_suffix (cs : List CodePoint) : dropBlank cs <:+ cs := by
  cases cs with
  | nil => exact List.suffix_rfl
  | cons c cs =>
    rw [dropBlank]
    split
    · exact List.suffix_cons c cs
    · exact List.suffix_rfl

/-- A character of a class name is in range unless it is written by an escape that is not. -/
theorem of_nameUnit? {cs rest : List CodePoint} {n : Nat} (h : nameUnit? cs = some (n, rest)) :
    rest <:+ cs ∧ (0x110000 ≤ n → HasHighEscape cs) := by
  unfold nameUnit? at h
  split at h
  · contradiction
  · next c behind =>
    split at h
    · next hc =>
      split at h
      · split at h
        · contradiction
        · next e after _ =>
          obtain ⟨-, h⟩ := Option.ite_none_left_eq_some.1 h
          obtain ⟨rfl, rfl⟩ := Prod.mk.inj (Option.some.inj h)
          refine ⟨(List.suffix_cons e _).trans (List.suffix_cons c _), fun hhigh => ?_⟩
          exact absurd e.toNat_lt (Nat.not_lt.2 hhigh)
      · obtain ⟨rfl, rfl⟩ := Prod.mk.inj (Option.some.inj h)
        -- The digits are those at the start of what follows the backslash.
        generalize hdigits : (behind.take 6).takeWhile Text.isHexDigit = digits
        have hbegins : digits <+: behind.take 6 := hdigits ▸ List.takeWhile_prefix _
        obtain ⟨after, rfl⟩ := hbegins.trans (List.take_prefix 6 behind)
        rw [List.drop_left]
        refine ⟨(dropBlank_suffix after).trans (.trans ⟨digits, rfl⟩ (List.suffix_cons c _)),
          fun hhigh => ?_⟩
        refine ⟨[], digits, after, by rw [hc]; rfl, ?_, fun d hd => ?_, hhigh⟩
        · exact Nat.le_trans hbegins.length_le (List.length_take_le 6 _)
        · rw [← hdigits] at hd
          exact List.all_eq_true.1 List.all_takeWhile d hd
    · obtain ⟨-, h⟩ := Option.ite_none_right_eq_some.1 h
      obtain ⟨rfl, rfl⟩ := Prod.mk.inj (Option.some.inj h)
      exact ⟨List.suffix_cons c _, fun hhigh => absurd c.toNat_lt (Nat.not_lt.2 hhigh)⟩

theorem of_readName (cs : List CodePoint) :
    (readName cs).2 <:+ cs ∧ ∀ n ∈ (readName cs).1, 0x110000 ≤ n → HasHighEscape cs := by
  fun_induction readName cs with
  | case1 => exact ⟨List.suffix_rfl, by simp⟩
  | case2 cs n rest h points behind heq ih =>
    obtain ⟨hsuffix, hhigh⟩ := of_nameUnit? h
    rw [heq] at ih
    refine ⟨ih.1.trans hsuffix, fun m hm hm' => ?_⟩
    rcases List.mem_cons.1 hm with rfl | hm
    · exact hhigh hm'
    · exact (ih.2 m hm hm').of_suffix hsuffix

/-- A class name in a text is in range unless there is an escape that is not. -/
theorem hasHighEscape_of_mem_namesIn {cs : List CodePoint} {points : List Nat} {n : Nat}
    (hpoints : points ∈ namesIn cs) (hn : n ∈ points) (hhigh : 0x110000 ≤ n) :
    HasHighEscape cs := by
  fun_induction namesIn cs with
  | case1 => contradiction
  | case2 cs _ _ ih => exact (ih hpoints).of_suffix (List.suffix_cons _ cs)
  | case3 cs first behind _ hread ih =>
    obtain ⟨hsuffix, hnames⟩ := of_readName cs
    rw [hread] at hsuffix hnames
    rcases List.mem_cons.1 hpoints with rfl | hpoints
    · exact (hnames n hn hhigh).of_suffix (List.suffix_cons _ cs)
    · exact (ih hpoints).of_suffix (hsuffix.trans (List.suffix_cons _ cs))
  | case4 c cs _ ih => exact (ih hpoints).of_suffix (List.suffix_cons c cs)

/-- Without an escape beyond the last code point in any prelude, the class names can be decoded. -/
theorem isDecodable_of_inside
    (h : ∀ around b, Inside blocks around b → ¬HasHighEscape b.prelude.toList) :
    IsDecodable blocks := by
  intro prelude hprelude points hpoints n hn
  obtain ⟨around, b, hinside, -, -, rfl⟩ := mem_selectorsOf_iff_inside.1 hprelude
  refine Nat.lt_of_not_le fun hhigh => h around b hinside ?_
  exact hasHighEscape_of_mem_namesIn hpoints hn hhigh

/-! ## The order of the blocks -/

/-- The same blocks in another order, and so inside them. -/
inductive Reordered : List Block → List Block → Prop where
  | nil : Reordered [] []
  | cons {p : Text} {children children' bs bs' : List Block}
      (hchildren : Reordered children children')
      (h : Reordered bs bs') : Reordered (⟨p, children⟩ :: bs) (⟨p, children'⟩ :: bs')
  | swap (a b : Block) (bs : List Block) : Reordered (a :: b :: bs) (b :: a :: bs)
  | trans {bs bs' bs'' : List Block} (h : Reordered bs bs') (h' : Reordered bs' bs'') :
      Reordered bs bs''

theorem Reordered.symm {bs bs' : List Block} (h : Reordered bs bs') : Reordered bs' bs := by
  induction h with
  | nil => exact .nil
  | cons _ _ ihchildren ih => exact .cons ihchildren ih
  | swap a b bs => exact .swap b a bs
  | trans _ _ ih ih' => exact .trans ih' ih

/-- Reordering keeps the preludes of the rules that are looked at. -/
theorem Reordered.perm_selectorsOf {bs bs' : List Block} (h : Reordered bs bs') :
    (selectorsOf bs).Perm (selectorsOf bs') := by
  induction h with
  | nil => exact .refl _
  | @cons p children children' bs bs' _ _ ihchildren ih =>
    have hisOpaque : Block.isOpaque ⟨p, children⟩ = Block.isOpaque ⟨p, children'⟩ := rfl
    have hrule : Block.isAtRule ⟨p, children⟩ = Block.isAtRule ⟨p, children'⟩ := rfl
    refine .append ?_ ih
    rw [Block.selectors, Block.selectors, hisOpaque, hrule]
    split
    · exact .refl _
    · split
      · exact ihchildren
      · exact ihchildren.cons p
  | swap a b bs =>
    simp only [selectorsOf, ← List.append_assoc]
    exact List.perm_append_comm.append_right _
  | trans _ _ ih ih' => exact ih.trans ih'

/-- Reordering keeps the preludes at all depths. -/
theorem Reordered.exists_inside {bs bs' around : List Block} (h : Reordered bs bs')
    (hb : Inside bs' around b) : ∃ around' b', Inside bs around' b' ∧ b'.prelude = b.prelude := by
  induction h generalizing around b with
  | nil => exact ⟨around, b, hb, rfl⟩
  | @cons p children children' bs bs' _ _ ihchildren ih =>
    have hb : Inside ([⟨p, children'⟩] ++ bs') around b := hb
    rcases inside_append hb with hb | hb
    · cases hb with
      | here hb =>
        obtain rfl := List.mem_singleton.1 hb
        exact ⟨[], ⟨p, children⟩, .here (List.mem_cons_self ..), rfl⟩
      | deeper ha hb =>
        obtain rfl := List.mem_singleton.1 ha
        obtain ⟨around', b', hb', hprelude⟩ := ihchildren hb
        exact ⟨_, b', .deeper (List.mem_cons_self ..) hb', hprelude⟩
    · obtain ⟨around', b', hb', hprelude⟩ := ih hb
      exact ⟨around', b', hb'.mono fun a ha => List.mem_cons_of_mem _ ha, hprelude⟩
  | swap a c bs => exact ⟨around, b, hb.mono fun d hd => (List.Perm.swap a c bs).mem_iff.1 hd, rfl⟩
  | trans _ _ ih ih' =>
    obtain ⟨around', b', hb', hprelude'⟩ := ih' hb
    obtain ⟨around'', b'', hb'', hprelude''⟩ := ih hb'
    exact ⟨around'', b'', hb'', hprelude''.trans hprelude'⟩

/-! ## Stylesheets that are read -/

/-- A stylesheet that is read is derived. -/
theorem exists_derives_of_read {source : Text} (h : read source = .ok blocks) :
    ∃ items, Derives (significant source) items ∧ blocksOf items = blocks := by
  unfold read at h
  split at h
  · contradiction
  · next parsed hparse =>
    split at h
    · obtain rfl := Except.ok.inj h
      exact derives_of_parse hparse
    · contradiction

/-- The recursive search finds the class names in the rules that are looked at. -/
theorem mem_classNames (h : classNames blocks = .ok names) :
    name ∈ names ↔ HasName blocks name := by
  obtain ⟨all, hall, rfl⟩ := map_eq_ok.1 h
  rw [List.mem_eraseDups, List.mem_flatten]
  constructor
  · rintro ⟨own, hown, hname⟩
    obtain ⟨prelude, hprelude, hnames⟩ := (mem_of_mapM_eq_ok hall).1 hown
    exact ⟨prelude, hprelude, own, hnames, hname⟩
  · rintro ⟨prelude, hprelude, own, hnames, hname⟩
    exact ⟨own, (mem_of_mapM_eq_ok hall).2 ⟨prelude, hprelude, hnames⟩, hname⟩

/-- The walk collects the class names in the rules that are looked at, from whichever end it
starts. -/
theorem exists_collect (hkeywords : ∀ around b, Inside blocks around b → keyword? b.prelude ≠ none)
    (hdecodable : IsDecodable blocks) :
    ∃ names, collect blocks = .ok names ∧ names.Nodup ∧
      ∀ name, name ∈ names ↔ HasName blocks name := by
  have hselectors : ∀ prelude,
      prelude ∈ selectorsOf blocks.reverse ↔ prelude ∈ selectorsOf blocks := by
    simp only [mem_selectorsOf_iff, List.mem_reverse, implies_true]
  obtain ⟨names, hnames⟩ : ∃ names, collectFrom [] blocks.reverse = .ok names :=
    exists_collectFrom (fun around b hb => hkeywords around b (hb.mono fun a => List.mem_reverse.1))
      fun prelude hmem => hdecodable prelude ((hselectors prelude).1 hmem)
  obtain ⟨hnodup, hmem⟩ := of_collectFrom hnames
  refine ⟨names, hnames, hnodup .nil, fun name => ?_⟩
  rw [hmem]
  simp only [HasName, hselectors, List.not_mem_nil, false_or]

/-- **The walk collects the class names of the blocks that are not opaque.** If no prelude has an
escape beyond the last code point, all class names can be decoded. Then the walk through a
stylesheet that was read ends with exactly the class names in the preludes of the ordinary rules
around which there is no opaque at-rule, as the recursive search does, and it ends with the same
class names if the blocks stand in another order. -/
theorem collect_of_read {source : Text} (hread : read source = .ok blocks) :
    ((∀ around b, Inside blocks around b → ¬HasHighEscape b.prelude.toList) → IsDecodable blocks) ∧
    (IsDecodable blocks → ∃ names, collect blocks = .ok names ∧ names.Nodup ∧
      (∀ name, name ∈ names ↔
        ∃ around b, Inside blocks around b ∧ (∀ a ∈ around, a.isOpaque = false) ∧
        b.isAtRule = false ∧ ∃ own, preludeNames b.prelude = .ok own ∧ name ∈ own) ∧
      (∃ names', classNames blocks = .ok names' ∧ ∀ name, name ∈ names' ↔ name ∈ names) ∧
      ∀ blocks', Reordered blocks blocks' →
        ∃ names', collect blocks' = .ok names' ∧ ∀ name, name ∈ names' ↔ name ∈ names) := by
  refine ⟨isDecodable_of_inside, fun hdecodable => ?_⟩
  obtain ⟨items, -, rfl⟩ := exists_derives_of_read hread
  obtain ⟨names, hnames, hnodup, hmem⟩ :=
    exists_collect (fun around b => keyword?_of_inside) hdecodable
  refine ⟨names, hnames, hnodup, fun name => ?_, ?_, fun blocks' hreordered => ?_⟩
  · rw [hmem, HasName]
    constructor
    · rintro ⟨prelude, hprelude, hname⟩
      obtain ⟨around, b, hinside, haround, hb, rfl⟩ := mem_selectorsOf_iff_inside.1 hprelude
      exact ⟨around, b, hinside, haround, hb, hname⟩
    · rintro ⟨around, b, hinside, haround, hb, hname⟩
      exact ⟨b.prelude, mem_selectorsOf_of_inside hinside haround hb, hname⟩
  · obtain ⟨names', hnames'⟩ := exists_classNames_iff.2 hdecodable
    exact ⟨names', hnames', fun name => (mem_classNames hnames').trans (hmem name).symm⟩
  · have hselectors := hreordered.perm_selectorsOf
    have hkeywords : ∀ around b, Inside blocks' around b → keyword? b.prelude ≠ none := by
      intro around b hb
      obtain ⟨around', b', hb', hprelude⟩ := hreordered.exists_inside hb
      exact hprelude ▸ keyword?_of_inside hb'
    obtain ⟨names', hnames', -, hmem'⟩ :=
      exists_collect hkeywords fun prelude hprelude =>
        hdecodable prelude (hselectors.mem_iff.2 hprelude)
    refine ⟨names', hnames', fun name => ?_⟩
    simp only [hmem, hmem', HasName, hselectors.mem_iff]

/-- At-rules that are opaque and not, a rule inside another, and an escape that writes a letter. -/
def mixedSource : Text :=
  "@media x \x7b.a,\n .b\x7b.c\x7b\x7d\x7d\x7d@PAGE\x7b.d\x7b\x7d\x7d.e\\66  :hover\x7b\x7d"

/-- How the stylesheet is derived. -/
def mixedItems : List Item :=
  [.block "@media x " [.block ".a,\n .b" [.block ".c" [] none] none] none,
    .block "@PAGE" [.block ".d" [] none] none, .block ".e\\66  :hover" [] none]

theorem read_mixedSource : read mixedSource = .ok (blocksOf mixedItems) := by
  have htokens : (tokens (significant mixedSource)).map Located.token = yieldOf mixedItems := by
    decide +kernel
  have hderives : Derives (significant mixedSource) mixedItems := by
    rw [Derives, ← htokens]
    exact splits_tokensFrom _ _ fun c => htokens ▸ stray_not_mem_yieldOf mixedItems c
  rw [read_of_derives hderives, if_pos (by decide +kernel)]

/-- In a stylesheet of all kinds of blocks, the class names of the ordinary rules outside of the
opaque at-rule are collected. -/
theorem mixedSource_collected :
    read mixedSource = .ok (blocksOf mixedItems) ∧ IsDecodable (blocksOf mixedItems) ∧
    ∃ names, collect (blocksOf mixedItems) = .ok names ∧
      ∀ name, name ∈ names ↔ name ∈ ["a", "b", "c", "ef"].map Text.ofString := by
  have hnames : classNames (blocksOf mixedItems) = .ok (["a", "b", "c", "ef"].map Text.ofString) :=
    eq_ok_of_toOption (by decide +kernel)
  have hdecodable : IsDecodable (blocksOf mixedItems) := exists_classNames_iff.1 ⟨_, hnames⟩
  obtain ⟨names, hcollect, -, -, ⟨names', hnames', hmem⟩, -⟩ :=
    (collect_of_read read_mixedSource).2 hdecodable
  obtain rfl := Except.ok.inj (hnames.symm.trans hnames')
  exact ⟨read_mixedSource, hdecodable, names, hcollect, fun name => (hmem name).symm⟩

end UtilityCss.Stylesheet
