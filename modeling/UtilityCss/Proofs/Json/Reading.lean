import UtilityCss.Proofs.Answers
import UtilityCss.Proofs.Config.Members
import UtilityCss.Proofs.Json.Grammar
/-!
# Reading what a text writes

The reader goes through the tokens of a text once, with a stack of the containers that are still
open. It closes every object as soon as its last member is read, and how it does so is up to the
policy for keys. For a text that writes a value, this is the same as to close the objects of the
value from the inside to the outside and from the left to the right, and the first object that
cannot be closed is what is reported. In the other direction, whenever the reader answers, its text
writes a value: the stack stands for tokens that begin a value, and under a policy that keeps all
members the value is the answer.
-/

namespace UtilityCss.Json

variable {policy : KeyPolicy} {length : Nat} {text : Text} {v v' : Json} {ts : List Token}

/-! ## Values under a policy -/

mutual

/-- A value inside of `depth` open containers under a policy. Every object is closed with its
members in order, after the objects inside it and before whatever stands behind it. -/
def settle (policy : KeyPolicy) (depth : Nat) : Json → Except ReadError Json
  | arr items =>
    if nestingLimit ≤ depth then .error (.nestedTooDeep .array)
    else (settleItems policy (depth + 1) items).map arr
  | obj members =>
    if nestingLimit ≤ depth then .error (.nestedTooDeep .object)
    else settleMembers policy (depth + 1) members >>= closeObject policy depth
  | v => .ok v

/-- The items of an array under a policy, one after the other. -/
def settleItems (policy : KeyPolicy) (depth : Nat) : List Json → Except ReadError (List Json)
  | [] => .ok []
  | v :: vs => do return (← settle policy depth v) :: (← settleItems policy depth vs)

/-- The members of an object under a policy, one after the other. -/
def settleMembers (policy : KeyPolicy) (depth : Nat) :
    List (Text × Json) → Except ReadError (List (Text × Json))
  | [] => .ok []
  | (k, v) :: rest => do return (k, ← settle policy depth v) :: (← settleMembers policy depth rest)

end

/-! ## What is written is read -/

theorem ok_bind {α β : Type} (a : α) (f : α → Except ReadError β) : (Except.ok a >>= f) = f a := rfl

theorem exists_located {ls : List Located} {t : Token} (h : ls.map Located.token = t :: ts) :
    ∃ offset rest, ls = ⟨t, offset⟩ :: rest ∧ rest.map Located.token = ts := by
  obtain ⟨⟨t', offset⟩, rest, rfl, rfl, hrest⟩ := List.map_eq_cons_iff.1 h
  exact ⟨offset, rest, rfl, hrest⟩

theorem readTokens_openBracket (stack : List Frame) (mayClose : Bool) (offset : Nat)
    (ls : List Located) :
    readTokens policy length stack (.value mayClose) (⟨.openBracket, offset⟩ :: ls) =
      if nestingLimit ≤ stack.length then .error (.nestedTooDeep .array)
      else readTokens policy length (.array [] :: stack) (.value true) ls := by
  by_cases hdeep : nestingLimit ≤ stack.length <;> simp [readTokens, step, openFrame, hdeep]

theorem readTokens_openBrace (stack : List Frame) (mayClose : Bool) (offset : Nat)
    (ls : List Located) :
    readTokens policy length stack (.value mayClose) (⟨.openBrace, offset⟩ :: ls) =
      if nestingLimit ≤ stack.length then .error (.nestedTooDeep .object)
      else readTokens policy length stack (.key [] true) ls := by
  by_cases hdeep : nestingLimit ≤ stack.length <;> simp [readTokens, step, openFrame, hdeep]

theorem readTokens_closeBrace (below : List Frame) (members : List (Text × Json))
    (key : Text) (v : Json) (offset : Nat) (ls : List Located) :
    readTokens policy length (.object members key :: below) (.after v)
      (⟨.closeBrace, offset⟩ :: ls) =
      closeObject policy below.length (members.reverse ++ [(key, v)]) >>= fun o =>
        readTokens policy length below (.after o) ls := by
  rw [← List.reverse_cons, readTokens, step]
  cases closeObject policy below.length ((key, v) :: members).reverse <;> rfl

/-- A key and a colon lead to the value of a member. -/
theorem readTokens_member (policy : KeyPolicy) (length : Nat) {ls : List Located} {key : Text}
    (below : List Frame) (members : List (Text × Json)) (mayClose : Bool)
    (h : ls.map Located.token = .string key :: .colon :: ts) :
    ∃ rest, rest.map Located.token = ts ∧ ∀ back,
      readTokens policy length below (.key members mayClose) (ls ++ back) =
        readTokens policy length (.object members key :: below) (.value false) (rest ++ back) := by
  obtain ⟨o, tail, rfl, htail⟩ := exists_located h
  obtain ⟨o', rest, rfl, hrest⟩ := exists_located htail
  exact ⟨rest, hrest, fun back => rfl⟩

mutual

/-- The tokens of a value are read as the value under the policy, wherever they stand. -/
theorem readTokens_yield :
    ∀ (v : Json) (stack : List Frame) (mayClose : Bool) (front back : List Located),
    front.map Located.token = v.yield →
    readTokens policy length stack (.value mayClose) (front ++ back) =
      settle policy stack.length v >>= fun v' => readTokens policy length stack (.after v') back
  -- Each value is read from its own tokens, and the stack below comes back as it was. An array or
  -- an object has one more frame for its first item, and the others are read from there.
  | .arr [], stack, mayClose, front, back, h => by
    obtain ⟨o, tail, rfl, htail⟩ := exists_located h
    obtain ⟨o', rest, rfl, hrest⟩ := exists_located htail
    obtain rfl := List.map_eq_nil_iff.1 hrest
    rw [List.cons_append, readTokens_openBracket, settle]
    split <;> rfl
  | .arr (v :: vs), stack, mayClose, front, back, h => by
    obtain ⟨o, tail, rfl, htail⟩ := exists_located h
    obtain ⟨first, more, rfl, hfirst, hmore⟩ := List.map_eq_append_iff.1 htail
    rw [List.cons_append, readTokens_openBracket, settle]
    split
    · rfl
    · rw [List.append_assoc, readTokens_yield v _ _ first _ hfirst, settleItems, List.length_cons]
      cases settle policy (stack.length + 1) v with
      | error e => rfl
      | ok v' =>
        refine (readTokens_moreItems vs stack [] v' more back hmore).trans ?_
        cases settleItems policy (stack.length + 1) vs <;> rfl
  | .obj [], stack, mayClose, front, back, h => by
    obtain ⟨o, tail, rfl, htail⟩ := exists_located h
    obtain ⟨o', rest, rfl, hrest⟩ := exists_located htail
    obtain rfl := List.map_eq_nil_iff.1 hrest
    rw [List.cons_append, readTokens_openBrace, settle]
    split
    · rfl
    · rw [settleMembers, ok_bind, List.cons_append, readTokens, step, List.reverse_nil]
      cases closeObject policy stack.length [] <;> rfl
  | .obj ((key, v) :: members), stack, mayClose, front, back, h => by
    obtain ⟨o, tail, rfl, htail⟩ := exists_located h
    obtain ⟨rest, hrest, hmember⟩ := readTokens_member policy length stack [] true htail
    obtain ⟨first, more, rfl, hfirst, hmore⟩ := List.map_eq_append_iff.1 hrest
    rw [List.cons_append, readTokens_openBrace, settle]
    split
    · rfl
    · rw [hmember, List.append_assoc, readTokens_yield v _ _ first _ hfirst, settleMembers,
        List.length_cons]
      cases settle policy (stack.length + 1) v with
      | error e => rfl
      | ok v' =>
        refine (readTokens_moreMembers members stack [] key v' more back hmore).trans ?_
        cases settleMembers policy (stack.length + 1) members <;> rfl
  | .str s, stack, mayClose, front, back, h => by
    obtain ⟨o, rest, rfl, hrest⟩ := exists_located h
    obtain rfl := List.map_eq_nil_iff.1 hrest
    rfl
  | .null, stack, mayClose, front, back, h
  | .bool b, stack, mayClose, front, back, h
  | .int i, stack, mayClose, front, back, h
  | .float x, stack, mayClose, front, back, h => by
    obtain ⟨o, rest, rfl, hrest⟩ := exists_located h
    obtain rfl := List.map_eq_nil_iff.1 hrest
    rfl

/-- Behind an item of an array, the other items are read. -/
theorem readTokens_moreItems : ∀ (vs : List Json) (below : List Frame) (done : List Json) (v : Json)
    (front back : List Located), front.map Located.token = moreItems vs →
    readTokens policy length (.array done :: below) (.after v) (front ++ back) =
      settleItems policy (below.length + 1) vs >>= fun vs' =>
        readTokens policy length below (.after (.arr (done.reverse ++ v :: vs'))) back
  | [], below, done, v, front, back, h => by
    obtain ⟨o, rest, rfl, hrest⟩ := exists_located h
    obtain rfl := List.map_eq_nil_iff.1 hrest
    rw [settleItems, ok_bind, ← List.reverse_cons]
    rfl
  | w :: ws, below, done, v, front, back, h => by
    obtain ⟨o, tail, rfl, htail⟩ := exists_located h
    obtain ⟨first, more, rfl, hfirst, hmore⟩ := List.map_eq_append_iff.1 htail
    have hcomma :
        readTokens policy length (.array done :: below) (.after v)
          (⟨.comma, o⟩ :: (first ++ more) ++ back) =
        readTokens policy length (.array (v :: done) :: below) (.value false)
          (first ++ more ++ back) := rfl
    rw [hcomma, List.append_assoc, readTokens_yield w _ _ first _ hfirst, settleItems,
      List.length_cons]
    cases settle policy (below.length + 1) w with
    | error e => rfl
    | ok w' =>
      refine (readTokens_moreItems ws below (v :: done) w' more back hmore).trans ?_
      rw [List.reverse_cons]
      simp only [List.append_assoc, List.singleton_append]
      cases settleItems policy (below.length + 1) ws <;> rfl

/-- Behind a member of an object, the other members are read, and then the object is closed. -/
theorem readTokens_moreMembers :
    ∀ (ms : List (Text × Json)) (below : List Frame) (done : List (Text × Json))
    (key : Text) (v : Json) (front back : List Located), front.map Located.token = moreMembers ms →
    readTokens policy length (.object done key :: below) (.after v) (front ++ back) =
      settleMembers policy (below.length + 1) ms >>= fun ms' =>
        closeObject policy below.length (done.reverse ++ (key, v) :: ms') >>= fun o =>
          readTokens policy length below (.after o) back
  | [], below, done, key, v, front, back, h => by
    obtain ⟨o, rest, rfl, hrest⟩ := exists_located h
    obtain rfl := List.map_eq_nil_iff.1 hrest
    rw [settleMembers, ok_bind, List.singleton_append, readTokens_closeBrace]
  | (k, w) :: ms, below, done, key, v, front, back, h => by
    -- The comma puts the member that was read to those that are done, and the next one is current.
    obtain ⟨o, tail, rfl, htail⟩ := exists_located h
    obtain ⟨rest, hrest, hmember⟩ :=
      readTokens_member policy length below ((key, v) :: done) false htail
    obtain ⟨first, more, rfl, hfirst, hmore⟩ := List.map_eq_append_iff.1 hrest
    have hcomma : readTokens policy length (.object done key :: below) (.after v)
        (⟨.comma, o⟩ :: tail ++ back) =
        readTokens policy length below (.key ((key, v) :: done) false) (tail ++ back) := rfl
    rw [hcomma, hmember, List.append_assoc, readTokens_yield w _ _ first _ hfirst, settleMembers,
      List.length_cons]
    cases settle policy (below.length + 1) w with
    | error e => rfl
    | ok w' =>
      refine (readTokens_moreMembers ms below ((key, v) :: done) k w' more back hmore).trans ?_
      rw [List.reverse_cons]
      simp only [List.append_assoc, List.singleton_append]
      cases settleMembers policy (below.length + 1) ms <;> rfl

end

/-- A text that writes a value does not start with a byte order mark. -/
theorem Writes.head?_ne (h : Writes text v) : text.toList.head? ≠ some (.char '\uFEFF') := by
  intro hmark
  obtain ⟨rest, hrest⟩ : ∃ rest, text.toList = .char '\uFEFF' :: rest := by
    cases hchars : text.toList with
    | nil => simp [hchars] at hmark
    | cons c rest => exact ⟨rest, by simpa [hchars] using hmark⟩
  obtain ⟨token, hfirst, hne⟩ := exists_head?_yield v
  rw [← h, hrest, tokens, tokensFrom, if_neg (by decide), readToken_of_outside 0 (by decide)]
    at hfirst
  exact hne (Option.some.inj hfirst).symm

/-- **Reading closes the objects that a text writes**, innermost first and in the order in which
they end. -/
theorem read_of_writes (h : Writes text v) : read policy text = settle policy 0 v := by
  have hread : readTokens policy text.toList.length [] (.value false) (tokens text.toList ++ []) =
      settle policy 0 v >>= fun v' => readTokens policy text.toList.length [] (.after v') [] :=
    readTokens_yield v [] false (tokens text.toList) [] h
  rw [List.append_nil] at hread
  rw [read, if_neg h.head?_ne, hread]
  exact bind_pure _

/-! ## What is read was written -/

/-- The tokens of the items of an array, each with a comma behind it. -/
def itemTokens (items : List Json) : List Token := items.flatMap fun v => v.yield ++ [.comma]

/-- The tokens of the members of an object, each with a comma behind it. -/
def memberTokens (members : List (Text × Json)) : List Token :=
  members.flatMap fun m => .string m.1 :: .colon :: (m.2.yield ++ [.comma])

/-- The tokens that have led into an open container. -/
def Frame.tokens : Frame → List Token
  | .array items => .openBracket :: itemTokens items.reverse
  | .object members key => .openBrace :: (memberTokens members.reverse ++ [.string key, .colon])

/-- The tokens that have led into all open containers. -/
def stackTokens (stack : List Frame) : List Token := stack.reverse.flatMap Frame.tokens

/-- The tokens that have led to what the reader is about to see. -/
def Expectation.tokens : Expectation → List Token
  | .value _ => []
  | .key members _ => .openBrace :: memberTokens members.reverse
  | .colon members k => .openBrace :: (memberTokens members.reverse ++ [.string k])
  | .after v => v.yield

theorem yield_arr (items : List Json) (v : Json) :
    (arr (items ++ [v])).yield =
      .openBracket :: (itemTokens items ++ v.yield ++ [.closeBracket]) := by
  have hmore (items : List Json) :
      .comma :: (itemTokens items ++ v.yield ++ [.closeBracket]) = moreItems (items ++ [v]) := by
    induction items with
    | nil => simp [itemTokens, moreItems]
    | cons w items ih =>
      simp only [itemTokens, List.flatMap_cons, List.append_assoc, List.cons_append, moreItems]
        at ih ⊢
      rw [← ih]
      simp
  cases items with
  | nil => simp [itemTokens, yield, moreItems]
  | cons w items =>
    rw [List.cons_append, yield, ← hmore]
    simp [itemTokens]

theorem yield_obj (members : List (Text × Json)) (key : Text) (v : Json) :
    (obj (members ++ [(key, v)])).yield =
      .openBrace ::
        (memberTokens members ++ .string key :: .colon :: (v.yield ++ [.closeBrace])) := by
  have hmore (members : List (Text × Json)) :
      .comma :: (memberTokens members ++ .string key :: .colon :: (v.yield ++ [.closeBrace])) =
        moreMembers (members ++ [(key, v)]) := by
    induction members with
    | nil => simp [memberTokens, moreMembers]
    | cons m members ih =>
      obtain ⟨k, w⟩ := m
      simp only [memberTokens, List.flatMap_cons, List.append_assoc, List.cons_append, moreMembers]
        at ih ⊢
      rw [← ih]
      simp
  cases members with
  | nil => simp [memberTokens, yield, moreMembers]
  | cons m members =>
    obtain ⟨k, w⟩ := m
    rw [List.cons_append, yield, ← hmore]
    simp [memberTokens]

/-- A container that may be closed at once has just been opened. -/
def Fresh (stack : List Frame) : Expectation → Prop
  | .value true => ∃ below, stack = .array [] :: below
  | .key members true => members = []
  | _ => True

/-- A policy under which an object that is closed has its members as they stand. -/
def KeyPolicy.Keeps (policy : KeyPolicy) : Prop :=
  ∀ depth members o, closeObject policy depth members = .ok o → o = .obj members

theorem keeps_distinct : KeyPolicy.distinct.Keeps := by
  intro depth members o h
  unfold closeObject at h
  dsimp only at h
  split at h
  · contradiction
  · split at h
    · contradiction
    · exact (Except.ok.inj h).symm

theorem stackTokens_cons (f : Frame) (below : List Frame) :
    stackTokens (f :: below) = stackTokens below ++ f.tokens := by
  simp [stackTokens]

section Steps

variable {stack stack' : List Frame} {expected expected' : Expectation} {t : Located}

/-- The tokens that have led to a state of the reader. -/
def ledTo (s : List Frame × Expectation) : List Token := stackTokens s.1 ++ s.2.tokens

/-- A step that leads from one state to another, with its token. -/
def Leads (stack : List Frame) (expected : Expectation) (t : Token) (s : List Frame × Expectation) :
    Prop :=
  ledTo s = ledTo (stack, expected) ++ [t] ∧ Fresh s.1 s.2

theorem leads_value {mayClose : Bool} {s : List Frame × Expectation}
    (hscalar : ∀ v, t.token = .scalar v → v.isScalar = true)
    (hfresh : Fresh stack (.value mayClose))
    (hstep : step policy stack (.value mayClose) t = .ok s) :
    Leads stack (.value mayClose) t.token s := by
  unfold step at hstep
  dsimp only at hstep
  -- One case for each token that may stand where a value is expected; the rest is refused.
  split at hstep
  · next s ht =>
    rw [ht, ← Except.ok.inj hstep]
    exact ⟨by simp [ledTo, Expectation.tokens, yield], trivial⟩
  · next v ht =>
    rw [ht, ← Except.ok.inj hstep]
    exact ⟨by simp [ledTo, Expectation.tokens, yield_of_isScalar (hscalar v ht)], trivial⟩
  · next ht =>
    rw [openFrame] at hstep
    split at hstep
    · contradiction
    · rw [ht, ← Except.ok.inj hstep]
      exact ⟨by simp [ledTo, Expectation.tokens, stackTokens_cons, Frame.tokens, itemTokens], _,
        rfl⟩
  · next ht =>
    rw [openFrame] at hstep
    split at hstep
    · contradiction
    · rw [ht, ← Except.ok.inj hstep]
      exact ⟨by simp [ledTo, Expectation.tokens, memberTokens], rfl⟩
  · next ht =>
    split at hstep
    · next items below =>
      obtain ⟨below', hbelow⟩ := hfresh
      obtain ⟨rfl, -⟩ : items = [] ∧ below = below' := by simpa using hbelow
      rw [ht, ← Except.ok.inj hstep]
      exact ⟨by simp [ledTo, Expectation.tokens, stackTokens_cons, Frame.tokens, itemTokens, yield],
        trivial⟩
    · contradiction
  · contradiction

theorem leads_key (hkeeps : policy.Keeps) {members : List (Text × Json)} {mayClose : Bool}
    {s : List Frame × Expectation} (hfresh : Fresh stack (.key members mayClose))
    (hstep : step policy stack (.key members mayClose) t = .ok s) :
    Leads stack (.key members mayClose) t.token s := by
  unfold step at hstep
  dsimp only at hstep
  split at hstep
  · next k ht =>
    rw [ht, ← Except.ok.inj hstep]
    exact ⟨by simp [ledTo, Expectation.tokens], trivial⟩
  · next ht =>
    split at hstep
    · next hclose =>
      obtain rfl : members = [] := by
        subst hclose
        exact hfresh
      obtain ⟨o, ho, hs⟩ := bind_eq_ok.1 hstep
      rw [ht, ← Except.ok.inj hs, hkeeps _ _ _ ho]
      exact ⟨by simp [ledTo, Expectation.tokens, memberTokens, yield], trivial⟩
    · contradiction
  · contradiction

theorem leads_colon {members : List (Text × Json)} {k : Text} {s : List Frame × Expectation}
    (hstep : step policy stack (.colon members k) t = .ok s) :
    Leads stack (.colon members k) t.token s := by
  unfold step at hstep
  dsimp only at hstep
  split at hstep
  · next ht =>
    rw [ht, ← Except.ok.inj hstep]
    exact ⟨by simp [ledTo, Expectation.tokens, stackTokens_cons, Frame.tokens], trivial⟩
  · contradiction

theorem leads_after (hkeeps : policy.Keeps) {s : List Frame × Expectation}
    (hstep : step policy stack (.after v) t = .ok s) : Leads stack (.after v) t.token s := by
  unfold step at hstep
  dsimp only at hstep
  -- Behind a value the innermost container goes on or is closed; without one nothing may follow.
  split at hstep
  · contradiction
  · next items below =>
    split at hstep
    · next ht =>
      rw [ht, ← Except.ok.inj hstep]
      exact ⟨by simp [ledTo, Expectation.tokens, stackTokens_cons, Frame.tokens, itemTokens],
        trivial⟩
    · next ht =>
      rw [ht, ← Except.ok.inj hstep, List.reverse_cons]
      exact ⟨by simp [ledTo, Expectation.tokens, stackTokens_cons, Frame.tokens, yield_arr],
        trivial⟩
    · contradiction
  · next members k below =>
    split at hstep
    · next ht =>
      rw [ht, ← Except.ok.inj hstep]
      exact ⟨by simp [ledTo, Expectation.tokens, stackTokens_cons, Frame.tokens, memberTokens],
        trivial⟩
    · next ht =>
      obtain ⟨o, ho, hs⟩ := bind_eq_ok.1 hstep
      rw [ht, ← Except.ok.inj hs, hkeeps _ _ _ ho, List.reverse_cons]
      exact ⟨by simp [ledTo, Expectation.tokens, stackTokens_cons, Frame.tokens, yield_obj],
        trivial⟩
    · contradiction

/-- **One step**: the tokens that have led to the reader's state are joined by the one that it
reads. -/
theorem leads_step (hkeeps : policy.Keeps) {s : List Frame × Expectation}
    (hscalar : ∀ v, t.token = .scalar v → v.isScalar = true) (hfresh : Fresh stack expected)
    (hstep : step policy stack expected t = .ok s) : Leads stack expected t.token s := by
  cases expected with
  | value mayClose => exact leads_value hscalar hfresh hstep
  | key members mayClose => exact leads_key hkeeps hfresh hstep
  | colon members k => exact leads_colon hstep
  | after v => exact leads_after hkeeps hstep

/-- **A run**: if a value is read, all tokens together are its tokens. -/
theorem ledTo_of_readTokens (hkeeps : policy.Keeps) {ls : List Located}
    (hscalar : ∀ t ∈ ls, ∀ v, t.token = .scalar v → v.isScalar = true)
    (hfresh : Fresh stack expected) (hread : readTokens policy length stack expected ls = .ok v) :
    ledTo (stack, expected) ++ ls.map Located.token = v.yield := by
  induction ls generalizing stack expected with
  | nil =>
    unfold readTokens finish at hread
    split at hread
    · contradiction
    · contradiction
    · contradiction
    · next w =>
      split at hread
      · next hempty =>
        rw [List.isEmpty_iff.1 hempty, Except.ok.inj hread]
        simp [ledTo, stackTokens, Expectation.tokens]
      · contradiction
  | cons t ls ih =>
    rw [List.forall_mem_cons] at hscalar
    rw [readTokens] at hread
    split at hread
    · next stack' expected' hstep =>
      obtain ⟨htokens, hfresh'⟩ := leads_step hkeeps hscalar.1 hfresh hstep
      rw [← ih hscalar.2 hfresh' hread, htokens]
      simp
    · contradiction

end Steps

/-- **What is read was written**, if objects keep their members. -/
theorem writes_of_read (hkeeps : policy.Keeps) (h : read policy text = .ok v) : Writes text v := by
  rw [read] at h
  split at h
  · contradiction
  · have hyield : ledTo ([], .value false) ++ (tokens text.toList).map Located.token = v.yield :=
      ledTo_of_readTokens hkeeps (fun t ht v hv => isScalar_of_mem_tokens ht hv) trivial h
    exact hyield

end UtilityCss.Json
