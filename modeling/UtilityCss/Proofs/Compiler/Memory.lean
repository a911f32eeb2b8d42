import UtilityCss.Compiler
import UtilityCss.Proofs.Repetition
/-!
# The memory of a compiler

A compiler answers from memory what it was asked before. The memory never shows: as long as every
remembered answer is the answer of the vocabulary, which holds of a new compiler and goes on to
hold, class names are compiled as the vocabulary says, whatever was compiled before.
-/

namespace UtilityCss.Compiler

variable {c : Compiler} {v : Vocabulary} {asked : List Text}

/-- Every remembered answer is the answer of the vocabulary. -/
def Faithful (c : Compiler) : Prop :=
  ∀ name answer, c.cache.get? name = some answer → answer = c.vocabulary.compile name

theorem faithful_new (v : Vocabulary) : (new v).Faithful := by
  intro name answer h
  simp [new, OrderedMap.empty, OrderedMap.get?] at h

/-- One step of a faithful compiler. -/
theorem Faithful.compile (h : c.Faithful) (name : Text) :
    (c.compile name).1 = c.vocabulary.compile name ∧ (c.compile name).2.Faithful ∧
      (c.compile name).2.vocabulary = c.vocabulary := by
  unfold Compiler.compile
  split
  · next answer hknown => exact ⟨h name answer hknown, h, rfl⟩
  · -- The answer is new, and what is remembered for other names does not change.
    refine ⟨rfl, fun asked answer hanswer => ?_, rfl⟩
    rw [OrderedMap.get?_insert] at hanswer
    split at hanswer
    · next heq => rw [heq, ← Option.some.inj hanswer]
    · exact h asked answer hanswer

/-- **A faithful compiler compiles as its vocabulary does**, and stays faithful. -/
theorem Faithful.compileMany (h : c.Faithful) (names : List Text) :
    (c.compileMany names).1 = names.filterMap c.vocabulary.compile ∧
      (c.compileMany names).2.Faithful ∧ (c.compileMany names).2.vocabulary = c.vocabulary := by
  induction names generalizing c with
  | nil => exact ⟨rfl, h, rfl⟩
  | cons name names ih =>
    obtain ⟨hanswer, hfaithful, hsame⟩ := h.compile name
    obtain ⟨hrules, hfaithful', hsame'⟩ := ih hfaithful
    refine ⟨?_, hfaithful', hsame'.trans hsame⟩
    have hfirst : (c.compile name).1.toList ++ ((c.compile name).2.compileMany names).1 =
        (name :: names).filterMap c.vocabulary.compile := by
      rw [hanswer, hrules, hsame, List.filterMap_cons]
      cases c.vocabulary.compile name <;> rfl
    exact hfirst

/-! ## What a compiler counts

A compiler is asked for single class names and for many at once. Whatever it was asked before, it
answers each request as if every name were put to a compiler of its own that is new, and its
counters are exact: it computes one answer for each name that it has been asked, which it remembers
from then on, and every further time that the name is asked is a hit. A name that is not recognised
is remembered like any other. -/

/-- A request to a compiler. -/
inductive Request where
  | compile (name : Text)
  | compileMany (names : List Text)

/-- What a request is answered with. -/
inductive Reply where
  | answer (rule? : Option CssRule)
  | rules (rules : List CssRule)

/-- The names that a request asks for. -/
def Request.names : Request → List Text
  | compile name => [name]
  | compileMany names => names

/-- The reply to a request, and the compiler behind it. -/
def serve (c : Compiler) : Request → Reply × Compiler
  | .compile name =>
    let (rule?, c) := c.compile name
    (.answer rule?, c)
  | .compileMany names =>
    let (rules, c) := c.compileMany names
    (.rules rules, c)

/-- The replies to some requests, and the compiler behind them. -/
def serveAll (c : Compiler) : List Request → List Reply × Compiler
  | [] => ([], c)
  | request :: requests =>
    let (reply, c) := c.serve request
    let (replies, c) := c.serveAll requests
    (reply :: replies, c)

/-- The answer of a new compiler that is asked for one name only. -/
def answerAlone (v : Vocabulary) (name : Text) : Option CssRule := ((new v).compile name).1

/-- The reply to a request where every name is put to a new compiler. The recognised names have
their rules in the order of the names, also repeatedly. -/
def replyAlone (v : Vocabulary) : Request → Reply
  | .compile name => .answer (answerAlone v name)
  | .compileMany names => .rules (names.filterMap (answerAlone v))

theorem answerAlone_eq (v : Vocabulary) (name : Text) : answerAlone v name = v.compile name :=
  ((faithful_new v).compile name).1

/-! ## Counters -/

/-- The state of a compiler of `v` that was asked for the names `asked`, the latest last. -/
structure Recalls (v : Vocabulary) (asked : List Text) (c : Compiler) : Prop where
  vocabulary_eq : c.vocabulary = v
  faithful : c.Faithful
  keys_eq : c.cache.keys = asked.eraseDups
  misses_eq : c.misses = asked.eraseDups.length
  hits_add_misses : c.hits + c.misses = asked.length

theorem recalls_new (v : Vocabulary) : Recalls v [] (new v) where
  vocabulary_eq := rfl
  faithful := faithful_new v
  keys_eq := rfl
  misses_eq := rfl
  hits_add_misses := rfl

/-- One question: either it was asked before and is a hit, or it is new and a miss. -/
theorem Recalls.compile (h : Recalls v asked c) (name : Text) :
    Recalls v (asked ++ [name]) (c.compile name).2 := by
  obtain ⟨-, hfaithful, hsame⟩ := h.faithful.compile name
  have hvocabulary : (c.compile name).2.vocabulary = v := hsame.trans h.vocabulary_eq
  have hasked : name ∈ asked ↔ ∃ answer, c.cache.get? name = some answer := by
    rw [← OrderedMap.mem_keys_iff, h.keys_eq, List.mem_eraseDups]
  have hcount := h.hits_add_misses
  by_cases hname : name ∈ asked
  · -- A hit: the names that were asked are the same, and only the hits have grown.
    obtain ⟨answer, hanswer⟩ := hasked.1 hname
    have hdistinct : (asked ++ [name]).eraseDups = asked.eraseDups := by
      rw [eraseDups_concat, if_pos hname]
    have hnext : (c.compile name).2 = { c with hits := c.hits + 1 } := by
      rw [Compiler.compile, hanswer]
    refine ⟨hvocabulary, hfaithful, ?_, ?_, ?_⟩
    · rw [hnext, hdistinct]
      exact h.keys_eq
    · rw [hnext, hdistinct]
      exact h.misses_eq
    · rw [hnext, List.length_append]
      show c.hits + 1 + c.misses = asked.length + 1
      omega
  · -- A miss: the name joins those that are remembered, at their end.
    have hunknown : c.cache.get? name = none := by
      rw [OrderedMap.get?_eq_none_iff, h.keys_eq, List.mem_eraseDups]
      exact hname
    have hdistinct : (asked ++ [name]).eraseDups = asked.eraseDups ++ [name] := by
      rw [eraseDups_concat, if_neg hname]
    have hnext : (c.compile name).2 =
        { c with cache := c.cache.insert name (c.vocabulary.compile name), misses :=
          c.misses + 1 } := by
      rw [Compiler.compile, hunknown]
    refine ⟨hvocabulary, hfaithful, ?_, ?_, ?_⟩
    · rw [hnext, hdistinct, ← h.keys_eq]
      exact OrderedMap.keys_insert_of_not_mem _ (OrderedMap.get?_eq_none_iff.1 hunknown)
    · rw [hnext, hdistinct, List.length_append, ← h.misses_eq]
      rfl
    · rw [hnext, List.length_append]
      show c.hits + (c.misses + 1) = asked.length + 1
      omega

theorem Recalls.compileMany (h : Recalls v asked c) (names : List Text) :
    Recalls v (asked ++ names) (c.compileMany names).2 := by
  induction names generalizing c asked with
  | nil =>
    rw [List.append_nil]
    exact h
  | cons name names ih =>
    have hrest := ih (h.compile name)
    rw [List.append_assoc] at hrest
    exact hrest

/-- One request: the reply is that of new compilers, and the names of the request were asked. -/
theorem Recalls.serve (h : Recalls v asked c) (request : Request) :
    (c.serve request).1 = replyAlone v request ∧
      Recalls v (asked ++ request.names) (c.serve request).2 := by
  have halone : answerAlone v = c.vocabulary.compile := by
    funext name
    rw [answerAlone_eq, h.vocabulary_eq]
  cases request with
  | compile name =>
    refine ⟨?_, h.compile name⟩
    show Reply.answer (c.compile name).1 = .answer (answerAlone v name)
    rw [(h.faithful.compile name).1, halone]
  | compileMany names =>
    refine ⟨?_, h.compileMany names⟩
    show Reply.rules (c.compileMany names).1 = .rules (names.filterMap (answerAlone v))
    rw [(h.faithful.compileMany names).1, halone]

theorem Recalls.serveAll (h : Recalls v asked c) (requests : List Request) :
    (c.serveAll requests).1 = requests.map (replyAlone v) ∧
      Recalls v (asked ++ requests.flatMap Request.names) (c.serveAll requests).2 := by
  induction requests generalizing c asked with
  | nil =>
    rw [List.flatMap_nil, List.append_nil]
    exact ⟨rfl, h⟩
  | cons request requests ih =>
    obtain ⟨hreply, hserved⟩ := h.serve request
    obtain ⟨hreplies, hrest⟩ := ih hserved
    rw [List.append_assoc] at hrest
    refine ⟨?_, hrest⟩
    show (c.serve request).1 :: ((c.serve request).2.serveAll requests).1 = _
    rw [hreply, hreplies, List.map_cons]

/-- **The memory is invisible, and its counters are exact.** After any requests, all replies were
those of new compilers; the misses are the remembered names, which are the distinct names asked so
far; and hits and misses together are all the names asked so far. -/
theorem serveAll_new (v : Vocabulary) (requests : List Request) :
    ((new v).serveAll requests).1 = requests.map (replyAlone v) ∧
    ((new v).serveAll requests).2.misses = ((new v).serveAll requests).2.cache.size ∧
    ((new v).serveAll requests).2.cache.size = (requests.flatMap Request.names).eraseDups.length ∧
    ((new v).serveAll requests).2.hits + ((new v).serveAll requests).2.misses =
      (requests.flatMap Request.names).length := by
  obtain ⟨hreplies, hstate⟩ := (recalls_new v).serveAll requests
  rw [List.nil_append] at hstate
  have hsize : ((new v).serveAll requests).2.cache.size =
      (requests.flatMap Request.names).eraseDups.length := by
    rw [← hstate.keys_eq, OrderedMap.keys, List.length_map]
    rfl
  exact ⟨hreplies, hstate.misses_eq.trans hsize.symm, hsize, hstate.hits_add_misses⟩

-- A name that is not recognised is looked at once.
example (v : Vocabulary) :
    let c := ((new v).serveAll [.compile "x", .compileMany ["x", "y"], .compile "x"]).2
    (c.hits, c.misses) = (2, 2) := rfl

end UtilityCss.Compiler
