import UtilityCss.Proofs.Scheduler.SingleFlight
/-!
# The queues

Which files wait for the next batch, and which removals wait to be handled, is determined by what
has happened: no event is lost, counted twice or brought back. A file waits if it has changed since
it was last dropped from the batch, be it by a removal or because its batch was taken; the files
wait in the order in which they joined. Every removal is handled once, in order. Steps are not
nested here: a step within a step takes removals that came after those that the outer step still
holds.
-/

namespace UtilityCss

/-! ## Reading histories -/

namespace Moment

/-- Whether the moment takes a path out of the next batch. -/
def drops (path : Text) (m : Moment) : Bool :=
  match m.happening with
  | .removed removed => removed = path
  | .taken files => path ∈ files
  | _ => false

/-- The batch that was taken. -/
def taken? (m : Moment) : Option (List Text) :=
  match m.happening with
  | .taken files => some files
  | _ => none

/-- The path that the processor was called to forget. -/
def forgotten? (m : Moment) : Option Text :=
  match m.happening with
  | .forgetBegan path => some path
  | _ => none

/-- The path that was removed. -/
def removed? (m : Moment) : Option Text :=
  match m.happening with
  | .removed path => some path
  | _ => none

end Moment

namespace Chronicle

/-- The moments since a path was last dropped. -/
def sinceDropped (path : Text) (h : List Moment) : List Moment := h.takeWhile (!Moment.drops path ·)

/-- A path has changed since it was last dropped. -/
def Waits (path : Text) (h : List Moment) : Prop :=
  ∃ m ∈ sinceDropped path h, m.happening = .changed path

/-- How many moments there were before the earliest change of a path since it was last dropped. -/
def joined (path : Text) : List Moment → Option Nat
  | [] => none
  | m :: h =>
    if m.drops path then none
    else if m.happening = .changed path then some ((joined path h).getD h.length)
    else joined path h

/-- The paths that the processor was called to forget, in order. -/
def forgotten (h : List Moment) : List Text := (h.filterMap Moment.forgotten?).reverse

/-- The paths that were removed, in order. -/
def removed (h : List Moment) : List Text := (h.filterMap Moment.removed?).reverse

/-- The removals that running steps have taken and not handled. -/
def held (h : List Moment) : List Text := (stages h).flatMap Stage.held

@[simp] theorem forgotten_cons (m : Moment) (h : List Moment) :
    forgotten (m :: h) = forgotten h ++ m.forgotten?.toList := by
  cases hm : m.forgotten? <;> simp [forgotten, hm]

@[simp] theorem removed_cons (m : Moment) (h : List Moment) :
    removed (m :: h) = removed h ++ m.removed?.toList := by
  cases hm : m.removed? <;> simp [removed, hm]

theorem joined_isSome {path : Text} {h : List Moment} : (joined path h).isSome ↔ Waits path h := by
  unfold Waits sinceDropped
  induction h with
  | nil => simp [joined]
  | cons m h ih =>
    by_cases hdrops : m.drops path
    · simp [joined, hdrops]
    · by_cases hchanged : m.happening = .changed path
      · simp [joined, hdrops, hchanged]
      · simp [joined, hdrops, hchanged, ih]

theorem joined_lt {path : Text} {h : List Moment} {i : Nat} (hi : joined path h = some i) :
    i < h.length := by
  induction h generalizing i with
  | nil => simp [joined] at hi
  | cons m h ih =>
    simp only [joined] at hi
    split at hi
    · simp at hi
    · split at hi
      · cases hj : joined path h with
        | none => simp_all
        | some j => have := ih hj; simp_all; omega
      · have := ih hi
        simp only [List.length_cons]
        omega

/-! ## The next batch -/

/-- A batch holds the waiting paths once each, in the order in which they joined. -/
structure Ordered (pending : List Text) (h : List Moment) : Prop where
  mem_iff : ∀ path, path ∈ pending ↔ (joined path h).isSome
  nodup : pending.Nodup
  inOrder : pending.Pairwise fun p q => ∃ i j, joined p h = some i ∧ joined q h = some j ∧ i < j

namespace Ordered

variable {pending : List Text} {m : Moment} {h : List Moment} {path : Text}

/-- Other happenings leave the batch as it is. -/
theorem cons (ho : Ordered pending h) (hm : ∀ path, joined path (m :: h) = joined path h) :
    Ordered pending (m :: h) := by
  obtain ⟨hmem, hnodup, horder⟩ := ho
  exact ⟨by simpa only [hm] using hmem, hnodup, by simpa only [hm] using horder⟩

theorem changed (ho : Ordered pending h) (hm : m.happening = .changed path) :
    Ordered (if path ∈ pending then pending else pending ++ [path]) (m :: h) := by
  have hjoined (p : Text) : joined p (m :: h) =
      if p = path then some ((joined p h).getD h.length) else joined p h := by
    simp [joined, Moment.drops, hm, eq_comm]
  by_cases hpath : path ∈ pending
  · -- The path has joined before, and keeps its place.
    rw [if_pos hpath]
    apply ho.cons
    intro p
    rw [hjoined]
    split
    · next heq =>
      obtain ⟨i, hi⟩ := Option.isSome_iff_exists.mp ((ho.mem_iff path).mp hpath)
      simp [heq, hi]
    · rfl
  · rw [if_neg hpath]
    have hnone : joined path h = none := by simpa [ho.mem_iff] using hpath
    have hne {p : Text} (hp : p ∈ pending) : p ≠ path := fun heq => hpath (heq ▸ hp)
    refine ⟨?_, ?_, ?_⟩
    · intro p
      rw [List.mem_append, List.mem_singleton, ho.mem_iff, hjoined]
      by_cases hp : p = path <;> simp [hp]
    · exact List.nodup_append.mpr ⟨ho.nodup, by simp, by simpa using fun p => hne⟩
    · rw [List.pairwise_append]
      refine ⟨?_, by simp, ?_⟩
      · refine ho.inOrder.imp_of_mem fun {p q} hp hq hpq => ?_
        rw [hjoined, hjoined, if_neg (hne hp), if_neg (hne hq)]
        exact hpq
      · intro p hp q hq
        obtain ⟨i, hi⟩ := Option.isSome_iff_exists.mp ((ho.mem_iff p).mp hp)
        rw [List.mem_singleton.mp hq, hjoined, hjoined, if_neg (hne hp), if_pos rfl, hnone]
        exact ⟨i, h.length, hi, rfl, joined_lt hi⟩

theorem removed (ho : Ordered pending h) (hm : m.happening = .removed path) :
    Ordered (pending.erase path) (m :: h) := by
  have hjoined (p : Text) : joined p (m :: h) = if p = path then none else joined p h := by
    simp [joined, Moment.drops, hm, eq_comm]
  have hmem {p : Text} : p ∈ pending.erase path ↔ p ≠ path ∧ p ∈ pending := ho.nodup.mem_erase_iff
  refine ⟨?_, ho.nodup.erase path, ?_⟩
  · intro p
    rw [hmem, ho.mem_iff, hjoined]
    by_cases hp : p = path <;> simp [hp]
  · refine (ho.inOrder.sublist List.erase_sublist).imp_of_mem fun {p q} hp hq hpq => ?_
    rw [hjoined, hjoined, if_neg (hmem.mp hp).1, if_neg (hmem.mp hq).1]
    exact hpq

theorem taken (ho : Ordered pending h) (hm : m.happening = .taken pending) :
    Ordered [] (m :: h) := by
  refine ⟨?_, List.nodup_nil, .nil⟩
  intro p
  by_cases hp : p ∈ pending
  · simp [joined, Moment.drops, hm, hp]
  · have hnone : joined p h = none := by simpa [ho.mem_iff] using hp
    simp [joined, Moment.drops, hm, hp, hnone]

end Ordered

variable {start : Scheduler} {depth : Nat} {outcomes : Bool → Prop} {settings : BatchSettings}
  {policy : RetryPolicy} {m : Moment} {h : List Moment}

theorem Course.ordered (hc : Course (.new settings policy) depth outcomes h) :
    Ordered (standing (.new settings policy) h).pending h := by
  -- On the history: a change appends, a removal erases, and a batch that is taken leaves nothing.
  induction hc with
  | nil => exact ⟨by simp [standing, Scheduler.new, joined], List.nodup_nil, .nil⟩
  | @cons m h next course ih =>
    rw [standing_pending]
    cases next with
    | changed path =>
      rw [Scheduler.armed_pending, Scheduler.enqueue_pending]
      exact ih.changed rfl
    | removed path => exact ih.removed rfl
    | taken handled due =>
      obtain ⟨-, rfl, -, rfl⟩ := Scheduler.takeDueBatch_eq_some_iff.mp due
      exact ih.taken rfl
    | stepRested handled rest =>
      obtain ⟨_, rfl⟩ := Scheduler.eq_of_takeDueBatch_eq_none rest
      exact ih.cons fun _ => rfl
    | stepEnded returned =>
      rw [Scheduler.landed_pending]
      exact ih.cons fun _ => rfl
    | _ => exact ih.cons fun _ => rfl

/-! ## Batches in flight -/

/-- The batch of a running step is the one that was taken last. -/
theorem Course.taken_of_batch (hc : Course (.new settings policy) depth outcomes h) :
    ∀ stage ∈ stages h, ∀ files, stage.batch = some files →
      h.findSome? Moment.taken? = some files := by
  induction hc with
  | nil => simp [stages]
  | @cons m h next course ih =>
    have hearlier : Course (.new settings policy) depth outcomes (m :: h) := .cons next course
    cases next with
    | taken handled due =>
      -- The steps around the one that takes the batch have none: only one batch is in flight.
      have hidle := hearlier.singleFlight.startsNone _ rfl
      simp only [stages, handled, List.forall_mem_cons]
      refine ⟨by simp [List.findSome?_cons, Moment.taken?], ?_⟩
      intro stage houter files hbatch
      exact absurd ⟨stage, by simp [handled, houter], by simp [hbatch]⟩ hidle
    | passBegan running ready =>
      rw [running, List.forall_mem_cons] at ih
      rcases ready with rfl | rfl <;>
        simpa [stages, running, List.findSome?_cons, Moment.taken?] using ih
    | changed | removed | advanced | slept | stepBegan =>
      simpa [stages, List.findSome?_cons, Moment.taken?] using ih
    | forgetBegan running | forgot running | compiled running | passEnded running =>
      rw [running, List.forall_mem_cons] at ih
      simpa [stages, running, List.findSome?_cons, Moment.taken?] using ih
    | stepRested running | stepBroke running | stepEnded running =>
      rw [running, List.forall_mem_cons] at ih
      simpa [stages, running, List.findSome?_cons, Moment.taken?] using ih.2

/-! ## Removals -/

/-- Steps are nested at most as deep as they may be. -/
theorem Course.length_stages (hc : Course start depth outcomes h) : (stages h).length ≤ depth := by
  induction hc with
  | nil => simp [stages]
  | @cons m h next course ih =>
    cases next with
    | stepBegan shallow =>
      simp only [stages, List.length_cons]
      omega
    | _ => simp_all [stages] <;> omega

theorem stages_eq_nil_of_length_lt (hshallow : (stages h).length < 1) : stages h = [] :=
  List.eq_nil_of_length_eq_zero (by omega)

/-- Where steps are not nested, a running step has no step around it. -/
theorem Course.outer_eq_nil {stage : Stage} {outer : List Stage} (hc : Course start 1 outcomes h)
    (hrunning : stages h = stage :: outer) : outer = [] := by
  have hlength := hc.length_stages
  rw [hrunning, List.length_cons] at hlength
  exact List.eq_nil_of_length_eq_zero (by omega)

/-- Every removal was handled, is held by the running step or is queued. -/
theorem Course.forgotten_held_queued (hc : Course (.new settings policy) 1 outcomes h)
    (hsound : ∀ m ∈ h, ∀ batch, m.happening ≠ .stepEnded batch true) :
    forgotten h ++ held h ++ (standing (.new settings policy) h).removals = removed h := by
  -- A removal goes from the queue into the hands of a step, and from there to the processor.
  induction hc with
  | nil => rfl
  | @cons m h next course ih =>
    specialize ih fun m hm => hsound m (List.mem_cons_of_mem _ hm)
    unfold held at ih ⊢
    rw [standing_removals]
    cases next with
    | stepBegan shallow =>
      have hrest := stages_eq_nil_of_length_lt shallow
      simpa [stages, hrest, Moment.forgotten?, Moment.removed?] using ih
    | forgetBegan running =>
      have houter := course.outer_eq_nil running
      simp_all [stages, Moment.forgotten?, Moment.removed?]
    | taken handled due =>
      obtain ⟨-, -, -, rfl⟩ := Scheduler.takeDueBatch_eq_some_iff.mp due
      simp_all [stages, Moment.forgotten?, Moment.removed?]
    | passBegan running ready =>
      rcases ready with rfl | rfl <;> simp_all [stages, Moment.forgotten?, Moment.removed?]
    | stepRested handled rest =>
      obtain ⟨_, rfl⟩ := Scheduler.eq_of_takeDueBatch_eq_none rest
      simp_all [stages, Moment.forgotten?, Moment.removed?]
    | stepBroke handling failed => exact absurd rfl (hsound _ List.mem_cons_self none)
    | removed path =>
      simp [stages, Moment.forgotten?, Moment.removed?, ← ih]
    | _ => simp_all [stages, Moment.forgotten?, Moment.removed?]

/-! ## No event is lost, counted twice or brought back -/

/-- The queues at a moment are what the history before it makes of them. -/
structure Accounted (start : Scheduler) (m : Moment) (h : List Moment) : Prop where
  /-- The next batch holds the paths that have changed since they were last dropped. -/
  pending_iff : ∀ path, path ∈ m.scheduler.pending ↔ Waits path (m :: h)
  nodup : m.scheduler.pending.Nodup
  /-- They stand in the order of the earliest of those changes. -/
  inOrder : m.scheduler.pending.Pairwise fun p q =>
    ∃ i j, joined p (m :: h) = some i ∧ joined q (m :: h) = some j ∧ i < j
  /-- A batch that is taken is all of the next batch. -/
  taken : ∀ files, m.happening = .taken files → files = (standing start h).pending
  /-- Every attempt is made with the batch that was taken last. -/
  attempted : ∀ files, m.happening = .passBegan files → h.findSome? Moment.taken? = some files
  /-- No file is in a batch that has not changed since it was last dropped, be it with a batch. -/
  renewed : ∀ files path, m.happening = .taken files → path ∈ files → Waits path h
  /-- Every removal was handled, is held by the running step or is queued: once, and in order. -/
  removals : (∀ m' ∈ m :: h, ∀ batch, m'.happening ≠ .stepEnded batch true) →
    forgotten (m :: h) ++ held (m :: h) ++ (standing start (m :: h)).removals = removed (m :: h)

theorem Course.accounted (hc : Course (.new settings policy) 1 outcomes (m :: h)) :
    Accounted (.new settings policy) m h := by
  have hcourse := hc.suffix (List.suffix_cons m h)
  have hordered := hc.ordered
  rw [standing_pending] at hordered
  -- A batch is what waits when it is taken, and what waits is known from the order of the queue.
  have htaken : ∀ files, m.happening = .taken files →
      files = (standing (.new settings policy) h).pending := by
    intro files htaken
    cases hc.follows with
    | taken handled due =>
      cases htaken
      exact (Scheduler.takeDueBatch_eq_some_iff.mp due).2.1.symm
    | _ => cases htaken
  constructor
  case pending_iff =>
    intro path
    rw [hordered.mem_iff, joined_isSome]
  case nodup => exact hordered.nodup
  case inOrder => exact hordered.inOrder
  case taken => exact htaken
  case attempted =>
    intro files hbegan
    cases hc.follows with
    | passBegan running ready =>
      cases hbegan
      refine hcourse.taken_of_batch _ (by rw [running]; exact List.mem_cons_self) _ ?_
      rcases ready with rfl | rfl <;> simp
    | _ => cases hbegan
  case renewed =>
    intro files path hfiles hpath
    rw [htaken files hfiles] at hpath
    exact joined_isSome.mp ((hcourse.ordered.mem_iff path).mp hpath)
  case removals => exact hc.forgotten_held_queued

/-- **Both queues are what the events make of them**, at every moment of every run in which steps
are not nested. -/
theorem run_accounted (settings : BatchSettings) (policy : RetryPolicy) (visits : List Visit)
    (deeds : List Deed) (m : Moment) (h : List Moment)
    (hsuffix : m :: h <:+ (run 1 deeds (Chronicle.start settings policy visits)).work.history) :
    Accounted (.new settings policy) m h := by
  have htells : Tells (.new settings policy) 1 (fun _ => True) [] _ :=
    run_course settings policy visits trivial (fun _ _ => trivial) deeds
  exact (htells.course.suffix hsuffix).accounted

/-- A file changes again while its batch is compiled. -/
def recurring : Session Chronicle :=
  run 1 [.change "a", .change "b", .remove "b", .step, .step]
    (Chronicle.start ⟨0, 0, 0⟩ (.ofSettings 3 0 1.0)
      [.plain, ⟨[.change "a"], .ok ⟨1, 1, 0, [], []⟩, []⟩])

/-- The queues where the file is taken for the second time. -/
theorem recurring_accounted :
    ∃ m h, m :: h <:+ recurring.work.history ∧ m.happening = .taken ["a"] ∧
    Accounted (.new ⟨0, 0, 0⟩ (.ofSettings 3 0 1.0)) m h := by
  obtain ⟨m, htaken, hsplit⟩ := exists_split (h := recurring.work.history) 4
    (fun m => m.happening = .taken ["a"]) (by decide +kernel)
  have hsuffix : m :: recurring.work.history.drop 5 <:+ recurring.work.history := ⟨_, hsplit.symm⟩
  exact ⟨m, _, hsuffix, by simpa using htaken, run_accounted _ _ _ _ m _ hsuffix⟩

end Chronicle

end UtilityCss
