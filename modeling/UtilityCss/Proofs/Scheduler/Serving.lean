import UtilityCss.Proofs.Decimal.Arithmetic
import UtilityCss.Proofs.Scheduler.Arrivals
import UtilityCss.Proofs.Scheduler.RetryDelays
import UtilityCss.Scheduler.Session
/-!
# Serving without spinning

Serving is a loop of turns: a step, and then a wait, unless a removal is queued or the deadline is
there already. A turn that waits does not oversleep: the wait is over when the deadline comes. A
turn that does not wait has had an event during its step, since a step during which no event arrives
leaves neither removals nor a deadline that has come. So there are never more turns in a row without
a wait than events during their steps.

The one exception is a step that is broken off because the delay before a retry cannot be computed:
it ends the serving, and there is no wait either.
-/

namespace UtilityCss

open Binary64

/-! ## Timeouts -/

namespace Scheduler

variable {s : Scheduler} {now idle : Float}

/-- A timeout that is worth waiting for is over when the deadline comes. -/
theorem timeout_le (hidle : 0.0 < idle) (hwait : 0.0 < s.timeout now idle) :
    s.timeout now idle ≤ idle ∧
    ∀ d, s.deadline = some d → now < d ∧ s.timeout now idle ≤ d - now := by
  have hself : ∀ {x : Float}, 0.0 < x → x ≤ x := fun hx => le_of_not_lt hx hx (not_lt_self _)
  unfold timeout at *
  cases hdeadline : s.deadline with
  | none => exact ⟨hself hidle, nofun⟩
  | some d =>
    simp only [hdeadline, Option.some.injEq, forall_eq'] at hwait ⊢
    by_cases hleft : 0.0 < d - now
    · rw [if_pos hleft] at hwait ⊢
      refine ⟨?_, (zero_lt_sub_iff now d).1 hleft, ?_⟩
      · split
        · exact le_of_lt ‹_›
        · exact hself hidle
      · split
        · exact hself hleft
        · exact le_of_not_lt hleft hidle ‹_›
    · rw [if_neg hleft, if_pos hidle] at hwait
      exact absurd hwait (not_lt_self _)

/-- As long as the deadline has not come, there is something to wait for. -/
theorem timeout_pos (hidle : 0.0 < idle) (hearly : ∀ d, s.deadline = some d → now < d) :
    0.0 < s.timeout now idle := by
  unfold timeout
  cases hdeadline : s.deadline with
  | none => exact hidle
  | some d =>
    have hleft : 0.0 < d - now := (zero_lt_sub_iff now d).2 (hearly d hdeadline)
    dsimp only
    rw [if_pos hleft]
    split
    · exact hleft
    · exact hidle

end Scheduler

/-! ## Turns -/

/-- How a turn of the loop ends. -/
inductive Ending where
  /-- The step was broken off by an error. -/
  | broke (e : ArithmeticError)
  /-- The next turn follows at once. -/
  | skipped
  | waited (timeout : Float)
  deriving DecidableEq

/-- A turn of the loop: the session before the step and after it. -/
structure Turn (σ : Type) where
  before : Session σ
  after : Session σ
  ending : Ending

variable {σ : Type}

/-- The time of the wait, if there is one. -/
def Turn.timeout? (t : Turn σ) : Option Float :=
  match t.ending with
  | .waited timeout => some timeout
  | _ => none

namespace Session

/-- The turn that begins in a session. -/
def turn (p : Processor σ) (idle : Float) (s : Session σ) : Turn σ :=
  match step p s with
  | (.error e, s') => ⟨s, s', .broke e⟩
  | (.ok _, s') =>
    let timeout := s'.scheduler.timeout s'.now idle
    ⟨s, s', if s'.scheduler.removals.isEmpty ∧ 0.0 < timeout then .waited timeout else .skipped⟩

/-- The turns that are taken when a session is served. -/
def turns (p : Processor σ) (stopped : σ → Bool) (idle : Float) :
    (fuel : Nat) → List (Round σ) → Session σ → List (Turn σ)
  | 0, _, _ => []
  | fuel + 1, rounds, s =>
    if stopped s.work then []
    else
      let t := turn p idle s
      t :: match t.ending, rounds with
        | .broke _, _ | .waited _, [] => []
        | .skipped, rounds => turns p stopped idle fuel rounds t.after
        | .waited timeout, round :: rounds =>
          match round (t.after.advance timeout) with
          | (.error _, _) => []
          | (.ok _, s) => turns p stopped idle fuel rounds s

variable {p : Processor σ} {stopped : σ → Bool} {idle : Float} {rounds : List (Round σ)}
  {s : Session σ}

theorem turn_before : (turn p idle s).before = s := by
  unfold turn
  split <;> rfl

theorem turn_after : (turn p idle s).after = (step p s).2 := by
  unfold turn
  split <;> rename_i h <;> rw [h]

/-- Serving is a loop of turns. -/
theorem serveFor_succ (fuel : Nat) (rounds : List (Round σ)) (s : Session σ) :
    serveFor p stopped idle (fuel + 1) rounds s =
      if stopped s.work then (.ok [], s)
      else
        match (turn p idle s).ending, rounds with
        | .broke e, _ => (.error (.arithmetic e), (turn p idle s).after)
        | .skipped, rounds => serveFor p stopped idle fuel rounds (turn p idle s).after
        | .waited timeout, [] => (.ok [timeout], (turn p idle s).after.advance timeout)
        | .waited timeout, round :: rounds =>
          match round ((turn p idle s).after.advance timeout) with
          | (.error e, s) => (.error e, s)
          | (.ok _, s) =>
            let (waits, s) := serveFor p stopped idle fuel rounds s
            (waits.map (timeout :: ·), s) := by
  rw [serveFor, turn]
  split
  · rfl
  · rcases hstep : step p s with ⟨e | outcome, s'⟩
    · rfl
    · dsimp only
      by_cases hremovals : s'.scheduler.removals.isEmpty
      · by_cases hwait : 0.0 < s'.scheduler.timeout s'.now idle
        · rw [if_pos hremovals, if_pos hwait, if_pos ⟨hremovals, hwait⟩]
          cases rounds <;> rfl
        · rw [if_pos hremovals, if_neg hwait, if_neg fun h => hwait h.2]
      · rw [if_neg hremovals, if_neg fun h => hremovals h.1]

/-- What comes of serving is the times of the waits. -/
theorem serveFor_eq_turns (fuel : Nat) (rounds : List (Round σ)) (s : Session σ)
    {waits : List Float} (h : (serveFor p stopped idle fuel rounds s).1 = .ok waits) :
    waits = (turns p stopped idle fuel rounds s).filterMap Turn.timeout? := by
  -- On the fuel: what is served after a turn is served from the session that the turn, or its
  -- round, leaves.
  induction fuel generalizing rounds s waits with
  | zero => exact (Except.ok.inj h).symm
  | succ fuel ih =>
    rw [serveFor_succ] at h
    rw [turns]
    by_cases hstop : stopped s.work
    · rw [if_pos hstop] at h ⊢
      exact (Except.ok.inj h).symm
    · rw [if_neg hstop] at h ⊢
      dsimp only
      cases hending : (turn p idle s).ending with
      | broke e =>
        rw [hending] at h
        contradiction
      | skipped =>
        have htimeout : (turn p idle s).timeout? = none := by rw [Turn.timeout?, hending]
        rw [hending] at h
        rw [List.filterMap_cons_none htimeout]
        exact ih rounds _ h
      | waited timeout =>
        have htimeout : (turn p idle s).timeout? = some timeout := by rw [Turn.timeout?, hending]
        rw [hending] at h
        rw [List.filterMap_cons_some htimeout]
        cases rounds with
        | nil => exact (Except.ok.inj h).symm
        | cons round rounds =>
          rcases hround : round ((turn p idle s).after.advance timeout) with ⟨e | _, s'⟩
          · simp only [hround] at h
            contradiction
          · simp only [hround] at h ⊢
            rcases hlater : serveFor p stopped idle fuel rounds s' with ⟨e | later, s''⟩
            · rw [hlater] at h
              contradiction
            · rw [hlater] at h
              have hrest : later = _ := ih rounds s' (by rw [hlater])
              rw [← Except.ok.inj h, ← hrest]

end Session

/-! ## Turns without events -/

/-- How many events arrived during the step of a turn. -/
def Turn.events (arrivals : σ → Nat) (t : Turn σ) : Nat :=
  arrivals t.after.work - arrivals t.before.work

/-- How many events arrived during the steps of turns. -/
def eventsDuring (arrivals : σ → Nat) : List (Turn σ) → Nat
  | [] => 0
  | t :: ts => t.events arrivals + eventsDuring arrivals ts

theorem length_le_eventsDuring {arrivals : σ → Nat} {ts : List (Turn σ)}
    (h : ∀ t ∈ ts, 0 < t.events arrivals) : ts.length ≤ eventsDuring arrivals ts := by
  induction ts with
  | nil => exact Nat.le_refl _
  | cons t ts ih =>
    obtain ⟨ht, hts⟩ := List.forall_mem_cons.1 h
    have hrest := ih hts
    rw [List.length_cons, eventsDuring]
    omega

/-- What holds of a turn. -/
structure Turn.Paced (arrivals : σ → Nat) (policy : RetryPolicy) (idle : Float) (t : Turn σ) :
    Prop where
  /-- No removal is queued at a wait. -/
  removals : ∀ timeout, t.ending = .waited timeout → t.after.scheduler.removals = []
  /-- A wait is no longer than it may be without a deadline. -/
  timeout : ∀ timeout, t.ending = .waited timeout → 0.0 < timeout ∧ timeout ≤ idle
  /-- If there are files that wait, their deadline has not come, and the wait is over when it
  does. -/
  deadline : ∀ timeout, t.ending = .waited timeout → t.after.scheduler.pending ≠ [] →
    ∃ d, t.after.scheduler.deadline = some d ∧ t.after.now < d ∧ timeout ≤ d - t.after.now
  /-- If no event arrived during its step, there is no turn after it without a wait. -/
  quiet : t.events arrivals = 0 → t.ending ≠ .skipped
  /-- Only the delay of a retry breaks a step off. -/
  broke : ∀ e, t.ending = .broke e → policy.Refuses 1 policy.maxRetries.toNat e

namespace Session

variable {p : Processor σ} {stopped : σ → Bool} {idle : Float} {rounds : List (Round σ)}
  {s : Session σ} {arrivals : σ → Nat}

theorem turn_paced (hp : p.Attentive arrivals) (hidle : 0.0 < idle) (htimely : s.Timely)
    (hs : s.Poised) : (turn p idle s).Paced arrivals s.scheduler.policy idle := by
  have hquiet := step_quiet hp hs
  have hpoised := step_poised hp htimely hs
  obtain ⟨-, herror⟩ := step_terms hp.loyal s
  unfold turn
  rcases hstep : step p s with ⟨e | outcome, s'⟩
  · rw [hstep] at herror
    refine ⟨nofun, nofun, nofun, fun _ => nofun, fun e' he => ?_⟩
    obtain rfl := Ending.broke.inj he
    refine (herror e rfl).resolve_right ?_
    rintro ⟨n, hn⟩
    obtain ⟨x, hx⟩ := htimely n
    rw [hn] at hx
    contradiction
  · rw [hstep] at hquiet hpoised
    dsimp only
    by_cases hwait : s'.scheduler.removals.isEmpty ∧ 0.0 < s'.scheduler.timeout s'.now idle
    · rw [if_pos hwait]
      obtain ⟨hle, hdeadline⟩ := Scheduler.timeout_le hidle hwait.2
      refine ⟨fun _ _ => List.isEmpty_iff.1 hwait.1, ?_, ?_, fun _ => nofun, nofun⟩
      · intro timeout htimeout
        obtain rfl := Ending.waited.inj htimeout
        exact ⟨hwait.2, hle⟩
      · intro timeout htimeout hfiles
        obtain rfl := Ending.waited.inj htimeout
        obtain ⟨d, hd⟩ := Option.ne_none_iff_exists'.1 (hpoised.armed hfiles)
        exact ⟨d, hd, hdeadline d hd⟩
    · rw [if_neg hwait]
      refine ⟨nofun, nofun, nofun, fun hnone _ => hwait ?_, nofun⟩
      -- The step has left nothing to do.
      obtain ⟨hremovals, hearly⟩ := hquiet rfl (Nat.sub_eq_zero_iff_le.1 hnone)
      exact ⟨List.isEmpty_iff.2 hremovals, Scheduler.timeout_pos hidle hearly⟩

/-! ## Reachable sessions -/

/-- The sessions that a new scheduler comes to by events and steps. -/
inductive Reached (p : Processor σ) (settings : BatchSettings) (policy : RetryPolicy) :
    Session σ → Prop
  | new {s : Session σ} (fresh : s.scheduler = .new settings policy) : Reached p settings policy s
  | drifted {n : Nat} {s s' : Session σ} (earlier : Reached p settings policy s)
      (events : Drifts n s s') : Reached p settings policy s'
  | stepped {s : Session σ} (earlier : Reached p settings policy s) :
      Reached p settings policy (step p s).2

namespace Reached

variable {settings : BatchSettings} {policy : RetryPolicy}

theorem terms_eq (hp : p.Loyal) (hs : Reached p settings policy s) :
    s.terms = (settings, policy) := by
  induction hs with
  | new fresh => rw [terms, fresh]; rfl
  | drifted _ events ih => exact events.terms_eq.trans ih
  | stepped _ ih => exact (step_terms hp _).1.trans ih

theorem timely (hp : p.Loyal) (hdelays : ∀ n : Nat, ∃ x, thousandths (settings.delay n) = .ok x)
    (hs : Reached p settings policy s) : s.Timely := by
  rw [Timely, show s.scheduler.settings = settings from congrArg Prod.fst (hs.terms_eq hp)]
  exact hdelays

theorem poised (hp : p.Attentive arrivals)
    (hdelays : ∀ n : Nat, ∃ x, thousandths (settings.delay n) = .ok x)
    (hs : Reached p settings policy s) : s.Poised := by
  induction hs with
  | new fresh => exact ⟨by rw [fresh]; rfl, fun hfiles => absurd (by rw [fresh]; rfl) hfiles⟩
  | drifted earlier events ih =>
    exact ⟨events.compiling_eq.trans ih.landed,
      events.armed (earlier.timely hp.loyal hdelays) ih.armed⟩
  | stepped earlier ih => exact step_poised hp (earlier.timely hp.loyal hdelays) ih

/-- Every turn begins in a session that can be reached, if only events arrive during the waits. -/
theorem of_mem_turns
    (hrounds : ∀ round ∈ rounds, ∀ s : Session σ, ∃ n, Drifts n s (round s).2) {fuel : Nat}
    (hs : Reached p settings policy s) {t : Turn σ} (ht : t ∈ turns p stopped idle fuel rounds s) :
    Reached p settings policy t.before ∧ t = turn p idle t.before := by
  -- On the fuel: a later turn begins after the step of this one, and after the round of its wait.
  induction fuel generalizing rounds s with
  | zero => contradiction
  | succ fuel ih =>
    have hafter : Reached p settings policy (turn p idle s).after := by
      rw [turn_after]
      exact hs.stepped
    rw [turns] at ht
    by_cases hstop : stopped s.work
    · rw [if_pos hstop] at ht
      contradiction
    · rw [if_neg hstop] at ht
      dsimp only at ht
      rcases List.mem_cons.1 ht with rfl | hlater
      · rw [turn_before]
        exact ⟨hs, rfl⟩
      · cases hending : (turn p idle s).ending with
        | broke e =>
          rw [hending] at hlater
          contradiction
        | skipped =>
          rw [hending] at hlater
          exact ih hrounds hafter hlater
        | waited timeout =>
          rw [hending] at hlater
          cases rounds with
          | nil => contradiction
          | cons round rounds =>
            obtain ⟨n, hdrifts⟩ := hrounds round (.head _) ((turn p idle s).after.advance timeout)
            have hwaited : Drifts 0 (turn p idle s).after ((turn p idle s).after.advance timeout) :=
              .still rfl
            rcases hround : round ((turn p idle s).after.advance timeout) with ⟨e | _, s'⟩
            · simp only [hround] at hlater
              contradiction
            · rw [hround] at hdrifts
              simp only [hround] at hlater
              exact ih (fun r hr => hrounds r (.tail _ hr))
                (hafter.drifted (hwaited.trans hdrifts)) hlater

end Reached

/-! ## The bound on turns -/

/-- Between two sessions, a processor that had events has fewer calls with events before it. -/
structure Tires (p : Processor σ) (arrivals : σ → Nat) (s s' : Session σ) : Prop where
  activity : p.activity s' ≤ p.activity s
  used : arrivals s.work < arrivals s'.work → p.activity s' < p.activity s

end Session

open Session in
/-- The activity of a processor is that of its work, and bounds how many of the coming calls can
bring events. -/
structure Processor.Bounded (p : Processor σ) (arrivals : σ → Nat) : Prop where
  relates : p.Relates (Tires p arrivals)
  activity_eq : ∀ s t : Session σ, t.work = s.work → p.activity t = p.activity s

namespace Session

variable {p : Processor σ} {stopped : σ → Bool} {idle : Float} {rounds : List (Round σ)}
  {s t u : Session σ} {arrivals : σ → Nat} {settings : BatchSettings} {policy : RetryPolicy}

theorem Tires.of_work (hp : p.Bounded arrivals) (hwork : t.work = s.work) : Tires p arrivals s t :=
  ⟨Nat.le_of_eq (hp.activity_eq s t hwork),
    fun hlt => absurd hlt (by rw [hwork]; exact Nat.lt_irrefl _)⟩

theorem Tires.of_work_trans (h : Tires p arrivals t u) (hp : p.Bounded arrivals)
    (hwork : t.work = s.work) : Tires p arrivals s u where
  activity := hp.activity_eq s t hwork ▸ h.activity
  used := by
    rw [← hwork, ← hp.activity_eq s t hwork]
    exact h.used

theorem Tires.trans (hst : Tires p arrivals s t) (htu : Tires p arrivals t u) :
    Tires p arrivals s u where
  activity := Nat.le_trans htu.activity hst.activity
  used hlt := by
    have hle := hst.activity
    have hle' := htu.activity
    rcases Nat.lt_or_ge (arrivals s.work) (arrivals t.work) with h | h
    · have := hst.used h
      omega
    · have := htu.used (Nat.lt_of_le_of_lt h hlt)
      omega

theorem step_tires (hp : p.Bounded arrivals) (s : Session σ) : Tires p arrivals s (step p s).2 := by
  have hchains : Chains (Tires p arrivals) := ⟨fun _ hwork => .of_work hp hwork, .trans⟩
  obtain ⟨s₁, hhandle, hstepped⟩ := step_stepped hchains hp.relates s
  have hs₁ : Tires p arrivals s s₁ := hhandle.of_work_trans hp rfl
  generalize step p s = r at hstepped
  cases hstepped with
  | broke e => exact hs₁
  | early notDue => exact hs₁
  | empty noFiles => exact hs₁.trans (.of_work hp rfl)
  | compiled answer s₂ flight =>
    have hs₂ : Tires p arrivals s₁ s₂ := flight.of_work_trans hp rfl
    exact (hs₁.trans hs₂).trans (.of_work hp (finishPass_snd s₂).2.2)

/-- Serving does not run out of turns. -/
theorem serveFor_enough (hp : p.Attentive arrivals) (hbounded : p.Bounded arrivals)
    (hrounds : ∀ round ∈ rounds, ∀ s : Session σ,
      (∃ n, Drifts n s (round s).2) ∧ p.activity (round s).2 ≤ p.activity s)
    (hidle : 0.0 < idle) (hdelays : ∀ n : Nat, ∃ x, thousandths (settings.delay n) = .ok x)
    (hs : Reached p settings policy s) {fuel : Nat}
    (hfuel : rounds.length + 1 + p.activity s ≤ fuel) :
    serveFor p stopped idle (fuel + 1) rounds s = serveFor p stopped idle fuel rounds s := by
  -- A turn with a wait uses up a round. One without had an event, so it uses up a call that brings
  -- events.
  induction fuel generalizing rounds s with
  | zero => omega
  | succ fuel ih =>
    have hafter : Reached p settings policy (turn p idle s).after := by
      rw [turn_after]
      exact hs.stepped
    have htires : Tires p arrivals s (turn p idle s).after := by
      rw [turn_after]
      exact step_tires hbounded s
    have hpaced := turn_paced hp hidle (hs.timely hp.loyal hdelays) (hs.poised hp hdelays)
    rw [serveFor_succ (fuel + 1), serveFor_succ fuel]
    by_cases hstop : stopped s.work
    · rw [if_pos hstop, if_pos hstop]
    · rw [if_neg hstop, if_neg hstop]
      cases hending : (turn p idle s).ending with
      | broke e => rfl
      | skipped =>
        have hevents : arrivals s.work < arrivals (turn p idle s).after.work := by
          have hsome : (turn p idle s).events arrivals ≠ 0 :=
            fun hnone => hpaced.quiet hnone hending
          rw [Turn.events, turn_before] at hsome
          omega
        have hused := htires.used hevents
        exact ih hrounds hafter (by omega)
      | waited timeout =>
        cases rounds with
        | nil => rfl
        | cons round rounds =>
          obtain ⟨⟨n, hdrifts⟩, hactivity⟩ :=
            hrounds round (.head _) ((turn p idle s).after.advance timeout)
          have hwait :=
            hbounded.activity_eq (turn p idle s).after ((turn p idle s).after.advance timeout) rfl
          have hwaited : Drifts 0 (turn p idle s).after ((turn p idle s).after.advance timeout) :=
            .still rfl
          rcases hround : round ((turn p idle s).after.advance timeout) with ⟨e | _, s'⟩
          · simp only [hround]
          · rw [hround] at hdrifts hactivity
            have hless := htires.activity
            have hlater : serveFor p stopped idle (fuel + 1) rounds s' = _ :=
              ih (fun r hr => hrounds r (.tail _ hr)) (hafter.drifted (hwaited.trans hdrifts))
                (by rw [List.length_cons] at hfuel; dsimp only at hactivity; omega)
            simp only [hround, hlater]

/-- **Serving neither oversleeps nor spins.** Whatever events arrive during calls, sleeps and waits,
every turn is paced; turns in a row that do not wait are no more than the events during their steps;
and the times that serving answers are those of the waits. If a processor has events during finitely
many calls only, no more turns are taken than serving allows for. -/
theorem serve_paced (hp : p.Attentive arrivals) (hidle : 0.0 < idle)
    (hdelays : ∀ n : Nat, ∃ x, thousandths (settings.delay n) = .ok x)
    (hs : Reached p settings policy s)
    (hrounds : ∀ round ∈ rounds, ∀ s : Session σ, ∃ n, Drifts n s (round s).2) :
    (∀ fuel, (∀ t ∈ turns p stopped idle fuel rounds s, t.Paced arrivals policy idle) ∧
      (∀ ts, ts <:+: turns p stopped idle fuel rounds s → (∀ t ∈ ts, t.ending = .skipped) →
        ts.length ≤ eventsDuring arrivals ts) ∧
      ∀ waits, (serveFor p stopped idle fuel rounds s).1 = .ok waits →
        waits = (turns p stopped idle fuel rounds s).filterMap Turn.timeout?) ∧
    (p.Bounded arrivals → (∀ round ∈ rounds, ∀ s, p.activity (round s).2 ≤ p.activity s) →
      ∀ fuel, rounds.length + 1 + p.activity s ≤ fuel →
        serveFor p stopped idle fuel rounds s = serve p stopped idle rounds s) := by
  have hpaced : ∀ fuel, ∀ t ∈ turns p stopped idle fuel rounds s, t.Paced arrivals policy idle := by
    intro fuel t ht
    obtain ⟨hbefore, hturn⟩ := hs.of_mem_turns hrounds ht
    have hpolicy : t.before.scheduler.policy = policy :=
      congrArg Prod.snd (hbefore.terms_eq hp.loyal)
    rw [hturn, ← hpolicy]
    exact turn_paced hp hidle (hbefore.timely hp.loyal hdelays) (hbefore.poised hp hdelays)
  -- A turn that skips its wait is not quiet, and enough fuel is as good as any more.
  refine ⟨fun fuel =>
    ⟨hpaced fuel, fun ts hts hskipped => ?_, fun _ => serveFor_eq_turns fuel rounds s⟩, ?_⟩
  · refine length_le_eventsDuring fun t ht => ?_
    exact Nat.pos_of_ne_zero fun hnone =>
      (hpaced fuel t (hts.subset ht)).quiet hnone (hskipped t ht)
  · intro hbounded hactivity fuel hfuel
    obtain ⟨more, rfl⟩ := Nat.exists_eq_add_of_le hfuel
    clear hfuel
    induction more with
    | zero => rfl
    | succ more ih =>
      rw [← Nat.add_assoc,
        serveFor_enough hp hbounded (fun r hr s => ⟨hrounds r hr s, hactivity r hr s⟩) hidle
        hdelays hs (Nat.le_add_right _ _), ih]

end Session

/-! ## Bells -/

/-- The files that change during the coming passes and rebuilds, and how many have changed so
far. -/
structure Bells where
  coming : List (List Text)
  heard : Nat

namespace Bells

open Session

variable {s t : Session Bells}

/-- A file changes, and is counted. -/
def ring (s : Session Bells) (path : Text) : Session Bells :=
  let s := (s.fileChanged path).2
  { s with work := { s.work with heard := s.work.heard + 1 } }

/-- A call during which files change. -/
def call (s : Session Bells) : Session Bells :=
  (s.work.coming.headD []).foldl ring
    { s with work := { s.work with coming := s.work.coming.tail } }

/-- A processor that compiles nothing and listens. -/
def processor : Processor Bells where
  runPass files s := (.ok ⟨files.length, 0, 0, [], []⟩, call s)
  forget _ s := (true, s)
  rebuild s := (.ok ⟨0, 0, 0, [], []⟩, call s)
  activity s := s.work.coming.length

theorem ring_work (s : Session Bells) (path : Text) :
    (ring s path).work = { s.work with heard := s.work.heard + 1 } := by
  have hwork : (s.fileChanged path).2.work = s.work := (arm_snd _).2.2
  rw [← hwork]
  rfl

theorem foldl_ring (paths : List Text) (s : Session Bells) :
    Drifts paths.length s (paths.foldl ring s) ∧
      (paths.foldl ring s).work = { s.work with heard := s.work.heard + paths.length } := by
  induction paths generalizing s with
  | nil => exact ⟨.still rfl, rfl⟩
  | cons path paths ih =>
    obtain ⟨hdrifts, hwork⟩ := ih (ring s path)
    have hfirst : Drifts 1 s (ring s path) := .changed path (.still rfl) rfl
    rw [ring_work] at hwork
    refine ⟨?_, hwork.trans ?_⟩
    · rw [List.length_cons, Nat.add_comm]
      exact hfirst.trans hdrifts
    · simp only [List.length_cons, Nat.add_comm, Nat.add_left_comm]

theorem call_spec (s : Session Bells) : Drifts (s.work.coming.headD []).length s (call s) ∧
    (call s).work = ⟨s.work.coming.tail, s.work.heard + (s.work.coming.headD []).length⟩ := by
  obtain ⟨hdrifts, hwork⟩ := foldl_ring (s.work.coming.headD [])
    { s with work := { s.work with coming := s.work.coming.tail } }
  have hbegun : Drifts 0 s { s with work := { s.work with coming := s.work.coming.tail } } :=
    .still rfl
  refine ⟨?_, hwork⟩
  rw [← Nat.zero_add (s.work.coming.headD []).length]
  exact hbegun.trans hdrifts

theorem call_brings (s : Session Bells) : s.Brings heard (call s) := by
  obtain ⟨hdrifts, hwork⟩ := call_spec s
  refine ⟨by rw [hwork]; exact Nat.le_add_right _ _, ?_⟩
  rw [hwork, Nat.add_sub_cancel_left]
  exact hdrifts

theorem attentive : processor.Attentive heard where
  runPass _ := call_brings
  forget _ _ := .of_same rfl rfl
  rebuild := call_brings
  sleep _ _ := .of_same rfl rfl

theorem call_tires (s : Session Bells) : Tires processor heard s (call s) := by
  obtain ⟨-, hwork⟩ := call_spec s
  have hactivity : processor.activity (call s) = s.work.coming.tail.length :=
    congrArg (·.coming.length) hwork
  have hactivity' : processor.activity s = s.work.coming.length := rfl
  constructor
  · rw [hactivity, hactivity', List.length_tail]
    exact Nat.sub_le _ _
  · rw [hactivity, hactivity', hwork]
    cases s.work.coming with
    | nil => exact fun hlt => absurd hlt (Nat.lt_irrefl _)
    | cons paths coming => exact fun _ => Nat.lt_succ_self _

theorem bounded : processor.Bounded heard where
  relates := {
    runPass := fun _ => call_tires
    forget := fun _ _ => ⟨Nat.le_refl _, fun hlt => absurd hlt (Nat.lt_irrefl _)⟩
    rebuild := call_tires
    sleep := fun _ _ => ⟨Nat.le_refl _, fun hlt => absurd hlt (Nat.lt_irrefl _)⟩ }
  activity_eq _ _ hwork := congrArg (·.coming.length) hwork

/-- A batch is due at once. -/
def atOnce : BatchSettings := ⟨0, 0, 0⟩

theorem atOnce_delays (n : Nat) : ∃ x, thousandths (atOnce.delay n) = .ok x := by
  have hzero : atOnce.delay n = 0 := by simp [atOnce, BatchSettings.delay]
  rw [hzero]
  exact ⟨0.0, rfl⟩

/-- A file has changed, and during its pass another one will. -/
def busy : Session Bells := ring (.new (.new atOnce (.ofSettings 3 0 1.0)) ⟨[["b"]], 0⟩) "a"

/-- During the first wait a file is removed. -/
def removal : Round Bells := fun s => (.ok (), s.fileRemoved "a")

/-- The session is served without a wait after its first step, during which a file changes, and with
a wait after each of the others. -/
theorem busy_paced :
    (turns processor (fun _ => false) 0.5 9 [removal] busy).map Turn.ending =
      [.skipped, .waited 0.5, .waited 0.5] ∧
    (∀ t ∈ turns processor (fun _ => false) 0.5 9 [removal] busy,
      t.Paced heard (.ofSettings 3 0 1.0) 0.5) ∧
    serveFor processor (fun _ => false) 0.5 9 [removal] busy =
      serve processor (fun _ => false) 0.5 [removal] busy := by
  have hreached : Reached processor atOnce (.ofSettings 3 0 1.0) busy :=
    .drifted (.new rfl) (.changed "a" (.still rfl) rfl)
  have hround : ∀ round ∈ [removal], round = removal := fun round hmem => List.mem_singleton.1 hmem
  obtain ⟨hturns, henough⟩ :=
    @serve_paced _ processor (fun _ => false) 0.5 [removal] busy heard atOnce
    (.ofSettings 3 0 1.0) attentive (by decide +kernel) atOnce_delays hreached
    fun round hmem s => ⟨1, hround round hmem ▸ .removed "a" (.still rfl) rfl⟩
  refine ⟨by decide +kernel, (hturns 9).1, henough bounded ?_ 9 (by decide +kernel)⟩
  exact fun round hmem s => hround round hmem ▸ Nat.le_refl _

end Bells

/-! ## A turn that is broken off -/

namespace Session.Script

/-- A script brings no events. -/
theorem attentive : processor.Attentive fun _ => 0 where
  runPass _ _ := ⟨Nat.le_refl _, .still rfl⟩
  forget _ _ := ⟨Nat.le_refl _, .still rfl⟩
  rebuild _ := ⟨Nat.le_refl _, .still rfl⟩
  sleep _ _ := ⟨Nat.le_refl _, .still rfl⟩

/-- A file has changed, and its passes will fail. -/
def failing : Session Script := (RetryPolicy.steepFailing.fileChanged "a").2

/-- **A turn may end without a wait although no event arrives**: where the delay of the third retry
cannot be computed, it breaks off the step, and the serving with it. -/
theorem failing_unserved : processor.Attentive (fun _ => 0) ∧
    Reached processor Bells.atOnce RetryPolicy.steep failing ∧
    (turn processor 0.5 failing).ending = .broke .powerTooLarge ∧
    ∃ s', serve processor (fun _ => false) 0.5 [] failing =
      (.error (.arithmetic .powerTooLarge), s') := by
  have hbroke : (turn processor 0.5 failing).ending = .broke .powerTooLarge := by decide +kernel
  have hactivity : processor.activity failing = 0 := rfl
  have hserve : serve processor (fun _ => false) 0.5 [] failing =
      (.error (.arithmetic .powerTooLarge), (turn processor 0.5 failing).after) := by
    rw [serve, hactivity, Nat.add_zero, serveFor_succ, if_neg Bool.false_ne_true, hbroke]
  exact ⟨attentive, .drifted (.new rfl) (.changed "a" (.still rfl) rfl), hbroke, _, hserve⟩

end Session.Script

end UtilityCss
