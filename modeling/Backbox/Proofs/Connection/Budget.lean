import Backbox.Proofs.Connection.Steps
import Backbox.Proofs.History.Tries

/-!
# The attempts that a limit leaves

A connection counts its tries, up to the largest count, and a limit is never exceeded. A limit
of zero bars a connection from its peer. Together with the lifecycle this tells when a
connection is given up.
-/

namespace Backbox

namespace Connection

/-- The attempts of a connection agree with the calls on record and with its limit. -/
structure Budgeted (c : Connection) (h : History) : Prop where
  counted : c.attemptsMade = min (h.tries c.name) AttemptLimit.maxCount
  noted : c.lastFailure.isSome ↔ 0 < h.tries c.name
  within : ∀ n, c.settings.attempts = .bounded n → h.tries c.name ≤ n.toNat
  /-- Without any attempt there is neither a session nor a goodbye. -/
  barred : c.settings.attempts = .bounded 0 → c.session = none ∧ c.departed = false

variable {c c' : Connection} {h h' : History} {es : List Effect} {n : UInt32}

private theorem toNat_le_maxCount (n : UInt32) : n.toNat ≤ AttemptLimit.maxCount :=
  Nat.le_of_lt_succ n.toNat_lt

/-- Without any tries on record, no attempt is counted or noted. -/
theorem budgeted_of_untried (untried : h.tries c.name = 0) (made : c.attemptsMade = 0)
    (unnoted : c.lastFailure = none)
    (barred : c.settings.attempts = .bounded 0 → c.session = none ∧ c.departed = false) :
    c.Budgeted h where
  counted := by rw [made, untried, Nat.zero_min]
  noted := by rw [unnoted, untried]; simp
  within n _ := by rw [untried]; exact Nat.zero_le _
  barred := barred

namespace Budgeted

/-- Below a limit all tries are counted. -/
theorem made_eq (budgeted : c.Budgeted h) (limit : c.settings.attempts = .bounded n) :
    c.attemptsMade = h.tries c.name := by
  have := budgeted.within n limit
  have := toNat_le_maxCount n
  rw [budgeted.counted]
  omega

/-- While a limit leaves an attempt, fewer tries were made than it allows. -/
theorem tries_lt (budgeted : c.Budgeted h) (limit : c.settings.attempts = .bounded n)
    (left : c.settings.attempts.isExhausted c.attemptsMade = false) :
    h.tries c.name < n.toNat := by
  rw [limit, AttemptLimit.isExhausted, decide_eq_false_iff_not, budgeted.made_eq limit] at left
  omega

/-- A connection stays within its limit while it is left untried. -/
theorem keep (budgeted : c.Budgeted h) (same : h'.tries c.name = h.tries c.name)
    (name : c'.name = c.name) (settings : c'.settings = c.settings)
    (made : c'.attemptsMade = c.attemptsMade) (note : c'.lastFailure = c.lastFailure)
    (barred : c.session = none → c.departed = false → c'.session = none ∧ c'.departed = false) :
    c'.Budgeted h' where
  counted := by rw [made, name, same, budgeted.counted]
  noted := by rw [note, name, same, budgeted.noted]
  within n limit := by
    rw [name, same]
    exact budgeted.within n (settings ▸ limit)
  barred none := by
    obtain ⟨idle, stays⟩ := budgeted.barred (settings ▸ none)
    exact barred idle stays

/-- An attempt that fails is counted. -/
theorem fail (budgeted : c.Budgeted h)
    (left : c.settings.attempts.isExhausted c.attemptsMade = false) (now : Nat)
    (tried : h'.tries c.name = h.tries c.name + 1) : (c.fail now).Budgeted h' := by
  obtain ⟨state, queue, -, failed⟩ := c.fail_eq now
  rw [failed]
  constructor
  · simp only [tried, budgeted.counted, nextAttempt]
    omega
  · simp [tried]
  · intro n limit
    have := budgeted.tries_lt limit left
    simp only [tried]
    omega
  · exact budgeted.barred

/-- An attempt that succeeds begins the count anew. -/
theorem openSession (budgeted : c.Budgeted h)
    (left : c.settings.attempts.isExhausted c.attemptsMade = false) (id : Nat)
    (reached : h'.tries c.name = 0) : (c.openSession id).Budgeted h' := by
  refine budgeted_of_untried reached rfl rfl fun limit => ?_
  have none_left : h.tries c.name < 0 := budgeted.tries_lt limit left
  exact absurd none_left (Nat.not_lt_zero _)

/-- A call that the limit leaves is a thrifty one. -/
theorem thrifty (budgeted : c.Budgeted h) (thrifty : Thrifty h.journal)
    (left : c.settings.attempts.isExhausted c.attemptsMade = false) (session : Option Nat) :
    Thrifty (.dialled ⟨c.name, c.settings, session⟩ :: h.journal) := by
  refine thrifty.cons fun dial here n limit => ?_
  obtain rfl := Effect.dialled.inj here
  exact budgeted.tries_lt limit left

end Budgeted

/-- Every step stays within the limit, and makes only calls that it leaves. -/
theorem Step.budgeted (step : c.Step h es c' h') (budgeted : c.Budgeted h)
    (thrifty : Thrifty h.journal) : c'.Budgeted h' ∧ Thrifty h'.journal := by
  have on := step.course.on
  -- steps that make no call
  have quiet (uncalled : ∀ e ∈ es, e.dials = false) (settings : c'.settings = c.settings)
      (made : c'.attemptsMade = c.attemptsMade) (note : c'.lastFailure = c.lastFailure)
      (barred : c.session = none → c.departed = false →
        c'.session = none ∧ c'.departed = false) : c'.Budgeted h' ∧ Thrifty h'.journal := by
    refine ⟨budgeted.keep ?_ step.course.name_eq settings made note barred, ?_⟩
    · exact History.tries_of_untried on fun e he _ => ⟨(step.course.stay e he).1, uncalled e he⟩
    · rw [on.journal]
      exact thrifty.append uncalled
  cases step with
  | gaveUp | closedIdle =>
    exact quiet (fun _ he => absurd he List.not_mem_nil) rfl rfl rfl And.intro
  | failed now calls unsettled left =>
    refine ⟨budgeted.fail left now ?_, ?_⟩
    · rw [History.tries_of_goesOn on, List.foldl_cons,
        Effect.foldl_tally_of_untried (by simp [Effect.Untried, Effect.connection?])]
      simp [Effect.tally]
    · rw [on.journal, List.reverse_cons, List.append_assoc]
      exact (budgeted.thrifty thrifty left none).append (by simp [Effect.dials])
  | opened unsettled left =>
    refine ⟨budgeted.openSession left _ ?_, ?_⟩
    · rw [History.tries_of_goesOn on]
      simp [Effect.tally]
    · rw [on.journal]
      exact budgeted.thrifty thrifty left _
  | accepted | flushed | framed => exact quiet (by simp [Effect.dials]) rfl rfl rfl And.intro
  | closedLive | lost =>
    exact quiet (by simp [Effect.dials, or_imp, forall_and]) rfl rfl rfl fun _ stays => ⟨rfl, stays⟩
  | departed s _ live | heard s _ _ live =>
    refine quiet (by simp [Effect.dials]) rfl rfl rfl fun idle _ => ?_
    rw [idle] at live
    cases live

/-- Every chain of steps stays within the limit, and makes only calls that it leaves. -/
theorem Steps.budgeted (steps : c.Steps h es c' h') (budgeted : c.Budgeted h)
    (thrifty : Thrifty h.journal) : c'.Budgeted h' ∧ Thrifty h'.journal := by
  induction steps with
  | none => exact ⟨budgeted, thrifty⟩
  | cons step _ ih =>
    obtain ⟨budgeted, thrifty⟩ := step.budgeted budgeted thrifty
    exact ih budgeted thrifty

/-- The time of the last failure is noted until the next call. -/
theorem Steps.lastFailure_eq (steps : c.Steps h es c' h') (uncalled : ∀ e ∈ es, e.dials = false) :
    c'.lastFailure = c.lastFailure := by
  induction steps with
  | none => rfl
  | cons step _ ih =>
    refine (ih fun e he => uncalled e (List.mem_append_right _ he)).trans ?_
    have quiet := fun e he => uncalled e (List.mem_append_left _ he)
    cases step with
    | failed | opened => cases quiet _ List.mem_cons_self
    | gaveUp | accepted | flushed | closedIdle | closedLive | lost | departed | heard | framed =>
      rfl

/-- A connection without a limit is never given up. -/
theorem Lifecycle.ne_givingUp (sound : c.Lifecycle) (unbounded : c.settings.attempts = .unbounded) :
    c.state ≠ .givingUp := by
  intro up
  obtain ⟨⟨n, limit, -⟩, -⟩ := sound.gaveUp up
  rw [unbounded] at limit
  cases limit

namespace Budgeted

/-- A connection that is given up made all its tries. -/
theorem tries_eq (budgeted : c.Budgeted h) (sound : c.Lifecycle)
    (limit : c.settings.attempts = .bounded n) (up : c.state = .givingUp) :
    h.tries c.name = n.toNat := by
  obtain ⟨⟨m, same, made⟩, -⟩ := sound.gaveUp up
  obtain rfl := AttemptLimit.bounded.inj (limit.symm.trans same)
  rw [← budgeted.made_eq limit, made]

/-- Unless the engine is shut down, a connection that may be tried is given up exactly when
all its tries are made. -/
theorem givingUp_iff (budgeted : c.Budgeted h) (sound : c.Lifecycle)
    (limit : c.settings.attempts = .bounded n) (some : 0 < n.toNat) (running : c.state ≠ .closed) :
    c.state = .givingUp ↔ h.tries c.name = n.toNat := by
  refine ⟨budgeted.tries_eq sound limit, fun all => ?_⟩
  rw [← budgeted.made_eq limit] at all
  cases state : c.state with
  | disconnected =>
    have := sound.rested (.inr state)
    omega
  | connecting =>
    have := (sound.trying state).2 n limit
    omega
  | connected =>
    have := sound.rested (.inl state)
    omega
  | givingUp => rfl
  | closed => exact absurd state running

/-- Where no attempt is left unmade, this holds of connections that may not be tried as well. -/
theorem givingUp_iff_of_left (budgeted : c.Budgeted h) (sound : c.Lifecycle)
    (limit : c.settings.attempts = .bounded n) (running : c.state ≠ .closed)
    (left : c.isSettled = false → c.settings.attempts.isExhausted c.attemptsMade = false) :
    c.state = .givingUp ↔ h.tries c.name = n.toNat := by
  by_cases some : 0 < n.toNat
  · exact budgeted.givingUp_iff sound limit some running
  · refine ⟨budgeted.tries_eq sound limit, fun _ => ?_⟩
    obtain rfl : n = 0 := UInt32.toNat_inj.mp (Nat.eq_zero_of_not_pos some)
    obtain ⟨idle, stays⟩ := budgeted.barred limit
    refine Decidable.byContradiction fun ready => ?_
    have none_left := left (unsettled_iff.mpr ⟨idle, stays, ready, running⟩)
    exact absurd (budgeted.tries_lt limit none_left) (Nat.not_lt_zero _)

end Budgeted

end Connection

end Backbox
