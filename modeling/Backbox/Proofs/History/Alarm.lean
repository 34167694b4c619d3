import Backbox.Proofs.History.Journal

/-!
# When the host is asked to shut down

An entry of the journal is fatal when it tells that a required peer was not reached, or that it
said goodbye. The host is asked to shut down right after the first fatal entry, and at no other
time.
-/

namespace Backbox

/-- The call that opened a session, among the entries of a journal. -/
def callOf? (session : Nat) (journal : List Effect) : Option Dial :=
  journal.findSome? fun
    | .dialled dial => if dial.session = some session then some dial else none
    | _ => none

namespace Effect

/-- Whether an entry tells that a required peer was not reached, or that it said goodbye on a
session that a call among the older entries opened. -/
def isFatal (older : List Effect) : Effect → Bool
  | .dialled dial => dial.session.isNone && dial.settings.required
  | .closed session .farewell => (callOf? session older).any (·.settings.required)
  | _ => false

/-- Whether an entry tells that the host was asked to shut down. -/
def asksShutdown : Effect → Bool
  | .host .requestShutdown => true
  | _ => false

/-- Whether an entry is of a kind that is neither ever fatal nor asks the host to shut down. -/
def isPlain : Effect → Bool
  | .dialled _ | .closed _ .farewell | .host .requestShutdown => false
  | _ => true

variable {e : Effect}

/-- A plain entry is not fatal, whatever is older. -/
theorem isFatal_of_isPlain (plain : e.isPlain = true) (older : List Effect) :
    e.isFatal older = false := by
  cases e with
  | dialled => cases plain
  | closed session cause =>
    cases cause with
    | farewell => cases plain
    | shutdown | lost | overlong => rfl
  | configured | left | accepted | wrote | read | dispatched | framed | host => rfl

/-- A plain entry does not ask the host to shut down. -/
theorem asksShutdown_of_isPlain (plain : e.isPlain = true) : e.asksShutdown = false := by
  unfold asksShutdown
  split
  · cases plain
  · rfl

/-- Asking the host to shut down is no reason to ask it. -/
theorem asksShutdown_of_isFatal {older : List Effect} (fatal : e.isFatal older = true) :
    e.asksShutdown = false := by
  unfold asksShutdown
  split
  · cases fatal
  · rfl

end Effect

/-- Nothing fatal is on record. -/
def Calm (journal : List Effect) : Prop :=
  ∀ e older, e :: older <:+ journal → e.isFatal older = false

variable {journal es older : List Effect} {e : Effect} {session : Nat}

/-- Nothing is on record. -/
theorem calm_nil : Calm [] := by
  intro e older older_suffix
  cases List.suffix_nil.mp older_suffix

/-- A journal is calm while no entry is fatal that is added. -/
theorem calm_cons_iff : Calm (e :: journal) ↔ e.isFatal journal = false ∧ Calm journal := by
  refine ⟨fun calm => ⟨calm e journal List.suffix_rfl, fun e' older older_suffix =>
    calm e' older (older_suffix.trans (List.suffix_cons e journal))⟩, fun calm e' older here => ?_⟩
  rcases List.suffix_cons_iff.mp here with same | there
  · obtain ⟨rfl, rfl⟩ := List.cons.inj same
    exact calm.1
  · exact calm.2 e' older there

/-- What is fatal stays on record. -/
theorem Calm.of_suffix (calm : Calm journal) (older_suffix : older <:+ journal) : Calm older :=
  fun e before here => calm e before (here.trans older_suffix)

/-- What is not calm has a fatal entry. -/
theorem not_calm_iff : ¬ Calm journal ↔
    ∃ e older, e :: older <:+ journal ∧ e.isFatal older = true := by
  simp only [Calm, Classical.not_forall, Bool.not_eq_false, exists_prop]

/-- A fatal entry disturbs every journal that holds it. -/
theorem not_calm_of_isFatal (here : e :: older <:+ journal) (fatal : e.isFatal older = true) :
    ¬ Calm journal :=
  not_calm_iff.mpr ⟨e, older, here, fatal⟩

/-- The call that opened a session is not affected by entries that open no session of its
number. -/
theorem callOf?_append (unopened : ∀ e ∈ es, e.session? = some session → e.opens = false) :
    callOf? session (es.reverse ++ journal) = callOf? session journal := by
  have none : es.reverse.findSome? (fun
      | .dialled dial => if dial.session = some session then some dial else none
      | _ => none) = (none : Option Dial) := by
    refine List.findSome?_eq_none_iff.mpr fun e he => ?_
    cases e with
    | dialled dial =>
      refine if_neg fun own => ?_
      have opened := unopened _ (List.mem_reverse.mp he) own
      rw [Effect.opens, own] at opened
      cases opened
    | configured | left | accepted | wrote | closed | read | dispatched | framed | host => rfl
  rw [callOf?, callOf?, List.findSome?_append, none, Option.none_or]

/-- A call that opens a session is the one that opened it. -/
theorem callOf?_dialled {dial : Dial} (opened : dial.session = some session) :
    callOf? session (.dialled dial :: journal) = some dial := by
  rw [callOf?, List.findSome?_cons]
  simp [opened]

/-- The call that opened a session is on record. -/
theorem mem_of_callOf? {dial : Dial} (opener : callOf? session journal = some dial) :
    .dialled dial ∈ journal := by
  obtain ⟨e, he, own⟩ := List.exists_of_findSome?_eq_some opener
  cases e with
  | dialled d =>
    obtain ⟨-, same⟩ := Option.ite_none_right_eq_some.mp own
    exact Option.some.inj same ▸ he
  | configured | left | accepted | wrote | closed | read | dispatched | framed | host => cases own

namespace History

/-- The host is asked to shut down when something fatal happens, and only once. -/
structure Latched (h : History) : Prop where
  once : h.journal.countP Effect.asksShutdown ≤ 1
  /-- It is asked right after the first fatal entry. -/
  asked : ∀ older, .host .requestShutdown :: older <:+ h.journal →
    ∃ cause before, older = cause :: before ∧ cause.isFatal before = true ∧ Calm before
  /-- After the first fatal entry it is asked. -/
  answered : ∀ cause before, cause :: before <:+ h.journal → cause.isFatal before = true →
    Calm before → .host .requestShutdown :: cause :: before <:+ h.journal
  requested_iff : h.shutdownRequested = true ↔ ¬ Calm h.journal

namespace Latched

variable {h h' : History}

/-- Nothing has happened. -/
theorem start : History.start.Latched where
  once := Nat.zero_le _
  asked _ here := absurd (List.suffix_nil.mp here) (by simp)
  answered _ _ here := absurd (List.suffix_nil.mp here) (by simp)
  requested_iff := iff_of_false Bool.false_ne_true (not_not_intro calm_nil)

/-- Only the journal counts, and whether the host was asked. -/
theorem congr (latched : h.Latched) (journal : h'.journal = h.journal)
    (asked : h'.shutdownRequested = h.shutdownRequested) : h'.Latched := by
  obtain ⟨once, after, answered, requested_iff⟩ := latched
  constructor
  · rwa [journal]
  · rwa [journal]
  · rwa [journal]
  · rwa [journal, asked]

/-- Anything may be recorded besides a request, if it is fatal only after the host was asked. -/
theorem record (latched : h.Latched) (silent : e.asksShutdown = false)
    (known : e.isFatal h.journal = true → h.shutdownRequested = true) :
    (h.record e).Latched where
  once := by
    rw [History.record, List.countP_cons_of_neg (by simp [silent])]
    exact latched.once
  asked older here := by
    rcases List.suffix_cons_iff.mp here with same | there
    · obtain ⟨rfl, -⟩ := List.cons.inj same
      cases silent
    · exact latched.asked older there
  answered cause before here fatal calm := by
    rcases List.suffix_cons_iff.mp here with same | there
    · obtain ⟨rfl, rfl⟩ := List.cons.inj same
      exact absurd calm (latched.requested_iff.mp (known fatal))
    · exact (latched.answered cause before there fatal calm).trans (List.suffix_cons ..)
  requested_iff := by
    refine latched.requested_iff.trans ⟨fun disturbed calm => ?_, fun disturbed calm => ?_⟩
    · exact disturbed (calm_cons_iff.mp calm).2
    · refine disturbed (calm_cons_iff.mpr ⟨Bool.eq_false_iff.mpr fun fatal => ?_, calm⟩)
      exact latched.requested_iff.mp (known fatal) calm

/-- Plain entries may be recorded at any time. -/
theorem record_plain (latched : h.Latched) (plain : e.isPlain = true) : (h.record e).Latched :=
  latched.record (Effect.asksShutdown_of_isPlain plain) fun fatal => by
    rw [Effect.isFatal_of_isPlain plain] at fatal
    cases fatal

/-- Plain entries may be recorded at any time. -/
theorem recordAll_plain (latched : h.Latched) (plain : ∀ e ∈ es, e.isPlain = true) :
    (h.recordAll es).Latched := by
  induction es generalizing h with
  | nil => exact latched
  | cons e rest ih =>
    exact ih (latched.record_plain (plain e List.mem_cons_self))
      fun e he => plain e (List.mem_cons_of_mem _ he)

-- As long as the host was not asked, no entry tells that it was.
private theorem silent (latched : h.Latched) (calm : Calm h.journal) :
    ∀ e ∈ h.journal, e.asksShutdown = false := by
  intro e he
  rw [← Bool.not_eq_true]
  intro asks
  unfold Effect.asksShutdown at asks
  split at asks
  · obtain ⟨newer, older, split⟩ := List.append_of_mem he
    obtain ⟨cause, before, rfl, fatal, -⟩ := latched.asked older ⟨newer, split.symm⟩
    refine not_calm_of_isFatal ⟨newer ++ [.host .requestShutdown], ?_⟩ fatal calm
    rw [split, List.append_assoc]
    rfl
  · cases asks

-- The first fatal entry, and the request that follows it.
private theorem rung (latched : h.Latched) (calm : Calm h.journal)
    (fatal : e.isFatal h.journal = true) :
    ({ h.record e with shutdownRequested := true }.tell .requestShutdown).Latched where
  once := by
    have none : h.journal.countP Effect.asksShutdown = 0 :=
      List.countP_eq_zero.mpr fun e he => by simp [latched.silent calm e he]
    have one : (Effect.host .requestShutdown :: e :: h.journal).countP Effect.asksShutdown = 1 := by
      rw [List.countP_cons_of_pos rfl,
        List.countP_cons_of_neg (by simp [Effect.asksShutdown_of_isFatal fatal]), none]
    exact Nat.le_of_eq one
  asked older here := by
    rcases List.suffix_cons_iff.mp here with same | here
    · obtain ⟨-, rfl⟩ := List.cons.inj same
      exact ⟨e, h.journal, rfl, fatal, calm⟩
    · rcases List.suffix_cons_iff.mp here with same | there
      · obtain ⟨rfl, -⟩ := List.cons.inj same
        cases fatal
      · exact latched.asked older there
  answered cause before here its early := by
    rcases List.suffix_cons_iff.mp here with same | here
    · obtain ⟨rfl, -⟩ := List.cons.inj same
      cases its
    · rcases List.suffix_cons_iff.mp here with same | there
      · obtain ⟨rfl, rfl⟩ := List.cons.inj same
        exact List.suffix_rfl
      · exact absurd calm (not_calm_of_isFatal there its)
  requested_iff := iff_of_true rfl (not_calm_of_isFatal (List.suffix_cons ..) fatal)

/-- After a fatal entry the host is asked to shut down, unless it was asked before. -/
theorem alarm (latched : h.Latched) (fatal : e.isFatal h.journal = true) :
    (h.record e).requestShutdown.Latched := by
  by_cases before : h.shutdownRequested = true
  · have same : (h.record e).requestShutdown = h.record e := if_pos before
    rw [same]
    exact latched.record (Effect.asksShutdown_of_isFatal fatal) fun _ => before
  · have calm : Calm h.journal := Classical.not_not.mp (mt latched.requested_iff.mpr before)
    have asked : (h.record e).requestShutdown =
        { h.record e with shutdownRequested := true }.tell .requestShutdown := if_neg before
    rw [asked]
    exact latched.rung calm fatal

end Latched

end History

end Backbox
