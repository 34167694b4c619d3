import Backbox.Proofs.History.Journal

/-!
# How often a peer was tried

The tries of a connection are the calls that were made for it since the last one that reached
its peer, or since it was added. A journal is thrifty when every call was made while its
settings left one.
-/

namespace Backbox

namespace Effect

/-- The tries of a connection after one more entry. -/
def tally (name : String) (tries : Nat) : Effect → Nat
  | .configured connection => if connection = name then 0 else tries
  | .dialled dial =>
    if dial.connection = name then
      if dial.session.isSome then 0 else tries + 1
    else tries
  | .left _ | .accepted .. | .wrote .. | .closed .. | .read .. | .dispatched .. | .framed ..
  | .host _ => tries

variable {name : String}

/-- An entry that leaves a connection untried changes nothing in its tries. -/
theorem tally_of_untried {e : Effect} (untried : e.Untried name) (tries : Nat) :
    tally name tries e = tries := by
  cases e with
  | configured connection =>
    refine if_neg fun own => ?_
    obtain ⟨here, -⟩ := untried (congrArg some own)
    cases here
  | dialled dial =>
    refine if_neg fun own => ?_
    obtain ⟨-, here⟩ := untried (congrArg some own)
    cases here
  | left | accepted | wrote | closed | read | dispatched | framed | host => rfl

/-- Entries that leave a connection untried change nothing in its tries. -/
theorem foldl_tally_of_untried {es : List Effect} (untried : ∀ e ∈ es, e.Untried name)
    (tries : Nat) : es.foldl (tally name) tries = tries := by
  induction es with
  | nil => rfl
  | cons e rest ih =>
    rw [List.foldl_cons, tally_of_untried (untried e List.mem_cons_self)]
    exact ih fun e he => untried e (List.mem_cons_of_mem _ he)

end Effect

/-- The calls for a connection since the last one that reached its peer, or since it was
added. -/
def triesOf (name : String) (journal : List Effect) : Nat :=
  journal.foldr (fun e tries => e.tally name tries) 0

/-- Every call was made while the limit of its connection left one. -/
def Thrifty (journal : List Effect) : Prop :=
  ∀ dial older, .dialled dial :: older <:+ journal → ∀ n, dial.settings.attempts = .bounded n →
    triesOf dial.connection older < n.toNat

/-- A journal stays thrifty when another entry is added, if it is a call that the limit left. -/
theorem Thrifty.cons {journal : List Effect} {e : Effect} (thrifty : Thrifty journal)
    (left : ∀ dial, e = .dialled dial → ∀ n, dial.settings.attempts = .bounded n →
      triesOf dial.connection journal < n.toNat) : Thrifty (e :: journal) := by
  intro dial older older_suffix n limit
  rcases List.suffix_cons_iff.mp older_suffix with here | there
  · obtain ⟨rfl, rfl⟩ := List.cons.inj here
    exact left dial rfl n limit
  · exact thrifty dial older there n limit

/-- A journal stays thrifty while nobody is called. -/
theorem Thrifty.append {journal es : List Effect} (thrifty : Thrifty journal)
    (quiet : ∀ e ∈ es, e.dials = false) : Thrifty (es.reverse ++ journal) := by
  induction es generalizing journal with
  | nil => exact thrifty
  | cons e rest ih =>
    rw [List.reverse_cons, List.append_assoc]
    refine ih (thrifty.cons fun dial here => ?_) fun e he => quiet e (List.mem_cons_of_mem _ he)
    subst here
    cases quiet _ List.mem_cons_self

namespace History

variable {h h' : History} {es : List Effect}

/-- The tries of a connection so far. -/
def tries (h : History) (name : String) : Nat := triesOf name h.journal

/-- Tries are counted one after the other. -/
theorem tries_of_goesOn (on : h.GoesOn es h') (name : String) :
    h'.tries name = es.foldl (Effect.tally name) (h.tries name) := by
  rw [tries, triesOf, on.journal, List.foldr_append, List.foldr_reverse]
  rfl

/-- The tries of a connection stay the same while it is left untried. -/
theorem tries_of_untried (on : h.GoesOn es h') {name : String}
    (untried : ∀ e ∈ es, e.Untried name) : h'.tries name = h.tries name := by
  rw [tries_of_goesOn on, Effect.foldl_tally_of_untried untried]

end History

end Backbox
