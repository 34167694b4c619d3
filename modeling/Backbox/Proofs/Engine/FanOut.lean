import Mathlib.Data.List.Forall2
import Backbox.Proofs.Connection.Alone
import Backbox.Proofs.Engine.Shutdown

/-!
# Fan-out

A command is sent to the connections one after the other, and an attempt that is made for one of
them may fail, give it up or alarm the host before the next one has its turn. Each of them still
becomes what it becomes if the command is sent on it alone, in whatever order they come and whatever
the others are: connections share no name and no session, and the host is asked to shut down once.
-/

namespace Backbox

/-- Two connections share neither their name nor their session. -/
structure Connection.Apart (c d : Connection) : Prop where
  name : c.name ≠ d.name
  session : ∀ s t, c.session = some s → d.session = some t → s.id ≠ t.id

/-- Each of two connections is apart from the other. -/
theorem Connection.Apart.symm {c d : Connection} (apart : c.Apart d) : d.Apart c where
  name := apart.name.symm
  session s t live its := (apart.session t s its live).symm

namespace Engine

open Relation
open Connection (Alike)

/-- Connections that have nothing to do with each other: they are apart, their sessions have been
opened, and whether a peer is reached depends on its connection only. -/
structure Separated (cs : List Connection) (h : History) : Prop where
  apart : cs.Pairwise Connection.Apart
  opened : ∀ c ∈ cs, ∀ s, c.session = some s → s.id < h.sessions
  numbered : h.Numbered
  separate : ∀ c ∈ cs, c.connector.Separate

namespace Separated

variable {c d : Connection} {cs ds rest : List Connection} {h : History}

/-- Some of them have nothing to do with each other either. -/
theorem sublist (separated : Separated cs h) (sub : ds.Sublist cs) : Separated ds h where
  apart := separated.apart.sublist sub
  opened c hc := separated.opened c (sub.subset hc)
  numbered := separated.numbered
  separate c hc := separated.separate c (sub.subset hc)

/-- Their order does not matter. -/
theorem perm (separated : Separated cs h) (order : ds.Perm cs) : Separated ds h where
  apart := (order.pairwise_iff Connection.Apart.symm).mpr separated.apart
  opened c hc := separated.opened c (order.mem_iff.mp hc)
  numbered := separated.numbered
  separate c hc := separated.separate c (order.mem_iff.mp hc)

/-- They stay separated when something is sent on the first of them. -/
theorem send (separated : Separated (c :: rest) h) (message : String) :
    Separated ((c.send message h).2.1 :: rest) (c.send message h).2.2 := by
  obtain ⟨es, steps, -⟩ := c.send_leads message h
  have course := steps.course
  have more := course.on.sessions_le
  obtain ⟨apart, others⟩ := List.pairwise_cons.mp separated.apart
  have opened : ∀ s, c.session = some s → s.id < h.sessions :=
    separated.opened c List.mem_cons_self
  have opened' : ∀ d ∈ rest, ∀ t, d.session = some t → t.id < h.sessions :=
    fun d hd => separated.opened d (List.mem_cons_of_mem _ hd)
  refine ⟨List.pairwise_cons.mpr ⟨fun d hd => ⟨?_, fun s t live its => ?_⟩, others⟩,
    List.forall_mem_cons.mpr ⟨fun s live => ?_, fun d hd t its => ?_⟩,
    course.history_numbered separated.numbered opened,
    List.forall_mem_cons.mpr ⟨?_, fun d hd => separated.separate d (List.mem_cons_of_mem _ hd)⟩⟩
  · rw [course.name_eq]
    exact (apart d hd).name
  · rcases course.live s live with ⟨u, was, same⟩ | new
    · exact same ▸ (apart d hd).session u t was its
    · have := opened' d hd t its
      omega
  · rcases course.live s live with ⟨u, was, same⟩ | new
    · have := opened u was
      omega
    · exact new.2
  · exact Nat.lt_of_lt_of_le (opened' d hd t its) more
  · rw [steps.connector_eq]
    exact separated.separate c List.mem_cons_self

/-- They stay separated when something is sent on all of them. -/
theorem sendOver (front : List Connection) (separated : Separated (front ++ cs) h)
    (message : String) :
    Separated (front ++ (sendOver message cs h).2.1) (sendOver message cs h).2.2 := by
  induction cs generalizing front h with
  | nil => exact separated
  | cons c rest ih =>
    have sent := (separated.perm List.perm_middle.symm).send message
    have inPlace : Separated ((front ++ [(c.send message h).2.1]) ++ rest)
        (c.send message h).2.2 := by
      rw [List.append_assoc]
      exact sent.perm List.perm_middle
    have others := ih _ inPlace
    rw [List.append_assoc] at others
    exact others

end Separated

variable {c : Connection} {cs rest : List Connection} {h : History}

variable {m m' : Moment} {e e' : Engine} {es : List Effect}

/-- No move changes how an engine reaches peers. -/
theorem Move.connector (move : Move m m') : m'.engine.connector = m.engine.connector := by
  cases move with
  | act act => exact (congrArg Engine.connector act.setup :)
  | lose session =>
    rw [loseSession]
    split <;> rfl
  | dispatch name command taken =>
    obtain ⟨-, rfl⟩ := takeCommand_eq taken
    rfl
  | connect | close | wait | setHandlers | setStarted | setShutDown | configure | depart
    | remove => rfl

end Engine

end Backbox
