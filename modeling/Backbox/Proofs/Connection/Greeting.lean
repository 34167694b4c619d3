import Backbox.Connection.Basic

/-!
# Greetings, one critical section at a time

The sessions of a connection share its queue. Each of them is opened with its greeting in front of
what waits, callers append their messages meanwhile, the session takes what is first, and it ends
whatever it has taken by then. In every order of these steps, a session takes its greeting first,
if it takes anything. But a session that ends before it has taken its greeting leaves it in the
queue, and the next one takes both.
-/

namespace Backbox

/-- What happens to the queue of a connection under its lock. -/
inductive QueueStep where
  /-- A session is opened with its greeting. -/
  | opens
  /-- A caller offers a message. -/
  | offers (message : String)
  /-- The session that is open asks for the next message. -/
  | takes
  /-- The session that is open ends. -/
  | ends
  deriving DecidableEq

/-- The queue of a connection, and what its sessions have taken from it. -/
structure SharedQueue where
  queue : OutboundQueue
  /-- Which of the messages that wait are greetings of sessions. -/
  greetings : List Bool
  /-- The phase of the session that was opened last. -/
  phase : SessionPhase
  /-- What each session has taken, the last one first: each message, and whether it is a
  greeting. -/
  taken : List (List (String × Bool))
  deriving DecidableEq

/-- The line that greets a peer. -/
def greeting : String := (Command.hello protocolVersion).toWire

namespace SharedQueue

/-- The queue of a new connection, with this limit. -/
def start (limit : Nat) : SharedQueue := ⟨.withLimit limit, [], .closed, []⟩

/-- The next message goes to the session that was opened last. -/
def give (taken : List (List (String × Bool))) (message : String × Bool) :
    List (List (String × Bool)) :=
  match taken with
  | [] => []
  | session :: earlier => (session ++ [message]) :: earlier

/-- What a step does, if it can be taken: a session is opened while none is open, and it takes
messages and ends while it is open. -/
def step (s : SharedQueue) : QueueStep → Option SharedQueue
  | .opens =>
    if s.phase = .closed then
      some ⟨s.queue.pushFront greeting, true :: s.greetings, .opened, [] :: s.taken⟩
    else none
  | .offers message =>
    let (accepted, queue) := s.queue.offer message
    some { s with
      queue := queue
      greetings := if accepted then s.greetings ++ [false] else s.greetings }
  | .takes =>
    if s.phase = .opened then
      match s.queue.next s.phase with
      | (.message message, queue) => some { s with
          queue := queue
          greetings := s.greetings.tail
          taken := give s.taken (message, s.greetings.headD false) }
      | (.waiting, queue) | (.finished, queue) => some { s with queue := queue }
    else none
  | .ends => if s.phase = .opened then some { s with phase := .closed } else none

/-- What happens in an order of steps, if they can be taken in this order. -/
def run (s : SharedQueue) (steps : List QueueStep) : Option SharedQueue :=
  steps.foldlM step s

/-- How many greetings these sessions left in the queue: each was opened with one more, and took
greetings first. -/
def leftOver : List (List (String × Bool)) → Nat
  | [] => 0
  | session :: earlier => leftOver earlier + 1 - session.length

/-- Each session took greetings first, its own and those that earlier sessions left, and then
messages of callers. -/
def Greeted : List (List (String × Bool)) → Prop
  | [] => True
  | session :: earlier => Greeted earlier ∧ ∃ messages : List String,
      session = List.replicate (min session.length (leftOver earlier + 1)) (greeting, true) ++
        messages.map (·, false)

/-- The greetings that were left over wait first, and the messages of callers behind them. -/
structure InOrder (s : SharedQueue) : Prop where
  waiting : ∃ messages, s.queue.messages =
    List.replicate (leftOver s.taken) greeting ++ messages ∧
      s.greetings = List.replicate (leftOver s.taken) true ++
        List.replicate messages.length false
  greeted : Greeted s.taken
  some_session : s.phase = .opened → s.taken ≠ []

variable {s s' : SharedQueue} {session : List (String × Bool)}
  {earlier : List (List (String × Bool))}

/-- A session that takes a greeting which was left over has taken nothing but greetings. -/
theorem greeted_greeting (greeted : Greeted (session :: earlier))
    (left : session.length ≤ leftOver earlier) :
    Greeted ((session ++ [(greeting, true)]) :: earlier) := by
  obtain ⟨before, messages, took⟩ := greeted
  have only : session = List.replicate session.length (greeting, true) := by
    rw [Nat.min_eq_left (by omega)] at took
    have count := congrArg List.length took
    rw [List.length_append, List.length_replicate, List.length_map] at count
    have none : messages = [] := List.eq_nil_of_length_eq_zero (by omega)
    rwa [none, List.map_nil, List.append_nil] at took
  refine ⟨before, [], ?_⟩
  rw [List.length_append, List.length_singleton, Nat.min_eq_left (by omega), List.map_nil,
    List.append_nil, List.replicate_succ', ← only]

/-- A session that has taken all greetings goes on with messages of callers. -/
theorem greeted_message (greeted : Greeted (session :: earlier))
    (none : leftOver earlier < session.length) (message : String) :
    Greeted ((session ++ [(message, false)]) :: earlier) := by
  obtain ⟨before, messages, took⟩ := greeted
  refine ⟨before, messages ++ [message], ?_⟩
  rw [Nat.min_eq_right (by omega)] at took
  rw [List.length_append, List.length_singleton, Nat.min_eq_right (by omega), List.map_append,
    ← List.append_assoc, ← took]
  rfl

/-- The queue of a new connection is in order. -/
theorem inOrder_start (limit : Nat) : (start limit).InOrder :=
  ⟨⟨[], rfl, rfl⟩, trivial, fun opened => by cases opened⟩

private theorem InOrder.takes (inOrder : s.InOrder) (opened : s.phase = .opened) {message : String}
    {rest : List String} (waits : s.queue.messages = message :: rest) :
    InOrder { s with
      queue := { s.queue with messages := rest }
      greetings := s.greetings.tail
      taken := give s.taken (message, s.greetings.headD false) } := by
  obtain ⟨⟨messages, all, marks⟩, greeted, some_session⟩ := inOrder
  cases taken : s.taken with
  | nil => exact absurd taken (some_session opened)
  | cons session earlier =>
    rw [taken] at all marks greeted
    by_cases left : session.length ≤ leftOver earlier
    -- a greeting is taken, this session's own or one that was left over
    · have count : leftOver (session :: earlier) = leftOver earlier - session.length + 1 := by
        rw [leftOver]
        omega
      have fewer : leftOver ((session ++ [(greeting, true)]) :: earlier) =
          leftOver earlier - session.length := by
        rw [leftOver, List.length_append, List.length_singleton]
        omega
      rw [count, List.replicate_succ, List.cons_append] at all marks
      obtain ⟨rfl, rfl⟩ := List.cons.inj (waits.symm.trans all)
      refine ⟨⟨messages, ?_, ?_⟩, ?_, fun _ => by simp [give]⟩
      · simp [give, marks, fewer]
      · simp [give, marks, fewer]
      · simp only [marks, give, List.headD_cons]
        exact greeted_greeting greeted left
    -- no greeting waits any more, so the message is a caller's
    · have count : leftOver (session :: earlier) = 0 := by
        rw [leftOver]
        omega
      have none : leftOver ((session ++ [(message, false)]) :: earlier) = 0 := by
        rw [leftOver, List.length_append, List.length_singleton]
        omega
      rw [count, List.replicate_zero, List.nil_append] at all marks
      obtain rfl : message :: rest = messages := waits.symm.trans all
      rw [List.length_cons, List.replicate_succ] at marks
      refine ⟨⟨rest, ?_, ?_⟩, ?_, fun _ => by simp [give]⟩
      · simp [give, marks, none]
      · simp [give, marks, none]
      · simp only [marks, give, List.headD_cons]
        exact greeted_message greeted (by omega) message

private theorem InOrder.offers (inOrder : s.InOrder) (message : String) : InOrder { s with
    queue := (s.queue.offer message).2
    greetings := if (s.queue.offer message).1 then s.greetings ++ [false] else s.greetings } := by
  obtain ⟨⟨messages, waits, marks⟩, greeted, some_session⟩ := inOrder
  unfold OutboundQueue.offer
  split
  · exact ⟨⟨messages, waits, marks⟩, greeted, some_session⟩
  · refine ⟨⟨messages ++ [message], ?_, ?_⟩, greeted, some_session⟩
    · simp [waits]
    · simp [marks, List.replicate_succ']

/-- Every step keeps the queue in order. -/
theorem InOrder.step (inOrder : s.InOrder) {step : QueueStep} (stepped : s.step step = some s') :
    s'.InOrder := by
  cases step with
  | opens =>
    simp only [SharedQueue.step] at stepped
    split at stepped
    · obtain rfl := Option.some.inj stepped
      obtain ⟨⟨messages, waits, marks⟩, greeted, -⟩ := inOrder
      refine ⟨⟨messages, ?_, ?_⟩, ⟨greeted, [], rfl⟩, fun _ => by simp⟩
      · simp [leftOver, OutboundQueue.pushFront, waits, List.replicate_succ]
      · simp [leftOver, marks, List.replicate_succ]
    · cases stepped
  | offers message =>
    obtain rfl := Option.some.inj stepped
    exact inOrder.offers message
  | takes =>
    simp only [SharedQueue.step] at stepped
    split at stepped
    · next opened =>
      cases waits : s.queue.messages with
      | nil =>
        have idle : s.queue.next s.phase = (.waiting, s.queue) := by
          simp [OutboundQueue.next, opened, waits]
        rw [idle] at stepped
        exact Option.some.inj stepped ▸ inOrder
      | cons message rest =>
        have next : s.queue.next s.phase =
            (.message message, { s.queue with messages := rest }) := by
          simp [OutboundQueue.next, opened, waits]
        rw [next] at stepped
        exact Option.some.inj stepped ▸ inOrder.takes opened waits
    · cases stepped
  | ends =>
    simp only [SharedQueue.step] at stepped
    split at stepped
    · obtain rfl := Option.some.inj stepped
      exact ⟨inOrder.waiting, inOrder.greeted, fun opened => by cases opened⟩
    · cases stepped

/-- In every order of steps, the queue stays in order. -/
theorem InOrder.run {steps : List QueueStep} (inOrder : s.InOrder) (ran : s.run steps = some s') :
    s'.InOrder := by
  induction steps generalizing s with
  | nil =>
    obtain rfl := Option.some.inj ran
    exact inOrder
  | cons step rest ih =>
    obtain ⟨next, stepped, ran⟩ := Option.bind_eq_some_iff.mp ran
    exact ih (inOrder.step stepped) ran

/-- Sessions that each took something left no greeting over. -/
theorem leftOver_eq_zero {sessions : List (List (String × Bool))}
    (took : ∀ session ∈ sessions, session ≠ []) : leftOver sessions = 0 := by
  induction sessions with
  | nil => rfl
  | cons session earlier ih =>
    have some_taken := List.length_pos_iff.mpr (took session List.mem_cons_self)
    rw [leftOver, ih fun other mem => took other (List.mem_cons_of_mem _ mem)]
    omega

/-- A session that was greeted took greetings first, as many as were left over and its own. -/
theorem countP_of_greeted (greeted : Greeted (session :: earlier)) :
    (session = [] ∨ session.head? = some (greeting, true)) ∧
      session.countP (·.2) = min session.length (leftOver earlier + 1) := by
  obtain ⟨-, messages, took⟩ := greeted
  constructor
  · by_cases none : session = []
    · exact .inl none
    · have some_taken := List.length_pos_iff.mpr none
      obtain ⟨count, its⟩ : ∃ count, min session.length (leftOver earlier + 1) = count + 1 :=
        ⟨min session.length (leftOver earlier + 1) - 1, by omega⟩
      rw [took, its]
      exact .inr rfl
  · generalize min session.length (leftOver earlier + 1) = count at took ⊢
    subst took
    simp [List.countP_replicate, Function.comp_def]

private theorem greeted_of_suffix {sessions : List (List (String × Bool))}
    (greeted : Greeted sessions) (suffix : session :: earlier <:+ sessions) :
    Greeted (session :: earlier) := by
  induction sessions with
  | nil => cases List.suffix_nil.mp suffix
  | cons last before ih =>
    rcases List.suffix_cons_iff.mp suffix with whole | suffix
    · exact whole ▸ greeted
    · exact ih greeted.1 suffix

/-- In every order of steps, a session that takes anything takes a greeting first. It takes no other
one exactly if it takes nothing more, or if the sessions before left no greeting over; they left
none if each of them took something. -/
theorem greeted_once_iff {limit : Nat} {steps : List QueueStep}
    (ran : (start limit).run steps = some s) (suffix : session :: earlier <:+ s.taken) :
    (session = [] ∨ session.head? = some (greeting, true)) ∧
      (session.countP (·.2) ≤ 1 ↔ session.length ≤ 1 ∨ leftOver earlier = 0) ∧
      ((∀ other ∈ earlier, other ≠ []) → leftOver earlier = 0) := by
  have inOrder := (inOrder_start limit).run ran
  obtain ⟨first, count⟩ := countP_of_greeted (greeted_of_suffix inOrder.greeted suffix)
  refine ⟨first, ?_, leftOver_eq_zero⟩
  rw [count]
  omega

/-- A session that is opened after another one took its greeting is greeted once. -/
theorem greeted_once_iff_reopened :
    let steps := [QueueStep.opens, .offers "reset", .takes, .ends, .opens, .takes, .takes]
    let taken := [[(greeting, true), ("reset", false)], [(greeting, true)]]
    ((start 4096).run steps).map (·.taken) = some taken ∧
      [(greeting, true), ("reset", false)].countP (·.2) ≤ 1 := by
  intro steps taken
  have ran : (start 4096).run steps = some ⟨.withLimit 4096, [], .opened, taken⟩ := by
    decide +kernel
  obtain ⟨-, once, none⟩ := greeted_once_iff ran (List.suffix_refl taken)
  exact ⟨by rw [ran]; rfl, once.mpr (.inr (none (by simp)))⟩

/-- A session that ends before it takes its greeting leaves it to the next one, which is greeted
twice. -/
theorem greeted_twice : ¬ ∀ (limit : Nat) (steps : List QueueStep) (s : SharedQueue),
    (start limit).run steps = some s → ∀ session ∈ s.taken, session.countP (·.2) ≤ 1 := by
  intro once
  have ran : (start 4096).run [.opens, .ends, .opens, .takes, .takes] = some
      ⟨.withLimit 4096, [], .opened, [[(greeting, true), (greeting, true)], []]⟩ := by
    decide +kernel
  exact absurd (once _ _ _ ran _ List.mem_cons_self) (by decide)

end SharedQueue

end Backbox
