import BountyBoard.Lifecycle
import BountyBoard.Snapshot

/-!
# Histories

What happens to a board from its first day on. An event is a snapshot put
in or a message sent, and it can be refused, which changes nothing. A store
is `Reachable` when some events lead to it from the empty store; who may
replace the parameters is left open for each event.
-/

namespace BountyBoard

/-- Something that happens to a board. -/
inductive Event where
  /-- A snapshot is put in. -/
  | start (snapshot : Snapshot) (authority : String)
  /-- A message is sent, while `authority` may replace the parameters. -/
  | message (authority sender : String) (m : Message) (now : Time)
deriving Repr, DecidableEq

namespace Store

def next (s : Store) : Event → Store
  | .start g authority =>
    match s.initialise g authority with
    | .ok after => after
    | .error _ => s
  | .message authority sender m now => s.after authority sender m now

def afterAll (s : Store) (events : List Event) : Store :=
  events.foldl next s

/-- Some events lead to the store from the empty one. -/
inductive Reachable : Store → Prop
  | empty : Reachable .empty
  | next {s : Store} (e : Event) : Reachable s → Reachable (s.next e)

theorem Reachable.afterAll {s : Store} (h : Reachable s) (events : List Event) :
    Reachable (s.afterAll events) := by
  induction events generalizing s with
  | nil => exact h
  | cons e rest ih => exact ih (h.next e)

/-- The reachable stores are the ends of the histories of the empty store. -/
theorem reachable_iff {s : Store} : Reachable s ↔ ∃ events, s = Store.empty.afterAll events := by
  constructor
  · intro h
    induction h with
    | empty => exact ⟨[], rfl⟩
    | next e _ ih =>
      obtain ⟨events, rfl⟩ := ih
      exact ⟨events ++ [e], by rw [Store.afterAll, Store.afterAll, List.foldl_append]; rfl⟩
  · rintro ⟨events, rfl⟩
    exact Reachable.empty.afterAll events

end Store

end BountyBoard
