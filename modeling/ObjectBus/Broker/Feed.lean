import ObjectBus.Broker.Basic

/-!
# Event feeds

An observer reads the events of a broker at its own pace. The broker keeps the latest events
only, so an observer that is too slow loses the oldest of those that it has not read, and is
told how many.
-/

namespace ObjectBus

/-- The number that is doubled as often as needed to reach a bound, within a number of steps. -/
def doubledUpTo (bound : Nat) : Nat → Nat → Nat
  | 0, n => n
  | steps + 1, n => if bound ≤ n then n else doubledUpTo bound steps (2 * n)

/-- The least power of two that is not below a number. -/
def powerOfTwoFrom (bound : Nat) : Nat := doubledUpTo bound (bound.log2 + 1) 1

/-- What an observer reads. -/
inductive FeedItem where
  /-- That many events were lost. -/
  | lost (count : Nat)
  /-- An event. -/
  | event (e : BrokerEvent)
deriving DecidableEq

/-- The place of an observer in the history of a broker. -/
structure Feed where
  /-- How many events the broker keeps. -/
  capacity : Nat
  /-- How many events have been read or lost. -/
  position : Nat
deriving DecidableEq, Repr, Inhabited

namespace Feed

/-- An observer of what happens to a broker from now on. As many events are kept as the broker
was told, rounded up to a power of two. -/
def watch (b : Broker) : Feed := ⟨powerOfTwoFrom b.eventCapacity, b.events.length⟩

/-- Read everything that can still be read of a history. -/
def read (f : Feed) (history : List BrokerEvent) : Feed × List FeedItem :=
  let unread := history.length - f.position
  let lost := unread - f.capacity
  let items := (history.drop (f.position + lost)).map FeedItem.event
  ({ f with position := history.length }, if lost = 0 then items else .lost lost :: items)

end Feed

end ObjectBus
