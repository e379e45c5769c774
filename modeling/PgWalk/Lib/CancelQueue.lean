import Mathlib.Data.List.Basic

/-! A queue in order of arrival from which all items of an owner can be withdrawn. -/

namespace CancelQueue

open List

variable {Owner Item : Type}

/-- What can be seen of such a queue. -/
inductive Event (Owner Item : Type)
  | accepted (owner : Owner) (item : Item)
  | returned (owner : Owner) (item : Item)
  -- A call for an item finds none and goes on waiting.
  | waited
  | cancelled (owner : Owner)

namespace Event

/-- What an event puts into the queue. -/
def accepts : Event Owner Item → Option (Owner × Item)
  | accepted owner item => some (owner, item)
  | _ => none

/-- What an event takes out of the queue. -/
def returns : Event Owner Item → Option (Owner × Item)
  | returned owner item => some (owner, item)
  | _ => none

/-- The first event withdraws the items whose owner the second serves. -/
def Overtakes : Event Owner Item → Event Owner Item → Prop
  | cancelled owner, returned other _ => owner = other
  | _, _ => False

end Event

variable (events : List (Event Owner Item))

/-- Everything that was put into the queue. -/
def acceptedBy : List (Owner × Item) :=
  events.filterMap Event.accepts

/-- Everything that was taken out of the queue. -/
def returnedBy : List (Owner × Item) :=
  events.filterMap Event.returns

variable [DecidableEq Owner]

/-- The events lead from one content of the queue to another one. -/
inductive Serves : List (Owner × Item) → List (Event Owner Item) → List (Owner × Item) → Prop
  | nil (content : List (Owner × Item)) : Serves content [] content
  | accepted {content last : List (Owner × Item)} {rest : List (Event Owner Item)} (owner : Owner)
      (item : Item) (later : Serves (content ++ [(owner, item)]) rest last) :
      Serves content (.accepted owner item :: rest) last
  | returned {content last : List (Owner × Item)} {rest : List (Event Owner Item)} (owner : Owner)
      (item : Item) (later : Serves content rest last) :
      Serves ((owner, item) :: content) (.returned owner item :: rest) last
  | waited {last : List (Owner × Item)} {rest : List (Event Owner Item)}
      (later : Serves [] rest last) : Serves [] (.waited :: rest) last
  | cancelled {content last : List (Owner × Item)} {rest : List (Event Owner Item)} (owner : Owner)
      (later : Serves (content.filter fun entry => entry.1 ≠ owner) rest last) :
      Serves content (.cancelled owner :: rest) last

namespace Serves

variable {content mid last : List (Owner × Item)} {events later : List (Event Owner Item)}

/-- One stretch of events after the other. -/
theorem trans (early : Serves content events mid) (late : Serves mid later last) :
    Serves content (events ++ later) last := by
  induction early with
  | nil content => exact late
  | accepted owner item _ ih => exact .accepted owner item (ih late)
  | returned owner item _ ih => exact .returned owner item (ih late)
  | waited _ ih => exact .waited (ih late)
  | cancelled owner _ ih => exact .cancelled owner (ih late)

/-- Items come out once each, in the order in which they went in. -/
theorem sublist (serves : Serves content events last) :
    (returnedBy events ++ last).Sublist (content ++ acceptedBy events) := by
  -- What is withdrawn is left out of the list the items come from.
  induction serves with
  | nil content => simp [returnedBy, acceptedBy]
  | accepted owner item _ ih | returned owner item _ ih | waited _ ih =>
    simpa [returnedBy, acceptedBy, filterMap_cons, Event.accepts, Event.returns] using ih
  | cancelled owner _ ih =>
    exact ih.trans (filter_sublist.append_right _)

/-- Nothing is lost of an owner whose items are not withdrawn. -/
theorem complete (serves : Serves content events last) {owner : Owner}
    (kept : ∀ event ∈ events, event ≠ .cancelled owner) :
    ((returnedBy events ++ last).filter fun entry => entry.1 = owner) =
      (content ++ acceptedBy events).filter fun entry => entry.1 = owner := by
  -- The items that go belong to somebody else.
  induction serves with
  | nil content => simp [returnedBy, acceptedBy]
  | accepted other item _ ih | waited _ ih =>
    have later := ih (forall_mem_cons.mp kept).2
    simpa [returnedBy, acceptedBy, filterMap_cons, Event.accepts, Event.returns] using later
  | returned other item _ ih =>
    have later := ih (forall_mem_cons.mp kept).2
    simp only [returnedBy, acceptedBy, filterMap_cons, Event.accepts, Event.returns,
      cons_append, filter_cons] at later ⊢
    rw [later]
  | @cancelled content _ _ other _ ih =>
    rw [forall_mem_cons] at kept
    have apart : other ≠ owner := fun same => kept.1 (congrArg Event.cancelled same)
    have others : ((content.filter fun entry => entry.1 ≠ other).filter fun entry =>
        entry.1 = owner) = content.filter fun entry => entry.1 = owner := by
      rw [filter_filter]
      refine filter_congr fun entry _ => ?_
      by_cases own : entry.1 = owner
      · simp [own, Ne.symm apart]
      · simp [own]
    calc _ = _ := ih kept.2
      _ = _ := by rw [filter_append, others, ← filter_append]; rfl

end Serves

end CancelQueue
