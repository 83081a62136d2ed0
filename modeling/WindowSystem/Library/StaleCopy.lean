import Mathlib.Data.List.Basic

/-!
# Stale copies of a counter

A counter goes up with every event that concerns it.  Such an event may also
copy the new count to a place, where the copy stays until another event writes
to the same place.  A copy is up to date exactly if its place is the one that
the last event of the counter wrote to.
-/

namespace WindowSystem.Library.StaleCopy

variable {ε φ : Type*}

/-- The place that the last event of a counter wrote to, if it wrote. -/
def lastPlace (concerns : ε → Bool) (place : ε → Option φ)
    (events : List ε) : Option φ :=
  (events.filter concerns).getLast?.bind place

/-- A copy of a counter with the value `count` lies at `field`. -/
structure Copy (concerns : ε → Bool) (place : ε → Option φ)
    (events : List ε) (field : φ) (count : Nat) : Prop where
  positive : 1 ≤ count
  bounded : count ≤ events.countP concerns
  current_iff :
    count = events.countP concerns ↔
      lastPlace concerns place events = some field

variable {concerns : ε → Bool} {place : ε → Option φ} {events : List ε}
  {event : ε} {field : φ} {count : Nat}

theorem lastPlace_append_of_not (unconcerned : concerns event = false) :
    lastPlace concerns place (events ++ [event]) =
      lastPlace concerns place events := by
  simp [lastPlace, unconcerned]

theorem lastPlace_append_of (concerned : concerns event = true) :
    lastPlace concerns place (events ++ [event]) = place event := by
  simp [lastPlace, concerned]

/-- The event that writes a copy. -/
theorem Copy.written (concerned : concerns event = true)
    (here : place event = some field) :
    Copy concerns place (events ++ [event]) field
      (events.countP concerns + 1) where
  positive := Nat.succ_pos _
  bounded := by simp [concerned]
  current_iff := by
    rw [lastPlace_append_of concerned]
    simp [concerned, here]

/-- An event that does not write to the place of the copy. -/
theorem Copy.kept (copy : Copy concerns place events field count)
    (elsewhere : concerns event = true → place event ≠ some field) :
    Copy concerns place (events ++ [event]) field count := by
  cases concerned : concerns event with
  | false =>
      exact
        { positive := copy.positive
          bounded := by simpa [concerned] using copy.bounded
          current_iff := by
            rw [lastPlace_append_of_not concerned, ← copy.current_iff]
            simp [concerned] }
  | true =>
      have bounded := copy.bounded
      exact
        { positive := copy.positive
          bounded := by
            simp only [List.countP_append, List.countP_singleton,
              concerned, if_true]
            omega
          current_iff := by
            rw [lastPlace_append_of concerned]
            simp only [List.countP_append, List.countP_singleton, concerned,
              if_true, elsewhere concerned, iff_false]
            omega }

/-- The next event of the counter makes the copies it leaves alone stale. -/
theorem Copy.not_current_of_kept
    (copy : Copy concerns place events field count)
    (concerned : concerns event = true) :
    count ≠ (events ++ [event]).countP concerns := by
  have bounded := copy.bounded
  simp only [List.countP_append, List.countP_singleton, concerned, if_true]
  omega

end WindowSystem.Library.StaleCopy
