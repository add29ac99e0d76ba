/-
**A buffered channel.**

A send that does not wait finds room, finds the buffer full, or panics because the channel is closed.

* `Channel.offer_panics_iff` — it panics exactly on a closed channel;
* `Channel.offer_sent` — what it leaves behind where it finds room.
-/

import Mathlib

namespace Atterm.Foundation

structure Channel (α : Type*) where
  capacity : ℕ
  buffer : List α
  closed : Bool
deriving DecidableEq, Repr

/-- What a send that does not wait comes to. -/
inductive Offer (α : Type*) where
  | sent (channel : Channel α)
  | full
  | panics
deriving DecidableEq, Repr

namespace Channel

variable {α : Type*}

def make (capacity : ℕ) : Channel α := ⟨capacity, [], false⟩

/-- A `select` with a send and a `default`. -/
def offer (c : Channel α) (value : α) : Offer α :=
  if c.closed then .panics
  else if c.buffer.length < c.capacity then .sent { c with buffer := c.buffer ++ [value] }
  else .full

def take (c : Channel α) : Channel α := { c with buffer := c.buffer.tail }

def close (c : Channel α) : Channel α := { c with closed := true }

/-- **A send panics exactly on a closed channel.** -/
theorem offer_panics_iff (c : Channel α) (value : α) : c.offer value = .panics ↔ c.closed = true := by
  rw [offer]
  split_ifs with closed room <;> simp [closed]

theorem offer_sent {c after : Channel α} {value : α} (sent : c.offer value = .sent after) :
    after = { c with buffer := c.buffer ++ [value] } := by
  rw [offer] at sent
  split_ifs at sent with closed room
  exact (Offer.sent.inj sent).symm

end Channel

end Atterm.Foundation
