/-
**Packets that open, use and close.**

A queue of packets is read in order by somebody who keeps a set of open keys. The packets that use a
key must find it open when their turn comes.

* `Served` — they all do, if nothing else happens;
* `served_append` — what follows is served by what the first packets leave open;
* `Served.erase` — a key that is closed meanwhile, and that no packet uses.
-/

import Mathlib

namespace Atterm.Foundation

inductive Touch (κ : Type*) where
  | opens (key : κ)
  | uses (key : κ)
  | closes (key : κ)
deriving DecidableEq

variable {κ Packet : Type*} [DecidableEq κ] (touch : Packet → Touch κ)

/-- The keys that are open after a packet. -/
def replayOne (has : Finset κ) : Touch κ → Finset κ
  | .opens key => insert key has
  | .uses _ => has
  | .closes key => has.erase key

def replay (has : Finset κ) (packets : List Packet) : Finset κ :=
  packets.foldl (fun has packet => replayOne has (touch packet)) has

/-- Every packet that uses a key finds it open. -/
def Served : Finset κ → List Packet → Prop
  | _, [] => True
  | has, packet :: rest =>
    (∀ key, touch packet = .uses key → key ∈ has) ∧ Served (replayOne has (touch packet)) rest

variable {touch} {has has' : Finset κ} {packets : List Packet}

theorem replayOne_mono (inside : has ⊆ has') (t : Touch κ) : replayOne has t ⊆ replayOne has' t := by
  cases t with
  | opens key => exact Finset.insert_subset_insert key inside
  | uses key => exact inside
  | closes key => exact Finset.erase_subset_erase key inside

theorem Served.mono (served : Served touch has packets) (inside : has ⊆ has') :
    Served touch has' packets := by
  induction packets generalizing has has' with
  | nil => trivial
  | cons packet rest ih =>
    exact ⟨fun key uses => inside (served.1 key uses), ih served.2 (replayOne_mono inside _)⟩

/-- **What follows is served by what the first packets leave open.** -/
theorem served_append {more : List Packet} : Served touch has (packets ++ more) ↔
    Served touch has packets ∧ Served touch (replay touch has packets) more := by
  induction packets generalizing has with
  | nil => simp [Served, replay]
  | cons packet rest ih =>
    rw [List.cons_append, Served, Served, ih, and_assoc]
    rfl

theorem served_concat {packet : Packet} : Served touch has (packets ++ [packet]) ↔
    Served touch has packets ∧ ∀ key, touch packet = .uses key → key ∈ replay touch has packets := by
  rw [served_append, Served, Served, and_true]

/-- **A key that no packet uses may be closed.** -/
theorem Served.erase (served : Served touch has packets) {key : κ}
    (unused : ∀ packet ∈ packets, touch packet ≠ .uses key) :
    Served touch (has.erase key) packets := by
  induction packets generalizing has with
  | nil => trivial
  | cons packet rest ih =>
    have later := fun other listed => unused other (List.mem_cons_of_mem _ listed)
    refine ⟨fun other uses => Finset.mem_erase.mpr ⟨fun same => ?_, served.1 other uses⟩, ?_⟩
    · rw [same] at uses
      exact unused packet (List.mem_cons_self ..) uses
    · refine (ih served.2 later).mono ?_
      -- the set without the key, before the packet and after it
      intro other inside
      obtain ⟨differs, after⟩ := Finset.mem_erase.mp inside
      cases touched : touch packet with
      | opens opened =>
        rw [touched, replayOne, Finset.mem_insert] at after
        rw [replayOne, Finset.mem_insert, Finset.mem_erase]
        exact after.imp_right fun old => ⟨differs, old⟩
      | uses used =>
        rw [touched] at after
        exact Finset.mem_erase.mpr ⟨differs, after⟩
      | closes closed =>
        rw [touched, replayOne, Finset.mem_erase] at after
        rw [replayOne, Finset.mem_erase, Finset.mem_erase]
        exact ⟨after.1, differs, after.2⟩

end Atterm.Foundation
