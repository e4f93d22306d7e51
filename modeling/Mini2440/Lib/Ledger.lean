import Mathlib.Data.List.Basic

/-!
# What has been handed out

A ledger of resources that are handed out under fresh handles and given back.  Using or giving
back what is not held is a fault, and so is giving it back as something else than it was
handed out for.
-/

namespace Mini2440

/-- The handles that are held, with what they were handed out for, the next handle, and how
many faults there were. -/
structure Ledger (Info : Type*) where
  held : List (Nat × Info)
  next : Nat
  faults : Nat
  deriving DecidableEq, Repr

namespace Ledger

variable {Info : Type*}

/-- Nothing is held; 0 is no handle. -/
def empty : Ledger Info := ⟨[], 1, 0⟩

/-- The ledger after its next handle was handed out. -/
def acquire (ledger : Ledger Info) (info : Info) : Ledger Info :=
  { ledger with held := ledger.held ++ [(ledger.next, info)], next := ledger.next + 1 }

/-- Something is done with a handle, which has to be held. -/
def use (ledger : Ledger Info) (handle : Nat) : Ledger Info :=
  if handle ∈ ledger.held.map (·.1) then ledger
  else { ledger with faults := ledger.faults + 1 }

/-- A handle is given back, with what it was handed out for. -/
def release [DecidableEq Info] (ledger : Ledger Info) (handle : Nat) (info : Info) :
    Ledger Info :=
  if (handle, info) ∈ ledger.held then
    { ledger with held := ledger.held.erase (handle, info) }
  else { ledger with faults := ledger.faults + 1 }

/-- The handles that are held were all handed out before. -/
def Fresh (ledger : Ledger Info) : Prop := ∀ entry ∈ ledger.held, entry.1 < ledger.next

theorem empty_fresh : (empty : Ledger Info).Fresh := by
  intro entry member
  simp [empty] at member

theorem Fresh.acquire {ledger : Ledger Info} (fresh : ledger.Fresh) (info : Info) :
    (ledger.acquire info).Fresh := by
  refine List.forall_mem_append.mpr ⟨fun entry member => ?_, List.forall_mem_singleton.mpr ?_⟩
  · exact Nat.lt_succ_of_lt (fresh entry member)
  · exact Nat.lt_succ_self ledger.next

theorem use_of_held {ledger : Ledger Info} {handle : Nat} {info : Info}
    (held : (handle, info) ∈ ledger.held) : ledger.use handle = ledger :=
  if_pos (List.mem_map_of_mem held)

/-- The only thing that is held is given back, once. -/
theorem release_only [DecidableEq Info] {ledger : Ledger Info} {handle : Nat} {info : Info}
    (only : ledger.held = [(handle, info)]) :
    ledger.release handle info = { ledger with held := [] } := by
  rw [release, if_pos (by rw [only]; exact List.mem_singleton_self _), only, List.erase_cons_head]

theorem release_none [DecidableEq Info] {ledger : Ledger Info} (none_held : ledger.held = [])
    (handle : Nat) (info : Info) :
    ledger.release handle info = { ledger with faults := ledger.faults + 1 } := by
  rw [release, if_neg (by rw [none_held]; exact List.not_mem_nil)]

end Ledger

end Mini2440
