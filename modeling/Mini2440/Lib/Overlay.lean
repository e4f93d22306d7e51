import Mathlib.Data.List.Induction
import Mathlib.Data.List.Nodup
import Mathlib.Logic.Function.Basic

/-!
# Overlays of finitely many writes

A memory is a function from addresses to values.  `overlay mem writes` is the
memory after the writes of the list, in order.  Reading it back needs only two
facts: an address that no write names keeps its value, and where no address is
written twice every write can be read back.
-/

namespace Mini2440.Overlay

variable {Addr Value : Type*} [DecidableEq Addr]

/-- The memory after a list of writes, oldest first. -/
def overlay (mem : Addr → Value) (writes : List (Addr × Value)) : Addr → Value :=
  writes.foldl (fun current write => Function.update current write.1 write.2) mem

@[simp] theorem overlay_nil (mem : Addr → Value) : overlay mem [] = mem := rfl

theorem overlay_append (mem : Addr → Value) (first second : List (Addr × Value)) :
    overlay mem (first ++ second) = overlay (overlay mem first) second :=
  List.foldl_append

/-- The most recent write is an update of the memory before it. -/
theorem overlay_concat (mem : Addr → Value) (writes : List (Addr × Value))
    (addr : Addr) (value : Value) :
    overlay mem (writes ++ [(addr, value)]) =
      Function.update (overlay mem writes) addr value := by
  rw [overlay_append]
  rfl

/-- An address that no write names keeps its value. -/
theorem overlay_of_notMem (mem : Addr → Value) {writes : List (Addr × Value)}
    {addr : Addr} (fresh : addr ∉ writes.map Prod.fst) :
    overlay mem writes addr = mem addr := by
  induction writes using List.reverseRecOn with
  | nil => rfl
  | append_singleton writes write ih =>
      simp only [List.map_append, List.map_cons, List.map_nil, List.mem_append,
        List.mem_singleton, not_or] at fresh
      rw [overlay_concat, Function.update_of_ne fresh.2]
      exact ih fresh.1

/-- Where no address is written twice, every write can be read back. -/
theorem overlay_of_mem (mem : Addr → Value) {writes : List (Addr × Value)}
    (nodup : (writes.map Prod.fst).Nodup) {addr : Addr} {value : Value}
    (member : (addr, value) ∈ writes) : overlay mem writes addr = value := by
  induction writes using List.reverseRecOn with
  | nil => simp at member
  | append_singleton writes write ih =>
      obtain ⟨lastAddr, lastValue⟩ := write
      rw [overlay_concat]
      simp only [List.map_append, List.map_cons, List.map_nil] at nodup
      rcases List.mem_append.mp member with earlier | last
      · have different : addr ≠ lastAddr := by
          intro equal
          have fresh := (List.nodup_append.mp nodup).2.2
          exact fresh addr (List.mem_map_of_mem earlier) lastAddr (by simp) equal
        rw [Function.update_of_ne different]
        exact ih (List.nodup_append.mp nodup).1 earlier
      · obtain ⟨rfl, rfl⟩ := Prod.mk.inj (List.mem_singleton.mp last)
        exact Function.update_self ..

end Mini2440.Overlay
