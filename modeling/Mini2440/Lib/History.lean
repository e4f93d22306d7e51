import Mathlib.Data.List.Basic
import Mathlib.Data.List.Induction

/-!
# Histories of calls

A component that takes every call in every state is a function of the calls made so far,
oldest first.  Three kinds of things are then read off one call: what no call changes, what
every call adds to a log, and a register, which holds what the last call wrote that writes
it at all.  What a log must obey is told entry by entry.
-/

namespace Mini2440.History

variable {State Call Value Written : Type*}

/-- The state after the calls. -/
def after (step : State → Call → State) (start : State) (calls : List Call) : State :=
  calls.foldl step start

theorem after_concat (step : State → Call → State) (start : State) (calls : List Call)
    (call : Call) : after step start (calls ++ [call]) = step (after step start calls) call := by
  rw [after, List.foldl_append]
  rfl

/-- The value of the last call that has one. -/
def last (value? : Call → Option Value) (calls : List Call) : Option Value :=
  (calls.filterMap value?).getLast?

theorem last_concat (value? : Call → Option Value) (calls : List Call) (call : Call) :
    last value? (calls ++ [call]) = (value? call).or (last value? calls) := by
  rw [last, List.filterMap_append, List.getLast?_append]
  cases value : value? call with
  | none => rw [List.filterMap_cons_none value]; rfl
  | some found => rw [List.filterMap_cons_some value]; rfl

/-- Every entry of a log is as those before it require. -/
def Throughout (holds : List Value → Value → Prop) (log : List Value) : Prop :=
  ∀ before entry after, log = before ++ entry :: after → holds before entry

theorem throughout_nil (holds : List Value → Value → Prop) : Throughout holds [] := by
  intro before entry after split
  simp at split

theorem throughout_concat {holds : List Value → Value → Prop} {log : List Value} {entry : Value}
    (earlier : Throughout holds log) (last : holds log entry) :
    Throughout holds (log ++ [entry]) := by
  intro before found after split
  rcases List.eq_nil_or_concat after with rfl | ⟨rest, final, rfl⟩
  · obtain ⟨rfl, rfl⟩ := List.append_singleton_inj.mp split
    exact last
  · rw [List.concat_eq_append, ← List.cons_append, ← List.append_assoc] at split
    exact earlier before found rest (List.append_singleton_inj.mp split).1

section

variable {step : State → Call → State} (start : State) (calls : List Call)

/-- What no call changes stays as it was. -/
theorem after_unchanged (observe : State → Value)
    (unchanged : ∀ state call, observe (step state call) = observe state) :
    observe (after step start calls) = observe start := by
  induction calls using List.reverseRecOn with
  | nil => rfl
  | append_singleton calls call ih => rw [after_concat, unchanged, ih]

/-- A log holds what the calls have added to it, in order. -/
theorem after_log (log : State → List Value) (adds : Call → List Value)
    (appends : ∀ state call, log (step state call) = log state ++ adds call) :
    log (after step start calls) = log start ++ calls.flatMap adds := by
  induction calls using List.reverseRecOn with
  | nil => exact (List.append_nil _).symm
  | append_singleton calls call ih =>
      rw [after_concat, appends, ih, List.flatMap_append, List.flatMap_singleton,
        List.append_assoc]

/-- A register holds what the last of the calls wrote that write it. -/
theorem after_register (read : State → Value) (written? : Call → Option Written)
    (encode : Written → Value)
    (writes : ∀ state, ∀ call ∈ calls,
      read (step state call) = ((written? call).map encode).getD (read state)) :
    read (after step start calls) =
      ((last written? calls).map encode).getD (read start) := by
  induction calls using List.reverseRecOn with
  | nil => rfl
  | append_singleton calls call ih =>
      have here := writes (after step start calls) call
        (List.mem_append_right calls (List.mem_singleton_self call))
      have before := ih fun state other member =>
        writes state other (List.mem_append_left _ member)
      rw [after_concat, here, before, last_concat]
      cases written? call <;> rfl

end

end Mini2440.History
