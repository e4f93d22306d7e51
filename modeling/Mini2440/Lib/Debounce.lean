import Mathlib.Data.List.Chain
import Mathlib.Data.List.Induction

/-!
# A timer that every edge pushes back

An edge arms one timer `delay` ticks ahead, wherever it stood, and the timer fires on behalf
of the source that armed it last, at its time or late.  The log of the edges and the firings
tells what a train of edges leads to: edges that are less than `delay` apart have one firing
together, no sooner than `delay` after the last of them, and no edge is left without one.
Where the timer is never more than `late` ticks late, no edge waits for longer.
-/

namespace Mini2440.Debounce

variable {Source : Type*}

/-- An edge, or a firing on behalf of a source. -/
inductive Entry (Source : Type*) where
  | edge (source : Source) (time : Nat)
  | fired (source : Source) (time : Nat)
  deriving DecidableEq, Repr

/-- When the entry was made. -/
def Entry.time : Entry Source → Nat
  | .edge _ time | .fired _ time => time

/-- The entry is a firing. -/
def Entry.isFired : Entry Source → Bool
  | .edge .. => false
  | .fired .. => true

/-- The clock, when the timer is due if it is pending, and who armed it last. -/
structure Timer (Source : Type*) where
  now : Nat
  due : Option Nat
  source : Option Source
  log : List (Entry Source)

namespace Timer

/-- The timer may fire. -/
def ready (timer : Timer Source) : Bool := timer.due.any fun due => due ≤ timer.now

/-- A tick from here leaves the timer no more than `late` ticks late. -/
def HasTime (late : Nat) (timer : Timer Source) : Prop :=
  ∀ due ∈ timer.due, timer.now < due + late

instance (late : Nat) (timer : Timer Source) : Decidable (timer.HasTime late) :=
  inferInstanceAs (Decidable (∀ due ∈ timer.due, _))

/-- When the last entry was made. -/
def lastTime (timer : Timer Source) : Nat := (timer.log.getLast?.map Entry.time).getD 0

/-- An edge arms the timer, wherever it stood. -/
def edge (delay : Nat) (source : Source) (timer : Timer Source) : Timer Source where
  now := timer.now
  due := some (timer.now + delay)
  source := some source
  log := timer.log ++ [.edge source timer.now]

/-- The timer fires, on behalf of the last source if there is one. -/
def fire (timer : Timer Source) : Timer Source where
  now := timer.now
  due := none
  source := timer.source
  log := timer.log ++ (timer.source.map fun source => .fired source timer.now).toList

/-- Time goes on. -/
def tick (timer : Timer Source) : Timer Source := { timer with now := timer.now + 1 }

end Timer

/-- What comes right after an entry. -/
def Follows (delay : Nat) : Entry Source → Entry Source → Prop
  | .edge _ time, .edge _ time' => time ≤ time'
  | .edge source time, .fired source' time' => source' = source ∧ time + delay ≤ time'
  | .fired _ time, .edge _ time' => time ≤ time'
  | .fired .., .fired .. => False

/-- An edge waits no longer than `limit` for what comes next. -/
def Prompt (limit : Nat) : Entry Source → Entry Source → Prop
  | .edge _ time, next => next.time ≤ time + limit
  | .fired .., _ => True

/-- A log of bursts: each ends with a firing, and none begins with one. -/
structure Bursts (delay : Nat) (log : List (Entry Source)) : Prop where
  chain : log.IsChain (Follows delay)
  begins : ∀ entry, log.head? = some entry → entry.isFired = false

/-- Where the timer stands after its last entry. -/
inductive Standing (delay : Nat) (timer : Timer Source) : Prop where
  | unused (log : timer.log = []) (source : timer.source = none)
  | armed (source : Source) (time : Nat) (last : timer.log.getLast? = some (.edge source time))
      (armedBy : timer.source = some source) (due : timer.due = some (time + delay))
      (past : time ≤ timer.now)
  | quiet (source : Source) (time : Nat)
      (last : timer.log.getLast? = some (.fired source time)) (due : timer.due = none)
      (past : time ≤ timer.now)

/-- What holds of the timer, however late it fires. -/
structure Kept (delay : Nat) (timer : Timer Source) : Prop where
  bursts : Bursts delay timer.log
  standing : Standing delay timer

/-- What holds of a timer that is never more than `late` ticks late. -/
structure InTime (delay late : Nat) (timer : Timer Source) : Prop where
  prompt : timer.log.IsChain (Prompt (delay + late))
  waits : ∀ due ∈ timer.due, timer.now ≤ due + late

section

variable {delay : Nat}

theorem Bursts.concat {log : List (Entry Source)} (bursts : Bursts delay log)
    {entry : Entry Source}
    (follows : ∀ last, log.getLast? = some last → Follows delay last entry)
    (begins : log = [] → entry.isFired = false) : Bursts delay (log ++ [entry]) := by
  constructor
  case chain =>
    refine List.isChain_append.mpr ⟨bursts.chain, List.isChain_singleton entry, ?_⟩
    intro last isLast first isFirst
    obtain rfl := Option.some.inj isFirst
    exact follows last isLast
  case begins =>
    intro first isFirst
    cases log with
    | nil =>
        obtain rfl := Option.some.inj isFirst
        exact begins rfl
    | cons head tail => exact bursts.begins first isFirst

variable {timer : Timer Source}

theorem Timer.log_fire_of_none (unarmed : timer.source = none) :
    timer.fire.log = timer.log := by
  rw [fire, unarmed]
  exact List.append_nil _

theorem Timer.log_fire_of_some {source : Source} (armed : timer.source = some source) :
    timer.fire.log = timer.log ++ [.fired source timer.now] := by
  rw [fire, armed]
  rfl

theorem kept_start (due : Option Nat) :
    Kept delay (⟨0, due, none, []⟩ : Timer Source) := by
  refine ⟨⟨List.isChain_nil, ?_⟩, .unused rfl rfl⟩
  intro entry first
  contradiction

theorem Kept.edge (kept : Kept delay timer) (source : Source) :
    Kept delay (timer.edge delay source) := by
  constructor
  case bursts =>
    refine kept.bursts.concat ?_ fun _ => rfl
    intro last isLast
    cases kept.standing with
    | unused log _ =>
        rw [log] at isLast
        contradiction
    | armed other time last armedBy due past =>
        obtain rfl := Option.some.inj (last.symm.trans isLast)
        exact past
    | quiet other time last due past =>
        obtain rfl := Option.some.inj (last.symm.trans isLast)
        exact past
  case standing =>
    exact .armed source timer.now List.getLast?_concat rfl rfl (Nat.le_refl _)

theorem Kept.fire (kept : Kept delay timer) (ready : timer.ready = true) :
    Kept delay timer.fire := by
  cases kept.standing with
  | unused log source =>
      have same := Timer.log_fire_of_none source
      exact ⟨by rw [same]; exact kept.bursts, .unused (same.trans log) source⟩
  | armed source time last armedBy due past =>
      have reached : time + delay ≤ timer.now := by
        rw [Timer.ready, due] at ready
        exact of_decide_eq_true ready
      have fired := Timer.log_fire_of_some armedBy
      constructor
      case bursts =>
        rw [fired]
        refine kept.bursts.concat ?_ ?_
        · intro entry isLast
          obtain rfl := Option.some.inj (last.symm.trans isLast)
          exact ⟨rfl, reached⟩
        · intro empty
          rw [empty] at last
          contradiction
      case standing =>
        refine .quiet source timer.now ?_ rfl (Nat.le_refl _)
        rw [fired]
        exact List.getLast?_concat
  | quiet source time last due past =>
      rw [Timer.ready, due] at ready
      contradiction

theorem Kept.tick (kept : Kept delay timer) : Kept delay timer.tick := by
  refine ⟨kept.bursts, ?_⟩
  cases kept.standing with
  | unused log source => exact .unused log source
  | armed source time last armedBy due past =>
      exact .armed source time last armedBy due (Nat.le_succ_of_le past)
  | quiet source time last due past =>
      exact .quiet source time last due (Nat.le_succ_of_le past)

/-- An edge that is the last entry has armed the timer. -/
theorem Kept.armed_of_last (kept : Kept delay timer) {source : Source} {time : Nat}
    (isLast : timer.log.getLast? = some (.edge source time)) :
    timer.source = some source ∧ timer.due = some (time + delay) := by
  cases kept.standing with
  | unused log _ =>
      rw [log] at isLast
      contradiction
  | armed other edge last armedBy due past =>
      obtain ⟨rfl, rfl⟩ := Entry.edge.inj (Option.some.inj (last.symm.trans isLast))
      exact ⟨armedBy, due⟩
  | quiet other fired last due past =>
      have clash := Option.some.inj (last.symm.trans isLast)
      contradiction

/-- Where the timer may fire, the last entry is `delay` ago at least. -/
theorem Kept.lastTime_of_ready (kept : Kept delay timer) (ready : timer.ready = true)
    {source : Source} (armed : timer.source = some source) :
    timer.lastTime + delay ≤ timer.now := by
  rw [Timer.ready] at ready
  cases kept.standing with
  | unused log source =>
      rw [source] at armed
      contradiction
  | armed source time last armedBy due past =>
      rw [due] at ready
      have reached : time + delay ≤ timer.now := of_decide_eq_true ready
      rw [Timer.lastTime, last]
      exact reached
  | quiet source time last due past =>
      rw [due] at ready
      contradiction

theorem Timer.lastTime_edge (source : Source) :
    (timer.edge delay source).lastTime = timer.now := by
  rw [lastTime, edge, List.getLast?_concat]
  rfl

theorem Kept.lastTime_le (kept : Kept delay timer) : timer.lastTime ≤ timer.now := by
  rw [Timer.lastTime]
  cases kept.standing with
  | unused log source =>
      rw [log]
      exact Nat.zero_le _
  | armed source time last armedBy due past =>
      rw [last]
      exact past
  | quiet source time last due past =>
      rw [last]
      exact past

theorem Kept.lastTime_fire (kept : Kept delay timer) : timer.lastTime ≤ timer.fire.lastTime := by
  cases armed : timer.source with
  | none =>
      rw [Timer.lastTime, Timer.lastTime, Timer.log_fire_of_none armed]
  | some source =>
      rw [Timer.lastTime.eq_def timer.fire, Timer.log_fire_of_some armed, List.getLast?_concat]
      exact kept.lastTime_le

/-! ## A timer that is not very late -/

variable {late : Nat}

theorem inTime_start (due : Option Nat) :
    InTime delay late (⟨0, due, none, []⟩ : Timer Source) :=
  ⟨List.isChain_nil, fun _ _ => Nat.zero_le _⟩

/-- What is entered now finds the last edge no more than `delay + late` ago. -/
theorem InTime.concat (inTime : InTime delay late timer) (kept : Kept delay timer)
    {entry : Entry Source} (now : entry.time = timer.now) :
    (timer.log ++ [entry]).IsChain (Prompt (delay + late)) := by
  refine List.isChain_append.mpr ⟨inTime.prompt, List.isChain_singleton entry, ?_⟩
  intro last isLast first isFirst
  obtain rfl := Option.some.inj isFirst
  cases kept.standing with
  | unused log source =>
      rw [log] at isLast
      contradiction
  | armed source time last armedBy due past =>
      obtain rfl := Option.some.inj (last.symm.trans isLast)
      have waited := inTime.waits _ due
      rw [Prompt, now, ← Nat.add_assoc]
      exact waited
  | quiet source time last due past =>
      obtain rfl := Option.some.inj (last.symm.trans isLast)
      trivial

theorem InTime.edge (inTime : InTime delay late timer) (kept : Kept delay timer)
    (source : Source) : InTime delay late (timer.edge delay source) := by
  refine ⟨inTime.concat kept rfl, ?_⟩
  intro due armed
  obtain rfl := Option.some.inj armed
  exact Nat.le_add_right_of_le (Nat.le_add_right _ _)

theorem InTime.fire (inTime : InTime delay late timer) (kept : Kept delay timer) :
    InTime delay late timer.fire := by
  constructor
  case prompt =>
    cases armed : timer.source with
    | none =>
        rw [Timer.log_fire_of_none armed]
        exact inTime.prompt
    | some source =>
        rw [Timer.log_fire_of_some armed]
        exact inTime.concat kept rfl
  case waits =>
    intro due armed
    contradiction

theorem InTime.tick (inTime : InTime delay late timer) (hasTime : timer.HasTime late) :
    InTime delay late timer.tick :=
  ⟨inTime.prompt, fun due armed => hasTime due armed⟩

/-! ## What the log tells -/

/-- Time does not go back along a log. -/
theorem Follows.time_le {entry next : Entry Source} (follows : Follows delay entry next) :
    entry.time ≤ next.time := by
  cases entry with
  | edge source time =>
      cases next with
      | edge source' time' => exact follows
      | fired source' time' => exact Nat.le_of_add_right_le follows.2
  | fired source time =>
      cases next with
      | edge source' time' => exact follows
      | fired source' time' => exact False.elim follows

theorem Bursts.sorted {log : List (Entry Source)} (bursts : Bursts delay log) :
    log.Pairwise fun entry later => entry.time ≤ later.time := by
  have ordered : log.IsChain fun entry later => entry.time ≤ later.time :=
    bursts.chain.imp fun _ _ follows => follows.time_le
  have : IsTrans (Entry Source) fun entry later => entry.time ≤ later.time :=
    ⟨fun _ _ _ => Nat.le_trans⟩
  exact List.isChain_iff_pairwise.mp ordered

/-- A firing is the answer to the edge right before it. -/
theorem Bursts.fired {before after : List (Entry Source)} {source : Source} {time : Nat}
    (bursts : Bursts delay (before ++ .fired source time :: after)) :
    ∃ first edge, before = first ++ [.edge source edge] ∧ edge + delay ≤ time := by
  rcases List.eq_nil_or_concat before with rfl | ⟨first, entry, rfl⟩
  · exact absurd (bursts.begins _ rfl) Bool.true_eq_false.mp
  · rw [List.concat_eq_append] at bursts ⊢
    have follows : Follows delay entry (.fired source time) :=
      (List.isChain_append.mp bursts.chain).2.2 entry List.getLast?_concat _ rfl
    cases entry with
    | edge source' edge =>
        obtain ⟨rfl, reached⟩ := follows
        exact ⟨first, edge, rfl, reached⟩
    | fired source' time' => exact False.elim follows

/-- An edge is pushed back by the next edge, or answered, or it is the last entry. -/
theorem Bursts.edge {before after : List (Entry Source)} {source : Source} {time : Nat}
    (bursts : Bursts delay (before ++ .edge source time :: after)) :
    after = [] ∨ (∃ source' time' rest, after = .edge source' time' :: rest ∧ time ≤ time') ∨
      ∃ time' rest, after = .fired source time' :: rest ∧ time + delay ≤ time' := by
  cases after with
  | nil => exact .inl rfl
  | cons entry rest =>
      have follows := (List.isChain_cons_cons.mp (List.isChain_append.mp bursts.chain).2.1).1
      cases entry with
      | edge source' time' => exact .inr (.inl ⟨source', time', rest, rfl, follows⟩)
      | fired source' time' =>
          obtain ⟨rfl, reached⟩ := follows
          exact .inr (.inr ⟨time', rest, rfl, reached⟩)

/-- Where the timer is not very late, no edge waits for long. -/
theorem InTime.next_le {timer : Timer Source} {late : Nat} (inTime : InTime delay late timer)
    {before after : List (Entry Source)} {source : Source} {time : Nat} {next : Entry Source}
    (log : timer.log = before ++ .edge source time :: next :: after) :
    next.time ≤ time + (delay + late) := by
  have prompt := inTime.prompt
  rw [log] at prompt
  exact (List.isChain_cons_cons.mp (List.isChain_append.mp prompt).2.1).1

/-- Two firings are `delay` apart at least. -/
theorem Bursts.spaced {log : List (Entry Source)} (bursts : Bursts delay log) :
    (log.filter Entry.isFired).Pairwise fun entry later =>
      entry.time + delay ≤ later.time := by
  induction log using List.reverseRecOn with
  | nil => exact List.Pairwise.nil
  | append_singleton log last ih =>
      have earlier : Bursts delay log := by
        refine ⟨(List.isChain_append.mp bursts.chain).1, fun entry first => ?_⟩
        refine bursts.begins entry ?_
        rw [List.head?_append, first]
        rfl
      rw [List.filter_append]
      refine List.pairwise_append.mpr ⟨ih earlier, ?_, ?_⟩
      · exact (List.pairwise_singleton _ last).filter _
      · intro entry member later isLast
        obtain ⟨isLast, fired⟩ := List.mem_filter.mp isLast
        obtain rfl := List.mem_singleton.mp isLast
        obtain ⟨member, answered⟩ := List.mem_filter.mp member
        cases later with
        | edge source time => contradiction
        | fired source time =>
            obtain ⟨first, edge, rfl, reached⟩ := bursts.fired
            rcases List.mem_append.mp member with before | same
            · have sorted := (List.pairwise_append.mp earlier.sorted).2.2
              have earlierEdge := sorted entry before _ (List.mem_singleton_self _)
              exact (Nat.add_le_add_right earlierEdge _).trans reached
            · obtain rfl := List.mem_singleton.mp same
              contradiction

end

end Mini2440.Debounce
