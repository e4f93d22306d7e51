import Mathlib.Data.Multiset.Bind

/-!
# Who holds what

A registry of things that owners take and give back.  Some things only one owner can hold, and
only once.  Taking such a thing while it is held is a fault, and so is giving back what the
owner does not hold.

The rule of the module is `exchange_iff`: a list of things is taken and another one given back
without a fault, and leaves the registry with given holdings, exactly when there is room for
what is taken and the balance is even.  Where the registry holds what the parts of a system
hold, `room_total_iff` tells room by the parts.
-/

namespace Mini2440

/-- Who holds what, and how many calls went wrong. -/
@[ext] structure Registry (Owner Key : Type*) where
  held : Multiset (Owner × Key)
  faults : Nat

namespace Registry

variable {Owner Key : Type*}

/-- Nothing is held, and nothing went wrong. -/
def empty : Registry Owner Key := ⟨0, 0⟩

/-- What an owner holds that has taken some things. -/
def own (owner : Owner) (keys : List Key) : Multiset (Owner × Key) :=
  Multiset.ofList (keys.map (owner, ·))

theorem own_nil (owner : Owner) : own owner ([] : List Key) = 0 := rfl

theorem own_cons (owner : Owner) (key : Key) (keys : List Key) :
    own owner (key :: keys) = (owner, key) ::ₘ own owner keys := rfl

theorem mem_own {owner other : Owner} {key : Key} {keys : List Key} :
    (other, key) ∈ own owner keys ↔ other = owner ∧ key ∈ keys := by
  simp only [own, Multiset.mem_coe, List.mem_map, Prod.mk.injEq]
  constructor
  · rintro ⟨_, member, rfl, rfl⟩
    exact ⟨rfl, member⟩
  · rintro ⟨rfl, member⟩
    exact ⟨key, member, rfl, rfl⟩

theorem own_eq_iff {owner : Owner} {keys others : List Key} :
    own owner keys = own owner others ↔ keys.Perm others := by
  have distinct : Function.Injective (Prod.mk owner : Key → Owner × Key) :=
    fun _ _ same => (Prod.mk.inj same).2
  exact Multiset.coe_eq_coe.trans (List.map_perm_map_iff distinct)

variable [DecidableEq Owner] [DecidableEq Key]

section

variable (exclusive : Key → Bool)

/-- An owner takes something, which nobody may hold if it is exclusive. -/
def take (owner : Owner) (registry : Registry Owner Key) (key : Key) : Registry Owner Key :=
  if exclusive key ∧ key ∈ registry.held.map Prod.snd then
    { registry with faults := registry.faults + 1 }
  else
    { registry with held := (owner, key) ::ₘ registry.held }

/-- An owner takes some things, one after another. -/
def takeAll (owner : Owner) (keys : List Key) (registry : Registry Owner Key) :
    Registry Owner Key :=
  keys.foldl (take exclusive owner) registry

/-- Nothing of what only one can hold is held, or asked for twice. -/
def Room (keys : List Key) (held : Multiset (Owner × Key)) : Prop :=
  (keys.filter exclusive).Nodup ∧
    ∀ key ∈ keys, exclusive key = true → key ∉ held.map Prod.snd

/-- Something in the two lists is for one owner only. -/
def Clash (keys others : List Key) : Prop := ∃ key ∈ keys, exclusive key = true ∧ key ∈ others

instance (keys others : List Key) : Decidable (Clash exclusive keys others) :=
  inferInstanceAs (Decidable (∃ key ∈ keys, exclusive key = true ∧ key ∈ others))

end

/-- An owner gives something back, which it has to hold. -/
def give (owner : Owner) (registry : Registry Owner Key) (key : Key) : Registry Owner Key :=
  if (owner, key) ∈ registry.held then
    { registry with held := registry.held.erase (owner, key) }
  else
    { registry with faults := registry.faults + 1 }

/-- An owner gives some things back, one after another. -/
def giveAll (owner : Owner) (keys : List Key) (registry : Registry Owner Key) :
    Registry Owner Key :=
  keys.foldl (give owner) registry

/-! ## Taking -/

section

variable {exclusive : Key → Bool} {owner : Owner}

omit [DecidableEq Owner] in
variable (exclusive owner) in
theorem le_faults_takeAll (keys : List Key) (registry : Registry Owner Key) :
    registry.faults ≤ (registry.takeAll exclusive owner keys).faults := by
  induction keys generalizing registry with
  | nil => exact Nat.le_refl _
  | cons key keys ih =>
      refine Nat.le_trans ?_ (ih (registry.take exclusive owner key))
      unfold take
      split
      next => exact Nat.le_succ _
      next => exact Nat.le_refl _

omit [DecidableEq Owner] [DecidableEq Key] in
/-- There is room for the first thing, and for the others after it. -/
theorem room_cons {key : Key} {keys : List Key} {held : Multiset (Owner × Key)} :
    Room exclusive (key :: keys) held ↔
      ¬ (exclusive key = true ∧ key ∈ held.map Prod.snd) ∧
        Room exclusive keys ((owner, key) ::ₘ held) := by
  simp only [Room, Multiset.map_cons, Multiset.mem_cons, List.forall_mem_cons, not_or, not_and]
  cases single : exclusive key with
  | false =>
      rw [List.filter_cons_of_neg (by simp [single])]
      constructor
      · rintro ⟨distinct, -, others⟩
        refine ⟨by simp, distinct, fun other member alone => ⟨?_, others other member alone⟩⟩
        rintro rfl
        rw [single] at alone
        contradiction
      · rintro ⟨-, distinct, others⟩
        exact ⟨distinct, by simp, fun other member alone => (others other member alone).2⟩
  | true =>
      rw [List.filter_cons_of_pos single, List.nodup_cons, List.mem_filter]
      constructor
      · rintro ⟨⟨new, distinct⟩, first, others⟩
        refine ⟨first, distinct, fun other member alone => ⟨?_, others other member alone⟩⟩
        rintro rfl
        exact new ⟨member, single⟩
      · rintro ⟨first, distinct, others⟩
        refine ⟨⟨?_, distinct⟩, first, fun other member alone => (others other member alone).2⟩
        rintro ⟨member, -⟩
        exact (others key member single).1 rfl

omit [DecidableEq Owner] in
theorem takeAll_of_room {keys : List Key} {registry : Registry Owner Key}
    (room : Room exclusive keys registry.held) :
    registry.takeAll exclusive owner keys =
      ⟨registry.held + own owner keys, registry.faults⟩ := by
  induction keys generalizing registry with
  | nil =>
      rw [own_nil, Multiset.add_zero]
      rfl
  | cons key keys ih =>
      obtain ⟨first, others⟩ := room_cons.mp room
      rw [takeAll, List.foldl_cons, take, if_neg first, ← takeAll, ih others, own_cons,
        Multiset.cons_add, Multiset.add_cons]

omit [DecidableEq Owner] in
/-- Exactly when there is room nothing goes wrong. -/
theorem faults_takeAll_iff {keys : List Key} {registry : Registry Owner Key} :
    (registry.takeAll exclusive owner keys).faults = registry.faults ↔
      Room exclusive keys registry.held := by
  constructor
  · intro faultless
    induction keys generalizing registry with
    | nil => exact ⟨List.nodup_nil, fun key member => absurd member List.not_mem_nil⟩
    | cons key keys ih =>
        rw [room_cons]
        rw [takeAll, List.foldl_cons, ← takeAll] at faultless
        by_cases taken : exclusive key ∧ key ∈ registry.held.map Prod.snd
        · rw [take, if_pos taken] at faultless
          have more := le_faults_takeAll exclusive owner keys
            { registry with faults := registry.faults + 1 }
          rw [faultless] at more
          exact absurd more (Nat.not_succ_le_self _)
        · rw [take, if_neg taken] at faultless
          exact ⟨taken, ih faultless⟩
  · intro room
    rw [takeAll_of_room room]

end

/-! ## Giving back -/

section

variable {owner : Owner}

variable (owner) in
theorem le_faults_giveAll (keys : List Key) (registry : Registry Owner Key) :
    registry.faults ≤ (registry.giveAll owner keys).faults := by
  induction keys generalizing registry with
  | nil => exact Nat.le_refl _
  | cons key keys ih =>
      refine Nat.le_trans ?_ (ih (registry.give owner key))
      unfold give
      split
      next => exact Nat.le_refl _
      next => exact Nat.le_succ _

theorem giveAll_of_held {keys : List Key} {registry : Registry Owner Key}
    {rest : Multiset (Owner × Key)} (held : registry.held = rest + own owner keys) :
    registry.giveAll owner keys = ⟨rest, registry.faults⟩ := by
  induction keys generalizing registry with
  | nil =>
      rw [own_nil, Multiset.add_zero] at held
      rw [← held]
      rfl
  | cons key keys ih =>
      rw [own_cons, Multiset.add_cons] at held
      have member : (owner, key) ∈ registry.held := held ▸ Multiset.mem_cons_self _ _
      rw [giveAll, List.foldl_cons, give, if_pos member, ← giveAll]
      apply ih
      rw [held, Multiset.erase_cons_head]

/-- What is given back without a fault was held. -/
theorem held_of_faults_giveAll {keys : List Key} {registry : Registry Owner Key}
    (faultless : (registry.giveAll owner keys).faults = registry.faults) :
    registry.held = (registry.giveAll owner keys).held + own owner keys := by
  induction keys generalizing registry with
  | nil => exact (Multiset.add_zero registry.held).symm
  | cons key keys ih =>
      rw [giveAll, List.foldl_cons, ← giveAll] at faultless ⊢
      by_cases member : (owner, key) ∈ registry.held
      · have given : registry.give owner key =
            { registry with held := registry.held.erase (owner, key) } := if_pos member
        rw [given] at faultless ⊢
        rw [own_cons, Multiset.add_cons, ← ih faultless, Multiset.cons_erase member]
      · rw [give, if_neg member] at faultless
        have more := le_faults_giveAll owner keys
          { registry with faults := registry.faults + 1 }
        rw [faultless] at more
        exact absurd more (Nat.not_succ_le_self _)

end

/-- Taking and giving back go well exactly when there is room and the balance is even. -/
theorem exchange_iff (exclusive : Key → Bool) (owner : Owner) (takes gives : List Key)
    (registry : Registry Owner Key) (rest : Multiset (Owner × Key)) :
    (registry.takeAll exclusive owner takes).giveAll owner gives = ⟨rest, registry.faults⟩ ↔
      Room exclusive takes registry.held ∧
        registry.held + own owner takes = rest + own owner gives := by
  constructor
  · intro exchanged
    have faults := congrArg Registry.faults exchanged
    have taken := le_faults_takeAll exclusive owner takes registry
    have given := le_faults_giveAll owner gives
      (registry.takeAll exclusive owner takes)
    rw [faults] at given
    have faultless := Nat.le_antisymm given taken
    have room := faults_takeAll_iff.mp faultless
    have balance := held_of_faults_giveAll (faults.trans faultless.symm)
    rw [exchanged, takeAll_of_room room] at balance
    exact ⟨room, balance⟩
  · rintro ⟨room, balance⟩
    rw [takeAll_of_room room]
    exact giveAll_of_held balance

/-! ## The parts of a system -/

/-- What the parts hold together; a part is an owner with what it has taken. -/
def total (parts : Multiset (Owner × List Key)) : Multiset (Owner × Key) :=
  parts.bind fun part => own part.1 part.2

omit [DecidableEq Owner] [DecidableEq Key] in
theorem total_cons (owner : Owner) (keys : List Key) (parts : Multiset (Owner × List Key)) :
    total ((owner, keys) ::ₘ parts) = total parts + own owner keys :=
  (Multiset.cons_bind _ _ _).trans (Multiset.add_comm _ _)

omit [DecidableEq Owner] [DecidableEq Key] in
theorem mem_total {parts : Multiset (Owner × List Key)} {key : Key} :
    key ∈ (total parts).map Prod.snd ↔ ∃ part ∈ parts, key ∈ part.2 := by
  simp only [total, Multiset.mem_map, Multiset.mem_bind, Prod.exists, mem_own]
  constructor
  · rintro ⟨owner, _, ⟨other, keys, member, rfl, inKeys⟩, rfl⟩
    exact ⟨owner, keys, member, inKeys⟩
  · rintro ⟨owner, keys, member, inKeys⟩
    exact ⟨owner, key, ⟨owner, keys, member, rfl, inKeys⟩, rfl⟩

omit [DecidableEq Owner] [DecidableEq Key] in
/-- There is room beside parts that none of it clashes with. -/
theorem room_total_iff {exclusive : Key → Bool} {keys : List Key}
    {parts : Multiset (Owner × List Key)} :
    Room exclusive keys (total parts) ↔
      (keys.filter exclusive).Nodup ∧ ∀ part ∈ parts, ¬ Clash exclusive keys part.2 := by
  simp only [Room, mem_total, Clash]
  constructor
  · rintro ⟨distinct, free⟩
    refine ⟨distinct, ?_⟩
    rintro part member ⟨key, asked, alone, inPart⟩
    exact free key asked alone ⟨part, member, inPart⟩
  · rintro ⟨distinct, free⟩
    refine ⟨distinct, ?_⟩
    rintro key asked alone ⟨part, member, inPart⟩
    exact free part member ⟨key, asked, alone, inPart⟩

end Registry

end Mini2440
